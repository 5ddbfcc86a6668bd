import AuthoredStyle.Css.Shorthand

/-!
# Transforms and transitions
-/

namespace AuthoredStyle.Css

open Reader

/-! ## Transforms -/

def transformNames : List String :=
  ["translate", "translateX", "translateY", "translateZ", "translate3d", "scale", "scaleX",
   "scaleY", "scaleZ", "scale3d", "rotate", "rotateX", "rotateY", "rotateZ", "rotate3d", "skew",
   "skewX", "skewY", "matrix", "matrix3d", "perspective"]

def turning : List String :=
  ["rotate", "rotateX", "rotateY", "rotateZ", "rotate3d", "skew", "skewX", "skewY"]

/-- An angle that is nought needs no unit. -/
def plainAngle : Reader := fun xs =>
  (angle xs).map fun (s, rest) =>
    (if ["0deg", "0grad", "0rad", "0turn"].contains s then "0" else s, rest)

def transformArgument (name : String) : Reader :=
  if turning.contains name then plainAngle.or number
  else if "scale".toList.isPrefixOf name.toList || "matrix".toList.isPrefixOf name.toList then
    number.or percentage
  else lengthPercentage

/-- A second argument that says nothing new is left out. -/
def transformArguments (name : String) (ss : List String) : List String :=
  match name, ss with
  | "translate", [x, "0"] => [x]
  | "skew", [x, "0"] => [x]
  | "scale", [x, y] => if x = y then [x] else [x, y]
  | _, ss => ss

def transformFunction : Reader := one fun
  | .function name xs => do
    let name ← transformNames.find? fun n => lowered n = lowered name
    let ss ← (splitCommas (withoutGaps xs)).mapM (whole? (transformArgument name))
    return name ++ "(" ++ ", ".intercalate (transformArguments name ss) ++ ")"
  | _ => none

def transform : Reader := fun xs =>
  match keyword ["none"] xs, manyUpTo transformFunction xs.length xs with
  | some r, _ => some r
  | none, ([], _) => none
  | none, (ss, rest) => some (spaced ss, rest)

/-! ## Transitions -/

def easingFunction : Reader := one fun
  | .function name xs => do
    let args := splitCommas (withoutGaps xs)
    match lowered name, args with
    | "cubic-bezier", [_, _, _, _] =>
      return "cubic-bezier(" ++ ", ".intercalate (← args.mapM (whole? number)) ++ ")"
    | "steps", [n] => return "steps(" ++ (← whole? wholeNumber n) ++ ")"
    | "steps", [n, [p]] =>
      let n ← whole? wholeNumber n
      match ← p.keyword? with
      | "end" | "jump-end" => return "steps(" ++ n ++ ")"
      | "start" | "jump-start" => return "steps(" ++ n ++ ", start)"
      | "jump-none" => return "steps(" ++ n ++ ", jump-none)"
      | "jump-both" => return "steps(" ++ n ++ ", jump-both)"
      | _ => none
    | _, _ => none
  | _ => none

def easing : Reader :=
  (keyword ["linear", "ease", "ease-in", "ease-out", "ease-in-out", "step-start", "step-end"]).or
    easingFunction

def transitionProperty : Reader := one fun x => x.ident?.map identText

/-- One transition: what changes, how long, how and how late. -/
def transitionOf : Reader := fun xs => do
  let (read, rest) ← someParts? [time, easing, time, transitionProperty] xs
  match read with
  | [duration, easing, delay, property] =>
    let duration := duration.getD "0s"
    let delay := delay.filter (· ≠ "0s")
    let shown := if duration ≠ "0s" || delay.isSome then [duration] else []
    return (spaced (property.getD "all" :: shown ++ easing.toList.filter (· ≠ "ease")
      ++ delay.toList), rest)
  | _ => none

def transition : Reader := list transitionOf

end AuthoredStyle.Css
