import AuthoredStyle.Dict

/-!
# Rules sorted by what they apply to

A stylesheet is kept as four lists of rules: for elements as they stand, for
their `::before` and `::after` boxes, for known breakpoints, and for hovering.
A rule for an element as it stands only lists the properties that it declares,
since their values are read off the page; the others keep values.
-/

namespace AuthoredStyle.Sheet

structure PlainRule where
  selector : String
  properties : NameSet
  /-- The file the rule was read from; empty for bare text. -/
  file : String
  deriving DecidableEq

inductive PseudoElement where
  | before
  | after
  deriving DecidableEq, Repr

namespace PseudoElement

def text : PseudoElement → String
  | before => "::before"
  | after => "::after"

/-- Both elements may be written with one colon. -/
def ofToken? (token : String) : Option PseudoElement :=
  if token = "::before" ∨ token = ":before" then some before
  else if token = "::after" ∨ token = ":after" then some after
  else none

end PseudoElement

structure PseudoRule where
  selector : String
  element : PseudoElement
  properties : Dict String
  deriving DecidableEq

structure MediaRule where
  selector : String
  breakpoint : String
  properties : Dict String
  deriving DecidableEq

structure HoverRule where
  selector : String
  properties : Dict String
  deriving DecidableEq

structure RuleSet where
  plain : List PlainRule := []
  pseudo : List PseudoRule := []
  media : List MediaRule := []
  hover : List HoverRule := []
  deriving DecidableEq

namespace RuleSet

instance : EmptyCollection RuleSet := ⟨{}⟩
instance : Inhabited RuleSet := ⟨∅⟩

/-- Bucket by bucket, the later rules behind the earlier ones. -/
def append (a b : RuleSet) : RuleSet :=
  ⟨a.plain ++ b.plain, a.pseudo ++ b.pseudo, a.media ++ b.media, a.hover ++ b.hover⟩

instance : Append RuleSet := ⟨append⟩

def isEmpty (r : RuleSet) : Bool :=
  r.plain.isEmpty && r.pseudo.isEmpty && r.media.isEmpty && r.hover.isEmpty

def join (rs : List RuleSet) : RuleSet := rs.foldr append ∅

@[simp] theorem plain_append (a b : RuleSet) : (a ++ b).plain = a.plain ++ b.plain := rfl
@[simp] theorem pseudo_append (a b : RuleSet) : (a ++ b).pseudo = a.pseudo ++ b.pseudo := rfl
@[simp] theorem media_append (a b : RuleSet) : (a ++ b).media = a.media ++ b.media := rfl
@[simp] theorem hover_append (a b : RuleSet) : (a ++ b).hover = a.hover ++ b.hover := rfl

@[simp] theorem empty_append (a : RuleSet) : ∅ ++ a = a := rfl

@[simp] theorem append_empty (a : RuleSet) : a ++ ∅ = a := by
  show RuleSet.mk (a.plain ++ []) (a.pseudo ++ []) (a.media ++ []) (a.hover ++ []) = a
  simp

theorem append_assoc (a b c : RuleSet) : a ++ b ++ c = a ++ (b ++ c) := by
  show RuleSet.mk (a.plain ++ b.plain ++ c.plain) _ _ _ = RuleSet.mk _ _ _ _
  simp

@[simp] theorem join_nil : join [] = ∅ := rfl
@[simp] theorem join_cons (r : RuleSet) (rs : List RuleSet) : join (r :: rs) = r ++ join rs := rfl

theorem join_append (rs ss : List RuleSet) : join (rs ++ ss) = join rs ++ join ss := by
  induction rs with
  | nil => rfl
  | cons r rs ih => rw [List.cons_append, join_cons, join_cons, ih, append_assoc]

/-- A bucket of joined rule sets is their buckets one behind the other. -/
theorem bucket_join {β : Type} {bucket : RuleSet → List β} (empty : bucket ∅ = [])
    (append : ∀ a b, bucket (a ++ b) = bucket a ++ bucket b) (rs : List RuleSet) :
    bucket (join rs) = rs.flatMap bucket := by
  induction rs with
  | nil => exact empty
  | cons r rs ih => rw [join_cons, append, ih, List.flatMap_cons]

/-- What appending keeps holds of joined rule sets if it holds of each. -/
theorem join_induction {motive : RuleSet → Prop} (empty : motive ∅)
    (append : ∀ a b, motive a → motive b → motive (a ++ b)) {rs : List RuleSet}
    (h : ∀ r ∈ rs, motive r) : motive (join rs) := by
  induction rs with
  | nil => exact empty
  | cons r rs ih =>
    have later := ih fun q hq => h q (List.mem_cons_of_mem r hq)
    exact append r (join rs) (h r List.mem_cons_self) later

/-- The same rules in each bucket, in any order. -/
structure Perm (a b : RuleSet) : Prop where
  plain : a.plain.Perm b.plain
  pseudo : a.pseudo.Perm b.pseudo
  media : a.media.Perm b.media
  hover : a.hover.Perm b.hover

theorem join_perm {rs ss : List RuleSet} (same : rs.Perm ss) : Perm (join rs) (join ss) where
  plain := by
    rw [bucket_join rfl plain_append, bucket_join rfl plain_append]
    exact same.flatMap_right _
  pseudo := by
    rw [bucket_join rfl pseudo_append, bucket_join rfl pseudo_append]
    exact same.flatMap_right _
  media := by
    rw [bucket_join rfl media_append, bucket_join rfl media_append]
    exact same.flatMap_right _
  hover := by
    rw [bucket_join rfl hover_append, bucket_join rfl hover_append]
    exact same.flatMap_right _

end RuleSet

end AuthoredStyle.Sheet
