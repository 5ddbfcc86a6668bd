import AuthoredStyle.NameSet

/-!
# Finite maps keyed by text

A dictionary lists its entries by strictly increasing key. Each key occurs
once, a later `insert` replaces the value, and two dictionaries that answer
every key alike are equal.
-/

namespace AuthoredStyle

structure Dict (β : Type) where
  entries : List (String × β)
  increasing : entries.Pairwise (·.1 < ·.1)

namespace Dict

variable {β : Type}

instance [DecidableEq β] : DecidableEq (Dict β) := fun a b =>
  if h : a.entries = b.entries then
    isTrue (by cases a; cases b; cases h; rfl)
  else isFalse (by rintro rfl; exact h rfl)

instance : EmptyCollection (Dict β) := ⟨⟨[], .nil⟩⟩
instance : Inhabited (Dict β) := ⟨∅⟩

def isEmpty (d : Dict β) : Bool := d.entries.isEmpty

/-- The value in an entry list, at the first entry with the key. -/
def valueIn (k : String) : List (String × β) → Option β
  | [] => none
  | (k', v) :: rest => if k = k' then some v else valueIn k rest

def get? (d : Dict β) (k : String) : Option β := valueIn k d.entries

def contains (d : Dict β) (k : String) : Bool := (d.get? k).isSome

/-- The entry at its place in an increasing list, instead of one with its key. -/
def place (k : String) (v : β) : List (String × β) → List (String × β)
  | [] => [(k, v)]
  | e :: rest =>
    if k < e.1 then (k, v) :: e :: rest
    else if k = e.1 then (k, v) :: rest
    else e :: place k v rest

theorem key_of_mem_place {k : String} {v : β} {es : List (String × β)} {e : String × β}
    (h : e ∈ place k v es) : e.1 = k ∨ e ∈ es := by
  induction es with
  | nil =>
    rw [place, List.mem_singleton] at h
    exact .inl (by rw [h])
  | cons a rest ih =>
    rw [place] at h
    split at h
    · rcases List.mem_cons.mp h with rfl | h
      · exact .inl rfl
      · exact .inr h
    · split at h
      · rcases List.mem_cons.mp h with rfl | h
        · exact .inl rfl
        · exact .inr (List.mem_cons_of_mem _ h)
      · rcases List.mem_cons.mp h with rfl | h
        · exact .inr List.mem_cons_self
        · exact (ih h).imp_right (List.mem_cons_of_mem _)

theorem place_increasing {k : String} {v : β} {es : List (String × β)}
    (h : es.Pairwise (·.1 < ·.1)) : (place k v es).Pairwise (·.1 < ·.1) := by
  induction h with
  | nil => simp [place]
  | @cons a rest above later ih =>
    rw [place]
    split
    · rename_i below
      refine .cons ?_ (.cons above later)
      intro e he
      rcases List.mem_cons.mp he with rfl | he
      · exact below
      · exact String.lt_trans below (above e he)
    · split
      · rename_i same
        exact .cons (fun e he => same ▸ above e he) later
      · rename_i notBelow other
        refine .cons ?_ ih
        intro e he
        rcases key_of_mem_place he with key | he
        · rw [key]
          rcases Std.lt_trichotomy k a.1 with lt | eq | gt
          · exact absurd lt notBelow
          · exact absurd eq other
          · exact gt
        · exact above e he

def insert (d : Dict β) (k : String) (v : β) : Dict β :=
  ⟨place k v d.entries, place_increasing d.increasing⟩

def ofList (es : List (String × β)) : Dict β := es.foldl (fun d e => d.insert e.1 e.2) ∅

def keyList (d : Dict β) : List String := d.entries.map (·.1)

def values (d : Dict β) : List β := d.entries.map (·.2)

def keys (d : Dict β) : NameSet :=
  ⟨d.keyList, List.pairwise_map.mpr d.increasing⟩

/-- The entries whose keys pass a test. -/
def filterKeys (d : Dict β) (keep : String → Bool) : Dict β :=
  ⟨d.entries.filter (keep ·.1), d.increasing.filter _⟩

theorem valueIn_place {k j : String} {v : β} {es : List (String × β)} :
    valueIn j (place k v es) = if j = k then some v else valueIn j es := by
  induction es with
  | nil => rfl
  | cons a rest ih =>
    rw [place]
    split
    · rfl
    · split
      · rename_i same
        simp only [valueIn, same]
        split <;> rfl
      · rename_i other
        simp only [valueIn, ih]
        split
        · rename_i here
          rw [if_neg]
          rintro rfl
          exact other here
        · rfl

@[simp] theorem get?_insert (d : Dict β) (k j : String) (v : β) :
    (d.insert k v).get? j = if j = k then some v else d.get? j := valueIn_place

@[simp] theorem get?_empty (k : String) : (∅ : Dict β).get? k = none := rfl

theorem valueIn_eq_some_iff {k : String} {v : β} {es : List (String × β)}
    (h : es.Pairwise (·.1 < ·.1)) : valueIn k es = some v ↔ (k, v) ∈ es := by
  induction h with
  | nil => simp [valueIn]
  | @cons a rest above later ih =>
    obtain ⟨k', v'⟩ := a
    rw [valueIn]
    split
    · rename_i here
      subst here
      rw [Option.some.injEq, List.mem_cons, Prod.mk.injEq]
      constructor
      · rintro rfl
        exact .inl ⟨rfl, rfl⟩
      · rintro (⟨-, e⟩ | he)
        · exact e.symm
        · exact absurd (above _ he) (String.lt_irrefl k)
    · rename_i other
      rw [ih, List.mem_cons, Prod.mk.injEq]
      constructor
      · exact .inr
      · rintro (⟨e, -⟩ | he)
        · exact absurd e other
        · exact he

theorem get?_eq_some_iff {d : Dict β} {k : String} {v : β} :
    d.get? k = some v ↔ (k, v) ∈ d.entries := valueIn_eq_some_iff d.increasing

theorem get?_filterKeys (d : Dict β) (keep : String → Bool) (k : String) :
    (d.filterKeys keep).get? k = if keep k then d.get? k else none := by
  have filtered (es : List (String × β)) :
      valueIn k (es.filter (keep ·.1)) = if keep k then valueIn k es else none := by
    induction es with
    | nil => simp [valueIn]
    | cons e es ih =>
      rw [List.filter_cons]
      by_cases here : k = e.1
      · subst here
        split <;> simp_all [valueIn]
      · split <;> simp [valueIn, here, ih]
  exact filtered d.entries

/-- Increasing entry lists with the same look-ups are the same list. -/
theorem eq_of_increasing {xs ys : List (String × β)} (hx : xs.Pairwise (·.1 < ·.1))
    (hy : ys.Pairwise (·.1 < ·.1)) (h : ∀ k, valueIn k xs = valueIn k ys) : xs = ys := by
  induction xs generalizing ys with
  | nil =>
    cases ys with
    | nil => rfl
    | cons y ys =>
      have := h y.1
      simp [valueIn] at this
  | cons x xs ih =>
    cases ys with
    | nil =>
      have := h x.1
      simp [valueIn] at this
    | cons y ys =>
      have mx : (x.1, x.2) ∈ y :: ys := by
        rw [← valueIn_eq_some_iff hy, ← h, valueIn_eq_some_iff hx]
        exact List.mem_cons_self
      have my : (y.1, y.2) ∈ x :: xs := by
        rw [← valueIn_eq_some_iff hx, h, valueIn_eq_some_iff hy]
        exact List.mem_cons_self
      obtain ⟨ax, hx'⟩ := List.pairwise_cons.mp hx
      obtain ⟨ay, hy'⟩ := List.pairwise_cons.mp hy
      have same : x = y := by
        rcases List.mem_cons.mp mx with e | hxy
        · exact e
        · rcases List.mem_cons.mp my with e | hyx
          · exact e.symm
          · exact absurd (ax _ hyx) (String.lt_asymm (ay _ hxy))
      subst same
      rw [ih hx' hy']
      intro k
      by_cases hk : k = x.1
      · have gone : ∀ zs : List (String × β), (∀ e ∈ zs, x.1 < e.1) → valueIn x.1 zs = none := by
          intro zs
          induction zs with
          | nil => intro _; rfl
          | cons z zs ihz =>
            intro above
            rw [valueIn, if_neg, ihz (fun e he => above e (List.mem_cons_of_mem _ he))]
            intro e
            exact String.lt_irrefl _ (e ▸ above z List.mem_cons_self)
        rw [hk, gone xs ax, gone ys ay]
      · have := h k
        simpa [valueIn, hk] using this

@[ext] theorem ext {a b : Dict β} (h : ∀ k, a.get? k = b.get? k) : a = b := by
  cases a
  cases b
  congr
  exact eq_of_increasing ‹_› ‹_› h

/-- Of entries that are put one after the other, the last one with the key counts. -/
theorem get?_foldl_insert (es : List (String × β)) (d : Dict β) (k : String) :
    (es.foldl (fun d e => d.insert e.1 e.2) d).get? k =
      ((es.reverse.find? (·.1 = k)).map (·.2)).or (d.get? k) := by
  induction es generalizing d with
  | nil => rfl
  | cons e es ih =>
    rw [List.foldl_cons, ih, get?_insert, List.reverse_cons, List.find?_append]
    by_cases here : e.1 = k
    · cases es.reverse.find? (·.1 = k) <;> simp [here]
    · cases es.reverse.find? (·.1 = k) <;> simp [here, Ne.symm here]

/-- What is put in key by key is there under these keys. -/
theorem get?_foldl_insert_map (ks : List String) (f : String → β) (d : Dict β) (k : String) :
    ((ks.map fun k => (k, f k)).foldl (fun d e => d.insert e.1 e.2) d).get? k =
      if k ∈ ks then some (f k) else d.get? k := by
  induction ks generalizing d with
  | nil => simp
  | cons j ks ih =>
    rw [List.map_cons, List.foldl_cons, ih, get?_insert]
    by_cases later : k ∈ ks
    · simp [later]
    · by_cases here : k = j <;> simp [later, here]

/-- Other keys stay as they are, whatever the values put in depend on. -/
theorem get?_foldl_insert_other {ks : List String} (f : Dict β → String → β) (d : Dict β)
    {k : String} (other : k ∉ ks) :
    (ks.foldl (fun d j => d.insert j (f d j)) d).get? k = d.get? k := by
  induction ks generalizing d with
  | nil => rfl
  | cons j ks ih =>
    rw [List.mem_cons, not_or] at other
    rw [List.foldl_cons, ih _ other.2, get?_insert, if_neg other.1]

theorem mem_of_mem_ofList {es : List (String × β)} {e : String × β} (h : e ∈ (ofList es).entries) :
    e ∈ es := by
  have found : (ofList es).get? e.1 = some e.2 := get?_eq_some_iff.mpr h
  rw [ofList, get?_foldl_insert, get?_empty, Option.or_none] at found
  obtain ⟨d, last, value⟩ := Option.map_eq_some_iff.mp found
  have key : d.1 = e.1 := by simpa using List.find?_some last
  have mem := List.mem_reverse.mp (List.mem_of_find?_eq_some last)
  rwa [Prod.ext key value] at mem

theorem ofList_ne_empty {es : List (String × β)} (some : es ≠ []) : ofList es ≠ ∅ := by
  obtain ⟨e, rest, rfl⟩ := List.exists_cons_of_ne_nil some
  intro none
  have found := get?_foldl_insert (e :: rest) ∅ e.1
  rw [← ofList, none, get?_empty, Option.or_none, eq_comm, Option.map_eq_none_iff,
    List.find?_eq_none] at found
  exact found e (by simp) (decide_eq_true rfl)

theorem place_behind {k : String} {v : β} {es : List (String × β)} (h : ∀ e ∈ es, e.1 < k) :
    place k v es = es ++ [(k, v)] := by
  induction es with
  | nil => rfl
  | cons e es ih =>
    have below := h e List.mem_cons_self
    have other : k ≠ e.1 := fun same => String.lt_irrefl k (by rwa [← same] at below)
    rw [place, if_neg (String.lt_asymm below), if_neg other,
      ih fun d hd => h d (List.mem_cons_of_mem e hd)]
    rfl

/-- Increasing entries are kept as they stand. -/
theorem entries_ofList {es : List (String × β)} (h : es.Pairwise (·.1 < ·.1)) :
    (ofList es).entries = es := by
  have behind (d : Dict β) (increasing : (d.entries ++ es).Pairwise (·.1 < ·.1)) :
      (es.foldl (fun d e => d.insert e.1 e.2) d).entries = d.entries ++ es := by
    clear h
    induction es generalizing d with
    | nil => simp
    | cons e es ih =>
      have above : ∀ a ∈ d.entries, a.1 < e.1 := fun a ha =>
        (List.pairwise_append.mp increasing).2.2 a ha e List.mem_cons_self
      have grown : (d.insert e.1 e.2).entries = d.entries ++ [e] := place_behind above
      rw [List.foldl_cons, ih, grown]
      · simp
      · rw [grown]
        simpa using increasing
  exact behind ∅ h

theorem ofList_entries (d : Dict β) : ofList d.entries = d := by
  have same := entries_ofList d.increasing
  cases built : ofList d.entries
  cases d
  simpa [built] using same

end Dict

end AuthoredStyle
