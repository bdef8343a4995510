import Mathlib.Data.List.Nodup

/-! Lists of entries searched by key.

An entry list is scanned from the front for the first entry whose key equals
the one sought, as a loop with an early `break` does. The lemmas say what
the scan finds after each of the three ways such a list is rebuilt: an entry
appended at the end, the entry at the position the scan found rewritten, and
the entry at that position removed. Keys are compared through `keyOf`, so the
stored entries may carry more than their key.
-/

set_option autoImplicit false

namespace KeyedList

variable {E K : Type} [DecidableEq K] (keyOf : E → K)

/-- Position of the first entry with key `key`, or the length when there is none. -/
def findIndex (entries : List E) (key : K) : Nat :=
  entries.findIdx fun entry => keyOf entry = key

/-- The first entry with key `key`. -/
def find (entries : List E) (key : K) : Option E :=
  entries.find? fun entry => keyOf entry = key

variable {keyOf}

@[simp] theorem findIndex_nil (key : K) : findIndex keyOf [] key = 0 := rfl

theorem findIndex_cons (entry : E) (entries : List E) (key : K) :
    findIndex keyOf (entry :: entries) key =
      if keyOf entry = key then 0 else findIndex keyOf entries key + 1 := by
  by_cases same : keyOf entry = key <;> simp [findIndex, List.findIdx_cons, same]

@[simp] theorem find_nil (key : K) : find keyOf [] key = none := rfl

theorem find_cons (entry : E) (entries : List E) (key : K) :
    find keyOf (entry :: entries) key =
      if keyOf entry = key then some entry else find keyOf entries key := by
  by_cases same : keyOf entry = key <;> simp [find, same]

theorem find_eq_none_iff {entries : List E} {key : K} :
    find keyOf entries key = none ↔ key ∉ entries.map keyOf := by
  simp [find]

theorem findIndex_lt_length_iff {entries : List E} {key : K} :
    findIndex keyOf entries key < entries.length ↔ key ∈ entries.map keyOf := by
  simp [findIndex, List.findIdx_lt_length]

theorem findIndex_eq_length_iff {entries : List E} {key : K} :
    findIndex keyOf entries key = entries.length ↔ key ∉ entries.map keyOf := by
  rw [← findIndex_lt_length_iff]
  have atMost : findIndex keyOf entries key ≤ entries.length := List.findIdx_le_length
  omega

theorem keyOf_getElem_findIndex {entries : List E} {key : K}
    (found : findIndex keyOf entries key < entries.length) :
    keyOf entries[findIndex keyOf entries key] = key := by
  have first := @List.findIdx_getElem _ (fun entry => decide (keyOf entry = key)) entries found
  exact of_decide_eq_true first

theorem find_eq_getElem_findIndex {entries : List E} {key : K}
    (found : findIndex keyOf entries key < entries.length) :
    find keyOf entries key = some entries[findIndex keyOf entries key] := by
  induction entries with
  | nil => simp at found
  | cons entry entries ih =>
    by_cases same : keyOf entry = key
    · simp [find_cons, findIndex_cons, same]
    · have rest : findIndex keyOf entries key < entries.length := by
        simp only [findIndex_cons, same, if_false, List.length_cons] at found
        omega
      simp [find_cons, findIndex_cons, same, ih rest]

theorem find_eq_some_iff {entries : List E} {key : K} {entry : E} (unique : (entries.map keyOf).Nodup) :
    find keyOf entries key = some entry ↔ entry ∈ entries ∧ keyOf entry = key := by
  induction entries with
  | nil => simp
  | cons head entries ih =>
    have headAbsent : keyOf head ∉ entries.map keyOf := (List.nodup_cons.mp (by simpa using unique)).1
    have restUnique : (entries.map keyOf).Nodup := (List.nodup_cons.mp (by simpa using unique)).2
    rw [find_cons]
    by_cases headKey : keyOf head = key
    · -- the head is the only entry under its key
      subst headKey
      rw [if_pos rfl]
      constructor
      · rintro ⟨⟩
        exact ⟨List.mem_cons_self, rfl⟩
      · rintro ⟨member, sameKey⟩
        rcases List.mem_cons.mp member with rfl | later
        · rfl
        · exact absurd (sameKey ▸ List.mem_map_of_mem later) headAbsent
    · simp only [headKey, if_false, List.mem_cons, ih restUnique]
      constructor
      · exact fun ⟨member, sameKey⟩ => ⟨Or.inr member, sameKey⟩
      · rintro ⟨rfl | member, sameKey⟩
        · exact absurd sameKey headKey
        · exact ⟨member, sameKey⟩

theorem find_map_congr {V : Type} {value : E → V} {first second : List E}
    (same : first.map (fun entry => (keyOf entry, value entry)) = second.map (fun entry => (keyOf entry, value entry)))
    (key : K) : (find keyOf first key).map value = (find keyOf second key).map value := by
  induction first generalizing second with
  | nil =>
    cases second with
    | nil => rfl
    | cons _ _ => simp at same
  | cons head first ih =>
    cases second with
    | nil => simp at same
    | cons other second =>
      simp only [List.map_cons, List.cons.injEq, Prod.mk.injEq] at same
      obtain ⟨⟨sameKey, sameValue⟩, rest⟩ := same
      rw [find_cons, find_cons, sameKey]
      by_cases found : keyOf other = key
      · simp [found, sameValue]
      · simp only [found, if_false]
        exact ih rest

theorem find_congr {other : E → K} {entries : List E} (same : ∀ entry ∈ entries, keyOf entry = other entry)
    (key : K) : find keyOf entries key = find other entries key := by
  induction entries with
  | nil => rfl
  | cons head entries ih =>
    rw [find_cons, find_cons, same head List.mem_cons_self,
      ih fun entry member => same entry (List.mem_cons_of_mem head member)]

/-! ## Rebuilding an entry list -/

theorem find_append_of_not_mem {entries : List E} {entry : E} (absent : keyOf entry ∉ entries.map keyOf)
    (key : K) :
    find keyOf (entries ++ [entry]) key =
      if keyOf entry = key then some entry else find keyOf entries key := by
  by_cases same : keyOf entry = key
  · subst same
    have none : find keyOf entries (keyOf entry) = none := find_eq_none_iff.mpr absent
    simp only [find, List.find?_append] at none ⊢
    simp [none]
  · simp only [find, List.find?_append, same]
    cases (entries.find? fun entry => keyOf entry = key) <;> simp [same]

omit [DecidableEq K] in
theorem nodup_append_of_not_mem {entries : List E} {entry : E} (unique : (entries.map keyOf).Nodup)
    (absent : keyOf entry ∉ entries.map keyOf) : ((entries ++ [entry]).map keyOf).Nodup := by
  rw [List.map_append, List.nodup_append]
  refine ⟨unique, List.nodup_singleton _, ?_⟩
  rintro stored member fresh freshMember rfl
  simp only [List.map_cons, List.map_nil, List.mem_singleton] at freshMember
  exact absent (freshMember ▸ member)

theorem find_modify_findIndex {entries : List E} {key : K} {update : E → E}
    (keepsKey : ∀ entry, keyOf (update entry) = keyOf entry) (other : K) :
    find keyOf (entries.modify (findIndex keyOf entries key) update) other =
      if key = other then (find keyOf entries key).map update else find keyOf entries other := by
  induction entries with
  | nil => by_cases same : key = other <;> simp [same]
  | cons head entries ih =>
    by_cases headKey : keyOf head = key
    · subst headKey
      rw [findIndex_cons, if_pos rfl, List.modify_zero_cons, find_cons, find_cons, keepsKey]
      by_cases same : keyOf head = other <;> simp [same, find_cons]
    · rw [findIndex_cons, if_neg headKey, List.modify_succ_cons, find_cons, ih]
      by_cases same : key = other
      · subst same
        simp [headKey, find_cons]
      · simp [same, find_cons]

omit [DecidableEq K] in
theorem map_modify {entries : List E} {update : E → E} (keepsKey : ∀ entry, keyOf (update entry) = keyOf entry)
    (index : Nat) : (entries.modify index update).map keyOf = entries.map keyOf := by
  induction entries generalizing index with
  | nil => simp
  | cons head entries ih =>
    cases index with
    | zero => simp [keepsKey]
    | succ index => simp [List.modify_succ_cons, ih]

theorem find_eraseIdx_findIndex {entries : List E} {key : K} (unique : (entries.map keyOf).Nodup)
    (other : K) :
    find keyOf (entries.eraseIdx (findIndex keyOf entries key)) other =
      if key = other then none else find keyOf entries other := by
  induction entries with
  | nil => by_cases same : key = other <;> simp [same]
  | cons head entries ih =>
    have headAbsent : keyOf head ∉ entries.map keyOf := (List.nodup_cons.mp (by simpa using unique)).1
    have restUnique : (entries.map keyOf).Nodup := (List.nodup_cons.mp (by simpa using unique)).2
    by_cases headKey : keyOf head = key
    · subst headKey
      rw [findIndex_cons, if_pos rfl, List.eraseIdx_cons_zero, find_cons]
      by_cases same : keyOf head = other
      · subst same
        simp [find_eq_none_iff.mpr headAbsent]
      · simp [same]
    · rw [findIndex_cons, if_neg headKey, List.eraseIdx_cons_succ, find_cons, find_cons, ih restUnique]
      by_cases same : key = other
      · subst same
        simp [headKey]
      · simp [same]

omit [DecidableEq K] in
theorem nodup_eraseIdx {entries : List E} (unique : (entries.map keyOf).Nodup) (index : Nat) :
    ((entries.eraseIdx index).map keyOf).Nodup :=
  ((List.eraseIdx_sublist entries index).map keyOf).nodup unique

end KeyedList
