import Mathlib.Data.List.Nodup
import Mathlib.Data.String.Basic
import ReviewHub.Json.Basic

/-!
# Canonical members

The members of a canonical object stand in ascending order of their keys, each key once. Hence
taking the members with some key out of an object commutes with making it canonical. If no key
stands twice in an object, it has the members of its canonical form.
-/

namespace ReviewHub.Json

/-- Members in strictly ascending order of their keys. -/
def Ascending (ms : List (String × Json)) : Prop := ms.Pairwise fun a b => a.1 < b.1

/-- The members of an object but those with the key. -/
def without (key : String) (ms : List (String × Json)) : List (String × Json) :=
  ms.filter (·.1 ≠ key)

section Members

variable {key k : String} {v : Json} {ms : List (String × Json)}

theorem without_cons_of_eq (same : k = key) :
    without key ((k, v) :: ms) = without key ms :=
  List.filter_cons_of_neg (by simpa using same)

theorem without_cons_of_ne (other : k ≠ key) :
    without key ((k, v) :: ms) = (k, v) :: without key ms :=
  List.filter_cons_of_pos (by simpa using other)

/-- Other members are found where they were. -/
theorem member?_without (other : k ≠ key) : member? k (without key ms) = member? k ms := by
  induction ms with
  | nil => rfl
  | cons m ms ih =>
      obtain ⟨k', v⟩ := m
      by_cases here : k' = key
      · have elsewhere : k' ≠ k := fun same => other (same.symm.trans here)
        rw [without_cons_of_eq here, ih, member?_cons, if_neg elsewhere]
      · rw [without_cons_of_ne here, member?_cons, member?_cons, ih]

theorem without_of_not_mem (absent : key ∉ ms.map Prod.fst) : without key ms = ms := by
  refine List.filter_eq_self.mpr ?_
  intro m stands
  have other : m.1 ≠ key := fun same => absent (same ▸ List.mem_map_of_mem stands)
  simpa using other

theorem mem_of_member? (found : member? k ms = some v) : (k, v) ∈ ms := by
  induction ms with
  | nil => cases found
  | cons m ms ih =>
      obtain ⟨k', v'⟩ := m
      rw [member?_cons] at found
      split at found
      · next same =>
          cases found
          exact same ▸ List.mem_cons_self
      · exact List.mem_cons_of_mem _ (ih found)

theorem member?_of_not_mem (absent : k ∉ ms.map Prod.fst) : member? k ms = none := by
  cases found : member? k ms with
  | none => rfl
  | some v => exact absurd (List.mem_map_of_mem (mem_of_member? found)) absent

theorem member?_of_mem (once : (ms.map Prod.fst).Nodup) (stands : (k, v) ∈ ms) :
    member? k ms = some v := by
  induction ms with
  | nil => cases stands
  | cons m ms ih =>
      obtain ⟨alone, onceLater⟩ := List.nodup_cons.mp once
      rw [member?_cons]
      rcases List.mem_cons.mp stands with rfl | later
      · rw [if_pos rfl]
      · have other : m.1 ≠ k := fun same => alone (same ▸ List.mem_map_of_mem later)
        rw [if_neg other]
        exact ih onceLater later

/-- Where no key repeats, the order of the members does not matter. -/
theorem member?_of_perm {ns : List (String × Json)} (once : (ms.map Prod.fst).Nodup)
    (perm : ms.Perm ns) (k : String) : member? k ms = member? k ns := by
  have onceToo := (perm.map Prod.fst).nodup_iff.mp once
  cases found : member? k ms with
  | some v => exact (member?_of_mem onceToo (perm.subset (mem_of_member? found))).symm
  | none =>
      cases foundToo : member? k ns with
      | none => rfl
      | some v =>
          have stands := perm.symm.subset (mem_of_member? foundToo)
          cases found.symm.trans (member?_of_mem once stands)

/-- Each key stands once among ascending members. -/
theorem nodup_of_ascending (ascending : Ascending ms) : (ms.map Prod.fst).Nodup :=
  List.pairwise_map.mpr (ascending.imp ne_of_lt)

theorem Ascending.without (ascending : Ascending ms) (key : String) :
    Ascending (without key ms) :=
  List.Pairwise.filter _ ascending

/-- A key below all others comes first. -/
theorem insertAbsent_of_lt (below : ∀ m ∈ ms, k < m.1) :
    insertAbsent k v ms = (k, v) :: ms := by
  cases ms with
  | nil => rfl
  | cons m ms => rw [insertAbsent, if_pos (below m List.mem_cons_self)]

theorem mem_insertAbsent {m : String × Json} (member : m ∈ insertAbsent k v ms) :
    m = (k, v) ∨ m ∈ ms := by
  induction ms with
  | nil => exact .inl (List.mem_singleton.mp member)
  | cons m' ms ih =>
      rw [insertAbsent] at member
      split at member
      · exact List.mem_cons.mp member
      · split at member
        · exact .inr member
        · rcases List.mem_cons.mp member with first | later
          · exact .inr (List.mem_cons.mpr (.inl first))
          · exact (ih later).imp_right (List.mem_cons_of_mem m')

theorem ascending_insertAbsent (ascending : Ascending ms) : Ascending (insertAbsent k v ms) := by
  induction ms with
  | nil => exact List.pairwise_singleton _ _
  | cons m ms ih =>
      obtain ⟨above, rest⟩ := List.pairwise_cons.mp ascending
      rw [insertAbsent]
      split
      · next below =>
          refine List.pairwise_cons.mpr ⟨?_, ascending⟩
          intro m' member
          rcases List.mem_cons.mp member with rfl | later
          · exact below
          · exact below.trans (above m' later)
      · next notBelow =>
          split
          · exact ascending
          · next different =>
              have after : m.1 < k := lt_of_le_of_ne (not_lt.mp notBelow) (Ne.symm different)
              refine List.pairwise_cons.mpr ⟨?_, ih rest⟩
              intro m' member
              rcases mem_insertAbsent member with rfl | later
              · exact after
              · exact above m' later

theorem ascending_canonicalMembers (ms : List (String × Json)) :
    Ascending (canonicalMembers ms) := by
  induction ms with
  | nil => exact .nil
  | cons m ms ih => exact ascending_insertAbsent ih

theorem without_insertAbsent_of_eq (same : k = key) (ms : List (String × Json)) :
    without key (insertAbsent k v ms) = without key ms := by
  induction ms with
  | nil => exact without_cons_of_eq same
  | cons m ms ih =>
      rw [insertAbsent]
      split
      · exact without_cons_of_eq same
      · split
        · rfl
        · by_cases here : m.1 = key
          · rw [without_cons_of_eq here, without_cons_of_eq here, ih]
          · rw [without_cons_of_ne here, without_cons_of_ne here, ih]

theorem without_insertAbsent_of_ne (other : k ≠ key) (ascending : Ascending ms) :
    without key (insertAbsent k v ms) = insertAbsent k v (without key ms) := by
  induction ms with
  | nil => exact without_cons_of_ne other
  | cons m ms ih =>
      obtain ⟨above, rest⟩ := List.pairwise_cons.mp ascending
      obtain ⟨k', v'⟩ := m
      rw [insertAbsent]
      split
      · next below =>
          have first : ∀ m ∈ without key ((k', v') :: ms), k < m.1 := by
            intro m member
            rcases List.mem_cons.mp (List.mem_of_mem_filter member) with rfl | later
            · exact below
            · exact below.trans (above m later)
          rw [without_cons_of_ne other, insertAbsent_of_lt first]
      · next notBelow =>
          split
          · next same =>
              have here : k' ≠ key := same ▸ other
              rw [without_cons_of_ne here, insertAbsent, if_neg notBelow, if_pos same]
          · next different =>
              by_cases here : k' = key
              · rw [without_cons_of_eq here, without_cons_of_eq here, ih rest]
              · rw [without_cons_of_ne here, without_cons_of_ne here, insertAbsent,
                  if_neg notBelow, if_neg different, ih rest]

/-- What is left out of an object is left out of its canonical form. -/
theorem without_canonicalMembers (key : String) (ms : List (String × Json)) :
    without key (canonicalMembers ms) = canonicalMembers (without key ms) := by
  induction ms with
  | nil => rfl
  | cons m ms ih =>
      obtain ⟨k, v⟩ := m
      rw [canonicalMembers]
      by_cases here : k = key
      · rw [without_insertAbsent_of_eq here, without_cons_of_eq here, ih]
      · rw [without_insertAbsent_of_ne here (ascending_canonicalMembers ms), ih,
          without_cons_of_ne here, canonicalMembers]

/-! ### Objects without repeated keys -/

theorem member?_insertAbsent (absent : key ∉ ms.map Prod.fst) :
    member? k (insertAbsent key v ms) = if key = k then some v else member? k ms := by
  induction ms with
  | nil => rfl
  | cons m ms ih =>
      obtain ⟨k', v'⟩ := m
      obtain ⟨different, absentLater⟩ := not_or.mp (List.mem_cons.not.mp absent)
      have elsewhere : ¬key = k' := different
      rw [insertAbsent, if_neg elsewhere]
      split
      · rfl
      · rw [member?_cons, ih absentLater, member?_cons]
        by_cases here : key = k
        · rw [if_pos here, if_pos here, if_neg fun same => elsewhere (here.trans same.symm)]
        · rw [if_neg here, if_neg here]

theorem key_mem_of_mem_canonicalMembers {m : String × Json} (stands : m ∈ canonicalMembers ms) :
    m.1 ∈ ms.map Prod.fst := by
  induction ms with
  | nil => cases stands
  | cons entry ms ih =>
      rcases mem_insertAbsent stands with rfl | later
      · exact List.mem_cons_self
      · exact List.mem_cons_of_mem _ (ih later)

theorem not_mem_map_fst_canonicalMembers (absent : k ∉ ms.map Prod.fst) :
    k ∉ (canonicalMembers ms).map Prod.fst := by
  intro stands
  obtain ⟨entry, member, rfl⟩ := List.mem_map.mp stands
  exact absent (key_mem_of_mem_canonicalMembers member)

/-- Where no key repeats, each member stands in the canonical form with its canonical value. -/
theorem member?_canonicalMembers (once : (ms.map Prod.fst).Nodup) (k : String) :
    member? k (canonicalMembers ms) = (member? k ms).map canonical := by
  induction ms with
  | nil => rfl
  | cons m ms ih =>
      obtain ⟨k', v⟩ := m
      obtain ⟨alone, onceLater⟩ := List.nodup_cons.mp once
      have absent := not_mem_map_fst_canonicalMembers alone
      rw [canonicalMembers, member?_insertAbsent absent, ih onceLater, member?_cons]
      split <;> rfl

end Members

/-- No object in the value has a key twice, at any depth. -/
inductive KeysDistinct : Json → Prop where
  | null : KeysDistinct .null
  | bool (b : Bool) : KeysDistinct (.bool b)
  | integer (n : Int) : KeysDistinct (.integer n)
  | real (x : Float) : KeysDistinct (.real x)
  | string (s : String) : KeysDistinct (.string s)
  | array {xs : List Json} (elements : ∀ x ∈ xs, KeysDistinct x) : KeysDistinct (.array xs)
  | object {ms : List (String × Json)} (once : (ms.map Prod.fst).Nodup)
      (values : ∀ m ∈ ms, KeysDistinct m.2) : KeysDistinct (.object ms)

namespace KeysDistinct

attribute [simp] null bool integer real string

variable {xs : List Json} {ms : List (String × Json)}

@[simp] theorem array_iff : KeysDistinct (.array xs) ↔ ∀ x ∈ xs, KeysDistinct x := by
  refine ⟨?_, array⟩
  rintro ⟨⟩
  assumption

@[simp] theorem object_iff :
    KeysDistinct (.object ms) ↔ (ms.map Prod.fst).Nodup ∧ ∀ m ∈ ms, KeysDistinct m.2 := by
  refine ⟨?_, fun ⟨once, values⟩ => object once values⟩
  rintro ⟨⟩
  constructor <;> assumption

theorem without (distinct : KeysDistinct (.object ms)) (key : String) :
    KeysDistinct (.object (without key ms)) := by
  obtain ⟨once, values⟩ := object_iff.mp distinct
  exact object (once.sublist (List.filter_sublist.map Prod.fst))
    fun m stands => values m (List.mem_of_mem_filter stands)

end KeysDistinct

end ReviewHub.Json
