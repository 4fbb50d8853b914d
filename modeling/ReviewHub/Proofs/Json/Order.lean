import ReviewHub.Proofs.Json.Canonical

/-!
# The order of members

Values that differ only in the order in which members stand in objects, at any depth. They have the
same canonical form, unless a key is repeated: then it depends on the order which member counts.
-/

namespace ReviewHub.Json

/-- The one value is the other with the members of objects in another order, at any depth. -/
inductive Reordered : Json → Json → Prop where
  | refl (v : Json) : Reordered v v
  | trans {u v w : Json} : Reordered u v → Reordered v w → Reordered u w
  | object {ms ns : List (String × Json)} (perm : ms.Perm ns) : Reordered (.object ms) (.object ns)
  | element {v w : Json} (inner : Reordered v w) (before after : List Json) :
      Reordered (.array (before ++ v :: after)) (.array (before ++ w :: after))
  | member {v w : Json} (inner : Reordered v w) (before : List (String × Json)) (key : String)
      (after : List (String × Json)) :
      Reordered (.object (before ++ (key, v) :: after)) (.object (before ++ (key, w) :: after))

section Members

variable {key k : String} {v w : Json} {ms ns : List (String × Json)}

theorem insertAbsent_perm (absent : k ∉ ms.map Prod.fst) :
    (insertAbsent k v ms).Perm ((k, v) :: ms) := by
  induction ms with
  | nil => exact .refl _
  | cons m ms ih =>
      obtain ⟨different, absentLater⟩ := not_or.mp (List.mem_cons.not.mp absent)
      rw [insertAbsent, if_neg (fun same => different same)]
      split
      · exact .refl _
      · exact ((ih absentLater).cons m).trans (.swap _ _ _)

/-- Where no key repeats, the canonical members are those of the object with canonical values. -/
theorem canonicalMembers_perm (once : (ms.map Prod.fst).Nodup) :
    (canonicalMembers ms).Perm (ms.map fun m => (m.1, m.2.canonical)) := by
  induction ms with
  | nil => exact .refl _
  | cons m ms ih =>
      obtain ⟨k, v⟩ := m
      obtain ⟨alone, onceLater⟩ := List.nodup_cons.mp once
      have absent := not_mem_map_fst_canonicalMembers alone
      rw [canonicalMembers, List.map_cons]
      exact (insertAbsent_perm absent).trans ((ih onceLater).cons _)

/-- Ascending members are determined by what they are. -/
theorem eq_of_perm (perm : ms.Perm ns) (ascending : Ascending ms) (ascendingToo : Ascending ns) :
    ms = ns :=
  perm.eq_of_pairwise (fun _ _ _ _ below above => absurd above (lt_asymm below)) ascending
    ascendingToo

theorem canonicalMembers_eq_of_perm (once : (ms.map Prod.fst).Nodup) (perm : ms.Perm ns) :
    canonicalMembers ms = canonicalMembers ns := by
  have onceToo := (perm.map Prod.fst).nodup_iff.mp once
  have same := (canonicalMembers_perm once).trans <|
    (perm.map _).trans (canonicalMembers_perm onceToo).symm
  exact eq_of_perm same (ascending_canonicalMembers ms) (ascending_canonicalMembers ns)

theorem canonicalMembers_congr (same : v.canonical = w.canonical)
    (before after : List (String × Json)) :
    canonicalMembers (before ++ (key, v) :: after) =
      canonicalMembers (before ++ (key, w) :: after) := by
  induction before with
  | nil => rw [List.nil_append, List.nil_append, canonicalMembers, canonicalMembers, same]
  | cons m before ih =>
      rw [List.cons_append, List.cons_append, canonicalMembers, canonicalMembers, ih]

end Members

namespace Reordered

variable {v w : Json}

theorem keysDistinct (reordered : Reordered v w) (distinct : v.KeysDistinct) :
    w.KeysDistinct := by
  induction reordered with
  | refl => exact distinct
  | trans _ _ first second => exact second (first distinct)
  | object perm =>
      obtain ⟨once, values⟩ := KeysDistinct.object_iff.mp distinct
      exact .object ((perm.map Prod.fst).nodup_iff.mp once)
        fun m stands => values m (perm.symm.subset stands)
  | element _ before after ih =>
      simp only [KeysDistinct.array_iff, List.forall_mem_append, List.forall_mem_cons] at *
      exact ⟨distinct.1, ih distinct.2.1, distinct.2.2⟩
  | member _ before key after ih =>
      simp only [KeysDistinct.object_iff, List.map_append, List.map_cons, List.forall_mem_append,
        List.forall_mem_cons] at *
      exact ⟨distinct.1, distinct.2.1, ih distinct.2.2.1, distinct.2.2.2⟩

/-- Where no key repeats, the order of members does not show in the canonical form. -/
theorem canonical_eq (reordered : Reordered v w) (distinct : v.KeysDistinct) :
    v.canonical = w.canonical := by
  induction reordered with
  | refl => rfl
  | trans first _ same sameToo =>
      exact (same distinct).trans (sameToo (first.keysDistinct distinct))
  | object perm =>
      have once := (KeysDistinct.object_iff.mp distinct).1
      exact congrArg Json.object (canonicalMembers_eq_of_perm once perm)
  | element _ before after ih =>
      have inner := (List.forall_mem_cons.mp
        (List.forall_mem_append.mp (KeysDistinct.array_iff.mp distinct)).2).1
      simp only [canonical, canonicalElements_eq_map, List.map_append, List.map_cons, ih inner]
  | member _ before key after ih =>
      have inner := (List.forall_mem_cons.mp
        (List.forall_mem_append.mp (KeysDistinct.object_iff.mp distinct).2).2).1
      exact congrArg Json.object (canonicalMembers_congr (ih inner) before after)

end Reordered

end ReviewHub.Json
