import ReviewHub.Proofs.Wire.Field

/-!
# Decoding canonical values

The canonical form of a value has the members of its objects in another order. A decoder does not
care, as long as no key stands twice in an object: from the canonical form it reads what it reads
from the value itself. This is passed on from decoders to the decoders that are built on them, to
those of records by the rule for their fields.
-/

namespace ReviewHub.Wire

theorem bind_ok_iff {α β : Type} {o : Except Mismatch α} {f : α → Except Mismatch β} {b : β} :
    (o >>= f) = .ok b ↔ ∃ a, o = .ok a ∧ f a = .ok b := by
  cases o with
  | error m => exact ⟨nofun, by rintro ⟨_, ⟨⟩, _⟩⟩
  | ok a => exact ⟨fun read => ⟨a, rfl, read⟩, by rintro ⟨_, ⟨⟩, read⟩; exact read⟩

theorem map_ok_iff {α β : Type} {o : Except Mismatch α} {f : α → β} {b : β} :
    o.map f = .ok b ↔ ∃ a, o = .ok a ∧ f a = b := by
  cases o with
  | error m => exact ⟨nofun, by rintro ⟨_, ⟨⟩, _⟩⟩
  | ok a =>
      constructor
      · rintro ⟨⟩
        exact ⟨a, rfl, rfl⟩
      · rintro ⟨_, ⟨⟩, rfl⟩
        rfl

namespace Decoder

variable {α β : Type} {d : Decoder α}

/-- What the decoder reads from a value without repeated keys it reads from the canonical form, and
the other way round. -/
def RespectsOrder (d : Decoder α) : Prop :=
  ∀ v : Json, v.KeysDistinct → ∀ a, d.ofJson v.canonical = .ok a ↔ d.ofJson v = .ok a

namespace RespectsOrder

/-- A scalar is canonical, and other values are refused in any form. -/
theorem of_scalar (noList : ∀ xs a, d.ofJson (.array xs) ≠ .ok a)
    (noObject : ∀ ms a, d.ofJson (.object ms) ≠ .ok a) : d.RespectsOrder := by
  intro v _ a
  cases v with
  | array xs => exact iff_of_false (noList _ a) (noList xs a)
  | object ms => exact iff_of_false (noObject _ a) (noObject ms a)
  | _ => exact Iff.rfl

theorem text : Decoder.text.RespectsOrder := of_scalar nofun nofun

theorem flag : Decoder.flag.RespectsOrder := of_scalar nofun nofun

theorem natural (width : String) (bound : Nat) : (Decoder.natural width bound).RespectsOrder :=
  of_scalar nofun nofun

theorem numberOrText : Decoder.numberOrText.RespectsOrder := of_scalar nofun nofun

theorem map (respects : d.RespectsOrder) (f : α → β) : (d.map f).RespectsOrder := by
  intro v distinct b
  simp only [map_ofJson, map_ok_iff, respects v distinct]

theorem word64 : Decoder.word64.RespectsOrder := (natural _ _).map _

theorem word32 : Decoder.word32.RespectsOrder := (natural _ _).map _

theorem optional (respects : d.RespectsOrder) : d.optional.RespectsOrder := by
  intro v distinct a
  cases v with
  | null => exact Iff.rfl
  | _ => exact respects.map some _ distinct a

theorem listOf (respects : d.RespectsOrder) : d.listOf.RespectsOrder := by
  intro v distinct as
  cases v with
  | array xs =>
      have elements := Json.KeysDistinct.array_iff.mp distinct
      clear distinct
      change (Json.canonicalElements xs).mapM d.ofJson = .ok as ↔ xs.mapM d.ofJson = .ok as
      rw [Json.canonicalElements_eq_map]
      induction xs generalizing as with
      | nil => exact Iff.rfl
      | cons x xs ih =>
          obtain ⟨first, later⟩ := List.forall_mem_cons.mp elements
          simp only [List.map_cons, List.mapM_cons, bind_ok_iff, respects x first, ih _ later]
  | _ => exact Iff.rfl

end RespectsOrder

end Decoder

/-! ### Records -/

section Records

variable {R : Type} {fields : List (Field R)} {known : List (Member R)} {default r s : R}

/-- A field holds in the canonical form of an object what it holds in the object. -/
theorem Field.holds_canonicalMembers {f : Field R} (respects : f.decoder.RespectsOrder)
    {ms : List (String × Json)} (distinct : Json.KeysDistinct (.object ms)) :
    f.Holds (Json.canonicalMembers ms) default r ↔ f.Holds ms default r := by
  obtain ⟨once, values⟩ := Json.KeysDistinct.object_iff.mp distinct
  rw [Holds, Holds, Json.member?_canonicalMembers once]
  cases found : Json.member? f.key ms with
  | none => exact Iff.rfl
  | some v => exact respects v (values _ (Json.mem_of_member? found)) _

/-- The elements of a list are taken into a record in canonical form as they are. -/
theorem takeElements_canonical (members : ∀ m ∈ known, m.decoder.RespectsOrder)
    (total expected : Nat) {xs : List Json} (elements : ∀ x ∈ xs, x.KeysDistinct) :
    Record.takeElements total expected known r (xs.map Json.canonical) = .ok s ↔
      Record.takeElements total expected known r xs = .ok s := by
  induction known generalizing r xs with
  | nil => cases xs <;> exact Iff.rfl
  | cons m known ih =>
      cases xs with
      | nil => exact Iff.rfl
      | cons x xs =>
          obtain ⟨own, others⟩ := List.forall_mem_cons.mp members
          obtain ⟨first, later⟩ := List.forall_mem_cons.mp elements
          simp only [List.map_cons, Record.takeElements, bind_ok_iff, own x first,
            ih others later]

theorem exists_field_of_mem {gs : List (Field R)}
    (filled : List.Forall₂ (Field.IsFilledBy fields) gs known) {m : Member R}
    (isMember : m ∈ known) : ∃ f ∈ gs, f.IsFilledBy fields m := by
  induction filled with
  | nil => cases isMember
  | @cons f _ gs _ filling _ ih =>
      rcases List.mem_cons.mp isMember with rfl | later
      · exact ⟨f, List.mem_cons_self, filling⟩
      · obtain ⟨g, isField, fills⟩ := ih later
        exact ⟨g, List.mem_cons_of_mem f isField, fills⟩

namespace Lays

/-- The members of a record respect the order if its fields do. -/
theorem respectsOrder_of_mem (lays : Lays fields known)
    (each : ∀ f ∈ fields, f.decoder.RespectsOrder) : ∀ m ∈ known, m.decoder.RespectsOrder := by
  intro m isMember v distinct set
  obtain ⟨f, isField, -, put, reads, -⟩ := exists_field_of_mem lays.filled isMember
  rw [reads, reads]
  exact (each f isField).map put v distinct set

/-- A record is read from the canonical form as from the value, object or list. -/
theorem respectsOrder (lays : Lays fields known) (each : ∀ f ∈ fields, f.decoder.RespectsOrder)
    (title : String) (default : R) : (Record.decoder title default known).RespectsOrder := by
  intro v distinct r
  cases v with
  | object ms =>
      have once := (Json.KeysDistinct.object_iff.mp distinct).1
      have ascending := Json.ascending_canonicalMembers ms
      change (Record.decoder title default known).ofJson (.object (Json.canonicalMembers ms)) =
        .ok r ↔ _
      rw [lays.ofJson_eq_ok_iff once, lays.ofJson_eq_ok_iff (Json.nodup_of_ascending ascending)]
      exact forall₂_congr fun f isField =>
        Field.holds_canonicalMembers (each f isField) distinct
  | array xs =>
      have members := lays.respectsOrder_of_mem each
      have elements := Json.KeysDistinct.array_iff.mp distinct
      have same := takeElements_canonical (r := default) (s := r) members xs.length known.length
        elements
      simpa [Record.decoder, Json.canonical] using same
  | _ => exact Iff.rfl

end Lays

end Records

end ReviewHub.Wire
