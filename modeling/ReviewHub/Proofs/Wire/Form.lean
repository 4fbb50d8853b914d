import ReviewHub.Proofs.Text.Numeral
import ReviewHub.Proofs.Wire.Field

/-!
# Forms on the wire

How values stand on the wire, said without decoders. An object is described by clauses, each of
which says what may stand under one key; what stands under keys that no clause names is left open.

A decoder reads a form if it turns every JSON value of that form back into the value that has it.
For the decoder of a record it is enough to see that each field is obtained from its own clause.
-/

namespace ReviewHub.Wire

/-- The JSON values in which a value may stand on the wire. -/
abbrev Form (α : Type) := α → Json → Prop

/-- What may stand under a key of an object, or be missing there. -/
structure Clause where
  key : String
  fits : Option Json → Prop

namespace Form

variable {α : Type}

def text : Form String := fun s v => v = .string s

def flag : Form Bool := fun b v => v = .bool b

def word64 : Form UInt64 := fun n v => v = .integer n.toNat

def word32 : Form UInt32 := fun n v => v = .integer n.toNat

/-- An integer or its decimal text. -/
def numberOrText : Form UInt64 := fun n v =>
  v = .integer n.toNat ∨ v = .string (toString n.toNat)

def list (form : Form α) : Form (List α) := fun xs v =>
  ∃ vs, v = .array vs ∧ List.Forall₂ form xs vs

/-- The value if there is one, and `null` if there is none. -/
def orNull (form : Form α) : Form (Option α)
  | none, v => v = .null
  | some x, v => form x v

/-- An object with each key once whose members are as told. -/
def object (told : α → List Clause) : Form α := fun x v =>
  ∃ ms, v = .object ms ∧ (ms.map Prod.fst).Nodup ∧
    ∀ c ∈ told x, c.fits (Json.member? c.key ms)

end Form

namespace Clause

variable {α : Type}

/-- The value in the form. -/
def required (key : String) (form : Form α) (x : α) : Clause where
  key := key
  fits v? := ∃ v, v? = some v ∧ form x v

/-- The value in the form; if it is the default, the member may be missing. -/
def omittable (key : String) (form : Form α) (default x : α) : Clause where
  key := key
  fits
    | none => x = default
    | some v => form x v

/-- The value if there is one; otherwise the member is missing or `null`. -/
def optional (key : String) (form : Form α) (x? : Option α) : Clause :=
  omittable key form.orNull none x?

end Clause

/-! ### Reading a form -/

/-- Every value has the form somehow, and the decoder reads it off. -/
structure Decoder.Recovers {α : Type} (d : Decoder α) (form : Form α) : Prop where
  total : ∀ x, ∃ v, form x v
  reads : ∀ x v, form x v → d.ofJson v = .ok x

/-- Besides, `null` has not the form. -/
structure Decoder.Reads {α : Type} (d : Decoder α) (form : Form α) : Prop
    extends d.Recovers form where
  null : ∀ x, ¬form x .null

namespace Decoder

variable {α : Type} {d : Decoder α} {form : Form α}

theorem text_reads : text.Reads Form.text where
  total s := ⟨.string s, rfl⟩
  reads := by
    rintro s _ rfl
    rfl
  null := nofun

theorem flag_reads : flag.Reads Form.flag where
  total b := ⟨.bool b, rfl⟩
  reads := by
    rintro b _ rfl
    rfl
  null := nofun

theorem natural_ofJson {n bound : Nat} (small : n < bound) (width : String) :
    (natural width bound).ofJson (.integer n) = .ok n := by
  simp [natural, ofScalar, small]

theorem word64_reads : word64.Reads Form.word64 where
  total n := ⟨.integer n.toNat, rfl⟩
  reads := by
    rintro n _ rfl
    rw [word64, map_ofJson, natural_ofJson n.toNat_lt_size]
    exact congrArg Except.ok UInt64.ofNat_toNat
  null := nofun

theorem word32_reads : word32.Reads Form.word32 where
  total n := ⟨.integer n.toNat, rfl⟩
  reads := by
    rintro n _ rfl
    rw [word32, map_ofJson, natural_ofJson n.toNat_lt_size]
    exact congrArg Except.ok UInt32.ofNat_toNat
  null := nofun

theorem Reads.listOf (reads : d.Reads form) : d.listOf.Reads (Form.list form) where
  total := by
    intro xs
    induction xs with
    | nil => exact ⟨.array [], [], rfl, .nil⟩
    | cons x xs ih =>
        obtain ⟨_, vs, rfl, forms⟩ := ih
        obtain ⟨v, formed⟩ := reads.total x
        exact ⟨.array (v :: vs), v :: vs, rfl, .cons formed forms⟩
  reads := by
    rintro xs _ ⟨vs, rfl, forms⟩
    change vs.mapM d.ofJson = .ok xs
    induction forms with
    | nil => rfl
    | @cons x v xs vs formed _ ih =>
        rw [List.mapM_cons, reads.reads x v formed, ih]
        rfl
  null := by
    rintro xs ⟨vs, ⟨⟩, -⟩

theorem Reads.orNull (reads : d.Reads form) : d.optional.Recovers form.orNull where
  total
    | none => ⟨.null, rfl⟩
    | some x => reads.total x
  reads := by
    intro x? v formed
    cases x? with
    | none =>
        cases formed
        rfl
    | some x =>
        cases v with
        | null => exact absurd formed (reads.null x)
        | _ => exact congrArg (Except.map some) (reads.reads x _ formed)

theorem numberOrText_recovers : numberOrText.Recovers Form.numberOrText.orNull where
  total
    | none => ⟨.null, rfl⟩
    | some n => ⟨.integer n.toNat, .inl rfl⟩
  reads := by
    intro n? v formed
    cases n? with
    | none =>
        cases formed
        rfl
    | some n =>
        have small := n.toNat_lt_size
        rcases formed with rfl | rfl
        · have range : (0 : Int) ≤ n.toNat ∧ (n.toNat : Int) < UInt64.size := by omega
          simp only [numberOrText, ofTree, if_pos range, Int.toNat_natCast, UInt64.ofNat_toNat]
        · simp only [numberOrText, ofTree, Text.readNumeral_toString small, UInt64.ofNat_toNat]

end Decoder

/-! ### Records -/

section Records

variable {α R : Type} {key : String} {d : Decoder α} {form : Form α} {fields : List (Field R)}
  {cs : List Clause} {known : List (Member R)} {default r : R} {ms : List (String × Json)}

/-- The clause allows for something and, whatever that is, the field is then what it is in the
record. -/
structure Field.IsObtained (default r : R) (f : Field R) (c : Clause) : Prop where
  key : c.key = f.key
  fits : ∃ v?, c.fits v?
  holds : ∀ ms, c.fits (Json.member? f.key ms) → f.Holds ms default r

theorem Field.isObtained (get : R → α) (recovers : d.Recovers form) :
    IsObtained default r ⟨key, _, d, get⟩ (.omittable key form (get default) (get r)) where
  key := rfl
  fits := by
    obtain ⟨v, formed⟩ := recovers.total (get r)
    exact ⟨some v, formed⟩
  holds := by
    intro ms fits
    rw [Holds]
    cases found : Json.member? key ms with
    | none =>
        rw [found] at fits
        exact fits
    | some v =>
        rw [found] at fits
        exact recovers.reads _ v fits

theorem holds_of_isObtained (obtained : List.Forall₂ (Field.IsObtained default r) fields cs)
    (fits : ∀ c ∈ cs, c.fits (Json.member? c.key ms)) : ∀ f ∈ fields, f.Holds ms default r := by
  induction obtained with
  | nil => exact nofun
  | cons first _ ih =>
      obtain ⟨fitsFirst, fitsLater⟩ := List.forall_mem_cons.mp fits
      exact List.forall_mem_cons.mpr ⟨first.holds ms (first.key ▸ fitsFirst), ih fitsLater⟩

theorem keys_of_isObtained (obtained : List.Forall₂ (Field.IsObtained default r) fields cs) :
    cs.map Clause.key = fields.map Field.key := by
  induction obtained with
  | nil => rfl
  | cons first _ ih => rw [List.map_cons, List.map_cons, first.key, ih]

/-- There are members that fit all clauses. -/
theorem exists_members (obtained : List.Forall₂ (Field.IsObtained default r) fields cs)
    (distinct : (fields.map Field.key).Nodup) :
    ∃ ms : List (String × Json), (ms.map Prod.fst).Nodup ∧
      (∀ k ∈ ms.map Prod.fst, k ∈ fields.map Field.key) ∧
      ∀ c ∈ cs, c.fits (Json.member? c.key ms) := by
  induction obtained with
  | nil => exact ⟨[], List.nodup_nil, nofun, nofun⟩
  | @cons f c fields cs first rest ih =>
      obtain ⟨alone, distinctLater⟩ := List.nodup_cons.mp distinct
      obtain ⟨ms, once, named, fitsLater⟩ := ih distinctLater
      have absent : f.key ∉ ms.map Prod.fst := fun stands => alone (named _ stands)
      obtain ⟨v?, fits⟩ := first.fits
      cases v? with
      | none =>
          refine ⟨ms, once, fun k stands => List.mem_cons_of_mem _ (named k stands), ?_⟩
          refine List.forall_mem_cons.mpr ⟨?_, fitsLater⟩
          rwa [first.key, Json.member?_of_not_mem absent]
      | some v =>
          refine ⟨(f.key, v) :: ms, List.nodup_cons.mpr ⟨absent, once⟩, ?_, ?_⟩
          · refine List.forall_mem_cons.mpr ⟨List.mem_cons_self, ?_⟩
            exact fun k stands => List.mem_cons_of_mem _ (named k stands)
          · refine List.forall_mem_cons.mpr ⟨?_, ?_⟩
            · rwa [first.key, Json.member?_cons, if_pos rfl]
            · intro other later
              have elsewhere : f.key ≠ other.key := fun same =>
                alone (keys_of_isObtained rest ▸ same ▸ List.mem_map_of_mem later)
              rw [Json.member?_cons, if_neg elsewhere]
              exact fitsLater other later

/-- If each field is obtained from its clause, the record is read. -/
theorem Lays.reads (lays : Lays fields known) (title : String) {told : R → List Clause}
    (obtained : ∀ r, List.Forall₂ (Field.IsObtained default r) fields (told r)) :
    (Record.decoder title default known).Reads (Form.object told) where
  total := by
    intro r
    obtain ⟨ms, once, -, fits⟩ := exists_members (obtained r) lays.distinct
    exact ⟨.object ms, ms, rfl, once, fits⟩
  reads := by
    rintro r _ ⟨ms, rfl, once, fits⟩
    exact (lays.ofJson_eq_ok_iff once title).mpr (holds_of_isObtained (obtained r) fits)
  null := by
    rintro r ⟨ms, ⟨⟩, -⟩

end Records

end ReviewHub.Wire
