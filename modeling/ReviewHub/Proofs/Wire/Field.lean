import Mathlib.Data.List.Forall2
import ReviewHub.Proofs.Json.Canonical
import ReviewHub.Wire.Record

/-!
# Records field by field

A record takes the members of an object one after the other. What comes of it is said here without
that order: each field is what its own member says, or what it is by default where there is no such
member; and if a member cannot be read, the failure reported is that of the one with the least key.

For this the fields of a record are listed with what the decoder of each one reads and where it is
found in the record. That the members of the record fill these fields, each its own and no other,
is the only thing that has to be shown of a particular record.
-/

namespace ReviewHub.Wire

/-- A field of a record: its key, how its value is read, and where it is found. -/
structure Field (R : Type) where
  key : String
  Value : Type
  decoder : Decoder Value
  get : R → Value

namespace Field

variable {R : Type}

/-- The member reads the field and puts it into the record, where it changes no other field. -/
def IsFilledBy (fields : List (Field R)) (f : Field R) (m : Member R) : Prop :=
  m.key = f.key ∧ ∃ set : f.Value → R → R,
    (∀ v, m.decoder.ofJson v = (f.decoder.ofJson v).map set) ∧ (∀ x r, f.get (set x r) = x) ∧
      ∀ g ∈ fields, g.key ≠ f.key → ∀ x r, g.get (set x r) = g.get r

/-- The field of the record is what its member in the object says or, where there is none, what it
is by default. -/
def Holds (f : Field R) (ms : List (String × Json)) (default r : R) : Prop :=
  match Json.member? f.key ms with
  | none => f.get r = f.get default
  | some v => f.decoder.ofJson v = .ok (f.get r)

/-- The member of the field in the object cannot be read. -/
def Fails (f : Field R) (ms : List (String × Json)) (m : Mismatch) : Prop :=
  ∃ v, Json.member? f.key ms = some v ∧ f.decoder.ofJson v = .error m

end Field

/-- The members fill the fields, and there is nothing else in the record. -/
structure Lays {R : Type} (fields : List (Field R)) (known : List (Member R)) : Prop where
  distinct : (fields.map Field.key).Nodup
  filled : List.Forall₂ (Field.IsFilledBy fields) fields known
  ext : ∀ r s : R, (∀ f ∈ fields, f.get r = f.get s) → r = s

/-- The rule by which an object is read as a record with the fields. -/
def Follows {R : Type} (fields : List (Field R)) (default : R) (ms : List (String × Json)) :
    Except Mismatch R → Prop
  | .ok r => ∀ f ∈ fields, f.Holds ms default r
  | .error m => ∃ f ∈ fields, f.Fails ms m ∧ ∀ g ∈ fields, g.key < f.key → ∀ n, ¬g.Fails ms n

/-! ### Fields -/

section Fields

variable {R : Type} {fields : List (Field R)} {known : List (Member R)} {default r s : R}
  {ms ns : List (String × Json)} {f g : Field R} {gs : List (Field R)} {k : String} {v : Json}
  {m : Mismatch}

theorem Field.holds_congr (alike : Json.member? f.key ms = Json.member? f.key ns) :
    f.Holds ms default r ↔ f.Holds ns default r := by
  rw [Holds, Holds, alike]

theorem Field.fails_congr (alike : Json.member? f.key ms = Json.member? f.key ns) :
    f.Fails ms m ↔ f.Fails ns m := by
  rw [Fails, Fails, alike]

theorem Field.holds_cons_of_ne (other : k ≠ f.key) :
    f.Holds ((k, v) :: ms) default r ↔ f.Holds ms default r :=
  holds_congr (by rw [Json.member?_cons, if_neg other])

theorem Field.fails_cons_of_ne (other : k ≠ f.key) :
    f.Fails ((k, v) :: ms) m ↔ f.Fails ms m :=
  fails_congr (by rw [Json.member?_cons, if_neg other])

theorem Field.holds_of_default (same : f.get default = f.get s) (holds : f.Holds ms s r) :
    f.Holds ms default r := by
  rw [Holds] at holds ⊢
  rwa [same]

/-- What a field holds is determined by the object. -/
theorem Field.Holds.get_eq (one : f.Holds ms default r) (other : f.Holds ms default s) :
    f.get r = f.get s := by
  rw [Holds] at one other
  split at one
  · next absent =>
      rw [absent] at other
      exact one.trans other.symm
  · next v found =>
      rw [found] at other
      exact Except.ok.inj (one.symm.trans other)

theorem Field.Holds.not_fails (holds : f.Holds ms default r) : ¬f.Fails ms m := by
  rintro ⟨v, found, fails⟩
  rw [Holds, found] at holds
  cases holds.symm.trans fails

/-- Only the members of the fields matter to the rule. -/
theorem Follows.congr {o : Except Mismatch R}
    (alike : ∀ f ∈ fields, Json.member? f.key ms = Json.member? f.key ns)
    (rule : Follows fields default ms o) : Follows fields default ns o := by
  cases o with
  | ok r => exact fun f isField => (Field.holds_congr (alike f isField)).mp (rule f isField)
  | error m =>
      obtain ⟨f, isField, failure, least⟩ := rule
      refine ⟨f, isField, (Field.fails_congr (alike f isField)).mp failure, ?_⟩
      intro g isFieldToo below n failureToo
      exact least g isFieldToo below n ((Field.fails_congr (alike g isFieldToo)).mpr failureToo)

/-- A key is that of none of the members, or that of a member that fills one of the fields. -/
theorem named?_of_filled (filled : List.Forall₂ (Field.IsFilledBy fields) gs known) (k : String) :
    Member.named? known k = none ∧ (∀ f ∈ gs, f.key ≠ k) ∨
      ∃ f ∈ gs, f.key = k ∧ ∃ m, Member.named? known k = some m ∧ f.IsFilledBy fields m := by
  induction filled with
  | nil => exact .inl ⟨rfl, nofun⟩
  | @cons f m gs known filling rest ih =>
      have same := filling.1
      by_cases here : f.key = k
      · have found : Member.named? (m :: known) k = some m :=
          List.find?_cons_of_pos (by simpa using same.trans here)
        exact .inr ⟨f, List.mem_cons_self, here, m, found, filling⟩
      · have passed : Member.named? (m :: known) k = Member.named? known k :=
          List.find?_cons_of_neg (by simpa [same] using here)
        rw [passed]
        rcases ih with ⟨unknown, others⟩ | ⟨g, member, there, found⟩
        · exact .inl ⟨unknown, List.forall_mem_cons.mpr ⟨here, others⟩⟩
        · exact .inr ⟨g, List.mem_cons_of_mem f member, there, found⟩

/-- A known key that has not stood yet sets its field, if the value can be read. -/
theorem takeMember_of_filled {n : Member R} {set : f.Value → R → R} {d : Draft R}
    (found : Member.named? known k = some n) (unseen : k ∉ d.seen)
    (reads : n.decoder.ofJson v = (f.decoder.ofJson v).map set) :
    Record.takeMember known d k v =
      (f.decoder.ofJson v).map fun x => ⟨set x d.record, k :: d.seen⟩ := by
  rw [Record.takeMember, found]
  simp only [if_neg unseen, reads]
  cases f.decoder.ofJson v <;> rfl

/-- The failure is that of the first member, in the order of the object, that cannot be read. -/
def FailsFirst (fields : List (Field R)) (ms : List (String × Json)) (m : Mismatch) : Prop :=
  ∃ f ∈ fields, ∃ before v after, ms = before ++ (f.key, v) :: after ∧
    f.decoder.ofJson v = .error m ∧ ∀ g ∈ fields, ∀ n, ¬g.Fails before n

/-- In an object in which each key stands once the failure is that of a field, and if the keys
ascend, that of the field with the least key. -/
theorem FailsFirst.fails (first : FailsFirst fields ms m) (once : (ms.map Prod.fst).Nodup) :
    ∃ f ∈ fields, f.Fails ms m ∧
      (Json.Ascending ms → ∀ g ∈ fields, g.key < f.key → ∀ n, ¬g.Fails ms n) := by
  obtain ⟨f, isField, before, v, after, rfl, failure, earlier⟩ := first
  have stands : (f.key, v) ∈ before ++ (f.key, v) :: after :=
    List.mem_append_right _ List.mem_cons_self
  refine ⟨f, isField, ⟨v, Json.member?_of_mem once stands, failure⟩, ?_⟩
  rintro ascending g other below n ⟨w, found, unread⟩
  obtain ⟨ascendingBefore, ascendingAfter, -⟩ := List.pairwise_append.mp ascending
  refine earlier g other n ⟨w, ?_, unread⟩
  -- What stands after the failure has greater keys.
  have later : ∀ entry ∈ (f.key, v) :: after, f.key ≤ entry.1 := by
    intro entry place
    rcases List.mem_cons.mp place with rfl | after
    · exact le_rfl
    · exact ((List.pairwise_cons.mp ascendingAfter).1 entry after).le
  have early : (g.key, w) ∈ before := by
    rcases List.mem_append.mp (Json.mem_of_member? found) with early | late
    · exact early
    · exact absurd below (not_lt.mpr (later _ late))
  exact Json.member?_of_mem (Json.nodup_of_ascending ascendingBefore) early

/-- A member that can be read, or need not be, comes before the one that fails. -/
theorem FailsFirst.cons (fails : FailsFirst fields ms m)
    (passes : ∀ g ∈ fields, g.key = k → ∃ x, g.decoder.ofJson v = .ok x) :
    FailsFirst fields ((k, v) :: ms) m := by
  obtain ⟨f, isField, before, w, after, rfl, failure, first⟩ := fails
  refine ⟨f, isField, (k, v) :: before, w, after, rfl, failure, ?_⟩
  intro g other n
  by_cases here : g.key = k
  · obtain ⟨x, read⟩ := passes g other here
    rintro ⟨u, found, unread⟩
    rw [here, Json.member?_cons, if_pos rfl] at found
    cases found
    cases read.symm.trans unread
  · rw [Field.fails_cons_of_ne (Ne.symm here)]
    exact first g other n

namespace Lays

variable (lays : Lays fields known)

include lays

theorem eq_of_key_eq (one : f ∈ fields) (other : g ∈ fields) (same : f.key = g.key) : f = g :=
  List.inj_on_of_nodup_map lays.distinct one other same

/-- What becomes of the members of an object in which each key stands once: each field holds what
its member says, or the first member that cannot be read is reported. -/
theorem takeMembers_cases (once : (ms.map Prod.fst).Nodup) (d : Draft R)
    (new : ∀ k ∈ ms.map Prod.fst, k ∉ d.seen) :
    (∃ e, Record.takeMembers known d ms = .ok e ∧ ∀ f ∈ fields, f.Holds ms d.record e.record) ∨
      ∃ m, Record.takeMembers known d ms = .error m ∧ FailsFirst fields ms m := by
  induction ms generalizing d with
  | nil => exact .inl ⟨d, rfl, fun f _ => rfl⟩
  | cons entry ms ih =>
      obtain ⟨k, v⟩ := entry
      obtain ⟨alone, onceLater⟩ := List.nodup_cons.mp once
      obtain ⟨unseen, newLater⟩ := List.forall_mem_cons.mp new
      rw [Record.takeMembers]
      rcases named?_of_filled lays.filled k with
        ⟨unknown, others⟩ | ⟨f, isField, rfl, n, found, -, set, reads, own, foreign⟩
      · -- A member that the record does not know is passed over.
        have passed : Record.takeMember known d k v = .ok d := by rw [Record.takeMember, unknown]
        rw [passed]
        rcases ih onceLater d newLater with ⟨e, taken, holds⟩ | ⟨m, refused, first⟩
        · refine .inl ⟨e, taken, ?_⟩
          intro f isField
          exact (Field.holds_cons_of_ne (Ne.symm (others f isField))).mpr (holds f isField)
        · exact .inr ⟨m, refused, first.cons fun g isField here => absurd here (others g isField)⟩
      · rw [takeMember_of_filled found unseen (reads v)]
        cases read : f.decoder.ofJson v with
        | error m =>
            exact .inr ⟨m, rfl, f, isField, [], v, ms, rfl, read, fun g _ n fails => nomatch fails⟩
        | ok x =>
            have newHere : ∀ k ∈ ms.map Prod.fst, k ∉ f.key :: d.seen := by
              intro k stands seen
              rcases List.mem_cons.mp seen with rfl | before
              · exact alone stands
              · exact newLater k stands before
            rcases ih onceLater ⟨set x d.record, f.key :: d.seen⟩ newHere with
              ⟨e, taken, holds⟩ | ⟨m, refused, first⟩
            · refine .inl ⟨e, taken, ?_⟩
              intro g other
              by_cases here : g.key = f.key
              · cases lays.eq_of_key_eq other isField here
                have kept := holds f isField
                rw [Field.Holds, Json.member?_of_not_mem alone] at kept
                rw [Field.Holds, Json.member?_cons, if_pos rfl]
                exact read.trans (congrArg Except.ok (kept.trans (own x d.record)).symm)
              · refine (Field.holds_cons_of_ne (Ne.symm here)).mpr ?_
                exact Field.holds_of_default (foreign g other here x d.record).symm (holds g other)
            · refine .inr ⟨m, refused, first.cons ?_⟩
              intro g other here
              cases lays.eq_of_key_eq other isField here
              exact ⟨x, read⟩

/-- An object in which each key stands once is read as the record whose fields hold what their
members say. -/
theorem ofJson_eq_ok_iff (once : (ms.map Prod.fst).Nodup) (title : String) :
    (Record.decoder title default known).ofJson (.object ms) = .ok r ↔
      ∀ f ∈ fields, f.Holds ms default r := by
  simp only [Record.decoder]
  rcases lays.takeMembers_cases once ⟨default, []⟩ nofun with
    ⟨e, taken, holds⟩ | ⟨m, refused, first⟩
  · rw [taken]
    constructor
    · rintro ⟨⟩
      exact holds
    · intro held
      refine congrArg Except.ok (lays.ext _ _ ?_)
      intro f isField
      exact (holds f isField).get_eq (held f isField)
  · rw [refused]
    refine ⟨nofun, ?_⟩
    intro held
    obtain ⟨f, isField, fails, -⟩ := first.fails once
    exact absurd fails (held f isField).not_fails

/-- An object whose keys ascend is read by the rule. -/
theorem follows (ascending : Json.Ascending ms) (title : String) (default : R) :
    Follows fields default ms ((Record.decoder title default known).ofJson (.object ms)) := by
  have once := Json.nodup_of_ascending ascending
  simp only [Record.decoder]
  rcases lays.takeMembers_cases once ⟨default, []⟩ nofun with
    ⟨e, taken, holds⟩ | ⟨m, refused, first⟩
  · rw [taken]
    exact holds
  · rw [refused]
    obtain ⟨f, isField, fails, before⟩ := first.fails once
    refine ⟨f, isField, fails, ?_⟩
    intro g other below n failsToo
    exact before ascending g other below n failsToo

/-- The rule leaves no choice. -/
theorem follows_unique {o p : Except Mismatch R} (one : Follows fields default ms o)
    (other : Follows fields default ms p) : o = p := by
  cases o with
  | ok r =>
      cases p with
      | ok s =>
          refine congrArg Except.ok (lays.ext _ _ ?_)
          intro f isField
          exact (one f isField).get_eq (other f isField)
      | error m =>
          obtain ⟨f, isField, failure, -⟩ := other
          exact absurd failure (one f isField).not_fails
  | error m =>
      obtain ⟨f, isField, failure, least⟩ := one
      cases p with
      | ok s => exact absurd failure (other f isField).not_fails
      | error n =>
          obtain ⟨g, isFieldToo, failureToo, leastToo⟩ := other
          rcases lt_trichotomy f.key g.key with below | same | above
          · exact absurd failure (leastToo f isField below m)
          · cases lays.eq_of_key_eq isField isFieldToo same
            obtain ⟨v, found, unread⟩ := failure
            obtain ⟨w, foundToo, unreadToo⟩ := failureToo
            cases found.symm.trans foundToo
            cases unread.symm.trans unreadToo
            rfl
          · exact absurd failureToo (least g isFieldToo above n)

end Lays

end Fields

end ReviewHub.Wire
