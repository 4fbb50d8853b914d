import ReviewHub.Event.Wire
import ReviewHub.Proofs.Json.Reading
import ReviewHub.Proofs.Wire.Canonical

/-!
# Events read straight from the text

An event is read from a text without a tree of the whole: the members of the object are taken as
they come, the type as a scalar and each of the others as a tree of its own. It comes to the same as
to read the object as a tree first and then to take its members in their order. One step shows it
for a single member, and the induction is on the members that are left in the text.
-/

namespace ReviewHub

open Json (Cursor Reader)
open Json.Reader (bind_eq_ok_iff nested_eq_ok_iff)

namespace Wire

variable {α : Type} {c d : Cursor} {a : α}

theorem settle_eq_ok_iff {o : Except Mismatch α} :
    settle o c = .ok (a, d) ↔ o = .ok a ∧ c = d := by
  cases o with
  | ok x =>
      constructor
      · rintro ⟨⟩
        exact ⟨rfl, rfl⟩
      · rintro ⟨⟨⟩, rfl⟩
        rfl
  | error m => exact ⟨nofun, by rintro ⟨⟨⟩, -⟩⟩

theorem refuseAfterClosing_ne_ok (m : Mismatch) : Record.refuseAfterClosing m c ≠ .ok (a, d) := by
  intro read
  obtain ⟨next, b, -, refused⟩ := bind_eq_ok_iff.mp read
  split at refused
  · obtain ⟨_, _, -, ⟨⟩⟩ := bind_eq_ok_iff.mp refused
  · cases refused

/-- Where neither a list nor an object is wanted, a scalar is read from the text as it is read as a
tree. -/
theorem Decoder.ofText_ofScalar_eq_ok_iff {read : Json → Except Mismatch α}
    (noList : ∀ xs a, read (.array xs) ≠ .ok a) (noObject : ∀ ms a, read (.object ms) ≠ .ok a)
    (levels : Nat) :
    (ofScalar read).ofText levels c = .ok (a, d) ↔
      ∃ v, Reader.value levels c = .ok (v, d) ∧ read v = .ok a := by
  constructor
  · intro scalar
    obtain ⟨next, b, seen, settled⟩ := bind_eq_ok_iff.mp scalar
    split at settled
    · cases settled
    · exact absurd (settle_eq_ok_iff.mp settled).1 (noList _ _)
    · exact absurd (settle_eq_ok_iff.mp settled).1 (noObject _ _)
    · next x noBracket noBrace =>
        obtain ⟨v, e, scanned, done⟩ := bind_eq_ok_iff.mp settled
        obtain ⟨reads, rfl⟩ := settle_eq_ok_iff.mp done
        refine ⟨v, bind_eq_ok_iff.mpr ⟨_, b, seen, ?_⟩, reads⟩
        simpa only [noBracket, noBrace] using scanned
  · rintro ⟨v, tree, reads⟩
    obtain ⟨next, b, seen, rest⟩ := bind_eq_ok_iff.mp tree
    refine bind_eq_ok_iff.mpr ⟨next, b, seen, ?_⟩
    split at rest
    · cases rest
    · obtain ⟨xs, e, -, ⟨⟩⟩ := bind_eq_ok_iff.mp rest
      exact absurd reads (noList _ _)
    · obtain ⟨ms, e, -, ⟨⟩⟩ := bind_eq_ok_iff.mp rest
      exact absurd reads (noObject _ _)
    · next x noBracket noBrace =>
        have settled : (Reader.scalar x >>= fun v => settle (read v)) b = .ok (a, d) :=
          bind_eq_ok_iff.mpr ⟨v, d, rest, settle_eq_ok_iff.mpr ⟨reads, rfl⟩⟩
        simpa only [noBracket, noBrace] using settled

end Wire

/-! ### Members -/

namespace Event.Tagged

variable {levels fuel : Nat} {first : Bool} {t t' : Tagged} {key : String} {c d : Cursor}
  {ms rs : List (String × Json)}

/-- What stands behind a key, as a tree. -/
def behindKey (levels : Nat) : Reader Json := do
  Reader.colon
  Reader.value levels

/-- Reads a member as a tree to others, which stand in reverse. -/
def collect (levels : Nat) (ms : List (String × Json)) (key : String) :
    Reader (List (String × Json)) := do
  return (key, ← behindKey levels) :: ms

theorem kindDecoder_ofText_eq_ok_iff {k : Kind} :
    kindDecoder.ofText levels c = .ok (k, d) ↔
      ∃ v, Reader.value levels c = .ok (v, d) ∧ kindDecoder.ofJson v = .ok k :=
  Wire.Decoder.ofText_ofScalar_eq_ok_iff nofun nofun levels

/-- A member that is read from the text is taken as its tree is. -/
theorem readMember_eq_ok_iff :
    readMember levels t key c = .ok (t', d) ↔
      ∃ v, behindKey levels c = .ok (v, d) ∧ t.takeMember key v = .ok t' := by
  rw [readMember]
  simp only [takeMember]
  by_cases isType : key = "type"
  · rw [if_pos isType]
    by_cases known : t.kind.isSome
    · simp only [if_pos isType, if_pos known]
      exact ⟨fun read => absurd read (Wire.refuseAfterClosing_ne_ok _), by rintro ⟨_, _, ⟨⟩⟩⟩
    · simp only [if_pos isType, if_neg known]
      constructor
      · intro read
        obtain ⟨_, b, passed, typed⟩ := bind_eq_ok_iff.mp read
        obtain ⟨k, e, kind, ⟨⟩⟩ := bind_eq_ok_iff.mp typed
        obtain ⟨v, tree, named⟩ := kindDecoder_ofText_eq_ok_iff.mp kind
        exact ⟨v, bind_eq_ok_iff.mpr ⟨(), b, passed, tree⟩, Wire.map_ok_iff.mpr ⟨k, named, rfl⟩⟩
      · rintro ⟨v, behind, taken⟩
        obtain ⟨_, b, passed, tree⟩ := bind_eq_ok_iff.mp behind
        obtain ⟨k, named, rfl⟩ := Wire.map_ok_iff.mp taken
        have kind := kindDecoder_ofText_eq_ok_iff.mpr ⟨v, tree, named⟩
        exact bind_eq_ok_iff.mpr ⟨(), b, passed, bind_eq_ok_iff.mpr ⟨k, d, kind, rfl⟩⟩
  · simp only [if_neg isType]
    constructor
    · intro read
      obtain ⟨_, b, passed, tree⟩ := bind_eq_ok_iff.mp read
      obtain ⟨v, e, behind, ⟨⟩⟩ := bind_eq_ok_iff.mp tree
      exact ⟨v, bind_eq_ok_iff.mpr ⟨(), b, passed, behind⟩, rfl⟩
    · rintro ⟨v, behind, ⟨⟩⟩
      obtain ⟨_, b, passed, tree⟩ := bind_eq_ok_iff.mp behind
      exact bind_eq_ok_iff.mpr ⟨(), b, passed, bind_eq_ok_iff.mpr ⟨v, d, tree, rfl⟩⟩

/-- Where the members can be read from the text, they can be read as trees and taken then. -/
theorem exists_members_of_readMember (ms : List (String × Json))
    (read : Reader.foldMembers (readMember levels) first t fuel c = .ok (t', d)) :
    ∃ new, Reader.foldMembers (collect levels) first ms fuel c = .ok (new.reverse ++ ms, d) ∧
      takeMembers t new = .ok t' := by
  induction fuel generalizing first t c ms with
  | zero => cases read
  | succ fuel ih =>
      obtain ⟨key?, b, looked, rest⟩ := bind_eq_ok_iff.mp read
      cases key? with
      | none =>
          cases rest
          exact ⟨[], bind_eq_ok_iff.mpr ⟨none, _, looked, rfl⟩, rfl⟩
      | some key =>
          obtain ⟨u, e, member, others⟩ := bind_eq_ok_iff.mp rest
          obtain ⟨v, behind, taken⟩ := readMember_eq_ok_iff.mp member
          obtain ⟨new, collected, takenLater⟩ := ih ((key, v) :: ms) others
          have tree : collect levels ms key b = .ok ((key, v) :: ms, e) :=
            bind_eq_ok_iff.mpr ⟨v, e, behind, rfl⟩
          refine ⟨(key, v) :: new, ?_, ?_⟩
          · rw [List.reverse_cons, List.append_assoc]
            exact bind_eq_ok_iff.mpr ⟨some key, b, looked,
              bind_eq_ok_iff.mpr ⟨_, e, tree, collected⟩⟩
          · exact Wire.bind_ok_iff.mpr ⟨u, taken, takenLater⟩

/-- Where the members can be read as trees and be taken then, they can be read from the text. -/
theorem readMember_of_members
    (collected : Reader.foldMembers (collect levels) first ms fuel c = .ok (rs, d)) :
    ∃ new, rs = new.reverse ++ ms ∧ ∀ t t', takeMembers t new = .ok t' →
      Reader.foldMembers (readMember levels) first t fuel c = .ok (t', d) := by
  induction fuel generalizing first c ms with
  | zero => cases collected
  | succ fuel ih =>
      obtain ⟨key?, b, looked, rest⟩ := bind_eq_ok_iff.mp collected
      cases key? with
      | none =>
          cases rest
          refine ⟨[], rfl, ?_⟩
          rintro t _ ⟨⟩
          exact bind_eq_ok_iff.mpr ⟨none, _, looked, rfl⟩
      | some key =>
          obtain ⟨_, e, member, others⟩ := bind_eq_ok_iff.mp rest
          obtain ⟨v, _, behind, ⟨⟩⟩ := bind_eq_ok_iff.mp member
          obtain ⟨new, rfl, follows⟩ := ih others
          refine ⟨(key, v) :: new, by simp, ?_⟩
          intro t t' taken
          obtain ⟨u, first, later⟩ := Wire.bind_ok_iff.mp taken
          refine bind_eq_ok_iff.mpr ⟨some key, b, looked, bind_eq_ok_iff.mpr ⟨u, e, ?_, ?_⟩⟩
          · exact readMember_eq_ok_iff.mpr ⟨v, behind, first⟩
          · exact follows u t' later

/-- An object with its braces is read the one way if it is read the other way. -/
theorem object_readMember_eq_ok_iff :
    Reader.object levels {} readMember c = .ok (t, d) ↔
      ∃ ms, Reader.object levels [] collect c = .ok (ms.reverse, d) ∧
        takeMembers {} ms = .ok t := by
  simp only [Reader.object, nested_eq_ok_iff]
  constructor
  · rintro ⟨more, b, rfl, opened, read⟩
    obtain ⟨u, e, members, rest⟩ := bind_eq_ok_iff.mp read
    obtain ⟨_, f, closed, ⟨⟩⟩ := bind_eq_ok_iff.mp rest
    obtain ⟨ms, collected, taken⟩ := exists_members_of_readMember [] members
    rw [List.append_nil] at collected
    refine ⟨ms, ⟨more, b, rfl, opened, bind_eq_ok_iff.mpr ⟨_, e, collected, ?_⟩⟩, taken⟩
    exact bind_eq_ok_iff.mpr ⟨(), d, closed, rfl⟩
  · rintro ⟨ms, ⟨more, b, rfl, opened, read⟩, taken⟩
    obtain ⟨rs, e, collected, rest⟩ := bind_eq_ok_iff.mp read
    obtain ⟨_, f, closed, ⟨⟩⟩ := bind_eq_ok_iff.mp rest
    obtain ⟨new, all, follows⟩ := readMember_of_members collected
    rw [List.append_nil, List.reverse_inj] at all
    subst all
    refine ⟨more, b, rfl, opened, bind_eq_ok_iff.mpr ⟨t, e, follows {} t taken, ?_⟩⟩
    exact bind_eq_ok_iff.mpr ⟨(), _, closed, rfl⟩

/-- The tree of an object has its members as they are collected. -/
theorem value_of_brace {b : Cursor} (seen : Reader.peekToken c = .ok (some '{', b)) :
    Reader.value levels c =
      (do return .object (← Reader.object levels [] collect).reverse : Reader Json) b := by
  have short := (Json.Reader.Consumes.peekToken c _ b seen).length_le
  have next := Json.Reader.head?_of_peekToken seen
  have begun : Reader.value levels c =
      (do
        let ms ← Reader.object levels [] fun inner ms key => do
          Reader.colon
          return (key, ← Reader.valueWithin inner c.rest.length) :: ms
        return .object ms.reverse : Reader Json) b := Json.Reader.bind_of_eq_ok seen
  rw [begun]
  refine Json.Reader.bind_congr (Json.Reader.object_congr next ?_ ?_ levels []) fun _ _ _ => rfl
  · exact fun inner ms key => Json.Reader.Consumes.colon.bind fun _ =>
      (Json.Reader.Consumes.valueWithin inner _).bind fun v => .pure _
  · intro inner ms key d shorter
    have apart : collect inner ms key d = (do
        Reader.colon
        return (key, ← Reader.value inner) :: ms : Reader (List (String × Json))) d := by
      rw [collect, behindKey, bind_assoc]
    rw [apart]
    refine Json.Reader.bind_congr rfl fun _ b passed => ?_
    have behind := (Json.Reader.Consumes.colon d () b passed).length_le
    refine Json.Reader.bind_congr ?_ fun _ _ _ => rfl
    exact Json.Reader.valueWithin_eq_value inner (by omega)

end Event.Tagged

namespace Event

variable {levels : Nat} {b c d : Cursor} {text : List Char} {v : Json} {e : Event}

theorem value_eq_ok_iff (seen : Reader.peekToken c = .ok (some '{', b)) :
    Reader.value levels c = .ok (v, d) ↔
      ∃ ms, v = .object ms ∧ Reader.object levels [] Tagged.collect b = .ok (ms.reverse, d) := by
  rw [Tagged.value_of_brace seen]
  constructor
  · intro read
    obtain ⟨rs, _, members, ⟨⟩⟩ := bind_eq_ok_iff.mp read
    exact ⟨rs.reverse, rfl, by rwa [List.reverse_reverse]⟩
  · rintro ⟨ms, rfl, members⟩
    refine bind_eq_ok_iff.mpr ⟨_, d, members, ?_⟩
    rw [List.reverse_reverse]
    rfl

theorem ofText_eq_ok_iff (seen : Reader.peekToken c = .ok (some '{', b)) :
    decoder.ofText levels c = .ok (e, d) ↔
      ∃ t, Reader.object levels {} Tagged.readMember b = .ok (t, d) ∧ t.decode = .ok e := by
  have begun : readTagged levels c =
      (do return (← Reader.object levels {} Tagged.readMember).decode :
        Reader (Except Mismatch Event)) b := Json.Reader.bind_of_eq_ok seen
  constructor
  · intro read
    obtain ⟨o, f, tagged, settled⟩ := bind_eq_ok_iff.mp read
    rw [begun] at tagged
    obtain ⟨t, _, members, ⟨⟩⟩ := bind_eq_ok_iff.mp tagged
    cases decoded : t.decode with
    | error m =>
        rw [decoded] at settled
        cases settled
    | ok e =>
        rw [decoded] at settled
        cases settled
        exact ⟨t, members, decoded⟩
  · rintro ⟨t, members, decoded⟩
    refine bind_eq_ok_iff.mpr ⟨.ok e, d, ?_, rfl⟩
    rw [begun, ← decoded]
    exact bind_eq_ok_iff.mpr ⟨t, d, members, rfl⟩

theorem ofJson_object_eq_ok_iff {ms : List (String × Json)} :
    ofJson (.object ms) = .ok e ↔ ∃ t, Tagged.takeMembers {} ms = .ok t ∧ t.decode = .ok e :=
  Wire.bind_ok_iff

/-- An object is decoded straight from the text just if its tree is decoded, and to the same
event. -/
theorem decodeText_eq_ok_iff (braced : text.head? = some '{') :
    decoder.decodeText text = .ok e ↔
      ∃ ms, Json.parse text = .ok (.object ms) ∧ ofJson (.object ms) = .ok e := by
  obtain ⟨b, seen⟩ : ∃ b, Reader.peekToken (Cursor.ofText text) = .ok (some '{', b) := by
    cases text with
    | nil => cases braced
    | cons x xs =>
        cases braced
        exact ⟨_, rfl⟩
  rw [Wire.Decoder.decodeText, Json.parse]
  simp only [Json.Reader.readWhole_eq_ok_iff, ofText_eq_ok_iff seen, value_eq_ok_iff seen,
    ofJson_object_eq_ok_iff, Tagged.object_readMember_eq_ok_iff]
  constructor
  · rintro ⟨c, d, ⟨t, ⟨ms, members, taken⟩, decoded⟩, ended⟩
    exact ⟨ms, ⟨c, d, ⟨ms, rfl, members⟩, ended⟩, t, taken, decoded⟩
  · rintro ⟨ms, ⟨c, d, ⟨_, ⟨⟩, members⟩, ended⟩, t, taken, decoded⟩
    exact ⟨c, d, ⟨t, ⟨ms, members, taken⟩, decoded⟩, ended⟩

end Event

end ReviewHub
