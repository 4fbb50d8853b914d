import ReviewHub.Proofs.Event.Direct
import ReviewHub.Proofs.Stream.Specification
import ReviewHub.Proofs.Wire.Canonical

/-!
# The stream and the decoder

A line that holds an object can be read in two ways. The parser of the stream reads it as a tree,
brings the members into order, looks the type up and decodes the rest. The decoder of events takes
the members from the text as they come. Where no key stands twice in an object the two agree on the
events: reading straight from the text is reading the tree, and no decoder cares for the order of
members.
-/

namespace ReviewHub

open Wire (bind_ok_iff map_ok_iff)
open Wire.Decoder (RespectsOrder)

/-! ### Attributes and events respect the order -/

theorem Account.respectsOrder : Account.decoder.RespectsOrder :=
  lays.respectsOrder (by simp [fields, RespectsOrder.text.optional]) _ _

theorem Change.respectsOrder : Change.decoder.RespectsOrder :=
  lays.respectsOrder (by
    simp [fields, RespectsOrder.text.optional, RespectsOrder.numberOrText,
      Account.respectsOrder.optional]) _ _

theorem PatchSet.respectsOrder : PatchSet.decoder.RespectsOrder :=
  lays.respectsOrder (by
    simp [fields, RespectsOrder.text.optional, RespectsOrder.numberOrText,
      RespectsOrder.word64.optional, RespectsOrder.flag, Account.respectsOrder.optional]) _ _

theorem Approval.respectsOrder : Approval.decoder.RespectsOrder :=
  lays.respectsOrder (by
    simp [fields, RespectsOrder.text.optional, Account.respectsOrder.optional]) _ _

theorem RefUpdate.respectsOrder : RefUpdate.decoder.RespectsOrder :=
  lays.respectsOrder (by simp [fields, RespectsOrder.text.optional]) _ _

theorem Detail.respectsOrder (k : Kind) : ∀ f ∈ fields k, f.decoder.RespectsOrder := by
  cases k <;>
    simp [fields, RespectsOrder.text.optional, RespectsOrder.word32, Account.respectsOrder.optional,
      Change.respectsOrder.optional, PatchSet.respectsOrder.optional,
      RefUpdate.respectsOrder.optional, Approval.respectsOrder.listOf]

namespace Event

variable {ms : List (String × Json)} {k : Kind} {e : Event}

theorem respectsOrder_fields (k : Kind) : ∀ f ∈ fields k, f.decoder.RespectsOrder := by
  intro f isField
  rcases Told.mem_fields.mp isField with ⟨g, told, rfl⟩ | rfl
  · exact Detail.respectsOrder k g told
  · exact RespectsOrder.word64.optional

theorem respectsOrder (k : Kind) : (decoderOf k).RespectsOrder := by
  rw [decoderOf_eq]
  exact ((lays k).respectsOrder (respectsOrder_fields k) _ _).map _

/-! ### The type -/

theorem eq_name_of_kindDecoder {v : Json} (named : kindDecoder.ofJson v = .ok k) :
    v = .string k.name := by
  cases v with
  | string s =>
      simp only [kindDecoder, Wire.Decoder.ofScalar] at named
      split at named
      · next known =>
          cases named
          rw [Kind.name_of_ofTag? known]
      · cases named
  | _ => cases named

/-- A type that has been taken has stood in a member, unless it was there before. -/
theorem Tagged.exists_type_of_takeMembers {t u : Tagged} (taken : takeMembers t ms = .ok u)
    (typed : u.kind = some k) :
    t.kind = some k ∨ ∃ v, ("type", v) ∈ ms ∧ kindDecoder.ofJson v = .ok k := by
  induction ms generalizing t with
  | nil =>
      cases taken
      exact .inl typed
  | cons m ms ih =>
      obtain ⟨key, v⟩ := m
      obtain ⟨t', first, rest⟩ := bind_ok_iff.mp taken
      rcases ih rest with here | ⟨w, later, named⟩
      · by_cases isType : key = "type"
        · subst isType
          rw [takeMember, if_pos rfl] at first
          split at first
          · cases first
          · obtain ⟨k', named, rfl⟩ := map_ok_iff.mp first
            cases here
            exact .inr ⟨v, List.mem_cons_self, named⟩
        · rw [takeMember_of_eq isType] at first
          cases first
          exact .inl here
      · exact .inr ⟨w, List.mem_cons_of_mem _ later, named⟩

/-- In an object in which each key stands once the type is that of the event, and the other members
are decoded by it. -/
theorem ofJson_eq_ok_iff (once : (ms.map Prod.fst).Nodup) :
    ofJson (.object ms) = .ok e ↔
      ∃ k, Json.member? "type" ms = some (.string (Kind.name k)) ∧
        (decoderOf k).ofJson (.object (Json.without "type" ms)) = .ok e := by
  constructor
  · intro decoded
    obtain ⟨t, taken, decodes⟩ := ofJson_object_eq_ok_iff.mp decoded
    cases typed : t.kind with
    | none =>
        rw [Tagged.decode, typed] at decodes
        cases decodes
    | some k =>
        rcases Tagged.exists_type_of_takeMembers taken typed with ⟨⟨⟩⟩ | ⟨v, stands, named⟩
        have found := Json.member?_of_mem once stands
        rw [eq_name_of_kindDecoder named] at found
        exact ⟨k, found, by rw [← ofJson_of_type once found, decoded]⟩
  · rintro ⟨k, typed, decodes⟩
    rw [ofJson_of_type once typed, decodes]

/-- The order of members does not matter, and neither does the order of those within. -/
theorem ofJson_canonicalMembers (distinct : Json.KeysDistinct (.object ms)) :
    ofJson (.object (Json.canonicalMembers ms)) = .ok e ↔ ofJson (.object ms) = .ok e := by
  have once := (Json.KeysDistinct.object_iff.mp distinct).1
  have ascending := Json.ascending_canonicalMembers ms
  rw [ofJson_eq_ok_iff once, ofJson_eq_ok_iff (Json.nodup_of_ascending ascending)]
  refine exists_congr fun k => and_congr ?_ ?_
  · rw [Json.member?_canonicalMembers once]
    cases Json.member? "type" ms with
    | none => exact Iff.rfl
    | some v => cases v <;> simp [Json.canonical]
  · rw [Json.without_canonicalMembers]
    exact respectsOrder k _ (distinct.without "type") e

theorem provider_of_decoderOf {v : Json} (decodes : (decoderOf k).ofJson v = .ok e) :
    e.provider = none := by
  rw [decoderOf_eq] at decodes
  obtain ⟨t, -, rfl⟩ := map_ok_iff.mp decodes
  rfl

end Event

namespace Stream

variable {ms : List (String × Json)} {e : Event}

/-- The look at the type beforehand does not withhold an event. -/
theorem parseJson_eq_event_iff (once : (ms.map Prod.fst).Nodup) :
    (parseJson (.object ms) none).reading = .event e ↔ Event.ofJson (.object ms) = .ok e := by
  have unprovided {f : Event} (decoded : Event.ofJson (.object ms) = .ok f) :
      f.withProvider none = f := by
    obtain ⟨k, -, decodes⟩ := (Event.ofJson_eq_ok_iff once).mp decoded
    rw [Event.withProvider, ← Event.provider_of_decoderOf decodes]
  rw [parseJson]
  split
  · next known =>
      cases decoded : Event.ofJson (.object ms) with
      | error m => exact ⟨by rintro ⟨⟩, by rintro ⟨⟩⟩
      | ok f =>
          simp only [unprovided decoded]
          exact ⟨by rintro ⟨⟩; rfl, by rintro ⟨⟩; rfl⟩
  · next unknown =>
      refine ⟨by rintro ⟨⟩, ?_⟩
      intro decoded
      obtain ⟨k, typed, -⟩ := (Event.ofJson_eq_ok_iff once).mp decoded
      exact absurd (isEvent_iff.mpr ⟨k, typed⟩) unknown

/-- The parser of the stream always returns. -/
theorem parseText_ne_panicked (line : String) (provider : Option Provider) :
    (parseText line provider).reading ≠ .panicked := by
  intro panics
  rw [parseText] at panics
  split at panics
  · cases panics
  · split at panics
    · rw [parseJson] at panics
      split at panics
      · split at panics <;> cases panics
      · cases panics
    · cases panics
    · cases panics

/-- The stream and the decoder agree. A line that begins with a brace, and in which no object has a
key twice if it is JSON, is the event for the parser of the stream that it is for the decoder of
events; and where the decoder reports a fault the parser finds nothing or fails. -/
theorem parser_agrees_with_decoder {line : String}
    (braced : (Text.trim line.toList).head? = some '{')
    (distinct : ∀ v, Json.parse (Text.trim line.toList) = .ok v → v.KeysDistinct) :
    (∀ e, (parser.ofText line none).reading = .event e ↔
      Event.decoder.decodeText (Text.trim line.toList) = .ok e) ∧
    ∀ fault, Event.decoder.decodeText (Text.trim line.toList) = .error fault →
      (parser.ofText line none).reading = .nothing ∨
        ∃ error, (parser.ofText line none).reading = .failed error := by
  have agree (e : Event) : (parser.ofText line none).reading = .event e ↔
      Event.decoder.decodeText (Text.trim line.toList) = .ok e := by
    rw [Event.decodeText_eq_ok_iff braced]
    have ofObject {ms : List (String × Json)}
        (parses : Json.parse (Text.trim line.toList) = .ok (.object ms)) :
        (parser.ofText line none).reading = .event e ↔ Event.ofJson (.object ms) = .ok e := by
      have once := Json.nodup_of_ascending (Json.ascending_canonicalMembers ms)
      have canonical : parser.ofText line none =
          parseJson (.object (Json.canonicalMembers ms)) none := parseText_of_object parses none
      rw [canonical, parseJson_eq_event_iff once, Event.ofJson_canonicalMembers (distinct _ parses)]
    constructor
    · intro announced
      by_cases object : ∃ ms, Json.parse (Text.trim line.toList) = .ok (.object ms)
      · obtain ⟨ms, parses⟩ := object
        exact ⟨ms, parses, (ofObject parses).mp announced⟩
      · have nothing := nothing_of_parseText (fun ms parses => object ⟨ms, parses⟩) none
        cases announced.symm.trans nothing
    · rintro ⟨ms, parses, decoded⟩
      exact (ofObject parses).mpr decoded
  refine ⟨agree, ?_⟩
  intro fault refused
  cases read : (parser.ofText line none).reading with
  | event e => cases refused.symm.trans ((agree e).mp read)
  | nothing => exact .inl rfl
  | failed error => exact .inr ⟨error, rfl⟩
  | panicked => exact absurd read (parseText_ne_panicked line none)

/-! ### A comment out of order -/

namespace Unordered

/-- A comment with its members, and those within, in an order of their own; its author is given as a
list. -/
def line : String :=
  " \x7b\"type\":\"comment-added\",\"change\":\x7b\"topic\":null,\"number\":\" 8 \"\x7d," ++
    "\"approvals\":[\x7b\"value\":\"2\",\"by\":\x7b\"name\":\"reviewer\"\x7d\x7d]," ++
    "\"author\":[\"author\"],\"eventCreatedOn\":70\x7d "

/-- The object that the line is. -/
def members : List (String × Json) :=
  [("type", .string "comment-added"),
    ("change", .object [("topic", .null), ("number", .string " 8 ")]),
    ("approvals", .array [.object [("value", .string "2"),
      ("by", .object [("name", .string "reviewer")])]]),
    ("author", .array [.string "author"]), ("eventCreatedOn", .integer 70)]

def event : Event where
  detail := .commentAdded {
    change := some { number := some 8 }
    author := some { name := some "author" }
    approvals := [{ value := some "2", voter := some { name := some "reviewer" } }] }
  createdOn := some 70

theorem keysDistinct : Json.KeysDistinct (.object members) := by
  simp [members]

end Unordered

theorem parser_agrees_with_decoder_unordered :
    (Text.trim Unordered.line.toList).head? = some '{' ∧
      Json.parse (Text.trim Unordered.line.toList) = .ok (.object Unordered.members) ∧
      Event.decoder.decodeText (Text.trim Unordered.line.toList) = .ok Unordered.event ∧
      (parser.ofText Unordered.line none).reading = .event Unordered.event := by
  have braced : (Text.trim Unordered.line.toList).head? = some '{' := by
    decide +kernel
  have parses : Json.parse (Text.trim Unordered.line.toList) = .ok (.object Unordered.members) :=
    Json.parse_eq_ok_of_same (by decide +kernel)
  obtain ⟨agree, -⟩ := parser_agrees_with_decoder braced fun v read => by
    cases parses.symm.trans read
    exact Unordered.keysDistinct
  have decoded : Event.ofJson (.object Unordered.members) = .ok Unordered.event := rfl
  have direct := (Event.decodeText_eq_ok_iff braced).mpr ⟨_, parses, decoded⟩
  exact ⟨braced, parses, direct, (agree _).mpr direct⟩

end Stream

end ReviewHub
