import ReviewHub.Proofs.Event.Fields
import ReviewHub.Proofs.Json.Check
import ReviewHub.Proofs.Stream.Provider

/-!
# What the parser does

The parser of the event stream, said completely and without the order in which members are taken. A
line counts for the object that it is, and an object for the event that its type names. From there
on the fields of the event decide: each is read alone, and where one cannot be read the failure of
the one with the least key is reported. The same rule holds for the attributes in an event. Members
under other keys never matter.
-/

namespace ReviewHub

open Wire (Follows Lays)

/-! ### Decoders that follow the rule -/

namespace Wire

/-- The decoder reads objects by the rule for the fields, and nothing but these matters to it. -/
structure Decoder.Obeys {R : Type} (d : Decoder R) (fields : List (Wire.Field R)) (default : R) :
    Prop where
  follows : ∀ ms, Json.Ascending ms → Follows fields default ms (d.ofJson (.object ms))
  only : ∀ ms ns, Json.Ascending ms → Json.Ascending ns →
    (∀ f ∈ fields, Json.member? f.key ms = Json.member? f.key ns) →
      d.ofJson (.object ms) = d.ofJson (.object ns)

theorem Lays.obeys {R : Type} {fields : List (Wire.Field R)} {known : List (Member R)}
    (lays : Lays fields known) (title : String) (default : R) :
    (Record.decoder title default known).Obeys fields default where
  follows _ ascending := lays.follows ascending title default
  only _ _ ascending ascendingToo alike :=
    lays.follows_unique ((lays.follows ascending title default).congr alike)
      (lays.follows ascendingToo title default)

end Wire

/-! ### The type of an event -/

theorem Event.kindDecoder_name (k : Kind) : kindDecoder.ofJson (.string k.name) = .ok k := by
  simp only [kindDecoder, Wire.Decoder.ofScalar, Kind.ofTag?_name]

namespace Event.Tagged

variable {ms : List (String × Json)} {k : Kind}

theorem takeMembers_of_absent (absent : "type" ∉ ms.map Prod.fst) (t : Tagged) :
    takeMembers t ms = .ok { t with members := ms.reverse ++ t.members } := by
  induction ms generalizing t with
  | nil => rfl
  | cons m ms ih =>
      obtain ⟨key, v⟩ := m
      obtain ⟨other, absentLater⟩ := not_or.mp (List.mem_cons.not.mp absent)
      rw [takeMembers, takeMember_of_eq (Ne.symm other)]
      refine (ih absentLater _).trans ?_
      simp

theorem takeMembers_of_type (once : (ms.map Prod.fst).Nodup)
    (typed : Json.member? "type" ms = some (.string k.name)) (t : Tagged) (fresh : t.kind = none) :
    takeMembers t ms =
      .ok ⟨some k, (Json.without "type" ms).reverse ++ t.members⟩ := by
  induction ms generalizing t with
  | nil => cases typed
  | cons m ms ih =>
      obtain ⟨key, v⟩ := m
      obtain ⟨alone, onceLater⟩ := List.nodup_cons.mp once
      rw [Json.member?_cons] at typed
      by_cases here : key = "type"
      · subst here
        rw [if_pos rfl] at typed
        cases typed
        have taken : t.takeMember "type" (.string k.name) = .ok { t with kind := some k } := by
          rw [takeMember, if_pos rfl, fresh, kindDecoder_name]
          rfl
        rw [takeMembers, taken, Json.without_cons_of_eq rfl, Json.without_of_not_mem alone]
        exact takeMembers_of_absent alone _
      · rw [if_neg here] at typed
        rw [takeMembers, takeMember_of_eq here, Json.without_cons_of_ne here]
        refine (ih onceLater typed { t with members := (key, v) :: t.members } fresh).trans ?_
        simp

end Event.Tagged

namespace Event

variable {ms : List (String × Json)} {k : Kind}

/-- An event is read from its members but the type. -/
theorem ofJson_of_type (once : (ms.map Prod.fst).Nodup)
    (typed : Json.member? "type" ms = some (.string k.name)) :
    ofJson (.object ms) = (decoderOf k).ofJson (.object (Json.without "type" ms)) := by
  rw [ofJson, Tagged.takeMembers_of_type once typed {} rfl]
  change (decoderOf k).ofJson (.object ((Json.without "type" ms).reverse ++ []).reverse) = _
  rw [List.append_nil, List.reverse_reverse]

/-- The type is no field of an event, and neither is the provider. -/
theorem type_not_mem_fields (k : Kind) : "type" ∉ (fields k).map Wire.Field.key := by
  cases k <;> decide

theorem provider_not_mem_fields (k : Kind) : "provider" ∉ (fields k).map Wire.Field.key := by
  cases k <;> decide

/-- The fields are found where they are without the type. -/
theorem member?_without_type {f : Wire.Field (Told (Detail.Of k))} (isField : f ∈ fields k) :
    Json.member? f.key (Json.without "type" ms) = Json.member? f.key ms := by
  refine Json.member?_without ?_
  intro isType
  exact type_not_mem_fields k (isType ▸ List.mem_map_of_mem isField)

/-- What an object with the type of the kind tells is decided by the rule. -/
theorem follows_of_type (ascending : Json.Ascending ms)
    (typed : Json.member? "type" ms = some (.string k.name)) :
    ∃ o, Follows (fields k) ⟨Detail.empty k, none⟩ ms o ∧
      ofJson (.object ms) = o.map (Told.event (Detail.of k)) := by
  have rule := (lays k).follows (ascending.without "type") k.title
    ⟨Detail.empty k, none⟩
  refine ⟨_, rule.congr fun f isField => member?_without_type isField, ?_⟩
  rw [ofJson_of_type (Json.nodup_of_ascending ascending) typed, decoderOf_eq]
  rfl

end Event

/-! ### Payloads -/

namespace Stream

variable {ms : List (String × Json)} {k : Kind}

/-- An object is looked at any further if its type is the name of a kind. -/
theorem isEvent_iff :
    isEvent (.object ms) ↔ ∃ k, Json.member? "type" ms = some (.string (Kind.name k)) := by
  rw [isEvent, type?]
  constructor
  · intro known
    split at known
    · next s found =>
        obtain ⟨k, rfl⟩ := Kind.isKnown_iff.mp known
        exact ⟨k, found⟩
    · cases known
  · rintro ⟨k, typed⟩
    rw [typed]
    exact Kind.isKnown_iff.mpr ⟨k, rfl⟩

/-- What the parser makes of what an event of the kind is found to tell. -/
def outcome (k : Kind) (provider : Option Provider) :
    Except Mismatch (Told (Detail.Of k)) → Reading
  | .ok t => .event ⟨Detail.of k t.detail, t.createdOn, provider⟩
  | .error m => .failed (.parse (.unplaced m))

theorem parseJson_of_type (ascending : Json.Ascending ms)
    (typed : Json.member? "type" ms = some (.string k.name)) (provider : Option Provider) :
    ∃ o, Follows (Event.fields k) ⟨Detail.empty k, none⟩ ms o ∧
      parseJson (.object ms) provider = { reading := outcome k provider o } := by
  obtain ⟨o, rule, reads⟩ := Event.follows_of_type ascending typed
  refine ⟨o, rule, ?_⟩
  rw [parseJson, if_pos (isEvent_iff.mpr ⟨k, typed⟩), reads]
  cases o <;> rfl

theorem nothing_of_parseText {line : String}
    (noObject : ∀ ms, Json.parse (Text.trim line.toList) ≠ .ok (.object ms))
    (provider : Option Provider) : (parseText line provider).reading = .nothing := by
  rw [parseText]
  split
  · rfl
  · split
    · next ms parses => exact absurd parses (noObject ms)
    · rfl
    · rfl

theorem nothing_of_parseJson {v : Json}
    (noType : ∀ ms k, v = .object ms → Json.member? "type" ms ≠ some (.string (Kind.name k)))
    (provider : Option Provider) : (parseJson v provider).reading = .nothing := by
  have unknown : ¬isEvent v := by
    intro known
    cases v with
    | object ms =>
        obtain ⟨k, typed⟩ := isEvent_iff.mp known
        exact noType ms k rfl typed
    | _ => cases known
  rw [parseJson, if_neg unknown]

/-- Only the type matters and, if it is known, what stands under the keys of its fields. -/
theorem parseJson_eq_of_alike {ns : List (String × Json)} (ascending : Json.Ascending ms)
    (ascendingToo : Json.Ascending ns) (sameType : Json.member? "type" ms = Json.member? "type" ns)
    (alike : ∀ k, Json.member? "type" ms = some (.string (Kind.name k)) → ∀ f ∈ Event.fields k,
      Json.member? f.key ms = Json.member? f.key ns)
    (provider : Option Provider) :
    parseJson (.object ms) provider = parseJson (.object ns) provider := by
  have types : type? (.object ms) = type? (.object ns) := by rw [type?, type?, sameType]
  have events : isEvent (.object ms) = isEvent (.object ns) := by rw [isEvent, isEvent, types]
  cases known : isEvent (.object ms) with
  | false =>
      rw [parseJson, parseJson, ← events, known, types]
      rfl
  | true =>
      obtain ⟨k, typed⟩ := isEvent_iff.mp known
      obtain ⟨o, rule, reads⟩ := parseJson_of_type ascending typed provider
      obtain ⟨p, ruleToo, readsToo⟩ :=
        parseJson_of_type ascendingToo (sameType.symm.trans typed) provider
      have same : o = p :=
        (Event.lays k).follows_unique (rule.congr (alike k typed)) ruleToo
      rw [reads, readsToo, same]

/-- What the parser does. A line that is no JSON object is nothing to dispatch, and one that is
counts for that object; a value that is no object with a known type is nothing to dispatch. For an
object with a known type there is just one outcome by the rule for its fields, and this is what the
parser makes of it; the attributes in an event are read by the same rule. Other members do not
matter, the provider among them. Keys ascend in the objects here, as they do in canonical ones. -/
theorem parser_specification (provider : Option Provider) :
    (∀ line, (∀ ms, Json.parse (Text.trim line.toList) ≠ .ok (.object ms)) →
      (parser.ofText line provider).reading = .nothing) ∧
    (∀ line ms, Json.parse (Text.trim line.toList) = .ok (.object ms) →
      parser.ofText line provider = parser.ofJson (Json.object ms).canonical provider) ∧
    (∀ v, (∀ ms k, v = .object ms → Json.member? "type" ms ≠ some (.string (Kind.name k))) →
      (parser.ofJson v provider).reading = .nothing) ∧
    (∀ ms k, Json.Ascending ms → Json.member? "type" ms = some (.string (Kind.name k)) →
      (∃ o, Follows (Event.fields k) ⟨Detail.empty k, none⟩ ms o) ∧
      (∀ o, Follows (Event.fields k) ⟨Detail.empty k, none⟩ ms o →
        (parser.ofJson (.object ms) provider).reading = outcome k provider o) ∧
      ∀ e, (parser.ofJson (.object ms) provider).reading = .event e →
        e.kind = k ∧ e.provider = provider) ∧
    (Account.decoder.Obeys Account.fields {} ∧ Change.decoder.Obeys Change.fields {} ∧
      PatchSet.decoder.Obeys PatchSet.fields {} ∧ Approval.decoder.Obeys Approval.fields {} ∧
      RefUpdate.decoder.Obeys RefUpdate.fields {}) ∧
    (∀ ms ns, Json.Ascending ms → Json.Ascending ns →
      Json.member? "type" ms = Json.member? "type" ns →
      (∀ k, Json.member? "type" ms = some (.string (Kind.name k)) → ∀ f ∈ Event.fields k,
        Json.member? f.key ms = Json.member? f.key ns) →
      parser.ofJson (.object ms) provider = parser.ofJson (.object ns) provider) ∧
    ∀ k, "provider" ∉ (Event.fields k).map Wire.Field.key := by
  refine ⟨?lines, ?objects, ?values, ?rule, ?attributes, ?others, Event.provider_not_mem_fields⟩
  case lines =>
    intro line noObject
    exact nothing_of_parseText noObject provider
  case objects =>
    intro line ms parses
    exact parseText_of_object parses provider
  case values =>
    intro v noType
    exact nothing_of_parseJson noType provider
  case rule =>
    intro ms k ascending typed
    obtain ⟨o, rule, reads⟩ := parseJson_of_type ascending typed provider
    refine ⟨⟨o, rule⟩, ?_, ?_⟩
    · intro p ruleToo
      rw [(Event.lays k).follows_unique ruleToo rule]
      exact congrArg Parsed.reading reads
    · intro e announced
      have happens : outcome k provider o = .event e :=
        (congrArg Parsed.reading reads).symm.trans announced
      cases o with
      | ok t =>
          cases happens
          exact ⟨Detail.kind_of k t.detail, rfl⟩
      | error m => cases happens
  case attributes =>
    exact ⟨Account.lays.obeys _ _, Change.lays.obeys _ _, PatchSet.lays.obeys _ _,
      Approval.lays.obeys _ _, RefUpdate.lays.obeys _ _⟩
  case others =>
    intro ms ns ascending ascendingToo sameType alike
    exact parseJson_eq_of_alike ascending ascendingToo sameType alike provider

namespace Faulty

/-- An update of a ref that comes from no account and names no revision. -/
def line : String :=
  " \x7b\"type\":\"ref-updated\",\"submitter\":7,\"refUpdate\":" ++
    "\x7b\"oldRev\":[],\"newRev\":false,\"project\":null\x7d,\"provider\":true\x7d "

/-- The object that the line is. -/
def members : List (String × Json) :=
  [("type", .string "ref-updated"), ("submitter", .integer 7),
    ("refUpdate", .object [("oldRev", .array []), ("newRev", .bool false), ("project", .null)]),
    ("provider", .bool true)]

/-- The same with the members in order. -/
def ordered : List (String × Json) :=
  [("provider", .bool true),
    ("refUpdate", .object [("newRev", .bool false), ("oldRev", .array []), ("project", .null)]),
    ("submitter", .integer 7), ("type", .string "ref-updated")]

end Faulty

/-- Three members cannot be read, and the one reported is `newRev` in `refUpdate`. -/
theorem parser_specification_faulty :
    Json.parse (Text.trim Faulty.line.toList) = .ok (.object Faulty.members) ∧
      (Json.object Faulty.members).canonical = .object Faulty.ordered ∧
      Json.Ascending Faulty.ordered ∧
      Json.member? "type" Faulty.ordered = some (.string Kind.refUpdated.name) ∧
      (parser.ofText Faulty.line none).reading =
        .failed (.parse (.unplaced (.wrongType (.bool false) .text))) := by
  have parses : Json.parse (Text.trim Faulty.line.toList) = .ok (.object Faulty.members) :=
    Json.parse_eq_ok_of_same (by decide +kernel)
  have canonical : (Json.object Faulty.members).canonical = .object Faulty.ordered := rfl
  have ascending : Json.Ascending Faulty.ordered := by
    rw [Json.Ascending, Faulty.ordered]
    decide
  have typed : Json.member? "type" Faulty.ordered = some (.string Kind.refUpdated.name) := rfl
  obtain ⟨-, objects, -, byRule, -⟩ := parser_specification none
  refine ⟨parses, canonical, ascending, typed, ?_⟩
  rw [objects _ _ parses, canonical]
  refine (byRule Faulty.ordered .refUpdated ascending typed).2.1 (.error _) ?_
  refine ⟨Told.field ⟨"refUpdate", _, .optional RefUpdate.decoder, RefUpdated.refUpdate⟩,
    .tail _ (.head _), ⟨_, rfl, rfl⟩, ?_⟩
  rintro g isField below n ⟨v, found, -⟩
  -- The only lesser key is that of the time, which is not there.
  rcases Told.mem_fields.mp isField with ⟨f, told, rfl⟩ | rfl
  · rcases List.mem_cons.mp told with rfl | told
    · exact absurd below (by decide)
    · cases List.mem_singleton.mp told
      exact absurd below (by decide)
  · cases found

end Stream

end ReviewHub
