import ReviewHub.Proofs.Json.Canonical
import ReviewHub.Stream

/-!
# The provider is not in the payload

No event has a member `provider` on the wire, and a record takes no notice of members it does not
know. So what a payload says about its provider is never read: two payloads that differ in that
member only are treated alike, and the event that a parser makes of a payload is from the provider
that the payload was submitted with.
-/

namespace ReviewHub

open Wire (Member)

/-! ### Records -/

namespace Wire.Record

variable {R : Type} {known : List (Member R)} {key : String}

/-- A member that a record does not know may as well be left out. -/
theorem takeMembers_without (unknown : Member.named? known key = none) (d : Draft R)
    (ms : List (String × Json)) :
    takeMembers known d (Json.without key ms) = takeMembers known d ms := by
  induction ms generalizing d with
  | nil => rfl
  | cons m ms ih =>
      obtain ⟨k, v⟩ := m
      by_cases here : k = key
      · have passed : takeMember known d k v = .ok d := by rw [takeMember, here, unknown]
        rw [Json.without_cons_of_eq here, ih, takeMembers, passed]
        rfl
      · rw [Json.without_cons_of_ne here, takeMembers, takeMembers]
        cases takeMember known d k v with
        | error m => rfl
        | ok d => exact ih d

theorem decoder_without (unknown : Member.named? known key = none) (title : String) (default : R)
    (ms : List (String × Json)) :
    (decoder title default known).ofJson (.object (Json.without key ms)) =
      (decoder title default known).ofJson (.object ms) := by
  simp only [decoder, takeMembers_without unknown]

end Wire.Record

/-! ### Events -/

namespace Event

/-- No kind of event has the member. -/
theorem decoderOf_without (k : Kind) (ms : List (String × Json)) :
    (decoderOf k).ofJson (.object (Json.without "provider" ms)) =
      (decoderOf k).ofJson (.object ms) := by
  cases k <;>
    exact congrArg (Except.map _) (Wire.Record.decoder_without rfl _ _ ms)

namespace Tagged

/-- The type and the other members but those with the key. -/
def without (key : String) (t : Tagged) : Tagged :=
  { t with members := Json.without key t.members }

theorem decode_without (t : Tagged) : (t.without "provider").decode = t.decode := by
  have reversed : (Json.without "provider" t.members).reverse =
      Json.without "provider" t.members.reverse := List.filter_reverse.symm
  rw [decode, decode, without]
  cases t.kind with
  | none => rfl
  | some k => simp only [reversed, decoderOf_without]

variable {key : String}

theorem takeMember_of_eq (other : key ≠ "type") (t : Tagged) (v : Json) :
    t.takeMember key v = .ok { t with members := (key, v) :: t.members } := by
  rw [takeMember, if_neg other]

theorem takeMember_without (t : Tagged) {k : String} (elsewhere : k ≠ key) (v : Json) :
    (t.without key).takeMember k v = (t.takeMember k v).map (without key) := by
  rw [takeMember, takeMember]
  split
  · cases read : kindDecoder.ofJson v <;> cases kind : t.kind <;>
      simp [without, Except.map, kind]
  · simp only [without, Except.map, Json.without_cons_of_ne elsewhere]

theorem takeMembers_without (other : key ≠ "type") (t : Tagged) (ms : List (String × Json)) :
    takeMembers (t.without key) (Json.without key ms) =
      (takeMembers t ms).map (without key) := by
  induction ms generalizing t with
  | nil => rfl
  | cons m ms ih =>
      obtain ⟨k, v⟩ := m
      by_cases here : k = key
      · have hidden : ({ t with members := (k, v) :: t.members } : Tagged).without key =
            t.without key := by rw [without, without, Json.without_cons_of_eq here]
        rw [Json.without_cons_of_eq here, takeMembers, takeMember_of_eq (here ▸ other), ← hidden]
        exact ih _
      · rw [Json.without_cons_of_ne here, takeMembers, takeMembers, takeMember_without t here]
        cases t.takeMember k v with
        | error m => rfl
        | ok t => exact ih t

end Tagged

theorem ofJson_without (ms : List (String × Json)) :
    ofJson (.object (Json.without "provider" ms)) = ofJson (.object ms) := by
  have other : "provider" ≠ "type" := by decide
  have taken : Tagged.takeMembers {} (Json.without "provider" ms) =
      (Tagged.takeMembers {} ms).map (Tagged.without "provider") :=
    Tagged.takeMembers_without other {} ms
  rw [ofJson, ofJson, taken]
  cases Tagged.takeMembers {} ms with
  | error m => rfl
  | ok t => exact t.decode_without

end Event

/-! ### Payloads -/

namespace Stream

theorem type?_without (ms : List (String × Json)) :
    type? (.object (Json.without "provider" ms)) = type? (.object ms) := by
  rw [type?, type?, Json.member?_without (by decide)]

theorem parseJson_without (ms : List (String × Json)) (provider : Option Provider) :
    parseJson (.object (Json.without "provider" ms)) provider =
      parseJson (.object ms) provider := by
  rw [parseJson, parseJson, isEvent, isEvent, type?_without, Event.ofJson_without]

variable {ms ns : List (String × Json)} {first second : String}

/-- Two JSON payloads that differ in their member `provider` only are treated alike. -/
theorem parseJson_congr (alike : Json.without "provider" ms = Json.without "provider" ns)
    (provider : Option Provider) :
    parseJson (.object ms) provider = parseJson (.object ns) provider := by
  rw [← parseJson_without ms, alike, parseJson_without]

theorem parseText_of_object (parses : Json.parse (Text.trim first.toList) = .ok (.object ms))
    (provider : Option Provider) :
    parseText first provider = parseJson (.object (Json.canonicalMembers ms)) provider := by
  rw [parseText]
  split
  · next blank =>
      rw [blank] at parses
      cases parses
  · rw [parses]
    rfl

/-- So are two lines. -/
theorem parseText_congr (one : Json.parse (Text.trim first.toList) = .ok (.object ms))
    (other : Json.parse (Text.trim second.toList) = .ok (.object ns))
    (alike : Json.without "provider" ms = Json.without "provider" ns)
    (provider : Option Provider) : parseText first provider = parseText second provider := by
  rw [parseText_of_object one, parseText_of_object other]
  refine parseJson_congr ?_ provider
  rw [Json.without_canonicalMembers, Json.without_canonicalMembers, alike]

theorem provider_of_parseJson {v : Json} {provider : Option Provider} {e : Event}
    (reads : (parseJson v provider).reading = .event e) : e.provider = provider := by
  rw [parseJson] at reads
  split at reads
  · split at reads
    · cases reads
      rfl
    · cases reads
  · cases reads

theorem provider_of_parseText {line : String} {provider : Option Provider} {e : Event}
    (reads : (parseText line provider).reading = .event e) : e.provider = provider := by
  rw [parseText] at reads
  split at reads
  · cases reads
  · split at reads
    · exact provider_of_parseJson reads
    · cases reads
    · cases reads

/-- The event of an item is from the provider that the item was submitted with. -/
theorem provider_of_intoEvent {item : WorkItem} {e : Event}
    (reads : (item.intoEvent parser).reading = .event e) : e.provider = item.provider := by
  cases item with
  | text payload provider => exact provider_of_parseText reads
  | json payload provider => exact provider_of_parseJson reads
  | event f =>
      cases reads
      rfl

end Stream

end ReviewHub
