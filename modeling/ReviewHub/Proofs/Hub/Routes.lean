import ReviewHub.Proofs.Hub.Disguise
import ReviewHub.Proofs.Stream.Specification

/-!
# Three ways to submit

A line of the event stream, the JSON value that it reads as and the event that it stands for can be
submitted, and it makes no difference which. This is so for any two items that the parser reads
alike, since nothing else ever looks into them: a hub that has the one follows, in disguise, a hub
that has the other. They can be told apart only by records below the level of information, in which
a submission and its parsing are traced.
-/

namespace ReviewHub

/-! ### What is seen -/

/-- The record is of a level below information. -/
def Log.isMinor (log : Log) : Bool := log.level.rank < Level.info.rank

/-- Something that happens at a hub, as it is seen by those who do not look into envelopes. -/
inductive Sight where
  /-- A record as it is written. -/
  | record (level : Level) (message : String) (fields : List (String × LogValue))
  | accepted (stamp : Stamp)
  | taken (source : Source) (stamp : Stamp)
  | acted (action : Action) (reply : Reply)
  | notified (source : Source) (event : Event)
  | dispatched (source : Source) (note : Note)

/-- What is seen of a happening, unless it is a minor record. -/
def Happening.sight? : Happening → Option Sight
  | logged log => if log.isMinor then none else some (.record log.level log.message log.fields)
  | accepted work => some (.accepted work.stamp)
  | taken source work => some (.taken source work.stamp)
  | acted action reply => some (.acted action reply)
  | notified source e => some (.notified source e)
  | dispatched source note => some (.dispatched source note)

/-! ### Items that are read alike -/

namespace Hub

variable {σ : Type}

/-- The envelopes are exchanged for others; everything else is as it is. -/
def exchanging (f : Envelope → Envelope) : Disguise := ⟨f, id, id⟩

section Exchange

variable {f : Envelope → Envelope} {parser : Parser}

theorem dispatch_exchanging (d : Dispatch) : (exchanging f).dispatch d = d := List.map_id d

theorem paced_self (view : Happening → Option Sight)
    (x : Option (Scene σ × Dispatch × List Note)) : Paced (exchanging f) view x x := by
  cases x with
  | none => trivial
  | some x => exact ⟨rfl, (dispatch_exchanging x.2.1).symm, fun _ => rfl⟩

/-- Records show an envelope by its stamp, or else they are minor. -/
theorem sight?_exchanging (stamps : ∀ work, (f work).stamp = work.stamp) (x : Happening) :
    ((exchanging f).happening x).sight? = x.sight? := by
  have shown (work : Envelope) : (f work).shortId = work.shortId := by
    rw [Envelope.shortId, Envelope.shortId, stamps]
  cases x with
  | logged log =>
      cases log <;>
        simp [exchanging, Disguise.happening, Disguise.log, Happening.sight?, Log.isMinor,
          Log.level, Log.message, Log.fields, Level.rank, shown]
  | accepted work => exact congrArg (fun stamp => some (Sight.accepted stamp)) (stamps work)
  | taken source work => exact congrArg (fun stamp => some (Sight.taken source stamp)) (stamps work)
  | _ => rfl

theorem sights_of_minor {logs : List Log} (minor : ∀ log ∈ logs, log.isMinor) :
    (logs.map Happening.logged).filterMap Happening.sight? = [] := by
  rw [List.filterMap_eq_nil_iff]
  intro x member
  obtain ⟨log, isLogged, rfl⟩ := List.mem_map.mp member
  rw [Happening.sight?, if_pos (minor log isLogged)]

variable (stamps : ∀ work, (f work).stamp = work.stamp)
  (readings : ∀ work,
    ((f work).item.intoEvent parser).reading = (work.item.intoEvent parser).reading)
  (minor : ∀ (item : WorkItem), ∀ log ∈ (item.intoEvent parser).logs, log.isMinor)

include stamps readings minor

/-- Both envelopes are opened with the same result. -/
theorem follows_openEnvelope {h : Hub σ} (parses : h.parser = parser) (i : Nat) (name : String)
    (work : Envelope) :
    Follows (exchanging f) Happening.sight? id (h.openEnvelope i name work)
      (((exchanging f).hub h).openEnvelope i name (f work)) := by
  subst parses
  have parser : (exchanging f).parser h.parser = h.parser := rfl
  have overlooks := sight?_exchanging stamps
  have traced (work : Envelope) :
      ((Log.performing name work :: (work.item.intoEvent h.parser).logs).map
        Happening.logged).filterMap Happening.sight? = [] := by
    refine sights_of_minor ?_
    rintro log (_ | ⟨_, parsing⟩)
    · rfl
    · exact minor work.item log parsing
  have alike := (traced (f work)).trans (traced work).symm
  rw [openEnvelope, openEnvelope, Disguise.parser_hub, parser]
  simp only [readings]
  cases (work.item.intoEvent h.parser).reading with
  | event e => exact follows_begun h i (fun _ _ => rfl) alike work e
  | nothing =>
      exact follows_concluded h i .returned alike
        (overlooks (.logged (.nothingToDispatch name work)))
  | failed error =>
      exact follows_concluded h i .returned alike
        (overlooks (.logged (.unparseable name work error)))
  | panicked =>
      exact follows_concluded h i .returned alike
        (overlooks (.logged (.parserPanicked name work)))

theorem holds_exchanging (rep : Repertoire σ) :
    Holds (exchanging f) Happening.sight? rep rep parser where
  overlooks := sight?_exchanging stamps
  submits item := by cases item <;> rfl
  begins _ _ := rfl
  passes d := by
    rw [dispatch_exchanging]
    cases Dispatch.passGate? d with
    | none => rfl
    | some passed => rw [Option.map_some, dispatch_exchanging]
  steps w d := by
    rw [dispatch_exchanging]
    exact paced_self _ _
  opens h i name work parses := follows_openEnvelope stamps readings minor parses i name work

end Exchange

/-- Two items that are read alike can be submitted for each other. -/
theorem run_submit_congr {parser : Parser}
    (minor : ∀ (item : WorkItem), ∀ log ∈ (item.intoEvent parser).logs, log.isMinor)
    (rep : Repertoire σ) {h : Hub σ} (parses : h.parser = parser) (here there : Envelope)
    (stamp : here.stamp = there.stamp)
    (alike : (here.item.intoEvent parser).reading = (there.item.intoEvent parser).reading)
    (ss : List Step) :
    (run rep h (.submit here :: ss)).2.filterMap Happening.sight? =
        (run rep h (.submit there :: ss)).2.filterMap Happening.sight? ∧
      (run rep h (.submit here :: ss)).1.scene = (run rep h (.submit there :: ss)).1.scene := by
  classical
  -- In disguise both hubs have the second envelope.
  let f (work : Envelope) : Envelope := if work = here then there else work
  have stamps (work : Envelope) : (f work).stamp = work.stamp := by
    by_cases same : work = here <;> simp [f, same, stamp]
  have readings (work : Envelope) :
      ((f work).item.intoEvent parser).reading = (work.item.intoEvent parser).reading := by
    by_cases same : work = here <;> simp [f, same, alike]
  have holds := holds_exchanging stamps readings minor rep
  have one : f here = there := if_pos rfl
  have other : f there = there := by
    by_cases same : there = here <;> simp [f, same]
  obtain ⟨final, sights⟩ := run_disguised holds parses (.submit here :: ss)
  obtain ⟨otherFinal, otherSights⟩ := run_disguised holds parses (.submit there :: ss)
  have steps : (Step.submit here :: ss).map (exchanging f).step =
      (Step.submit there :: ss).map (exchanging f).step := by
    simp only [List.map_cons, Disguise.step, exchanging, one, other]
  rw [steps] at final sights
  have scenes := congrArg Hub.scene (final.symm.trans otherFinal)
  exact ⟨sights.symm.trans otherSights, scenes⟩

/-! ### The event stream -/

theorem minor_of_intoEvent (item : WorkItem) :
    ∀ log ∈ (item.intoEvent Stream.parser).logs, log.isMinor := by
  have json (v : Json) (provider : Option Provider) :
      ∀ log ∈ (Stream.parseJson v provider).logs, log.isMinor := by
    rw [Stream.parseJson]
    split
    · split <;> exact fun _ none => absurd none List.not_mem_nil
    · rintro log (_ | ⟨_, none⟩)
      · rfl
      · cases none
  cases item with
  | text line provider =>
      change ∀ log ∈ (Stream.parseText line provider).logs, log.isMinor
      rw [Stream.parseText]
      split
      · exact fun _ none => absurd none List.not_mem_nil
      · split
        · exact json _ provider
        · simp [Log.isMinor, Log.level, Level.rank]
        · simp [Log.isMinor, Log.level, Level.rank]
  | json v provider => exact json v provider
  | event e => exact fun _ none => absurd none List.not_mem_nil

/-- A line is read like the value that it reads as. -/
theorem reading_text_eq_json {line : String} {v : Json}
    (parses : Json.parse (Text.trim line.toList) = .ok v) (provider : Option Provider) :
    ((WorkItem.text line provider).intoEvent Stream.parser).reading =
      ((WorkItem.json v.canonical provider).intoEvent Stream.parser).reading := by
  change (Stream.parseText line provider).reading =
    (Stream.parseJson v.canonical provider).reading
  cases v with
  | object ms => rw [Stream.parseText_of_object parses, Json.canonical]
  | _ =>
      have noObject (ms : List (String × Json)) :
          Json.parse (Text.trim line.toList) ≠ .ok (.object ms) := by
        rw [parses]
        exact nofun
      rw [Stream.nothing_of_parseText noObject, Stream.nothing_of_parseJson]
      intro ms k same
      simp [Json.canonical] at same

/-- A line of the event stream can be submitted as it is, as the JSON value that it reads as, or, if
it stands for an event, as that event, and the listeners are called alike, with the same records
from the level of information up, and leave the same roster and ignore list. Whatever the item, its
event is from the provider that the item was submitted with. -/
theorem submissions_agree (rep : Repertoire σ) {h : Hub σ} (streams : h.parser = Stream.parser)
    {line : String} {v : Json} (parses : Json.parse (Text.trim line.toList) = .ok v)
    (provider : Option Provider) (stamp : Stamp) (ss : List Step) :
    let text : WorkItem := .text line provider
    let json : WorkItem := .json v.canonical provider
    let course (item : WorkItem) := run rep h (.submit ⟨stamp, item⟩ :: ss)
    let sights (item : WorkItem) := (course item).2.filterMap Happening.sight?
    (sights text = sights json ∧ (course text).1.scene = (course json).1.scene) ∧
      (∀ e, (text.intoEvent h.parser).reading = .event e →
        sights text = sights (.event e) ∧ (course text).1.scene = (course (.event e)).1.scene) ∧
      ∀ (item : WorkItem) e, (item.intoEvent h.parser).reading = .event e →
        e.provider = item.provider := by
  intro text json course sights
  refine ⟨?_, ?_, ?_⟩
  · exact run_submit_congr minor_of_intoEvent rep streams ⟨stamp, text⟩ ⟨stamp, json⟩ rfl
      (reading_text_eq_json parses provider) ss
  · intro e reads
    rw [streams] at reads
    exact run_submit_congr minor_of_intoEvent rep streams ⟨stamp, text⟩ ⟨stamp, .event e⟩ rfl
      reads ss
  · intro item e reads
    rw [streams] at reads
    exact Stream.provider_of_intoEvent reads

namespace Update

/-- An update of a ref, with a key that stands twice. -/
def line : String := " \x7b\"type\":\"ref-updated\",\"stream\":1,\"stream\":2\x7d "

/-- The value that the line reads as. -/
def value : Json :=
  .object [("type", .string "ref-updated"), ("stream", .integer 1), ("stream", .integer 2)]

def provider : Option Provider := some { name := "review" }

def event : Event := { detail := .refUpdated {}, provider := provider }

def listener : Listener := ⟨1, "listener"⟩

/-- A hub with a worker and a listener. -/
def hub : Hub Unit :=
  { Small.hub with parser := Stream.parser, scene := ⟨{ roster := ⟨[listener]⟩ }, ()⟩ }

end Update

/-- The line calls the listener, as the event does. -/
theorem submissions_agree_update :
    let stamp : Stamp := ⟨0#128, 0⟩
    let item : WorkItem := .text Update.line Update.provider
    let ss : List Step := [.pollWorker 0, .advanceJob 0, .advanceJob 0]
    Update.hub.parser = Stream.parser ∧
      Json.parse (Text.trim Update.line.toList) = .ok Update.value ∧
      (item.intoEvent Update.hub.parser).reading = .event Update.event ∧
      (run Small.repertoire Update.hub (.submit ⟨stamp, item⟩ :: ss)).2.filterMap
        Happening.sight? = [.accepted stamp, .taken (.worker 0) stamp,
          .notified (.worker 0) Update.event,
          .dispatched (.worker 0) ⟨0, .logged (.notifying Update.event 1)⟩,
          .dispatched (.worker 0) ⟨0, .entered Update.listener (.specific .refUpdated)
            Update.event⟩] := by
  intro stamp item ss
  have parses : Json.parse (Text.trim Update.line.toList) = .ok Update.value :=
    Json.parse_eq_ok_of_same (by decide +kernel)
  have canonical : Update.value.canonical =
      .object [("stream", .integer 2), ("type", .string "ref-updated")] := rfl
  have streams : Update.hub.parser = Stream.parser := rfl
  have reads : (item.intoEvent Update.hub.parser).reading = .event Update.event := by
    rw [streams, reading_text_eq_json parses, canonical]
    rfl
  obtain ⟨-, events, -⟩ :=
    submissions_agree Small.repertoire streams parses Update.provider stamp ss
  exact ⟨streams, parses, reads, (events Update.event reads).1⟩

end Hub

end ReviewHub
