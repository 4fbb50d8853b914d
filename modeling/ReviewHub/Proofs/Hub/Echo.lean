import ReviewHub.Proofs.Hub.Board
import ReviewHub.Proofs.Hub.Job
import ReviewHub.Proofs.Json.Check
import ReviewHub.Proofs.Stream.Provider

/-!
# Echoes

The comments that a client posts come back to it in the stream, and the hub keeps them from its
listeners. The settings in the history of a hub say which comments are echoes at a moment. A
dispatch that begins at that moment delivers nothing if its event is an echo; otherwise all
listeners that are registered at that moment are called. The provider that counts is the one that an
item was submitted with.
-/

namespace ReviewHub

/-- The event of an item, read off the stream, is from the provider that the item was submitted
with. -/
theorem WorkItem.provider_of_event? {item : WorkItem} {e : Event}
    (event : item.event? Stream.parser = some e) : e.provider = item.provider := by
  rw [WorkItem.event?] at event
  split at event
  · next f reading =>
      cases event
      exact Stream.provider_of_intoEvent reading
  · cases event

namespace Hub

variable {σ : Type}

theorem snapshot_of_echo {h : Hub σ} {e : Event}
    (ignored : h.scene.board.ignored.ignores e = true) : h.snapshot e = [] := if_pos ignored

theorem snapshot_of_other {h : Hub σ} {e : Event}
    (heard : ¬h.scene.board.ignored.ignores e = true) :
    h.snapshot e = [⟨e, none, h.listeners⟩] := if_neg heard

/-- Which events reach the listeners of a hub that reads the stream, at any moment of any run. The
settings that have been made so far, by listeners or from outside, say which comments are echoes: of
the settings for the provider of a comment the last one is the email of its author. They are all
that the ignore list holds. When a worker opens an envelope with an echo, nothing comes of it: no
listener is called before the job is done. For any other event the listeners that are registered
then are called under the handler for its kind, each once and in their order: those that have not
been called yet are owed a call, and when the job is done nothing is owed. A dispatch from outside
begins in the same way. The provider of an event is the one that its item was submitted with, and
what a payload says about its provider makes no difference to what becomes of it. -/
theorem echoes_withheld {c : Config} {memory : σ} {start : Hub σ}
    (built : (build true c Stream.parser memory).outcome = .ok start) (rep : Repertoire σ)
    (past : List Step) :
    let h := (run rep start past).1
    let settings := settingsIn (run rep start past).2
    (∀ provider, h.ignoredEmail? provider = (settings.last? provider).join) ∧
      h.scene.board.ignored.size = settings.providers.length ∧
      (∀ e, h.scene.board.ignored.ignores e = true ↔ settings.IsEcho e) ∧
      (∀ i work e, h.phase? i = some (.holding work) →
        work.item.event? Stream.parser = some e →
        e.provider = work.item.provider ∧
        ∀ ss, ∃ notes d, Performs rep (h.step rep (.advanceJob i)).hub ss i work notes d ∧
          (settings.IsEcho e → notes = [] ∧ d = []) ∧
          (¬settings.IsEcho e → Dispatch.specificEntriesIn notes ++ d.owed =
            h.listeners.map fun l => (l, .specific e.kind, e))) ∧
      (∀ e, ∃ d, (h.step rep (.notify e)).hub.guests = h.guests ++ [d] ∧
        (settings.IsEcho e → d = []) ∧
        (¬settings.IsEcho e → d = [⟨e, none, h.listeners⟩])) ∧
      ∀ ms ns, Json.without "provider" ms = Json.without "provider" ns → ∀ provider,
        (WorkItem.json (.object ms) provider).intoEvent Stream.parser =
            (WorkItem.json (.object ns) provider).intoEvent Stream.parser ∧
          ∀ first second, Json.parse (Text.trim first.toList) = .ok (.object ms) →
            Json.parse (Text.trim second.toList) = .ok (.object ns) →
            (WorkItem.text first provider).intoEvent Stream.parser =
              (WorkItem.text second provider).intoEvent Stream.parser := by
  intro h settings
  have ignored : h.scene.board.ignored = IgnoreList.after {} settings :=
    ignored_run built rep past
  have echo (e : Event) : h.scene.board.ignored.ignores e = true ↔ settings.IsEcho e := by
    rw [ignored]
    exact IgnoreList.ignores_after_iff
  have parser_eq : h.parser = Stream.parser :=
    (parser_run rep start past).trans (isFresh_of_build built).parser_eq
  refine ⟨?_, ?_, echo, ?_, ?_, ?_⟩
  · intro provider
    rw [ignoredEmail?, ignored]
    exact IgnoreList.email?_after settings provider
  · rw [ignored]
    exact IgnoreList.size_after settings
  · intro i work e here event
    refine ⟨WorkItem.provider_of_event? event, ?_⟩
    intro ss
    have opened := phase?_open rep here (parser_eq ▸ event)
    obtain ⟨notes, d, performs, proceeds⟩ := performs_run rep opened ss
    refine ⟨notes, d, performs, ?_, ?_⟩
    · intro withheld
      rw [snapshot_of_echo ((echo e).mpr withheld)] at proceeds
      exact proceeds.of_nil
    · intro other
      rw [snapshot_of_other fun ignores => other ((echo e).mp ignores)] at proceeds
      exact proceeds.owed_eq.symm
  · intro e
    refine ⟨h.snapshot e, guests_notify h e, ?_, ?_⟩
    · intro withheld
      exact snapshot_of_echo ((echo e).mpr withheld)
    · intro other
      exact snapshot_of_other fun ignores => other ((echo e).mp ignores)
  · intro ms ns alike provider
    refine ⟨Stream.parseJson_congr alike provider, ?_⟩
    intro first second one other
    exact Stream.parseText_congr one other alike provider

/-! ### A comment that comes back

A listener has the comments of a client ignored as soon as it hears of an update. The next item is a
comment by that client; its payload claims another provider. -/

namespace Returning

def config : Config := { workerCount := 1 }

def review : Provider := { name := "review" }

def listener : Listener := ⟨1, "client"⟩

def comment : Json :=
  .object [("type", .string "comment-added"),
    ("author", .object [("email", .string "client@review")]), ("provider", .string "elsewhere")]

def update : Envelope := ⟨⟨0#128, 0⟩, .event { detail := .refUpdated {} }⟩

def echo : Envelope := ⟨⟨1#128, 0⟩, .json comment (some review)⟩

/-- The event in the payload. -/
def event : Event :=
  { detail := .commentAdded { author := some (.withEmail "client@review") }, provider := review }

def repertoire : Repertoire Unit := fun _ h _ memory =>
  match h with
  | .specific .refUpdated =>
    (.acts (.ignore "review" (some "client@review")) fun _ => .ends .handled, memory)
  | _ => (.ends .handled, memory)

def hub : Hub Unit where
  config := config
  parser := Stream.parser
  workerCount := 1
  queue := { capacity := none, free := 0 }
  scene := ⟨{}, ()⟩
  workers := [{ name := "gerrit-worker-0" }]
  handles := [0]
  joining := none

theorem built : (build true config Stream.parser ()).outcome = .ok hub := rfl

/-- The update is worked off, and then the worker takes the comment. -/
def past : List Step :=
  [.act (.add listener), .submit update, .pollWorker 0, .advanceJob 0, .advanceJob 0, .advanceJob 0,
    .advanceJob 0, .advanceJob 0, .advanceJob 0, .submit echo, .pollWorker 0]

/-- A line that says where it comes from. -/
def claiming : String := "\x7b\"type\":\"comment-added\",\"provider\":1\x7d"

def claimingMembers : List (String × Json) :=
  [("type", .string "comment-added"), ("provider", .integer 1)]

/-- The same line without that. -/
def plain : String := "\x7b\"type\":\"comment-added\"\x7d"

def plainMembers : List (String × Json) := [("type", .string "comment-added")]

end Returning

theorem echoes_withheld_returning :
    let h := (run Returning.repertoire Returning.hub Returning.past).1
    let after := (h.step Returning.repertoire (.advanceJob 0)).hub
    h.ignoredEmail? "review" = some "client@review" ∧
      h.phase? 0 = some (.holding Returning.echo) ∧
      Returning.echo.item.event? Stream.parser = some Returning.event ∧
      (∃ d, Performs Returning.repertoire after [.advanceJob 0] 0 Returning.echo [] d) ∧
      Json.parse (Text.trim Returning.claiming.toList) = .ok (.object Returning.claimingMembers) ∧
      Json.parse (Text.trim Returning.plain.toList) = .ok (.object Returning.plainMembers) ∧
      (WorkItem.text Returning.claiming none).intoEvent Stream.parser =
        (WorkItem.text Returning.plain none).intoEvent Stream.parser := by
  intro h after
  obtain ⟨email, -, echo, jobs, -, payloads⟩ :=
    echoes_withheld Returning.built Returning.repertoire Returning.past
  have holding : h.phase? 0 = some (.holding Returning.echo) := rfl
  have event : Returning.echo.item.event? Stream.parser = some Returning.event := rfl
  have ignored : h.scene.board.ignored.ignores Returning.event = true := rfl
  obtain ⟨-, dispatch⟩ := jobs 0 _ _ holding event
  obtain ⟨notes, d, performs, withheld, -⟩ := dispatch [.advanceJob 0]
  obtain ⟨rfl, -⟩ := withheld ((echo _).mp ignored)
  have claiming : Json.parse (Text.trim Returning.claiming.toList) =
      .ok (.object Returning.claimingMembers) := Json.parse_eq_ok_of_same (by decide +kernel)
  have plain : Json.parse (Text.trim Returning.plain.toList) =
      .ok (.object Returning.plainMembers) := Json.parse_eq_ok_of_same (by decide +kernel)
  obtain ⟨-, texts⟩ := payloads Returning.claimingMembers Returning.plainMembers rfl none
  exact ⟨(email "review").trans rfl, holding, event, ⟨d, performs⟩, claiming, plain,
    texts _ _ claiming plain⟩

end Hub

end ReviewHub
