import ReviewHub.Proofs.Dispatch.Failures
import ReviewHub.Proofs.Hub.Disguise

/-!
# Failures of items

An item that fails is reported, and that is all that comes of it. This is said by comparison with a
tamed hub: its parser makes nothing of what the parser of the hub fails on, and its listeners
have handled what they fail on. That is a disguise which holds as far as log records are left out:
each run of the hub is mirrored by the same run of the tamed hub, with the same happenings but for
records. Hence two hubs that differ only in what fails take the same envelopes, turn them into the
same events and call the same listeners.
-/

namespace ReviewHub

/-! ### Tamed hubs -/

/-- The reading, a failure being taken for nothing to dispatch. -/
def Reading.tamed : Reading → Reading
  | event e => .event e
  | nothing => .nothing
  | failed _ => .nothing
  | panicked => .nothing

def Parsed.tamed (p : Parsed) : Parsed := { reading := p.reading.tamed }

/-- The parser that makes nothing of what it fails on, and reports nothing. -/
def Parser.tamed (parser : Parser) : Parser :=
  ⟨fun line provider => (parser.ofText line provider).tamed,
    fun v provider => (parser.ofJson v provider).tamed⟩

def Phase.tamed : Phase → Phase
  | dispatching work d => .dispatching work (Dispatch.tamed d)
  | phase => phase

def Worker.tamed (w : Worker) : Worker := { w with phase := w.phase.tamed }

/-- The happening is a log record. -/
def Happening.isRecord : Happening → Bool
  | logged _ => true
  | dispatched _ note => note.isRecord
  | _ => false

namespace Hub

variable {σ : Type}

def tamed (h : Hub σ) : Hub σ :=
  { h with
    parser := h.parser.tamed
    workers := h.workers.map Worker.tamed
    guests := h.guests.map Dispatch.tamed }

/-- The history without its log records. -/
def unrecorded (history : List Happening) : List Happening := history.filter (!·.isRecord)

@[simp] theorem unrecorded_logged (logs : List Log) : unrecorded (logs.map .logged) = [] := by
  simp [unrecorded, Happening.isRecord]

@[simp] theorem unrecorded_dispatched (source : Source) (notes : List Note) :
    unrecorded (notes.map (.dispatched source)) =
      (Dispatch.unrecorded notes).map (.dispatched source) := by
  rw [unrecorded, List.filter_map]
  rfl

/-- What is taken off the queue, and what is dispatched, is no matter of log records. -/
theorem takenIn_unrecorded (history : List Happening) :
    takenIn (unrecorded history) = takenIn history := by
  induction history with
  | nil => rfl
  | cons x rest ih =>
      cases record : x.isRecord <;> cases x <;>
        simp_all [unrecorded, Happening.isRecord, Happening.takings]

/-! ### The disguise -/

/-- What a tamed hub has in the place of what the hub has. -/
def taming : Disguise := ⟨id, Delivery.tamed, Parser.tamed⟩

/-- The happening, unless it is a record. -/
def unrecorded? : Happening → Option Happening := Option.guard (!·.isRecord)

theorem filterMap_unrecorded? (history : List Happening) :
    history.filterMap unrecorded? = unrecorded history :=
  congrFun List.filterMap_eq_filter history

theorem worker_taming (w : Worker) : taming.worker w = w.tamed := by
  obtain ⟨name, phase, awake⟩ := w
  cases phase <;> rfl

theorem hub_taming (h : Hub σ) : taming.hub h = h.tamed := by
  have workers : h.workers.map taming.worker = h.workers.map Worker.tamed :=
    List.map_congr_left fun w _ => worker_taming w
  have queue : h.queue.map taming.work = h.queue := h.queue.map_id
  rw [Disguise.hub, workers, queue]
  rfl

theorem happening_taming (x : Happening) : taming.happening x = x := by
  cases x with
  | logged log => cases log <;> rfl
  | _ => rfl

theorem step_taming (s : Step) : taming.step s = s := by
  cases s <;> rfl

theorem worker?_tamed (h : Hub σ) (i : Nat) :
    h.tamed.workers[i]? = h.workers[i]?.map Worker.tamed := List.getElem?_map

theorem reading_tamed (parser : Parser) (item : WorkItem) :
    (item.intoEvent parser.tamed).reading = (item.intoEvent parser).reading.tamed := by
  cases item <;> rfl

/-- A step of a dispatch is the same for tamed listeners, but for log records. -/
theorem paced_taming (rep : Repertoire σ) (w : Scene σ) (d : Dispatch) :
    Paced taming unrecorded? (Dispatch.step rep w d)
      (Dispatch.step rep.tamed w (taming.dispatch d)) := by
  have dispatch : taming.dispatch d = Dispatch.tamed d := rfl
  rw [dispatch]
  rcases (Dispatch.tames_step rep w d).cases with
    ⟨here, there⟩ | ⟨v, rest, notes, told, here, there, same⟩
  · rw [here, there]
    trivial
  · rw [here, there]
    refine ⟨rfl, rfl, ?_⟩
    intro source
    rw [filterMap_unrecorded?, filterMap_unrecorded?, unrecorded_dispatched, unrecorded_dispatched,
      same]

/-- Whatever goes wrong when an envelope is opened, the worker is done with it. -/
theorem follows_openEnvelope_taming (h : Hub σ) (i : Nat) (name : String) (work : Envelope) :
    Follows taming unrecorded? id (h.openEnvelope i name work)
      ((taming.hub h).openEnvelope i name (taming.work work)) := by
  have parser : taming.parser h.parser = h.parser.tamed := rfl
  have same : taming.work work = work := rfl
  have traced (logs told : List Log) : (told.map Happening.logged).filterMap unrecorded? =
      (logs.map Happening.logged).filterMap unrecorded? := by
    simp only [filterMap_unrecorded?, unrecorded_logged]
  rw [openEnvelope, openEnvelope, Disguise.parser_hub, parser, same]
  simp only [reading_tamed]
  cases (work.item.intoEvent h.parser).reading with
  | event e => exact follows_begun h i (fun _ _ => rfl) (traced _ _) work e
  | nothing => exact follows_concluded h i .returned (traced _ _) rfl
  | failed error => exact follows_concluded h i .returned (traced _ _) rfl
  | panicked => exact follows_concluded h i .returned (traced _ _) rfl

theorem holds_taming (rep : Repertoire σ) (parser : Parser) :
    Holds taming unrecorded? rep rep.tamed parser where
  overlooks x := congrArg unrecorded? (happening_taming x)
  submits _ := rfl
  begins _ _ := rfl
  passes d := Dispatch.passGate?_tamed d
  steps := paced_taming rep
  opens h i name work _ := follows_openEnvelope_taming h i name work

/-! ### Runs -/

/-- Each run of a hub is mirrored by the same run of the tamed hub. -/
theorem run_tamed (rep : Repertoire σ) (h : Hub σ) (ss : List Step) :
    (run rep.tamed h.tamed ss).1 = (run rep h ss).1.tamed ∧
      unrecorded (run rep.tamed h.tamed ss).2 = unrecorded (run rep h ss).2 := by
  have steps : ss.map taming.step = ss := (List.map_congr_left fun s _ => step_taming s).trans
    (List.map_id ss)
  have runs := run_disguised (holds_taming rep h.parser) rfl ss
  rwa [steps, hub_taming, hub_taming, filterMap_unrecorded?, filterMap_unrecorded?] at runs

/-- Which of the two hubs it is cannot be told by what has been done. -/
theorem run_of_tamed_eq {rep other : Repertoire σ} {h g : Hub σ}
    (listeners : rep.tamed = other.tamed) (hubs : h.tamed = g.tamed) (ss : List Step) :
    (run rep h ss).1.tamed = (run other g ss).1.tamed ∧
      unrecorded (run rep h ss).2 = unrecorded (run other g ss).2 := by
  obtain ⟨hub, same⟩ := run_tamed rep h ss
  obtain ⟨otherHub, otherSame⟩ := run_tamed other g ss
  rw [← hub, ← same, ← otherHub, ← otherSame, listeners, hubs]
  exact ⟨rfl, rfl⟩

end Hub

end ReviewHub
