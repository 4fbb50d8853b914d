import ReviewHub.Hub.Step
import ReviewHub.Proofs.Dispatch.Nesting
import ReviewHub.Proofs.Queue.Contents

/-!
# Courses of a hub

How runs of a hub are reasoned about. A history is read by what comes onto the queue, what is taken
off it, and which dispatches begin, each with whoever does it. A worker is seen by its phase, and
the small changes that operations are made of say what they leave alone. What every step preserves,
together with the history so far, holds at the end of a run.

The moments of a run keep the hub before each step. They are needed where a statement is about the
step that something happens in, since a parser may log records of any kind.
-/

namespace ReviewHub

/-! ### Histories -/

/-- The record is about a submission that does not come onto the queue. -/
def Log.isLoss : Log → Bool
  | abandoned _ => true
  | notEnqueued _ _ => true
  | _ => false

/-- The values with the tag, in order. -/
def shareOf {κ α : Type} [DecidableEq κ] (k : κ) (xs : List (κ × α)) : List α :=
  (xs.filter (·.1 = k)).map Prod.snd

namespace Happening

/-- The envelopes that come onto the queue: one at most. -/
def acceptances : Happening → List Envelope
  | .accepted work => [work]
  | _ => []

/-- The envelopes that are taken off the queue, and by whom: one at most. -/
def takings : Happening → List (Source × Envelope)
  | .taken source work => [(source, work)]
  | _ => []

/-- The events whose dispatch begins, and by whom: one at most. -/
def notifications : Happening → List (Source × Event)
  | .notified source e => [(source, e)]
  | _ => []

/-- The warnings that are logged: one at most. -/
def warnings : Happening → List Log
  | .logged log => if log.level = .warn then [log] else []
  | _ => []

/-- The losses that are logged: one at most. -/
def losses : Happening → List Log
  | .logged log => if log.isLoss then [log] else []
  | _ => []

/-- Who does it, if it is part of working off or dispatching. -/
def source? : Happening → Option Source
  | .taken source _ => some source
  | .notified source _ => some source
  | .dispatched source _ => some source
  | _ => none

end Happening

/-- What has come onto the queue, in order. -/
def acceptedIn (history : List Happening) : List Envelope := history.flatMap Happening.acceptances

/-- What has been taken off the queue, in order. -/
def takenIn (history : List Happening) : List (Source × Envelope) :=
  history.flatMap Happening.takings

/-- The events whose dispatch has begun, in order. -/
def notifiedIn (history : List Happening) : List (Source × Event) :=
  history.flatMap Happening.notifications

/-- The warnings that the hub itself has logged, in order. -/
def warningsIn (history : List Happening) : List Log := history.flatMap Happening.warnings

/-- The losses that the hub itself has logged, in order. -/
def lossesIn (history : List Happening) : List Log := history.flatMap Happening.losses

/-- What somebody has done, in order. -/
def doingsOf (source : Source) (history : List Happening) : List Happening :=
  history.filter (·.source? = some source)

/-- What somebody has taken off the queue, in order. -/
def takenBy (source : Source) (history : List Happening) : List Envelope :=
  shareOf source (takenIn history)

/-- The events that somebody has begun to dispatch, in order. -/
def notifiedBy (source : Source) (history : List Happening) : List Event :=
  shareOf source (notifiedIn history)

section Histories

variable {source : Source} {first second : List Happening}

@[simp] theorem acceptedIn_nil : acceptedIn [] = [] := rfl

@[simp] theorem takenIn_nil : takenIn [] = [] := rfl

@[simp] theorem notifiedIn_nil : notifiedIn [] = [] := rfl

@[simp] theorem doingsOf_nil : doingsOf source [] = [] := rfl

@[simp] theorem acceptedIn_cons (x : Happening) :
    acceptedIn (x :: second) = x.acceptances ++ acceptedIn second := rfl

@[simp] theorem takenIn_cons (x : Happening) :
    takenIn (x :: second) = x.takings ++ takenIn second := rfl

@[simp] theorem notifiedIn_cons (x : Happening) :
    notifiedIn (x :: second) = x.notifications ++ notifiedIn second := rfl

@[simp] theorem lossesIn_nil : lossesIn [] = [] := rfl

@[simp] theorem lossesIn_cons (x : Happening) :
    lossesIn (x :: second) = x.losses ++ lossesIn second := rfl

@[simp] theorem lossesIn_append :
    lossesIn (first ++ second) = lossesIn first ++ lossesIn second :=
  List.flatMap_append

@[simp] theorem doingsOf_cons (x : Happening) :
    doingsOf source (x :: second) =
      if x.source? = some source then x :: doingsOf source second else doingsOf source second := by
  simp [doingsOf, List.filter_cons]

@[simp] theorem acceptedIn_append :
    acceptedIn (first ++ second) = acceptedIn first ++ acceptedIn second :=
  List.flatMap_append

@[simp] theorem takenIn_append : takenIn (first ++ second) = takenIn first ++ takenIn second :=
  List.flatMap_append

@[simp] theorem notifiedIn_append :
    notifiedIn (first ++ second) = notifiedIn first ++ notifiedIn second :=
  List.flatMap_append

@[simp] theorem warningsIn_append :
    warningsIn (first ++ second) = warningsIn first ++ warningsIn second :=
  List.flatMap_append

@[simp] theorem doingsOf_append :
    doingsOf source (first ++ second) = doingsOf source first ++ doingsOf source second :=
  List.filter_append ..

@[simp] theorem takenBy_append :
    takenBy source (first ++ second) = takenBy source first ++ takenBy source second := by
  simp [takenBy, shareOf]

@[simp] theorem notifiedBy_append :
    notifiedBy source (first ++ second) = notifiedBy source first ++ notifiedBy source second := by
  simp [notifiedBy, shareOf]

@[simp] theorem acceptedIn_logged (logs : List Log) : acceptedIn (logs.map .logged) = [] := by
  simp [acceptedIn, List.flatMap_map, Happening.acceptances]

@[simp] theorem takenIn_logged (logs : List Log) : takenIn (logs.map .logged) = [] := by
  simp [takenIn, List.flatMap_map, Happening.takings]

@[simp] theorem doingsOf_logged (logs : List Log) : doingsOf source (logs.map .logged) = [] := by
  simp [doingsOf, List.filter_map, Function.comp_def, Happening.source?]

theorem lossesIn_logged (logs : List Log) :
    lossesIn (logs.map .logged) = logs.filter Log.isLoss := by
  induction logs with
  | nil => rfl
  | cons log logs ih =>
      rw [List.map_cons, lossesIn_cons, ih, Happening.losses]
      cases loss : log.isLoss <;> simp [loss]

@[simp] theorem lossesIn_dispatched (notes : List Note) :
    lossesIn (notes.map (.dispatched source)) = [] := by
  simp [lossesIn, List.flatMap_map, Happening.losses]

@[simp] theorem acceptedIn_dispatched (notes : List Note) :
    acceptedIn (notes.map (.dispatched source)) = [] := by
  simp [acceptedIn, List.flatMap_map, Happening.acceptances]

@[simp] theorem takenIn_dispatched (notes : List Note) :
    takenIn (notes.map (.dispatched source)) = [] := by
  simp [takenIn, List.flatMap_map, Happening.takings]

@[simp] theorem notifiedIn_dispatched (notes : List Note) :
    notifiedIn (notes.map (.dispatched source)) = [] := by
  simp [notifiedIn, List.flatMap_map, Happening.notifications]

@[simp] theorem doingsOf_dispatched (notes : List Note) (other : Source) :
    doingsOf source (notes.map (.dispatched other)) =
      if other = source then notes.map (.dispatched other) else [] := by
  by_cases same : other = source <;>
    simp [doingsOf, List.filter_map, Function.comp_def, Happening.source?, same]

/-- Somebody's share of a tagged view is the view of all that it does. -/
theorem shareOf_flatMap {α : Type} {view : Happening → List (Source × α)}
    (tagged : ∀ x, ∀ entry ∈ view x, x.source? = some entry.1) (source : Source)
    (history : List Happening) :
    shareOf source (history.flatMap view) =
      ((doingsOf source history).flatMap view).map Prod.snd := by
  induction history with
  | nil => rfl
  | cons x rest ih =>
      have here : (view x).filter (·.1 = source) =
          if x.source? = some source then view x else [] := by
        split
        · next mine =>
            refine List.filter_eq_self.mpr ?_
            intro entry member
            have same := (tagged x entry member).symm.trans mine
            simpa using same
        · next other =>
            refine List.filter_eq_nil_iff.mpr ?_
            intro entry member same
            refine other ?_
            rw [tagged x entry member, of_decide_eq_true same]
      rw [shareOf] at ih ⊢
      rw [List.flatMap_cons, List.filter_append, List.map_append, ih, here, doingsOf_cons]
      split <;> simp

theorem takenBy_eq_doings (source : Source) (history : List Happening) :
    takenBy source history = (takenIn (doingsOf source history)).map Prod.snd := by
  refine shareOf_flatMap ?_ source history
  intro x entry member
  cases x with
  | taken => cases List.mem_singleton.mp member; rfl
  | _ => cases member

theorem notifiedBy_eq_doings (source : Source) (history : List Happening) :
    notifiedBy source history = (notifiedIn (doingsOf source history)).map Prod.snd := by
  refine shareOf_flatMap ?_ source history
  intro x entry member
  cases x with
  | notified => cases List.mem_singleton.mp member; rfl
  | _ => cases member

end Histories

/-! ### Parts of a hub -/

namespace Hub

variable {σ : Type}

/-- What worker `i` is doing. -/
def phase? (h : Hub σ) (i : Nat) : Option Phase := h.workers[i]?.map Worker.phase

/-- The names of the workers. -/
def names (h : Hub σ) : List String := h.workers.map Worker.name

/-- The envelope that worker `i` has and is not done with. -/
def held? (h : Hub σ) (i : Nat) : Option Envelope := (h.phase? i).bind Phase.held?

theorem phase?_of_worker {h : Hub σ} {i : Nat} {w : Worker} (found : h.workers[i]? = some w) :
    h.phase? i = some w.phase := by
  simp [phase?, found]

theorem name_of_worker {h : Hub σ} {i : Nat} {w : Worker} (found : h.workers[i]? = some w) :
    h.names[i]? = some w.name := by
  simp [names, found]

theorem worker_of_phase? {h : Hub σ} {i : Nat} {p : Phase} (found : h.phase? i = some p) :
    ∃ w, h.workers[i]? = some w ∧ w.phase = p := by
  simpa [phase?] using found

section Parts

variable (h : Hub σ) (p : Worker → Bool) (q : Queue) (i j : Nat) (phase : Phase) (awake : Bool)

@[simp] theorem phase?_wake : (h.wake p).phase? i = h.phase? i := by
  cases found : h.workers[i]? with
  | none => simp [phase?, wake, found]
  | some w => by_cases woken : p w <;> simp [phase?, wake, found, woken]

@[simp] theorem names_wake : (h.wake p).names = h.names := by
  have same :
      (Worker.name ∘ fun w => if p w then { w with awake := true } else w) = Worker.name := by
    funext w
    by_cases woken : p w <;> simp [woken]
  simp only [names, wake, List.map_map, same]

@[simp] theorem queue_withQueue : (h.withQueue q).queue = q := by
  rw [withQueue]
  split <;> rfl

@[simp] theorem phase?_withQueue : (h.withQueue q).phase? i = h.phase? i := by
  rw [withQueue]
  split
  · exact phase?_wake ..
  · rfl

@[simp] theorem names_withQueue : (h.withQueue q).names = h.names := by
  rw [withQueue]
  split
  · exact names_wake ..
  · rfl

/-- A change of the queue concerns the queue and wakes a worker at most. -/
theorem withQueue_eq :
    h.withQueue q = { h with queue := q, workers := (h.withQueue q).workers } := by
  rw [withQueue]
  split <;> rfl

@[simp] theorem phase?_withPhase :
    (h.withPhase i phase awake).phase? j =
      if i = j then (h.phase? j).map fun _ => phase else h.phase? j := by
  cases found : h.workers[j]? with
  | none => simp [phase?, withPhase, List.getElem?_modify, found]
  | some w => by_cases here : i = j <;> simp [phase?, withPhase, found, here]

theorem phase?_withPhase_self {h : Hub σ} {i : Nat} {before : Phase}
    (here : h.phase? i = some before) (phase : Phase) (awake : Bool) :
    (h.withPhase i phase awake).phase? i = some phase := by
  simp [here]

@[simp] theorem names_withPhase : (h.withPhase i phase awake).names = h.names := by
  refine List.ext_getElem? ?_
  intro j
  cases found : h.workers[j]? with
  | none => simp [names, withPhase, List.getElem?_modify, found]
  | some w => by_cases here : i = j <;> simp [names, withPhase, found, here]

@[simp] theorem phase?_withStop : h.withStop.phase? i = h.phase? i := phase?_wake ..

@[simp] theorem names_withStop : h.withStop.names = h.names := names_wake ..

end Parts

/-- The hub that a shutdown leaves which waits for the workers, before its first look at them. -/
def leaving (h : Hub σ) : Hub σ :=
  { { h with life := .shutDown, handles := [] }.withStop with joining := some ⟨h.handles, none⟩ }

@[simp] theorem phase?_leaving (h : Hub σ) (i : Nat) : h.leaving.phase? i = h.phase? i :=
  phase?_withStop ..

theorem shutdown_of_running {h : Hub σ} (running : h.life = .running) :
    h.shutdown true =
      { answer := h.leaving.pollShutdown.answer.getD .ok, hub := h.leaving.pollShutdown.hub,
        happened := h.leaving.pollShutdown.happened } := by
  rw [shutdown, running]
  rfl

theorem shutdown_of_shutDown {h : Hub σ} (ended : h.life = .shutDown) (join : Bool) :
    h.shutdown join = { answer := .ok, hub := h, happened := [.logged .alreadyShutDown] } := by
  rw [shutdown, ended]

/-! ### Ends of dispatches -/

/-- No panic leaves a dispatch, so a job ends when all of it has been delivered, and otherwise it
goes on. -/
theorem advanceJob_eq (rep : Repertoire σ) (h : Hub σ) (i : Nat) :
    h.advanceJob rep i =
      match h.workers[i]? with
      | none => { answer := (), hub := h }
      | some w =>
        match w.phase with
        | .holding work => h.openEnvelope i w.name work
        | .dispatching _ [] => { answer := (), hub := h.finishJob i .returned }
        | .dispatching work d =>
          match d.step rep h.scene with
          | none => { answer := (), hub := h }
          | some (scene, d, notes) =>
            { answer := ()
              hub := { h with scene := scene }.withPhase i (.dispatching work d) w.awake
              happened := notes.map (.dispatched (.worker i)) }
        | _ => { answer := (), hub := h } := by
  rw [advanceJob]
  cases h.workers[i]? with
  | none => rfl
  | some w =>
      obtain ⟨name, phase, awake⟩ := w
      cases phase with
      | dispatching work d =>
          cases d with
          | nil => rfl
          | cons d outer =>
              cases moved : Dispatch.step rep h.scene (d :: outer) <;>
                simp [Dispatch.completion?_cons, moved]
      | _ => rfl

theorem advanceGuest_eq (rep : Repertoire σ) (h : Hub σ) :
    h.advanceGuest rep =
      match h.guests with
      | [] => { answer := (), hub := h }
      | [] :: rest => { answer := (), hub := { h with guests := rest } }
      | d :: rest =>
        match d.step rep h.scene with
        | none => { answer := (), hub := h }
        | some (scene, d, notes) =>
          { answer := ()
            hub := { h with scene := scene, guests := d :: rest }
            happened := notes.map (.dispatched .guest) } := by
  rw [advanceGuest]
  match h.guests with
  | [] => rfl
  | [] :: rest => rfl
  | (d :: outer) :: rest =>
      cases moved : Dispatch.step rep h.scene (d :: outer) <;>
        simp [Dispatch.completion?_cons, moved]

/-! ### Runs -/

variable {rep : Repertoire σ} {h : Hub σ}

@[simp] theorem hub_answering {α β : Type} (e : Effect σ α) (f : α → β) :
    (e.answering f).hub = e.hub := rfl

@[simp] theorem happened_answering {α β : Type} (e : Effect σ α) (f : α → β) :
    (e.answering f).happened = e.happened := rfl

@[simp] theorem answer_answering {α β : Type} (e : Effect σ α) (f : α → β) :
    (e.answering f).answer = f e.answer := rfl

@[simp] theorem run_nil (rep : Repertoire σ) (h : Hub σ) : run rep h [] = (h, []) := rfl

theorem hub_run_cons (rep : Repertoire σ) (h : Hub σ) (s : Step) (ss : List Step) :
    (run rep h (s :: ss)).1 = (run rep (h.step rep s).hub ss).1 := rfl

theorem history_run_cons (rep : Repertoire σ) (h : Hub σ) (s : Step) (ss : List Step) :
    (run rep h (s :: ss)).2 = (h.step rep s).happened ++ (run rep (h.step rep s).hub ss).2 := rfl

theorem run_append (rep : Repertoire σ) (h : Hub σ) (ss ts : List Step) :
    (run rep h (ss ++ ts)).1 = (run rep (run rep h ss).1 ts).1 ∧
      (run rep h (ss ++ ts)).2 = (run rep h ss).2 ++ (run rep (run rep h ss).1 ts).2 := by
  induction ss generalizing h with
  | nil => simp
  | cons s ss ih =>
      obtain ⟨hub, history⟩ := ih (h.step rep s).hub
      simp only [List.cons_append, hub_run_cons, history_run_cons, hub, history,
        List.append_assoc, and_self]

/-- What every step preserves of a hub and all that has happened to it holds after a run. -/
theorem run_invariant {P : Hub σ → List Happening → Prop}
    (preserved : ∀ h history s, P h history →
      P (h.step rep s).hub (history ++ (h.step rep s).happened))
    (history : List Happening) (start : P h history) (ss : List Step) :
    P (run rep h ss).1 (history ++ (run rep h ss).2) := by
  induction ss generalizing h history with
  | nil => simpa using start
  | cons s ss ih =>
      rw [hub_run_cons, history_run_cons, ← List.append_assoc]
      exact ih _ (preserved h history s start)

/-- A property of the hub alone needs no history. -/
theorem run_preserves {P : Hub σ → Prop} (preserved : ∀ h s, P h → P (h.step rep s).hub)
    (start : P h) (ss : List Step) : P (run rep h ss).1 :=
  run_invariant (P := fun h _ => P h) (fun h _ s => preserved h s) [] start ss

/-- A step, and the hub that it finds. -/
structure Moment (σ : Type) where
  before : Hub σ
  step : Step

/-- The effect of the step. -/
def Moment.effect (rep : Repertoire σ) (m : Moment σ) : Effect σ Answer := m.before.step rep m.step

/-- The moments of a run. -/
def course (rep : Repertoire σ) (h : Hub σ) : List Step → List (Moment σ)
  | [] => []
  | s :: ss => ⟨h, s⟩ :: course rep (h.step rep s).hub ss

/-- A moment of a run splits the run. -/
theorem split_of_mem_course {m : Moment σ} {ss : List Step} (member : m ∈ course rep h ss) :
    ∃ before after, ss = before ++ m.step :: after ∧ m.before = (run rep h before).1 := by
  induction ss generalizing h with
  | nil => cases member
  | cons s ss ih =>
      rcases List.mem_cons.mp member with rfl | later
      · exact ⟨[], ss, rfl, rfl⟩
      · obtain ⟨before, after, rfl, found⟩ := ih later
        exact ⟨s :: before, after, rfl, found⟩

/-! ### Fresh hubs -/

/-- A hub that has just been built. -/
structure IsFresh (c : Config) (parser : Parser) (h : Hub σ) : Prop where
  parser_eq : h.parser = parser
  phase?_eq : ∀ i, h.phase? i = if i < c.workerCount.toNat then some .fresh else none
  names_eq : h.names = (List.range c.workerCount.toNat).map (workerName c)
  handles_eq : h.handles = List.range c.workerCount.toNat
  life_eq : h.life = .running
  stopping_eq : h.stopping = false
  joining_eq : h.joining = none
  items_eq : h.queue.items = []
  waiting_eq : h.queue.waiting = []

section Built

variable {c : Config} {parser : Parser} {memory : σ} {start : Hub σ}
  (built : (build true c parser memory).outcome = .ok start)

include built

/-- The hub that is built, around its queue. -/
theorem hub_of_build :
    ∃ queue, Queue.build (c.queueCapacity.map UInt64.toNat) = .ok queue ∧
      start = {
        config := c
        parser := parser
        workerCount := c.workerCount
        queue := queue
        scene := ⟨{}, memory⟩
        workers := (List.range c.workerCount.toNat).map fun i => { name := workerName c i }
        handles := List.range c.workerCount.toNat } := by
  rw [build] at built
  split at built
  · cases built
  · rw [if_pos rfl] at built
    split at built
    · cases built
    · cases built
    · next queue made =>
        split at built
        · cases built
        · cases built
          exact ⟨queue, made, rfl⟩

theorem isFresh_of_build : start.IsFresh c parser := by
  obtain ⟨queue, made, hub⟩ := hub_of_build built
  obtain ⟨noItems, nobody⟩ := Queue.fresh_of_build made
  rw [hub]
  refine ⟨rfl, ?_, ?_, rfl, rfl, rfl, rfl, noItems, nobody⟩
  · intro i
    by_cases below : i < c.workerCount.toNat <;> simp [phase?, below]
  · simp [names, Function.comp_def]

theorem queue_of_build :
    Queue.build (c.queueCapacity.map UInt64.toNat) = .ok start.queue := by
  obtain ⟨queue, made, hub⟩ := hub_of_build built
  rw [hub]
  exact made

theorem scene_of_build : start.scene = ⟨{}, memory⟩ := by
  obtain ⟨queue, -, hub⟩ := hub_of_build built
  rw [hub]

end Built

/-! ### A small hub

For concrete runs: one worker, room for one envelope, no listeners. -/

namespace Small

def config : Config := { workerCount := 1, queueCapacity := some 1 }

/-- Makes nothing of any payload. -/
def parser : Parser := ⟨fun _ _ => ⟨.nothing, []⟩, fun _ _ => ⟨.nothing, []⟩⟩

def repertoire : Repertoire Unit := fun _ _ _ memory => (.ends .handled, memory)

def event : Event := { detail := .refUpdated {} }

/-- An envelope with an event. -/
def eventful : Envelope := ⟨⟨0#128, 0⟩, .event event⟩

/-- An envelope without one. -/
def eventless : Envelope := ⟨⟨1#128, 0⟩, .text "" none⟩

def hub : Hub Unit where
  config := config
  parser := parser
  workerCount := 1
  queue := { capacity := some 1, free := 1 }
  scene := ⟨{}, ()⟩
  workers := [{ name := "gerrit-worker-0" }]
  handles := [0]
  joining := none

theorem built : (build true config parser ()).outcome = .ok hub := rfl

end Small

end Hub

end ReviewHub
