import ReviewHub.Proofs.Hub.Shutdown

/-!
# Shutting down once more

Whoever shuts a hub down a second time finds the work done: the call changes nothing and returns at
once, whether or not the workers have stopped by then. So it waits for nobody, and a worker that is
inside a listener may well call the next one after it. What holds for every caller is that no worker
begins anything new: one that has no envelope is silent for good, and one that has an envelope is so
once it is done with it. Where no worker has one, and hence once a shutdown that waits for the
workers has returned, the hub is quiescent.
-/

namespace ReviewHub.Hub

variable {σ : Type} {parser : Parser} {working : Bool} {i : Nat} {p q : Phase}
  {own : List Happening}

/-- No worker is dispatching an event, and whatever happens, none calls a listener. -/
def IsQuiescent (rep : Repertoire σ) (h : Hub σ) : Prop :=
  (∀ i work d, h.phase? i ≠ some (.dispatching work d)) ∧
    ∀ ss i depth l k e,
      .dispatched (.worker i) ⟨depth, .entered l k e⟩ ∉ (run rep h ss).2

/-- In the run, a shutdown that waited for the workers has returned, and all was well. -/
def HasJoined (rep : Repertoire σ) (start : Hub σ) (ss : List Step) : Prop :=
  ∃ m ∈ course rep start ss,
    (m.step = .shutdown true ∧ m.before.life = .running ∨ m.step = .pollShutdown) ∧
      (m.effect rep).answer = .progress .ok

/-! ### Workers without an envelope -/

/-- Once it is to stop, a worker without an envelope has nothing to do. -/
theorem Move.silent (move : Move parser true working i p own q) (free : p.held? = none) :
    own = [] ∧ q.held? = none := by
  cases move with
  | stay => exact ⟨rfl, free⟩
  | wait _ going => cases going
  | take _ going => cases going
  | stop => exact ⟨rfl, rfl⟩
  | cut => exact ⟨rfl, rfl⟩
  | _ => cases free

theorem silent_step (rep : Repertoire σ) {h : Hub σ} (stopping : h.stopping = true)
    (free : h.held? i = none) (s : Step) :
    doingsOf (.worker i) (h.step rep s).happened = [] ∧ (h.step rep s).hub.held? i = none := by
  rw [held?] at free ⊢
  rcases (moves_step rep h s i).cases with ⟨-, after, silent⟩ | ⟨p, q, before, after, move⟩
  · rw [after]
    exact ⟨silent, rfl⟩
  · rw [before] at free
    rw [stopping] at move
    rw [after]
    exact move.silent free

theorem silent_run (rep : Repertoire σ) {h : Hub σ} (stopping : h.stopping = true)
    (free : h.held? i = none) (ss : List Step) :
    doingsOf (.worker i) (run rep h ss).2 = [] ∧ (run rep h ss).1.held? i = none := by
  induction ss generalizing h with
  | nil => exact ⟨rfl, free⟩
  | cons s ss ih =>
      obtain ⟨silent, freeLater⟩ := silent_step rep stopping free s
      obtain ⟨silentLater, freeAtLast⟩ := ih (stopping_step rep stopping s) freeLater
      rw [hub_run_cons, history_run_cons, doingsOf_append, silent, silentLater]
      exact ⟨rfl, freeAtLast⟩

/-- Where no worker has an envelope, no listener is called any more. -/
theorem isQuiescent_of_free (rep : Repertoire σ) {h : Hub σ} (stopping : h.stopping = true)
    (free : ∀ i, h.held? i = none) : h.IsQuiescent rep := by
  constructor
  · intro i work d dispatching
    have none := free i
    rw [held?, dispatching] at none
    cases none
  · intro ss i depth l k e called
    have mine : .dispatched (.worker i) ⟨depth, .entered l k e⟩ ∈
        doingsOf (.worker i) (run rep h ss).2 :=
      List.mem_filter.mpr ⟨called, by simp [Happening.source?]⟩
    rw [(silent_run rep stopping (free i) ss).1] at mine
    cases mine

/-- Once a shutdown has seen all workers stop, none has an envelope. -/
theorem held?_of_hasJoined (rep : Repertoire σ) {c : Config} {h : Hub σ}
    (fresh : h.IsFresh c parser) {ss : List Step} (joined : HasJoined rep h ss) (i : Nat) :
    (run rep h ss).1.held? i = none := by
  obtain ⟨m, member, call, fine⟩ := joined
  obtain ⟨before, after, rfl, found⟩ := split_of_mem_course member
  rw [Moment.effect, found] at fine
  rw [found] at call
  have stopped := stopped_of_joined rep (watched_run rep fresh.watched before) call fine i
  have present : _ = decide (i < c.workerCount.toNat) :=
    (isSome_phase?_step rep (run rep h before).1 m.step i).trans
      (fresh.isSome_phase?_run rep before i)
  have resting : ∀ p, ((run rep h before).1.step rep m.step).hub.phase? i = some p → p.isOver := by
    intro p there
    rw [there] at present
    exact isOver_of_stopped (stopped (of_decide_eq_true present.symm)) p there
  rw [(run_append rep h before (m.step :: after)).1, hub_run_cons, held?,
    (rests_run rep resting after).1]
  cases there : ((run rep h before).1.step rep m.step).hub.phase? i with
  | none => rfl
  | some p =>
      have ended := resting p there
      cases p <;> first | rfl | cases ended

/-! ### The law -/

/-- A shutdown that finds the hub already shut down is a no-op, whatever the workers are doing: it
returns at once, with nothing but a record that says so. From then on no worker takes an envelope. A
worker that has none does nothing any more, and one that has an envelope keeps it until it is done
and is then like the others. So the hub is quiescent as soon as no worker has an envelope; in
particular it is so when a shutdown that waited for the workers has returned before. -/
theorem later_shutdown_is_no_op {c : Config} {memory : σ} {start : Hub σ}
    (built : (build true c parser memory).outcome = .ok start) (rep : Repertoire σ)
    (past : List Step) :
    let h := (run rep start past).1
    h.life = .shutDown →
      (∀ join, h.step rep (.shutdown join) =
        { answer := .progress .ok, hub := h, happened := [.logged .alreadyShutDown] }) ∧
      (∀ i ss, takenBy (.worker i) (run rep h ss).2 = [] ∧
        ((run rep h ss).1.held? i = none ∨ (run rep h ss).1.held? i = h.held? i)) ∧
      (∀ i, h.held? i = none → ∀ ss, doingsOf (.worker i) (run rep h ss).2 = []) ∧
      ((∀ i, h.held? i = none) → h.IsQuiescent rep) ∧
      (HasJoined rep start past → h.IsQuiescent rep) := by
  have fresh := isFresh_of_build built
  intro h ended
  have stopping : h.stopping = true :=
    (watched_run rep fresh.watched past).stopping_of_shutDown ended
  refine ⟨?_, ?_, ?_, isQuiescent_of_free rep stopping, ?_⟩
  · intro join
    rw [step, shutdown_of_shutDown ended]
    rfl
  · intro i ss
    exact quiescent_run rep stopping ss i
  · intro i free ss
    exact (silent_run rep stopping free ss).1
  · intro joined
    exact isQuiescent_of_free rep stopping (held?_of_hasJoined rep fresh joined)

/-! ### A worker at a gate

The hub is shut down without waiting while its worker is inside the first of two listeners. -/

namespace Overtaken

/-- No specific handlers; the first listener waits at a gate. -/
def repertoire : Repertoire Unit := fun l h _ memory =>
  match h with
  | .specific _ => (.ends .declined, memory)
  | .generic => (if l.identity = 1 then .waits (.ends .handled) else .ends .handled, memory)

def created : Envelope := ⟨⟨0#128, 0⟩, .event { detail := .patchsetCreated {} }⟩

def past : List Step :=
  [.act (.addAll [⟨1, "g"⟩, ⟨2, "r"⟩]), .submit created, .pollWorker 0, .advanceJob 0,
    .advanceJob 0, .advanceJob 0, .shutdown false]

/-- The first listener passes the gate and the second one has its turn. -/
def release : List Step :=
  [.passGate 0, .advanceJob 0, .advanceJob 0, .advanceJob 0, .advanceJob 0, .advanceJob 0,
    .advanceJob 0]

end Overtaken

theorem later_shutdown_is_no_op_overtaken :
    let h := (run Overtaken.repertoire Small.hub Overtaken.past).1
    let done := (run Overtaken.repertoire Small.hub (Overtaken.past ++ Overtaken.release)).1
    let closed := (run Small.repertoire Small.hub (Small.closing ++ [.pollShutdown])).1
    h.life = .shutDown ∧ (h.step Overtaken.repertoire (.shutdown true)).answer = .progress .ok ∧
      h.held? 0 = some Overtaken.created ∧
      done.life = .shutDown ∧ done.IsQuiescent Overtaken.repertoire ∧
      HasJoined Small.repertoire Small.hub (Small.closing ++ [.pollShutdown]) ∧
      closed.IsQuiescent Small.repertoire := by
  intro h done closed
  have ended : h.life = .shutDown := rfl
  obtain ⟨returns, -⟩ :=
    later_shutdown_is_no_op Small.built Overtaken.repertoire Overtaken.past ended
  obtain ⟨-, -, -, quiescent, -⟩ :=
    later_shutdown_is_no_op Small.built Overtaken.repertoire
      (Overtaken.past ++ Overtaken.release) rfl
  obtain ⟨-, -, -, -, joins⟩ :=
    later_shutdown_is_no_op Small.built Small.repertoire (Small.closing ++ [.pollShutdown]) rfl
  have free (i : Nat) : done.held? i = none := by cases i <;> rfl
  have joined : HasJoined Small.repertoire Small.hub (Small.closing ++ [.pollShutdown]) :=
    ⟨⟨(run Small.repertoire Small.hub Small.closing).1, .pollShutdown⟩,
      by simp [course, Small.closing, run], .inr rfl, rfl⟩
  refine ⟨ended, ?_, rfl, rfl, quiescent free, joined, joins joined⟩
  rw [returns true]

/-- The second shutdown would wait for the worker; it returns, and then the worker calls the second
listener. -/
theorem later_shutdown_returns_before_dispatch_ends :
    let h := (run Overtaken.repertoire Small.hub Overtaken.past).1
    let later := h.step Overtaken.repertoire (.shutdown true)
    h.life = .shutDown ∧ later.answer = .progress .ok ∧
      (∃ d, later.hub.phase? 0 = some (.dispatching Overtaken.created d)) ∧
      .dispatched (.worker 0)
          ⟨0, .entered ⟨2, "r"⟩ .generic { detail := .patchsetCreated {} }⟩ ∈
        (run Overtaken.repertoire later.hub Overtaken.release).2 ∧
      ¬later.hub.IsQuiescent Overtaken.repertoire := by
  intro h later
  have calls : .dispatched (.worker 0)
        ⟨0, .entered ⟨2, "r"⟩ .generic { detail := .patchsetCreated {} }⟩ ∈
      (run Overtaken.repertoire later.hub Overtaken.release).2 := by
    refine List.mem_of_getElem? (i := 3) ?_
    rfl
  refine ⟨rfl, rfl, ⟨_, rfl⟩, calls, ?_⟩
  intro quiescent
  exact quiescent.2 Overtaken.release 0 0 _ _ _ calls

end ReviewHub.Hub
