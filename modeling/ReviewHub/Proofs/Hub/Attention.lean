import ReviewHub.Proofs.Hub.Outside

/-!
# Attention of workers

Why no worker sleeps while there is something for it to do. A worker that is not awake may rest: it
is at its job, or it waits under a pull that has not got its turn. A change of the queue that gives
a pull its turn wakes the worker that waits under it, whoever made the change; a worker that is done
with an envelope is awake; and a worker that was looked at goes on waiting only if its pull has not
got its turn.

All this is kept by every step as long as there is something for the workers to run on, and by pulls
from outside.
-/

namespace ReviewHub

/-- A worker in this phase need not be looked at until something happens. -/
def Phase.MayRest (q : Queue) : Phase → Prop
  | fresh => False
  | pulling t => ¬q.HasTurn t
  | finished _ => False
  | _ => True

namespace Hub

variable {σ : Type}

/-- Nothing is missed about the worker of the hub. -/
structure Attends (h : Hub σ) (w : Worker) : Prop where
  rests : w.awake = false → w.phase.MayRest h.queue
  going : h.stopping = false → w.phase.isOver = false

/-- Nothing is missed about any worker. -/
def Attentive (h : Hub σ) : Prop := ∀ w ∈ h.workers, h.Attends w

/-! ### Changing a part -/

section Parts

variable {h : Hub σ} {i : Nat} {w : Worker}

theorem stopping_withQueue (h : Hub σ) (q : Queue) : (h.withQueue q).stopping = h.stopping := by
  rw [withQueue_eq]

theorem mem_wake {p : Worker → Bool} (member : w ∈ (h.wake p).workers) :
    ∃ u ∈ h.workers, w.phase = u.phase ∧ (w.awake = false → u.awake = false ∧ p u = false) := by
  obtain ⟨u, there, rfl⟩ := List.mem_map.mp member
  refine ⟨u, there, ?_, ?_⟩
  · split <;> rfl
  · split
    · intro asleep
      cases asleep
    · next not =>
        intro asleep
        exact ⟨asleep, by simpa using not⟩

/-- A worker that sleeps on after a change of the queue was asleep before and was not signalled. -/
theorem mem_withQueue {q : Queue} (member : w ∈ (h.withQueue q).workers) :
    ∃ u ∈ h.workers, w.phase = u.phase ∧
      (w.awake = false → u.awake = false ∧
        ∀ t, Queue.signalled? h.queue q = some t → u.phase ≠ .pulling t) := by
  rw [withQueue] at member
  split at member
  · next t signalled =>
      obtain ⟨u, there, phase, asleep⟩ := mem_wake member
      refine ⟨u, there, phase, ?_⟩
      intro asleepAfter
      obtain ⟨before, other⟩ := asleep asleepAfter
      refine ⟨before, ?_⟩
      intro v same pulling
      cases signalled.symm.trans same
      simp [isPulling, pulling] at other
  · next unsignalled =>
      refine ⟨w, member, rfl, fun asleep => ⟨asleep, ?_⟩⟩
      intro t same
      cases unsignalled.symm.trans same

theorem mem_withPhase {phase : Phase} {awake : Bool}
    (member : w ∈ (h.withPhase i phase awake).workers) :
    w.phase = phase ∧ w.awake = awake ∨ w ∈ h.workers := by
  obtain ⟨j, found⟩ := List.mem_iff_getElem?.mp member
  rw [withPhase, List.getElem?_modify] at found
  obtain ⟨u, there, same⟩ := Option.map_eq_some_iff.mp found
  by_cases here : i = j
  · rw [if_pos here] at same
    exact .inl (same ▸ ⟨rfl, rfl⟩)
  · rw [if_neg here] at same
    exact .inr (same ▸ List.mem_of_getElem? there)

/-- Whoever gets its turn by a change of the queue is woken. -/
theorem Attentive.withQueue (attentive : h.Attentive) (q : Queue) : (h.withQueue q).Attentive := by
  intro w member
  obtain ⟨u, there, phase, asleep⟩ := mem_withQueue member
  have before := attentive u there
  constructor
  · intro rests
    obtain ⟨rested, unsignalled⟩ := asleep rests
    have may := before.rests rested
    rw [phase, queue_withQueue]
    cases pulling : u.phase with
    | pulling t =>
        rw [pulling] at may
        intro turn
        exact unsignalled t (Queue.signalled?_of_hasTurn may turn) pulling
    | _ =>
        rw [pulling] at may
        exact may
  · intro going
    rw [stopping_withQueue] at going
    rw [phase]
    exact before.going going

theorem Attentive.withPhase (attentive : h.Attentive) {phase : Phase} {awake : Bool}
    (rests : awake = false → phase.MayRest h.queue)
    (going : h.stopping = false → phase.isOver = false) (i : Nat) :
    (h.withPhase i phase awake).Attentive := by
  intro w member
  rcases mem_withPhase member with ⟨rfl, rfl⟩ | before
  · exact ⟨rests, going⟩
  · exact ⟨(attentive w before).rests, (attentive w before).going⟩

/-- A worker at its job may rest. -/
theorem Attentive.withHeld (attentive : h.Attentive) {phase : Phase} {awake : Bool}
    (held : phase.held?.isSome) (i : Nat) : (h.withPhase i phase awake).Attentive := by
  refine attentive.withPhase ?_ ?_ i
  · intro _
    cases phase with
    | holding => trivial
    | dispatching => trivial
    | _ => cases held
  · intro _
    cases phase with
    | holding => rfl
    | dispatching => rfl
    | _ => cases held

/-- Only the workers, the queue and the signal to stop matter. -/
theorem Attentive.congr {g : Hub σ} (attentive : h.Attentive) (workers : g.workers = h.workers)
    (queue : g.queue = h.queue) (stopping : g.stopping = h.stopping) : g.Attentive := by
  intro w member
  rw [workers] at member
  constructor
  · rw [queue]
    exact (attentive w member).rests
  · rw [stopping]
    exact (attentive w member).going

/-- The signal to stop wakes all. -/
theorem attentive_withStop (h : Hub σ) : h.withStop.Attentive := by
  intro w member
  obtain ⟨u, there, phase, asleep⟩ := mem_wake member
  constructor
  · intro rests
    cases (asleep rests).2
  · intro going
    cases going

end Parts

/-! ### Steps -/

section Steps

variable {h : Hub σ} {i : Nat} (attentive : h.Attentive)

include attentive

theorem attentive_afterPull {t : Ticket} {work : Option Envelope} {q : Queue}
    (waits : work = none → ¬q.HasTurn t) : (h.afterPull i t work q).hub.Attentive := by
  have changed := attentive.withQueue q
  cases work with
  | some work =>
      refine changed.withHeld ?_ i
      rfl
  | none =>
      refine changed.withPhase ?_ ?_ i
      · intro _
        rw [queue_withQueue]
        exact waits rfl
      · intro _
        rfl

theorem attentive_endWorker (stopping : h.stopping = true) (name : String) :
    (h.endWorker i name).hub.Attentive := by
  refine attentive.withPhase ?_ ?_ i
  · intro _
    trivial
  · intro going
    cases stopping.symm.trans going

theorem attentive_lookForWork (name : String) : (h.lookForWork i name).hub.Attentive := by
  rw [lookForWork]
  split
  · next stopping => exact attentive_endWorker attentive stopping name
  · have numbered : ({ h with next := h.next + 1 } : Hub σ).Attentive :=
      attentive.congr rfl rfl rfl
    exact attentive_afterPull numbered Queue.not_hasTurn_of_pull

theorem attentive_pollWorker (i : Nat) : (h.pollWorker i).hub.Attentive := by
  rw [pollWorker]
  split
  · next w _ found =>
      split
      · exact attentive_lookForWork attentive _
      · split
        · next stopping =>
            exact attentive_endWorker (attentive.withQueue _)
              ((stopping_withQueue ..).trans stopping) _
        · exact attentive_afterPull attentive Queue.not_hasTurn_of_pollPull
      · exact attentive_lookForWork attentive _
      · next notFresh notPulling notFinished =>
          refine attentive.withPhase (fun _ => ?_)
            (attentive w (List.mem_of_getElem? found)).going i
          cases phase : w.phase with
          | fresh => exact absurd phase notFresh
          | pulling t => exact absurd phase (notPulling t)
          | finished job => exact absurd phase (notFinished job)
          | _ => trivial
  · exact attentive

theorem attentive_finishJob (alive : h.alive = true) (i : Nat) (job : Completion) :
    (h.finishJob i job).Attentive := by
  rw [finishJob, if_pos alive]
  refine attentive.withPhase ?_ ?_ i
  · intro asleep
    cases asleep
  · intro _
    rfl

theorem attentive_advanceJob (alive : h.alive = true) (rep : Repertoire σ) (i : Nat) :
    (h.advanceJob rep i).hub.Attentive := by
  rw [advanceJob_eq]
  split
  · exact attentive
  · split
    · rw [openEnvelope]
      split
      · refine attentive.withHeld ?_ i
        rfl
      all_goals exact attentive_finishJob attentive alive i _
    · exact attentive_finishJob attentive alive i _
    · split
      · exact attentive
      · next scene rest notes _ =>
          have there : ({ h with scene := scene } : Hub σ).Attentive := attentive.congr rfl rfl rfl
          refine there.withHeld ?_ i
          rfl
    · exact attentive

theorem attentive_pollShutdown : h.pollShutdown.hub.Attentive := by
  obtain ⟨joining, logs, hub, -⟩ := pollShutdown_frame h
  rw [hub]
  exact attentive.congr rfl rfl rfl

theorem attentive_shutdown (join : Bool) : (h.shutdown join).hub.Attentive := by
  cases life : h.life with
  | running =>
      obtain ⟨joining, logs, hub, -⟩ := shutdown_frame_of_running life join
      rw [hub]
      exact (attentive_withStop _).congr rfl rfl rfl
  | shutDown =>
      rw [shutdown_of_shutDown life]
      exact attentive

theorem attentive_step (alive : h.alive = true) (rep : Repertoire σ) {s : Step}
    (going : s ≠ .killRuntime) : (h.step rep s).hub.Attentive := by
  cases s with
  | submit work =>
      have changed := attentive.withQueue (h.queue.push h.next work h.stopping).2.1
      exact changed.congr rfl rfl rfl
  | pollSubmission t =>
      rw [step, hub_answering, pollSubmission]
      split
      · exact attentive
      · exact attentive.withQueue _
  | dropSubmission t =>
      rw [step, hub_answering, dropSubmission]
      split
      · exact attentive
      · exact attentive.withQueue _
  | pollWorker i => exact attentive_pollWorker attentive i
  | advanceJob i => exact attentive_advanceJob attentive alive rep i
  | passGate i =>
      rw [step, hub_answering, passGate]
      split
      · split
        · refine attentive.withHeld ?_ i
          rfl
        · exact attentive
      · exact attentive
  | act a => exact attentive.congr rfl rfl rfl
  | tryPull => exact attentive.withQueue _
  | notify e => exact attentive.congr rfl rfl rfl
  | advanceGuest =>
      rw [step, hub_answering, advanceGuest_eq]
      split
      · exact attentive
      · exact attentive.congr rfl rfl rfl
      · split
        · exact attentive
        · exact attentive.congr rfl rfl rfl
  | shutdown join => exact attentive_shutdown attentive join
  | pollShutdown => exact attentive_pollShutdown attentive
  | dropShutdown => exact attentive.congr rfl rfl rfl
  | drop => exact attentive_withStop h
  | killRuntime => exact absurd rfl going
  | setWorkerCount n => exact attentive.congr rfl rfl rfl

end Steps

/-! ### What the workers run on -/

section Alive

variable (h : Hub σ) (i : Nat)

@[simp] theorem alive_withQueue (q : Queue) : (h.withQueue q).alive = h.alive := by
  rw [withQueue_eq]

@[simp] theorem alive_afterPull (t : Ticket) (work : Option Envelope) (q : Queue) :
    (h.afterPull i t work q).hub.alive = h.alive := by
  cases work <;> exact alive_withQueue h q

theorem alive_lookForWork (name : String) : (h.lookForWork i name).hub.alive = h.alive := by
  rw [lookForWork]
  split
  · rfl
  · exact alive_afterPull { h with next := h.next + 1 } i _ _ _

theorem alive_pollWorker : (h.pollWorker i).hub.alive = h.alive := by
  rw [pollWorker]
  split
  · split
    · exact alive_lookForWork h i _
    · split
      · exact alive_withQueue ..
      · exact alive_afterPull ..
    · exact alive_lookForWork h i _
    · rfl
  · rfl

theorem alive_finishJob (job : Completion) : (h.finishJob i job).alive = h.alive := by
  rw [finishJob]
  split <;> rfl

theorem alive_advanceJob (rep : Repertoire σ) : (h.advanceJob rep i).hub.alive = h.alive := by
  rw [advanceJob_eq]
  split
  · rfl
  · split
    · rw [openEnvelope]
      split
      · rfl
      all_goals exact alive_finishJob h i _
    · exact alive_finishJob h i _
    · split <;> rfl
    · rfl

theorem alive_shutdown (join : Bool) : (h.shutdown join).hub.alive = h.alive := by
  cases life : h.life with
  | running =>
      obtain ⟨joining, logs, hub, -⟩ := shutdown_frame_of_running life join
      rw [hub]
      rfl
  | shutDown => rw [shutdown_of_shutDown life]

/-- What the workers run on stays unless it is taken away. -/
theorem alive_step (rep : Repertoire σ) {s : Step} (going : s ≠ .killRuntime) :
    (h.step rep s).hub.alive = h.alive := by
  cases s with
  | submit work => exact alive_withQueue ..
  | pollSubmission t =>
      rw [step, hub_answering, pollSubmission]
      split
      · rfl
      · exact alive_withQueue ..
  | dropSubmission t =>
      rw [step, hub_answering, dropSubmission]
      split
      · rfl
      · exact alive_withQueue ..
  | pollWorker i => exact alive_pollWorker h i
  | advanceJob i => exact alive_advanceJob h i rep
  | passGate i =>
      rw [step, hub_answering, passGate]
      split
      · split <;> rfl
      · rfl
  | act a => rfl
  | tryPull => exact alive_withQueue ..
  | notify e => rfl
  | advanceGuest =>
      rw [step, hub_answering, advanceGuest_eq]
      split
      · rfl
      · rfl
      · split <;> rfl
  | shutdown join => exact alive_shutdown h join
  | pollShutdown =>
      obtain ⟨joining, logs, hub, -⟩ := pollShutdown_frame h
      rw [step, hub_answering, hub]
  | dropShutdown => rfl
  | drop => rfl
  | killRuntime => exact absurd rfl going
  | setWorkerCount n => rfl

end Alive

/-- Nothing is missed about any worker after a deed, if there is something to run on then. -/
theorem attentive_deed (rep : Repertoire σ) {h : Hub σ}
    (before : h.alive = true → h.Attentive) (d : Deed)
    (alive : (h.deed rep d).hub.alive = true) : (h.deed rep d).hub.Attentive := by
  rcases deed_cases rep h d with ⟨s, -, hub, -⟩ | ⟨-, work, q, next, -, same⟩
  · rw [hub] at alive ⊢
    by_cases going : s = .killRuntime
    · rw [going] at alive
      cases alive
    · rw [alive_step h rep going] at alive
      exact attentive_step (before alive) alive rep going
  · rw [same, afterPullOutside, alive_withQueue] at alive
    rw [same]
    have numbered : ({ h with next := next } : Hub σ).Attentive :=
      (before alive).congr rfl rfl rfl
    exact numbered.withQueue q

end Hub

end ReviewHub
