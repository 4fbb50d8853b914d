import ReviewHub.Proofs.Hub.Course

/-!
# What steps leave alone

Only a few steps are about the life of a hub; all others leave its parser, its signal to stop and
its shutdown as they are. And every step keeps the account of the queue: what was in it, followed by
what it brings in, is what it takes out, followed by what is left.
-/

namespace ReviewHub.Hub

variable {σ : Type}

/-- The parser of a hub, the names of its workers and all that its shutdown is about. -/
structure Control where
  parser : Parser
  names : List String
  life : Life
  stopping : Bool
  handles : List Nat
  joining : Option Joining

def control (h : Hub σ) : Control :=
  ⟨h.parser, h.names, h.life, h.stopping, h.handles, h.joining⟩

/-- The step is not about shutting the hub down. -/
def Step.isCalm : Step → Bool
  | shutdown _ => false
  | pollShutdown => false
  | dropShutdown => false
  | drop => false
  | _ => true

section Parts

variable (h : Hub σ) (i : Nat)

@[simp] theorem control_withQueue (q : Queue) : (h.withQueue q).control = h.control := by
  rw [control, names_withQueue, withQueue_eq]
  rfl

@[simp] theorem control_withPhase (phase : Phase) (awake : Bool) :
    (h.withPhase i phase awake).control = h.control := by
  rw [control, names_withPhase]
  rfl

@[simp] theorem control_afterPull (t : Ticket) (work : Option Envelope) (q : Queue) :
    (h.afterPull i t work q).hub.control = h.control := by
  cases work <;> simp [afterPull]

@[simp] theorem control_lookForWork (name : String) :
    (h.lookForWork i name).hub.control = h.control := by
  rw [lookForWork]
  split
  · exact control_withPhase ..
  · exact control_afterPull { h with next := h.next + 1 } i _ _ _

@[simp] theorem control_finishJob (job : Completion) :
    (h.finishJob i job).control = h.control := by
  rw [finishJob]
  split <;> exact control_withPhase ..

@[simp] theorem control_openEnvelope (name : String) (work : Envelope) :
    (h.openEnvelope i name work).hub.control = h.control := by
  rw [openEnvelope]
  split
  · exact control_withPhase ..
  all_goals exact control_finishJob h i _

theorem control_pollWorker : (h.pollWorker i).hub.control = h.control := by
  rw [pollWorker]
  split
  · split
    · exact control_lookForWork h i _
    · split
      · exact (control_withPhase ..).trans (control_withQueue ..)
      · exact control_afterPull ..
    · exact control_lookForWork h i _
    · exact control_withPhase ..
  · rfl

theorem control_advanceJob (rep : Repertoire σ) : (h.advanceJob rep i).hub.control = h.control := by
  rw [advanceJob_eq]
  split
  · rfl
  · split
    · exact control_openEnvelope ..
    · exact control_finishJob h i _
    · split
      · rfl
      · next scene _ _ _ => exact control_withPhase { h with scene := scene } i _ _
    · rfl

theorem control_killRuntime : h.killRuntime.control = h.control := by
  have same : Worker.name ∘ cutOffWorker = Worker.name := by
    funext ⟨name, phase, awake⟩
    cases phase <;> rfl
  simp only [control, names, killRuntime, List.map_map, same]

end Parts

/-- A step that is not about shutting down changes nothing about that. -/
theorem control_step (rep : Repertoire σ) (h : Hub σ) {s : Step} (calm : s.isCalm) :
    (h.step rep s).hub.control = h.control := by
  cases s with
  | submit work => exact control_withQueue ..
  | pollSubmission t =>
      rw [step, hub_answering, pollSubmission]
      split
      · rfl
      · exact control_withQueue ..
  | dropSubmission t =>
      rw [step, hub_answering, dropSubmission]
      split
      · rfl
      · exact control_withQueue ..
  | pollWorker i => exact control_pollWorker h i
  | advanceJob i => exact control_advanceJob h i rep
  | passGate i =>
      rw [step, hub_answering, passGate]
      split
      · split
        · exact control_withPhase ..
        · rfl
      · rfl
  | act a => rfl
  | tryPull => exact control_withQueue ..
  | notify e => rfl
  | advanceGuest =>
      rw [step, hub_answering, advanceGuest_eq]
      split
      · rfl
      · rfl
      · split <;> rfl
  | killRuntime => exact control_killRuntime h
  | setWorkerCount n => rfl
  | _ => cases calm

theorem losses_joinWorkers (workers : List Worker) (failure : Option Error) (is : List Nat) :
    (joinWorkers workers failure is).2.filter Log.isLoss = [] := by
  induction is generalizing failure with
  | nil => rfl
  | cons i is ih =>
      rw [joinWorkers]
      split
      · exact ih failure
      · split
        · exact ih _
        · exact ih failure
        · rfl

/-- A shutdown that is looked at again changes only what it still waits for. -/
theorem pollShutdown_frame (h : Hub σ) :
    ∃ joining logs, h.pollShutdown.hub = { h with joining := joining } ∧
      h.pollShutdown.happened = List.map Happening.logged logs ∧
      logs.filter Log.isLoss = [] := by
  rw [pollShutdown]
  split
  · exact ⟨h.joining, [], rfl, rfl, rfl⟩
  · next j _ =>
      have lossless := losses_joinWorkers h.workers j.failure j.remaining
      simp only
      split
      · refine ⟨none, (joinWorkers h.workers j.failure j.remaining).2 ++ [.shutDown h.pendingWork],
          rfl, by simp, ?_⟩
        rw [List.filter_append, lossless]
        rfl
      · exact ⟨_, _, rfl, rfl, lossless⟩

/-- The first shutdown gives the signal to stop and gives up the workers. -/
theorem shutdown_frame_of_running {h : Hub σ} (running : h.life = .running) (join : Bool) :
    ∃ joining logs,
      (h.shutdown join).hub =
        { { h with life := .shutDown, handles := [] }.withStop with joining := joining } ∧
      (h.shutdown join).happened = List.map Happening.logged logs ∧
      logs.filter Log.isLoss = [] := by
  cases join with
  | false =>
      rw [shutdown, running]
      exact ⟨h.joining, [_], rfl, rfl, rfl⟩
  | true =>
      rw [shutdown_of_running running]
      exact pollShutdown_frame h.leaving

/-- Shutting a hub down changes nothing but its life, and is only reported. -/
theorem frame_of_not_calm (rep : Repertoire σ) (h : Hub σ) {s : Step} (calm : ¬s.isCalm) :
    (h.step rep s).hub.parser = h.parser ∧ (h.step rep s).hub.names = h.names ∧
      (h.step rep s).hub.queue = h.queue ∧ (h.step rep s).hub.next = h.next ∧
      ∃ logs, (h.step rep s).happened = List.map Happening.logged logs ∧
        logs.filter Log.isLoss = [] := by
  cases s with
  | shutdown join =>
      rw [step, hub_answering, happened_answering]
      cases life : h.life with
      | running =>
          obtain ⟨joining, logs, hub, happened⟩ := shutdown_frame_of_running life join
          rw [hub]
          exact ⟨rfl, names_withStop _, rfl, rfl, logs, happened⟩
      | shutDown =>
          rw [shutdown_of_shutDown life]
          exact ⟨rfl, rfl, rfl, rfl, [_], rfl, rfl⟩
  | pollShutdown =>
      obtain ⟨joining, logs, hub, happened⟩ := pollShutdown_frame h
      rw [step, hub_answering, happened_answering, hub]
      exact ⟨rfl, rfl, rfl, rfl, logs, happened⟩
  | dropShutdown => exact ⟨rfl, rfl, rfl, rfl, [], rfl, rfl⟩
  | drop => exact ⟨rfl, names_withStop h, rfl, rfl, [], rfl, rfl⟩
  | _ => exact absurd rfl calm

/-- The parser is there for good. -/
theorem parser_step (rep : Repertoire σ) (h : Hub σ) (s : Step) :
    (h.step rep s).hub.parser = h.parser := by
  by_cases calm : s.isCalm
  · exact congrArg Control.parser (control_step rep h calm)
  · exact (frame_of_not_calm rep h calm).1

/-- So are the names of the workers. -/
theorem names_step (rep : Repertoire σ) (h : Hub σ) (s : Step) :
    (h.step rep s).hub.names = h.names := by
  by_cases calm : s.isCalm
  · exact congrArg Control.names (control_step rep h calm)
  · exact (frame_of_not_calm rep h calm).2.1

theorem parser_run (rep : Repertoire σ) (h : Hub σ) (ss : List Step) :
    (run rep h ss).1.parser = h.parser :=
  run_preserves (P := fun g => g.parser = h.parser)
    (fun g s same => (parser_step rep g s).trans same) rfl ss

/-! ### The account of the queue -/

/-- The effect takes out of the queue what it says, and brings in what it says. -/
def Balances {α : Type} (h : Hub σ) (e : Effect σ α) : Prop :=
  h.queue.items ++ acceptedIn e.happened =
    (takenIn e.happened).map Prod.snd ++ e.hub.queue.items

theorem Balances.of_same {α : Type} {h : Hub σ} {e : Effect σ α} (same : e.hub.queue = h.queue)
    (noneIn : acceptedIn e.happened = []) (noneOut : takenIn e.happened = []) : Balances h e := by
  simp [Balances, same, noneIn, noneOut]

/-- Records of the hub's own are no part of the account. -/
theorem Balances.logging {α : Type} {h : Hub σ} {e : Effect σ α} (balances : Balances h e)
    (logs : List Log) : Balances h { e with happened := logs.map .logged ++ e.happened } := by
  simpa [Balances] using balances

theorem acceptedIn_settled (work : Envelope) (p : Pushed) :
    acceptedIn (settled work p) = p.landed work := by
  cases p <;> rfl

theorem takenIn_settled (work : Envelope) (p : Pushed) : takenIn (settled work p) = [] := by
  cases p <;> rfl

section Balance

variable (h : Hub σ) (i : Nat)

theorem balances_submit (work : Envelope) : Balances h (h.submit work) := by
  simp only [Balances, submit, acceptedIn_append, takenIn_append, acceptedIn_logged,
    takenIn_logged, acceptedIn_settled, takenIn_settled, queue_withQueue, List.nil_append,
    List.map_nil]
  exact (Queue.items_push ..).symm

theorem balances_pollSubmission (t : Ticket) : Balances h (h.pollSubmission t) := by
  rw [pollSubmission]
  split
  · exact .of_same rfl rfl rfl
  · simp only [Balances, acceptedIn_settled, takenIn_settled, queue_withQueue, List.nil_append,
      List.map_nil]
    exact (Queue.items_pollPush ..).symm

theorem balances_dropSubmission (t : Ticket) : Balances h (h.dropSubmission t) := by
  rw [dropSubmission]
  split
  · exact .of_same rfl rfl rfl
  · simp [Balances, Queue.items_dropPush]

theorem balances_tryPull : Balances h h.tryPull := by
  have account := Queue.items_tryPull h.queue
  rw [tryPull]
  generalize h.queue.tryPull = pulled at account ⊢
  obtain ⟨_ | work, q⟩ := pulled <;>
    simpa [Balances, Happening.acceptances, Happening.takings] using account

/-- A worker that has pulled reports what it got. -/
theorem balances_afterPull {t : Ticket} {work : Option Envelope} {q : Queue}
    (account : h.queue.items = work.toList ++ q.items) :
    Balances h (h.afterPull i t work q) := by
  cases work <;>
    simpa [Balances, afterPull, withPhase, Happening.acceptances, Happening.takings] using account

theorem balances_lookForWork (name : String) : Balances h (h.lookForWork i name) := by
  rw [lookForWork]
  split
  · exact .of_same rfl rfl rfl
  · exact balances_afterPull { h with next := h.next + 1 } i (Queue.items_pull h.queue h.next)

theorem balances_pollWorker : Balances h (h.pollWorker i) := by
  rw [pollWorker]
  split
  · split
    · exact balances_lookForWork h i _
    · split
      · simp [Balances, endWorker, withPhase, Happening.acceptances, Happening.takings]
      · exact balances_afterPull h i (Queue.items_pollPull h.queue _)
    · exact (balances_lookForWork h i _).logging _
    · exact .of_same rfl rfl rfl
  · exact .of_same rfl rfl rfl

@[simp] theorem queue_finishJob (job : Completion) : (h.finishJob i job).queue = h.queue := by
  rw [finishJob]
  split <;> rfl

theorem balances_advanceJob (rep : Repertoire σ) : Balances h (h.advanceJob rep i) := by
  rw [advanceJob_eq]
  split
  · exact .of_same rfl rfl rfl
  · split
    · rw [openEnvelope]
      split <;>
        simp [Balances, beginDispatch, withPhase, Happening.acceptances, Happening.takings]
    · exact .of_same (queue_finishJob h i _) rfl rfl
    · split
      · exact .of_same rfl rfl rfl
      · simp [Balances, withPhase]
    · exact .of_same rfl rfl rfl

end Balance

/-- Every step keeps the account of the queue. -/
theorem balances_step (rep : Repertoire σ) (h : Hub σ) (s : Step) : Balances h (h.step rep s) := by
  by_cases calm : s.isCalm
  · cases s with
    | submit work => exact balances_submit h work
    | pollSubmission t => exact balances_pollSubmission h t
    | dropSubmission t => exact balances_dropSubmission h t
    | pollWorker i => exact balances_pollWorker h i
    | advanceJob i => exact balances_advanceJob h i rep
    | passGate i =>
        rw [step, passGate]
        split
        · split
          · simp [Balances, withPhase]
          · exact .of_same rfl rfl rfl
        · exact .of_same rfl rfl rfl
    | act a => simp [Balances, step, act, Happening.acceptances, Happening.takings]
    | tryPull => exact balances_tryPull h
    | notify e =>
        simp [Balances, step, notify, beginDispatch, Happening.acceptances, Happening.takings]
    | advanceGuest =>
        rw [step, advanceGuest_eq]
        split
        · exact .of_same rfl rfl rfl
        · exact .of_same rfl rfl rfl
        · split
          · exact .of_same rfl rfl rfl
          · simp [Balances]
    | killRuntime => simp [Balances, step, killRuntime, Queue.items_foldl_dropPull]
    | setWorkerCount n =>
        simp only [Balances, step, setWorkerCount, happened_answering, hub_answering]
        split <;> simp [Happening.acceptances, Happening.takings]
    | _ => cases calm
  · obtain ⟨-, -, same, -, logs, happened, -⟩ := frame_of_not_calm rep h calm
    exact .of_same same (by simp [happened]) (by simp [happened])

/-- The account of the queue over a run. -/
theorem balances_run (rep : Repertoire σ) (h : Hub σ) (ss : List Step) :
    h.queue.items ++ acceptedIn (run rep h ss).2 =
      (takenIn (run rep h ss).2).map Prod.snd ++ (run rep h ss).1.queue.items := by
  induction ss generalizing h with
  | nil => simp
  | cons s ss ih =>
      have first : _ ++ _ = _ ++ _ := balances_step rep h s
      rw [hub_run_cons, history_run_cons, acceptedIn_append, takenIn_append, List.map_append,
        ← List.append_assoc, first, List.append_assoc, ih, List.append_assoc]

end ReviewHub.Hub
