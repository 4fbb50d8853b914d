import ReviewHub.Proofs.Hub.Frame
import ReviewHub.Proofs.Hub.Move

/-!
# Passages of submissions

A submission that waits is known by its ticket, so each step is about one submission at most. All
that a step can mean for submissions is said once, guards included, as `Passage`: a submission
arrives, is looked at again or is dropped, with the answer, the place in line, what comes onto the
queue and which warnings are logged. All other steps are aside from this: they leave the line alone,
bring nothing onto the queue, and log no losses but what a parser reports.
-/

namespace ReviewHub

/-- The warnings about a push of `work` that came to `p`. -/
def Pushed.warnings (work : Envelope) : Pushed → List Log
  | .accepted => []
  | .interrupted => [.notEnqueued work .interrupted]
  | .waiting => []

namespace Hub

variable {σ : Type}

/-- The ticket of the submission that a step is about. -/
def ticket? (h : Hub σ) : Step → Option Ticket
  | .submit _ => some h.next
  | .pollSubmission t => some t
  | .dropSubmission t => some t
  | _ => none

/-- What the parser reports in a step. -/
def parserLogs (h : Hub σ) : Step → List Log
  | .advanceJob i => (h.unopened i).flatMap fun work => (work.item.intoEvent h.parser).logs
  | _ => []

/-- An effect on the hub that is about no submission: nobody joins or leaves the line, nothing comes
onto the queue, and no loss is logged but in the given records. -/
structure Aside {α : Type} (h : Hub σ) (logs : List Log) (e : Effect σ α) : Prop where
  line : e.hub.queue.line = h.queue.line
  next : h.next ≤ e.hub.next
  accepted : acceptedIn e.happened = []
  lost : lossesIn e.happened ⊆ logs

/-- All that a step can mean for submissions, guards included. -/
inductive Passage (h : Hub σ) : Step → Effect σ Answer → Prop where
  | aside {s : Step} {e : Effect σ Answer} (other : h.ticket? s = none)
      (aside : Aside h (h.parserLogs s) e) : Passage h s e
  /-- A submission arrives; it need not wait where it finds a free slot. -/
  | arrive {work : Envelope} {e : Effect σ Answer} (p : Pushed) (answer : e.answer = .pushed p)
      (line : e.hub.queue.line =
        if p = .waiting then h.queue.line ++ [(h.next, work)] else h.queue.line)
      (next : e.hub.next = h.next + 1) (accepted : acceptedIn e.happened = p.landed work)
      (warned : warningsIn e.happened = p.warnings work)
      (full : p ≠ .accepted → h.queue.capacity.isSome ∧ h.queue.free = 0)
      (stopped : p = .interrupted → h.stopping = true)
      (going : p = .waiting → h.stopping = false) : Passage h (.submit work) e
  /-- A waiting submission is looked at again. -/
  | poll {t : Ticket} {work : Envelope} {e : Effect σ Answer}
      (present : h.queue.workOf? t = some work) (p : Pushed) (answer : e.answer = .pushed p)
      (line : e.hub.queue.line =
        if p = .waiting then h.queue.line else h.queue.line.filter (·.1 ≠ t))
      (next : e.hub.next = h.next) (accepted : acceptedIn e.happened = p.landed work)
      (warned : warningsIn e.happened = p.warnings work)
      (stopped : p = .interrupted ↔ h.stopping = true) : Passage h (.pollSubmission t) e
  /-- A waiting submission is dropped. -/
  | drop {t : Ticket} {work : Envelope} {e : Effect σ Answer}
      (present : h.queue.workOf? t = some work) (answer : e.answer = .flag true)
      (line : e.hub.queue.line = h.queue.line.filter (·.1 ≠ t)) (next : e.hub.next = h.next)
      (accepted : acceptedIn e.happened = []) (warned : warningsIn e.happened = [.abandoned work]) :
      Passage h (.dropSubmission t) e
  /-- The submission does not wait, or no longer. -/
  | miss {s : Step} {t : Ticket} {e : Effect σ Answer}
      (about : s = .pollSubmission t ∨ s = .dropSubmission t)
      (absent : h.queue.workOf? t = none) (same : e.hub = h) (silent : e.happened = [])
      (answer : ∀ p, e.answer ≠ .pushed p) : Passage h s e

/-! ### Steps about no submission -/

section Aside

variable (h : Hub σ) (i : Nat)

@[simp] theorem next_withQueue (q : Queue) : (h.withQueue q).next = h.next := by
  rw [withQueue_eq]

theorem aside_of_line {α : Type} {e : Effect σ α} (line : e.hub.queue.line = h.queue.line)
    (next : e.hub.next = h.next) (nothing : acceptedIn e.happened = [])
    (lossless : lossesIn e.happened = []) : Aside h [] e :=
  ⟨line, Nat.le_of_eq next.symm, nothing, List.subset_nil.mpr lossless⟩

/-- What a worker reports of its job is about no submission. -/
theorem Aside.reporting {e : Effect σ Unit} {h : Hub σ} (aside : Aside h [] e) (name : String)
    (job : Completion) :
    Aside h [] { e with happened := (jobLogs name job).map .logged ++ e.happened } := by
  refine ⟨aside.line, aside.next, ?_, ?_⟩
  · simpa using aside.accepted
  · cases job <;> exact aside.lost

theorem aside_afterPull {q : Queue} (line : q.line = h.queue.line) (t : Ticket)
    (work : Option Envelope) : Aside h [] (h.afterPull i t work q) := by
  cases work <;>
    exact aside_of_line h (by simpa [afterPull, withPhase] using line) (next_withQueue ..) rfl rfl

theorem aside_lookForWork (name : String) : Aside h [] (h.lookForWork i name) := by
  rw [lookForWork]
  split
  · exact aside_of_line h rfl rfl rfl rfl
  · obtain ⟨line, next, nothing, lossless⟩ := aside_afterPull { h with next := h.next + 1 } i
      (Queue.line_pull h.queue h.next) h.next (h.queue.pull h.next).1
    exact ⟨line, Nat.le_trans (Nat.le_succ _) next, nothing, lossless⟩

theorem aside_pollWorker : Aside h [] (h.pollWorker i) := by
  rw [pollWorker]
  split
  · next w _ _ =>
      split
      · have aside := aside_lookForWork h i w.name
        exact ⟨aside.line, aside.next, aside.accepted, aside.lost⟩
      · split
        · exact aside_of_line h (by simp [endWorker, withPhase]) (next_withQueue ..) rfl rfl
        · exact aside_afterPull h i (Queue.line_pollPull ..) _ _
      · exact (aside_lookForWork h i _).reporting _ _
      · exact aside_of_line h rfl rfl rfl rfl
  · exact aside_of_line h rfl rfl rfl rfl

theorem next_finishJob (job : Completion) : (h.finishJob i job).next = h.next := by
  rw [finishJob]
  split <;> rfl

theorem aside_openEnvelope (name : String) (work : Envelope) :
    Aside h (work.item.intoEvent h.parser).logs (h.openEnvelope i name work) := by
  have reports : lossesIn ((work.item.intoEvent h.parser).logs.map .logged) ⊆
      (work.item.intoEvent h.parser).logs := by
    rw [lossesIn_logged]
    exact List.filter_subset_self _
  rw [openEnvelope]
  split
  · refine ⟨rfl, Nat.le_refl _, by simp [beginDispatch, Happening.acceptances], ?_⟩
    simpa [beginDispatch, Happening.losses, Log.isLoss] using reports
  all_goals
    refine ⟨by simp, Nat.le_of_eq (next_finishJob h i _).symm, by simp [Happening.acceptances], ?_⟩
    simpa [Happening.losses, Log.isLoss] using reports

theorem aside_advanceJob (rep : Repertoire σ) :
    Aside h (h.parserLogs (.advanceJob i)) (h.advanceJob rep i) := by
  have trivial {e : Effect σ Unit} (aside : Aside h [] e) :
      Aside h (h.parserLogs (.advanceJob i)) e :=
    ⟨aside.line, aside.next, aside.accepted, List.Subset.trans aside.lost (List.nil_subset _)⟩
  rw [advanceJob_eq]
  split
  · exact trivial (aside_of_line h rfl rfl rfl rfl)
  · next w found =>
      split
      · next work holding =>
          have unopened : h.unopened i = [work] := by
            rw [Hub.unopened, phase?_of_worker found, holding]
            rfl
          simpa [parserLogs, unopened] using aside_openEnvelope h i w.name work
      · exact trivial (aside_of_line h (by simp) (next_finishJob h i _) rfl rfl)
      · refine trivial ?_
        split
        · exact aside_of_line h rfl rfl rfl rfl
        · exact aside_of_line h rfl rfl (acceptedIn_dispatched ..) (lossesIn_dispatched ..)
      · exact trivial (aside_of_line h rfl rfl rfl rfl)

theorem aside_passGate : Aside h [] (h.passGate i) := by
  rw [passGate]
  split
  · split
    · exact aside_of_line h rfl rfl (acceptedIn_dispatched ..) (lossesIn_dispatched ..)
    · exact aside_of_line h rfl rfl rfl rfl
  · exact aside_of_line h rfl rfl rfl rfl

theorem logs_merge (done ls : List Listener) :
    ∀ log ∈ (Roster.merge done ls).2, ∃ l, log = .doublyAdded l := by
  induction ls generalizing done with
  | nil => simp [Roster.merge]
  | cons l ls ih =>
      rw [Roster.merge]
      split
      · intro log member
        rcases List.mem_cons.mp member with rfl | later
        · exact ⟨l, rfl⟩
        · exact ih done log later
      · exact ih _

/-- Acting on the switchboard reports nothing but listeners that are there already. -/
theorem logs_act (board : Switchboard) (a : Action) :
    ∀ log ∈ (board.act a).2.2, ∃ l, log = .doublyAdded l := by
  cases a with
  | add l =>
      simp only [Switchboard.act, Roster.add]
      split <;> simp
  | addAll ls => exact logs_merge _ ls
  | remove l =>
      simp only [Switchboard.act, Roster.remove]
      split <;> simp
  | _ => simp [Switchboard.act, Roster.removeAll]

theorem losses_act (board : Switchboard) (a : Action) :
    (board.act a).2.2.filter Log.isLoss = [] := by
  refine List.filter_eq_nil_iff.mpr ?_
  intro log member
  obtain ⟨l, rfl⟩ := logs_act board a log member
  simp [Log.isLoss]

theorem aside_act (a : Action) : Aside h [] (h.act a) := by
  refine aside_of_line h rfl rfl (by simp [act, Happening.acceptances]) ?_
  simp only [act, lossesIn_append, lossesIn_logged, losses_act]
  rfl

theorem aside_tryPull : Aside h [] h.tryPull := by
  have line : h.tryPull.hub.queue.line = h.queue.line := by simp [tryPull]
  have same : h.tryPull.hub.next = h.next := next_withQueue ..
  rw [tryPull] at line same ⊢
  generalize h.queue.tryPull = pulled at line same ⊢
  obtain ⟨_ | work, q⟩ := pulled <;> exact aside_of_line h line same rfl rfl

theorem aside_notify (e : Event) : Aside h [] (h.notify e) := by
  refine aside_of_line h rfl rfl ?_ ?_
  · simp [notify, beginDispatch, Happening.acceptances]
  · simp [notify, beginDispatch, Happening.losses]

theorem aside_advanceGuest (rep : Repertoire σ) : Aside h [] (h.advanceGuest rep) := by
  rw [advanceGuest_eq]
  split
  · exact aside_of_line h rfl rfl rfl rfl
  · exact aside_of_line h rfl rfl rfl rfl
  · split
    · exact aside_of_line h rfl rfl rfl rfl
    · exact aside_of_line h rfl rfl (acceptedIn_dispatched ..) (lossesIn_dispatched ..)

theorem aside_setWorkerCount (n : UInt64) : Aside h [] (h.setWorkerCount n) := by
  rw [setWorkerCount]
  split <;> exact aside_of_line h rfl rfl rfl rfl

end Aside

/-! ### Steps about a submission -/

section About

variable (h : Hub σ)

theorem warningsIn_settled (work : Envelope) (p : Pushed) :
    warningsIn (settled work p) = p.warnings work := by
  cases p <;> rfl

/-- What is reported of a push that has to wait is no warning. -/
theorem warningsIn_submit (work : Envelope) :
    warningsIn (h.submit work).happened = (h.submit work).answer.warnings work := by
  have reports : warningsIn ((submissionLog work.item :: .enqueuing work ::
      (h.queue.push h.next work h.stopping).2.2).map .logged) = [] := by
    rw [Queue.logs_push]
    cases work.item <;> split <;> rfl
  simp only [submit, warningsIn_append, reports, warningsIn_settled, List.nil_append]

theorem passage_submit (rep : Repertoire σ) (work : Envelope) :
    Passage h (.submit work) (h.step rep (.submit work)) := by
  refine .arrive (h.submit work).answer rfl ?_ rfl ?_ (warningsIn_submit h work) Queue.full_of_push
    Queue.interrupted_of_push ?_
  · have queue : (h.submit work).hub.queue = _ := queue_withQueue ..
    rw [step, hub_answering, queue]
    exact Queue.line_push ..
  · simp [step, submit, acceptedIn_settled, Happening.acceptances]
  · intro waits
    cases signal : h.stopping with
    | false => rfl
    | true =>
        change (h.queue.push h.next work h.stopping).1 = .waiting at waits
        rw [signal] at waits
        exact absurd waits (Queue.push_interrupted_ne_waiting h.queue h.next work)

theorem passage_pollSubmission (rep : Repertoire σ) (t : Ticket) :
    Passage h (.pollSubmission t) (h.step rep (.pollSubmission t)) := by
  rw [step, pollSubmission]
  split
  · next missing =>
      refine .miss (.inl rfl) (Queue.workOf?_of_waiter?_none missing) rfl rfl ?_
      intro p pushed
      cases pushed
  · next w found =>
      refine .poll (Queue.workOf?_of_waiter? found) (h.queue.pollPush w h.stopping).1 rfl ?_
        (next_withQueue ..) (acceptedIn_settled ..) (warningsIn_settled ..)
        ⟨Queue.interrupted_of_pollPush, ?_⟩
      · simp only [hub_answering, queue_withQueue, ← Queue.ticket_of_waiter? found]
        exact Queue.line_pollPush ..
      · intro stopping
        rw [stopping, Queue.pollPush_interrupted]

theorem passage_dropSubmission (rep : Repertoire σ) (t : Ticket) :
    Passage h (.dropSubmission t) (h.step rep (.dropSubmission t)) := by
  rw [step, dropSubmission]
  split
  · next missing =>
      refine .miss (.inr rfl) (Queue.workOf?_of_waiter?_none missing) rfl rfl ?_
      intro p pushed
      cases pushed
  · next w found =>
      refine .drop (Queue.workOf?_of_waiter? found) rfl ?_ (next_withQueue ..) rfl rfl
      simp only [hub_answering, queue_withQueue, ← Queue.ticket_of_waiter? found]
      exact Queue.line_dropPush ..

end About

/-- Whatever happens to a hub is one of the passages. -/
theorem passage_step (rep : Repertoire σ) (h : Hub σ) (s : Step) : Passage h s (h.step rep s) := by
  -- Seeing the answer of an operation as that of a step changes nothing for submissions.
  have seen {α : Type} {logs : List Log} {e : Effect σ α} (aside : Aside h logs e)
      (f : α → Answer) : Aside h logs (e.answering f) :=
    ⟨aside.line, aside.next, aside.accepted, aside.lost⟩
  by_cases calm : s.isCalm
  · cases s with
    | submit work => exact passage_submit h rep work
    | pollSubmission t => exact passage_pollSubmission h rep t
    | dropSubmission t => exact passage_dropSubmission h rep t
    | pollWorker i => exact .aside rfl (seen (aside_pollWorker h i) fun _ => .none)
    | advanceJob i => exact .aside rfl (seen (aside_advanceJob h i rep) fun _ => .none)
    | passGate i => exact .aside rfl (seen (aside_passGate h i) _)
    | act a => exact .aside rfl (seen (aside_act h a) _)
    | tryPull => exact .aside rfl (seen (aside_tryPull h) _)
    | notify e => exact .aside rfl (seen (aside_notify h e) fun _ => .none)
    | advanceGuest => exact .aside rfl (seen (aside_advanceGuest h rep) fun _ => .none)
    | killRuntime =>
        exact .aside rfl (aside_of_line h (Queue.line_foldl_dropPull ..) rfl rfl rfl)
    | setWorkerCount n => exact .aside rfl (seen (aside_setWorkerCount h n) fun _ => .none)
    | _ => cases calm
  · obtain ⟨-, -, queue, next, logs, happened, lossless⟩ := frame_of_not_calm rep h calm
    have aside : Aside h [] (h.step rep s) :=
      aside_of_line h (by rw [queue]) next (by simp [happened])
        (by rw [happened, lossesIn_logged, lossless])
    cases s with
    | shutdown join => exact .aside rfl aside
    | pollShutdown => exact .aside rfl aside
    | dropShutdown => exact .aside rfl aside
    | drop => exact .aside rfl aside
    | _ => exact absurd rfl calm

end Hub

end ReviewHub
