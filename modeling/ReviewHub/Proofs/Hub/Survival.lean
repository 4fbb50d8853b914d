import ReviewHub.Proofs.Dispatch.Nesting
import ReviewHub.Proofs.Hub.Attention
import ReviewHub.Proofs.Hub.Failures
import ReviewHub.Proofs.Hub.Passage
import ReviewHub.Proofs.Hub.Shutdown

/-!
# Survival of workers

Workers survive everything that they process. No job ends by a panic: those of parsers and of
listeners are caught before. As long as there is something for the workers to run on, none is cut
off, whatever parsers and listeners do, and none ends before the signal to stop; hence a shutdown
that waits for the workers notes no failure, and it is over as soon as they have stopped.
What a worker makes of its envelopes is a matter of these alone, and a failure is a matter of log
records alone.
-/

namespace ReviewHub

/-! ### Records of a worker's failure -/

/-- The record says that a worker has failed, or its job. -/
def Log.isAbort : Log → Bool
  | workerFailed _ => true
  | jobPanicked _ _ => true
  | _ => false

/-- The messages by which workers and their jobs are reported to have come to grief. -/
def Log.abortMessages : List String := ["Worker task failed", "Work item processing aborted"]

theorem Log.isAbort_of_message {log : Log} (message : log.message ∈ Log.abortMessages) :
    log.isAbort := by
  cases log with
  | workerFailed => rfl
  | jobPanicked => rfl
  | handlerFailed l e h error => cases h <;> simp [Log.message, Log.abortMessages] at message
  | _ => simp [Log.message, Log.abortMessages] at message

def Note.records (n : Note) : List Log :=
  match n.what with
  | .logged log => [log]
  | _ => []

/-- The records that are logged, be it during a dispatch: one at most. -/
def Happening.records : Happening → List Log
  | logged log => [log]
  | dispatched _ note => note.records
  | _ => []

/-- The records in a history, in order. -/
def recordsIn (history : List Happening) : List Log := history.flatMap Happening.records

/-- The records in a history that say that a worker has failed. -/
def abortsIn (history : List Happening) : List Log := (recordsIn history).filter Log.isAbort

/-- The records among notes that say that a worker has failed. -/
def Dispatch.abortsIn (notes : List Note) : List Log :=
  (notes.flatMap Note.records).filter Log.isAbort

section Records

variable {σ : Type} {rep : Repertoire σ}

@[simp] theorem abortsIn_append (first second : List Happening) :
    abortsIn (first ++ second) = abortsIn first ++ abortsIn second := by
  simp [abortsIn, recordsIn]

theorem abortsIn_logged (logs : List Log) :
    abortsIn (logs.map .logged) = logs.filter Log.isAbort := by
  simp [abortsIn, recordsIn, List.flatMap_map, Happening.records]

theorem abortsIn_dispatched (source : Source) (notes : List Note) :
    abortsIn (notes.map (.dispatched source)) = Dispatch.abortsIn notes := by
  simp [abortsIn, recordsIn, Dispatch.abortsIn, List.flatMap_map, Happening.records]

theorem aborts_act (board : Switchboard) (a : Action) :
    (board.act a).2.2.filter Log.isAbort = [] := by
  refine List.filter_eq_nil_iff.mpr ?_
  intro log member
  obtain ⟨l, rfl⟩ := Hub.logs_act board a log member
  simp [Log.isAbort]

theorem Dispatch.abortsIn_append (first second : List Note) :
    abortsIn (first ++ second) = abortsIn first ++ abortsIn second := by
  simp [abortsIn]

theorem Dispatch.abortsIn_logNotes (depth : Nat) (logs : List Log) :
    abortsIn (logNotes depth logs) = logs.filter Log.isAbort := by
  simp [abortsIn, logNotes, List.flatMap_map, Note.records]

theorem Dispatch.abortsIn_leave (e : Event) (outer : Dispatch) :
    abortsIn (leave e outer) = [] := by
  cases outer with
  | nil => rfl
  | cons d rest =>
      rw [leave]
      cases d.call <;> rfl

/-- However a call ends, it is the listener that is reported. -/
theorem Dispatch.abortsIn_step {w w' : Scene σ} {d d' : Dispatch} {notes : List Note}
    (first : step rep w d = some (w', d', notes)) : abortsIn notes = [] := by
  cases d with
  | nil => cases first
  | cons d outer =>
      cases advance_of_step first with
      | leave e => exact abortsIn_leave e _
      | conclude e l h o =>
          rw [abortsIn_logNotes]
          cases o <;> rfl
      | act e l h next ls own =>
          rw [abortsIn_append, abortsIn_logNotes, aborts_act]
          rfl
      | _ => rfl

theorem Dispatch.abortsIn_start (board : Switchboard) (depth : Nat) (e : Event) :
    abortsIn (start board depth e).2 = [] := by
  rw [start]
  split <;> rfl

end Records

namespace Hub

variable {σ : Type}

/-! ### Workers that are not cut off -/

/-- No worker has been cut off. -/
def Whole (h : Hub σ) : Prop := ∀ i, h.phase? i ≠ some .cutOff

section Whole

variable {h : Hub σ} (whole : h.Whole)

include whole

theorem Whole.of_quiet {α : Type} {e : Effect σ α} (quiet : ∀ i, Quiet h i e) : e.hub.Whole := by
  intro i
  rw [(quiet i).1]
  exact whole i

theorem Whole.withQueue (q : Queue) : (h.withQueue q).Whole := by
  intro i
  rw [phase?_withQueue]
  exact whole i

theorem Whole.withPhase {phase : Phase} (other : phase ≠ .cutOff) (i : Nat) (awake : Bool) :
    (h.withPhase i phase awake).Whole := by
  intro j cut
  rw [phase?_withPhase] at cut
  split at cut
  · obtain ⟨p, -, same⟩ := Option.map_eq_some_iff.mp cut
    exact other same
  · exact whole j cut

theorem whole_afterPull (i : Nat) (t : Ticket) (work : Option Envelope) (q : Queue) :
    (h.afterPull i t work q).hub.Whole := by
  cases work with
  | none => exact (whole.withQueue q).withPhase (by rintro ⟨⟩) i false
  | some work => exact (whole.withQueue q).withPhase (by rintro ⟨⟩) i false

theorem whole_lookForWork (i : Nat) (name : String) : (h.lookForWork i name).hub.Whole := by
  rw [lookForWork]
  split
  · exact whole.withPhase (by rintro ⟨⟩) i false
  · have numbered : ({ h with next := h.next + 1 } : Hub σ).Whole := whole
    exact whole_afterPull numbered i _ _ _

theorem whole_pollWorker (i : Nat) : (h.pollWorker i).hub.Whole := by
  rw [pollWorker]
  split
  · next w _ found =>
      split
      · exact whole_lookForWork whole i _
      · split
        · exact (whole.withQueue _).withPhase (by rintro ⟨⟩) i false
        · exact whole_afterPull whole i _ _ _
      · exact whole_lookForWork whole i _
      · refine whole.withPhase ?_ i false
        intro cut
        exact whole i ((phase?_of_worker found).trans (congrArg some cut))
  · exact whole

theorem whole_finishJob (alive : h.alive = true) (i : Nat) (job : Completion) :
    (h.finishJob i job).Whole := by
  rw [finishJob, if_pos alive]
  exact whole.withPhase (by rintro ⟨⟩) i true

theorem whole_advanceJob (alive : h.alive = true) (rep : Repertoire σ) (i : Nat) :
    (h.advanceJob rep i).hub.Whole := by
  rw [advanceJob_eq]
  split
  · exact whole
  · split
    · rw [openEnvelope]
      split
      · exact whole.withPhase (by rintro ⟨⟩) i false
      all_goals exact whole_finishJob whole alive i _
    · exact whole_finishJob whole alive i _
    · split
      · exact whole
      · next scene _ _ _ =>
          have there : ({ h with scene := scene } : Hub σ).Whole := whole
          exact there.withPhase (by rintro ⟨⟩) i _
    · exact whole

theorem whole_step (alive : h.alive = true) (rep : Repertoire σ) {s : Step}
    (going : s ≠ .killRuntime) : (h.step rep s).hub.Whole := by
  cases s with
  | pollWorker i => exact whole_pollWorker whole i
  | advanceJob i => exact whole_advanceJob whole alive rep i
  | passGate i =>
      rw [step, hub_answering, passGate]
      split
      · split
        · exact whole.withPhase (by rintro ⟨⟩) i _
        · exact whole
      · exact whole
  | killRuntime => exact absurd rfl going
  | _ => exact whole.of_quiet fun i => quiet_step rep h id

end Whole

/-! ### Waiting for workers that are not cut off -/

/-- Where no worker has been cut off, no failure is noted and nothing is reported. -/
theorem joinWorkers_of_whole {workers : List Worker}
    (whole : ∀ (i : Nat) w, workers[i]? = some w → w.phase ≠ .cutOff) (failure : Option Error)
    (is : List Nat) :
    (joinWorkers workers failure is).1.failure = failure ∧
      (joinWorkers workers failure is).2 = [] := by
  induction is with
  | nil => exact ⟨rfl, rfl⟩
  | cons i is ih =>
      rw [joinWorkers]
      split
      · exact ih
      · next w found =>
          split
          · next cut => exact absurd cut (whole i w found)
          · exact ih
          · exact ⟨rfl, rfl⟩

/-- Workers that have stopped are not waited for. -/
theorem joinWorkers_of_stopped {workers : List Worker}
    (stopped : ∀ (i : Nat) w, workers[i]? = some w → w.phase = .stopped) (failure : Option Error)
    (is : List Nat) : (joinWorkers workers failure is).1.remaining = [] := by
  induction is with
  | nil => rfl
  | cons i is ih =>
      rw [joinWorkers]
      split
      · exact ih
      · next w found =>
          rw [stopped i w found]
          exact ih

theorem Whole.worker {h : Hub σ} (whole : h.Whole) (i : Nat) (w : Worker)
    (found : h.workers[i]? = some w) : w.phase ≠ .cutOff := by
  intro cut
  exact whole i ((phase?_of_worker found).trans (congrArg some cut))

/-- No failure has been noted by a shutdown that waits. -/
def JoinsFine (h : Hub σ) : Prop := ∀ j, h.joining = some j → j.failure = none

/-- A shutdown that begins to wait finds the workers as they are and has noted nothing. -/
theorem Whole.leaving {h : Hub σ} (whole : h.Whole) : h.leaving.Whole :=
  fun i => (phase?_leaving h i).symm ▸ whole i

theorem joinsFine_leaving (h : Hub σ) : h.leaving.JoinsFine := by
  rintro j ⟨⟩
  rfl

section Look

variable {h : Hub σ} (whole : h.Whole) (fine : h.JoinsFine)

include whole fine

/-- A shutdown that looks at its workers finds nothing wrong: it has ended well or waits for more,
and it has ended if all have stopped. -/
theorem look_of_whole :
    h.pollShutdown.hub.JoinsFine ∧ abortsIn h.pollShutdown.happened = [] ∧
      (h.joining.isSome →
        (h.pollShutdown.answer = some .ok ∨ h.pollShutdown.answer = some .pending) ∧
        ((∀ (i : Nat) w, h.workers[i]? = some w → w.phase = .stopped) →
          h.pollShutdown.answer = some .ok)) := by
  rw [pollShutdown]
  split
  · next nobody =>
      refine ⟨fine, rfl, ?_⟩
      intro waits
      rw [nobody] at waits
      cases waits
  · next j waiting =>
      obtain ⟨same, silent⟩ := joinWorkers_of_whole whole.worker j.failure j.remaining
      rw [fine j waiting] at same silent ⊢
      simp only [same, silent]
      split
      · refine ⟨?_, rfl, fun _ => ⟨.inl rfl, fun _ => rfl⟩⟩
        intro k left
        cases left
      · next others =>
          refine ⟨?_, rfl, fun _ => ⟨.inr rfl, ?_⟩⟩
          · intro k left
            cases left
            exact same
          · intro stopped
            exact absurd (joinWorkers_of_stopped stopped none j.remaining) others

end Look

/-! ### What is reported -/

section Reports

variable (h : Hub σ) (i : Nat)

theorem abortsIn_settled (work : Envelope) (p : Pushed) : abortsIn (settled work p) = [] := by
  cases p <;> rfl

theorem abortsIn_submit (work : Envelope) : abortsIn (h.submit work).happened = [] := by
  have reports : abortsIn ((submissionLog work.item :: .enqueuing work ::
      (h.queue.push h.next work h.stopping).2.2).map .logged) = [] := by
    rw [Queue.logs_push]
    cases work.item <;> split <;> rfl
  simp only [submit, abortsIn_append, reports, abortsIn_settled, List.nil_append]

theorem abortsIn_afterPull (t : Ticket) (work : Option Envelope) (q : Queue) :
    abortsIn (h.afterPull i t work q).happened = [] := by
  cases work <;> rfl

theorem abortsIn_lookForWork (name : String) : abortsIn (h.lookForWork i name).happened = [] := by
  rw [lookForWork]
  split
  · rfl
  · exact abortsIn_afterPull { h with next := h.next + 1 } i _ _ _

/-- A worker has nothing to complain of as long as its job has not panicked. -/
theorem abortsIn_pollWorker (returned : ∀ p, h.phase? i ≠ some (.finished (.panicked p))) :
    abortsIn (h.pollWorker i).happened = [] := by
  rw [pollWorker]
  split
  · next w _ found =>
      split
      · exact abortsIn_lookForWork h i _
      · split
        · rfl
        · exact abortsIn_afterPull h i _ _ _
      · next job finished =>
          cases job with
          | returned => exact abortsIn_lookForWork h i _
          | panicked p =>
              exact absurd ((phase?_of_worker found).trans (congrArg some finished)) (returned p)
      · rfl
  · rfl

theorem abortsIn_beginDispatch (source : Source) (e : Event) :
    abortsIn (h.beginDispatch source e).2 = [] := by
  have begun : (h.beginDispatch source e).2 =
      .notified source e :: (Dispatch.start h.scene.board 0 e).2.map (.dispatched source) := rfl
  rw [begun]
  exact (abortsIn_dispatched ..).trans (Dispatch.abortsIn_start ..)

/-- Whatever the parser does, the worker reports that and no failure of its own. -/
theorem abortsIn_openEnvelope (name : String) (work : Envelope) :
    abortsIn (h.openEnvelope i name work).happened ⊆ (work.item.intoEvent h.parser).logs := by
  have reports : abortsIn ((Log.performing name work ::
      (work.item.intoEvent h.parser).logs).map .logged) ⊆ (work.item.intoEvent h.parser).logs := by
    rw [abortsIn_logged]
    change (work.item.intoEvent h.parser).logs.filter Log.isAbort ⊆ _
    exact List.filter_subset_self _
  rw [openEnvelope]
  split
  · rw [abortsIn_append, abortsIn_beginDispatch, List.append_nil]
    exact reports
  all_goals
    rw [abortsIn_append]
    simpa [abortsIn, recordsIn, Happening.records, Log.isAbort] using reports

theorem abortsIn_advanceJob (rep : Repertoire σ) :
    abortsIn (h.advanceJob rep i).happened ⊆ h.parserLogs (.advanceJob i) := by
  rw [advanceJob_eq]
  split
  · exact List.nil_subset _
  · next w found =>
      split
      · next work holding =>
          have unopened : h.unopened i = [work] := by
            rw [Hub.unopened, phase?_of_worker found, holding]
            rfl
          simpa [parserLogs, unopened] using abortsIn_openEnvelope h i w.name work
      · exact List.nil_subset _
      · split
        · exact List.nil_subset _
        · next first =>
            rw [abortsIn_dispatched, Dispatch.abortsIn_step first]
            exact List.nil_subset _
      · exact List.nil_subset _

theorem abortsIn_passGate : abortsIn (h.passGate i).happened = [] := by
  rw [passGate]
  split
  · split
    · next first =>
        rw [abortsIn_dispatched]
        unfold Dispatch.passGate? at first
        split at first
        · cases first
          rfl
        · cases first
    · rfl
  · rfl

theorem abortsIn_act (a : Action) : abortsIn (h.act a).happened = [] := by
  simp only [act, abortsIn_append, abortsIn_logged, aborts_act]
  rfl

theorem abortsIn_advanceGuest (rep : Repertoire σ) :
    abortsIn (h.advanceGuest rep).happened = [] := by
  rw [advanceGuest_eq]
  split
  · rfl
  · rfl
  · split
    · rfl
    · next first => rw [abortsIn_dispatched, Dispatch.abortsIn_step first]

end Reports

/-! ### Steps -/

/-- What is so of a hub as long as there is something for its workers to run on. -/
structure Unharmed (h : Hub σ) : Prop where
  alive : h.alive = true
  whole : h.Whole
  stopped : ∀ i, h.phase? i = some .stopped → h.stopping = true
  returned : ∀ i p, h.phase? i ≠ some (.finished (.panicked p))
  fine : h.JoinsFine

theorem IsFresh.unharmed {c : Config} {parser : Parser} {h : Hub σ} (fresh : h.IsFresh c parser)
    (alive : h.alive = true) : h.Unharmed where
  alive := alive
  whole i cut := by
    rw [fresh.phase?_eq] at cut
    split at cut <;> cases cut
  stopped i ended := by
    rw [fresh.phase?_eq] at ended
    split at ended <;> cases ended
  returned i p ended := by
    rw [fresh.phase?_eq] at ended
    split at ended <;> cases ended
  fine j waiting := nomatch waiting.symm.trans fresh.joining_eq

theorem Move.of_stopped {parser : Parser} {stopping working : Bool} {i : Nat} {p : Phase}
    {own : List Happening} (move : Move parser stopping working i p own .stopped) :
    p = .stopped ∨ stopping = true := by
  cases move with
  | stay => exact .inl rfl
  | stop _ stopped => exact .inr stopped
  | skip _ _ done => rcases done with same | same <;> cases same
  | finish _ done => rcases done with same | same <;> cases same

/-- A job does not end by a panic. -/
theorem Move.of_panicked {parser : Parser} {stopping working : Bool} {i : Nat} {p : Phase}
    {own : List Happening} {panic : Panic}
    (move : Move parser stopping working i p own (.finished (.panicked panic))) :
    p = .finished (.panicked panic) := by
  cases move with
  | stay => rfl
  | skip _ _ done => rcases done with same | same <;> cases same
  | finish _ done => rcases done with same | same <;> cases same

section Unharmed

variable {h : Hub σ} (unharmed : h.Unharmed) (rep : Repertoire σ)

include unharmed

theorem unharmed_shutdown (join : Bool) :
    (h.shutdown join).hub.JoinsFine ∧ abortsIn (h.shutdown join).happened = [] := by
  cases life : h.life with
  | shutDown =>
      rw [shutdown_of_shutDown life]
      exact ⟨unharmed.fine, rfl⟩
  | running =>
      cases join with
      | false =>
          rw [shutdown, life]
          exact ⟨unharmed.fine, rfl⟩
      | true =>
          obtain ⟨fine, silent, -⟩ := look_of_whole unharmed.whole.leaving (joinsFine_leaving h)
          rw [shutdown_of_running life]
          exact ⟨fine, silent⟩

theorem joinsFine_step (s : Step) : (h.step rep s).hub.JoinsFine := by
  by_cases calm : s.isCalm
  · intro j waiting
    have same := congrArg Control.joining (control_step rep h calm)
    exact unharmed.fine j (same.symm.trans waiting)
  · cases s with
    | shutdown join => exact (unharmed_shutdown unharmed join).1
    | pollShutdown => exact (look_of_whole unharmed.whole unharmed.fine).1
    | dropShutdown =>
        intro j waiting
        cases waiting
    | drop => exact unharmed.fine
    | _ => exact absurd rfl calm

theorem unharmed_step {s : Step} (going : s ≠ .killRuntime) : (h.step rep s).hub.Unharmed where
  alive := (alive_step h rep going).trans unharmed.alive
  whole := whole_step unharmed.whole unharmed.alive rep going
  stopped i ended := by
    rcases (moves_step rep h s i).cases with ⟨-, after, -⟩ | ⟨p, q, before, after, move⟩
    · cases after.symm.trans ended
    · cases after.symm.trans ended
      refine stopping_step rep ?_ s
      rcases move.of_stopped with rfl | stopping
      · exact unharmed.stopped i before
      · exact stopping
  returned i p ended := by
    rcases (moves_step rep h s i).cases with ⟨-, after, -⟩ | ⟨_, _, before, after, move⟩
    · cases after.symm.trans ended
    · cases after.symm.trans ended
      exact unharmed.returned i p (move.of_panicked ▸ before)
  fine := joinsFine_step unharmed rep s

theorem unharmed_run {ss : List Step} (going : .killRuntime ∉ ss) :
    (run rep h ss).1.Unharmed := by
  induction ss generalizing h with
  | nil => exact unharmed
  | cons s ss ih =>
      obtain ⟨here, later⟩ := not_or.mp (List.mem_cons.not.mp going)
      exact ih (unharmed_step unharmed rep (Ne.symm here)) later

/-- Failures of workers are reported by nobody, unless the parser says such things. -/
theorem abortsIn_step {s : Step} : abortsIn (h.step rep s).happened ⊆ h.parserLogs s := by
  have trivial {history : List Happening} {logs : List Log} (none : abortsIn history = []) :
      abortsIn history ⊆ logs := none ▸ List.nil_subset logs
  cases s with
  | submit work => exact trivial (abortsIn_submit h work)
  | pollSubmission t =>
      refine trivial ?_
      rw [step, happened_answering, pollSubmission]
      split
      · rfl
      · exact abortsIn_settled ..
  | dropSubmission t =>
      refine trivial ?_
      rw [step, happened_answering, dropSubmission]
      split <;> rfl
  | pollWorker i => exact trivial (abortsIn_pollWorker h i (unharmed.returned i))
  | advanceJob i => exact abortsIn_advanceJob h i rep
  | passGate i => exact trivial (abortsIn_passGate h i)
  | act a => exact trivial (abortsIn_act h a)
  | tryPull =>
      refine trivial ?_
      rw [step, happened_answering, tryPull]
      obtain ⟨_ | work, q⟩ := h.queue.tryPull <;> rfl
  | notify e => exact trivial (abortsIn_beginDispatch h .guest e)
  | advanceGuest => exact trivial (abortsIn_advanceGuest h rep)
  | shutdown join => exact trivial (unharmed_shutdown unharmed join).2
  | pollShutdown => exact trivial (look_of_whole unharmed.whole unharmed.fine).2.1
  | dropShutdown => exact trivial rfl
  | drop => exact trivial rfl
  | killRuntime => exact trivial rfl
  | setWorkerCount n =>
      refine trivial ?_
      rw [step, happened_answering, setWorkerCount]
      split <;> rfl

/-- The shutdown that waits for the workers ends well, and does so once they have stopped. -/
theorem joined_of_unharmed {s : Step}
    (call : s = .shutdown true ∧ h.life = .running ∨ s = .pollShutdown ∧ h.joining.isSome) :
    ((h.step rep s).answer = .progress .ok ∨ (h.step rep s).answer = .progress .pending) ∧
      ((∀ i p, h.phase? i = some p → p = .stopped) →
        (h.step rep s).answer = .progress .ok) := by
  -- The workers are the same whether they are looked at by number or not.
  have allStopped {g : Hub σ} (stopped : ∀ i p, g.phase? i = some p → p = .stopped) (i : Nat)
      (w : Worker) (found : g.workers[i]? = some w) : w.phase = .stopped :=
    stopped i _ (phase?_of_worker found)
  rcases call with ⟨rfl, running⟩ | ⟨rfl, waits⟩
  · obtain ⟨-, -, look⟩ := look_of_whole unharmed.whole.leaving (joinsFine_leaving h)
    obtain ⟨answer, ended⟩ := look rfl
    rw [step, answer_answering, shutdown_of_running running]
    refine ⟨?_, ?_⟩
    · rcases answer with ok | pending
      · exact .inl (by rw [ok]; rfl)
      · exact .inr (by rw [pending]; rfl)
    · intro stopped
      have leaving : ∀ i p, h.leaving.phase? i = some p → p = .stopped := by
        intro i p found
        exact stopped i p ((phase?_leaving h i).symm.trans found)
      rw [ended (allStopped leaving)]
      rfl
  · obtain ⟨-, -, look⟩ := look_of_whole unharmed.whole unharmed.fine
    obtain ⟨answer, ended⟩ := look waits
    rw [step, answer_answering]
    refine ⟨?_, ?_⟩
    · rcases answer with ok | pending
      · exact .inl (by rw [ok]; rfl)
      · exact .inr (by rw [pending]; rfl)
    · intro stopped
      rw [ended (allStopped stopped)]
      rfl

end Unharmed

/-! ### Failures of items -/

theorem unopened_tamed (h : Hub σ) (i : Nat) : h.tamed.unopened i = h.unopened i := by
  rw [unopened, unopened, phase?, phase?, worker?_tamed]
  cases h.workers[i]? with
  | none => rfl
  | some w =>
      obtain ⟨name, phase, awake⟩ := w
      cases phase <;> rfl

/-- What workers open does not depend on what fails. -/
theorem openedIn_of_tamed_eq {rep other : Repertoire σ} {h g : Hub σ}
    (listeners : rep.tamed = other.tamed) (hubs : h.tamed = g.tamed) (ss : List Step) (i : Nat) :
    openedIn rep h ss i = openedIn other g ss i := by
  obtain ⟨final, same⟩ := run_of_tamed_eq listeners hubs ss
  have taken : takenBy (.worker i) (run rep h ss).2 = takenBy (.worker i) (run other g ss).2 := by
    rw [takenBy, takenBy, ← takenIn_unrecorded, same, takenIn_unrecorded]
  have before : h.unopened i = g.unopened i := by
    rw [← unopened_tamed h, hubs, unopened_tamed]
  have after : (run rep h ss).1.unopened i = (run other g ss).1.unopened i := by
    rw [← unopened_tamed (run rep h ss).1, final, unopened_tamed]
  have account := (opens_run rep h ss i).1
  rw [before, taken, after, (opens_run other g ss i).1] at account
  exact (List.append_cancel_right account).symm

theorem tamed_of_build {c : Config} {parser other : Parser} {memory : σ}
    {start restart : Hub σ} (built : (build true c parser memory).outcome = .ok start)
    (rebuilt : (build true c other memory).outcome = .ok restart)
    (parsers : parser.tamed = other.tamed) : start.tamed = restart.tamed := by
  obtain ⟨queue, made, hub⟩ := hub_of_build built
  obtain ⟨again, remade, hubAgain⟩ := hub_of_build rebuilt
  cases made.symm.trans remade
  rw [hub, hubAgain, tamed, tamed, parsers]

/-! ### The law -/

/-- Workers survive everything that they process, whatever the parser and the listeners do, as long
as there is something to run on. No worker is cut off, no job of a worker ends by a panic, and no
worker ends before the hub is shut down or dropped. No record says that a worker or its job has
failed, unless the parser logs such a thing. Each worker opens what it has taken, one after the
other, and turns it into the events that there are; and that is the same with any parser and any
listeners that differ in what fails only, as is all that happens but for log records. The shutdown
that waits for the workers ends well: that is, it answers so as soon as all of them have stopped,
and until then it waits. -/
theorem workers_survive {c : Config} {parser : Parser} {memory : σ} {start : Hub σ}
    (built : (build true c parser memory).outcome = .ok start) (rep : Repertoire σ)
    {past : List Step} (going : .killRuntime ∉ past) :
    let h := (run rep start past).1
    let history := (run rep start past).2
    (∀ i < c.workerCount.toNat, ∃ p, h.phase? i = some p ∧ p ≠ .cutOff ∧
        (∀ panic, p ≠ .finished (.panicked panic)) ∧
        (p = .stopped → h.life = .shutDown ∨ .drop ∈ past)) ∧
      (∀ m ∈ course rep start past, ∀ log ∈ recordsIn (m.effect rep).happened,
        log.message ∈ Log.abortMessages → log ∈ m.before.parserLogs m.step) ∧
      (∀ i, takenBy (.worker i) history = openedIn rep start past i ++ h.unopened i ∧
        notifiedBy (.worker i) history = eventsOf parser (openedIn rep start past i)) ∧
      (∀ other restart (lenient : Repertoire σ),
        (build true c other memory).outcome = .ok restart → parser.tamed = other.tamed →
          rep.tamed = lenient.tamed →
          unrecorded history = unrecorded (run lenient restart past).2 ∧
          ∀ i, openedIn rep start past i = openedIn lenient restart past i) ∧
      ∀ s, s = .shutdown true ∧ h.life = .running ∨ s = .pollShutdown ∧ h.joining.isSome →
        ((h.step rep s).answer = .progress .ok ∨ (h.step rep s).answer = .progress .pending) ∧
        ((h.step rep s).answer = .progress .ok ↔
          ∀ i < c.workerCount.toNat, h.phase? i = some .stopped) := by
  have fresh := isFresh_of_build built
  have fit : start.Unharmed := by
    refine fresh.unharmed ?_
    obtain ⟨queue, -, hub⟩ := hub_of_build built
    rw [hub]
  intro h history
  have unharmed : h.Unharmed := unharmed_run fit rep going
  have present (i : Nat) : (h.phase? i).isSome = decide (i < c.workerCount.toNat) :=
    fresh.isSome_phase?_run rep past i
  refine ⟨?_, ?_, ?_, ?_, ?_⟩
  · intro i below
    obtain ⟨p, found⟩ := Option.isSome_iff_exists.mp ((present i).trans (decide_eq_true below))
    refine ⟨p, found, ?_, ?_, ?_⟩
    · rintro rfl
      exact unharmed.whole i found
    · rintro panic rfl
      exact unharmed.returned i panic found
    · rintro rfl
      exact shutDown_or_drop_of_stopping rep fresh.stopping_eq past (unharmed.stopped i found)
  · intro m member log logged message
    obtain ⟨before, after, rfl, found⟩ := split_of_mem_course member
    have unharmedThen : m.before.Unharmed :=
      found ▸ unharmed_run fit rep fun killed => going (List.mem_append_left _ killed)
    exact abortsIn_step unharmedThen rep
      (List.mem_filter.mpr ⟨logged, Log.isAbort_of_message message⟩)
  · intro i
    obtain ⟨taken, notified⟩ := opens_run rep start past i
    rw [fresh.unopened_eq, List.nil_append] at taken
    exact ⟨taken, fresh.parser_eq ▸ notified⟩
  · intro other restart lenient rebuilt parsers listeners
    have hubs := tamed_of_build built rebuilt parsers
    exact ⟨(run_of_tamed_eq listeners hubs past).2, openedIn_of_tamed_eq listeners hubs past⟩
  · intro s call
    have watched : h.Watched c.workerCount.toNat := watched_run rep fresh.watched past
    obtain ⟨answer, ended⟩ := joined_of_unharmed unharmed rep call
    refine ⟨answer, ?_, ?_⟩
    · intro fine i below
      have quiet : (h.step rep s).hub.phase? i = h.phase? i := by
        rcases call with ⟨rfl, -⟩ | ⟨rfl, -⟩
        · exact (quiet_shutdown h i true).1
        · exact (quiet_pollShutdown h i).1
      exact quiet.symm.trans
        (stopped_of_joined rep watched (call.imp_right And.left) fine i below)
    · intro stopped
      refine ended ?_
      intro i p found
      have below := present i
      rw [found] at below
      exact Option.some.inj (found.symm.trans (stopped i (of_decide_eq_true below.symm)))

/-! ### A hub on which everything fails

Its parser panics at lines and refuses values; its listener fails after it has passed on an event,
and panics at that one. -/

namespace Failing

def parser : Parser :=
  ⟨fun _ _ => ⟨.panicked, []⟩, fun _ _ => ⟨.failed (.external "bad payload"), []⟩⟩

def inner : Event := { detail := .topicChanged {} }

def repertoire : Repertoire Unit := fun _ h _ memory =>
  match h with
  | .specific .refUpdated =>
    (.acts (.notify inner) fun _ => .ends (.failed (.external "listener failed")), memory)
  | .specific _ => (.ends .declined, memory)
  | .generic => (.ends (.panicked .other), memory)

def hub : Hub Unit := { Small.hub with parser := parser }

theorem built : (build true Small.config parser ()).outcome = .ok hub := rfl

def line : Envelope := ⟨⟨2#128, 0⟩, .text "garbage" none⟩

def value : Envelope := ⟨⟨3#128, 0⟩, .json .null none⟩

/-- The worker takes a line, a value and an event, one after the other. -/
def past : List Step :=
  [.act (.add ⟨1, "l"⟩), .submit line, .pollWorker 0, .advanceJob 0, .submit value, .pollWorker 0,
    .advanceJob 0, .submit Small.eventful, .pollWorker 0] ++ List.replicate 10 (.advanceJob 0)

def closing : List Step := [.shutdown true, .pollWorker 0]

end Failing

theorem workers_survive_failures :
    let h := (run Failing.repertoire Failing.hub Failing.past).1
    let history := (run Failing.repertoire Failing.hub Failing.past).2
    let closed := (run Failing.repertoire Failing.hub (Failing.past ++ Failing.closing)).1
    h.phase? 0 = some (.finished .returned) ∧
      openedIn Failing.repertoire Failing.hub Failing.past 0 =
        [Failing.line, Failing.value, Small.eventful] ∧
      notifiedBy (.worker 0) history = [Small.event] ∧
      .logged (.parserPanicked "gerrit-worker-0" Failing.line) ∈ history ∧
      .dispatched (.worker 0)
        ⟨1, .logged (.listenerPanicked ⟨1, "l"⟩ Failing.inner "<non-string panic payload>")⟩ ∈
          history ∧
      unrecorded history =
        unrecorded (run Failing.repertoire.tamed Small.hub Failing.past).2 ∧
      (closed.step Failing.repertoire .pollShutdown).answer = .progress .ok := by
  intro h history closed
  have going : .killRuntime ∉ Failing.past := by simp [Failing.past]
  have goingOn : .killRuntime ∉ Failing.past ++ Failing.closing := by
    simp [Failing.past, Failing.closing]
  obtain ⟨-, -, account, indifferent, -⟩ :=
    workers_survive Failing.built Failing.repertoire going
  obtain ⟨-, -, -, -, joins⟩ := workers_survive Failing.built Failing.repertoire goingOn
  have listeners : Failing.repertoire.tamed = Failing.repertoire.tamed.tamed := by
    funext l h e memory
    cases h with
    | generic => rfl
    | specific k => cases k <;> rfl
  have opened : openedIn Failing.repertoire Failing.hub Failing.past 0 =
      [Failing.line, Failing.value, Small.eventful] := rfl
  have stopped (i : Nat) (below : i < 1) : closed.phase? i = some .stopped := by
    cases Nat.lt_one_iff.mp below
    rfl
  refine ⟨rfl, opened, ?_, ?_, ?_, ?_, ?_⟩
  · refine (account 0).2.trans ?_
    rw [opened]
    rfl
  · exact List.mem_of_getElem? (i := 7) rfl
  · exact List.mem_of_getElem? (i := 26) rfl
  · exact (indifferent Small.parser _ _ Small.built rfl listeners).1
  · exact (joins .pollShutdown (.inr ⟨rfl, rfl⟩)).2.mpr stopped

end Hub

end ReviewHub
