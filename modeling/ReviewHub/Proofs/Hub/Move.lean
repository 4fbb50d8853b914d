import ReviewHub.Proofs.Hub.Course

/-!
# Moves of a worker

All that one step of a hub can do to one of its workers, guards included, together with what the
worker does in that step. Whatever is said about workers is derived from this: a worker takes an
envelope only when it is ready for one and the hub is not stopping; it opens what it holds before
anything else, with one notification or none; and it has done with an envelope only when there was
nothing to dispatch or the dispatch is over.

Steps that are not about a worker are quiet for it: they change neither its phase nor do anything in
its name.
-/

namespace ReviewHub

/-- A worker in this phase looks for work when it is looked at. -/
def Phase.isReady : Phase → Bool
  | fresh => true
  | pulling _ => true
  | finished _ => true
  | _ => false

theorem Phase.held?_of_isReady {p : Phase} (ready : p.isReady) : p.held? = none := by
  cases p <;> first | rfl | cases ready

/-- The envelope that a worker has and has not opened: one at most. -/
def Phase.unopened : Phase → List Envelope
  | holding work => [work]
  | _ => []

theorem Phase.unopened_of_held? {p : Phase} (free : p.held? = none) : p.unopened = [] := by
  cases p <;> first | rfl | cases free

/-- The event that an item turns into, if there is one. -/
def WorkItem.event? (parser : Parser) (item : WorkItem) : Option Event :=
  match (item.intoEvent parser).reading with
  | .event e => some e
  | _ => none

namespace Hub

variable {σ : Type}

/-- The envelope that worker `i` has and has not opened: one at most. -/
def unopened (h : Hub σ) (i : Nat) : List Envelope := (h.phase? i).elim [] Phase.unopened

theorem unopened_of_held? {h : Hub σ} (free : h.held? i = none) : h.unopened i = [] := by
  rw [held?] at free
  rw [unopened]
  cases found : h.phase? i with
  | none => rfl
  | some p =>
      rw [found] at free
      exact Phase.unopened_of_held? free

/-- The step takes the job of worker `i` further. -/
def Step.isJobOf (i : Nat) : Step → Bool
  | advanceJob j => decide (j = i)
  | _ => false

/-- The step is taken by worker `i` or by its job, or takes away what all of them run on. -/
def Step.Concerns (i : Nat) : Step → Prop
  | pollWorker j => j = i
  | advanceJob j => j = i
  | passGate j => j = i
  | killRuntime => True
  | _ => False

/-- What worker `i` can do in one step of a hub with the parser, which may have been given the
signal to stop, and in a step that takes its job further or not: its phase before, its doings, its
phase after. -/
inductive Move (parser : Parser) (stopping working : Bool) (i : Nat) :
    Phase → List Happening → Phase → Prop where
  | stay (p : Phase) (idle : working = false ∨ p.unopened = []) :
      Move parser stopping working i p [] p
  | wait {p : Phase} (ready : p.isReady) (going : stopping = false) (t : Ticket) :
      Move parser stopping working i p [] (.pulling t)
  | take {p : Phase} (ready : p.isReady) (going : stopping = false) (work : Envelope) :
      Move parser stopping working i p [.taken (.worker i) work] (.holding work)
  | stop {p : Phase} (ready : p.isReady) (stopped : stopping = true) :
      Move parser stopping working i p [] .stopped
  | cut {p : Phase} (ready : p.isReady) : Move parser stopping working i p [] .cutOff
  | begin (opening : working = true) {work : Envelope} {e : Event}
      (event : work.item.event? parser = some e) (d : Dispatch) (notes : List Note) :
      Move parser stopping working i (.holding work)
        (.notified (.worker i) e :: notes.map (.dispatched (.worker i))) (.dispatching work d)
  | skip (opening : working = true) {work : Envelope} {q : Phase}
      (nothing : work.item.event? parser = none) (done : q = .finished .returned ∨ q = .cutOff) :
      Move parser stopping working i (.holding work) [] q
  | dispatch (work : Envelope) (d rest : Dispatch) (notes : List Note) :
      Move parser stopping working i (.dispatching work d) (notes.map (.dispatched (.worker i)))
        (.dispatching work rest)
  | finish (work : Envelope) {q : Phase} (done : q = .finished .returned ∨ q = .cutOff) :
      Move parser stopping working i (.dispatching work []) [] q

/-- An effect on the hub that is none of worker `i`'s business. -/
def Quiet {α : Type} (h : Hub σ) (i : Nat) (e : Effect σ α) : Prop :=
  e.hub.phase? i = h.phase? i ∧ doingsOf (.worker i) e.happened = []

/-- An effect on the hub that is a move of worker `i`, if there is one. -/
def Moves {α : Type} (h : Hub σ) (working : Bool) (i : Nat) (e : Effect σ α) : Prop :=
  match h.phase? i with
  | some p => ∃ q, e.hub.phase? i = some q ∧
      Move h.parser h.stopping working i p (doingsOf (.worker i) e.happened) q
  | none => e.hub.phase? i = none ∧ doingsOf (.worker i) e.happened = []

theorem Quiet.moves {α : Type} {h : Hub σ} {i : Nat} {e : Effect σ α} (quiet : Quiet h i e) :
    Moves h false i e := by
  obtain ⟨same, silent⟩ := quiet
  rw [Moves]
  split
  · next p found => exact ⟨p, same.trans found, silent ▸ .stay p (.inl rfl)⟩
  · next missing => exact ⟨same.trans missing, silent⟩

/-- The hub's own records are nobody's doings. -/
theorem doingsOf_logged_append {source : Source} (logs : List Log) (happened : List Happening) :
    doingsOf source (logs.map .logged ++ happened) = doingsOf source happened := by
  rw [doingsOf_append, doingsOf_logged, List.nil_append]

theorem Quiet.logging {α : Type} {h : Hub σ} {i : Nat} {e : Effect σ α} (quiet : Quiet h i e)
    (logs : List Log) : Quiet h i { e with happened := logs.map .logged ++ e.happened } := by
  rw [Quiet, doingsOf_logged_append]
  exact quiet

theorem Moves.logging {α : Type} {h : Hub σ} {working : Bool} {i : Nat} {e : Effect σ α}
    (moves : Moves h working i e) (logs : List Log) :
    Moves h working i { e with happened := logs.map .logged ++ e.happened } := by
  rw [Moves, doingsOf_logged_append]
  exact moves

theorem Moves.cases {α : Type} {h : Hub σ} {working : Bool} {i : Nat} {e : Effect σ α}
    (moves : Moves h working i e) :
    (h.phase? i = none ∧ e.hub.phase? i = none ∧ doingsOf (.worker i) e.happened = []) ∨
      ∃ p q, h.phase? i = some p ∧ e.hub.phase? i = some q ∧
        Move h.parser h.stopping working i p (doingsOf (.worker i) e.happened) q := by
  rw [Moves] at moves
  split at moves
  · next p found =>
      obtain ⟨q, after, move⟩ := moves
      exact .inr ⟨p, q, found, after, move⟩
  · next missing => exact .inl ⟨missing, moves⟩

/-! ### Operations that are about no worker -/

section QuietOperations

variable (h : Hub σ) (i : Nat)

@[simp] theorem doingsOf_settled (source : Source) (work : Envelope) (p : Pushed) :
    doingsOf source (settled work p) = [] := by
  cases p <;> rfl

theorem quiet_submit (work : Envelope) : Quiet h i (h.submit work) := by
  constructor
  · exact phase?_withQueue ..
  · simp [submit, Happening.source?]

theorem quiet_pollSubmission (t : Ticket) : Quiet h i (h.pollSubmission t) := by
  rw [pollSubmission]
  split
  · exact ⟨rfl, rfl⟩
  · exact ⟨phase?_withQueue .., doingsOf_settled ..⟩

theorem quiet_dropSubmission (t : Ticket) : Quiet h i (h.dropSubmission t) := by
  rw [dropSubmission]
  split
  · exact ⟨rfl, rfl⟩
  · exact ⟨phase?_withQueue .., doingsOf_logged ..⟩

theorem quiet_act (a : Action) : Quiet h i (h.act a) := by
  constructor
  · rfl
  · simp [act, Happening.source?]

theorem quiet_tryPull : Quiet h i h.tryPull := by
  constructor
  · exact phase?_withQueue ..
  · rw [tryPull]
    obtain ⟨_ | work, q⟩ := h.queue.tryPull <;> rfl

theorem quiet_notify (e : Event) : Quiet h i (h.notify e) := by
  constructor
  · rfl
  · simp [notify, beginDispatch, Happening.source?]

theorem quiet_advanceGuest (rep : Repertoire σ) : Quiet h i (h.advanceGuest rep) := by
  rw [advanceGuest_eq]
  split
  · exact ⟨rfl, rfl⟩
  · exact ⟨rfl, rfl⟩
  · split
    · exact ⟨rfl, rfl⟩
    · exact ⟨rfl, doingsOf_dispatched ..⟩

theorem quiet_pollShutdown : Quiet h i h.pollShutdown := by
  rw [pollShutdown]
  split
  · exact ⟨rfl, rfl⟩
  · simp only
    split
    · exact ⟨rfl, by simp [Happening.source?]⟩
    · exact ⟨rfl, doingsOf_logged ..⟩

theorem quiet_shutdown (join : Bool) : Quiet h i (h.shutdown join) := by
  cases life : h.life with
  | shutDown =>
      rw [shutdown_of_shutDown life]
      exact ⟨rfl, rfl⟩
  | running =>
      cases join with
      | false =>
          rw [shutdown, life]
          exact ⟨phase?_wake .., rfl⟩
      | true =>
          rw [shutdown_of_running life]
          obtain ⟨same, silent⟩ := quiet_pollShutdown h.leaving i
          exact ⟨same.trans (phase?_leaving ..), silent⟩

theorem quiet_setWorkerCount (count : UInt64) : Quiet h i (h.setWorkerCount count) := by
  rw [setWorkerCount]
  exact ⟨rfl, by split <;> rfl⟩

end QuietOperations

/-! ### Tasks and jobs -/

section Work

variable (h : Hub σ) (i : Nat)

theorem moves_of_phase? {α : Type} {working : Bool} {e : Effect σ α} {p q : Phase}
    (before : h.phase? i = some p) (after : e.hub.phase? i = some q)
    (move : Move h.parser h.stopping working i p (doingsOf (.worker i) e.happened) q) :
    Moves h working i e := by
  rw [Moves, before]
  exact ⟨q, after, move⟩

/-- A job does not go on while it is stuck, or if there is none. -/
theorem moves_of_stuck {p : Phase} (here : h.phase? i = some p) (none : p.unopened = []) {α : Type}
    {answer : α} : Moves h true i { answer := answer, hub := h } :=
  moves_of_phase? h i here here (.stay p (.inr none))

/-- The outcome of a pull is a move of the worker that pulls. -/
theorem moves_afterPull {p : Phase} (here : h.phase? i = some p) (ready : p.isReady)
    (going : h.stopping = false) (t : Ticket) (work : Option Envelope) (q : Queue) :
    Moves h false i (h.afterPull i t work q) := by
  cases work with
  | none =>
      refine moves_of_phase? h i here (q := .pulling t) ?_ (.wait ready going t)
      simp [afterPull, here]
  | some work =>
      refine moves_of_phase? h i here (q := .holding work) ?_ ?_
      · simp [afterPull, here]
      · simpa [afterPull, Happening.source?] using Move.take ready going work

/-- It is none of the others' business. -/
theorem quiet_afterPull {j : Nat} (other : j ≠ i) (t : Ticket) (work : Option Envelope)
    (q : Queue) : Quiet h i (h.afterPull j t work q) := by
  cases work <;> simp [Quiet, afterPull, Happening.source?, other]

theorem moves_endWorker {g : Hub σ} {p : Phase} (same : g.phase? i = h.phase? i)
    (here : h.phase? i = some p) (ready : p.isReady) (stopping : h.stopping = true)
    (name : String) : Moves h false i (g.endWorker i name) := by
  refine moves_of_phase? h i here (q := .stopped) ?_ (.stop ready stopping)
  simp [endWorker, same, here]

theorem quiet_endWorker {g : Hub σ} (same : g.phase? i = h.phase? i) {j : Nat} (other : j ≠ i)
    (name : String) : Quiet h i (g.endWorker j name) := by
  simp [Quiet, endWorker, Happening.source?, same, other]

theorem moves_lookForWork {p : Phase} (here : h.phase? i = some p) (ready : p.isReady)
    (name : String) : Moves h false i (h.lookForWork i name) := by
  rw [lookForWork]
  split
  · next stopping => exact moves_endWorker h i rfl here ready stopping name
  · next going =>
      have going : h.stopping = false := by simpa using going
      exact moves_afterPull { h with next := h.next + 1 } i here ready going ..

theorem quiet_lookForWork {j : Nat} (other : j ≠ i) (name : String) :
    Quiet h i (h.lookForWork j name) := by
  rw [lookForWork]
  split
  · exact quiet_endWorker h i rfl other name
  · exact quiet_afterPull { h with next := h.next + 1 } i other ..

theorem quiet_pollWorker {j : Nat} (other : j ≠ i) : Quiet h i (h.pollWorker j) := by
  rw [pollWorker]
  split
  · split
    · exact quiet_lookForWork h i other _
    · split
      · exact quiet_endWorker h i (phase?_withQueue ..) other _
      · exact quiet_afterPull h i other ..
    · exact (quiet_lookForWork h i other _).logging _
    · simp [Quiet, other]
  · exact ⟨rfl, rfl⟩

theorem moves_pollWorker : Moves h false i (h.pollWorker i) := by
  rw [pollWorker]
  split
  · next w alive found =>
      have here := phase?_of_worker found
      split
      · next fresh =>
          rw [fresh] at here
          exact moves_lookForWork h i here rfl w.name
      · next t pulling =>
          rw [pulling] at here
          split
          · next stopping =>
              exact moves_endWorker h i (phase?_withQueue ..) here rfl stopping w.name
          · next going => exact moves_afterPull h i here rfl (by simpa using going) ..
      · next job finished =>
          rw [finished] at here
          exact (moves_lookForWork h i here rfl w.name).logging (jobLogs w.name job)
      · exact Quiet.moves ⟨by simp [here], rfl⟩
  · exact Quiet.moves ⟨rfl, rfl⟩

/-- A worker that is done with its envelope goes on, or is cut off where nothing runs any more. -/
theorem phase?_finishJob {p : Phase} (here : h.phase? i = some p) :
    ∃ q, (q = .finished .returned ∨ q = .cutOff) ∧
      (h.finishJob i .returned).phase? i = some q := by
  rw [finishJob]
  split
  · exact ⟨.finished .returned, .inl rfl, by simp [here]⟩
  · exact ⟨.cutOff, .inr rfl, by simp [here]⟩

theorem phase?_finishJob_of_ne {j : Nat} (other : j ≠ i) (job : Completion) :
    (h.finishJob j job).phase? i = h.phase? i := by
  rw [finishJob]
  split <;> simp [other]

/-- An envelope without an event is done with at once. -/
theorem moves_of_no_event {α : Type} {e : Effect σ α} {work : Envelope}
    (here : h.phase? i = some (.holding work)) (nothing : work.item.event? h.parser = none)
    (after : e.hub = h.finishJob i .returned) (silent : doingsOf (.worker i) e.happened = []) :
    Moves h true i e := by
  obtain ⟨q, done, finished⟩ := phase?_finishJob h i here
  refine moves_of_phase? h i here (after ▸ finished) ?_
  rw [silent]
  exact .skip rfl nothing done

theorem moves_openEnvelope {work : Envelope} (here : h.phase? i = some (.holding work))
    (name : String) : Moves h true i (h.openEnvelope i name work) := by
  rw [openEnvelope]
  split
  · next e reading =>
      have event : work.item.event? h.parser = some e := by simp [WorkItem.event?, reading]
      have began : Move h.parser h.stopping true i _ _ _ := .begin rfl event
        (h.beginDispatch (.worker i) e).1 (Dispatch.start h.scene.board 0 e).2
      refine moves_of_phase? h i here (phase?_withPhase_self here ..) ?_
      · simpa [beginDispatch, Happening.source?] using began
  · next reading =>
      refine moves_of_no_event h i here (by simp [WorkItem.event?, reading]) rfl ?_
      simp [Happening.source?]
  · next error reading =>
      refine moves_of_no_event h i here (by simp [WorkItem.event?, reading]) rfl ?_
      simp [Happening.source?]
  · next reading =>
      refine moves_of_no_event h i here (by simp [WorkItem.event?, reading]) rfl ?_
      simp [Happening.source?]

theorem quiet_openEnvelope {j : Nat} (other : j ≠ i) (work : Envelope) (name : String) :
    Quiet h i (h.openEnvelope j name work) := by
  rw [openEnvelope]
  split
  · constructor
    · simp [other]
    · simp [beginDispatch, Happening.source?, other]
  all_goals exact ⟨phase?_finishJob_of_ne h i other _, by simp [Happening.source?]⟩

theorem moves_advanceJob (rep : Repertoire σ) : Moves h true i (h.advanceJob rep i) := by
  rw [advanceJob_eq]
  split
  · next missing =>
      have absent : h.phase? i = none := by simp [phase?, missing]
      rw [Moves, absent]
      exact ⟨rfl, rfl⟩
  · next w found =>
      have here := phase?_of_worker found
      split
      · next work holding =>
          rw [holding] at here
          exact moves_openEnvelope h i here w.name
      · next work dispatching =>
          rw [dispatching] at here
          obtain ⟨q, done, finished⟩ := phase?_finishJob h i here
          exact moves_of_phase? h i here finished (.finish work done)
      · next work d _ dispatching =>
          rw [dispatching] at here
          split
          · exact moves_of_stuck h i here rfl
          · next scene rest notes _ =>
              have there : ({ h with scene := scene } : Hub σ).phase? i = _ := here
              refine moves_of_phase? h i here (phase?_withPhase_self there ..) ?_
              simpa using Move.dispatch work d rest notes
      · next notHolding _ _ =>
          refine moves_of_stuck h i here ?_
          cases phase : w.phase with
          | holding work => exact absurd phase (notHolding work)
          | _ => rfl

theorem quiet_advanceJob {j : Nat} (other : j ≠ i) (rep : Repertoire σ) :
    Quiet h i (h.advanceJob rep j) := by
  rw [advanceJob_eq]
  split
  · exact ⟨rfl, rfl⟩
  · split
    · exact quiet_openEnvelope h i other ..
    · exact ⟨phase?_finishJob_of_ne h i other _, rfl⟩
    · split
      · exact ⟨rfl, rfl⟩
      · next scene rest notes _ =>
          constructor
          · exact (phase?_withPhase { h with scene := scene } j i _ _).trans (if_neg other)
          · simp [other]
    · exact ⟨rfl, rfl⟩

theorem moves_passGate : Moves h false i (h.passGate i) := by
  rw [passGate]
  split
  · next work d awake found =>
      have here := phase?_of_worker found
      split
      · next rest notes _ =>
          refine moves_of_phase? h i here (phase?_withPhase_self here ..) ?_
          simpa using Move.dispatch work d rest notes
      · exact Quiet.moves ⟨rfl, rfl⟩
  · exact Quiet.moves ⟨rfl, rfl⟩

theorem quiet_passGate {j : Nat} (other : j ≠ i) : Quiet h i (h.passGate j) := by
  rw [passGate]
  split
  · split
    · simp [Quiet, other]
    · exact ⟨rfl, rfl⟩
  · exact ⟨rfl, rfl⟩

/-- A worker that is at work when everything stops to run finishes its job first. -/
theorem moves_killRuntime : Moves h false i { answer := (), hub := h.killRuntime } := by
  cases found : h.workers[i]? with
  | none => exact Quiet.moves ⟨by simp [phase?, killRuntime, found], rfl⟩
  | some w =>
      have here := phase?_of_worker found
      have after : h.killRuntime.phase? i = some (cutOffWorker w).phase := by
        simp [phase?, killRuntime, found]
      refine moves_of_phase? h i here after ?_
      obtain ⟨name, phase, awake⟩ := w
      cases phase with
      | fresh => exact .cut rfl
      | pulling t => exact .cut rfl
      | finished job => exact .cut rfl
      | _ => exact .stay _ (.inl rfl)

end Work

/-- Only steps that concern worker `i` are any of its business. -/
theorem quiet_step (rep : Repertoire σ) (h : Hub σ) {s : Step} {i : Nat}
    (elsewhere : ¬s.Concerns i) : Quiet h i (h.step rep s) := by
  cases s with
  | submit work => exact quiet_submit h i work
  | pollSubmission t => exact quiet_pollSubmission h i t
  | dropSubmission t => exact quiet_dropSubmission h i t
  | pollWorker j => exact quiet_pollWorker h i elsewhere
  | advanceJob j => exact quiet_advanceJob h i elsewhere rep
  | passGate j => exact quiet_passGate h i elsewhere
  | act a => exact quiet_act h i a
  | tryPull => exact quiet_tryPull h i
  | notify e => exact quiet_notify h i e
  | advanceGuest => exact quiet_advanceGuest h i rep
  | shutdown join => exact quiet_shutdown h i join
  | pollShutdown => exact quiet_pollShutdown h i
  | dropShutdown => exact ⟨rfl, rfl⟩
  | drop => exact ⟨phase?_withStop .., rfl⟩
  | killRuntime => exact absurd trivial elsewhere
  | setWorkerCount n => exact quiet_setWorkerCount h i n

/-- Whatever happens to a hub, each of its workers makes a move. -/
theorem moves_step (rep : Repertoire σ) (h : Hub σ) (s : Step) (i : Nat) :
    Moves h (s.isJobOf i) i (h.step rep s) := by
  by_cases concerned : s.Concerns i
  · cases s with
    | pollWorker j =>
        cases concerned
        exact moves_pollWorker h i
    | advanceJob j =>
        cases concerned
        rw [Step.isJobOf, decide_eq_true rfl]
        exact moves_advanceJob h i rep
    | passGate j =>
        cases concerned
        exact moves_passGate h i
    | killRuntime => exact moves_killRuntime h i
    | _ => exact concerned.elim
  · have idle : s.isJobOf i = false := by
      cases s with
      | advanceJob j => exact decide_eq_false concerned
      | _ => rfl
    exact idle ▸ (quiet_step rep h concerned).moves

/-! ### Workers at rest -/

/-- There are the workers that there were. -/
theorem isSome_phase?_step (rep : Repertoire σ) (h : Hub σ) (s : Step) (i : Nat) :
    ((h.step rep s).hub.phase? i).isSome = (h.phase? i).isSome := by
  rcases (moves_step rep h s i).cases with ⟨before, after, -⟩ | ⟨p, q, before, after, -⟩
  · rw [before, after]
  · rw [before, after]
    rfl

theorem IsFresh.isSome_phase?_run {c : Config} {parser : Parser} {h : Hub σ}
    (fresh : h.IsFresh c parser) (rep : Repertoire σ) (ss : List Step) (i : Nat) :
    ((run rep h ss).1.phase? i).isSome = decide (i < c.workerCount.toNat) := by
  refine run_preserves (P := fun g => (g.phase? i).isSome = decide (i < c.workerCount.toNat))
    (fun g s same => (isSome_phase?_step rep g s i).trans same) ?_ ss
  rw [fresh.phase?_eq]
  split <;> simp_all

theorem Move.rests {parser : Parser} {stopping working : Bool} {i : Nat} {p q : Phase}
    {own : List Happening} (move : Move parser stopping working i p own q) (ended : p.isOver) :
    q = p ∧ own = [] := by
  have busy (ready : p.isReady) : False := by
    cases p <;> simp [Phase.isReady, Phase.isOver] at ready ended
  cases move with
  | stay => exact ⟨rfl, rfl⟩
  | wait ready => exact (busy ready).elim
  | take ready => exact (busy ready).elim
  | stop ready => exact (busy ready).elim
  | cut ready => exact (busy ready).elim
  | _ => cases ended

/-- A worker that has ended, or that there never was, does nothing any more. -/
theorem rests_step (rep : Repertoire σ) {h : Hub σ} {i : Nat}
    (ended : ∀ p, h.phase? i = some p → p.isOver) (s : Step) :
    (h.step rep s).hub.phase? i = h.phase? i ∧
      doingsOf (.worker i) (h.step rep s).happened = [] := by
  rcases (moves_step rep h s i).cases with ⟨before, after, silent⟩ | ⟨p, q, before, after, move⟩
  · exact ⟨after.trans before.symm, silent⟩
  · obtain ⟨rfl, silent⟩ := move.rests (ended p before)
    exact ⟨after.trans before.symm, silent⟩

theorem rests_run (rep : Repertoire σ) {h : Hub σ} {i : Nat}
    (ended : ∀ p, h.phase? i = some p → p.isOver) (ss : List Step) :
    (run rep h ss).1.phase? i = h.phase? i ∧ doingsOf (.worker i) (run rep h ss).2 = [] := by
  induction ss generalizing h with
  | nil => exact ⟨rfl, rfl⟩
  | cons s ss ih =>
      obtain ⟨same, silent⟩ := rests_step rep ended s
      obtain ⟨sameLater, silentLater⟩ := ih (h := (h.step rep s).hub) (by rwa [same])
      rw [hub_run_cons, history_run_cons, doingsOf_append, silent, silentLater]
      exact ⟨sameLater.trans same, rfl⟩

end Hub

end ReviewHub
