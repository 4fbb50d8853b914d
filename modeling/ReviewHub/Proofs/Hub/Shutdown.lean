import ReviewHub.Proofs.Hub.Delivery

/-!
# Shutting down

The signal to stop is given once and for all, by a shutdown or by dropping the hub. From then on no
worker takes an envelope: each finishes the one it has, if any, and what is in the queue stays there
in order until somebody outside takes it. A shutdown that waits for the workers keeps a list of
those it still waits for. The invariant behind its answer is that, unless a failure was noted, every
worker off that list has stopped; a stopped worker does nothing any more.
-/

namespace ReviewHub.Hub

variable {σ : Type}

/-! ### The signal to stop -/

/-- All that a step can do to the life of a hub, the signal and the workers it owns. -/
theorem life_step_cases (rep : Repertoire σ) (h : Hub σ) (s : Step) :
    ((h.step rep s).hub.life = h.life ∧ (h.step rep s).hub.handles = h.handles ∧
        ((h.step rep s).hub.stopping = h.stopping ∨
          s = .drop ∧ (h.step rep s).hub.stopping = true)) ∨
      (h.life = .running ∧ (∃ join, s = .shutdown join) ∧
        (h.step rep s).hub.life = .shutDown ∧ (h.step rep s).hub.handles = [] ∧
        (h.step rep s).hub.stopping = true) := by
  by_cases calm : s.isCalm
  · have same := control_step rep h calm
    exact .inl ⟨congrArg Control.life same, congrArg Control.handles same,
      .inl (congrArg Control.stopping same)⟩
  · cases s with
    | shutdown join =>
        cases life : h.life with
        | running =>
            obtain ⟨joining, logs, hub, -⟩ := shutdown_frame_of_running life join
            rw [step, hub_answering, hub]
            exact .inr ⟨rfl, ⟨join, rfl⟩, rfl, rfl, rfl⟩
        | shutDown =>
            rw [step, hub_answering, shutdown_of_shutDown life]
            exact .inl ⟨life, rfl, .inl rfl⟩
    | pollShutdown =>
        obtain ⟨joining, logs, hub, -⟩ := pollShutdown_frame h
        rw [step, hub_answering, hub]
        exact .inl ⟨rfl, rfl, .inl rfl⟩
    | dropShutdown => exact .inl ⟨rfl, rfl, .inl rfl⟩
    | drop => exact .inl ⟨rfl, rfl, .inr ⟨rfl, rfl⟩⟩
    | _ => exact absurd rfl calm

theorem life_run (rep : Repertoire σ) {h : Hub σ} (ended : h.life = .shutDown) (ss : List Step) :
    (run rep h ss).1.life = .shutDown := by
  refine run_preserves (P := fun g => g.life = .shutDown) ?_ ended ss
  intro g s shutDown
  rcases life_step_cases rep g s with ⟨same, -⟩ | ⟨-, -, shut, -⟩
  · exact same.trans shutDown
  · exact shut

theorem stopping_step (rep : Repertoire σ) {h : Hub σ} (stopping : h.stopping = true) (s : Step) :
    (h.step rep s).hub.stopping = true := by
  rcases life_step_cases rep h s with ⟨-, -, same | ⟨-, signal⟩⟩ | ⟨-, -, -, -, signal⟩
  · exact same.trans stopping
  · exact signal
  · exact signal

theorem stopping_run (rep : Repertoire σ) {h : Hub σ} (stopping : h.stopping = true)
    (ss : List Step) : (run rep h ss).1.stopping = true :=
  run_preserves (P := fun g => g.stopping = true) (fun _ s before => stopping_step rep before s)
    stopping ss

theorem stopping_of_drop (rep : Repertoire σ) {h : Hub σ} {ss : List Step} (dropped : .drop ∈ ss) :
    (run rep h ss).1.stopping = true := by
  obtain ⟨before, after, rfl⟩ := List.append_of_mem dropped
  rw [(run_append rep h before (.drop :: after)).1, hub_run_cons]
  exact stopping_run rep rfl after

/-- The signal comes from a shutdown or from dropping the hub. -/
theorem shutDown_or_drop_of_stopping (rep : Repertoire σ) {h : Hub σ} (going : h.stopping = false)
    (ss : List Step) (stopping : (run rep h ss).1.stopping = true) :
    (run rep h ss).1.life = .shutDown ∨ .drop ∈ ss := by
  induction ss generalizing h with
  | nil => cases going.symm.trans stopping
  | cons s ss ih =>
      rw [hub_run_cons] at stopping ⊢
      rcases life_step_cases rep h s with ⟨-, -, same | ⟨rfl, -⟩⟩ | ⟨-, -, shut, -⟩
      · rcases ih (same.trans going) stopping with ended | dropped
        · exact .inl ended
        · exact .inr (List.mem_cons_of_mem s dropped)
      · exact .inr List.mem_cons_self
      · exact .inl (life_run rep shut ss)

/-! ### After the signal -/

/-- Once it is to stop, a worker takes nothing and keeps what it has until it is done. -/
theorem Move.of_stopping {parser : Parser} {working : Bool} {i : Nat} {p q : Phase}
    {own : List Happening} (move : Move parser true working i p own q) :
    takenIn own = [] ∧ (q.held? = none ∨ q.held? = p.held?) := by
  cases move with
  | stay => exact ⟨rfl, .inr rfl⟩
  | wait _ going => cases going
  | take _ going => cases going
  | stop => exact ⟨rfl, .inl rfl⟩
  | cut => exact ⟨rfl, .inl rfl⟩
  | begin => exact ⟨by simp [Happening.takings], .inr rfl⟩
  | skip _ _ done => exact ⟨rfl, .inl (by rcases done with rfl | rfl <;> rfl)⟩
  | dispatch => exact ⟨takenIn_dispatched _, .inr rfl⟩
  | finish _ done => exact ⟨rfl, .inl (by rcases done with rfl | rfl <;> rfl)⟩

theorem quiescent_step (rep : Repertoire σ) {h : Hub σ} (stopping : h.stopping = true) (s : Step)
    (i : Nat) :
    takenBy (.worker i) (h.step rep s).happened = [] ∧
      ((h.step rep s).hub.held? i = none ∨ (h.step rep s).hub.held? i = h.held? i) := by
  rw [takenBy_eq_doings, held?, held?]
  rcases (moves_step rep h s i).cases with ⟨before, after, silent⟩ | ⟨p, q, before, after, move⟩
  · rw [silent, after]
    exact ⟨rfl, .inl rfl⟩
  · rw [stopping] at move
    obtain ⟨nothing, kept⟩ := move.of_stopping
    rw [nothing, before, after]
    exact ⟨rfl, kept⟩

theorem quiescent_run (rep : Repertoire σ) {h : Hub σ} (stopping : h.stopping = true)
    (ss : List Step) (i : Nat) :
    takenBy (.worker i) (run rep h ss).2 = [] ∧
      ((run rep h ss).1.held? i = none ∨ (run rep h ss).1.held? i = h.held? i) := by
  induction ss generalizing h with
  | nil => exact ⟨rfl, .inr rfl⟩
  | cons s ss ih =>
      obtain ⟨nothing, kept⟩ := quiescent_step rep stopping s i
      obtain ⟨nothingLater, keptLater⟩ := ih (stopping_step rep stopping s)
      rw [hub_run_cons, history_run_cons, takenBy_append, nothing, nothingLater]
      refine ⟨rfl, ?_⟩
      rcases keptLater with done | same
      · exact .inl done
      · rw [same]
        exact kept

/-- What is in the queue stays there in order until it is taken from outside. -/
theorem items_run_of_stopping (rep : Repertoire σ) {h : Hub σ} (stopping : h.stopping = true)
    (ss : List Step) :
    h.queue.items ++ acceptedIn (run rep h ss).2 =
      takenBy .guest (run rep h ss).2 ++ (run rep h ss).1.queue.items := by
  have others (source : Source) (worker : source ≠ .guest) :
      shareOf source (takenIn (run rep h ss).2) = [] := by
    cases source with
    | guest => exact absurd rfl worker
    | worker i => exact (quiescent_run rep stopping ss i).1
  rw [balances_run, takenBy, shareOf_eq_map_snd others]

/-! ### Waiting for the workers -/

/-- Unless there was a failure, a worker that is no longer waited for has stopped. -/
theorem joinWorkers_sound (workers : List Worker) (failure : Option Error) (is : List Nat)
    (fine : (joinWorkers workers failure is).1.failure = none) :
    failure = none ∧ ∀ i ∈ is, i ∈ (joinWorkers workers failure is).1.remaining ∨
      ∀ w, workers[i]? = some w → w.phase = .stopped := by
  induction is generalizing failure with
  | nil => exact ⟨fine, by simp⟩
  | cons i is ih =>
      rw [joinWorkers] at fine ⊢
      split at fine
      · next missing =>
          obtain ⟨before, rest⟩ := ih failure fine
          refine ⟨before, ?_⟩
          intro j member
          rcases List.mem_cons.mp member with rfl | later
          · right
            intro w found
            cases missing.symm.trans found
          · exact rest j later
      · next w found =>
          split at fine
          · obtain ⟨before, -⟩ := ih _ fine
            cases failure <;> cases before
          · next stopped =>
              obtain ⟨before, rest⟩ := ih failure fine
              refine ⟨before, ?_⟩
              intro j member
              rcases List.mem_cons.mp member with rfl | later
              · right
                intro u same
                exact Option.some.inj (found.symm.trans same) ▸ stopped
              · exact rest j later
          · exact ⟨fine, fun j member => .inl member⟩

/-- While a shutdown waits for workers and no failure was noted, each of the first `n` workers has
stopped or is still waited for. -/
def Joins (n : Nat) (h : Hub σ) : Prop :=
  ∀ j, h.joining = some j → h.life = .shutDown ∧
    (j.failure = none → ∀ i < n, i ∈ j.remaining ∨ h.phase? i = some .stopped)

/-- A shutdown that answers that all is well has seen all workers stop. -/
theorem joins_pollShutdown {n : Nat} {h : Hub σ} (present : ∀ i < n, (h.phase? i).isSome)
    (joins : Joins n h) :
    Joins n h.pollShutdown.hub ∧
      (h.pollShutdown.answer = some .ok → ∀ i < n, h.phase? i = some .stopped) := by
  rw [pollShutdown]
  split
  · refine ⟨joins, ?_⟩
    intro fine
    cases fine
  · next j waiting =>
      obtain ⟨ended, joins⟩ := joins j waiting
      have sound (fine : (joinWorkers h.workers j.failure j.remaining).1.failure = none) (i : Nat)
          (below : i < n) : i ∈ (joinWorkers h.workers j.failure j.remaining).1.remaining ∨
            h.phase? i = some .stopped := by
        obtain ⟨before, rest⟩ := joinWorkers_sound _ _ _ fine
        rcases joins before i below with member | stopped
        · obtain ⟨p, found⟩ := Option.isSome_iff_exists.mp (present i below)
          obtain ⟨w, worker, rfl⟩ := worker_of_phase? found
          refine (rest i member).imp_right ?_
          intro stopped
          rw [found, stopped w worker]
        · exact .inr stopped
      simp only
      split
      · next nobody =>
          refine ⟨?_, ?_⟩
          · intro k none
            cases none
          · intro fine i below
            split at fine
            · next noFailure =>
                refine (sound noFailure i below).resolve_left ?_
                intro member
                rw [nobody] at member
                cases member
            · cases fine
      · refine ⟨?_, ?_⟩
        · intro k same
          cases same
          exact ⟨ended, sound⟩
        · intro fine
          cases fine

theorem isSome_answer_pollShutdown {h : Hub σ} {j : Joining} (waiting : h.joining = some j) :
    h.pollShutdown.answer.isSome := by
  rw [pollShutdown, waiting]
  simp only
  split <;> rfl

theorem isOver_of_stopped {h : Hub σ} {i : Nat} (stopped : h.phase? i = some .stopped) :
    ∀ p, h.phase? i = some p → p.isOver := by
  intro p found
  cases stopped.symm.trans found
  rfl

/-- What is so of a hub that was built with `n` workers, at any time. -/
structure Watched (n : Nat) (h : Hub σ) : Prop where
  present : ∀ i < n, (h.phase? i).isSome
  handles_eq : h.handles = match h.life with | .running => List.range n | .shutDown => []
  stopping_of_shutDown : h.life = .shutDown → h.stopping = true
  joins : Joins n h

theorem IsFresh.watched {c : Config} {parser : Parser} {h : Hub σ} (fresh : h.IsFresh c parser) :
    h.Watched c.workerCount.toNat where
  present i below := by rw [fresh.phase?_eq, if_pos below]; rfl
  handles_eq := by rw [fresh.handles_eq, fresh.life_eq]
  stopping_of_shutDown ended := nomatch ended.symm.trans fresh.life_eq
  joins j waiting := nomatch waiting.symm.trans fresh.joining_eq

section Watched

variable (rep : Repertoire σ) {n : Nat} {h : Hub σ} (watched : h.Watched n)

include watched

/-- The first look of a shutdown that waits. -/
theorem joins_shutdown (running : h.life = .running) :
    Joins n (h.shutdown true).hub ∧
      ((h.shutdown true).answer = .ok → ∀ i < n, h.phase? i = some .stopped) := by
  have joins : Joins n h.leaving := by
    intro j waiting
    cases waiting
    refine ⟨rfl, fun _ i below => .inl ?_⟩
    rw [watched.handles_eq, running]
    exact List.mem_range.mpr below
  have look := joins_pollShutdown
    (fun i below => (phase?_leaving h i).symm ▸ watched.present i below) joins
  obtain ⟨answer, answered⟩ := Option.isSome_iff_exists.mp
    (isSome_answer_pollShutdown (show h.leaving.joining = some _ from rfl))
  rw [shutdown_of_running running, answered]
  refine ⟨look.1, fun fine i below => (phase?_leaving h i).symm.trans (look.2 ?_ i below)⟩
  rw [answered]
  exact congrArg some fine

theorem joins_step (s : Step) : Joins n (h.step rep s).hub := by
  by_cases calm : s.isCalm
  · have same := control_step rep h calm
    intro j waiting
    obtain ⟨ended, joins⟩ := watched.joins j ((congrArg Control.joining same).symm.trans waiting)
    refine ⟨(congrArg Control.life same).trans ended, ?_⟩
    intro fine i below
    refine (joins fine i below).imp_right ?_
    intro stopped
    exact (rests_step rep (isOver_of_stopped stopped) s).1.trans stopped
  · cases s with
    | shutdown join =>
        rw [step, hub_answering]
        cases life : h.life with
        | running =>
            cases join with
            | true => exact (joins_shutdown watched life).1
            | false =>
                rw [shutdown, life]
                intro j waiting
                cases life.symm.trans (watched.joins j waiting).1
        | shutDown =>
            rw [shutdown_of_shutDown life]
            exact watched.joins
    | pollShutdown => exact (joins_pollShutdown watched.present watched.joins).1
    | dropShutdown =>
        intro j none
        cases none
    | drop =>
        intro j waiting
        obtain ⟨ended, joins⟩ := watched.joins j waiting
        refine ⟨ended, ?_⟩
        intro fine i below
        refine (joins fine i below).imp_right ?_
        intro stopped
        exact (phase?_withStop ..).trans stopped
    | _ => exact absurd rfl calm

theorem watched_step (s : Step) : (h.step rep s).hub.Watched n := by
  refine ⟨?_, ?_, ?_, joins_step rep watched s⟩
  · intro i below
    rw [isSome_phase?_step]
    exact watched.present i below
  · rcases life_step_cases rep h s with ⟨life, handles, -⟩ | ⟨-, -, life, handles, -⟩
    · rw [handles, life]
      exact watched.handles_eq
    · rw [handles, life]
  · intro ended
    rcases life_step_cases rep h s with ⟨life, -, -⟩ | ⟨-, -, -, -, signal⟩
    · exact stopping_step rep (watched.stopping_of_shutDown (life.symm.trans ended)) s
    · exact signal

theorem watched_run (ss : List Step) : (run rep h ss).1.Watched n :=
  run_preserves (P := Watched n) (fun _ s before => watched_step rep before s) watched ss

/-- The shutdown that waits for the workers answers that all is well only when all have stopped. -/
theorem stopped_of_joined {s : Step}
    (call : s = .shutdown true ∧ h.life = .running ∨ s = .pollShutdown)
    (fine : (h.step rep s).answer = .progress .ok) (i : Nat) (below : i < n) :
    (h.step rep s).hub.phase? i = some .stopped := by
  rcases call with ⟨rfl, running⟩ | rfl
  · refine (quiet_shutdown h i true).1.trans ((joins_shutdown watched running).2 ?_ i below)
    exact Answer.progress.inj fine
  · refine (quiet_pollShutdown h i).1.trans
      ((joins_pollShutdown watched.present watched.joins).2 ?_ i below)
    rw [step, answer_answering] at fine
    cases answer : h.pollShutdown.answer with
    | none =>
        rw [answer] at fine
        cases fine
    | some progress =>
        rw [answer] at fine
        exact congrArg some (Answer.progress.inj fine)

end Watched

/-! ### The law -/

/-- Shutting a hub down is final, and nothing is begun after it. A hub that has been shut down stays
so, and it owns the workers that it was built with until then and none after. From the moment that
it has been shut down or dropped, no worker takes an envelope: a worker opens at most the one that
it had unopened, and keeps what it has until it is done. What is in the queue stays there in order
until it is taken from outside. And once the shutdown that waits for the workers answers that all is
well, every worker has stopped and no worker does anything any more. -/
theorem shutdown_final_and_quiescent {c : Config} {parser : Parser} {memory : σ}
    {start : Hub σ} (built : (build true c parser memory).outcome = .ok start)
    (rep : Repertoire σ) (past : List Step) :
    let h := (run rep start past).1
    h.runningWorkers = (match h.life with | .running => c.workerCount.toNat | .shutDown => 0) ∧
      (∀ ss, h.life = .shutDown → (run rep h ss).1.life = .shutDown) ∧
      (h.life = .shutDown ∨ .drop ∈ past → ∀ ss,
        (∀ i, takenBy (.worker i) (run rep h ss).2 = [] ∧
          (∃ opened, h.unopened i = opened ++ (run rep h ss).1.unopened i ∧
            notifiedBy (.worker i) (run rep h ss).2 = eventsOf parser opened) ∧
          ((run rep h ss).1.held? i = none ∨ (run rep h ss).1.held? i = h.held? i)) ∧
        h.queue.items ++ acceptedIn (run rep h ss).2 =
          takenBy .guest (run rep h ss).2 ++ (run rep h ss).1.queue.items) ∧
      ∀ s, s = .shutdown true ∧ h.life = .running ∨ s = .pollShutdown →
        (h.step rep s).answer = .progress .ok →
        (∀ i < c.workerCount.toNat, (h.step rep s).hub.phase? i = some .stopped) ∧
        ∀ ss i, doingsOf (.worker i) (run rep (h.step rep s).hub ss).2 = [] := by
  have fresh := isFresh_of_build built
  intro h
  have watched : h.Watched c.workerCount.toNat := watched_run rep fresh.watched past
  have parser_eq : h.parser = parser := (parser_run rep start past).trans fresh.parser_eq
  refine ⟨?_, ?_, ?_, ?_⟩
  · rw [runningWorkers, watched.handles_eq]
    cases h.life with
    | running => exact List.length_range
    | shutDown => rfl
  · intro ss ended
    exact life_run rep ended ss
  · intro ended ss
    have stopping : h.stopping = true := by
      rcases ended with ended | dropped
      · exact watched.stopping_of_shutDown ended
      · exact stopping_of_drop rep dropped
    refine ⟨?_, items_run_of_stopping rep stopping ss⟩
    intro i
    obtain ⟨nothing, kept⟩ := quiescent_run rep stopping ss i
    obtain ⟨account, notified⟩ := opens_run rep h ss i
    rw [nothing, List.append_nil] at account
    exact ⟨nothing, ⟨_, account, parser_eq ▸ notified⟩, kept⟩
  · intro s call fine
    have stopped := stopped_of_joined rep watched call fine
    refine ⟨stopped, ?_⟩
    intro ss i
    refine (rests_run rep ?_ ss).2
    intro p found
    have present : ((h.step rep s).hub.phase? i).isSome = decide (i < c.workerCount.toNat) :=
      (isSome_phase?_step rep h s i).trans (fresh.isSome_phase?_run rep past i)
    rw [found] at present
    exact isOver_of_stopped (stopped i (of_decide_eq_true present.symm)) p found

/-- The shutdown finds the worker with an envelope and another one in the queue. -/
def Small.closing : List Step :=
  [.submit eventful, .pollWorker 0, .submit eventless, .shutdown true, .advanceJob 0,
    .advanceJob 0, .advanceJob 0, .pollWorker 0]

theorem shutdown_final_and_quiescent_closing :
    let h := (run Small.repertoire Small.hub Small.closing).1
    h.life = .shutDown ∧ h.runningWorkers = 0 ∧
      (run Small.repertoire h [.tryPull]).1.life = .shutDown ∧
      takenBy (.worker 0) (run Small.repertoire h [.pollWorker 0]).2 = [] ∧
      takenBy .guest (run Small.repertoire h [.tryPull]).2 ++
        (run Small.repertoire h [.tryPull]).1.queue.items = [Small.eventless] ∧
      (h.step Small.repertoire .pollShutdown).answer = .progress .ok ∧
      (h.step Small.repertoire .pollShutdown).hub.phase? 0 = some .stopped := by
  intro h
  obtain ⟨owned, final, quiescent, joined⟩ :=
    shutdown_final_and_quiescent Small.built Small.repertoire Small.closing
  have ended : h.life = .shutDown := rfl
  exact ⟨ended, owned, final _ ended, ((quiescent (.inl ended) _).1 0).1,
    (quiescent (.inl ended) [.tryPull]).2.symm.trans rfl, rfl,
    (joined _ (.inr rfl) rfl).1 0 Nat.zero_lt_one⟩

end ReviewHub.Hub
