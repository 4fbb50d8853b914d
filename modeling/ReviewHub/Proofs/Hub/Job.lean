import ReviewHub.Proofs.Dispatch.Progress
import ReviewHub.Proofs.Hub.Delivery

/-!
# The job of a worker

A job is followed from the opening of its envelope to its end. When the envelope holds an event the
dispatch of it begins with the listeners that are registered then, or with none if the event is
ignored. From then on the worker does nothing but what its dispatch notes, however the steps of the
job are mixed with those of others.
-/

namespace ReviewHub.Hub

variable {σ : Type} {rep : Repertoire σ} {h : Hub σ} {i : Nat} {work : Envelope} {d : Dispatch}

/-! ### Beginning -/

/-- A dispatch that is begun from outside begins as that of a worker does. -/
theorem guests_notify (h : Hub σ) (e : Event) :
    (h.notify e).hub.guests = h.guests ++ [h.snapshot e] := by
  rw [← beginDispatch_eq h .guest]
  rfl

/-! ### Going on -/

theorem quiet_pollWorker_of_dispatching (here : h.phase? i = some (.dispatching work d)) :
    Quiet h i (h.pollWorker i) := by
  obtain ⟨w, found, dispatching⟩ := worker_of_phase? here
  rw [pollWorker]
  split
  · next u alive same =>
      cases found.symm.trans same
      rw [dispatching]
      exact ⟨(phase?_withPhase_self here ..).trans here.symm, rfl⟩
  · exact ⟨rfl, rfl⟩

theorem quiet_killRuntime_of_dispatching (here : h.phase? i = some (.dispatching work d)) :
    h.killRuntime.phase? i = h.phase? i := by
  obtain ⟨w, found, dispatching⟩ := worker_of_phase? here
  have same : (cutOffWorker w).phase = w.phase := by simp only [cutOffWorker, dispatching]
  simp [phase?, killRuntime, found, same]

/-- A dispatch goes on in steps of its job and at gates; all other steps leave it alone. -/
theorem quiet_of_dispatching (rep : Repertoire σ) (here : h.phase? i = some (.dispatching work d))
    {s : Step} (job : s ≠ .advanceJob i) (gate : s ≠ .passGate i) : Quiet h i (h.step rep s) := by
  by_cases concerned : s.Concerns i
  · cases s with
    | pollWorker j =>
        cases concerned
        exact quiet_pollWorker_of_dispatching here
    | advanceJob j => exact absurd (concerned ▸ rfl) job
    | passGate j => exact absurd (concerned ▸ rfl) gate
    | killRuntime => exact ⟨quiet_killRuntime_of_dispatching here, rfl⟩
    | _ => exact concerned.elim
  · exact quiet_step rep h concerned

/-- What one step does to a worker with a dispatch: this goes on with some notes, or it is over and
the job is done. -/
inductive Onward (rep : Repertoire σ) (h : Hub σ) (i : Nat) (work : Envelope) (d : Dispatch)
    (e : Effect σ Answer) : Prop where
  | goes {rest : Dispatch} {notes : List Note}
      (after : e.hub.phase? i = some (.dispatching work rest))
      (doings : doingsOf (.worker i) e.happened = notes.map (.dispatched (.worker i)))
      (proceeds : Dispatch.Proceeds rep d notes rest) : Onward rep h i work d e
  | done (empty : d = []) (doings : doingsOf (.worker i) e.happened = [])
      (after : e.hub.phase? i = some (.finished .returned) ∨ e.hub.phase? i = some .cutOff) :
      Onward rep h i work d e

theorem Onward.of_quiet {e : Effect σ Answer} (here : h.phase? i = some (.dispatching work d))
    (quiet : Quiet h i e) : Onward rep h i work d e := by
  obtain ⟨same, silent⟩ := quiet
  refine .goes (same.trans here) ?_ (.refl d)
  rw [silent, List.map_nil]

theorem onward_advanceJob (rep : Repertoire σ) (here : h.phase? i = some (.dispatching work d)) :
    Onward rep h i work d (h.step rep (.advanceJob i)) := by
  obtain ⟨w, found, dispatching⟩ := worker_of_phase? here
  rw [step, advanceJob_eq, found]
  simp only [dispatching]
  cases d with
  | nil =>
      obtain ⟨q, done, finished⟩ := phase?_finishJob h i here
      refine .done rfl rfl ?_
      rw [hub_answering, finished]
      simpa using done
  | cons inner outer =>
      simp only
      split
      · exact .of_quiet here ⟨rfl, rfl⟩
      · next scene rest notes first =>
          have there : ({ h with scene := scene } : Hub σ).phase? i = _ := here
          refine .goes (phase?_withPhase_self there ..) ?_ (.of_step first)
          simp

theorem onward_passGate (rep : Repertoire σ) (here : h.phase? i = some (.dispatching work d)) :
    Onward rep h i work d (h.step rep (.passGate i)) := by
  obtain ⟨⟨name, phase, awake⟩, found, dispatching⟩ := worker_of_phase? here
  subst dispatching
  rw [step, passGate, found]
  simp only
  split
  · next rest notes first =>
      refine .goes (phase?_withPhase_self here ..) ?_ (.of_passGate? first)
      simp
  · exact .of_quiet here ⟨rfl, rfl⟩

theorem onward_step (rep : Repertoire σ) (here : h.phase? i = some (.dispatching work d))
    (s : Step) : Onward rep h i work d (h.step rep s) := by
  by_cases job : s = .advanceJob i
  · exact job ▸ onward_advanceJob rep here
  · by_cases gate : s = .passGate i
    · exact gate ▸ onward_passGate rep here
    · exact .of_quiet here (quiet_of_dispatching rep here job gate)

/-! ### Up to the end -/

/-- In a run, up to the end of the job with `work` if the run comes to that, worker `i` does what
the notes say, and `d` is what is left of its dispatch. -/
def Performs (rep : Repertoire σ) (h : Hub σ) (ss : List Step) (i : Nat) (work : Envelope)
    (notes : List Note) (d : Dispatch) : Prop :=
  ∃ first rest, ss = first ++ rest ∧
    doingsOf (.worker i) (run rep h first).2 = notes.map (.dispatched (.worker i)) ∧
    (rest = [] ∧ (run rep h first).1.phase? i = some (.dispatching work d) ∨
      d = [] ∧ ((run rep h first).1.phase? i = some (.finished .returned) ∨
        (run rep h first).1.phase? i = some .cutOff))

/-- What a worker does up to the end of its job is what its dispatch comes to. -/
theorem performs_run (rep : Repertoire σ) (here : h.phase? i = some (.dispatching work d))
    (ss : List Step) :
    ∃ notes rest, Performs rep h ss i work notes rest ∧ Dispatch.Proceeds rep d notes rest := by
  induction ss generalizing h d with
  | nil => exact ⟨[], d, ⟨[], [], rfl, rfl, .inl ⟨rfl, here⟩⟩, .refl d⟩
  | cons s ss ih =>
      cases onward_step rep here s with
      | done empty doings after =>
          subst empty
          refine ⟨[], [], ⟨[s], ss, rfl, ?_, .inr ⟨rfl, after⟩⟩, .refl []⟩
          rw [history_run_cons, doingsOf_append, doings]
          rfl
      | goes after doings proceeds =>
          obtain ⟨more, left, ⟨first, rest, rfl, later, ends⟩, further⟩ := ih after
          refine ⟨_, left, ⟨s :: first, rest, rfl, ?_, ends⟩, proceeds.trans further⟩
          rw [history_run_cons, doingsOf_append, doings, later, List.map_append]

end ReviewHub.Hub
