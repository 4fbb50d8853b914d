import ReviewHub.Proofs.Hub.Outside

/-!
# Tickets of workers

A worker that waits for work has a pull in line, and no two workers wait under one ticket: a ticket
is given when a pull begins, never to be given again, and a pull leaves the line only when it is
served or when whoever waits under it ends or gives it up.
-/

namespace ReviewHub.Hub

variable {σ : Type}

/-- The tickets of pulls have been given, and workers wait in line under tickets of their own. -/
structure Ticketed (h : Hub σ) : Prop where
  given : ∀ t ∈ h.queue.pulls, t < h.next
  inLine : ∀ i t, h.phase? i = some (.pulling t) → t ∈ h.queue.pulls
  apart : ∀ i j t, h.phase? i = some (.pulling t) → h.phase? j = some (.pulling t) → i = j

theorem IsFresh.ticketed {c : Config} {parser : Parser} {h : Hub σ} (fresh : h.IsFresh c parser)
    (nobody : h.queue.pulls = []) : h.Ticketed := by
  have notPulling (i : Nat) (t : Ticket) : h.phase? i ≠ some (.pulling t) := by
    rw [fresh.phase?_eq]
    split <;> simp
  constructor
  · intro t member
    rw [nobody] at member
    cases member
  · intro i t pulling
    exact absurd pulling (notPulling i t)
  · intro i j t pulling
    exact absurd pulling (notPulling i t)

/-! ### Whose pulls go on -/

section Phases

variable {h : Hub σ} {i j : Nat} {t : Ticket}

theorem pulling_of_withPhase {phase : Phase} {awake : Bool}
    (pulling : (h.withPhase i phase awake).phase? j = some (.pulling t))
    (other : ∀ t, phase ≠ .pulling t) :
    h.phase? j = some (.pulling t) := by
  rw [phase?_withPhase] at pulling
  split at pulling
  · obtain ⟨p, -, same⟩ := Option.map_eq_some_iff.mp pulling
    exact absurd same (other t)
  · exact pulling

theorem pulling_of_finishJob {job : Completion}
    (pulling : (h.finishJob i job).phase? j = some (.pulling t)) :
    h.phase? j = some (.pulling t) := by
  rw [finishJob] at pulling
  split at pulling
  · exact pulling_of_withPhase pulling (by simp)
  · exact pulling_of_withPhase pulling (by simp)

theorem pulling_of_advanceJob {rep : Repertoire σ}
    (pulling : (h.advanceJob rep i).hub.phase? j = some (.pulling t)) :
    h.phase? j = some (.pulling t) := by
  rw [advanceJob_eq] at pulling
  split at pulling
  · exact pulling
  · split at pulling
    · rw [openEnvelope] at pulling
      split at pulling
      · exact pulling_of_withPhase pulling (by simp)
      all_goals exact pulling_of_finishJob pulling
    · exact pulling_of_finishJob pulling
    · split at pulling
      · exact pulling
      · next scene rest notes _ =>
          exact pulling_of_withPhase (h := { h with scene := scene }) pulling (by simp)
    · exact pulling

theorem pulling_of_passGate (pulling : (h.passGate i).hub.phase? j = some (.pulling t)) :
    h.phase? j = some (.pulling t) := by
  rw [passGate] at pulling
  split at pulling
  · split at pulling
    · exact pulling_of_withPhase pulling (by simp)
    · exact pulling
  · exact pulling

/-- Nobody waits when there is nothing to run on. -/
theorem not_pulling_killRuntime (h : Hub σ) (i : Nat) (t : Ticket) :
    h.killRuntime.phase? i ≠ some (.pulling t) := by
  intro pulling
  obtain ⟨w, found, phase⟩ := worker_of_phase? pulling
  obtain ⟨u, -, rfl⟩ := List.mem_map.mp (List.mem_of_getElem? found)
  obtain ⟨name, before, awake⟩ := u
  cases before <;> cases phase

end Phases

/-! ### Steps -/

section Steps

variable {h g : Hub σ} {i : Nat} (ticketed : h.Ticketed)

include ticketed

/-- Where no worker has begun to wait, all is well if those that wait are still in line. -/
theorem Ticketed.of_remaining (given : ∀ t ∈ g.queue.pulls, t < g.next)
    (remaining : ∀ i t, g.phase? i = some (.pulling t) →
      h.phase? i = some (.pulling t) ∧ t ∈ g.queue.pulls) : g.Ticketed := by
  constructor
  · exact given
  · intro i t pulling
    exact (remaining i t pulling).2
  · intro i j t one other
    exact ticketed.apart i j t (remaining i t one).1 (remaining j t other).1

/-- What does not concern pulls leaves the tickets of workers alone. -/
theorem Ticketed.of_same (pulls : g.queue.pulls = h.queue.pulls) (next : h.next ≤ g.next)
    (phases : ∀ i t, g.phase? i = some (.pulling t) → h.phase? i = some (.pulling t)) :
    g.Ticketed := by
  refine ticketed.of_remaining ?_ ?_
  · intro t member
    rw [pulls] at member
    exact Nat.lt_of_lt_of_le (ticketed.given t member) next
  · intro i t pulling
    have before := phases i t pulling
    rw [pulls]
    exact ⟨before, ticketed.inLine i t before⟩

/-- Worker `i` has looked for work under the ticket. -/
theorem ticketed_afterPull {t : Ticket} {work : Option Envelope} {q : Queue}
    (phases : ∀ j, g.phase? j = h.phase? j) (given : ∀ u ∈ q.pulls, u < g.next)
    (mine : work = none → t ∈ q.pulls)
    (others : ∀ j u, j ≠ i → h.phase? j = some (.pulling u) → u ∈ q.pulls ∧ u ≠ t) :
    (g.afterPull i t work q).hub.Ticketed := by
  have pulling {j : Nat} {u : Ticket}
      (after : (g.afterPull i t work q).hub.phase? j = some (.pulling u)) :
      j = i ∧ work = none ∧ u = t ∨ j ≠ i ∧ h.phase? j = some (.pulling u) := by
    by_cases here : j = i
    · subst here
      cases work with
      | none =>
          obtain ⟨p, -, same⟩ : ∃ p, g.phase? j = some p ∧ Phase.pulling t = .pulling u := by
            simpa [afterPull] using after
          exact .inl ⟨rfl, rfl, (Phase.pulling.inj same).symm⟩
      | some work => simp [afterPull] at after
    · have elsewhere : ¬i = j := fun same => here same.symm
      rw [← phases]
      cases work <;> exact .inr ⟨here, by simpa [afterPull, elsewhere] using after⟩
  constructor
  · intro u member
    rw [queue_afterPull] at member
    have below := given u member
    cases work <;> simpa [afterPull, withPhase] using below
  · intro j u after
    rw [queue_afterPull]
    rcases pulling after with ⟨-, waits, rfl⟩ | ⟨other, before⟩
    · exact mine waits
    · exact (others j u other before).1
  · intro j k u one other
    rcases pulling one with ⟨rfl, -, rfl⟩ | ⟨notJ, before⟩
    · rcases pulling other with ⟨rfl, -, -⟩ | ⟨notK, before⟩
      · rfl
      · exact absurd rfl (others k _ notK before).2
    · rcases pulling other with ⟨rfl, -, rfl⟩ | ⟨notK, before'⟩
      · exact absurd rfl (others j _ notJ before).2
      · exact ticketed.apart j k u before before'

/-- A new ticket is nobody else's. -/
theorem ticketed_lookForWork (name : String) : (h.lookForWork i name).hub.Ticketed := by
  rw [lookForWork]
  split
  · refine ticketed.of_same rfl (Nat.le_refl _) ?_
    intro j t pulling
    exact pulling_of_withPhase pulling (by simp)
  · refine ticketed_afterPull ticketed (fun _ => rfl) ?_ ?_ ?_
    · intro u member
      rcases (Queue.mem_pull.mp member).1 with old | rfl
      · exact Nat.lt_succ_of_lt (ticketed.given u old)
      · exact Nat.lt_succ_self _
    · intro waits
      exact Queue.mem_pull.mpr ⟨.inr rfl, .inl waits⟩
    · intro j u _ pulling
      have old := ticketed.inLine j u pulling
      have elsewhere : u ≠ h.next := Nat.ne_of_lt (ticketed.given u old)
      exact ⟨Queue.mem_pull.mpr ⟨.inl old, .inr elsewhere⟩, elsewhere⟩

theorem ticketed_pollWorker (i : Nat) : (h.pollWorker i).hub.Ticketed := by
  rw [pollWorker]
  split
  · next w _ found =>
      have here := phase?_of_worker found
      split
      · exact ticketed_lookForWork ticketed _
      · next t pulling =>
          rw [pulling] at here
          have others {j : Nat} {u : Ticket} (other : j ≠ i)
              (waits : h.phase? j = some (.pulling u)) : u ≠ t := by
            intro same
            exact other (ticketed.apart j i u waits (same ▸ here))
          split
          · -- The worker ends, and its pull leaves the line.
            let ended := ((h.withQueue (h.queue.dropPull t)).endWorker i w.name).hub
            have queue : ended.queue = h.queue.dropPull t := queue_withQueue ..
            have next : ended.next = h.next := next_withQueue ..
            refine ticketed.of_remaining (g := ended) ?_ ?_
            · intro u member
              rw [queue] at member
              rw [next]
              exact ticketed.given u (Queue.mem_dropPull.mp member).1
            · intro j u waits
              have other : j ≠ i := by
                rintro rfl
                simp [ended, endWorker] at waits
              have before : h.phase? j = some (.pulling u) :=
                (phase?_withQueue ..).symm.trans (pulling_of_withPhase waits (by simp))
              rw [queue]
              exact ⟨before,
                Queue.mem_dropPull.mpr ⟨ticketed.inLine j u before, others other before⟩⟩
          · refine ticketed_afterPull ticketed (fun _ => rfl) ?_ ?_ ?_
            · intro u member
              exact ticketed.given u (Queue.mem_pollPull.mp member).1
            · intro waits
              exact Queue.mem_pollPull.mpr ⟨ticketed.inLine i t here, .inl waits⟩
            · intro j u other waits
              have elsewhere := others other waits
              exact ⟨Queue.mem_pollPull.mpr ⟨ticketed.inLine j u waits, .inr elsewhere⟩, elsewhere⟩
      · exact ticketed_lookForWork ticketed _
      · next notPulling _ =>
          refine ticketed.of_same rfl (Nat.le_refl _) ?_
          intro j t pulling
          exact pulling_of_withPhase pulling notPulling
  · exact ticketed

/-- A change of the queue that leaves the pulls alone. -/
theorem Ticketed.withQueue {q : Queue} (pulls : q.pulls = h.queue.pulls) :
    (h.withQueue q).Ticketed := by
  refine ticketed.of_same ?_ (Nat.le_of_eq (next_withQueue ..).symm) ?_
  · rw [queue_withQueue, pulls]
  · intro j u pulling
    exact (phase?_withQueue ..).symm.trans pulling

theorem ticketed_step (rep : Repertoire σ) (s : Step) : (h.step rep s).hub.Ticketed := by
  have quiet {e : Effect σ Answer} (pulls : e.hub.queue.pulls = h.queue.pulls)
      (next : h.next ≤ e.hub.next) (quiet : ∀ i, Quiet h i e) : e.hub.Ticketed :=
    ticketed.of_same pulls next fun i t pulling => (quiet i).1.symm.trans pulling
  by_cases calm : s.isCalm
  · cases s with
    | submit work =>
        refine quiet ?_ (Nat.le_succ _) fun i => quiet_submit h i work
        exact (congrArg Queue.pulls (queue_withQueue ..)).trans (Queue.pulls_push ..)
    | pollSubmission t =>
        rw [step, hub_answering, pollSubmission]
        split
        · exact ticketed
        · exact ticketed.withQueue (Queue.pulls_pollPush ..)
    | dropSubmission t =>
        rw [step, hub_answering, dropSubmission]
        split
        · exact ticketed
        · exact ticketed.withQueue (Queue.pulls_dropPush ..)
    | pollWorker i => exact ticketed_pollWorker ticketed i
    | advanceJob i =>
        refine ticketed.of_same ?_ (next_le_step rep h _) fun _ _ => pulling_of_advanceJob
        exact congrArg Queue.pulls (queue_advanceJob h i rep)
    | passGate i =>
        refine ticketed.of_same ?_ (next_le_step rep h _) fun _ _ => pulling_of_passGate
        rw [step, hub_answering, passGate]
        split
        · split <;> rfl
        · rfl
    | act a => exact quiet rfl (Nat.le_refl _) fun i => quiet_act h i a
    | tryPull => exact ticketed.withQueue (Queue.pulls_tryPull ..)
    | notify e => exact quiet rfl (Nat.le_refl _) fun i => quiet_notify h i e
    | advanceGuest =>
        refine quiet ?_ (next_le_step rep h _) fun i => quiet_advanceGuest h i rep
        rw [step, hub_answering, advanceGuest_eq]
        split
        · rfl
        · rfl
        · split <;> rfl
    | killRuntime =>
        refine ticketed.of_remaining ?_ ?_
        · intro t member
          exact ticketed.given t (Queue.mem_foldl_dropPull member)
        · intro i t pulling
          exact absurd pulling (not_pulling_killRuntime h i t)
    | setWorkerCount n =>
        refine quiet rfl (Nat.le_refl _) fun i => quiet_setWorkerCount h i n
    | _ => cases calm
  · obtain ⟨-, -, queue, next, -⟩ := frame_of_not_calm rep h calm
    refine ticketed.of_same (by rw [queue]) (Nat.le_of_eq next.symm) ?_
    intro i t pulling
    cases s with
    | shutdown join => exact (quiet_shutdown h i join).1.symm.trans pulling
    | pollShutdown => exact (quiet_pollShutdown h i).1.symm.trans pulling
    | dropShutdown => exact pulling
    | drop => exact (phase?_withStop ..).symm.trans pulling
    | _ => exact absurd rfl calm

theorem ticketed_deed (rep : Repertoire σ) (d : Deed) : (h.deed rep d).hub.Ticketed := by
  rcases deed_cases rep h d with ⟨s, -, hub, -⟩ | ⟨-, work, q, next, pulls, same⟩
  · rw [hub]
    exact ticketed_step ticketed rep s
  · rw [same]
    refine ticketed.of_remaining ?_ ?_
    · intro t member
      rw [queue_afterPullOutside] at member
      rw [next_afterPullOutside]
      rcases pulls.given t member with old | new
      · exact Nat.lt_of_lt_of_le (ticketed.given t old) pulls.next_le
      · exact new
    · intro i t pulling
      rw [phase?_afterPullOutside] at pulling
      rw [queue_afterPullOutside]
      have old := ticketed.inLine i t pulling
      exact ⟨pulling, pulls.workers i t pulling old (ticketed.given t old)⟩

end Steps

end ReviewHub.Hub
