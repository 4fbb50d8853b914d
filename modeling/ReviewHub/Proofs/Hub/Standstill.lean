import ReviewHub.Proofs.Hub.Attention
import ReviewHub.Proofs.Hub.Shutdown
import ReviewHub.Proofs.Hub.Tickets

/-!
# Standstill

What a hub looks like once each of its workers has gone as far as it can. A worker that has come to
a standstill is inside a listener or waits for work. If one waits, somebody is first in the line of
pulls; where the line is of workers only, that one is a worker too, and it sleeps although it is
first. So there is nothing to take, and whoever is first among those that wait for a slot owns one.
-/

namespace ReviewHub.Hub

variable {σ : Type}

/-! ### From the start -/

/-- New workers have not been looked at, and are awake. -/
theorem attentive_of_build {c : Config} {parser : Parser} {memory : σ} {start : Hub σ}
    (built : (build true c parser memory).outcome = .ok start) : start.Attentive := by
  obtain ⟨queue, -, hub⟩ := hub_of_build built
  intro w member
  rw [hub] at member
  obtain ⟨i, -, rfl⟩ := List.mem_map.mp member
  constructor
  · intro asleep
    cases asleep
  · intro _
    rfl

theorem IsFresh.held?_eq {c : Config} {parser : Parser} {h : Hub σ} (fresh : h.IsFresh c parser)
    (i : Nat) : h.held? i = none := by
  rw [held?, fresh.phase?_eq]
  split <;> rfl

/-! ### Over a play -/

section Plays

variable (rep : Repertoire σ) {h : Hub σ}

/-- A hub that is not dropped goes on until it is shut down. -/
theorem going_play {ds : List Deed} (undropped : .step .drop ∉ ds)
    (going : h.life = .running → h.stopping = false) :
    (play rep h ds).1.life = .running → (play rep h ds).1.stopping = false := by
  induction ds generalizing h with
  | nil => exact going
  | cons d ds ih =>
      have other : d ≠ .step .drop := by
        rintro rfl
        exact undropped List.mem_cons_self
      refine ih (fun later => undropped (List.mem_cons_of_mem d later)) ?_
      rcases deed_cases rep h d with ⟨s, rfl, hub, -⟩ | ⟨-, work, q, next, -, same⟩
      · rw [hub]
        intro running
        rcases life_step_cases rep h s with ⟨life, -, signal | ⟨rfl, -⟩⟩ | ⟨-, -, shut, -⟩
        · exact signal.trans (going (life.symm.trans running))
        · exact absurd rfl other
        · cases shut.symm.trans running
      · have control := control_afterPullOutside h work q next
        rw [same]
        intro running
        have before : h.life = .running := (congrArg Control.life control).symm.trans running
        exact (congrArg Control.stopping control).trans (going before)

/-- There are the workers that were started. -/
theorem IsFresh.isSome_phase?_play {c : Config} {parser : Parser} (fresh : h.IsFresh c parser)
    (ds : List Deed) (i : Nat) :
    ((play rep h ds).1.phase? i).isSome = decide (i < c.workerCount.toNat) := by
  refine play_preserves (P := fun g => (g.phase? i).isSome = decide (i < c.workerCount.toNat)) ?_
    ?_ ds
  · intro g d same
    rcases deed_cases rep g d with ⟨s, -, hub, -⟩ | ⟨-, work, q, next, -, pulled⟩
    · rw [hub]
      exact (isSome_phase?_step rep g s i).trans same
    · rw [pulled, phase?_afterPullOutside]
      exact same
  · rw [fresh.phase?_eq]
    split <;> simp_all

theorem Move.taken_of_held? {parser : Parser} {stopping working : Bool} {i : Nat} {p q : Phase}
    {own : List Happening} {work : Envelope} (move : Move parser stopping working i p own q)
    (held : q.held? = some work) :
    p.held? = some work ∨ .taken (.worker i) work ∈ own := by
  have lost (done : q = .finished .returned ∨ q = .cutOff) : False := by
    rcases done with rfl | rfl <;> cases held
  cases move with
  | stay => exact .inl held
  | take =>
      cases held
      exact .inr List.mem_cons_self
  | begin => exact .inl held
  | dispatch => exact .inl held
  | skip _ _ done => exact (lost done).elim
  | finish _ done => exact (lost done).elim
  | _ => cases held

theorem mem_takenIn {source : Source} {work : Envelope} {history : List Happening}
    (taken : .taken source work ∈ history) : (source, work) ∈ takenIn history :=
  List.mem_flatMap.mpr ⟨_, taken, List.mem_singleton_self _⟩

/-- What a worker holds it has taken. -/
theorem taken_of_held?_play (free : ∀ i, h.held? i = none) (ds : List Deed) {i : Nat}
    {work : Envelope} (held : (play rep h ds).1.held? i = some work) :
    (.worker i, work) ∈ takenIn (play rep h ds).2 := by
  refine play_invariant
    (P := fun g history => ∀ work, g.held? i = some work → (.worker i, work) ∈ takenIn history)
    ?_ [] ?_ ds work held
  · intro g history d before work held
    rw [takenIn_append, List.mem_append]
    rcases deed_cases rep g d with ⟨s, -, hub, happened⟩ | ⟨-, pulled, q, next, -, same⟩
    · rw [hub] at held
      rw [happened]
      rcases (moves_step rep g s i).cases with ⟨-, none, -⟩ | ⟨p, q, here, after, move⟩
      · rw [held?, none] at held
        cases held
      · rw [held?, after] at held
        rcases move.taken_of_held? held with old | taken
        · refine .inl (before work ?_)
          rw [held?, here]
          exact old
        · exact .inr (mem_takenIn (List.mem_of_mem_filter taken))
    · rw [same, held?, phase?_afterPullOutside] at held
      exact .inl (before work held)
  · intro work held
    rw [free] at held
    cases held

/-- So what workers hold are as many takings. -/
theorem held_subperm (free : ∀ i, h.held? i = none) (ds : List Deed) (n : Nat) :
    ((List.range n).filterMap (play rep h ds).1.held?).Subperm
      ((takenIn (play rep h ds).2).map Prod.snd) := by
  let tagged (i : Nat) : Option (Source × Envelope) :=
    ((play rep h ds).1.held? i).map (Prod.mk (.worker i))
  have apart : ((List.range n).filterMap tagged).Nodup := by
    refine List.Nodup.filterMap ?_ List.nodup_range
    intro i j entry one other
    obtain ⟨_, _, rfl⟩ := Option.map_eq_some_iff.mp one
    obtain ⟨_, _, same⟩ := Option.map_eq_some_iff.mp other
    exact Source.worker.inj (Prod.mk.inj same).1.symm
  have taken : (List.range n).filterMap tagged ⊆ takenIn (play rep h ds).2 := by
    intro entry member
    obtain ⟨i, -, holds⟩ := List.mem_filterMap.mp member
    obtain ⟨work, held, rfl⟩ := Option.map_eq_some_iff.mp holds
    exact taken_of_held?_play rep free ds held
  have plain : ((List.range n).filterMap tagged).map Prod.snd =
      (List.range n).filterMap (play rep h ds).1.held? := by
    rw [List.map_filterMap]
    refine List.filterMap_congr ?_
    intro i _
    simp [tagged, Function.comp_def]
  obtain ⟨kept, same, sublist⟩ := apart.subperm taken
  rw [← plain]
  exact ⟨kept.map Prod.snd, same.map Prod.snd, sublist.map Prod.snd⟩

end Plays

/-! ### At a standstill -/

section Still

variable {rep : Repertoire σ} {h : Hub σ} {i : Nat}

theorem workerStep?_of_workersStep? {ws : List Worker} {j : Nat} {w : Worker}
    (still : h.workersStep? i ws = none) (found : ws[j]? = some w) :
    h.workerStep? (i + j) w = none := by
  induction ws generalizing i j with
  | nil => cases found
  | cons v ws ih =>
      obtain ⟨first, rest⟩ := Option.or_eq_none_iff.mp still
      cases j with
      | zero =>
          cases found
          exact first
      | succ j =>
          rw [Nat.add_comm j, ← Nat.add_assoc]
          exact ih rest found

/-- A worker that has come to a standstill waits for work or is inside a listener. -/
theorem waits_or_isAtGate {w : Worker} (alive : h.alive = true) (going : h.stopping = false)
    (attends : h.Attends w) (still : h.workerStep? i w = none) :
    (∃ t, w.phase = .pulling t ∧ ¬h.queue.HasTurn t) ∨ w.phase.isAtGate = true := by
  have goesOn := attends.going going
  rw [workerStep?] at still
  split at still
  · cases still
  · next notPolled =>
      have asleep : w.awake = false := by simpa [alive, goesOn] using notPolled
      have rests := attends.rests asleep
      cases phase : w.phase with
      | fresh =>
          rw [phase] at rests
          exact rests.elim
      | pulling t =>
          rw [phase] at rests
          exact .inl ⟨t, rfl, rests⟩
      | holding work =>
          rw [phase] at still
          cases still
      | dispatching work d =>
          rw [phase] at still
          cases inside : d.isWaiting with
          | true => exact .inr inside
          | false => simp [inside] at still
      | finished job =>
          rw [phase] at rests
          exact rests.elim
      | stopped =>
          rw [phase] at goesOn
          cases goesOn
      | cutOff =>
          rw [phase] at goesOn
          cases goesOn

theorem waits_or_isAtGate_of_still {p : Phase} (alive : h.alive = true)
    (going : h.stopping = false) (attentive : h.Attentive)
    (still : h.workersStep? 0 h.workers = none) (here : h.phase? i = some p) :
    (∃ t, p = .pulling t ∧ ¬h.queue.HasTurn t) ∨ p.isAtGate = true := by
  obtain ⟨w, found, rfl⟩ := worker_of_phase? here
  exact waits_or_isAtGate alive going (attentive w (List.mem_of_getElem? found))
    (workerStep?_of_workersStep? still found)

/-- If one worker waits for work and only workers do, there is nothing to take. -/
theorem items_eq_nil {t : Ticket} (ticketed : h.Ticketed)
    (ours : ∀ t ∈ h.queue.pulls, ∃ i, h.phase? i = some (.pulling t))
    (rest : ∀ i t, h.phase? i = some (.pulling t) → ¬h.queue.HasTurn t)
    (waits : h.phase? i = some (.pulling t)) : h.queue.items = [] := by
  have inLine := ticketed.inLine i t waits
  cases line : h.queue.pulls with
  | nil =>
      rw [line] at inLine
      cases inLine
  | cons first others =>
      obtain ⟨j, pulling⟩ := ours first (by rw [line]; exact List.mem_cons_self)
      by_contra something
      exact rest j first pulling ⟨by rw [line]; rfl, something⟩

/-- Whoever is inside a listener has an envelope. -/
theorem length_held {n : Nat}
    (inside : ∀ i < n, ∃ p, h.phase? i = some p ∧ p.isAtGate = true) :
    ((List.range n).filterMap h.held?).length = n := by
  have holding (i : Nat) (member : i ∈ List.range n) : (h.held? i).isSome = true := by
    obtain ⟨p, here, waits⟩ := inside i (List.mem_range.mp member)
    rw [held?, here]
    cases p <;> first | rfl | cases waits
  rw [List.filterMap_length_eq_length.mpr holding, List.length_range]

/-- A submission that owns a slot completes when it is looked at. -/
theorem answer_pollSubmission {w : Waiter} {ws : List Waiter} (going : h.stopping = false)
    (first : h.queue.waiting = w :: ws) (granted : w.granted = true) :
    (h.step rep (.pollSubmission w.ticket)).answer = .pushed .accepted := by
  have found : h.queue.waiter? w.ticket = some w := by
    rw [Queue.waiter?, first, List.find?_cons_of_pos (by simp)]
  simp [step, pollSubmission, found, Queue.pollPush, going, granted]

end Still

/-! ### The law -/

/-- Nothing is stalled. Take a hub that has been neither shut down nor dropped, whose workers have
something to run on and have all come to a standstill, while nobody else waits for work. If one of
them is not inside a listener, then nothing is in the queue, all that came onto it has been taken,
and the first submission that waits for a slot, if any does, owns one and completes when it is
looked at next. And if something is in the queue, then all workers are inside listeners, with as
many envelopes: each has been taken on its own account, and they are distinct if those submitted
were.

It is assumed that a job always gets a thread to run on. A worker whose job waits for one has an
envelope and could still be advanced, so it counts as not at a standstill. -/
theorem no_stalled_work {c : Config} {parser : Parser} {memory : σ} {start : Hub σ}
    (built : (build true c parser memory).outcome = .ok start) (rep : Repertoire σ) (ds : List Deed)
    (undropped : .step .drop ∉ ds) :
    let final := (play rep start ds).1
    let history := (play rep start ds).2
    let held := (List.range c.workerCount.toNat).filterMap final.held?
    final.life = .running → final.alive = true → final.workersStep? 0 final.workers = none →
    (∀ t ∈ final.queue.pulls, ∃ i, final.phase? i = some (.pulling t)) →
    ((∃ i p, final.phase? i = some p ∧ p.isAtGate = false) →
      final.pendingWork = 0 ∧
      acceptedIn history = (takenIn history).map Prod.snd ∧
      ∀ w ws, final.queue.waiting = w :: ws →
        w.granted = true ∧
        (final.step rep (.pollSubmission w.ticket)).answer = .pushed .accepted) ∧
    (0 < final.pendingWork →
      (∀ i < c.workerCount.toNat, ∃ p, final.phase? i = some p ∧ p.isAtGate = true) ∧
      held.length = c.workerCount.toNat ∧
      held.Subperm ((takenIn history).map Prod.snd) ∧
      ((ds.flatMap Deed.submitted).Nodup → held.Nodup)) := by
  have fresh := isFresh_of_build built
  have made := queue_of_build built
  intro final history held running alive still ours
  have going : final.stopping = false :=
    going_play rep undropped (fun _ => fresh.stopping_eq) running
  have attentive : final.Attentive :=
    play_preserves (P := fun h => h.alive = true → h.Attentive)
      (fun _ d before => attentive_deed rep before d) (fun _ => attentive_of_build built) ds alive
  have ticketed : final.Ticketed :=
    play_preserves (P := Ticketed) (fun _ d before => ticketed_deed before rep d)
      (fresh.ticketed (Queue.pulls_of_build made)) ds
  obtain ⟨slotted, room⟩ := Queue.slotted_of_build made
  have slotted : final.queue.Slotted _ 0 := slotted_play rep slotted fresh.orderly ds
  have size : final.pendingWork = final.queue.items.length := slotted.size_eq
  have account : acceptedIn history = (takenIn history).map Prod.snd ++ final.queue.items := by
    simpa [fresh.items_eq] using balances_play rep start ds
  have stand (i : Nat) (p : Phase) (here : final.phase? i = some p) :=
    waits_or_isAtGate_of_still alive going attentive still here
  have rest (i : Nat) (t : Ticket) (pulling : final.phase? i = some (.pulling t)) :
      ¬final.queue.HasTurn t := by
    rcases stand i _ pulling with ⟨u, same, waits⟩ | inside
    · cases same
      exact waits
    · cases inside
  have empty (i : Nat) (t : Ticket) (waits : final.phase? i = some (.pulling t)) :
      final.queue.items = [] :=
    items_eq_nil ticketed ours rest waits
  constructor
  · rintro ⟨i, p, here, outside⟩
    have nothing : final.queue.items = [] := by
      rcases stand i p here with ⟨t, rfl, -⟩ | inside
      · exact empty i t here
      · cases outside.symm.trans inside
    refine ⟨?_, ?_, ?_⟩
    · rw [size, nothing]
      rfl
    · rw [account, nothing, List.append_nil]
    · intro w ws first
      have granted := slotted.granted_of_first room nothing first
      exact ⟨granted, answer_pollSubmission going first granted⟩
  · intro something
    have inside (i : Nat) (below : i < c.workerCount.toNat) :
        ∃ p, final.phase? i = some p ∧ p.isAtGate = true := by
      have there := fresh.isSome_phase?_play rep ds i
      rw [decide_eq_true below] at there
      obtain ⟨p, here⟩ := Option.isSome_iff_exists.mp there
      refine ⟨p, here, ?_⟩
      rcases stand i p here with ⟨t, rfl, -⟩ | inside
      · rw [size, empty i t here] at something
        cases something
      · exact inside
    have taken : held.Subperm ((takenIn history).map Prod.snd) :=
      held_subperm rep fresh.held?_eq ds c.workerCount.toNat
    refine ⟨inside, length_held inside, taken, ?_⟩
    intro distinct
    have accepted : ((takenIn history).map Prod.snd).Subperm (acceptedIn history) :=
      account ▸ (List.sublist_append_left ..).subperm
    obtain ⟨kept, same, sublist⟩ := (taken.trans accepted).trans (fresh.acceptedIn_play rep ds)
    exact same.nodup_iff.mp (distinct.sublist sublist)

/-! ### A listener at a gate

The worker is inside a listener when the second envelope comes onto the queue and the third has to
wait. Somebody outside pulls and gives up before that. Once the listener is let go, the worker works
off the second one, and the slot is reserved for the third. -/

namespace Small

/-- Listeners wait at a gate when they hear of an update. -/
def hesitant : Repertoire Unit := fun _ h _ memory =>
  match h with
  | .specific .refUpdated => (.waits (.ends .handled), memory)
  | _ => (.ends .handled, memory)

def third : Envelope := ⟨⟨2#128, 0⟩, .text "" none⟩

def detained : List Deed :=
  [.step (.act (.add ⟨1, "client"⟩)), .step (.submit eventful), .step (.pollWorker 0),
    .step (.advanceJob 0), .step (.advanceJob 0), .pull, .dropPull 2, .step (.submit eventless),
    .step (.submit third)]

def released : List Deed :=
  detained ++ [.step (.passGate 0), .step (.advanceJob 0), .step (.advanceJob 0),
    .step (.advanceJob 0), .step (.pollWorker 0), .step (.advanceJob 0), .step (.pollWorker 0)]

end Small

theorem no_stalled_work_detained :
    let stuck := (play Small.hesitant Small.hub Small.detained).1
    let final := (play Small.hesitant Small.hub Small.released).1
    let history := (play Small.hesitant Small.hub Small.released).2
    (0 < stuck.pendingWork ∧ (∃ p, stuck.phase? 0 = some p ∧ p.isAtGate = true) ∧
      ((List.range 1).filterMap stuck.held?).Nodup) ∧
    final.pendingWork = 0 ∧ acceptedIn history = (takenIn history).map Prod.snd ∧
      final.queue.waiting = [⟨4, Small.third, true⟩] ∧
      (final.step Small.hesitant (.pollSubmission 4)).answer = .pushed .accepted := by
  intro stuck final history
  have distinct : (Small.detained.flatMap Deed.submitted).Nodup := by
    simp [Small.detained, Deed.submitted, Step.submitted, Small.eventful, Small.eventless,
      Small.third]
  have nobody : ∀ t ∈ stuck.queue.pulls, ∃ i, stuck.phase? i = some (.pulling t) := by
    intro t member
    cases member
  have ours : ∀ t ∈ final.queue.pulls, ∃ i, final.phase? i = some (.pulling t) := by
    intro t member
    cases List.mem_singleton.mp member
    exact ⟨0, rfl⟩
  have pending : 0 < stuck.pendingWork := Nat.zero_lt_one
  have waiting : final.queue.waiting = [⟨4, Small.third, true⟩] := rfl
  obtain ⟨-, full⟩ :=
    no_stalled_work Small.built Small.hesitant Small.detained (by simp [Small.detained])
      rfl rfl rfl nobody
  obtain ⟨inside, -, -, once⟩ := full pending
  obtain ⟨idle, -⟩ :=
    no_stalled_work Small.built Small.hesitant Small.released
      (by simp [Small.released, Small.detained]) rfl rfl rfl ours
  obtain ⟨nothing, taken, first⟩ := idle ⟨0, .pulling 6, rfl, rfl⟩
  exact ⟨⟨pending, inside 0 Nat.zero_lt_one, once distinct⟩, nothing, taken, waiting,
    (first _ _ waiting).2⟩

end ReviewHub.Hub
