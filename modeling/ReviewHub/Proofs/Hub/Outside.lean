import ReviewHub.Hub.Deed
import ReviewHub.Proofs.Hub.Line
import ReviewHub.Proofs.Queue.Pulls
import ReviewHub.Proofs.Queue.Slots

/-!
# Pulls from outside

All that a deed can do to the queue is one operation, and a pull from outside touches none of the
workers. The accounts of runs carry over to plays, which are runs of deeds.
-/

namespace ReviewHub.Hub

variable {σ : Type}

/-! ### Plays -/

/-- The envelopes that a deed submits: one at most. -/
def Deed.submitted : Deed → List Envelope
  | step s => s.submitted
  | _ => []

section Plays

variable {rep : Repertoire σ} {h : Hub σ}

theorem hub_play_cons (rep : Repertoire σ) (h : Hub σ) (d : Deed) (ds : List Deed) :
    (play rep h (d :: ds)).1 = (play rep (h.deed rep d).hub ds).1 := rfl

theorem history_play_cons (rep : Repertoire σ) (h : Hub σ) (d : Deed) (ds : List Deed) :
    (play rep h (d :: ds)).2 = (h.deed rep d).happened ++ (play rep (h.deed rep d).hub ds).2 := rfl

/-- What every deed preserves of a hub and all that has happened to it holds after a play. -/
theorem play_invariant {P : Hub σ → List Happening → Prop}
    (preserved : ∀ h history d, P h history →
      P (h.deed rep d).hub (history ++ (h.deed rep d).happened))
    (history : List Happening) (start : P h history) (ds : List Deed) :
    P (play rep h ds).1 (history ++ (play rep h ds).2) := by
  induction ds generalizing h history with
  | nil => simpa [play] using start
  | cons d ds ih =>
      rw [hub_play_cons, history_play_cons, ← List.append_assoc]
      exact ih _ (preserved h history d start)

/-- A property of the hub alone needs no history. -/
theorem play_preserves {P : Hub σ → Prop} (preserved : ∀ h d, P h → P (h.deed rep d).hub)
    (start : P h) (ds : List Deed) : P (play rep h ds).1 :=
  play_invariant (P := fun h _ => P h) (fun h _ d => preserved h d) [] start ds

end Plays

/-! ### Pulling -/

/-- What pulling from outside can do to the queue: `work` is handed out, `q` is left, and `next` is
the next ticket. -/
structure PullsOutside (h : Hub σ) (work : Option Envelope) (q : Queue) (next : Ticket) : Prop where
  change : Queue.Change h.queue q
  items_eq : h.queue.items = work.toList ++ q.items
  line_eq : q.line = h.queue.line
  next_le : h.next ≤ next
  /-- The only new pull is the one that begins. -/
  given : ∀ t ∈ q.pulls, t ∈ h.queue.pulls ∨ t < next
  /-- The pulls of workers stay in line. -/
  workers : ∀ i t, h.phase? i = some (.pulling t) → t ∈ h.queue.pulls → t < h.next → t ∈ q.pulls

theorem isPulling_of_phase? {h : Hub σ} {i : Nat} {t : Ticket}
    (pulling : h.phase? i = some (.pulling t)) : h.workers.any (isPulling t) := by
  obtain ⟨w, found, phase⟩ := worker_of_phase? pulling
  refine List.any_eq_true.mpr ⟨w, List.mem_of_getElem? found, ?_⟩
  simp [isPulling, phase]

theorem withQueue_self (h : Hub σ) : h.withQueue h.queue = h := by
  rw [withQueue, Queue.signalled?_self]

/-- A deed that is no step pulls from outside. -/
theorem deed_cases (rep : Repertoire σ) (h : Hub σ) (d : Deed) :
    (∃ s, d = .step s ∧ (h.deed rep d).hub = (h.step rep s).hub ∧
        (h.deed rep d).happened = (h.step rep s).happened) ∨
      d.submitted = [] ∧ ∃ work q next, PullsOutside h work q next ∧
        h.deed rep d = h.afterPullOutside work q next := by
  have idle : PullsOutside h none h.queue h.next :=
    ⟨.same, rfl, rfl, Nat.le_refl _, fun _ member => .inl member, fun _ _ _ member _ => member⟩
  have unchanged : h.afterPullOutside none h.queue h.next = { answer := (), hub := h } := by
    rw [afterPullOutside, withQueue_self]
    rfl
  have elsewhere {i : Nat} {t u : Ticket} (outside : ¬h.workers.any (isPulling t))
      (pulling : h.phase? i = some (.pulling u)) : u ≠ t :=
    fun same => outside (same ▸ isPulling_of_phase? pulling)
  cases d with
  | step s => exact .inl ⟨s, rfl, rfl, rfl⟩
  | pull =>
      refine .inr ⟨rfl, _, _, h.next + 1, ⟨.pull h.next, Queue.items_pull .., Queue.line_pull ..,
        Nat.le_succ _, ?_, ?_⟩, rfl⟩
      · intro t member
        refine (Queue.mem_pull.mp member).1.imp_right ?_
        intro new
        exact new ▸ Nat.lt_succ_self _
      · intro i t _ member below
        exact Queue.mem_pull.mpr ⟨.inl member, .inr (Nat.ne_of_lt below)⟩
  | pollPull t =>
      right
      rw [deed]
      split
      · exact ⟨rfl, none, h.queue, h.next, idle, unchanged.symm⟩
      · next outside =>
          refine ⟨rfl, _, _, h.next, ⟨.pollPull t, Queue.items_pollPull .., Queue.line_pollPull ..,
            Nat.le_refl _, fun _ member => .inl (Queue.mem_pollPull.mp member).1, ?_⟩, rfl⟩
          intro i u pulling member _
          exact Queue.mem_pollPull.mpr ⟨member, .inr (elsewhere outside pulling)⟩
  | dropPull t =>
      right
      rw [deed]
      split
      · exact ⟨rfl, none, h.queue, h.next, idle, unchanged.symm⟩
      · next outside =>
          refine ⟨rfl, none, _, h.next, ⟨.dropPulls [t], rfl, rfl, Nat.le_refl _,
            fun _ member => .inl (Queue.mem_dropPull.mp member).1, ?_⟩, rfl⟩
          intro i u pulling member _
          exact Queue.mem_dropPull.mpr ⟨member, elsewhere outside pulling⟩

section AfterPull

variable (h : Hub σ) (work : Option Envelope) (q : Queue) (next : Ticket)

@[simp] theorem queue_afterPullOutside : (h.afterPullOutside work q next).hub.queue = q :=
  queue_withQueue ..

@[simp] theorem next_afterPullOutside : (h.afterPullOutside work q next).hub.next = next :=
  next_withQueue ..

@[simp] theorem phase?_afterPullOutside (i : Nat) :
    (h.afterPullOutside work q next).hub.phase? i = h.phase? i :=
  phase?_withQueue ..

@[simp] theorem control_afterPullOutside :
    (h.afterPullOutside work q next).hub.control = h.control :=
  control_withQueue ..

theorem acceptedIn_afterPullOutside :
    acceptedIn (h.afterPullOutside work q next).happened = [] := by
  cases work <;> rfl

theorem takenIn_afterPullOutside :
    (takenIn (h.afterPullOutside work q next).happened).map Prod.snd = work.toList := by
  cases work <;> rfl

end AfterPull

/-! ### What a step does to the queue -/

section Change

variable (h : Hub σ) (i : Nat)

@[simp] theorem queue_afterPull (t : Ticket) (work : Option Envelope) (q : Queue) :
    (h.afterPull i t work q).hub.queue = q := by
  cases work <;> exact queue_withQueue h q

theorem change_lookForWork (name : String) :
    Queue.Change h.queue (h.lookForWork i name).hub.queue := by
  rw [lookForWork]
  split
  · exact .same
  · rw [queue_afterPull]
    exact .pull h.next

theorem change_pollWorker : Queue.Change h.queue (h.pollWorker i).hub.queue := by
  rw [pollWorker]
  split
  · split
    · exact change_lookForWork h i _
    · next t _ =>
        split
        · show Queue.Change h.queue (h.withQueue (h.queue.dropPull t)).queue
          rw [queue_withQueue]
          exact .dropPulls [t]
        · rw [queue_afterPull]
          exact .pollPull t
    · exact change_lookForWork h i _
    · exact .same
  · exact .same

theorem queue_advanceJob (rep : Repertoire σ) : (h.advanceJob rep i).hub.queue = h.queue := by
  rw [advanceJob_eq]
  split
  · rfl
  · split
    · rw [openEnvelope]
      split
      · rfl
      all_goals exact queue_finishJob h i _
    · exact queue_finishJob h i _
    · split <;> rfl
    · rfl

/-- One step of a hub is one operation of its queue at most. -/
theorem change_step (rep : Repertoire σ) (h : Hub σ) (s : Step) :
    Queue.Change h.queue (h.step rep s).hub.queue := by
  have changed {q r : Queue} (same : r = q) (change : Queue.Change h.queue q) :
      Queue.Change h.queue r := same ▸ change
  by_cases calm : s.isCalm
  · cases s with
    | submit work => exact changed (queue_withQueue ..) (.push ..)
    | pollSubmission t =>
        rw [step, hub_answering, pollSubmission]
        split
        · exact .same
        · next found => exact changed (queue_withQueue ..) (.pollPush found _)
    | dropSubmission t =>
        rw [step, hub_answering, dropSubmission]
        split
        · exact .same
        · next found => exact changed (queue_withQueue ..) (.dropPush found)
    | pollWorker i => exact change_pollWorker h i
    | advanceJob i => exact changed (queue_advanceJob h i rep) .same
    | passGate i =>
        rw [step, hub_answering, passGate]
        split
        · split <;> exact .same
        · exact .same
    | act a => exact .same
    | tryPull => exact changed (queue_withQueue ..) .tryPull
    | notify e => exact .same
    | advanceGuest =>
        rw [step, hub_answering, advanceGuest_eq]
        split
        · exact .same
        · exact .same
        · split <;> exact .same
    | killRuntime => exact .dropPulls _
    | setWorkerCount n => exact .same
    | _ => cases calm
  · obtain ⟨-, -, queue, -⟩ := frame_of_not_calm rep h calm
    exact changed queue .same

end Change

/-! ### Accounts of plays -/

theorem change_deed (rep : Repertoire σ) (h : Hub σ) (d : Deed) :
    Queue.Change h.queue (h.deed rep d).hub.queue := by
  rcases deed_cases rep h d with ⟨s, -, hub, -⟩ | ⟨-, work, q, next, pulls, same⟩
  · rw [hub]
    exact change_step rep h s
  · rw [same, queue_afterPullOutside]
    exact pulls.change

theorem orderly_deed (rep : Repertoire σ) {h : Hub σ} (orderly : h.Orderly) (d : Deed) :
    (h.deed rep d).hub.Orderly := by
  rcases deed_cases rep h d with ⟨s, -, hub, -⟩ | ⟨-, work, q, next, pulls, same⟩
  · rw [hub]
    exact orderly_step rep orderly s
  · refine orderly.of_sublist ?_ ?_
    · rw [same, queue_afterPullOutside, pulls.line_eq]
    · rw [same, next_afterPullOutside]
      exact pulls.next_le

/-- The slots of the queue are accounted for after any play. -/
theorem slotted_play (rep : Repertoire σ) {h : Hub σ} {capacity : Option Nat}
    (slotted : h.queue.Slotted capacity 0) (orderly : h.Orderly) (ds : List Deed) :
    (play rep h ds).1.queue.Slotted capacity 0 := by
  have both : (play rep h ds).1.queue.Slotted capacity 0 ∧ (play rep h ds).1.Orderly := by
    refine play_preserves (P := fun h => h.queue.Slotted capacity 0 ∧ h.Orderly) ?_
      ⟨slotted, orderly⟩ ds
    rintro h d ⟨slotted, orderly⟩
    exact ⟨slotted.change orderly.distinct (change_deed rep h d), orderly_deed rep orderly d⟩
  exact both.1

/-- The account of the queue over a play. -/
theorem balances_play (rep : Repertoire σ) (h : Hub σ) (ds : List Deed) :
    h.queue.items ++ acceptedIn (play rep h ds).2 =
      (takenIn (play rep h ds).2).map Prod.snd ++ (play rep h ds).1.queue.items := by
  induction ds generalizing h with
  | nil => simp [play]
  | cons d ds ih =>
      have first : Balances h (h.deed rep d) := by
        rcases deed_cases rep h d with ⟨s, -, hub, happened⟩ | ⟨-, work, q, next, pulls, same⟩
        · rw [Balances, hub, happened]
          exact balances_step rep h s
        · rw [Balances, same, acceptedIn_afterPullOutside, takenIn_afterPullOutside,
            queue_afterPullOutside, List.append_nil]
          exact pulls.items_eq
      rw [Balances] at first
      rw [hub_play_cons, history_play_cons, acceptedIn_append, takenIn_append, List.map_append,
        ← List.append_assoc, first, List.append_assoc, ih, List.append_assoc]

/-- Over a play, what has come onto the queue and what waits in the end has been submitted, and
counts no more often than that. -/
theorem works_play (rep : Repertoire σ) {h : Hub σ} (orderly : h.Orderly) (ds : List Deed) :
    (acceptedIn (play rep h ds).2 ++ (play rep h ds).1.queue.works).Subperm
      (h.queue.works ++ ds.flatMap Deed.submitted) := by
  induction ds generalizing h with
  | nil => simp [play, List.Subperm.refl]
  | cons d ds ih =>
      have first : (acceptedIn (h.deed rep d).happened ++ (h.deed rep d).hub.queue.works).Subperm
          (h.queue.works ++ d.submitted) := by
        rcases deed_cases rep h d with ⟨s, rfl, hub, happened⟩ | ⟨none, work, q, next, pulls, same⟩
        · rw [hub, happened]
          exact works_step rep orderly s
        · rw [same, none, acceptedIn_afterPullOutside, List.nil_append, List.append_nil,
            Queue.works, queue_afterPullOutside, pulls.line_eq]
          exact .refl _
      rw [hub_play_cons, history_play_cons, acceptedIn_append, List.flatMap_cons]
      exact subperm_of_stretches first (ih (orderly_deed rep orderly d))

/-- From the start, all that comes onto the queue has been submitted. -/
theorem IsFresh.acceptedIn_play {c : Config} {parser : Parser} {h : Hub σ}
    (fresh : h.IsFresh c parser) (rep : Repertoire σ) (ds : List Deed) :
    (acceptedIn (play rep h ds).2).Subperm (ds.flatMap Deed.submitted) := by
  have nobody : h.queue.works = [] := by simp [Queue.works, Queue.line, fresh.waiting_eq]
  have all := works_play rep fresh.orderly ds
  rw [nobody, List.nil_append] at all
  exact (List.sublist_append_left ..).subperm.trans all

end ReviewHub.Hub
