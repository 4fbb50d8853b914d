import ReviewHub.Proofs.Queue.Pulls

/-!
# Queues that hold something else

A queue never looks into its envelopes. If others are put in their place, each by itself, it does
the same with those: its slots, its line and its pulls take no notice.
-/

namespace ReviewHub

def Waiter.map (f : Envelope → Envelope) (w : Waiter) : Waiter := { w with work := f w.work }

namespace Queue

/-- The queue with other envelopes in the place of those on it and of those that wait. -/
def map (f : Envelope → Envelope) (q : Queue) : Queue :=
  { q with items := q.items.map f, waiting := q.waiting.map (Waiter.map f) }

variable {f : Envelope → Envelope}

@[simp] theorem map_id (q : Queue) : q.map id = q := by
  have each : Waiter.map id = id := rfl
  rw [map, each, List.map_id, List.map_id]

@[simp] theorem pulls_map (q : Queue) : (q.map f).pulls = q.pulls := rfl

@[simp] theorem capacity_map (q : Queue) : (q.map f).capacity = q.capacity := rfl

@[simp] theorem free_map (q : Queue) : (q.map f).free = q.free := rfl

theorem dropPull_map (q : Queue) (t : Ticket) : (q.map f).dropPull t = (q.dropPull t).map f := rfl

theorem foldl_dropPull_map (q : Queue) (ts : List Ticket) :
    ts.foldl dropPull (q.map f) = (ts.foldl dropPull q).map f := by
  induction ts generalizing q with
  | nil => rfl
  | cons t ts ih => exact ih (q.dropPull t)

theorem signalled?_map (q r : Queue) : signalled? (q.map f) (r.map f) = signalled? q r := by
  have empty (items : List Envelope) : items.map f = [] ↔ items = [] := List.map_eq_nil_iff
  simp only [signalled?, map, ne_eq, empty]

/-! ### Slots -/

theorem grantFirst_map (ws : List Waiter) :
    grantFirst (ws.map (Waiter.map f)) = (grantFirst ws).map (List.map (Waiter.map f)) := by
  induction ws with
  | nil => rfl
  | cons w ws ih =>
      obtain ⟨t, work, granted⟩ := w
      cases granted with
      | false => rfl
      | true =>
          have passes : grantFirst (⟨t, f work, true⟩ :: ws.map (Waiter.map f)) =
              (grantFirst (ws.map (Waiter.map f))).map (⟨t, f work, true⟩ :: ·) := rfl
          refine passes.trans ?_
          rw [ih, grantFirst, if_pos rfl, Option.map_map, Option.map_map]
          rfl

theorem giveSlot_map (q : Queue) : (q.map f).giveSlot = q.giveSlot.map f := by
  have given : grantFirst (q.map f).waiting =
      (grantFirst q.waiting).map (List.map (Waiter.map f)) := grantFirst_map q.waiting
  rw [giveSlot, giveSlot, given]
  cases grantFirst q.waiting <;> rfl

theorem append_map (q : Queue) (work : Envelope) :
    (q.map f).append (f work) = (q.append work).map f := by
  simp only [append, map, List.map_append, List.map_singleton]

/-! ### The line -/

theorem waiter?_map (q : Queue) (t : Ticket) :
    (q.map f).waiter? t = (q.waiter? t).map (Waiter.map f) :=
  List.find?_map

theorem leaveLine_map (q : Queue) (t : Ticket) : (q.map f).leaveLine t = (q.leaveLine t).map f := by
  simp only [leaveLine, map, List.filter_map]
  rfl

theorem withdraw_map (q : Queue) (w : Waiter) :
    (q.map f).withdraw (w.map f) = (q.withdraw w).map f := by
  have ticket : (w.map f).ticket = w.ticket := rfl
  have granted : (w.map f).granted = w.granted := rfl
  rw [withdraw, withdraw, ticket, granted, leaveLine_map]
  split
  · exact giveSlot_map _
  · rfl

/-! ### Operations -/

theorem push_map (q : Queue) (t : Ticket) (work : Envelope) (interrupted : Bool) :
    (q.map f).push t (f work) interrupted =
      ((q.push t work interrupted).1, (q.push t work interrupted).2.1.map f,
        (q.push t work interrupted).2.2) := by
  rw [push, push, capacity_map, free_map]
  split
  · rw [append_map]
  · next left _ _ =>
      exact congrArg (Pushed.accepted, ·, []) (append_map { q with free := left } work)
  · split
    · rfl
    · simp [map, Waiter.map]

theorem pollPush_map (q : Queue) (w : Waiter) (interrupted : Bool) :
    (q.map f).pollPush (w.map f) interrupted =
      ((q.pollPush w interrupted).1, (q.pollPush w interrupted).2.map f) := by
  have granted : (w.map f).granted = w.granted := rfl
  rw [pollPush, pollPush, granted]
  split
  · rw [withdraw_map]
  · split
    · rw [← append_map, ← leaveLine_map]
      rfl
    · rfl

theorem dropPush_map (q : Queue) (w : Waiter) :
    (q.map f).dropPush (w.map f) = ((q.dropPush w).1.map f, [.abandoned (f w.work)]) := by
  rw [dropPush, dropPush, withdraw_map]
  rfl

theorem take_map (q : Queue) :
    (q.map f).take = q.take.map fun taken => (f taken.1, taken.2.map f) := by
  cases items : q.items with
  | nil =>
      have nothing : (q.map f).take = none :=
        take_eq_none_iff.mpr (by rw [map, items]; rfl)
      rw [nothing, take_eq_none_iff.mpr items]
      rfl
  | cons work rest =>
      have mapped : (q.map f).items = f work :: rest.map f := by rw [map, items]; rfl
      have slot := giveSlot_map (f := f) { q with items := rest, queued := q.queued - 1 }
      have capacity : (q.map f).capacity = q.capacity := capacity_map q
      simp only [take, items, mapped, capacity, Option.map_some]
      split
      · rw [← slot]
        rfl
      · rfl

theorem pollPull_map (q : Queue) (t : Ticket) :
    (q.map f).pollPull t = ((q.pollPull t).1.map f, (q.pollPull t).2.map f) := by
  rw [pollPull, pollPull, pulls_map, take_map]
  split
  · cases q.take <;> rfl
  · rfl

theorem pull_map (q : Queue) (t : Ticket) :
    (q.map f).pull t = ((q.pull t).1.map f, (q.pull t).2.map f) :=
  pollPull_map { q with pulls := q.pulls ++ [t] } t

theorem tryPull_map (q : Queue) :
    (q.map f).tryPull = (q.tryPull.1.map f, q.tryPull.2.map f) := by
  rw [tryPull, tryPull, pulls_map, take_map]
  cases q.pulls <;> cases q.take <;> rfl

end Queue

end ReviewHub
