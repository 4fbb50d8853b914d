import ReviewHub.Proofs.Session.Slots

/-!
# The length of a queue

A queue does not look at its contents to tell its length: it keeps a count, which goes up where a
push is completed and down where an envelope is handed out. The count is always the number of
envelopes in the queue. Pushes that wait, are interrupted or are dropped do not touch it, whether or
not a slot was reserved for them, and neither do pulls that are dropped.
-/

namespace ReviewHub

namespace Queue

/-! ### The count -/

theorem queued_push (q : Queue) (t : Ticket) (work : Envelope) (interrupted : Bool) :
    (q.push t work interrupted).2.1.queued =
      q.queued + ((q.push t work interrupted).1.landed work).length := by
  rw [push]
  split
  · rfl
  · rfl
  · cases interrupted <;> simp [Pushed.landed]

theorem queued_pollPush (q : Queue) (w : Waiter) (interrupted : Bool) :
    (q.pollPush w interrupted).2.queued =
      q.queued + ((q.pollPush w interrupted).1.landed w.work).length := by
  rw [pollPush]
  split
  · simp [Pushed.landed]
  · split <;> simp [Pushed.landed, leaveLine]

theorem queued_of_take {q r : Queue} {work : Envelope} (h : q.take = some (work, r)) :
    q.queued = r.queued + 1 := by
  rw [take] at h
  split at h
  · cases h
  · obtain ⟨-, rfl⟩ := Prod.mk.inj (Option.some.inj h)
    split
    · rw [queued_giveSlot]
      exact (Int.sub_add_cancel ..).symm
    · exact (Int.sub_add_cancel ..).symm

@[simp] theorem queued_dropPull (q : Queue) (t : Ticket) : (q.dropPull t).queued = q.queued := rfl

theorem queued_pollPull (q : Queue) (t : Ticket) :
    q.queued = (q.pollPull t).2.queued + (q.pollPull t).1.toList.length := by
  rw [pollPull]
  split
  · split
    · next h => simpa using queued_of_take h
    · exact (Int.add_zero _).symm
  · exact (Int.add_zero _).symm

theorem queued_pull (q : Queue) (t : Ticket) :
    q.queued = (q.pull t).2.queued + (q.pull t).1.toList.length :=
  queued_pollPull { q with pulls := q.pulls ++ [t] } t

theorem queued_tryPull (q : Queue) :
    q.queued = q.tryPull.2.queued + q.tryPull.1.toList.length := by
  rw [tryPull]
  split
  · next h => exact queued_of_take h
  · exact (Int.add_zero _).symm

end Queue

namespace Session

/-- An operation adds to the count the pushes that it completes, and takes off what it hands out. -/
theorem queued_apply (s : Session) (o : Operation) :
    s.queue.queued + (s.apply o).1.completed.length =
      (s.apply o).2.1.queue.queued + (s.apply o).1.returned.length := by
  cases o with
  | push t work token =>
      by_cases used : s.inUse t
      · simp [apply, used]
      · rw [answer_push used, queue_push used]
        simpa using (Queue.queued_push ..).symm
  | pollPush t =>
      cases found : s.queue.waiter? t with
      | none => simp [apply, found]
      | some w => simpa [apply, found] using (Queue.queued_pollPush ..).symm
  | dropPush t =>
      cases found : s.queue.waiter? t <;> simp [apply, found, Queue.dropPush]
  | pull t =>
      by_cases used : s.inUse t
      · simp [apply, used]
      · simpa [apply, used] using Queue.queued_pull s.queue t
  | pollPull t =>
      by_cases pending : t ∈ s.queue.pulls
      · simpa [apply, pending] using Queue.queued_pollPull s.queue t
      · simp [apply, pending]
  | dropPull t => simp [apply]
  | tryPull => simpa [apply] using Queue.queued_tryPull s.queue
  | cancel token => simp [apply]

/-- In every turn of a run the count changes so. -/
theorem queued_turns (s : Session) (os : List Operation) :
    ∀ n ∈ s.turns os, n.before.queue.queued + n.answer.completed.length =
      n.after.queue.queued + n.answer.returned.length := by
  induction os generalizing s with
  | nil =>
      intro n member
      cases member
  | cons o os ih =>
      intro n member
      rcases List.mem_cons.mp member with rfl | later
      · exact queued_apply s o
      · exact ih _ n later

/-- The count keeps pace with what is in the queue. -/
theorem queued_run (s : Session) (os : List Operation) :
    (s.run os).2.queue.queued - (s.run os).2.queue.items.length =
      s.queue.queued - s.queue.items.length := by
  induction os generalizing s with
  | nil => rfl
  | cons o os ih =>
      have counted := queued_apply s o
      have moved := congrArg List.length (items_apply s o)
      rw [List.length_append, List.length_append] at moved
      rw [session_run_cons, ih]
      omega

/-- The length of a queue, whatever has been done with it. The count is the number of envelopes in
the queue, which is the number of completed pushes less the number of envelopes handed out. So it
is never negative and the length is just the count; the length is at most the capacity, and the
queue is said to be empty exactly if nothing is in it. Every push that was started is counted, has
come out again, has been interrupted or dropped, or is still in line; and no operation changes the
count but by completing a push or handing out an envelope. -/
theorem size_exact {capacity : Option Nat} {q : Queue} (built : Queue.build capacity = .ok q)
    (os : List Operation) :
    let answers := ((ofQueue q).run os).1
    let final := ((ofQueue q).run os).2.queue
    let turns := (ofQueue q).turns os
    final.queued = final.items.length ∧
      final.queued = ((answers.flatMap Answer.completed).length : Int) -
        (answers.flatMap Answer.returned).length ∧
      final.queued = final.size ∧
      (∀ c, capacity = some c → final.size ≤ c) ∧
      (final.isEmpty = true ↔ final.items = []) ∧
      (turns.flatMap Turn.started).length =
        final.size + (answers.flatMap Answer.returned).length +
          (answers.flatMap Answer.interrupted).length + (turns.flatMap Turn.dropped).length +
          final.works.length ∧
      ∀ n ∈ turns, n.before.queue.queued + n.answer.completed.length =
        n.after.queue.queued + n.answer.returned.length := by
  obtain ⟨fresh, -⟩ := Queue.slotted_of_build built
  obtain ⟨noItems, nobody⟩ := Queue.fresh_of_build built
  have empty : (ofQueue q).queue.line = [] := by simp [ofQueue, Queue.line, nobody]
  have distinct : (ofQueue q).queue.tickets.Nodup := by simp [Queue.tickets, empty]
  intro answers final turns
  have counted : final.queued = final.items.length := by
    have pace := queued_run (ofQueue q) os
    have none : (ofQueue q).queue.queued = (ofQueue q).queue.items.length := fresh.queued_eq
    change final.queued - final.items.length = _ at pace
    omega
  have size : final.size = final.items.length := by
    rw [Queue.size, counted, Int.toNat_natCast]
  have order : (answers.flatMap Answer.completed).length =
      (answers.flatMap Answer.returned).length + final.items.length := by
    have all := congrArg List.length (items_run (ofQueue q) os)
    rwa [show (ofQueue q).queue.items = [] from noItems, List.nil_append,
      List.length_append] at all
  refine ⟨counted, ?difference, ?clamp, ?bounded, ?isEmpty, ?places, queued_turns _ os⟩
  case difference => omega
  case clamp => omega
  case bounded =>
    intro c bound
    have account := (slotted_run fresh distinct os).account c bound
    change final.items.length + final.owners.length + final.free + 0 = c at account
    omega
  case isEmpty => rw [Queue.isEmpty, size, beq_iff_eq, List.length_eq_zero_iff]
  case places =>
    have all := (works_run distinct os).length_eq
    rw [Queue.works, empty, List.map_nil, List.nil_append] at all
    simp only [List.length_append] at all
    change (turns.flatMap Turn.started).length = (answers.flatMap Answer.completed).length +
      (answers.flatMap Answer.interrupted).length + (turns.flatMap Turn.dropped).length +
      final.works.length at all
    omega

/-- Of five pushes on a queue with one slot, the first has come out, a slot is reserved for the
second when it is dropped and for the third when it is interrupted, and the fourth waits while the
fifth, which waited as well, is in the queue. -/
theorem size_exact_contended :
    let work (n : Nat) : Envelope := ⟨⟨BitVec.ofNat 128 n, 0⟩, .text "" none⟩
    let os : List Operation := [.push 0 (work 0) "a", .push 1 (work 1) "a", .push 2 (work 2) "b",
      .push 3 (work 3) "a", .push 4 (work 4) "a", .tryPull, .dropPush 1, .cancel "b", .pollPush 2,
      .pollPush 3]
    let q : Queue := { capacity := some 1, free := 1 }
    let final := ((ofQueue q).run os).2.queue
    Queue.build (some 1) = .ok q ∧ final.queued = 1 ∧ final.size ≤ 1 ∧ final.works = [work 4] ∧
      ¬final.isEmpty = true := by
  intro work os q final
  have built : Queue.build (some 1) = .ok q := rfl
  obtain ⟨counted, -, -, bounded, empty, -⟩ := size_exact built os
  refine ⟨built, counted, bounded 1 rfl, rfl, ?_⟩
  intro nothing
  cases empty.mp nothing

end Session

end ReviewHub
