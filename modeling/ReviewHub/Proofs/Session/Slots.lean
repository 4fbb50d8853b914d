import ReviewHub.Proofs.Queue.Slots
import ReviewHub.Proofs.Session.Conservation

/-!
# Conservation of slots

Whatever is done with a bounded queue, none of its slots is lost, used twice or taken from the push
that it is reserved for. The account of the slots holds from the start and every operation keeps it;
what a push can expect is read off the account. A waiting push goes by the token that it was started
with, so it is interrupted only when that one has been cancelled.
-/

namespace ReviewHub.Session

/-! ### Runs -/

/-- What every operation preserves of a session and all that has been done with it holds after a
run. -/
theorem run_invariant {P : Session → List Operation → Prop}
    (preserved : ∀ s past o, P s past → P (s.apply o).2.1 (past ++ [o])) {s : Session}
    (past : List Operation) (start : P s past) (os : List Operation) :
    P (s.run os).2 (past ++ os) := by
  induction os generalizing s past with
  | nil => simpa [run] using start
  | cons o os ih =>
      have rest := ih (past ++ [o]) (preserved s past o start)
      rwa [List.append_assoc] at rest

theorem tickets_run {s : Session} (distinct : s.queue.tickets.Nodup) (os : List Operation) :
    (s.run os).2.queue.tickets.Nodup :=
  run_invariant (P := fun s _ => s.queue.tickets.Nodup)
    (fun _ _ o before => tickets_apply before o) [] distinct os

/-! ### Slots -/

theorem change_apply (s : Session) (o : Operation) :
    Queue.Change s.queue (s.apply o).2.1.queue := by
  cases o with
  | push t work token =>
      rw [apply]
      split
      · exact .same
      · exact .push ..
  | pollPush t =>
      rw [apply]
      split
      · next found => exact .pollPush found _
      · exact .same
  | dropPush t =>
      rw [apply]
      split
      · next found => exact .dropPush found
      · exact .same
  | pull t =>
      rw [apply]
      split
      · exact .same
      · exact .pull ..
  | pollPull t =>
      rw [apply]
      split
      · exact .pollPull ..
      · exact .same
  | dropPull t => exact .dropPulls [t]
  | tryPull => exact .tryPull
  | cancel token => exact .same

theorem slotted_run {s : Session} {capacity : Option Nat} (slotted : s.queue.Slotted capacity 0)
    (distinct : s.queue.tickets.Nodup) (os : List Operation) :
    (s.run os).2.queue.Slotted capacity 0 := by
  have both := run_invariant
    (P := fun s _ => s.queue.Slotted capacity 0 ∧ s.queue.tickets.Nodup)
    (fun s _ o before =>
      ⟨before.1.change before.2 (change_apply s o), tickets_apply before.2 o⟩)
    [] ⟨slotted, distinct⟩ os
  exact both.1

/-! ### Tokens -/

/-- All that an operation can do to the line: nothing, or somebody leaves it, or a push joins it
with its token. -/
theorem line_apply_cases (s : Session) (o : Operation) :
    ((s.apply o).2.1.tokens = s.tokens ∧
        ((s.apply o).2.1.queue.line = s.queue.line ∨
          ∃ t, (s.apply o).2.1.queue.line = s.queue.line.filter (·.1 ≠ t))) ∨
      ∃ t work token, o = .push t work token ∧ s.queue.workOf? t = none ∧
        (s.apply o).2.1.tokens = (t, token) :: s.tokens ∧
        (s.apply o).2.1.queue.line = s.queue.line ++ [(t, work)] := by
  cases o with
  | push t work token =>
      rw [apply]
      split
      · exact .inl ⟨rfl, .inl rfl⟩
      · next unused =>
          have absent : s.queue.workOf? t = none := by
            simp only [inUse, Bool.or_eq_true, not_or, Bool.not_eq_true] at unused
            exact Queue.workOf?_of_waiter?_none (by simpa using unused.1)
          have line := Queue.line_push s.queue t work (s.isCancelled token)
          by_cases waiting : (s.queue.push t work (s.isCancelled token)).1 = .waiting
          · exact .inr ⟨t, work, token, rfl, absent, if_pos waiting, line.trans (if_pos waiting)⟩
          · exact .inl ⟨if_neg waiting, .inl (line.trans (if_neg waiting))⟩
  | pollPush t =>
      rw [apply]
      split
      · next w _ =>
          have line := Queue.line_pollPush s.queue w (s.isInterrupted t)
          split at line
          · exact .inl ⟨rfl, .inl line⟩
          · exact .inl ⟨rfl, .inr ⟨w.ticket, line⟩⟩
      · exact .inl ⟨rfl, .inl rfl⟩
  | dropPush t =>
      rw [apply]
      split
      · next w _ => exact .inl ⟨rfl, .inr ⟨w.ticket, Queue.line_dropPush ..⟩⟩
      · exact .inl ⟨rfl, .inl rfl⟩
  | pull t =>
      rw [apply]
      split
      · exact .inl ⟨rfl, .inl rfl⟩
      · exact .inl ⟨rfl, .inl (Queue.line_pull ..)⟩
  | pollPull t =>
      rw [apply]
      split
      · exact .inl ⟨rfl, .inl (Queue.line_pollPull ..)⟩
      · exact .inl ⟨rfl, .inl rfl⟩
  | dropPull t => exact .inl ⟨rfl, .inl rfl⟩
  | tryPull => exact .inl ⟨rfl, .inl (Queue.line_tryPull ..)⟩
  | cancel token => exact .inl ⟨rfl, .inl rfl⟩

/-- Whoever waits after an operation did so before and has the same token, or has just begun. -/
theorem workOf?_apply {s : Session} {o : Operation} {u : Ticket} {work : Envelope}
    (waits : (s.apply o).2.1.queue.workOf? u = some work) :
    (s.queue.workOf? u = some work ∧
        (s.apply o).2.1.tokens.lookup u = s.tokens.lookup u) ∨
      ∃ token, o = .push u work token ∧ (s.apply o).2.1.tokens.lookup u = some token := by
  rcases line_apply_cases s o with
    ⟨tokens, same | ⟨t, left⟩⟩ | ⟨t, new, token, push, absent, tokens, joined⟩
  · rw [Queue.workOf?_of_line same] at waits
    exact .inl ⟨waits, by rw [tokens]⟩
  · rw [Queue.workOf?_of_line_filter left] at waits
    split at waits
    · cases waits
    · exact .inl ⟨waits, by rw [tokens]⟩
  · rw [Queue.workOf?_of_line_append joined] at waits
    by_cases here : u = t
    · subst here
      rw [absent, if_pos rfl] at waits
      cases waits
      exact .inr ⟨token, push, by rw [tokens, List.lookup_cons_self]⟩
    · rw [if_neg here, Option.or_none] at waits
      refine .inl ⟨waits, ?_⟩
      rw [tokens, List.lookup_cons, beq_eq_false_iff_ne.mpr here]

theorem cancelled_apply (s : Session) (o : Operation) (token : Token) :
    token ∈ (s.apply o).2.1.cancelled ↔ token ∈ s.cancelled ∨ o = .cancel token := by
  cases o with
  | cancel other => simp [apply, or_comm, eq_comm]
  | push t work other =>
      by_cases used : s.inUse t <;> simp [apply, used]
  | pollPush t => cases found : s.queue.waiter? t <;> simp [apply, found]
  | dropPush t => cases found : s.queue.waiter? t <;> simp [apply, found]
  | pull t =>
      by_cases used : s.inUse t <;> simp [apply, used]
  | pollPull t =>
      by_cases pending : t ∈ s.queue.pulls <;> simp [apply, pending]
  | dropPull t => simp [apply]
  | tryPull => simp [apply]

/-- Every push in line goes by a token that it was started with, and those tokens are cancelled
for which there was a call. -/
structure Tokened (s : Session) (past : List Operation) : Prop where
  started : ∀ t work, s.queue.workOf? t = some work →
    ∃ token, .push t work token ∈ past ∧ s.tokens.lookup t = some token
  cancelled : ∀ token, token ∈ s.cancelled ↔ .cancel token ∈ past

theorem tokened_apply (s : Session) (past : List Operation) (o : Operation)
    (tokened : s.Tokened past) : (s.apply o).2.1.Tokened (past ++ [o]) := by
  constructor
  · intro t work waits
    rcases workOf?_apply waits with ⟨before, same⟩ | ⟨token, rfl, new⟩
    · obtain ⟨token, began, found⟩ := tokened.started t work before
      exact ⟨token, List.mem_append_left _ began, same.trans found⟩
    · exact ⟨token, List.mem_append_right _ List.mem_cons_self, new⟩
  · intro token
    rw [cancelled_apply, tokened.cancelled, List.mem_append, List.mem_singleton, eq_comm]

/-! ### The law -/

theorem answer_pollPush {s : Session} {t : Ticket} {w : Waiter}
    (found : s.queue.waiter? t = some w) :
    (s.apply (.pollPush t)).1 = .pushed w.work .accepted ↔
      w.granted = true ∧ s.isInterrupted t = false := by
  simp only [apply, found, Answer.pushed.injEq, true_and, Queue.pollPush]
  cases s.isInterrupted t <;> cases w.granted <;> simp

theorem queue_of_withdrawn {s : Session} {t : Ticket} {w : Waiter} {o : Operation}
    (found : s.queue.waiter? t = some w)
    (withdrawn : o = .dropPush t ∨ o = .pollPush t ∧ s.isInterrupted t = true) :
    (s.apply o).2.1.queue = s.queue.withdraw w := by
  rcases withdrawn with rfl | ⟨rfl, interrupted⟩
  · simp only [apply, found, Queue.dropPush]
  · simp only [apply, found, interrupted, Queue.pollPush, if_true]

/-- The slots of a bounded queue, whatever is done with it. The waiting pushes that own a slot stand
before those that own none. The envelopes in the queue and the reserved slots are never more than
the capacity, and they are as many while a push waits without a slot. So a new push is accepted at
once exactly if they are fewer, even if its token has been cancelled. A waiting push is accepted
when it is looked at exactly if it owns a slot and its token has not been cancelled. And when a push
that owns a slot is dropped or interrupted, the slot goes to the first waiting push without one, or
it is free; nothing else changes, and the others keep their order. -/
theorem slots_conserved {c : Nat} {q : Queue} (built : Queue.build (some c) = .ok q)
    (os : List Operation) :
    let s := ((ofQueue q).run os).2
    let used := s.queue.items.length + s.queue.owners.length
    s.queue.waiting = s.queue.owners ++ s.queue.others ∧
      used ≤ c ∧
      (s.queue.others ≠ [] → used = c) ∧
      s.queue.size = s.queue.items.length ∧
      (∀ t work token, ¬s.inUse t →
        ((s.apply (.push t work token)).1 = .pushed work .accepted ↔ used < c)) ∧
      (∀ t w, s.queue.waiter? t = some w →
        ∃ token, .push t w.work token ∈ os ∧ s.tokens.lookup t = some token ∧
          ((s.apply (.pollPush t)).1 = .pushed w.work .accepted ↔
            w.granted = true ∧ .cancel token ∉ os)) ∧
      ∀ t w o, s.queue.waiter? t = some w → w.granted = true →
        (o = .dropPush t ∨ o = .pollPush t ∧ s.isInterrupted t = true) →
        (s.apply o).2.1.queue.line = s.queue.line.filter (·.1 ≠ t) ∧
        (s.apply o).2.1.queue =
          match s.queue.others with
          | [] =>
            { s.queue with
              waiting := s.queue.owners.filter (·.ticket ≠ t), free := s.queue.free + 1 }
          | v :: vs =>
            { s.queue with
              waiting := s.queue.owners.filter (·.ticket ≠ t) ++
                { v with granted := true } :: vs } := by
  obtain ⟨fresh, -⟩ := Queue.slotted_of_build built
  obtain ⟨-, nobody⟩ := Queue.fresh_of_build built
  have empty : (ofQueue q).queue.line = [] := by simp [ofQueue, Queue.line, nobody]
  have distinct : (ofQueue q).queue.tickets.Nodup := by simp [Queue.tickets, empty]
  have unused : (ofQueue q).Tokened [] := by
    constructor
    · intro t work waits
      rw [Queue.workOf?_eq_find?, empty] at waits
      cases waits
    · intro token
      constructor
      · intro granted
        cases granted
      · intro unused
        cases unused
  intro s used
  have slotted : s.queue.Slotted (some c) 0 := slotted_run fresh distinct os
  have apart : s.queue.tickets.Nodup := tickets_run distinct os
  have tokened : s.Tokened os := run_invariant tokened_apply [] unused os
  have account : used + s.queue.free = c := slotted.account c rfl
  refine ⟨slotted.waiting_eq, by omega, ?_, slotted.size_eq, ?_, ?_, ?_⟩
  · intro somebody
    have none := slotted.full somebody
    omega
  · intro t work token free
    rw [answer_push free, Answer.pushed.injEq]
    exact (and_iff_right rfl).trans (slotted.push_accepted_iff rfl t work _)
  · intro t w found
    obtain ⟨token, began, known⟩ := tokened.started t w.work (Queue.workOf?_of_waiter? found)
    refine ⟨token, began, known, ?_⟩
    rw [answer_pollPush found, isInterrupted, known, ← tokened.cancelled]
    simp [isCancelled]
  · intro t w o found granted withdrawn
    rw [queue_of_withdrawn found withdrawn]
    refine ⟨?_, slotted.withdraw_eq apart found granted⟩
    rw [Queue.line_withdraw, Queue.ticket_of_waiter? found]

/-- Two pushes wait for the one slot of a queue. The first of them owns it once the queue is empty,
and when it is interrupted the second does. -/
theorem slots_conserved_handed_on :
    let work (n : Nat) : Envelope := ⟨⟨BitVec.ofNat 128 n, 0⟩, .text "" none⟩
    let os : List Operation := [.push 0 (work 0) "a", .push 1 (work 1) "b", .push 2 (work 2) "a",
      .pull 3, .cancel "b"]
    let q : Queue := { capacity := some 1, free := 1 }
    let s := ((ofQueue q).run os).2
    Queue.build (some 1) = .ok q ∧
      s.queue.waiting = [⟨1, work 1, true⟩, ⟨2, work 2, false⟩] ∧
      (s.apply (.push 4 (work 4) "a")).1 ≠ .pushed (work 4) .accepted ∧
      (s.apply (.pollPush 1)).1 ≠ .pushed (work 1) .accepted ∧
      (s.apply (.pollPush 1)).2.1.queue = { s.queue with waiting := [⟨2, work 2, true⟩] } := by
  intro work os q s
  have built : Queue.build (some 1) = .ok q := rfl
  obtain ⟨-, -, -, -, fresh, waiting, withdrawn⟩ := slots_conserved built os
  have first : s.queue.waiter? 1 = some ⟨1, work 1, true⟩ := rfl
  refine ⟨built, rfl, ?_, ?_, ?_⟩
  · intro accepted
    have below := (fresh 4 (work 4) "a" (by decide)).mp accepted
    exact Nat.lt_irrefl 1 below
  · intro accepted
    obtain ⟨token, -, known, outcome⟩ := waiting 1 _ first
    cases known
    exact (outcome.mp accepted).2 (by simp [os])
  · exact (withdrawn 1 _ (.pollPush 1) first rfl (.inr ⟨rfl, rfl⟩)).2

end ReviewHub.Session
