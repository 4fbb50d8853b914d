import ReviewHub.Proofs.Queue.Contents
import ReviewHub.Work.Session
import Mathlib.Data.List.Perm.Lattice

/-!
# Conservation of envelopes

Nothing that has been pushed is lost by a queue, handed out twice or reordered. What the answers
hand out, followed by what is in the queue, are the envelopes of the completed pushes in the order
in which these were completed; and every push that was started is in exactly one place: completed,
interrupted, dropped, or still in line.

The first statement holds of any run from an empty queue. The second needs the tickets in line to
be distinct, which the refusal of tickets in use ensures.
-/

namespace ReviewHub

namespace Answer

/-- The envelopes that the answer hands out: one at most. -/
def returned : Answer → List Envelope
  | .pulled work => work.toList
  | _ => []

/-- The envelopes whose pushes the answer completes: one at most. -/
def completed : Answer → List Envelope
  | .pushed work .accepted => [work]
  | _ => []

/-- The envelopes whose pushes have been interrupted: one at most. -/
def interrupted : Answer → List Envelope
  | .pushed work .interrupted => [work]
  | _ => []

@[simp] theorem returned_none : Answer.none.returned = [] := rfl

@[simp] theorem completed_none : Answer.none.completed = [] := rfl

@[simp] theorem interrupted_none : Answer.none.interrupted = [] := rfl

@[simp] theorem returned_pulled (work : Option Envelope) :
    (pulled work).returned = work.toList := rfl

@[simp] theorem completed_pulled (work : Option Envelope) : (pulled work).completed = [] := rfl

@[simp] theorem interrupted_pulled (work : Option Envelope) : (pulled work).interrupted = [] := rfl

@[simp] theorem returned_pushed (work : Envelope) (p : Pushed) :
    (pushed work p).returned = [] := rfl

@[simp] theorem completed_pushed (work : Envelope) (p : Pushed) :
    (pushed work p).completed = p.landed work := by
  cases p <;> rfl

end Answer

/-- The envelopes that an operation pushes: one at most. -/
def Operation.pushes : Operation → List Envelope
  | .push _ work _ => [work]
  | _ => []

namespace Session

/-- An operation and the session that it is applied to. -/
structure Turn where
  before : Session
  operation : Operation

namespace Turn

def answer (n : Turn) : Answer := (n.before.apply n.operation).1

def after (n : Turn) : Session := (n.before.apply n.operation).2.1

/-- The envelopes whose pushes begin: one at most. -/
def started (n : Turn) : List Envelope :=
  match n.operation with
  | .push t work _ => if n.before.inUse t then [] else [work]
  | _ => []

/-- The envelopes whose waiting pushes are dropped: one at most. -/
def dropped (n : Turn) : List Envelope :=
  match n.operation with
  | .dropPush t => (n.before.queue.workOf? t).toList
  | _ => []

end Turn

/-- The operations of a run, each with the session that it finds. -/
def turns (s : Session) : List Operation → List Turn
  | [] => []
  | o :: os => ⟨s, o⟩ :: turns (s.apply o).2.1 os

@[simp] theorem answers_run_cons (s : Session) (o : Operation) (os : List Operation) :
    (s.run (o :: os)).1 = (s.apply o).1 :: ((s.apply o).2.1.run os).1 := rfl

@[simp] theorem session_run_cons (s : Session) (o : Operation) (os : List Operation) :
    (s.run (o :: os)).2 = ((s.apply o).2.1.run os).2 := rfl

theorem started_sublist (s : Session) (os : List Operation) :
    ((s.turns os).flatMap Turn.started).Sublist (os.flatMap Operation.pushes) := by
  induction os generalizing s with
  | nil => exact .slnil
  | cons o os ih =>
      simp only [turns, List.flatMap_cons]
      refine List.Sublist.append ?_ (ih _)
      cases o with
      | push t work token =>
          simp only [Turn.started, Operation.pushes]
          split <;> simp
      | _ => exact .refl _

theorem answer_push {s : Session} {t : Ticket} (unused : ¬s.inUse t) (work : Envelope)
    (token : Token) :
    (s.apply (.push t work token)).1 =
      .pushed work (s.queue.push t work (s.isCancelled token)).1 := by
  simp [apply, unused]

theorem queue_push {s : Session} {t : Ticket} (unused : ¬s.inUse t) (work : Envelope)
    (token : Token) :
    (s.apply (.push t work token)).2.1.queue =
      (s.queue.push t work (s.isCancelled token)).2.1 := by
  simp [apply, unused]

/-! ### What is handed out -/

/-- An operation adds to the end of the queue what it completes, and takes what it hands out off
the front. -/
theorem items_apply (s : Session) (o : Operation) :
    s.queue.items ++ (s.apply o).1.completed =
      (s.apply o).1.returned ++ (s.apply o).2.1.queue.items := by
  cases o with
  | push t work token =>
      by_cases used : s.inUse t
      · simp [apply, used]
      · rw [answer_push used, queue_push used]
        simpa using (Queue.items_push ..).symm
  | pollPush t =>
      cases found : s.queue.waiter? t with
      | none => simp [apply, found]
      | some w => simpa [apply, found] using (Queue.items_pollPush ..).symm
  | dropPush t =>
      cases found : s.queue.waiter? t <;> simp [apply, found, Queue.items_dropPush]
  | pull t =>
      by_cases used : s.inUse t
      · simp [apply, used]
      · simpa [apply, used] using Queue.items_pull s.queue t
  | pollPull t =>
      by_cases pending : t ∈ s.queue.pulls
      · simpa [apply, pending] using Queue.items_pollPull s.queue t
      · simp [apply, pending]
  | dropPull t => simp [apply]
  | tryPull => simpa [apply] using Queue.items_tryPull s.queue
  | cancel token => simp [apply]

/-- A run continues the queue that it begins with. -/
theorem items_run (s : Session) (os : List Operation) :
    s.queue.items ++ (s.run os).1.flatMap Answer.completed =
      (s.run os).1.flatMap Answer.returned ++ (s.run os).2.queue.items := by
  induction os generalizing s with
  | nil => simp [run]
  | cons o os ih =>
      simp only [answers_run_cons, session_run_cons, List.flatMap_cons]
      rw [← List.append_assoc, items_apply, List.append_assoc, ih, List.append_assoc]

/-! ### What becomes of pushes -/

/-- Nobody joins the line under a ticket in use, so the tickets in line stay distinct. -/
theorem tickets_apply {s : Session} (distinct : s.queue.tickets.Nodup) (o : Operation) :
    (s.apply o).2.1.queue.tickets.Nodup := by
  have leaving (t : Ticket) : ((s.queue.line.filter (·.1 ≠ t)).map Prod.fst).Nodup :=
    distinct.sublist (List.filter_sublist.map _)
  cases o with
  | push t work token =>
      by_cases used : s.inUse t
      · simpa [apply, used] using distinct
      · have absent : t ∉ s.queue.tickets := by
          rw [← Queue.waiter?_eq_none_iff]
          simp only [inUse, Bool.or_eq_true, not_or, Bool.not_eq_true] at used
          simpa using used.1
        rw [queue_push used, Queue.tickets, Queue.line_push]
        split
        · rw [List.map_append]
          exact distinct.append (List.nodup_singleton t) (by simpa using absent)
        · exact distinct
  | pollPush t =>
      cases found : s.queue.waiter? t with
      | none => simpa [apply, found] using distinct
      | some w =>
          simp only [apply, found, Queue.tickets, Queue.line_pollPush]
          split
          · exact distinct
          · exact leaving w.ticket
  | dropPush t =>
      cases found : s.queue.waiter? t with
      | none => simpa [apply, found] using distinct
      | some w => simpa [apply, found, Queue.tickets] using leaving w.ticket
  | pull t =>
      by_cases used : s.inUse t
      · simpa [apply, used] using distinct
      · simpa [apply, used, Queue.tickets] using distinct
  | pollPull t =>
      by_cases pending : t ∈ s.queue.pulls
      · simpa [apply, pending, Queue.tickets] using distinct
      · simpa [apply, pending] using distinct
  | dropPull t => exact distinct
  | tryPull => simpa [apply, Queue.tickets] using distinct
  | cancel token => exact distinct

/-- One operation moves envelopes between the places where a started push can be. -/
theorem works_apply {s : Session} (distinct : s.queue.tickets.Nodup) (o : Operation) :
    (s.queue.works ++ Turn.started ⟨s, o⟩).Perm
      ((s.apply o).1.completed ++ (s.apply o).1.interrupted ++ Turn.dropped ⟨s, o⟩ ++
        (s.apply o).2.1.queue.works) := by
  cases o with
  | push t work token =>
      by_cases used : s.inUse t
      · simp [apply, used, Turn.started, Turn.dropped]
      · rw [answer_push used, queue_push used, Queue.works, Queue.works, Queue.line_push]
        simp only [Turn.started, used, Turn.dropped]
        cases (s.queue.push t work (s.isCancelled token)).1 with
        | accepted => simp [Pushed.landed, Answer.interrupted]
        | interrupted => simp [Pushed.landed, Answer.interrupted]
        | waiting => simp [Pushed.landed, Answer.interrupted]
  | pollPush t =>
      cases found : s.queue.waiter? t with
      | none => simp [apply, found, Turn.started, Turn.dropped]
      | some w =>
          have left := Queue.works_perm_of_waiter? distinct found
          rw [← Queue.ticket_of_waiter? found, Queue.works] at left
          simp only [apply, found, Turn.started, Turn.dropped, Queue.works, Queue.line_pollPush]
          cases (s.queue.pollPush w (s.isInterrupted t)).1 with
          | accepted => simpa [Pushed.landed, Answer.interrupted] using left
          | interrupted => simpa [Pushed.landed, Answer.interrupted] using left
          | waiting => simp [Pushed.landed, Answer.interrupted]
  | dropPush t =>
      cases found : s.queue.waiter? t with
      | none => simp [apply, found, Turn.started, Turn.dropped, Queue.workOf?_of_waiter?_none found]
      | some w =>
          have left := Queue.works_perm_of_waiter? distinct found
          rw [← Queue.ticket_of_waiter? found] at left
          simpa [apply, found, Turn.started, Turn.dropped, Queue.works,
            Queue.workOf?_of_waiter? found] using left
  | pull t =>
      by_cases used : s.inUse t <;>
        simp [apply, used, Turn.started, Turn.dropped, Queue.works]
  | pollPull t =>
      by_cases pending : t ∈ s.queue.pulls <;>
        simp [apply, pending, Turn.started, Turn.dropped, Queue.works]
  | dropPull t => simp [apply, Turn.started, Turn.dropped, Queue.works]
  | tryPull => simp [apply, Turn.started, Turn.dropped, Queue.works]
  | cancel token => simp [apply, Turn.started, Turn.dropped]

/-- Every started push is in one place: completed, interrupted, dropped or still in line. -/
theorem works_run {s : Session} (distinct : s.queue.tickets.Nodup) (os : List Operation) :
    (s.queue.works ++ (s.turns os).flatMap Turn.started).Perm
      ((s.run os).1.flatMap Answer.completed ++ (s.run os).1.flatMap Answer.interrupted ++
        (s.turns os).flatMap Turn.dropped ++ (s.run os).2.queue.works) := by
  induction os generalizing s with
  | nil => simp [run, turns]
  | cons o os ih =>
      have first := works_apply distinct o
      have rest := ih (tickets_apply distinct o)
      classical
      refine List.perm_iff_count.mpr ?_
      intro work
      have before := first.count_eq work
      have after := rest.count_eq work
      simp only [answers_run_cons, session_run_cons, turns, List.flatMap_cons,
        List.count_append] at before after ⊢
      omega

/-! ### The law -/

/-- Whatever is done with a queue, and in any order: what has been handed out, followed by what is
in the queue, is what pushes have completed, in the order of completion. Every started push is in
one place. So if the pushed envelopes can be told apart, none is handed out twice, and none that
was interrupted or dropped is handed out at all. Dropping a pull takes nothing out of the queue. -/
theorem returned_append_items {capacity : Option Nat} {q : Queue}
    (built : Queue.build capacity = .ok q) (os : List Operation) :
    let answers := ((ofQueue q).run os).1
    let final := ((ofQueue q).run os).2
    let turns := (ofQueue q).turns os
    answers.flatMap Answer.returned ++ final.queue.items = answers.flatMap Answer.completed ∧
      (turns.flatMap Turn.started).Perm
        (answers.flatMap Answer.returned ++ final.queue.items ++
          answers.flatMap Answer.interrupted ++ turns.flatMap Turn.dropped ++
          final.queue.works) ∧
      ((os.flatMap Operation.pushes).Nodup →
        (answers.flatMap Answer.returned).Nodup ∧
        (∀ work ∈ answers.flatMap Answer.interrupted, work ∉ answers.flatMap Answer.returned) ∧
        ∀ work ∈ turns.flatMap Turn.dropped, work ∉ answers.flatMap Answer.returned) ∧
      ∀ n ∈ turns, ∀ t, n.operation = .dropPull t →
        n.answer = .none ∧ n.after.queue.items = n.before.queue.items := by
  obtain ⟨noItems, nobody⟩ := Queue.fresh_of_build built
  intro answers final turns
  have order : answers.flatMap Answer.returned ++ final.queue.items =
      answers.flatMap Answer.completed := by
    have all := items_run (ofQueue q) os
    rw [show (ofQueue q).queue.items = [] from noItems, List.nil_append] at all
    exact all.symm
  have places : (turns.flatMap Turn.started).Perm
      (answers.flatMap Answer.returned ++ final.queue.items ++
        answers.flatMap Answer.interrupted ++ turns.flatMap Turn.dropped ++
        final.queue.works) := by
    have empty : (ofQueue q).queue.line = [] := by simp [ofQueue, Queue.line, nobody]
    have distinct : (ofQueue q).queue.tickets.Nodup := by simp [Queue.tickets, empty]
    have all := works_run distinct os
    rw [Queue.works, empty, List.map_nil, List.nil_append] at all
    rw [order]
    exact all
  refine ⟨order, places, ?_, ?_⟩
  · intro distinct
    have apart := places.nodup_iff.mp (distinct.sublist (started_sublist _ os))
    simp only [List.append_assoc] at apart
    obtain ⟨once, -, elsewhere⟩ := List.nodup_append'.mp apart
    simp only [List.disjoint_append_right] at elsewhere
    obtain ⟨-, interrupted, dropped, -⟩ := elsewhere
    exact ⟨once, fun _ lost back => interrupted back lost, fun _ lost back => dropped back lost⟩
  · intro n member t dropping
    obtain ⟨before, operation⟩ := n
    cases dropping
    exact ⟨rfl, rfl⟩

/-- On a full queue one push is dropped after a slot was reserved for it, and the next one, which
gets that slot, is interrupted. Neither envelope comes out. -/
theorem returned_append_items_lost_pushes :
    let work (n : Nat) : Envelope := ⟨⟨BitVec.ofNat 128 n, 0⟩, .text "" none⟩
    let os : List Operation := [.push 0 (work 0) "a", .push 1 (work 1) "a", .push 2 (work 2) "b",
      .pull 3, .dropPush 1, .cancel "b", .pollPush 2, .tryPull]
    let q : Queue := { capacity := some 1, free := 1 }
    let answers := ((ofQueue q).run os).1
    Queue.build (some 1) = .ok q ∧
      answers.flatMap Answer.returned ++ ((ofQueue q).run os).2.queue.items =
        answers.flatMap Answer.completed ∧
      work 1 ∉ answers.flatMap Answer.returned ∧ work 2 ∉ answers.flatMap Answer.returned := by
  intro work os q answers
  have distinct : (os.flatMap Operation.pushes).Nodup := by
    simp [os, work, Operation.pushes]
  have dropped : work 1 ∈ ((ofQueue q).turns os).flatMap Turn.dropped :=
    List.mem_singleton_self (work 1)
  have interrupted : work 2 ∈ answers.flatMap Answer.interrupted :=
    List.mem_singleton_self (work 2)
  have built : Queue.build (some 1) = .ok q := rfl
  obtain ⟨order, -, apart, -⟩ := returned_append_items built os
  obtain ⟨-, notInterrupted, notDropped⟩ := apart distinct
  exact ⟨built, order, notDropped _ dropped, notInterrupted _ interrupted⟩

end Session

end ReviewHub
