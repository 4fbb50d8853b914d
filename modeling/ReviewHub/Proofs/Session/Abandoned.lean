import ReviewHub.Proofs.Queue.Slotless
import ReviewHub.Proofs.Session.Service

/-!
# Abandoned pushes

A push that is given up before a slot was reserved for it leaves no trace but its log records. The
run with all its operations left out gives the same answers, and the same queue at every moment but
for the push itself. While the push waits, the two runs are compared step by step: the one has the
session of the other with one more push in line.
-/

namespace ReviewHub

/-- The ticket that the operation goes by. -/
def Operation.ticket? : Operation → Option Ticket
  | .push t _ _ => some t
  | .pollPush t => some t
  | .dropPush t => some t
  | .pull t => some t
  | .pollPull t => some t
  | .dropPull t => some t
  | .tryPull => none
  | .cancel _ => none

namespace Session

/-! ### What is seen of a run -/

/-- What is reported in the turn. -/
def Turn.logs (n : Turn) : List Log := (n.before.apply n.operation).2.2

/-- The length, and what `tryPull` would answer. -/
def probe (s : Session) : Nat × Option Envelope := (s.queue.size, s.queue.tryPull.1)

/-- What is done in the turn, what comes of it, and what probes show before and after. -/
def Turn.seen (n : Turn) :
    Operation × Answer × List Log × (Nat × Option Envelope) × (Nat × Option Envelope) :=
  (n.operation, n.answer, n.logs, n.before.probe, n.after.probe)

/-- The turns of operations that do not go by the ticket. -/
def turnsBut (t : Ticket) (ns : List Turn) : List Turn :=
  ns.filter (·.operation.ticket? ≠ some t)

/-- The operations begin a push under the ticket and end when it is given up. In between it waits
and no slot is reserved for it. -/
inductive Abandons (s : Session) (t : Ticket) : List Operation → Prop where
  /-- It is interrupted at once. -/
  | atOnce {work : Envelope} {token : Token}
      (interrupted : (s.apply (.push t work token)).1 = .pushed work .interrupted) :
      Abandons s t [.push t work token]
  /-- It waits until it is dropped or interrupted. -/
  | later {work : Envelope} {token : Token} {during : List Operation} {last : Operation}
      (waits : (s.apply (.push t work token)).1 = .pushed work .waiting)
      (slotless : ∀ n ∈ (s.apply (.push t work token)).2.1.turns (during ++ [last]),
        n.before.queue.Slotless t)
      (ends : last = .dropPush t ∨ last = .pollPush t ∧
        (((s.apply (.push t work token)).2.1.run during).2.apply last).1 =
          .pushed work .interrupted) :
      Abandons s t (.push t work token :: (during ++ [last]))

variable {s r : Session} {t u : Ticket} {o : Operation}

theorem turns_append (s : Session) (os ps : List Operation) :
    s.turns (os ++ ps) = s.turns os ++ (s.run os).2.turns ps := by
  induction os generalizing s with
  | nil => rfl
  | cons o os ih =>
      rw [List.cons_append, turns, ih]
      rfl

theorem run_append (s : Session) (os ps : List Operation) :
    (s.run (os ++ ps)).2 = ((s.run os).2.run ps).2 := by
  induction os generalizing s with
  | nil => rfl
  | cons o os ih => exact ih (s.apply o).2.1

/-! ### Sessions that go on alike -/

/-- The same tokens are cancelled, and the pushes that wait in the second session go by the same
tokens in both. -/
structure SameTokens (s r : Session) : Prop where
  cancelled : r.cancelled = s.cancelled
  tokens : ∀ u ∈ r.queue.tickets, r.tokens.lookup u = s.tokens.lookup u

theorem SameTokens.isCancelled (same : SameTokens s r) (token : Token) :
    r.isCancelled token = s.isCancelled token := by
  rw [Session.isCancelled, Session.isCancelled, same.cancelled]

theorem SameTokens.isInterrupted (same : SameTokens s r) (waits : u ∈ r.queue.tickets) :
    r.isInterrupted u = s.isInterrupted u := by
  rw [Session.isInterrupted, Session.isInterrupted, same.tokens u waits]
  split
  · exact same.isCancelled _
  · rfl

theorem cancelled_eq (s : Session) (o : Operation) :
    (s.apply o).2.1.cancelled =
      match o with
      | .cancel token => token :: s.cancelled
      | _ => s.cancelled := by
  cases o with
  | push u work token => by_cases used : s.inUse u <;> simp [apply, used]
  | pollPush u => cases found : s.queue.waiter? u <;> simp [apply, found]
  | dropPush u => cases found : s.queue.waiter? u <;> simp [apply, found]
  | pull u => by_cases used : s.inUse u <;> simp [apply, used]
  | pollPull u => by_cases waits : u ∈ s.queue.pulls <;> simp [apply, waits]
  | _ => rfl

/-- The answer says whether a token has been added. -/
theorem tokens_eq (s : Session) (o : Operation) :
    (s.apply o).2.1.tokens =
      match o, (s.apply o).1 with
      | .push u _ token, .pushed _ .waiting => (u, token) :: s.tokens
      | _, _ => s.tokens := by
  cases o with
  | push u work token =>
      by_cases used : s.inUse u
      · simp [apply, used]
      · cases pushed : (s.queue.push u work (s.isCancelled token)).1 <;>
          simp [apply, used, pushed]
  | pollPush u => cases found : s.queue.waiter? u <;> simp [apply, found]
  | dropPush u => cases found : s.queue.waiter? u <;> simp [apply, found]
  | pull u => by_cases used : s.inUse u <;> simp [apply, used]
  | pollPull u => by_cases waits : u ∈ s.queue.pulls <;> simp [apply, waits]
  | _ => rfl

/-- Whoever waits after an operation did so before, or has just begun. -/
theorem mem_tickets_apply (waits : u ∈ (s.apply o).2.1.queue.tickets) :
    u ∈ s.queue.tickets ∨ ∃ work token, o = .push u work token ∧
      (s.apply o).2.1.tokens = (u, token) :: s.tokens := by
  rw [Queue.tickets] at waits
  rcases line_apply_cases s o with
    ⟨-, same | ⟨t, left⟩⟩ | ⟨t, work, token, push, -, tokens, joined⟩
  · rw [same] at waits
    exact .inl waits
  · rw [left] at waits
    exact .inl ((List.filter_sublist.map Prod.fst).subset waits)
  · rw [joined, List.map_append, List.mem_append] at waits
    rcases waits with before | last
    · exact .inl before
    · obtain rfl : u = t := List.mem_singleton.mp last
      exact .inr ⟨work, token, push, tokens⟩

theorem SameTokens.apply (same : SameTokens s r) (answer : (r.apply o).1 = (s.apply o).1) :
    SameTokens (s.apply o).2.1 (r.apply o).2.1 := by
  refine ⟨by rw [cancelled_eq, cancelled_eq, same.cancelled], ?_⟩
  intro u waits
  have here := tokens_eq r o
  have there := tokens_eq s o
  rw [answer] at here
  rcases mem_tickets_apply waits with before | ⟨work, token, rfl, joined⟩
  · have tokens := same.tokens u before
    rw [here, there]
    split
    · rw [List.lookup_cons, List.lookup_cons, tokens]
    · exact tokens
  · split at there
    · next began _ =>
        cases began
        rw [joined, there, List.lookup_cons_self, List.lookup_cons_self]
    · next others =>
        rw [here] at joined
        split at joined
        · next began waiting => exact absurd waiting (others _ _ _ _ began)
        · exact absurd joined (List.cons_ne_self _ _).symm

/-! ### While the push waits -/

/-- The second session is the first one without the push that waits under the ticket. -/
structure Without (t : Ticket) (s r : Session) : Prop extends SameTokens s r where
  queue : r.queue = s.queue.leaveLine t

theorem Without.inUse_eq (without : Without t s r) (other : u ≠ t) : r.inUse u = s.inUse u := by
  rw [inUse, inUse, without.queue, Queue.waiter?_leaveLine other]
  rfl

theorem Without.isInterrupted_eq (without : Without t s r) (other : u ≠ t) {w : Waiter}
    (found : s.queue.waiter? u = some w) : r.isInterrupted u = s.isInterrupted u := by
  refine without.isInterrupted ?_
  by_contra absent
  rw [← Queue.waiter?_eq_none_iff, without.queue, Queue.waiter?_leaveLine other, found] at absent
  cases absent

/-- An operation of others, by which the push gets no slot, comes to the same without it. -/
theorem apply_without (without : Without t s r) (other : o.ticket? ≠ some t)
    (before : s.queue.Slotless t) (after : (s.apply o).2.1.queue.Slotless t) :
    (r.apply o).1 = (s.apply o).1 ∧ (r.apply o).2.2 = (s.apply o).2.2 ∧
      (r.apply o).2.1.queue = (s.apply o).2.1.queue.leaveLine t := by
  have queue := without.queue
  cases o with
  | push u work token =>
      have others : u ≠ t := fun same => other (congrArg some same)
      have inUse := without.inUse_eq others
      by_cases used : s.inUse u
      · rw [used] at inUse
        simp [apply, used, inUse, queue]
      · rw [Bool.not_eq_true] at used
        rw [used] at inUse
        simp [apply, used, inUse, queue, without.isCancelled, Queue.push_leaveLine others]
  | pollPush u =>
      have others : u ≠ t := fun same => other (congrArg some same)
      have same := Queue.waiter?_leaveLine (q := s.queue) others
      cases found : s.queue.waiter? u with
      | none => simp [apply, found, queue, same]
      | some w =>
          have ticket : w.ticket ≠ t := Queue.ticket_of_waiter? found ▸ others
          simp only [apply, found] at after
          simp [apply, found, queue, same, without.isInterrupted_eq others found,
            Queue.pollPush_leaveLine ticket before after]
  | dropPush u =>
      have others : u ≠ t := fun same => other (congrArg some same)
      have same := Queue.waiter?_leaveLine (q := s.queue) others
      cases found : s.queue.waiter? u with
      | none => simp [apply, found, queue, same]
      | some w =>
          have ticket : w.ticket ≠ t := Queue.ticket_of_waiter? found ▸ others
          simp only [apply, found, Queue.dropPush] at after
          simp [apply, found, queue, same, Queue.dropPush,
            Queue.leaveLine_withdraw ticket before after]
  | pull u =>
      have inUse := without.inUse_eq fun same => other (congrArg some same)
      by_cases used : s.inUse u
      · rw [used] at inUse
        simp [apply, used, inUse, queue]
      · rw [Bool.not_eq_true] at used
        rw [used] at inUse
        simp only [apply, used] at after
        simp [apply, used, inUse, queue, Queue.pull_leaveLine before after]
  | pollPull u =>
      by_cases waits : u ∈ s.queue.pulls
      · simp only [apply, waits, if_true] at after
        simp [apply, waits, queue, Queue.pollPull_leaveLine before after]
      · simp [apply, waits, queue]
  | dropPull u => simp [apply, queue, Queue.dropPull, Queue.leaveLine]
  | tryPull =>
      simp only [apply] at after
      simp [apply, queue, Queue.tryPull_leaveLine before after]
  | cancel token => simp [apply, queue]

/-! ### Operations under the ticket -/

/-- No push and no pull wait under the same ticket. -/
def Apart (s : Session) : Prop := ∀ u ∈ s.queue.tickets, u ∉ s.queue.pulls

theorem apart_apply (apart : s.Apart) (o : Operation) : (s.apply o).2.1.Apart := by
  intro u waits pulls
  rw [pulls_apply, Turn.pending, List.mem_append] at pulls
  have pulled : u ∈ s.queue.pulls ∨ o = .pull u ∧ ¬s.inUse u := by
    rcases pulls with before | new
    · exact .inl (List.mem_of_mem_filter before)
    · exact .inr (unused_of_waits? (n := ⟨s, o⟩) (Option.mem_toList.mp new))
  rcases mem_tickets_apply waits with before | ⟨work, token, rfl, joined⟩
  · rcases pulled with also | ⟨-, unused⟩
    · exact apart u before also
    · exact unused (inUse_iff.mpr (.inl before))
  · rcases pulled with used | ⟨pull, -⟩
    · have refused : s.apply (.push u work token) = (.none, s, []) := by
        rw [apply, if_pos (inUse_iff.mpr (.inr used))]
      rw [refused] at joined
      exact absurd joined (List.cons_ne_self _ _).symm
    · cases pull

theorem apart_run (apart : s.Apart) (os : List Operation) : (s.run os).2.Apart :=
  run_invariant (P := fun s _ => s.Apart) (fun _ _ o before => apart_apply before o) [] apart os

/-- What is tried under the ticket of a push that goes on waiting without a slot changes nothing. -/
theorem apply_of_ticket (own : o.ticket? = some t) (apart : s.Apart) (before : s.queue.Slotless t)
    (after : (s.apply o).2.1.queue.Slotless t) : (s.apply o).2.1 = s := by
  obtain ⟨w, found, ticket, lacks⟩ := before.exists_waiter?
  have used : s.inUse t = true := inUse_iff.mpr (.inl before.waits)
  have absent : t ∉ s.queue.pulls := apart t before.waits
  have stays : (s.queue.withdraw w).Slotless t → False := by
    intro slotless
    have waits := slotless.waits
    rw [Queue.withdraw_of_not_granted lacks, ticket, Queue.mem_tickets_leaveLine] at waits
    exact waits.2 rfl
  cases o with
  | push u work token =>
      cases own
      rw [apply, if_pos used]
  | pollPush u =>
      cases own
      simp only [apply, found, Queue.pollPush, lacks] at after ⊢
      split at after
      · exact absurd after stays
      · next waiting => rw [if_neg waiting]; rfl
  | dropPush u =>
      cases own
      simp only [apply, found, Queue.dropPush] at after
      exact absurd after stays
  | pull u =>
      cases own
      rw [apply, if_pos used]
  | pollPull u =>
      cases own
      rw [apply, if_neg absent]
  | dropPull u =>
      cases own
      have others : s.queue.pulls.filter (· ≠ t) = s.queue.pulls := by
        simpa using fun u member (same : u = t) => absent (same ▸ member)
      rw [apply, Queue.dropPull, others]
  | tryPull => cases own
  | cancel token => cases own

/-! ### Runs -/

theorem Without.probe_eq (without : Without t s r) : r.probe = s.probe := by
  rw [probe, probe, Queue.tryPull_eq, Queue.tryPull_eq, without.queue]
  rfl

theorem slotless_of_turns {os : List Operation} {last : Operation}
    (slotless : ∀ n ∈ s.turns (os ++ [last]), n.before.queue.Slotless t) :
    s.queue.Slotless t := by
  cases os with
  | nil => exact slotless ⟨s, last⟩ List.mem_cons_self
  | cons o os => exact slotless ⟨s, o⟩ List.mem_cons_self

/-- While the push waits without a slot, others see the same without it. -/
theorem run_without {during : List Operation} {last : Operation} (without : Without t s r)
    (apart : s.Apart)
    (slotless : ∀ n ∈ s.turns (during ++ [last]), n.before.queue.Slotless t) :
    let others := during.filter (·.ticket? ≠ some t)
    (turnsBut t (s.turns during)).map Turn.seen = (r.turns others).map Turn.seen ∧
      (∀ n ∈ s.turns during, n.operation.ticket? = some t → n.after = n.before) ∧
      (s.run during).2.queue.Slotless t ∧
      Without t (s.run during).2 (r.run others).2 := by
  induction during generalizing s r with
  | nil =>
      have here : s.queue.Slotless t := slotless_of_turns slotless
      exact ⟨rfl, by simp [turns], here, without⟩
  | cons o during ih =>
      have before : s.queue.Slotless t := slotless ⟨s, o⟩ List.mem_cons_self
      have rest : ∀ n ∈ (s.apply o).2.1.turns (during ++ [last]), n.before.queue.Slotless t :=
        fun n member => slotless n (List.mem_cons_of_mem _ member)
      have after : (s.apply o).2.1.queue.Slotless t := slotless_of_turns rest
      by_cases own : o.ticket? = some t
      · have same := apply_of_ticket own apart before after
        rw [same] at rest
        obtain ⟨seen, idle, final, left⟩ := ih without apart rest
        rw [← same] at seen idle final left
        refine ⟨?_, ?_, final, ?_⟩
        · rw [turns, turnsBut, List.filter_cons_of_neg (by simpa using own),
            List.filter_cons_of_neg (by simpa using own)]
          exact seen
        · intro n member ticket
          rcases List.mem_cons.mp member with rfl | later
          · exact same
          · exact idle n later ticket
        · rw [List.filter_cons_of_neg (by simpa using own)]
          exact left
      · obtain ⟨answer, logs, queue⟩ := apply_without without own before after
        have onward : Without t (s.apply o).2.1 (r.apply o).2.1 :=
          ⟨without.toSameTokens.apply answer, queue⟩
        obtain ⟨seen, idle, final, left⟩ := ih onward (apart_apply apart o) rest
        have here : Turn.seen ⟨s, o⟩ = Turn.seen ⟨r, o⟩ := by
          simp only [Turn.seen, Turn.answer, Turn.logs, Turn.after, answer, logs,
            without.probe_eq, onward.probe_eq]
        refine ⟨?_, ?_, final, ?_⟩
        · rw [turns, turnsBut, List.filter_cons_of_pos (by simpa using own),
            List.filter_cons_of_pos (by simpa using own), turns, List.map_cons, List.map_cons, here]
          exact congrArg _ seen
        · intro n member ticket
          rcases List.mem_cons.mp member with rfl | later
          · exact absurd ticket own
          · exact idle n later ticket
        · rw [List.filter_cons_of_pos (by simpa using own)]
          exact left

/-! ### The push comes and goes -/

/-- When a push has to wait, the session before is the one without it. -/
theorem without_of_waits {work : Envelope} {token : Token}
    (waits : (s.apply (.push t work token)).1 = .pushed work .waiting) :
    Without t (s.apply (.push t work token)).2.1 s := by
  by_cases used : s.inUse t
  · rw [apply, if_pos used] at waits
    cases waits
  · have absent : t ∉ s.queue.tickets := fun waiting => used (inUse_iff.mpr (.inl waiting))
    rw [answer_push used] at waits
    injection waits with _ waits
    refine ⟨⟨(cancelled_eq s (.push t work token)).symm, ?_⟩, ?_⟩
    · intro u waiting
      have other : u ≠ t := fun same => absent (same ▸ waiting)
      have begun : (s.apply (.push t work token)).2.1.tokens = (t, token) :: s.tokens := by
        rw [tokens_eq, answer_push used, waits]
      rw [begun, List.lookup_cons, beq_false_of_ne other]
    · rw [queue_push used, Queue.leaveLine_push_self absent waits]

/-- When the push is given up, the sessions are alike again. -/
theorem Without.rejoin {last : Operation} {work : Envelope} (without : Without t s r)
    (slotless : s.queue.Slotless t)
    (ends : last = .dropPush t ∨
      last = .pollPush t ∧ (s.apply last).1 = .pushed work .interrupted) :
    (s.apply last).2.1.queue = r.queue ∧ SameTokens (s.apply last).2.1 r := by
  obtain ⟨w, found, rfl, lacks⟩ := slotless.exists_waiter?
  have left : s.queue.withdraw w = r.queue := by
    rw [Queue.withdraw_of_not_granted lacks, without.queue]
  have same := without.toSameTokens
  rcases ends with rfl | ⟨rfl, interrupted⟩
  · simp only [apply, found, Queue.dropPush]
    exact ⟨left, same.cancelled, same.tokens⟩
  · simp only [apply, found, Queue.pollPush] at interrupted ⊢
    split at interrupted
    · next stop =>
        rw [if_pos stop]
        exact ⟨left, same.cancelled, same.tokens⟩
    · split at interrupted <;> cases interrupted

/-! ### Afterwards -/

theorem apply_alike (queue : r.queue = s.queue) (same : SameTokens s r) (o : Operation) :
    (r.apply o).1 = (s.apply o).1 ∧ (r.apply o).2.2 = (s.apply o).2.2 ∧
      (r.apply o).2.1.queue = (s.apply o).2.1.queue := by
  have used (u : Ticket) : r.inUse u = s.inUse u := by rw [inUse, inUse, queue]
  cases o with
  | push u work token =>
      simp only [apply, used, queue, same.isCancelled]
      split
      · exact ⟨rfl, rfl, queue⟩
      · exact ⟨rfl, rfl, rfl⟩
  | pollPush u =>
      simp only [apply, queue]
      cases found : s.queue.waiter? u with
      | none => exact ⟨rfl, rfl, queue⟩
      | some w =>
          have waits : u ∈ r.queue.tickets := by
            by_contra absent
            rw [queue, ← Queue.waiter?_eq_none_iff, found] at absent
            cases absent
          simp only [same.isInterrupted waits, and_self]
  | dropPush u =>
      simp only [apply, queue]
      cases found : s.queue.waiter? u with
      | none => exact ⟨rfl, rfl, queue⟩
      | some w => exact ⟨rfl, rfl, rfl⟩
  | pull u =>
      simp only [apply, used, queue]
      split
      · exact ⟨rfl, rfl, queue⟩
      · exact ⟨rfl, rfl, rfl⟩
  | pollPull u =>
      simp only [apply, queue]
      split
      · exact ⟨rfl, rfl, rfl⟩
      · exact ⟨rfl, rfl, queue⟩
  | dropPull u => simp [apply, queue]
  | tryPull => simp [apply, queue]
  | cancel token => exact ⟨rfl, rfl, queue⟩

theorem run_alike (queue : r.queue = s.queue) (same : SameTokens s r) (os : List Operation) :
    (s.turns os).map Turn.seen = (r.turns os).map Turn.seen ∧
      (s.run os).2.queue = (r.run os).2.queue := by
  induction os generalizing s r with
  | nil => exact ⟨rfl, queue.symm⟩
  | cons o os ih =>
      obtain ⟨answer, logs, after⟩ := apply_alike queue same o
      obtain ⟨seen, final⟩ := ih after (same.apply answer)
      have here : Turn.seen ⟨s, o⟩ = Turn.seen ⟨r, o⟩ := by
        simp only [Turn.seen, Turn.answer, Turn.logs, Turn.after, probe, answer, logs, queue,
          after]
      refine ⟨?_, final⟩
      rw [turns, turns, List.map_cons, List.map_cons, here, seen]

/-! ### From beginning to end -/

theorem apply_of_interrupted {work : Envelope} {token : Token}
    (interrupted : (s.apply (.push t work token)).1 = .pushed work .interrupted) :
    (s.apply (.push t work token)).2.1 = s := by
  by_cases used : s.inUse t
  · rw [apply, if_pos used]
  · rw [answer_push used] at interrupted
    injection interrupted with _ interrupted
    simp [apply, used, Queue.push_of_interrupted interrupted, interrupted]

/-- The operations from the beginning of the push to its end, against the same ones without those
under its ticket. -/
theorem run_of_abandons (apart : s.Apart) {os : List Operation} (abandons : s.Abandons t os) :
    let others := os.filter (·.ticket? ≠ some t)
    (turnsBut t (s.turns os)).map Turn.seen = (s.turns others).map Turn.seen ∧
      (∀ n ∈ s.turns os, n.operation.ticket? = some t → n.after.probe = n.before.probe) ∧
      (s.run os).2.queue = (s.run others).2.queue ∧
      SameTokens (s.run os).2 (s.run others).2 := by
  intro others
  cases abandons with
  | @atOnce work token interrupted =>
      have unchanged := apply_of_interrupted interrupted
      have nothing : others = [] := List.filter_cons_of_neg (by simp [Operation.ticket?])
      have final : (s.run [.push t work token]).2 = s := unchanged
      rw [nothing, final]
      refine ⟨?_, ?_, rfl, ⟨rfl, fun _ _ => rfl⟩⟩
      · simp [turns, turnsBut, Operation.ticket?]
      · intro n member _
        obtain rfl := List.mem_singleton.mp member
        exact congrArg probe unchanged
  | @later work token during last waits slotless ends =>
      have without := without_of_waits waits
      obtain ⟨seen, idle, final, left⟩ :=
        run_without without (apart_apply apart (.push t work token)) slotless
      obtain ⟨queue, same⟩ := left.rejoin final ends
      have own : last.ticket? = some t := by
        rcases ends with rfl | ⟨rfl, -⟩ <;> rfl
      have first : (Operation.push t work token).ticket? = some t := rfl
      have rest : others = during.filter (·.ticket? ≠ some t) := by
        simp [others, List.filter_append, own, first]
      have whole : s.turns (.push t work token :: (during ++ [last])) =
          ⟨s, .push t work token⟩ :: ((s.apply (.push t work token)).2.1.turns during ++
            [⟨((s.apply (.push t work token)).2.1.run during).2, last⟩]) := by
        rw [turns, turns_append]
        rfl
      have ended : (s.run (.push t work token :: (during ++ [last]))).2 =
          (((s.apply (.push t work token)).2.1.run during).2.apply last).2.1 := by
        rw [session_run_cons, run_append]
        rfl
      rw [rest, whole, ended]
      refine ⟨?_, ?_, queue, same⟩
      · simpa [turnsBut, first, List.filter_append, own] using seen
      · intro n member ticket
        rcases List.mem_cons.mp member with rfl | later
        · exact without.probe_eq.symm
        · rcases List.mem_append.mp later with between | latest
          · rw [idle n between ticket]
          · obtain rfl := List.mem_singleton.mp latest
            rw [left.probe_eq.symm, Turn.after, probe, queue]
            rfl

theorem apart_of_build {capacity : Option Nat} {q : Queue}
    (built : Queue.build capacity = .ok q) : (ofQueue q).Apart := by
  intro u _ pulls
  have nobody : (ofQueue q).queue.pulls = [] := Queue.pulls_of_build built
  rw [nobody] at pulls
  cases pulls

/-! ### The law -/

/-- A push that is given up before a slot was reserved for it is invisible. Without all that is done
under its ticket, from its beginning to its end, everything else is answered and reported the same,
and the length and what `tryPull` would answer are the same before and after each step; what is left
out changes neither. In the end the queue is the same, with its envelopes, the waiting pushes and
the pending pulls, and so it is after everything that follows. -/
theorem abandoned_push_invisible {capacity : Option Nat} {q : Queue}
    (built : Queue.build capacity = .ok q) (before : List Operation) {t : Ticket}
    {os : List Operation} (abandons : ((ofQueue q).run before).2.Abandons t os)
    (after : List Operation) :
    let s := ((ofQueue q).run before).2
    let others := os.filter (·.ticket? ≠ some t)
    let full := (s.run os).2
    let pruned := (s.run others).2
    ((turnsBut t (s.turns os)).map Turn.seen = (s.turns others).map Turn.seen ∧
        (∀ n ∈ s.turns os, n.operation.ticket? = some t → n.after.probe = n.before.probe) ∧
        full.queue = pruned.queue) ∧
      (full.turns after).map Turn.seen = (pruned.turns after).map Turn.seen ∧
      (full.run after).2.queue = (pruned.run after).2.queue := by
  intro s others full pruned
  have apart : s.Apart := apart_run (apart_of_build built) before
  obtain ⟨seen, idle, queue, same⟩ := run_of_abandons apart abandons
  exact ⟨⟨seen, idle, queue⟩, run_alike queue.symm same after⟩

/-- The queue is full, and a push is interrupted while it waits before another one. The slot that is
given back goes to that one, as if the first one had never been. -/
theorem abandoned_push_invisible_first_in_line :
    let stamp : Stamp := ⟨0#128, 0⟩
    let oldest : Envelope := ⟨stamp, .text "oldest" none⟩
    let doomed : Envelope := ⟨stamp, .text "doomed" none⟩
    let work : Envelope := ⟨stamp, .text "work" none⟩
    let q : Queue := { capacity := some 1, free := 1 }
    let s := ((ofQueue q).run [.push 0 oldest "a"]).2
    let os : List Operation := [.push 1 doomed "b", .push 2 work "a", .cancel "b", .pollPush 1]
    let full := (s.run os).2
    let pruned := (s.run [.push 2 work "a", .cancel "b"]).2
    Queue.build (some 1) = .ok q ∧ s.Abandons 1 os ∧ full.queue = pruned.queue ∧
      (full.run [.tryPull, .pollPush 2]).2.queue =
        { q with free := 0, items := [work], queued := 1 } := by
  intro stamp oldest doomed work q s os full pruned
  have built : Queue.build (some 1) = .ok q := rfl
  have abandons : s.Abandons 1 os := by
    change s.Abandons 1 (.push 1 doomed "b" :: ([.push 2 work "a", .cancel "b"] ++ [.pollPush 1]))
    refine .later rfl ?_ (.inr ⟨rfl, rfl⟩)
    intro n member
    have slotless : n.before.queue.waiting = [⟨1, doomed, false⟩] ∨
        n.before.queue.waiting = [⟨1, doomed, false⟩, ⟨2, work, false⟩] := by
      rcases member with _ | ⟨_, _ | ⟨_, _ | ⟨_, none⟩⟩⟩
      · exact .inl rfl
      · exact .inr rfl
      · exact .inr rfl
      · cases none
    rcases slotless with alone | both
    · exact ⟨Queue.mem_tickets.mpr (by simp [alone]), by simp [alone]⟩
    · exact ⟨Queue.mem_tickets.mpr (by simp [both]), by simp [both]⟩
  obtain ⟨⟨-, -, queue⟩, -, final⟩ :=
    abandoned_push_invisible built [.push 0 oldest "a"] abandons [.tryPull, .pollPush 2]
  exact ⟨built, abandons, queue, final⟩

end Session

end ReviewHub
