import ReviewHub.Proofs.Queue.Pulls

/-!
# Pushes without a slot

A push that waits without a slot is in nobody's way. Whatever is done to the queue, by others and
without its getting a slot, comes to the same as if that push had left the line before: the others
are answered alike, and are left in the same order with the same slots.
-/

namespace ReviewHub.Queue

/-- A push waits under the ticket, and no slot is reserved for it. -/
structure Slotless (q : Queue) (t : Ticket) : Prop where
  waits : t ∈ q.tickets
  lacks : ∀ w ∈ q.waiting, w.ticket = t → w.granted = false

variable {q r : Queue} {t u : Ticket} {w : Waiter}

theorem mem_tickets : t ∈ q.tickets ↔ ∃ w ∈ q.waiting, w.ticket = t := by
  simp [tickets, line]

/-! ### Leaving the line -/

@[simp] theorem pulls_leaveLine (q : Queue) (t : Ticket) : (q.leaveLine t).pulls = q.pulls := rfl

@[simp] theorem capacity_leaveLine (q : Queue) (t : Ticket) :
    (q.leaveLine t).capacity = q.capacity := rfl

@[simp] theorem free_leaveLine (q : Queue) (t : Ticket) : (q.leaveLine t).free = q.free := rfl

theorem leaveLine_comm (q : Queue) (t u : Ticket) :
    (q.leaveLine t).leaveLine u = (q.leaveLine u).leaveLine t := by
  simp only [leaveLine, List.filter_filter, Bool.and_comm]

theorem leaveLine_of_not_mem (absent : t ∉ q.tickets) : q.leaveLine t = q := by
  have all : q.waiting.filter (·.ticket ≠ t) = q.waiting := by
    refine List.filter_eq_self.mpr ?_
    intro w member
    simpa using fun same : w.ticket = t => absent (mem_tickets.mpr ⟨w, member, same⟩)
  rw [leaveLine, all]

theorem mem_tickets_leaveLine : u ∈ (q.leaveLine t).tickets ↔ u ∈ q.tickets ∧ u ≠ t := by
  simp only [mem_tickets, leaveLine, List.mem_filter, decide_eq_true_eq]
  constructor
  · rintro ⟨w, ⟨member, other⟩, rfl⟩
    exact ⟨⟨w, member, rfl⟩, other⟩
  · rintro ⟨⟨w, member, rfl⟩, other⟩
    exact ⟨w, ⟨member, other⟩, rfl⟩

theorem waiter?_leaveLine (other : u ≠ t) : (q.leaveLine t).waiter? u = q.waiter? u := by
  rw [waiter?, waiter?, leaveLine, List.find?_filter]
  have same (w : Waiter) :
      (decide (w.ticket ≠ t) = true ∧ decide (w.ticket = u) = true) ↔ w.ticket = u := by
    by_cases here : w.ticket = u <;> simp [here, other]
  simp only [same]

theorem Slotless.leaveLine (slotless : q.Slotless t) (other : u ≠ t) :
    (q.leaveLine u).Slotless t := by
  refine ⟨mem_tickets_leaveLine.mpr ⟨slotless.waits, other.symm⟩, ?_⟩
  intro w member
  exact slotless.lacks w (List.mem_of_mem_filter member)

theorem Slotless.of_waiting (slotless : q.Slotless t) (same : r.waiting = q.waiting) :
    r.Slotless t := by
  obtain ⟨waits, lacks⟩ := slotless
  rw [mem_tickets, ← same, ← mem_tickets] at waits
  rw [← same] at lacks
  exact ⟨waits, lacks⟩

theorem Slotless.exists_waiter? (slotless : q.Slotless t) :
    ∃ w, q.waiter? t = some w ∧ w.ticket = t ∧ w.granted = false := by
  cases found : q.waiter? t with
  | none => exact absurd slotless.waits (waiter?_eq_none_iff.mp found)
  | some w =>
      have ticket := ticket_of_waiter? found
      exact ⟨w, rfl, ticket, slotless.lacks w (List.mem_of_find?_eq_some found) ticket⟩

/-- When such a push is withdrawn no slot is passed on. -/
theorem withdraw_of_not_granted (lacks : w.granted = false) (q : Queue) :
    q.withdraw w = q.leaveLine w.ticket := by
  rw [withdraw, lacks]
  rfl

/-! ### Slots that are given back -/

theorem granted_of_grantFirst_eq_none {ws : List Waiter} (all : grantFirst ws = none) :
    ∀ w ∈ ws, w.granted = true := by
  induction ws with
  | nil => simp
  | cons v ws ih =>
      rw [grantFirst] at all
      split at all
      · next granted =>
          rintro w (_ | ⟨_, member⟩)
          · exact granted
          · exact ih (Option.map_eq_none_iff.mp all) w member
      · cases all

/-- A slot that does not go to the push goes to the same one without it. -/
theorem grantFirst_filter {ws granted : List Waiter} (given : grantFirst ws = some granted)
    (lacks : ∀ w ∈ granted, w.ticket = t → w.granted = false) :
    grantFirst (ws.filter (·.ticket ≠ t)) = some (granted.filter (·.ticket ≠ t)) := by
  induction ws generalizing granted with
  | nil => cases given
  | cons v ws ih =>
      rw [grantFirst] at given
      split at given
      · next own =>
          obtain ⟨rest, first, rfl⟩ := Option.map_eq_some_iff.mp given
          have other : v.ticket ≠ t := by
            intro same
            have none := lacks v List.mem_cons_self same
            rw [own] at none
            cases none
          have later := ih first fun w member => lacks w (List.mem_cons_of_mem v member)
          rw [List.filter_cons_of_pos (by simpa using other),
            List.filter_cons_of_pos (by simpa using other), grantFirst, if_pos own, later]
          rfl
      · next none =>
          cases given
          have other : v.ticket ≠ t := fun same => by
            cases lacks { v with granted := true } List.mem_cons_self same
          rw [List.filter_cons_of_pos (by simpa using other),
            List.filter_cons_of_pos (by simpa using other), grantFirst, if_neg none]

theorem leaveLine_giveSlot (before : q.Slotless t) (after : q.giveSlot.Slotless t) :
    q.giveSlot.leaveLine t = (q.leaveLine t).giveSlot := by
  cases given : grantFirst q.waiting with
  | none =>
      obtain ⟨w, member, ticket⟩ := mem_tickets.mp before.waits
      have own := granted_of_grantFirst_eq_none given w member
      rw [before.lacks w member ticket] at own
      cases own
  | some ws =>
      have slot : q.giveSlot = { q with waiting := ws } := by rw [giveSlot, given]
      rw [slot] at after ⊢
      have rest : grantFirst (q.leaveLine t).waiting = some (ws.filter (·.ticket ≠ t)) :=
        grantFirst_filter given after.lacks
      rw [giveSlot, rest]
      rfl

/-! ### Operations -/

theorem leaveLine_withdraw (other : w.ticket ≠ t) (before : q.Slotless t)
    (after : (q.withdraw w).Slotless t) :
    (q.withdraw w).leaveLine t = (q.leaveLine t).withdraw w := by
  rw [withdraw] at after
  rw [withdraw, withdraw, leaveLine_comm q t]
  split
  · next own =>
      rw [if_pos own] at after
      exact leaveLine_giveSlot (before.leaveLine other) after
  · rfl

theorem push_leaveLine (other : u ≠ t) (work : Envelope) (interrupted : Bool) :
    (q.leaveLine t).push u work interrupted =
      ((q.push u work interrupted).1, (q.push u work interrupted).2.1.leaveLine t,
        (q.push u work interrupted).2.2) := by
  rw [push, push, capacity_leaveLine, free_leaveLine]
  split
  · rfl
  · rfl
  · split
    · rfl
    · simp [leaveLine, List.filter_append, other]

/-- A push that joins the line is all that is new. -/
theorem leaveLine_push_self (absent : t ∉ q.tickets) {work : Envelope} {interrupted : Bool}
    (waits : (q.push t work interrupted).1 = .waiting) :
    (q.push t work interrupted).2.1.leaveLine t = q := by
  have others := leaveLine_of_not_mem absent
  rw [push] at waits ⊢
  split at waits
  · cases waits
  · cases waits
  · split at waits
    · cases waits
    · next goesOn =>
        rw [if_neg goesOn]
        simpa [leaveLine, List.filter_append] using others

theorem pollPush_leaveLine (other : w.ticket ≠ t) {interrupted : Bool} (before : q.Slotless t)
    (after : (q.pollPush w interrupted).2.Slotless t) :
    (q.leaveLine t).pollPush w interrupted =
      ((q.pollPush w interrupted).1, (q.pollPush w interrupted).2.leaveLine t) := by
  rw [pollPush] at after
  rw [pollPush, pollPush]
  split
  · next stop =>
      rw [if_pos stop] at after
      rw [leaveLine_withdraw other before after]
  · split
    · rw [leaveLine_comm]
      rfl
    · rfl

theorem take_leaveLine {work : Envelope} (taken : q.take = some (work, r)) (before : q.Slotless t)
    (after : r.Slotless t) : (q.leaveLine t).take = some (work, r.leaveLine t) := by
  unfold take at taken ⊢
  rw [items_leaveLine]
  split at taken
  · cases taken
  · next es oldest =>
      let rest : Queue := { q with items := es, queued := q.queued - 1 }
      have shown : (if rest.capacity.isSome then rest.giveSlot else rest) = r := by
        cases taken
        rfl
      have before : rest.Slotless t := before.of_waiting rfl
      obtain rfl : _ = work := (Prod.mk.inj (Option.some.inj taken)).1
      change some (_, if rest.capacity.isSome then (rest.leaveLine t).giveSlot
        else rest.leaveLine t) = _
      split at shown
      · next bounded =>
          subst shown
          rw [if_pos bounded, leaveLine_giveSlot before after]
      · next unbounded =>
          subst shown
          rw [if_neg unbounded]

theorem pollPull_leaveLine (before : q.Slotless t) (after : (q.pollPull u).2.Slotless t) :
    (q.leaveLine t).pollPull u = ((q.pollPull u).1, (q.pollPull u).2.leaveLine t) := by
  rw [pollPull] at after
  rw [pollPull, pollPull, pulls_leaveLine]
  split
  · next first =>
      rw [if_pos first] at after
      cases taken : q.take with
      | none =>
          have nothing : (q.leaveLine t).take = none :=
            take_eq_none_iff.mpr (take_eq_none_iff.mp taken : q.items = [])
          simp only [nothing]
      | some x =>
          rw [taken] at after
          have rest : x.2.Slotless t := after.of_waiting rfl
          simp only [take_leaveLine taken before rest]
          rfl
  · rfl

theorem pull_leaveLine (before : q.Slotless t) (after : (q.pull u).2.Slotless t) :
    (q.leaveLine t).pull u = ((q.pull u).1, (q.pull u).2.leaveLine t) :=
  pollPull_leaveLine (q := { q with pulls := q.pulls ++ [u] }) (before.of_waiting rfl) after

theorem tryPull_leaveLine (before : q.Slotless t) (after : q.tryPull.2.Slotless t) :
    (q.leaveLine t).tryPull = (q.tryPull.1, q.tryPull.2.leaveLine t) := by
  rw [tryPull] at after
  rw [tryPull, tryPull, pulls_leaveLine]
  cases nobody : q.pulls with
  | cons first rest => rfl
  | nil =>
      cases taken : q.take with
      | none =>
          have nothing : (q.leaveLine t).take = none :=
            take_eq_none_iff.mpr (take_eq_none_iff.mp taken : q.items = [])
          simp only [nothing]
      | some x =>
          rw [nobody, taken] at after
          simp only [take_leaveLine taken before after]

end ReviewHub.Queue
