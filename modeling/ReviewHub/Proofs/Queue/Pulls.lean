import ReviewHub.Proofs.Queue.Contents

/-!
# The line of pulls

Pulls are served in the order of their arrival. A pull has its turn when it is the first in line and
there is something to take. Whenever a change of the queue gives a pull its turn, that pull is
signalled; and a pull that goes on waiting after it was looked at has not got its turn.
-/

namespace ReviewHub.Queue

/-- The pull is the first in line and there is something to take. -/
def HasTurn (q : Queue) (t : Ticket) : Prop := q.pulls.head? = some t ∧ q.items ≠ []

variable {q r : Queue} {t u : Ticket}

/-! ### Who is in line -/

theorem pulls_of_build {capacity : Option Nat} (built : build capacity = .ok q) : q.pulls = [] := by
  obtain ⟨-, rfl⟩ := eq_of_build built
  rfl

@[simp] theorem pulls_push (q : Queue) (t : Ticket) (work : Envelope) (interrupted : Bool) :
    (q.push t work interrupted).2.1.pulls = q.pulls := by
  rw [push]
  split
  · rfl
  · rfl
  · split <;> rfl

@[simp] theorem pulls_pollPush (q : Queue) (w : Waiter) (interrupted : Bool) :
    (q.pollPush w interrupted).2.pulls = q.pulls := by
  rw [pollPush]
  split
  · exact pulls_withdraw q w
  · split <;> rfl

@[simp] theorem pulls_dropPush (q : Queue) (w : Waiter) : (q.dropPush w).1.pulls = q.pulls :=
  pulls_withdraw q w

theorem pulls_of_take {work : Envelope} (taken : q.take = some (work, r)) : r.pulls = q.pulls := by
  unfold take at taken
  split at taken
  · cases taken
  · cases taken
    split
    · exact pulls_giveSlot _
    · rfl

@[simp] theorem pulls_tryPull (q : Queue) : q.tryPull.2.pulls = q.pulls := by
  rw [tryPull]
  split
  · next taken => exact pulls_of_take taken
  · rfl

theorem mem_dropPull : u ∈ (q.dropPull t).pulls ↔ u ∈ q.pulls ∧ u ≠ t := by
  simp [dropPull]

/-- A pull stays in line until it is served. -/
theorem pulls_pollPull (q : Queue) (t : Ticket) :
    (q.pollPull t).2.pulls =
      if (q.pollPull t).1 = none then q.pulls else q.pulls.filter (· ≠ t) := by
  rw [pollPull]
  split
  · split
    · next taken => simp [dropPull, pulls_of_take taken]
    · rfl
  · rfl

theorem mem_pollPull :
    u ∈ (q.pollPull t).2.pulls ↔ u ∈ q.pulls ∧ ((q.pollPull t).1 = none ∨ u ≠ t) := by
  rw [pulls_pollPull]
  split
  · next waits => simp [waits]
  · next served => simp [served]

/-- A new one joins the line unless it is served at once. -/
theorem pulls_pull (absent : t ∉ q.pulls) :
    (q.pull t).2.pulls = if (q.pull t).1 = none then q.pulls ++ [t] else q.pulls := by
  have others : (q.pulls ++ [t]).filter (· ≠ t) = q.pulls := by
    simpa [List.filter_append] using fun u member (same : u = t) => absent (same ▸ member)
  have line := pulls_pollPull { q with pulls := q.pulls ++ [t] } t
  rwa [others] at line

theorem mem_pull :
    u ∈ (q.pull t).2.pulls ↔ (u ∈ q.pulls ∨ u = t) ∧ ((q.pull t).1 = none ∨ u ≠ t) := by
  rw [pull, mem_pollPull, List.mem_append, List.mem_singleton]

theorem mem_foldl_dropPull {ts : List Ticket} (member : u ∈ (ts.foldl dropPull q).pulls) :
    u ∈ q.pulls := by
  induction ts generalizing q with
  | nil => exact member
  | cons t ts ih => exact (mem_dropPull.mp (ih member)).1

/-! ### Service -/

/-- What is taken is the oldest envelope, if there is one. -/
theorem map_take (q : Queue) : q.take.map Prod.fst = q.items.head? := by
  rw [take]
  split
  · next nothing => rw [nothing]; rfl
  · next something => rw [something]; rfl

/-- The first pull in line is served when it is looked at, if there is something to take. -/
theorem pollPull_of_first (first : q.pulls.head? = some t) :
    (q.pollPull t).1 = q.items.head? := by
  rw [← map_take, pollPull, if_pos first]
  split
  · next taken => rw [taken]; rfl
  · next nothing => rw [nothing]; rfl

/-- The others go on waiting. -/
theorem pollPull_of_later (later : q.pulls.head? ≠ some t) : q.pollPull t = (none, q) := by
  rw [pollPull, if_neg later]

theorem first_of_pollPull {work : Envelope} (served : (q.pollPull t).1 = some work) :
    q.pulls.head? = some t := by
  by_contra later
  rw [pollPull_of_later later] at served
  cases served

/-- A pull that finds nobody in line is the first at once. -/
theorem pull_eq (absent : t ∉ q.pulls) :
    (q.pull t).1 = if q.pulls = [] then q.items.head? else none := by
  cases others : q.pulls with
  | nil => exact pollPull_of_first (by rw [others]; rfl)
  | cons first rest =>
      have later : (q.pulls ++ [t]).head? ≠ some t := by
        rw [others] at absent ⊢
        simpa using fun same : first = t => absent (same ▸ List.mem_cons_self)
      rw [pull, pollPull_of_later later]
      rfl

theorem tryPull_eq (q : Queue) :
    q.tryPull.1 = if q.pulls = [] then q.items.head? else none := by
  rw [← map_take, tryPull]
  split
  · next nobody taken => rw [nobody, taken]; rfl
  · next otherwise =>
      cases nobody : q.pulls with
      | cons first rest => rfl
      | nil =>
          cases taken : q.take with
          | none => rfl
          | some x => exact absurd taken (otherwise x.1 x.2 nobody)

/-! ### Turns -/

/-- A pull that goes on waiting has not got its turn. -/
theorem not_hasTurn_of_pollPull (waits : (q.pollPull t).1 = none) :
    ¬(q.pollPull t).2.HasTurn t := by
  rw [pollPull] at waits ⊢
  by_cases first : q.pulls.head? = some t
  · rw [if_pos first] at waits ⊢
    cases taken : q.take with
    | none =>
        rintro ⟨-, something⟩
        exact something (take_eq_none_iff.mp taken)
    | some x =>
        rw [taken] at waits
        cases waits
  · rw [if_neg first]
    rintro ⟨same, -⟩
    exact first same

theorem not_hasTurn_of_pull (waits : (q.pull t).1 = none) : ¬(q.pull t).2.HasTurn t :=
  not_hasTurn_of_pollPull waits

/-- A pull that gets its turn by a change is signalled. -/
theorem signalled?_of_hasTurn (before : ¬q.HasTurn t) (after : r.HasTurn t) :
    signalled? q r = some t := by
  obtain ⟨first, something⟩ := after
  rw [signalled?, if_neg, first]
  rintro ⟨same, nothing | had⟩
  · exact something nothing
  · exact before ⟨same.trans first, had⟩

theorem signalled?_self (q : Queue) : signalled? q q = none := by
  rw [signalled?, if_pos]
  exact ⟨rfl, Decidable.em _⟩

end ReviewHub.Queue
