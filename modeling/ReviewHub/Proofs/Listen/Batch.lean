import ReviewHub.Proofs.Listen.Membership

/-!
# Listeners added in one go

To add several listeners in one go is to work on a copy of the roster, which takes its place at the
end if it has grown. It comes to the same as to add them one after the other, each to the roster as
it then is: a listener that stands twice in the list is refused the second time as one that was
registered before. The induction is on the list, for all rosters at once, since every listener that
comes in changes the roster for those after it.
-/

namespace ReviewHub

namespace Roster

/-- Registers listeners one after the other. Answers which of them were new. -/
def addEach (r : Roster) : List Listener → Update (List Bool)
  | [] => { answer := [], roster := r }
  | l :: ls =>
    let first := r.add l
    let rest := first.roster.addEach ls
    { answer := first.answer :: rest.answer
      roster := rest.roster
      logs := first.logs ++ rest.logs }

variable {r : Roster} {l : Listener}

theorem addEach_of_contains (registered : r.contains l = true) (ls : List Listener) :
    r.addEach (l :: ls) =
      ⟨false :: (r.addEach ls).answer, (r.addEach ls).roster,
        .doublyAdded l :: (r.addEach ls).logs⟩ := by
  rw [addEach, add, if_pos registered]
  rfl

theorem addEach_of_not_contains (absent : r.contains l = false) (ls : List Listener) :
    r.addEach (l :: ls) =
      let grown : Roster := ⟨r.listeners ++ [l]⟩
      ⟨true :: (grown.addEach ls).answer, (grown.addEach ls).roster, (grown.addEach ls).logs⟩ := by
  rw [addEach, add, absent]
  rfl

theorem merge_of_contains (registered : r.contains l = true) (ls : List Listener) :
    merge r.listeners (l :: ls) =
      ((merge r.listeners ls).1, .doublyAdded l :: (merge r.listeners ls).2) := by
  have listed : isListed l r.listeners = true := registered
  rw [merge, if_pos listed]

theorem merge_of_not_contains (absent : r.contains l = false) (ls : List Listener) :
    merge r.listeners (l :: ls) = merge (r.listeners ++ [l]) ls := by
  have unlisted : isListed l r.listeners = false := absent
  rw [merge, unlisted]
  rfl

theorem roster_addEach (r : Roster) (ls : List Listener) :
    (r.addEach ls).roster = r.after (ls.map .joins) := by
  induction ls generalizing r with
  | nil => rfl
  | cons l ls ih => exact ih (r.add l).roster

/-- The listeners that are refused are the same, in the same order. -/
theorem logs_addEach (r : Roster) (ls : List Listener) :
    (r.addEach ls).logs = (merge r.listeners ls).2 := by
  induction ls generalizing r with
  | nil => rfl
  | cons l ls ih =>
      cases known : r.contains l with
      | true => rw [addEach_of_contains known, merge_of_contains known, ih]
      | false => rw [addEach_of_not_contains known, merge_of_not_contains known, ← ih]

/-- Every listener that is new makes the roster longer by one. -/
theorem size_addEach (r : Roster) (ls : List Listener) :
    (r.addEach ls).roster.size = r.size + (r.addEach ls).answer.count true := by
  induction ls generalizing r with
  | nil => rfl
  | cons l ls ih =>
      cases known : r.contains l with
      | true => rw [addEach_of_contains known, List.count_cons_of_ne Bool.false_ne_true, ← ih]
      | false =>
          rw [addEach_of_not_contains known, List.count_cons_self, ih, size, List.length_append,
            List.length_singleton, Nat.add_assoc, Nat.add_comm 1, size]

/-- The listeners that were refused when they were added one after the other. -/
def refused (r : Roster) (ls : List Listener) : List Listener :=
  ((ls.zip (r.addEach ls).answer).filter fun tried => !tried.2).map Prod.fst

theorem refused_of_contains (registered : r.contains l = true) (ls : List Listener) :
    r.refused (l :: ls) = l :: r.refused ls := by
  rw [refused, addEach_of_contains registered]
  rfl

theorem refused_of_not_contains (absent : r.contains l = false) (ls : List Listener) :
    r.refused (l :: ls) = refused ⟨r.listeners ++ [l]⟩ ls := by
  rw [refused, addEach_of_not_contains absent]
  rfl

/-- Each refusal is reported, and nothing else. -/
theorem logs_eq_map_refused (r : Roster) (ls : List Listener) :
    (r.addEach ls).logs = (r.refused ls).map .doublyAdded := by
  induction ls generalizing r with
  | nil => rfl
  | cons l ls ih =>
      cases known : r.contains l with
      | true => rw [addEach_of_contains known, refused_of_contains known, ih, List.map_cons]
      | false => rw [addEach_of_not_contains known, refused_of_not_contains known, ih]

/-- To add listeners in one go is to add them one after the other: the roster is the same, the
answer is how many of the single additions answer that the listener is new, and the same warnings
are logged in the same order, which are about the listeners that were refused. -/
theorem addAll_eq_addEach (r : Roster) (ls : List Listener) :
    let each := r.addEach ls
    r.addAll ls = ⟨each.answer.count true, each.roster, each.logs⟩ ∧
      each.logs = (r.refused ls).map .doublyAdded := by
  intro each
  have roster : (r.addAll ls).roster = each.roster := by rw [roster_addAll, ← roster_addEach]
  have answer : (r.addAll ls).answer = each.answer.count true := by
    rw [answer_addAll, ← roster_addEach, ← size, size_addEach, ← size, Nat.add_sub_cancel_left]
  have logs : (r.addAll ls).logs = each.logs := (logs_addEach r ls).symm
  refine ⟨?_, logs_eq_map_refused r ls⟩
  rw [← roster, ← answer, ← logs]

/-- The first `b` is new and the second is not, as it would be if they were added singly. -/
example :
    let a : Listener := ⟨1, "a"⟩
    let b : Listener := ⟨2, "b"⟩
    let u := addAll ⟨[a]⟩ [b, a, b]
    u.answer = 1 ∧ u.roster.listeners = [a, b] ∧ u.logs.map Log.fields =
      [[("listener", .text "a")], [("listener", .text "b")]] := by
  decide

end Roster

end ReviewHub
