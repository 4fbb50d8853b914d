import ReviewHub.Log
/-!
# The roster of listeners

The registered listeners in the order in which they came in. A listener is on the roster at most
once; adding it again is refused with a warning. A dispatch works on the roster as it was when the
dispatch began, so the roster is a plain value.
-/

namespace ReviewHub

/-- The registered listeners, in order of registration. -/
structure Roster where
  listeners : List Listener := []
deriving DecidableEq, Repr, Inhabited

namespace Roster

/-- What an operation answers, the roster after it, and what it reports. -/
structure Update (α : Type) where
  answer : α
  roster : Roster
  logs : List Log := []

def isListed (l : Listener) (ls : List Listener) : Bool := ls.any (·.same l)

def contains (r : Roster) (l : Listener) : Bool := isListed l r.listeners

def size (r : Roster) : Nat := r.listeners.length

/-- Registers a listener at the end. Answers whether it is new. -/
def add (r : Roster) (l : Listener) : Update Bool :=
  if r.contains l then { answer := false, roster := r, logs := [.doublyAdded l] }
  else { answer := true, roster := ⟨r.listeners ++ [l]⟩ }

@[simp] theorem answer_add (r : Roster) (l : Listener) :
    (r.add l).answer = !r.contains l := by
  unfold add; split <;> simp_all

/-- Appends to `done` the listeners that are not listed yet, and reports the others. -/
def merge (done : List Listener) : List Listener → List Listener × List Log
  | [] => (done, [])
  | l :: ls =>
    if isListed l done then
      let (all, logs) := merge done ls
      (all, .doublyAdded l :: logs)
    else merge (done ++ [l]) ls

/-- Registers several listeners in one go. Answers how many are new. -/
def addAll (r : Roster) (ls : List Listener) : Update Nat :=
  let (all, logs) := merge r.listeners ls
  let added := all.length - r.listeners.length
  { answer := added, roster := if added = 0 then r else ⟨all⟩, logs := logs }

/-- Takes a listener off the roster. Answers whether it was on it. -/
def remove (r : Roster) (l : Listener) : Update Bool :=
  if r.contains l then
    { answer := true, roster := ⟨r.listeners.filter fun m => !m.same l⟩ }
  else { answer := false, roster := r }

@[simp] theorem answer_remove (r : Roster) (l : Listener) :
    (r.remove l).answer = r.contains l := by
  unfold remove; split <;> simp_all

/-- A removal changes nothing but the membership of the listener. -/
theorem listeners_remove (r : Roster) (l : Listener) :
    (r.remove l).roster.listeners = r.listeners.filter fun m => !m.same l := by
  unfold remove
  split
  · rfl
  · next h =>
    refine (List.filter_eq_self.mpr fun m hm => ?_).symm
    cases same : m.same l with
    | false => rfl
    | true => exact absurd (List.any_eq_true.mpr ⟨m, hm, same⟩) h

/-- Takes all listeners off the roster. Answers which they were. -/
def removeAll (r : Roster) : Update (List Listener) :=
  { answer := r.listeners, roster := {} }

def describe (address : Listener → String) (r : Roster) : String :=
  "[" ++ ", ".intercalate (r.listeners.map (·.describe address)) ++ "]"

end Roster

end ReviewHub
