import ReviewHub.Listen.IgnoreList
import ReviewHub.Listen.Roster
/-!
# What listeners do

A call of a handler is a script: it acts on the switchboard that called it, perhaps waits at a gate,
and ends with an outcome. The switchboard is the roster together with the ignore list.
-/

namespace ReviewHub

/-- The roster and the ignore list, which together decide who hears of an event. -/
structure Switchboard where
  roster : Roster := {}
  ignored : IgnoreList := {}
deriving DecidableEq, Repr, Inhabited

/-- What a handler can do to the switchboard while it runs. -/
inductive Action where
  | add (listener : Listener)
  | addAll (listeners : List Listener)
  | remove (listener : Listener)
  | removeAll
  | count
  | ignore (provider : String) (email : Option String)
  /-- Deliver an event at once, before the handler goes on. -/
  | notify (event : Event)
deriving DecidableEq, Repr

inductive Reply where
  | done
  | flag (b : Bool)
  | count (n : Nat)
  | listeners (ls : List Listener)
deriving DecidableEq, Repr, Inhabited

namespace Switchboard

/-- The switchboard after an action, its reply and what is reported. Delivering an event is not
done here and changes nothing by itself. -/
def act (b : Switchboard) : Action → Reply × Switchboard × List Log
  | .add l =>
    let u := b.roster.add l
    (.flag u.answer, { b with roster := u.roster }, u.logs)
  | .addAll ls =>
    let u := b.roster.addAll ls
    (.count u.answer, { b with roster := u.roster }, u.logs)
  | .remove l =>
    let u := b.roster.remove l
    (.flag u.answer, { b with roster := u.roster }, u.logs)
  | .removeAll =>
    let u := b.roster.removeAll
    (.listeners u.answer, { b with roster := u.roster }, u.logs)
  | .count => (.count b.roster.size, b, [])
  | .ignore p email => (.done, { b with ignored := b.ignored.set p email }, [])
  | .notify _ => (.done, b, [])

end Switchboard

/-- What code panicked with. To throw it away, as is done with every panic that is caught, is taken
not to panic again: a payload of a type of the listener's own may run code then, outside of
everything that catches panics. -/
inductive Panic where
  | text (s : String)
  | other
deriving DecidableEq, Repr

namespace Panic

/-- The text of a panic, if it has one. -/
def text? : Panic → Option String
  | text s => some s
  | other => none

/-- The text of a panic as it is reported of a listener. -/
def message (p : Panic) : String := p.text?.getD "<non-string panic payload>"

end Panic

inductive Outcome where
  /-- The handler took the event. -/
  | handled
  /-- The listener has no such handler. -/
  | declined
  | failed (error : Error)
  | panicked (panic : Panic)
deriving Inhabited

/-- What a call of a handler does from some moment on. -/
inductive Script where
  | ends (outcome : Outcome)
  | acts (action : Action) (next : Reply → Script)
  /-- Waits until somebody lets it pass. -/
  | waits (next : Script)
deriving Inhabited

/-- What the handlers of listeners do. A listener may remember things, and what all of them remember
is an `σ`. -/
abbrev Repertoire (σ : Type) := Listener → Handler → Event → σ → Script × σ

end ReviewHub
