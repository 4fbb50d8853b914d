import ReviewHub.Event.Basic
/-!
# Listeners

A listener has an identity, by which alone it is told from others, and a name, which is shown. It
has a specific handler for each kind of event and a generic one for all of them.
-/

namespace ReviewHub

/-- Something that events can be delivered to. -/
structure Listener where
  identity : Nat
  name : String
deriving DecidableEq, Repr, Inhabited

namespace Listener

/-- They are one listener, whatever they are called. -/
def same (a b : Listener) : Bool := a.identity == b.identity

@[simp] theorem same_iff {a b : Listener} : a.same b = true ↔ a.identity = b.identity := by
  simp [same]

/-- The listener as diagnostics show it: its name in quotes and where it lives. -/
def describe (address : Listener → String) (l : Listener) : String :=
  "ListenerHandle(" ++ Text.quoted l.name ++ ", " ++ address l ++ ")"

end Listener

inductive Handler where
  | specific (kind : Kind)
  | generic
deriving DecidableEq, Repr

def Handler.name : Handler → String
  | specific k => "on_" ++ k.name.map fun c => if c = '-' then '_' else c
  | generic => "on_event"

end ReviewHub
