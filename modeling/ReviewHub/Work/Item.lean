import ReviewHub.Event.Basic
import ReviewHub.Json.Basic
/-!
# Work items and their envelopes

What producers submit: a line of the event stream, a JSON value split out of it, or an event that
is ready. On the queue an item travels in an envelope whose stamp tells it from all others.
-/

namespace ReviewHub

inductive WorkItem where
  | text (payload : String) (provider : Option Provider)
  | json (payload : Json) (provider : Option Provider)
  | event (e : Event)
deriving Inhabited

namespace WorkItem

def provider : WorkItem → Option Provider
  | text _ p => p
  | json _ p => p
  | event e => e.provider

/-- The form of the item and its provider. -/
def display (w : WorkItem) : String :=
  let form :=
    match w with
    | text _ _ => "text"
    | json _ _ => "json"
    | event e => "event " ++ e.kind.name
  form ++ Event.origin w.provider

end WorkItem

/-- The identifier of a submission: 122 bits drawn at random, and six that mark it as such. -/
abbrev WorkId := BitVec 128

namespace WorkId

/-- The identifier with the given random bits. Its thirteenth hexadecimal digit is 4 and its
seventeenth one of 8, 9, a and b. -/
def ofRandom (r : BitVec 122) : WorkId :=
  r.extractLsb' 74 48 ++ 4#4 ++ r.extractLsb' 62 12 ++ 2#2 ++ r.extractLsb' 0 62

def hex (id : WorkId) : String := id.toHex

def short (id : WorkId) : String := (id.extractLsb' 96 32).toHex

/-- The marks of an identifier that was drawn at random are there. -/
def isRandom (id : WorkId) : Bool :=
  id.extractLsb' 76 4 == 4#4 && id.extractLsb' 62 2 == 2#2

end WorkId

/-- What tells a submission from others: its identifier and when it was made, in nanoseconds. -/
structure Stamp where
  id : WorkId
  enqueuedAt : UInt64
deriving DecidableEq

structure Envelope where
  stamp : Stamp
  item : WorkItem

namespace Envelope

/-- The identifier as log records show it. -/
def shortId (e : Envelope) : String := e.stamp.id.short

end Envelope

end ReviewHub
