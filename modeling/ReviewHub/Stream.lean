import ReviewHub.Event.Wire
import ReviewHub.Log
import ReviewHub.Text.Blank
/-!
# The event stream

A parser turns raw payloads into events. `Stream.parser` reads the lines of a review server's event
stream: a line that is no JSON object, or whose type is not known, is nothing to dispatch; a line of
a known type that does not decode is an error. The provider is the one given, whatever the payload
holds.
-/

namespace ReviewHub

inductive Reading where
  | event (e : Event)
  /-- Not an event worth dispatching. -/
  | nothing
  | failed (error : Error)
  /-- The parser did not return. -/
  | panicked
deriving Inhabited

/-- What a parser makes of a payload, and what it reports. -/
structure Parsed where
  reading : Reading
  logs : List Log := []

/-- A way to turn raw payloads, submitted with a provider, into events. -/
structure Parser where
  ofText : String → Option Provider → Parsed
  ofJson : Json → Option Provider → Parsed

namespace Stream

def type? : Json → Option String
  | .object ms =>
    match Json.member? "type" ms with
    | some (.string s) => some s
    | _ => none
  | _ => none

/-- The payload names a type of events that the hub knows. -/
def isEvent (v : Json) : Bool := (type? v).any Kind.isKnown

def parseJson (v : Json) (provider : Option Provider) : Parsed :=
  if isEvent v then
    match Event.ofJson v with
    | .ok e => { reading := .event (e.withProvider provider) }
    | .error m => { reading := .failed (.parse (.unplaced m)) }
  else { reading := .nothing, logs := [.uninteresting (type? v)] }

/-- What a line turns out to be. Of members with the same key the last one counts. -/
def parseText (line : String) (provider : Option Provider) : Parsed :=
  match Text.trim line.toList with
  | [] => { reading := .nothing }
  | text =>
    match Json.parse text with
    | .ok (.object ms) => parseJson (Json.object ms).canonical provider
    | .ok _ => { reading := .nothing, logs := [.notObject (String.ofList text)] }
    | .error fault => { reading := .nothing, logs := [.notJson (String.ofList text) fault] }

def parser : Parser := ⟨parseText, parseJson⟩

end Stream

/-- What the item turns into. An event that is ready passes through. -/
def WorkItem.intoEvent (parser : Parser) : WorkItem → Parsed
  | .text payload provider => parser.ofText payload provider
  | .json payload provider => parser.ofJson payload provider
  | .event e => { reading := .event e }

end ReviewHub
