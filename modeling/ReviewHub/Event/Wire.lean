import ReviewHub.Event.Basic
/-!
# Events on the wire

The record of each kind of event, and reading an event by its type. In an object the type is one of
the members, wherever it stands; in a list it is the first element. The other members are read as
trees first, because the type need not have stood yet, and are decoded when all has been read.
-/

namespace ReviewHub

open Wire (Decoder Member member wrongType)
open Json (Reader)

/-- What an event tells together with its time, which stands among its members on the wire. -/
structure Told (D : Type) where
  detail : D
  createdOn : Option UInt64 := none
deriving DecidableEq, Repr

namespace Told

variable {D : Type}

/-- The record with the title whose members are those of `D` and then the time. -/
def decoder (title : String) (empty : D) (members : List (Member D)) : Decoder (Told D) :=
  Wire.Record.decoder title ⟨empty, none⟩ <|
    members.map (·.within fun f t => { t with detail := f t.detail }) ++
      [member "eventCreatedOn" (.optional .word64) fun x t => { t with createdOn := x }]

/-- The event that tells this, from nowhere. -/
def event (wrap : D → Detail) (t : Told D) : Event :=
  { detail := wrap t.detail, createdOn := t.createdOn }

end Told

namespace ChangeAbandoned

def members : List (Member ChangeAbandoned) := [
  member "change" (.optional Change.decoder) fun x d => { d with change := x },
  member "patchSet" (.optional PatchSet.decoder) fun x d => { d with patchSet := x },
  member "abandoner" (.optional Account.decoder) fun x d => { d with abandoner := x },
  member "reason" (.optional .text) fun x d => { d with reason := x }]

end ChangeAbandoned

namespace ChangeMerged

def members : List (Member ChangeMerged) := [
  member "change" (.optional Change.decoder) fun x d => { d with change := x },
  member "patchSet" (.optional PatchSet.decoder) fun x d => { d with patchSet := x },
  member "submitter" (.optional Account.decoder) fun x d => { d with submitter := x },
  member "newRev" (.optional .text) fun x d => { d with newRev := x }]

end ChangeMerged

namespace ChangeRestored

def members : List (Member ChangeRestored) := [
  member "change" (.optional Change.decoder) fun x d => { d with change := x },
  member "patchSet" (.optional PatchSet.decoder) fun x d => { d with patchSet := x },
  member "restorer" (.optional Account.decoder) fun x d => { d with restorer := x },
  member "reason" (.optional .text) fun x d => { d with reason := x }]

end ChangeRestored

namespace CommentAdded

def members : List (Member CommentAdded) := [
  member "change" (.optional Change.decoder) fun x d => { d with change := x },
  member "patchSet" (.optional PatchSet.decoder) fun x d => { d with patchSet := x },
  member "author" (.optional Account.decoder) fun x d => { d with author := x },
  member "approvals" (.listOf Approval.decoder) fun x d => { d with approvals := x },
  member "comment" (.optional .text) fun x d => { d with comment := x }]

end CommentAdded

namespace DraftPublished

def members : List (Member DraftPublished) := [
  member "change" (.optional Change.decoder) fun x d => { d with change := x },
  member "patchSet" (.optional PatchSet.decoder) fun x d => { d with patchSet := x },
  member "uploader" (.optional Account.decoder) fun x d => { d with uploader := x }]

end DraftPublished

namespace PatchsetCreated

def members : List (Member PatchsetCreated) := [
  member "change" (.optional Change.decoder) fun x d => { d with change := x },
  member "patchSet" (.optional PatchSet.decoder) fun x d => { d with patchSet := x },
  member "uploader" (.optional Account.decoder) fun x d => { d with uploader := x }]

end PatchsetCreated

namespace RefUpdated

def members : List (Member RefUpdated) := [
  member "submitter" (.optional Account.decoder) fun x d => { d with submitter := x },
  member "refUpdate" (.optional RefUpdate.decoder) fun x d => { d with refUpdate := x }]

end RefUpdated

namespace ReviewerAdded

def members : List (Member ReviewerAdded) := [
  member "change" (.optional Change.decoder) fun x d => { d with change := x },
  member "patchSet" (.optional PatchSet.decoder) fun x d => { d with patchSet := x },
  member "reviewer" (.optional Account.decoder) fun x d => { d with reviewer := x }]

end ReviewerAdded

namespace TopicChanged

def members : List (Member TopicChanged) := [
  member "change" (.optional Change.decoder) fun x d => { d with change := x },
  member "changer" (.optional Account.decoder) fun x d => { d with changer := x },
  member "oldTopic" (.optional .text) fun x d => { d with oldTopic := x }]

end TopicChanged

namespace RefReplicated

def members : List (Member RefReplicated) := [
  member "project" (.optional .text) fun x d => { d with project := x },
  member "ref" (.optional .text) fun x d => { d with refName := x },
  member "targetNode" (.optional .text) fun x d => { d with targetNode := x },
  member "status" (.optional .text) fun x d => { d with status := x }]

end RefReplicated

namespace RefReplicationDone

def members : List (Member RefReplicationDone) := [
  member "project" (.optional .text) fun x d => { d with project := x },
  member "ref" (.optional .text) fun x d => { d with refName := x },
  member "nodesCount" .word32 fun x d => { d with nodesCount := x }]

end RefReplicationDone

namespace Event

def decoderOf (k : Kind) : Decoder Event :=
  match k with
  | .changeAbandoned =>
    (Told.decoder k.title {} ChangeAbandoned.members).map (Told.event .changeAbandoned)
  | .changeMerged => (Told.decoder k.title {} ChangeMerged.members).map (Told.event .changeMerged)
  | .changeRestored =>
    (Told.decoder k.title {} ChangeRestored.members).map (Told.event .changeRestored)
  | .commentAdded => (Told.decoder k.title {} CommentAdded.members).map (Told.event .commentAdded)
  | .draftPublished =>
    (Told.decoder k.title {} DraftPublished.members).map (Told.event .draftPublished)
  | .patchsetCreated =>
    (Told.decoder k.title {} PatchsetCreated.members).map (Told.event .patchsetCreated)
  | .refUpdated => (Told.decoder k.title {} RefUpdated.members).map (Told.event .refUpdated)
  | .reviewerAdded =>
    (Told.decoder k.title {} ReviewerAdded.members).map (Told.event .reviewerAdded)
  | .topicChanged => (Told.decoder k.title {} TopicChanged.members).map (Told.event .topicChanged)
  | .refReplicated =>
    (Told.decoder k.title {} RefReplicated.members).map (Told.event .refReplicated)
  | .refReplicationDone =>
    (Told.decoder k.title {} RefReplicationDone.members).map (Told.event .refReplicationDone)

def kindDecoder : Decoder Kind := .ofScalar fun
  | .string s =>
    match Kind.ofTag? s with
    | some k => .ok k
    | none => .error (.unknownType s Kind.tags)
  | v => .error (wrongType .eventType v)

/-- The type and the other members of an object, as far as they have been read; the members stand
in reverse. -/
structure Tagged where
  kind : Option Kind := none
  members : List (String × Json) := []

namespace Tagged

def decode (t : Tagged) : Except Mismatch Event :=
  match t.kind with
  | none => .error .missingType
  | some k => (decoderOf k).ofJson (.object t.members.reverse)

def takeMember (t : Tagged) (key : String) (v : Json) : Except Mismatch Tagged :=
  if key = "type" then
    if t.kind.isSome then .error (.duplicateMember "type")
    else (kindDecoder.ofJson v).map fun k => { t with kind := some k }
  else .ok { t with members := (key, v) :: t.members }

def takeMembers : Tagged → List (String × Json) → Except Mismatch Tagged
  | t, [] => .ok t
  | t, (key, v) :: ms => do takeMembers (← t.takeMember key v) ms

/-- Reads the member whose key has been taken off the text. -/
def readMember (levels : Nat) (t : Tagged) (key : String) : Reader Tagged := do
  if key = "type" then
    if t.kind.isSome then Wire.Record.refuseAfterClosing (.duplicateMember "type")
    else
      Reader.colon
      let k ← kindDecoder.ofText levels
      return { t with kind := some k }
  else
    Reader.colon
    return { t with members := (key, ← Reader.value levels) :: t.members }

end Tagged

/-- Reads a list whose first element is the type. -/
def readList (levels : Nat) : Reader (Except Mismatch Event) :=
  Reader.nested levels fun inner => do
    if ← Reader.nextElement true then
      let k ← kindDecoder.ofText inner
      let xs ← fun c => Reader.foldElements
        (fun xs => return (← Reader.value inner) :: xs) false [] (c.rest.length + 1) c
      Reader.closeList
      return (decoderOf k).ofJson (.array xs.reverse)
    else Reader.refuse .missingType

/-- Reads an event with its type from the text, up to decoding what was read as trees. -/
def readTagged (levels : Nat) : Reader (Except Mismatch Event) := do
  match ← Reader.peekToken with
  | none => Reader.fail .noValue
  | some '{' =>
    let t ← Reader.object levels {} Tagged.readMember
    return t.decode
  | some '[' => readList levels
  | some c => Reader.refuse (wrongType .event (← Reader.scalar c))

/-- An event with its type, given as a tree. -/
def ofJson : Json → Except Mismatch Event
  | .object ms => do (← Tagged.takeMembers {} ms).decode
  | .array [] => .error .missingType
  | .array (x :: xs) => do
    let k ← kindDecoder.ofJson x
    (decoderOf k).ofJson (.array xs)
  | v => .error (wrongType .event v)

/-- An event with its type. What was read as trees is decoded last, and what is wrong there has no
place in the text. -/
def decoder : Decoder Event where
  ofJson := ofJson
  ofText levels := do
    match ← readTagged levels with
    | .ok e => return e
    | .error m => fun _ => .error (.unplaced m)

end Event

end ReviewHub
