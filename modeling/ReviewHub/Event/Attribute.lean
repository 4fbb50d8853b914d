import ReviewHub.Wire.Record
/-!
# What events speak of

Accounts, changes, patch sets, votes and updates of a ref, with their form on the wire; and the
server that an event came from, which never stands on the wire.
-/

namespace ReviewHub

open Wire (Decoder member)

structure Account where
  name : Option String := none
  email : Option String := none
  username : Option String := none
deriving DecidableEq, Repr, Inhabited

namespace Account

/-- An account of which only the email is known. -/
def withEmail (email : String) : Account := { email := some email }

/-- Name and email, or what is known of them, or the user name. -/
def display (a : Account) : String :=
  match a.name, a.email with
  | some name, some email => name ++ " <" ++ email ++ ">"
  | some name, none => name
  | none, some email => email
  | none, none => a.username.getD "<unknown>"

def members : List (Wire.Member Account) := [
  member "name" (.optional .text) fun x a => { a with name := x },
  member "email" (.optional .text) fun x a => { a with email := x },
  member "username" (.optional .text) fun x a => { a with username := x }]

def decoder : Decoder Account := Wire.Record.decoder "Account" {} members

end Account

/-- The server connection that an event was received from. Only the name takes part in deciding
which comments are ignored. -/
structure Provider where
  name : String := ""
  host : Option String := none
  port : Option UInt16 := none
  scheme : Option String := none
  url : Option String := none
  version : Option String := none
deriving DecidableEq, Repr, Inhabited

def Provider.display (p : Provider) : String := p.name

structure Change where
  project : Option String := none
  branch : Option String := none
  id : Option String := none
  number : Option UInt64 := none
  subject : Option String := none
  owner : Option Account := none
  url : Option String := none
  commitMessage : Option String := none
  status : Option String := none
  topic : Option String := none
deriving DecidableEq, Repr, Inhabited

namespace Change

def members : List (Wire.Member Change) := [
  member "project" (.optional .text) fun x c => { c with project := x },
  member "branch" (.optional .text) fun x c => { c with branch := x },
  member "id" (.optional .text) fun x c => { c with id := x },
  member "number" .numberOrText fun x c => { c with number := x },
  member "subject" (.optional .text) fun x c => { c with subject := x },
  member "owner" (.optional Account.decoder) fun x c => { c with owner := x },
  member "url" (.optional .text) fun x c => { c with url := x },
  member "commitMessage" (.optional .text) fun x c => { c with commitMessage := x },
  member "status" (.optional .text) fun x c => { c with status := x },
  member "topic" (.optional .text) fun x c => { c with topic := x }]

def decoder : Decoder Change := Wire.Record.decoder "Change" {} members

end Change

structure PatchSet where
  number : Option UInt64 := none
  revision : Option String := none
  refName : Option String := none
  uploader : Option Account := none
  author : Option Account := none
  createdOn : Option UInt64 := none
  kind : Option String := none
  isDraft : Bool := false
deriving DecidableEq, Repr, Inhabited

namespace PatchSet

def members : List (Wire.Member PatchSet) := [
  member "number" .numberOrText fun x p => { p with number := x },
  member "revision" (.optional .text) fun x p => { p with revision := x },
  member "ref" (.optional .text) fun x p => { p with refName := x },
  member "uploader" (.optional Account.decoder) fun x p => { p with uploader := x },
  member "author" (.optional Account.decoder) fun x p => { p with author := x },
  member "createdOn" (.optional .word64) fun x p => { p with createdOn := x },
  member "kind" (.optional .text) fun x p => { p with kind := x },
  member "isDraft" .flag fun x p => { p with isDraft := x }]

def decoder : Decoder PatchSet := Wire.Record.decoder "PatchSet" {} members

end PatchSet

/-- A vote on a label, cast with a comment. -/
structure Approval where
  label : Option String := none
  description : Option String := none
  value : Option String := none
  oldValue : Option String := none
  voter : Option Account := none
deriving DecidableEq, Repr, Inhabited

namespace Approval

def members : List (Wire.Member Approval) := [
  member "type" (.optional .text) fun x a => { a with label := x },
  member "description" (.optional .text) fun x a => { a with description := x },
  member "value" (.optional .text) fun x a => { a with value := x },
  member "oldValue" (.optional .text) fun x a => { a with oldValue := x },
  member "by" (.optional Account.decoder) fun x a => { a with voter := x }]

def decoder : Decoder Approval := Wire.Record.decoder "Approval" {} members

end Approval

/-- The move of a ref from one revision to another. -/
structure RefUpdate where
  oldRev : Option String := none
  newRev : Option String := none
  refName : Option String := none
  project : Option String := none
deriving DecidableEq, Repr, Inhabited

namespace RefUpdate

def members : List (Wire.Member RefUpdate) := [
  member "oldRev" (.optional .text) fun x u => { u with oldRev := x },
  member "newRev" (.optional .text) fun x u => { u with newRev := x },
  member "refName" (.optional .text) fun x u => { u with refName := x },
  member "project" (.optional .text) fun x u => { u with project := x }]

def decoder : Decoder RefUpdate := Wire.Record.decoder "RefUpdate" {} members

end RefUpdate

end ReviewHub
