import ReviewHub.Event.Attribute
import ReviewHub.Event.Kind
/-!
# Events

An event is what one kind of event tells, the time it was created and the server it came from. The
views `change?`, `patchSet?` and `account?` are what listeners of every kind of event look at.
-/

namespace ReviewHub

structure ChangeAbandoned where
  change : Option Change := none
  patchSet : Option PatchSet := none
  abandoner : Option Account := none
  reason : Option String := none
deriving DecidableEq, Repr, Inhabited

structure ChangeMerged where
  change : Option Change := none
  patchSet : Option PatchSet := none
  submitter : Option Account := none
  newRev : Option String := none
deriving DecidableEq, Repr, Inhabited

/-- A change that had been given up was taken up again. -/
structure ChangeRestored where
  change : Option Change := none
  patchSet : Option PatchSet := none
  restorer : Option Account := none
  reason : Option String := none
deriving DecidableEq, Repr, Inhabited

/-- A review comment, perhaps with votes. -/
structure CommentAdded where
  change : Option Change := none
  patchSet : Option PatchSet := none
  author : Option Account := none
  approvals : List Approval := []
  comment : Option String := none
deriving DecidableEq, Repr, Inhabited

/-- The value of the first vote on the label. -/
def CommentAdded.approval? (c : CommentAdded) (label : String) : Option String :=
  (c.approvals.find? (·.label = some label)).bind (·.value)

/-- A draft was opened for review. -/
structure DraftPublished where
  change : Option Change := none
  patchSet : Option PatchSet := none
  uploader : Option Account := none
deriving DecidableEq, Repr, Inhabited

/-- A new revision of a change was uploaded. -/
structure PatchsetCreated where
  change : Option Change := none
  patchSet : Option PatchSet := none
  uploader : Option Account := none
deriving DecidableEq, Repr, Inhabited

structure RefUpdated where
  submitter : Option Account := none
  refUpdate : Option RefUpdate := none
deriving DecidableEq, Repr, Inhabited

/-- A reviewer was asked. -/
structure ReviewerAdded where
  change : Option Change := none
  patchSet : Option PatchSet := none
  reviewer : Option Account := none
deriving DecidableEq, Repr, Inhabited

/-- A change was put under another topic. -/
structure TopicChanged where
  change : Option Change := none
  changer : Option Account := none
  oldTopic : Option String := none
deriving DecidableEq, Repr, Inhabited

/-- A ref was replicated to one node. -/
structure RefReplicated where
  project : Option String := none
  refName : Option String := none
  targetNode : Option String := none
  status : Option String := none
deriving DecidableEq, Repr, Inhabited

/-- A ref was replicated to all nodes. -/
structure RefReplicationDone where
  project : Option String := none
  refName : Option String := none
  nodesCount : UInt32 := 0
deriving DecidableEq, Repr, Inhabited

inductive Detail where
  | changeAbandoned (d : ChangeAbandoned)
  | changeMerged (d : ChangeMerged)
  | changeRestored (d : ChangeRestored)
  | commentAdded (d : CommentAdded)
  | draftPublished (d : DraftPublished)
  | patchsetCreated (d : PatchsetCreated)
  | refUpdated (d : RefUpdated)
  | reviewerAdded (d : ReviewerAdded)
  | topicChanged (d : TopicChanged)
  | refReplicated (d : RefReplicated)
  | refReplicationDone (d : RefReplicationDone)
deriving DecidableEq, Repr, Inhabited

structure Event where
  detail : Detail
  createdOn : Option UInt64 := none
  provider : Option Provider := none
deriving DecidableEq, Repr, Inhabited

namespace Detail

def kind : Detail → Kind
  | changeAbandoned _ => .changeAbandoned
  | changeMerged _ => .changeMerged
  | changeRestored _ => .changeRestored
  | commentAdded _ => .commentAdded
  | draftPublished _ => .draftPublished
  | patchsetCreated _ => .patchsetCreated
  | refUpdated _ => .refUpdated
  | reviewerAdded _ => .reviewerAdded
  | topicChanged _ => .topicChanged
  | refReplicated _ => .refReplicated
  | refReplicationDone _ => .refReplicationDone

/-- What an event of the kind tells if nothing is known of it. -/
def default : Kind → Detail
  | .changeAbandoned => .changeAbandoned {}
  | .changeMerged => .changeMerged {}
  | .changeRestored => .changeRestored {}
  | .commentAdded => .commentAdded {}
  | .draftPublished => .draftPublished {}
  | .patchsetCreated => .patchsetCreated {}
  | .refUpdated => .refUpdated {}
  | .reviewerAdded => .reviewerAdded {}
  | .topicChanged => .topicChanged {}
  | .refReplicated => .refReplicated {}
  | .refReplicationDone => .refReplicationDone {}

def change? : Detail → Option Change
  | changeAbandoned d => d.change
  | changeMerged d => d.change
  | changeRestored d => d.change
  | commentAdded d => d.change
  | draftPublished d => d.change
  | patchsetCreated d => d.change
  | reviewerAdded d => d.change
  | topicChanged d => d.change
  | refUpdated _ => none
  | refReplicated _ => none
  | refReplicationDone _ => none

def patchSet? : Detail → Option PatchSet
  | changeAbandoned d => d.patchSet
  | changeMerged d => d.patchSet
  | changeRestored d => d.patchSet
  | commentAdded d => d.patchSet
  | draftPublished d => d.patchSet
  | patchsetCreated d => d.patchSet
  | reviewerAdded d => d.patchSet
  | topicChanged _ => none
  | refUpdated _ => none
  | refReplicated _ => none
  | refReplicationDone _ => none

def account? : Detail → Option Account
  | changeAbandoned d => d.abandoner
  | changeMerged d => d.submitter
  | changeRestored d => d.restorer
  | commentAdded d => d.author
  | draftPublished d => d.uploader
  | patchsetCreated d => d.uploader
  | refUpdated d => d.submitter
  | reviewerAdded d => d.reviewer
  | topicChanged d => d.changer
  | refReplicated _ => none
  | refReplicationDone _ => none

end Detail

namespace Event

def kind (e : Event) : Kind := e.detail.kind

def change? (e : Event) : Option Change := e.detail.change?

def patchSet? (e : Event) : Option PatchSet := e.detail.patchSet?

def account? (e : Event) : Option Account := e.detail.account?

/-- The event as received from `provider`, or from nowhere. -/
def withProvider (e : Event) (provider : Option Provider) : Event :=
  { e with provider := provider }

/-- Where something came from, as it is shown. -/
def origin : Option Provider → String
  | none => ""
  | some p => " from " ++ p.display

/-- The kind, the numbers of change and patch set, and the provider. A patch set is shown only with
its change. -/
def display (e : Event) : String :=
  let subject :=
    match e.change?.bind (·.number), e.patchSet?.bind (·.number) with
    | some n, some p => " change " ++ toString n ++ "/" ++ toString p
    | some n, none => " change " ++ toString n
    | none, _ => ""
  e.kind.name ++ subject ++ origin e.provider

end Event

end ReviewHub
