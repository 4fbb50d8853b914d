import ReviewHub.Proofs.Event.Fields
import ReviewHub.Proofs.Wire.Form

/-!
# The wire format of events

The forms in which a review server writes accounts, changes, patch sets, votes, updates of a ref
and events. Keys are in camel case, but for the ref of a patch set or of a replication, which
stands under `ref`, and the label of a vote, which stands under `type`. The type of an event is
the name of its kind.

The decoders read these forms.
-/

namespace ReviewHub

open Wire (Clause Decoder Form)
open Wire.Field (isObtained)

/-! ### Attributes -/

namespace Account

/-- What stands in an account. -/
def told (a : Account) : List Clause := [
  .optional "name" Form.text a.name,
  .optional "email" Form.text a.email,
  .optional "username" Form.text a.username]

def form : Form Account := Form.object told

theorem decoder_reads : decoder.Reads form :=
  lays.reads _ fun _ =>
    .cons (isObtained name Decoder.text_reads.orNull) <|
    .cons (isObtained email Decoder.text_reads.orNull) <|
    .cons (isObtained username Decoder.text_reads.orNull) .nil

end Account

namespace Change

/-- What stands in a change. -/
def told (c : Change) : List Clause := [
  .optional "project" Form.text c.project,
  .optional "branch" Form.text c.branch,
  .optional "id" Form.text c.id,
  .optional "number" Form.numberOrText c.number,
  .optional "subject" Form.text c.subject,
  .optional "owner" Account.form c.owner,
  .optional "url" Form.text c.url,
  .optional "commitMessage" Form.text c.commitMessage,
  .optional "status" Form.text c.status,
  .optional "topic" Form.text c.topic]

def form : Form Change := Form.object told

theorem decoder_reads : decoder.Reads form :=
  lays.reads _ fun _ =>
    .cons (isObtained project Decoder.text_reads.orNull) <|
    .cons (isObtained branch Decoder.text_reads.orNull) <|
    .cons (isObtained id Decoder.text_reads.orNull) <|
    .cons (isObtained number Decoder.numberOrText_recovers) <|
    .cons (isObtained subject Decoder.text_reads.orNull) <|
    .cons (isObtained owner Account.decoder_reads.orNull) <|
    .cons (isObtained url Decoder.text_reads.orNull) <|
    .cons (isObtained commitMessage Decoder.text_reads.orNull) <|
    .cons (isObtained status Decoder.text_reads.orNull) <|
    .cons (isObtained topic Decoder.text_reads.orNull) .nil

end Change

namespace PatchSet

/-- What stands in a patch set. -/
def told (p : PatchSet) : List Clause := [
  .optional "number" Form.numberOrText p.number,
  .optional "revision" Form.text p.revision,
  .optional "ref" Form.text p.refName,
  .optional "uploader" Account.form p.uploader,
  .optional "author" Account.form p.author,
  .optional "createdOn" Form.word64 p.createdOn,
  .optional "kind" Form.text p.kind,
  .omittable "isDraft" Form.flag false p.isDraft]

def form : Form PatchSet := Form.object told

theorem decoder_reads : decoder.Reads form :=
  lays.reads _ fun _ =>
    .cons (isObtained number Decoder.numberOrText_recovers) <|
    .cons (isObtained revision Decoder.text_reads.orNull) <|
    .cons (isObtained refName Decoder.text_reads.orNull) <|
    .cons (isObtained uploader Account.decoder_reads.orNull) <|
    .cons (isObtained author Account.decoder_reads.orNull) <|
    .cons (isObtained createdOn Decoder.word64_reads.orNull) <|
    .cons (isObtained kind Decoder.text_reads.orNull) <|
    .cons (isObtained isDraft Decoder.flag_reads.toRecovers) .nil

end PatchSet

namespace Approval

/-- What stands in a vote. -/
def told (a : Approval) : List Clause := [
  .optional "type" Form.text a.label,
  .optional "description" Form.text a.description,
  .optional "value" Form.text a.value,
  .optional "oldValue" Form.text a.oldValue,
  .optional "by" Account.form a.voter]

def form : Form Approval := Form.object told

theorem decoder_reads : decoder.Reads form :=
  lays.reads _ fun _ =>
    .cons (isObtained label Decoder.text_reads.orNull) <|
    .cons (isObtained description Decoder.text_reads.orNull) <|
    .cons (isObtained value Decoder.text_reads.orNull) <|
    .cons (isObtained oldValue Decoder.text_reads.orNull) <|
    .cons (isObtained voter Account.decoder_reads.orNull) .nil

end Approval

namespace RefUpdate

/-- What stands in an update of a ref. -/
def told (u : RefUpdate) : List Clause := [
  .optional "oldRev" Form.text u.oldRev,
  .optional "newRev" Form.text u.newRev,
  .optional "refName" Form.text u.refName,
  .optional "project" Form.text u.project]

def form : Form RefUpdate := Form.object told

theorem decoder_reads : decoder.Reads form :=
  lays.reads _ fun _ =>
    .cons (isObtained oldRev Decoder.text_reads.orNull) <|
    .cons (isObtained newRev Decoder.text_reads.orNull) <|
    .cons (isObtained refName Decoder.text_reads.orNull) <|
    .cons (isObtained project Decoder.text_reads.orNull) .nil

end RefUpdate

/-! ### Events -/

namespace Detail

/-- What stands in an event that tells this, besides its type and time. -/
def told : Detail → List Clause
  | changeAbandoned d => [
    .optional "change" Change.form d.change,
    .optional "patchSet" PatchSet.form d.patchSet,
    .optional "abandoner" Account.form d.abandoner,
    .optional "reason" Form.text d.reason]
  | changeMerged d => [
    .optional "change" Change.form d.change,
    .optional "patchSet" PatchSet.form d.patchSet,
    .optional "submitter" Account.form d.submitter,
    .optional "newRev" Form.text d.newRev]
  | changeRestored d => [
    .optional "change" Change.form d.change,
    .optional "patchSet" PatchSet.form d.patchSet,
    .optional "restorer" Account.form d.restorer,
    .optional "reason" Form.text d.reason]
  | commentAdded d => [
    .optional "change" Change.form d.change,
    .optional "patchSet" PatchSet.form d.patchSet,
    .optional "author" Account.form d.author,
    .omittable "approvals" (Form.list Approval.form) [] d.approvals,
    .optional "comment" Form.text d.comment]
  | draftPublished d => [
    .optional "change" Change.form d.change,
    .optional "patchSet" PatchSet.form d.patchSet,
    .optional "uploader" Account.form d.uploader]
  | patchsetCreated d => [
    .optional "change" Change.form d.change,
    .optional "patchSet" PatchSet.form d.patchSet,
    .optional "uploader" Account.form d.uploader]
  | refUpdated d => [
    .optional "submitter" Account.form d.submitter,
    .optional "refUpdate" RefUpdate.form d.refUpdate]
  | reviewerAdded d => [
    .optional "change" Change.form d.change,
    .optional "patchSet" PatchSet.form d.patchSet,
    .optional "reviewer" Account.form d.reviewer]
  | topicChanged d => [
    .optional "change" Change.form d.change,
    .optional "changer" Account.form d.changer,
    .optional "oldTopic" Form.text d.oldTopic]
  | refReplicated d => [
    .optional "project" Form.text d.project,
    .optional "ref" Form.text d.refName,
    .optional "targetNode" Form.text d.targetNode,
    .optional "status" Form.text d.status]
  | refReplicationDone d => [
    .optional "project" Form.text d.project,
    .optional "ref" Form.text d.refName,
    .omittable "nodesCount" Form.word32 0 d.nodesCount]

/-- Each field of what is told is obtained from its clause. -/
theorem fields_obtained (k : Kind) (d : Of k) :
    List.Forall₂ (Wire.Field.IsObtained (empty k) d) (fields k) (of k d).told := by
  cases k <;> repeat' first
    | exact .nil
    | refine .cons (isObtained _ Change.decoder_reads.orNull) ?_
    | refine .cons (isObtained _ PatchSet.decoder_reads.orNull) ?_
    | refine .cons (isObtained _ Account.decoder_reads.orNull) ?_
    | refine .cons (isObtained _ RefUpdate.decoder_reads.orNull) ?_
    | refine .cons (isObtained _ Decoder.text_reads.orNull) ?_
    | refine .cons (isObtained _ Approval.decoder_reads.listOf.toRecovers) ?_
    | refine .cons (isObtained _ Decoder.word32_reads.toRecovers) ?_

theorem exists_of (d : Detail) : ∃ k t, of k t = d := by
  refine ⟨d.kind, ?_⟩
  cases d with
  | _ d => exact ⟨d, rfl⟩

end Detail

namespace Event

/-- What stands in an event. The server that it came from does not. -/
def told (e : Event) : List Clause :=
  .required "type" Form.text e.kind.name ::
    (e.detail.told ++ [.optional "eventCreatedOn" Form.word64 e.createdOn])

def form : Form Event := Form.object told

end Event

end ReviewHub
