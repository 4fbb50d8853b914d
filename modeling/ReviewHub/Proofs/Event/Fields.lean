import ReviewHub.Event.Wire
import ReviewHub.Proofs.Wire.Field

/-!
# The fields of attributes and events

What stands on the wire of accounts, changes, patch sets, votes and updates of a ref, and of each
kind of event: the keys, how the values are read and which parts of the records they are. The
members by which the records are read fill just these fields.

What an event tells depends on its kind, so the fields of events form a family over the kinds.
-/

namespace ReviewHub

open Wire (Decoder Lays Member member)

/-! ### Attributes -/

namespace Account

/-- The fields of an account. -/
def fields : List (Wire.Field Account) := [
  ⟨"name", _, .optional .text, name⟩,
  ⟨"email", _, .optional .text, email⟩,
  ⟨"username", _, .optional .text, username⟩]

theorem lays : Lays fields members where
  distinct := by decide
  filled := by
    repeat' first
      | exact .nil
      | refine .cons ⟨rfl, _, fun _ => rfl, fun _ _ => rfl, by simp [fields]⟩ ?_
  ext := by
    rintro ⟨⟩ ⟨⟩ same
    simpa [fields] using same

end Account

namespace Change

/-- The fields of a change. -/
def fields : List (Wire.Field Change) := [
  ⟨"project", _, .optional .text, project⟩,
  ⟨"branch", _, .optional .text, branch⟩,
  ⟨"id", _, .optional .text, id⟩,
  ⟨"number", _, .numberOrText, number⟩,
  ⟨"subject", _, .optional .text, subject⟩,
  ⟨"owner", _, .optional Account.decoder, owner⟩,
  ⟨"url", _, .optional .text, url⟩,
  ⟨"commitMessage", _, .optional .text, commitMessage⟩,
  ⟨"status", _, .optional .text, status⟩,
  ⟨"topic", _, .optional .text, topic⟩]

theorem lays : Lays fields members where
  distinct := by decide
  filled := by
    repeat' first
      | exact .nil
      | refine .cons ⟨rfl, _, fun _ => rfl, fun _ _ => rfl, by simp [fields]⟩ ?_
  ext := by
    rintro ⟨⟩ ⟨⟩ same
    simpa [fields] using same

end Change

namespace PatchSet

/-- The fields of a patch set. -/
def fields : List (Wire.Field PatchSet) := [
  ⟨"number", _, .numberOrText, number⟩,
  ⟨"revision", _, .optional .text, revision⟩,
  ⟨"ref", _, .optional .text, refName⟩,
  ⟨"uploader", _, .optional Account.decoder, uploader⟩,
  ⟨"author", _, .optional Account.decoder, author⟩,
  ⟨"createdOn", _, .optional .word64, createdOn⟩,
  ⟨"kind", _, .optional .text, kind⟩,
  ⟨"isDraft", _, .flag, isDraft⟩]

theorem lays : Lays fields members where
  distinct := by decide
  filled := by
    repeat' first
      | exact .nil
      | refine .cons ⟨rfl, _, fun _ => rfl, fun _ _ => rfl, by simp [fields]⟩ ?_
  ext := by
    rintro ⟨⟩ ⟨⟩ same
    simpa [fields] using same

end PatchSet

namespace Approval

/-- The fields of a vote. -/
def fields : List (Wire.Field Approval) := [
  ⟨"type", _, .optional .text, label⟩,
  ⟨"description", _, .optional .text, description⟩,
  ⟨"value", _, .optional .text, value⟩,
  ⟨"oldValue", _, .optional .text, oldValue⟩,
  ⟨"by", _, .optional Account.decoder, voter⟩]

theorem lays : Lays fields members where
  distinct := by decide
  filled := by
    repeat' first
      | exact .nil
      | refine .cons ⟨rfl, _, fun _ => rfl, fun _ _ => rfl, by simp [fields]⟩ ?_
  ext := by
    rintro ⟨⟩ ⟨⟩ same
    simpa [fields] using same

end Approval

namespace RefUpdate

/-- The fields of an update. -/
def fields : List (Wire.Field RefUpdate) := [
  ⟨"oldRev", _, .optional .text, oldRev⟩,
  ⟨"newRev", _, .optional .text, newRev⟩,
  ⟨"refName", _, .optional .text, refName⟩,
  ⟨"project", _, .optional .text, project⟩]

theorem lays : Lays fields members where
  distinct := by decide
  filled := by
    repeat' first
      | exact .nil
      | refine .cons ⟨rfl, _, fun _ => rfl, fun _ _ => rfl, by simp [fields]⟩ ?_
  ext := by
    rintro ⟨⟩ ⟨⟩ same
    simpa [fields] using same

end RefUpdate

/-! ### What events tell -/

namespace Detail

/-- What events of the kind tell. -/
abbrev Of : Kind → Type
  | .changeAbandoned => ChangeAbandoned
  | .changeMerged => ChangeMerged
  | .changeRestored => ChangeRestored
  | .commentAdded => CommentAdded
  | .draftPublished => DraftPublished
  | .patchsetCreated => PatchsetCreated
  | .refUpdated => RefUpdated
  | .reviewerAdded => ReviewerAdded
  | .topicChanged => TopicChanged
  | .refReplicated => RefReplicated
  | .refReplicationDone => RefReplicationDone

/-- It is what an event tells. -/
def of : (k : Kind) → Of k → Detail
  | .changeAbandoned => changeAbandoned
  | .changeMerged => changeMerged
  | .changeRestored => changeRestored
  | .commentAdded => commentAdded
  | .draftPublished => draftPublished
  | .patchsetCreated => patchsetCreated
  | .refUpdated => refUpdated
  | .reviewerAdded => reviewerAdded
  | .topicChanged => topicChanged
  | .refReplicated => refReplicated
  | .refReplicationDone => refReplicationDone

/-- What an event tells of which nothing is known. -/
def empty : (k : Kind) → Of k
  | .changeAbandoned => {}
  | .changeMerged => {}
  | .changeRestored => {}
  | .commentAdded => {}
  | .draftPublished => {}
  | .patchsetCreated => {}
  | .refUpdated => {}
  | .reviewerAdded => {}
  | .topicChanged => {}
  | .refReplicated => {}
  | .refReplicationDone => {}

/-- The members by which it is read. -/
def members : (k : Kind) → List (Member (Of k))
  | .changeAbandoned => ChangeAbandoned.members
  | .changeMerged => ChangeMerged.members
  | .changeRestored => ChangeRestored.members
  | .commentAdded => CommentAdded.members
  | .draftPublished => DraftPublished.members
  | .patchsetCreated => PatchsetCreated.members
  | .refUpdated => RefUpdated.members
  | .reviewerAdded => ReviewerAdded.members
  | .topicChanged => TopicChanged.members
  | .refReplicated => RefReplicated.members
  | .refReplicationDone => RefReplicationDone.members

/-- The fields of what events of the kind tell. -/
def fields : (k : Kind) → List (Wire.Field (Of k))
  | .changeAbandoned => [
    ⟨"change", _, .optional Change.decoder, ChangeAbandoned.change⟩,
    ⟨"patchSet", _, .optional PatchSet.decoder, ChangeAbandoned.patchSet⟩,
    ⟨"abandoner", _, .optional Account.decoder, ChangeAbandoned.abandoner⟩,
    ⟨"reason", _, .optional .text, ChangeAbandoned.reason⟩]
  | .changeMerged => [
    ⟨"change", _, .optional Change.decoder, ChangeMerged.change⟩,
    ⟨"patchSet", _, .optional PatchSet.decoder, ChangeMerged.patchSet⟩,
    ⟨"submitter", _, .optional Account.decoder, ChangeMerged.submitter⟩,
    ⟨"newRev", _, .optional .text, ChangeMerged.newRev⟩]
  | .changeRestored => [
    ⟨"change", _, .optional Change.decoder, ChangeRestored.change⟩,
    ⟨"patchSet", _, .optional PatchSet.decoder, ChangeRestored.patchSet⟩,
    ⟨"restorer", _, .optional Account.decoder, ChangeRestored.restorer⟩,
    ⟨"reason", _, .optional .text, ChangeRestored.reason⟩]
  | .commentAdded => [
    ⟨"change", _, .optional Change.decoder, CommentAdded.change⟩,
    ⟨"patchSet", _, .optional PatchSet.decoder, CommentAdded.patchSet⟩,
    ⟨"author", _, .optional Account.decoder, CommentAdded.author⟩,
    ⟨"approvals", _, .listOf Approval.decoder, CommentAdded.approvals⟩,
    ⟨"comment", _, .optional .text, CommentAdded.comment⟩]
  | .draftPublished => [
    ⟨"change", _, .optional Change.decoder, DraftPublished.change⟩,
    ⟨"patchSet", _, .optional PatchSet.decoder, DraftPublished.patchSet⟩,
    ⟨"uploader", _, .optional Account.decoder, DraftPublished.uploader⟩]
  | .patchsetCreated => [
    ⟨"change", _, .optional Change.decoder, PatchsetCreated.change⟩,
    ⟨"patchSet", _, .optional PatchSet.decoder, PatchsetCreated.patchSet⟩,
    ⟨"uploader", _, .optional Account.decoder, PatchsetCreated.uploader⟩]
  | .refUpdated => [
    ⟨"submitter", _, .optional Account.decoder, RefUpdated.submitter⟩,
    ⟨"refUpdate", _, .optional RefUpdate.decoder, RefUpdated.refUpdate⟩]
  | .reviewerAdded => [
    ⟨"change", _, .optional Change.decoder, ReviewerAdded.change⟩,
    ⟨"patchSet", _, .optional PatchSet.decoder, ReviewerAdded.patchSet⟩,
    ⟨"reviewer", _, .optional Account.decoder, ReviewerAdded.reviewer⟩]
  | .topicChanged => [
    ⟨"change", _, .optional Change.decoder, TopicChanged.change⟩,
    ⟨"changer", _, .optional Account.decoder, TopicChanged.changer⟩,
    ⟨"oldTopic", _, .optional .text, TopicChanged.oldTopic⟩]
  | .refReplicated => [
    ⟨"project", _, .optional .text, RefReplicated.project⟩,
    ⟨"ref", _, .optional .text, RefReplicated.refName⟩,
    ⟨"targetNode", _, .optional .text, RefReplicated.targetNode⟩,
    ⟨"status", _, .optional .text, RefReplicated.status⟩]
  | .refReplicationDone => [
    ⟨"project", _, .optional .text, RefReplicationDone.project⟩,
    ⟨"ref", _, .optional .text, RefReplicationDone.refName⟩,
    ⟨"nodesCount", _, .word32, RefReplicationDone.nodesCount⟩]

@[simp] theorem kind_of (k : Kind) (d : Of k) : (of k d).kind = k := by cases k <;> rfl

theorem lays (k : Kind) : Lays (fields k) (members k) where
  distinct := by cases k <;> decide
  filled := by
    cases k <;> repeat' first
      | exact .nil
      | refine .cons ⟨rfl, _, fun _ => rfl, fun _ _ => rfl, by simp [fields]⟩ ?_
  ext := by
    cases k <;>
    · rintro ⟨⟩ ⟨⟩ same
      simpa [fields] using same

end Detail

/-! ### Events -/

namespace Told

variable {D : Type} {fs : List (Wire.Field D)} {known : List (Member D)}

/-- The field of what is told. -/
def field (f : Wire.Field D) : Wire.Field (Told D) :=
  ⟨f.key, f.Value, f.decoder, fun t => f.get t.detail⟩

/-- The time is one field more. -/
def timeField (D : Type) : Wire.Field (Told D) :=
  ⟨"eventCreatedOn", _, .optional .word64, Told.createdOn⟩

def fields (fs : List (Wire.Field D)) : List (Wire.Field (Told D)) :=
  fs.map field ++ [timeField D]

/-- The members by which it is read together with the time. -/
def members (known : List (Member D)) : List (Member (Told D)) :=
  known.map (·.within fun f t => { t with detail := f t.detail }) ++
    [member "eventCreatedOn" (.optional .word64) fun x t => { t with createdOn := x }]

theorem mem_fields {g : Wire.Field (Told D)} :
    g ∈ fields fs ↔ (∃ f ∈ fs, field f = g) ∨ g = timeField D := by
  simp [fields]

theorem isFilledBy_field {f : Wire.Field D} {m : Member D} (filling : f.IsFilledBy fs m) :
    (field f).IsFilledBy (fields fs)
      (m.within fun f t => { t with detail := f t.detail }) := by
  obtain ⟨same, set, reads, own, foreign⟩ := filling
  refine ⟨same, fun x t => { t with detail := set x t.detail }, ?_, ?_, ?_⟩
  · intro v
    simp only [Member.within, Decoder.map_ofJson, reads v, field]
    cases f.decoder.ofJson v <;> rfl
  · intro x t
    exact own x t.detail
  · intro g isField other x t
    rcases mem_fields.mp isField with ⟨g, told, rfl⟩ | rfl
    · exact foreign g told other x t.detail
    · rfl

theorem lays (lays : Lays fs known) (fresh : "eventCreatedOn" ∉ fs.map Wire.Field.key) :
    Lays (fields fs) (members known) where
  distinct := by
    have keys : (fields fs).map Wire.Field.key = fs.map Wire.Field.key ++ ["eventCreatedOn"] := by
      simp [fields, field, timeField, Function.comp_def]
    rw [keys]
    exact List.Nodup.append lays.distinct (List.nodup_singleton _)
      (List.disjoint_singleton.mpr fresh)
  filled := by
    refine List.rel_append ?_ (.cons ?_ .nil)
    · refine List.forall₂_map_left_iff.mpr (List.forall₂_map_right_iff.mpr ?_)
      exact lays.filled.imp fun _ _ => isFilledBy_field
    · refine ⟨rfl, _, fun _ => rfl, fun _ _ => rfl, ?_⟩
      intro g isField other x t
      rcases mem_fields.mp isField with ⟨g, -, rfl⟩ | rfl
      · rfl
      · exact absurd rfl other
  ext := by
    rintro ⟨d, time⟩ ⟨e, other⟩ same
    have told : d = e :=
      lays.ext d e fun f isField => same (field f) (mem_fields.mpr (.inl ⟨f, isField, rfl⟩))
    have when : time = other := same (timeField D) (mem_fields.mpr (.inr rfl))
    rw [told, when]

end Told

namespace Event

/-- The fields of events of the kind. -/
def fields (k : Kind) : List (Wire.Field (Told (Detail.Of k))) := Told.fields (Detail.fields k)

theorem lays (k : Kind) : Lays (fields k) (Told.members (Detail.members k)) :=
  Told.lays (Detail.lays k) (by cases k <;> decide)

/-- An event of the kind is read as what it tells. -/
theorem decoderOf_eq (k : Kind) :
    decoderOf k =
      (Wire.Record.decoder k.title ⟨Detail.empty k, none⟩
        (Told.members (Detail.members k))).map (Told.event (Detail.of k)) := by
  cases k <;> rfl

end Event

end ReviewHub
