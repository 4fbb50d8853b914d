/-!
# Kinds of events

The closed set of event types that the hub knows, with their names on the wire. The names are there
three times over: each kind has its name, the parser of the stream has a list of those that it looks
for, and the decoder of events knows a kind by the title of its record, spelled as a tag.
-/

namespace ReviewHub

inductive Kind where
  | changeAbandoned
  | changeMerged
  | changeRestored
  | commentAdded
  | draftPublished
  | patchsetCreated
  | refUpdated
  | reviewerAdded
  | topicChanged
  | refReplicated
  | refReplicationDone
deriving DecidableEq, Repr, Inhabited

namespace Kind

/-- The name of the kind on the wire. -/
def name : Kind → String
  | changeAbandoned => "change-abandoned"
  | changeMerged => "change-merged"
  | changeRestored => "change-restored"
  | commentAdded => "comment-added"
  | draftPublished => "draft-published"
  | patchsetCreated => "patchset-created"
  | refUpdated => "ref-updated"
  | reviewerAdded => "reviewer-added"
  | topicChanged => "topic-changed"
  | refReplicated => "ref-replicated"
  | refReplicationDone => "ref-replication-done"

def all : List Kind := [
  changeAbandoned, changeMerged, changeRestored, commentAdded, draftPublished, patchsetCreated,
  refUpdated, reviewerAdded, topicChanged, refReplicated, refReplicationDone]

/-! ### Looking for events in the stream -/

/-- The types of the lines that are looked at any further. -/
def names : List String := [
  "change-abandoned", "change-merged", "change-restored", "comment-added", "draft-published",
  "patchset-created", "ref-updated", "reviewer-added", "topic-changed", "ref-replicated",
  "ref-replication-done"]

def isKnown (s : String) : Bool := names.contains s

/-! ### Tags of records -/

/-- The title of the record that tells of such an event. -/
def title : Kind → String
  | changeAbandoned => "ChangeAbandoned"
  | changeMerged => "ChangeMerged"
  | changeRestored => "ChangeRestored"
  | commentAdded => "CommentAdded"
  | draftPublished => "DraftPublished"
  | patchsetCreated => "PatchsetCreated"
  | refUpdated => "RefUpdated"
  | reviewerAdded => "ReviewerAdded"
  | topicChanged => "TopicChanged"
  | refReplicated => "RefReplicated"
  | refReplicationDone => "RefReplicationDone"

/-- A title as a tag: its words in lower case, with hyphens between them. -/
def tagOf (title : String) : String :=
  String.ofList <| title.toList.zipIdx.flatMap fun (c, i) =>
    if c.isUpper ∧ 0 < i then ['-', c.toLower] else [c.toLower]

/-- The type by which the decoder of events knows the kind. -/
def tag (k : Kind) : String := tagOf k.title

def tags : List String := all.map tag

def ofTag? (s : String) : Option Kind := all.find? (·.tag = s)

theorem tag_eq_name (k : Kind) : k.tag = k.name := by cases k <;> decide

/-- What is let through is what the decoder knows. -/
theorem names_eq_tags : names = tags := by decide

theorem ofTag?_name (k : Kind) : ofTag? k.name = some k := by
  simp only [ofTag?, tag_eq_name]
  cases k <;> decide

theorem name_of_ofTag? {s : String} {k : Kind} (found : ofTag? s = some k) : k.name = s := by
  simpa [tag_eq_name] using List.find?_some found

theorem isKnown_iff {s : String} : isKnown s ↔ ∃ k, name k = s := by
  simp only [isKnown, List.contains_iff_mem, names_eq_tags, tags, List.mem_map, tag_eq_name]
  constructor
  · rintro ⟨k, -, named⟩
    exact ⟨k, named⟩
  · rintro ⟨k, named⟩
    exact ⟨k, by cases k <;> decide, named⟩

end Kind

end ReviewHub
