import ReviewHub.Proofs.Stream.Direct
import ReviewHub.Proofs.Wire.Positional

/-!
# Events by position

Attributes and events can be written as lists of what stands under their keys. The keys are listed
here in the order of the elements; they are what both ways of writing have in common. In an event
the type comes first.
-/

namespace ReviewHub

open Wire (Decoder Member Place)

theorem Account.readsByPosition : Account.decoder.ReadsByPosition ["name", "email", "username"] :=
  lays.readsByPosition _ _

theorem Change.readsByPosition :
    Change.decoder.ReadsByPosition
      ["project", "branch", "id", "number", "subject", "owner", "url", "commitMessage", "status",
        "topic"] :=
  lays.readsByPosition _ _

theorem PatchSet.readsByPosition :
    PatchSet.decoder.ReadsByPosition
      ["number", "revision", "ref", "uploader", "author", "createdOn", "kind", "isDraft"] :=
  lays.readsByPosition _ _

theorem Approval.readsByPosition :
    Approval.decoder.ReadsByPosition ["type", "description", "value", "oldValue", "by"] :=
  lays.readsByPosition _ _

theorem RefUpdate.readsByPosition :
    RefUpdate.decoder.ReadsByPosition ["oldRev", "newRev", "refName", "project"] :=
  lays.readsByPosition _ _

/-- The keys of what events of the kind tell. -/
def Detail.keys : Kind → List String
  | .changeAbandoned => ["change", "patchSet", "abandoner", "reason"]
  | .changeMerged => ["change", "patchSet", "submitter", "newRev"]
  | .changeRestored => ["change", "patchSet", "restorer", "reason"]
  | .commentAdded => ["change", "patchSet", "author", "approvals", "comment"]
  | .draftPublished => ["change", "patchSet", "uploader"]
  | .patchsetCreated => ["change", "patchSet", "uploader"]
  | .refUpdated => ["submitter", "refUpdate"]
  | .reviewerAdded => ["change", "patchSet", "reviewer"]
  | .topicChanged => ["change", "changer", "oldTopic"]
  | .refReplicated => ["project", "ref", "targetNode", "status"]
  | .refReplicationDone => ["project", "ref", "nodesCount"]

namespace Event

/-- The keys of events of the kind but for the type. -/
def keys (k : Kind) : List String := Detail.keys k ++ ["eventCreatedOn"]

theorem keys_eq (k : Kind) : keys k = (Told.members (Detail.members k)).map Member.key := by
  cases k <;> rfl

theorem decoderOf_readsByPosition (k : Kind) : (decoderOf k).ReadsByPosition (keys k) := by
  rw [decoderOf_eq, keys_eq]
  exact ((lays k).readsByPosition _ _).map _

theorem keys_distinct (k : Kind) : (keys k).Nodup := keys_eq k ▸ (lays k).keys_distinct

theorem type_not_mem_keys (k : Kind) : "type" ∉ keys k := by
  cases k <;> decide

/-- The value is an event of the kind, which tells the other value besides its type. -/
inductive Tells (k : Kind) : Json → Json → Prop where
  | list (xs : List Json) : Tells k (.array (.string k.name :: xs)) (.array xs)
  | object {ms : List (String × Json)} (once : (ms.map Prod.fst).Nodup)
      (typed : Json.member? "type" ms = some (.string k.name)) :
      Tells k (.object ms) (.object (Json.without "type" ms))

variable {k : Kind} {v w t : Json} {xs : List Json} {ms : List (String × Json)}

theorem Tells.ofJson_eq (tells : Tells k v w) : ofJson v = (decoderOf k).ofJson w := by
  cases tells with
  | list xs =>
      rw [ofJson, kindDecoder_name]
      rfl
  | object once typed => exact ofJson_of_type once typed

/-- The type may stand anywhere among the members. -/
theorem tells_of_perm (perm : ms.Perm (("type", .string k.name) :: (keys k).zip xs)) :
    ∃ ns, Tells k (.object ms) (.object ns) ∧ ns.Perm ((keys k).zip xs) := by
  have sublist := Wire.map_fst_zip_sublist (keys k) xs
  have absent : "type" ∉ ((keys k).zip xs).map Prod.fst :=
    fun stands => type_not_mem_keys k (sublist.subset stands)
  have distinct : ((("type", Json.string k.name) :: (keys k).zip xs).map Prod.fst).Nodup :=
    List.nodup_cons.mpr ⟨absent, (keys_distinct k).sublist sublist⟩
  have once := (perm.map Prod.fst).nodup_iff.mpr distinct
  have typed := Json.member?_of_mem once (perm.symm.subset List.mem_cons_self)
  refine ⟨_, .object once typed, ?_⟩
  have others : (Json.without "type" ms).Perm
      (Json.without "type" (("type", .string k.name) :: (keys k).zip xs)) := perm.filter _
  rwa [Json.without_cons_of_eq rfl, Json.without_of_not_mem absent] at others

theorem exists_error_of_list (unknown : ∀ k, t ≠ .string (Kind.name k)) (xs : List Json) :
    ∃ m, ofJson (.array (t :: xs)) = .error m := by
  rw [ofJson]
  cases named : kindDecoder.ofJson t with
  | error m => exact ⟨m, rfl⟩
  | ok k => exact absurd (eq_name_of_kindDecoder named) (unknown k)

theorem exists_error_of_object (unknown : ∀ k, t ≠ .string (Kind.name k))
    (once : (ms.map Prod.fst).Nodup) (typed : Json.member? "type" ms = some t) :
    ∃ m, ofJson (.object ms) = .error m := by
  cases decoded : ofJson (.object ms) with
  | error m => exact ⟨m, rfl⟩
  | ok e =>
      obtain ⟨k, typedToo, -⟩ := (ofJson_eq_ok_iff once).mp decoded
      cases typed.symm.trans typedToo
      exact absurd rfl (unknown k)

/-- Positions stand for keys. Every attribute and every kind of event is read from a list of at most
as many elements as it has keys just if it is read from the objects in which the elements stand
under their keys, and the same comes of it; a longer list is refused. So it is with the type in
front of the list and among the members, and a type that is not known is refused in both. And so it
is with records within records, wherever they are read, also within events. -/
theorem positions_stand_for_keys :
    (Account.decoder.ReadsByPosition ["name", "email", "username"] ∧
      Change.decoder.ReadsByPosition
        ["project", "branch", "id", "number", "subject", "owner", "url", "commitMessage", "status",
          "topic"] ∧
      PatchSet.decoder.ReadsByPosition
        ["number", "revision", "ref", "uploader", "author", "createdOn", "kind", "isDraft"] ∧
      Approval.decoder.ReadsByPosition ["type", "description", "value", "oldValue", "by"] ∧
      RefUpdate.decoder.ReadsByPosition ["oldRev", "newRev", "refName", "project"] ∧
      ∀ k, (decoderOf k).ReadsByPosition (keys k)) ∧
    (∀ k xs, (xs.length ≤ (keys k).length →
        ∀ ms, ms.Perm (("type", .string k.name) :: (keys k).zip xs) →
          ∀ e, ofJson (.array (.string k.name :: xs)) = .ok e ↔ ofJson (.object ms) = .ok e) ∧
      ((keys k).length < xs.length →
        ∃ m, ofJson (.array (.string k.name :: xs)) = .error m)) ∧
    (∀ t, (∀ k, t ≠ .string (Kind.name k)) →
      (∀ xs, ∃ m, ofJson (.array (t :: xs)) = .error m) ∧
      ∀ ms, (ms.map Prod.fst).Nodup → Json.member? "type" ms = some t →
        ∃ m, ofJson (.object ms) = .error m) ∧
    (∀ {α β : Type} (outer : Decoder α) (d : Decoder β) keys fill, d.ReadsByPosition keys →
      Place outer d fill → ∀ xs,
        (xs.length ≤ keys.length → ∀ ms, ms.Perm (keys.zip xs) → ∀ a,
          outer.ofJson (fill (.array xs)) = .ok a ↔ outer.ofJson (fill (.object ms)) = .ok a) ∧
        (keys.length < xs.length → ∃ m, outer.ofJson (fill (.array xs)) = .error m)) ∧
    ∀ {β : Type} k (d : Decoder β) keys fill, d.ReadsByPosition keys →
      Place (decoderOf k) d fill → ∀ xs v, Tells k v (fill (.array xs)) →
        (xs.length ≤ keys.length → ∀ ms w, ms.Perm (keys.zip xs) → Tells k w (fill (.object ms)) →
          ∀ e, ofJson v = .ok e ↔ ofJson w = .ok e) ∧
        (keys.length < xs.length → ∃ m, ofJson v = .error m) := by
  refine ⟨?records, ?events, ?types, ?nested, ?nestedInEvents⟩
  case records =>
    exact ⟨Account.readsByPosition, Change.readsByPosition, PatchSet.readsByPosition,
      Approval.readsByPosition, RefUpdate.readsByPosition, decoderOf_readsByPosition⟩
  case events =>
    intro k xs
    have list : ofJson (.array (.string k.name :: xs)) = (decoderOf k).ofJson (.array xs) :=
      (Tells.list xs).ofJson_eq
    rw [list]
    refine ⟨?_, (decoderOf_readsByPosition k).tooLong xs⟩
    intro short ms perm e
    obtain ⟨ns, tells, others⟩ := tells_of_perm perm
    rw [tells.ofJson_eq]
    exact (decoderOf_readsByPosition k).inAnyOrder xs ns short others e
  case types =>
    intro t unknown
    refine ⟨exists_error_of_list unknown, ?_⟩
    intro ms once typed
    exact exists_error_of_object unknown once typed
  case nested =>
    intro α β outer d keys fill reads place xs
    refine ⟨?_, ?_⟩
    · intro short ms perm a
      exact place.ofJson_array_eq_ok_iff reads short perm a
    · intro long
      exact place.exists_error nofun (reads.tooLong xs long)
  case nestedInEvents =>
    intro β k d keys fill reads place xs v tells
    rw [tells.ofJson_eq]
    refine ⟨?_, ?_⟩
    · intro short ms w perm tellsToo e
      rw [tellsToo.ofJson_eq]
      exact place.ofJson_array_eq_ok_iff reads short perm e
    · intro long
      exact place.exists_error nofun (reads.tooLong xs long)

namespace Listed

/-- A comment as a list, with one vote, which is cast by the account. -/
def comment (account : Json) : Json :=
  .array [.string "comment-added", .null, .null, .null,
    .array [.object [("type", .string "Code-Review"), ("by", account), ("value", .string "2")]]]

/-- An account as a list. -/
def account : List Json := [.string "Reviewer", .string "reviewer@example.org"]

/-- The account with its keys. -/
def members : List (String × Json) :=
  [("email", .string "reviewer@example.org"), ("name", .string "Reviewer")]

def event : Event where
  detail := .commentAdded {
    approvals := [{
      label := some "Code-Review"
      value := some "2"
      voter := some { name := some "Reviewer", email := some "reviewer@example.org" } }] }

/-- What stands around the account in the comment. -/
theorem place : Place (decoderOf .commentAdded) Account.decoder fun account =>
    .array [.null, .null, .null, .array [.object [
      ("type", .string "Code-Review"), ("by", account), ("value", .string "2")]]] :=
  .map _ <| .position _ _ [.null, .null, .null] rfl
    (.map _ <| .map _ <| .element
      (.member _ _ "by" rfl (.map _ <| .optional <| .here _)
        [("type", .string "Code-Review")] [("value", .string "2")])
      [] [])
    []

end Listed

/-- The account within the vote may be written either way. -/
theorem positions_stand_for_keys_listed :
    Listed.account.length ≤ 3 ∧
      Listed.members.Perm (["name", "email", "username"].zip Listed.account) ∧
      ofJson (Listed.comment (.array Listed.account)) = .ok Listed.event ∧
      ofJson (Listed.comment (.object Listed.members)) = .ok Listed.event := by
  have perm : Listed.members.Perm (["name", "email", "username"].zip Listed.account) :=
    .swap _ _ _
  obtain ⟨-, -, -, -, within⟩ := positions_stand_for_keys
  have alike := (within .commentAdded Account.decoder _ _ Account.readsByPosition Listed.place
    Listed.account _ (.list _)).1 (by decide) Listed.members _ perm (.list _) Listed.event
  have listed : ofJson (Listed.comment (.array Listed.account)) = .ok Listed.event := rfl
  exact ⟨by decide, perm, listed, alike.mp listed⟩

end Event

end ReviewHub
