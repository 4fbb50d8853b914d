import ReviewHub.Proofs.Event.Form
import ReviewHub.Proofs.Stream.Specification

/-!
# The parser is faithful to the wire format

Every event can be written as a JSON value, often in many ways, and the parser makes of each of
them just this event, from the provider that is given. So a value tells all there is to know of an
event but where it came from.
-/

namespace ReviewHub

open Wire (Clause Decoder Form)

namespace Event

variable {e : Event} {v : Json}

/-- Each field of an event is obtained from its clause. -/
theorem fields_obtained (k : Kind) (d : Detail.Of k) (time : Option UInt64) :
    List.Forall₂ (Wire.Field.IsObtained ⟨Detail.empty k, none⟩ ⟨d, time⟩) (fields k)
      ((Detail.of k d).told ++ [.optional "eventCreatedOn" Form.word64 time]) := by
  have details : List.Forall₂ (Wire.Field.IsObtained ⟨Detail.empty k, none⟩ ⟨d, time⟩)
      ((Detail.fields k).map Told.field) (Detail.of k d).told := by
    refine List.forall₂_map_left_iff.mpr ?_
    exact (Detail.fields_obtained k d).imp fun f c obtained =>
      ⟨obtained.key, obtained.fits, obtained.holds⟩
  exact List.rel_append details
    (.cons (Wire.Field.isObtained Told.createdOn Decoder.word64_reads.orNull) .nil)

/-- Every event can be written. -/
theorem exists_form (e : Event) : ∃ v, e.form v := by
  obtain ⟨detail, time, provider⟩ := e
  obtain ⟨k, d, rfl⟩ := detail.exists_of
  have obtained := fields_obtained k d time
  obtain ⟨ms, once, named, fits⟩ := Wire.exists_members obtained (lays k).distinct
  have untyped : "type" ∉ ms.map Prod.fst := fun stands =>
    type_not_mem_fields k (named _ stands)
  refine ⟨.object (("type", .string (Detail.of k d).kind.name) :: ms), _, rfl,
    List.nodup_cons.mpr ⟨untyped, once⟩, ?_⟩
  refine List.forall_mem_cons.mpr ⟨⟨_, rfl, rfl⟩, ?_⟩
  intro c told
  have elsewhere : "type" ≠ c.key := fun same =>
    type_not_mem_fields k (Wire.keys_of_isObtained obtained ▸ same ▸ List.mem_map_of_mem told)
  rw [Json.member?_cons, if_neg elsewhere]
  exact fits c told

/-- What has the form of an event is read as that event. -/
theorem ofJson_of_form (formed : form e v) : ofJson v = .ok (e.withProvider none) := by
  obtain ⟨ms, rfl, once, fits⟩ := formed
  obtain ⟨fitsType, fitsRest⟩ := List.forall_mem_cons.mp fits
  obtain ⟨_, typed, rfl⟩ := fitsType
  obtain ⟨detail, time, provider⟩ := e
  obtain ⟨k, d, rfl⟩ := detail.exists_of
  change Json.member? "type" ms = some (.string (Detail.of k d).kind.name) at typed
  rw [Detail.kind_of] at typed
  have onceToo : ((Json.without "type" ms).map Prod.fst).Nodup :=
    (List.filter_sublist.map Prod.fst).nodup once
  have holds : ∀ f ∈ fields k,
      f.Holds (Json.without "type" ms) ⟨Detail.empty k, none⟩ ⟨d, time⟩ := by
    intro f isField
    refine (Wire.Field.holds_congr (member?_without_type isField)).mpr ?_
    exact Wire.holds_of_isObtained (fields_obtained k d time) fitsRest f isField
  rw [ofJson_of_type once typed, decoderOf_eq, Wire.Decoder.map_ofJson,
    ((lays k).ofJson_eq_ok_iff onceToo _).mpr holds]
  rfl

end Event

namespace Stream

theorem reading_of_form {e : Event} {v : Json} (formed : e.form v) (provider : Option Provider) :
    (parseJson v provider).reading = .event (e.withProvider provider) := by
  have read := Event.ofJson_of_form formed
  obtain ⟨ms, rfl, -, fits⟩ := formed
  obtain ⟨_, typed, rfl⟩ := fits _ List.mem_cons_self
  rw [parseJson, if_pos (isEvent_iff.mpr ⟨_, typed⟩), read]
  rfl

/-- Every event can be written, and of any JSON value in which it is written the parser makes just
this event, from the provider that is given. Hence two events that are written alike are the same
but for the provider. -/
theorem parser_faithful :
    (∀ e : Event, ∃ v, e.form v) ∧
    (∀ (e : Event) (v : Json) (provider : Option Provider), e.form v →
      (parser.ofJson v provider).reading = .event (e.withProvider provider)) ∧
    ∀ (e f : Event) (v : Json), e.form v → f.form v →
      ∀ provider, e.withProvider provider = f.withProvider provider := by
  refine ⟨Event.exists_form, ?_, ?_⟩
  · intro e v provider formed
    exact reading_of_form formed provider
  · intro e f v formed formedToo provider
    have same := (reading_of_form formed provider).symm.trans (reading_of_form formedToo provider)
    exact Reading.event.inj same

namespace Approving

def vote : Approval :=
  { label := some "Code-Review", value := some "2", voter := some { name := some "reviewer" } }

/-- A comment by which a reviewer approves of the second patch set of a change. -/
def event : Event where
  detail := .commentAdded {
    change := some { project := some "hub", number := some 8 },
    patchSet := some { number := some 2, refName := some "refs/changes/8/2" },
    author := some { name := some "reviewer" },
    approvals := [vote] }
  createdOn := some 70

def reviewer : Json := .object [("avatar", .null), ("name", .string "reviewer")]

def change : Json :=
  .object [("number", .string "8"), ("project", .string "hub"), ("topic", .null)]

def patchSet : Json := .object [("number", .integer 2), ("ref", .string "refs/changes/8/2")]

def approval : Json :=
  .object [("by", reviewer), ("type", .string "Code-Review"), ("value", .string "2")]

/-- The comment as it comes in, with members that mean nothing here. -/
def value : Json := .object [
  ("approvals", .array [approval]), ("author", reviewer), ("change", change),
  ("eventCreatedOn", .integer 70), ("patchSet", patchSet), ("provider", .bool false),
  ("type", .string "comment-added")]

theorem form_value : event.form value := by
  have reviewerFormed : Account.form { name := some "reviewer" } reviewer := by
    refine ⟨_, rfl, by decide, ?_⟩
    simp only [Account.told, List.forall_mem_cons]
    exact ⟨rfl, rfl, rfl, nofun⟩
  have changeFormed : Change.form { project := some "hub", number := some 8 } change := by
    refine ⟨_, rfl, by decide, ?_⟩
    simp only [Change.told, List.forall_mem_cons]
    exact ⟨rfl, rfl, rfl, .inr rfl, rfl, rfl, rfl, rfl, rfl, rfl, nofun⟩
  have patchSetFormed :
      PatchSet.form { number := some 2, refName := some "refs/changes/8/2" } patchSet := by
    refine ⟨_, rfl, by decide, ?_⟩
    simp only [PatchSet.told, List.forall_mem_cons]
    exact ⟨.inl rfl, rfl, rfl, rfl, rfl, rfl, rfl, rfl, nofun⟩
  have voteFormed : vote.form approval := by
    refine ⟨_, rfl, by decide, ?_⟩
    simp only [Approval.told, List.forall_mem_cons]
    exact ⟨rfl, rfl, rfl, rfl, reviewerFormed, nofun⟩
  refine ⟨_, rfl, by decide, ?_⟩
  simp only [Event.told, event, Detail.told, List.cons_append, List.nil_append,
    List.forall_mem_cons]
  exact ⟨⟨_, rfl, rfl⟩, changeFormed, patchSetFormed, reviewerFormed,
    ⟨_, rfl, .cons voteFormed .nil⟩, rfl, rfl, nofun⟩

end Approving

theorem parser_faithful_approving :
    Approving.event.form Approving.value ∧
      (parser.ofJson Approving.value (some { name := "review" })).reading =
        .event (Approving.event.withProvider (some { name := "review" })) := by
  obtain ⟨-, faithful, -⟩ := parser_faithful
  exact ⟨Approving.form_value, faithful _ _ _ Approving.form_value⟩

end Stream

end ReviewHub
