import ReviewHub.Proofs.Wire.Canonical

/-!
# Records by position

A list is read as a record in the order in which the members are declared, an object by its keys. A
list that is not too long says what the object says in which each element stands under the key of
its place, and what is wrong with it is the same too.

This carries over to records within records. Wherever in a value a decoder comes to read a record,
it may be written by position or with keys: no matter how, the same is read of the whole.
-/

namespace ReviewHub.Wire

/-- The decoder reads lists like objects in which the elements stand under the keys. There may be
fewer elements than keys, but not more. -/
structure Decoder.ReadsByPosition {α : Type} (d : Decoder α) (keys : List String) : Prop where
  inOrder : ∀ xs, xs.length ≤ keys.length → d.ofJson (.array xs) = d.ofJson (.object (keys.zip xs))
  inAnyOrder : ∀ xs ms, xs.length ≤ keys.length → ms.Perm (keys.zip xs) →
    ∀ a, d.ofJson (.array xs) = .ok a ↔ d.ofJson (.object ms) = .ok a
  tooLong : ∀ xs, keys.length < xs.length → ∃ m, d.ofJson (.array xs) = .error m

theorem Decoder.ReadsByPosition.map {α β : Type} {d : Decoder α} {keys : List String}
    (reads : d.ReadsByPosition keys) (f : α → β) : (d.map f).ReadsByPosition keys where
  inOrder xs short := congrArg (Except.map f) (reads.inOrder xs short)
  inAnyOrder xs ms short perm b := by
    simp only [map_ofJson, map_ok_iff, reads.inAnyOrder xs ms short perm]
  tooLong xs long := by
    obtain ⟨m, refused⟩ := reads.tooLong xs long
    exact ⟨m, congrArg (Except.map f) refused⟩

theorem Decoder.ReadsByPosition.ofJson_array_ne_ok {α : Type} {d : Decoder α} {keys : List String}
    (reads : d.ReadsByPosition keys) {xs : List Json} (long : keys.length < xs.length) (a : α) :
    d.ofJson (.array xs) ≠ .ok a := by
  obtain ⟨m, refused⟩ := reads.tooLong xs long
  rw [refused]
  exact nofun

theorem map_fst_zip_sublist (keys : List String) (xs : List Json) :
    ((keys.zip xs).map Prod.fst).Sublist keys := by
  induction keys generalizing xs with
  | nil => exact List.nil_sublist _
  | cons key keys ih =>
      cases xs with
      | nil => exact List.nil_sublist _
      | cons x xs => exact (ih xs).cons_cons key

/-! ### One record -/

section Records

variable {R : Type} {fields : List (Field R)} {known fs : List (Member R)} {m : Member R}
  {default r : R} {xs : List Json} {ms ns : List (String × Json)}

namespace Record

theorem named?_of_mem (distinct : (known.map Member.key).Nodup) (isMember : m ∈ known) :
    Member.named? known m.key = some m := by
  obtain ⟨n, found⟩ : ∃ n, Member.named? known m.key = some n :=
    Option.isSome_iff_exists.mp (List.find?_isSome.mpr ⟨m, isMember, by simp⟩)
  have same : n.key = m.key := by simpa using List.find?_some found
  rw [found, List.inj_on_of_nodup_map distinct (List.mem_of_find?_eq_some found) isMember same]

/-- From some place of the record on, members that come in the order of declaration are taken as
the elements of a list are. -/
theorem takeMembers_zip (distinct : (known.map Member.key).Nodup)
    (rest : fs.Sublist known) {seen : List String} (unseen : ∀ m ∈ fs, m.key ∉ seen)
    (short : xs.length ≤ fs.length) (total expected : Nat) :
    (takeMembers known ⟨r, seen⟩ ((fs.map Member.key).zip xs)).map Draft.record =
      takeElements total expected fs r xs := by
  induction fs generalizing r seen xs with
  | nil =>
      cases List.length_eq_zero_iff.mp (Nat.le_zero.mp short)
      rfl
  | cons f fs ih =>
      cases xs with
      | nil => rfl
      | cons x xs =>
          have isMember : f ∈ known := rest.subset List.mem_cons_self
          obtain ⟨unseenHere, unseenLater⟩ := List.forall_mem_cons.mp unseen
          have apart := (List.nodup_cons.mp (distinct.sublist (rest.map Member.key))).1
          rw [List.map_cons, List.zip_cons_cons, takeMembers, takeMember,
            named?_of_mem distinct isMember, takeElements]
          simp only [if_neg unseenHere]
          cases f.decoder.ofJson x with
          | error m => rfl
          | ok set =>
              refine ih ((List.sublist_cons_self f fs).trans rest) ?_ (Nat.le_of_succ_le_succ short)
              intro m later seen
              rcases List.mem_cons.mp seen with same | before
              · exact apart (same ▸ List.mem_map_of_mem later)
              · exact unseenLater m later before

theorem exists_error_of_takeElements (long : fs.length < xs.length) (total expected : Nat) :
    ∃ m, takeElements total expected fs r xs = .error m := by
  induction fs generalizing r xs with
  | nil =>
      cases xs with
      | nil => cases long
      | cons x xs => exact ⟨_, rfl⟩
  | cons f fs ih =>
      cases xs with
      | nil => cases long
      | cons x xs =>
          rw [takeElements]
          cases f.decoder.ofJson x with
          | error m => exact ⟨m, rfl⟩
          | ok set => exact ih (Nat.lt_of_succ_lt_succ long)

/-- What is read alike is taken alike. -/
theorem takeMember_congr {key : String} {v w : Json} (named : Member.named? known key = some m)
    (alike : ∀ set, m.decoder.ofJson v = .ok set ↔ m.decoder.ofJson w = .ok set) (d e : Draft R) :
    takeMember known d key v = .ok e ↔ takeMember known d key w = .ok e := by
  simp only [takeMember, named]
  by_cases seen : key ∈ d.seen
  · simp only [if_pos seen]
  · simp only [if_neg seen, map_ok_iff, alike]

theorem takeMembers_append (d : Draft R) (ms ns : List (String × Json)) :
    takeMembers known d (ms ++ ns) = takeMembers known d ms >>= (takeMembers known · ns) := by
  induction ms generalizing d with
  | nil => rfl
  | cons m ms ih =>
      simp only [List.cons_append, takeMembers, bind_assoc, ih]

end Record

theorem keys_of_filled {gs : List (Field R)}
    (filled : List.Forall₂ (Field.IsFilledBy fields) gs known) :
    known.map Member.key = gs.map Field.key := by
  induction filled with
  | nil => rfl
  | cons first _ ih => rw [List.map_cons, List.map_cons, first.1, ih]

namespace Lays

variable (lays : Lays fields known)

include lays

theorem keys_eq : known.map Member.key = fields.map Field.key :=
  keys_of_filled lays.filled

theorem keys_distinct : (known.map Member.key).Nodup := lays.keys_eq ▸ lays.distinct

/-- The order of the members does not matter. -/
theorem ofJson_perm (once : (ms.map Prod.fst).Nodup) (perm : ms.Perm ns) (title : String) :
    (Record.decoder title default known).ofJson (.object ms) = .ok r ↔
      (Record.decoder title default known).ofJson (.object ns) = .ok r := by
  have onceToo := (perm.map Prod.fst).nodup_iff.mp once
  rw [lays.ofJson_eq_ok_iff once, lays.ofJson_eq_ok_iff onceToo]
  exact forall₂_congr fun f _ => Field.holds_congr (Json.member?_of_perm once perm f.key)

theorem readsByPosition (title : String) (default : R) :
    (Record.decoder title default known).ReadsByPosition (known.map Member.key) := by
  have distinct := lays.keys_distinct
  have inOrder (xs : List Json) (short : xs.length ≤ (known.map Member.key).length) :
      (Record.decoder title default known).ofJson (.array xs) =
        (Record.decoder title default known).ofJson (.object ((known.map Member.key).zip xs)) :=
    (Record.takeMembers_zip distinct (List.Sublist.refl known) (fun _ _ => List.not_mem_nil)
      (by simpa using short) xs.length known.length).symm
  refine ⟨inOrder, ?_, ?_⟩
  · intro xs ms short perm r
    have once := distinct.sublist (map_fst_zip_sublist (known.map Member.key) xs)
    rw [inOrder xs short, lays.ofJson_perm once perm.symm]
  · intro xs long
    exact Record.exists_error_of_takeElements (by simpa using long) _ _

end Lays

end Records

/-! ### Records within records -/

/-- The surroundings of a place in a value. Where the first decoder reads the value, it is the
second one that reads what stands at the place. -/
inductive Place : {α β : Type} → Decoder α → Decoder β → (Json → Json) → Prop where
  | here {α : Type} (d : Decoder α) : Place d d fun v => v
  | member {R β : Type} {known : List (Member R)} {m : Member R} {d : Decoder β}
      {fill : Json → Json} (title : String) (default : R) (key : String)
      (named : Member.named? known key = some m) (inner : Place m.decoder d fill)
      (before after : List (String × Json)) :
      Place (Record.decoder title default known) d fun v =>
        .object (before ++ (key, fill v) :: after)
  | position {R β : Type} {known : List (Member R)} {m : Member R} {d : Decoder β}
      {fill : Json → Json} (title : String) (default : R) (before : List Json)
      (placed : known[before.length]? = some m) (inner : Place m.decoder d fill)
      (after : List Json) :
      Place (Record.decoder title default known) d fun v =>
        .array (before ++ fill v :: after)
  | element {α β : Type} {e : Decoder α} {d : Decoder β} {fill : Json → Json}
      (inner : Place e d fill) (before after : List Json) :
      Place e.listOf d fun v => .array (before ++ fill v :: after)
  | optional {α β : Type} {e : Decoder α} {d : Decoder β} {fill : Json → Json}
      (inner : Place e d fill) : Place e.optional d fill
  | map {α β γ : Type} {e : Decoder α} {d : Decoder β} {fill : Json → Json} (f : α → γ)
      (inner : Place e d fill) : Place (e.map f) d fill

theorem Decoder.optional_ofJson {α : Type} (d : Decoder α) {v : Json} (there : v ≠ .null) :
    d.optional.ofJson v = (d.ofJson v).map some := by
  cases v with
  | null => exact absurd rfl there
  | _ => rfl

/-- The element at some place is read by the member that is declared there. -/
theorem Record.takeElements_append {R : Type} {known : List (Member R)} {m : Member R}
    {before : List Json} (placed : known[before.length]? = some m) (total expected : Nat) (r : R)
    (v : Json) (after : List Json) :
    takeElements total expected known r (before ++ v :: after) = (do
      let s ← takeElements total expected known r before
      let set ← m.decoder.ofJson v
      takeElements total expected (known.drop (before.length + 1)) (set s) after) := by
  induction before generalizing known r with
  | nil =>
      cases known with
      | nil => cases placed
      | cons f fs =>
          cases placed
          rfl
  | cons x before ih =>
      cases known with
      | nil => cases placed
      | cons f fs =>
          have placedLater : fs[before.length]? = some m := placed
          simp only [List.cons_append, takeElements, bind_assoc, ih placedLater, List.length_cons,
            List.drop_succ_cons]

namespace Place

variable {α β : Type} {e : Decoder α} {d : Decoder β} {fill : Json → Json} {v w : Json}

theorem fill_ne_null (place : Place e d fill) (there : v ≠ .null) : fill v ≠ .null := by
  induction place with
  | here => exact there
  | member => exact nofun
  | position => exact nofun
  | element => exact nofun
  | optional _ ih => exact ih
  | map _ _ ih => exact ih

/-- If the same is read at the place, the same is read of the whole. -/
theorem congr (place : Place e d fill) (there : v ≠ .null) (thereToo : w ≠ .null)
    (alike : ∀ b, d.ofJson v = .ok b ↔ d.ofJson w = .ok b) (a : α) :
    e.ofJson (fill v) = .ok a ↔ e.ofJson (fill w) = .ok a := by
  induction place with
  | here => exact alike a
  | member title default key named _ before after ih =>
      simp only [Record.decoder, map_ok_iff, Record.takeMembers_append, Record.takeMembers,
        bind_ok_iff, Record.takeMember_congr named (ih alike)]
  | position title default before placed _ after ih =>
      simp only [Record.decoder, Record.takeElements_append placed, bind_ok_iff, ih alike,
        List.length_append, List.length_cons]
  | element _ before after ih =>
      simp only [Decoder.listOf, List.mapM_append, List.mapM_cons, bind_ok_iff, ih alike]
  | optional inner ih =>
      simp only [Decoder.optional_ofJson _ (inner.fill_ne_null there),
        Decoder.optional_ofJson _ (inner.fill_ne_null thereToo), map_ok_iff, ih alike]
  | map f _ ih => simp only [Decoder.map_ofJson, map_ok_iff, ih alike]

/-- Where the whole is read, what stands at the place is read. -/
theorem exists_ok (place : Place e d fill) (there : v ≠ .null) {a : α}
    (reads : e.ofJson (fill v) = .ok a) : ∃ b, d.ofJson v = .ok b := by
  induction place with
  | here => exact ⟨a, reads⟩
  | member title default key named _ before after ih =>
      simp only [Record.decoder, map_ok_iff, Record.takeMembers_append, Record.takeMembers,
        bind_ok_iff] at reads
      obtain ⟨_, ⟨draft, -, ⟨_, taken, -⟩⟩, -⟩ := reads
      simp only [Record.takeMember, named] at taken
      split at taken
      · cases taken
      · obtain ⟨set, read, -⟩ := map_ok_iff.mp taken
        exact ih read
  | position title default before placed _ after ih =>
      simp only [Record.decoder, Record.takeElements_append placed, bind_ok_iff] at reads
      obtain ⟨_, -, set, read, -⟩ := reads
      exact ih read
  | element _ before after ih =>
      simp only [Decoder.listOf, List.mapM_append, List.mapM_cons, bind_ok_iff] at reads
      obtain ⟨_, -, _, ⟨x, read, -⟩, -⟩ := reads
      exact ih read
  | optional inner ih =>
      rw [Decoder.optional_ofJson _ (inner.fill_ne_null there)] at reads
      obtain ⟨x, read, -⟩ := map_ok_iff.mp reads
      exact ih read
  | map f _ ih =>
      obtain ⟨x, read, -⟩ := map_ok_iff.mp reads
      exact ih read

/-- What cannot be read at the place cannot be read as part of the whole. -/
theorem exists_error (place : Place e d fill) (there : v ≠ .null)
    (refused : ∃ m, d.ofJson v = .error m) : ∃ m, e.ofJson (fill v) = .error m := by
  obtain ⟨m, fails⟩ := refused
  cases whole : e.ofJson (fill v) with
  | error m => exact ⟨m, rfl⟩
  | ok a =>
      obtain ⟨b, reads⟩ := place.exists_ok there whole
      cases fails.symm.trans reads

/-- A record may be written by position wherever it is read. -/
theorem ofJson_array_eq_ok_iff (place : Place e d fill) {keys : List String}
    (reads : d.ReadsByPosition keys) {xs : List Json} {ms : List (String × Json)}
    (short : xs.length ≤ keys.length) (perm : ms.Perm (keys.zip xs)) (a : α) :
    e.ofJson (fill (.array xs)) = .ok a ↔ e.ofJson (fill (.object ms)) = .ok a :=
  place.congr (v := .array xs) (w := .object ms) nofun nofun
    (reads.inAnyOrder xs ms short perm) a

end Place

end ReviewHub.Wire
