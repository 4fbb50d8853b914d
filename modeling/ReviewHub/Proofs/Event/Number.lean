import ReviewHub.Proofs.Event.Form
import ReviewHub.Proofs.Event.Positional

/-!
# The numbers of changes and patch sets

A number stands as an integer, or as a text that is a numeral between blanks; `null` stands for
none. Each value of these forms is read as the number that it stands for, so no number is ever cut
down to its width, and every other value is refused. Changes and patch sets have their numbers from
there, and the rest of them does not depend on how the number is written.
-/

namespace ReviewHub

open Wire (Decoder Field Form Lays Member)

namespace Wire

/-- The forms in which a number or none may stand. -/
def Form.number : Form (Option UInt64)
  | none, v => v = .null
  | some n, v => v = .integer n.toNat ∨
      ∃ numeral s, Text.Denotes numeral n.toNat ∧ Text.Padded numeral s.toList ∧ v = .string s

namespace Decoder

variable {v : Json} {n? : Option UInt64}

/-- What is read as a number has one of its forms. -/
theorem number_of_numberOrText (reads : numberOrText.ofJson v = .ok n?) : Form.number n? v := by
  cases v with
  | null =>
      cases reads
      rfl
  | integer i =>
      simp only [numberOrText, ofTree] at reads
      split at reads
      · next range =>
          cases reads
          have exact : (UInt64.ofNat i.toNat).toNat = i.toNat :=
            UInt64.toNat_ofNat_of_lt' (by omega)
          exact .inl (congrArg Json.integer (by omega))
      · cases reads
  | string s =>
      simp only [numberOrText, ofTree] at reads
      split at reads
      · next m read =>
          cases reads
          obtain ⟨⟨numeral, denotes, padded⟩, small⟩ :=
            (Text.readNumeral_trim_eq_ok_iff (by decide)).mp read
          have exact : (UInt64.ofNat m).toNat = m := UInt64.toNat_ofNat_of_lt' small
          exact .inr ⟨numeral, s, exact.symm ▸ denotes, padded, rfl⟩
      · cases reads
  | _ => cases reads

/-- Just the forms of numbers are read as numbers. -/
theorem numberOrText_eq_ok_iff : numberOrText.ofJson v = .ok n? ↔ Form.number n? v := by
  refine ⟨number_of_numberOrText, ?_⟩
  intro form
  cases n? with
  | none =>
      cases form
      rfl
  | some n =>
      rcases form with rfl | ⟨numeral, s, denotes, padded, rfl⟩
      · exact numberOrText_recovers.reads (some n) _ (.inl rfl)
      · have positive : 0 < UInt64.size := by decide
        have read := (Text.readNumeral_trim_eq_ok_iff positive).mpr
          ⟨⟨numeral, denotes, padded⟩, n.toNat_lt_size⟩
        simp only [numberOrText, ofTree, read, UInt64.ofNat_toNat]

/-- A record has its number from what stands under `number` or, in a list, at the place, and the
rest from the rest: this is what it is with the number cleared and nothing told of it. -/
structure HasNumber {R : Type} (d : Decoder R) (place : Nat) (get : R → Option UInt64)
    (clear : R → R) : Prop where
  member : ∀ ms v, (ms.map Prod.fst).Nodup → Json.member? "number" ms = some v → ∀ r,
    d.ofJson (.object ms) = .ok r ↔
      Form.number (get r) v ∧ d.ofJson (.object (Json.without "number" ms)) = .ok (clear r)
  missing : ∀ ms, (ms.map Prod.fst).Nodup → Json.member? "number" ms = none → ∀ r,
    d.ofJson (.object ms) = .ok r → get r = none
  element : ∀ before v after, before.length = place → ∀ r,
    d.ofJson (.array (before ++ v :: after)) = .ok r ↔
      Form.number (get r) v ∧ d.ofJson (.array (before ++ .null :: after)) = .ok (clear r)
  short : ∀ xs, xs.length ≤ place → ∀ r, d.ofJson (.array xs) = .ok r → get r = none

end Decoder

namespace Lays

variable {R : Type} {fields : List (Field R)} {known : List (Member R)} {f : Field R}
  {default r s : R} {ms ns : List (String × Json)}

theorem zip_append_of_length_le {early : List String} {xs : List Json}
    (short : xs.length ≤ early.length) (late : List String) :
    (early ++ late).zip xs = early.zip xs := by
  induction early generalizing xs with
  | nil => rw [List.length_eq_zero_iff.mp (Nat.le_zero.mp short), List.zip_nil_right,
      List.zip_nil_right]
  | cons key early ih =>
      cases xs with
      | nil => rfl
      | cons x xs =>
          rw [List.cons_append, List.zip_cons_cons, List.zip_cons_cons,
            ih (Nat.le_of_succ_le_succ short)]

/-- One field may be looked at apart from the others. -/
theorem ofJson_eq_ok_iff_apart (lays : Lays fields known) (isField : f ∈ fields)
    (once : (ms.map Prod.fst).Nodup) (onceToo : (ns.map Prod.fst).Nodup)
    (alike : Json.without f.key ms = Json.without f.key ns)
    (kept : ∀ g ∈ fields, g.key ≠ f.key → g.get s = g.get r) (cleared : f.Holds ns default s)
    (title : String) :
    (Record.decoder title default known).ofJson (.object ms) = .ok r ↔
      f.Holds ms default r ∧ (Record.decoder title default known).ofJson (.object ns) = .ok s := by
  have others {g : Field R} (isFieldToo : g ∈ fields) (other : g.key ≠ f.key) :
      g.Holds ms default r ↔ g.Holds ns default s := by
    have found : Json.member? g.key ms = Json.member? g.key ns := by
      rw [← Json.member?_without other, alike, Json.member?_without other]
    rw [Field.Holds, Field.Holds, found, kept g isFieldToo other]
  rw [lays.ofJson_eq_ok_iff once, lays.ofJson_eq_ok_iff onceToo]
  constructor
  · intro holds
    refine ⟨holds f isField, ?_⟩
    intro g isFieldToo
    by_cases same : g.key = f.key
    · exact lays.eq_of_key_eq isFieldToo isField same ▸ cleared
    · exact (others isFieldToo same).mp (holds g isFieldToo)
  · rintro ⟨own, holds⟩ g isFieldToo
    by_cases same : g.key = f.key
    · exact lays.eq_of_key_eq isFieldToo isField same ▸ own
    · exact (others isFieldToo same).mpr (holds g isFieldToo)

/-- A record whose number is a field like any other has its number as it should. -/
theorem hasNumber (lays : Lays fields known) (title : String) {get : R → Option UInt64}
    {clear : R → R} (early late : List String)
    (keys : known.map Member.key = early ++ "number" :: late)
    (isField : ⟨"number", _, .numberOrText, get⟩ ∈ fields) (noDefault : get default = none)
    (cleared : ∀ r, get (clear r) = none)
    (kept : ∀ r, ∀ g ∈ fields, g.key ≠ "number" → g.get (clear r) = g.get r) :
    (Record.decoder title default known).HasNumber early.length get clear := by
  have reads := lays.readsByPosition title default
  rw [keys] at reads
  have distinct : (early ++ "number" :: late).Nodup := keys ▸ lays.keys_distinct
  have once (xs : List Json) : (((early ++ "number" :: late).zip xs).map Prod.fst).Nodup :=
    distinct.sublist (map_fst_zip_sublist _ xs)
  have missing (ms : List (String × Json)) (once : (ms.map Prod.fst).Nodup)
      (absent : Json.member? "number" ms = none) (r : R)
      (read : (Record.decoder title default known).ofJson (.object ms) = .ok r) :
      get r = none := by
    have holds := (lays.ofJson_eq_ok_iff once title).mp read _ isField
    rw [Field.Holds, absent] at holds
    exact holds.trans noDefault
  refine ⟨?member, missing, ?element, ?short⟩
  case member =>
    intro ms v once found r
    have onceToo : ((Json.without "number" ms).map Prod.fst).Nodup :=
      once.sublist (List.filter_sublist.map Prod.fst)
    have absent : "number" ∉ (Json.without "number" ms).map Prod.fst := by simp [Json.without]
    rw [lays.ofJson_eq_ok_iff_apart (s := clear r) isField once onceToo
      (Json.without_of_not_mem absent).symm (kept r) _ title, Field.Holds, found]
    · exact and_congr_left fun _ => Decoder.numberOrText_eq_ok_iff
    · rw [Field.Holds, Json.member?_of_not_mem absent]
      exact (cleared r).trans noDefault.symm
  case element =>
    intro before v after placed r
    have zipped (w : Json) : (early ++ "number" :: late).zip (before ++ w :: after) =
        early.zip before ++ ("number", w) :: late.zip after := by
      rw [List.zip_append placed.symm, List.zip_cons_cons]
    have found (w : Json) : Json.member? "number"
        ((early ++ "number" :: late).zip (before ++ w :: after)) = some w :=
      Json.member?_of_mem (once _) (by simp [zipped])
    by_cases short : (before ++ v :: after).length ≤ (early ++ "number" :: late).length
    · have shortToo :
          (before ++ Json.null :: after).length ≤ (early ++ "number" :: late).length := by
        simpa using short
      rw [reads.inOrder _ short, reads.inOrder _ shortToo,
        lays.ofJson_eq_ok_iff_apart (s := clear r) isField (once _) (once _) _ (kept r) _ title,
        Field.Holds, found]
      · exact and_congr_left fun _ => Decoder.numberOrText_eq_ok_iff
      · simp [zipped, Json.without]
      · rw [Field.Holds, found]
        exact congrArg Except.ok (cleared r).symm
    · have longToo :
          (early ++ "number" :: late).length < (before ++ Json.null :: after).length := by
        simpa using short
      exact iff_of_false (reads.ofJson_array_ne_ok (not_le.mp short) r) fun others =>
        reads.ofJson_array_ne_ok longToo _ others.2
  case short =>
    intro xs short r read
    have shorter : xs.length ≤ (early ++ "number" :: late).length := by
      rw [List.length_append]
      omega
    rw [reads.inOrder xs shorter] at read
    refine missing _ (once xs) (Json.member?_of_not_mem ?_) r read
    rw [zip_append_of_length_le short]
    intro stands
    exact List.disjoint_of_nodup_append distinct ((map_fst_zip_sublist early xs).subset stands)
      List.mem_cons_self

end Lays

end Wire

theorem Change.hasNumber :
    Change.decoder.HasNumber 3 Change.number fun c => { c with number := none } :=
  lays.hasNumber _ ["project", "branch", "id"]
    ["subject", "owner", "url", "commitMessage", "status", "topic"] rfl (by simp [fields]) rfl
    (fun _ => rfl) (by simp [fields])

theorem PatchSet.hasNumber :
    PatchSet.decoder.HasNumber 0 PatchSet.number fun p => { p with number := none } :=
  lays.hasNumber _ [] ["revision", "ref", "uploader", "author", "createdOn", "kind", "isDraft"] rfl
    (by simp [fields]) rfl (fun _ => rfl) (by simp [fields])

namespace Wire.Decoder

/-- Numbers are read exactly. A value is read as a number or as none just if it has one of the forms
of that; all other values are refused. Changes and patch sets have their numbers from there, in
objects and in lists. An integer and its decimal text are read alike, up to the last number of 64
bits. -/
theorem numbers_are_exact :
    (∀ v n?, numberOrText.ofJson v = .ok n? ↔ Form.number n? v) ∧
    (∀ v, (∀ n?, ¬Form.number n? v) → ∃ m, numberOrText.ofJson v = .error m) ∧
    Change.decoder.HasNumber 3 Change.number (fun c => { c with number := none }) ∧
    PatchSet.decoder.HasNumber 0 PatchSet.number (fun p => { p with number := none }) ∧
    ∀ n : Nat, n < 2 ^ 64 → ∃ m : UInt64, m.toNat = n ∧
      numberOrText.ofJson (.integer n) = .ok (some m) ∧
      numberOrText.ofJson (.string (toString n)) = .ok (some m) := by
  refine ⟨fun v n? => numberOrText_eq_ok_iff, ?others, Change.hasNumber, PatchSet.hasNumber, ?alike⟩
  case others =>
    intro v noForm
    cases read : numberOrText.ofJson v with
    | error m => exact ⟨m, rfl⟩
    | ok n? => exact absurd (number_of_numberOrText read) (noForm n?)
  case alike =>
    intro n small
    obtain ⟨m, rfl⟩ : ∃ m : UInt64, m.toNat = n := ⟨.ofNat n, UInt64.toNat_ofNat_of_lt' small⟩
    exact ⟨m, rfl, numberOrText_recovers.reads (some m) _ (.inl rfl),
      numberOrText_recovers.reads (some m) _ (.inr rfl)⟩

/-- A change with a sign, zeros and blanks around its number. -/
theorem numbers_are_exact_padded :
    Change.decoder.ofJson (.object [("topic", .null), ("number", .string "\u2003+0042 ")]) =
      .ok { number := some 42 } := by
  obtain ⟨-, -, change, -⟩ := numbers_are_exact
  have denotes : Text.Denotes ['+', '0', '0', '4', '2'] 42 :=
    ⟨['0', '0', '4', '2'], by simp, by simp [Char.isDigit], .inr rfl, rfl⟩
  have padded : Text.Padded ['+', '0', '0', '4', '2'] "\u2003+0042 ".toList :=
    ⟨['\u2003'], [' '], by simp [Text.isBlank], by simp [Text.isBlank], rfl⟩
  exact (change.member _ _ (by decide) rfl _).mpr ⟨.inr ⟨_, _, denotes, padded, rfl⟩, rfl⟩

end Wire.Decoder

end ReviewHub
