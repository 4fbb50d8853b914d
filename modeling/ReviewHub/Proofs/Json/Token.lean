import ReviewHub.Proofs.Json.Reading

/-!
# Tokens with text behind

A word, a string or a number that makes up a text is read the same where more text follows that can
follow a token: nothing, a blank or punctuation. Neither what follows nor where the token stands
matters to it. It is shown of each reader by the parts it is made of. Where a reader looks at the
next character at the end of the text, it has to do without one and must go on with what follows as
if there were none.
-/

namespace ReviewHub.Json.Reader

/-- The character can follow a token. -/
inductive Delimits : Char → Prop where
  | space : Delimits ' '
  | newline : Delimits '\n'
  | tab : Delimits '\t'
  | carriageReturn : Delimits '\r'
  | comma : Delimits ','
  | colon : Delimits ':'
  | bracket : Delimits ']'
  | brace : Delimits '}'

/-- The text can follow a token. -/
def CanFollow (rest : List Char) : Prop := ∀ x ∈ rest.head?, Delimits x

section Carrying

variable {α β : Type} {r s : Reader α} {f g : Option Char → Reader β} {x : Char}

/-- What the first reader takes off a text the second one takes off that text with more behind. -/
def Carries (r s : Reader α) : Prop :=
  ∀ cs p a left q, r ⟨cs, p⟩ = .ok (a, ⟨left, q⟩) →
    ∀ rest, CanFollow rest → ∀ p', ∃ q', s ⟨cs ++ rest, p'⟩ = .ok (a, ⟨left ++ rest, q'⟩)

/-- So it is for texts that begin with the character. -/
def CarriesAt (x : Char) (r s : Reader α) : Prop :=
  ∀ cs p a left q, r ⟨x :: cs, p⟩ = .ok (a, ⟨left, q⟩) →
    ∀ rest, CanFollow rest → ∀ p', ∃ q', s ⟨x :: (cs ++ rest), p'⟩ = .ok (a, ⟨left ++ rest, q'⟩)

/-- What comes of seeing no next character comes of seeing the text behind. -/
def CarriesOver (f g : Option Char → Reader β) : Prop :=
  ∀ p b left q, f none ⟨[], p⟩ = .ok (b, ⟨left, q⟩) →
    ∀ rest, CanFollow rest → ∀ p', ∃ q', g rest.head? ⟨rest, p'⟩ = .ok (b, ⟨left ++ rest, q'⟩)

namespace Carries

theorem carriesAt (carries : Carries r s) (x : Char) : CarriesAt x r s :=
  fun cs => carries (x :: cs)

theorem pure (a : α) : Carries (Pure.pure a : Reader α) (Pure.pure a) := by
  rintro cs p _ _ _ ⟨⟩ rest - p'
  exact ⟨p', rfl⟩

theorem fail (defect : Defect) : Carries (Reader.fail defect : Reader α) s := nofun

theorem failNext (defect : Defect) : Carries (Reader.failNext defect : Reader α) s := nofun

theorem bind {h k : α → Reader β} (first : Carries r s) (later : ∀ a, Carries (h a) (k a)) :
    Carries (r >>= h) (s >>= k) := by
  intro cs p b left q read rest follows p'
  obtain ⟨a, ⟨middle, o⟩, before, after⟩ := bind_eq_ok_iff.mp read
  obtain ⟨o', beforeToo⟩ := first cs p a middle o before rest follows p'
  obtain ⟨q', afterToo⟩ := later a middle o b left q after rest follows o'
  exact ⟨q', bind_eq_ok_iff.mpr ⟨a, _, beforeToo, afterToo⟩⟩

theorem peek_bind (next : ∀ x, CarriesAt x (f (some x)) (g (some x))) (last : CarriesOver f g) :
    Carries (peek >>= f) (peek >>= g) := by
  intro cs p b left q read rest follows p'
  cases cs with
  | nil => exact last p b left q read rest follows p'
  | cons x cs => exact next x cs p b left q read rest follows p'

theorem takeWhile {property : Char → Bool} (apart : ∀ x, Delimits x → property x = false) :
    Carries (Reader.takeWhile property) (Reader.takeWhile property) := by
  rintro cs p _ _ _ ⟨⟩ rest follows p'
  have stops : rest.takeWhile property = [] ∧ rest.dropWhile property = rest := by
    cases rest with
    | nil => exact ⟨rfl, rfl⟩
    | cons x xs =>
        have other := apart x (follows x rfl)
        exact ⟨List.takeWhile_cons_of_neg (by simp [other]),
          List.dropWhile_cons_of_neg (by simp [other])⟩
  have taken : (cs ++ rest).takeWhile property = cs.takeWhile property ∧
      (cs ++ rest).dropWhile property = cs.dropWhile property ++ rest := by
    induction cs with
    | nil => exact stops
    | cons x cs ih =>
        by_cases holds : property x
        · simp [holds, ih]
        · simp [holds]
  refine ⟨p'.afterAll (cs.takeWhile property), ?_⟩
  simp only [Reader.takeWhile, Cursor.advance, taken]

end Carries

namespace CarriesAt

theorem skip_bind {h k : Reader β} (later : Carries h k) (x : Char) :
    CarriesAt x (skip >>= fun _ => h) (skip >>= fun _ => k) :=
  fun cs p b left q read rest follows p' =>
    later cs (p.after x) b left q read rest follows (p'.after x)

theorem skip (x : Char) : CarriesAt x Reader.skip Reader.skip := by
  rintro cs p _ _ _ ⟨⟩ rest - p'
  exact ⟨p'.after x, rfl⟩

end CarriesAt

namespace CarriesOver

theorem of_fail {defect : Defect} (fails : f none = fail defect) : CarriesOver f g := by
  intro p b left q read
  rw [fails] at read
  cases read

theorem of_same (carries : Carries (f none) (g none))
    (same : ∀ x, Delimits x → g (some x) = g none) : CarriesOver f g := by
  intro p b left q read rest follows p'
  have alike : g rest.head? = g none := by
    cases rest with
    | nil => rfl
    | cons x xs => exact same x (follows x rfl)
  rw [alike]
  exact carries [] p b left q read rest follows p'

end CarriesOver

end Carrying

/-! ### Words and strings -/

theorem utf8Size_of_hexDigit? {c : Char} {d : Nat} (digit : hexDigit? c = some d) :
    c.utf8Size = 1 := by
  have narrow : c.val.toNat ≤ 127 := by
    simp only [hexDigit?, Char.isDigit, Bool.and_eq_true, decide_eq_true_eq, Char.le_def,
      UInt32.le_iff_toNat_le] at digit
    split at digit
    · next range => exact Nat.le_trans range.2 (by decide)
    · split at digit
      · next range => exact Nat.le_trans range.2 (by decide)
      · split at digit
        · next range => exact Nat.le_trans range.2 (by decide)
        · cases digit
  exact Char.utf8Size_eq_one_iff.mpr (UInt32.le_iff_toNat_le.mpr narrow)

/-- A number in hexadecimal digits has as many bytes as digits. -/
theorem utf8ByteSize_of_hexNumber? {cs : List Char} {n : Nat} (number : hexNumber? cs = some n) :
    (String.ofList cs).utf8ByteSize = cs.length := by
  -- For the induction the number may have begun with other digits.
  have general (m? : Option Nat)
      (read : cs.foldl (fun n? c => n?.bind fun n => (hexDigit? c).map (n * 16 + ·)) m? = some n) :
      m?.isSome ∧ (String.ofList cs).utf8ByteSize = cs.length := by
    clear number
    induction cs generalizing m? with
    | nil => exact ⟨Option.isSome_of_eq_some read, rfl⟩
    | cons c cs ih =>
        obtain ⟨stays, size⟩ := ih _ read
        obtain ⟨k, step⟩ := Option.isSome_iff_exists.mp stays
        obtain ⟨m, rfl, digit⟩ := Option.bind_eq_some_iff.mp step
        obtain ⟨d, isDigit, -⟩ := Option.map_eq_some_iff.mp digit
        refine ⟨rfl, ?_⟩
        rw [String.ofList_cons, String.utf8ByteSize_append, String.utf8ByteSize_singleton,
          utf8Size_of_hexDigit? isDigit, size, List.length_cons, Nat.add_comm]
  exact (general _ number).2

namespace Carries

theorem word (cs : List Char) : Carries (Reader.word cs) (Reader.word cs) := by
  induction cs with
  | nil => exact pure ()
  | cons x cs ih =>
      refine peek_bind (fun y => ?_) (.of_fail rfl)
      dsimp only
      split
      · exact .skip_bind ih y
      · exact (failNext _).carriesAt y

theorem hexEscape : Carries Reader.hexEscape Reader.hexEscape := by
  intro cs p n left q read rest _ p'
  rw [Reader.hexEscape] at read
  dsimp only at read
  split at read
  · cases read
  · next wide =>
      cases number : hexNumber? (cs.take 4) with
      | none =>
          rw [number] at read
          cases read
      | some m =>
          rw [number] at read
          cases read
          rw [utf8ByteSize_of_hexNumber? number] at wide
          have long : 4 ≤ cs.length := by
            rw [List.length_take] at wide
            omega
          refine ⟨p'.afterAll (cs.take 4), ?_⟩
          simp only [Reader.hexEscape, List.take_append_of_le_length long,
            List.drop_append_of_le_length long, utf8ByteSize_of_hexNumber? number, if_neg wide,
            number, Cursor.advance]

theorem require (x : Char) : Carries (unicodeEscape.require x) (unicodeEscape.require x) := by
  refine peek_bind (fun y => ?_) (.of_fail rfl)
  dsimp only
  split
  · exact .skip y
  · exact (failNext _).carriesAt y

theorem unicodeEscape : Carries Reader.unicodeEscape Reader.unicodeEscape := by
  refine hexEscape.bind fun lead => ?_
  split
  · exact fail _
  · split
    · refine (require _).bind fun _ => (require _).bind fun _ => hexEscape.bind fun trail => ?_
      split
      · exact pure _
      · exact fail _
    · exact pure _

theorem escape {unicode : Reader Char} (carries : Carries unicode unicode) :
    Carries (Reader.escape unicode) (Reader.escape unicode) := by
  refine peek_bind (fun x => ?_) (.of_fail rfl)
  split
  · exact (fail _).carriesAt x
  · exact .skip_bind carries x
  · split
    · exact .skip_bind (pure _) x
    · exact (failNext _).carriesAt x

/-- More fuel than enough does no harm. -/
theorem stringRest (done : List Char) {m n : Nat} (more : m ≤ n) :
    Carries (Reader.stringRest done m) (Reader.stringRest done n) := by
  induction m generalizing done n with
  | zero => exact fail _
  | succ m ih =>
      obtain ⟨n, rfl⟩ : ∃ k, n = k + 1 := ⟨n - 1, by omega⟩
      have moreLater : m ≤ n := Nat.le_of_succ_le_succ more
      refine peek_bind (fun x => ?_) (.of_fail rfl)
      split
      · exact (fail _).carriesAt x
      · exact .skip_bind (pure _) x
      · exact .skip_bind ((escape unicodeEscape).bind fun c => ih (c :: done) moreLater) x
      · split
        · exact (failNext _).carriesAt x
        · exact .skip_bind (ih _ moreLater) x

theorem string : Carries Reader.string Reader.string := by
  intro cs p s left q read rest follows p'
  have more : cs.length + 1 ≤ (cs ++ rest).length + 1 := by simp
  exact stringRest [] more cs p s left q read rest follows p'

end Carries

/-! ### Numbers -/

/-- The exponent of a number whose sign has been taken off, and all before it. -/
def exponentAfterSign (positive : Bool) (significand : Nat) (places : Int) (up : Bool) :
    Reader Json := do
  match ← peek with
  | none => fail .noValue
  | some c =>
    if !c.isDigit then failNext .invalidNumber
    else
      match ← fun c => exponentDigits 0 (c.rest.length + 1) c with
      | some n => signedReal positive significand (if up then places + n else places - n)
      | none =>
        if significand ≠ 0 ∧ up then fail .numberOutOfRange
        else
          let _ ← takeWhile Char.isDigit
          signedReal positive 0 0

theorem Delimits.isDigit_eq {x : Char} (delimits : Delimits x) : x.isDigit = false := by
  cases delimits <;> rfl

namespace Carries

theorem signedReal (positive : Bool) (significand : Nat) (exponent : Int) :
    Carries (Reader.signedReal positive significand exponent)
      (Reader.signedReal positive significand exponent) := by
  rw [Reader.signedReal]
  split
  · exact pure _
  · exact fail _

theorem exponentDigits_cons (n fuel : Nat) (x : Char) (cs : List Char) (p : Position) :
    Reader.exponentDigits n (fuel + 1) ⟨x :: cs, p⟩ =
      if x.isDigit then
        if n * 10 + (x.toNat - '0'.toNat) < 0x80000000 then
          Reader.exponentDigits (n * 10 + (x.toNat - '0'.toNat)) fuel ⟨cs, p.after x⟩
        else .ok (none, ⟨cs, p.after x⟩)
      else .ok (some n, ⟨x :: cs, p⟩) := by
  rw [Reader.exponentDigits, bind_of_eq_ok (a := some x) (d := ⟨x :: cs, p⟩) rfl]
  dsimp only
  split
  · rw [bind_of_eq_ok (a := ()) (d := ⟨cs, p.after x⟩) rfl]
    split <;> rfl
  · rfl

/-- There is fuel for each digit and one more round. -/
theorem exponentDigits_fueled {cs rest left : List Char} {n k m : Nat} {o : Option Nat}
    {p q p' : Position} (enough : cs.length < k)
    (read : Reader.exponentDigits n k ⟨cs, p⟩ = .ok (o, ⟨left, q⟩)) (follows : CanFollow rest)
    (enoughToo : (cs ++ rest).length < m) :
    ∃ q', Reader.exponentDigits n m ⟨cs ++ rest, p'⟩ = .ok (o, ⟨left ++ rest, q'⟩) := by
  induction cs generalizing n k m p p' with
  | nil =>
      obtain ⟨k, rfl⟩ : ∃ fuel, k = fuel + 1 := ⟨k - 1, by omega⟩
      obtain ⟨m, rfl⟩ : ∃ fuel, m = fuel + 1 := ⟨m - 1, by omega⟩
      cases read
      refine ⟨p', bind_eq_ok_iff.mpr ⟨rest.head?, _, rfl, ?_⟩⟩
      cases rest with
      | nil => rfl
      | cons x xs =>
          have other := (follows x rfl).isDigit_eq
          simp only [List.nil_append, List.head?_cons, other]
          rfl
  | cons x cs ih =>
      obtain ⟨k, rfl⟩ : ∃ fuel, k = fuel + 1 := ⟨k - 1, by omega⟩
      obtain ⟨m, rfl⟩ : ∃ fuel, m = fuel + 1 := ⟨m - 1, by omega⟩
      rw [exponentDigits_cons] at read
      rw [List.cons_append, exponentDigits_cons]
      split at read
      · split at read
        · next digit small =>
            rw [if_pos digit, if_pos small]
            exact ih (Nat.lt_of_succ_lt_succ enough) read (Nat.lt_of_succ_lt_succ enoughToo)
        · next digit large =>
            cases read
            rw [if_pos digit, if_neg large]
            exact ⟨_, rfl⟩
      · next other =>
          cases read
          rw [if_neg other]
          exact ⟨_, rfl⟩

theorem exponentDigits :
    Carries (fun c => Reader.exponentDigits 0 (c.rest.length + 1) c)
      fun c => Reader.exponentDigits 0 (c.rest.length + 1) c :=
  fun _ _ _ _ _ read _ follows _ =>
    exponentDigits_fueled (Nat.lt_succ_self _) read follows (Nat.lt_succ_self _)

theorem exponentAfterSign (positive : Bool) (significand : Nat) (places : Int) (up : Bool) :
    Carries (Reader.exponentAfterSign positive significand places up)
      (Reader.exponentAfterSign positive significand places up) := by
  refine peek_bind (fun x => ?_) (.of_fail rfl)
  dsimp only
  split
  · exact (failNext _).carriesAt x
  · refine (exponentDigits.bind fun digits => ?_).carriesAt x
    split
    · exact signedReal _ _ _
    · split
      · exact fail _
      · exact (takeWhile fun y => Delimits.isDigit_eq).bind fun _ => signedReal _ _ _

theorem exponentPart (positive : Bool) (significand : Nat) (places : Int) (x : Char) :
    CarriesAt x (Reader.exponentPart positive significand places)
      (Reader.exponentPart positive significand places) := by
  have digits := exponentAfterSign positive significand places
  refine .skip_bind (peek_bind (fun sign => ?_) (.of_same ?_ ?_)) x
  · dsimp only
    split
    · exact .skip_bind ((pure true).bind digits) sign
    · exact .skip_bind ((pure false).bind digits) sign
    · exact ((pure true).bind digits).carriesAt sign
  · exact (pure true).bind digits
  · intro y delimits
    cases delimits <;> rfl

theorem afterDigits (positive : Bool) (significand : Nat) (places : Int) :
    Carries (Reader.afterDigits positive significand places)
      (Reader.afterDigits positive significand places) := by
  refine peek_bind (fun x => ?_) (.of_same (signedReal _ _ _) ?_)
  · split
    · exact exponentPart _ _ _ x
    · exact exponentPart _ _ _ x
    · exact (signedReal _ _ _).carriesAt x
  · intro y delimits
    cases delimits <;> rfl

theorem fractionPart (positive : Bool) (significand : Nat) (places : Int) (x : Char) :
    CarriesAt x (Reader.fractionPart positive significand places)
      (Reader.fractionPart positive significand places) := by
  refine .skip_bind ((takeWhile fun y => Delimits.isDigit_eq).bind fun digits => ?_) x
  split
  · refine peek_bind (fun y => ?_) (.of_fail rfl)
    exact (failNext _).carriesAt y
  · exact afterDigits _ _ _

theorem afterInteger (positive : Bool) (n dropped : Nat) :
    Carries (number.afterInteger positive n dropped)
      (number.afterInteger positive n dropped) := by
  have whole : Carries
      (if dropped = 0 then Pure.pure (signedInteger positive n)
        else Reader.signedReal positive n dropped)
      (if dropped = 0 then Pure.pure (signedInteger positive n)
        else Reader.signedReal positive n dropped) := by
    split
    · exact pure _
    · exact signedReal _ _ _
  refine peek_bind (fun x => ?_) (.of_same whole ?_)
  · split
    · exact fractionPart _ _ _ x
    · exact exponentPart _ _ _ x
    · exact exponentPart _ _ _ x
    · exact whole.carriesAt x
  · intro y delimits
    cases delimits <;> rfl

theorem number (positive : Bool) : Carries (Reader.number positive) (Reader.number positive) := by
  refine peek_bind (fun x => ?_) (.of_fail rfl)
  dsimp only
  split
  · exact (fail _).carriesAt x
  · refine .skip_bind (peek_bind (fun y => ?_) (.of_same (afterInteger _ _ _) ?_)) x
    · dsimp only
      split
      · exact (failNext _).carriesAt y
      · exact (afterInteger _ _ _).carriesAt y
    · intro y delimits
      simp only [delimits.isDigit_eq]
      rfl
  · split
    · refine ((takeWhile fun y => Delimits.isDigit_eq).bind fun digits => ?_).carriesAt x
      exact afterInteger _ _ _
    · exact (failNext _).carriesAt x

end Carries

/-- A scalar of which `x` is the first character. -/
theorem CarriesAt.scalar (x : Char) : CarriesAt x (Reader.scalar x) (Reader.scalar x) := by
  unfold Reader.scalar
  split
  · exact ((Carries.word _).bind fun _ => .pure _).carriesAt _
  · exact ((Carries.word _).bind fun _ => .pure _).carriesAt _
  · exact ((Carries.word _).bind fun _ => .pure _).carriesAt _
  · exact .skip_bind (Carries.string.bind fun s => .pure _) _
  · exact .skip_bind (Carries.number false) _
  · split
    · exact (Carries.number true).carriesAt _
    · exact (Carries.failNext _).carriesAt _

end ReviewHub.Json.Reader
