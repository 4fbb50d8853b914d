import ReviewHub.Json.Structure

/-!
# What readers take off

A reader that succeeds leaves the end of the text that it has found: it takes characters off the
front and does nothing else to the text. This holds of each reader of values, by the parts that it
is made of, and it settles the question of fuel. The text gets shorter with every bracket, so any
fuel that exceeds the length of the text is enough for a value, and all such fuels are alike.
-/

namespace ReviewHub.Json.Reader

variable {α β σ : Type}

theorem bind_eq_ok_iff {r : Reader α} {f : α → Reader β} {c e : Cursor} {b : β} :
    (r >>= f) c = .ok (b, e) ↔ ∃ a d, r c = .ok (a, d) ∧ f a d = .ok (b, e) := by
  change (r c >>= fun p => f p.1 p.2) = _ ↔ _
  cases r c with
  | error fault => exact ⟨nofun, by rintro ⟨_, _, ⟨⟩, _⟩⟩
  | ok p =>
      obtain ⟨a, d⟩ := p
      constructor
      · intro read
        exact ⟨a, d, rfl, read⟩
      · rintro ⟨_, _, ⟨⟩, read⟩
        exact read

theorem bind_of_eq_ok {r : Reader α} {f : α → Reader β} {c d : Cursor} {a : α}
    (read : r c = .ok (a, d)) : (r >>= f) c = f a d := by
  change (r c >>= fun p => f p.1 p.2) = _
  rw [read]
  rfl

theorem map_eq_ok_iff {r : Reader α} {f : α → β} {c d : Cursor} {b : β} :
    (f <$> r) c = .ok (b, d) ↔ ∃ a, r c = .ok (a, d) ∧ f a = b := by
  change (r c >>= fun p => pure (f p.1, p.2)) = _ ↔ _
  cases r c with
  | error fault => exact ⟨nofun, by rintro ⟨_, ⟨⟩, _⟩⟩
  | ok p =>
      obtain ⟨a, d⟩ := p
      constructor
      · rintro ⟨⟩
        exact ⟨a, rfl, rfl⟩
      · rintro ⟨_, ⟨⟩, rfl⟩
        rfl

theorem nested_eq_ok_iff {inner : Nat → Reader α} {levels : Nat} {c d : Cursor} {a : α} :
    nested levels inner c = .ok (a, d) ↔
      ∃ more b, levels = more + 2 ∧ skip c = .ok ((), b) ∧
        inner (more + 1) b = .ok (a, d) := by
  match levels with
  | 0 => exact ⟨nofun, by rintro ⟨_, _, ⟨⟩, _⟩⟩
  | 1 => exact ⟨nofun, by rintro ⟨_, _, ⟨⟩, _⟩⟩
  | more + 2 =>
      constructor
      · intro read
        obtain ⟨_, b, opened, inside⟩ := bind_eq_ok_iff.mp read
        exact ⟨more, b, rfl, opened, inside⟩
      · rintro ⟨_, b, ⟨⟩, opened, inside⟩
        exact bind_eq_ok_iff.mpr ⟨(), b, opened, inside⟩

theorem readWhole_eq_ok_iff {r : Reader α} {text : List Char} {a : α} :
    readWhole r text = .ok a ↔
      ∃ c d, r (Cursor.ofText text) = .ok (a, c) ∧ peekToken c = .ok (none, d) := by
  have first (o : Except Fault (α × Cursor)) :
      o.map Prod.fst = .ok a ↔ ∃ d, o = .ok (a, d) := by
    cases o with
    | error fault => exact ⟨nofun, by rintro ⟨_, ⟨⟩⟩⟩
    | ok p =>
        constructor
        · rintro ⟨⟩
          exact ⟨p.2, rfl⟩
        · rintro ⟨d, ⟨⟩⟩
          rfl
  refine (first _).trans ?_
  constructor
  · rintro ⟨d, whole⟩
    obtain ⟨x, c, read, rest⟩ := bind_eq_ok_iff.mp whole
    obtain ⟨next, _, seen, ended⟩ := bind_eq_ok_iff.mp rest
    cases next with
    | some y => cases ended
    | none =>
        cases ended
        exact ⟨c, d, read, seen⟩
  · rintro ⟨c, d, read, seen⟩
    exact ⟨d, bind_eq_ok_iff.mpr ⟨a, c, read, bind_eq_ok_iff.mpr ⟨none, d, seen, rfl⟩⟩⟩

/-! ### Consuming -/

/-- The reader only takes characters off the front of the text. -/
def Consumes (r : Reader α) : Prop := ∀ c a d, r c = .ok (a, d) → d.rest <:+ c.rest

namespace Consumes

theorem pure (a : α) : Consumes (Pure.pure a : Reader α) := by
  rintro c _ _ ⟨⟩
  exact List.suffix_rfl

theorem bind {r : Reader α} {f : α → Reader β} (first : Consumes r)
    (rest : ∀ a, Consumes (f a)) : Consumes (r >>= f) := by
  intro c b e read
  obtain ⟨a, d, before, after⟩ := bind_eq_ok_iff.mp read
  exact (rest a d b e after).trans (first c a d before)

theorem map {r : Reader α} (consumes : Consumes r) (f : α → β) : Consumes (f <$> r) := by
  intro c b d read
  obtain ⟨a, before, -⟩ := map_eq_ok_iff.mp read
  exact consumes c a d before

theorem fail (defect : Defect) : Consumes (Reader.fail defect : Reader α) := nofun

theorem failNext (defect : Defect) : Consumes (Reader.failNext defect : Reader α) := nofun

theorem peek : Consumes Reader.peek := by
  rintro c _ _ ⟨⟩
  exact List.suffix_rfl

theorem skip : Consumes Reader.skip := by
  rintro c _ _ ⟨⟩
  cases rest : c.rest with
  | nil => simp [rest]
  | cons x xs => exact List.suffix_cons x xs

theorem takeWhile (p : Char → Bool) : Consumes (Reader.takeWhile p) := by
  rintro c _ _ ⟨⟩
  exact List.dropWhile_suffix p

theorem peekToken : Consumes Reader.peekToken := (takeWhile isSpace).bind fun _ => peek

/-! ### Scalars -/

theorem word (cs : List Char) : Consumes (Reader.word cs) := by
  induction cs with
  | nil => exact pure ()
  | cons x cs ih =>
      refine peek.bind fun next => ?_
      split
      · exact fail _
      · split
        · exact skip.bind fun _ => ih
        · exact failNext _

theorem hexEscape : Consumes Reader.hexEscape := by
  intro c n d read
  rw [Reader.hexEscape] at read
  split at read
  · cases read
  · split at read
    · cases read
      exact List.drop_suffix 4 c.rest
    · cases read

theorem require (x : Char) : Consumes (unicodeEscape.require x) := by
  refine peek.bind fun next => ?_
  split
  · exact fail _
  · split
    · exact skip
    · exact failNext _

theorem unicodeEscape : Consumes Reader.unicodeEscape := by
  refine hexEscape.bind fun lead => ?_
  split
  · exact fail _
  · split
    · refine (require _).bind fun _ => (require _).bind fun _ => hexEscape.bind fun trail => ?_
      split
      · exact pure _
      · exact fail _
    · exact pure _

theorem escape {unicode : Reader Char} (consumes : Consumes unicode) :
    Consumes (Reader.escape unicode) := by
  refine peek.bind fun next => ?_
  split
  · exact fail _
  · exact skip.bind fun _ => consumes
  · split
    · exact skip.bind fun _ => pure _
    · exact failNext _

theorem stringRest (done : List Char) (fuel : Nat) : Consumes (Reader.stringRest done fuel) := by
  induction fuel generalizing done with
  | zero => exact fail _
  | succ fuel ih =>
      refine peek.bind fun next => ?_
      split
      · exact fail _
      · exact skip.bind fun _ => pure _
      · exact skip.bind fun _ => (escape unicodeEscape).bind fun c => ih (c :: done)
      · next c _ _ =>
          split
          · exact failNext _
          · exact skip.bind fun _ => ih (c :: done)

theorem string : Consumes Reader.string := fun c => stringRest [] (c.rest.length + 1) c

theorem signedReal (positive : Bool) (significand : Nat) (exponent : Int) :
    Consumes (Reader.signedReal positive significand exponent) := by
  rw [Reader.signedReal]
  split
  · exact pure _
  · exact fail _

theorem exponentDigits (n fuel : Nat) : Consumes (Reader.exponentDigits n fuel) := by
  induction fuel generalizing n with
  | zero => exact pure _
  | succ fuel ih =>
      refine peek.bind fun next => ?_
      split
      · exact pure _
      · split
        · refine skip.bind fun _ => ?_
          dsimp only
          split
          · exact ih _
          · exact pure _
        · exact pure _

theorem exponentPart (positive : Bool) (significand : Nat) (places : Int) :
    Consumes (Reader.exponentPart positive significand places) := by
  refine skip.bind fun _ => peek.bind fun sign => ?_
  dsimp only
  split
  all_goals
    first
      | refine skip.bind fun _ => (pure _).bind fun up => peek.bind fun next => ?_
      | refine (pure _).bind fun up => peek.bind fun next => ?_
    -- Whatever the sign is, the digits follow.
    split
    · exact fail _
    · split
      · exact failNext _
      · refine bind (fun c => exponentDigits 0 (c.rest.length + 1) c) fun digits => ?_
        split
        · exact signedReal _ _ _
        · split
          · exact fail _
          · exact (takeWhile _).bind fun _ => signedReal _ _ _

theorem afterDigits (positive : Bool) (significand : Nat) (places : Int) :
    Consumes (Reader.afterDigits positive significand places) := by
  refine peek.bind fun next => ?_
  split
  · exact exponentPart _ _ _
  · exact exponentPart _ _ _
  · exact signedReal _ _ _

theorem fractionPart (positive : Bool) (significand : Nat) (places : Int) :
    Consumes (Reader.fractionPart positive significand places) := by
  refine skip.bind fun _ => (takeWhile _).bind fun digits => ?_
  split
  · refine peek.bind fun next => ?_
    split
    · exact fail _
    · exact failNext _
  · exact afterDigits _ _ _

theorem afterInteger (positive : Bool) (n dropped : Nat) :
    Consumes (number.afterInteger positive n dropped) := by
  refine peek.bind fun next => ?_
  split
  · exact fractionPart _ _ _
  · exact exponentPart _ _ _
  · exact exponentPart _ _ _
  · split
    · exact pure _
    · exact signedReal _ _ _

theorem number (positive : Bool) : Consumes (Reader.number positive) := by
  refine peek.bind fun first => ?_
  split
  · exact fail _
  · refine skip.bind fun _ => peek.bind fun next => ?_
    split
    · split
      · exact failNext _
      · exact afterInteger _ _ _
    · exact afterInteger _ _ _
  · split
    · exact (takeWhile _).bind fun digits => afterInteger _ _ _
    · exact failNext _

theorem scalar (first : Char) : Consumes (Reader.scalar first) := by
  unfold Reader.scalar
  split
  · exact (word _).bind fun _ => pure _
  · exact (word _).bind fun _ => pure _
  · exact (word _).bind fun _ => pure _
  · exact skip.bind fun _ => string.bind fun s => pure _
  · exact skip.bind fun _ => number _
  · split
    · exact number _
    · exact failNext _

/-! ### Lists and objects -/

theorem nextElement (first : Bool) : Consumes (Reader.nextElement first) := by
  refine peekToken.bind fun next => ?_
  split
  · exact fail _
  · exact pure _
  · split
    · exact pure _
    · split
      · refine skip.bind fun _ => peekToken.bind fun after => ?_
        split
        · exact failNext _
        · exact pure _
        · exact fail _
      · exact failNext _

theorem closeList : Consumes Reader.closeList := by
  refine peekToken.bind fun next => ?_
  split
  · exact skip
  · refine skip.bind fun _ => peekToken.bind fun after => ?_
    split
    · exact failNext _
    · exact failNext _
  · exact failNext _
  · exact fail _

theorem nextKey (first : Bool) : Consumes (Reader.nextKey first) := by
  have key : Consumes (some <$> do Reader.skip; Reader.string) :=
    (skip.bind fun _ => string).map some
  refine peekToken.bind fun next => ?_
  split
  · exact fail _
  · exact pure _
  · split
    · split
      · exact key
      · exact failNext _
    · split
      · refine skip.bind fun _ => peekToken.bind fun after => ?_
        split
        · exact key
        · exact failNext _
        · exact failNext _
        · exact fail _
      · exact failNext _

theorem colon : Consumes Reader.colon := by
  refine peekToken.bind fun next => ?_
  split
  · exact skip
  · exact failNext _
  · exact fail _

theorem closeObject : Consumes Reader.closeObject := by
  refine peekToken.bind fun next => ?_
  split
  · exact skip
  · exact failNext _
  · exact failNext _
  · exact fail _

theorem foldElements {step : σ → Reader σ} (steps : ∀ s, Consumes (step s)) (first : Bool) (s : σ)
    (fuel : Nat) : Consumes (Reader.foldElements step first s fuel) := by
  induction fuel generalizing first s with
  | zero => exact fail _
  | succ fuel ih =>
      refine (nextElement first).bind fun more => ?_
      split
      · exact (steps s).bind fun s => ih false s
      · exact pure s

theorem foldMembers {step : σ → String → Reader σ} (steps : ∀ s key, Consumes (step s key))
    (first : Bool) (s : σ) (fuel : Nat) : Consumes (Reader.foldMembers step first s fuel) := by
  induction fuel generalizing first s with
  | zero => exact fail _
  | succ fuel ih =>
      refine (nextKey first).bind fun key => ?_
      split
      · exact pure s
      · exact (steps s _).bind fun s => ih false s

theorem nested {inner : Nat → Reader α} (inners : ∀ levels, Consumes (inner levels))
    (levels : Nat) : Consumes (Reader.nested levels inner) := by
  unfold Reader.nested
  split
  · exact failNext _
  · exact failNext _
  · exact skip.bind fun _ => inners _

theorem list {step : Nat → σ → Reader σ} (steps : ∀ levels s, Consumes (step levels s))
    (levels : Nat) (s : σ) : Consumes (Reader.list levels s step) :=
  nested (fun inner => bind (fun c => foldElements (steps inner) true s (c.rest.length + 1) c)
    fun _ => closeList.bind fun _ => pure _) levels

theorem object {step : Nat → σ → String → Reader σ}
    (steps : ∀ levels s key, Consumes (step levels s key)) (levels : Nat) (s : σ) :
    Consumes (Reader.object levels s step) :=
  nested (fun inner => bind (fun c => foldMembers (steps inner) true s (c.rest.length + 1) c)
    fun _ => closeObject.bind fun _ => pure _) levels

theorem valueWithin (levels fuel : Nat) : Consumes (Reader.valueWithin levels fuel) := by
  induction fuel generalizing levels with
  | zero => exact fail _
  | succ fuel ih =>
      refine peekToken.bind fun next => ?_
      split
      · exact fail _
      · exact (list (fun inner xs => (ih inner).bind fun x => pure _) _ _).bind fun xs => pure _
      · exact (object (fun inner ms key => colon.bind fun _ => (ih inner).bind fun v => pure _)
          _ _).bind fun ms => pure _
      · exact scalar _

end Consumes

/-! ### Fuel -/

section Fuel

variable {r s : Reader α} {f g : α → Reader β} {c : Cursor} {n : Nat}

/-- Two computations are alike if they begin alike and go on alike. -/
theorem bind_congr (first : r c = s c) (rest : ∀ a d, r c = .ok (a, d) → f a d = g a d) :
    (r >>= f) c = (s >>= g) c := by
  change (r c >>= fun p => f p.1 p.2) = (s c >>= fun p => g p.1 p.2)
  rw [← first]
  cases read : r c with
  | error fault => rfl
  | ok p => exact rest p.1 p.2 read

/-- What is seen is the next character of what is left. -/
theorem head?_of_peekToken {x : Option Char} {d : Cursor} (seen : peekToken c = .ok (x, d)) :
    d.rest.head? = x := by
  obtain ⟨_, _, -, read⟩ := bind_eq_ok_iff.mp seen
  cases read
  rfl

theorem length_lt_of_skip {d : Cursor} {x : Char} (next : c.rest.head? = some x)
    (skipped : skip c = .ok ((), d)) : d.rest.length < c.rest.length := by
  cases skipped
  obtain ⟨rest, place⟩ := c
  cases rest with
  | nil => cases next
  | cons x xs => exact Nat.lt_succ_self xs.length

theorem foldElements_congr {step other : σ → Reader σ} (steps : ∀ s, Consumes (step s))
    (same : ∀ s c, c.rest.length < n → step s c = other s c) (first : Bool) (s : σ) (fuel : Nat)
    (short : c.rest.length < n) :
    foldElements step first s fuel c = foldElements other first s fuel c := by
  induction fuel generalizing first s c with
  | zero => rfl
  | succ fuel ih =>
      refine bind_congr rfl fun more d looked => ?_
      have ahead := Nat.lt_of_le_of_lt (Consumes.nextElement first c more d looked).length_le short
      cases more with
      | false => rfl
      | true =>
          refine bind_congr (same s d ahead) fun s e read => ih false s ?_
          exact Nat.lt_of_le_of_lt (steps _ d s e read).length_le ahead

theorem foldMembers_congr {step other : σ → String → Reader σ}
    (steps : ∀ s key, Consumes (step s key))
    (same : ∀ s key c, c.rest.length < n → step s key c = other s key c) (first : Bool) (s : σ)
    (fuel : Nat) (short : c.rest.length < n) :
    foldMembers step first s fuel c = foldMembers other first s fuel c := by
  induction fuel generalizing first s c with
  | zero => rfl
  | succ fuel ih =>
      refine bind_congr rfl fun key? d looked => ?_
      have ahead := Nat.lt_of_le_of_lt (Consumes.nextKey first c key? d looked).length_le short
      cases key? with
      | none => rfl
      | some key =>
          refine bind_congr (same s key d ahead) fun s e read => ih false s ?_
          exact Nat.lt_of_le_of_lt (steps _ key d s e read).length_le ahead

/-- Behind a bracket only what happens on shorter texts matters. -/
theorem nested_congr {inner other : Nat → Reader α} {x : Char} (next : c.rest.head? = some x)
    (same : ∀ levels d, d.rest.length < c.rest.length → inner levels d = other levels d)
    (levels : Nat) : nested levels inner c = nested levels other c := by
  unfold nested
  split
  · rfl
  · rfl
  · exact bind_congr rfl fun _ d skipped => same _ d (length_lt_of_skip next skipped)

theorem list_congr {step other : Nat → σ → Reader σ} {x : Char} (next : c.rest.head? = some x)
    (steps : ∀ levels s, Consumes (step levels s))
    (same : ∀ levels s d, d.rest.length < c.rest.length → step levels s d = other levels s d)
    (levels : Nat) (s : σ) : list levels s step c = list levels s other c := by
  refine nested_congr next (fun inner d short => ?_) levels
  refine bind_congr ?_ fun _ _ _ => rfl
  exact foldElements_congr (steps inner) (same inner) true s _ short

theorem object_congr {step other : Nat → σ → String → Reader σ} {x : Char}
    (next : c.rest.head? = some x) (steps : ∀ levels s key, Consumes (step levels s key))
    (same : ∀ levels s key d, d.rest.length < c.rest.length →
      step levels s key d = other levels s key d)
    (levels : Nat) (s : σ) : object levels s step c = object levels s other c := by
  refine nested_congr next (fun inner d short => ?_) levels
  refine bind_congr ?_ fun _ _ _ => rfl
  exact foldMembers_congr (steps inner) (same inner) true s _ short

/-- Any two amounts of fuel that exceed the length of the text are alike. -/
theorem valueWithin_congr {m n : Nat} (levels : Nat) (enough : c.rest.length < m)
    (enoughToo : c.rest.length < n) : valueWithin levels m c = valueWithin levels n c := by
  induction m generalizing n levels c with
  | zero => exact absurd enough (Nat.not_lt_zero _)
  | succ m ih =>
      cases n with
      | zero => exact absurd enoughToo (Nat.not_lt_zero _)
      | succ n =>
          refine bind_congr rfl fun next d seen => ?_
          have head := head?_of_peekToken seen
          have short := (Consumes.peekToken c next d seen).length_le
          have inside (levels : Nat) (e : Cursor) (shorter : e.rest.length < d.rest.length) :
              valueWithin levels m e = valueWithin levels n e :=
            ih levels (by omega) (by omega)
          split
          · rfl
          · refine bind_congr (list_congr head ?_ ?_ levels []) fun _ _ _ => rfl
            · exact fun inner xs => (Consumes.valueWithin inner m).bind fun x => .pure _
            · exact fun inner xs e shorter => bind_congr (inside inner e shorter) fun _ _ _ => rfl
          · refine bind_congr (object_congr head ?_ ?_ levels []) fun _ _ _ => rfl
            · exact fun inner ms key =>
                Consumes.colon.bind fun _ => (Consumes.valueWithin inner m).bind fun v => .pure _
            · intro inner ms key e shorter
              refine bind_congr rfl fun _ b passed => ?_
              have behind := (Consumes.colon e () b passed).length_le
              exact bind_congr (inside inner b (by omega)) fun _ _ _ => rfl
          · rfl

/-- A value is read with any fuel that exceeds the length of the text. -/
theorem valueWithin_eq_value {fuel : Nat} (levels : Nat) (enough : c.rest.length < fuel) :
    valueWithin levels fuel c = value levels c :=
  valueWithin_congr levels enough (Nat.lt_succ_self _)

end Fuel

end ReviewHub.Json.Reader
