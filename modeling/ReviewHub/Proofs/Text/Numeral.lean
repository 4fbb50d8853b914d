import ReviewHub.Proofs.Text.Blank
import ReviewHub.Text.Numeral

/-!
# The decimal text of a number

Just the numerals of the numbers below the bound are read, each as its number. Digits only make a
number larger, so a number that has reached the bound does not come back below it. A numeral has no
blanks at its ends, and trimming leaves it as it is.
-/

namespace ReviewHub.Text

/-- The text is a numeral of the number: at least one digit, and perhaps a plus sign in front. -/
def Denotes (cs : List Char) (n : Nat) : Prop :=
  ∃ digits, digits ≠ [] ∧ (∀ c ∈ digits, c.isDigit = true) ∧
    (cs = digits ∨ cs = '+' :: digits) ∧ Nat.ofDigitChars 10 digits 0 = n

section Digits

variable {c : Char} {cs : List Char} {bound value n : Nat}

theorem not_isBlank_of_isDigit (digit : c.isDigit = true) : isBlank c = false := by
  have range : 48 ≤ c.toNat ∧ c.toNat ≤ 57 := by
    simpa [Char.isDigit, UInt32.le_iff_toNat_le] using digit
  simp only [isBlank, Bool.or_eq_false_iff, Bool.and_eq_false_iff, decide_eq_false_iff_not,
    beq_eq_false_iff_ne]
  omega

theorem Denotes.trim_eq (denotes : Denotes cs n) : trim cs = cs := by
  obtain ⟨digits, -, allDigits, written, -⟩ := denotes
  have shown : ∀ c ∈ digits, isBlank c = false :=
    fun c stands => not_isBlank_of_isDigit (allDigits c stands)
  refine trim_of_shown ?_
  rcases written with rfl | rfl
  · exact shown
  · exact List.forall_mem_cons.mpr ⟨rfl, shown⟩

/-- Digits only make a number larger. -/
theorem le_ofDigitChars (cs : List Char) (value : Nat) : value ≤ Nat.ofDigitChars 10 cs value := by
  induction cs generalizing value with
  | nil => exact Nat.le_refl value
  | cons c cs ih =>
      rw [Nat.ofDigitChars_cons]
      have larger : value ≤ 10 * value + (c.toNat - '0'.toNat) := by omega
      exact Nat.le_trans larger (ih _)

theorem appendDigits_eq_ok_iff (small : value < bound) :
    appendDigits bound value cs = .ok n ↔
      (∀ c ∈ cs, c.isDigit = true) ∧ Nat.ofDigitChars 10 cs value = n ∧ n < bound := by
  induction cs generalizing value with
  | nil =>
      constructor
      · rintro ⟨⟩
        exact ⟨nofun, rfl, small⟩
      · rintro ⟨-, rfl, -⟩
        rfl
  | cons c cs ih =>
      rw [appendDigits, digit?, Nat.ofDigitChars_cons, List.forall_mem_cons, Nat.mul_comm value]
      by_cases digit : c.isDigit
      · by_cases within : 10 * value + (c.toNat - '0'.toNat) < bound
        · rw [if_pos digit]
          simp only [if_pos within, ih within, digit, true_and]
        · -- What is too large already stays too large.
          have larger := le_ofDigitChars cs (10 * value + (c.toNat - '0'.toNat))
          rw [if_pos digit]
          simp only [if_neg within]
          exact iff_of_false nofun fun ⟨_, reached, below⟩ => by omega
      · simp only [if_neg digit]
        exact iff_of_false nofun fun ⟨⟨digitToo, _⟩, _⟩ => digit digitToo

/-- A text is read just if it is the numeral of a number below the bound, and as that number. -/
theorem readNumeral_eq_ok_iff (positive : 0 < bound) :
    readNumeral bound cs = .ok n ↔ Denotes cs n ∧ n < bound := by
  unfold readNumeral
  split
  · refine iff_of_false nofun ?_
    rintro ⟨⟨digits, nonempty, -, written, -⟩, -⟩
    rcases written with rfl | ⟨⟨⟩⟩
    exact nonempty rfl
  · refine iff_of_false nofun ?_
    rintro ⟨⟨digits, nonempty, allDigits, written, -⟩, -⟩
    rcases written with rfl | ⟨⟨⟩⟩
    · exact absurd (allDigits '+' List.mem_cons_self) (by decide)
    · exact nonempty rfl
  · next cs something =>
      rw [appendDigits_eq_ok_iff positive]
      constructor
      · rintro ⟨digits, value, below⟩
        refine ⟨⟨cs, ?_, digits, .inr rfl, value⟩, below⟩
        rintro rfl
        exact something rfl
      · rintro ⟨⟨digits, -, allDigits, written, value⟩, below⟩
        rcases written with rfl | ⟨⟨⟩⟩
        · exact absurd (allDigits '+' List.mem_cons_self) (by decide)
        · exact ⟨allDigits, value, below⟩
  · next something _ unsigned =>
      rw [appendDigits_eq_ok_iff positive]
      constructor
      · rintro ⟨digits, value, below⟩
        exact ⟨⟨cs, something, digits, .inl rfl, value⟩, below⟩
      · rintro ⟨⟨digits, -, allDigits, written, value⟩, below⟩
        rcases written with rfl | rfl
        · exact ⟨allDigits, value, below⟩
        · exact absurd rfl (unsigned digits)

/-- So it is with the blanks around a numeral taken off. -/
theorem readNumeral_trim_eq_ok_iff (positive : 0 < bound) :
    readNumeral bound (trim cs) = .ok n ↔
      (∃ numeral, Denotes numeral n ∧ Padded numeral cs) ∧ n < bound := by
  rw [readNumeral_eq_ok_iff positive]
  refine and_congr_left fun _ => ?_
  constructor
  · intro denotes
    exact ⟨trim cs, denotes, padded_trim cs⟩
  · rintro ⟨numeral, denotes, padded⟩
    rwa [padded.trim_eq, denotes.trim_eq]

theorem denotes_toString (n : Nat) : Denotes (toString n).toList n := by
  rw [Nat.toString_eq_repr, Nat.toList_repr]
  exact ⟨Nat.toDigits 10 n, Nat.toDigits_ne_nil,
    fun c => Nat.isDigit_of_mem_toDigits (by decide) (by decide), .inl rfl,
    Nat.ofDigitChars_ten_toDigits⟩

/-- What is written in decimal is read back. -/
theorem readNumeral_toString (small : n < bound) :
    readNumeral bound (trim (toString n).toList) = .ok n := by
  rw [(denotes_toString n).trim_eq, readNumeral_eq_ok_iff (Nat.zero_lt_of_lt small)]
  exact ⟨denotes_toString n, small⟩

end Digits

end ReviewHub.Text
