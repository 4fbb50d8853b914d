import Mathlib.Data.List.TakeWhile
import ReviewHub.Text.Blank

/-!
# Trimming

Trimming takes the blanks off both ends of a text and nothing else. So it does not matter how many
blanks there are, and a text in which no blank stands is left as it is.
-/

namespace ReviewHub.Text

/-- The first text stands in the second one with nothing but blanks around. -/
def Padded (cs text : List Char) : Prop :=
  ∃ front back, (∀ c ∈ front, isBlank c = true) ∧ (∀ c ∈ back, isBlank c = true) ∧
    text = front ++ cs ++ back

variable {front cs back : List Char}

theorem trimStart_append_of_blank (blank : ∀ c ∈ front, isBlank c = true) (cs : List Char) :
    trimStart (front ++ cs) = trimStart cs :=
  List.dropWhile_append_of_pos blank

theorem trimStart_of_blank (blank : ∀ c ∈ front, isBlank c = true) : trimStart front = [] :=
  List.dropWhile_eq_nil_iff.mpr blank

theorem takeWhile_append_trimStart (cs : List Char) : cs.takeWhile isBlank ++ trimStart cs = cs :=
  List.takeWhile_append_dropWhile

theorem trimStart_cons {c : Char} (shown : isBlank c = false) (cs : List Char) :
    trimStart (c :: cs) = c :: cs :=
  List.dropWhile_cons_of_neg (by simp [shown])

theorem trimStart_of_shown (shown : ∀ c ∈ cs, isBlank c = false) : trimStart cs = cs := by
  cases cs with
  | nil => rfl
  | cons c cs => exact trimStart_cons (shown c List.mem_cons_self) cs

/-- A text without blanks is left as it is. -/
theorem trim_of_shown (shown : ∀ c ∈ cs, isBlank c = false) : trim cs = cs := by
  have backwards : ∀ c ∈ cs.reverse, isBlank c = false :=
    fun c stands => shown c (List.mem_reverse.mp stands)
  rw [trim, trimStart_of_shown shown, trimStart_of_shown backwards, List.reverse_reverse]

/-- A text that neither begins nor ends with a blank is left as it is. -/
theorem trim_of_ends {c d : Char} (shown : isBlank c = false) (shownToo : isBlank d = false)
    (cs : List Char) : trim (c :: cs ++ [d]) = c :: cs ++ [d] := by
  have backwards : (c :: cs ++ [d]).reverse = d :: (c :: cs).reverse := List.reverse_concat
  rw [trim, List.cons_append, trimStart_cons shown, ← List.cons_append, backwards,
    trimStart_cons shownToo, ← backwards, List.reverse_reverse]

theorem trim_append_of_blank (blank : ∀ c ∈ back, isBlank c = true) (cs : List Char) :
    trim (cs ++ back) = trim cs := by
  have backwards : ∀ c ∈ back.reverse, isBlank c = true :=
    fun c stands => blank c (List.mem_reverse.mp stands)
  have start : trimStart (cs ++ back) =
      if (trimStart cs).isEmpty then trimStart back else trimStart cs ++ back :=
    List.dropWhile_append
  rw [trim, start]
  split
  · next nothing =>
      rw [trimStart_of_blank blank, trim, List.isEmpty_iff.mp nothing]
  · rw [List.reverse_append, trimStart_append_of_blank backwards, trim]

/-- Blanks around a text do not matter. -/
theorem Padded.trim_eq {text : List Char} (padded : Padded cs text) : trim text = trim cs := by
  obtain ⟨front, back, blankFront, blankBack, rfl⟩ := padded
  rw [trim_append_of_blank blankBack, trim, trimStart_append_of_blank blankFront, ← trim]

theorem Padded.refl (cs : List Char) : Padded cs cs :=
  ⟨[], [], nofun, nofun, by simp⟩

theorem Padded.prepend {text : List Char} (padded : Padded cs text)
    (blank : ∀ c ∈ front, isBlank c = true) : Padded cs (front ++ text) := by
  obtain ⟨start, back, blankStart, blankBack, rfl⟩ := padded
  refine ⟨front ++ start, back, List.forall_mem_append.mpr ⟨blank, blankStart⟩, blankBack, ?_⟩
  simp only [List.append_assoc]

theorem Padded.append {text : List Char} (padded : Padded cs text)
    (blank : ∀ c ∈ back, isBlank c = true) : Padded cs (text ++ back) := by
  obtain ⟨front, last, blankFront, blankLast, rfl⟩ := padded
  refine ⟨front, last ++ back, blankFront, List.forall_mem_append.mpr ⟨blankLast, blank⟩, ?_⟩
  simp only [List.append_assoc]

/-- A text is its trimmed text with blanks around. -/
theorem padded_trim (cs : List Char) : Padded (trim cs) cs := by
  refine ⟨cs.takeWhile isBlank, ((trimStart cs).reverse.takeWhile isBlank).reverse, ?_, ?_, ?_⟩
  · intro c stands
    exact List.mem_takeWhile_imp stands
  · intro c stands
    exact List.mem_takeWhile_imp (List.mem_reverse.mp stands)
  · rw [List.append_assoc, trim, ← List.reverse_append, takeWhile_append_trimStart,
      List.reverse_reverse, takeWhile_append_trimStart]

end ReviewHub.Text
