import ReviewHub.Json.Structure

/-!
# Checking what a text reads as

Real numbers have no decidable equality, so JSON values have none either. But values without real
numbers can be compared, and with that it is a matter of evaluation what a given text reads as.
-/

namespace ReviewHub.Json

mutual

/-- The values are the same, and there is no real number in them. -/
def same : Json → Json → Bool
  | .null, .null => true
  | .bool a, .bool b => a == b
  | .integer m, .integer n => m == n
  | .string s, .string t => s == t
  | .array xs, .array ys => sameElements xs ys
  | .object ms, .object ns => sameMembers ms ns
  | _, _ => false

def sameElements : List Json → List Json → Bool
  | [], [] => true
  | x :: xs, y :: ys => same x y && sameElements xs ys
  | _, _ => false

def sameMembers : List (String × Json) → List (String × Json) → Bool
  | [], [] => true
  | (k, v) :: ms, (l, w) :: ns => k == l && (same v w && sameMembers ms ns)
  | _, _ => false

end

mutual

/-- Values that are the same are equal. -/
theorem eq_of_same : ∀ {v w : Json}, same v w = true → v = w
  | .null, w, agree => by cases w <;> first | rfl | cases agree
  | .bool _, w, agree => by cases w <;> simp_all [same]
  | .integer _, w, agree => by cases w <;> simp_all [same]
  | .real _, w, agree => by cases w <;> cases agree
  | .string _, w, agree => by cases w <;> simp_all [same]
  | .array _, .array _, agree => congrArg _ (eq_of_sameElements agree)
  | .object _, .object _, agree => congrArg _ (eq_of_sameMembers agree)

theorem eq_of_sameElements : ∀ {xs ys : List Json}, sameElements xs ys = true → xs = ys
  | [], [], _ => rfl
  | _ :: _, _ :: _, agree => by
      obtain ⟨first, rest⟩ := Bool.and_eq_true_iff.mp agree
      rw [eq_of_same first, eq_of_sameElements rest]

theorem eq_of_sameMembers : ∀ {ms ns : List (String × Json)}, sameMembers ms ns = true → ms = ns
  | [], [], _ => rfl
  | (_, _) :: _, (_, _) :: _, agree => by
      obtain ⟨key, agree⟩ := Bool.and_eq_true_iff.mp agree
      obtain ⟨value, rest⟩ := Bool.and_eq_true_iff.mp agree
      rw [eq_of_beq key, eq_of_same value, eq_of_sameMembers rest]

end

/-- What has been computed, by evaluation: `passes` is a check that only `a` passes. -/
theorem eq_ok_of_passes {ε α : Type} {e : Except ε α} {a : α} {passes : α → Bool}
    (only : ∀ {b}, passes b = true → a = b) (passed : e.toOption.any passes = true) :
    e = .ok a := by
  cases e with
  | error fault => cases passed
  | ok b => rw [only passed]

theorem parse_eq_ok_of_same {text : List Char} {v : Json}
    (passed : (parse text).toOption.any (same v) = true) : parse text = .ok v :=
  eq_ok_of_passes eq_of_same passed

theorem eq_ok_of_same {e : Except Fault (Json × Cursor)} {v : Json} {d : Cursor}
    (passed : (e.toOption.any fun r => same v r.1 && d == r.2) = true) : e = .ok (v, d) := by
  refine eq_ok_of_passes ?_ passed
  intro r agree
  obtain ⟨value, place⟩ := Bool.and_eq_true_iff.mp agree
  rw [eq_of_same value, eq_of_beq place]

end ReviewHub.Json
