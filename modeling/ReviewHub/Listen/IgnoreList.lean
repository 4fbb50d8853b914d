import ReviewHub.Event.Basic
/-!
# The ignore list

A client that posts comments on a review server gets them back from the server's stream. The ignore
list names, for each provider, the one email whose comments are dropped. The last entry for a
provider counts. The comparison is exact.
-/

namespace ReviewHub

/-- The ignored email of each provider that has one, by the provider's name. -/
structure IgnoreList where
  entries : List (String × String) := []
deriving DecidableEq, Repr, Inhabited

namespace IgnoreList

def email? (t : IgnoreList) (provider : String) : Option String := t.entries.lookup provider

def set (t : IgnoreList) (provider : String) (email : Option String) : IgnoreList :=
  let others := t.entries.filter (·.1 ≠ provider)
  match email with
  | some e => ⟨(provider, e) :: others⟩
  | none => ⟨others⟩

/-- The first of several entries counts. -/
theorem lookup_entry (p q email : String) (rest : List (String × String)) :
    ((p, email) :: rest).lookup q = if q = p then some email else rest.lookup q := by
  rw [List.lookup_cons]
  by_cases h : q = p
  · simp [h]
  · rw [beq_eq_false_iff_ne.mpr h, if_neg h]

/-- What was set last for a provider counts, and only for that provider. -/
theorem email?_set (t : IgnoreList) (p q : String) (email : Option String) :
    (t.set p email).email? q = if q = p then email else t.email? q := by
  have others : (t.entries.filter (·.1 ≠ p)).lookup q = if q = p then none else t.email? q := by
    unfold email?
    induction t.entries with
    | nil => simp
    | cons entry rest ih =>
      obtain ⟨k, m⟩ := entry
      by_cases hk : k = p
      · rw [List.filter_cons_of_neg (by simpa using hk), ih, lookup_entry, hk]
        by_cases hq : q = p <;> simp [hq]
      · rw [List.filter_cons_of_pos (by simpa using hk), lookup_entry, lookup_entry, ih]
        by_cases hq : q = k
        · simp [hq, hk]
        · simp [hq]
  cases email with
  | none => exact others
  | some m =>
    change List.lookup q ((p, m) :: t.entries.filter (·.1 ≠ p)) = _
    rw [lookup_entry, others]
    by_cases hq : q = p <;> simp [hq]

def size (t : IgnoreList) : Nat := t.entries.length

/-- The event is a comment by the ignored email of its provider. A comment whose author has no
email, or that has no provider, is never ignored. -/
def ignores (t : IgnoreList) (e : Event) : Bool :=
  match e.detail, e.provider with
  | .commentAdded c, some p =>
    match c.author.bind (·.email) with
    | some email => t.email? p.name == some email
    | none => false
  | _, _ => false

end IgnoreList

end ReviewHub
