import ReviewHub.Listen.IgnoreList
import Mathlib.Data.List.Dedup
import Mathlib.Data.List.Induction

/-!
# Settings of the ignore list

An ignore list that was empty at first is known by the settings that were made since: for each
provider the last one counts. So it is a function of the history alone which comments are ignored
and how many providers have an entry.
-/

namespace ReviewHub

/-- Calls that set or clear the ignored email of a provider, in order. -/
abbrev Settings := List (String × Option String)

namespace Settings

/-- What was set last for the provider, if anything was. -/
def last? (settings : Settings) (provider : String) : Option (Option String) :=
  (settings.filter (·.1 = provider)).getLast?.map Prod.snd

/-- The providers, each once, for which an email was set last. -/
def providers (settings : Settings) : List String :=
  (settings.map Prod.fst).dedup.filter fun p => (settings.last? p).join.isSome

/-- The event is a comment by the email that was set last for its provider. -/
def IsEcho (settings : Settings) (e : Event) : Prop :=
  ∃ c email p, e.detail = .commentAdded c ∧ c.author.bind (·.email) = some email ∧
    e.provider = some p ∧ settings.last? p.name = some (some email)

/-- The latest setting counts for its provider, and only for that. -/
theorem last?_append (settings : Settings) (p q : String) (email : Option String) :
    last? (settings ++ [(p, email)]) q = if q = p then some email else settings.last? q := by
  by_cases same : q = p
  · subst same
    simp [last?]
  · have other : ¬p = q := fun eq => same eq.symm
    simp [last?, same, other]

theorem mem_of_last? {settings : Settings} {p : String} (set : (settings.last? p).isSome) :
    p ∈ settings.map Prod.fst := by
  rw [last?, Option.isSome_map] at set
  obtain ⟨entry, last⟩ := Option.isSome_iff_exists.mp set
  obtain ⟨member, same⟩ := List.mem_filter.mp (List.mem_of_getLast? last)
  exact List.mem_map.mpr ⟨entry, member, of_decide_eq_true same⟩

theorem mem_providers {settings : Settings} {p : String} :
    p ∈ settings.providers ↔ (settings.last? p).join.isSome := by
  rw [providers, List.mem_filter, List.mem_dedup]
  refine and_iff_right_of_imp ?_
  intro set
  refine mem_of_last? ?_
  cases last : settings.last? p with
  | none =>
      rw [last] at set
      cases set
  | some email => rfl

theorem nodup_providers (settings : Settings) : settings.providers.Nodup :=
  (List.nodup_dedup _).filter _

end Settings

namespace IgnoreList

/-- The ignore list after the settings. -/
def after (t : IgnoreList) (settings : Settings) : IgnoreList :=
  settings.foldl (fun t s => t.set s.1 s.2) t

theorem after_append (t : IgnoreList) (settings : Settings) (p : String) (email : Option String) :
    t.after (settings ++ [(p, email)]) = (t.after settings).set p email := by
  rw [after, List.foldl_append]
  rfl

/-! ### Emails -/

/-- The ignored email of a provider is what was set last for it. -/
theorem email?_after (settings : Settings) (q : String) :
    (after {} settings).email? q = (settings.last? q).join := by
  induction settings using List.reverseRecOn with
  | nil => rfl
  | append_singleton settings s ih =>
      obtain ⟨p, email⟩ := s
      rw [after_append, email?_set, Settings.last?_append, ih]
      split <;> rfl

theorem ignores_iff {t : IgnoreList} {e : Event} :
    t.ignores e = true ↔ ∃ c email p, e.detail = .commentAdded c ∧
      c.author.bind (·.email) = some email ∧ e.provider = some p ∧
      t.email? p.name = some email := by
  rw [ignores]
  constructor
  · intro ignored
    split at ignored
    · next c p detail provider =>
        split at ignored
        · next email author => exact ⟨c, email, p, detail, author, provider, by simpa using ignored⟩
        · cases ignored
    · cases ignored
  · rintro ⟨c, email, p, detail, author, provider, entry⟩
    simp [detail, author, provider, entry]

/-- Exactly the comments by the emails that were set last are ignored. -/
theorem ignores_after_iff {settings : Settings} {e : Event} :
    (after {} settings).ignores e = true ↔ settings.IsEcho e := by
  rw [ignores_iff, Settings.IsEcho]
  have entry (p : String) (email : String) :
      (after {} settings).email? p = some email ↔ settings.last? p = some (some email) := by
    rw [email?_after, Option.join_eq_some_iff]
  simp only [entry]

/-! ### Entries -/

/-- The providers that have an entry. -/
def names (t : IgnoreList) : List String := t.entries.map Prod.fst

theorem nodup_names_set {t : IgnoreList} (once : t.names.Nodup) (p : String)
    (email : Option String) : (t.set p email).names.Nodup := by
  have others : ((t.entries.filter (·.1 ≠ p)).map Prod.fst).Nodup :=
    once.sublist (List.filter_sublist.map _)
  cases email with
  | none => exact others
  | some email =>
      refine List.nodup_cons.mpr ⟨?_, others⟩
      intro member
      obtain ⟨entry, kept, same⟩ := List.mem_map.mp member
      have other := (List.mem_filter.mp kept).2
      simp [same] at other

/-- A provider never has two entries. -/
theorem nodup_names_after (settings : Settings) : (after {} settings).names.Nodup := by
  induction settings using List.reverseRecOn with
  | nil => exact List.nodup_nil
  | append_singleton settings s ih =>
      rw [after_append]
      exact nodup_names_set ih s.1 s.2

theorem mem_names {t : IgnoreList} {p : String} : p ∈ t.names ↔ (t.email? p).isSome := by
  rw [names, email?, List.lookup_isSome_iff, List.mem_map]
  refine exists_congr fun entry => and_congr_right fun _ => ?_
  rw [beq_iff_eq, eq_comm]

/-- There are as many entries as there are providers for which an email was set last. -/
theorem size_after (settings : Settings) :
    (after {} settings).size = settings.providers.length := by
  have same : (after {} settings).names.Perm settings.providers := by
    refine (List.perm_ext_iff_of_nodup (nodup_names_after settings)
      settings.nodup_providers).mpr ?_
    intro p
    rw [mem_names, email?_after, Settings.mem_providers]
  rw [← same.length_eq, names, List.length_map]
  rfl

end IgnoreList

end ReviewHub
