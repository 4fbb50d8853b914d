import ReviewHub.Proofs.Dispatch.Visits

/-!
# Dispatch follows the snapshot

An event goes to the listeners that were registered when its dispatch began, whatever happens to the
roster meanwhile. The law says which handlers are called and when, what becomes of the switchboard,
and that the dispatch returns. For the last part the listeners must let it: a call must not wait at
a gate, and a dispatch that a listener begins must return itself. Then the rest is a finite matter,
by induction on the script of a call and on the listeners that are left.
-/

namespace ReviewHub.Dispatch

variable {σ : Type}

/-! ### Entries -/

/-- The calls of handlers, those within nested deliveries left out, in order. -/
def entriesIn (notes : List Note) : List (Listener × Handler × Event) :=
  notes.filterMap fun
    | ⟨0, .entered l h e⟩ => some (l, h, e)
    | _ => none

/-- The entries that are not of generic handlers. -/
def specificEntriesIn (notes : List Note) : List (Listener × Handler × Event) :=
  (entriesIn notes).filter (·.2.1 ≠ .generic)

section Entries

variable {rep : Repertoire σ} {w w' : Scene σ} {e : Event} {l : Listener} {ls : List Listener}
  {s : Script} {o : Outcome} {h : Handler} {notes : List Note}

@[simp] theorem entriesIn_nil : entriesIn [] = [] := rfl

@[simp] theorem entriesIn_append (first second : List Note) :
    entriesIn (first ++ second) = entriesIn first ++ entriesIn second :=
  List.filterMap_append

@[simp] theorem entriesIn_logNotes (depth : Nat) (logs : List Log) :
    entriesIn (logNotes depth logs) = [] := by
  cases depth <;> simp [entriesIn, logNotes]

/-- What happens in a nested delivery is left out. -/
@[simp] theorem entriesIn_deepen (k : Nat) (notes : List Note) :
    entriesIn (deepen (k + 1) notes) = [] := by
  simp [entriesIn, deepen, Note.deepen, List.filterMap_map, Function.comp_def]

theorem Plays.entriesIn_eq (plays : Plays rep l w s notes o w') : entriesIn notes = [] := by
  induction plays with
  | ends => rfl
  | acts own rest ih =>
      rw [entriesIn_append, entriesIn_logNotes]
      exact ih
  | notifies returns rest ih =>
      rw [entriesIn_append, entriesIn_deepen 0]
      exact ih

theorem Concludes.specificEntriesIn_eq (concludes : Concludes rep e l h o w notes w') :
    specificEntriesIn notes = [] := by
  cases concludes with
  | reports last => rw [specificEntriesIn, entriesIn_logNotes, List.filter_nil]
  | @handsOn k _ _ notes o generic =>
      have entries : entriesIn (⟨0, .logged (.noSpecificHandler l k)⟩ ::
          ⟨0, .entered l .generic e⟩ ::
            (notes ++ logNotes 0 (report ⟨l, .generic, .ends o⟩ e o))) =
          (l, .generic, e) :: entriesIn (notes ++ logNotes 0 (report ⟨l, .generic, .ends o⟩ e o)) :=
        rfl
      rw [specificEntriesIn, entries, entriesIn_append, generic.entriesIn_eq, entriesIn_logNotes]
      rfl

/-- Each listener is entered once by its handler for the kind of the event. -/
theorem Visits.specificEntriesIn_eq (visits : Visits rep e w ls notes w') :
    specificEntriesIn notes = ls.map fun l => (l, .specific e.kind, e) := by
  induction visits with
  | nil => rfl
  | @cons _ _ _ _ l ls o notes follow rest specific concludes _ ih =>
      have entries : entriesIn (⟨0, .entered l (.specific e.kind) e⟩ :: (notes ++ follow ++ rest)) =
          (l, .specific e.kind, e) :: entriesIn (notes ++ follow ++ rest) := rfl
      have others := concludes.specificEntriesIn_eq
      rw [specificEntriesIn] at ih others ⊢
      rw [entries, List.filter_cons_of_pos (by simp), entriesIn_append, entriesIn_append,
        specific.entriesIn_eq, List.nil_append, List.filter_append, others, ih]
      rfl

end Entries

/-! ### Coming to an end -/

/-- From here on no call waits at a gate, and each dispatch that a listener of this one begins comes
to its end. -/
def Unhindered (rep : Repertoire σ) (w : Scene σ) (ds : Dispatch) : Prop :=
  ∀ notes w' ds', Reaches rep w ds notes w' ds' →
    isWaiting ds' = false ∧ ∀ inner outer, ds' = [inner, outer] →
      ∃ more w'', Reaches rep w' [inner] more w'' []

section End

variable {rep : Repertoire σ} {w w' : Scene σ} {ds ds' : Dispatch} {notes : List Note}

theorem Unhindered.later (free : Unhindered rep w ds) (reaches : Reaches rep w ds notes w' ds') :
    Unhindered rep w' ds' := by
  intro more w'' ds'' further
  exact free _ w'' ds'' (reaches.trans further)

/-- A call ends. -/
theorem Unhindered.exists_outcome {e : Event} {l : Listener} {h : Handler} {s : Script}
    {ls : List Listener} (free : Unhindered rep w [⟨e, some ⟨l, h, s⟩, ls⟩]) :
    ∃ o notes w', Reaches rep w [⟨e, some ⟨l, h, s⟩, ls⟩] notes w'
      [⟨e, some ⟨l, h, .ends o⟩, ls⟩] := by
  induction s generalizing w with
  | ends o => exact ⟨o, [], w, .refl _ _⟩
  | waits next ih =>
      obtain ⟨stuck, -⟩ := free _ _ _ (.refl _ _)
      cases stuck
  | acts a next ih =>
      have continues {notes : List Note} {w₁ : Scene σ} {r : Reply}
          (first : Reaches rep w [⟨e, some ⟨l, h, .acts a next⟩, ls⟩] notes w₁
            [⟨e, some ⟨l, h, next r⟩, ls⟩]) :
          ∃ o notes w', Reaches rep w [⟨e, some ⟨l, h, .acts a next⟩, ls⟩] notes w'
            [⟨e, some ⟨l, h, .ends o⟩, ls⟩] := by
        obtain ⟨o, rest, w', ends⟩ := ih r (free.later first)
        exact ⟨o, _, w', first.trans ends⟩
      cases own : isNotify a with
      | false =>
          have first : Advance rep w [] _ _ _ _ := .act e l h next ls own
          exact continues first.reaches
      | true =>
          cases a with
          | notify f =>
              cases ignored : w.board.ignored.ignores f with
              | true =>
                  have first : Advance rep w [] _ _ _ _ := .skip e l h next ls ignored
                  exact continues first.reaches
              | false =>
                  have first : Advance rep w [] _ _ _ _ := .nest e l h next ls ignored
                  obtain ⟨-, returns⟩ := free _ _ _ first.reaches
                  obtain ⟨more, w'', nested⟩ := returns _ _ rfl
                  have within := nested.within rfl [⟨e, some ⟨l, h, next .done⟩, ls⟩]
                  exact continues (first.reaches.trans within)
          | _ => cases own

/-- A delivery to any number of listeners ends. -/
theorem Unhindered.exists_end {e : Event} {ls : List Listener}
    (free : Unhindered rep w [⟨e, none, ls⟩]) :
    ∃ notes w', Reaches rep w [⟨e, none, ls⟩] notes w' [] := by
  induction ls generalizing w with
  | nil =>
      have last : Advance rep w [] _ _ _ _ := .leave e
      exact ⟨_, w, last.reaches⟩
  | cons l ls ih =>
      have finishes {notes : List Note} {w₁ : Scene σ}
          (first : Reaches rep w [⟨e, none, l :: ls⟩] notes w₁ [⟨e, none, ls⟩]) :
          ∃ notes w', Reaches rep w [⟨e, none, l :: ls⟩] notes w' [] := by
        obtain ⟨rest, w', ends⟩ := ih (free.later first)
        exact ⟨_, w', first.trans ends⟩
      have turn : Advance rep w [] _ _ _ _ := .turn e l ls
      obtain ⟨o, specific, w₁, called⟩ := (free.later turn.reaches).exists_outcome
      have first := turn.reaches.trans called
      by_cases declined : o = .declined
      · subst declined
        have handOn : Advance rep w₁ [] _ _ _ _ := .handOn e l e.kind ls
        have again := first.trans handOn.reaches
        obtain ⟨o, generic, w₂, answered⟩ := (free.later again).exists_outcome
        have conclude : Advance rep w₂ [] _ _ _ _ := .conclude e l .generic o ls (.inl rfl)
        exact finishes ((again.trans answered).trans conclude.reaches)
      · have conclude : Advance rep w₁ [] _ _ _ _ :=
          .conclude e l (.specific e.kind) o ls (.inr declined)
        exact finishes (first.trans conclude.reaches)

/-- What a dispatch reaches it has reached after some number of steps. -/
theorem notify_of_reaches {e : Event}
    (reaches : Reaches rep w (start w.board 0 e).1.toList notes w' ds') :
    ∃ fuel, notify rep fuel w e = (w', ds', (start w.board 0 e).2 ++ notes) := by
  obtain ⟨fuel, ended⟩ := exists_run reaches
  refine ⟨fuel, ?_⟩
  rw [notify_eq, ended]

theorem exists_returns {e : Event}
    (ungated : ∀ fuel, isWaiting (notify rep fuel w e).2.1 = false)
    (nested : ∀ fuel inner outer, (notify rep fuel w e).2.1 = [inner, outer] →
      ∃ more, (run rep more (notify rep fuel w e).1 [inner]).2.1 = []) :
    ∃ notes w', Returns rep w e notes w' := by
  cases ignored : w.board.ignored.ignores e with
  | true => exact ⟨_, w, returns_of_ignored rep ignored⟩
  | false =>
      have free : Unhindered rep w [⟨e, none, w.board.roster.listeners⟩] := by
        intro notes w' ds' reaches
        obtain ⟨fuel, here⟩ := notify_of_reaches (e := e) (by
          rw [start_of_not_ignored ignored]
          exact reaches)
        have moving := ungated fuel
        have ends := nested fuel
        rw [here] at moving ends
        refine ⟨moving, ?_⟩
        intro inner outer two
        obtain ⟨more, empty⟩ := ends inner outer two
        have returns := reaches_run rep more w' [inner]
        rw [empty] at returns
        exact ⟨_, _, returns⟩
      obtain ⟨notes, w', reaches⟩ := free.exists_end
      refine ⟨_, w', returns_iff.mpr ⟨notes, rfl, ?_⟩⟩
      rw [start_of_not_ignored ignored]
      exact reaches

end End

/-! ### The law -/

/-- What the dispatch of an event comes to, for every switchboard and whatever its listeners do. An
ignored event reaches no handler and changes nothing. Any other event is heard by the listeners that
are registered when the dispatch begins, each once and in their order: each is called under its
handler for the kind of the event, and then under its generic handler exactly where the first one
declined; and the next one has its turn whatever the call came to and whatever it changed. The
switchboard in the end is what the actions of the listeners, those in nested dispatches included,
have made of it in their order. And the dispatch does return, unless a call waits at a gate or a
dispatch that a listener begins does not return. -/
theorem notify_follows_snapshot (rep : Repertoire σ) (w : Scene σ) (e : Event) :
    (w.board.ignored.ignores e = true →
      ∀ fuel, notify rep fuel w e = (w, [], [⟨0, .logged (.commentIgnored e)⟩])) ∧
    (w.board.ignored.ignores e = false →
      (∀ notes w', Returns rep w e notes w' ↔
        ∃ visits, notes =
            ⟨0, .logged (.notifying e w.board.roster.listeners.length)⟩ :: visits ∧
          Visits rep e w w.board.roster.listeners visits w') ∧
      (∀ notes w', Returns rep w e notes w' →
        specificEntriesIn notes =
            w.board.roster.listeners.map (fun l => (l, .specific e.kind, e)) ∧
          w'.board = replay w.board (actionsIn notes)) ∧
      ((∀ fuel, isWaiting (notify rep fuel w e).2.1 = false) →
        (∀ fuel inner outer, (notify rep fuel w e).2.1 = [inner, outer] →
          ∃ more, (run rep more (notify rep fuel w e).1 [inner]).2.1 = []) →
        ∃ notes w', Returns rep w e notes w')) := by
  constructor
  · intro ignored fuel
    exact notify_of_ignored rep ignored fuel
  · intro heard
    refine ⟨?_, ?_, exists_returns⟩
    · intro notes w'
      exact returns_iff_visits heard
    · intro notes w' returns
      obtain ⟨visits, rfl, all⟩ := (returns_iff_visits heard).mp returns
      exact ⟨all.specificEntriesIn_eq, returns.board_eq⟩

/-! ### A listener that leaves

The first of two listeners takes itself off the roster, brings in another one and has a merge
delivered before it declines; its generic handler panics. -/

namespace Parting

def first : Listener := ⟨1, "first"⟩

def second : Listener := ⟨2, "second"⟩

def late : Listener := ⟨3, "late"⟩

def update : Event := { detail := .refUpdated {} }

def merge : Event := { detail := .changeMerged {} }

def script : Handler → Script
  | .specific _ =>
    .acts (.remove first) fun _ => .acts (.add late) fun _ => .acts (.notify merge) fun _ =>
      .ends .declined
  | .generic => .ends (.panicked .other)

def repertoire : Repertoire Unit := fun l h _ memory =>
  (if l = first then script h else .ends .handled, memory)

def scene : Scene Unit := ⟨{ roster := ⟨[first, second]⟩ }, ()⟩

end Parting

theorem notify_follows_snapshot_parting :
    let final := notify Parting.repertoire 14 Parting.scene Parting.update
    (∃ notes w', Returns Parting.repertoire Parting.scene Parting.update notes w') ∧
      specificEntriesIn final.2.2 =
        [(Parting.first, .specific .refUpdated, Parting.update),
          (Parting.second, .specific .refUpdated, Parting.update)] ∧
      final.1.board = { roster := ⟨[Parting.second, Parting.late]⟩ } := by
  intro final
  obtain ⟨-, heard⟩ :=
    notify_follows_snapshot Parting.repertoire Parting.scene Parting.update
  obtain ⟨-, comes, returns⟩ := heard rfl
  have returned : Returns Parting.repertoire Parting.scene Parting.update final.2.2 final.1 :=
    ⟨14, rfl⟩
  obtain ⟨entries, board⟩ := comes _ _ returned
  refine ⟨returns ?_ ?_, entries, board⟩
  · intro fuel
    match fuel with
    | 0 | 1 | 2 | 3 | 4 | 5 | 6 | 7 | 8 | 9 | 10 | 11 | 12 | 13 | 14 => rfl
    | _ + 15 => rfl
  · intro fuel inner outer two
    match fuel with
    | 0 | 1 | 2 | 3 | 9 | 10 | 11 | 12 | 13 | 14 => cases two
    | _ + 15 => cases two
    | 4 | 5 | 6 | 7 | 8 =>
        cases two
        exact ⟨5, rfl⟩

end ReviewHub.Dispatch
