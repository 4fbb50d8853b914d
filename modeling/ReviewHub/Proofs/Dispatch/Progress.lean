import ReviewHub.Proofs.Dispatch.Snapshot

/-!
# Dispatches among others

The job of a worker takes its dispatch further one step at a time, and others may change the scene
between two steps. `Proceeds` leaves the scenes open, so it covers every interleaving. Whatever the
others do, the outermost delivery still owes a call to each of the listeners that it has not come
to, and a dispatch that is over has nothing more to note.
-/

namespace ReviewHub.Dispatch

variable {σ : Type}

/-- A dispatch goes on, by steps in whatever scenes and by passing gates, with the notes of what
happens. -/
inductive Proceeds (rep : Repertoire σ) : Dispatch → List Note → Dispatch → Prop where
  | refl (d : Dispatch) : Proceeds rep d [] d
  | step {w w' : Scene σ} {d d₁ d₂ : Dispatch} {notes more : List Note}
      (first : Dispatch.step rep w d = some (w', d₁, notes)) (rest : Proceeds rep d₁ more d₂) :
      Proceeds rep d (notes ++ more) d₂
  | pass {d d₁ d₂ : Dispatch} {notes more : List Note}
      (first : passGate? d = some (d₁, notes)) (rest : Proceeds rep d₁ more d₂) :
      Proceeds rep d (notes ++ more) d₂

/-- The calls that the outermost delivery owes to the listeners after the present one. -/
def owed : Dispatch → List (Listener × Handler × Event)
  | [] => []
  | [d] => d.remaining.map fun l => (l, .specific d.event.kind, d.event)
  | _ :: outer => owed outer

section Progress

variable {rep : Repertoire σ} {w w' : Scene σ} {d : Delivery} {outer ds ds₁ ds' : Dispatch}
  {notes : List Note}

@[simp] theorem specificEntriesIn_append (first second : List Note) :
    specificEntriesIn (first ++ second) = specificEntriesIn first ++ specificEntriesIn second := by
  simp [specificEntriesIn]

theorem specificEntriesIn_of_entriesIn (none : entriesIn notes = []) :
    specificEntriesIn notes = [] := by
  rw [specificEntriesIn, none, List.filter_nil]

theorem entriesIn_leave (e : Event) (outer : Dispatch) :
    entriesIn (Dispatch.leave e outer) = [] := by
  rcases leave_cases e outer with nothing | ⟨depth, l, noted⟩
  · rw [nothing, entriesIn_nil]
  · rw [noted]
    cases depth <;> rfl

/-- A step makes a call that was owed, or leaves owed what was owed. -/
theorem Advance.owed_eq (advance : Advance rep w outer d w' ds notes) :
    owed (d :: outer) = specificEntriesIn notes ++ owed ds := by
  cases advance with
  | leave e =>
      rw [specificEntriesIn_of_entriesIn (entriesIn_leave e outer), List.nil_append]
      cases outer <;> rfl
  | turn e l ls => cases outer <;> rfl
  | handOn e l k ls => cases outer <;> rfl
  | conclude e l h o ls last =>
      rw [specificEntriesIn_of_entriesIn (entriesIn_logNotes ..), List.nil_append]
      cases outer <;> rfl
  | act e l h next ls own =>
      rw [specificEntriesIn_append, specificEntriesIn_of_entriesIn (entriesIn_logNotes ..)]
      cases outer <;> rfl
  | skip e l h next ls ignored => cases outer <;> rfl
  | nest e l h next ls heard => cases outer <;> rfl

theorem owed_of_passGate? (first : passGate? ds = some (ds', notes)) :
    owed ds = specificEntriesIn notes ++ owed ds' := by
  unfold passGate? at first
  split at first
  · next e l h next ls outer =>
      cases first
      cases outer <;> rfl
  · cases first

/-- As long as a dispatch goes on, the calls that were made and those that are owed are those that
were owed. -/
theorem Proceeds.owed_eq (proceeds : Proceeds rep ds notes ds') :
    owed ds = specificEntriesIn notes ++ owed ds' := by
  induction proceeds with
  | refl => rfl
  | @step w w' ds _ _ _ _ first _ ih =>
      rw [specificEntriesIn_append, List.append_assoc, ← ih]
      cases ds with
      | nil => cases first
      | cons d outer => exact (advance_of_step first).owed_eq
  | pass first _ ih =>
      rw [specificEntriesIn_append, List.append_assoc, ← ih, owed_of_passGate? first]

/-- A dispatch that is over does nothing more. -/
theorem Proceeds.of_nil (proceeds : Proceeds rep [] notes ds') : notes = [] ∧ ds' = [] := by
  cases proceeds with
  | refl => exact ⟨rfl, rfl⟩
  | step first => cases first
  | pass first => cases first

theorem Proceeds.of_step (first : Dispatch.step rep w ds = some (w', ds', notes)) :
    Proceeds rep ds notes ds' := by
  have one := Proceeds.step first (.refl ds')
  rwa [List.append_nil] at one

theorem Proceeds.of_passGate? (first : passGate? ds = some (ds', notes)) :
    Proceeds rep ds notes ds' := by
  have one : Proceeds rep ds _ ds' := .pass first (.refl ds')
  rwa [List.append_nil] at one

theorem Proceeds.trans {more : List Note} (first : Proceeds rep ds notes ds₁)
    (second : Proceeds rep ds₁ more ds') : Proceeds rep ds (notes ++ more) ds' := by
  induction first with
  | refl => exact second
  | step first _ ih =>
      rw [List.append_assoc]
      exact .step first (ih second)
  | pass first _ ih =>
      rw [List.append_assoc]
      exact .pass first (ih second)

end Progress

end ReviewHub.Dispatch
