import ReviewHub.Proofs.Dispatch.Nesting

/-!
# Visits of listeners

What the dispatch of an event comes to. The listeners that were registered when it began are visited
one after the other: each is called under its handler for the kind of the event, and under its
generic handler where the first one declines. `Visits` says so without a stack: a call is played to
its end, and an event that it has delivered counts as what its own dispatch comes to, only deeper.
A dispatch that returns is such a series of visits and nothing else, whatever the listeners change
on the way; and it does return if the dispatches that its listeners begin do.
-/

namespace ReviewHub.Dispatch

variable {σ : Type}

/-! ### Calls and visits -/

/-- What a call does from some moment on, until it ends: the notes, the outcome and the scene then.
The dispatch of another event counts as a whole. -/
inductive Plays (rep : Repertoire σ) (l : Listener) :
    Scene σ → Script → List Note → Outcome → Scene σ → Prop where
  | ends (w : Scene σ) (o : Outcome) : Plays rep l w (.ends o) [] o w
  | acts {w w' : Scene σ} {a : Action} {next : Reply → Script} {notes : List Note} {o : Outcome}
      (own : isNotify a = false)
      (rest : Plays rep l { w with board := (w.board.act a).2.1 } (next (w.board.act a).1) notes o
        w') :
      Plays rep l w (.acts a next)
        (logNotes 0 (w.board.act a).2.2 ++ ⟨0, .acted l a (w.board.act a).1⟩ :: notes) o w'
  | notifies {w w₁ w' : Scene σ} {e : Event} {next : Reply → Script} {nested notes : List Note}
      {o : Outcome} (returns : Returns rep w e nested w₁)
      (rest : Plays rep l w₁ (next .done) notes o w') :
      Plays rep l w (.acts (.notify e) next)
        (deepen 1 nested ++ ⟨0, .acted l (.notify e) .done⟩ :: notes) o w'

/-- The handler of the listener is called in the scene, and the call plays to its end. -/
def Calls (rep : Repertoire σ) (l : Listener) (h : Handler) (e : Event) (w : Scene σ)
    (notes : List Note) (o : Outcome) (w' : Scene σ) : Prop :=
  Plays rep l { w with memory := (rep l h e w.memory).2 } (rep l h e w.memory).1 notes o w'

/-- What follows a call under the handler that ended with the outcome. Only a specific handler that
declined is followed by another call, under the generic handler. -/
inductive Concludes (rep : Repertoire σ) (e : Event) (l : Listener) :
    Handler → Outcome → Scene σ → List Note → Scene σ → Prop where
  | reports {h : Handler} {o : Outcome} (last : h = .generic ∨ o ≠ .declined) (w : Scene σ) :
      Concludes rep e l h o w (logNotes 0 (report ⟨l, h, .ends o⟩ e o)) w
  | handsOn {k : Kind} {w w' : Scene σ} {notes : List Note} {o : Outcome}
      (generic : Calls rep l .generic e w notes o w') :
      Concludes rep e l (.specific k) .declined w
        (⟨0, .logged (.noSpecificHandler l k)⟩ :: ⟨0, .entered l .generic e⟩ ::
          (notes ++ logNotes 0 (report ⟨l, .generic, .ends o⟩ e o))) w'

/-- The listeners hear of the event, one after the other. -/
inductive Visits (rep : Repertoire σ) (e : Event) :
    Scene σ → List Listener → List Note → Scene σ → Prop where
  | nil (w : Scene σ) : Visits rep e w [] [] w
  | cons {w w₁ w₂ w' : Scene σ} {l : Listener} {ls : List Listener} {o : Outcome}
      {notes follow rest : List Note}
      (specific : Calls rep l (.specific e.kind) e w notes o w₁)
      (concludes : Concludes rep e l (.specific e.kind) o w₁ follow w₂)
      (others : Visits rep e w₂ ls rest w') :
      Visits rep e w (l :: ls)
        (⟨0, .entered l (.specific e.kind) e⟩ :: (notes ++ follow ++ rest)) w'

section Runs

variable {rep : Repertoire σ} {w w₁ w' : Scene σ} {e : Event} {l : Listener} {ls : List Listener}
  {s : Script} {o : Outcome} {h : Handler} {notes : List Note}

/-! ### Visits are runs -/

/-- A step of a delivery that is in no other. -/
theorem Advance.reaches {d : Delivery} {ds : Dispatch}
    (advance : Advance rep w [] d w' ds notes) : Reaches rep w [d] notes w' ds :=
  .single advance.step_eq

theorem Plays.reaches (plays : Plays rep l w s notes o w') (e : Event) (h : Handler)
    (ls : List Listener) :
    Reaches rep w [⟨e, some ⟨l, h, s⟩, ls⟩] notes w' [⟨e, some ⟨l, h, .ends o⟩, ls⟩] := by
  induction plays with
  | ends => exact .refl _ _
  | @acts w w' a next notes o own rest ih =>
      have first : Advance rep w [] _ _ _ _ := .act e l h next ls own
      have all := first.reaches.trans ih
      rwa [List.append_assoc] at all
  | @notifies w w₁ w' inner next nested notes o returns rest ih =>
      obtain ⟨more, rfl, reaches⟩ := returns_iff.mp returns
      cases ignored : w.board.ignored.ignores inner with
      | true =>
          rw [start_of_ignored ignored] at reaches ⊢
          obtain ⟨rfl, -, rfl⟩ := eq_of_reaches_nil reaches
          exact (Advance.skip e l h next ls ignored).reaches.trans ih
      | false =>
          rw [start_of_not_ignored ignored] at reaches ⊢
          have first : Advance rep w [] _ _ _ _ := .nest e l h next ls ignored
          have within := reaches.within rfl [⟨e, some ⟨l, h, next .done⟩, ls⟩]
          have all := (first.reaches.trans within).trans ih
          simpa [Dispatch.leave] using all

theorem Concludes.reaches (concludes : Concludes rep e l h o w notes w') (ls : List Listener) :
    Reaches rep w [⟨e, some ⟨l, h, .ends o⟩, ls⟩] notes w' [⟨e, none, ls⟩] := by
  cases concludes with
  | reports last => exact (Advance.conclude e l h o ls last).reaches
  | @handsOn k _ _ notes o generic =>
      have first : Advance rep w [] _ _ _ _ := .handOn e l k ls
      have last : Advance rep w' [] _ _ _ _ := .conclude e l .generic o ls (.inl rfl)
      exact first.reaches.trans ((generic.reaches e .generic ls).trans last.reaches)

theorem Visits.reaches (visits : Visits rep e w ls notes w') :
    Reaches rep w [⟨e, none, ls⟩] notes w' [] := by
  induction visits with
  | nil w => exact (Advance.leave e).reaches
  | @cons w _ _ _ l ls _ _ _ _ specific concludes _ ih =>
      have first : Advance rep w [] _ _ _ _ := .turn e l ls
      have call := specific.reaches e (.specific e.kind) ls
      exact first.reaches.trans ((call.trans (concludes.reaches ls)).trans ih)

theorem notify_of_ignored (rep : Repertoire σ) (ignored : w.board.ignored.ignores e = true)
    (fuel : Nat) : notify rep fuel w e = (w, [], [⟨0, .logged (.commentIgnored e)⟩]) := by
  rw [notify_eq, start_of_ignored ignored]
  cases fuel <;> rfl

theorem returns_of_ignored (rep : Repertoire σ) (ignored : w.board.ignored.ignores e = true) :
    Returns rep w e [⟨0, .logged (.commentIgnored e)⟩] w :=
  ⟨0, notify_of_ignored rep ignored 0⟩

theorem Visits.returns (visits : Visits rep e w w.board.roster.listeners notes w')
    (heard : w.board.ignored.ignores e = false) :
    Returns rep w e (⟨0, .logged (.notifying e w.board.roster.listeners.length)⟩ :: notes) w' := by
  refine returns_iff.mpr ⟨notes, ?_, ?_⟩
  · rw [start_of_not_ignored heard]
    rfl
  · rw [start_of_not_ignored heard]
    exact visits.reaches

end Runs

/-! ### Runs are visits -/

/-- What a delivery does from some moment on, until it is over. -/
inductive Completes (rep : Repertoire σ) : Scene σ → Delivery → List Note → Scene σ → Prop where
  | between {w w' : Scene σ} {e : Event} {ls : List Listener} {notes : List Note}
      (visits : Visits rep e w ls notes w') : Completes rep w ⟨e, none, ls⟩ notes w'
  | within {w w₁ w₂ w' : Scene σ} {e : Event} {l : Listener} {h : Handler} {s : Script}
      {ls : List Listener} {o : Outcome} {notes follow rest : List Note}
      (plays : Plays rep l w s notes o w₁) (concludes : Concludes rep e l h o w₁ follow w₂)
      (others : Visits rep e w₂ ls rest w') :
      Completes rep w ⟨e, some ⟨l, h, s⟩, ls⟩ (notes ++ follow ++ rest) w'

/-- What a dispatch does from some moment on, until it is over: the innermost delivery is completed,
and then the others. -/
inductive Unwinds (rep : Repertoire σ) : Scene σ → Dispatch → List Note → Scene σ → Prop where
  | nil (w : Scene σ) : Unwinds rep w [] [] w
  | cons {w w₁ w' : Scene σ} {d : Delivery} {outer : Dispatch} {notes rest : List Note}
      (inner : Completes rep w d notes w₁) (others : Unwinds rep w₁ outer rest w') :
      Unwinds rep w (d :: outer)
        (deepen outer.length notes ++ Dispatch.leave d.event outer ++ rest) w'

section Runs

variable {rep : Repertoire σ} {w w₁ w' : Scene σ} {d : Delivery} {outer ds : Dispatch}
  {notes more : List Note}

/-- What a dispatch comes to after a step is, with the notes of the step, what it came to before. -/
theorem Advance.unwinds (advance : Advance rep w outer d w₁ ds notes)
    (after : Unwinds rep w₁ ds more w') : Unwinds rep w (d :: outer) (notes ++ more) w' := by
  cases advance with
  | leave e =>
      have nothing : Completes rep w ⟨e, none, []⟩ [] w := .between (.nil w)
      exact .cons nothing after
  | turn e l ls =>
      obtain - | ⟨inner, others⟩ := after
      obtain - | ⟨plays, concludes, rest⟩ := inner
      have all := Unwinds.cons (.between (.cons plays concludes rest)) others
      simpa using all
  | handOn e l k ls =>
      obtain - | ⟨inner, others⟩ := after
      obtain - | ⟨plays, concludes, rest⟩ := inner
      -- The outcome of a generic handler is always the last.
      obtain ⟨last, _⟩ := concludes
      have all := Unwinds.cons
        (.within (.ends w .declined) (.handsOn (k := k) plays) rest) others
      simpa using all
  | conclude e l h o ls last =>
      obtain - | ⟨inner, others⟩ := after
      obtain ⟨visits⟩ := inner
      have all := Unwinds.cons (.within (l := l) (.ends w o) (.reports last w) visits) others
      simpa using all
  | act e l h next ls own =>
      obtain - | ⟨inner, others⟩ := after
      obtain - | ⟨plays, concludes, rest⟩ := inner
      have all := Unwinds.cons (.within (.acts own plays) concludes rest) others
      simpa using all
  | skip e l h next ls ignored =>
      obtain - | ⟨inner, others⟩ := after
      obtain - | ⟨plays, concludes, rest⟩ := inner
      have returns := returns_of_ignored rep ignored
      have all := Unwinds.cons (.within (.notifies returns plays) concludes rest) others
      simpa [Nat.add_comm] using all
  | nest e l h next ls heard =>
      obtain - | ⟨nested, after⟩ := after
      obtain ⟨visits⟩ := nested
      obtain - | ⟨inner, others⟩ := after
      obtain - | ⟨plays, concludes, rest⟩ := inner
      have returns := visits.returns heard
      have all := Unwinds.cons (.within (.notifies returns plays) concludes rest) others
      simpa [Nat.add_comm, deepen_deepen, Dispatch.leave] using all

theorem Reaches.unwinds (reaches : Reaches rep w ds notes w' []) : Unwinds rep w ds notes w' := by
  generalize empty : ([] : Dispatch) = last at reaches
  induction reaches with
  | refl w =>
      subst empty
      exact .nil w
  | @head w w₁ w₂ ds ds₁ _ notes more first rest ih =>
      subst empty
      cases ds with
      | nil => cases first
      | cons d outer => exact (advance_of_step first).unwinds (ih rfl)

/-- A dispatch that is not ignored returns exactly when all visits come to an end, and what it comes
to are these visits. -/
theorem returns_iff_visits {e : Event} (heard : w.board.ignored.ignores e = false) :
    Returns rep w e notes w' ↔
      ∃ visits, notes =
          ⟨0, .logged (.notifying e w.board.roster.listeners.length)⟩ :: visits ∧
        Visits rep e w w.board.roster.listeners visits w' := by
  constructor
  · intro returns
    obtain ⟨more, rfl, reaches⟩ := returns_iff.mp returns
    rw [start_of_not_ignored heard] at reaches ⊢
    obtain - | ⟨inner, others⟩ := reaches.unwinds
    obtain ⟨visits⟩ := inner
    cases others
    refine ⟨_, rfl, ?_⟩
    simpa [Dispatch.leave] using visits
  · rintro ⟨visits, rfl, all⟩
    exact all.returns heard

end Runs

end ReviewHub.Dispatch
