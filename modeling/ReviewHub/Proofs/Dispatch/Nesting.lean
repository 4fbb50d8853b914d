import ReviewHub.Listen.Dispatch

/-!
# Deliveries within deliveries

How a dispatch runs. `Advance` is all that one step can do, `Reaches` stands for any number of
steps, and `Returns` for a dispatch that comes to its end. Two things are true of every run. The
switchboard is what the actions in the notes have made of it, in their order. And a delivery runs
within others as it runs alone: its notes are the same, only deeper, and when it is over the call
that it was nested in goes on.
-/

namespace ReviewHub

/-! ### Depths of notes -/

/-- The note as it is seen from outside of `k` further deliveries. -/
def Note.deepen (k : Nat) (n : Note) : Note := { n with depth := n.depth + k }

/-- The notes as they are seen from outside of `k` further deliveries. -/
def deepen (k : Nat) (notes : List Note) : List Note := notes.map (Note.deepen k)

@[simp] theorem deepen_nil (k : Nat) : deepen k [] = [] := rfl

@[simp] theorem deepen_cons (k : Nat) (n : Note) (notes : List Note) :
    deepen k (n :: notes) = ⟨n.depth + k, n.what⟩ :: deepen k notes := rfl

@[simp] theorem deepen_append (k : Nat) (first second : List Note) :
    deepen k (first ++ second) = deepen k first ++ deepen k second :=
  List.map_append

@[simp] theorem deepen_zero (notes : List Note) : deepen 0 notes = notes :=
  List.map_id notes

theorem deepen_deepen (j k : Nat) (notes : List Note) :
    deepen k (deepen j notes) = deepen (j + k) notes := by
  rw [deepen, deepen, deepen, List.map_map]
  refine List.map_congr_left ?_
  intro n _
  simp only [Function.comp, Note.deepen, Nat.add_assoc]

namespace Dispatch

variable {σ : Type}

@[simp] theorem deepen_logNotes (j k : Nat) (logs : List Log) :
    deepen k (logNotes j logs) = logNotes (j + k) logs :=
  List.map_map ..

/-! ### Runs -/

/-- Steps lead from one state of a dispatch to another, with the notes of what happens. -/
inductive Reaches (rep : Repertoire σ) :
    Scene σ → Dispatch → List Note → Scene σ → Dispatch → Prop where
  | refl (w : Scene σ) (d : Dispatch) : Reaches rep w d [] w d
  | head {w w₁ w₂ : Scene σ} {d d₁ d₂ : Dispatch} {notes more : List Note}
      (first : step rep w d = some (w₁, d₁, notes)) (rest : Reaches rep w₁ d₁ more w₂ d₂) :
      Reaches rep w d (notes ++ more) w₂ d₂

/-- The dispatch of the event comes to its end, with the notes and in the scene given. -/
def Returns (rep : Repertoire σ) (w : Scene σ) (e : Event) (notes : List Note) (w' : Scene σ) :
    Prop :=
  ∃ fuel, notify rep fuel w e = (w', [], notes)

section Runs

variable {rep : Repertoire σ} {w w₁ w₂ w' : Scene σ} {d d₁ d₂ : Dispatch}
  {notes more : List Note}

theorem Reaches.single (first : step rep w d = some (w₁, d₁, notes)) :
    Reaches rep w d notes w₁ d₁ := by
  have one := Reaches.head first (.refl w₁ d₁)
  rwa [List.append_nil] at one

theorem Reaches.trans (first : Reaches rep w d notes w₁ d₁)
    (second : Reaches rep w₁ d₁ more w₂ d₂) : Reaches rep w d (notes ++ more) w₂ d₂ := by
  induction first with
  | refl => exact second
  | head step _ ih =>
      rw [List.append_assoc]
      exact .head step (ih second)

theorem reaches_run (rep : Repertoire σ) (fuel : Nat) (w : Scene σ) (d : Dispatch) :
    Reaches rep w d (run rep fuel w d).2.2 (run rep fuel w d).1 (run rep fuel w d).2.1 := by
  induction fuel generalizing w d with
  | zero => exact .refl w d
  | succ fuel ih =>
      rw [run]
      split
      · exact .refl w d
      · next w₁ d₁ notes first => exact .head first (ih w₁ d₁)

theorem exists_run (reaches : Reaches rep w d notes w' d₁) :
    ∃ fuel, run rep fuel w d = (w', d₁, notes) := by
  induction reaches with
  | refl => exact ⟨0, rfl⟩
  | head first _ ih =>
      obtain ⟨fuel, rest⟩ := ih
      refine ⟨fuel + 1, ?_⟩
      rw [run, first]
      simp only [rest]

/-- A dispatch is its beginning and what follows. -/
theorem notify_eq (rep : Repertoire σ) (fuel : Nat) (w : Scene σ) (e : Event) :
    notify rep fuel w e =
      ((run rep fuel w (start w.board 0 e).1.toList).1,
        (run rep fuel w (start w.board 0 e).1.toList).2.1,
        (start w.board 0 e).2 ++ (run rep fuel w (start w.board 0 e).1.toList).2.2) := rfl

theorem returns_iff {e : Event} :
    Returns rep w e notes w' ↔ ∃ more, notes = (start w.board 0 e).2 ++ more ∧
      Reaches rep w (start w.board 0 e).1.toList more w' [] := by
  constructor
  · rintro ⟨fuel, ended⟩
    rw [notify_eq, Prod.mk.injEq, Prod.mk.injEq] at ended
    obtain ⟨scene, empty, all⟩ := ended
    have reaches := reaches_run rep fuel w (start w.board 0 e).1.toList
    rw [scene, empty] at reaches
    exact ⟨_, all.symm, reaches⟩
  · rintro ⟨more, rfl, reaches⟩
    obtain ⟨fuel, ended⟩ := exists_run reaches
    refine ⟨fuel, ?_⟩
    rw [notify_eq, ended]

end Runs

/-! ### Steps -/

section Start

variable {b : Switchboard} {e : Event}

theorem start_of_ignored (ignored : b.ignored.ignores e = true) (depth : Nat) :
    start b depth e = (none, [⟨depth, .logged (.commentIgnored e)⟩]) := by
  rw [start, if_pos ignored]

theorem start_of_not_ignored (heard : b.ignored.ignores e = false) (depth : Nat) :
    start b depth e = (some ⟨e, none, b.roster.listeners⟩,
      [⟨depth, .logged (.notifying e b.roster.listeners.length)⟩]) := by
  rw [start, heard]
  rfl

end Start

/-- The action has another event delivered. -/
def isNotify : Action → Bool
  | .notify _ => true
  | _ => false

/-- What the handler of the listener does when it is called in the scene. -/
def scriptOf (rep : Repertoire σ) (w : Scene σ) (l : Listener) (h : Handler) (e : Event) : Script :=
  (rep l h e w.memory).1

/-- The scene in which the handler of the listener has been called. -/
def entering (rep : Repertoire σ) (w : Scene σ) (l : Listener) (h : Handler) (e : Event) :
    Scene σ :=
  { w with memory := (rep l h e w.memory).2 }

/-- All that one step of a delivery within others can do, guards included. -/
inductive Advance (rep : Repertoire σ) (w : Scene σ) (outer : Dispatch) :
    Delivery → Scene σ → Dispatch → List Note → Prop where
  /-- All listeners have had their turn. -/
  | leave (e : Event) : Advance rep w outer ⟨e, none, []⟩ w outer (leave e outer)
  /-- The next listener has its turn. -/
  | turn (e : Event) (l : Listener) (ls : List Listener) :
      Advance rep w outer ⟨e, none, l :: ls⟩ (entering rep w l (.specific e.kind) e)
        (⟨e, some ⟨l, .specific e.kind, scriptOf rep w l (.specific e.kind) e⟩, ls⟩ :: outer)
        [⟨outer.length, .entered l (.specific e.kind) e⟩]
  /-- The generic handler is called where the specific one has declined. -/
  | handOn (e : Event) (l : Listener) (k : Kind) (ls : List Listener) :
      Advance rep w outer ⟨e, some ⟨l, .specific k, .ends .declined⟩, ls⟩
        (entering rep w l .generic e)
        (⟨e, some ⟨l, .generic, scriptOf rep w l .generic e⟩, ls⟩ :: outer)
        [⟨outer.length, .logged (.noSpecificHandler l k)⟩, ⟨outer.length, .entered l .generic e⟩]
  /-- A call that has ended otherwise is reported if it failed. -/
  | conclude (e : Event) (l : Listener) (h : Handler) (o : Outcome) (ls : List Listener)
      (last : h = .generic ∨ o ≠ .declined) :
      Advance rep w outer ⟨e, some ⟨l, h, .ends o⟩, ls⟩ w (⟨e, none, ls⟩ :: outer)
        (logNotes outer.length (report ⟨l, h, .ends o⟩ e o))
  | act (e : Event) (l : Listener) (h : Handler) {a : Action} (next : Reply → Script)
      (ls : List Listener) (own : isNotify a = false) :
      Advance rep w outer ⟨e, some ⟨l, h, .acts a next⟩, ls⟩ { w with board := (w.board.act a).2.1 }
        (⟨e, some ⟨l, h, next (w.board.act a).1⟩, ls⟩ :: outer)
        (logNotes outer.length (w.board.act a).2.2 ++
          [⟨outer.length, .acted l a (w.board.act a).1⟩])
  /-- The event that is to be delivered is ignored. -/
  | skip (e : Event) (l : Listener) (h : Handler) {inner : Event} (next : Reply → Script)
      (ls : List Listener) (ignored : w.board.ignored.ignores inner = true) :
      Advance rep w outer ⟨e, some ⟨l, h, .acts (.notify inner) next⟩, ls⟩ w
        (⟨e, some ⟨l, h, next .done⟩, ls⟩ :: outer)
        [⟨outer.length + 1, .logged (.commentIgnored inner)⟩,
          ⟨outer.length, .acted l (.notify inner) .done⟩]
  /-- A delivery begins within this one. -/
  | nest (e : Event) (l : Listener) (h : Handler) {inner : Event} (next : Reply → Script)
      (ls : List Listener) (heard : w.board.ignored.ignores inner = false) :
      Advance rep w outer ⟨e, some ⟨l, h, .acts (.notify inner) next⟩, ls⟩ w
        (⟨inner, none, w.board.roster.listeners⟩ :: ⟨e, some ⟨l, h, next .done⟩, ls⟩ :: outer)
        [⟨outer.length + 1, .logged (.notifying inner w.board.roster.listeners.length)⟩]

section Steps

variable {rep : Repertoire σ} {w w' : Scene σ} {d : Delivery} {outer ds ds' : Dispatch}
  {notes : List Note}

theorem advance_of_stepCall {e : Event} {c : Call} {ls : List Listener}
    (first : stepCall rep w ⟨e, some c, ls⟩ c outer = some (w', ds', notes)) :
    Advance rep w outer ⟨e, some c, ls⟩ w' ds' notes := by
  obtain ⟨l, h, script⟩ := c
  cases script with
  | waits next => cases first
  | ends o =>
      cases h with
      | generic =>
          cases o with
          | _ =>
              cases first
              exact .conclude e l .generic _ ls (.inl rfl)
      | specific k =>
          cases o with
          | declined =>
              cases first
              exact .handOn e l k ls
          | _ =>
              cases first
              exact .conclude e l (.specific k) _ ls (.inr nofun)
  | acts a next =>
      cases a with
      | notify inner =>
          cases ignored : w.board.ignored.ignores inner with
          | true =>
              simp only [stepCall, start_of_ignored ignored] at first
              cases first
              exact .skip e l h next ls ignored
          | false =>
              simp only [stepCall, start_of_not_ignored ignored] at first
              cases first
              exact .nest e l h next ls ignored
      | _ =>
          cases first
          exact .act e l h next ls rfl

/-- A step is one of the advances. -/
theorem advance_of_step (first : step rep w (d :: outer) = some (w', ds', notes)) :
    Advance rep w outer d w' ds' notes := by
  obtain ⟨e, call, remaining⟩ := d
  cases call with
  | some c => exact advance_of_stepCall first
  | none =>
      cases remaining with
      | nil =>
          cases first
          exact .leave e
      | cons l ls =>
          cases first
          exact .turn e l ls

/-- Each of the advances is a step. -/
theorem Advance.step_eq (advance : Advance rep w outer d w' ds' notes) :
    step rep w (d :: outer) = some (w', ds', notes) := by
  cases advance with
  | leave => rfl
  | turn => rfl
  | handOn => rfl
  | conclude e l h o ls last =>
      cases h with
      | generic => cases o <;> rfl
      | specific k =>
          cases o with
          | declined => exact absurd rfl (last.resolve_left nofun)
          | _ => rfl
  | @act e l h a next ls own =>
      cases a with
      | notify inner => cases own
      | _ => rfl
  | skip e l h next ls ignored =>
      simp only [step, stepCall, start_of_ignored ignored]
      rfl
  | nest e l h next ls heard =>
      simp only [step, stepCall, start_of_not_ignored heard]

end Steps

/-! ### Ends -/

/-- No panic leaves a dispatch: whoever panics is being called by a delivery, and that one catches
it. -/
theorem completion?_cons (d : Delivery) (outer : Dispatch) : completion? (d :: outer) = none := by
  rw [completion?]
  split
  · next called =>
      rw [unwind, called]
      rfl
  · rfl

/-! ### Running within others -/

section Within

variable {rep : Repertoire σ} {w w' : Scene σ} {d : Delivery} {outer ds ds' : Dispatch}
  {notes : List Note}

/-- With more deliveries around those that a delivery leaves, what it leaves is only deeper. -/
theorem leave_append (e : Event) {ds : Dispatch} (some : ds ≠ []) (base : Dispatch) :
    Dispatch.leave e (ds ++ base) = deepen base.length (Dispatch.leave e ds) := by
  cases ds with
  | nil => exact absurd rfl some
  | cons d rest =>
      rw [List.cons_append, Dispatch.leave, Dispatch.leave]
      cases d.call with
      | none => rfl
      | some c => simp

/-- A step that does not end a dispatch is the same within others. -/
theorem Advance.append (advance : Advance rep w outer d w' ds' notes) (going : ds' ≠ [])
    (base : Dispatch) :
    Advance rep w (outer ++ base) d w' (ds' ++ base) (deepen base.length notes) := by
  cases advance with
  | leave e =>
      rw [← leave_append e going]
      exact .leave e
  | turn e l ls =>
      have deeper : Advance rep w (outer ++ base) _ _ _ _ := .turn e l ls
      simpa using deeper
  | handOn e l k ls =>
      have deeper : Advance rep w (outer ++ base) _ _ _ _ := .handOn e l k ls
      simpa using deeper
  | conclude e l h o ls last =>
      have deeper : Advance rep w (outer ++ base) _ _ _ _ := .conclude e l h o ls last
      simpa using deeper
  | act e l h next ls own =>
      have deeper : Advance rep w (outer ++ base) _ _ _ _ := .act e l h next ls own
      simpa using deeper
  | skip e l h next ls ignored =>
      have deeper : Advance rep w (outer ++ base) _ _ _ _ := .skip e l h next ls ignored
      simpa [Nat.add_right_comm] using deeper
  | nest e l h next ls heard =>
      have deeper : Advance rep w (outer ++ base) _ _ _ _ := .nest e l h next ls heard
      simpa [Nat.add_right_comm] using deeper

/-- The event that a dispatch began with. -/
def origin? : Dispatch → Option Event
  | [] => none
  | d :: outer => (origin? outer).or (some d.event)

/-- A dispatch begins with the same event as long as it goes on. -/
theorem Advance.origin?_eq (advance : Advance rep w outer d w' ds' notes) (going : ds' ≠ []) :
    origin? ds' = origin? (d :: outer) := by
  have nested (e : Event) {ds : Dispatch} (some : ds ≠ []) :
      (origin? ds).or (.some e) = origin? ds := by
    cases ds with
    | nil => exact absurd rfl some
    | cons d ds =>
        rw [origin?]
        cases origin? ds <;> rfl
  cases advance with
  | leave e => exact (nested e going).symm
  | nest e l h next ls heard => exact nested _ (List.cons_ne_nil _ _)
  | _ => rfl

/-- The last step of a dispatch ends the delivery of the event that it began with. -/
theorem Advance.eq_of_nil (advance : Advance rep w outer d w' [] notes) :
    (∃ e, d = ⟨e, none, []⟩) ∧ outer = [] ∧ w' = w ∧ notes = [] := by
  generalize empty : ([] : Dispatch) = last at advance
  cases advance with
  | leave e =>
      subst empty
      exact ⟨⟨e, rfl⟩, rfl, rfl, rfl⟩
  | _ => cases empty

/-- Where a dispatch is empty nothing more happens. -/
theorem eq_of_reaches_nil (reaches : Reaches rep w [] notes w' ds') :
    w' = w ∧ ds' = [] ∧ notes = [] := by
  cases reaches with
  | refl => exact ⟨rfl, rfl, rfl⟩
  | head first => cases first

/-- A dispatch runs within others as it runs alone, and then the call that it is nested in goes
on. -/
theorem Reaches.within {e : Event} (reaches : Reaches rep w ds notes w' [])
    (origin : origin? ds = some e) (base : Dispatch) :
    Reaches rep w (ds ++ base) (deepen base.length notes ++ Dispatch.leave e base) w' base := by
  generalize empty : ([] : Dispatch) = last at reaches
  induction reaches with
  | refl =>
      subst empty
      cases origin
  | @head w w₁ w' ds ds₁ _ notes more first rest ih =>
      subst empty
      cases ds with
      | nil => cases first
      | cons d outer =>
          have advance := advance_of_step first
          by_cases ended : ds₁ = []
          · subst ended
            obtain ⟨⟨e', rfl⟩, rfl, rfl, rfl⟩ := advance.eq_of_nil
            obtain ⟨rfl, -, rfl⟩ := eq_of_reaches_nil rest
            cases origin
            exact .single rfl
          · have before := (advance.append ended base).step_eq
            have after := ih ((advance.origin?_eq ended).trans origin) rfl
            rw [deepen_append, List.append_assoc]
            exact .head before after

end Within

/-! ### Actions -/

/-- The actions of listeners, those within nested deliveries included, in order. -/
def actionsIn (notes : List Note) : List Action :=
  notes.filterMap fun n =>
    match n.what with
    | .acted _ a _ => some a
    | _ => none

/-- The switchboard after the actions, done in order. -/
def replay (b : Switchboard) (actions : List Action) : Switchboard :=
  actions.foldl (fun b a => (b.act a).2.1) b

section Actions

variable {rep : Repertoire σ} {w w' : Scene σ} {d : Delivery} {outer ds ds' : Dispatch}
  {notes : List Note}

@[simp] theorem actionsIn_nil : actionsIn [] = [] := rfl

@[simp] theorem actionsIn_append (first second : List Note) :
    actionsIn (first ++ second) = actionsIn first ++ actionsIn second :=
  List.filterMap_append

@[simp] theorem actionsIn_logNotes (depth : Nat) (logs : List Log) :
    actionsIn (logNotes depth logs) = [] := by
  simp [actionsIn, logNotes]

@[simp] theorem replay_nil (b : Switchboard) : replay b [] = b := rfl

theorem replay_append (b : Switchboard) (first second : List Action) :
    replay b (first ++ second) = replay (replay b first) second :=
  List.foldl_append

/-- Leaving a delivery is noted by the call that it was nested in, as an action. -/
theorem leave_cases (e : Event) (outer : Dispatch) :
    Dispatch.leave e outer = [] ∨
      ∃ depth l, Dispatch.leave e outer = [⟨depth, .acted l (.notify e) .done⟩] := by
  cases outer with
  | nil => exact .inl rfl
  | cons d rest =>
      rw [Dispatch.leave]
      cases d.call with
      | none => exact .inl rfl
      | some c => exact .inr ⟨rest.length, c.listener, rfl⟩

/-- It changes nothing. -/
theorem replay_leave (b : Switchboard) (e : Event) (outer : Dispatch) :
    replay b (actionsIn (Dispatch.leave e outer)) = b := by
  rcases leave_cases e outer with nothing | ⟨depth, l, noted⟩
  · rw [nothing, actionsIn_nil, replay_nil]
  · rw [noted]
    rfl

/-- A step changes the switchboard by the action that it notes. -/
theorem Advance.board_eq (advance : Advance rep w outer d w' ds notes) :
    w'.board = replay w.board (actionsIn notes) := by
  cases advance with
  | leave e => rw [replay_leave]
  | conclude e l h o ls last => rw [actionsIn_logNotes, replay_nil]
  | act e l h next ls own =>
      rw [actionsIn_append, actionsIn_logNotes]
      rfl
  | _ => rfl

theorem board_of_step (first : step rep w ds = some (w', ds', notes)) :
    w'.board = replay w.board (actionsIn notes) := by
  cases ds with
  | nil => cases first
  | cons d outer => exact (advance_of_step first).board_eq

/-- The switchboard is what the actions have made of it. -/
theorem Reaches.board_eq (reaches : Reaches rep w ds notes w' ds') :
    w'.board = replay w.board (actionsIn notes) := by
  induction reaches with
  | refl => rfl
  | head first _ ih => rw [ih, board_of_step first, actionsIn_append, replay_append]

theorem Returns.board_eq {e : Event} (returns : Returns rep w e notes w') :
    w'.board = replay w.board (actionsIn notes) := by
  obtain ⟨more, rfl, reaches⟩ := returns_iff.mp returns
  have begins : actionsIn (start w.board 0 e).2 = [] := by
    rw [start]
    split <;> rfl
  rw [reaches.board_eq, actionsIn_append, begins, List.nil_append]

end Actions

end Dispatch

end ReviewHub
