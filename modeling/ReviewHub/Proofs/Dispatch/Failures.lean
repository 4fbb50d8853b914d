import ReviewHub.Listen.Dispatch

/-!
# Failures of listeners

A listener that fails or panics is reported, and that is all that comes of it. This is said by
comparison with a tamed repertoire, in which each such call ends as if the listener had handled the
event: apart from log records, a dispatch does with the one what it does with the other, however
deep the call was nested.
-/

namespace ReviewHub

/-! ### Tamed listeners -/

/-- The outcome, a failure being taken for success. -/
def Outcome.tamed : Outcome → Outcome
  | handled => .handled
  | declined => .declined
  | failed _ => .handled
  | panicked _ => .handled

/-- The script without its failures. -/
def Script.tamed : Script → Script
  | ends outcome => .ends outcome.tamed
  | acts action next => .acts action fun reply => (next reply).tamed
  | waits next => .waits next.tamed

def Call.tamed (c : Call) : Call := { c with script := c.script.tamed }

def Delivery.tamed (d : Delivery) : Delivery := { d with call := d.call.map Call.tamed }

/-- The repertoire of listeners that never fail and otherwise do the same. -/
def Repertoire.tamed {σ : Type} (rep : Repertoire σ) : Repertoire σ :=
  fun l h e memory => ((rep l h e memory).1.tamed, (rep l h e memory).2)

/-- The note is of a log record. -/
def Note.isRecord (n : Note) : Bool :=
  match n.what with
  | .logged _ => true
  | _ => false

namespace Dispatch

variable {σ : Type}

def tamed (d : Dispatch) : Dispatch := d.map Delivery.tamed

@[simp] theorem length_tamed (d : Dispatch) : d.tamed.length = d.length := List.length_map _

/-- The notes without those of log records. -/
def unrecorded (notes : List Note) : List Note := notes.filter (!·.isRecord)

@[simp] theorem unrecorded_logNotes (depth : Nat) (logs : List Log) :
    unrecorded (logNotes depth logs) = [] := by
  simp [unrecorded, logNotes, Note.isRecord]

/-! ### Steps -/

/-- The outcome of a step of a dispatch, and that of the same step of the tamed dispatch: they
differ in log records at most. -/
inductive Tames : Option (Scene σ × Dispatch × List Note) →
    Option (Scene σ × Dispatch × List Note) → Prop where
  | stuck : Tames none none
  | goes {w : Scene σ} {d e : Dispatch} {notes told : List Note} (rest : e = d.tamed)
      (same : unrecorded told = unrecorded notes) : Tames (some (w, d, notes)) (some (w, e, told))

theorem Tames.cases {one other : Option (Scene σ × Dispatch × List Note)}
    (tames : Tames one other) :
    (one = none ∧ other = none) ∨
      ∃ w d notes told, one = some (w, d, notes) ∧ other = some (w, d.tamed, told) ∧
        unrecorded told = unrecorded notes := by
  cases tames with
  | stuck => exact .inl ⟨rfl, rfl⟩
  | goes rest same => exact .inr ⟨_, _, _, _, rfl, rest ▸ rfl, same⟩

theorem leave_tamed (e : Event) (outer : Dispatch) : leave e outer.tamed = leave e outer := by
  cases outer with
  | nil => rfl
  | cons d rest =>
      obtain ⟨event, call, remaining⟩ := d
      cases call with
      | none => rfl
      | some c =>
          change [(⟨(tamed rest).length, _⟩ : Note)] = [⟨rest.length, _⟩]
          rw [length_tamed]
          rfl

/-- A delivery that begins has not called anybody yet. -/
theorem start_tamed (board : Switchboard) (depth : Nat) (e : Event) :
    ((start board depth e).1.map Delivery.tamed) = (start board depth e).1 := by
  rw [start]
  split <;> rfl

/-- An ended call is over, or leads on to the generic handler if the specific one declined. -/
theorem tames_ends (rep : Repertoire σ) (w : Scene σ) (e : Event) (l : Listener) (h : Handler)
    (outcome : Outcome) (ls : List Listener) (outer : Dispatch) :
    Tames (stepCall rep w ⟨e, some ⟨l, h, .ends outcome⟩, ls⟩ ⟨l, h, .ends outcome⟩ outer)
      (stepCall rep.tamed w ⟨e, some ⟨l, h, .ends outcome.tamed⟩, ls⟩
        ⟨l, h, .ends outcome.tamed⟩ outer.tamed) := by
  have ends {logs told : List Log} :
      Tames (some (w, ⟨e, none, ls⟩ :: outer, logNotes outer.length logs))
        (some (w, ⟨e, none, ls⟩ :: outer.tamed, logNotes outer.tamed.length told)) := by
    refine .goes rfl ?_
    rw [unrecorded_logNotes, unrecorded_logNotes]
  cases h with
  | generic => cases outcome <;> exact ends
  | specific kind =>
      cases outcome with
      | declined =>
          refine .goes rfl ?_
          rw [length_tamed]
      | _ => exact ends

/-- An action is what it is. -/
theorem tames_acts (rep : Repertoire σ) (w : Scene σ) (d : Delivery) (l : Listener) (h : Handler)
    (action : Action) (next : Reply → Script) (outer : Dispatch) :
    Tames (stepCall rep w d ⟨l, h, .acts action next⟩ outer)
      (stepCall rep.tamed w d.tamed ⟨l, h, .acts action fun r => (next r).tamed⟩ outer.tamed) := by
  cases action with
  | notify e =>
      have begins := start_tamed w.board (outer.length + 1) e
      have leaves := leave_tamed e ({ d with call := some ⟨l, h, next .done⟩ } :: outer)
      simp only [stepCall, length_tamed]
      generalize start w.board (outer.length + 1) e = begun at begins
      obtain ⟨_ | inner, notes⟩ := begun
      · refine .goes rfl ?_
        exact congrArg (fun left => unrecorded (notes ++ left)) leaves
      · refine .goes ?_ rfl
        have same : inner.tamed = inner := Option.some.inj begins
        exact congrArg (· :: tamed ({ d with call := some ⟨l, h, next .done⟩ } :: outer)) same.symm
  | _ =>
      refine .goes rfl ?_
      rw [length_tamed]

theorem tames_stepCall (rep : Repertoire σ) (w : Scene σ) (e : Event) (c : Call)
    (ls : List Listener) (outer : Dispatch) :
    Tames (stepCall rep w ⟨e, some c, ls⟩ c outer)
      (stepCall rep.tamed w ⟨e, some c.tamed, ls⟩ c.tamed outer.tamed) := by
  obtain ⟨l, h, script⟩ := c
  cases script with
  | ends outcome => exact tames_ends rep w e l h outcome ls outer
  | acts action next => exact tames_acts rep w _ l h action next outer
  | waits next => exact .stuck

/-- A step of a dispatch is the same for a tamed repertoire, but for log records. -/
theorem tames_step (rep : Repertoire σ) (w : Scene σ) (d : Dispatch) :
    Tames (step rep w d) (step rep.tamed w d.tamed) := by
  cases d with
  | nil => exact .stuck
  | cons d outer =>
      obtain ⟨e, call, remaining⟩ := d
      cases call with
      | some c => exact tames_stepCall rep w e c remaining outer
      | none =>
          cases remaining with
          | nil =>
              refine .goes rfl ?_
              exact congrArg unrecorded (leave_tamed e outer)
          | cons l ls =>
              refine .goes rfl ?_
              change unrecorded [⟨(tamed outer).length, _⟩] = unrecorded [⟨outer.length, _⟩]
              rw [length_tamed]
              rfl

/-- A gate is passed by tamed listeners as by the others. -/
theorem passGate?_tamed (d : Dispatch) :
    passGate? d.tamed = (passGate? d).map fun passed => (passed.1.tamed, passed.2) := by
  cases d with
  | nil => rfl
  | cons d outer =>
      obtain ⟨e, call, remaining⟩ := d
      cases call with
      | none => rfl
      | some c =>
          obtain ⟨l, h, script⟩ := c
          cases script with
          | waits next =>
              change some (_, [(⟨(tamed outer).length, _⟩ : Note)]) = some (_, [⟨outer.length, _⟩])
              rw [length_tamed]
              rfl
          | _ => rfl

end Dispatch

end ReviewHub
