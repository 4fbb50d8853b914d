import ReviewHub.Proofs.Dispatch.Progress
import ReviewHub.Proofs.Listen.Batch

/-!
# Reports on listeners

A dispatch reports each listener that fails, once and under the handler that failed. How a call ends
is a matter of what the listener does: `Script.Leads` follows the script that its handler begins
with through the replies that its actions get, and a `Hearing` is the calls of one listener, each
with what the listeners remembered when it began. `Unfolds` is a dispatch that goes on in whatever
scenes, as `Proceeds` is, and lists these memories in addition. The law says what the dispatch has
told by then: the calls that it has made, what these have done, and the records that it has written
itself, word for word. What is told within nested deliveries is left out, and so are the records
that the actions of listeners cause.

Seen from the outermost delivery there remain six steps, `Moves`. For a dispatch that nobody
interferes with, `Hears` gives the hearings from its scenes, by way of its visits.
-/

namespace ReviewHub

/-- The name of the handler for each kind. -/
def Kind.handlerName : Kind → String
  | .changeAbandoned => "on_change_abandoned"
  | .changeMerged => "on_change_merged"
  | .changeRestored => "on_change_restored"
  | .commentAdded => "on_comment_added"
  | .draftPublished => "on_draft_published"
  | .patchsetCreated => "on_patchset_created"
  | .refUpdated => "on_ref_updated"
  | .reviewerAdded => "on_reviewer_added"
  | .topicChanged => "on_topic_changed"
  | .refReplicated => "on_ref_replicated"
  | .refReplicationDone => "on_ref_replication_done"

theorem Handler.name_specific (k : Kind) : (specific k).name = k.handlerName := by
  cases k <;> decide +kernel

/-- The record is of those that an action of a listener causes. -/
def Log.isOfAction : Log → Bool
  | .doublyAdded _ => true
  | _ => false

theorem Switchboard.isOfAction_of_mem_act {log : Log} (b : Switchboard) (a : Action)
    (reported : log ∈ (b.act a).2.2) : log.isOfAction = true := by
  have refused (ls : List Listener) (each : log ∈ (b.roster.addEach ls).logs) :
      log.isOfAction = true := by
    rw [Roster.logs_eq_map_refused] at each
    obtain ⟨l, -, rfl⟩ := List.mem_map.mp each
    rfl
  cases a with
  | add l => exact refused [l] (List.mem_append_left _ reported)
  | addAll ls => exact refused ls (Roster.logs_addEach b.roster ls ▸ reported)
  | remove l =>
      have nothing : (b.roster.remove l).logs = [] := by
        rw [Roster.remove]
        split <;> rfl
      change log ∈ (b.roster.remove l).logs at reported
      rw [nothing] at reported
      cases reported
  | _ => cases reported

/-- The script comes to the other one by actions with the replies given. The deliveries that it
has made and the gates that it passes on the way are left out. -/
inductive Script.Leads : Script → List (Action × Reply) → Script → Prop where
  | refl (s : Script) : Leads s [] s
  | acts {a : Action} {r : Reply} {next : Reply → Script} {acts : List (Action × Reply)}
      {s : Script} (own : Dispatch.isNotify a = false) (rest : Leads (next r) acts s) :
      Leads (.acts a next) ((a, r) :: acts) s
  | notifies {e : Event} {next : Reply → Script} {acts : List (Action × Reply)} {s : Script}
      (rest : Leads (next .done) acts s) : Leads (.acts (.notify e) next) acts s
  | waits {next s : Script} {acts : List (Action × Reply)} (rest : Leads next acts s) :
      Leads (.waits next) acts s

theorem Script.Leads.trans {s t u : Script} {acts more : List (Action × Reply)}
    (first : s.Leads acts t) (second : t.Leads more u) : s.Leads (acts ++ more) u := by
  induction first with
  | refl => exact second
  | acts own _ ih => exact .acts own (ih second)
  | notifies _ ih => exact .notifies (ih second)
  | waits _ ih => exact .waits (ih second)

namespace Dispatch

variable {σ : Type}

/-! ### What is told -/

/-- A call that a dispatch makes, what the call does, or a record that the dispatch writes. -/
inductive Told where
  | entered (listener : Listener) (handler : Handler) (event : Event)
  | acted (listener : Listener) (action : Action) (reply : Reply)
  | wrote (level : Level) (message : String) (fields : List (String × LogValue))

/-- What a note tells of the outermost delivery itself. -/
def told? : Note → Option Told
  | ⟨0, .entered l h e⟩ => some (.entered l h e)
  | ⟨0, .acted l a r⟩ => if isNotify a then none else some (.acted l a r)
  | ⟨0, .logged log⟩ =>
    if log.isOfAction then none else some (.wrote log.level log.message log.fields)
  | _ => none

/-- What the notes tell of the outermost delivery itself, in order. -/
def toldIn (notes : List Note) : List Told := notes.filterMap told?

/-- The beginning of a dispatch. -/
def opening (e : Event) (listeners : Nat) : Told :=
  .wrote .trace "notifying listeners"
    [("event", .text e.display), ("listeners", .count listeners)]

/-- The listener has no handler for the kind of the event. -/
def fallback (e : Event) (l : Listener) : Told :=
  .wrote .debug "No specific handler, calling on_event"
    [("listener", .text l.name), ("kind", .text e.kind.name)]

/-- The record on a call that has ended, if the listener has failed. -/
def complaint (e : Event) (l : Listener) : Handler → Outcome → List Told
  | .specific k, .failed error =>
    [.wrote .error "Error thrown during event handling"
      [("listener", .text l.name), ("event", .text e.display), ("kind", .text e.kind.name),
        ("handler", .text k.handlerName), ("error", .text error.message)]]
  | .generic, .failed error =>
    [.wrote .error "When notifying listener"
      [("listener", .text l.name), ("event", .text e.display), ("kind", .text e.kind.name),
        ("handler", .text "on_event"), ("error", .text error.message)]]
  | _, .panicked (.text s) =>
    [.wrote .error "Listener panicked"
      [("listener", .text l.name), ("event", .text e.display), ("kind", .text e.kind.name),
        ("panic", .text s)]]
  | _, .panicked .other =>
    [.wrote .error "Listener panicked"
      [("listener", .text l.name), ("event", .text e.display), ("kind", .text e.kind.name),
        ("panic", .text "<non-string panic payload>")]]
  | _, .handled => []
  | _, .declined => []

section Told

variable {notes : List Note}

@[simp] theorem toldIn_nil : toldIn [] = [] := rfl

@[simp] theorem toldIn_append (first second : List Note) :
    toldIn (first ++ second) = toldIn first ++ toldIn second :=
  List.filterMap_append

/-- Nothing is told by records that an action causes. -/
theorem toldIn_logNotes_act (b : Switchboard) (a : Action) (depth : Nat) :
    toldIn (logNotes depth (b.act a).2.2) = [] := by
  refine List.filterMap_eq_nil_iff.mpr ?_
  intro n noted
  obtain ⟨log, reported, rfl⟩ := List.mem_map.mp noted
  cases depth with
  | zero => simp [told?, b.isOfAction_of_mem_act a reported]
  | succ depth => rfl

/-- An action of the outermost delivery tells of itself. -/
theorem toldIn_act (b : Switchboard) {a : Action} (own : isNotify a = false) (l : Listener)
    (r : Reply) (notes : List Note) :
    toldIn (logNotes 0 (b.act a).2.2 ++ ⟨0, .acted l a r⟩ :: notes) =
      .acted l a r :: toldIn notes := by
  have itself : told? ⟨0, .acted l a r⟩ = some (.acted l a r) := by simp [told?, own]
  rw [toldIn_append, toldIn_logNotes_act, List.nil_append, toldIn,
    List.filterMap_cons_some itself, toldIn]

/-- What is noted within a nested delivery is not of the outermost one. -/
theorem toldIn_logNotes_succ (depth : Nat) (logs : List Log) :
    toldIn (logNotes (depth + 1) logs) = [] := by
  simp [toldIn, logNotes, told?]

theorem toldIn_deepen (k : Nat) (notes : List Note) : toldIn (deepen (k + 1) notes) = [] := by
  simp [toldIn, deepen, Note.deepen, List.filterMap_map, Function.comp_def, told?]

theorem toldIn_leave (e : Event) (outer : Dispatch) : toldIn (Dispatch.leave e outer) = [] := by
  rcases leave_cases e outer with nothing | ⟨depth, l, noted⟩
  · rw [nothing, toldIn_nil]
  · rw [noted]
    cases depth <;> rfl

theorem toldIn_report (e : Event) (l : Listener) (h : Handler) (s : Script) (o : Outcome) :
    toldIn (logNotes 0 (report ⟨l, h, s⟩ e o)) = complaint e l h o := by
  cases o with
  | handled => cases h <;> rfl
  | declined => cases h <;> rfl
  | failed error =>
      cases h with
      | generic => rfl
      | specific k => rw [complaint, ← Handler.name_specific]; rfl
  | panicked p => cases h <;> cases p <;> rfl

end Told

/-! ### Hearings -/

/-- A call: what the listeners remembered when it began, and its actions, with their replies. -/
structure Track (σ : Type) where
  memory : σ
  acts : List (Action × Reply) := []

namespace Track

/-- The handler of the listener comes by this call to the script. -/
def Leads (rep : Repertoire σ) (l : Listener) (h : Handler) (e : Event) (c : Track σ)
    (s : Script) : Prop :=
  (rep l h e c.memory).1.Leads c.acts s

def told (l : Listener) (c : Track σ) : List Told := c.acts.map fun (a, r) => .acted l a r

/-- The call after more actions. -/
def extend (c : Track σ) (acts : List (Action × Reply)) : Track σ :=
  { c with acts := c.acts ++ acts }

theorem told_extend (l : Listener) (c : Track σ) (acts : List (Action × Reply)) :
    (c.extend acts).told l = c.told l ++ acts.map fun (a, r) => .acted l a r :=
  List.map_append

end Track

/-- How a listener has heard of an event. -/
inductive Hearing (σ : Type) where
  /-- Its specific handler has answered. -/
  | specific (listener : Listener) (call : Track σ) (outcome : Outcome)
      (answered : outcome ≠ .declined)
  /-- Its specific handler has declined, and the generic one has answered. -/
  | generic (listener : Listener) (first call : Track σ) (outcome : Outcome)

namespace Hearing

def listener : Hearing σ → Listener
  | specific l _ _ _ => l
  | generic l _ _ _ => l

/-- The calls have ended as the handlers of the listener end them. -/
def Follows (rep : Repertoire σ) (e : Event) : Hearing σ → Prop
  | specific l c o _ => c.Leads rep l (.specific e.kind) e (.ends o)
  | generic l first c o =>
    first.Leads rep l (.specific e.kind) e (.ends .declined) ∧ c.Leads rep l .generic e (.ends o)

/-- What the listeners remembered when the calls began. -/
def memories : Hearing σ → List σ
  | specific _ c _ _ => [c.memory]
  | generic _ first c _ => [first.memory, c.memory]

/-- What is told of it. -/
def told (e : Event) : Hearing σ → List Told
  | specific l c o _ =>
    .entered l (.specific e.kind) e :: (c.told l ++ complaint e l (.specific e.kind) o)
  | generic l first c o =>
    .entered l (.specific e.kind) e :: (first.told l ++ fallback e l :: .entered l .generic e ::
      (c.told l ++ complaint e l .generic o))

end Hearing

/-! ### Unfolding -/

/-- A dispatch goes on, by steps in whatever scenes and by passing gates, with the notes of what
happens, and with what the listeners remembered at each call of the outermost delivery. -/
inductive Unfolds (rep : Repertoire σ) : Dispatch → List σ → List Note → Dispatch → Prop where
  | refl (ds : Dispatch) : Unfolds rep ds [] [] ds
  | step {w w' : Scene σ} {ds ds₁ ds₂ : Dispatch} {memories : List σ} {notes more : List Note}
      (first : Dispatch.step rep w ds = some (w', ds₁, notes))
      (rest : Unfolds rep ds₁ memories more ds₂) :
      Unfolds rep ds (((entriesIn notes).map fun _ => w.memory) ++ memories) (notes ++ more) ds₂
  | pass {ds ds₁ ds₂ : Dispatch} {memories : List σ} {notes more : List Note}
      (first : passGate? ds = some (ds₁, notes)) (rest : Unfolds rep ds₁ memories more ds₂) :
      Unfolds rep ds memories (notes ++ more) ds₂

/-- However a dispatch goes on, the listeners remember something at each call. -/
theorem Proceeds.exists_unfolds {rep : Repertoire σ} {ds ds' : Dispatch} {notes : List Note}
    (proceeds : Proceeds rep ds notes ds') : ∃ memories, Unfolds rep ds memories notes ds' := by
  induction proceeds with
  | refl ds => exact ⟨[], .refl ds⟩
  | step first _ ih =>
      obtain ⟨memories, rest⟩ := ih
      exact ⟨_, .step first rest⟩
  | pass first _ ih =>
      obtain ⟨memories, rest⟩ := ih
      exact ⟨memories, .pass first rest⟩

/-- What remains of a step if only the outermost delivery is seen: the memories at the call that it
makes, if it makes one, what it tells, and the delivery that it leads to. -/
inductive Moves (rep : Repertoire σ) :
    Delivery → List σ → List Told → Option Delivery → Prop where
  /-- A delivery within the call goes on. -/
  | idles (d : Delivery) : Moves rep d [] [] (some d)
  | leaves (e : Event) : Moves rep ⟨e, none, []⟩ [] [] none
  | turns (e : Event) (l : Listener) (ls : List Listener) (m : σ) :
      Moves rep ⟨e, none, l :: ls⟩ [m] [.entered l (.specific e.kind) e]
        (some ⟨e, some ⟨l, .specific e.kind, (rep l (.specific e.kind) e m).1⟩, ls⟩)
  | goesOn (e : Event) (l : Listener) (h : Handler) {s t : Script} {acts : List (Action × Reply)}
      (ls : List Listener) (leads : s.Leads acts t) :
      Moves rep ⟨e, some ⟨l, h, s⟩, ls⟩ [] (acts.map fun (a, r) => .acted l a r)
        (some ⟨e, some ⟨l, h, t⟩, ls⟩)
  | handsOn (e : Event) (l : Listener) (k : Kind) (ls : List Listener) (m : σ) :
      Moves rep ⟨e, some ⟨l, .specific k, .ends .declined⟩, ls⟩ [m]
        [.wrote .debug "No specific handler, calling on_event"
          [("listener", .text l.name), ("kind", .text k.name)], .entered l .generic e]
        (some ⟨e, some ⟨l, .generic, (rep l .generic e m).1⟩, ls⟩)
  | concludes (e : Event) (l : Listener) (h : Handler) (o : Outcome) (ls : List Listener)
      (last : h = .generic ∨ o ≠ .declined) :
      Moves rep ⟨e, some ⟨l, h, .ends o⟩, ls⟩ [] (complaint e l h o) (some ⟨e, none, ls⟩)

section Steps

variable {rep : Repertoire σ} {w w' : Scene σ} {d : Delivery} {outer ds ds' : Dispatch}
  {notes : List Note}

/-- Within another delivery a step is not seen. -/
theorem Advance.moves_within {f : Delivery} (advance : Advance rep w (f :: outer) d w' ds notes) :
    ds.getLast? = (d :: f :: outer).getLast? ∧ entriesIn notes = [] ∧ toldIn notes = [] := by
  rw [List.getLast?_cons_cons]
  cases advance with
  | leave e => exact ⟨rfl, entriesIn_leave e _, toldIn_leave e _⟩
  | conclude e l h o ls last =>
      exact ⟨List.getLast?_cons_cons, entriesIn_logNotes .., toldIn_logNotes_succ ..⟩
  | act e l h next ls own =>
      refine ⟨List.getLast?_cons_cons, ?_, ?_⟩
      · rw [entriesIn_append, entriesIn_logNotes]
        rfl
      · rw [toldIn_append, toldIn_logNotes_act]
        rfl
  | nest e l h next ls heard =>
      refine ⟨?_, rfl, rfl⟩
      rw [List.getLast?_cons_cons, List.getLast?_cons_cons]
  | _ => exact ⟨List.getLast?_cons_cons, rfl, rfl⟩

theorem Advance.moves_alone (advance : Advance rep w [] d w' ds notes) :
    Moves rep d ((entriesIn notes).map fun _ => w.memory) (toldIn notes) ds.getLast? := by
  cases advance with
  | leave e => exact .leaves e
  | turn e l ls => exact .turns e l ls w.memory
  | handOn e l k ls => exact .handsOn e l k ls w.memory
  | conclude e l h o ls last =>
      rw [entriesIn_logNotes, List.length_nil, toldIn_report]
      exact .concludes e l h o ls last
  | @act e l h a next ls own =>
      rw [List.length_nil, toldIn_act _ own, entriesIn_append, entriesIn_logNotes]
      exact .goesOn e l h ls (.acts own (.refl _))
  | skip e l h next ls ignored => exact .goesOn e l h ls (.notifies (.refl _))
  | nest e l h next ls heard => exact .goesOn e l h ls (.notifies (.refl _))

/-- A step of a dispatch, as the outermost delivery sees it. -/
theorem moves_of_step (here : ds.getLast? = some d)
    (first : step rep w ds = some (w', ds', notes)) :
    Moves rep d ((entriesIn notes).map fun _ => w.memory) (toldIn notes) ds'.getLast? := by
  match ds with
  | [] => cases first
  | [_] =>
      obtain rfl := Option.some.inj here
      exact (advance_of_step first).moves_alone
  | _ :: _ :: _ =>
      obtain ⟨same, uncalled, nothing⟩ := (advance_of_step first).moves_within
      rw [same, here, uncalled, nothing]
      exact .idles d

/-- And so is the passing of a gate. -/
theorem moves_of_passGate? (here : ds.getLast? = some d)
    (first : passGate? ds = some (ds', notes)) : Moves rep d [] (toldIn notes) ds'.getLast? := by
  unfold passGate? at first
  split at first
  · next e l h next ls outer =>
      cases first
      cases outer with
      | nil =>
          obtain rfl := Option.some.inj here
          exact .goesOn e l h ls (.waits (.refl next))
      | cons f outer =>
          rw [List.getLast?_cons_cons] at here ⊢
          rw [here]
          exact .idles d
  · cases first

end Steps

/-! ### Accounts -/

/-- What remains of a delivery of the event, and how the script of the call that is running has come
about: the listeners that have not been heard in full, and, of the one whose turn it is, what the
listeners remembered when its calls began and what has been told. -/
inductive Remains (rep : Repertoire σ) (e : Event) :
    Option Delivery → List Listener → List σ → List Told → Prop where
  | over : Remains rep e none [] [] []
  | between (ls : List Listener) : Remains rep e (some ⟨e, none, ls⟩) ls [] []
  | specific {l : Listener} {c : Track σ} {s : Script} (ls : List Listener)
      (leads : c.Leads rep l (.specific e.kind) e s) :
      Remains rep e (some ⟨e, some ⟨l, .specific e.kind, s⟩, ls⟩) (l :: ls) [c.memory]
        (.entered l (.specific e.kind) e :: c.told l)
  | generic {l : Listener} {first c : Track σ} {s : Script} (ls : List Listener)
      (declined : first.Leads rep l (.specific e.kind) e (.ends .declined))
      (leads : c.Leads rep l .generic e s) :
      Remains rep e (some ⟨e, some ⟨l, .generic, s⟩, ls⟩) (l :: ls) [first.memory, c.memory]
        (.entered l (.specific e.kind) e ::
          (first.told l ++ fallback e l :: .entered l .generic e :: c.told l))

/-- The memories and what has been told are those of the hearings of some listeners, in the order of
all, and of the one whose turn it is. -/
def Accounts (rep : Repertoire σ) (e : Event) (all : List Listener) (memories : List σ)
    (told : List Told) (d : Option Delivery) : Prop :=
  ∃ (hearings : List (Hearing σ)) (awaited : List Listener) (begun : List σ) (partly : List Told),
    (∀ hearing ∈ hearings, hearing.Follows rep e) ∧ Remains rep e d awaited begun partly ∧
      hearings.map Hearing.listener ++ awaited = all ∧
      memories = hearings.flatMap Hearing.memories ++ begun ∧
      told = hearings.flatMap (Hearing.told e) ++ partly

section Runs

variable {rep : Repertoire σ} {e : Event} {all : List Listener} {memories new : List σ}
  {told more : List Told} {d : Delivery} {d' : Option Delivery} {ds ds' : Dispatch}
  {notes : List Note}

/-- The account with one listener more that has been heard. -/
theorem Accounts.conclude {ls : List Listener} {l : Listener} {begun : List σ}
    {partly : List Told} {hearings : List (Hearing σ)} (hearing : Hearing σ)
    (follow : ∀ hearing ∈ hearings, hearing.Follows rep e) (follows : hearing.Follows rep e)
    (own : hearing.listener = l) (listeners : hearings.map Hearing.listener ++ l :: ls = all)
    (calls : hearing.memories = begun) (tells : hearing.told e = partly ++ more) :
    Accounts rep e all (hearings.flatMap Hearing.memories ++ begun)
      (hearings.flatMap (Hearing.told e) ++ partly ++ more) (some ⟨e, none, ls⟩) := by
  refine ⟨hearings ++ [hearing], ls, [], [], ?_, .between ls, ?_, ?_, ?_⟩
  · intro other mem
    rcases List.mem_append.mp mem with before | last
    · exact follow other before
    · rw [List.mem_singleton.mp last]
      exact follows
  · simp [own, ← listeners]
  · simp [calls]
  · simp [tells]

/-- A move adds to the account the call that it makes and what it tells. -/
theorem Accounts.move (accounts : Accounts rep e all memories told (some d))
    (moves : Moves rep d new more d') : Accounts rep e all (memories ++ new) (told ++ more) d' := by
  obtain ⟨hearings, awaited, begun, partly, follow, remains, listeners, rfl, rfl⟩ := accounts
  -- Unless a listener has now been heard in full, only what remains is another.
  have instead {begun' : List σ} {partly' : List Told}
      (left : Remains rep e d' awaited begun' partly') (calls : begun' = begun ++ new)
      (tells : partly' = partly ++ more) :
      Accounts rep e all (hearings.flatMap Hearing.memories ++ begun ++ new)
        (hearings.flatMap (Hearing.told e) ++ partly ++ more) d' :=
    ⟨hearings, awaited, begun', partly', follow, left, listeners, by rw [calls, List.append_assoc],
      by rw [tells, List.append_assoc]⟩
  cases moves with
  | idles => exact instead remains (List.append_nil _).symm (List.append_nil _).symm
  | leaves f =>
      cases remains
      exact instead .over rfl rfl
  | turns f l ls m =>
      cases remains
      exact instead (.specific (c := ⟨m, []⟩) ls (.refl _)) rfl rfl
  | @goesOn f l h s t acts ls leads =>
      cases remains with
      | @specific _ c _ _ before =>
          refine instead (.specific (c := c.extend acts) ls (before.trans leads)) rfl ?_
          rw [Track.told_extend, List.cons_append]
      | @generic _ first c _ _ declined before =>
          refine instead (.generic (c := c.extend acts) ls declined (before.trans leads)) rfl ?_
          simp [Track.told_extend]
  | handsOn f l k ls m =>
      cases remains with
      | @specific _ c _ _ declined =>
          refine instead (.generic (c := ⟨m, []⟩) ls declined (.refl _)) rfl ?_
          simp [Track.told, fallback]
  | concludes f l h o ls last =>
      rw [List.append_nil]
      cases remains with
      | @specific _ c _ _ leads =>
          exact .conclude (.specific l c o (last.resolve_left nofun)) follow leads rfl listeners
            rfl rfl
      | @generic _ first c _ _ declined leads =>
          refine .conclude (.generic l first c o) follow ⟨declined, leads⟩ rfl listeners rfl ?_
          simp [Hearing.told]

/-- The account stays right as long as the dispatch goes on. -/
theorem Unfolds.accounts (unfolds : Unfolds rep ds new notes ds')
    (accounts : Accounts rep e all memories told ds.getLast?) :
    Accounts rep e all (memories ++ new) (told ++ toldIn notes) ds'.getLast? := by
  induction unfolds generalizing memories told with
  | refl => simpa using accounts
  | @step _ _ ds _ _ _ _ _ first _ ih =>
      cases ds with
      | nil => cases first
      | cons d outer =>
          rw [List.getLast?_cons] at accounts
          have later := ih (accounts.move (moves_of_step List.getLast?_cons first))
          simpa using later
  | @pass ds _ _ _ _ _ first _ ih =>
      cases ds with
      | nil => cases first
      | cons d outer =>
          rw [List.getLast?_cons] at accounts
          have later := ih (accounts.move (moves_of_passGate? List.getLast?_cons first))
          simpa using later

end Runs

/-! ### Dispatches by themselves -/

/-- The actions of the outermost delivery, with their replies. -/
def actsIn (notes : List Note) : List (Action × Reply) :=
  (toldIn notes).filterMap fun
    | .acted _ a r => some (a, r)
    | _ => none

/-- The listeners hear of the event one after the other, each in the scene that the one before it
has left. -/
inductive Hears (rep : Repertoire σ) (e : Event) :
    Scene σ → List Listener → List (Hearing σ) → Scene σ → Prop where
  | nil (w : Scene σ) : Hears rep e w [] [] w
  | specific {w w₁ w' : Scene σ} {l : Listener} {ls : List Listener} {notes : List Note}
      {o : Outcome} {hearings : List (Hearing σ)} (answered : o ≠ .declined)
      (calls : Calls rep l (.specific e.kind) e w notes o w₁)
      (others : Hears rep e w₁ ls hearings w') :
      Hears rep e w (l :: ls) (.specific l ⟨w.memory, actsIn notes⟩ o answered :: hearings) w'
  | generic {w w₁ w₂ w' : Scene σ} {l : Listener} {ls : List Listener} {first notes : List Note}
      {o : Outcome} {hearings : List (Hearing σ)}
      (declined : Calls rep l (.specific e.kind) e w first .declined w₁)
      (calls : Calls rep l .generic e w₁ notes o w₂) (others : Hears rep e w₂ ls hearings w') :
      Hears rep e w (l :: ls)
        (.generic l ⟨w.memory, actsIn first⟩ ⟨w₁.memory, actsIn notes⟩ o :: hearings) w'

section Alone

variable {rep : Repertoire σ} {w w' : Scene σ} {e : Event} {l : Listener} {ls : List Listener}
  {s : Script} {o : Outcome} {notes : List Note} {hearings : List (Hearing σ)}

/-- A call that plays to its end tells of its actions, and of nothing else. -/
theorem Plays.toldIn_eq (plays : Plays rep l w s notes o w') :
    toldIn notes = (actsIn notes).map fun (a, r) => .acted l a r := by
  induction plays with
  | ends => rfl
  | acts own rest ih => rw [actsIn, toldIn_act _ own, ih]; simp
  | @notifies _ _ _ e _ nested notes _ _ rest ih =>
      have skipped : toldIn (⟨0, .acted l (.notify e) .done⟩ :: notes) = toldIn notes := rfl
      rw [actsIn, toldIn_append, toldIn_deepen 0, List.nil_append, skipped, ← actsIn, ih]

/-- Visits are hearings, and they tell what the hearings do. -/
theorem Visits.exists_hears (visits : Visits rep e w ls notes w') :
    ∃ hearings, Hears rep e w ls hearings w' ∧
      toldIn notes = hearings.flatMap (Hearing.told e) := by
  induction visits with
  | nil w => exact ⟨[], .nil w, rfl⟩
  | @cons w w₁ w₂ w' l ls o notes follow rest specific concludes _ ih =>
      obtain ⟨hearings, others, telling⟩ := ih
      have entered (more : List Note) :
          toldIn (⟨0, .entered l (.specific e.kind) e⟩ :: more) =
            .entered l (.specific e.kind) e :: toldIn more := rfl
      cases concludes with
      | reports last =>
          refine ⟨_, .specific (last.resolve_left nofun) specific others, ?_⟩
          rw [entered, toldIn_append, toldIn_append, toldIn_report, specific.toldIn_eq, telling]
          rfl
      | @handsOn k _ _ notes o generic =>
          refine ⟨_, .generic specific generic others, ?_⟩
          have handed (more : List Note) :
              toldIn (⟨0, .logged (.noSpecificHandler l e.kind)⟩ :: ⟨0, .entered l .generic e⟩ ::
                more) = fallback e l :: .entered l .generic e :: toldIn more := rfl
          rw [entered, toldIn_append, toldIn_append, handed, toldIn_append, toldIn_report,
            specific.toldIn_eq, generic.toldIn_eq, telling]
          simp [Hearing.told, Track.told]

end Alone

/-! ### The law -/

/-- What a dispatch tells of itself, whoever is registered and whatever the listeners do. It begins
with a trace record. Then, listener by listener in the order in which they were registered when it
began, it calls the specific handler; if that one declines, it writes a debug record and calls the
generic handler; and it writes an error record if the last of these calls has failed or panicked,
and none otherwise. The record names the listener, the event and its kind, and the handler that
returned the error or the text of the panic. How a call ends is what the script of the handler comes
to by the replies that its actions are told to have got. At every moment of the dispatch this is so
for the listeners that have been heard and in part for the one whose turn it is, whatever others do
to the scene meanwhile, and when the dispatch is over it has been told of all of them. If nobody
interferes, each listener is heard in the scene that the one before it has left. -/
theorem failures_reported (rep : Repertoire σ) (w : Scene σ) (e : Event)
    (heard : w.board.ignored.ignores e = false) :
    let all := w.board.roster.listeners
    let begun := start w.board 0 e
    (∀ memories notes ds, Unfolds rep begun.1.toList memories notes ds →
      ∃ told, toldIn (begun.2 ++ notes) = opening e all.length :: told ∧
        Accounts rep e all memories told ds.getLast?) ∧
    (∀ memories notes, Unfolds rep begun.1.toList memories notes [] →
      ∃ hearings : List (Hearing σ), hearings.map Hearing.listener = all ∧
        (∀ hearing ∈ hearings, hearing.Follows rep e) ∧
        memories = hearings.flatMap Hearing.memories ∧
        toldIn (begun.2 ++ notes) = opening e all.length :: hearings.flatMap (Hearing.told e)) ∧
    (∀ notes ds, Proceeds rep begun.1.toList notes ds →
      ∃ memories, Unfolds rep begun.1.toList memories notes ds) ∧
    ∀ notes w', Returns rep w e notes w' →
      ∃ hearings, Hears rep e w all hearings w' ∧
        toldIn notes = opening e all.length :: hearings.flatMap (Hearing.told e) := by
  intro all begun
  have begins : begun = (some ⟨e, none, all⟩, [⟨0, .logged (.notifying e all.length)⟩]) :=
    start_of_not_ignored heard 0
  have always {memories : List σ} {notes : List Note} {ds : Dispatch}
      (unfolds : Unfolds rep begun.1.toList memories notes ds) :
      toldIn (begun.2 ++ notes) = opening e all.length :: toldIn notes ∧
        Accounts rep e all memories (toldIn notes) ds.getLast? := by
    rw [begins] at unfolds ⊢
    have first : Accounts rep e all [] [] [(⟨e, none, all⟩ : Delivery)].getLast? :=
      ⟨[], all, [], [], List.forall_mem_nil _, .between all, rfl, rfl, rfl⟩
    exact ⟨rfl, unfolds.accounts first⟩
  refine ⟨?moment, ?completed, fun _ _ => Proceeds.exists_unfolds, ?returns⟩
  case moment =>
    intro memories notes ds unfolds
    exact ⟨_, always unfolds⟩
  case completed =>
    intro memories notes unfolds
    obtain ⟨opens, hearings, awaited, _, _, follow, remains, listeners, calls, tells⟩ :=
      always unfolds
    cases remains
    rw [List.append_nil] at listeners calls tells
    exact ⟨hearings, listeners, follow, calls, by rw [opens, tells]⟩
  case returns =>
    intro notes w' returns
    obtain ⟨visits, rfl, all⟩ := (returns_iff_visits heard).mp returns
    obtain ⟨hearings, hears, telling⟩ := all.exists_hears
    exact ⟨hearings, hears, congrArg (_ :: ·) telling⟩

/-! ### Listeners of all sorts

The first listener returns an error. The second one, which has no handler for updates, has a merge
delivered and adds itself again before it panics; the merge lets the first one fail again, and that
is reported within. The third listener succeeds. -/

namespace Mixed

def failing : Listener := ⟨1, "failing"⟩

def panicking : Listener := ⟨2, "panicking"⟩

def succeeding : Listener := ⟨3, "succeeding"⟩

def update : Event := { detail := .refUpdated {} }

def merge : Event := { detail := .changeMerged {} }

def repertoire : Repertoire Unit := fun l h e memory =>
  let script : Script :=
    if l = failing then .ends (.failed (.external "refused"))
    else if l = succeeding ∨ e = merge then .ends .handled
    else match h with
      | .specific _ => .ends .declined
      | .generic => .acts (.notify merge) fun _ => .acts (.add panicking) fun _ =>
          .ends (.panicked (.text "listener bug"))
  (script, memory)

def scene : Scene Unit := ⟨{ roster := ⟨[failing, panicking, succeeding]⟩ }, ()⟩

end Mixed

theorem failures_reported_mixed :
    let final := notify Mixed.repertoire 20 Mixed.scene Mixed.update
    let errors := (toldIn final.2.2).filterMap fun
      | .wrote .error message _ => some message
      | _ => none
    Mixed.scene.board.ignored.ignores Mixed.update = false ∧
      (∃ hearings : List (Hearing Unit), Hears Mixed.repertoire Mixed.update Mixed.scene
          [Mixed.failing, Mixed.panicking, Mixed.succeeding] hearings final.1 ∧
        toldIn final.2.2 = opening Mixed.update 3 :: hearings.flatMap (Hearing.told Mixed.update)) ∧
      errors = ["Error thrown during event handling", "Listener panicked"] := by
  intro final errors
  have heard : Mixed.scene.board.ignored.ignores Mixed.update = false := rfl
  have returned : Returns Mixed.repertoire Mixed.scene Mixed.update final.2.2 final.1 := ⟨20, rfl⟩
  obtain ⟨-, -, -, returns⟩ := failures_reported Mixed.repertoire Mixed.scene Mixed.update heard
  exact ⟨heard, returns _ _ returned, rfl⟩

end Dispatch

end ReviewHub
