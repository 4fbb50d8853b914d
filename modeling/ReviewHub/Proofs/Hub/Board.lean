import ReviewHub.Proofs.Dispatch.Nesting
import ReviewHub.Proofs.Hub.Frame
import ReviewHub.Proofs.Listen.Settings

/-!
# The switchboard of a hub

A history holds all that was done to the switchboard, by listeners of whatever dispatch and from
outside. Every step changes the switchboard by the actions in what happens and in no other way, so
the switchboard of a hub is what all actions since it was built have made of it. In particular the
ignore list is known by the settings in the history.
-/

namespace ReviewHub

/-! ### Actions in histories -/

/-- What is done to the switchboard, by a listener or from outside: one action at most. -/
def Happening.actions : Happening → List Action
  | .acted a _ => [a]
  | .dispatched _ note => Dispatch.actionsIn [note]
  | _ => []

/-- What has been done to the switchboard, in order. -/
def actedIn (history : List Happening) : List Action := history.flatMap Happening.actions

/-- The settings of the ignore list among the actions. -/
def Action.settings : Action → Settings
  | .ignore p email => [(p, email)]
  | _ => []

/-- The settings of the ignore list that have been made, in order. -/
def settingsIn (history : List Happening) : Settings := (actedIn history).flatMap Action.settings

section Histories

@[simp] theorem actedIn_nil : actedIn [] = [] := rfl

@[simp] theorem actedIn_cons (x : Happening) (rest : List Happening) :
    actedIn (x :: rest) = x.actions ++ actedIn rest := rfl

@[simp] theorem actedIn_append (first second : List Happening) :
    actedIn (first ++ second) = actedIn first ++ actedIn second :=
  List.flatMap_append

@[simp] theorem actedIn_logged (logs : List Log) : actedIn (logs.map .logged) = [] := by
  simp [actedIn, List.flatMap_map, Happening.actions]

@[simp] theorem actedIn_dispatched (source : Source) (notes : List Note) :
    actedIn (notes.map (.dispatched source)) = Dispatch.actionsIn notes := by
  induction notes with
  | nil => rfl
  | cons n notes ih =>
      rw [List.map_cons, actedIn_cons, ih, Happening.actions, ← Dispatch.actionsIn_append]
      rfl

end Histories

/-- The ignore list takes notice of the settings among the actions only. -/
theorem ignored_replay (b : Switchboard) (actions : List Action) :
    (Dispatch.replay b actions).ignored = b.ignored.after (actions.flatMap Action.settings) := by
  induction actions generalizing b with
  | nil => rfl
  | cons a actions ih =>
      have first : (b.act a).2.1.ignored = b.ignored.after a.settings := by cases a <;> rfl
      rw [Dispatch.replay, List.foldl_cons, ← Dispatch.replay, ih, first, List.flatMap_cons,
        IgnoreList.after, IgnoreList.after, IgnoreList.after, List.foldl_append]

namespace Hub

variable {σ : Type}

/-! ### The switchboard of a hub -/

/-- The effect on the switchboard is that of the actions in what happens. -/
def Acts {α : Type} (h : Hub σ) (e : Effect σ α) : Prop :=
  e.hub.scene.board = Dispatch.replay h.scene.board (actedIn e.happened)

theorem Acts.of_same {α : Type} {h : Hub σ} {e : Effect σ α} (same : e.hub.scene = h.scene)
    (none : actedIn e.happened = []) : Acts h e := by
  rw [Acts, same, none]
  rfl

/-- Records of the hub's own are no actions. -/
theorem Acts.logging {α : Type} {h : Hub σ} {e : Effect σ α} (acts : Acts h e) (logs : List Log) :
    Acts h { e with happened := logs.map .logged ++ e.happened } := by
  rw [Acts, actedIn_append, actedIn_logged, List.nil_append]
  exact acts

section Acts

variable (h : Hub σ) (i : Nat)

@[simp] theorem scene_withQueue (q : Queue) : (h.withQueue q).scene = h.scene := by
  rw [withQueue_eq]

@[simp] theorem scene_finishJob (job : Completion) : (h.finishJob i job).scene = h.scene := by
  rw [finishJob]
  split <;> rfl

@[simp] theorem actedIn_settled (work : Envelope) (p : Pushed) : actedIn (settled work p) = [] := by
  cases p <;> rfl

theorem actionsIn_start (b : Switchboard) (depth : Nat) (e : Event) :
    Dispatch.actionsIn (Dispatch.start b depth e).2 = [] := by
  rw [Dispatch.start]
  split <;> rfl

theorem acts_submit (work : Envelope) : Acts h (h.submit work) :=
  .of_same (scene_withQueue ..) (by simp [submit, Happening.actions])

theorem acts_pollSubmission (t : Ticket) : Acts h (h.pollSubmission t) := by
  rw [pollSubmission]
  split
  · exact .of_same rfl rfl
  · exact .of_same (scene_withQueue ..) (actedIn_settled ..)

theorem acts_dropSubmission (t : Ticket) : Acts h (h.dropSubmission t) := by
  rw [dropSubmission]
  split
  · exact .of_same rfl rfl
  · exact .of_same (scene_withQueue ..) (actedIn_logged ..)

theorem acts_tryPull : Acts h h.tryPull := by
  have same : h.tryPull.hub.scene = h.scene := scene_withQueue ..
  refine .of_same same ?_
  rw [tryPull]
  obtain ⟨_ | work, q⟩ := h.queue.tryPull <;> rfl

theorem acts_afterPull (t : Ticket) (work : Option Envelope) (q : Queue) :
    Acts h (h.afterPull i t work q) := by
  cases work <;> exact .of_same (scene_withQueue ..) rfl

theorem acts_lookForWork (name : String) : Acts h (h.lookForWork i name) := by
  rw [lookForWork]
  split
  · exact .of_same rfl rfl
  · exact acts_afterPull { h with next := h.next + 1 } i ..

theorem acts_pollWorker : Acts h (h.pollWorker i) := by
  rw [pollWorker]
  split
  · split
    · exact acts_lookForWork h i _
    · split
      · exact .of_same (scene_withQueue ..) rfl
      · exact acts_afterPull h i ..
    · exact (acts_lookForWork h i _).logging _
    · exact .of_same rfl rfl
  · exact .of_same rfl rfl

theorem acts_openEnvelope (name : String) (work : Envelope) :
    Acts h (h.openEnvelope i name work) := by
  rw [openEnvelope]
  split
  · refine .of_same rfl ?_
    simp [beginDispatch, Happening.actions, actionsIn_start]
  all_goals exact .of_same (scene_finishJob h i _) (by simp [Happening.actions])

theorem acts_advanceJob (rep : Repertoire σ) : Acts h (h.advanceJob rep i) := by
  rw [advanceJob_eq]
  split
  · exact .of_same rfl rfl
  · split
    · exact acts_openEnvelope h i ..
    · exact .of_same (scene_finishJob h i _) rfl
    · split
      · exact .of_same rfl rfl
      · next first =>
          rw [Acts, actedIn_dispatched]
          exact Dispatch.board_of_step first
    · exact .of_same rfl rfl

theorem acts_passGate : Acts h (h.passGate i) := by
  rw [passGate]
  split
  · split
    · next rest notes passed =>
        refine .of_same rfl ?_
        unfold Dispatch.passGate? at passed
        split at passed
        · cases passed
          rfl
        · cases passed
    · exact .of_same rfl rfl
  · exact .of_same rfl rfl

theorem acts_act (a : Action) : Acts h (h.act a) := by
  rw [Acts, act, actedIn_append, actedIn_logged]
  rfl

theorem acts_notify (e : Event) : Acts h (h.notify e) :=
  .of_same rfl (by simp [notify, beginDispatch, Happening.actions, actionsIn_start])

theorem acts_advanceGuest (rep : Repertoire σ) : Acts h (h.advanceGuest rep) := by
  rw [advanceGuest_eq]
  split
  · exact .of_same rfl rfl
  · exact .of_same rfl rfl
  · split
    · exact .of_same rfl rfl
    · next first =>
        rw [Acts, actedIn_dispatched]
        exact Dispatch.board_of_step first

theorem acts_pollShutdown : Acts h h.pollShutdown := by
  obtain ⟨joining, logs, hub, happened, -⟩ := pollShutdown_frame h
  exact .of_same (by rw [hub]) (by rw [happened, actedIn_logged])

theorem acts_shutdown (join : Bool) : Acts h (h.shutdown join) := by
  cases life : h.life with
  | running =>
      obtain ⟨joining, logs, hub, happened, -⟩ := shutdown_frame_of_running life join
      exact .of_same (by rw [hub]; rfl) (by rw [happened, actedIn_logged])
  | shutDown =>
      rw [shutdown_of_shutDown life]
      exact .of_same rfl rfl

theorem acts_setWorkerCount (n : UInt64) : Acts h (h.setWorkerCount n) := by
  rw [setWorkerCount]
  split <;> exact .of_same rfl rfl

end Acts

/-- Whatever happens to a hub, its switchboard is what the actions make of it. -/
theorem acts_step (rep : Repertoire σ) (h : Hub σ) (s : Step) : Acts h (h.step rep s) := by
  cases s with
  | submit work => exact acts_submit h work
  | pollSubmission t => exact acts_pollSubmission h t
  | dropSubmission t => exact acts_dropSubmission h t
  | pollWorker i => exact acts_pollWorker h i
  | advanceJob i => exact acts_advanceJob h i rep
  | passGate i => exact acts_passGate h i
  | act a => exact acts_act h a
  | tryPull => exact acts_tryPull h
  | notify e => exact acts_notify h e
  | advanceGuest => exact acts_advanceGuest h rep
  | shutdown join => exact acts_shutdown h join
  | pollShutdown => exact acts_pollShutdown h
  | dropShutdown => exact .of_same rfl rfl
  | drop => exact .of_same rfl rfl
  | killRuntime => exact .of_same rfl rfl
  | setWorkerCount n => exact acts_setWorkerCount h n

theorem board_run (rep : Repertoire σ) (h : Hub σ) (ss : List Step) :
    (run rep h ss).1.scene.board =
      Dispatch.replay h.scene.board (actedIn (run rep h ss).2) := by
  induction ss generalizing h with
  | nil => rfl
  | cons s ss ih =>
      have first : _ = _ := acts_step rep h s
      rw [hub_run_cons, history_run_cons, ih, first, actedIn_append, Dispatch.replay_append]

/-- The ignore list of a hub is what the settings in its history have made of it. -/
theorem ignored_run {c : Config} {parser : Parser} {memory : σ} {start : Hub σ}
    (built : (build true c parser memory).outcome = .ok start) (rep : Repertoire σ)
    (ss : List Step) :
    (run rep start ss).1.scene.board.ignored =
      IgnoreList.after {} (settingsIn (run rep start ss).2) := by
  rw [board_run, ignored_replay, scene_of_build built]
  rfl

end Hub

end ReviewHub
