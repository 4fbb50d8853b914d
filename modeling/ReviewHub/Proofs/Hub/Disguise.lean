import ReviewHub.Proofs.Hub.Frame
import ReviewHub.Proofs.Queue.Exchange

/-!
# Hubs in disguise

A hub seldom looks at what it works with. It opens an envelope only to have it parsed, and a
delivery only to have it go on. So if other envelopes, other deliveries and another parser are put
in the place of those at a hub, it goes through the same motions, as long as these two points are in
order. A view says what is compared of the happenings of the two. Each step of the hub is followed
by the same step of the hub in disguise, and so is each run.
-/

namespace ReviewHub

/-- What is put in the place of what is at a hub. -/
structure Disguise where
  work : Envelope → Envelope
  delivery : Delivery → Delivery
  parser : Parser → Parser

namespace Disguise

variable {σ : Type} (m : Disguise)

def dispatch (d : Dispatch) : Dispatch := d.map m.delivery

def phase : Phase → Phase
  | .holding work => .holding (m.work work)
  | .dispatching work d => .dispatching (m.work work) (m.dispatch d)
  | p => p

def worker (w : Worker) : Worker := { w with phase := m.phase w.phase }

/-- The hub in disguise. -/
def hub (h : Hub σ) : Hub σ :=
  { h with
    parser := m.parser h.parser
    queue := h.queue.map m.work
    workers := h.workers.map m.worker
    guests := h.guests.map m.dispatch }

@[simp] theorem parser_hub (h : Hub σ) : (m.hub h).parser = m.parser h.parser := rfl

@[simp] theorem queue_hub (h : Hub σ) : (m.hub h).queue = h.queue.map m.work := rfl

@[simp] theorem workers_hub (h : Hub σ) : (m.hub h).workers = h.workers.map m.worker := rfl

@[simp] theorem guests_hub (h : Hub σ) : (m.hub h).guests = h.guests.map m.dispatch := rfl

@[simp] theorem scene_hub (h : Hub σ) : (m.hub h).scene = h.scene := rfl

@[simp] theorem life_hub (h : Hub σ) : (m.hub h).life = h.life := rfl

@[simp] theorem stopping_hub (h : Hub σ) : (m.hub h).stopping = h.stopping := rfl

@[simp] theorem alive_hub (h : Hub σ) : (m.hub h).alive = h.alive := rfl

@[simp] theorem joining_hub (h : Hub σ) : (m.hub h).joining = h.joining := rfl

@[simp] theorem next_hub (h : Hub σ) : (m.hub h).next = h.next := rfl

def step : Hub.Step → Hub.Step
  | .submit work => .submit (m.work work)
  | s => s

def answer : Hub.Answer → Hub.Answer
  | .taken work => .taken (work.map m.work)
  | a => a

/-- The record with the other envelope in it. -/
def log : Log → Log
  | .enqueuing work => .enqueuing (m.work work)
  | .abandoned work => .abandoned (m.work work)
  | .notEnqueued work error => .notEnqueued (m.work work) error
  | .performing worker work => .performing worker (m.work work)
  | .nothingToDispatch worker work => .nothingToDispatch worker (m.work work)
  | .unparseable worker work error => .unparseable worker (m.work work) error
  | .parserPanicked worker work => .parserPanicked worker (m.work work)
  | log => log

def happening : Happening → Happening
  | .logged log => .logged (m.log log)
  | .accepted work => .accepted (m.work work)
  | .taken source work => .taken source (m.work work)
  | x => x

end Disguise

namespace Hub

variable {σ β : Type}

/-- The effect on the hub in disguise follows that on the hub, with the answer seen through `g`. The
view makes no difference between what happens. -/
structure Follows {α : Type} (m : Disguise) (view : Happening → Option β) (g : α → α)
    (e f : Effect σ α) : Prop where
  hub : f.hub = m.hub e.hub
  answer : f.answer = g e.answer
  same : f.happened.filterMap view = e.happened.filterMap view

/-- A dispatch and the one in disguise take the same step, or none. -/
def Paced (m : Disguise) (view : Happening → Option β) :
    Option (Scene σ × Dispatch × List Note) → Option (Scene σ × Dispatch × List Note) → Prop
  | none, none => True
  | some (w, d, notes), some (v, e, told) => v = w ∧ e = m.dispatch d ∧
    ∀ source, (told.map (.dispatched source)).filterMap view =
      (notes.map (.dispatched source)).filterMap view
  | _, _ => False

/-- The disguise holds wherever something is looked at, as far as the view shows. -/
structure Holds (m : Disguise) (view : Happening → Option β) (rep other : Repertoire σ)
    (parser : Parser) : Prop where
  overlooks : ∀ x, view (m.happening x) = view x
  submits : ∀ item, view (.logged (submissionLog item)) = none
  begins : ∀ e ls, m.delivery ⟨e, none, ls⟩ = ⟨e, none, ls⟩
  passes : ∀ d, Dispatch.passGate? (m.dispatch d) =
    (Dispatch.passGate? d).map fun passed => (m.dispatch passed.1, passed.2)
  steps : ∀ w d, Paced m view (Dispatch.step rep w d) (Dispatch.step other w (m.dispatch d))
  opens : ∀ (h : Hub σ) i name work, h.parser = parser →
    Follows m view id (h.openEnvelope i name work)
      ((m.hub h).openEnvelope i name (m.work work))

theorem Paced.cases {m : Disguise} {view : Happening → Option β}
    {one two : Option (Scene σ × Dispatch × List Note)} (paced : Paced m view one two) :
    (one = none ∧ two = none) ∨
      ∃ w d notes told, one = some (w, d, notes) ∧ two = some (w, m.dispatch d, told) ∧
        ∀ source, (told.map (.dispatched source)).filterMap view =
          (notes.map (.dispatched source)).filterMap view := by
  cases one with
  | none =>
      cases two with
      | none => exact .inl ⟨rfl, rfl⟩
      | some there => exact paced.elim
  | some here =>
      cases two with
      | none => exact paced.elim
      | some there =>
          obtain ⟨w, d, notes⟩ := here
          obtain ⟨v, e, told⟩ := there
          obtain ⟨rfl, rfl, same⟩ := paced
          exact .inr ⟨_, d, notes, told, rfl, rfl, same⟩

/-! ### Changing a part -/

section Parts

variable (m : Disguise) (h : Hub σ) (i : Nat)

theorem worker?_disguised : (m.hub h).workers[i]? = h.workers[i]?.map m.worker :=
  List.getElem?_map

theorem wake_disguised {p : Worker → Bool} (same : ∀ w, p (m.worker w) = p w) :
    (m.hub h).wake p = m.hub (h.wake p) := by
  have each (w : Worker) :
      (if p (m.worker w) then { m.worker w with awake := true } else m.worker w) =
        m.worker (if p w then { w with awake := true } else w) := by
    rw [same]
    split <;> rfl
  simp only [wake, Disguise.hub, List.map_map]
  congr 1
  exact List.map_congr_left fun w _ => each w

theorem withQueue_disguised (q : Queue) :
    (m.hub h).withQueue (q.map m.work) = m.hub (h.withQueue q) := by
  have same (t : Ticket) (w : Worker) : isPulling t (m.worker w) = isPulling t w := by
    obtain ⟨name, phase, awake⟩ := w
    cases phase <;> rfl
  rw [withQueue, withQueue, Disguise.queue_hub, Queue.signalled?_map]
  split
  · exact wake_disguised m { h with queue := q } (same _)
  · rfl

theorem withPhase_disguised (phase : Phase) (awake : Bool) :
    (m.hub h).withPhase i (m.phase phase) awake = m.hub (h.withPhase i phase awake) := by
  simp only [withPhase, Disguise.hub]
  congr 1
  refine List.ext_getElem? ?_
  intro j
  simp only [List.getElem?_modify, List.getElem?_map]
  cases h.workers[j]? with
  | none => rfl
  | some w => by_cases here : i = j <;> simp [here, Disguise.worker]

theorem withStop_disguised : (m.hub h).withStop = m.hub h.withStop :=
  wake_disguised m { h with stopping := true } fun _ => rfl

theorem finishJob_disguised (job : Completion) :
    (m.hub h).finishJob i job = m.hub (h.finishJob i job) := by
  rw [finishJob, finishJob, Disguise.alive_hub]
  split
  · exact withPhase_disguised m h i (.finished job) true
  · exact withPhase_disguised m h i .cutOff false

end Parts

/-! ### Effects -/

section Effects

variable {m : Disguise} {view : Happening → Option β} {α : Type} {g : α → α} {e f : Effect σ α}

theorem Follows.answering (follows : Follows m view g e f) (k : α → Answer)
    (through : ∀ a, k (g a) = m.answer (k a)) :
    Follows m view m.answer (e.answering k) (f.answering k) :=
  ⟨follows.hub, (congrArg k follows.answer).trans (through e.answer), follows.same⟩

theorem filterMap_disguised (overlooks : ∀ x, view (m.happening x) = view x)
    (history : List Happening) :
    (history.map m.happening).filterMap view = history.filterMap view := by
  rw [List.filterMap_map]
  exact List.filterMap_congr fun x _ => overlooks x

theorem Follows.preceded (follows : Follows m view g e f) (happened : List Happening) :
    Follows m view g { e with happened := happened ++ e.happened }
      { f with happened := happened ++ f.happened } := by
  refine ⟨follows.hub, follows.answer, ?_⟩
  rw [List.filterMap_append, List.filterMap_append, follows.same]

/-- The same happens to the two hubs. -/
theorem follows_of_hub {h d : Hub σ} (hub : d = m.hub h) (answer : α)
    (happened : List Happening) :
    Follows m view id { answer := answer, hub := h, happened := happened }
      { answer := answer, hub := d, happened := happened } :=
  ⟨hub, rfl, rfl⟩

/-- The same happens to the two hubs with the envelopes that they have. -/
theorem follows_of_overlooks (overlooks : ∀ x, view (m.happening x) = view x) {h d : Hub σ}
    (hub : d = m.hub h) (answer : α) {happened told : List Happening}
    (same : told = happened.map m.happening) :
    Follows m view id { answer := answer, hub := h, happened := happened }
      { answer := answer, hub := d, happened := told } := by
  refine ⟨hub, rfl, ?_⟩
  rw [same, filterMap_disguised overlooks]

theorem settled_disguised (m : Disguise) (work : Envelope) (p : Pushed) :
    settled (m.work work) p = (settled work p).map m.happening := by
  cases p <;> rfl

end Effects

/-! ### Opening envelopes -/

section Opening

variable {m : Disguise} {view : Happening → Option β} (h : Hub σ) (i : Nat)
  {before told : List Happening}

/-- A dispatch that begins has not called anybody yet. -/
theorem beginDispatch_disguised (begins : ∀ e ls, m.delivery ⟨e, none, ls⟩ = ⟨e, none, ls⟩)
    (source : Source) (e : Event) :
    m.dispatch (h.beginDispatch source e).1 = (h.beginDispatch source e).1 := by
  have begun : (h.beginDispatch source e).1 = (Dispatch.start h.scene.board 0 e).1.toList := rfl
  rw [begun, Dispatch.start]
  split
  · rfl
  · exact congrArg (fun d => [d]) (begins e _)

/-- The worker has found an event in its envelope. -/
theorem follows_begun (begins : ∀ e ls, m.delivery ⟨e, none, ls⟩ = ⟨e, none, ls⟩)
    (traced : told.filterMap view = before.filterMap view) (work : Envelope) (e : Event) :
    Follows m view id
      { answer := ()
        hub := h.withPhase i (.dispatching work (h.beginDispatch (.worker i) e).1) false
        happened := before ++ (h.beginDispatch (.worker i) e).2 }
      { answer := ()
        hub := (m.hub h).withPhase i
          (.dispatching (m.work work) ((m.hub h).beginDispatch (.worker i) e).1) false
        happened := told ++ ((m.hub h).beginDispatch (.worker i) e).2 } := by
  have same : (m.hub h).beginDispatch (.worker i) e = h.beginDispatch (.worker i) e := rfl
  have begun := withPhase_disguised m h i
    (.dispatching work (h.beginDispatch (.worker i) e).1) false
  rw [Disguise.phase, beginDispatch_disguised h begins] at begun
  refine ⟨begun, rfl, ?_⟩
  rw [same, List.filterMap_append, List.filterMap_append, traced]

/-- The worker has found none. -/
theorem follows_concluded (job : Completion)
    (traced : told.filterMap view = before.filterMap view) {x y : Happening}
    (last : view y = view x) :
    Follows m view id
      { answer := (), hub := h.finishJob i job, happened := before ++ [x] : Effect σ Unit }
      { answer := (), hub := (m.hub h).finishJob i job, happened := told ++ [y] } := by
  refine ⟨finishJob_disguised m h i job, rfl, ?_⟩
  rw [List.filterMap_append, List.filterMap_append, traced, List.filterMap_cons,
    List.filterMap_cons, last]

end Opening

/-! ### Operations -/

theorem follows_endWorker (m : Disguise) (view : Happening → Option β) (h : Hub σ) (i : Nat)
    (name : String) : Follows m view id (h.endWorker i name) ((m.hub h).endWorker i name) :=
  follows_of_hub (withPhase_disguised m h i .stopped false) _ _

section Operations

variable {m : Disguise} {view : Happening → Option β} {rep other : Repertoire σ} {parser : Parser}
  (holds : Holds m view rep other parser) (h : Hub σ) (i : Nat)

include holds

theorem follows_submit (work : Envelope) :
    Follows m view id (h.submit work) ((m.hub h).submit (m.work work)) := by
  rw [submit, submit, Disguise.queue_hub, Disguise.next_hub, Disguise.stopping_hub,
    Queue.push_map]
  generalize h.queue.push h.next work h.stopping = pushed
  obtain ⟨p, q, logs⟩ := pushed
  refine ⟨?_, rfl, ?_⟩
  · exact congrArg (fun g : Hub σ => { g with next := h.next + 1 }) (withQueue_disguised m h q)
  · have enqueuing : view (.logged (.enqueuing (m.work work))) =
        view (.logged (.enqueuing work)) := holds.overlooks (.logged (.enqueuing work))
    have settled : (settled (m.work work) p).filterMap view = (settled work p).filterMap view := by
      rw [settled_disguised, filterMap_disguised holds.overlooks]
    simp only [List.map_cons, List.cons_append, List.filterMap_cons, holds.submits, enqueuing,
      List.filterMap_append, settled]

theorem follows_pollSubmission (t : Ticket) :
    Follows m view id (h.pollSubmission t) ((m.hub h).pollSubmission t) := by
  rw [pollSubmission, pollSubmission, Disguise.queue_hub, Disguise.stopping_hub,
    Queue.waiter?_map]
  cases h.queue.waiter? t with
  | none => exact follows_of_hub rfl _ _
  | some w =>
      simp only [Option.map_some, Queue.pollPush_map]
      exact follows_of_overlooks holds.overlooks (withQueue_disguised m h _) _
        (settled_disguised m w.work _)

theorem follows_dropSubmission (t : Ticket) :
    Follows m view id (h.dropSubmission t) ((m.hub h).dropSubmission t) := by
  rw [dropSubmission, dropSubmission, Disguise.queue_hub, Queue.waiter?_map]
  cases h.queue.waiter? t with
  | none => exact follows_of_hub rfl _ _
  | some w =>
      simp only [Option.map_some, Queue.dropPush_map]
      exact follows_of_overlooks holds.overlooks (withQueue_disguised m h _) _ rfl

theorem follows_tryPull : Follows m view (Option.map m.work) h.tryPull (m.hub h).tryPull := by
  rw [tryPull, tryPull, Disguise.queue_hub, Queue.tryPull_map]
  generalize h.queue.tryPull = pulled
  obtain ⟨work, q⟩ := pulled
  refine ⟨withQueue_disguised m h q, rfl, ?_⟩
  cases work with
  | none => rfl
  | some work => exact filterMap_disguised holds.overlooks [.taken .guest work]

theorem follows_afterPull (t : Ticket) (work : Option Envelope) (q : Queue) :
    Follows m view id (h.afterPull i t work q)
      ((m.hub h).afterPull i t (work.map m.work) (q.map m.work)) := by
  cases work with
  | none =>
      refine follows_of_hub ?_ _ _
      exact (congrArg (·.withPhase i (.pulling t) false) (withQueue_disguised m h q)).trans
        (withPhase_disguised m _ i (.pulling t) false)
  | some work =>
      refine follows_of_overlooks holds.overlooks ?_ _ rfl
      exact (congrArg (·.withPhase i (.holding (m.work work)) false)
        (withQueue_disguised m h q)).trans (withPhase_disguised m _ i (.holding work) false)

theorem follows_lookForWork (name : String) :
    Follows m view id (h.lookForWork i name) ((m.hub h).lookForWork i name) := by
  rw [lookForWork, lookForWork, Disguise.stopping_hub, Disguise.queue_hub, Disguise.next_hub,
    Queue.pull_map]
  split
  · exact follows_endWorker m view h i name
  · exact follows_afterPull holds { h with next := h.next + 1 } i ..

theorem follows_pollWorker :
    Follows m view id (h.pollWorker i) ((m.hub h).pollWorker i) := by
  have stopping : (m.hub h).stopping = h.stopping := m.stopping_hub h
  rw [pollWorker, pollWorker, Disguise.alive_hub, worker?_disguised]
  cases h.alive with
  | false => exact follows_of_hub rfl _ _
  | true =>
      cases h.workers[i]? with
      | none => exact follows_of_hub rfl _ _
      | some w =>
          obtain ⟨name, phase, awake⟩ := w
          cases phase with
          | fresh =>
              exact (follows_lookForWork holds h i name).preceded [.logged (.workerStarted name)]
          | pulling t =>
              simp only [Option.map_some, Disguise.worker, Disguise.phase, stopping,
                Disguise.queue_hub]
              split
              · rw [Queue.dropPull_map, withQueue_disguised]
                exact follows_endWorker m view _ i name
              · rw [Queue.pollPull_map]
                exact follows_afterPull holds h i ..
          | finished job =>
              exact (follows_lookForWork holds h i name).preceded
                ((jobLogs name job).map .logged)
          | holding work =>
              exact follows_of_hub (withPhase_disguised m h i (.holding work) false) _ _
          | dispatching work d =>
              exact follows_of_hub (withPhase_disguised m h i (.dispatching work d) false) _ _
          | stopped => exact follows_of_hub (withPhase_disguised m h i .stopped false) _ _
          | cutOff => exact follows_of_hub (withPhase_disguised m h i .cutOff false) _ _

theorem follows_advanceJob (parses : h.parser = parser) :
    Follows m view id (h.advanceJob rep i) ((m.hub h).advanceJob other i) := by
  rw [advanceJob_eq, advanceJob_eq, worker?_disguised]
  cases h.workers[i]? with
  | none => exact follows_of_hub rfl _ _
  | some w =>
      obtain ⟨name, phase, awake⟩ := w
      cases phase with
      | holding work => exact holds.opens h i name work parses
      | dispatching work d =>
          cases d with
          | nil => exact follows_of_hub (finishJob_disguised m h i .returned) _ _
          | cons inner outer =>
              have rest : m.dispatch (inner :: outer) = m.delivery inner :: m.dispatch outer := rfl
              have paced := holds.steps h.scene (inner :: outer)
              simp only [Option.map_some, Disguise.worker, Disguise.phase, rest, Disguise.scene_hub]
                at paced ⊢
              rcases paced.cases with ⟨here, there⟩ | ⟨v, d, notes, told, here, there, same⟩
              · rw [here, there]
                exact follows_of_hub rfl _ _
              · rw [here, there]
                exact ⟨withPhase_disguised m { h with scene := v } i (.dispatching work d) awake,
                  rfl, same (.worker i)⟩
      | _ => exact follows_of_hub rfl _ _

theorem follows_passGate : Follows m view id (h.passGate i) ((m.hub h).passGate i) := by
  rw [passGate, passGate, worker?_disguised]
  cases h.workers[i]? with
  | none => exact follows_of_hub rfl _ _
  | some w =>
      obtain ⟨name, phase, awake⟩ := w
      cases phase with
      | dispatching work d =>
          simp only [Option.map_some, Disguise.worker, Disguise.phase, holds.passes]
          cases d.passGate? with
          | none => exact follows_of_hub rfl _ _
          | some passed =>
              exact follows_of_hub
                (withPhase_disguised m h i (.dispatching work passed.1) awake) _ _
      | _ => exact follows_of_hub rfl _ _

theorem follows_notify (e : Event) : Follows m view id (h.notify e) ((m.hub h).notify e) := by
  refine follows_of_hub ?_ _ _
  have guests : (h.guests ++ [(h.beginDispatch .guest e).1]).map m.dispatch =
      h.guests.map m.dispatch ++ [(h.beginDispatch .guest e).1] := by
    rw [List.map_append, List.map_singleton, beginDispatch_disguised h holds.begins]
  exact congrArg (fun guests => { m.hub h with guests := guests }) guests.symm

theorem follows_advanceGuest :
    Follows m view id (h.advanceGuest rep) ((m.hub h).advanceGuest other) := by
  rw [advanceGuest_eq, advanceGuest_eq, Disguise.guests_hub]
  cases pending : h.guests with
  | nil => exact follows_of_hub rfl _ _
  | cons d waiting =>
      cases d with
      | nil => exact follows_of_hub rfl _ _
      | cons inner outer =>
          have rest : m.dispatch (inner :: outer) = m.delivery inner :: m.dispatch outer := rfl
          have paced := holds.steps h.scene (inner :: outer)
          simp only [List.map_cons, rest, Disguise.scene_hub] at paced ⊢
          rcases paced.cases with ⟨here, there⟩ | ⟨v, d, notes, told, here, there, same⟩
          · rw [here, there]
            exact follows_of_hub rfl _ _
          · rw [here, there]
            exact ⟨rfl, rfl, same .guest⟩

end Operations

/-! ### The life of a hub -/

section Life

variable (m : Disguise) (view : Happening → Option β) (h : Hub σ)

theorem follows_act (a : Action) : Follows m view id (h.act a) ((m.hub h).act a) :=
  follows_of_hub rfl _ _

theorem joinWorkers_disguised (workers : List Worker) (failure : Option Error) (is : List Nat) :
    joinWorkers (workers.map m.worker) failure is = joinWorkers workers failure is := by
  induction is generalizing failure with
  | nil => rfl
  | cons i is ih =>
      rw [joinWorkers, joinWorkers, List.getElem?_map]
      cases workers[i]? with
      | none => exact ih failure
      | some w =>
          obtain ⟨name, phase, awake⟩ := w
          cases phase with
          | cutOff =>
              simp only [Option.map_some, Disguise.worker, Disguise.phase]
              rw [ih]
          | stopped => exact ih failure
          | _ => rfl

theorem follows_pollShutdown :
    Follows m view id h.pollShutdown (m.hub h).pollShutdown := by
  rw [pollShutdown, pollShutdown, Disguise.joining_hub, Disguise.workers_hub]
  cases h.joining with
  | none => exact follows_of_hub rfl _ _
  | some j =>
      simp only [joinWorkers_disguised]
      split <;> exact follows_of_hub rfl _ _

theorem leaving_disguised : (m.hub h).leaving = m.hub h.leaving :=
  congrArg (fun g : Hub σ => { g with joining := some ⟨h.handles, none⟩ })
    (withStop_disguised m { h with life := .shutDown, handles := [] })

theorem follows_shutdown (join : Bool) :
    Follows m view id (h.shutdown join) ((m.hub h).shutdown join) := by
  cases life : h.life with
  | shutDown =>
      rw [shutdown_of_shutDown life, shutdown_of_shutDown ((m.life_hub h).trans life)]
      exact follows_of_hub rfl _ _
  | running =>
      cases join with
      | false =>
          rw [shutdown, shutdown, Disguise.life_hub, life]
          exact follows_of_hub
            (withStop_disguised m { h with life := .shutDown, handles := [] }) _ _
      | true =>
          rw [shutdown_of_running life, shutdown_of_running ((m.life_hub h).trans life),
            leaving_disguised]
          obtain ⟨hub, answer, same⟩ := follows_pollShutdown m view h.leaving
          exact ⟨hub, congrArg (Option.getD · .ok) answer, same⟩

/-- What is read off the workers, but for what they hold, is the same. -/
theorem filterMap_worker {α : Type} {f : Worker → Option α} (same : ∀ w, f (m.worker w) = f w) :
    (m.hub h).workers.filterMap f = h.workers.filterMap f :=
  (List.filterMap_map ..).trans (List.filterMap_congr fun w _ => same w)

theorem map_cutOff_disguised :
    (m.hub h).workers.map cutOffWorker = (h.workers.map cutOffWorker).map m.worker := by
  have each (w : Worker) : cutOffWorker (m.worker w) = m.worker (cutOffWorker w) := by
    obtain ⟨name, phase, awake⟩ := w
    cases phase <;> rfl
  simp only [Disguise.hub, List.map_map]
  exact List.map_congr_left fun w _ => each w

theorem killRuntime_disguised : (m.hub h).killRuntime = m.hub h.killRuntime := by
  rw [killRuntime, killRuntime, filterMap_worker, map_cutOff_disguised, Disguise.queue_hub,
    Queue.foldl_dropPull_map]
  · rfl
  · rintro ⟨name, phase, awake⟩
    cases phase <;> rfl

theorem follows_setWorkerCount (n : UInt64) :
    Follows m view id (h.setWorkerCount n) ((m.hub h).setWorkerCount n) := by
  have owned : (m.hub h).runningWorkers = h.runningWorkers := rfl
  rw [setWorkerCount, setWorkerCount, owned]
  exact follows_of_hub rfl _ _

end Life

/-! ### Steps and runs -/

section Runs

variable {m : Disguise} {view : Happening → Option β} {rep other : Repertoire σ} {parser : Parser}
  (holds : Holds m view rep other parser) {h : Hub σ}

include holds

/-- Each step of a hub is followed by the same step of the hub in disguise. -/
theorem follows_step (parses : h.parser = parser) (s : Step) :
    Follows m view m.answer (h.step rep s) ((m.hub h).step other (m.step s)) := by
  cases s with
  | submit work => exact (follows_submit holds h work).answering .pushed fun _ => rfl
  | pollSubmission t =>
      refine (follows_pollSubmission holds h t).answering (fun p? => p?.elim .none .pushed) ?_
      rintro (_ | p) <;> rfl
  | dropSubmission t => exact (follows_dropSubmission holds h t).answering .flag fun _ => rfl
  | pollWorker i => exact (follows_pollWorker holds h i).answering (fun _ => .none) fun _ => rfl
  | advanceJob i =>
      exact (follows_advanceJob holds h i parses).answering (fun _ => .none) fun _ => rfl
  | passGate i => exact (follows_passGate holds h i).answering .flag fun _ => rfl
  | act a => exact (follows_act m view h a).answering .replied fun _ => rfl
  | tryPull => exact (follows_tryPull holds h).answering .taken fun _ => rfl
  | notify e => exact (follows_notify holds h e).answering (fun _ => .none) fun _ => rfl
  | advanceGuest =>
      exact (follows_advanceGuest holds h).answering (fun _ => .none) fun _ => rfl
  | shutdown join => exact (follows_shutdown m view h join).answering .progress fun _ => rfl
  | pollShutdown =>
      refine (follows_pollShutdown m view h).answering (fun p? => p?.elim .none .progress) ?_
      rintro (_ | p) <;> rfl
  | dropShutdown => exact ⟨rfl, rfl, rfl⟩
  | drop => exact ⟨withStop_disguised m h, rfl, rfl⟩
  | killRuntime => exact ⟨killRuntime_disguised m h, rfl, rfl⟩
  | setWorkerCount n =>
      exact (follows_setWorkerCount m view h n).answering (fun _ => .none) fun _ => rfl

/-- So is each run. -/
theorem run_disguised (parses : h.parser = parser) (ss : List Step) :
    (run other (m.hub h) (ss.map m.step)).1 = m.hub (run rep h ss).1 ∧
      (run other (m.hub h) (ss.map m.step)).2.filterMap view =
        (run rep h ss).2.filterMap view := by
  induction ss generalizing h with
  | nil => exact ⟨rfl, rfl⟩
  | cons s ss ih =>
      obtain ⟨hub, -, same⟩ := follows_step holds parses s
      obtain ⟨final, later⟩ := ih ((parser_step rep h s).trans parses)
      rw [List.map_cons, hub_run_cons, hub_run_cons, history_run_cons, history_run_cons, hub,
        List.filterMap_append, List.filterMap_append, same, later]
      exact ⟨final, rfl⟩

end Runs

end Hub

end ReviewHub
