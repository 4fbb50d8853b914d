import ReviewHub.Proofs.Hub.Line
import ReviewHub.Proofs.Hub.Move

/-!
# Delivery

What is submitted to a hub is worked off in order and once. The queue hands out what came onto it
in the order in which that came, and each worker opens the envelopes it takes one after the other,
notifying of the event in each if there is one. The account of a worker says so: what it has taken
is what it has opened, followed by the envelope that it holds unopened, and its notifications are
the events of what it has opened. Every move keeps the account, so every run does.
-/

namespace ReviewHub

/-- The next step of the job of a worker in this phase, if it has one, is the last. -/
def Phase.isClosing (parser : Parser) : Phase → Bool
  | holding work => (work.item.event? parser).isNone
  | dispatching _ [] => true
  | _ => false

/-- The events of envelopes, in order. -/
def eventsOf (parser : Parser) (works : List Envelope) : List Event :=
  works.filterMap fun work => work.item.event? parser

@[simp] theorem eventsOf_append (parser : Parser) (first second : List Envelope) :
    eventsOf parser (first ++ second) = eventsOf parser first ++ eventsOf parser second :=
  List.filterMap_append

/-- What all those have begun to dispatch who are workers, in order. -/
def notifiedByWorkers (history : List Happening) : List Event :=
  ((notifiedIn history).filter (·.1 ≠ .guest)).map Prod.snd

/-! ### Shares -/

section Shares

variable {κ α : Type} [DecidableEq κ] {xs ys : List (κ × α)}

theorem filter_fst_eq_map (xs : List (κ × α)) (k : κ) :
    xs.filter (·.1 = k) = (shareOf k xs).map (k, ·) := by
  have back : ∀ x ∈ xs.filter (·.1 = k), ((k, ·) ∘ Prod.snd) x = id x := by
    intro x member
    have tag : x.1 = k := by simpa using (List.mem_filter.mp member).2
    exact Prod.ext tag.symm rfl
  rw [shareOf, List.map_map, List.map_congr_left back, List.map_id]

/-- Tagged values that agree tag by tag agree up to order. -/
theorem perm_of_shareOf (agree : ∀ k, shareOf k xs = shareOf k ys) : xs.Perm ys := by
  classical
  refine List.perm_iff_count.mpr ?_
  intro x
  have own (zs : List (κ × α)) : ((shareOf x.1 zs).map (x.1, ·)).count x = zs.count x := by
    rw [← filter_fst_eq_map]
    exact List.count_filter (by simp)
  rw [← own xs, ← own ys, agree]

/-- Where there is one tag only, all values are its share. -/
theorem shareOf_eq_map_snd {k : κ} (others : ∀ j, j ≠ k → shareOf j xs = []) :
    shareOf k xs = xs.map Prod.snd := by
  refine congrArg _ (List.filter_eq_self.mpr ?_)
  intro x member
  by_contra different
  have none := others x.1 (by simpa using different)
  rw [shareOf, List.map_eq_nil_iff, List.filter_eq_nil_iff] at none
  exact none x member (by simp)

end Shares

namespace Hub

variable {σ : Type} {parser : Parser} {stopping working : Bool} {i : Nat} {p q : Phase}
  {own : List Happening}

/-! ### Moves -/

/-- A step of its job opens what a worker has unopened, with a notification of the event in it.
Other steps open nothing. -/
theorem Move.opens (move : Move parser stopping working i p own q) :
    p.unopened ++ (takenIn own).map Prod.snd =
        (if working then p.unopened else []) ++ q.unopened ∧
      (notifiedIn own).map Prod.snd =
        eventsOf parser (if working then p.unopened else []) := by
  have none (ready : p.isReady) : p.unopened = [] :=
    Phase.unopened_of_held? (Phase.held?_of_isReady ready)
  cases move with
  | stay _ idle =>
      rcases idle with rfl | none
      · simp [eventsOf]
      · simp [none, eventsOf]
  | wait ready =>
      rw [none ready]
      simp [eventsOf, Phase.unopened]
  | take ready =>
      rw [none ready]
      simp [eventsOf, Phase.unopened, Happening.takings, Happening.notifications]
  | stop ready =>
      rw [none ready]
      simp [eventsOf, Phase.unopened]
  | cut ready =>
      rw [none ready]
      simp [eventsOf, Phase.unopened]
  | begin opening event =>
      simp [opening, eventsOf, event, Phase.unopened, Happening.takings, Happening.notifications]
  | skip opening nothing done =>
      rcases done with rfl | rfl <;> simp [opening, eventsOf, nothing, Phase.unopened]
  | dispatch => simp [eventsOf, Phase.unopened]
  | finish _ done => rcases done with rfl | rfl <;> simp [eventsOf, Phase.unopened]

/-- A worker takes an envelope when it has none. -/
theorem Move.held?_of_taken (move : Move parser stopping working i p own q) {source : Source}
    {work : Envelope} (taken : .taken source work ∈ own) :
    p.held? = none ∧ q.held? = some work ∧ stopping = false := by
  cases move with
  | take ready going =>
      cases List.mem_singleton.mp taken
      exact ⟨Phase.held?_of_isReady ready, rfl, going⟩
  | _ => simp at taken

/-- A worker keeps its envelope until its job is done. -/
theorem Move.held?_of_held? (move : Move parser stopping working i p own q) {work : Envelope}
    (held : p.held? = some work) :
    q.held? = some work ∨ q.held? = none ∧ p.isClosing parser := by
  have busy (ready : p.isReady) : False := by
    rw [Phase.held?_of_isReady ready] at held
    cases held
  cases move with
  | stay => exact .inl held
  | wait ready => exact (busy ready).elim
  | take ready => exact (busy ready).elim
  | stop ready => exact (busy ready).elim
  | cut ready => exact (busy ready).elim
  | begin => exact .inl held
  | skip _ nothing done =>
      refine .inr ⟨?_, by simp [Phase.isClosing, nothing]⟩
      rcases done with rfl | rfl <;> rfl
  | dispatch => exact .inl held
  | finish _ done => exact .inr ⟨by rcases done with rfl | rfl <;> rfl, rfl⟩

/-! ### The account of a worker -/

/-- The envelope that worker `i` opens in a step: one at most. -/
def opening (h : Hub σ) (s : Step) (i : Nat) : List Envelope :=
  if s.isJobOf i then h.unopened i else []

/-- The envelopes that worker `i` opens in a run, in order. -/
def openedIn (rep : Repertoire σ) (h : Hub σ) (ss : List Step) (i : Nat) : List Envelope :=
  (course rep h ss).flatMap fun m => m.before.opening m.step i

theorem openedIn_cons (rep : Repertoire σ) (h : Hub σ) (s : Step) (ss : List Step) (i : Nat) :
    openedIn rep h (s :: ss) i = h.opening s i ++ openedIn rep (h.step rep s).hub ss i := rfl

theorem opens_step (rep : Repertoire σ) (h : Hub σ) (s : Step) (i : Nat) :
    h.unopened i ++ takenBy (.worker i) (h.step rep s).happened =
        h.opening s i ++ (h.step rep s).hub.unopened i ∧
      notifiedBy (.worker i) (h.step rep s).happened = eventsOf h.parser (h.opening s i) := by
  rw [takenBy_eq_doings, notifiedBy_eq_doings, opening, unopened, unopened]
  rcases (moves_step rep h s i).cases with ⟨before, after, silent⟩ | ⟨p, q, before, after, move⟩
  · rw [before, after, silent]
    simp [eventsOf]
  · rw [before, after]
    exact move.opens

/-- Over a run a worker opens what it had unopened and what it takes, up to the envelope that it
has unopened in the end. -/
theorem opens_run (rep : Repertoire σ) (h : Hub σ) (ss : List Step) (i : Nat) :
    h.unopened i ++ takenBy (.worker i) (run rep h ss).2 =
        openedIn rep h ss i ++ (run rep h ss).1.unopened i ∧
      notifiedBy (.worker i) (run rep h ss).2 = eventsOf h.parser (openedIn rep h ss i) := by
  induction ss generalizing h with
  | nil => simp [takenBy, notifiedBy, shareOf, openedIn, course, eventsOf]
  | cons s ss ih =>
      obtain ⟨takes, notifies⟩ := opens_step rep h s i
      obtain ⟨later, laterNotifies⟩ := ih (h.step rep s).hub
      rw [hub_run_cons, history_run_cons, takenBy_append, notifiedBy_append, openedIn_cons]
      constructor
      · rw [← List.append_assoc, takes, List.append_assoc, later, List.append_assoc]
      · rw [notifies, laterNotifies, eventsOf_append, parser_step]

/-- A worker takes an envelope when it has none. -/
theorem held?_of_taken (rep : Repertoire σ) {h : Hub σ} {s : Step} {work : Envelope}
    (taken : .taken (.worker i) work ∈ (h.step rep s).happened) :
    h.held? i = none ∧ (h.step rep s).hub.held? i = some work ∧ h.stopping = false := by
  have mine : .taken (.worker i) work ∈ doingsOf (.worker i) (h.step rep s).happened :=
    List.mem_filter.mpr ⟨taken, by simp [Happening.source?]⟩
  rcases (moves_step rep h s i).cases with ⟨-, -, silent⟩ | ⟨p, q, before, after, move⟩
  · rw [silent] at mine
    cases mine
  · rw [held?, held?, before, after]
    exact move.held?_of_taken mine

/-- A worker keeps its envelope until its job is done. -/
theorem held?_of_held? (rep : Repertoire σ) {h : Hub σ} {work : Envelope}
    (held : h.held? i = some work) (s : Step) :
    (h.step rep s).hub.held? i = some work ∨
      (h.step rep s).hub.held? i = none ∧ (h.phase? i).any (·.isClosing h.parser) := by
  rw [held?] at held
  rcases (moves_step rep h s i).cases with ⟨before, -, -⟩ | ⟨p, q, before, after, move⟩
  · rw [before] at held
    cases held
  · rw [before] at held
    rw [held?, before, after]
    exact move.held?_of_held? held

theorem IsFresh.unopened_eq {c : Config} {h : Hub σ} (fresh : h.IsFresh c parser) (i : Nat) :
    h.unopened i = [] := by
  rw [unopened, fresh.phase?_eq]
  split <;> rfl

/-- A worker that there is not takes nothing. -/
theorem takenBy_of_absent (rep : Repertoire σ) {c : Config} {h : Hub σ}
    (fresh : h.IsFresh c parser) (beyond : c.workerCount.toNat ≤ i) (ss : List Step) :
    takenBy (.worker i) (run rep h ss).2 = [] := by
  have absent : h.phase? i = none := by
    rw [fresh.phase?_eq, if_neg (Nat.not_lt.mpr beyond)]
  have ended (p : Phase) (found : h.phase? i = some p) : p.isOver := by
    cases absent.symm.trans found
  rw [takenBy_eq_doings, (rests_run rep ended ss).2]
  rfl

/-! ### What a notification begins -/

/-- The dispatch of the event if it begins now. -/
def snapshot (h : Hub σ) (e : Event) : Dispatch :=
  if h.scene.board.ignored.ignores e then [] else [⟨e, none, h.listeners⟩]

theorem beginDispatch_eq (h : Hub σ) (source : Source) (e : Event) :
    (h.beginDispatch source e).1 = h.snapshot e := by
  have begun : (h.beginDispatch source e).1 = (Dispatch.start h.scene.board 0 e).1.toList := rfl
  rw [begun, snapshot, Dispatch.start]
  split <;> rfl

/-- A worker that opens an envelope with an event begins to dispatch it. -/
theorem phase?_open {h : Hub σ} {work : Envelope} {e : Event} (rep : Repertoire σ)
    (here : h.phase? i = some (.holding work)) (event : work.item.event? h.parser = some e) :
    (h.step rep (.advanceJob i)).hub.phase? i = some (.dispatching work (h.snapshot e)) := by
  obtain ⟨w, found, holding⟩ := worker_of_phase? here
  have reading : (work.item.intoEvent h.parser).reading = .event e := by
    rw [WorkItem.event?] at event
    split at event
    · next f reading =>
        cases event
        exact reading
    · cases event
  rw [step, hub_answering, advanceJob_eq, found]
  simp only [holding, openEnvelope, reading, beginDispatch_eq]
  exact phase?_withPhase_self here ..

/-- Only a worker that opens an envelope notifies, and it dispatches the event from then on. -/
theorem dispatching_of_notified (rep : Repertoire σ) {h : Hub σ} {s : Step} {e : Event}
    (notified : .notified (.worker i) e ∈ (h.step rep s).happened) :
    ∃ work, h.phase? i = some (.holding work) ∧ work.item.event? h.parser = some e ∧
      (h.step rep s).hub.phase? i = some (.dispatching work (h.snapshot e)) := by
  have mine : .notified (.worker i) e ∈ doingsOf (.worker i) (h.step rep s).happened :=
    List.mem_filter.mpr ⟨notified, by simp [Happening.source?]⟩
  rcases (moves_step rep h s i).cases with ⟨-, -, silent⟩ | ⟨p, q, before, -, move⟩
  · rw [silent] at mine
    cases mine
  · generalize doingsOf (.worker i) (h.step rep s).happened = own at mine move
    cases move with
    | @begin opening work f event d notes =>
        obtain rfl : e = f := by simpa using mine
        cases s with
        | advanceJob j =>
            obtain rfl : j = i := of_decide_eq_true opening
            exact ⟨work, before, event, phase?_open rep before event⟩
        | _ => cases opening
    | _ => simp at mine

/-! ### Idle workers -/

section Idle

variable {history : List Happening}

/-- The events in what has been taken, each with who took it. -/
def dueIn (parser : Parser) (history : List Happening) : List (Source × Event) :=
  (takenIn history).filterMap fun x => (x.2.item.event? parser).map (x.1, ·)

theorem map_snd_dueIn (parser : Parser) (history : List Happening) :
    (dueIn parser history).map Prod.snd = eventsOf parser ((takenIn history).map Prod.snd) := by
  simp [dueIn, eventsOf, List.map_filterMap, List.filterMap_map, Function.comp_def]

theorem shareOf_dueIn (parser : Parser) (source : Source) (history : List Happening) :
    shareOf source (dueIn parser history) = eventsOf parser (takenBy source history) := by
  rw [dueIn, takenBy]
  generalize takenIn history = taken
  induction taken with
  | nil => rfl
  | cons x rest ih =>
      simp only [shareOf, eventsOf] at ih ⊢
      cases event : x.2.item.event? parser <;> by_cases mine : x.1 = source <;>
        simp [event, mine, ih]

theorem shareOf_workers (source : Source) (history : List Happening) :
    shareOf source ((notifiedIn history).filter (·.1 ≠ .guest)) =
      if source = .guest then [] else notifiedBy source history := by
  rw [notifiedBy, shareOf, shareOf, List.filter_filter]
  split
  · next guest => simp [guest]
  · next worker =>
      congr 2
      funext x
      by_cases mine : x.1 = source <;> simp [mine, worker]

/-- While no worker has an envelope and nothing was taken from outside, what workers are to
dispatch is what they have dispatched, worker by worker. -/
theorem shareOf_workers_eq_dueIn (rep : Repertoire σ) {c : Config} {h : Hub σ}
    (fresh : h.IsFresh c parser) (ss : List Step) (idle : ∀ i, (run rep h ss).1.held? i = none)
    (noGuest : takenBy .guest (run rep h ss).2 = []) (source : Source) :
    shareOf source ((notifiedIn (run rep h ss).2).filter (·.1 ≠ .guest)) =
      shareOf source (dueIn parser (run rep h ss).2) := by
  rw [shareOf_workers, shareOf_dueIn]
  cases source with
  | guest =>
      rw [if_pos rfl, noGuest]
      rfl
  | worker i =>
      obtain ⟨taken, notified⟩ := opens_run rep h ss i
      rw [fresh.unopened_eq, unopened_of_held? (idle i), List.nil_append,
        List.append_nil] at taken
      rw [if_neg nofun, notified, taken, fresh.parser_eq]

/-- What is due from a hub of one worker is due from that worker. -/
theorem shareOf_dueIn_of_ne (rep : Repertoire σ) {c : Config} {h : Hub σ}
    (fresh : h.IsFresh c parser) (one : c.workerCount = 1) (ss : List Step)
    (noGuest : takenBy .guest (run rep h ss).2 = []) {source : Source}
    (other : source ≠ .worker 0) : shareOf source (dueIn parser (run rep h ss).2) = [] := by
  rw [shareOf_dueIn]
  cases source with
  | guest =>
      rw [noGuest]
      rfl
  | worker i =>
      have nonzero : i ≠ 0 := fun zero => other (zero ▸ rfl)
      have beyond : c.workerCount.toNat ≤ i := by
        rw [one]
        exact Nat.one_le_iff_ne_zero.mpr nonzero
      rw [takenBy_of_absent rep fresh beyond]
      rfl

end Idle

/-! ### The law -/

/-- What a hub does with its envelopes, whatever happens and in any order. They are taken off the
queue in the order in which they came onto it, and each is a submission that counts once. A worker
takes an envelope only while it has none, and keeps it until its job is done. What it has taken is
what it has opened and what it holds unopened, and it has notified of the event in each that it has
opened, in order, and of nothing else. With a notification it begins to dispatch the event in the
envelope, to the listeners that are registered at that moment. So once no worker has an envelope,
and if none was taken from outside, workers have notified of the events in all that was taken: in
any order if they are many, in the order of taking if there is one.

The dispatches that listeners begin while an event is dispatched are part of that dispatch. -/
theorem taken_in_order_and_notified_once {c : Config} {memory : σ} {start : Hub σ}
    (built : (build true c parser memory).outcome = .ok start) (rep : Repertoire σ)
    (ss : List Step) :
    let final := (run rep start ss).1
    let history := (run rep start ss).2
    acceptedIn history = (takenIn history).map Prod.snd ++ final.queue.items ∧
      (acceptedIn history).Subperm (ss.flatMap Step.submitted) ∧
      ((ss.flatMap Step.submitted).Nodup → ((takenIn history).map Prod.snd).Nodup) ∧
      (∀ m ∈ course rep start ss, ∀ i work,
        (.taken (.worker i) work ∈ (m.effect rep).happened →
          m.before.held? i = none ∧ (m.effect rep).hub.held? i = some work) ∧
        (m.before.held? i = some work →
          (m.effect rep).hub.held? i = some work ∨
            (m.effect rep).hub.held? i = none ∧
              (m.before.phase? i).any (·.isClosing parser))) ∧
      (∀ i, ∃ opened,
        takenBy (.worker i) history = opened ++ final.unopened i ∧
        notifiedBy (.worker i) history = eventsOf parser opened) ∧
      (∀ m ∈ course rep start ss, ∀ i e, .notified (.worker i) e ∈ (m.effect rep).happened →
        ∃ work, m.before.phase? i = some (.holding work) ∧ work.item.event? parser = some e ∧
          (m.effect rep).hub.phase? i = some (.dispatching work (m.before.snapshot e))) ∧
      ((∀ i, final.held? i = none) → takenBy .guest history = [] →
        (notifiedByWorkers history).Perm
          (eventsOf parser ((takenIn history).map Prod.snd)) ∧
        (c.workerCount = 1 → notifiedByWorkers history =
          eventsOf parser ((takenIn history).map Prod.snd))) := by
  have fresh := isFresh_of_build built
  intro final history
  have order : acceptedIn history = (takenIn history).map Prod.snd ++ final.queue.items := by
    simpa [fresh.items_eq] using balances_run rep start ss
  have submitted := fresh.acceptedIn_subperm rep ss
  have parser_eq {m : Moment σ} (member : m ∈ course rep start ss) : m.before.parser = parser := by
    obtain ⟨past, -, -, found⟩ := split_of_mem_course member
    rw [found, parser_run, fresh.parser_eq]
  refine ⟨order, submitted, ?_, ?_, ?_, ?_, ?_⟩
  · intro distinct
    obtain ⟨kept, same, sublist⟩ := submitted
    have once : (acceptedIn history).Nodup := same.nodup_iff.mp (distinct.sublist sublist)
    rw [order] at once
    exact once.of_append_left
  · intro m member i work
    refine ⟨?_, ?_⟩
    · intro taken
      obtain ⟨before, after, -⟩ := held?_of_taken rep taken
      exact ⟨before, after⟩
    · intro held
      exact parser_eq member ▸ held?_of_held? rep held m.step
  · intro i
    obtain ⟨taken, notified⟩ := opens_run rep start ss i
    rw [fresh.unopened_eq, List.nil_append] at taken
    exact ⟨_, taken, fresh.parser_eq ▸ notified⟩
  · intro m member i e notified
    exact parser_eq member ▸ dispatching_of_notified rep notified
  · intro idle noGuest
    have agree := shareOf_workers_eq_dueIn rep fresh ss idle noGuest
    rw [notifiedByWorkers, ← map_snd_dueIn]
    refine ⟨(perm_of_shareOf agree).map Prod.snd, ?_⟩
    intro one
    have others (source : Source) (other : source ≠ .worker 0) :
        shareOf source (dueIn parser history) = [] :=
      shareOf_dueIn_of_ne rep fresh one ss noGuest other
    rw [← shareOf_eq_map_snd others, ← agree]
    exact (shareOf_eq_map_snd fun source other => (agree source).trans (others source other)).symm

/-- The second submission waits until the first has been taken. -/
def Small.relay : List Step :=
  [.submit eventful, .submit eventless, .pollWorker 0, .pollSubmission 1, .advanceJob 0,
    .advanceJob 0, .advanceJob 0, .pollWorker 0, .advanceJob 0]

theorem taken_in_order_and_notified_once_relay :
    let history := (run Small.repertoire Small.hub Small.relay).2
    (takenIn history).map Prod.snd = [Small.eventful, Small.eventless] ∧
      ((takenIn history).map Prod.snd).Nodup ∧
      notifiedByWorkers history = eventsOf Small.parser [Small.eventful, Small.eventless] ∧
      notifiedByWorkers history = [Small.event] := by
  obtain ⟨-, -, once, -, -, -, idle⟩ :=
    taken_in_order_and_notified_once Small.built Small.repertoire Small.relay
  have free (i : Nat) : (run Small.repertoire Small.hub Small.relay).1.held? i = none := by
    cases i <;> rfl
  refine ⟨rfl, once ?_, (idle free rfl).2 rfl, rfl⟩
  simp [Small.relay, Small.eventful, Small.eventless, Step.submitted]

end Hub

end ReviewHub
