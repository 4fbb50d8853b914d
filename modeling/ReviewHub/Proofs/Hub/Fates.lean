import ReviewHub.Proofs.Hub.Shutdown

/-!
# What becomes of submissions

A submission waits, or has come onto the queue, or has been interrupted, or was dropped while it
waited. Which of these it is shows in three ways that always agree: its place in line, what came
onto the queue on its account, and the warnings about it. While it waits nothing is settled; the
step that takes it out of the line settles all three at once, and no later step is about it.

What workers make of the envelopes they open is accounted for in the same way: the job of each ends
in a notification or in one of three records.
-/

namespace ReviewHub

/-- What becomes of a submission. -/
inductive Fate where
  | waiting
  | accepted
  | interrupted
  /-- It was dropped while it waited. -/
  | abandoned

namespace Fate

/-- What is in line on account of the submission of `work`. -/
def remains (work : Envelope) : Fate → Option Envelope
  | waiting => some work
  | _ => none

/-- What has come onto the queue on its account. -/
def landed (work : Envelope) : Fate → List Envelope
  | accepted => [work]
  | _ => []

/-- The warnings about it. -/
def warnings (work : Envelope) : Fate → List Log
  | interrupted => [.notEnqueued work .interrupted]
  | abandoned => [.abandoned work]
  | _ => []

/-- The texts of the warnings. -/
def messages : Fate → List String
  | interrupted => ["Work item dropped while putting it on the queue"]
  | abandoned => ["Work item dropped while waiting for queue capacity"]
  | _ => []

theorem message_warnings (fate : Fate) (work : Envelope) :
    (fate.warnings work).map Log.message = fate.messages := by
  cases fate <;> rfl

end Fate

namespace Hub

variable {σ : Type} {rep : Repertoire σ} {t : Ticket} {work : Envelope} {g h : Hub σ} {s : Step}
  {fate : Fate}

/-- What happens in the moments that are about the submission with the ticket. -/
def dealings (rep : Repertoire σ) (t : Ticket) (ms : List (Moment σ)) : List Happening :=
  (ms.filter fun m => m.before.ticket? m.step = some t).flatMap fun m => (m.effect rep).happened

/-- The submission of `work` under the ticket has come to the fate, as its place in the hub and the
dealings with it show. -/
structure Shows (t : Ticket) (work : Envelope) (fate : Fate) (final : Hub σ)
    (dealings : List Happening) : Prop where
  place : final.queue.workOf? t = fate.remains work
  landed : acceptedIn dealings = fate.landed work
  warned : warningsIn dealings = fate.warnings work

/-- The moment that brings a submission to its fate is among the moments. -/
def Caused (rep : Repertoire σ) (t : Ticket) (ms : List (Moment σ)) : Fate → Prop
  | .waiting => True
  | .accepted => ∃ m ∈ ms, m.before.ticket? m.step = some t ∧
      (m.effect rep).answer = .pushed .accepted
  | .interrupted => ∃ m ∈ ms, m.before.ticket? m.step = some t ∧
      (m.effect rep).answer = .pushed .interrupted
  | .abandoned => ∃ m ∈ ms, m.step = .dropSubmission t ∧ (m.effect rep).answer = .flag true

/-- What shows determines the fate. -/
theorem Shows.unique {other : Fate} {ds : List Happening} (shows : Shows t work fate h ds)
    (too : Shows t work other h ds) : other = fate := by
  have place := shows.place.symm.trans too.place
  have landed := shows.landed.symm.trans too.landed
  have warned := shows.warned.symm.trans too.warned
  cases fate <;> cases other <;>
    first | rfl | simp [Fate.remains, Fate.landed, Fate.warnings] at place landed warned

theorem Caused.mono {ms ns : List (Moment σ)} (caused : Caused rep t ms fate) (sub : ms ⊆ ns) :
    Caused rep t ns fate := by
  cases fate with
  | waiting => trivial
  | _ =>
      obtain ⟨m, member, why⟩ := caused
      exact ⟨m, sub member, why⟩

theorem dealings_cons (m : Moment σ) (ms : List (Moment σ)) :
    dealings rep t (m :: ms) =
      if m.before.ticket? m.step = some t then (m.effect rep).happened ++ dealings rep t ms
      else dealings rep t ms := by
  by_cases about : m.before.ticket? m.step = some t <;> simp [dealings, about]

/-! ### After its turn -/

/-- A step about a submission that is over finds nothing. -/
theorem miss_of_absent (rep : Repertoire σ) (absent : g.queue.workOf? t = none) (given : t < g.next)
    (about : g.ticket? s = some t) : (g.step rep s).hub = g ∧ (g.step rep s).happened = [] := by
  cases passage_step rep g s with
  | aside other => cases other.symm.trans about
  | arrive =>
      cases about
      exact absurd given (Nat.lt_irrefl _)
  | poll present =>
      cases about
      cases absent.symm.trans present
  | drop present =>
      cases about
      cases absent.symm.trans present
  | miss _ _ same silent => exact ⟨same, silent⟩

theorem over_run (rep : Repertoire σ) (absent : g.queue.workOf? t = none) (given : t < g.next)
    (ss : List Step) :
    (run rep g ss).1.queue.workOf? t = none ∧ dealings rep t (course rep g ss) = [] := by
  induction ss generalizing g with
  | nil => exact ⟨absent, rfl⟩
  | cons s ss ih =>
      rw [hub_run_cons, course, dealings_cons]
      have later := Nat.lt_of_lt_of_le given (next_le_step rep g s)
      by_cases about : g.ticket? s = some t
      · obtain ⟨same, silent⟩ := miss_of_absent rep absent given about
        have still : (g.step rep s).hub.queue.workOf? t = none := by rw [same, absent]
        obtain ⟨gone, nothing⟩ := ih still later
        exact ⟨gone, by rw [if_pos about, Moment.effect, silent, nothing]; rfl⟩
      · have still := (workOf?_step_of_ne rep about).trans absent
        obtain ⟨gone, nothing⟩ := ih still later
        exact ⟨gone, by rw [if_neg about, nothing]⟩

/-- The step takes the submission of `work` out of the line and brings it to the fate. -/
structure Settles (rep : Repertoire σ) (g : Hub σ) (s : Step) (t : Ticket) (work : Envelope)
    (fate : Fate) : Prop where
  about : g.ticket? s = some t
  given : t < (g.step rep s).hub.next
  gone : (g.step rep s).hub.queue.workOf? t = none
  ended : fate ≠ .waiting
  lands : acceptedIn (g.step rep s).happened = fate.landed work
  warns : warningsIn (g.step rep s).happened = fate.warnings work
  caused : Caused rep t [⟨g, s⟩] fate

/-- What a step has settled stays so, whatever happens later. -/
theorem Settles.shows (settles : Settles rep g s t work fate) (ss : List Step) :
    Shows t work fate (run rep g (s :: ss)).1 (dealings rep t (course rep g (s :: ss))) ∧
      Caused rep t (course rep g (s :: ss)) fate := by
  have none : fate.remains work = none := by
    cases fate <;> first | rfl | exact absurd rfl settles.ended
  obtain ⟨stays, nothing⟩ := over_run rep settles.gone settles.given ss
  refine ⟨?_, settles.caused.mono (by simp [course])⟩
  rw [hub_run_cons, course, dealings_cons, if_pos settles.about, nothing, List.append_nil]
  exact ⟨stays.trans none.symm, settles.lands, settles.warns⟩

/-- A step that settles nothing leaves what will show. -/
theorem shows_cons {ss : List Step}
    (pending : g.ticket? s = some t →
      acceptedIn (g.step rep s).happened = [] ∧ warningsIn (g.step rep s).happened = [])
    (later : Shows t work fate (run rep (g.step rep s).hub ss).1
      (dealings rep t (course rep (g.step rep s).hub ss))) :
    Shows t work fate (run rep g (s :: ss)).1 (dealings rep t (course rep g (s :: ss))) := by
  rw [hub_run_cons, course, dealings_cons]
  split
  · next about =>
      obtain ⟨nothing, nobody⟩ := pending about
      refine ⟨later.place, ?_, ?_⟩
      · rw [acceptedIn_append, Moment.effect, nothing, List.nil_append, later.landed]
      · rw [warningsIn_append, Moment.effect, nobody, List.nil_append, later.warned]
  · exact later

/-- A step leaves a waiting submission waiting without a word, or settles its fate. -/
theorem waits_or_settles (rep : Repertoire σ) (present : g.queue.workOf? t = some work)
    (given : t < g.next) (s : Step) :
    ((g.step rep s).hub.queue.workOf? t = some work ∧
      (g.ticket? s = some t →
        acceptedIn (g.step rep s).happened = [] ∧ warningsIn (g.step rep s).happened = [])) ∨
      ∃ fate, Settles rep g s t work fate := by
  have later := Nat.lt_of_lt_of_le given (next_le_step rep g s)
  have here : (⟨g, s⟩ : Moment σ) ∈ [⟨g, s⟩] := List.mem_singleton_self _
  by_cases about : g.ticket? s = some t
  · cases passage_step rep g s with
    | aside other => cases other.symm.trans about
    | arrive =>
        cases about
        exact absurd given (Nat.lt_irrefl _)
    | poll found p answer line _ accepted warned =>
        cases about
        cases present.symm.trans found
        cases p with
        | waiting =>
            have still := (Queue.workOf?_of_line line t).trans present
            exact .inl ⟨still, fun _ => ⟨accepted, warned⟩⟩
        | accepted =>
            have gone := (Queue.workOf?_of_line_filter line).trans (if_pos rfl)
            exact .inr ⟨.accepted, rfl, later, gone, nofun, accepted, warned, _, here, rfl, answer⟩
        | interrupted =>
            have gone := (Queue.workOf?_of_line_filter line).trans (if_pos rfl)
            exact .inr
              ⟨.interrupted, rfl, later, gone, nofun, accepted, warned, _, here, rfl, answer⟩
    | drop found answer line _ accepted warned =>
        cases about
        cases present.symm.trans found
        have gone := (Queue.workOf?_of_line_filter line).trans (if_pos rfl)
        exact .inr ⟨.abandoned, rfl, later, gone, nofun, accepted, warned, _, here, rfl, answer⟩
    | miss which absent =>
        rcases which with rfl | rfl
        all_goals
          cases about
          cases absent.symm.trans present
  · left
    refine ⟨(workOf?_step_of_ne rep about).trans present, ?_⟩
    intro same
    exact absurd same about

/-- A waiting submission comes to a fate, whatever happens. -/
theorem fate_run (present : g.queue.workOf? t = some work) (given : t < g.next) (ss : List Step) :
    ∃ fate, Shows t work fate (run rep g ss).1 (dealings rep t (course rep g ss)) ∧
      Caused rep t (course rep g ss) fate := by
  induction ss generalizing g with
  | nil => exact ⟨.waiting, ⟨present, rfl, rfl⟩, trivial⟩
  | cons s ss ih =>
      rcases waits_or_settles rep present given s with ⟨still, silent⟩ | ⟨fate, settles⟩
      · obtain ⟨fate, shows, caused⟩ := ih still (Nat.lt_of_lt_of_le given (next_le_step rep g s))
        exact ⟨fate, shows_cons silent shows, caused.mono (List.subset_cons_self _ _)⟩
      · exact ⟨fate, settles.shows ss⟩

/-- So does every submission. Only one that finds no free slot can be anything but accepted. -/
theorem fate_of_submission (rep : Repertoire σ) (orderly : h.Orderly) (work : Envelope)
    (ss : List Step) :
    ∃ fate, Shows h.next work fate (run rep h (.submit work :: ss)).1
        (dealings rep h.next (course rep h (.submit work :: ss))) ∧
      Caused rep h.next (course rep h (.submit work :: ss)) fate ∧
      (fate ≠ .accepted → h.queue.capacity.isSome ∧ h.queue.free = 0) := by
  have here : (⟨h, .submit work⟩ : Moment σ) ∈ [⟨h, .submit work⟩] := List.mem_singleton_self _
  cases passage_step rep h (.submit work) with
  | aside other => cases other
  | arrive p answer line next accepted warned full =>
      have given : h.next < (h.step rep (.submit work)).hub.next := next ▸ Nat.lt_succ_self _
      cases p with
      | waiting =>
          have present : (h.step rep (.submit work)).hub.queue.workOf? h.next = some work := by
            rw [Queue.workOf?_of_line_append line, orderly.workOf?_next, if_pos rfl]
            rfl
          obtain ⟨fate, shows, caused⟩ := fate_run present given ss
          exact ⟨fate, shows_cons (fun _ => ⟨accepted, warned⟩) shows,
            caused.mono (List.subset_cons_self _ _), fun _ => full nofun⟩
      | accepted =>
          have gone := (Queue.workOf?_of_line line h.next).trans orderly.workOf?_next
          have settles : Settles rep h (.submit work) h.next work .accepted :=
            ⟨rfl, given, gone, nofun, accepted, warned, _, here, rfl, answer⟩
          obtain ⟨shows, caused⟩ := settles.shows ss
          exact ⟨_, shows, caused, absurd rfl⟩
      | interrupted =>
          have gone := (Queue.workOf?_of_line line h.next).trans orderly.workOf?_next
          have settles : Settles rep h (.submit work) h.next work .interrupted :=
            ⟨rfl, given, gone, nofun, accepted, warned, _, here, rfl, answer⟩
          obtain ⟨shows, caused⟩ := settles.shows ss
          exact ⟨_, shows, caused, fun _ => full nofun⟩
  | miss which => rcases which with which | which <;> cases which

/-! ### Single steps -/

/-- A step about a submission brings onto the queue what it reports, and takes nothing off. -/
theorem items_step_of_ticket? (rep : Repertoire σ) (about : h.ticket? s = some t) :
    (h.step rep s).hub.queue.items =
      h.queue.items ++ acceptedIn (h.step rep s).happened := by
  have nothing : takenIn (h.step rep s).happened = [] := by
    cases s with
    | submit work => simp [step, submit, takenIn_settled, Happening.takings]
    | pollSubmission u =>
        rw [step, happened_answering, pollSubmission]
        split
        · rfl
        · exact takenIn_settled ..
    | dropSubmission u =>
        rw [step, happened_answering, dropSubmission]
        split
        · rfl
        · exact takenIn_logged _
    | _ => cases about
  have account : _ ++ _ = _ ++ _ := balances_step rep h s
  rw [account, nothing]
  rfl

/-- Only a hub that is to stop interrupts a submission. -/
theorem stopping_of_interrupted (about : h.ticket? s = some t)
    (interrupted : (h.step rep s).answer = .pushed .interrupted) : h.stopping = true := by
  cases passage_step rep h s with
  | aside other => cases other.symm.trans about
  | arrive p answer _ _ _ _ _ stopped => exact stopped (Answer.pushed.inj (answer ▸ interrupted))
  | poll _ p answer _ _ _ _ stopped =>
      exact stopped.mp (Answer.pushed.inj (answer ▸ interrupted))
  | drop _ answer => cases answer.symm.trans interrupted
  | miss _ _ _ _ answer => exact absurd interrupted (answer _)

/-- Once it is to stop, a hub lets no submission wait. -/
theorem settled_of_stopping (orderly : h.Orderly) (stopping : h.stopping = true)
    (about : h.ticket? s = some t) :
    (h.step rep s).answer ≠ .pushed .waiting ∧ (h.step rep s).hub.queue.workOf? t = none := by
  cases passage_step rep h s with
  | aside other => cases other.symm.trans about
  | arrive p answer line _ _ _ _ _ going =>
      cases about
      have settled : p ≠ .waiting := fun waits => nomatch stopping.symm.trans (going waits)
      rw [if_neg settled] at line
      rw [answer]
      exact ⟨fun same => settled (Answer.pushed.inj same),
        (Queue.workOf?_of_line line h.next).trans orderly.workOf?_next⟩
  | poll _ p answer line _ _ _ stopped =>
      cases about
      obtain rfl := stopped.mpr stopping
      rw [answer]
      exact ⟨nofun, (Queue.workOf?_of_line_filter line).trans (if_pos rfl)⟩
  | drop _ answer line =>
      cases about
      rw [answer]
      exact ⟨nofun, (Queue.workOf?_of_line_filter line).trans (if_pos rfl)⟩
  | miss which absent same _ answer =>
      refine ⟨answer _, ?_⟩
      rw [same]
      rcases which with rfl | rfl
      all_goals
        cases about
        exact absent

/-- Steps about no submission log no losses but what the parser reports. -/
theorem losses_of_aside (rep : Repertoire σ) (other : h.ticket? s = none) :
    lossesIn (h.step rep s).happened ⊆ h.parserLogs s := by
  cases passage_step rep h s with
  | aside _ aside => exact aside.lost
  | arrive => cases other
  | poll => cases other
  | drop => cases other
  | miss which => rcases which with rfl | rfl <;> cases other

/-! ### Jobs -/

/-- All that happens but what happens within dispatches. -/
def undispatched (history : List Happening) : List Happening :=
  history.filter fun
    | .dispatched _ _ => false
    | _ => true

/-- How the job of an envelope ends: with a notification or with a record. -/
def ending (parser : Parser) (i : Nat) (name : String) (work : Envelope) : Happening :=
  match (work.item.intoEvent parser).reading with
  | .event e => .notified (.worker i) e
  | .nothing => .logged (.nothingToDispatch name work)
  | .failed error => .logged (.unparseable name work error)
  | .panicked => .logged (.parserPanicked name work)

/-- What is told of the job of an envelope: that it begins, what the parser reports, and how it
ends. -/
def jobReport (parser : Parser) (i : Nat) (name : String) (work : Envelope) : List Happening :=
  .logged (.performing name work) :: (work.item.intoEvent parser).logs.map .logged ++
    [ending parser i name work]

/-- One notification, or one of three records. -/
def IsEnding (i : Nat) (x : Happening) : Prop :=
  (∃ e, x = .notified (.worker i) e) ∨
    ∃ log, x = .logged log ∧ (log.level, log.message) ∈
      [(Level.trace, "nothing to dispatch"), (.warn, "Dropping unparseable work item"),
        (.error, "Parser panicked, dropping work item")]

theorem isEnding_ending (parser : Parser) (i : Nat) (name : String) (work : Envelope) :
    IsEnding i (ending parser i name work) := by
  rw [ending]
  split
  · next e _ => exact .inl ⟨e, rfl⟩
  · exact .inr ⟨_, rfl, by simp [Log.level, Log.message]⟩
  · exact .inr ⟨_, rfl, by simp [Log.level, Log.message]⟩
  · exact .inr ⟨_, rfl, by simp [Log.level, Log.message]⟩

/-- What is told of the jobs of worker `i`, leaving aside what happens within dispatches. -/
def reportsOf (rep : Repertoire σ) (i : Nat) (ms : List (Moment σ)) : List Happening :=
  (ms.filter fun m => m.step.isJobOf i).flatMap fun m => undispatched (m.effect rep).happened

theorem undispatched_append (first second : List Happening) :
    undispatched (first ++ second) = undispatched first ++ undispatched second :=
  List.filter_append ..

theorem undispatched_logged (logs : List Log) :
    undispatched (logs.map .logged) = logs.map .logged := by
  refine List.filter_eq_self.mpr ?_
  intro x member
  obtain ⟨log, -, rfl⟩ := List.mem_map.mp member
  rfl

theorem undispatched_dispatched (source : Source) (notes : List Note) :
    undispatched (notes.map (.dispatched source)) = [] := by
  refine List.filter_eq_nil_iff.mpr ?_
  intro x member
  obtain ⟨note, -, rfl⟩ := List.mem_map.mp member
  simp

theorem reports_openEnvelope (h : Hub σ) (i : Nat) (name : String) (work : Envelope) :
    undispatched (h.openEnvelope i name work).happened = jobReport h.parser i name work := by
  rw [openEnvelope, jobReport, ending]
  cases (work.item.intoEvent h.parser).reading with
  | event e =>
      simp only [undispatched_append, undispatched_logged]
      refine congrArg _ (congrArg (List.cons _) ?_)
      exact undispatched_dispatched ..
  | _ =>
      simp only [undispatched_append, undispatched_logged]
      rfl

theorem reports_advanceJob (rep : Repertoire σ) (h : Hub σ) {i : Nat} {name : String}
    (named : h.names[i]? = some name) :
    undispatched (h.advanceJob rep i).happened =
      (h.unopened i).flatMap (jobReport h.parser i name) := by
  rw [advanceJob_eq]
  split
  · next missing => simp [names, missing] at named
  · next w found =>
      have same : w.name = name := Option.some.inj ((name_of_worker found).symm.trans named)
      rw [unopened, phase?_of_worker found]
      split
      · next work holding =>
          rw [holding, same]
          simpa [Phase.unopened] using reports_openEnvelope h i name work
      · next work dispatching =>
          rw [dispatching]
          rfl
      · next work d _ dispatching =>
          rw [dispatching]
          split
          · rfl
          · exact undispatched_dispatched ..
      · next notHolding _ _ =>
          cases phase : w.phase with
          | holding work => exact absurd phase (notHolding work)
          | _ => rfl

/-- The jobs of a worker are told of one after the other, in the order in which it opened the
envelopes. -/
theorem reportsOf_course (rep : Repertoire σ) {i : Nat} {name : String}
    (named : h.names[i]? = some name) (ss : List Step) :
    reportsOf rep i (course rep h ss) =
      (openedIn rep h ss i).flatMap (jobReport h.parser i name) := by
  induction ss generalizing h with
  | nil => rfl
  | cons s ss ih =>
      have later := ih (h := (h.step rep s).hub) (by rw [names_step, named])
      rw [parser_step] at later
      rw [openedIn_cons, List.flatMap_append, ← later, opening]
      by_cases job : s.isJobOf i
      · cases s with
        | advanceJob j =>
            obtain rfl : j = i := by simpa [Step.isJobOf] using job
            rw [if_pos job, ← reports_advanceJob rep h named]
            simp [reportsOf, course, job, Moment.effect, step]
        | _ => cases job
      · simp [reportsOf, course, job]

/-! ### The law -/

/-- Nothing is lost without a word. Every submission, from the moment it is made, is in one of four
situations, and they exclude each other: it waits; it has come onto the queue, once, without a
warning about it; it was dropped while it waited, or it was interrupted, never came onto the queue,
and there is one warning about it that says which. Whatever it comes to unless it is accepted, it
found no free slot when it was made. A step about a submission adds to the queue what it reports as
accepted; it interrupts only where the hub has been shut down or dropped; after a shutdown it leaves
nothing waiting. Other steps report no losses, whatever parsers report. And of each envelope that a
worker opens it is told that its job begins, what the parser reports, and how it ends: by one
notification, with which the dispatch of its event begins (`dispatching_of_notified`), or by one of
three records. -/
theorem nothing_lost_silently {c : Config} {parser : Parser} {memory : σ} {start : Hub σ}
    (built : (build true c parser memory).outcome = .ok start) (rep : Repertoire σ)
    (past : List Step) :
    let h := (run rep start past).1
    (∀ work ss,
      let moments := course rep h (.submit work :: ss)
      let final := (run rep h (.submit work :: ss)).1
      let dealings := dealings rep h.next moments
      ∃ fate, Shows h.next work fate final dealings ∧
        (∀ other, Shows h.next work other final dealings → other = fate) ∧
        (warningsIn dealings).map Log.message = fate.messages ∧
        Caused rep h.next moments fate ∧
        (fate ≠ .accepted → h.queue.capacity.isSome ∧ h.queue.free = 0)) ∧
      (∀ s t, h.ticket? s = some t →
        (h.step rep s).hub.queue.items = h.queue.items ++ acceptedIn (h.step rep s).happened ∧
        ((h.step rep s).answer = .pushed .interrupted → h.life = .shutDown ∨ .drop ∈ past) ∧
        (h.life = .shutDown → (h.step rep s).answer ≠ .pushed .waiting ∧
          (h.step rep s).hub.queue.workOf? t = none)) ∧
      (∀ s, h.ticket? s = none → lossesIn (h.step rep s).happened ⊆ h.parserLogs s) ∧
      ∀ i < c.workerCount.toNat, ∃ opened,
        takenBy (.worker i) (run rep start past).2 = opened ++ h.unopened i ∧
        reportsOf rep i (course rep start past) =
          opened.flatMap (jobReport parser i (workerName c i)) ∧
        ∀ work, IsEnding i (ending parser i (workerName c i) work) := by
  have fresh := isFresh_of_build built
  intro h
  have orderly : h.Orderly := orderly_run rep fresh.orderly past
  have watched : h.Watched c.workerCount.toNat := watched_run rep fresh.watched past
  refine ⟨?_, ?_, ?_, ?_⟩
  · intro work ss
    obtain ⟨fate, shows, caused, full⟩ := fate_of_submission rep orderly work ss
    refine ⟨fate, shows, ?_, ?_, caused, full⟩
    · intro other too
      exact shows.unique too
    · rw [shows.warned, Fate.message_warnings]
  · intro s t about
    refine ⟨items_step_of_ticket? rep about, ?_, ?_⟩
    · intro interrupted
      have stopping := stopping_of_interrupted about interrupted
      exact shutDown_or_drop_of_stopping rep fresh.stopping_eq past stopping
    · intro ended
      exact settled_of_stopping orderly (watched.stopping_of_shutDown ended) about
  · intro s other
    exact losses_of_aside rep other
  · intro i below
    have named : start.names[i]? = some (workerName c i) := by
      simp [fresh.names_eq, below]
    obtain ⟨taken, -⟩ := opens_run rep start past i
    rw [fresh.unopened_eq, List.nil_append] at taken
    have reports := reportsOf_course rep named past
    rw [fresh.parser_eq] at reports
    exact ⟨_, taken, reports, isEnding_ending parser i _⟩

/-- The worker is at work and the queue is full. -/
def Small.overflow : List Step :=
  [.submit eventful, .pollWorker 0, .advanceJob 0, .submit eventless]

/-- One more submission, and the hub is shut down while it waits. -/
def Small.closed : List Step := [.submit eventful, .shutdown false, .pollSubmission 3]

theorem nothing_lost_silently_overflow :
    let h := (run Small.repertoire Small.hub Small.overflow).1
    let dealings := dealings Small.repertoire 3 (course Small.repertoire h Small.closed)
    Shows 3 Small.eventful .interrupted (run Small.repertoire h Small.closed).1 dealings ∧
      (warningsIn dealings).map Log.message = ["Work item dropped while putting it on the queue"] ∧
      (h.queue.capacity.isSome ∧ h.queue.free = 0) ∧
      reportsOf Small.repertoire 0 (course Small.repertoire Small.hub Small.overflow) =
        jobReport Small.parser 0 "gerrit-worker-0" Small.eventful := by
  intro h dealings
  obtain ⟨fates, -, -, jobs⟩ :=
    nothing_lost_silently Small.built Small.repertoire Small.overflow
  obtain ⟨fate, shows, unique, messages, -, full⟩ :=
    fates Small.eventful [.shutdown false, .pollSubmission 3]
  obtain rfl : .interrupted = fate := unique .interrupted ⟨rfl, rfl, rfl⟩
  obtain ⟨opened, taken, reports, -⟩ := jobs 0 Nat.zero_lt_one
  have one : opened = [Small.eventful] := by
    have taken : [Small.eventful] = opened ++ [] := taken
    rw [taken, List.append_nil]
  rw [one] at reports
  exact ⟨shows, messages, full nofun, reports⟩

end Hub

end ReviewHub
