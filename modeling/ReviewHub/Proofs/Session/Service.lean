import ReviewHub.Proofs.Queue.Pulls
import ReviewHub.Proofs.Session.Slots

/-!
# The order of service

Pulls are served strictly in the order in which they were started. Which pulls are pending is read
off the operations and their answers: a pull becomes pending when it has to wait, and it is pending
until it is served or dropped. The queue keeps exactly these in line, and the first of them has the
right to take, whether or not it has been looked at since it came first. So the right passes on at
once when its owner is served or dropped, and nobody who came later gets anything before.
-/

namespace ReviewHub.Session

/-! ### Pending pulls -/

namespace Turn

/-- The pull that is started and has to wait. -/
def waits? (n : Turn) : Option Ticket :=
  match n.operation, n.answer with
  | .pull t, .pulled none => some t
  | _, _ => none

/-- The pull that is served. -/
def serves? (n : Turn) : Option Ticket :=
  match n.operation, n.answer with
  | .pull t, .pulled (some _) => some t
  | .pollPull t, .pulled (some _) => some t
  | _, _ => none

/-- The pull that is not pending any more: it has been looked at and served, or dropped. -/
def ends? (n : Turn) : Option Ticket :=
  match n.operation, n.answer with
  | .pollPull t, .pulled (some _) => some t
  | .dropPull t, _ => some t
  | _, _ => none

/-- The pulls that are pending after the turn, if these were pending before. -/
def pending (ts : List Ticket) (n : Turn) : List Ticket :=
  ts.filter (n.ends? ≠ some ·) ++ n.waits?.toList

end Turn

/-- The pulls that are pending after the turns, in the order in which they were started. -/
def pendingAfter (ns : List Turn) : List Ticket := ns.foldl Turn.pending []

variable {s : Session} {n : Turn} {t u : Ticket}

theorem inUse_iff : s.inUse t = true ↔ t ∈ s.queue.tickets ∨ t ∈ s.queue.pulls := by
  have waiting : (s.queue.waiter? t).isSome = true ↔ t ∈ s.queue.tickets := by
    rw [← not_iff_not, Bool.not_eq_true, Option.isSome_eq_false_iff, Option.isNone_iff_eq_none,
      Queue.waiter?_eq_none_iff]
  rw [inUse, Bool.or_eq_true, waiting, List.contains_iff_mem]

theorem not_mem_of_not_inUse (unused : ¬s.inUse t) : t ∉ s.queue.pulls :=
  fun pending => unused (inUse_iff.mpr (.inr pending))

theorem apply_pull (unused : ¬s.inUse t) :
    s.apply (.pull t) =
      (.pulled (s.queue.pull t).1, { s with queue := (s.queue.pull t).2 }, []) := by
  rw [apply, if_neg unused]

theorem apply_pollPull (pending : t ∈ s.queue.pulls) :
    s.apply (.pollPull t) =
      (.pulled (s.queue.pollPull t).1, { s with queue := (s.queue.pollPull t).2 }, []) := by
  rw [apply, if_pos pending]

/-! ### The line -/

theorem pending_of_same (ends : n.ends? = none) (waits : n.waits? = none) (ts : List Ticket) :
    n.pending ts = ts := by
  simp [Turn.pending, ends, waits]

/-- The queue keeps the pending pulls in line. -/
theorem pulls_apply (s : Session) (o : Operation) :
    (s.apply o).2.1.queue.pulls = Turn.pending s.queue.pulls ⟨s, o⟩ := by
  cases o with
  | push t work token =>
      rw [pending_of_same rfl rfl]
      by_cases used : s.inUse t <;> simp [apply, used]
  | pollPush t =>
      rw [pending_of_same rfl rfl]
      cases found : s.queue.waiter? t <;> simp [apply, found]
  | dropPush t =>
      rw [pending_of_same rfl rfl]
      cases found : s.queue.waiter? t <;> simp [apply, found]
  | pull t =>
      by_cases used : s.inUse t
      · simp [Turn.pending, Turn.ends?, Turn.waits?, Turn.answer, apply, used]
      · simp only [Turn.pending, Turn.ends?, Turn.waits?, Turn.answer,
          apply_pull used, Queue.pulls_pull (not_mem_of_not_inUse used)]
        cases (s.queue.pull t).1 <;> simp
  | pollPull t =>
      by_cases waiting : t ∈ s.queue.pulls
      · simp only [Turn.pending, Turn.ends?, Turn.waits?, Turn.answer,
          apply_pollPull waiting, Queue.pulls_pollPull]
        cases (s.queue.pollPull t).1 <;> simp [eq_comm]
      · simp [Turn.pending, Turn.ends?, Turn.waits?, Turn.answer, apply, waiting]
  | dropPull t =>
      simp [Turn.pending, Turn.ends?, Turn.waits?, apply, Queue.dropPull, eq_comm]
  | tryPull =>
      rw [pending_of_same rfl rfl]
      simp [apply]
  | cancel token => rw [pending_of_same rfl rfl]; rfl

theorem pulls_run (s : Session) (os : List Operation) :
    (s.run os).2.queue.pulls = (s.turns os).foldl Turn.pending s.queue.pulls := by
  induction os generalizing s with
  | nil => rfl
  | cons o os ih =>
      rw [session_run_cons, ih, turns, List.foldl_cons, pulls_apply]

theorem pulls_before {os : List Operation} {past later : List Turn}
    (split : s.turns os = past ++ n :: later) :
    n.before.queue.pulls = past.foldl Turn.pending s.queue.pulls := by
  induction past generalizing s os with
  | nil =>
      cases os with
      | nil => cases split
      | cons o os =>
          obtain ⟨rfl, -⟩ := List.cons.inj split
          rfl
  | cons first past ih =>
      cases os with
      | nil => cases split
      | cons o os =>
          obtain ⟨rfl, rest⟩ := List.cons.inj split
          rw [ih rest, List.foldl_cons, pulls_apply]

/-- Nothing is started under a ticket in use. -/
theorem unused_of_waits? (waits : n.waits? = some t) :
    n.operation = .pull t ∧ ¬n.before.inUse t := by
  obtain ⟨s, o⟩ := n
  cases o with
  | pull v =>
      by_cases used : s.inUse v
      · simp [Turn.waits?, Turn.answer, apply, used] at waits
      · have same : v = t := by
          rw [Turn.waits?] at waits
          split at waits
          · next pull _ => cases pull; exact Option.some.inj waits
          · cases waits
        subst same
        exact ⟨rfl, used⟩
  | _ => cases waits

theorem not_mem_of_waits? (waits : n.waits? = some t) : t ∉ n.before.queue.pulls :=
  not_mem_of_not_inUse (unused_of_waits? waits).2

theorem nodup_pending {ts : List Ticket} (distinct : ts.Nodup)
    (absent : ∀ t, n.waits? = some t → t ∉ ts) : (n.pending ts).Nodup := by
  have others := distinct.filter (n.ends? ≠ some ·)
  rw [Turn.pending]
  cases waits : n.waits? with
  | none => simpa using others
  | some t =>
      refine others.append (List.nodup_singleton t) ?_
      simpa using fun member : t ∈ ts => absurd member (absent t waits)

/-- Pulls that are pending together go by different tickets. -/
theorem nodup_pulls_run (distinct : s.queue.pulls.Nodup) (os : List Operation) :
    (s.run os).2.queue.pulls.Nodup := by
  refine run_invariant (P := fun s _ => s.queue.pulls.Nodup) ?_ [] distinct os
  intro s _ o before
  rw [pulls_apply]
  exact nodup_pending before fun t => not_mem_of_waits? (n := ⟨s, o⟩)

/-! ### Nobody is passed by -/

/-- Whoever does not leave the line keeps those behind it behind. -/
theorem pending_split {ns : List Turn} (stays : ∀ k ∈ ns, k.ends? ≠ some u)
    (front back : List Ticket) :
    ∃ ahead behind, ns.foldl Turn.pending (front ++ u :: back) = ahead ++ u :: behind ∧
      ahead.Sublist front := by
  induction ns generalizing front back with
  | nil => exact ⟨front, back, rfl, .refl front⟩
  | cons n ns ih =>
      have here : n.pending (front ++ u :: back) =
          front.filter (n.ends? ≠ some ·) ++
            u :: (back.filter (n.ends? ≠ some ·) ++ n.waits?.toList) := by
        have kept : n.ends? ≠ some u := stays n List.mem_cons_self
        simp [Turn.pending, kept]
      obtain ⟨ahead, behind, rest, fewer⟩ :=
        ih (fun k member => stays k (List.mem_cons_of_mem n member))
          (front.filter (n.ends? ≠ some ·)) (back.filter (n.ends? ≠ some ·) ++ n.waits?.toList)
      refine ⟨ahead, behind, ?_, fewer.trans List.filter_sublist⟩
      rw [List.foldl_cons, here, rest]

/-- A pull is served only as the first in line, or at once when nobody is in line. -/
theorem first_of_serves? (serves : n.serves? = some t) :
    n.operation = .pollPull t ∧ n.before.queue.pulls.head? = some t ∨
      n.operation = .pull t ∧ n.before.queue.pulls = [] := by
  obtain ⟨s, o⟩ := n
  cases o with
  | pull v =>
      by_cases used : s.inUse v
      · simp [Turn.serves?, Turn.answer, apply, used] at serves
      · rw [Turn.serves?, Turn.answer, apply_pull used,
          Queue.pull_eq (not_mem_of_not_inUse used)] at serves
        split at serves <;> simp_all
  | pollPull v =>
      by_cases waiting : v ∈ s.queue.pulls
      · rw [Turn.serves?, Turn.answer, apply_pollPull waiting] at serves
        cases served : (s.queue.pollPull v).1 with
        | none => simp [served] at serves
        | some work =>
            simp only [served, Option.some.injEq] at serves
            subst serves
            exact .inl ⟨rfl, Queue.first_of_pollPull served⟩
      · simp [Turn.serves?, Turn.answer, apply, waiting] at serves
  | _ => cases serves

/-- No pull is served while one that was started earlier is pending. -/
theorem exists_ends?_of_serves? {os : List Operation} {past between later : List Turn} {m : Turn}
    (split : s.turns os = past ++ m :: between ++ n :: later) (earlier : m.waits? = some u)
    (serves : n.serves? = some t)
    (started : n.operation = .pull t ∨ ∃ k ∈ between, k.waits? = some t) :
    ∃ k ∈ between, k.ends? = some u := by
  by_contra! stays
  have joined : (past ++ [m]).foldl Turn.pending s.queue.pulls =
      (past.foldl Turn.pending s.queue.pulls).filter (m.ends? ≠ some ·) ++ u :: [] := by
    rw [List.foldl_append, List.foldl_cons, List.foldl_nil, Turn.pending, earlier]
    rfl
  -- Until `n` the pull `u` is in line, and nobody comes to stand before it.
  rcases first_of_serves? serves with ⟨poll, first⟩ | ⟨-, nobody⟩
  · rcases started with pull | ⟨k, member, waits⟩
    · rw [poll] at pull
      cases pull
    · obtain ⟨sooner, since, rfl⟩ := List.append_of_mem member
      have lineThen : k.before.queue.pulls =
          sooner.foldl Turn.pending ((past ++ [m]).foldl Turn.pending s.queue.pulls) := by
        have there : s.turns os = (past ++ [m] ++ sooner) ++ k :: (since ++ n :: later) := by
          simpa using split
        rw [← List.foldl_append, pulls_before there]
      have lineNow :
          n.before.queue.pulls = (k :: since).foldl Turn.pending k.before.queue.pulls := by
        have here : s.turns os = (past ++ [m] ++ (sooner ++ k :: since)) ++ n :: later := by
          simpa using split
        rw [lineThen, ← List.foldl_append, ← List.foldl_append, pulls_before here]
      obtain ⟨ahead, behind, there, -⟩ := pending_split
        (fun k member => stays k (List.mem_append_left _ member)) _ []
      obtain ⟨front, back, here, fewer⟩ := pending_split
        (fun k member => stays k (List.mem_append_right _ member)) ahead behind
      have absent := not_mem_of_waits? waits
      rw [lineThen, joined, there] at absent
      rw [lineNow, lineThen, joined, there, here] at first
      refine absent ?_
      cases front with
      | nil => exact List.mem_append_right _ (Option.some.inj first ▸ List.mem_cons_self)
      | cons x front =>
          exact List.mem_append_left _
            (fewer.subset (Option.some.inj first ▸ List.mem_cons_self))
  · have lineNow : n.before.queue.pulls =
        between.foldl Turn.pending ((past ++ [m]).foldl Turn.pending s.queue.pulls) := by
      have here : s.turns os = (past ++ [m] ++ between) ++ n :: later := by
        simpa using split
      rw [← List.foldl_append, pulls_before here]
    obtain ⟨ahead, behind, there, -⟩ := pending_split stays _ []
    rw [nobody, joined, there] at lineNow
    simp at lineNow

/-! ### The law -/

/-- Pulls are served strictly in the order in which they were started. The queue keeps the pending
pulls in line. A pull that is served was not started after one that is still pending: that one has
been served or dropped since. At any moment the earliest pending pull is served when it is looked
at, exactly if the queue is not empty, and it gets the oldest envelope; any other goes on waiting,
and nothing changes. A new pull is served at once, and `tryPull` takes an envelope, exactly if there
is one and no pull is pending. Dropping a pending pull changes nothing but that it is in line no
more. -/
theorem pulls_served_in_order {capacity : Option Nat} {q : Queue}
    (built : Queue.build capacity = .ok q) (os : List Operation) :
    let turns := (ofQueue q).turns os
    let s := ((ofQueue q).run os).2
    let pending := pendingAfter turns
    s.queue.pulls = pending ∧ pending.Nodup ∧
      (∀ past m between n later t u, turns = past ++ m :: between ++ n :: later →
        m.waits? = some u → n.serves? = some t →
        (n.operation = .pull t ∨ ∃ k ∈ between, k.waits? = some t) →
          ∃ k ∈ between, k.ends? = some u) ∧
      (∀ t later, pending = t :: later →
        (s.apply (.pollPull t)).1 = .pulled s.queue.items.head? ∧
        ∀ u ∈ later, s.apply (.pollPull u) = (.pulled none, s, [])) ∧
      (∀ t, ¬s.inUse t →
        (s.apply (.pull t)).1 = .pulled (if pending = [] then s.queue.items.head? else none)) ∧
      (s.apply .tryPull).1 = .pulled (if pending = [] then s.queue.items.head? else none) ∧
      ∀ t ∈ pending, s.apply (.dropPull t) =
        (.none, { s with queue := { s.queue with pulls := pending.erase t } }, []) := by
  have nobody : (ofQueue q).queue.pulls = [] := Queue.pulls_of_build built
  intro turns s pending
  have line : s.queue.pulls = pending := by
    rw [pulls_run, nobody]
    rfl
  have distinct : pending.Nodup := by
    rw [← line]
    exact nodup_pulls_run (by rw [nobody]; exact List.nodup_nil) os
  refine ⟨line, distinct, ?_, ?_, ?_, ?_, ?_⟩
  · intro past m between n later t u split earlier serves started
    exact exists_ends?_of_serves? split earlier serves started
  · intro t later first
    rw [first] at line distinct
    refine ⟨?_, ?_⟩
    · rw [apply_pollPull (by rw [line]; exact List.mem_cons_self),
        Queue.pollPull_of_first (by rw [line]; rfl)]
    · intro u member
      have other : s.queue.pulls.head? ≠ some u := by
        rw [line]
        exact fun same => (List.nodup_cons.mp distinct).1 (Option.some.inj same ▸ member)
      rw [apply_pollPull (by rw [line]; exact List.mem_cons_of_mem t member),
        Queue.pollPull_of_later other]
  · intro t unused
    rw [apply_pull unused, Queue.pull_eq (not_mem_of_not_inUse unused), line]
  · rw [← line, ← Queue.tryPull_eq]
    rfl
  · intro t _
    have others : pending.filter (· ≠ t) = pending.erase t := by
      rw [distinct.erase_eq_filter]
      refine List.filter_congr ?_
      intro u _
      by_cases same : u = t <;> simp [same]
    rw [apply, Queue.dropPull, line, others]

/-- Two pulls wait, and the one that holds the right to take is dropped when an envelope has come
in. It is for the other one, even before that is looked at. -/
theorem pulls_served_in_order_passed_on :
    let work : Envelope := ⟨⟨0#128, 0⟩, .text "" none⟩
    let os : List Operation := [.pull 0, .pull 1, .push 2 work "a", .dropPull 0, .pull 3]
    let q : Queue := { capacity := none, free := 0 }
    let s := ((ofQueue q).run os).2
    Queue.build none = .ok q ∧ pendingAfter ((ofQueue q).turns os) = [1, 3] ∧
      (s.apply .tryPull).1 = .pulled none ∧
      s.apply (.pollPull 3) = (.pulled none, s, []) ∧
      (s.apply (.pollPull 1)).1 = .pulled (some work) := by
  intro work os q s
  have built : Queue.build none = .ok q := rfl
  have pending : pendingAfter ((ofQueue q).turns os) = [1, 3] := rfl
  obtain ⟨-, -, -, first, -, guest, -⟩ := pulls_served_in_order built os
  obtain ⟨served, others⟩ := first 1 [3] pending
  refine ⟨built, pending, ?_, others 3 List.mem_cons_self, served⟩
  rw [guest, pending]
  rfl

end ReviewHub.Session
