import ReviewHub.Proofs.Queue.Contents
import Mathlib.Data.List.Nodup

/-!
# Slots

Where the slots of a queue are: each is taken up by an envelope, reserved for a waiting push, or
free. The waiting pushes that own a slot stand before those that own none, and while one of the
latter waits no slot is free. Every operation keeps this account. Within an operation a slot may be
on its way from one place to another; it then counts as missing.
-/

namespace ReviewHub.Queue

/-- The waiting pushes that own a slot, in order of arrival. -/
def owners (q : Queue) : List Waiter := q.waiting.filter (·.granted)

/-- The waiting pushes that own none, in order of arrival. -/
def others (q : Queue) : List Waiter := q.waiting.filter (!·.granted)

/-- The account of a queue with the capacity, of whose slots some are missing. -/
structure Slotted (q : Queue) (capacity : Option Nat) (missing : Nat) : Prop where
  capacity_eq : q.capacity = capacity
  queued_eq : q.queued = q.items.length
  /-- Those that own a slot stand first. -/
  waiting_eq : q.waiting = q.owners ++ q.others
  account : ∀ c, capacity = some c → q.items.length + q.owners.length + q.free + missing = c
  full : q.others ≠ [] → q.free = 0
  unbounded : capacity = none → q.waiting = []

variable {q : Queue} {capacity : Option Nat} {missing : Nat} {t : Ticket} {w : Waiter}

/-! ### Owners and others -/

theorem granted_of_mem_owners (member : w ∈ q.owners) : w.granted = true :=
  (List.mem_filter.mp member).2

theorem not_granted_of_mem_others (member : w ∈ q.others) : w.granted = false := by
  simpa using (List.mem_filter.mp member).2

theorem mem_waiting_of_mem_owners (member : w ∈ q.owners) : w ∈ q.waiting :=
  List.mem_of_mem_filter member

theorem mem_waiting_of_mem_others (member : w ∈ q.others) : w ∈ q.waiting :=
  List.mem_of_mem_filter member

/-- A line of owners and then others is parted there. -/
theorem parted_of_waiting {us vs : List Waiter} (waiting : q.waiting = us ++ vs)
    (own : ∀ w ∈ us, w.granted = true) (lack : ∀ w ∈ vs, w.granted = false) :
    q.owners = us ∧ q.others = vs := by
  have all : us.filter (·.granted) = us := List.filter_eq_self.mpr own
  have none : vs.filter (·.granted) = [] := by
    refine List.filter_eq_nil_iff.mpr ?_
    intro w member
    simp [lack w member]
  have nobody : us.filter (!·.granted) = [] := by
    refine List.filter_eq_nil_iff.mpr ?_
    intro w member
    simp [own w member]
  have rest : vs.filter (!·.granted) = vs := by
    refine List.filter_eq_self.mpr ?_
    intro w member
    simp [lack w member]
  rw [owners, others, waiting, List.filter_append, List.filter_append, all, none, nobody, rest]
  exact ⟨List.append_nil us, rfl⟩

theorem tickets_eq (q : Queue) : q.tickets = q.waiting.map Waiter.ticket := by
  simp [tickets, line]

theorem mem_waiting_of_waiter? (found : q.waiter? t = some w) : w ∈ q.waiting :=
  List.mem_of_find?_eq_some found

/-- With distinct tickets, whoever waits under the same ticket is the same. -/
theorem eq_of_ticket (distinct : q.tickets.Nodup) {u v : Waiter} (one : u ∈ q.waiting)
    (other : v ∈ q.waiting) (same : u.ticket = v.ticket) : u = v := by
  rw [tickets_eq] at distinct
  exact List.inj_on_of_nodup_map distinct one other same

/-! ### Leaving the line -/

theorem owners_leaveLine (q : Queue) (t : Ticket) :
    (q.leaveLine t).owners = q.owners.filter (·.ticket ≠ t) := by
  simp only [owners, leaveLine, List.filter_filter, Bool.and_comm]

theorem others_leaveLine (q : Queue) (t : Ticket) :
    (q.leaveLine t).others = q.others.filter (·.ticket ≠ t) := by
  simp only [others, leaveLine, List.filter_filter, Bool.and_comm]

theorem length_filter_ticket {ws : List Waiter} (distinct : (ws.map Waiter.ticket).Nodup)
    (member : w ∈ ws) : (ws.filter (·.ticket ≠ w.ticket)).length + 1 = ws.length := by
  induction ws with
  | nil => cases member
  | cons v ws ih =>
      obtain ⟨first, rest⟩ := List.nodup_cons.mp distinct
      rcases List.mem_cons.mp member with rfl | later
      · have others : ws.filter (·.ticket ≠ w.ticket) = ws := by
          refine List.filter_eq_self.mpr ?_
          intro u there
          have elsewhere : u.ticket ≠ w.ticket := fun same =>
            first (List.mem_map.mpr ⟨u, there, same⟩)
          simpa using elsewhere
        rw [List.filter_cons_of_neg (by simp), others, List.length_cons]
      · have elsewhere : v.ticket ≠ w.ticket := fun same =>
          first (List.mem_map.mpr ⟨w, later, same.symm⟩)
        rw [List.filter_cons_of_pos (by simpa using elsewhere), List.length_cons,
          List.length_cons, ih rest later]

/-- One of the owners leaves, and its slot is missing. -/
theorem length_owners_leaveLine (distinct : q.tickets.Nodup) (found : q.waiter? t = some w)
    (granted : w.granted = true) :
    (q.leaveLine w.ticket).owners.length + 1 = q.owners.length := by
  have member : w ∈ q.owners := List.mem_filter.mpr ⟨mem_waiting_of_waiter? found, granted⟩
  rw [tickets_eq] at distinct
  rw [owners_leaveLine]
  exact length_filter_ticket (distinct.sublist (List.filter_sublist.map _)) member

/-- Where somebody else leaves, the owners stay. -/
theorem owners_leaveLine_of_not_granted (distinct : q.tickets.Nodup)
    (found : q.waiter? t = some w) (granted : w.granted = false) :
    (q.leaveLine w.ticket).owners = q.owners := by
  rw [owners_leaveLine]
  refine List.filter_eq_self.mpr ?_
  intro u member
  have elsewhere : u.ticket ≠ w.ticket := by
    intro same
    have equal := eq_of_ticket distinct (mem_waiting_of_mem_owners member)
      (mem_waiting_of_waiter? found) same
    have own := granted_of_mem_owners member
    rw [equal, granted] at own
    cases own
  simpa using elsewhere

/-- Where an owner leaves, those who own no slot stay. -/
theorem others_leaveLine_of_granted (distinct : q.tickets.Nodup) (found : q.waiter? t = some w)
    (granted : w.granted = true) : (q.leaveLine w.ticket).others = q.others := by
  rw [others_leaveLine]
  refine List.filter_eq_self.mpr ?_
  intro u member
  have elsewhere : u.ticket ≠ w.ticket := by
    intro same
    have equal := eq_of_ticket distinct (mem_waiting_of_mem_others member)
      (mem_waiting_of_waiter? found) same
    have lack := not_granted_of_mem_others member
    rw [equal, granted] at lack
    cases lack
  simpa using elsewhere

theorem waiting_leaveLine (parted : q.waiting = q.owners ++ q.others) (t : Ticket) :
    (q.leaveLine t).waiting = (q.leaveLine t).owners ++ (q.leaveLine t).others := by
  rw [owners_leaveLine, others_leaveLine, ← List.filter_append, ← parted]
  rfl

/-! ### Slots on their way -/

theorem grantFirst_append {us : List Waiter} (own : ∀ w ∈ us, w.granted = true)
    (vs : List Waiter) : grantFirst (us ++ vs) = (grantFirst vs).map (us ++ ·) := by
  induction us with
  | nil => exact Option.map_id'.symm
  | cons u us ih =>
      rw [List.cons_append, grantFirst, if_pos (own u List.mem_cons_self),
        ih fun w member => own w (List.mem_cons_of_mem u member), Option.map_map]
      rfl

/-- A slot that is given back goes to the first waiting push that owns none, or else it is free. -/
theorem giveSlot_eq (parted : q.waiting = q.owners ++ q.others) :
    q.giveSlot =
      match q.others with
      | [] => { q with free := q.free + 1 }
      | v :: vs => { q with waiting := q.owners ++ { v with granted := true } :: vs } := by
  have first : grantFirst q.waiting = (grantFirst q.others).map (q.owners ++ ·) := by
    rw [parted]
    exact grantFirst_append (fun _ => granted_of_mem_owners) _
  rw [Queue.giveSlot, first]
  cases lacking : q.others with
  | nil => rfl
  | cons v vs =>
      have lack : v.granted = false :=
        not_granted_of_mem_others (by rw [lacking]; exact List.mem_cons_self)
      rw [grantFirst, lack]
      rfl

theorem Slotted.giveSlot (slotted : q.Slotted capacity 1) : q.giveSlot.Slotted capacity 0 := by
  rw [giveSlot_eq slotted.waiting_eq]
  cases lacking : q.others with
  | nil =>
      refine ⟨slotted.capacity_eq, slotted.queued_eq, slotted.waiting_eq, ?_, ?_,
        slotted.unbounded⟩
      · intro c bounded
        have account := slotted.account c bounded
        change q.items.length + q.owners.length + (q.free + 1) + 0 = c
        omega
      · intro somebody
        exact absurd lacking somebody
  | cons v vs =>
      have own (w : Waiter) (member : w ∈ q.owners ++ [{ v with granted := true }]) :
          w.granted = true := by
        rcases List.mem_append.mp member with before | last
        · exact granted_of_mem_owners before
        · rw [List.mem_singleton.mp last]
      have lack (w : Waiter) (member : w ∈ vs) : w.granted = false := by
        refine not_granted_of_mem_others (q := q) ?_
        rw [lacking]
        exact List.mem_cons_of_mem v member
      let r : Queue := { q with waiting := q.owners ++ { v with granted := true } :: vs }
      have split : r.waiting = q.owners ++ [{ v with granted := true }] ++ vs := by simp [r]
      obtain ⟨owners, others⟩ := parted_of_waiting split own lack
      have none : q.free = 0 := slotted.full (by simp [lacking])
      refine ⟨slotted.capacity_eq, slotted.queued_eq, ?_, ?_, fun _ => none, ?_⟩
      · exact split.trans (by rw [owners, others])
      · intro c bounded
        have account := slotted.account c bounded
        change q.items.length + r.owners.length + q.free + 0 = c
        rw [owners, List.length_append, List.length_singleton]
        omega
      · intro unbounded
        have nobody := slotted.unbounded unbounded
        have waits : v ∈ q.waiting :=
          mem_waiting_of_mem_others (by rw [lacking]; exact List.mem_cons_self)
        rw [nobody] at waits
        cases waits

theorem Slotted.append (slotted : q.Slotted capacity 1) (work : Envelope) :
    (q.append work).Slotted capacity 0 := by
  refine ⟨slotted.capacity_eq, ?_, slotted.waiting_eq, ?_, slotted.full, slotted.unbounded⟩
  · rw [queued_append, items_append, slotted.queued_eq]
    simp
  · intro c bounded
    have account := slotted.account c bounded
    change (q.items ++ [work]).length + q.owners.length + q.free + 0 = c
    rw [List.length_append, List.length_singleton]
    omega

/-- Without a capacity no slot can be missing. -/
theorem Slotted.of_unbounded (slotted : q.Slotted none missing) (other : Nat) :
    q.Slotted none other :=
  ⟨slotted.capacity_eq, slotted.queued_eq, slotted.waiting_eq, by simp, slotted.full,
    slotted.unbounded⟩

/-- The slot of an owner that leaves is missing; all else is as it was. -/
theorem Slotted.leaveLine (slotted : q.Slotted capacity 0) (distinct : q.tickets.Nodup)
    (found : q.waiter? t = some w) :
    (q.leaveLine w.ticket).Slotted capacity (if w.granted then 1 else 0) := by
  refine ⟨slotted.capacity_eq, slotted.queued_eq, waiting_leaveLine slotted.waiting_eq _, ?_, ?_,
    ?_⟩
  · intro c bounded
    have account := slotted.account c bounded
    change q.items.length + (q.leaveLine w.ticket).owners.length + q.free + _ = c
    cases granted : w.granted with
    | true =>
        have left := length_owners_leaveLine distinct found granted
        simp only [if_true]
        omega
    | false =>
        rw [owners_leaveLine_of_not_granted distinct found granted]
        exact account
  · intro somebody
    refine slotted.full ?_
    intro nobody
    refine somebody ?_
    rw [others_leaveLine, nobody, List.filter_nil]
  · intro unbounded
    have nobody : q.waiting = [] := slotted.unbounded unbounded
    rw [Queue.leaveLine, nobody, List.filter_nil]

/-! ### Operations -/

theorem slotted_of_build {q : Queue} (built : build capacity = .ok q) :
    q.Slotted capacity 0 ∧ capacity ≠ some 0 := by
  obtain ⟨room, rfl⟩ := eq_of_build built
  refine ⟨⟨rfl, rfl, rfl, ?_, ?_, fun _ => rfl⟩, room⟩
  · rintro c rfl
    simp [owners]
  · intro somebody
    exact absurd rfl somebody

theorem Slotted.withdraw (slotted : q.Slotted capacity 0) (distinct : q.tickets.Nodup)
    (found : q.waiter? t = some w) : (q.withdraw w).Slotted capacity 0 := by
  have left := slotted.leaveLine distinct found
  rw [Queue.withdraw]
  cases granted : w.granted with
  | true =>
      rw [granted] at left
      exact left.giveSlot
  | false =>
      rw [granted] at left
      exact left

theorem Slotted.pollPush (slotted : q.Slotted capacity 0) (distinct : q.tickets.Nodup)
    (found : q.waiter? t = some w) (interrupted : Bool) :
    (q.pollPush w interrupted).2.Slotted capacity 0 := by
  rw [Queue.pollPush]
  split
  · exact slotted.withdraw distinct found
  · split
    · next granted =>
        have left := slotted.leaveLine distinct found
        rw [granted] at left
        exact left.append w.work
    · exact slotted

/-- A push takes a free slot, or stands last in line without one. -/
theorem Slotted.push (slotted : q.Slotted capacity 0) (t : Ticket) (work : Envelope)
    (interrupted : Bool) : (q.push t work interrupted).2.1.Slotted capacity 0 := by
  have same := slotted.capacity_eq
  rw [Queue.push]
  split
  · next unbounded =>
      obtain rfl : none = capacity := unbounded.symm.trans same
      exact (slotted.of_unbounded 1).append work
  · next n free bounded some =>
      have taken : ({ q with free := free } : Queue).Slotted capacity 1 := by
        refine ⟨same, slotted.queued_eq, slotted.waiting_eq, ?_, ?_, slotted.unbounded⟩
        · intro c bounded
          have account := slotted.account c bounded
          change q.items.length + q.owners.length + free + 1 = c
          omega
        · intro somebody
          have none := slotted.full somebody
          omega
      exact taken.append work
  · next n bounded none =>
      split
      · exact slotted
      · let r : Queue := { q with waiting := q.waiting ++ [⟨t, work, false⟩] }
        have split : r.waiting = q.owners ++ (q.others ++ [⟨t, work, false⟩]) := by
          rw [← List.append_assoc, ← slotted.waiting_eq]
        have lack (w : Waiter) (member : w ∈ q.others ++ [⟨t, work, false⟩]) :
            w.granted = false := by
          rcases List.mem_append.mp member with before | last
          · exact not_granted_of_mem_others before
          · rw [List.mem_singleton.mp last]
        obtain ⟨owners, others⟩ := parted_of_waiting split (fun _ => granted_of_mem_owners) lack
        refine ⟨same, slotted.queued_eq, split.trans (by rw [owners, others]), ?_, fun _ => none,
          ?_⟩
        · intro c bounded
          have account := slotted.account c bounded
          change q.items.length + r.owners.length + q.free + 0 = c
          rw [owners]
          exact account
        · intro unbounded
          rw [unbounded, bounded] at same
          cases same

theorem Slotted.take {r : Queue} {work : Envelope} (slotted : q.Slotted capacity 0)
    (taken : q.take = some (work, r)) : r.Slotted capacity 0 := by
  unfold Queue.take at taken
  split at taken
  · cases taken
  · next es items =>
      let rest : Queue := { q with items := es, queued := q.queued - 1 }
      have short (missing : Nat) (slot : ∀ c, capacity = some c → missing = 1) :
          rest.Slotted capacity missing := by
        have queued := slotted.queued_eq
        refine ⟨slotted.capacity_eq, ?_, slotted.waiting_eq, ?_, slotted.full, slotted.unbounded⟩
        · change q.queued - 1 = es.length
          rw [items, List.length_cons] at queued
          omega
        · intro c bounded
          have account := slotted.account c bounded
          have one := slot c bounded
          change es.length + q.owners.length + q.free + missing = c
          rw [items, List.length_cons] at account
          omega
      cases taken
      change (if rest.capacity.isSome then rest.giveSlot else rest).Slotted capacity 0
      split
      · exact (short 1 fun _ _ => rfl).giveSlot
      · next unbounded =>
          refine short 0 ?_
          intro c bounded
          exact absurd (congrArg Option.isSome (slotted.capacity_eq.trans bounded)) unbounded

/-- The line of pulls has no part in the account. -/
theorem Slotted.withPulls (slotted : q.Slotted capacity missing) (pulls : List Ticket) :
    ({ q with pulls := pulls } : Queue).Slotted capacity missing :=
  ⟨slotted.capacity_eq, slotted.queued_eq, slotted.waiting_eq, slotted.account, slotted.full,
    slotted.unbounded⟩

theorem Slotted.dropPull (slotted : q.Slotted capacity 0) (t : Ticket) :
    (q.dropPull t).Slotted capacity 0 :=
  slotted.withPulls _

theorem Slotted.pollPull (slotted : q.Slotted capacity 0) (t : Ticket) :
    (q.pollPull t).2.Slotted capacity 0 := by
  rw [Queue.pollPull]
  split
  · split
    · next taken => exact (slotted.take taken).dropPull t
    · exact slotted
  · exact slotted

theorem Slotted.pull (slotted : q.Slotted capacity 0) (t : Ticket) :
    (q.pull t).2.Slotted capacity 0 :=
  (slotted.withPulls _).pollPull t

theorem Slotted.tryPull (slotted : q.Slotted capacity 0) : q.tryPull.2.Slotted capacity 0 := by
  rw [Queue.tryPull]
  split
  · next taken => exact slotted.take taken
  · exact slotted

theorem Slotted.foldl_dropPull (slotted : q.Slotted capacity 0) (ts : List Ticket) :
    (ts.foldl Queue.dropPull q).Slotted capacity 0 := by
  induction ts generalizing q with
  | nil => exact slotted
  | cons t ts ih => exact ih (slotted.dropPull t)

/-- All that one operation can do to a queue. -/
inductive Change (q : Queue) : Queue → Prop where
  | same : Change q q
  | push (t : Ticket) (work : Envelope) (interrupted : Bool) :
      Change q (q.push t work interrupted).2.1
  | pollPush {t : Ticket} {w : Waiter} (found : q.waiter? t = some w) (interrupted : Bool) :
      Change q (q.pollPush w interrupted).2
  | dropPush {t : Ticket} {w : Waiter} (found : q.waiter? t = some w) : Change q (q.dropPush w).1
  | pull (t : Ticket) : Change q (q.pull t).2
  | pollPull (t : Ticket) : Change q (q.pollPull t).2
  | dropPulls (ts : List Ticket) : Change q (ts.foldl dropPull q)
  | tryPull : Change q q.tryPull.2

/-- Whatever is done to a queue keeps the account. -/
theorem Slotted.change {r : Queue} (slotted : q.Slotted capacity 0) (distinct : q.tickets.Nodup)
    (change : Change q r) : r.Slotted capacity 0 := by
  cases change with
  | same => exact slotted
  | push t work interrupted => exact slotted.push t work interrupted
  | pollPush found interrupted => exact slotted.pollPush distinct found interrupted
  | dropPush found => exact slotted.withdraw distinct found
  | pull t => exact slotted.pull t
  | pollPull t => exact slotted.pollPull t
  | dropPulls ts => exact slotted.foldl_dropPull ts
  | tryPull => exact slotted.tryPull

/-! ### What the account tells -/

section Account

variable (slotted : q.Slotted capacity 0)

include slotted

theorem Slotted.size_eq : q.size = q.items.length := by
  rw [size, slotted.queued_eq, Int.toNat_natCast]

/-- Where nothing is in the queue, the first in line owns a slot. -/
theorem Slotted.granted_of_first (room : capacity ≠ some 0) (empty : q.items = [])
    {ws : List Waiter} (first : q.waiting = w :: ws) : w.granted = true := by
  have parted := slotted.waiting_eq
  rw [first] at parted
  cases own : q.owners with
  | cons v vs =>
      rw [own] at parted
      obtain ⟨rfl, -⟩ := List.cons.inj parted
      exact granted_of_mem_owners (by rw [own]; exact List.mem_cons_self)
  | nil =>
      rw [own, List.nil_append] at parted
      have none : q.free = 0 := slotted.full (by simp [← parted])
      cases bound : capacity with
      | none =>
          have nobody := slotted.unbounded bound
          rw [first] at nobody
          cases nobody
      | some c =>
          have account := slotted.account c bound
          rw [empty, own, none] at account
          exact absurd (bound.trans (congrArg some account.symm)) room

/-- A push is accepted at once exactly when not all slots are taken up or reserved. -/
theorem Slotted.push_accepted_iff {c : Nat} (bounded : capacity = some c) (t : Ticket)
    (work : Envelope) (interrupted : Bool) :
    (q.push t work interrupted).1 = .accepted ↔ q.items.length + q.owners.length < c := by
  have account := slotted.account c bounded
  have same := slotted.capacity_eq.trans bounded
  rw [Queue.push, same]
  cases none : q.free with
  | zero =>
      have notBelow : ¬q.items.length + q.owners.length < c := by omega
      cases interrupted <;> simp [notBelow]
  | succ free =>
      have below : q.items.length + q.owners.length < c := by omega
      simp [below]

/-- An owner that is withdrawn leaves its slot to the first of the others, or it is free. -/
theorem Slotted.withdraw_eq (distinct : q.tickets.Nodup) (found : q.waiter? t = some w)
    (granted : w.granted = true) :
    q.withdraw w =
      match q.others with
      | [] => { q with waiting := q.owners.filter (·.ticket ≠ t), free := q.free + 1 }
      | v :: vs =>
        { q with
          waiting := q.owners.filter (·.ticket ≠ t) ++ { v with granted := true } :: vs } := by
  have left := waiting_leaveLine slotted.waiting_eq w.ticket
  have others := others_leaveLine_of_granted distinct found granted
  rw [Queue.withdraw, granted, if_pos rfl, giveSlot_eq left, others, owners_leaveLine,
    ticket_of_waiter? found]
  cases lacking : q.others with
  | nil =>
      have waiting : (q.leaveLine t).waiting = q.owners.filter (·.ticket ≠ t) := by
        rw [← ticket_of_waiter? found, left, others, lacking, List.append_nil, owners_leaveLine]
      simp only [← waiting]
      rfl
  | cons v vs => rfl

end Account

end ReviewHub.Queue
