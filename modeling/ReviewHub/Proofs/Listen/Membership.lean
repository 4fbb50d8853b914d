import ReviewHub.Proofs.Dispatch.Nesting
import Mathlib.Data.List.Induction
import Mathlib.Data.List.Nodup

/-!
# Who is registered

A roster that was empty at first is known by the comings and goings since. A listener is registered
if the last of those that concern it brought it in, and the registered listeners stand in the order
in which they last turned from absent to present: adding one again does not move it, but one that
comes back comes last. A handle of a listener may be new, made from a shared one, or a copy. However
it is come by, it is known by the identity alone, so the law is about all histories of listeners
with any identities.
-/

namespace ReviewHub

/-! ### Comings and goings -/

/-- What happens to the membership of one listener, or of all. -/
inductive Movement where
  | joins (l : Listener)
  | leaves (l : Listener)
  | clears

namespace Movement

/-- It is about the listener with the identity; to clear the roster is about every listener. -/
def concerns (id : Nat) : Movement → Bool
  | joins l => l.identity = id
  | leaves l => l.identity = id
  | clears => true

def isJoin : Movement → Bool
  | joins _ => true
  | _ => false

end Movement

/-- The movements by an action, in order: listeners that are added in one go come in one by one. -/
def Action.movements : Action → List Movement
  | .add l => [.joins l]
  | .addAll ls => ls.map .joins
  | .remove l => [.leaves l]
  | .removeAll => [.clears]
  | .count => []
  | .ignore _ _ => []
  | .notify _ => []

/-- Movements from the beginning, in order. -/
abbrev Movements := List Movement

namespace Movements

/-- The last movement that concerns the listener has brought it in. -/
def registered (ms : Movements) (id : Nat) : Bool :=
  (ms.filter (·.concerns id)).getLast?.any Movement.isJoin

/-- The positions of the movements that turned the listener from absent to present. -/
def arrivals (ms : Movements) (id : Nat) : List Nat :=
  (List.range ms.length).filter fun n =>
    !registered (ms.take n) id && registered (ms.take (n + 1)) id

/-- The position of the last movement that turned the listener from absent to present. -/
def arrival? (ms : Movements) (id : Nat) : Option Nat := (ms.arrivals id).getLast?

/-- The first listener was last brought in before the second one was. -/
def Before (ms : Movements) (id other : Nat) : Prop :=
  ∃ i j, ms.arrival? id = some i ∧ ms.arrival? other = some j ∧ i < j

variable {ms : Movements} {m : Movement} {id n : Nat}

theorem registered_append (ms : Movements) (m : Movement) (id : Nat) :
    registered (ms ++ [m]) id = if m.concerns id then m.isJoin else ms.registered id := by
  rw [registered, List.filter_append]
  split
  · next own => simp [own]
  · next other => simp [other, registered]

theorem arrival?_append (ms : Movements) (m : Movement) (id : Nat) :
    arrival? (ms ++ [m]) id =
      if ms.registered id = false ∧ registered (ms ++ [m]) id = true then some ms.length
      else ms.arrival? id := by
  have before : (List.range ms.length).filter (fun n =>
      !registered ((ms ++ [m]).take n) id && registered ((ms ++ [m]).take (n + 1)) id) =
      ms.arrivals id := by
    refine List.filter_congr ?_
    intro n inside
    have shorter := List.mem_range.mp inside
    rw [List.take_append_of_le_length (Nat.le_of_lt shorter), List.take_append_of_le_length shorter]
  have length : (ms ++ [m]).length = ms.length + 1 := List.length_append
  have whole : (ms ++ [m]).take (ms.length + 1) = ms ++ [m] :=
    List.take_of_length_le (Nat.le_of_eq length)
  have arrives : (List.range ms.length.succ).filter (fun n =>
      !registered ((ms ++ [m]).take n) id && registered ((ms ++ [m]).take (n + 1)) id) =
      ms.arrivals id ++
        if ms.registered id = false ∧ registered (ms ++ [m]) id = true then [ms.length]
        else [] := by
    rw [List.range_succ, List.filter_append, before, List.filter_singleton, List.take_left, whole]
    simp
  rw [arrival?, arrivals, length, arrives]
  split
  · exact List.getLast?_concat
  · rw [List.append_nil, arrival?]

/-- Who is registered after a movement just if it was before did not arrive by it. -/
theorem arrival?_of_registered_eq (same : registered (ms ++ [m]) id = ms.registered id) :
    arrival? (ms ++ [m]) id = ms.arrival? id := by
  rw [arrival?_append, if_neg]
  rintro ⟨absent, present⟩
  rw [same, absent] at present
  cases present

theorem lt_of_arrival? (arrives : ms.arrival? id = some n) : n < ms.length :=
  List.mem_range.mp (List.mem_of_mem_filter (List.mem_of_getLast? arrives))

end Movements

namespace Roster

/-! ### Single movements -/

/-- The roster after a movement. -/
def move (r : Roster) : Movement → Roster
  | .joins l => (r.add l).roster
  | .leaves l => (r.remove l).roster
  | .clears => r.removeAll.roster

/-- The roster after movements. -/
def after (r : Roster) (ms : Movements) : Roster := ms.foldl move r

theorem after_append (r : Roster) (ms ns : Movements) :
    r.after (ms ++ ns) = (r.after ms).after ns :=
  List.foldl_append

variable {r : Roster} {l k : Listener} {ms : Movements}

theorem roster_add_of_contains (registered : r.contains l = true) : (r.add l).roster = r := by
  rw [add, if_pos registered]

theorem listeners_add_of_not_contains (absent : r.contains l = false) :
    (r.add l).roster.listeners = r.listeners ++ [l] := by
  rw [add, absent]
  rfl

theorem contains_iff : r.contains l = true ↔ ∃ k ∈ r.listeners, k.identity = l.identity := by
  simp [contains, isListed]

theorem contains_of_mem (member : l ∈ r.listeners) : r.contains l = true :=
  contains_iff.mpr ⟨l, member, rfl⟩

/-- Adding in one go is adding one by one. -/
theorem merge_eq_after (r : Roster) (ls : List Listener) :
    (merge r.listeners ls).1 = (r.after (ls.map .joins)).listeners := by
  induction ls generalizing r with
  | nil => rfl
  | cons l ls ih =>
      rw [merge, List.map_cons, after, List.foldl_cons, move, ← after]
      cases known : r.contains l with
      | true =>
          have listed : isListed l r.listeners = true := known
          rw [if_pos listed, roster_add_of_contains known, ← ih]
      | false =>
          have unlisted : ¬isListed l r.listeners = true := by
            rw [← contains, known]
            exact Bool.false_ne_true
          rw [if_neg unlisted, ← ih, listeners_add_of_not_contains known]

/-- Whoever is added comes after those who were there. -/
theorem exists_listeners_append (r : Roster) (ls : List Listener) :
    ∃ new, (r.after (ls.map .joins)).listeners = r.listeners ++ new := by
  induction ls generalizing r with
  | nil => exact ⟨[], (List.append_nil _).symm⟩
  | cons l ls ih =>
      obtain ⟨new, rest⟩ := ih (r.add l).roster
      cases known : r.contains l with
      | true =>
          rw [roster_add_of_contains known] at rest
          refine ⟨new, ?_⟩
          rw [← rest, List.map_cons, after, List.foldl_cons, move, roster_add_of_contains known,
            after]
      | false =>
          rw [listeners_add_of_not_contains known, List.append_assoc] at rest
          exact ⟨[l] ++ new, rest⟩

theorem answer_addAll (r : Roster) (ls : List Listener) :
    (r.addAll ls).answer =
      (r.after (ls.map .joins)).listeners.length - r.listeners.length := by
  rw [← merge_eq_after]
  rfl

theorem roster_addAll (r : Roster) (ls : List Listener) :
    (r.addAll ls).roster = r.after (ls.map .joins) := by
  have shown : (r.addAll ls).roster =
      if (r.addAll ls).answer = 0 then r else ⟨(merge r.listeners ls).1⟩ := rfl
  obtain ⟨new, all⟩ := exists_listeners_append r ls
  rw [shown, merge_eq_after, answer_addAll, all, List.length_append, Nat.add_sub_cancel_left]
  split
  · next nobody =>
      rw [List.length_eq_zero_iff.mp nobody, List.append_nil] at all
      exact congrArg Roster.mk all.symm
  · rw [← all]

/-- An action moves the listeners of its movements in and out. -/
theorem roster_act (b : Switchboard) (a : Action) :
    (b.act a).2.1.roster = b.roster.after a.movements := by
  cases a with
  | addAll ls => exact roster_addAll b.roster ls
  | _ => rfl

theorem roster_replay (b : Switchboard) (actions : List Action) :
    (Dispatch.replay b actions).roster = b.roster.after (actions.flatMap Action.movements) := by
  induction actions generalizing b with
  | nil => rfl
  | cons a actions ih =>
      rw [Dispatch.replay, List.foldl_cons, ← Dispatch.replay, ih, roster_act, List.flatMap_cons,
        after_append]

/-! ### The record -/

/-- The identities of the registered listeners, in order. -/
def members (r : Roster) : List Nat := r.listeners.map Listener.identity

theorem mem_members {id : Nat} : id ∈ r.members ↔ ∃ l ∈ r.listeners, l.identity = id :=
  List.mem_map

theorem contains_eq_mem (r : Roster) (l : Listener) :
    r.contains l = decide (l.identity ∈ r.members) := by
  rw [Bool.eq_iff_iff, contains_iff, decide_eq_true_iff, mem_members]

/-- The roster is what the movements say: who is registered, who came in where, and in which
order. -/
structure Records (r : Roster) (ms : Movements) : Prop where
  registered : ∀ l, r.contains l = ms.registered l.identity
  placed : ∀ l ∈ r.listeners, ∃ n, ms.arrival? l.identity = some n ∧ ms[n]? = some (.joins l)
  ordered : r.listeners.Pairwise fun l k => ms.Before l.identity k.identity

theorem Records.registered_of_mem (records : r.Records ms) (member : l ∈ r.listeners) :
    ms.registered l.identity = true := by
  rw [← records.registered, contains_of_mem member]

/-- Whoever stays through a movement keeps the place. -/
theorem Records.arrival?_append (records : r.Records ms) (member : l ∈ r.listeners) {m : Movement}
    (stays : Movements.registered (ms ++ [m]) l.identity = true) :
    Movements.arrival? (ms ++ [m]) l.identity = ms.arrival? l.identity :=
  Movements.arrival?_of_registered_eq (stays.trans (records.registered_of_mem member).symm)

/-- Those who stay through a movement keep their places and their order. -/
theorem Records.stay (records : r.Records ms) {m : Movement} {ls : List Listener}
    (fewer : ls.Sublist r.listeners)
    (stay : ∀ l ∈ ls, Movements.registered (ms ++ [m]) l.identity = true) :
    (∀ l ∈ ls, ∃ n, Movements.arrival? (ms ++ [m]) l.identity = some n ∧
        (ms ++ [m])[n]? = some (.joins l)) ∧
      ls.Pairwise fun l k => Movements.Before (ms ++ [m]) l.identity k.identity := by
  have same (l : Listener) (member : l ∈ ls) :=
    records.arrival?_append (fewer.subset member) (stay l member)
  constructor
  · intro l member
    obtain ⟨n, arrives, joins⟩ := records.placed l (fewer.subset member)
    refine ⟨n, by rw [same l member, arrives], ?_⟩
    rw [List.getElem?_append_left (Movements.lt_of_arrival? arrives), joins]
  · refine (records.ordered.sublist fewer).imp_of_mem ?_
    rintro l k first second ⟨i, j, earlier, later, less⟩
    exact ⟨i, j, by rw [same l first, earlier], by rw [same k second, later], less⟩

theorem Records.joins_of_contains (records : r.Records ms) (known : r.contains l = true) :
    r.Records (ms ++ [.joins l]) := by
  have registered (k : Listener) :
      r.contains k = Movements.registered (ms ++ [.joins l]) k.identity := by
    rw [Movements.registered_append, ← records.registered k]
    split
    · next same =>
        have identity : l.identity = k.identity := of_decide_eq_true same
        rw [records.registered, ← identity, ← records.registered, known]
        rfl
    · rfl
  obtain ⟨placed, ordered⟩ := records.stay (m := .joins l) (List.Sublist.refl _) fun k member => by
    rw [← registered, contains_of_mem member]
  exact ⟨registered, placed, ordered⟩

theorem Records.joins_of_not_contains (records : r.Records ms) (absent : r.contains l = false) :
    Records ⟨r.listeners ++ [l]⟩ (ms ++ [.joins l]) := by
  have registered (k : Listener) : contains ⟨r.listeners ++ [l]⟩ k =
      Movements.registered (ms ++ [.joins l]) k.identity := by
    rw [Movements.registered_append, ← records.registered k]
    by_cases same : l.identity = k.identity <;>
      simp [contains, isListed, Listener.same, Movement.concerns, Movement.isJoin, same]
  have stays (k : Listener) (member : k ∈ r.listeners) :
      Movements.registered (ms ++ [.joins l]) k.identity = true := by
    rw [← registered, contains_of_mem (List.mem_append_left _ member)]
  obtain ⟨placed, ordered⟩ := records.stay (List.Sublist.refl _) stays
  have arrives : Movements.arrival? (ms ++ [.joins l]) l.identity = some ms.length := by
    rw [Movements.arrival?_append, if_pos]
    exact ⟨by rw [← records.registered, absent], by simp [Movements.registered_append,
      Movement.concerns, Movement.isJoin]⟩
  refine ⟨registered, ?_, ?_⟩
  · intro k member
    rcases List.mem_append.mp member with old | new
    · exact placed k old
    · obtain rfl := List.mem_singleton.mp new
      exact ⟨ms.length, arrives, List.getElem?_concat_length⟩
  · refine List.pairwise_append.mpr ⟨ordered, List.pairwise_singleton _ _, ?_⟩
    intro k old new last
    obtain rfl := List.mem_singleton.mp last
    obtain ⟨n, earlier, -⟩ := records.placed k old
    refine ⟨n, ms.length, ?_, arrives, Movements.lt_of_arrival? earlier⟩
    rw [records.arrival?_append old (stays k old), earlier]

theorem Records.leaves (records : r.Records ms) (l : Listener) :
    Records ⟨r.listeners.filter fun k => !k.same l⟩ (ms ++ [.leaves l]) := by
  have registered (k : Listener) : contains ⟨r.listeners.filter fun k => !k.same l⟩ k =
      Movements.registered (ms ++ [.leaves l]) k.identity := by
    rw [Movements.registered_append, ← records.registered k, contains, isListed,
      List.any_filter, contains, isListed]
    split
    · next own =>
        have identity : l.identity = k.identity := of_decide_eq_true own
        simp [Listener.same, identity, Movement.isJoin]
    · next other =>
        have others : l.identity ≠ k.identity := fun same => other (decide_eq_true same)
        refine List.any_congr rfl ?_
        intro m
        by_cases same : m.identity = k.identity <;> simp [Listener.same, same, others.symm]
  obtain ⟨placed, ordered⟩ := records.stay (m := .leaves l) List.filter_sublist fun k member => by
    rw [← registered, contains_of_mem member]
  exact ⟨registered, placed, ordered⟩

theorem Records.move (records : r.Records ms) (m : Movement) :
    (r.move m).Records (ms ++ [m]) := by
  cases m with
  | joins l =>
      cases known : r.contains l with
      | true =>
          rw [Roster.move, roster_add_of_contains known]
          exact records.joins_of_contains known
      | false =>
          rw [Roster.move, add, known]
          exact records.joins_of_not_contains known
  | leaves l =>
      have left : r.move (.leaves l) = ⟨r.listeners.filter fun k => !k.same l⟩ :=
        congrArg Roster.mk (listeners_remove r l)
      rw [left]
      exact records.leaves l
  | clears =>
      refine ⟨?_, ?_, ?_⟩
      · intro l
        rw [Movements.registered_append]
        rfl
      · intro l member
        cases member
      · exact List.Pairwise.nil

theorem records_after (ms : Movements) : (after {} ms).Records ms := by
  induction ms using List.reverseRecOn with
  | nil => exact ⟨fun _ => rfl, (fun _ member => nomatch member), List.Pairwise.nil⟩
  | append_singleton ms m ih =>
      rw [after_append]
      exact ih.move m

theorem Records.mem_members_iff (records : r.Records ms) (id : Nat) :
    id ∈ r.members ↔ ms.registered id = true := by
  have listed := contains_eq_mem r ⟨id, ""⟩
  rw [records.registered] at listed
  rw [listed, decide_eq_true_iff]

theorem Records.ordered_members (records : r.Records ms) : r.members.Pairwise ms.Before :=
  List.pairwise_map.mpr records.ordered

/-- Nobody comes in before itself, so nobody is listed twice. -/
theorem Records.nodup_members (records : r.Records ms) : r.members.Nodup := by
  refine records.ordered_members.imp ?_
  rintro id _ ⟨i, j, first, second, less⟩ rfl
  rw [first] at second
  cases second
  exact absurd less (Nat.lt_irrefl i)

/-! ### Answers -/

/-- To add answers whether anything has changed. -/
theorem answer_add_eq (r : Roster) (l : Listener) :
    (r.add l).answer = decide ((r.add l).roster.members ≠ r.members) := by
  rw [answer_add]
  cases known : r.contains l with
  | true => simp [roster_add_of_contains known]
  | false => simp [members, listeners_add_of_not_contains known]

theorem answer_remove_eq (r : Roster) (l : Listener) :
    (r.remove l).answer = decide ((r.remove l).roster.members ≠ r.members) := by
  rw [answer_remove]
  cases known : r.contains l with
  | true =>
      have here : l.identity ∈ r.members := mem_members.mpr (contains_iff.mp known)
      refine (decide_eq_true ?_).symm
      intro same
      rw [← same, mem_members, listeners_remove] at here
      obtain ⟨k, kept, identity⟩ := here
      simpa [Listener.same, identity] using List.of_mem_filter kept
  | false => simp [remove, known]

theorem answer_addAll_eq {r : Roster} {ls : List Listener}
    (distinct : (r.addAll ls).roster.members.Nodup) :
    (r.addAll ls).answer = ((r.addAll ls).roster.members.filter (· ∉ r.members)).length := by
  obtain ⟨new, all⟩ := exists_listeners_append r ls
  have members : (r.addAll ls).roster.members = r.members ++ new.map Listener.identity := by
    rw [Roster.members, roster_addAll, all, List.map_append, ← Roster.members]
  rw [members] at distinct ⊢
  have absent : ∀ id ∈ new.map Listener.identity, decide (id ∉ r.members) = true := by
    intro id late
    exact decide_eq_true fun early => List.disjoint_of_nodup_append distinct early late
  rw [answer_addAll, all, List.filter_append, List.filter_eq_self.mpr absent]
  simp

/-! ### The law -/

/-- The roster after any actions, from an empty one. Nobody is on it twice. A listener is on it
exactly if the last action that concerns it has added it, and each is listed as it was when it came
in. They stand in the order of the moments, by action and by the place within an `addAll`, at which
they were last turned from absent to present. Membership queries and the length agree with the list.
To add or remove answers whether the membership has changed, a removal leaves the others in their
order, `addAll` answers how many are new, and `removeAll` answers all and leaves none. -/
theorem listeners_by_history (actions : List Action) :
    let ms : Movements := actions.flatMap Action.movements
    let b := Dispatch.replay {} actions
    let r := b.roster
    let next (a : Action) : Roster := (b.act a).2.1.roster
    (r.members.Nodup ∧ (∀ id, id ∈ r.members ↔ ms.registered id = true) ∧
        (∀ l ∈ r.listeners, ∃ n, ms.arrival? l.identity = some n ∧ ms[n]? = some (.joins l)) ∧
        r.members.Pairwise ms.Before) ∧
      ((∀ l, r.contains l = ms.registered l.identity) ∧ r.size = r.members.length ∧
        (b.act .count).1 = .count r.members.length) ∧
      (∀ l, (b.act (.add l)).1 = .flag (decide ((next (.add l)).members ≠ r.members))) ∧
      (∀ l, (b.act (.remove l)).1 = .flag (decide ((next (.remove l)).members ≠ r.members)) ∧
        (next (.remove l)).listeners = r.listeners.filter (·.identity ≠ l.identity)) ∧
      (∀ ls, (b.act (.addAll ls)).1 =
        .count ((next (.addAll ls)).members.filter (· ∉ r.members)).length) ∧
      (b.act .removeAll).1 = .listeners r.listeners ∧ (next .removeAll).listeners = [] := by
  intro ms b r next
  have roster : r = after {} ms := roster_replay {} actions
  have records : r.Records ms := roster ▸ records_after ms
  have size : r.size = r.members.length := (List.length_map _).symm
  refine ⟨⟨records.nodup_members, records.mem_members_iff, records.placed,
    records.ordered_members⟩, ⟨records.registered, size, congrArg Reply.count size⟩, ?_, ?_, ?_,
    rfl, rfl⟩
  · intro l
    exact congrArg Reply.flag (answer_add_eq r l)
  · intro l
    refine ⟨congrArg Reply.flag (answer_remove_eq r l), ?_⟩
    refine (listeners_remove r l).trans (List.filter_congr fun k _ => ?_)
    by_cases same : k.identity = l.identity <;> simp [Listener.same, same]
  · intro ls
    have later : (r.addAll ls).roster = after {} (ms ++ ls.map .joins) := by
      rw [roster_addAll, roster, after_append]
    exact congrArg Reply.count (answer_addAll_eq (later ▸ (records_after _).nodup_members))

/-- Adding again does not move a listener; coming back after a removal does. -/
example :
    let a : Listener := ⟨1, "a"⟩
    let b : Listener := ⟨2, "b"⟩
    let actions : List Action := [.addAll [a, b, a], .add a, .remove a, .add a, .add b]
    (Dispatch.replay {} actions).roster.listeners = [b, a] := by
  decide

end Roster

end ReviewHub
