import ReviewHub.Proofs.Hub.Passage
import Mathlib.Data.List.Nodup
import Mathlib.Data.List.Perm.Subperm

/-!
# The line of submissions

No two submissions have had the same ticket, so a step about one submission leaves all others where
they are in the line. What has come onto the queue and what still waits was submitted, each
submission counting once.
-/

namespace ReviewHub.Hub

variable {σ : Type}

/-! ### Tickets -/

/-- Tickets are never given twice. -/
theorem next_le_step (rep : Repertoire σ) (h : Hub σ) (s : Step) :
    h.next ≤ (h.step rep s).hub.next := by
  cases passage_step rep h s with
  | aside _ aside => exact aside.next
  | arrive p _ _ next => exact next ▸ Nat.le_succ _
  | poll _ p _ _ next => exact Nat.le_of_eq next.symm
  | drop _ _ _ next => exact Nat.le_of_eq next.symm
  | miss _ _ same => exact Nat.le_of_eq (congrArg Hub.next same).symm

/-- The tickets in line have been given, each once. -/
structure Orderly (h : Hub σ) : Prop where
  given : ∀ t ∈ h.queue.tickets, t < h.next
  distinct : h.queue.tickets.Nodup

/-- Nobody is in line under the next ticket. -/
theorem Orderly.workOf?_next {h : Hub σ} (orderly : h.Orderly) :
    h.queue.workOf? h.next = none :=
  Queue.workOf?_eq_none_iff.mpr fun member => Nat.lt_irrefl _ (orderly.given _ member)

theorem Orderly.of_sublist {h g : Hub σ} (orderly : h.Orderly)
    (line : g.queue.line.Sublist h.queue.line) (next : h.next ≤ g.next) : g.Orderly where
  given t member := Nat.lt_of_lt_of_le (orderly.given t ((line.map Prod.fst).subset member)) next
  distinct := orderly.distinct.sublist (line.map Prod.fst)

theorem Orderly.of_append {h g : Hub σ} {work : Envelope} (orderly : h.Orderly)
    (line : g.queue.line = h.queue.line ++ [(h.next, work)]) (next : g.next = h.next + 1) :
    g.Orderly := by
  have tickets : g.queue.tickets = h.queue.tickets ++ [h.next] := by
    rw [Queue.tickets, line, List.map_append]
    rfl
  have new : h.next ∉ h.queue.tickets := fun member => Nat.lt_irrefl _ (orderly.given _ member)
  constructor
  · intro t member
    rw [tickets, List.mem_append, List.mem_singleton] at member
    rw [next]
    rcases member with old | rfl
    · exact Nat.lt_succ_of_lt (orderly.given t old)
    · exact Nat.lt_succ_self _
  · rw [tickets]
    exact orderly.distinct.append (List.nodup_singleton _) (by simpa using new)

theorem orderly_step (rep : Repertoire σ) {h : Hub σ} (orderly : h.Orderly) (s : Step) :
    (h.step rep s).hub.Orderly := by
  have later := next_le_step rep h s
  cases passage_step rep h s with
  | aside _ aside => exact orderly.of_sublist (aside.line ▸ .refl _) later
  | arrive p _ line next =>
      split at line
      · exact orderly.of_append line next
      · exact orderly.of_sublist (line ▸ .refl _) later
  | poll _ p _ line =>
      split at line
      · exact orderly.of_sublist (line ▸ .refl _) later
      · exact orderly.of_sublist (line ▸ List.filter_sublist) later
  | drop _ _ line => exact orderly.of_sublist (line ▸ List.filter_sublist) later
  | miss _ _ same => exact orderly.of_sublist (by rw [same]) later

theorem IsFresh.orderly {c : Config} {parser : Parser} {h : Hub σ} (fresh : h.IsFresh c parser) :
    h.Orderly := by
  have empty : h.queue.tickets = [] := by simp [Queue.tickets, Queue.line, fresh.waiting_eq]
  exact ⟨by simp [empty], by simp [empty]⟩

theorem orderly_run (rep : Repertoire σ) {h : Hub σ} (orderly : h.Orderly) (ss : List Step) :
    (run rep h ss).1.Orderly :=
  run_preserves (P := Orderly) (fun _ s before => orderly_step rep before s) orderly ss

/-- A step about another submission leaves this one where it is. -/
theorem workOf?_step_of_ne (rep : Repertoire σ) {h : Hub σ} {s : Step} {t : Ticket}
    (other : h.ticket? s ≠ some t) : (h.step rep s).hub.queue.workOf? t = h.queue.workOf? t := by
  cases passage_step rep h s with
  | aside _ aside => exact Queue.workOf?_of_line aside.line t
  | arrive p _ line =>
      split at line
      · have elsewhere : t ≠ h.next := fun same => other (same ▸ rfl)
        rw [Queue.workOf?_of_line_append line, if_neg elsewhere, Option.or_none]
      · exact Queue.workOf?_of_line line t
  | @poll u _ _ _ p _ line =>
      split at line
      · exact Queue.workOf?_of_line line t
      · have elsewhere : t ≠ u := fun same => other (same ▸ rfl)
        rw [Queue.workOf?_of_line_filter line, if_neg elsewhere]
  | @drop u _ _ _ _ line =>
      have elsewhere : t ≠ u := fun same => other (same ▸ rfl)
      rw [Queue.workOf?_of_line_filter line, if_neg elsewhere]
  | miss _ _ same => rw [same]

/-! ### Submissions count once -/

/-- The envelopes that a step submits: one at most. -/
def Step.submitted : Step → List Envelope
  | submit work => [work]
  | _ => []

/-- What has come onto the queue in one step and what waits after it had been waiting or is just
submitted. -/
theorem works_step (rep : Repertoire σ) {h : Hub σ} (orderly : h.Orderly) (s : Step) :
    (acceptedIn (h.step rep s).happened ++ (h.step rep s).hub.queue.works).Subperm
      (h.queue.works ++ s.submitted) := by
  have leaving {t : Ticket} {work : Envelope} (present : h.queue.workOf? t = some work) :
      (work :: (h.queue.line.filter (·.1 ≠ t)).map Prod.snd).Subperm h.queue.works := by
    obtain ⟨w, found, rfl⟩ := Option.map_eq_some_iff.mp present
    exact (Queue.works_perm_of_waiter? orderly.distinct found).symm.subperm
  cases passage_step rep h s with
  | aside _ aside =>
      rw [aside.accepted, Queue.works, aside.line]
      exact (List.sublist_append_left ..).subperm
  | arrive p _ line _ accepted =>
      rw [accepted, Queue.works, line]
      cases p with
      | accepted => exact List.perm_append_comm.subperm
      | interrupted => exact (List.sublist_append_left ..).subperm
      | waiting => simp [Pushed.landed, Step.submitted, Queue.works, List.Subperm.refl]
  | poll present p _ line _ accepted =>
      rw [accepted, Queue.works, line]
      simp only [Step.submitted, List.append_nil]
      cases p with
      | accepted => exact leaving present
      | interrupted => exact (List.subperm_cons_self).trans (leaving present)
      | waiting => exact .refl _
  | drop present _ line _ accepted =>
      rw [accepted, Queue.works, line]
      simp only [Step.submitted, List.append_nil]
      exact (List.subperm_cons_self).trans (leaving present)
  | miss about _ same silent =>
      rw [same, silent]
      exact (List.sublist_append_left ..).subperm

/-- What a stretch brings in and leaves waiting had waited before it or is new; so it is for two
stretches, one after the other. -/
theorem subperm_of_stretches {α : Type} {first later before between after news more : List α}
    (one : (first ++ between).Subperm (before ++ news))
    (other : (later ++ after).Subperm (between ++ more)) :
    ((first ++ later) ++ after).Subperm (before ++ (news ++ more)) := by
  classical
  rw [List.subperm_iff_count] at one other ⊢
  intro x
  have earlier := one x
  have second := other x
  simp only [List.count_append] at earlier second ⊢
  omega

/-- Over a run, what has come onto the queue and what waits in the end has been submitted, and
counts no more often than that. -/
theorem works_run (rep : Repertoire σ) {h : Hub σ} (orderly : h.Orderly) (ss : List Step) :
    (acceptedIn (run rep h ss).2 ++ (run rep h ss).1.queue.works).Subperm
      (h.queue.works ++ ss.flatMap Step.submitted) := by
  induction ss generalizing h with
  | nil => simp [List.Subperm.refl]
  | cons s ss ih =>
      rw [hub_run_cons, history_run_cons, acceptedIn_append, List.flatMap_cons]
      exact subperm_of_stretches (works_step rep orderly s) (ih (orderly_step rep orderly s))

/-- From the start, all that comes onto the queue has been submitted. -/
theorem IsFresh.acceptedIn_subperm {c : Config} {parser : Parser} {h : Hub σ}
    (fresh : h.IsFresh c parser) (rep : Repertoire σ) (ss : List Step) :
    (acceptedIn (run rep h ss).2).Subperm (ss.flatMap Step.submitted) := by
  have nobody : h.queue.works = [] := by simp [Queue.works, Queue.line, fresh.waiting_eq]
  have all := works_run rep fresh.orderly ss
  rw [nobody, List.nil_append] at all
  exact (List.sublist_append_left ..).subperm.trans all

end ReviewHub.Hub
