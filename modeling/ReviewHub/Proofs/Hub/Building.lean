import ReviewHub.Proofs.Hub.Course

/-!
# Building a hub

What building a hub can come to, exactly. A queue that could hold nothing is refused before
anything else is looked at, and next it is refused to start workers that have nothing to run on.
From there on the sizes decide. If a queue can be built with the capacity and there is room for the
handles of the workers, the hub has just the workers that the configuration asks for. If one of the
two exceeds what there can be at all, which nothing has checked until then, the building gives up.
Only a hub that is built has workers, and only then is anything reported.
-/

namespace ReviewHub

/-- A queue can be built with the capacity. -/
def Queue.IsUsable : Option Nat → Prop
  | none => True
  | some n => 0 < n ∧ n ≤ maxCapacity

/-- The capacity exceeds the greatest one that a queue can be built with. -/
def Queue.IsOversized (capacity : Option Nat) : Prop := ∃ n, capacity = some n ∧ maxCapacity < n

namespace Queue

variable {capacity : Option Nat}

theorem IsUsable.not_isOversized (usable : IsUsable capacity) : ¬IsOversized capacity := by
  rintro ⟨n, rfl, large⟩
  exact Nat.not_le_of_lt large usable.2

theorem IsUsable.ne_zero (usable : IsUsable capacity) : capacity ≠ some 0 := by
  rintro rfl
  exact Nat.lt_irrefl 0 usable.1

theorem IsOversized.ne_zero (oversized : IsOversized capacity) : capacity ≠ some 0 := by
  rintro rfl
  obtain ⟨_, ⟨⟩, large⟩ := oversized
  exact Nat.not_lt_zero _ large

/-- Building a queue goes by its capacity. -/
theorem build_cases (capacity : Option Nat) :
    (capacity = some 0 ∧ build capacity = .refused .noCapacity) ∨
      (IsOversized capacity ∧ build capacity = .panicked) ∨
      (IsUsable capacity ∧ ∃ q, build capacity = .ok q) := by
  cases capacity with
  | none => exact .inr (.inr ⟨trivial, _, rfl⟩)
  | some n =>
      rcases Nat.eq_zero_or_pos n with rfl | positive
      · exact .inl ⟨rfl, rfl⟩
      · rw [build, if_neg (Nat.ne_of_gt positive)]
        by_cases large : maxCapacity < n
        · exact .inr (.inl ⟨⟨n, rfl, large⟩, if_pos large⟩)
        · exact .inr (.inr ⟨⟨positive, Nat.le_of_not_lt large⟩, _, if_neg large⟩)

theorem build_eq_ok_iff : (∃ q, build capacity = .ok q) ↔ IsUsable capacity := by
  rcases build_cases capacity with ⟨rfl, result⟩ | ⟨oversized, result⟩ | ⟨usable, q, result⟩
  · exact iff_of_false (by rw [result]; exact nofun) fun usable => usable.ne_zero rfl
  · exact iff_of_false (by rw [result]; exact nofun) fun usable => usable.not_isOversized oversized
  · exact iff_of_true ⟨q, result⟩ usable

theorem build_eq_refused_iff {e : Error} :
    build capacity = .refused e ↔ capacity = some 0 ∧ e = .noCapacity := by
  rcases build_cases capacity with ⟨rfl, result⟩ | ⟨oversized, result⟩ | ⟨usable, q, result⟩
  · rw [result]
    exact ⟨by rintro ⟨⟩; exact ⟨rfl, rfl⟩, by rintro ⟨-, rfl⟩; rfl⟩
  · exact iff_of_false (by rw [result]; exact nofun) fun zero => oversized.ne_zero zero.1
  · exact iff_of_false (by rw [result]; exact nofun) fun zero => usable.ne_zero zero.1

theorem build_eq_panicked_iff : build capacity = .panicked ↔ IsOversized capacity := by
  rcases build_cases capacity with ⟨rfl, result⟩ | ⟨oversized, result⟩ | ⟨usable, q, result⟩
  · exact iff_of_false (by rw [result]; exact nofun) fun oversized => oversized.ne_zero rfl
  · exact iff_of_true result oversized
  · exact iff_of_false (by rw [result]; exact nofun) usable.not_isOversized

end Queue

namespace Hub

variable {σ : Type} {c : Config} {parser : Parser} {memory : σ} {runtime : Bool}

/-- The capacity of the queue that the configuration asks for. -/
def capacity (c : Config) : Option Nat := c.queueCapacity.map UInt64.toNat

theorem validate_eq (c : Config) :
    c.validate = if capacity c = some 0 then .error .noCapacity else .ok () := by
  have same : capacity c = some 0 ↔ c.queueCapacity = some 0 := by
    rw [capacity]
    cases c.queueCapacity with
    | none => simp
    | some n => simpa using UInt64.toNat_inj (a := n) (b := 0)
  simp only [Config.validate, same]

/-- The configuration asks for a larger queue than there can be, or for more workers. -/
def IsExcessive (c : Config) : Prop :=
  Queue.IsOversized (capacity c) ∨ maxWorkers < c.workerCount.toNat

/-- The sizes that the configuration asks for can be had. -/
def IsFeasible (c : Config) : Prop :=
  Queue.IsUsable (capacity c) ∧ c.workerCount.toNat ≤ maxWorkers

theorem IsFeasible.not_isExcessive (feasible : IsFeasible c) : ¬IsExcessive c := by
  rintro (oversized | many)
  · exact feasible.1.not_isOversized oversized
  · exact Nat.not_le_of_lt many feasible.2

/-- What there is when the building of a hub has come to its end. -/
def finished (start : Hub σ) : Building σ where
  outcome := .ok start
  started := start.workers
  happened := [.logged (.started start.workerCount.toNat start.queue.capacity)]

/-- Building a hub goes by whether there is something to run on and by the sizes asked for. -/
theorem build_cases (runtime : Bool) (c : Config) (parser : Parser) (memory : σ) :
    (capacity c = some 0 ∧
        build runtime c parser memory = { outcome := .refused .noCapacity }) ∨
      (capacity c ≠ some 0 ∧ runtime = false ∧
        build runtime c parser memory = { outcome := .refused .runtimeUnavailable }) ∨
      (capacity c ≠ some 0 ∧ runtime = true ∧ IsExcessive c ∧
        build runtime c parser memory = { outcome := .panicked }) ∨
      (runtime = true ∧ IsFeasible c ∧
        ∃ start, build runtime c parser memory = finished start) := by
  by_cases zero : capacity c = some 0
  · exact .inl ⟨zero, by rw [build, validate_eq, if_pos zero]⟩
  · have valid : c.validate = .ok () := by rw [validate_eq, if_neg zero]
    cases runtime with
    | false =>
        refine .inr (.inl ⟨zero, rfl, ?_⟩)
        rw [build, valid]
        rfl
    | true =>
        rcases Queue.build_cases (capacity c) with
          ⟨zeroToo, -⟩ | ⟨oversized, result⟩ | ⟨usable, q, result⟩
        · exact absurd zeroToo zero
        · refine .inr (.inr (.inl ⟨zero, rfl, .inl oversized, ?_⟩))
          rw [capacity] at result
          simp only [build, valid, result, if_true]
        · rw [capacity] at result
          by_cases many : maxWorkers < c.workerCount.toNat
          · refine .inr (.inr (.inl ⟨zero, rfl, .inr many, ?_⟩))
            simp only [build, valid, result, if_true, if_pos many]
          · refine .inr (.inr (.inr ⟨rfl, ⟨usable, Nat.le_of_not_lt many⟩, ?_⟩))
            simp only [build, valid, result, if_true, if_neg many]
            exact ⟨_, rfl⟩

theorem outcome_eq_refused_iff {e : Error} :
    (build runtime c parser memory).outcome = .refused e ↔
      capacity c = some 0 ∧ e = .noCapacity ∨
        capacity c ≠ some 0 ∧ runtime = false ∧ e = .runtimeUnavailable := by
  rcases build_cases runtime c parser memory with
    ⟨zero, result⟩ | ⟨positive, rfl, result⟩ | ⟨positive, rfl, -, result⟩ |
      ⟨rfl, feasible, _, result⟩
  · rw [result]
    constructor
    · rintro ⟨⟩
      exact .inl ⟨zero, rfl⟩
    · rintro (⟨-, rfl⟩ | ⟨positive, -⟩)
      · rfl
      · exact absurd zero positive
  · rw [result]
    constructor
    · rintro ⟨⟩
      exact .inr ⟨positive, rfl, rfl⟩
    · rintro (⟨zero, -⟩ | ⟨-, -, rfl⟩)
      · exact absurd zero positive
      · rfl
  · refine iff_of_false (by rw [result]; exact nofun) ?_
    rintro (⟨zero, -⟩ | ⟨-, ⟨⟩, -⟩)
    exact positive zero
  · refine iff_of_false (by rw [result]; exact nofun) ?_
    rintro (⟨zero, -⟩ | ⟨-, ⟨⟩, -⟩)
    exact feasible.1.ne_zero zero

theorem outcome_eq_panicked_iff :
    (build runtime c parser memory).outcome = .panicked ↔
      capacity c ≠ some 0 ∧ runtime = true ∧ IsExcessive c := by
  rcases build_cases runtime c parser memory with
    ⟨zero, result⟩ | ⟨-, rfl, result⟩ | ⟨positive, rfl, excessive, result⟩ |
      ⟨rfl, feasible, _, result⟩
  · exact iff_of_false (by rw [result]; exact nofun) fun given => given.1 zero
  · exact iff_of_false (by rw [result]; exact nofun) fun given => nomatch given.2.1
  · exact iff_of_true (by rw [result]) ⟨positive, rfl, excessive⟩
  · exact iff_of_false (by rw [result]; exact nofun) fun given =>
      feasible.not_isExcessive given.2.2

theorem outcome_eq_ok_iff :
    (∃ start, (build runtime c parser memory).outcome = .ok start) ↔
      runtime = true ∧ IsFeasible c := by
  rcases build_cases runtime c parser memory with
    ⟨zero, result⟩ | ⟨-, rfl, result⟩ | ⟨-, rfl, excessive, result⟩ | ⟨rfl, feasible, start, result⟩
  · exact iff_of_false (by rw [result]; rintro ⟨_, ⟨⟩⟩) fun given => given.2.1.ne_zero zero
  · exact iff_of_false (by rw [result]; rintro ⟨_, ⟨⟩⟩) fun given => nomatch given.1
  · exact iff_of_false (by rw [result]; rintro ⟨_, ⟨⟩⟩) fun given =>
      given.2.not_isExcessive excessive
  · exact iff_of_true ⟨start, by rw [result]; rfl⟩ ⟨rfl, feasible⟩

/-- Until the hub is there, nothing has been started or reported. -/
theorem failed_or_finished (runtime : Bool) (c : Config) (parser : Parser) (memory : σ) :
    (∃ outcome, build runtime c parser memory = { outcome := outcome } ∧
        ∀ start, outcome ≠ .ok start) ∨
      ∃ start, build runtime c parser memory = finished start := by
  rcases build_cases runtime c parser memory with
    ⟨-, result⟩ | ⟨-, -, result⟩ | ⟨-, -, -, result⟩ | ⟨-, -, finished⟩
  · exact .inl ⟨.refused _, result, fun _ same => nomatch same⟩
  · exact .inl ⟨.refused _, result, fun _ same => nomatch same⟩
  · exact .inl ⟨.panicked, result, fun _ same => nomatch same⟩
  · exact .inr finished

/-- Where a hub is built, its workers are those that have been started. -/
theorem build_of_ok {start : Hub σ} (built : (build runtime c parser memory).outcome = .ok start) :
    build runtime c parser memory = finished start := by
  rcases failed_or_finished runtime c parser memory with ⟨outcome, result, failed⟩ | ⟨_, result⟩
  · exact absurd ((congrArg Building.outcome result).symm.trans built) (failed start)
  · cases (congrArg Building.outcome result).symm.trans built
    exact result

theorem nothing_of_not_ok
    (failed : ∀ start, (build runtime c parser memory).outcome ≠ .ok start) :
    (build runtime c parser memory).started = [] ∧
      (build runtime c parser memory).happened = [] := by
  rcases failed_or_finished runtime c parser memory with ⟨outcome, result, -⟩ | ⟨start, result⟩
  · rw [result]
    exact ⟨rfl, rfl⟩
  · exact absurd (congrArg Building.outcome result) (failed start)

/-- What building a hub comes to. A capacity of zero is refused whether or not there is something
for workers to run on, and the lack of that is refused for every other capacity. Otherwise the sizes
decide: the hub is built if its queue can be and the handles of its workers have room, and if they
ask for more than there can be, the building gives up. A hub that is built has as many workers as
were asked for; just these have been started, none of them has begun, and that is all that has been
reported. After any other outcome no worker has been started and nothing has been reported. A queue
is built by the same rule. -/
theorem build_all_or_nothing (runtime : Bool) (c : Config) (parser : Parser) (memory : σ) :
    let building := build runtime c parser memory
    (∀ e, building.outcome = .refused e ↔
      capacity c = some 0 ∧ e = .noCapacity ∨
        capacity c ≠ some 0 ∧ runtime = false ∧ e = .runtimeUnavailable) ∧
    (building.outcome = .panicked ↔ capacity c ≠ some 0 ∧ runtime = true ∧ IsExcessive c) ∧
    ((∃ start, building.outcome = .ok start) ↔ runtime = true ∧ IsFeasible c) ∧
    (∀ start, building.outcome = .ok start →
      start.IsFresh c parser ∧ start.runningWorkers = c.workerCount.toNat ∧
        building.started = start.workers ∧ building.started.length = c.workerCount.toNat ∧
        building.happened = [.logged (.started c.workerCount.toNat (capacity c))]) ∧
    ((∀ start, building.outcome ≠ .ok start) →
      building.started = [] ∧ building.happened = []) ∧
    ∀ room,
      (∀ e, Queue.build room = .refused e ↔ room = some 0 ∧ e = .noCapacity) ∧
      (Queue.build room = .panicked ↔ Queue.IsOversized room) ∧
      ((∃ q, Queue.build room = .ok q) ↔ Queue.IsUsable room) := by
  intro building
  refine ⟨fun _ => outcome_eq_refused_iff, outcome_eq_panicked_iff, outcome_eq_ok_iff, ?started,
    nothing_of_not_ok, ?queues⟩
  case started =>
    intro start built
    have result : building = finished start := build_of_ok built
    obtain ⟨rfl, -⟩ := outcome_eq_ok_iff.mp ⟨start, built⟩
    obtain ⟨queue, made, hub⟩ := hub_of_build built
    obtain ⟨-, rfl⟩ := Queue.eq_of_build made
    have reported : building.happened =
        [.logged (.started c.workerCount.toNat (capacity c))] := by
      rw [result, hub]
      rfl
    refine ⟨isFresh_of_build built, ?_, by rw [result, finished], ?_, reported⟩
    · simp [hub, runningWorkers]
    · simp [result, finished, hub]
  case queues =>
    intro room
    exact ⟨fun _ => Queue.build_eq_refused_iff, Queue.build_eq_panicked_iff, Queue.build_eq_ok_iff⟩

/-- The least capacity and the least number of workers that are neither refused nor can be had. -/
theorem build_oversized_panics :
    (build true { queueCapacity := some 0x2000000000000000 } Small.parser ()).outcome = .panicked ∧
      (build true { workerCount := 0x1000000000000000 } Small.parser ()).outcome = .panicked ∧
      Queue.build (some 0x2000000000000000) = .panicked :=
  ⟨rfl, rfl, rfl⟩

end Hub

end ReviewHub
