/-
# The operation scheduler

`OperationScheduler` keeps, for every registered closure, its delay and whether a run of it is
already pending in the internal scheduler, so that a second `Schedule` before that run adds
nothing. The internal scheduler it hands work to is modelled by its clock and its queue of
pending `RunAndClearScheduled` wrappers; each wrapper remembers its operation, the time it was
handed over and the delay it was given, so its deadline is their sum.

A failed `CHECK` aborts the process: the functions here return `none` for it.
-/

import Mathlib.Logic.Function.Basic
import Mathlib.Data.List.Basic

namespace CacheInvalidation

/-- A `Closure*`. Closures are compared by address; address `0` is `NULL`. -/
abbrev Closure := Nat

/-- The per-operation record: `OperationScheduleInfo(delay)` starts unscheduled. -/
structure OperationScheduleInfo where
  delay : Int
  hasBeenScheduled : Bool := false
  deriving DecidableEq, Repr

/-- A `RunAndClearScheduled(operation, info)` closure waiting in the internal scheduler. -/
structure Wrapper where
  operation : Closure
  scheduledAt : Int
  delay : Int
  deriving DecidableEq, Repr

/-- The earliest time the internal scheduler may run the wrapper. -/
def Wrapper.deadline (w : Wrapper) : Int := w.scheduledAt + w.delay

/-- The internal scheduler, as far as the operation scheduler uses it: its clock and the
closures handed to `Schedule(delay, closure)` that have not run yet. -/
structure Scheduler where
  now : Int
  queue : List Wrapper
  deriving DecidableEq, Repr

/-- `OperationScheduler`: the `operations_` table, and the internal scheduler it was built
with. Entries are never removed. -/
structure OperationScheduler where
  operations : Closure → Option OperationScheduleInfo
  scheduler : Scheduler

namespace OperationScheduler

/-- A freshly constructed operation scheduler: no operation registered. -/
def fresh (scheduler : Scheduler) : OperationScheduler where
  operations := fun _ => none
  scheduler := scheduler

/-- The `has_been_scheduled` flag of an operation; `false` when it is not registered. -/
def scheduled (s : OperationScheduler) (operation : Closure) : Bool :=
  (s.operations operation).any (·.hasBeenScheduled)

/-- How many wrappers for `operation` wait in the internal scheduler. -/
def queued (s : OperationScheduler) (operation : Closure) : Nat :=
  s.scheduler.queue.countP fun w => w.operation = operation

/-- `SetOperation(delay, operation)`, with its three `CHECK`s in the source's order. The first
`CHECK` is written `find(operation) != end()`: it aborts when the operation is *not* yet
registered, although its message says "already set". -/
def setOperation (s : OperationScheduler) (delay : Int) (operation : Closure) :
    Option OperationScheduler :=
  if s.operations operation = none then none
  else if delay ≤ 0 then none
  else if operation = 0 then none
  else some { s with
    operations := Function.update s.operations operation (some { delay := delay }) }

/-- `ChangeDelayForTest(operation, delay)`: a new delay for later `Schedule` calls. -/
def changeDelayForTest (s : OperationScheduler) (operation : Closure) (delay : Int) :
    Option OperationScheduler :=
  match s.operations operation with
  | none => none
  | some info => some { s with
      operations := Function.update s.operations operation (some { info with delay := delay }) }

/-- `Schedule(operation)`: if no run is pending, mark one pending and hand a wrapper to the
internal scheduler with the stored delay. -/
def schedule (s : OperationScheduler) (operation : Closure) : Option OperationScheduler :=
  match s.operations operation with
  | none => none
  | some info =>
    if info.hasBeenScheduled then some s
    else some
      { operations := Function.update s.operations operation
          (some { info with hasBeenScheduled := true })
        scheduler := { s.scheduler with
          queue := s.scheduler.queue ++ [⟨operation, s.scheduler.now, info.delay⟩] } }

/-- The second half of `RunAndClearScheduled`: after the closure returns, its
`has_been_scheduled` is set back to `false` through the `info` pointer. -/
def clearScheduled (s : OperationScheduler) (operation : Closure) : OperationScheduler :=
  match s.operations operation with
  | none => s
  | some info => { s with
      operations := Function.update s.operations operation
        (some { info with hasBeenScheduled := false }) }

/-- The internal scheduler takes the wrapper `w` out of its queue to run it. -/
def dequeue (s : OperationScheduler) (w : Wrapper) : OperationScheduler :=
  { s with scheduler := { s.scheduler with queue := s.scheduler.queue.erase w } }

/-- A run of an operation body that calls `Schedule` on each of `requests` in turn. -/
def scheduleAll (s : OperationScheduler) : List Closure → Option OperationScheduler
  | [] => some s
  | operation :: rest => (s.schedule operation).bind fun s' => s'.scheduleAll rest

/-! ## What each function does -/

section Lemmas

variable (s : OperationScheduler)

@[simp] theorem scheduled_fresh (scheduler : Scheduler) (operation : Closure) :
    (fresh scheduler).scheduled operation = false := rfl

/-- Every `SetOperation` on a fresh scheduler aborts, whatever the delay and the closure. -/
theorem setOperation_fresh (scheduler : Scheduler) (delay : Int) (operation : Closure) :
    (fresh scheduler).setOperation delay operation = none := by
  simp [setOperation, fresh]

/-- `SetOperation` aborts exactly when the operation is not registered, the delay is not
positive, or the closure is `NULL`. -/
theorem setOperation_eq_none_iff (delay : Int) (operation : Closure) :
    s.setOperation delay operation = none ↔
      s.operations operation = none ∨ delay ≤ 0 ∨ operation = 0 := by
  unfold setOperation
  split_ifs <;> simp_all

/-- The only `SetOperation` that returns re-registers an operation already in the table, and
it resets its `has_been_scheduled` flag to `false`, whatever is queued for it. -/
theorem setOperation_eq_some {delay : Int} {operation : Closure} {s' : OperationScheduler}
    (h : s.setOperation delay operation = some s') :
    (s.operations operation).isSome ∧ 0 < delay ∧ operation ≠ 0 ∧
      s'.operations operation = some { delay := delay } ∧
      s'.scheduler = s.scheduler ∧
      ∀ other, other ≠ operation → s'.operations other = s.operations other := by
  unfold setOperation at h
  split_ifs at h with h1 h2 h3
  cases h
  refine ⟨Option.ne_none_iff_isSome.mp h1, by omega, h3, by simp, rfl, fun other ho => ?_⟩
  simp [Function.update_noteq ho]

/-- `Schedule` either finds a run already pending and changes nothing, or marks one pending
and queues a wrapper stamped with the clock and the stored delay. -/
theorem schedule_eq_some {operation : Closure} {s' : OperationScheduler}
    (h : s.schedule operation = some s') :
    ∃ info, s.operations operation = some info ∧
      (info.hasBeenScheduled = true ∧ s' = s ∨
        info.hasBeenScheduled = false ∧
          s' = { operations := Function.update s.operations operation
                   (some { info with hasBeenScheduled := true })
                 scheduler := { s.scheduler with
                   queue := s.scheduler.queue ++
                     [⟨operation, s.scheduler.now, info.delay⟩] } }) := by
  unfold schedule at h
  split at h
  · cases h
  · rename_i info hinfo
    refine ⟨info, hinfo, ?_⟩
    split_ifs at h with hs <;> cases h
    · exact .inl ⟨hs, rfl⟩
    · exact .inr ⟨by simpa using hs, rfl⟩

/-- After a `Schedule` that returns, its operation is marked pending; no other flag moves. -/
theorem scheduled_schedule {operation : Closure} {s' : OperationScheduler}
    (h : s.schedule operation = some s') (other : Closure) :
    s'.scheduled other = (decide (other = operation) || s.scheduled other) := by
  obtain ⟨info, hinfo, ⟨hs, rfl⟩ | ⟨-, rfl⟩⟩ := s.schedule_eq_some h <;>
    rcases eq_or_ne other operation with rfl | ho <;>
    simp [scheduled, Function.update_noteq, *]

/-- A `Schedule` that returns adds a wrapper exactly when its operation was not pending. -/
theorem queued_schedule {operation : Closure} {s' : OperationScheduler}
    (h : s.schedule operation = some s') (other : Closure) :
    s'.queued other = s.queued other +
      (if other = operation ∧ s.scheduled operation = false then 1 else 0) := by
  obtain ⟨info, hinfo, ⟨hs, rfl⟩ | ⟨hs, rfl⟩⟩ := s.schedule_eq_some h
  · simp [scheduled, hinfo, hs]
  · rcases eq_or_ne other operation with rfl | ho
    · simp [queued, scheduled, List.countP_append, hinfo, hs]
    · simpa [queued, scheduled, List.countP_append, ho] using ho.symm

/-- `Schedule` changes no stored delay. -/
theorem delay_schedule {operation : Closure} {s' : OperationScheduler}
    (h : s.schedule operation = some s') (other : Closure) :
    (s'.operations other).map (·.delay) = (s.operations other).map (·.delay) := by
  obtain ⟨info, hinfo, ⟨-, rfl⟩ | ⟨-, rfl⟩⟩ := s.schedule_eq_some h
  · rfl
  · rcases eq_or_ne other operation with rfl | ho <;> simp [Function.update_noteq, *]

/-- A `Schedule` does not move the clock, and every wrapper it leaves queued was queued
before or is the one it adds, stamped now, with the operation's stored delay. -/
theorem queue_schedule {operation : Closure} {s' : OperationScheduler}
    (h : s.schedule operation = some s') :
    s'.scheduler.now = s.scheduler.now ∧ ∀ w ∈ s'.scheduler.queue,
      w ∈ s.scheduler.queue ∨
        w.operation = operation ∧ w.scheduledAt = s.scheduler.now ∧
          s.scheduled operation = false ∧
          (s.operations operation).map (·.delay) = some w.delay := by
  obtain ⟨info, hinfo, ⟨hs, rfl⟩ | ⟨hs, rfl⟩⟩ := s.schedule_eq_some h
  · exact ⟨rfl, fun w hw => .inl hw⟩
  · refine ⟨rfl, fun w hw => ?_⟩
    rcases List.mem_append.mp hw with hw | hw
    · exact .inl hw
    · obtain rfl := List.mem_singleton.mp hw
      exact .inr ⟨rfl, rfl, by simp [scheduled, hinfo, hs], by simp [hinfo]⟩

/-- `ChangeDelayForTest` touches no flag and not the internal scheduler. -/
theorem changeDelayForTest_eq_some {operation : Closure} {delay : Int} {s' : OperationScheduler}
    (h : s.changeDelayForTest operation delay = some s') :
    s'.scheduler = s.scheduler ∧ ∀ other, s'.scheduled other = s.scheduled other := by
  unfold changeDelayForTest at h
  split at h
  · cases h
  · rename_i info hinfo
    cases h
    refine ⟨rfl, fun other => ?_⟩
    rcases eq_or_ne other operation with rfl | ho <;> simp [scheduled, Function.update_noteq, *]

/-- After a body's `Schedule` calls all return, exactly the requested operations have become
pending, on top of what was pending before. -/
theorem scheduled_scheduleAll : ∀ {requests : List Closure} {s s' : OperationScheduler},
    s.scheduleAll requests = some s' → ∀ other,
      s'.scheduled other = (decide (other ∈ requests) || s.scheduled other)
  | [], s, s', h, other => by cases h; simp
  | operation :: rest, s, s', h, other => by
    obtain ⟨s₁, h₁, h₂⟩ := Option.bind_eq_some.mp h
    rw [scheduled_scheduleAll h₂, s.scheduled_schedule h₁]
    by_cases ho : other = operation <;> simp [ho]

/-- A body's `Schedule` calls do not move the clock, and every wrapper they add is stamped
with it and carries its operation's stored delay. -/
theorem queue_scheduleAll : ∀ {requests : List Closure} {s s' : OperationScheduler},
    s.scheduleAll requests = some s' →
      s'.scheduler.now = s.scheduler.now ∧ ∀ w ∈ s'.scheduler.queue,
        w ∈ s.scheduler.queue ∨ w.scheduledAt = s.scheduler.now ∧
          (s.operations w.operation).map (·.delay) = some w.delay
  | [], s, s', h => by cases h; exact ⟨rfl, fun w hw => .inl hw⟩
  | operation :: rest, s, s', h => by
    obtain ⟨s₁, h₁, h₂⟩ := Option.bind_eq_some.mp h
    obtain ⟨hnow₁, hq₁⟩ := s.queue_schedule h₁
    obtain ⟨hnow₂, hq₂⟩ := queue_scheduleAll h₂
    refine ⟨hnow₂.trans hnow₁, fun w hw => ?_⟩
    rcases hq₂ w hw with hw | ⟨hat, hdelay⟩
    · rcases hq₁ w hw with hw | ⟨rfl, hat, -, hdelay⟩
      · exact .inl hw
      · exact .inr ⟨hat, hdelay⟩
    · exact .inr ⟨hat.trans hnow₁, by rwa [← s.delay_schedule h₁]⟩

@[simp] theorem scheduled_clearScheduled (operation other : Closure) :
    (s.clearScheduled operation).scheduled other =
      (if other = operation then false else s.scheduled other) := by
  unfold clearScheduled
  rcases eq_or_ne other operation with rfl | ho
  · cases h : s.operations other <;> simp [scheduled, h]
  · cases s.operations operation <;> simp [scheduled, ho, Function.update_noteq]

@[simp] theorem scheduler_clearScheduled (operation : Closure) :
    (s.clearScheduled operation).scheduler = s.scheduler := by
  unfold clearScheduled; split <;> rfl

@[simp] theorem delay_clearScheduled (operation other : Closure) :
    ((s.clearScheduled operation).operations other).map (·.delay) =
      (s.operations other).map (·.delay) := by
  unfold clearScheduled
  split
  · rfl
  · rcases eq_or_ne other operation with rfl | ho <;> simp [Function.update_noteq, *]

@[simp] theorem operations_dequeue (w : Wrapper) :
    (s.dequeue w).operations = s.operations := rfl

@[simp] theorem now_dequeue (w : Wrapper) :
    (s.dequeue w).scheduler.now = s.scheduler.now := rfl

@[simp] theorem queue_dequeue (w : Wrapper) :
    (s.dequeue w).scheduler.queue = s.scheduler.queue.erase w := rfl

end Lemmas

end OperationScheduler

end CacheInvalidation
