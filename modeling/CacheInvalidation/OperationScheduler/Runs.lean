/-
# Runs of the operation scheduler

A run interleaves the operation scheduler's calls with the internal scheduler's moves: its clock
advancing, and a pending wrapper being taken out and run. A run of a wrapper executes
`RunAndClearScheduled`: the operation's body, which may call `Schedule` on any operation, its
own included, and then the reset of the operation's flag.

Runs start from any state in which the flags and the queue agree (`Inv`). A fresh scheduler is
one; the code as written reaches no other, since its `SetOperation` never registers a new
operation. `SetOperation` enters a run under its documented precondition, that the operation
is not registered yet.

The main results:
- `inv_of_run`: in every state of every run, each operation has one wrapper queued when its
  flag is set and none otherwise.
- `scheduled_of_run`: the flag of an operation is set exactly when it has had a `Schedule` call
  after which no run of it has finished, so a call made while it runs is lost.
- `started_only_if_pending`: a run of an operation starts only while such a call is pending.
- `starts_spaced`: under an internal scheduler that never runs a wrapper early, two successive
  runs of an operation start at least the later wrapper's delay apart.
- `started_queued`: the wrapper of every run waited at the start, or was queued by a step of the
  run with the delay then stored for its operation.
-/

import CacheInvalidation.OperationScheduler
import Mathlib.Data.List.Chain

namespace CacheInvalidation.OperationScheduler

/-- What a run shows: a `Schedule` call that returned, and the start and the end of a run of a
`RunAndClearScheduled` wrapper. -/
inductive Event
  | requested (operation : Closure)
  | started (wrapper : Wrapper) (time : Int)
  | finished (operation : Closure)
  deriving DecidableEq, Repr

/-- One call on the operation scheduler, or one move of the internal scheduler. `run w requests`
runs the pending wrapper `w`, whose operation's body calls `Schedule` on each of `requests`. -/
inductive Action
  | setOperation (delay : Int) (operation : Closure)
  | changeDelayForTest (operation : Closure) (delay : Int)
  | schedule (operation : Closure)
  | run (wrapper : Wrapper) (requests : List Closure)
  | advanceTo (time : Int)
  deriving DecidableEq, Repr

/-- The internal scheduler runs the pending wrapper `w`: `RunAndClearScheduled` runs the body,
then clears the operation's flag. -/
def runWrapper (s : OperationScheduler) (w : Wrapper) (requests : List Closure) :
    Option OperationScheduler :=
  if w ∈ s.scheduler.queue then
    ((s.dequeue w).scheduleAll requests).map (·.clearScheduled w.operation)
  else none

/-- The clock of the internal scheduler moves forward, never back. -/
def advanceTo (s : OperationScheduler) (time : Int) : Option OperationScheduler :=
  if s.scheduler.now ≤ time then some { s with scheduler := { s.scheduler with now := time } }
  else none

/-- One step, with the events it shows; `none` when a `CHECK` fails or the move is impossible. -/
def step (s : OperationScheduler) : Action → Option (OperationScheduler × List Event)
  | .setOperation delay operation => (s.setOperation delay operation).map (·, [])
  | .changeDelayForTest operation delay => (s.changeDelayForTest operation delay).map (·, [])
  | .schedule operation => (s.schedule operation).map (·, [.requested operation])
  | .run w requests => (s.runWrapper w requests).map fun s' =>
      (s', .started w s.scheduler.now :: requests.map .requested ++ [.finished w.operation])
  | .advanceTo time => (s.advanceTo time).map (·, [])

/-- What callers promise: `SetOperation` only for an operation that is not registered. -/
def Action.Admissible (s : OperationScheduler) : Action → Prop
  | .setOperation _ operation => s.operations operation = none
  | _ => True

/-- The runs from `s₀`, with the events they show. -/
inductive Run (s₀ : OperationScheduler) : List Event → OperationScheduler → Prop
  | nil : Run s₀ [] s₀
  | step {trace : List Event} {s s' : OperationScheduler} {a : Action} {events : List Event} :
      Run s₀ trace s → a.Admissible s → s.step a = some (s', events) →
      Run s₀ (trace ++ events) s'

/-- What one admissible step can do. -/
theorem step_eq_some {s s' : OperationScheduler} {a : Action} {events : List Event}
    (ha : a.Admissible s) (h : s.step a = some (s', events)) :
    (∃ operation delay, events = [] ∧ s.changeDelayForTest operation delay = some s') ∨
    (∃ operation, events = [.requested operation] ∧ s.schedule operation = some s') ∨
    (∃ w requests s₁, w ∈ s.scheduler.queue ∧
      events = .started w s.scheduler.now :: requests.map .requested ++ [.finished w.operation] ∧
      (s.dequeue w).scheduleAll requests = some s₁ ∧ s' = s₁.clearScheduled w.operation) ∨
    (events = [] ∧ s.scheduler.now ≤ s'.scheduler.now ∧ s'.operations = s.operations ∧
      s'.scheduler.queue = s.scheduler.queue) := by
  cases a with
  | setOperation delay operation =>
    simp [step, show s.setOperation delay operation = none from
      (s.setOperation_eq_none_iff delay operation).mpr (.inl ha)] at h
  | changeDelayForTest operation delay =>
    obtain ⟨s₁, h₁, h₂⟩ := Option.map_eq_some'.mp h
    cases h₂; exact .inl ⟨operation, delay, rfl, h₁⟩
  | schedule operation =>
    obtain ⟨s₁, h₁, h₂⟩ := Option.map_eq_some'.mp h
    cases h₂; exact .inr (.inl ⟨operation, rfl, h₁⟩)
  | run w requests =>
    obtain ⟨s₁, h₁, h₂⟩ := Option.map_eq_some'.mp h
    cases h₂
    unfold runWrapper at h₁
    split_ifs at h₁ with hw
    obtain ⟨s₂, h₂, rfl⟩ := Option.map_eq_some'.mp h₁
    exact .inr (.inr (.inl ⟨w, requests, s₂, hw, rfl, h₂, rfl⟩))
  | advanceTo time =>
    obtain ⟨s₁, h₁, h₂⟩ := Option.map_eq_some'.mp h
    cases h₂
    unfold advanceTo at h₁
    split_ifs at h₁ with hle
    cases h₁
    exact .inr (.inr (.inr ⟨rfl, hle, rfl, rfl⟩))

/-! ## The flags and the queue agree -/

/-- Flags and queue agree, except that the operation `running` (if any) has had its wrapper
taken out while its flag is still set. -/
def Accounted (s : OperationScheduler) (running : Option Closure) : Prop :=
  ∀ operation, s.queued operation + (if running = some operation then 1 else 0) =
    if s.scheduled operation then 1 else 0

/-- Between steps: an operation has one wrapper queued when its flag is set, none otherwise. -/
def Inv (s : OperationScheduler) : Prop := Accounted s none

theorem inv_fresh (scheduler : Scheduler) (h : scheduler.queue = []) :
    Inv (fresh scheduler) := by
  intro operation; simp [queued, scheduled, fresh, h]

theorem accounted_schedule {s s' : OperationScheduler} {operation : Closure}
    {running : Option Closure} (hs : Accounted s running) (h : s.schedule operation = some s') :
    Accounted s' running := by
  intro other
  have hother := hs other
  rw [s.queued_schedule h, s.scheduled_schedule h]
  by_cases ho : other = operation
  · subst ho; cases hsc : s.scheduled other <;> simp_all
  · simpa [ho] using hother

theorem accounted_scheduleAll {running : Option Closure} :
    ∀ {requests : List Closure} {s s' : OperationScheduler}, Accounted s running →
      s.scheduleAll requests = some s' → Accounted s' running
  | [], _, _, hs, h => by cases h; exact hs
  | _ :: _, _, _, hs, h => by
    obtain ⟨s₁, h₁, h₂⟩ := Option.bind_eq_some.mp h
    exact accounted_scheduleAll (accounted_schedule hs h₁) h₂

/-- Taking a queued wrapper out leaves its operation running. -/
theorem accounted_dequeue {s : OperationScheduler} {w : Wrapper} (hs : Inv s)
    (hw : w ∈ s.scheduler.queue) : Accounted (s.dequeue w) (some w.operation) := by
  intro other
  have hperm := (List.perm_cons_erase hw).countP_eq fun v => decide (v.operation = other)
  have hother := hs other
  simp only [queued, List.countP_cons] at hperm hother
  simp only [queued, queue_dequeue, scheduled, operations_dequeue, Option.some.injEq] at *
  by_cases ho : w.operation = other <;> simp_all

/-- Clearing the running operation's flag brings flags and queue back into agreement. -/
theorem inv_clearScheduled {s : OperationScheduler} {operation : Closure}
    (hs : Accounted s (some operation)) : Inv (s.clearScheduled operation) := by
  intro other
  have hother := hs other
  have hq : (s.clearScheduled operation).queued other = s.queued other := by simp [queued]
  rw [hq, scheduled_clearScheduled]
  by_cases ho : other = operation
  · subst ho
    simp at hother ⊢
    split_ifs at hother; omega
  · simpa [ho, Ne.symm ho] using hother

/-- Every step a caller may take keeps flags and queue in agreement. -/
theorem inv_step {s s' : OperationScheduler} {a : Action} {events : List Event} (hs : Inv s)
    (ha : a.Admissible s) (h : s.step a = some (s', events)) : Inv s' := by
  rcases step_eq_some ha h with ⟨_, _, -, h₁⟩ | ⟨_, -, h₁⟩ | ⟨w, _, _, hw, -, h₁, rfl⟩ |
    ⟨-, -, hops, hq⟩
  · obtain ⟨hsch, hflag⟩ := s.changeDelayForTest_eq_some h₁
    intro other; simpa [queued, hsch, hflag] using hs other
  · exact accounted_schedule hs h₁
  · exact inv_clearScheduled (accounted_scheduleAll (accounted_dequeue hs hw) h₁)
  · intro other; simpa [queued, scheduled, hops, hq] using hs other

theorem inv_of_run {s₀ s : OperationScheduler} {trace : List Event} (h₀ : Inv s₀)
    (h : Run s₀ trace s) : Inv s := by
  induction h with
  | nil => exact h₀
  | step _ ha hstep ih => exact inv_step ih ha hstep

/-- An operation registered with delay 1, nothing queued, the clock at 0. -/
def oneOperation : OperationScheduler where
  operations := fun other => if other = 1 then some { delay := 1 } else none
  scheduler := ⟨0, []⟩

theorem inv_oneOperation : Inv oneOperation := by
  intro other; by_cases ho : other = 1 <;> simp [queued, scheduled, oneOperation, ho]

/-- In every state of every run, an operation has at most one wrapper queued, and one exactly
when its `has_been_scheduled` flag is set. -/
theorem queued_le_one_and_iff_scheduled {s₀ s : OperationScheduler} {trace : List Event}
    (h₀ : Inv s₀) (h : Run s₀ trace s) (operation : Closure) :
    s.queued operation ≤ 1 ∧ (s.queued operation = 1 ↔ s.scheduled operation = true) := by
  have hs := inv_of_run h₀ h operation
  simp only [reduceCtorEq, ite_false, Nat.add_zero] at hs
  split_ifs at hs <;> simp_all

theorem oneOperation_scheduled_once : ∃ s, Inv oneOperation ∧
    Run oneOperation [.requested 1] s ∧
      (s.queued 1 ≤ 1 ∧ (s.queued 1 = 1 ↔ s.scheduled 1 = true)) :=
  have hrun := @Run.step _ _ _ _ (.schedule 1) _ (@Run.nil oneOperation) trivial rfl
  ⟨_, inv_oneOperation, hrun, queued_le_one_and_iff_scheduled inv_oneOperation hrun 1⟩

/-! ## Which requests are kept -/

/-- Reading a run's events in order: a `Schedule` call on `operation` makes it pending, the end
of a run of it makes it not pending. -/
def Event.pending (operation : Closure) (b : Bool) : Event → Bool
  | .requested other => if other = operation then true else b
  | .finished other => if other = operation then false else b
  | .started _ _ => b

/-- Whether `operation` is pending after `trace`, starting from `b`. -/
def pendingAfter (operation : Closure) (b : Bool) (trace : List Event) : Bool :=
  trace.foldl (Event.pending operation) b

@[simp] theorem pendingAfter_requested (operation : Closure) (b : Bool) (requests : List Closure) :
    pendingAfter operation b (requests.map .requested) = (decide (operation ∈ requests) || b) := by
  induction requests generalizing b with
  | nil => simp [pendingAfter]
  | cons other rest ih =>
    simp only [pendingAfter, List.map_cons, List.foldl_cons] at ih ⊢
    rw [ih]
    rcases eq_or_ne other operation with rfl | ho
    · simp [Event.pending]
    · simp [Event.pending, ho, ho.symm]

theorem pendingAfter_true_of_not_finished (operation : Closure) :
    ∀ (trace : List Event), Event.finished operation ∉ trace → pendingAfter operation true trace
  | [], _ => rfl
  | e :: rest, h => by
    have hrest : Event.finished operation ∉ rest := fun hm => h (List.mem_cons_of_mem _ hm)
    cases e with
    | requested other =>
      by_cases ho : other = operation <;>
        simpa [pendingAfter, Event.pending, ho] using pendingAfter_true_of_not_finished _ rest hrest
    | started w t => simpa [pendingAfter, Event.pending] using
        pendingAfter_true_of_not_finished _ rest hrest
    | finished other =>
      have ho : other ≠ operation := by rintro rfl; exact h (List.mem_cons_self _ _)
      simpa [pendingAfter, Event.pending, ho] using pendingAfter_true_of_not_finished _ rest hrest

/-- One step moves every flag as its events say. -/
theorem scheduled_step {s s' : OperationScheduler} {a : Action} {events : List Event}
    (ha : a.Admissible s) (h : s.step a = some (s', events)) (operation : Closure) :
    s'.scheduled operation = pendingAfter operation (s.scheduled operation) events := by
  rcases step_eq_some ha h with ⟨_, _, rfl, h₁⟩ | ⟨other, rfl, h₁⟩ |
    ⟨w, requests, _, -, rfl, h₁, rfl⟩ | ⟨rfl, -, hops, -⟩
  · simp [pendingAfter, (s.changeDelayForTest_eq_some h₁).2]
  · rw [s.scheduled_schedule h₁]
    rcases eq_or_ne other operation with rfl | ho
    · simp [pendingAfter, Event.pending]
    · simp [pendingAfter, Event.pending, ho, ho.symm]
  · have hreq := pendingAfter_requested operation (s.scheduled operation) requests
    simp only [pendingAfter] at hreq
    simp only [scheduled_clearScheduled, scheduled_scheduleAll h₁, pendingAfter,
      List.foldl_cons, List.foldl_append, Event.pending, hreq, List.foldl_nil]
    by_cases ho : operation = w.operation <;> simp [ho, eq_comm, scheduled]
  · simp [pendingAfter, scheduled, hops]

/-- In every run, an operation's flag is set exactly when, after the start, it has had a
`Schedule` call after which no run of it has finished. -/
theorem scheduled_of_run {s₀ s : OperationScheduler} {trace : List Event}
    (h : Run s₀ trace s) (operation : Closure) :
    s.scheduled operation = pendingAfter operation (s₀.scheduled operation) trace := by
  induction h with
  | nil => rfl
  | step _ ha hstep ih => rw [scheduled_step ha hstep, ih, pendingAfter, pendingAfter,
      pendingAfter, List.foldl_append]

/-- A `Schedule(operation)` call after which no run of `operation` has ended leaves a wrapper
for `operation` queued. A call made while `operation` runs, from its own body, is not of this
kind: the end of that run follows it and clears the flag. -/
theorem queued_of_request_after_finish {s₀ s : OperationScheduler} {trace : List Event}
    {operation : Closure} (h₀ : Inv s₀) (h : Run s₀ trace s)
    (hreq : ∃ pre post, trace = pre ++ .requested operation :: post ∧
      Event.finished operation ∉ post) :
    ∃ w ∈ s.scheduler.queue, w.operation = operation := by
  obtain ⟨pre, post, rfl, hpost⟩ := hreq
  have hsched : s.scheduled operation = true := by
    rw [scheduled_of_run h operation]
    simpa [pendingAfter, List.foldl_append, Event.pending] using
      pendingAfter_true_of_not_finished operation post hpost
  have hpos : 0 < s.queued operation := by
    have hs := inv_of_run h₀ h operation
    simp only [reduceCtorEq, ite_false, Nat.add_zero, hsched, ite_true] at hs
    omega
  obtain ⟨w, hw, hop⟩ := List.countP_pos_iff.mp hpos
  exact ⟨w, hw, by simpa using hop⟩

theorem oneOperation_request_queued : ∃ s, Inv oneOperation ∧
    Run oneOperation [.requested 1] s ∧ ∃ w ∈ s.scheduler.queue, w.operation = 1 :=
  have hrun := @Run.step _ _ _ _ (.schedule 1) _ (@Run.nil oneOperation) trivial rfl
  ⟨_, inv_oneOperation, hrun,
    queued_of_request_after_finish inv_oneOperation hrun ⟨[], [], rfl, by simp⟩⟩

/-- A `Schedule` request made after the start of an operation's latest run can be lost: the
operation schedules itself from its own body while its flag is still set, and the end of the
run clears the flag with nothing queued. -/
theorem request_during_run_lost :
    ¬ ∀ (s₀ s : OperationScheduler) (trace : List Event) (operation : Closure),
      Inv s₀ → Run s₀ trace s → (s.operations operation).isSome →
      (∃ pre post, trace = pre ++ .requested operation :: post ∧
        ∀ w t, Event.started w t ∈ post → w.operation ≠ operation) →
      ∃ w ∈ s.scheduler.queue, w.operation = operation := by
  intro h
  have hrun := @Run.step _ _ _ _ (.run ⟨1, 0, 1⟩ [1]) _
    (@Run.step _ _ _ _ (.advanceTo 1) _
      (@Run.step _ _ _ _ (.schedule 1) _ (@Run.nil oneOperation) trivial rfl) trivial rfl)
    trivial rfl
  exact absurd (h _ _ _ 1 inv_oneOperation hrun rfl
    ⟨[.requested 1, .started ⟨1, 0, 1⟩ 1], [.finished 1], rfl, by simp⟩) (by decide)

/-- A wrapper in the queue has its operation's flag set. -/
theorem scheduled_of_mem_queue {s : OperationScheduler} (hs : Inv s) {w : Wrapper}
    (hw : w ∈ s.scheduler.queue) : s.scheduled w.operation = true := by
  have hpos : 0 < s.queued w.operation := List.countP_pos_iff.mpr ⟨w, hw, by simp⟩
  have hw' := hs w.operation
  simp only [reduceCtorEq, ite_false, Nat.add_zero] at hw'
  split_ifs at hw' with hsched
  · exact hsched
  · omega

/-- Within one step, a run can start only as the step's first event, for a queued wrapper. -/
theorem started_step {s s' : OperationScheduler} {a : Action} {events : List Event}
    (ha : a.Admissible s) (h : s.step a = some (s', events)) {pre post : List Event}
    {w : Wrapper} {t : Int} (hevents : events = pre ++ .started w t :: post) :
    pre = [] ∧ w ∈ s.scheduler.queue := by
  rcases step_eq_some ha h with ⟨_, _, rfl, -⟩ | ⟨_, rfl, -⟩ | ⟨v, requests, _, hv, rfl, -, -⟩ |
    ⟨rfl, -⟩
  · simp at hevents
  · rcases pre with _ | ⟨e, pre⟩ <;> simp at hevents
  · rcases pre with _ | ⟨e, pre⟩
    · simp only [List.nil_append, List.cons_append, List.cons.injEq, Event.started.injEq] at hevents
      obtain ⟨⟨rfl, -⟩, -⟩ := hevents
      exact ⟨rfl, hv⟩
    · rw [List.cons_append, List.cons_append, List.cons.injEq] at hevents
      have hmem : Event.started w t ∈ requests.map Event.requested ++ [.finished v.operation] := by
        rw [hevents.2]; simp
      simp at hmem
  · simp at hevents

/-- In every state of a run, an operation with a wrapper in the queue is pending. -/
theorem pending_of_mem_queue {s₀ s : OperationScheduler} {trace : List Event} (h₀ : Inv s₀)
    (h : Run s₀ trace s) {w : Wrapper} (hw : w ∈ s.scheduler.queue) :
    pendingAfter w.operation (s₀.scheduled w.operation) trace = true := by
  rw [← scheduled_of_run h]; exact scheduled_of_mem_queue (inv_of_run h₀ h) hw

/-- No run without a request: over every run from a state in which flags and queue agree, a run
of an operation starts only while the operation is pending, that is, when it has had a
`Schedule` call since the end of its latest run, or was scheduled at the start and has not run
since. With `queued_of_request_after_finish`, the runs of an operation answer its pending
requests, no more and no fewer. -/
theorem started_only_if_pending {s₀ s : OperationScheduler} {trace : List Event}
    (h₀ : Inv s₀) (h : Run s₀ trace s) {pre post : List Event} {w : Wrapper} {t : Int}
    (htrace : trace = pre ++ .started w t :: post) :
    pendingAfter w.operation (s₀.scheduled w.operation) pre = true := by
  induction h generalizing post with
  | nil => simp at htrace
  | step hprev ha hstep ih =>
    rcases List.append_eq_append_iff.mp htrace with ⟨rest, rfl, hevents⟩ |
      ⟨_ | ⟨e, rest⟩, htr, hevents⟩
    · -- the run starts in this step, after the events `rest` of the same step
      obtain ⟨rfl, hw⟩ := started_step ha hstep hevents
      rw [List.append_nil]; exact pending_of_mem_queue h₀ hprev hw
    · -- the run starts as this step's first event
      obtain ⟨-, hw⟩ := @started_step _ _ _ _ ha hstep [] _ _ _ (by simpa using hevents.symm)
      rw [List.append_nil] at htr; subst htr; exact pending_of_mem_queue h₀ hprev hw
    · -- the run started in an earlier step
      rw [List.cons_append, List.cons.injEq] at hevents
      obtain ⟨rfl, rfl⟩ := hevents
      exact ih htr

theorem oneOperation_started_pending : ∃ s, Inv oneOperation ∧
    Run oneOperation [.requested 1, .started ⟨1, 0, 1⟩ 1, .finished 1] s ∧
    pendingAfter 1 (oneOperation.scheduled 1) [.requested 1] = true :=
  have hrun := @Run.step _ _ _ _ (.run ⟨1, 0, 1⟩ []) _
    (@Run.step _ _ _ _ (.advanceTo 1) _
      (@Run.step _ _ _ _ (.schedule 1) _ (@Run.nil oneOperation) trivial rfl) trivial rfl)
    trivial rfl
  ⟨_, inv_oneOperation, hrun,
    @started_only_if_pending _ _ _ inv_oneOperation hrun [.requested 1] [.finished 1] ⟨1, 0, 1⟩ 1
      rfl⟩

/-! ## How far apart runs start -/

/-- The runs of `operation` in a trace, in order: the wrapper that ran and when it started. -/
def starts (operation : Closure) (trace : List Event) : List (Wrapper × Int) :=
  trace.filterMap fun
    | .started w t => if w.operation = operation then some (w, t) else none
    | _ => none

/-- The internal scheduler never ran a wrapper before its deadline. -/
def OnTime (trace : List Event) : Prop :=
  ∀ w t, Event.started w t ∈ trace → w.deadline ≤ t

/-- Successive runs start at least the later wrapper's delay apart. -/
def Spaced (runs : List (Wrapper × Int)) : Prop :=
  runs.Chain' fun a b => a.2 + b.1.delay ≤ b.2

@[simp] theorem starts_append (operation : Closure) (l₁ l₂ : List Event) :
    starts operation (l₁ ++ l₂) = starts operation l₁ ++ starts operation l₂ :=
  List.filterMap_append _ _ _

@[simp] theorem starts_requested (operation : Closure) (requests : List Closure) :
    starts operation (requests.map .requested) = [] := by
  simp [starts, List.filterMap_map, Function.comp_def]

theorem starts_run (operation : Closure) (w : Wrapper) (t : Int) (requests : List Closure) :
    starts operation
        (.started w t :: requests.map .requested ++ [.finished w.operation]) =
      if w.operation = operation then [(w, t)] else [] := by
  by_cases ho : w.operation = operation <;>
    simp [starts, ho, List.filterMap_map, Function.comp_def]

theorem mem_starts {operation : Closure} {trace : List Event} {w : Wrapper} {t : Int} :
    (w, t) ∈ starts operation trace ↔ Event.started w t ∈ trace ∧ w.operation = operation := by
  simp only [starts, List.mem_filterMap]
  constructor
  · rintro ⟨e, he, hw⟩
    cases e with
    | started v u =>
      dsimp only at hw
      split_ifs at hw with hv
      cases hw
      exact ⟨he, hv⟩
    | _ => cases hw
  · rintro ⟨he, rfl⟩
    exact ⟨_, he, by simp⟩

theorem started_of_mem_starts {operation : Closure} {trace : List Event} {w : Wrapper} {t : Int}
    (h : (w, t) ∈ starts operation trace) : Event.started w t ∈ trace :=
  (mem_starts.mp h).1

/-- What the clock and the queue remember of past runs: no run started after the clock reads,
and every queued wrapper was handed over no earlier than its operation's latest run began. -/
structure Timely (s : OperationScheduler) (trace : List Event) : Prop where
  started_le_now : ∀ w t, Event.started w t ∈ trace → t ≤ s.scheduler.now
  queued_after_start : ∀ w ∈ s.scheduler.queue, ∀ p ∈ (starts w.operation trace).getLast?,
    p.2 ≤ w.scheduledAt

theorem latest_le_now {s : OperationScheduler} {trace : List Event} (ht : Timely s trace)
    {operation : Closure} {p : Wrapper × Int} (hp : p ∈ (starts operation trace).getLast?) :
    p.2 ≤ s.scheduler.now :=
  ht.started_le_now p.1 p.2 (started_of_mem_starts (List.mem_of_getLast?_eq_some hp))

theorem timely_step {s s' : OperationScheduler} {a : Action} {events : List Event}
    {trace : List Event} (hs : Inv s) (ht : Timely s trace) (ha : a.Admissible s)
    (h : s.step a = some (s', events)) : Timely s' (trace ++ events) := by
  rcases step_eq_some ha h with ⟨_, _, rfl, h₁⟩ | ⟨other, rfl, h₁⟩ |
    ⟨w, requests, s₁, hw, rfl, h₁, rfl⟩ | ⟨rfl, hle, -, hq⟩
  · obtain ⟨hsch, -⟩ := s.changeDelayForTest_eq_some h₁
    rw [List.append_nil]
    exact ⟨by rw [hsch]; exact ht.1, by rw [hsch]; exact ht.2⟩
  · obtain ⟨hnow, hqueue⟩ := s.queue_schedule h₁
    refine ⟨fun w t hm => ?_, fun w hw p hp => ?_⟩
    · rw [hnow]; exact ht.started_le_now w t (by simpa using hm)
    · have hp' : p ∈ (starts w.operation trace).getLast? := by simpa [starts] using hp
      rcases hqueue w hw with hw | ⟨-, hat, -, -⟩
      · exact ht.queued_after_start w hw p hp'
      · rw [hat]; exact latest_le_now ht hp'
  · obtain ⟨hnow, hqueue⟩ := queue_scheduleAll h₁
    refine ⟨fun v t hm => ?_, fun v hv p hp => ?_⟩
    · rw [scheduler_clearScheduled, hnow, now_dequeue]
      rcases List.mem_append.mp hm with hm | hm
      · exact ht.started_le_now v t hm
      · simp at hm; obtain ⟨rfl, rfl⟩ := hm; exact Int.le_refl _
    · rw [starts_append, starts_run, List.getLast?_append] at hp
      rw [scheduler_clearScheduled] at hv
      have hdq := accounted_dequeue hs hw v.operation
      rcases hqueue v hv with hv | ⟨hat, -⟩
      · by_cases ho : w.operation = v.operation
        · have : (s.dequeue w).queued v.operation = 0 := by
            simp only [ho, ite_true] at hdq; split_ifs at hdq; omega
          exact absurd (List.countP_eq_zero.mp this v hv) (by simp)
        · simp only [ho, ite_false, List.getLast?_nil, Option.or_none] at hp
          exact ht.queued_after_start v (List.mem_of_mem_erase hv) p hp
      · rw [hat, now_dequeue]
        by_cases ho : w.operation = v.operation
        · simp [ho] at hp; subst hp; exact Int.le_refl _
        · simp only [ho, ite_false, List.getLast?_nil, Option.or_none] at hp
          exact latest_le_now ht hp
  · refine ⟨fun w t hm => ?_, fun w hw p hp => ?_⟩
    · exact Int.le_trans (ht.started_le_now w t (by simpa using hm)) hle
    · rw [List.append_nil] at hp; exact ht.queued_after_start w (hq ▸ hw) p hp

theorem spaced_step {s s' : OperationScheduler} {a : Action} {events : List Event}
    {trace : List Event} (ht : Timely s trace) (ha : a.Admissible s)
    (h : s.step a = some (s', events)) (hon : OnTime events) (operation : Closure)
    (hsp : Spaced (starts operation trace)) : Spaced (starts operation (trace ++ events)) := by
  rcases step_eq_some ha h with ⟨_, _, rfl, -⟩ | ⟨_, rfl, -⟩ |
    ⟨w, requests, _, hw, rfl, -, -⟩ | ⟨rfl, -⟩
  · simpa using hsp
  · simpa [starts] using hsp
  · rw [starts_append, starts_run]
    split_ifs with ho
    · refine List.chain'_append.mpr ⟨hsp, List.chain'_singleton _, fun p hp q hq => ?_⟩
      obtain rfl : q = (w, s.scheduler.now) := by simpa using hq.symm
      have hlate := ht.queued_after_start w hw p (ho ▸ hp)
      have hdue := hon w s.scheduler.now (List.mem_cons_self _ _)
      simp only [Wrapper.deadline] at hdue
      show p.2 + w.delay ≤ s.scheduler.now
      omega
    · simpa using hsp
  · simpa using hsp

/-- Under an internal scheduler that never runs a wrapper before its deadline, two successive
runs of any operation start at least the delay of the later one's wrapper apart: the delay the
operation had when that run was scheduled. -/
theorem starts_spaced {s₀ s : OperationScheduler} {trace : List Event} (h₀ : Inv s₀)
    (h : Run s₀ trace s) (hon : OnTime trace) (operation : Closure) :
    Spaced (starts operation trace) := by
  suffices Inv s ∧ Timely s trace ∧ (OnTime trace → Spaced (starts operation trace)) from
    this.2.2 hon
  clear hon
  induction h with
  | nil => exact ⟨h₀, ⟨by simp, by simp [starts]⟩, fun _ => List.chain'_nil⟩
  | step _ ha hstep ih =>
    obtain ⟨hs, ht, hsp⟩ := ih
    refine ⟨inv_step hs ha hstep, timely_step hs ht ha hstep, fun hon => ?_⟩
    exact spaced_step ht ha hstep (fun w t hm => hon w t (List.mem_append_right _ hm)) operation
      (hsp fun w t hm => hon w t (List.mem_append_left _ hm))

/-! ## Where a wrapper's delay comes from -/

/-- The wrapper `w` was queued by a step of the run, taken from a state that a prefix of the run
reaches, in which `w`'s operation had the delay `w` carries and the clock read the time `w`
carries. -/
def QueuedIn (s₀ : OperationScheduler) (trace : List Event) (w : Wrapper) : Prop :=
  ∃ pre events post s s' a, trace = pre ++ events ++ post ∧ Run s₀ pre s ∧ a.Admissible s ∧
    s.step a = some (s', events) ∧ w ∉ s.scheduler.queue ∧ w ∈ s'.scheduler.queue ∧
    (s.operations w.operation).map (·.delay) = some w.delay ∧ s.scheduler.now = w.scheduledAt

theorem QueuedIn.append {s₀ : OperationScheduler} {trace : List Event} {w : Wrapper}
    (h : QueuedIn s₀ trace w) (more : List Event) : QueuedIn s₀ (trace ++ more) w := by
  obtain ⟨pre, events, post, s, s', a, rfl, hrun⟩ := h
  exact ⟨pre, events, post ++ more, s, s', a, by simp, hrun⟩

/-- A wrapper that a step adds to the queue carries the clock and its operation's stored delay
of the state the step was taken from. -/
theorem new_wrapper_step {s s' : OperationScheduler} {a : Action} {events : List Event}
    (ha : a.Admissible s) (h : s.step a = some (s', events)) {w : Wrapper}
    (hnew : w ∉ s.scheduler.queue) (hw : w ∈ s'.scheduler.queue) :
    (s.operations w.operation).map (·.delay) = some w.delay ∧ s.scheduler.now = w.scheduledAt := by
  rcases step_eq_some ha h with ⟨_, _, -, h₁⟩ | ⟨_, -, h₁⟩ | ⟨v, _, s₁, -, -, h₁, rfl⟩ |
    ⟨-, -, -, hq⟩
  · rw [(s.changeDelayForTest_eq_some h₁).1] at hw; exact absurd hw hnew
  · rcases (s.queue_schedule h₁).2 w hw with hw | ⟨rfl, hat, -, hdelay⟩
    · exact absurd hw hnew
    · exact ⟨hdelay, hat.symm⟩
  · rw [scheduler_clearScheduled] at hw
    rcases (queue_scheduleAll h₁).2 w hw with hw | ⟨hat, hdelay⟩
    · exact absurd (List.mem_of_mem_erase hw) hnew
    · exact ⟨hdelay, hat.symm⟩
  · rw [hq] at hw; exact absurd hw hnew

/-- Every wrapper waiting in the queue along a run waited there at the start, or was queued by a
step of the run. -/
theorem queued_origin {s₀ s : OperationScheduler} {trace : List Event} (h : Run s₀ trace s)
    {w : Wrapper} (hw : w ∈ s.scheduler.queue) :
    w ∈ s₀.scheduler.queue ∨ QueuedIn s₀ trace w := by
  induction h with
  | nil => exact .inl hw
  | @step trace s s' a events hprev ha hstep ih =>
    by_cases hold : w ∈ s.scheduler.queue
    · exact (ih hold).imp_right (·.append events)
    · obtain ⟨hdelay, hat⟩ := new_wrapper_step ha hstep hold hw
      exact .inr ⟨trace, events, [], s, s', a, by simp, hprev, ha, hstep, hold, hw, hdelay, hat⟩

/-- Every wrapper that starts in a run waited in the queue at the start, or was queued by a step
of the run from a state in which its operation had the delay it carries. -/
theorem started_queued {s₀ s : OperationScheduler} {trace : List Event} (h : Run s₀ trace s)
    {w : Wrapper} {t : Int} (hstart : Event.started w t ∈ trace) :
    w ∈ s₀.scheduler.queue ∨ QueuedIn s₀ trace w := by
  induction h with
  | nil => simp at hstart
  | @step trace s s' a events hprev ha hstep ih =>
    rcases List.mem_append.mp hstart with hstart | hstart
    · exact (ih hstart).imp_right (·.append events)
    · obtain ⟨pre, post, hevents⟩ := List.append_of_mem hstart
      exact (queued_origin hprev (started_step ha hstep hevents).2).imp_right (·.append events)

end CacheInvalidation.OperationScheduler
