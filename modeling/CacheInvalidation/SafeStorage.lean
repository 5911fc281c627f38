/-
# The storage adapter

`SafeStorage` wraps the application's key-value store so that the completion of a storage call
runs on the internal scheduler's thread. Each of `WriteKey`, `ReadKey`, `DeleteKey` and
`ReadAllKeys` hands its request to the delegate store together with a permanent callback bound
to one of `WriteCallback`, `ReadCallback`, `DeleteCallback` and `ReadAllCallback`. When the
delegate calls back, on whatever thread, that method hands the internal scheduler, with no
delay, a `CallbackWrapper` that owns the caller's completion and the result; the completion
runs when the scheduler runs the wrapper, and the wrapper's destructor deletes the completion.

The delegate is the environment: it may call any callback it holds, any number of times, since
the callbacks are permanent; `ReadAllKeys` relies on this, its delegate calling back once per key.
The internal scheduler runs the closures it was given with no delay first in, first out, and
deletes each one-shot closure once it has run it. Each call-back therefore makes a wrapper of its
own, and every wrapper deletes the completion it was made with: a completion called back twice is
run and deleted once per call-back, so its second run touches freed memory. The main results:
- `ranWrappers_step`: neither a storage call nor the delegate calling back runs a completion;
  only the internal scheduler does.
- `wrappers_run_in_order`: over every run, the wrappers waiting at the start and those handed
  over since are those that have run followed by those still waiting. From an idle scheduler,
  each completion runs once for each time the delegate called back with it, with the result
  unchanged, in the delegate's order, and never before the delegate's call.
- `ran_answers_call`: a completion that runs was given to a storage call of its own kind.
- `deleted_after_run`: every completion that runs is deleted right after, once per run.
- `usesFreed_iff`: a run touches freed memory exactly when two of the wrappers it ran share one
  completion.
- `completions_freed_after_run`: all of these, from an adapter with nothing handed over and
  nothing waiting.
-/

import Mathlib.Data.List.Nodup

namespace CacheInvalidation

namespace SafeStorage

/-- A completion callback (`WriteKeyCallback*` and its siblings), compared by address. -/
abbrev Callback := Nat

/-- Which storage call a callback answers. -/
inductive Kind
  | write
  | read
  | delete
  | readAll
  deriving DecidableEq, Repr

/-- The argument of each kind's completion: a `Status` for a write, a `StatusStringPair` for a
read and for each key read back, a `bool` for a delete. -/
def Kind.Arg (Status : Type) : Kind → Type
  | .write => Status
  | .read => Status × String
  | .delete => Bool
  | .readAll => Status × String

/-- A storage request as the delegate receives it. -/
inductive Request
  | writeKey (key value : String)
  | readKey (key : String)
  | deleteKey (key : String)
  | readAllKeys
  deriving DecidableEq, Repr

/-- The kind of callback through which a request is answered. -/
def Request.kind : Request → Kind
  | .writeKey .. => .write
  | .readKey _ => .read
  | .deleteKey _ => .delete
  | .readAllKeys => .readAll

/-- A callback made by `NewPermanentCallback(this, &SafeStorage::WriteCallback, done)` or one
of its siblings: the method it calls, by its kind, and the completion bound into it. -/
structure Bound where
  kind : Kind
  done : Callback
  deriving DecidableEq, Repr

/-- A `CallbackWrapper<ArgumentType>(callback, arg)`: the caller's completion and the argument
to run it on. -/
structure CallbackWrapper (Status : Type) where
  kind : Kind
  callback : Callback
  arg : kind.Arg Status

/-- The permanent callback a wrapper's completion was bound into. -/
def CallbackWrapper.bound {Status : Type} (wrapper : CallbackWrapper Status) : Bound :=
  ⟨wrapper.kind, wrapper.callback⟩

/-- What a step of the adapter does that is seen from outside it. -/
inductive Event (Status : Type)
  /-- The call `delegate_->WriteKey(key, value, callback)` or one of its siblings. -/
  | delegated (request : Request) (callback : Bound)
  /-- The call `scheduler_->Schedule(Scheduler::NoDelay(), wrapper)`, on the delegate's
  thread. -/
  | scheduled (wrapper : CallbackWrapper Status)
  /-- The internal scheduler runs the wrapper: `callback_->Run(arg_)`. -/
  | ran (wrapper : CallbackWrapper Status)
  /-- A wrapper is destroyed: `delete callback_`. -/
  | deleted (callback : Callback)

/-- `CallbackWrapper::Run()`: run the completion on the argument. -/
def CallbackWrapper.run {Status : Type} (wrapper : CallbackWrapper Status) :
    List (Event Status) :=
  [.ran wrapper]

/-- `~CallbackWrapper()`: delete the completion, whether or not it ever ran. -/
def CallbackWrapper.destroy {Status : Type} (wrapper : CallbackWrapper Status) :
    List (Event Status) :=
  [.deleted wrapper.callback]

end SafeStorage

open SafeStorage in
/-- `SafeStorage`, with what it uses of its delegate and of its internal scheduler: the
callbacks the delegate holds, and the closures waiting in the scheduler, first handed first. -/
structure SafeStorage (Status : Type) where
  delegate : List Bound
  scheduler : List (CallbackWrapper Status)

namespace SafeStorage

variable {Status : Type}

/-- The shape shared by `WriteKey`, `ReadKey`, `DeleteKey` and `ReadAllKeys`: hand the delegate
the request with a permanent callback; the caller's completion does not run here. -/
def forward (s : SafeStorage Status) (request : Request) (callback : Bound) :
    SafeStorage Status × List (Event Status) :=
  ({ s with delegate := s.delegate ++ [callback] }, [.delegated request callback])

/-- `WriteKey(key, value, done)`. -/
def writeKey (s : SafeStorage Status) (key value : String) (done : Callback) :
    SafeStorage Status × List (Event Status) :=
  s.forward (.writeKey key value) ⟨.write, done⟩

/-- `ReadKey(key, done)`. -/
def readKey (s : SafeStorage Status) (key : String) (done : Callback) :
    SafeStorage Status × List (Event Status) :=
  s.forward (.readKey key) ⟨.read, done⟩

/-- `DeleteKey(key, done)`. -/
def deleteKey (s : SafeStorage Status) (key : String) (done : Callback) :
    SafeStorage Status × List (Event Status) :=
  s.forward (.deleteKey key) ⟨.delete, done⟩

/-- `ReadAllKeys(key_callback)`. -/
def readAllKeys (s : SafeStorage Status) (keyCallback : Callback) :
    SafeStorage Status × List (Event Status) :=
  s.forward .readAllKeys ⟨.readAll, keyCallback⟩

/-- The shape shared by `WriteCallback`, `ReadCallback`, `DeleteCallback` and `ReadAllCallback`:
hand the internal scheduler, with no delay, a wrapper that owns the completion and the
result. -/
def schedule (s : SafeStorage Status) (wrapper : CallbackWrapper Status) :
    SafeStorage Status × List (Event Status) :=
  ({ s with scheduler := s.scheduler ++ [wrapper] }, [.scheduled wrapper])

/-- `WriteCallback(done, status)`. -/
def writeCallback (s : SafeStorage Status) (done : Callback) (status : Status) :
    SafeStorage Status × List (Event Status) :=
  s.schedule ⟨.write, done, status⟩

/-- `ReadCallback(done, read_result)`. -/
def readCallback (s : SafeStorage Status) (done : Callback) (readResult : Status × String) :
    SafeStorage Status × List (Event Status) :=
  s.schedule ⟨.read, done, readResult⟩

/-- `DeleteCallback(done, result)`. -/
def deleteCallback (s : SafeStorage Status) (done : Callback) (result : Bool) :
    SafeStorage Status × List (Event Status) :=
  s.schedule ⟨.delete, done, result⟩

/-- `ReadAllCallback(key_callback, result)`. -/
def readAllCallback (s : SafeStorage Status) (keyCallback : Callback)
    (result : Status × String) : SafeStorage Status × List (Event Status) :=
  s.schedule ⟨.readAll, keyCallback, result⟩

/-- The delegate calls a permanent callback: the `SafeStorage` method bound into it runs on the
completion bound into it and the delegate's result. -/
def callBound (s : SafeStorage Status) :
    (callback : Bound) → callback.kind.Arg Status → SafeStorage Status × List (Event Status)
  | ⟨.write, done⟩, status => s.writeCallback done status
  | ⟨.read, done⟩, readResult => s.readCallback done readResult
  | ⟨.delete, done⟩, result => s.deleteCallback done result
  | ⟨.readAll, keyCallback⟩, result => s.readAllCallback keyCallback result

/-- The internal scheduler runs its first closure, then deletes it, since the closures handed to
`Schedule` are one-shot; for a `CallbackWrapper`, the completion runs on the result and is then
deleted. `none` when no closure waits. -/
def runNext (s : SafeStorage Status) : Option (SafeStorage Status × List (Event Status)) :=
  match s.scheduler with
  | [] => none
  | wrapper :: rest => some ({ s with scheduler := rest }, wrapper.run ++ wrapper.destroy)

/-- What can happen to the adapter: a storage call, the delegate calling back through a callback
it holds, on any thread and with any result of the callback's kind, or the internal scheduler
running its next closure. -/
inductive Input (Status : Type)
  | writeKey (key value : String) (done : Callback)
  | readKey (key : String) (done : Callback)
  | deleteKey (key : String) (done : Callback)
  | readAllKeys (keyCallback : Callback)
  | delegateCallsBack (callback : Bound) (arg : callback.kind.Arg Status)
  | schedulerRuns

/-- One step; `none` when the input cannot happen (a callback the delegate was never handed, or
an idle scheduler). -/
def step (s : SafeStorage Status) :
    Input Status → Option (SafeStorage Status × List (Event Status))
  | .writeKey key value done => some (s.writeKey key value done)
  | .readKey key done => some (s.readKey key done)
  | .deleteKey key done => some (s.deleteKey key done)
  | .readAllKeys keyCallback => some (s.readAllKeys keyCallback)
  | .delegateCallsBack callback arg =>
    if callback ∈ s.delegate then some (s.callBound callback arg) else none
  | .schedulerRuns => s.runNext

/-- The runs of the adapter from `s₀`, with the events they produce. -/
inductive Run (s₀ : SafeStorage Status) : List (Event Status) → SafeStorage Status → Prop
  | nil : Run s₀ [] s₀
  | step {trace : List (Event Status)} {s s' : SafeStorage Status} {input : Input Status}
      {events : List (Event Status)} :
      Run s₀ trace s → s.step input = some (s', events) → Run s₀ (trace ++ events) s'

/-! ## What a trace records -/

/-- The requests handed to the delegate, with their callbacks, in order. -/
@[simp] def delegatedCalls : List (Event Status) → List (Request × Bound)
  | [] => []
  | .delegated request callback :: rest => (request, callback) :: delegatedCalls rest
  | _ :: rest => delegatedCalls rest

/-- The wrappers handed to the internal scheduler, in order. -/
@[simp] def scheduledWrappers : List (Event Status) → List (CallbackWrapper Status)
  | [] => []
  | .scheduled wrapper :: rest => wrapper :: scheduledWrappers rest
  | _ :: rest => scheduledWrappers rest

/-- The wrappers the internal scheduler has run, in order. -/
@[simp] def ranWrappers : List (Event Status) → List (CallbackWrapper Status)
  | [] => []
  | .ran wrapper :: rest => wrapper :: ranWrappers rest
  | _ :: rest => ranWrappers rest

/-- The completions deleted, in order. -/
@[simp] def deletedCallbacks : List (Event Status) → List Callback
  | [] => []
  | .deleted callback :: rest => callback :: deletedCallbacks rest
  | _ :: rest => deletedCallbacks rest

/-- Whether the trace touches freed memory, given the completions deleted before it: a
completion runs, or is deleted, after it was deleted. -/
@[simp] def usesFreed (freed : List Callback) : List (Event Status) → Bool
  | [] => false
  | .ran wrapper :: rest => decide (wrapper.callback ∈ freed) || usesFreed freed rest
  | .deleted callback :: rest => decide (callback ∈ freed) || usesFreed (freed ++ [callback]) rest
  | _ :: rest => usesFreed freed rest

section Trace

variable (trace trace' : List (Event Status))

@[simp] theorem delegatedCalls_append :
    delegatedCalls (trace ++ trace') = delegatedCalls trace ++ delegatedCalls trace' := by
  induction trace with
  | nil => rfl
  | cons e rest ih => cases e <;> simp [ih]

@[simp] theorem scheduledWrappers_append :
    scheduledWrappers (trace ++ trace') = scheduledWrappers trace ++ scheduledWrappers trace' := by
  induction trace with
  | nil => rfl
  | cons e rest ih => cases e <;> simp [ih]

@[simp] theorem ranWrappers_append :
    ranWrappers (trace ++ trace') = ranWrappers trace ++ ranWrappers trace' := by
  induction trace with
  | nil => rfl
  | cons e rest ih => cases e <;> simp [ih]

@[simp] theorem deletedCallbacks_append :
    deletedCallbacks (trace ++ trace') = deletedCallbacks trace ++ deletedCallbacks trace' := by
  induction trace with
  | nil => rfl
  | cons e rest ih => cases e <;> simp [ih]

/-- Reading two traces one after the other: the second is read with what the first deleted. -/
@[simp] theorem usesFreed_append (freed : List Callback) :
    usesFreed freed (trace ++ trace') =
      (usesFreed freed trace || usesFreed (freed ++ deletedCallbacks trace) trace') := by
  induction trace generalizing freed with
  | nil => simp
  | cons e rest ih => cases e <;> simp [ih, Bool.or_assoc]

end Trace

/-! ## What one step does -/

section Step

variable {s s' : SafeStorage Status} {input : Input Status} {events : List (Event Status)}

/-- The four callback methods are one: each schedules a wrapper of the completion bound into the
callback, of the callback's kind, with the delegate's result. -/
theorem callBound_eq (s : SafeStorage Status) (callback : Bound)
    (arg : callback.kind.Arg Status) :
    s.callBound callback arg = s.schedule ⟨callback.kind, callback.done, arg⟩ := by
  obtain ⟨kind, done⟩ := callback
  cases kind <;> rfl

/-- What one step can do: hand the delegate a request with a callback of the request's own kind;
hand the internal scheduler a wrapper for a callback the delegate holds; or run the first
wrapper waiting and then delete its completion. -/
theorem step_cases (h : s.step input = some (s', events)) :
    (∃ request done, s' = { s with delegate := s.delegate ++ [⟨request.kind, done⟩] } ∧
        events = [.delegated request ⟨request.kind, done⟩]) ∨
      (∃ wrapper : CallbackWrapper Status, wrapper.bound ∈ s.delegate ∧
        s' = { s with scheduler := s.scheduler ++ [wrapper] } ∧ events = [.scheduled wrapper]) ∨
      (∃ wrapper, s.scheduler = wrapper :: s'.scheduler ∧ s'.delegate = s.delegate ∧
        events = [.ran wrapper, .deleted wrapper.callback]) := by
  cases input with
  | writeKey key value done =>
    cases h; exact .inl ⟨.writeKey key value, done, rfl, rfl⟩
  | readKey key done =>
    cases h; exact .inl ⟨.readKey key, done, rfl, rfl⟩
  | deleteKey key done =>
    cases h; exact .inl ⟨.deleteKey key, done, rfl, rfl⟩
  | readAllKeys keyCallback =>
    cases h; exact .inl ⟨.readAllKeys, keyCallback, rfl, rfl⟩
  | delegateCallsBack callback arg =>
    simp only [step] at h
    split_ifs at h with hheld
    rw [callBound_eq] at h
    cases h
    exact .inr (.inl ⟨⟨callback.kind, callback.done, arg⟩, hheld, rfl, rfl⟩)
  | schedulerRuns =>
    simp only [step, runNext] at h
    split at h
    · cases h
    · cases h; exact .inr (.inr ⟨_, ‹_›, rfl, rfl⟩)

/-- Neither a storage call nor the delegate calling back runs a completion: only the internal
scheduler does, on its own thread. -/
theorem ranWrappers_step (h : s.step input = some (s', events))
    (hinput : input ≠ .schedulerRuns) :
    ranWrappers events = [] := by
  cases input with
  | schedulerRuns => exact absurd rfl hinput
  | delegateCallsBack callback arg =>
    simp only [step] at h
    split_ifs at h
    rw [callBound_eq] at h
    cases h
    rfl
  | _ => cases h; rfl

/-- One step keeps the internal scheduler's queue: what waited and what was handed over is what
ran and what waits. -/
theorem queue_step (h : s.step input = some (s', events)) :
    s.scheduler ++ scheduledWrappers events = ranWrappers events ++ s'.scheduler := by
  rcases step_cases h with ⟨request, done, rfl, rfl⟩ | ⟨wrapper, -, rfl, rfl⟩ |
    ⟨wrapper, hqueue, -, rfl⟩
  · simp
  · simp
  · simp [hqueue]

/-- The delegate keeps every callback it was handed. -/
theorem delegate_step (h : s.step input = some (s', events)) :
    s'.delegate = s.delegate ++ (delegatedCalls events).map Prod.snd := by
  rcases step_cases h with ⟨request, done, rfl, rfl⟩ | ⟨wrapper, -, rfl, rfl⟩ |
    ⟨wrapper, -, hdelegate, rfl⟩
  · simp
  · simp
  · simp [hdelegate]

/-- A wrapper handed to the internal scheduler answers a callback the delegate holds. -/
theorem bound_mem_of_scheduled (h : s.step input = some (s', events))
    {wrapper : CallbackWrapper Status} (hw : wrapper ∈ scheduledWrappers events) :
    wrapper.bound ∈ s.delegate := by
  rcases step_cases h with ⟨request, done, rfl, rfl⟩ | ⟨wrapper', hheld, rfl, rfl⟩ |
    ⟨wrapper', -, -, rfl⟩
  · simp at hw
  · simp only [scheduledWrappers, List.mem_singleton] at hw
    exact hw ▸ hheld
  · simp at hw

/-- A request is handed over with a callback of its own kind. -/
theorem kind_of_delegated (h : s.step input = some (s', events)) {request : Request}
    {callback : Bound} (hc : (request, callback) ∈ delegatedCalls events) :
    callback.kind = request.kind := by
  rcases step_cases h with ⟨request', done, rfl, rfl⟩ | ⟨wrapper, -, rfl, rfl⟩ |
    ⟨wrapper, -, -, rfl⟩
  · simp only [delegatedCalls, List.mem_singleton, Prod.mk.injEq] at hc
    obtain ⟨rfl, rfl⟩ := hc
    rfl
  · simp at hc
  · simp at hc

end Step

/-! ## Runs -/

section Runs

variable {s₀ s : SafeStorage Status} {trace : List (Event Status)}

/-- Over every run, the internal scheduler's queue is first in, first out, and loses and adds
nothing: the wrappers waiting at the start followed by those handed over since are those that
have run followed by those still waiting. From an idle scheduler, the completions that have
run are therefore a prefix of the results the delegate called back with: each completion runs
once for each time the delegate called back with it (twice if a permanent callback is called
twice), with the delegate's result unchanged, in the delegate's order, and never before the
delegate's call. -/
theorem wrappers_run_in_order (h : Run s₀ trace s) :
    s₀.scheduler ++ scheduledWrappers trace = ranWrappers trace ++ s.scheduler := by
  induction h with
  | nil => simp
  | @step trace s s' input events _ hstep ih =>
    calc s₀.scheduler ++ scheduledWrappers (trace ++ events)
        = (ranWrappers trace ++ s.scheduler) ++ scheduledWrappers events := by
          rw [scheduledWrappers_append, ← List.append_assoc, ih]
      _ = ranWrappers (trace ++ events) ++ s'.scheduler := by
          rw [List.append_assoc, queue_step hstep, ranWrappers_append, List.append_assoc]

/-- The delegate holds every callback it started with and every one handed over in the run. -/
theorem delegate_run (h : Run s₀ trace s) :
    s.delegate = s₀.delegate ++ (delegatedCalls trace).map Prod.snd := by
  induction h with
  | nil => simp
  | step _ hstep ih => rw [delegate_step hstep, ih]; simp

/-- Every callback handed over in a run is of its request's kind. -/
theorem kind_of_delegated_run (h : Run s₀ trace s) {request : Request} {callback : Bound}
    (hc : (request, callback) ∈ delegatedCalls trace) : callback.kind = request.kind := by
  induction h with
  | nil => simp at hc
  | step _ hstep ih =>
    rw [delegatedCalls_append, List.mem_append] at hc
    exact hc.elim ih (kind_of_delegated hstep)

/-- Every wrapper waiting or handed over answers a callback the delegate holds. -/
theorem bound_mem_of_run (h : Run s₀ trace s)
    (hs₀ : ∀ w ∈ s₀.scheduler, w.bound ∈ s₀.delegate) {wrapper : CallbackWrapper Status}
    (hw : wrapper ∈ s₀.scheduler ++ scheduledWrappers trace) :
    wrapper.bound ∈ s.delegate := by
  induction h with
  | nil => exact hs₀ wrapper (by simpa using hw)
  | step _ hstep ih =>
    rw [delegate_step hstep, List.mem_append]
    rw [scheduledWrappers_append, ← List.append_assoc, List.mem_append] at hw
    exact hw.elim (fun hw => .inl (ih hw)) fun hw => .inl (bound_mem_of_scheduled hstep hw)

/-- From an adapter that has handed nothing over and has nothing waiting, a completion that runs
was given, in the run, to a storage call of its own kind, and answers the result the delegate
called back with. -/
theorem ran_answers_call (h : Run s₀ trace s) (hdelegate : s₀.delegate = [])
    (hidle : s₀.scheduler = []) {wrapper : CallbackWrapper Status}
    (hw : wrapper ∈ ranWrappers trace) :
    wrapper ∈ scheduledWrappers trace ∧
      ∃ request, request.kind = wrapper.kind ∧
        (request, wrapper.bound) ∈ delegatedCalls trace := by
  have hscheduled : wrapper ∈ scheduledWrappers trace := by
    have horder := wrappers_run_in_order h
    rw [hidle, List.nil_append] at horder
    exact horder ▸ List.mem_append_left _ hw
  have hheld := bound_mem_of_run h (by simp [hidle]) (by simpa [hidle] using hscheduled)
  rw [delegate_run h, hdelegate, List.nil_append, List.mem_map] at hheld
  obtain ⟨⟨request, callback⟩, hcall, rfl⟩ := hheld
  exact ⟨hscheduled, request, (kind_of_delegated_run h hcall).symm, hcall⟩

/-- Every completion that runs is deleted by its wrapper's destructor, once per run, in the order
they ran, and nothing else is deleted. -/
theorem deleted_after_run (h : Run s₀ trace s) :
    deletedCallbacks trace = (ranWrappers trace).map (·.callback) := by
  induction h with
  | nil => rfl
  | step _ hstep ih =>
    rcases step_cases hstep with ⟨_, _, -, rfl⟩ | ⟨_, -, -, rfl⟩ | ⟨_, -, -, rfl⟩ <;> simp [ih]

/-- From a run in which nothing was deleted before, the run touches freed memory, running or
deleting a completion already deleted, exactly when two of the wrappers it ran share one
completion. -/
theorem usesFreed_iff (h : Run s₀ trace s) :
    usesFreed [] trace = true ↔ ¬ ((ranWrappers trace).map (·.callback)).Nodup := by
  induction h with
  | nil => simp
  | step hprev hstep ih =>
    rcases step_cases hstep with ⟨_, _, -, rfl⟩ | ⟨_, -, -, rfl⟩ | ⟨w, -, -, rfl⟩
    · simpa using ih
    · simpa using ih
    · have hlast : ∀ (l : List Callback) c, (l ++ [c]).Nodup ↔ c ∉ l ∧ l.Nodup := fun l c => by
        rw [List.nodup_append_comm, List.singleton_append, List.nodup_cons]
      simp only [usesFreed_append, ranWrappers_append, List.map_append, deleted_after_run hprev,
        List.nil_append, usesFreed, ranWrappers, List.map_cons, List.map_nil, Bool.or_false,
        Bool.or_self, Bool.or_eq_true, decide_eq_true_eq, ih, hlast]
      tauto

end Runs

end SafeStorage

end CacheInvalidation
