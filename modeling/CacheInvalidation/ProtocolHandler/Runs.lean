/-
# Runs of the protocol handler

A run of the handler interleaves the calls the client library makes on it, the messages the
network delivers, the moves of the internal scheduler (its clock, and a run of a wrapper of the
batching task), and changes in the listener's own state (its token and its registration
summary). `MessageReceiver` hands each message to the internal scheduler with no delay; here a
message is handled as it arrives.

Runs start from any handler: the constructor aborts (`create_eq_none`), so no handler of the
code as written is ever built, and a result about runs is a result about every state.

A condition on the order of a run's events is stated as a `Monitor`: an observer that reads
them in order, with a state of its own and a condition on each event. The operation scheduler
inside the handler takes part in the run through `Run.scheduler`: its events form a run of the
operation scheduler.
-/

import CacheInvalidation.ProtocolHandler.Incoming
import CacheInvalidation.ProtocolHandler.Outgoing

namespace CacheInvalidation.ProtocolHandler

/-- The handler, with what it reads from its listener. -/
structure Client where
  handler : ProtocolHandler
  listener : Listener

/-- What can happen to a handler: a call from the client library, a message from the network
(with the token the listener holds after a token-control upcall, its own decision), a move of
the internal scheduler, or a change in the listener's state. -/
inductive Input
  | sendInitializeMessage (clientType : Int) (applicationClientId : ApplicationClientIdP)
      (nonce : String)
  | sendInfoMessage (performanceCounters configParams : List (String × Int))
  | sendRegistrations (objectIds : List ObjectIdP) (opType : OpType)
  | sendInvalidationAck (invalidation : InvalidationP)
  | sendRegistrationSyncSubtree (subtree : RegistrationSubtree)
  | handleIncomingMessage (incomingMessage tokenAfterControl : String)
  | runBatchingTask (wrapper : Wrapper)
  | advanceTo (time : Int)
  | updateListener (listener : Listener)

variable (setup : Setup)

/-- The internal scheduler runs a queued wrapper of the batching task: `RunAndClearScheduled`
calls `BatchingTask`, then clears the task's flag. -/
def runBatchingTask (listener : Listener) (h : ProtocolHandler) (w : Wrapper) :
    Option (ProtocolHandler × List Event) :=
  if w ∈ h.operationScheduler.scheduler.queue ∧ w.operation = setup.batchingTask then
    let sent := batchingTask setup listener
      { h with operationScheduler := h.operationScheduler.dequeue w }
    some ({ sent.1 with
        operationScheduler := sent.1.operationScheduler.clearScheduled w.operation },
      .scheduler (.started w h.now) :: sent.2 ++ [.scheduler (.finished w.operation)])
  else none

/-- One step of a client, with the events it emits; `none` when a `CHECK` fails or the move is
impossible. -/
def Client.step (c : Client) : Input → Option (Client × List Event)
  | .sendInitializeMessage clientType applicationClientId nonce =>
    let r := sendInitializeMessage setup c.listener c.handler clientType applicationClientId nonce
    some (⟨r.1, c.listener⟩, r.2)
  | .sendInfoMessage performanceCounters configParams =>
    let r := sendInfoMessage setup c.listener c.handler performanceCounters configParams
    some (⟨r.1, c.listener⟩, r.2)
  | .sendRegistrations objectIds opType =>
    (sendRegistrations setup c.handler objectIds opType).map fun r => (⟨r.1, c.listener⟩, r.2)
  | .sendInvalidationAck invalidation =>
    (sendInvalidationAck setup c.handler invalidation).map fun r => (⟨r.1, c.listener⟩, r.2)
  | .sendRegistrationSyncSubtree subtree =>
    (sendRegistrationSyncSubtree setup c.handler subtree).map fun r => (⟨r.1, c.listener⟩, r.2)
  | .handleIncomingMessage incomingMessage tokenAfterControl =>
    let r := handleIncomingMessage setup c.listener tokenAfterControl c.handler incomingMessage
    some (⟨r.1, r.2.1⟩, r.2.2)
  | .runBatchingTask w =>
    (runBatchingTask setup c.listener c.handler w).map fun r => (⟨r.1, c.listener⟩, r.2)
  | .advanceTo time =>
    (c.handler.operationScheduler.advanceTo time).map fun s =>
      (⟨{ c.handler with operationScheduler := s }, c.listener⟩, [])
  | .updateListener listener => some (⟨c.handler, listener⟩, [])

/-- The runs from `c₀`, with the events they emit. -/
inductive Run (c₀ : Client) : List Event → Client → Prop
  | nil : Run c₀ [] c₀
  | step {trace : List Event} {c c' : Client} {input : Input} {events : List Event} :
      Run c₀ trace c → c.step setup input = some (c', events) → Run c₀ (trace ++ events) c'

/-- A setup for concrete runs: protocol version 1.0; a parser that reads `q` followed by `n`
characters as a config change asking for `n` ms of quiet, and any other `n` characters as a
message sent by the server at time `n`; a validator that accepts everything; and the batching
task at address 1. -/
def sampleSetup : Setup where
  constants := ⟨1, 0, 1, 0⟩
  parseFromString bytes := some <| match bytes.toList with
    | 'q' :: rest =>
      { header := ⟨⟨1, 0⟩, "", ⟨0, ""⟩, 0⟩, configChangeMessage := some ⟨some rest.length⟩ }
    | other => { header := ⟨⟨1, 0⟩, "", ⟨0, ""⟩, other.length⟩ }
  incomingIsValid _ := true
  outgoingIsValid _ := true
  batchingTask := 1

/-- The handler the constructor would build at time 0 if registering the batching task, with
delay 100, did not abort; its listener has no token yet. -/
def sampleClient : Client where
  handler :=
    { clientVersion := ⟨⟨1, 0⟩, "", "C++", ""⟩
      operationScheduler :=
        { operations := fun operation => if operation = 1 then some { delay := 100 } else none
          scheduler := ⟨0, []⟩ }
      messageId := 1
      lastKnownServerTimeMs := 0
      nextMessageSendTimeMs := 0
      pendingRegistrations := ∅
      ackedInvalidations := .empty
      registrationSubtrees := .empty }
  listener := ⟨"", ⟨0, ""⟩⟩

theorem inv_sampleClient : OperationScheduler.Inv sampleClient.handler.operationScheduler := by
  intro operation
  by_cases ho : operation = 1 <;>
    simp [OperationScheduler.queued, OperationScheduler.scheduled, sampleClient, ho]

/-! ## Observers of runs -/

/-- An observer of runs: a state of its own, moved by each event, and a condition that each
event must meet in the state the observer is in when it reads it. -/
structure Monitor (σ : Type) where
  next : σ → Event → σ
  ok : σ → Event → Prop

namespace Monitor

variable {σ : Type} (M : Monitor σ)

/-- The observer's state after reading `events` from `q`. -/
def after (q : σ) (events : List Event) : σ := events.foldl M.next q

/-- Read from `q`, every event meets the condition. -/
def Accepts : σ → List Event → Prop
  | _, [] => True
  | q, e :: rest => M.ok q e ∧ Accepts (M.next q e) rest

@[simp] theorem after_nil (q : σ) : M.after q [] = q := rfl

@[simp] theorem after_cons (q : σ) (e : Event) (rest : List Event) :
    M.after q (e :: rest) = M.after (M.next q e) rest := rfl

@[simp] theorem accepts_nil (q : σ) : M.Accepts q [] := trivial

@[simp] theorem accepts_cons (q : σ) (e : Event) (rest : List Event) :
    M.Accepts q (e :: rest) ↔ M.ok q e ∧ M.Accepts (M.next q e) rest := Iff.rfl

theorem accepts_append (q : σ) (l₁ l₂ : List Event) :
    M.Accepts q (l₁ ++ l₂) ↔ M.Accepts q l₁ ∧ M.Accepts (M.after q l₁) l₂ := by
  induction l₁ generalizing q with
  | nil => simp
  | cons e rest ih => simp [ih, and_assoc]

/-- Events the observer neither checks nor moves on. -/
def Ignores (events : List Event) : Prop :=
  ∀ e ∈ events, ∀ q, M.ok q e ∧ M.next q e = q

/-- Events that are all statistics pass an observer by when statistics do. -/
theorem ignores_statistics
    (hstatistic : ∀ q recorded, M.ok q (.statistic recorded) ∧ M.next q (.statistic recorded) = q)
    {events : List Event} (h : ∀ e ∈ events, ∃ recorded, e = .statistic recorded) :
    M.Ignores events :=
  fun e he q => by obtain ⟨recorded, rfl⟩ := h e he; exact hstatistic q recorded

theorem after_of_ignores {events : List Event} (h : M.Ignores events) (q : σ) :
    M.after q events = q := by
  induction events generalizing q with
  | nil => rfl
  | cons e rest ih =>
    rw [after_cons, (h e (List.mem_cons_self _ _) q).2]
    exact ih (fun e he => h e (List.mem_cons_of_mem _ he)) q

end Monitor

/-! ## The operation scheduler inside a run -/

/-- The operation scheduler's events among a client's. -/
def schedulerEvents (events : List Event) : List OperationScheduler.Event :=
  events.filterMap fun
    | .scheduler e => some e
    | _ => none

@[simp] theorem schedulerEvents_nil : schedulerEvents [] = [] := rfl

@[simp] theorem schedulerEvents_append (l₁ l₂ : List Event) :
    schedulerEvents (l₁ ++ l₂) = schedulerEvents l₁ ++ schedulerEvents l₂ :=
  List.filterMap_append _ _ _

@[simp] theorem schedulerEvents_cons_scheduler (e : OperationScheduler.Event) (l : List Event) :
    schedulerEvents (.scheduler e :: l) = e :: schedulerEvents l := rfl

@[simp] theorem schedulerEvents_cons_statistic (recorded : Statistic) (l : List Event) :
    schedulerEvents (.statistic recorded :: l) = schedulerEvents l := rfl

theorem schedulerEvents_eq_nil {events : List Event}
    (h : ∀ e ∈ events, ∀ e', e ≠ .scheduler e') : schedulerEvents events = [] :=
  List.filterMap_eq_nil_iff.mpr fun e he => by
    cases e with
    | scheduler e' => exact absurd rfl (h _ he e')
    | _ => rfl

/-- Statistics and upcalls are no moves of the operation scheduler. -/
theorem schedulerEvents_of_isReport {events : List Event} (h : ∀ e ∈ events, e.IsReport) :
    schedulerEvents events = [] :=
  schedulerEvents_eq_nil fun e he e' heq => by have := h e he; subst heq; exact this

/-- A send emits none of the operation scheduler's events. -/
theorem schedulerEvents_sendMessageToServer (listener : Listener) (h : ProtocolHandler)
    (builder : ClientToServerMessage) :
    schedulerEvents (sendMessageToServer setup listener h builder).2 = [] := by
  rcases sendMessageToServer_cases setup listener h builder with
    ⟨-, hr⟩ | ⟨-, -, -, hr⟩ | ⟨-, -, m, stats, -, -, -, -, -, -, hstats, -, hr⟩ <;> rw [hr]
  · rfl
  · rfl
  · apply schedulerEvents_eq_nil
    intro e he e' heq
    subst heq
    rcases List.mem_append.mp he with he | he
    · obtain ⟨_, h⟩ := hstats _ he; cases h
    · split at he <;> simp at he

/-- Running a wrapper of the batching task: the wrapper was queued; the operation scheduler is
left with it taken out and the task's flag cleared; the rest is `BatchingTask`'s send. -/
theorem runBatchingTask_eq_some {listener : Listener} {h h' : ProtocolHandler} {w : Wrapper}
    {events : List Event} (hs : runBatchingTask setup listener h w = some (h', events)) :
    w ∈ h.operationScheduler.scheduler.queue ∧ w.operation = setup.batchingTask ∧
      let sent := sendMessageToServer setup listener
        { h with operationScheduler := h.operationScheduler.dequeue w } {}
      h' = { sent.1 with
        operationScheduler := (h.operationScheduler.dequeue w).clearScheduled w.operation } ∧
      events = .scheduler (.started w h.now) :: sent.2 ++ [.scheduler (.finished w.operation)] := by
  unfold runBatchingTask at hs
  split_ifs at hs with hw
  cases hs
  refine ⟨hw.1, hw.2, ?_, rfl⟩
  have hframe := (sendMessageToServer_frame setup listener
    { h with operationScheduler := h.operationScheduler.dequeue w } {}).1
  simp only [batchingTask, hframe]

/-- What a step does to the operation scheduler: nothing, with none of its events; or one step
of it, among `Schedule(batching_task_)`, a run of a wrapper of the batching task whose body
calls no `Schedule`, and a move of the clock. -/
theorem step_scheduler {c c' : Client} {input : Input} {events : List Event}
    (hs : c.step setup input = some (c', events)) :
    (schedulerEvents events = [] ∧
      c'.handler.operationScheduler = c.handler.operationScheduler) ∨
    ∃ a, (a = .schedule setup.batchingTask ∨
        (∃ w, a = .run w [] ∧ w.operation = setup.batchingTask) ∨ ∃ time, a = .advanceTo time) ∧
      c.handler.operationScheduler.step a =
        some (c'.handler.operationScheduler, schedulerEvents events) := by
  cases input with
  | sendInitializeMessage clientType applicationClientId nonce =>
    cases hs
    exact .inl ⟨by simp [sendInitializeMessage, schedulerEvents_sendMessageToServer],
      (sendMessageToServer_frame setup _ _ _).1⟩
  | sendInfoMessage performanceCounters configParams =>
    cases hs
    exact .inl ⟨by simp [sendInfoMessage, schedulerEvents_sendMessageToServer],
      (sendMessageToServer_frame setup _ _ _).1⟩
  | sendRegistrations objectIds opType =>
    obtain ⟨⟨h', events'⟩, hr, heq⟩ := Option.map_eq_some'.mp hs
    cases heq
    obtain ⟨s, hschedule, rfl, rfl⟩ := sendRegistrations_eq_some setup hr
    exact .inr ⟨_, .inl rfl, by
      simp [OperationScheduler.step, hschedule, schedulerEvents, List.filterMap_map,
        Function.comp_def]⟩
  | sendInvalidationAck invalidation =>
    obtain ⟨⟨h', events'⟩, hr, heq⟩ := Option.map_eq_some'.mp hs
    cases heq
    obtain ⟨s, hschedule, rfl, rfl⟩ := sendInvalidationAck_eq_some setup hr
    exact .inr ⟨_, .inl rfl, by simp [OperationScheduler.step, hschedule, schedulerEvents]⟩
  | sendRegistrationSyncSubtree subtree =>
    obtain ⟨⟨h', events'⟩, hr, heq⟩ := Option.map_eq_some'.mp hs
    cases heq
    obtain ⟨s, hschedule, rfl, rfl⟩ := sendRegistrationSyncSubtree_eq_some setup hr
    exact .inr ⟨_, .inl rfl, by simp [OperationScheduler.step, hschedule, schedulerEvents]⟩
  | handleIncomingMessage incomingMessage tokenAfterControl =>
    cases hs
    refine .inl ?_
    rcases handleIncomingMessage_effect setup c.listener tokenAfterControl c.handler
      incomingMessage with ⟨hr, hev⟩ | ⟨delay, hr, hev⟩ | ⟨message, rest, hr, hev, hrest⟩ <;>
      simp only [hr, hev, and_true]
    · exact schedulerEvents_of_isReport fun e he => by obtain ⟨_, rfl⟩ := hev e he; trivial
    · rfl
    · exact (schedulerEvents_of_isReport hrest : schedulerEvents rest = [])
  | runBatchingTask w =>
    obtain ⟨⟨h', events'⟩, hr, heq⟩ := Option.map_eq_some'.mp hs
    cases heq
    obtain ⟨hw, hop, rfl, rfl⟩ := runBatchingTask_eq_some setup hr
    exact .inr ⟨.run w [], .inr (.inl ⟨w, rfl, hop⟩), by
      simp [OperationScheduler.step, OperationScheduler.runWrapper, hw,
        OperationScheduler.scheduleAll, schedulerEvents_sendMessageToServer, now]⟩
  | advanceTo time =>
    obtain ⟨s, hr, heq⟩ := Option.map_eq_some'.mp hs
    cases heq
    exact .inr ⟨.advanceTo time, .inr (.inr ⟨time, rfl⟩), by simp [OperationScheduler.step, hr]⟩
  | updateListener listener =>
    cases hs
    exact .inl ⟨rfl, rfl⟩

/-- The operation scheduler's events of a run of the handler form a run of the operation
scheduler. -/
theorem Run.scheduler {c₀ c : Client} {trace : List Event} (h : Run setup c₀ trace c) :
    OperationScheduler.Run c₀.handler.operationScheduler (schedulerEvents trace)
      c.handler.operationScheduler := by
  induction h with
  | nil => exact .nil
  | step _ hstep ih =>
    rw [schedulerEvents_append]
    rcases step_scheduler setup hstep with ⟨hev, hsched⟩ | ⟨a, ha, hastep⟩
    · rw [hev, List.append_nil, hsched]; exact ih
    · exact .step ih (by rcases ha with rfl | ⟨w, rfl, -⟩ | ⟨t, rfl⟩ <;> trivial) hastep

/-! ## How often the batching task runs -/

open OperationScheduler (Inv OnTime Spaced starts starts_append starts_spaced)

/-- The batching task is registered with delay `d`, and every wrapper of it that waits in the
internal scheduler was given `d`. -/
def BatchingDelay (d : Int) (s : OperationScheduler) : Prop :=
  (s.operations setup.batchingTask).map (·.delay) = some d ∧
    ∀ w ∈ s.scheduler.queue, w.operation = setup.batchingTask → w.delay = d

/-- No step of the handler changes the batching task's delay, and every wrapper of the task
that a step runs was given that delay. -/
theorem batchingDelay_step {d : Int} {c c' : Client} {input : Input} {events : List Event}
    (hd : BatchingDelay setup d c.handler.operationScheduler)
    (hs : c.step setup input = some (c', events)) :
    BatchingDelay setup d c'.handler.operationScheduler ∧
      ∀ p ∈ starts setup.batchingTask (schedulerEvents events), p.1.delay = d := by
  rcases step_scheduler setup hs with ⟨hev, hsched⟩ | ⟨a, ha, hastep⟩
  · rw [hsched, hev]; exact ⟨hd, by simp [starts]⟩
  obtain ⟨hdelay, hqueue⟩ := hd
  generalize c.handler.operationScheduler = s at hastep hdelay hqueue
  generalize c'.handler.operationScheduler = s' at hastep ⊢
  generalize schedulerEvents events = trace at hastep ⊢
  rcases ha with rfl | ⟨w, rfl, hop⟩ | ⟨time, rfl⟩
  · obtain ⟨s', hschedule, hr⟩ := Option.map_eq_some'.mp hastep
    cases hr
    refine ⟨⟨by rw [OperationScheduler.delay_schedule _ hschedule]; exact hdelay,
      fun w hw hwop => ?_⟩, by simp [starts]⟩
    obtain ⟨info, hinfo, ⟨-, rfl⟩ | ⟨-, rfl⟩⟩ := s.schedule_eq_some hschedule
    · exact hqueue w hw hwop
    · rcases List.mem_append.mp hw with hw | hw
      · exact hqueue w hw hwop
      · obtain rfl := List.mem_singleton.mp hw
        simpa [hinfo] using hdelay
  · obtain ⟨s', hrun, hr⟩ := Option.map_eq_some'.mp hastep
    cases hr
    unfold OperationScheduler.runWrapper at hrun
    split_ifs at hrun with hw
    cases hrun
    refine ⟨⟨by simpa using hdelay, fun v hv hvop =>
      hqueue v (List.mem_of_mem_erase (by simpa using hv)) hvop⟩, fun p hp => ?_⟩
    simp [starts, hop] at hp
    subst hp
    exact hqueue w hw hop
  · obtain ⟨s', hadvance, hr⟩ := Option.map_eq_some'.mp hastep
    cases hr
    unfold OperationScheduler.advanceTo at hadvance
    split_ifs at hadvance
    cases hadvance
    exact ⟨⟨hdelay, hqueue⟩, by simp [starts]⟩

theorem batchingDelay_of_run {d : Int} {c₀ c : Client} {trace : List Event}
    (hd : BatchingDelay setup d c₀.handler.operationScheduler) (h : Run setup c₀ trace c) :
    BatchingDelay setup d c.handler.operationScheduler ∧
      ∀ p ∈ starts setup.batchingTask (schedulerEvents trace), p.1.delay = d := by
  induction h with
  | nil => exact ⟨hd, by simp [starts]⟩
  | step _ hstep ih =>
    obtain ⟨hd', hstarts⟩ := batchingDelay_step setup ih.1 hstep
    refine ⟨hd', fun p hp => ?_⟩
    rw [schedulerEvents_append, starts_append, List.mem_append] at hp
    exact hp.elim (ih.2 p) (hstarts p)

/-- Under an internal scheduler that never runs a wrapper before its deadline: in every run of
an operation scheduler, two successive runs of any operation start at least the delay of the
later one's wrapper apart, and that wrapper waited at the start or was queued by a step of the
run with the delay then stored for the operation; and in every run of the protocol handler
whose batching task is registered with delay `d`, successive runs of the batching task start at
least `d` apart, however many requests the run makes. -/
theorem runs_start_spaced :
    (∀ (s₀ s : OperationScheduler) (trace : List OperationScheduler.Event),
      Inv s₀ → OperationScheduler.Run s₀ trace s → OnTime trace →
        ∀ operation, Spaced (starts operation trace) ∧
          ∀ p ∈ starts operation trace,
            p.1 ∈ s₀.scheduler.queue ∨ OperationScheduler.QueuedIn s₀ trace p.1) ∧
    (∀ (c₀ c : Client) (trace : List Event) (d : Int),
      Inv c₀.handler.operationScheduler → BatchingDelay setup d c₀.handler.operationScheduler →
      Run setup c₀ trace c → OnTime (schedulerEvents trace) →
        (starts setup.batchingTask (schedulerEvents trace)).Chain' fun a b => a.2 + d ≤ b.2) := by
  refine ⟨fun s₀ s trace h₀ h hon operation => ⟨starts_spaced h₀ h hon operation,
      fun p hp => OperationScheduler.started_queued h
        (OperationScheduler.started_of_mem_starts hp)⟩,
    fun c₀ c trace d h₀ hd h hon => ?_⟩
  have hspaced := starts_spaced h₀ (h.scheduler setup) hon setup.batchingTask
  have hdelay := (batchingDelay_of_run setup hd h).2
  refine (List.Chain'.iff_mem.mp hspaced).imp fun a b hab => ?_
  obtain ⟨-, hb, hab⟩ := hab
  rwa [← hdelay b hb]

/-- From the sample client, given a token: an acknowledgement queues the batching task, which
runs on time at 100; a second acknowledgement queues it again, and it runs on time at 200. -/
theorem sampleClient_batching_spaced : ∃ (c : Client) (trace : List Event),
    Run sampleSetup sampleClient trace c ∧ Inv sampleClient.handler.operationScheduler ∧
      BatchingDelay sampleSetup 100 sampleClient.handler.operationScheduler ∧
      OnTime (schedulerEvents trace) ∧
      starts sampleSetup.batchingTask (schedulerEvents trace) =
        [(⟨1, 0, 100⟩, 100), (⟨1, 100, 100⟩, 200)] ∧
      (Spaced (starts sampleSetup.batchingTask (schedulerEvents trace)) ∧
        ∀ p ∈ starts sampleSetup.batchingTask (schedulerEvents trace),
          p.1 ∈ sampleClient.handler.operationScheduler.scheduler.queue ∨
            OperationScheduler.QueuedIn sampleClient.handler.operationScheduler
              (schedulerEvents trace) p.1) ∧
      (starts sampleSetup.batchingTask (schedulerEvents trace)).Chain'
        fun a b => a.2 + 100 ≤ b.2 := by
  obtain ⟨c, trace, hrun, hevents⟩ : ∃ c trace, Run sampleSetup sampleClient trace c ∧
      schedulerEvents trace = [.requested 1, .started ⟨1, 0, 100⟩ 100, .finished 1,
        .requested 1, .started ⟨1, 100, 100⟩ 200, .finished 1] :=
    ⟨_, _, @Run.step _ _ _ _ _ (.runBatchingTask ⟨1, 100, 100⟩) _
      (@Run.step _ _ _ _ _ (.advanceTo 200) _
        (@Run.step _ _ _ _ _ (.sendInvalidationAck ⟨⟨0, ""⟩, true, 2, none⟩) _
          (@Run.step _ _ _ _ _ (.runBatchingTask ⟨1, 0, 100⟩) _
            (@Run.step _ _ _ _ _ (.advanceTo 100) _
              (@Run.step _ _ _ _ _ (.sendInvalidationAck ⟨⟨0, ""⟩, true, 1, none⟩) _
                (@Run.step _ _ _ _ _ (.updateListener ⟨"t", ⟨0, ""⟩⟩) _
                  (@Run.nil sampleSetup sampleClient) rfl) rfl) rfl) rfl) rfl) rfl) rfl, by rfl⟩
  have hdelay : BatchingDelay sampleSetup 100 sampleClient.handler.operationScheduler :=
    ⟨rfl, by simp [sampleClient]⟩
  have hon : OnTime (schedulerEvents trace) := by
    intro w t hw
    simp only [hevents, List.mem_cons, List.mem_singleton, List.not_mem_nil, or_false] at hw
    rcases hw with hw | hw | hw | hw | hw | hw <;> cases hw <;> decide
  exact ⟨c, trace, hrun, inv_sampleClient, hdelay, hon, by rw [hevents]; rfl,
    (runs_start_spaced sampleSetup).1 _ _ _ inv_sampleClient (hrun.scheduler sampleSetup) hon 1,
    (runs_start_spaced sampleSetup).2 _ _ _ _ inv_sampleClient hdelay hrun hon⟩

end CacheInvalidation.ProtocolHandler
