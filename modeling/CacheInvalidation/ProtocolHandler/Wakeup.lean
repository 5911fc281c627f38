/-
# When the batching task runs

Nothing in the handler sends the batches on its own. They leave in a message that
`SendMessageToServer` assembles, and each call that fills them (`SendRegistrations`,
`SendInvalidationAck`, `SendRegistrationSyncSubtree`) asks the operation scheduler to run the
batching task for that. So the batches get sent as long as a run of the task is pending
whenever something waits in them (`Covered`).

Every step keeps that but one. A run of the batching task that meets a quiet period or a
missing token returns without draining the batches, and `RunAndClearScheduled` then clears the
task's flag: what waits is left with no run pending (`Stranded`). `step_batchesMove` says once
what a step can do to the batches and to the task's flag. The main results:
- `batches_wait_on_one_wrapper`: over every run in which each run of the batching task
  assembles a message, whatever waits in the batches has exactly one wrapper of the task
  waiting in the internal scheduler.
- `waiting_wrapper_sends_batches`: progress, from such a state: the task's waiting wrapper, run
  outside a quiet period for a listener with a token, sends exactly what waited.
- `stranded_until_request`: a run of the task stopped at a check strands what waits; from a
  stranded handler, the operation scheduler does nothing and the batches stay as they are,
  until the client library asks for another send or a message is assembled for another reason,
  however far the clock advances and whatever the server sends.
-/

import CacheInvalidation.ProtocolHandler.Batches

namespace CacheInvalidation.ProtocolHandler

open OperationScheduler (Inv inv_of_run)

/-- Nothing waits in the three batches. -/
def Idle (h : ProtocolHandler) : Prop :=
  h.ackedInvalidations.elements = [] ∧ h.pendingRegistrations.entries = [] ∧
    h.registrationSubtrees.elements = []

instance (h : ProtocolHandler) : Decidable (Idle h) := inferInstanceAs (Decidable (_ ∧ _ ∧ _))

/-- Two handlers hold the same three batches. -/
def SameBatches (h h' : ProtocolHandler) : Prop :=
  h'.ackedInvalidations = h.ackedInvalidations ∧
    h'.pendingRegistrations = h.pendingRegistrations ∧
    h'.registrationSubtrees = h.registrationSubtrees

theorem SameBatches.refl (h : ProtocolHandler) : SameBatches h h := ⟨rfl, rfl, rfl⟩

theorem SameBatches.trans {h₁ h₂ h₃ : ProtocolHandler} (h₁₂ : SameBatches h₁ h₂)
    (h₂₃ : SameBatches h₂ h₃) : SameBatches h₁ h₃ :=
  ⟨h₂₃.1.trans h₁₂.1, h₂₃.2.1.trans h₁₂.2.1, h₂₃.2.2.trans h₁₂.2.2⟩

theorem SameBatches.idle_iff {h h' : ProtocolHandler} (hsame : SameBatches h h') :
    Idle h' ↔ Idle h := by
  rw [Idle, Idle, hsame.1, hsame.2.1, hsame.2.2]

variable (setup : Setup)

/-- Whatever waits in the batches has a run of the batching task pending: the task's
`has_been_scheduled` flag is set. -/
def Covered (h : ProtocolHandler) : Prop :=
  ¬ Idle h → h.operationScheduler.scheduled setup.batchingTask = true

/-- Something waits in the batches, and no run of the batching task is pending. -/
def Stranded (h : ProtocolHandler) : Prop :=
  ¬ Idle h ∧ h.operationScheduler.scheduled setup.batchingTask = false

instance (h : ProtocolHandler) : Decidable (Stranded setup h) :=
  inferInstanceAs (Decidable (_ ∧ _))

/-- Reading a run's events: whether a message has been assembled since the latest start of a
wrapper, which the end of each wrapper's run must find. In a run of the handler, whose wrappers
all run the batching task, it accepts exactly when every run of the task assembled a message,
that is, met neither a quiet period nor a missing token. -/
def assemblesMonitor : Monitor Bool where
  next assembled e := match e with
    | .scheduler (.started _ _) => false
    | .assembled _ => true
    | _ => assembled
  ok assembled e := match e with
    | .scheduler (.finished _) => assembled = true
    | _ => True

/-- A run of a wrapper that assembles nothing between its start and its end is not accepted. -/
theorem not_accepts_stalled {q : Bool} {w : Wrapper} {t : Int} {stalled : List Event}
    (hstalled : ∀ e ∈ stalled, ∃ recorded, e = .statistic recorded) (operation : Closure) :
    ¬ assemblesMonitor.Accepts q
      (.scheduler (.started w t) :: stalled ++ [.scheduler (.finished operation)]) := by
  have hignored := assemblesMonitor.ignores_statistics (fun _ _ => ⟨trivial, rfl⟩) hstalled
  rw [Monitor.accepts_append, Monitor.after_cons, assemblesMonitor.after_of_ignores hignored]
  exact fun hacc => Bool.false_ne_true hacc.2.1

/-! ## What a step does to the batches -/

/-- What a step can do to the batches and to the batching task's flag, with the events it
emits. -/
inductive BatchesMove (h : ProtocolHandler) : ProtocolHandler → List Event → Prop
  /-- A request for the batching task sets its flag. -/
  | request {h' : ProtocolHandler} {events : List Event} :
      Event.scheduler (.requested setup.batchingTask) ∈ events →
      h'.operationScheduler.scheduled setup.batchingTask = true → BatchesMove h h' events
  /-- An assembled message takes everything that waits. -/
  | assembly {h' : ProtocolHandler} {events : List Event} (m : ClientToServerMessage) :
      Event.assembled m ∈ events → Idle h' → BatchesMove h h' events
  /-- A run of the batching task that assembles nothing clears the task's flag and leaves the
  batches as they were. -/
  | stalled {h' : ProtocolHandler} (w : Wrapper) (stalled : List Event) :
      w ∈ h.operationScheduler.scheduler.queue → w.operation = setup.batchingTask →
      (∀ e ∈ stalled, ∃ recorded, e = .statistic recorded) → SameBatches h h' →
      h'.operationScheduler.scheduled setup.batchingTask = false →
      BatchesMove h h'
        (.scheduler (.started w h.now) :: stalled ++ [.scheduler (.finished w.operation)])
  /-- Any other step moves neither, and shows no event of the operation scheduler and no
  assembly. -/
  | other {h' : ProtocolHandler} {events : List Event} :
      schedulerEvents events = [] → (∀ m, Event.assembled m ∉ events) → SameBatches h h' →
      h'.operationScheduler.scheduled setup.batchingTask =
        h.operationScheduler.scheduled setup.batchingTask →
      BatchesMove h h' events

theorem schedulerEvents_of_statistics {events : List Event}
    (h : ∀ e ∈ events, ∃ recorded, e = .statistic recorded) : schedulerEvents events = [] :=
  schedulerEvents_of_isReport fun e he => by obtain ⟨_, rfl⟩ := h e he; trivial

theorem not_assembled_of_statistics {events : List Event}
    (h : ∀ e ∈ events, ∃ recorded, e = .statistic recorded) (m : ClientToServerMessage) :
    Event.assembled m ∉ events := fun hm => by obtain ⟨_, he⟩ := h _ hm; cases he

theorem not_assembled_of_isReport {events : List Event} (h : ∀ e ∈ events, e.IsReport)
    (m : ClientToServerMessage) : Event.assembled m ∉ events := fun hm => h _ hm

/-- A send either returns at the quiet-period or the missing-token check, changing nothing and
recording only statistics, or assembles a message and leaves the batches empty. -/
theorem sendMessageToServer_batches (listener : Listener) (h : ProtocolHandler)
    (builder : ClientToServerMessage) :
    let r := sendMessageToServer setup listener h builder
    (r.1 = h ∧ ∀ e ∈ r.2, ∃ recorded, e = .statistic recorded) ∨
      ((∃ m, Event.assembled m ∈ r.2) ∧ Idle r.1) := by
  rcases sendMessageToServer_cases setup listener h builder with ⟨-, hr⟩ | ⟨-, -, -, hr⟩ |
    ⟨-, -, m, stats, -, -, -, -, -, -, -, hr₁, hr₂⟩
  · exact .inl (by simp [hr])
  · exact .inl (by simp [hr])
  · exact .inr ⟨⟨m, by simp [hr₂]⟩, by rw [hr₁]; exact ⟨rfl, rfl, rfl⟩⟩

/-- `SendInitializeMessage` and `SendInfoMessage`: a statistic, then a send. -/
theorem batchesMove_send (listener : Listener) (h : ProtocolHandler)
    (builder : ClientToServerMessage) (recorded : Statistic) :
    let r := sendMessageToServer setup listener h builder
    BatchesMove setup h r.1 (.statistic recorded :: r.2) := by
  rcases sendMessageToServer_batches setup listener h builder with ⟨hh, hev⟩ | ⟨⟨m, hm⟩, hidle⟩
  · have hstats : ∀ e ∈ Event.statistic recorded :: _, ∃ recorded, e = .statistic recorded :=
      List.forall_mem_cons.mpr ⟨⟨recorded, rfl⟩, hev⟩
    exact .other (schedulerEvents_of_statistics hstats) (not_assembled_of_statistics hstats)
      (by rw [hh]; exact .refl h) (by rw [hh])
  · exact .assembly m (List.mem_cons_of_mem _ hm) hidle

/-- What every step does to the batches and to the batching task's flag. -/
theorem step_batchesMove {c c' : Client} {input : Input} {events : List Event}
    (hs : c.step setup input = some (c', events)) :
    BatchesMove setup c.handler c'.handler events := by
  cases input with
  | sendInitializeMessage clientType applicationClientId nonce =>
    cases hs
    obtain ⟨builder, -, -, -, -, hr⟩ :=
      sendInitializeMessage_eq setup c.listener c.handler clientType applicationClientId nonce
    rw [hr]
    exact batchesMove_send setup _ _ _ _
  | sendInfoMessage performanceCounters configParams =>
    cases hs
    obtain ⟨builder, -, -, -, -, hr⟩ :=
      sendInfoMessage_eq setup c.listener c.handler performanceCounters configParams
    rw [hr]
    exact batchesMove_send setup _ _ _ _
  | sendRegistrations objectIds opType =>
    obtain ⟨⟨h', events'⟩, hr, heq⟩ := Option.map_eq_some'.mp hs
    cases heq
    obtain ⟨s, hschedule, rfl, rfl⟩ := sendRegistrations_eq_some setup hr
    exact .request (by simp) (by simp [OperationScheduler.scheduled_schedule _ hschedule])
  | sendInvalidationAck invalidation =>
    obtain ⟨⟨h', events'⟩, hr, heq⟩ := Option.map_eq_some'.mp hs
    cases heq
    obtain ⟨s, hschedule, rfl, rfl⟩ := sendInvalidationAck_eq_some setup hr
    exact .request (by simp) (by simp [OperationScheduler.scheduled_schedule _ hschedule])
  | sendRegistrationSyncSubtree subtree =>
    obtain ⟨⟨h', events'⟩, hr, heq⟩ := Option.map_eq_some'.mp hs
    cases heq
    obtain ⟨s, hschedule, rfl, rfl⟩ := sendRegistrationSyncSubtree_eq_some setup hr
    exact .request (by simp) (by simp [OperationScheduler.scheduled_schedule _ hschedule])
  | handleIncomingMessage incomingMessage tokenAfterControl =>
    cases hs
    rcases handleIncomingMessage_effect setup c.listener tokenAfterControl c.handler
      incomingMessage with ⟨hr, hev⟩ | ⟨delay, hr, hev⟩ | ⟨message, rest, hr, hev, hrest⟩ <;>
      dsimp only <;> rw [hr]
    · exact .other (schedulerEvents_of_statistics hev) (not_assembled_of_statistics hev) (.refl _)
        rfl
    · rw [hev]
      exact .other rfl (by simp) ⟨rfl, rfl, rfl⟩ rfl
    · rw [hev]
      exact .other (schedulerEvents_of_isReport hrest : schedulerEvents rest = [])
        (fun m => by simpa using not_assembled_of_isReport hrest m) ⟨rfl, rfl, rfl⟩ rfl
  | runBatchingTask w =>
    obtain ⟨⟨h', events'⟩, hr, heq⟩ := Option.map_eq_some'.mp hs
    cases heq
    obtain ⟨hw, hop, rfl, rfl⟩ := runBatchingTask_eq_some setup hr
    rcases sendMessageToServer_batches setup c.listener
      { c.handler with operationScheduler := c.handler.operationScheduler.dequeue w } {} with
      ⟨hh, hev⟩ | ⟨⟨m, hm⟩, hidle⟩
    · exact .stalled w _ hw hop hev (by simp [SameBatches, hh]) (by simp [hop])
    · exact .assembly m (by simp [hm]) hidle
  | advanceTo time =>
    obtain ⟨s, hr, heq⟩ := Option.map_eq_some'.mp hs
    cases heq
    unfold OperationScheduler.advanceTo at hr
    split_ifs at hr
    cases hr
    exact .other rfl (by simp) ⟨rfl, rfl, rfl⟩ rfl
  | updateListener listener =>
    cases hs
    exact .other rfl (by simp) (.refl _) rfl

/-! ## Runs in which every run of the batching task assembles a message -/

/-- A step that assembles a message whenever it runs the batching task keeps what waits in the
batches covered by a pending run of the task. -/
theorem covered_step {c c' : Client} {input : Input} {events : List Event} {q : Bool}
    (hc : Covered setup c.handler) (hs : c.step setup input = some (c', events))
    (hacc : assemblesMonitor.Accepts q events) : Covered setup c'.handler := by
  intro hwaiting
  have hmove := step_batchesMove setup hs
  generalize c'.handler = h' at hmove hwaiting ⊢
  cases hmove with
  | request _ hflag => exact hflag
  | assembly _ _ hidle => exact absurd hidle hwaiting
  | stalled _ _ _ _ hstalled _ _ => exact absurd hacc (not_accepts_stalled hstalled _)
  | other _ _ hsame hflag => rw [hflag]; exact hc (mt hsame.idle_iff.mpr hwaiting)

theorem covered_of_run {c₀ c : Client} {trace : List Event} (h : Run setup c₀ trace c)
    (hc : Covered setup c₀.handler) (hacc : assemblesMonitor.Accepts false trace) :
    Covered setup c.handler := by
  induction h with
  | nil => exact hc
  | step _ hstep ih =>
    rw [Monitor.accepts_append] at hacc
    exact covered_step setup (ih hacc.1) hstep hacc.2

/-- Over every run of the handler from a state in which the operation scheduler's flags and
queue agree and whatever waits in the batches has a run of the batching task pending, as long
as every run of the batching task assembles a message: whenever something waits in the
batches, exactly one wrapper of the batching task waits in the internal scheduler, however many
sends were asked for. -/
theorem batches_wait_on_one_wrapper {c₀ c : Client} {trace : List Event}
    (h : Run setup c₀ trace c) (hinv : Inv c₀.handler.operationScheduler)
    (hc : Covered setup c₀.handler) (hacc : assemblesMonitor.Accepts false trace)
    (hwaiting : ¬ Idle c.handler) :
    c.handler.operationScheduler.queued setup.batchingTask = 1 := by
  have hflag := covered_of_run setup h hc hacc hwaiting
  have haccounted := inv_of_run hinv (h.scheduler setup) setup.batchingTask
  simpa [hflag] using haccounted

/-- An ack, a registration and a subtree handed to `sampleClient` ask three times for the
batching task, and wait with one wrapper of it queued. -/
theorem sampleClient_three_sends_wait : ∃ (c : Client) (trace : List Event),
    Run sampleSetup sampleClient trace c ∧ Inv sampleClient.handler.operationScheduler ∧
      Covered sampleSetup sampleClient.handler ∧ assemblesMonitor.Accepts false trace ∧
      (schedulerEvents trace).count (.requested sampleSetup.batchingTask) = 3 ∧
      ¬ Idle c.handler ∧ c.handler.operationScheduler.queued sampleSetup.batchingTask = 1 :=
  have hrun := @Run.step _ _ _ _ _ (.sendRegistrationSyncSubtree ⟨[⟨0, "b"⟩]⟩) _
    (@Run.step _ _ _ _ _ (.sendRegistrations [⟨0, "a"⟩] .register) _
      (@Run.step _ _ _ _ _ (.sendInvalidationAck ⟨⟨0, ""⟩, true, 1, none⟩) _
        (@Run.nil sampleSetup sampleClient) rfl) rfl) rfl
  have hc : Covered sampleSetup sampleClient.handler := fun hwaiting =>
    (hwaiting ⟨rfl, rfl, rfl⟩).elim
  ⟨_, _, hrun, inv_sampleClient, hc,
    ⟨trivial, trivial, trivial, trivial, trivial, trivial, trivial⟩, rfl, by decide,
    batches_wait_on_one_wrapper sampleSetup hrun inv_sampleClient hc
      ⟨trivial, trivial, trivial, trivial, trivial, trivial, trivial⟩ (by decide)⟩

/-- Progress: from a state whose flags and queue agree and in which whatever waits is covered,
the internal scheduler holds a wrapper of the batching task; run outside a quiet period, for a
listener that holds a token, it assembles a message that carries exactly what waited, each item
once, and leaves the batches empty. -/
theorem waiting_wrapper_sends_batches {c : Client} (hinv : Inv c.handler.operationScheduler)
    (hc : Covered setup c.handler) (hwaiting : ¬ Idle c.handler)
    (hquiet : c.handler.nextMessageSendTimeMs ≤ c.handler.now)
    (htoken : c.listener.clientToken ≠ "") :
    ∃ w ∈ c.handler.operationScheduler.scheduler.queue, w.operation = setup.batchingTask ∧
      ∃ c' events m, c.step setup (.runBatchingTask w) = some (c', events) ∧
        Event.assembled m ∈ events ∧ (batch c.handler).CarriedBy m ∧ Idle c'.handler := by
  have hqueued : 0 < c.handler.operationScheduler.queued setup.batchingTask := by
    have haccounted := hinv setup.batchingTask
    simp only [hc hwaiting, reduceCtorEq, ite_false, ite_true, Nat.add_zero] at haccounted
    omega
  obtain ⟨w, hw, hop⟩ := List.countP_pos_iff.mp hqueued
  have hop : w.operation = setup.batchingTask := by simpa using hop
  obtain ⟨⟨h', events⟩, hr⟩ : ∃ r, runBatchingTask setup c.listener c.handler w = some r := by
    simp [runBatchingTask, hw, hop]
  obtain ⟨-, -, hh', hevents⟩ := runBatchingTask_eq_some setup hr
  refine ⟨w, hw, hop, ⟨h', c.listener⟩, events, ?_⟩
  rcases sendMessageToServer_cases setup c.listener
      { c.handler with operationScheduler := c.handler.operationScheduler.dequeue w } {} with
    ⟨hlt, -⟩ | ⟨-, htoken', -, -⟩ | ⟨-, -, m, stats, -, -, -, hacks, hregistrations, hsubtrees, -,
      hr₁, hr₂⟩
  · exact absurd hlt (Int.not_lt.mpr hquiet)
  · exact absurd htoken' htoken
  · refine ⟨m, by simp [Client.step, hr], by simp [hevents, hr₂], carriedBy_batch
      (by rw [hacks]; rfl) (by rw [hregistrations]; rfl) (by rw [hsubtrees]; rfl), ?_⟩
    rw [hh']
    show Idle (sendMessageToServer setup c.listener _ {}).1
    rw [hr₁]; exact ⟨rfl, rfl, rfl⟩

/-- An ack handed to `sampleClient`, whose listener then gets a token, leaves with the next run
of the batching task. -/
theorem sampleClient_ack_sent : ∃ (c : Client) (trace : List Event),
    Run sampleSetup sampleClient trace c ∧ Inv c.handler.operationScheduler ∧
      Covered sampleSetup c.handler ∧ ¬ Idle c.handler ∧
      c.handler.nextMessageSendTimeMs ≤ c.handler.now ∧ c.listener.clientToken ≠ "" ∧
      ∃ w ∈ c.handler.operationScheduler.scheduler.queue, w.operation = sampleSetup.batchingTask ∧
        ∃ c' events m, c.step sampleSetup (.runBatchingTask w) = some (c', events) ∧
          Event.assembled m ∈ events ∧ (batch c.handler).CarriedBy m ∧ Idle c'.handler :=
  have hrun := @Run.step _ _ _ _ _ (.updateListener ⟨"t", ⟨0, ""⟩⟩) _
    (@Run.step _ _ _ _ _ (.sendInvalidationAck ⟨⟨0, ""⟩, true, 1, none⟩) _
      (@Run.nil sampleSetup sampleClient) rfl) rfl
  have hinv := inv_of_run inv_sampleClient (hrun.scheduler sampleSetup)
  ⟨_, _, hrun, hinv, fun _ => rfl, by decide, by decide, by decide,
    waiting_wrapper_sends_batches sampleSetup hinv (fun _ => rfl) (by decide) (by decide)
      (by decide)⟩

/-! ## Stranded batches -/

/-- From a stranded handler, a step that asks for no run of an operation and assembles no
message leaves the handler stranded with the same batches, and shows no event of the operation
scheduler: no wrapper of the batching task is there to run. -/
theorem stranded_step {c c' : Client} {input : Input} {events : List Event}
    (hinv : Inv c.handler.operationScheduler) (hst : Stranded setup c.handler)
    (hs : c.step setup input = some (c', events))
    (hrequest : ∀ operation, Event.scheduler (.requested operation) ∉ events)
    (hassembled : ∀ m, Event.assembled m ∉ events) :
    Stranded setup c'.handler ∧ SameBatches c.handler c'.handler ∧ schedulerEvents events = [] := by
  have hmove := step_batchesMove setup hs
  generalize c'.handler = h' at hmove ⊢
  cases hmove with
  | request hreq _ => exact absurd hreq (hrequest _)
  | assembly m hm _ => exact absurd hm (hassembled m)
  | stalled w _ hw hop _ _ _ =>
    have hnone : c.handler.operationScheduler.queued setup.batchingTask = 0 := by
      simpa [hst.2] using hinv setup.batchingTask
    exact absurd (List.countP_eq_zero.mp hnone w hw) (by simp [hop])
  | other hsched _ hsame hflag =>
    exact ⟨⟨mt hsame.idle_iff.mp hst.1, hflag.trans hst.2⟩, hsame, hsched⟩

/-- A run of the batching task that meets a quiet period or a missing token strands what waits:
`SendMessageToServer` returns at its check, so the batches stay as they were, and
`RunAndClearScheduled` clears the task's flag after it. -/
theorem stalled_run_strands {c c' : Client} {w : Wrapper} {events : List Event}
    (hs : c.step setup (.runBatchingTask w) = some (c', events)) (hwaiting : ¬ Idle c.handler)
    (hstall : c.handler.now < c.handler.nextMessageSendTimeMs ∨ c.listener.clientToken = "") :
    Stranded setup c'.handler ∧ SameBatches c.handler c'.handler := by
  obtain ⟨⟨h', events'⟩, hr, heq⟩ := Option.map_eq_some'.mp hs
  cases heq
  obtain ⟨-, hop, rfl, -⟩ := runBatchingTask_eq_some setup hr
  have hsent : (sendMessageToServer setup c.listener
      { c.handler with operationScheduler := c.handler.operationScheduler.dequeue w } {}).1 =
      { c.handler with operationScheduler := c.handler.operationScheduler.dequeue w } := by
    rcases sendMessageToServer_cases setup c.listener
        { c.handler with operationScheduler := c.handler.operationScheduler.dequeue w } {} with
      ⟨-, hr⟩ | ⟨-, -, -, hr⟩ | ⟨hle, hpass, -⟩
    · rw [hr]
    · rw [hr]
    · rcases hstall with hlt | htoken
      · exact absurd hle (Int.not_le.mpr hlt)
      · exact absurd rfl (hpass htoken)
  have hsame : SameBatches c.handler
      { (sendMessageToServer setup c.listener
          { c.handler with operationScheduler := c.handler.operationScheduler.dequeue w } {}).1 with
        operationScheduler :=
          (c.handler.operationScheduler.dequeue w).clearScheduled w.operation } := by
    rw [hsent]; exact ⟨rfl, rfl, rfl⟩
  exact ⟨⟨mt hsame.idle_iff.mp hwaiting, by simp [hop]⟩, hsame⟩

theorem stranded_of_run {c₀ c : Client} {trace : List Event} (h : Run setup c₀ trace c)
    (hinv : Inv c₀.handler.operationScheduler) (hst : Stranded setup c₀.handler)
    (hrequest : ∀ operation, Event.scheduler (.requested operation) ∉ trace)
    (hassembled : ∀ m, Event.assembled m ∉ trace) :
    Stranded setup c.handler ∧ SameBatches c₀.handler c.handler ∧ schedulerEvents trace = [] := by
  induction h with
  | nil => exact ⟨hst, .refl _, rfl⟩
  | step hprev hstep ih =>
    simp only [List.mem_append, not_or] at hrequest hassembled
    obtain ⟨hst', hsame, hsched⟩ := ih (fun o => (hrequest o).1) (fun m => (hassembled m).1)
    obtain ⟨hst'', hsame', hsched'⟩ := stranded_step setup
      (inv_of_run hinv (hprev.scheduler setup)) hst' hstep (fun o => (hrequest o).2)
      (fun m => (hassembled m).2)
    exact ⟨hst'', hsame.trans hsame', by rw [schedulerEvents_append, hsched, hsched']; rfl⟩

end CacheInvalidation.ProtocolHandler
