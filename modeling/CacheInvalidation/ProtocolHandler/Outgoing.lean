/-
# Assembling outbound messages

`SendMessageToServer` either returns at the quiet-period check with no effect at all, returns
at the missing-token check having recorded one error, or assembles a message: the header from
`InitClientHeader`, then the three batches, each appended to what the builder holds and
cleared. `sendMessageToServer_cases` says this once; the results about runs use it and never
unfold the function. The three drains are taken one at a time, each with what it does to the
handler, to the builder, and to the statistics.
-/

import CacheInvalidation.ProtocolHandler

namespace CacheInvalidation

/-- A set with no elements is the empty set. -/
theorem ProtoHashSet.eq_empty {α : Type} (s : ProtoHashSet α) (h : s.elements = []) :
    s = .empty := by
  cases s; simp_all [ProtoHashSet.empty]

namespace ProtocolHandler

variable (setup : Setup)

/-! ## The drains -/

/-- Whatever the batch held, the handler leaves the ack drain with no acks. -/
theorem drainAcks_handler (h : ProtocolHandler) (builder : ClientToServerMessage) :
    (drainAcks h builder).2.1 = { h with ackedInvalidations := .empty } := by
  unfold drainAcks
  split_ifs with hempty
  · rw [← ProtoHashSet.eq_empty _ hempty]
  · rfl

theorem drainRegistrations_handler (h : ProtocolHandler) (builder : ClientToServerMessage) :
    (drainRegistrations h builder).2.1 = { h with pendingRegistrations := ∅ } := by
  unfold drainRegistrations
  split_ifs with hempty
  · rw [← show h.pendingRegistrations = ∅ from AList.ext hempty]
  · rfl

theorem drainSubtrees_handler (h : ProtocolHandler) (builder : ClientToServerMessage) :
    (drainSubtrees h builder).2.1 = { h with registrationSubtrees := .empty } := by
  unfold drainSubtrees
  split_ifs with hempty
  · rw [← ProtoHashSet.eq_empty _ hempty]
  · rfl

/-- The ack drain appends the pending acks to the builder's and touches no other field. -/
theorem drainAcks_fst (h : ProtocolHandler) (builder : ClientToServerMessage) :
    let m := (drainAcks h builder).1
    m.header = builder.header ∧ m.initializeMessage = builder.initializeMessage ∧
      m.infoMessage = builder.infoMessage ∧
      m.acks = builder.acks ++ h.ackedInvalidations.elements ∧
      m.registrations = builder.registrations ∧ m.subtrees = builder.subtrees := by
  unfold drainAcks
  split_ifs with hempty <;> simp [hempty, ClientToServerMessage.acks,
    ClientToServerMessage.registrations, ClientToServerMessage.subtrees]

theorem drainRegistrations_fst (h : ProtocolHandler) (builder : ClientToServerMessage) :
    let m := (drainRegistrations h builder).1
    m.header = builder.header ∧ m.initializeMessage = builder.initializeMessage ∧
      m.infoMessage = builder.infoMessage ∧ m.acks = builder.acks ∧
      m.registrations = builder.registrations ++ h.pendingRegistrationList ∧
      m.subtrees = builder.subtrees := by
  unfold drainRegistrations
  split_ifs with hempty <;> simp [hempty, ClientToServerMessage.acks,
    ClientToServerMessage.registrations, ClientToServerMessage.subtrees, pendingRegistrationList]

theorem drainSubtrees_fst (h : ProtocolHandler) (builder : ClientToServerMessage) :
    let m := (drainSubtrees h builder).1
    m.header = builder.header ∧ m.initializeMessage = builder.initializeMessage ∧
      m.infoMessage = builder.infoMessage ∧ m.acks = builder.acks ∧
      m.registrations = builder.registrations ∧
      m.subtrees = builder.subtrees ++ h.registrationSubtrees.elements := by
  unfold drainSubtrees
  split_ifs with hempty <;> simp [hempty, ClientToServerMessage.acks,
    ClientToServerMessage.registrations, ClientToServerMessage.subtrees]

/-- A drain records at most its sent-message statistic. -/
theorem drainAcks_events (h : ProtocolHandler) (builder : ClientToServerMessage) :
    ∀ e ∈ (drainAcks h builder).2.2, ∃ recorded, e = .statistic recorded := by
  unfold drainAcks; split_ifs <;> simp

theorem drainRegistrations_events (h : ProtocolHandler) (builder : ClientToServerMessage) :
    ∀ e ∈ (drainRegistrations h builder).2.2, ∃ recorded, e = .statistic recorded := by
  unfold drainRegistrations; split_ifs <;> simp

theorem drainSubtrees_events (h : ProtocolHandler) (builder : ClientToServerMessage) :
    ∀ e ∈ (drainSubtrees h builder).2.2, ∃ recorded, e = .statistic recorded := by
  unfold drainSubtrees; split_ifs <;> simp

/-- The drains leave the handler with empty batches and nothing else changed. -/
theorem drainBatches_handler (h : ProtocolHandler) (builder : ClientToServerMessage) :
    (drainBatches h builder).2.1 =
      { h with
        ackedInvalidations := .empty
        pendingRegistrations := ∅
        registrationSubtrees := .empty } := by
  simp only [drainBatches, drainSubtrees_handler, drainRegistrations_handler, drainAcks_handler]

/-- The drains append each batch to the builder's own and leave the rest of the builder. -/
theorem drainBatches_fst (h : ProtocolHandler) (builder : ClientToServerMessage) :
    let m := (drainBatches h builder).1
    m.header = builder.header ∧ m.initializeMessage = builder.initializeMessage ∧
      m.infoMessage = builder.infoMessage ∧
      m.acks = builder.acks ++ h.ackedInvalidations.elements ∧
      m.registrations = builder.registrations ++ h.pendingRegistrationList ∧
      m.subtrees = builder.subtrees ++ h.registrationSubtrees.elements := by
  obtain ⟨a₁, a₂, a₃, a₄, a₅, a₆⟩ := drainAcks_fst h builder
  obtain ⟨r₁, r₂, r₃, r₄, r₅, r₆⟩ :=
    drainRegistrations_fst (drainAcks h builder).2.1 (drainAcks h builder).1
  obtain ⟨s₁, s₂, s₃, s₄, s₅, s₆⟩ := drainSubtrees_fst
    (drainRegistrations (drainAcks h builder).2.1 (drainAcks h builder).1).2.1
    (drainRegistrations (drainAcks h builder).2.1 (drainAcks h builder).1).1
  simp only [drainBatches, drainRegistrations_handler, drainAcks_handler] at *
  refine ⟨?_, ?_, ?_, ?_, ?_, ?_⟩ <;> simp_all [pendingRegistrationList]

theorem drainBatches_events (h : ProtocolHandler) (builder : ClientToServerMessage) :
    ∀ e ∈ (drainBatches h builder).2.2, ∃ recorded, e = .statistic recorded := by
  simp only [drainBatches, List.mem_append]
  rintro e ((he | he) | he)
  · exact drainAcks_events _ _ e he
  · exact drainRegistrations_events _ _ e he
  · exact drainSubtrees_events _ _ e he

/-! ## `SendMessageToServer` -/

/-- What `SendMessageToServer` can do: return at the quiet-period check with no effect; return
at the missing-token check having recorded the error; or assemble a message from the header,
the builder and the three batches, clear the batches, advance `message_id_` twice, and hand the
message to the network if the validator accepts it. -/
theorem sendMessageToServer_cases (listener : Listener) (h : ProtocolHandler)
    (builder : ClientToServerMessage) :
    let r := sendMessageToServer setup listener h builder
    (h.now < h.nextMessageSendTimeMs ∧ r = (h, [])) ∨
    (h.nextMessageSendTimeMs ≤ h.now ∧ listener.clientToken = "" ∧
      builder.initializeMessage = none ∧ r = (h, [.statistic (.error .tokenMissingFailure)])) ∨
    (h.nextMessageSendTimeMs ≤ h.now ∧
      (listener.clientToken = "" → builder.initializeMessage ≠ none) ∧
      ∃ m stats,
        m.header = some (initClientHeader setup listener h).1 ∧
        m.initializeMessage = builder.initializeMessage ∧ m.infoMessage = builder.infoMessage ∧
        m.acks = builder.acks ++ h.ackedInvalidations.elements ∧
        m.registrations = builder.registrations ++ h.pendingRegistrationList ∧
        m.subtrees = builder.subtrees ++ h.registrationSubtrees.elements ∧
        (∀ e ∈ stats, ∃ recorded, e = .statistic recorded) ∧
        r.1 = { h with
          messageId := h.messageId + 1 + 1
          ackedInvalidations := .empty
          pendingRegistrations := ∅
          registrationSubtrees := .empty } ∧
        r.2 = stats ++ .assembled m :: if setup.outgoingIsValid m then
          [.statistic (.sentMessage .total), .sent m]
        else [.statistic (.error .outgoingMessageFailure)]) := by
  unfold sendMessageToServer
  by_cases hquiet : h.nextMessageSendTimeMs > h.now
  · exact .inl ⟨hquiet, by simp [hquiet]⟩
  have hle := Int.not_lt.mp hquiet
  by_cases hmissing : listener.clientToken = "" ∧ builder.initializeMessage = none
  · exact .inr (.inl ⟨hle, hmissing.1, hmissing.2, by simp [hquiet, hmissing]⟩)
  refine .inr (.inr ⟨hle, fun htoken hinit => hmissing ⟨htoken, hinit⟩, ?_⟩)
  rw [if_neg hquiet, if_neg hmissing]
  dsimp only
  set header := initClientHeader setup listener h
  set drained := drainBatches header.2 { builder with header := some header.1 }
  obtain ⟨m₁, m₂, m₃, m₄, m₅, m₆⟩ :=
    drainBatches_fst header.2 { builder with header := some header.1 }
  refine ⟨drained.1, drained.2.2, m₁, m₂, m₃, m₄, m₅, m₆, drainBatches_events _ _, ?_, ?_⟩ <;>
    split
  · rw [drainBatches_handler]; rfl
  · rw [drainBatches_handler]; rfl
  · simp_all
  · simp_all

/-- A send leaves the operation scheduler, and so the clock, alone, and changes the handler's
times not at all. -/
theorem sendMessageToServer_frame (listener : Listener) (h : ProtocolHandler)
    (builder : ClientToServerMessage) :
    let h' := (sendMessageToServer setup listener h builder).1
    h'.operationScheduler = h.operationScheduler ∧
      h'.lastKnownServerTimeMs = h.lastKnownServerTimeMs ∧
      h'.nextMessageSendTimeMs = h.nextMessageSendTimeMs := by
  rcases sendMessageToServer_cases setup listener h builder with
    ⟨-, hr⟩ | ⟨-, -, -, hr⟩ | ⟨-, -, _, _, -, -, -, -, -, -, -, hr, -⟩ <;> simp [hr]

/-- `SendInitializeMessage` records its statistic, then sends a builder that holds an initialize
message and no batch. -/
theorem sendInitializeMessage_eq (listener : Listener) (h : ProtocolHandler) (clientType : Int)
    (applicationClientId : ApplicationClientIdP) (nonce : String) :
    ∃ builder : ClientToServerMessage, builder.initializeMessage.isSome ∧ builder.acks = [] ∧
      builder.registrations = [] ∧ builder.subtrees = [] ∧
      sendInitializeMessage setup listener h clientType applicationClientId nonce =
        ((sendMessageToServer setup listener h builder).1,
          .statistic (.sentMessage .initializeMessage) ::
            (sendMessageToServer setup listener h builder).2) := by
  refine ⟨_, ?_, ?_, ?_, ?_, rfl⟩ <;> rfl

/-- `SendInfoMessage` records its statistic, then sends a builder that holds an info message
and no batch. -/
theorem sendInfoMessage_eq (listener : Listener) (h : ProtocolHandler)
    (performanceCounters configParams : List (String × Int)) :
    ∃ builder : ClientToServerMessage, builder.initializeMessage = none ∧ builder.acks = [] ∧
      builder.registrations = [] ∧ builder.subtrees = [] ∧
      sendInfoMessage setup listener h performanceCounters configParams =
        ((sendMessageToServer setup listener h builder).1,
          .statistic (.sentMessage .info) :: (sendMessageToServer setup listener h builder).2) := by
  refine ⟨_, ?_, ?_, ?_, ?_, rfl⟩ <;> rfl

/-! ## The batching task -/

/-- `Schedule(batching_task_)` returns only when the task is registered, and then records the
request and changes only the operation scheduler. -/
theorem scheduleBatchingTask_eq_some {h h' : ProtocolHandler} {events : List Event}
    (hs : scheduleBatchingTask setup h = some (h', events)) :
    ∃ operationScheduler, h.operationScheduler.schedule setup.batchingTask =
        some operationScheduler ∧
      h' = { h with operationScheduler := operationScheduler } ∧
      events = [.scheduler (.requested setup.batchingTask)] := by
  obtain ⟨s, hschedule, hr⟩ := Option.map_eq_some'.mp hs
  cases hr
  exact ⟨s, hschedule, rfl, rfl⟩

/-- A `SendRegistrations` that returns has recorded the latest operation for each object and
scheduled the batching task. -/
theorem sendRegistrations_eq_some {h h' : ProtocolHandler} {objectIds : List ObjectIdP}
    {opType : OpType} {events : List Event}
    (hs : sendRegistrations setup h objectIds opType = some (h', events)) :
    ∃ operationScheduler, h.operationScheduler.schedule setup.batchingTask =
        some operationScheduler ∧
      h' = { h with
        operationScheduler := operationScheduler
        pendingRegistrations := objectIds.foldl
          (fun pending objectId => pending.insert objectId opType) h.pendingRegistrations } ∧
      events = objectIds.map (fun objectId => Event.registrationAdded objectId opType) ++
        [.scheduler (.requested setup.batchingTask)] := by
  obtain ⟨⟨h₁, events₁⟩, hs, hr⟩ := Option.map_eq_some'.mp hs
  obtain ⟨s, hschedule, rfl, rfl⟩ := scheduleBatchingTask_eq_some setup hs
  cases hr
  exact ⟨s, hschedule, rfl, rfl⟩

theorem sendInvalidationAck_eq_some {h h' : ProtocolHandler} {invalidation : InvalidationP}
    {events : List Event} (hs : sendInvalidationAck setup h invalidation = some (h', events)) :
    ∃ operationScheduler, h.operationScheduler.schedule setup.batchingTask =
        some operationScheduler ∧
      h' = { h with
        operationScheduler := operationScheduler
        ackedInvalidations := h.ackedInvalidations.insert invalidation } ∧
      events = [.ackAdded invalidation, .scheduler (.requested setup.batchingTask)] := by
  obtain ⟨⟨h₁, events₁⟩, hs, hr⟩ := Option.map_eq_some'.mp hs
  obtain ⟨s, hschedule, rfl, rfl⟩ := scheduleBatchingTask_eq_some setup hs
  cases hr
  exact ⟨s, hschedule, rfl, rfl⟩

theorem sendRegistrationSyncSubtree_eq_some {h h' : ProtocolHandler}
    {subtree : RegistrationSubtree} {events : List Event}
    (hs : sendRegistrationSyncSubtree setup h subtree = some (h', events)) :
    ∃ operationScheduler, h.operationScheduler.schedule setup.batchingTask =
        some operationScheduler ∧
      h' = { h with
        operationScheduler := operationScheduler
        registrationSubtrees := h.registrationSubtrees.insert subtree } ∧
      events = [.subtreeAdded subtree, .scheduler (.requested setup.batchingTask)] := by
  obtain ⟨⟨h₁, events₁⟩, hs, hr⟩ := Option.map_eq_some'.mp hs
  obtain ⟨s, hschedule, rfl, rfl⟩ := scheduleBatchingTask_eq_some setup hs
  cases hr
  exact ⟨s, hschedule, rfl, rfl⟩

end CacheInvalidation.ProtocolHandler
