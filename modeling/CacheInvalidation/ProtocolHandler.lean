/-
# The protocol handler

`ProtocolHandler` is the single entry point for wire messages in both directions. Inbound, it
parses, validates and gates a message on the protocol version, the server's back-pressure
request and the client token, and dispatches what passes to the listener. Outbound, it batches
registrations, acks and subtrees, and assembles them into a message under the quiet-period and
token checks.

Each function returns the handler afterwards and the events it emitted, in order: the calls it
makes on `Statistics`, the bytes it hands to the network, the listener upcalls, and a few ghost
notes that mark where a branch of the source was taken. Parsing, validation, and the constants
of `constants.h` (absent from the source) are parameters.
-/

import CacheInvalidation.Proto
import CacheInvalidation.OperationScheduler.Runs
import Mathlib.Data.List.AList

namespace CacheInvalidation

/-! ## Containers -/

/-- A `hash_set` under protobuf equality: its elements in iteration order, each once. -/
structure ProtoHashSet (α : Type) where
  elements : List α
  nodup : elements.Nodup

namespace ProtoHashSet

variable {α : Type}

/-- The empty set. -/
def empty : ProtoHashSet α := ⟨[], List.nodup_nil⟩

/-- `insert`: a value already present, by value, is not added again. -/
def insert [DecidableEq α] (s : ProtoHashSet α) (a : α) : ProtoHashSet α :=
  ⟨s.elements.insert a, s.nodup.insert⟩

@[simp] theorem mem_insert [DecidableEq α] (s : ProtoHashSet α) (a b : α) :
    b ∈ (s.insert a).elements ↔ b = a ∨ b ∈ s.elements := List.mem_insert_iff

end ProtoHashSet

/-! ## Collaborators and state -/

/-- The `Constants` the handler reads. -/
structure Constants where
  protocolMajorVersion : Int
  protocolMinorVersion : Int
  clientMajorVersion : Int
  clientMinorVersion : Int

/-- What a handler is built with and never changes: the constants, `ParseFromString` followed
by `IsInitialized` (`none` for bytes that do not make an initialized message), the message
validator in both directions, and the address of the batching task. -/
structure Setup where
  constants : Constants
  parseFromString : String → Option ServerToClientMessage
  incomingIsValid : ServerToClientMessage → Bool
  outgoingIsValid : ClientToServerMessage → Bool
  batchingTask : Closure

/-- `Config`: the handler reads only the batching delay. -/
structure Config where
  batchingDelay : Int

/-- What the handler reads from its listener: `GetClientToken` (empty: no session) and
`GetRegistrationSummary`. -/
structure Listener where
  clientToken : String
  registrationSummary : RegistrationSummary
  deriving DecidableEq, Repr

/-- A listener upcall with its arguments. -/
inductive Upcall
  | handleTokenChanged (header : ServerMessageHeader) (newToken : String) (status : StatusP)
  | handleInvalidations (header : ServerMessageHeader) (invalidations : List InvalidationP)
  | handleRegistrationStatus (header : ServerMessageHeader) (statuses : List RegistrationStatus)
  | handleRegistrationSyncRequest (header : ServerMessageHeader)
  | handleInfoMessage (header : ServerMessageHeader) (infoTypes : List InfoType)
  deriving DecidableEq, Repr

/-- What a call emits. `sent` is `network()->SendMessage`; the ghost notes are `accepted` (an
inbound message passed the token check), `quietPeriodSet` (`next_message_send_time_ms_` was
set), `assembled` (the batches were drained into a message), the three additions to the
batches, and the operation scheduler's own events. -/
inductive Event
  | statistic (recorded : Statistic)
  | sent (message : ClientToServerMessage)
  | upcall (call : Upcall)
  | accepted (header : ServerHeader)
  | quietPeriodSet (nextMessageSendTimeMs : Int)
  | assembled (message : ClientToServerMessage)
  | ackAdded (invalidation : InvalidationP)
  | registrationAdded (objectId : ObjectIdP) (opType : OpType)
  | subtreeAdded (subtree : RegistrationSubtree)
  | scheduler (event : OperationScheduler.Event)
  deriving DecidableEq, Repr

/-- The handler's fields. `operationScheduler` holds the internal scheduler, whose clock is the
handler's `GetCurrentTimeMs`. `message_id_` is a C++ `int`. -/
structure ProtocolHandler where
  clientVersion : ClientVersion
  operationScheduler : OperationScheduler
  messageId : BitVec 32
  lastKnownServerTimeMs : Int
  nextMessageSendTimeMs : Int
  pendingRegistrations : AList fun _ : ObjectIdP => OpType
  ackedInvalidations : ProtoHashSet InvalidationP
  registrationSubtrees : ProtoHashSet RegistrationSubtree

namespace ProtocolHandler

variable (setup : Setup)

/-- `GetCurrentTimeMs()`. -/
def now (h : ProtocolHandler) : Int := h.operationScheduler.scheduler.now

/-- The constructor: the member initializers, the client version, and the registration of the
batching task, whose `SetOperation` call aborts on the fresh operation scheduler. -/
def create (config : Config) (platform applicationName : String) (scheduler : Scheduler) :
    Option ProtocolHandler :=
  ((OperationScheduler.fresh scheduler).setOperation config.batchingDelay
      setup.batchingTask).map fun operationScheduler =>
    { clientVersion :=
        { version := ⟨setup.constants.clientMajorVersion, setup.constants.clientMinorVersion⟩
          platform := platform
          language := "C++"
          applicationInfo := applicationName }
      operationScheduler := operationScheduler
      messageId := 1
      lastKnownServerTimeMs := 0
      nextMessageSendTimeMs := 0
      pendingRegistrations := ∅
      ackedInvalidations := .empty
      registrationSubtrees := .empty }

/-- Construction aborts for every configuration, whatever the batching delay. -/
theorem create_eq_none (config : Config) (platform applicationName : String)
    (scheduler : Scheduler) : create setup config platform applicationName scheduler = none := by
  simp [create, OperationScheduler.setOperation_fresh]

/-! ## Inbound -/

/-- `CheckServerToken`: with no client token there is nothing to compare; otherwise the tokens
must match, and a mismatch is recorded. -/
def checkServerToken (listener : Listener) (serverToken : String) : Bool × List Event :=
  if listener.clientToken = "" then (true, [])
  else if listener.clientToken ≠ serverToken then (false, [.statistic (.error .tokenMismatch)])
  else (true, [])

/-- The dispatch after the token re-check: for each sub-message present, in the source's order,
its received-message statistic and its upcall. -/
def dispatch (header : ServerMessageHeader) (message : ServerToClientMessage) : List Event :=
  (match message.invalidationMessage with
    | some invalidations => [.statistic (.receivedMessage .invalidation),
        .upcall (.handleInvalidations header invalidations)]
    | none => []) ++
  (match message.registrationStatusMessage with
    | some statuses => [.statistic (.receivedMessage .registrationStatus),
        .upcall (.handleRegistrationStatus header statuses)]
    | none => []) ++
  (if message.registrationSyncRequestMessage then
      [.statistic (.receivedMessage .registrationSyncRequest),
        .upcall (.handleRegistrationSyncRequest header)]
    else []) ++
  (match message.infoRequestMessage with
    | some infoTypes => [.statistic (.receivedMessage .infoRequest),
        .upcall (.handleInfoMessage header infoTypes)]
    | none => [])

/-- The token-control upcall, if the message carries one: the listener afterwards holds
`tokenAfterControl`, which is the listener's own decision. -/
def tokenControl (listener : Listener) (tokenAfterControl : String) (header : ServerMessageHeader)
    (message : ServerToClientMessage) : Listener × List Event :=
  match message.tokenControlMessage with
  | some tokenMsg =>
    ({ listener with clientToken := tokenAfterControl },
      [.statistic (.receivedMessage .tokenControl),
        .upcall (.handleTokenChanged header tokenMsg.newToken tokenMsg.status)])
  | none => (listener, [])

/-- What follows the token check: the monotone server-time update, the token-control upcall,
the token re-check, and the dispatch. -/
def acceptMessage (listener : Listener) (tokenAfterControl : String) (h : ProtocolHandler)
    (message : ServerToClientMessage) : ProtocolHandler × Listener × List Event :=
  let header : ServerMessageHeader :=
    ⟨message.header.clientToken, message.header.registrationSummary⟩
  let h := if message.header.serverTimeMs > h.lastKnownServerTimeMs then
      { h with lastKnownServerTimeMs := message.header.serverTimeMs }
    else h
  let control := tokenControl listener tokenAfterControl header message
  (h, control.1,
    if control.1.clientToken = "" then .accepted message.header :: control.2
    else .accepted message.header :: control.2 ++ dispatch header message)

/-- `HandleIncomingMessage(incoming_message)`: parse, validate, check the major version, honour
a `ConfigChangeMessage` before anything else, check the token, and accept. -/
def handleIncomingMessage (listener : Listener) (tokenAfterControl : String) (h : ProtocolHandler)
    (incomingMessage : String) : ProtocolHandler × Listener × List Event :=
  match setup.parseFromString incomingMessage with
  | none => (h, listener, [])
  | some message =>
    if setup.incomingIsValid message = false then
      (h, listener, [.statistic (.error .incomingMessageFailure)])
    else
      let received := Event.statistic (.receivedMessage .total)
      if message.header.protocolVersion.majorVersion ≠ setup.constants.protocolMajorVersion then
        (h, listener, [received, .statistic (.error .protocolVersionFailure)])
      else
        match message.configChangeMessage with
        | some configChange =>
          match configChange.nextMessageDelayMs with
          | some delay =>
            ({ h with nextMessageSendTimeMs := h.now + delay }, listener,
              [received, .quietPeriodSet (h.now + delay)])
          | none => (h, listener, [received])
        | none =>
          let check := checkServerToken listener message.header.clientToken
          if check.1 = false then (h, listener, received :: check.2)
          else
            let accepted := acceptMessage listener tokenAfterControl h message
            (accepted.1, accepted.2.1, received :: accepted.2.2)

/-! ## Outbound -/

/-- `InitClientHeader`: the header for the next message, and `message_id_` post-incremented. -/
def initClientHeader (listener : Listener) (h : ProtocolHandler) :
    ClientHeader × ProtocolHandler :=
  ({ protocolVersion := ⟨setup.constants.protocolMajorVersion,
        setup.constants.protocolMinorVersion⟩
     clientTimeMs := h.now
     messageId := h.messageId.toInt
     maxKnownServerTimeMs := h.lastKnownServerTimeMs
     registrationSummary := listener.registrationSummary
     clientToken := if listener.clientToken = "" then none else some listener.clientToken },
   { h with messageId := h.messageId + 1 })

/-- The registrations of the pending map, one per object. -/
def pendingRegistrationList (h : ProtocolHandler) : List RegistrationP :=
  h.pendingRegistrations.entries.map fun e => ⟨e.1, e.2⟩

/-- The first drain of `SendMessageToServer`: a non-empty ack set is copied into the builder and
cleared, with its sent-message statistic. -/
def drainAcks (h : ProtocolHandler) (builder : ClientToServerMessage) :
    ClientToServerMessage × ProtocolHandler × List Event :=
  if h.ackedInvalidations.elements = [] then (builder, h, [])
  else
    ({ builder with
        invalidationAckMessage := some (builder.acks ++ h.ackedInvalidations.elements) },
     { h with ackedInvalidations := .empty },
     [.statistic (.sentMessage .invalidationAck)])

/-- The second drain: one registration per pending object. -/
def drainRegistrations (h : ProtocolHandler) (builder : ClientToServerMessage) :
    ClientToServerMessage × ProtocolHandler × List Event :=
  if h.pendingRegistrations.entries = [] then (builder, h, [])
  else
    ({ builder with
        registrationMessage := some (builder.registrations ++ h.pendingRegistrationList) },
     { h with pendingRegistrations := ∅ },
     [.statistic (.sentMessage .registration)])

/-- The third drain: the subtrees. -/
def drainSubtrees (h : ProtocolHandler) (builder : ClientToServerMessage) :
    ClientToServerMessage × ProtocolHandler × List Event :=
  if h.registrationSubtrees.elements = [] then (builder, h, [])
  else
    ({ builder with
        registrationSyncMessage := some (builder.subtrees ++ h.registrationSubtrees.elements) },
     { h with registrationSubtrees := .empty },
     [.statistic (.sentMessage .registrationSync)])

/-- The three drains in the source's order. -/
def drainBatches (h : ProtocolHandler) (builder : ClientToServerMessage) :
    ClientToServerMessage × ProtocolHandler × List Event :=
  let acks := drainAcks h builder
  let registrations := drainRegistrations acks.2.1 acks.1
  let subtrees := drainSubtrees registrations.2.1 registrations.1
  (subtrees.1, subtrees.2.1, acks.2.2 ++ registrations.2.2 ++ subtrees.2.2)

/-- `SendMessageToServer(builder)`: nothing during a quiet period; without a token only a
message carrying an initialize message goes; otherwise header, drains, the second increment of
`message_id_`, validation, and the hand-over to the network. -/
def sendMessageToServer (listener : Listener) (h : ProtocolHandler)
    (builder : ClientToServerMessage) : ProtocolHandler × List Event :=
  if h.nextMessageSendTimeMs > h.now then (h, [])
  else if listener.clientToken = "" ∧ builder.initializeMessage = none then
    (h, [.statistic (.error .tokenMissingFailure)])
  else
    let header := initClientHeader setup listener h
    let drained := drainBatches header.2 { builder with header := some header.1 }
    let message := drained.1
    let h := { drained.2.1 with messageId := drained.2.1.messageId + 1 }
    if setup.outgoingIsValid message then
      (h, drained.2.2 ++ [.assembled message, .statistic (.sentMessage .total), .sent message])
    else
      (h, drained.2.2 ++ [.assembled message, .statistic (.error .outgoingMessageFailure)])

/-- `SendInitializeMessage`. -/
def sendInitializeMessage (listener : Listener) (h : ProtocolHandler) (clientType : Int)
    (applicationClientId : ApplicationClientIdP) (nonce : String) : ProtocolHandler × List Event :=
  let initMsg : InitializeMessage :=
    { clientType := clientType
      applicationClientId := applicationClientId
      nonce := nonce
      digestSerializationType := .byteBased }
  let sent := sendMessageToServer setup listener h { initializeMessage := some initMsg }
  (sent.1, .statistic (.sentMessage .initializeMessage) :: sent.2)

/-- `SendInfoMessage`: the client version, the configuration parameters and the performance
counters. -/
def sendInfoMessage (listener : Listener) (h : ProtocolHandler)
    (performanceCounters configParams : List (String × Int)) : ProtocolHandler × List Event :=
  let infoMessage : InfoMessage :=
    { clientVersion := h.clientVersion
      configParameter := configParams.map fun p => ⟨p.1, p.2⟩
      performanceCounter := performanceCounters.map fun p => ⟨p.1, p.2⟩ }
  let sent := sendMessageToServer setup listener h { infoMessage := some infoMessage }
  (sent.1, .statistic (.sentMessage .info) :: sent.2)

/-- `operation_scheduler_->Schedule(batching_task_)`, which aborts if the task is not
registered. -/
def scheduleBatchingTask (h : ProtocolHandler) : Option (ProtocolHandler × List Event) :=
  (h.operationScheduler.schedule setup.batchingTask).map fun operationScheduler =>
    ({ h with operationScheduler := operationScheduler },
      [.scheduler (.requested setup.batchingTask)])

/-- `SendRegistrations`: the latest operation per object wins; then the batching task. -/
def sendRegistrations (h : ProtocolHandler) (objectIds : List ObjectIdP) (opType : OpType) :
    Option (ProtocolHandler × List Event) :=
  let pending := objectIds.foldl (fun pending objectId => pending.insert objectId opType)
    h.pendingRegistrations
  (scheduleBatchingTask setup { h with pendingRegistrations := pending }).map fun (h, events) =>
    (h, objectIds.map (fun objectId => Event.registrationAdded objectId opType) ++ events)

/-- `SendInvalidationAck`: acks are deduplicated by value; then the batching task. -/
def sendInvalidationAck (h : ProtocolHandler) (invalidation : InvalidationP) :
    Option (ProtocolHandler × List Event) :=
  (scheduleBatchingTask setup
      { h with ackedInvalidations := h.ackedInvalidations.insert invalidation }).map
    fun (h, events) => (h, .ackAdded invalidation :: events)

/-- `SendRegistrationSyncSubtree`: subtrees are deduplicated by value; then the batching
task. -/
def sendRegistrationSyncSubtree (h : ProtocolHandler) (subtree : RegistrationSubtree) :
    Option (ProtocolHandler × List Event) :=
  (scheduleBatchingTask setup
      { h with registrationSubtrees := h.registrationSubtrees.insert subtree }).map
    fun (h, events) => (h, .subtreeAdded subtree :: events)

/-- `BatchingTask`: an empty message, filled by the drains. -/
def batchingTask (listener : Listener) (h : ProtocolHandler) : ProtocolHandler × List Event :=
  sendMessageToServer setup listener h {}

end ProtocolHandler

end CacheInvalidation
