/-
# Protocol messages and statistics

The protocol buffers the client core reads and writes, reduced to the fields that
`ProtocolHandler` and `RegistrationManager` touch. Wire serialization is external: a message is
its field values. A repeated field is a `List`; an optional submessage is an `Option`, `none`
exactly when `has_...()` is false.

The statistics the code records are events, one per `Statistics::Record...` call.
-/

import Mathlib.Data.Finset.Basic

namespace CacheInvalidation

/-! ## Objects, registrations, invalidations -/

/-- The identity of an object the application cares about; equality is by value. -/
structure ObjectIdP where
  source : Int
  name : String
  deriving DecidableEq, Repr

/-- `RegistrationP::OpType`. -/
inductive OpType
  | register
  | unregister
  deriving DecidableEq, Repr

/-- A registration request: an object and what to do with it. -/
structure RegistrationP where
  objectId : ObjectIdP
  opType : OpType
  deriving DecidableEq, Repr

/-- `StatusP::Code`. -/
inductive StatusCode
  | success
  | transientFailure
  | permanentFailure
  deriving DecidableEq, Repr

structure StatusP where
  code : StatusCode
  description : String
  deriving DecidableEq, Repr

/-- The server's report on one registration. -/
structure RegistrationStatus where
  registration : RegistrationP
  status : StatusP
  deriving DecidableEq, Repr

/-- An invalidation of one object at a version; acks are deduplicated by value. -/
structure InvalidationP where
  objectId : ObjectIdP
  isKnownVersion : Bool
  version : Int
  payload : Option String
  deriving DecidableEq, Repr

/-- The object ids of one digest-prefix bucket, sent back on a sync request. -/
structure RegistrationSubtree where
  registeredObject : List ObjectIdP
  deriving DecidableEq, Repr

/-- Size and digest of a registration set. -/
structure RegistrationSummary where
  numRegistrations : Int
  registrationDigest : String
  deriving DecidableEq, Repr

/-! ## Versions and the client-to-server envelope -/

structure Version where
  majorVersion : Int
  minorVersion : Int
  deriving DecidableEq, Repr

/-- What the client says about itself in an info message. -/
structure ClientVersion where
  version : Version
  platform : String
  language : String
  applicationInfo : String
  deriving DecidableEq, Repr

/-- The application's identity for an initialize message; copied, never read. -/
structure ApplicationClientIdP where
  clientType : Int
  clientName : String
  deriving DecidableEq, Repr

/-- `InitializeMessage::DigestSerializationType`. -/
inductive DigestSerializationType
  | byteBased
  | numberBased
  deriving DecidableEq, Repr

structure InitializeMessage where
  clientType : Int
  applicationClientId : ApplicationClientIdP
  nonce : String
  digestSerializationType : DigestSerializationType
  deriving DecidableEq, Repr

/-- A named counter or configuration value. -/
structure PropertyRecord where
  name : String
  value : Int
  deriving DecidableEq, Repr

/-- The info message; the source spells the config field `config_paramter`. -/
structure InfoMessage where
  clientVersion : ClientVersion
  configParameter : List PropertyRecord
  performanceCounter : List PropertyRecord
  deriving DecidableEq, Repr

/-- The header `InitClientHeader` writes. `messageId` is the integer that the header's
`"%d"` string spells. -/
structure ClientHeader where
  protocolVersion : Version
  clientTimeMs : Int
  messageId : Int
  maxKnownServerTimeMs : Int
  registrationSummary : RegistrationSummary
  clientToken : Option String
  deriving DecidableEq, Repr

/-- `ClientToServerMessage`: an optional header and the optional submessages. -/
structure ClientToServerMessage where
  header : Option ClientHeader := none
  initializeMessage : Option InitializeMessage := none
  infoMessage : Option InfoMessage := none
  invalidationAckMessage : Option (List InvalidationP) := none
  registrationMessage : Option (List RegistrationP) := none
  registrationSyncMessage : Option (List RegistrationSubtree) := none
  deriving DecidableEq, Repr

namespace ClientToServerMessage

/-- The acks a message carries, in order. -/
def acks (m : ClientToServerMessage) : List InvalidationP :=
  m.invalidationAckMessage.getD []

/-- The registrations a message carries, in order. -/
def registrations (m : ClientToServerMessage) : List RegistrationP :=
  m.registrationMessage.getD []

/-- The subtrees a message carries, in order. -/
def subtrees (m : ClientToServerMessage) : List RegistrationSubtree :=
  m.registrationSyncMessage.getD []

end ClientToServerMessage

/-! ## The server-to-client envelope -/

/-- The header fields the handler reads. -/
structure ServerHeader where
  protocolVersion : Version
  clientToken : String
  registrationSummary : RegistrationSummary
  serverTimeMs : Int
  deriving DecidableEq, Repr

/-- A token assignment or revocation; an empty `newToken` destroys the token. -/
structure TokenControlMessage where
  newToken : String
  status : StatusP
  deriving DecidableEq, Repr

/-- The server's back-pressure request. -/
structure ConfigChangeMessage where
  nextMessageDelayMs : Option Int
  deriving DecidableEq, Repr

/-- `InfoRequestMessage::InfoType`. -/
inductive InfoType
  | getPerformanceCounters
  deriving DecidableEq, Repr

/-- `ServerToClientMessage` after a successful parse. -/
structure ServerToClientMessage where
  header : ServerHeader
  tokenControlMessage : Option TokenControlMessage := none
  invalidationMessage : Option (List InvalidationP) := none
  registrationStatusMessage : Option (List RegistrationStatus) := none
  registrationSyncRequestMessage : Bool := false
  infoRequestMessage : Option (List InfoType) := none
  configChangeMessage : Option ConfigChangeMessage := none
  deriving DecidableEq, Repr

/-- The `ServerMessageHeader` handed to the listener: token and summary of the message. -/
structure ServerMessageHeader where
  token : String
  registrationSummary : RegistrationSummary
  deriving DecidableEq, Repr

/-! ## Statistics -/

/-- `Statistics::ClientErrorType`, the cases this core records. -/
inductive ClientErrorType
  | incomingMessageFailure
  | protocolVersionFailure
  | tokenMismatch
  | tokenMissingFailure
  | outgoingMessageFailure
  | registrationDiscrepancy
  deriving DecidableEq, Repr

/-- `Statistics::SentMessageType`. -/
inductive SentMessageType
  | initializeMessage
  | info
  | invalidationAck
  | registration
  | registrationSync
  | total
  deriving DecidableEq, Repr

/-- `Statistics::ReceivedMessageType`. -/
inductive ReceivedMessageType
  | total
  | tokenControl
  | invalidation
  | registrationStatus
  | registrationSyncRequest
  | infoRequest
  deriving DecidableEq, Repr

/-- One `Statistics::Record...` call. -/
inductive Statistic
  | error (type : ClientErrorType)
  | sentMessage (type : SentMessageType)
  | receivedMessage (type : ReceivedMessageType)
  deriving DecidableEq, Repr

end CacheInvalidation
