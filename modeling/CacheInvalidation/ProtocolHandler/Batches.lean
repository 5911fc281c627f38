/-
# No batched item is lost or duplicated

What the batches are for, said without the handler: a `Batch` holds the acks, the latest
operation per object, and the subtrees given since the last assembly, each ack and subtree once
by value. `Batch.read` reads a recorded run's inputs in that sense: each `SendInvalidationAck`,
`SendRegistrations` and `SendRegistrationSyncSubtree` puts in what it was given, and each step
that gets past the checks of `SendMessageToServer` takes everything.

`batch` views the handler's three collections as a `Batch`. `batch_step` says what every step
does to it; `batches_kept` carries this over to whole runs: at every point of a run the
handler's collections are what the inputs have put in since the last assembly, and each
assembled message carries exactly that, every item once.
-/

import CacheInvalidation.ProtocolHandler.Steps

namespace CacheInvalidation.ProtocolHandler

variable (setup : Setup)

/-- What waits to be sent: acks, one operation per object, and subtrees. -/
structure Batch where
  acks : Finset InvalidationP
  registrations : ObjectIdP → Option OpType
  subtrees : Finset RegistrationSubtree

namespace Batch

/-- Nothing waits. -/
def empty : Batch := ⟨∅, fun _ => none, ∅⟩

/-- A message carries the batch: each of its acks once and no other ack, one registration for
each object with a waiting operation, with that operation, and no other registration, and each
of its subtrees once and no other subtree. -/
def CarriedBy (b : Batch) (m : ClientToServerMessage) : Prop :=
  m.acks.Nodup ∧ m.acks.toFinset = b.acks ∧
    (m.registrations.map (·.objectId)).Nodup ∧
    (∀ r, r ∈ m.registrations ↔ b.registrations r.objectId = some r.opType) ∧
    m.subtrees.Nodup ∧ m.subtrees.toFinset = b.subtrees

/-- The object's operation becomes `opType`, replacing any earlier one. -/
def register (b : Batch) (objectId : ObjectIdP) (opType : OpType) : Batch :=
  { b with registrations := Function.update b.registrations objectId (some opType) }

/-- What an input puts in: an ack or a subtree goes in once by value, and each object that
`SendRegistrations` names gets the call's operation. -/
def give (b : Batch) : Input → Batch
  | .sendRegistrations objectIds opType =>
    objectIds.foldl (fun b objectId => b.register objectId opType) b
  | .sendInvalidationAck invalidation => { b with acks := insert invalidation b.acks }
  | .sendRegistrationSyncSubtree subtree => { b with subtrees := insert subtree b.subtrees }
  | _ => b

/-- The batch read along a recorded run from `b`: a step that gets past the checks of
`SendMessageToServer` takes everything, and every other step puts in what its input gives. -/
def read (b : Batch) (steps : List Step) : Batch :=
  steps.foldl (fun b s => if s.assembles then empty else b.give s.input) b

end Batch

/-- The handler's three collections, as a batch. -/
def batch (h : ProtocolHandler) : Batch :=
  ⟨h.ackedInvalidations.elements.toFinset, fun objectId => h.pendingRegistrations.lookup objectId,
    h.registrationSubtrees.elements.toFinset⟩

theorem toFinset_insert_elements {α : Type} [DecidableEq α] (s : ProtoHashSet α) (a : α) :
    (s.insert a).elements.toFinset = insert a s.elements.toFinset := by
  ext; simp

/-- The pending map's registrations are those it looks up. -/
theorem mem_pendingRegistrationList (h : ProtocolHandler) (r : RegistrationP) :
    r ∈ h.pendingRegistrationList ↔ h.pendingRegistrations.lookup r.objectId = some r.opType := by
  rw [← Option.mem_def, AList.mem_lookup_iff]
  simp only [pendingRegistrationList, List.mem_map]
  constructor
  · rintro ⟨⟨objectId, opType⟩, he, rfl⟩; exact he
  · intro he; exact ⟨_, he, rfl⟩

theorem objectIds_pendingRegistrationList (h : ProtocolHandler) :
    h.pendingRegistrationList.map (·.objectId) = h.pendingRegistrations.keys := by
  simp [pendingRegistrationList, AList.keys, List.keys, Function.comp_def]

theorem batch_insert_registration (h : ProtocolHandler) (objectId : ObjectIdP) (opType : OpType) :
    batch { h with pendingRegistrations := h.pendingRegistrations.insert objectId opType } =
      (batch h).register objectId opType := by
  simp only [Batch.register, batch, Batch.mk.injEq, true_and, and_true]
  funext other
  rcases eq_or_ne other objectId with rfl | ho
  · simp [AList.lookup_insert]
  · simp [AList.lookup_insert_ne ho, Function.update_noteq ho]

/-- `SendRegistrations` moves the batch as the pending map moves. -/
theorem batch_registrations (h : ProtocolHandler) (objectIds : List ObjectIdP) (opType : OpType) :
    batch { h with
        pendingRegistrations := objectIds.foldl
          (fun pending objectId => pending.insert objectId opType) h.pendingRegistrations } =
      (batch h).give (.sendRegistrations objectIds opType) := by
  induction objectIds generalizing h with
  | nil => rfl
  | cons objectId rest ih =>
    simp only [List.foldl_cons, Batch.give] at ih ⊢
    rw [← batch_insert_registration, ← ih]

/-- An assembled message that adds the handler's batches to a builder with none of its own
carries the handler's batch. -/
theorem carriedBy_batch {h : ProtocolHandler} {m : ClientToServerMessage}
    (hacks : m.acks = h.ackedInvalidations.elements)
    (hregistrations : m.registrations = h.pendingRegistrationList)
    (hsubtrees : m.subtrees = h.registrationSubtrees.elements) : (batch h).CarriedBy m := by
  refine ⟨hacks ▸ h.ackedInvalidations.nodup, by rw [hacks]; rfl, ?_, fun r => ?_,
    hsubtrees ▸ h.registrationSubtrees.nodup, by rw [hsubtrees]; rfl⟩
  · rw [hregistrations, objectIds_pendingRegistrationList]; exact h.pendingRegistrations.keys_nodup
  · rw [hregistrations, mem_pendingRegistrationList]; rfl

theorem batch_emptied (h : ProtocolHandler) (messageId : BitVec 32) :
    batch { h with
      messageId := messageId
      ackedInvalidations := .empty
      pendingRegistrations := ∅
      registrationSubtrees := .empty } = .empty := by
  simp only [batch, Batch.empty, ProtoHashSet.empty, List.toFinset_nil, AList.lookup_empty]

/-- `SendMessageToServer` empties the batch when it gets past its checks, and leaves it
otherwise. -/
theorem batch_sendMessageToServer (listener : Listener) (h : ProtocolHandler)
    (builder : ClientToServerMessage) :
    batch (sendMessageToServer setup listener h builder).1 =
      if sendGate listener h builder.initializeMessage.isSome then .empty else batch h := by
  rcases sendMessageToServer_cases setup listener h builder with ⟨hlt, hr⟩ |
    ⟨-, htoken, hinit, hr⟩ | ⟨hle, hpass, -, -, -, -, -, -, -, -, -, hr, -⟩
  · rw [hr, if_neg (by simp [sendGate, hlt])]
  · rw [hr, if_neg (by simp [sendGate, htoken, hinit])]
  · rw [hr, if_pos ((sendGate_eq_true_iff _ _ _).mpr ⟨hle, fun htoken =>
      Option.ne_none_iff_isSome.mp (hpass htoken)⟩), batch_emptied]

/-- What every step does to the batch: a step that gets past the checks of
`SendMessageToServer` empties it, and every other step puts in what its input gives, which for
a send stopped at a check, an inbound message, a move of the clock or of the listener is
nothing. -/
theorem batch_step {c c' : Client} {input : Input} {events : List Event}
    (hs : c.step setup input = some (c', events)) :
    batch c'.handler =
      if Step.assembles ⟨c, input, events⟩ then .empty else (batch c.handler).give input := by
  cases input with
  | sendInitializeMessage clientType applicationClientId nonce =>
    cases hs
    obtain ⟨builder, hinit, -, -, -, hr⟩ :=
      sendInitializeMessage_eq setup c.listener c.handler clientType applicationClientId nonce
    rw [hr]
    simpa [hinit] using batch_sendMessageToServer setup c.listener c.handler builder
  | sendInfoMessage performanceCounters configParams =>
    cases hs
    obtain ⟨builder, hinit, -, -, -, hr⟩ :=
      sendInfoMessage_eq setup c.listener c.handler performanceCounters configParams
    rw [hr]
    simpa [hinit] using batch_sendMessageToServer setup c.listener c.handler builder
  | sendRegistrations objectIds opType =>
    obtain ⟨⟨h', events'⟩, hr, heq⟩ := Option.map_eq_some'.mp hs
    cases heq
    obtain ⟨s, -, rfl, -⟩ := sendRegistrations_eq_some setup hr
    exact batch_registrations c.handler objectIds opType
  | sendInvalidationAck invalidation =>
    obtain ⟨⟨h', events'⟩, hr, heq⟩ := Option.map_eq_some'.mp hs
    cases heq
    obtain ⟨s, -, rfl, -⟩ := sendInvalidationAck_eq_some setup hr
    simp [Step.assembles, Input.sends, Batch.give, batch, toFinset_insert_elements]
  | sendRegistrationSyncSubtree subtree =>
    obtain ⟨⟨h', events'⟩, hr, heq⟩ := Option.map_eq_some'.mp hs
    cases heq
    obtain ⟨s, -, rfl, -⟩ := sendRegistrationSyncSubtree_eq_some setup hr
    simp [Step.assembles, Input.sends, Batch.give, batch, toFinset_insert_elements]
  | handleIncomingMessage incomingMessage tokenAfterControl =>
    cases hs
    rcases handleIncomingMessage_effect setup c.listener tokenAfterControl c.handler
      incomingMessage with ⟨hr, -⟩ | ⟨_, hr, -⟩ | ⟨_, _, hr, -⟩ <;> dsimp only <;> rw [hr] <;> rfl
  | runBatchingTask w =>
    obtain ⟨⟨h', events'⟩, hr, heq⟩ := Option.map_eq_some'.mp hs
    cases heq
    obtain ⟨-, -, rfl, -⟩ := runBatchingTask_eq_some setup hr
    exact batch_sendMessageToServer setup c.listener
      { c.handler with operationScheduler := c.handler.operationScheduler.dequeue w } {}
  | advanceTo time =>
    obtain ⟨_, -, heq⟩ := Option.map_eq_some'.mp hs
    cases heq
    rfl
  | updateListener listener =>
    cases hs
    rfl

/-- Over every run of the handler, recorded step by step, no batched item is lost or duplicated
before assembly. At the end of every run the handler's collections hold exactly what the
`SendInvalidationAck`, `SendRegistrations` and `SendRegistrationSyncSubtree` calls gave since the
last step that got past the checks of `SendMessageToServer` (or since the start): each ack and
subtree once by value, and for each object the operation of the latest call naming it. Every step
that gets past those checks assembles one message, which carries exactly that, each item once,
and hands it, and nothing else, to the network if the validator accepts it; every other step
assembles and hands over nothing. A send that returns at the quiet-period or the missing-token
check leaves the handler, and so its collections, as it was. -/
theorem batches_kept :
    (∀ (c₀ c : Client) (steps : List Step), Steps setup c₀ steps c →
      batch c.handler = (batch c₀.handler).read steps ∧
      ∀ pre s post, steps = pre ++ s :: post →
        (s.assembles = true → ∃ m, assembledMessages s.events = [m] ∧
          ((batch c₀.handler).read pre).CarriedBy m ∧
          sentMessages s.events = if setup.outgoingIsValid m then [m] else []) ∧
        (s.assembles = false → assembledMessages s.events = [] ∧ sentMessages s.events = [])) ∧
    (∀ (listener : Listener) (h : ProtocolHandler) (builder : ClientToServerMessage),
      h.now < h.nextMessageSendTimeMs ∨
          listener.clientToken = "" ∧ builder.initializeMessage = none →
        (sendMessageToServer setup listener h builder).1 = h) := by
  have hread : ∀ {c₀ c : Client} {steps : List Step}, Steps setup c₀ steps c →
      batch c.handler = (batch c₀.handler).read steps :=
    Steps.view_eq fun _ _ _ _ hs => batch_step setup hs
  refine ⟨fun c₀ c steps h => ⟨hread h, fun pre s post hsteps => ?_⟩,
    fun listener h builder hgate => ?_⟩
  · obtain ⟨hpre, c', hstep⟩ := h.split hsteps
    have hmessages := step_messages setup hstep
    rw [← hread hpre]
    refine ⟨fun hassembles => ?_, fun hassembles => ?_⟩ <;>
      simp only [HandsOver, hassembles, ite_true, ite_false] at hmessages
    · obtain ⟨m, hassembled, hsent, -, hacks, hregistrations, hsubtrees⟩ := hmessages
      exact ⟨m, hassembled, carriedBy_batch hacks hregistrations hsubtrees, hsent⟩
    · exact hmessages
  · rcases sendMessageToServer_cases setup listener h builder with ⟨-, hr⟩ | ⟨-, -, -, hr⟩ |
      ⟨hle, hsend, -⟩
    · rw [hr]
    · rw [hr]
    · rcases hgate with hlt | ⟨htoken, hinit⟩
      · omega
      · exact absurd hinit (hsend htoken)

end CacheInvalidation.ProtocolHandler
