/-
# What reaches the transport

Two properties of the messages `SendMessageToServer` hands to the network.

The session gate: a message goes out only if it carries an initialize message, or if its header
carries the listener's client token, which is then non-empty. It goes out only after the
validator has accepted it, with the header from `InitClientHeader` and the pending batches
already drained into it (`sent_passes_session_gate`).

The message ids: `message_id_` is a C++ `int`, advanced twice for each message assembled, and
`InitClientHeader` writes its value, in decimal, into the header. So the i-th message assembled
in a run carries the starting value plus 2i, read as a 32-bit int (`messageIds_run`). While the
counter stays at or below `INT_MAX` the ids grow and never repeat (`messageIds_of_run`). The
counter does not stop there. From the constructor's value 1, the message after the one with id
`INT_MAX` carries `-INT_MAX`, and the id 1 comes back after 2^31 assemblies
(`messageId_reused_after_overflow`). Signed overflow is undefined in C++; the model wraps, as
two's-complement hardware does. Under any reading, an `int` has only 2^32 values, so the ids
cannot stay distinct for ever.
-/

import CacheInvalidation.ProtocolHandler.Runs

namespace CacheInvalidation.ProtocolHandler

variable (setup : Setup)

/-! ## The session gate -/

/-- Every message `SendMessageToServer` hands to the transport has passed the session gate and
the validator. It carries an initialize message, or its header carries the listener's client
token at send time, which is then non-empty. The validator accepted it exactly as it is sent:
with the header written by `InitClientHeader`, and with the pending acks, registrations and
subtrees drained into it after the builder's own. -/
theorem sent_passes_session_gate (listener : Listener) (h : ProtocolHandler)
    (builder m : ClientToServerMessage)
    (hsent : .sent m ∈ (sendMessageToServer setup listener h builder).2) :
    (m.initializeMessage ≠ none ∨ listener.clientToken ≠ "" ∧
        ∃ header, m.header = some header ∧ header.clientToken = some listener.clientToken) ∧
      setup.outgoingIsValid m = true ∧
      m.header = some (initClientHeader setup listener h).1 ∧
      m.acks = builder.acks ++ h.ackedInvalidations.elements ∧
      m.registrations = builder.registrations ++ h.pendingRegistrationList ∧
      m.subtrees = builder.subtrees ++ h.registrationSubtrees.elements := by
  rcases sendMessageToServer_cases setup listener h builder with ⟨-, hr⟩ | ⟨-, -, -, hr⟩ |
    ⟨-, hgate, m', stats, hheader, hinit, -, hacks, hregistrations, hsubtrees, hstats, -, hr⟩
  · rw [hr] at hsent; cases hsent
  · rw [hr] at hsent; simp at hsent
  rw [hr] at hsent
  obtain ⟨rfl, hvalid⟩ : m = m' ∧ setup.outgoingIsValid m' = true := by
    rcases List.mem_append.mp hsent with hstat | hsent
    · obtain ⟨_, hstat⟩ := hstats _ hstat; cases hstat
    · split at hsent <;> simp_all
  refine ⟨?_, hvalid, hheader, hacks, hregistrations, hsubtrees⟩
  by_cases htoken : listener.clientToken = ""
  · exact .inl (hinit ▸ hgate htoken)
  · exact .inr ⟨htoken, _, hheader, by simp [initClientHeader, htoken]⟩

/-- The builder `SendInitializeMessage` hands over, for a client of type 0 with an empty
nonce. -/
def sampleInitialize : ClientToServerMessage :=
  { initializeMessage := some ⟨0, ⟨0, ""⟩, "", .byteBased⟩ }

/-- The initialize message of `sampleClient`, which has no token yet, goes out. -/
theorem sampleClient_initialize_sent : ∃ m, .sent m ∈ (sendMessageToServer sampleSetup
      sampleClient.listener sampleClient.handler sampleInitialize).2 ∧
    ((m.initializeMessage ≠ none ∨ sampleClient.listener.clientToken ≠ "" ∧
        ∃ header, m.header = some header ∧
          header.clientToken = some sampleClient.listener.clientToken) ∧
      sampleSetup.outgoingIsValid m = true ∧
      m.header =
        some (initClientHeader sampleSetup sampleClient.listener sampleClient.handler).1 ∧
      m.acks = sampleInitialize.acks ++ sampleClient.handler.ackedInvalidations.elements ∧
      m.registrations =
        sampleInitialize.registrations ++ sampleClient.handler.pendingRegistrationList ∧
      m.subtrees =
        sampleInitialize.subtrees ++ sampleClient.handler.registrationSubtrees.elements) :=
  have hsent : .sent _ ∈ (sendMessageToServer sampleSetup sampleClient.listener
      sampleClient.handler sampleInitialize).2 :=
    List.Mem.tail _ (List.Mem.tail _ (List.Mem.head _))
  ⟨_, hsent, sent_passes_session_gate sampleSetup _ _ _ _ hsent⟩

/-! ## Message ids -/

/-- The ids of the messages assembled in a trace, in order, as the integers their decimal
strings denote. -/
def assembledIds (trace : List Event) : List Int :=
  trace.filterMap fun
    | .assembled m => m.header.map (·.messageId)
    | _ => none

/-- The ids of the messages handed to the transport in a trace, in order. -/
def sentIds (trace : List Event) : List Int :=
  trace.filterMap fun
    | .sent m => m.header.map (·.messageId)
    | _ => none

@[simp] theorem assembledIds_append (l₁ l₂ : List Event) :
    assembledIds (l₁ ++ l₂) = assembledIds l₁ ++ assembledIds l₂ :=
  List.filterMap_append _ _ _

@[simp] theorem sentIds_append (l₁ l₂ : List Event) :
    sentIds (l₁ ++ l₂) = sentIds l₁ ++ sentIds l₂ :=
  List.filterMap_append _ _ _

/-- Statistics and upcalls carry no message. -/
theorem ids_of_isReport {events : List Event} (h : ∀ e ∈ events, e.IsReport) :
    assembledIds events = [] ∧ sentIds events = [] := by
  constructor <;> refine List.filterMap_eq_nil_iff.mpr fun e he => ?_ <;>
    cases e <;> first | rfl | exact absurd (h _ he) id

/-- What one call does to the ids. Either it assembles nothing and leaves `message_id_`, or it
assembles one message with the current id and advances `message_id_` twice. Either way it hands
over only what it assembled. -/
def IdsAdvance (before after : BitVec 32) (events : List Event) : Prop :=
  (sentIds events).Sublist (assembledIds events) ∧
    (assembledIds events = [] ∧ after = before ∨
      assembledIds events = [before.toInt] ∧ after = before + 1 + 1)

theorem idsAdvance_of_no_ids {m : BitVec 32} {events : List Event}
    (hassembled : assembledIds events = []) (hsent : sentIds events = []) :
    IdsAdvance m m events :=
  ⟨hsent ▸ List.nil_sublist _, .inl ⟨hassembled, rfl⟩⟩

theorem idsAdvance_sendMessageToServer (listener : Listener) (h : ProtocolHandler)
    (builder : ClientToServerMessage) :
    IdsAdvance h.messageId (sendMessageToServer setup listener h builder).1.messageId
      (sendMessageToServer setup listener h builder).2 := by
  rcases sendMessageToServer_cases setup listener h builder with ⟨-, hr⟩ | ⟨-, -, -, hr⟩ |
    ⟨-, -, m, stats, hheader, -, -, -, -, -, hstats, hr₁, hr₂⟩
  · rw [hr]; exact idsAdvance_of_no_ids rfl rfl
  · rw [hr]; exact idsAdvance_of_no_ids rfl rfl
  obtain ⟨hassembled, hsent⟩ := ids_of_isReport fun e he => by
    obtain ⟨_, rfl⟩ := hstats e he; trivial
  rw [hr₁, hr₂, IdsAdvance, assembledIds_append, sentIds_append, hassembled, hsent]
  refine ⟨?_, .inr ⟨?_, rfl⟩⟩ <;> split <;>
    simp [assembledIds, sentIds, hheader, initClientHeader]

/-- Every step of a client moves the ids as `IdsAdvance` says. -/
theorem idsAdvance_step {c c' : Client} {input : Input} {events : List Event}
    (hs : c.step setup input = some (c', events)) :
    IdsAdvance c.handler.messageId c'.handler.messageId events := by
  cases input with
  | sendInitializeMessage clientType applicationClientId nonce =>
    cases hs
    obtain ⟨builder, -, -, -, -, hr⟩ :=
      sendInitializeMessage_eq setup c.listener c.handler clientType applicationClientId nonce
    rw [hr]
    exact idsAdvance_sendMessageToServer setup c.listener c.handler builder
  | sendInfoMessage performanceCounters configParams =>
    cases hs
    obtain ⟨builder, -, -, -, -, hr⟩ :=
      sendInfoMessage_eq setup c.listener c.handler performanceCounters configParams
    rw [hr]
    exact idsAdvance_sendMessageToServer setup c.listener c.handler builder
  | sendRegistrations objectIds opType =>
    obtain ⟨⟨h', events'⟩, hr, heq⟩ := Option.map_eq_some'.mp hs
    cases heq
    obtain ⟨s, -, rfl, rfl⟩ := sendRegistrations_eq_some setup hr
    exact idsAdvance_of_no_ids (by simp [assembledIds, List.filterMap_map, Function.comp_def])
      (by simp [sentIds, List.filterMap_map, Function.comp_def])
  | sendInvalidationAck invalidation =>
    obtain ⟨⟨h', events'⟩, hr, heq⟩ := Option.map_eq_some'.mp hs
    cases heq
    obtain ⟨s, -, rfl, rfl⟩ := sendInvalidationAck_eq_some setup hr
    exact idsAdvance_of_no_ids rfl rfl
  | sendRegistrationSyncSubtree subtree =>
    obtain ⟨⟨h', events'⟩, hr, heq⟩ := Option.map_eq_some'.mp hs
    cases heq
    obtain ⟨s, -, rfl, rfl⟩ := sendRegistrationSyncSubtree_eq_some setup hr
    exact idsAdvance_of_no_ids rfl rfl
  | handleIncomingMessage incomingMessage tokenAfterControl =>
    cases hs
    rcases handleIncomingMessage_effect setup c.listener tokenAfterControl c.handler
      incomingMessage with ⟨hr, hev⟩ | ⟨delay, hr, hev⟩ |
        ⟨message, rest, hr, hev, hrest⟩ <;> dsimp only <;> rw [hr]
    · obtain ⟨hassembled, hsent⟩ := ids_of_isReport fun e he => by
        obtain ⟨_, rfl⟩ := hev e he; trivial
      exact idsAdvance_of_no_ids hassembled hsent
    · rw [hev]; exact idsAdvance_of_no_ids rfl rfl
    · rw [hev]; exact idsAdvance_of_no_ids (ids_of_isReport hrest).1 (ids_of_isReport hrest).2
  | runBatchingTask w =>
    obtain ⟨⟨h', events'⟩, hr, heq⟩ := Option.map_eq_some'.mp hs
    cases heq
    obtain ⟨-, -, rfl, rfl⟩ := runBatchingTask_eq_some setup hr
    have hsent := idsAdvance_sendMessageToServer setup c.listener
      { c.handler with operationScheduler := c.handler.operationScheduler.dequeue w } {}
    simpa [IdsAdvance, assembledIds, sentIds] using hsent
  | advanceTo time =>
    obtain ⟨s, -, heq⟩ := Option.map_eq_some'.mp hs
    cases heq
    exact idsAdvance_of_no_ids rfl rfl
  | updateListener listener =>
    cases hs
    exact idsAdvance_of_no_ids rfl rfl

theorem ofNat_two_mul_succ (n : Nat) :
    BitVec.ofNat 32 (2 * (n + 1)) = BitVec.ofNat 32 (2 * n) + 1 + 1 := by
  apply BitVec.eq_of_toNat_eq
  have hone : (1 : BitVec 32).toNat = 1 := rfl
  simp only [BitVec.toNat_add, BitVec.toNat_ofNat, hone]
  omega

/-- Adding to a 32-bit int whose sum stays at or below `INT_MAX`, 2147483647, does not wrap. -/
theorem toInt_add_ofNat (x : BitVec 32) (k : Nat) (hk : x.toInt + k ≤ 2147483647) :
    (x + BitVec.ofNat 32 k).toInt = x.toInt + k := by
  have hx := x.isLt
  rw [BitVec.toInt_eq_toNat_cond, BitVec.toInt_eq_toNat_cond] at *
  simp only [BitVec.toNat_add, BitVec.toNat_ofNat] at *
  split_ifs at * <;> omega

/-- Over every run, the i-th message assembled carries the starting `message_id_` plus 2i, read
as a 32-bit int. The run leaves `message_id_` advanced by twice the number of assemblies, and
every message it hands to the transport is one it assembled. -/
theorem messageIds_run {c₀ c : Client} {trace : List Event} (h : Run setup c₀ trace c) :
    assembledIds trace = (List.range (assembledIds trace).length).map
        (fun i => (c₀.handler.messageId + BitVec.ofNat 32 (2 * i)).toInt) ∧
      c.handler.messageId =
        c₀.handler.messageId + BitVec.ofNat 32 (2 * (assembledIds trace).length) ∧
      (sentIds trace).Sublist (assembledIds trace) := by
  induction h with
  | nil => exact ⟨rfl, by simp [assembledIds], List.nil_sublist _⟩
  | @step trace c c' input events _ hs ih =>
    obtain ⟨hids, hmessageId, hsub⟩ := ih
    obtain ⟨hsub', hnone | hone⟩ := idsAdvance_step setup hs
    · obtain ⟨hassembled, hafter⟩ := hnone
      rw [hassembled] at hsub'
      rw [assembledIds_append, sentIds_append, hassembled, List.append_nil, hafter,
        List.eq_nil_of_sublist_nil hsub', List.append_nil]
      exact ⟨hids, hmessageId, hsub⟩
    · obtain ⟨hassembled, hafter⟩ := hone
      rw [hassembled, hmessageId] at hsub'
      rw [assembledIds_append, sentIds_append, hassembled, List.length_append,
        List.length_singleton, List.range_succ, List.map_append, ← hids, hafter, hmessageId,
        ofNat_two_mul_succ]
      exact ⟨by simp, by simp only [BitVec.add_assoc], hsub.append hsub'⟩

/-- Over every run, from any handler, the i-th message assembled carries the starting
`message_id_` plus 2i, read as a 32-bit int, and the run advances `message_id_` by twice the
number of assemblies; every message handed to the transport is one of those assembled. If no
increment in the run passes `INT_MAX`, the ids are exactly the starting value plus 0, 2, 4, ...,
so they strictly increase in assembly order and the messages handed to the transport never
repeat an id. -/
theorem messageIds_of_run {c₀ c : Client} {trace : List Event} (h : Run setup c₀ trace c) :
    assembledIds trace = (List.range (assembledIds trace).length).map
        (fun i => (c₀.handler.messageId + BitVec.ofNat 32 (2 * i)).toInt) ∧
      c.handler.messageId =
        c₀.handler.messageId + BitVec.ofNat 32 (2 * (assembledIds trace).length) ∧
      (sentIds trace).Sublist (assembledIds trace) ∧
      (c₀.handler.messageId.toInt + 2 * (assembledIds trace).length ≤ 2147483647 →
        assembledIds trace = (List.range (assembledIds trace).length).map
            (fun i : Nat => c₀.handler.messageId.toInt + 2 * (i : Int)) ∧
          (assembledIds trace).Pairwise (· < ·) ∧ (sentIds trace).Nodup) := by
  obtain ⟨hids, hmessageId, hsub⟩ := messageIds_run setup h
  refine ⟨hids, hmessageId, hsub, fun hfits => ?_⟩
  have hexact : assembledIds trace = (List.range (assembledIds trace).length).map
      (fun i : Nat => c₀.handler.messageId.toInt + 2 * (i : Int)) := by
    refine hids.trans (List.map_congr_left fun i hi => ?_)
    rw [List.mem_range] at hi
    rw [toInt_add_ofNat _ _ (by push_cast; omega)]
    push_cast; rfl
  have hincreasing : (assembledIds trace).Pairwise (· < ·) := by
    rw [hexact, List.pairwise_map]
    exact (List.pairwise_lt_range _).imp fun hij => by omega
  exact ⟨hexact, hincreasing, hincreasing.nodup.sublist hsub⟩

/-- Two initialize messages from `sampleClient` carry the ids 1 and 3. -/
theorem sampleClient_messageIds : ∃ (c : Client) (trace : List Event),
    Run sampleSetup sampleClient trace c ∧ assembledIds trace = [1, 3] ∧
    (assembledIds trace = (List.range (assembledIds trace).length).map
        (fun i => (sampleClient.handler.messageId + BitVec.ofNat 32 (2 * i)).toInt) ∧
      c.handler.messageId =
        sampleClient.handler.messageId + BitVec.ofNat 32 (2 * (assembledIds trace).length) ∧
      (sentIds trace).Sublist (assembledIds trace) ∧
      (sampleClient.handler.messageId.toInt + 2 * (assembledIds trace).length ≤ 2147483647 →
        assembledIds trace = (List.range (assembledIds trace).length).map
            (fun i : Nat => sampleClient.handler.messageId.toInt + 2 * (i : Int)) ∧
          (assembledIds trace).Pairwise (· < ·) ∧ (sentIds trace).Nodup)) :=
  have hrun := @Run.step _ _ _ _ _ (.sendInitializeMessage 0 ⟨0, ""⟩ "") _
    (@Run.step _ _ _ _ _ (.sendInitializeMessage 0 ⟨0, ""⟩ "") _
      (@Run.nil sampleSetup sampleClient) rfl) rfl
  ⟨_, _, hrun, rfl, messageIds_of_run sampleSetup hrun⟩

/-! ## Past `INT_MAX` -/

/-- Under `sampleSetup`, a `SendInitializeMessage` outside a quiet period hands one message to
the transport, with the current id, and advances `message_id_` twice. -/
theorem sampleSetup_initialize_step (c : Client)
    (hquiet : c.handler.nextMessageSendTimeMs ≤ c.handler.now) :
    ∃ c' events,
      c.step sampleSetup (.sendInitializeMessage 0 ⟨0, ""⟩ "") = some (c', events) ∧
      sentIds events = [c.handler.messageId.toInt] ∧
      c'.handler.messageId = c.handler.messageId + 1 + 1 ∧
      c'.handler.nextMessageSendTimeMs ≤ c'.handler.now := by
  obtain ⟨builder, hinit, -, -, -, hr⟩ :=
    sendInitializeMessage_eq sampleSetup c.listener c.handler 0 ⟨0, ""⟩ ""
  refine ⟨⟨_, c.listener⟩, _, by rw [Client.step, hr], ?_⟩
  rcases sendMessageToServer_cases sampleSetup c.listener c.handler builder with
    ⟨hlt, -⟩ | ⟨-, -, hnone, -⟩ |
    ⟨-, -, m, stats, hheader, -, -, -, -, -, hstats, hr₁, hr₂⟩
  · omega
  · simp [hnone] at hinit
  obtain ⟨-, hsent⟩ := ids_of_isReport fun e he => by
    obtain ⟨_, rfl⟩ := hstats e he; trivial
  rw [hr₁, hr₂, sentIds, List.filterMap_cons, ← sentIds, sentIds_append, hsent]
  refine ⟨?_, rfl, hquiet⟩
  simp [sentIds, hheader, initClientHeader, sampleSetup]

/-- Under `sampleSetup`, any number of `SendInitializeMessage` calls outside a quiet period extend
a run, advancing `message_id_` twice each. -/
theorem sampleSetup_initialize_run {c₀ c : Client} {trace : List Event}
    (hrun : Run sampleSetup c₀ trace c)
    (hquiet : c.handler.nextMessageSendTimeMs ≤ c.handler.now)
    (n : Nat) :
    ∃ c' more, Run sampleSetup c₀ (trace ++ more) c' ∧
      c'.handler.messageId = c.handler.messageId + BitVec.ofNat 32 (2 * n) ∧
      c'.handler.nextMessageSendTimeMs ≤ c'.handler.now := by
  induction n with
  | zero => exact ⟨c, [], by rwa [List.append_nil], by simp, hquiet⟩
  | succ n ih =>
    obtain ⟨c', more, hrun', hmessageId, hquiet'⟩ := ih
    obtain ⟨c'', events, hstep, -, hmessageId', hquiet''⟩ :=
      sampleSetup_initialize_step c' hquiet'
    refine ⟨c'', more ++ events, by rw [← List.append_assoc]; exact .step hrun' hstep, ?_,
      hquiet''⟩
    rw [hmessageId', hmessageId, ofNat_two_mul_succ]
    simp only [BitVec.add_assoc]

/-- The ids do not keep growing, nor stay distinct, in every run from the constructor's
`message_id_` of 1. After 2^31 + 1 initialize messages from `sampleClient`, the first and the
last message handed to the transport both carry the id 1. -/
theorem messageId_reused_after_overflow : ¬ ∀ (setup : Setup) (c₀ c : Client)
    (trace : List Event), Run setup c₀ trace c → c₀.handler.messageId = 1 →
      (assembledIds trace).Pairwise (· < ·) ∧ (sentIds trace).Nodup := by
  intro hdistinct
  obtain ⟨c₁, first, hstep₁, hsent₁, hmessageId₁, hquiet₁⟩ :=
    sampleSetup_initialize_step sampleClient (by decide)
  obtain ⟨c₂, more, hrun₂, hmessageId₂, hquiet₂⟩ :=
    sampleSetup_initialize_run (.step .nil hstep₁) hquiet₁ (2 ^ 31 - 1)
  obtain ⟨c₃, last, hstep₃, hsent₃, -, -⟩ := sampleSetup_initialize_step c₂ hquiet₂
  have hnodup := (hdistinct sampleSetup sampleClient c₃ _ (.step hrun₂ hstep₃) rfl).2
  have hlast : c₂.handler.messageId.toInt = 1 := by
    rw [hmessageId₂, hmessageId₁]; decide
  rw [sentIds_append, sentIds_append, sentIds_append, hsent₁, hsent₃, hlast] at hnodup
  exact (List.nodup_cons.mp hnodup).1 (List.mem_append_right _ (List.mem_singleton_self _))

end CacheInvalidation.ProtocolHandler
