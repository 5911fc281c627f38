/-
# Gating of inbound messages

`HandleIncomingMessage` reaches the listener only through five gates: the bytes parse into an
initialized message, the validator accepts it, its major version is the protocol's, it carries
no `ConfigChangeMessage`, and its token matches the listener's whenever the listener has one.
A message stopped at a gate touches nothing but the quiet period, and that only through a
config change. A message that passes is handled by `acceptMessage`, which dispatches the data
sub-messages only to a listener that holds a token after the token-control upcall.
-/

import CacheInvalidation.ProtocolHandler

namespace CacheInvalidation

/-- What the handler reports to others: a statistic or a listener upcall. -/
def Event.IsReport : Event → Prop
  | .statistic _ | .upcall _ => True
  | _ => False

namespace ProtocolHandler

variable (setup : Setup)

/-- The gates after parsing that a message passes before any upcall. -/
def Admits (listener : Listener) (message : ServerToClientMessage) : Prop :=
  setup.incomingIsValid message = true ∧
    message.header.protocolVersion.majorVersion = setup.constants.protocolMajorVersion ∧
    message.configChangeMessage = none ∧
    (listener.clientToken ≠ "" → message.header.clientToken = listener.clientToken)

/-- The bytes parse into a message that passes every gate. -/
def Passes (listener : Listener) (incomingMessage : String) : Prop :=
  ∃ message, setup.parseFromString incomingMessage = some message ∧ Admits setup listener message

/-- The upcalls of the dispatch, as opposed to the token-control upcall. -/
def Upcall.IsDispatch : Upcall → Prop
  | .handleTokenChanged .. => False
  | _ => True

/-- What a stopped message may do: it leaves the listener alone, emits nothing but statistics and
the setting of a quiet period (so no upcall), and changes the handler only by that quiet period,
set by a valid config change of the right version. -/
def Stopped (listener : Listener) (h : ProtocolHandler) (incomingMessage : String)
    (result : ProtocolHandler × Listener × List Event) : Prop :=
  result.2.1 = listener ∧
    (∀ e ∈ result.2.2, (∃ recorded, e = .statistic recorded) ∨ ∃ t, e = .quietPeriodSet t) ∧
    (result.1 = h ∨ ∃ message delay, setup.parseFromString incomingMessage = some message ∧
      setup.incomingIsValid message = true ∧
      message.header.protocolVersion.majorVersion = setup.constants.protocolMajorVersion ∧
      message.configChangeMessage = some ⟨some delay⟩ ∧
      result.1 = { h with nextMessageSendTimeMs := h.now + delay })

theorem checkServerToken_fst (listener : Listener) (serverToken : String) :
    (checkServerToken listener serverToken).1 = true ↔
      (listener.clientToken ≠ "" → serverToken = listener.clientToken) := by
  unfold checkServerToken
  split_ifs with h₁ h₂ <;> simp_all [eq_comm]

/-- What `HandleIncomingMessage` can do: stop the message at a gate, changing nothing and
recording only statistics; honour a config change that passed validation and the version check
by setting the quiet period; or hand a message that passes every gate, whole, to
`acceptMessage`. -/
theorem handleIncomingMessage_cases (listener : Listener) (tokenAfterControl : String)
    (h : ProtocolHandler) (incomingMessage : String) :
    let r := handleIncomingMessage setup listener tokenAfterControl h incomingMessage
    (¬ Passes setup listener incomingMessage ∧ r.1 = h ∧ r.2.1 = listener ∧
      ∀ e ∈ r.2.2, ∃ recorded, e = .statistic recorded) ∨
    (∃ message delay, setup.parseFromString incomingMessage = some message ∧
      setup.incomingIsValid message = true ∧
      message.header.protocolVersion.majorVersion = setup.constants.protocolMajorVersion ∧
      message.configChangeMessage = some ⟨some delay⟩ ∧
      r = ({ h with nextMessageSendTimeMs := h.now + delay }, listener,
        [.statistic (.receivedMessage .total), .quietPeriodSet (h.now + delay)])) ∨
    (∃ message, setup.parseFromString incomingMessage = some message ∧
      Admits setup listener message ∧
      r = let a := acceptMessage listener tokenAfterControl h message
        (a.1, a.2.1, .statistic (.receivedMessage .total) :: a.2.2)) := by
  unfold handleIncomingMessage
  rcases hparse : setup.parseFromString incomingMessage with _ | message
  · refine .inl ⟨fun hpass => ?_, rfl, rfl, by simp⟩
    obtain ⟨_, hsome, -⟩ := hpass
    rw [hparse] at hsome; cases hsome
  have hnot : ¬ Admits setup listener message → ¬ Passes setup listener incomingMessage := by
    rintro hna ⟨_, hsome, ha⟩
    rw [hparse] at hsome; cases hsome; exact hna ha
  dsimp only
  by_cases hvalid : setup.incomingIsValid message = false
  · rw [if_pos hvalid]
    refine .inl ⟨hnot fun ha => ?_, rfl, rfl, by simp⟩
    obtain ⟨hv, -⟩ := ha
    rw [hv] at hvalid; cases hvalid
  rw [if_neg hvalid]
  by_cases hversion :
      message.header.protocolVersion.majorVersion ≠ setup.constants.protocolMajorVersion
  · rw [if_pos hversion]
    refine .inl ⟨hnot fun ha => ?_, rfl, rfl, by simp⟩
    obtain ⟨-, hv, -⟩ := ha
    exact hversion hv
  rw [if_neg hversion]
  rw [Bool.not_eq_false] at hvalid
  rw [not_not] at hversion
  rcases hconfig : message.configChangeMessage with _ | ⟨_ | delay⟩
  · dsimp only
    by_cases hko : (checkServerToken listener message.header.clientToken).1 = false
    · rw [if_pos hko]
      refine .inl ⟨hnot fun ha => ?_, rfl, rfl, ?_⟩
      · obtain ⟨-, -, -, htoken⟩ := ha
        rw [← Bool.not_eq_true, checkServerToken_fst] at hko; exact hko htoken
      · unfold checkServerToken at hko ⊢
        split_ifs at hko ⊢; simp
    · rw [if_neg hko]
      exact .inr (.inr ⟨message, rfl, ⟨hvalid, hversion, hconfig,
        (checkServerToken_fst _ _).mp (by simpa using hko)⟩, rfl⟩)
  · refine .inl ⟨hnot fun ha => ?_, rfl, rfl, by simp⟩
    obtain ⟨-, -, hc, -⟩ := ha
    rw [hconfig] at hc; cases hc
  · exact .inr (.inl ⟨message, delay, rfl, hvalid, hversion, hconfig, rfl⟩)

/-- A message that passes every gate is handed, whole, to `acceptMessage`. -/
theorem handleIncomingMessage_of_passes {listener : Listener} {tokenAfterControl : String}
    {h : ProtocolHandler} {incomingMessage : String} {message : ServerToClientMessage}
    (hparse : setup.parseFromString incomingMessage = some message)
    (hadmits : Admits setup listener message) :
    handleIncomingMessage setup listener tokenAfterControl h incomingMessage =
      let r := acceptMessage listener tokenAfterControl h message
      (r.1, r.2.1, .statistic (.receivedMessage .total) :: r.2.2) := by
  rcases handleIncomingMessage_cases setup listener tokenAfterControl h incomingMessage with
    ⟨hnot, -⟩ | ⟨_, _, hsome, -, -, hconfig, -⟩ | ⟨_, hsome, -, hr⟩
  · exact absurd ⟨message, hparse, hadmits⟩ hnot
  · rw [hparse] at hsome; cases hsome
    obtain ⟨-, -, hnone, -⟩ := hadmits
    rw [hnone] at hconfig; cases hconfig
  · rw [hparse] at hsome; cases hsome; exact hr

/-- A message stopped at one of the gates does no more than `Stopped` allows. -/
theorem handleIncomingMessage_of_not_passes {listener : Listener} {tokenAfterControl : String}
    {h : ProtocolHandler} {incomingMessage : String}
    (hstop : ¬ Passes setup listener incomingMessage) :
    Stopped setup listener h incomingMessage
      (handleIncomingMessage setup listener tokenAfterControl h incomingMessage) := by
  rcases handleIncomingMessage_cases setup listener tokenAfterControl h incomingMessage with
    ⟨-, hr, hlistener, hev⟩ | ⟨message, delay, hparse, hvalid, hversion, hconfig, hr⟩ |
    ⟨message, hparse, hadmits, -⟩
  · exact ⟨hlistener, fun e he => .inl (hev e he), .inl hr⟩
  · rw [hr]
    exact ⟨rfl, by simp, .inr ⟨message, delay, hparse, hvalid, hversion, hconfig, rfl⟩⟩
  · exact absurd ⟨message, hparse, hadmits⟩ hstop

/-! ## What an accepted message does -/

/-- An accepted message raises the last known server time to the message's, never lowers it,
and changes nothing else of the handler. -/
theorem acceptMessage_handler (listener : Listener) (tokenAfterControl : String)
    (h : ProtocolHandler) (message : ServerToClientMessage) :
    (acceptMessage listener tokenAfterControl h message).1 =
      { h with
        lastKnownServerTimeMs := max h.lastKnownServerTimeMs message.header.serverTimeMs } := by
  unfold acceptMessage
  dsimp only
  split_ifs with hlt
  · rw [Int.max_eq_right (Int.le_of_lt hlt)]
  · rw [Int.max_eq_left (Int.not_lt.mp hlt)]

/-- The token-control upcall is the only one outside the dispatch. -/
theorem not_isDispatch_of_tokenControl {listener : Listener} {tokenAfterControl : String}
    {header : ServerMessageHeader} {message : ServerToClientMessage} {call : Upcall}
    (h : Event.upcall call ∈ (tokenControl listener tokenAfterControl header message).2) :
    ¬ Upcall.IsDispatch call := by
  unfold tokenControl at h
  split at h <;> simp at h
  subst h; simp [Upcall.IsDispatch]

/-- The dispatch upcalls of an accepted message reach only a listener that holds a token after
the token-control upcall. -/
theorem acceptMessage_dispatch {listener : Listener} {tokenAfterControl : String}
    {h : ProtocolHandler} {message : ServerToClientMessage} {call : Upcall}
    (hcall : Event.upcall call ∈ (acceptMessage listener tokenAfterControl h message).2.2)
    (hdispatch : Upcall.IsDispatch call) :
    (acceptMessage listener tokenAfterControl h message).2.1.clientToken ≠ "" := by
  unfold acceptMessage at hcall ⊢
  dsimp only at hcall ⊢
  intro htoken
  simp only [htoken, ite_true, List.append_nil, List.mem_cons, reduceCtorEq, false_or] at hcall
  exact not_isDispatch_of_tokenControl hcall hdispatch

/-- `HandleIncomingMessage` makes an upcall only for a message that passes all five gates; it
makes a dispatch upcall only if the listener holds a token once the token-control upcall has
returned; and a message stopped at a gate leaves the listener, the server time, the batches and
the message id alone, changing at most the quiet period, through a config change that passed
validation and the version check. -/
theorem handleIncomingMessage_gated (listener : Listener) (tokenAfterControl : String)
    (h : ProtocolHandler) (incomingMessage : String) :
    ((∃ call, Event.upcall call ∈
        (handleIncomingMessage setup listener tokenAfterControl h incomingMessage).2.2) →
      Passes setup listener incomingMessage) ∧
    (∀ call, Event.upcall call ∈
        (handleIncomingMessage setup listener tokenAfterControl h incomingMessage).2.2 →
      Upcall.IsDispatch call →
      (handleIncomingMessage setup listener tokenAfterControl h incomingMessage).2.1.clientToken
        ≠ "") ∧
    (¬ Passes setup listener incomingMessage →
      Stopped setup listener h incomingMessage
        (handleIncomingMessage setup listener tokenAfterControl h incomingMessage)) := by
  by_cases hpass : Passes setup listener incomingMessage
  · obtain ⟨message, hparse, hadmits⟩ := hpass
    rw [handleIncomingMessage_of_passes setup hparse hadmits]
    refine ⟨fun _ => ⟨message, hparse, hadmits⟩, fun call hcall hdispatch => ?_,
      fun hnot => absurd ⟨message, hparse, hadmits⟩ hnot⟩
    simp only [List.mem_cons, reduceCtorEq, false_or] at hcall
    exact acceptMessage_dispatch hcall hdispatch
  · have hstop :=
      @handleIncomingMessage_of_not_passes setup listener tokenAfterControl h incomingMessage hpass
    have hno : ∀ call, Event.upcall call ∉
        (handleIncomingMessage setup listener tokenAfterControl h incomingMessage).2.2 :=
      fun call hcall => by rcases hstop.2.1 _ hcall with ⟨_, he⟩ | ⟨_, he⟩ <;> cases he
    exact ⟨fun ⟨call, hcall⟩ => absurd hcall (hno call), fun call hcall => absurd hcall (hno call),
      fun _ => hstop⟩

/-! ## What an inbound message can emit -/

theorem dispatch_isReport (header : ServerMessageHeader) (message : ServerToClientMessage) :
    ∀ e ∈ dispatch header message, e.IsReport := by
  intro e he
  simp only [dispatch, List.mem_append] at he
  rcases he with ((he | he) | he) | he <;> split at he <;> simp at he <;>
    rcases he with rfl | rfl <;> trivial

/-- An accepted message is announced first; then come only statistics and upcalls. -/
theorem acceptMessage_events (listener : Listener) (tokenAfterControl : String)
    (h : ProtocolHandler) (message : ServerToClientMessage) :
    ∃ rest, (acceptMessage listener tokenAfterControl h message).2.2 =
      .accepted message.header :: rest ∧ ∀ e ∈ rest, e.IsReport := by
  have hcontrol : ∀ e ∈ (tokenControl listener tokenAfterControl
      ⟨message.header.clientToken, message.header.registrationSummary⟩ message).2, e.IsReport := by
    unfold tokenControl; split <;> simp [Event.IsReport]
  simp only [acceptMessage]
  split
  · exact ⟨_, rfl, hcontrol⟩
  · refine ⟨_, rfl, fun e he => ?_⟩
    rcases List.mem_append.mp he with he | he
    · exact hcontrol e he
    · exact dispatch_isReport _ _ e he

/-- What `HandleIncomingMessage` does to the handler and emits: nothing but statistics; the
quiet period set from a config change; or the message accepted, raising the last known server
time, announced, and followed only by statistics and upcalls. -/
theorem handleIncomingMessage_effect (listener : Listener) (tokenAfterControl : String)
    (h : ProtocolHandler) (incomingMessage : String) :
    let r := handleIncomingMessage setup listener tokenAfterControl h incomingMessage
    (r.1 = h ∧ ∀ e ∈ r.2.2, ∃ recorded, e = .statistic recorded) ∨
    (∃ delay, r.1 = { h with nextMessageSendTimeMs := h.now + delay } ∧
      r.2.2 = [.statistic (.receivedMessage .total), .quietPeriodSet (h.now + delay)]) ∨
    (∃ (message : ServerToClientMessage) (rest : List Event),
      r.1 = { h with
        lastKnownServerTimeMs := max h.lastKnownServerTimeMs message.header.serverTimeMs } ∧
      r.2.2 = .statistic (.receivedMessage .total) :: .accepted message.header :: rest ∧
      ∀ e ∈ rest, e.IsReport) := by
  rcases handleIncomingMessage_cases setup listener tokenAfterControl h incomingMessage with
    ⟨-, hr, -, hev⟩ | ⟨_, delay, -, -, -, -, hr⟩ | ⟨message, -, -, hr⟩ <;> dsimp only <;> rw [hr]
  · exact .inl ⟨rfl, hev⟩
  · exact .inr (.inl ⟨delay, rfl, rfl⟩)
  · obtain ⟨rest, hevents, hrest⟩ := acceptMessage_events listener tokenAfterControl h message
    exact .inr (.inr ⟨message, rest, acceptMessage_handler listener tokenAfterControl h message,
      by dsimp only; rw [hevents], hrest⟩)

end CacheInvalidation.ProtocolHandler
