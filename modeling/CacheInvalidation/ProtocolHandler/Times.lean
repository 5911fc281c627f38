/-
# The quiet period and the server time

Two readings of a recorded run's inputs, each following one field of the handler.

The quiet period: an inbound message that parses, passes validation and the major-version check
and carries a `ConfigChangeMessage` with a delay sets the end of the quiet period to the time it
is processed plus that delay, replacing whatever end was in force (`configChangeDelay`). A
message handed to the network is stamped with the clock at its send, and goes out only once the
end in force has passed. So it goes out no earlier than the time plus delay of the latest config
change before it (`sent_after_latest_quiet_period`), and a later config change with a shorter
delay ends a quiet period early (`quiet_period_shortened`).

The server time: a message that passes every gate (`admitted`) raises the last known server
time to its header's and never lowers it, and each assembled message is stamped with it
(`lastKnownServerTime_of_run`).
-/

import CacheInvalidation.ProtocolHandler.Steps

namespace CacheInvalidation.ProtocolHandler

variable (setup : Setup)

/-! ## What an inbound message asks for -/

instance (listener : Listener) (message : ServerToClientMessage) :
    Decidable (Admits setup listener message) :=
  inferInstanceAs (Decidable (_ ∧ _ ∧ _ ∧ _))

/-- The delay of the config change the bytes carry: they parse into a message that passes
validation and the major-version check and carries a `ConfigChangeMessage` with a
`next_message_delay_ms`. -/
def configChangeDelay (incomingMessage : String) : Option Int :=
  (setup.parseFromString incomingMessage).bind fun message =>
    if setup.incomingIsValid message = true ∧
        message.header.protocolVersion.majorVersion = setup.constants.protocolMajorVersion then
      message.configChangeMessage.bind (·.nextMessageDelayMs)
    else none

/-- The message the bytes parse into, if it passes every gate for the listener: validation, the
major version, no `ConfigChangeMessage`, and the token check. -/
def admitted (listener : Listener) (incomingMessage : String) : Option ServerToClientMessage :=
  (setup.parseFromString incomingMessage).filter fun message =>
    decide (Admits setup listener message)

/-- The delay of the config change a step processes, if any. -/
def Step.configDelay (s : Step) : Option Int :=
  match s.input with
  | .handleIncomingMessage incomingMessage _ => configChangeDelay setup incomingMessage
  | _ => none

/-- The inbound message a step accepts, if any. -/
def Step.accepted (s : Step) : Option ServerToClientMessage :=
  match s.input with
  | .handleIncomingMessage incomingMessage _ => admitted setup s.client.listener incomingMessage
  | _ => none

/-- The end of the quiet period after a step, from `u` before it: a config change sets it to the
clock plus its delay. -/
def Step.quietPeriodAfter (u : Int) (s : Step) : Int :=
  ((s.configDelay setup).map (s.client.handler.now + ·)).getD u

/-- The last known server time after a step, from `q` before it: an accepted message raises it
to its own. -/
def Step.serverTimeAfter (q : Int) (s : Step) : Int :=
  ((s.accepted setup).map (max q ·.header.serverTimeMs)).getD q

/-- The server times of the messages a recorded run accepts, in order. -/
def acceptedServerTimes (steps : List Step) : List Int :=
  steps.filterMap fun s => (s.accepted setup).map (·.header.serverTimeMs)

@[simp] theorem acceptedServerTimes_append (l₁ l₂ : List Step) :
    acceptedServerTimes setup (l₁ ++ l₂) =
      acceptedServerTimes setup l₁ ++ acceptedServerTimes setup l₂ :=
  List.filterMap_append _ _ _

theorem configChangeDelay_eq_some {incomingMessage : String} {delay : Int} :
    configChangeDelay setup incomingMessage = some delay ↔
      ∃ message, setup.parseFromString incomingMessage = some message ∧
        setup.incomingIsValid message = true ∧
        message.header.protocolVersion.majorVersion = setup.constants.protocolMajorVersion ∧
        message.configChangeMessage = some ⟨some delay⟩ := by
  unfold configChangeDelay
  constructor
  · intro h
    obtain ⟨message, hparse, h⟩ := Option.bind_eq_some.mp h
    split_ifs at h with hgate
    obtain ⟨⟨d⟩, hconfig, hd⟩ := Option.bind_eq_some.mp h
    obtain rfl : d = some delay := hd
    exact ⟨message, hparse, hgate.1, hgate.2, hconfig⟩
  · rintro ⟨message, hparse, hvalid, hversion, hconfig⟩
    simp [hparse, hvalid, hversion, hconfig]

theorem admitted_eq_none_iff (listener : Listener) (incomingMessage : String) :
    admitted setup listener incomingMessage = none ↔ ¬ Passes setup listener incomingMessage := by
  unfold admitted Passes
  rcases setup.parseFromString incomingMessage with _ | message <;> simp [Option.filter]

theorem admitted_of_admits {listener : Listener} {incomingMessage : String}
    {message : ServerToClientMessage}
    (hparse : setup.parseFromString incomingMessage = some message)
    (hadmits : Admits setup listener message) :
    admitted setup listener incomingMessage = some message := by
  simp [admitted, hparse, Option.filter, hadmits]

/-- What `HandleIncomingMessage` does to the two times: a config change that passes validation
and the version check sets the end of the quiet period to the clock plus its delay, a message
that passes every gate raises the last known server time to its own, and nothing else moves
either. -/
theorem handleIncomingMessage_times (listener : Listener) (tokenAfterControl : String)
    (h : ProtocolHandler) (incomingMessage : String) :
    let h' := (handleIncomingMessage setup listener tokenAfterControl h incomingMessage).1
    h'.nextMessageSendTimeMs =
        ((configChangeDelay setup incomingMessage).map (h.now + ·)).getD h.nextMessageSendTimeMs ∧
      h'.lastKnownServerTimeMs =
        ((admitted setup listener incomingMessage).map
          (max h.lastKnownServerTimeMs ·.header.serverTimeMs)).getD h.lastKnownServerTimeMs := by
  rcases hdelay : configChangeDelay setup incomingMessage with _ | delay
  · rcases handleIncomingMessage_cases setup listener tokenAfterControl h incomingMessage with
      ⟨hnot, hr, -⟩ | ⟨message, delay, hparse, hvalid, hversion, hconfig, -⟩ |
      ⟨message, hparse, hadmits, hr⟩
    · simp [hr, (admitted_eq_none_iff setup listener incomingMessage).mpr hnot]
    · have := (configChangeDelay_eq_some setup).mpr ⟨message, hparse, hvalid, hversion, hconfig⟩
      rw [hdelay] at this; cases this
    · rw [hr, admitted_of_admits setup hparse hadmits]
      constructor <;> simp [acceptMessage_handler]
  · obtain ⟨message, hparse, hvalid, hversion, hconfig⟩ :=
      (configChangeDelay_eq_some setup).mp hdelay
    have hnot : ¬ Passes setup listener incomingMessage := by
      rintro ⟨_, hsome, -, -, hnone, -⟩
      rw [hparse] at hsome; cases hsome; rw [hconfig] at hnone; cases hnone
    simp [handleIncomingMessage, hparse, hvalid, hversion, hconfig,
      (admitted_eq_none_iff setup listener incomingMessage).mpr hnot]

/-- What a step does to the two times: only an inbound message moves either, as
`handleIncomingMessage_times` says. -/
theorem times_step {c c' : Client} {input : Input} {events : List Event}
    (hs : c.step setup input = some (c', events)) :
    c'.handler.nextMessageSendTimeMs =
        Step.quietPeriodAfter setup c.handler.nextMessageSendTimeMs ⟨c, input, events⟩ ∧
      c'.handler.lastKnownServerTimeMs =
        Step.serverTimeAfter setup c.handler.lastKnownServerTimeMs ⟨c, input, events⟩ := by
  cases input with
  | sendInitializeMessage clientType applicationClientId nonce =>
    cases hs
    obtain ⟨builder, -, -, -, -, hr⟩ :=
      sendInitializeMessage_eq setup c.listener c.handler clientType applicationClientId nonce
    rw [hr]
    obtain ⟨-, htime, hquiet⟩ := sendMessageToServer_frame setup c.listener c.handler builder
    exact ⟨hquiet, htime⟩
  | sendInfoMessage performanceCounters configParams =>
    cases hs
    obtain ⟨builder, -, -, -, -, hr⟩ :=
      sendInfoMessage_eq setup c.listener c.handler performanceCounters configParams
    rw [hr]
    obtain ⟨-, htime, hquiet⟩ := sendMessageToServer_frame setup c.listener c.handler builder
    exact ⟨hquiet, htime⟩
  | sendRegistrations objectIds opType =>
    obtain ⟨⟨h', events'⟩, hr, heq⟩ := Option.map_eq_some'.mp hs
    cases heq
    obtain ⟨s, -, rfl, -⟩ := sendRegistrations_eq_some setup hr
    exact ⟨rfl, rfl⟩
  | sendInvalidationAck invalidation =>
    obtain ⟨⟨h', events'⟩, hr, heq⟩ := Option.map_eq_some'.mp hs
    cases heq
    obtain ⟨s, -, rfl, -⟩ := sendInvalidationAck_eq_some setup hr
    exact ⟨rfl, rfl⟩
  | sendRegistrationSyncSubtree subtree =>
    obtain ⟨⟨h', events'⟩, hr, heq⟩ := Option.map_eq_some'.mp hs
    cases heq
    obtain ⟨s, -, rfl, -⟩ := sendRegistrationSyncSubtree_eq_some setup hr
    exact ⟨rfl, rfl⟩
  | handleIncomingMessage incomingMessage tokenAfterControl =>
    cases hs
    exact handleIncomingMessage_times setup c.listener tokenAfterControl c.handler incomingMessage
  | runBatchingTask w =>
    obtain ⟨⟨h', events'⟩, hr, heq⟩ := Option.map_eq_some'.mp hs
    cases heq
    obtain ⟨-, -, rfl, -⟩ := runBatchingTask_eq_some setup hr
    obtain ⟨-, htime, hquiet⟩ := sendMessageToServer_frame setup c.listener
      { c.handler with operationScheduler := c.handler.operationScheduler.dequeue w } {}
    exact ⟨hquiet, htime⟩
  | advanceTo time =>
    obtain ⟨_, -, heq⟩ := Option.map_eq_some'.mp hs
    cases heq
    exact ⟨rfl, rfl⟩
  | updateListener listener =>
    cases hs
    exact ⟨rfl, rfl⟩

/-! ## The quiet period -/

/-- Steps that process no config change leave the end of the quiet period where it was. -/
theorem foldl_quietPeriodAfter {steps : List Step} (h : ∀ s ∈ steps, s.configDelay setup = none)
    (u : Int) : steps.foldl (Step.quietPeriodAfter setup) u = u := by
  induction steps with
  | nil => rfl
  | cons s rest ih =>
    rw [List.forall_mem_cons] at h
    rw [List.foldl_cons, Step.quietPeriodAfter, h.1]
    exact ih h.2

/-- In every recorded run, a message handed to the network goes out no earlier than the time at
which the latest config change before it was processed plus that change's delay, and is stamped
with the clock at its send. A send attempted before the end of the quiet period in force does
nothing: it records nothing and hands nothing over. -/
theorem sent_after_latest_quiet_period :
    (∀ (c₀ c : Client) (steps : List Step), Steps setup c₀ steps c →
      ∀ pre s mid s' post delay m, steps = pre ++ s :: mid ++ s' :: post →
        s.configDelay setup = some delay → (∀ s'' ∈ mid, s''.configDelay setup = none) →
        m ∈ sentMessages s'.events →
        s.client.handler.now + delay ≤ s'.client.handler.now ∧
          ∃ hd, m.header = some hd ∧ hd.clientTimeMs = s'.client.handler.now) ∧
    (∀ (listener : Listener) (h : ProtocolHandler) (builder : ClientToServerMessage),
      h.now < h.nextMessageSendTimeMs →
        sendMessageToServer setup listener h builder = (h, [])) := by
  refine ⟨fun c₀ c steps h pre s mid s' post delay m hsteps hdelay hmid hsent => ?_,
    fun listener h builder hlt => ?_⟩
  · obtain ⟨hbefore, c', hstep⟩ := h.split hsteps
    have hend : s'.client.handler.nextMessageSendTimeMs = s.client.handler.now + delay := by
      rw [Steps.view_eq (fun _ _ _ _ hs => (times_step setup hs).1) hbefore, List.foldl_append,
        List.foldl_cons, foldl_quietPeriodAfter setup hmid, Step.quietPeriodAfter, hdelay]
      rfl
    obtain ⟨hassembles, hheader⟩ := (step_messages setup hstep).header setup (.inr hsent)
    exact ⟨hend ▸ Step.quiet_of_assembles hassembles, _, hheader, rfl⟩
  · rcases sendMessageToServer_cases setup listener h builder with ⟨-, hr⟩ | ⟨hle, -⟩ | ⟨hle, -⟩
    · exact hr
    · omega
    · omega

/-- A quiet period does not last to its end when a later config change sets an earlier one:
after a change asking for 10 ms of quiet and then one asking for 1 ms, both at time 0, an
initialize message goes out at time 1. -/
theorem quiet_period_shortened :
    ¬ ∀ (setup : Setup) (c₀ c : Client) (steps : List Step), Steps setup c₀ steps c →
      ∀ pre s mid s' post delay m, steps = pre ++ s :: mid ++ s' :: post →
        s.configDelay setup = some delay → m ∈ sentMessages s'.events →
        s.client.handler.now + delay ≤ s'.client.handler.now := by
  intro h
  have hrun := @Steps.step _ _ _ _ _ (.sendInitializeMessage 0 ⟨0, ""⟩ "") _
    (@Steps.step _ _ _ _ _ (.advanceTo 1) _
      (@Steps.step _ _ _ _ _ (.handleIncomingMessage "qa" "") _
        (@Steps.step _ _ _ _ _ (.handleIncomingMessage "qaaaaaaaaaa" "") _
          (@Steps.nil sampleSetup sampleClient) rfl) rfl) rfl) rfl
  exact absurd (h _ _ _ _ hrun [] _ [_, _] _ [] 10 _ rfl rfl (List.mem_cons_self _ _))
    (by decide)

/-! ## The server time -/

theorem foldl_serverTimeAfter (steps : List Step) (q : Int) :
    steps.foldl (Step.serverTimeAfter setup) q = (acceptedServerTimes setup steps).foldl max q := by
  induction steps generalizing q with
  | nil => rfl
  | cons s rest ih =>
    rw [List.foldl_cons, ih]
    simp only [Step.serverTimeAfter, acceptedServerTimes, List.filterMap_cons]
    cases s.accepted setup <;> rfl

/-- The fold is the largest of `q :: l` (`List.max?`), so it bounds `q` and is one of them. -/
theorem le_foldl_max (q : Int) (l : List Int) : q ≤ l.foldl max q :=
  (List.max?_le_iff (fun _ _ _ => max_le_iff) (rfl : (q :: l).max? = _)).mp (le_refl _) q
    (List.mem_cons_self q l)

theorem foldl_max_mem (q : Int) (l : List Int) : l.foldl max q ∈ q :: l :=
  List.max?_mem max_choice (rfl : (q :: l).max? = _)

/-- At every point of a recorded run, the last known server time is the largest of its value at
the start and the server times of the messages accepted since. -/
theorem lastKnownServerTime_steps {c₀ c : Client} {steps : List Step}
    (h : Steps setup c₀ steps c) :
    c.handler.lastKnownServerTimeMs =
      (acceptedServerTimes setup steps).foldl max c₀.handler.lastKnownServerTimeMs := by
  rw [Steps.view_eq (fun _ _ _ _ hs => (times_step setup hs).2) h, foldl_serverTimeAfter]

/-- In every recorded run, the last known server time is the largest of its value at the start
and the server times of the messages accepted since (those that parse and pass validation, the
version check, the config-change short-circuit and the token check), so it never decreases; and
every assembled message is stamped with its value at that moment, which is the start value or
the server time of an accepted message, so successive stamps never decrease. -/
theorem lastKnownServerTime_of_run {c₀ c : Client} {steps : List Step}
    (h : Steps setup c₀ steps c) :
    c.handler.lastKnownServerTimeMs =
        (acceptedServerTimes setup steps).foldl max c₀.handler.lastKnownServerTimeMs ∧
      c₀.handler.lastKnownServerTimeMs ≤ c.handler.lastKnownServerTimeMs ∧
      (∀ pre s post m, steps = pre ++ s :: post → m ∈ assembledMessages s.events →
        ∃ hd, m.header = some hd ∧
          hd.maxKnownServerTimeMs =
            (acceptedServerTimes setup pre).foldl max c₀.handler.lastKnownServerTimeMs ∧
          hd.maxKnownServerTimeMs ∈
            c₀.handler.lastKnownServerTimeMs :: acceptedServerTimes setup pre) ∧
      (∀ pre s₁ mid s₂ post m₁ m₂ hd₁ hd₂, steps = pre ++ s₁ :: mid ++ s₂ :: post →
        m₁ ∈ assembledMessages s₁.events → m₂ ∈ assembledMessages s₂.events →
        m₁.header = some hd₁ → m₂.header = some hd₂ →
        hd₁.maxKnownServerTimeMs ≤ hd₂.maxKnownServerTimeMs) := by
  have hstamp : ∀ pre s post m, steps = pre ++ s :: post → m ∈ assembledMessages s.events →
      ∃ hd, m.header = some hd ∧
        hd.maxKnownServerTimeMs =
          (acceptedServerTimes setup pre).foldl max c₀.handler.lastKnownServerTimeMs := by
    intro pre s post m hsteps hm
    obtain ⟨hbefore, c', hstep⟩ := h.split hsteps
    obtain ⟨-, hheader⟩ := (step_messages setup hstep).header setup (.inl hm)
    exact ⟨_, hheader, lastKnownServerTime_steps setup hbefore⟩
  have hend := lastKnownServerTime_steps setup h
  refine ⟨hend, hend ▸ le_foldl_max _ _, fun pre s post m hsteps hm => ?_,
    fun pre s₁ mid s₂ post m₁ m₂ hd₁ hd₂ hsteps hm₁ hm₂ h₁ h₂ => ?_⟩
  · obtain ⟨hd, hheader, hstamped⟩ := hstamp pre s post m hsteps hm
    exact ⟨hd, hheader, hstamped, hstamped ▸ foldl_max_mem _ _⟩
  · obtain ⟨hd, hheader₁, hstamped₁⟩ :=
      hstamp pre s₁ (mid ++ s₂ :: post) m₁ (by rw [hsteps]; simp) hm₁
    obtain ⟨hd', hheader₂, hstamped₂⟩ := hstamp (pre ++ s₁ :: mid) s₂ post m₂ hsteps hm₂
    obtain rfl := Option.some.inj (h₁.symm.trans hheader₁)
    obtain rfl := Option.some.inj (h₂.symm.trans hheader₂)
    rw [hstamped₁, hstamped₂, acceptedServerTimes_append, List.foldl_append]
    exact le_foldl_max _ _

/-- A run of the sample client that accepts a message from time 3 and then sends an initialize
message stamped with it. -/
theorem sampleClient_serverTime : ∃ (c : Client) (steps : List Step),
    Steps sampleSetup sampleClient steps c ∧ c.handler.lastKnownServerTimeMs = 3 ∧
    (c.handler.lastKnownServerTimeMs =
        (acceptedServerTimes sampleSetup steps).foldl max
          sampleClient.handler.lastKnownServerTimeMs ∧
      sampleClient.handler.lastKnownServerTimeMs ≤ c.handler.lastKnownServerTimeMs ∧
      (∀ pre s post m, steps = pre ++ s :: post → m ∈ assembledMessages s.events →
        ∃ hd, m.header = some hd ∧
          hd.maxKnownServerTimeMs = (acceptedServerTimes sampleSetup pre).foldl max
            sampleClient.handler.lastKnownServerTimeMs ∧
          hd.maxKnownServerTimeMs ∈
            sampleClient.handler.lastKnownServerTimeMs :: acceptedServerTimes sampleSetup pre) ∧
      (∀ pre s₁ mid s₂ post m₁ m₂ hd₁ hd₂, steps = pre ++ s₁ :: mid ++ s₂ :: post →
        m₁ ∈ assembledMessages s₁.events → m₂ ∈ assembledMessages s₂.events →
        m₁.header = some hd₁ → m₂.header = some hd₂ →
        hd₁.maxKnownServerTimeMs ≤ hd₂.maxKnownServerTimeMs)) :=
  have hrun := @Steps.step _ _ _ _ _ (.sendInitializeMessage 0 ⟨0, ""⟩ "") _
    (@Steps.step _ _ _ _ _ (.handleIncomingMessage "aaa" "") _
      (@Steps.nil sampleSetup sampleClient) rfl) rfl
  ⟨_, _, hrun, rfl, lastKnownServerTime_of_run sampleSetup hrun⟩

end CacheInvalidation.ProtocolHandler
