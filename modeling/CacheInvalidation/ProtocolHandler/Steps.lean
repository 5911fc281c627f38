/-
# Runs recorded step by step

A `Run` keeps the events of a run and nothing else. What the client library asked for and what
the network delivered are the inputs of its steps, and whether a send gets past its checks
depends on the state it is made from. `Steps` records each step with both: the client it
started from, its input, and the events it emitted. `run_iff_steps` says that these are the
same runs.

What the handler should hold along a run is read off the recorded steps: the batches from the
additions and from the sends that got past their checks, the quiet period from the latest config
change, the last known server time from the messages that passed every gate. Each reading is a
fold over the steps, and `Steps.view_eq` does the induction once: a view of the client that
every step moves as the fold says is the fold at the end of every run. `step_messages` says once
which steps assemble a message and what they hand to the network.
-/

import CacheInvalidation.ProtocolHandler.Runs

namespace CacheInvalidation.ProtocolHandler

/-- One step of a run as it was taken: the client it started from, its input, and the events it
emitted. -/
structure Step where
  client : Client
  input : Input
  events : List Event

variable (setup : Setup)

/-- The runs from `c₀`, recorded step by step. -/
inductive Steps (c₀ : Client) : List Step → Client → Prop
  | nil : Steps c₀ [] c₀
  | step {steps : List Step} {c c' : Client} {input : Input} {events : List Event} :
      Steps c₀ steps c → c.step setup input = some (c', events) →
      Steps c₀ (steps ++ [⟨c, input, events⟩]) c'

variable {setup}

/-- The recorded runs are the runs: a recorded run, with all but its events erased, is a run,
and every run is recorded so. -/
theorem run_iff_steps {c₀ c : Client} {trace : List Event} :
    Run setup c₀ trace c ↔ ∃ steps, Steps setup c₀ steps c ∧ steps.flatMap (·.events) = trace := by
  constructor
  · intro h
    induction h with
    | nil => exact ⟨[], .nil, rfl⟩
    | step _ hstep ih =>
      obtain ⟨steps, hsteps, rfl⟩ := ih
      exact ⟨_, .step hsteps hstep, by simp⟩
  · rintro ⟨steps, h, rfl⟩
    induction h with
    | nil => exact .nil
    | step _ hstep ih => simpa using Run.step ih hstep

/-- A step in the middle of a recorded run was taken from the state the steps before it
reach. -/
theorem Steps.split {c₀ c : Client} {steps pre post : List Step} {s : Step}
    (h : Steps setup c₀ steps c) (hsteps : steps = pre ++ s :: post) :
    Steps setup c₀ pre s.client ∧ ∃ c', s.client.step setup s.input = some (c', s.events) := by
  induction h generalizing post with
  | nil => simp at hsteps
  | @step steps c c' input events hprev hstep ih =>
    rcases List.eq_nil_or_concat post with rfl | ⟨rest, last, rfl⟩
    · obtain ⟨rfl, hlast⟩ := List.append_inj' hsteps rfl
      cases hlast
      exact ⟨hprev, c', hstep⟩
    · rw [List.concat_eq_append, ← List.cons_append, ← List.append_assoc] at hsteps
      exact ih (List.append_inj' hsteps rfl).1

/-- A view of the client that each step moves as `next` says, reading the step as it was taken,
is at the end of every recorded run the fold of `next` over its steps. -/
theorem Steps.view_eq {σ : Type} {view : Client → σ} {next : σ → Step → σ}
    (hnext : ∀ c input c' events, c.step setup input = some (c', events) →
      view c' = next (view c) ⟨c, input, events⟩)
    {c₀ c : Client} {steps : List Step} (h : Steps setup c₀ steps c) :
    view c = steps.foldl next (view c₀) := by
  induction h with
  | nil => rfl
  | step _ hstep ih => rw [hnext _ _ _ _ hstep, ih, List.foldl_append]; rfl

/-! ## Which steps assemble a message -/

/-- The two checks of `SendMessageToServer`: the quiet period is over, and the listener holds a
token or the builder carries an initialize message. -/
def sendGate (listener : Listener) (h : ProtocolHandler) (initializes : Bool) : Bool :=
  decide (h.nextMessageSendTimeMs ≤ h.now) && (initializes || listener.clientToken != "")

theorem sendGate_eq_true_iff (listener : Listener) (h : ProtocolHandler) (initializes : Bool) :
    sendGate listener h initializes = true ↔
      h.nextMessageSendTimeMs ≤ h.now ∧ (listener.clientToken = "" → initializes = true) := by
  cases initializes <;> simp [sendGate]

/-- Whether the input calls `SendMessageToServer`, and if so whether the builder it hands over
carries an initialize message: `SendInitializeMessage`'s does, `SendInfoMessage`'s and the
batching task's do not. -/
def Input.sends : Input → Option Bool
  | .sendInitializeMessage .. => some true
  | .sendInfoMessage .. | .runBatchingTask _ => some false
  | _ => none

/-- The step calls `SendMessageToServer`, and the call gets past both of its checks. -/
def Step.assembles (s : Step) : Bool :=
  (s.input.sends.map (sendGate s.client.listener s.client.handler)).getD false

theorem Step.quiet_of_assembles {s : Step} (h : s.assembles = true) :
    s.client.handler.nextMessageSendTimeMs ≤ s.client.handler.now := by
  unfold Step.assembles at h
  rcases hs : s.input.sends with _ | initializes <;> rw [hs] at h
  · cases h
  · exact ((sendGate_eq_true_iff _ _ _).mp h).1

/-- The messages a list of events assembles, in order. -/
def assembledMessages (events : List Event) : List ClientToServerMessage :=
  events.filterMap fun
    | .assembled m => some m
    | _ => none

/-- The messages a list of events hands to the network, in order. -/
def sentMessages (events : List Event) : List ClientToServerMessage :=
  events.filterMap fun
    | .sent m => some m
    | _ => none

@[simp] theorem assembledMessages_append (l₁ l₂ : List Event) :
    assembledMessages (l₁ ++ l₂) = assembledMessages l₁ ++ assembledMessages l₂ :=
  List.filterMap_append _ _ _

@[simp] theorem sentMessages_append (l₁ l₂ : List Event) :
    sentMessages (l₁ ++ l₂) = sentMessages l₁ ++ sentMessages l₂ :=
  List.filterMap_append _ _ _

/-- Reports (statistics and upcalls) carry no message. -/
theorem messages_of_isReport {events : List Event} (h : ∀ e ∈ events, e.IsReport) :
    assembledMessages events = [] ∧ sentMessages events = [] := by
  constructor <;> refine List.filterMap_eq_nil_iff.mpr fun e he => ?_ <;>
    cases e <;> first | rfl | exact absurd (h _ he) id

theorem messages_of_statistics {events : List Event}
    (h : ∀ e ∈ events, ∃ recorded, e = .statistic recorded) :
    assembledMessages events = [] ∧ sentMessages events = [] :=
  messages_of_isReport fun e he => by obtain ⟨_, rfl⟩ := h e he; trivial

variable (setup)

/-- What a call hands over, given whether it gets past the checks of `SendMessageToServer`: past
them, one assembled message, with the header `InitClientHeader` writes and the handler's three
batches, handed to the network if the validator accepts it; stopped at them, nothing. -/
def HandsOver (listener : Listener) (h : ProtocolHandler) (assembles : Bool)
    (events : List Event) : Prop :=
  if assembles then
    ∃ m, assembledMessages events = [m] ∧
      sentMessages events = (if setup.outgoingIsValid m then [m] else []) ∧
      m.header = some (initClientHeader setup listener h).1 ∧
      m.acks = h.ackedInvalidations.elements ∧ m.registrations = h.pendingRegistrationList ∧
      m.subtrees = h.registrationSubtrees.elements
  else assembledMessages events = [] ∧ sentMessages events = []

/-- Events around a call that carry no message change nothing of what it hands over. -/
theorem HandsOver.frame {listener : Listener} {h : ProtocolHandler} {assembles : Bool}
    {events : List Event} (pre post : List Event) (hh : HandsOver setup listener h assembles events)
    (hpre : assembledMessages pre = [] ∧ sentMessages pre = [])
    (hpost : assembledMessages post = [] ∧ sentMessages post = []) :
    HandsOver setup listener h assembles (pre ++ events ++ post) := by
  unfold HandsOver at hh ⊢
  cases assembles <;> simpa [hpre.1, hpre.2, hpost.1, hpost.2] using hh

/-- `SendMessageToServer` with a builder that brings no batch of its own hands over what
`HandsOver` says. -/
theorem handsOver_sendMessageToServer (listener : Listener) (h : ProtocolHandler)
    (builder : ClientToServerMessage) (hacks : builder.acks = [])
    (hregistrations : builder.registrations = []) (hsubtrees : builder.subtrees = []) :
    HandsOver setup listener h (sendGate listener h builder.initializeMessage.isSome)
      (sendMessageToServer setup listener h builder).2 := by
  rcases sendMessageToServer_cases setup listener h builder with ⟨hlt, hr⟩ |
    ⟨-, htoken, hinit, hr⟩ | ⟨hle, hpass, m, stats, hheader, -, -, hacks', hregistrations',
      hsubtrees', hstats, -, hr⟩
  · rw [hr, HandsOver, if_neg (by simp [sendGate, hlt])]
    exact ⟨rfl, rfl⟩
  · rw [hr, HandsOver, if_neg (by simp [sendGate, htoken, hinit])]
    exact ⟨rfl, rfl⟩
  · have hgate : sendGate listener h builder.initializeMessage.isSome = true :=
      (sendGate_eq_true_iff _ _ _).mpr ⟨hle, fun htoken => Option.ne_none_iff_isSome.mp
        (hpass htoken)⟩
    obtain ⟨hassembled, hsent⟩ := messages_of_statistics hstats
    rw [hr, HandsOver, if_pos hgate, assembledMessages_append, sentMessages_append, hassembled,
      hsent]
    refine ⟨m, ?_, ?_, hheader, by rw [hacks', hacks, List.nil_append],
      by rw [hregistrations', hregistrations, List.nil_append],
      by rw [hsubtrees', hsubtrees, List.nil_append]⟩ <;>
      by_cases hvalid : setup.outgoingIsValid m = true <;> simp [hvalid] <;> rfl

/-- A message that a call assembles or hands over means the call got past the checks of
`SendMessageToServer`, and the message carries the header `InitClientHeader` wrote. -/
theorem HandsOver.header {listener : Listener} {h : ProtocolHandler} {assembles : Bool}
    {events : List Event} {m : ClientToServerMessage}
    (hh : HandsOver setup listener h assembles events)
    (hm : m ∈ assembledMessages events ∨ m ∈ sentMessages events) :
    assembles = true ∧ m.header = some (initClientHeader setup listener h).1 := by
  unfold HandsOver at hh
  cases assembles <;> simp only [Bool.false_eq_true, ite_false, ite_true] at hh
  · rw [hh.1, hh.2] at hm; simp at hm
  · obtain ⟨m', hassembled, hsent, hheader, -⟩ := hh
    refine ⟨rfl, ?_⟩
    rw [hassembled, hsent] at hm
    obtain rfl : m = m' := by split at hm <;> simp_all
    exact hheader

/-- Which steps assemble a message, and what they hand over: a step that calls
`SendMessageToServer` and gets past its checks assembles one message, with the header
`InitClientHeader` writes from the handler and the listener as they were and the three batches
drained into it, and hands that message to the network if the validator accepts it. Every other
step assembles nothing and hands nothing over. -/
theorem step_messages {c c' : Client} {input : Input} {events : List Event}
    (hs : c.step setup input = some (c', events)) :
    HandsOver setup c.listener c.handler (Step.assembles ⟨c, input, events⟩) events := by
  have hnone : ∀ {events : List Event}, assembledMessages events = [] ∧ sentMessages events = [] →
      input.sends = none → HandsOver setup c.listener c.handler (Step.assembles ⟨c, input, events⟩)
        events := fun hmessages hsends => by
    rw [HandsOver, Step.assembles, hsends]; exact hmessages
  cases input with
  | sendInitializeMessage clientType applicationClientId nonce =>
    cases hs
    obtain ⟨builder, hinit, hacks, hregistrations, hsubtrees, hr⟩ :=
      sendInitializeMessage_eq setup c.listener c.handler clientType applicationClientId nonce
    have hh := handsOver_sendMessageToServer setup c.listener c.handler builder hacks
      hregistrations hsubtrees
    rw [hinit] at hh
    rw [hr]
    simpa using hh.frame setup [.statistic (.sentMessage .initializeMessage)] [] ⟨rfl, rfl⟩
      ⟨rfl, rfl⟩
  | sendInfoMessage performanceCounters configParams =>
    cases hs
    obtain ⟨builder, hinit, hacks, hregistrations, hsubtrees, hr⟩ :=
      sendInfoMessage_eq setup c.listener c.handler performanceCounters configParams
    have hh := handsOver_sendMessageToServer setup c.listener c.handler builder hacks
      hregistrations hsubtrees
    rw [hinit, Option.isSome_none] at hh
    rw [hr]
    simpa using hh.frame setup [.statistic (.sentMessage .info)] [] ⟨rfl, rfl⟩ ⟨rfl, rfl⟩
  | sendRegistrations objectIds opType =>
    obtain ⟨⟨h', events'⟩, hr, heq⟩ := Option.map_eq_some'.mp hs
    cases heq
    obtain ⟨-, -, -, rfl⟩ := sendRegistrations_eq_some setup hr
    exact hnone ⟨by simp [assembledMessages, List.filterMap_map, Function.comp_def],
      by simp [sentMessages, List.filterMap_map, Function.comp_def]⟩ rfl
  | sendInvalidationAck invalidation =>
    obtain ⟨⟨h', events'⟩, hr, heq⟩ := Option.map_eq_some'.mp hs
    cases heq
    obtain ⟨-, -, -, rfl⟩ := sendInvalidationAck_eq_some setup hr
    exact hnone ⟨rfl, rfl⟩ rfl
  | sendRegistrationSyncSubtree subtree =>
    obtain ⟨⟨h', events'⟩, hr, heq⟩ := Option.map_eq_some'.mp hs
    cases heq
    obtain ⟨-, -, -, rfl⟩ := sendRegistrationSyncSubtree_eq_some setup hr
    exact hnone ⟨rfl, rfl⟩ rfl
  | handleIncomingMessage incomingMessage tokenAfterControl =>
    cases hs
    refine hnone ?_ rfl
    rcases handleIncomingMessage_effect setup c.listener tokenAfterControl c.handler
      incomingMessage with ⟨-, hev⟩ | ⟨_, -, hev⟩ | ⟨_, rest, -, hev, hrest⟩
    · exact messages_of_statistics hev
    · rw [hev]; exact ⟨rfl, rfl⟩
    · rw [hev]
      exact (messages_of_isReport hrest : assembledMessages rest = [] ∧ sentMessages rest = [])
  | runBatchingTask w =>
    obtain ⟨⟨h', events'⟩, hr, heq⟩ := Option.map_eq_some'.mp hs
    cases heq
    obtain ⟨-, -, -, rfl⟩ := runBatchingTask_eq_some setup hr
    exact (handsOver_sendMessageToServer setup c.listener
      { c.handler with operationScheduler := c.handler.operationScheduler.dequeue w } {} rfl rfl
      rfl).frame setup [.scheduler (.started w c.handler.now)] [.scheduler (.finished w.operation)]
      ⟨rfl, rfl⟩ ⟨rfl, rfl⟩
  | advanceTo time =>
    obtain ⟨_, -, heq⟩ := Option.map_eq_some'.mp hs
    cases heq
    exact hnone ⟨rfl, rfl⟩ rfl
  | updateListener listener =>
    cases hs
    exact hnone ⟨rfl, rfl⟩ rfl

end CacheInvalidation.ProtocolHandler
