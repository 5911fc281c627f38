/-
# Runs of the registration manager

Over any sequence of calls, the desired set is, object by object, what one small automaton per
object says. A `PerformOperations` that names the object sets it to whether the operation
registers; a `HandleRegistrationStatus` keeps it only when every entry naming it confirms it; a
call that does not name it leaves it alone. So objects never interfere with each other, and
`GetClientSummary` depends on the calls only through where each object's automaton ends.

The main results:
- `mem_run`: the manager's set after any calls is what the objects' automata say.
- `mem_run_iff`: in closed form, the latest call naming an object decides it, and the server
  can then only take it away.
- `getClientSummary_run_congr`: two sequences of calls that leave every object in the same place
  give the same summary.
- `desired_of_same_statuses`: status messages may be split, merged, reordered or delivered
  again without changing the desired set.
-/

import CacheInvalidation.RegistrationManager

namespace CacheInvalidation.RegistrationManager

/-- What can happen to the manager: the client asks for operations on objects, or the server
reports registration statuses. -/
inductive Input
  | performOperations (objectIds : List ObjectIdP) (opType : OpType)
  | handleRegistrationStatus (statuses : List RegistrationStatus)

/-- One call, with the statistics it records. The verdicts go to the caller's `success_status`,
which the manager does not keep. -/
def step (m : RegistrationManager) : Input → RegistrationManager × List Statistic
  | .performOperations objectIds opType => (m.performOperations objectIds opType, [])
  | .handleRegistrationStatus statuses =>
    let handled := m.handleRegistrationStatus statuses []
    (handled.1, handled.2.2)

/-- The manager after a sequence of calls. -/
def run (m : RegistrationManager) (inputs : List Input) : RegistrationManager :=
  inputs.foldl (fun m input => (m.step input).1) m

/-- One object's automaton: whether the object is desired after a call, from whether it was
before. -/
def Input.objectStep (x : ObjectIdP) (desired : Bool) : Input → Bool
  | .performOperations objectIds opType =>
    if x ∈ objectIds then decide (opType = .register) else desired
  | .handleRegistrationStatus statuses =>
    desired && decide (∀ status ∈ statuses, status.registration.objectId = x → Confirms status)

theorem mem_foldl_insert (s : Finset ObjectIdP) (objectIds : List ObjectIdP) (x : ObjectIdP) :
    x ∈ objectIds.foldl (fun s y => insert y s) s ↔ x ∈ objectIds ∨ x ∈ s := by
  induction objectIds generalizing s with
  | nil => simp
  | cons y rest ih => simp only [List.foldl_cons, ih, List.mem_cons, Finset.mem_insert]; tauto

theorem mem_foldl_erase (s : Finset ObjectIdP) (objectIds : List ObjectIdP) (x : ObjectIdP) :
    x ∈ objectIds.foldl (fun s y => s.erase y) s ↔ x ∉ objectIds ∧ x ∈ s := by
  induction objectIds generalizing s with
  | nil => simp
  | cons y rest ih => simp only [List.foldl_cons, ih, List.mem_cons, Finset.mem_erase]; tauto

/-- `PerformOperations` decides each object it names, by its operation, and no other. -/
theorem mem_performOperations (m : RegistrationManager) (objectIds : List ObjectIdP)
    (opType : OpType) (x : ObjectIdP) :
    x ∈ (m.performOperations objectIds opType).desiredRegistrations.elements ↔
      if x ∈ objectIds then opType = .register else x ∈ m.desiredRegistrations.elements := by
  cases opType <;> by_cases hx : x ∈ objectIds <;>
    simp [performOperations, mem_foldl_insert, mem_foldl_erase, hx]

/-- One call moves each object as its automaton does. -/
theorem decide_mem_step (m : RegistrationManager) (input : Input) (x : ObjectIdP) :
    decide (x ∈ (m.step input).1.desiredRegistrations.elements) =
      input.objectStep x (decide (x ∈ m.desiredRegistrations.elements)) := by
  cases input with
  | performOperations objectIds opType =>
    by_cases hx : x ∈ objectIds <;> simp [step, Input.objectStep, mem_performOperations, hx]
  | handleRegistrationStatus statuses =>
    simp [step, handleRegistrationStatus, mem_handleStatuses, Input.objectStep]

/-- Over every sequence of calls, the desired set is, object by object, what the object's
automaton says when it starts from the object's membership and reads the calls in order. -/
theorem mem_run (m : RegistrationManager) (inputs : List Input) (x : ObjectIdP) :
    decide (x ∈ (m.run inputs).desiredRegistrations.elements) =
      inputs.foldl (Input.objectStep x) (decide (x ∈ m.desiredRegistrations.elements)) := by
  induction inputs generalizing m with
  | nil => rfl
  | cons input rest ih => rw [List.foldl_cons, ← decide_mem_step, ← ih]; rfl

/-! ## The latest call decides -/

/-- A call names the object when it is a `PerformOperations` on it. -/
def Input.Names (x : ObjectIdP) : Input → Prop
  | .performOperations objectIds _ => x ∈ objectIds
  | .handleRegistrationStatus _ => False

/-- Every status a call reports for the object confirms it; a `PerformOperations` reports
none. -/
def Input.Keeps (x : ObjectIdP) : Input → Prop
  | .performOperations .. => True
  | .handleRegistrationStatus statuses =>
    ∀ status ∈ statuses, status.registration.objectId = x → Confirms status

/-- A call that does not name the object leaves it desired exactly when it was and every status
the call reports for it confirms it. -/
theorem objectStep_eq_true {x : ObjectIdP} {input : Input} (hx : ¬ input.Names x)
    (desired : Bool) : input.objectStep x desired = true ↔ desired = true ∧ input.Keeps x := by
  cases input with
  | performOperations objectIds opType =>
    simp [Input.objectStep, Input.Keeps, show x ∉ objectIds from hx]
  | handleRegistrationStatus statuses => simp [Input.objectStep, Input.Keeps]

theorem foldl_objectStep_of_not_names {x : ObjectIdP} :
    ∀ {inputs : List Input}, (∀ input ∈ inputs, ¬ input.Names x) → ∀ desired : Bool,
      inputs.foldl (Input.objectStep x) desired = true ↔
        desired = true ∧ ∀ input ∈ inputs, input.Keeps x
  | [], _, desired => by simp
  | input :: rest, hx, desired => by
    rw [List.forall_mem_cons] at hx
    rw [List.foldl_cons, foldl_objectStep_of_not_names hx.2, objectStep_eq_true hx.1,
      List.forall_mem_cons, and_assoc]

/-- Either no call names the object, or one is the latest to. -/
theorem names_none_or_latest (x : ObjectIdP) : ∀ inputs : List Input,
    (∀ input ∈ inputs, ¬ input.Names x) ∨
      ∃ pre objectIds opType post, inputs = pre ++ .performOperations objectIds opType :: post ∧
        x ∈ objectIds ∧ ∀ input ∈ post, ¬ input.Names x
  | [] => .inl (by simp)
  | input :: rest => by
    rcases names_none_or_latest x rest with hnone | ⟨pre, objectIds, opType, post, rfl, hx, hpost⟩
    · by_cases hinput : input.Names x
      · cases input with
        | performOperations objectIds opType =>
          exact .inr ⟨[], objectIds, opType, rest, rfl, hinput, hnone⟩
        | handleRegistrationStatus _ => exact absurd hinput id
      · exact .inl (List.forall_mem_cons.mpr ⟨hinput, hnone⟩)
    · exact .inr ⟨input :: pre, objectIds, opType, post, rfl, hx, hpost⟩

/-- Two ways of splitting calls at the latest one naming the object are the same. -/
theorem latest_names_unique {x : ObjectIdP} {pre pre' post post' : List Input}
    {objectIds objectIds' : List ObjectIdP} {opType opType' : OpType}
    (heq : pre ++ .performOperations objectIds opType :: post =
      pre' ++ .performOperations objectIds' opType' :: post')
    (hx : x ∈ objectIds) (hx' : x ∈ objectIds') (hpost : ∀ input ∈ post, ¬ input.Names x)
    (hpost' : ∀ input ∈ post', ¬ input.Names x) : opType = opType' ∧ post = post' := by
  rcases List.append_eq_append_iff.mp heq with ⟨_ | ⟨c, rest⟩, -, h⟩ | ⟨_ | ⟨c, rest⟩, -, h⟩
  · simp only [List.nil_append, List.cons.injEq, Input.performOperations.injEq] at h
    exact ⟨h.1.2, h.2⟩
  · rw [List.cons_append, List.cons.injEq] at h
    exact (hpost (.performOperations objectIds' opType') (by rw [h.2]; simp) hx').elim
  · simp only [List.nil_append, List.cons.injEq, Input.performOperations.injEq] at h
    exact ⟨h.1.2.symm, h.2.symm⟩
  · rw [List.cons_append, List.cons.injEq] at h
    exact (hpost' (.performOperations objectIds opType) (by rw [h.2]; simp) hx).elim

/-- Over every sequence of calls, the latest call naming an object decides it, and the server
can then only take it away. The object is desired afterwards exactly when either no call names
it, it was desired at the start, and every status reported for it confirms it; or the latest
`PerformOperations` naming it registers it and every status reported for it since confirms
it. -/
theorem mem_run_iff (m : RegistrationManager) (inputs : List Input) (x : ObjectIdP) :
    x ∈ (m.run inputs).desiredRegistrations.elements ↔
      ((∀ input ∈ inputs, ¬ input.Names x) ∧ x ∈ m.desiredRegistrations.elements ∧
          ∀ input ∈ inputs, input.Keeps x) ∨
        ∃ pre objectIds post, inputs = pre ++ .performOperations objectIds .register :: post ∧
          x ∈ objectIds ∧ (∀ input ∈ post, ¬ input.Names x) ∧ ∀ input ∈ post, input.Keeps x := by
  refine decide_eq_true_iff.symm.trans ?_
  rw [mem_run]
  rcases names_none_or_latest x inputs with hnone | ⟨pre, objectIds, opType, post, rfl, hx, hpost⟩
  · rw [foldl_objectStep_of_not_names hnone, decide_eq_true_iff]
    refine ⟨fun h => .inl ⟨hnone, h⟩, ?_⟩
    rintro (⟨-, h⟩ | ⟨pre, objectIds, post, rfl, hx, -⟩)
    · exact h
    · exact (hnone (.performOperations objectIds .register) (by simp) hx).elim
  · rw [List.foldl_append, List.foldl_cons, foldl_objectStep_of_not_names hpost]
    simp only [Input.objectStep, hx, if_true, decide_eq_true_iff]
    constructor
    · rintro ⟨rfl, hkeeps⟩
      exact .inr ⟨pre, objectIds, post, rfl, hx, hpost, hkeeps⟩
    · rintro (⟨hnone, -⟩ | ⟨pre', objectIds', post', heq, hx', hpost', hkeeps⟩)
      · exact (hnone (.performOperations objectIds opType) (by simp) hx).elim
      · obtain ⟨rfl, rfl⟩ := latest_names_unique heq hx hx' hpost hpost'
        exact ⟨rfl, hkeeps⟩

/-! ## Status messages compose -/

/-- An object's automaton over status messages: desired when it was and every status naming it
confirms it. -/
theorem foldl_objectStep_statuses (x : ObjectIdP) (messages : List (List RegistrationStatus)) :
    ∀ desired : Bool,
      (messages.map Input.handleRegistrationStatus).foldl (Input.objectStep x) desired =
        (desired && decide (∀ statuses ∈ messages, ∀ status ∈ statuses,
          status.registration.objectId = x → Confirms status)) := by
  induction messages with
  | nil => simp
  | cons statuses rest ih =>
    intro desired
    rw [List.map_cons, List.foldl_cons, ih, Input.objectStep]
    simp [Bool.and_assoc]

/-- Status messages may be split, merged, reordered or delivered again: two sequences of
`HandleRegistrationStatus` calls that report the same statuses leave the same desired set. -/
theorem desired_of_same_statuses (m : RegistrationManager)
    (messages messages' : List (List RegistrationStatus))
    (h : ∀ status, (∃ statuses ∈ messages, status ∈ statuses) ↔
      ∃ statuses ∈ messages', status ∈ statuses) :
    (m.run (messages.map .handleRegistrationStatus)).desiredRegistrations.elements =
      (m.run (messages'.map .handleRegistrationStatus)).desiredRegistrations.elements := by
  have hconfirmed : ∀ P : RegistrationStatus → Prop,
      (∀ statuses ∈ messages, ∀ status ∈ statuses, P status) ↔
        ∀ statuses ∈ messages', ∀ status ∈ statuses, P status := fun P =>
    ⟨fun hP statuses hl status hs =>
      let ⟨_, hl', hs'⟩ := (h status).mpr ⟨statuses, hl, hs⟩; hP _ hl' status hs',
    fun hP statuses hl status hs =>
      let ⟨_, hl', hs'⟩ := (h status).mp ⟨statuses, hl, hs⟩; hP _ hl' status hs'⟩
  exact Finset.ext fun x => decide_eq_decide.mp (by
    rw [mem_run, mem_run, foldl_objectStep_statuses, foldl_objectStep_statuses,
      decide_eq_decide.mpr (hconfirmed _)])

/-- A status message delivered twice leaves the desired set it left the first time. -/
theorem status_delivered_twice :
    (∀ status : RegistrationStatus,
      (∃ statuses ∈ [[⟨⟨⟨0, "a"⟩, .register⟩, ⟨.success, ""⟩⟩]], status ∈ statuses) ↔
      ∃ statuses ∈ [[⟨⟨⟨0, "a"⟩, .register⟩, ⟨.success, ""⟩⟩], [⟨⟨⟨0, "a"⟩, .register⟩,
        ⟨.success, ""⟩⟩]], status ∈ statuses) ∧
    ((create (·.card.repr)).run ([[⟨⟨⟨0, "a"⟩, .register⟩, ⟨.success, ""⟩⟩]].map
        .handleRegistrationStatus)).desiredRegistrations.elements =
      ((create (·.card.repr)).run ([[⟨⟨⟨0, "a"⟩, .register⟩, ⟨.success, ""⟩⟩],
        [⟨⟨⟨0, "a"⟩, .register⟩, ⟨.success, ""⟩⟩]].map
          .handleRegistrationStatus)).desiredRegistrations.elements :=
  have h : ∀ status : RegistrationStatus,
      (∃ statuses ∈ [[⟨⟨⟨0, "a"⟩, .register⟩, ⟨.success, ""⟩⟩]], status ∈ statuses) ↔
      ∃ statuses ∈ [[⟨⟨⟨0, "a"⟩, .register⟩, ⟨.success, ""⟩⟩], [⟨⟨⟨0, "a"⟩, .register⟩,
        ⟨.success, ""⟩⟩]], status ∈ statuses := fun status => by simp
  ⟨h, desired_of_same_statuses _ _ _ h⟩

variable (digest : Finset ObjectIdP → String)

/-- `GetClientSummary` depends on the calls only through where each object's automaton ends:
two sequences of calls from one manager that leave every object in the same place give the
same summary. -/
theorem getClientSummary_run_congr (m : RegistrationManager) (inputs inputs' : List Input)
    (h : ∀ x, inputs.foldl (Input.objectStep x) (decide (x ∈ m.desiredRegistrations.elements)) =
      inputs'.foldl (Input.objectStep x) (decide (x ∈ m.desiredRegistrations.elements))) :
    (m.run inputs).getClientSummary digest = (m.run inputs').getClientSummary digest := by
  have hsame : (m.run inputs).desiredRegistrations.elements =
      (m.run inputs').desiredRegistrations.elements :=
    Finset.ext fun x => decide_eq_decide.mp (by rw [mem_run, mem_run, h])
  rw [getClientSummary, getClientSummary, hsame]

end CacheInvalidation.RegistrationManager
