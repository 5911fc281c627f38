/-
# The registration manager

The manager holds the desired-registration set and reconciles it with the statuses the server
reports. `HandleRegistrationStatus` walks the statuses in order; each entry sees the set the
previous ones left, and may only ever remove its own object. The main results:
- `handleRegistrationStatus_desired`: the set it leaves is the old set cut down to the objects
  that every entry naming them confirms as a successful registration.
- `handleRegistrationStatus_success`: it appends one verdict per entry, a verdict is `true` only
  for a successful server status, and an object survives exactly when no entry naming it got
  `false`.
- `handleRegistrationStatus_statistics`: what it records is one registration discrepancy for
  each successful entry that got `false`.
-/

import CacheInvalidation.Proto
import Mathlib.Data.Finset.Card
import Mathlib.Data.List.Perm.Basic

namespace CacheInvalidation

/-- Modelled from the spec: `SimpleRegistrationStore`, the desired-registration set, is a finite
set of object ids; `Add`, `Remove` and `Contains` are insertion, removal and membership, and its
digest is a function of the set alone. -/
structure RegistrationStore where
  elements : Finset ObjectIdP

/-- `RegistrationManager`: the desired registrations and the last summary heard from the
server. -/
structure RegistrationManager where
  desiredRegistrations : RegistrationStore
  lastKnownServerSummary : RegistrationSummary

namespace RegistrationManager

variable (digest : Finset ObjectIdP → String)

/-- `GetClientSummary`: the size and digest of the desired set. -/
def getClientSummary (m : RegistrationManager) : RegistrationSummary where
  numRegistrations := m.desiredRegistrations.elements.card
  registrationDigest := digest m.desiredRegistrations.elements

/-- The constructor: an empty desired set, and the server summary taken to be that of the empty
set rather than a default one. -/
def create : RegistrationManager :=
  let empty : RegistrationManager := ⟨⟨∅⟩, ⟨0, ""⟩⟩
  { empty with lastKnownServerSummary := empty.getClientSummary digest }

/-- `PerformOperations`: add or remove the given objects. -/
def performOperations (m : RegistrationManager) (objectIds : List ObjectIdP) (opType : OpType) :
    RegistrationManager :=
  match opType with
  | .register => { m with desiredRegistrations := ⟨objectIds.foldl (fun s x => insert x s)
      m.desiredRegistrations.elements⟩ }
  | .unregister => { m with desiredRegistrations := ⟨objectIds.foldl (fun s x => s.erase x)
      m.desiredRegistrations.elements⟩ }

/-- `GetRegistrations(digest_prefix, prefix_len, builder)`: the desired objects that the
store's `GetElements` lists for the digest prefix, appended to the subtree being built.
`GetElements` belongs to the registration store, whose code is not part of this one; it is a
parameter. -/
def getRegistrations (getElements : Finset ObjectIdP → String → Int → List ObjectIdP)
    (m : RegistrationManager) (digestPrefix : String) (prefixLen : Int)
    (builder : RegistrationSubtree) : RegistrationSubtree :=
  ⟨builder.registeredObject ++ getElements m.desiredRegistrations.elements digestPrefix prefixLen⟩

/-- One iteration of the loop in `HandleRegistrationStatus`: the desired set afterwards, the
verdict pushed onto `success_status`, and the statistics recorded. A successful server status
is a discrepancy when it registers an object we do not want or unregisters one we do. -/
def handleStatus (desired : Finset ObjectIdP) (status : RegistrationStatus) :
    Finset ObjectIdP × Bool × List Statistic :=
  let objectId := status.registration.objectId
  if status.status.code = .success then
    let inRequestedMap := decide (objectId ∈ desired)
    let isRegister := decide (status.registration.opType = .register)
    if xor isRegister inRequestedMap then
      (desired.erase objectId, false, [.error .registrationDiscrepancy])
    else (desired, true, [])
  else (desired.erase objectId, false, [])

/-- The loop over the statuses, threading the set, `success_status` and the statistics. -/
def handleStatuses : Finset ObjectIdP → List RegistrationStatus → List Bool → List Statistic →
    Finset ObjectIdP × List Bool × List Statistic
  | desired, [], successStatus, recorded => (desired, successStatus, recorded)
  | desired, status :: rest, successStatus, recorded =>
    let (desired', verdict, stats) := handleStatus desired status
    handleStatuses desired' rest (successStatus ++ [verdict]) (recorded ++ stats)

/-- `HandleRegistrationStatus(statuses, success_status)`: the manager afterwards, the
`success_status` vector afterwards, and the statistics recorded. -/
def handleRegistrationStatus (m : RegistrationManager) (statuses : List RegistrationStatus)
    (successStatus : List Bool) : RegistrationManager × List Bool × List Statistic :=
  let (desired, out, recorded) :=
    handleStatuses m.desiredRegistrations.elements statuses successStatus []
  ({ m with desiredRegistrations := ⟨desired⟩ }, out, recorded)

/-! ## One status -/

section OneStatus

variable (desired : Finset ObjectIdP) (status : RegistrationStatus)

/-- An entry confirms its object when the server registered it successfully. -/
def Confirms : Prop :=
  status.status.code = .success ∧ status.registration.opType = .register

instance : Decidable (Confirms status) := inferInstanceAs (Decidable (_ ∧ _))

/-- An entry touches only its own object: every other object keeps its membership. -/
theorem mem_handleStatus_of_ne {x : ObjectIdP} (hx : x ≠ status.registration.objectId) :
    x ∈ (handleStatus desired status).1 ↔ x ∈ desired := by
  unfold handleStatus
  cases status.status.code <;> cases status.registration.opType <;>
    by_cases hm : status.registration.objectId ∈ desired <;> simp [hm, hx]

/-- Its own object stays exactly when it was there and the entry confirms it. -/
theorem mem_handleStatus_self :
    status.registration.objectId ∈ (handleStatus desired status).1 ↔
      status.registration.objectId ∈ desired ∧ Confirms status := by
  unfold handleStatus Confirms
  cases hc : status.status.code <;> cases ho : status.registration.opType <;>
    by_cases hm : status.registration.objectId ∈ desired <;> simp [hc, ho, hm]

/-- The verdict is `true` exactly when the server succeeded and agreed with the set. -/
theorem verdict_handleStatus :
    (handleStatus desired status).2.1 = true ↔ status.status.code = .success ∧
      (status.registration.opType = .register ↔ status.registration.objectId ∈ desired) := by
  unfold handleStatus
  cases hc : status.status.code <;> cases ho : status.registration.opType <;>
    by_cases hm : status.registration.objectId ∈ desired <;> simp [hc, ho, hm]

/-- An entry records a registration discrepancy exactly when the server reported success and
the verdict is `false`, and records nothing else. -/
theorem statistics_handleStatus :
    (handleStatus desired status).2.2 =
      if status.status.code = .success ∧ (handleStatus desired status).2.1 = false then
        [.error .registrationDiscrepancy] else [] := by
  unfold handleStatus
  cases status.status.code <;> cases status.registration.opType <;>
    by_cases hm : status.registration.objectId ∈ desired <;> simp [hm]

/-- An entry removes what it names exactly when its verdict is `false`. -/
theorem mem_handleStatus_iff_verdict :
    status.registration.objectId ∈ (handleStatus desired status).1 ↔
      status.registration.objectId ∈ desired ∧ (handleStatus desired status).2.1 = true := by
  rw [mem_handleStatus_self, verdict_handleStatus, Confirms]
  by_cases hm : status.registration.objectId ∈ desired <;> simp [hm]

end OneStatus

/-! ## The whole loop -/

/-- After the loop, an object is desired exactly when it was before and every entry naming it
confirms it. -/
theorem mem_handleStatuses (x : ObjectIdP) :
    ∀ (statuses : List RegistrationStatus) (desired : Finset ObjectIdP) (out : List Bool)
      (recorded : List Statistic),
      x ∈ (handleStatuses desired statuses out recorded).1 ↔
        x ∈ desired ∧ ∀ status ∈ statuses, status.registration.objectId = x → Confirms status
  | [], desired, out, recorded => by simp [handleStatuses]
  | status :: rest, desired, out, recorded => by
    rw [handleStatuses, mem_handleStatuses x rest, List.forall_mem_cons]
    by_cases hx : x = status.registration.objectId
    · subst hx; rw [mem_handleStatus_self]; simp only [forall_const]; tauto
    · rw [mem_handleStatus_of_ne _ _ hx]; simp [Ne.symm hx]

/-- The registration discrepancies among entries with their verdicts: one for each entry the
server reported as a success that got `false`. -/
def discrepancies (verdicts : List (RegistrationStatus × Bool)) : List Statistic :=
  (verdicts.filter fun p => p.1.status.code = .success ∧ p.2 = false).map
    fun _ => .error .registrationDiscrepancy

/-- The loop appends one verdict per entry, in order; a verdict is `true` only for a successful
server status; an object survives exactly when no entry naming it got `false`; and the loop
records one registration discrepancy for each successful entry that got `false`, and nothing
else. -/
theorem handleStatuses_verdicts :
    ∀ (statuses : List RegistrationStatus) (desired : Finset ObjectIdP) (out : List Bool)
      (recorded : List Statistic), ∃ verdicts : List Bool,
      (handleStatuses desired statuses out recorded).2.1 = out ++ verdicts ∧
      verdicts.length = statuses.length ∧
      (∀ p ∈ statuses.zip verdicts, p.2 = true → p.1.status.code = .success) ∧
      (∀ x, x ∈ (handleStatuses desired statuses out recorded).1 ↔
        x ∈ desired ∧ ∀ p ∈ statuses.zip verdicts, p.1.registration.objectId = x → p.2 = true) ∧
      (handleStatuses desired statuses out recorded).2.2 =
        recorded ++ discrepancies (statuses.zip verdicts)
  | [], desired, out, recorded => ⟨[], by simp [handleStatuses, discrepancies]⟩
  | status :: rest, desired, out, recorded => by
    obtain ⟨verdicts, hout, hlen, hsucc, hmem, hrecorded⟩ := handleStatuses_verdicts rest
      (handleStatus desired status).1 (out ++ [(handleStatus desired status).2.1])
      (recorded ++ (handleStatus desired status).2.2)
    refine ⟨(handleStatus desired status).2.1 :: verdicts, by simp [handleStatuses, hout],
      by simp [hlen], ?_, fun x => ?_, ?_⟩
    · simp only [List.zip_cons_cons, List.forall_mem_cons]
      exact ⟨fun h => ((verdict_handleStatus desired status).mp h).1, hsucc⟩
    · rw [handleStatuses, hmem, List.zip_cons_cons, List.forall_mem_cons]
      by_cases hx : x = status.registration.objectId
      · subst hx; rw [mem_handleStatus_iff_verdict]; simp only [forall_const]; tauto
      · rw [mem_handleStatus_of_ne _ _ hx]; simp [Ne.symm hx]
    · rw [handleStatuses, hrecorded, statistics_handleStatus, List.zip_cons_cons, discrepancies,
        discrepancies, List.filter_cons]
      split_ifs <;> simp_all

/-- `HandleRegistrationStatus` leaves the desired set equal to the old one cut down to the
objects that every entry naming them confirms as a successful registration. So it never adds an
object, and the order of the entries does not matter. -/
theorem handleRegistrationStatus_desired (m : RegistrationManager)
    (statuses : List RegistrationStatus) (successStatus : List Bool) :
    (m.handleRegistrationStatus statuses successStatus).1.desiredRegistrations.elements =
        m.desiredRegistrations.elements.filter
          (fun x => ∀ status ∈ statuses, status.registration.objectId = x → Confirms status) ∧
      (m.handleRegistrationStatus statuses successStatus).1.desiredRegistrations.elements ⊆
        m.desiredRegistrations.elements ∧
      ∀ statuses', statuses'.Perm statuses →
        (m.handleRegistrationStatus statuses' successStatus).1.desiredRegistrations.elements =
          (m.handleRegistrationStatus statuses successStatus).1.desiredRegistrations.elements := by
  have hclosed : ∀ statuses : List RegistrationStatus,
      (m.handleRegistrationStatus statuses successStatus).1.desiredRegistrations.elements =
        m.desiredRegistrations.elements.filter
          (fun x => ∀ status ∈ statuses, status.registration.objectId = x → Confirms status) :=
    fun statuses => Finset.ext fun x => by
      simp [handleRegistrationStatus, mem_handleStatuses]
  refine ⟨hclosed statuses, by rw [hclosed]; exact Finset.filter_subset _ _,
    fun statuses' hperm => ?_⟩
  rw [hclosed, hclosed]
  exact Finset.filter_congr fun x _ => by simp only [hperm.mem_iff]

/-- `HandleRegistrationStatus` appends exactly one verdict per status to `success_status`, in
order, and leaves its earlier contents alone; a verdict is `true` only when the server reported
success; and no registration is dropped silently: an object is desired afterwards exactly when it
was before and no status naming it got `false`. -/
theorem handleRegistrationStatus_success (m : RegistrationManager)
    (statuses : List RegistrationStatus) (successStatus : List Bool) :
    ∃ verdicts : List Bool,
      (m.handleRegistrationStatus statuses successStatus).2.1 = successStatus ++ verdicts ∧
      verdicts.length = statuses.length ∧
      (∀ p ∈ statuses.zip verdicts, p.2 = true → p.1.status.code = .success) ∧
      ∀ x, x ∈ (m.handleRegistrationStatus statuses successStatus).1.desiredRegistrations.elements ↔
        x ∈ m.desiredRegistrations.elements ∧
          ∀ p ∈ statuses.zip verdicts, p.1.registration.objectId = x → p.2 = true :=
  let ⟨verdicts, hout, hlen, hsucc, hmem, _⟩ := handleStatuses_verdicts statuses _ successStatus []
  ⟨verdicts, hout, hlen, hsucc, hmem⟩

/-- Every statistic `HandleRegistrationStatus` records is a registration discrepancy, one for
each status the server reported as a success on which the manager disagreed, in order. -/
theorem handleRegistrationStatus_statistics (m : RegistrationManager)
    (statuses : List RegistrationStatus) (successStatus : List Bool) :
    ∃ verdicts : List Bool,
      (m.handleRegistrationStatus statuses successStatus).2.1 = successStatus ++ verdicts ∧
      (m.handleRegistrationStatus statuses successStatus).2.2 =
        discrepancies (statuses.zip verdicts) :=
  let ⟨verdicts, hout, _, _, _, hrecorded⟩ := handleStatuses_verdicts statuses _ successStatus []
  ⟨verdicts, hout, hrecorded⟩

end RegistrationManager

end CacheInvalidation
