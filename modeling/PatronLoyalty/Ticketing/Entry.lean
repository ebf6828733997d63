import PatronLoyalty.Ticketing.Flow

/-!
# Entries of the flows

`flow-public-entry.ts`, and `QueueService.getPublicQueues`, the list of queues on a kiosk. A customer who
walks in enters a flow at its first step; the list and the admission (`assertPublicQueueEntryAllowed`)
each work out which queues that leaves.

The admission reads on the bare connection. What the list reads from the cache, its settings and the
branding are left out.
-/

namespace PatronLoyalty.Ticketing

open Txn
open Loyalty (Id Err)

def getNonEntryQueueIdsFromFlowSteps (steps : List BranchFlowStep) : List Id :=
  let minStepIndex := (steps.map (·.stepIndex)).min?
  steps.filterMap fun st => if minStepIndex.any (· < st.stepIndex) then st.queueId else none

def loadActiveFlowStepsForBranch (scope : Scope) (orgId branchId : Id) : TTx (List BranchFlowStep) := do
  let templates ← findMany scope .flowTemplate fun _ t =>
    t.orgId == orgId && t.branchId == branchId && t.isActive
  let steps ← findMany scope .flowStep fun _ st => templates.any (·.1 == st.templateId)
  pure (steps.map (·.2))

def getNonEntryQueueIdsForBranch (scope : Scope) (orgId branchId : Id) : TTx (List Id) := do
  let steps ← loadActiveFlowStepsForBranch scope orgId branchId
  pure (getNonEntryQueueIdsFromFlowSteps steps)

def getAllFlowBoundQueueIds (scope : Scope) (orgId branchId : Id) : TTx (List Id) := do
  let templates ← findMany scope .flowTemplate fun _ t => t.branchId == branchId
  let steps ← findMany scope .flowStep fun _ st =>
    st.orgId == orgId && templates.any (·.1 == st.templateId)
  pure (steps.filterMap (·.2.queueId))

/-- The entry of a flow, and then the queues beside it that do not offer the same service. -/
def filterPublicKioskQueues (queues : List (Id × Queue)) (steps : List BranchFlowStep)
    (allFlowBoundQueueIds : List Id) : List (Id × Queue) :=
  let flowSteps := if 2 ≤ steps.length then steps else []
  let flowQueueIds := flowSteps.filterMap (·.queueId)
  let nonEntry := getNonEntryQueueIdsFromFlowSteps flowSteps
  let entryInFlow := queues.filter fun q => q.1 ∈ flowQueueIds && !(q.1 ∈ nonEntry : Bool)
  let entryServiceIds := entryInFlow.map (·.2.serviceId)
  let standalone := queues.filter fun q => !(q.1 ∈ flowQueueIds : Bool) &&
    !(q.2.serviceId ∈ entryServiceIds : Bool) && !(q.1 ∈ allFlowBoundQueueIds : Bool)
  entryInFlow ++ standalone

def notForWalkIn : Err :=
  .badRequest ("This queue is not available for walk-in check-in. Customers must start at the first " ++
    "step of the visit journey.")

def assertPublicQueueEntryAllowed (scope : Scope) (orgId branchId queueId : Id) : TTx Unit := do
  let queue ← findFirst scope .queue fun id q => id == queueId && q.orgId == orgId
  throwIf (queue.any (·.2.stepRole == some .pickup)) notForWalkIn
  let excluded ← getNonEntryQueueIdsForBranch scope orgId branchId
  throwIf (queueId ∈ excluded) notForWalkIn

/-! ## The list on the kiosk -/

structure KioskQueue where
  id : Id
  queue : Queue
  waitingCount : ℕ
  journeyPath : Option (List String)
  deriving DecidableEq, Repr

structure KioskList where
  queues : List KioskQueue
  showWaitEstimates : Bool
  deriving DecidableEq, Repr

def stepName (services : List (Id × Service)) (queues : List (Id × Queue)) (st : BranchFlowStep) :
    String :=
  ((services.find? (·.1 == st.serviceId)).map (·.2.name)).getD
    (((queues.find? (some ·.1 == st.queueId)).map (·.2.name)).getD
      ("Step " ++ toString st.stepIndex))

def journeyPath (names : BranchFlowStep → String) (flowSteps : List BranchFlowStep) (queueId : Id)
    (flowTemplateId : Option Id) : Option (List String) :=
  let templateSteps := (flowSteps.filter fun st => some st.templateId == flowTemplateId).insertionSort
    fun a b => byStepIndex a b = true
  if 2 ≤ templateSteps.length ∧ (templateSteps.head?.bind (·.queueId)) = some queueId then
    some (templateSteps.map names)
  else none

def openToPublic (branchId : Id) (nonEntryQueueIds : List Id) (id : Id) (q : Queue) : Bool :=
  q.branchId == branchId && q.status == .opened && q.stepRole != some .pickup &&
    !(id ∈ nonEntryQueueIds : Bool)

def publicQueuesTx (orgId branchId : Id) (lookbackStart : Time) : TTx KioskList := do
  let flowSteps ← loadActiveFlowStepsForBranch (.tenant orgId) orgId branchId
  let allFlowBoundQueueIds ← getAllFlowBoundQueueIds (.tenant orgId) orgId branchId
  let rawQueues ← findManyBy (.tenant orgId) .queue
    (openToPublic branchId (getNonEntryQueueIdsFromFlowSteps flowSteps)) byCreatedAt
  let waiting ← findMany (.tenant orgId) .ticket fun _ t =>
    t.status == .waiting && lookbackStart ≤ t.bookedAt
  let services ← findMany (.tenant orgId) .service fun _ _ => true
  let stepQueues ← findMany (.tenant orgId) .queue fun _ _ => true
  let queues := filterPublicKioskQueues rawQueues flowSteps allFlowBoundQueueIds
  pure
    { queues := queues.map fun q =>
        { id := q.1, queue := q.2
          waitingCount := (waiting.filter (·.2.queueId == q.1)).length
          journeyPath := journeyPath (stepName services stepQueues) flowSteps q.1 q.2.flowTemplateId }
      showWaitEstimates := flowSteps.length < 2 }

def getPublicQueues (branchId : Id) (lookbackStart : Time) : TCall KioskList := do
  let branch ← withTenant (findById (.bare true) .branch branchId)
  match branch with
  | none => Call.throw (.notFound "Branch not found")
  | some branch => withTenant (publicQueuesTx branch.orgId branchId lookbackStart)

end PatronLoyalty.Ticketing
