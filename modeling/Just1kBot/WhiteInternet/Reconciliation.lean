import Just1kBot.WhiteInternet.InlineSync

/-! `_reconcile_single_subscription` of `services/workers/white_internet_reconciliation.py`: a task
    is built from the row, the node is called, and its answer is written to the row as it is by
    then, under its lock. -/

namespace Just1kBot

/-- What a task takes from the row and the node: the state to bring about, the version it goes
    under, and what the node should report. -/
structure ReconcileTask where
  desiredActive : Bool
  targetVersion : ℕ
  targetEpoch : Epoch
  expectedInboundTags : List String := []
  deriving DecidableEq, Repr

/-- The answers to the sync and to the inventory request, with the error text of the first. -/
structure ReconcileAnswer where
  sync : SyncResponse
  error : Option String := none
  inventory : Option Inventory := none
  deriving DecidableEq, Repr

namespace ReconcileAnswer

/-- The tags the node did not verify, though it reports some. -/
def missingTags (a : ReconcileAnswer) (task : ReconcileTask) : List String :=
  if a.sync.verifiedInbounds = [] then []
  else task.expectedInboundTags.filter (· ∉ a.sync.verifiedInbounds)

def verifiedEpoch (a : ReconcileAnswer) (task : ReconcileTask) : Epoch :=
  a.sync.verifiedEpoch.getD task.targetEpoch

/-- The inventory shows the client in the desired state. -/
def Observed (a : ReconcileAnswer) (task : ReconcileTask) : Prop :=
  ∃ i ∈ a.inventory, i.ok = true ∧
    i.observedState = some (if task.desiredActive then "active" else "disabled")

instance (a : ReconcileAnswer) (task : ReconcileTask) : Decidable (a.Observed task) := by
  rw [Observed]
  infer_instance

/-- The node has what the row wants: it applied the version the row still has, or has a newer one
    and shows the desired state. -/
def Confirms (a : ReconcileAnswer) (task : ReconcileTask) (sub : WhiteInternetSubscription) :
    Prop :=
  match a.sync.result with
  | .applied => sub.desiredVersion = task.targetVersion ∧ a.missingTags task = [] ∧
      a.verifiedEpoch task = task.targetEpoch
  | .alreadyNewer => a.Observed task
  | .fenced | .failed => False

instance (a : ReconcileAnswer) (task : ReconcileTask) (sub : WhiteInternetSubscription) :
    Decidable (a.Confirms task sub) := by
  rw [Confirms]
  split <;> infer_instance

/-- `last_sync_error` of an answer that is not confirmed, where one is written. -/
def syncError (a : ReconcileAnswer) (task : ReconcileTask) (sub : WhiteInternetSubscription) :
    Option String :=
  match a.sync.result with
  | .applied =>
    if sub.desiredVersion ≠ task.targetVersion then sub.lastSyncError
    else if a.missingTags task ≠ [] then
      some ("missing_inbounds:" ++ String.intercalate "," ((a.missingTags task).mergeSort))
    else some "epoch_drift_detected"
  | .alreadyNewer => some ("node_already_newer_inventory_mismatch_" ++ a.error.getD "None")
  | .fenced => some ((a.error.filter (· ≠ "")).getD "sync_fenced")
  | .failed => some ((a.error.filter (· ≠ "")).getD "sync_failed")

end ReconcileAnswer

namespace WhiteInternetSubscription

/-- The row of a confirmed task. -/
def synced (task : ReconcileTask) (a : ReconcileAnswer) (now : Time)
    (sub : WhiteInternetSubscription) : WhiteInternetSubscription :=
  let becomesActive := sub.status = .pending ∧ task.desiredActive
  { sub with
    actualVersion := if a.sync.result = .applied then task.targetVersion
      else max sub.actualVersion task.targetVersion
    lastReconciledNodeEpoch := if a.sync.result = .applied then some (a.verifiedEpoch task)
      else some task.targetEpoch
    status := if becomesActive then .active else sub.status
    statusReason := if becomesActive then none else sub.statusReason
    provisioningStatus := if task.desiredActive then .active else .syncedInactive
    lastSyncedAt := some now
    lastSyncError := none }

/-- The row of a task that is to be tried again: a version the node refuses is left behind. -/
def unsynced (task : ReconcileTask) (a : ReconcileAnswer) (now : Time)
    (sub : WhiteInternetSubscription) : WhiteInternetSubscription :=
  { sub with
    desiredVersion := if a.sync.result = .alreadyNewer ∨ a.sync.result = .fenced then
      max sub.desiredVersion task.targetVersion + 1 else sub.desiredVersion
    provisioningStatus := .pendingUpdate
    lastSyncedAt := some now
    lastSyncError := a.syncError task sub }

/-- What the answer makes of the row. -/
def reconcile (task : ReconcileTask) (a : ReconcileAnswer) (now : Time)
    (sub : WhiteInternetSubscription) : WhiteInternetSubscription :=
  if a.Confirms task sub then sub.synced task a now else sub.unsynced task a now

end WhiteInternetSubscription

end Just1kBot
