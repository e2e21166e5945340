import Just1kBot.WhiteInternet.Operations

/-! The origin servers and what is placed on them: `database/repositories/servers_repo.py`, the
    migration checks of `services/white_internet_service.py` and the allocation sweep of
    `services/workers/white_internet_reconciliation.py`.

    A subscription consumes a place on its origin by its status or by its provisioning state. A
    new origin is chosen under the lock of its server, so counting and placing are one step. -/

namespace Just1kBot

inductive ServerHealthState
  | online | waitingConfirmation | problem | manualDisabled
  deriving DecidableEq, Repr

inductive ServerLifecycleStatus
  | active | decommissioning | decommissioned | archived
  deriving DecidableEq, Repr

def vlessProtocol : String := "vless"
def xrayProtocol : String := "xray"
def xrayOriginCapability : String := "xray_origin"

structure Server where
  id : ServerId
  apiUrl : String := ""
  apiKey : String := ""
  protocol : String := vlessProtocol
  maxClients : ℕ := 50
  isActive : Bool := true
  healthState : ServerHealthState := .online
  lifecycleStatus : ServerLifecycleStatus := .active
  capabilities : List String := []
  relays : List (Option String) := []
  deriving DecidableEq, Repr

namespace Server

/-- Usable as the origin of a client that is served: the service keeps it there. -/
def Healthy (s : Server) : Prop :=
  s.protocol = xrayProtocol ∧ s.isActive = true ∧ s.healthState = .online ∧
    s.lifecycleStatus = .active ∧ s.relays ≠ []

instance : DecidablePred Healthy := fun s => by unfold Healthy; infer_instance

/-- The conditions `allocate_origin_server_atomic` verifies under the lock, the places apart. -/
def Allocatable (s : Server) : Prop :=
  s.Healthy ∧ Lib.Python.strip s.apiUrl ≠ "" ∧ Lib.Python.strip s.apiKey ≠ "" ∧
    xrayOriginCapability ∈ s.capabilities

instance : DecidablePred Allocatable := fun s => by unfold Allocatable; infer_instance

/-- The servers the capacity audit looks at. -/
def ActiveOrigin (s : Server) : Prop :=
  s.isActive = true ∧ s.lifecycleStatus = .active ∧ xrayOriginCapability ∈ s.capabilities

instance : DecidablePred ActiveOrigin := fun s => by unfold ActiveOrigin; infer_instance

end Server

namespace WhiteInternetSubscription

/-- `capacity_consuming_wl_condition`. -/
def ConsumesCapacity (sub : WhiteInternetSubscription) : Prop :=
  sub.status = .pending ∨ sub.status = .active ∨ sub.status = .exhausted ∨
    sub.provisioningStatus = .pendingCreate ∨ sub.provisioningStatus = .pendingUpdate ∨
    sub.provisioningStatus = .pendingDelete

instance : DecidablePred ConsumesCapacity := fun s => by unfold ConsumesCapacity; infer_instance

/-- The row takes a place on the server. -/
def PlacedOn (id : ServerId) (sub : WhiteInternetSubscription) : Prop :=
  sub.originNodeId = some id ∧ sub.ConsumesCapacity

instance (id : ServerId) : DecidablePred (PlacedOn id) := fun s => by
  unfold PlacedOn; infer_instance

/-- What the allocation sweep makes of a live row without an origin. -/
def allocate (origin : ServerId) (sub : WhiteInternetSubscription) : WhiteInternetSubscription :=
  { sub with
    originNodeId := origin, desiredVersion := sub.desiredVersion + 1
    provisioningStatus := .pendingUpdate, lastReconciledNodeEpoch := none }

/-- What the deletion of its origin makes of a row. -/
def detach (sub : WhiteInternetSubscription) : WhiteInternetSubscription :=
  { sub with
    originNodeId := none, provisioningStatus := .syncedInactive, lastReconciledNodeEpoch := none }

end WhiteInternetSubscription

/-- The operations that go through the service. -/
def RowOp.Served : RowOp → Prop
  | .renew .. | .convertTrial .. | .addDeviceSlot _ | .topupQuota .. => True
  | _ => False

instance : DecidablePred RowOp.Served := fun op => by
  cases op <;> unfold RowOp.Served <;> infer_instance

/-- The operation without a choice of the origin. -/
def RowOp.inPlace : RowOp → Option RowOp
  | .convertTrial durationDays _ now => some (.convertTrial durationDays none now)
  | .migrateTo _ => none
  | op => some op

/-- The servers and the subscriptions. -/
structure Fleet where
  servers : List Server := []
  tables : WhiteInternetTables := {}
  deriving DecidableEq, Repr

namespace Fleet

def server (f : Fleet) (id : ServerId) : Option Server := Lib.Table.lookup Server.id id f.servers

def putSubscription (f : Fleet) (sub : WhiteInternetSubscription) : Fleet :=
  { f with tables := f.tables.putSubscription sub }

/-- The subscriptions that take a place on the server. -/
def consumers (f : Fleet) (id : ServerId) : ℕ :=
  f.tables.subscriptions.countP fun sub => sub.PlacedOn id

def candidateIds (f : Fleet) : List ServerId :=
  ((f.servers.filter fun s => s.protocol = xrayProtocol ∧ s.isActive = true ∧
    s.healthState = .online ∧ s.lifecycleStatus = .active).map Server.id).mergeSort

/-- `allocate_origin_server_atomic`: the first candidate by id that still is allocatable and has a
    place. -/
def allocateOriginServer (f : Fleet) : Option Server :=
  f.candidateIds.findSome? fun id =>
    (f.server id).filter fun s => s.Allocatable ∧ f.consumers s.id < s.maxClients

/-- `needs_migration`: the origin of the row is gone or not healthy. -/
def NeedsMigration (f : Fleet) (sub : WhiteInternetSubscription) : Prop :=
  ∀ s ∈ sub.originNodeId.bind f.server, ¬ s.Healthy

instance (f : Fleet) : DecidablePred f.NeedsMigration := fun s => by
  unfold NeedsMigration; infer_instance

/-- The change of the row in a paid operation of the service: a row whose origin is not usable moves
    to a new one first. The operation is checked before anything is written. -/
def serve (f : Fleet) (sub : WhiteInternetSubscription) (op : RowOp) :
    Option WhiteInternetSubscription :=
  if f.NeedsMigration sub then
    (op.apply sub).bind fun _ => f.allocateOriginServer.bind fun s => op.apply (sub.migrateTo s.id)
  else op.apply sub

/-- The row an operation commits, if it goes through. The service alone moves a row to another
    origin. -/
def apply (f : Fleet) (sub : WhiteInternetSubscription) (op : RowOp) :
    Option WhiteInternetSubscription :=
  op.inPlace.bind fun op => if op.Served then f.serve sub op else op.apply sub

def rowOp (f : Fleet) (target : ℕ) (op : RowOp) : Fleet :=
  match (f.tables.subscription target).bind (f.apply · op) with
  | some sub' => f.putSubscription sub'
  | none => f

/-- A purchase or the start of a trial: a fresh row for a user without one, on the server the
    allocation picks. -/
def create (f : Fleet) (id : ℕ) (userId : UserId) (uuid : Uuid) (isTrial : Bool) (now : Time) :
    Fleet :=
  if (f.tables.subscriptionByUserId userId).isSome then f
  else
    match f.allocateOriginServer with
    | none => f
    | some s => { f with tables := f.tables.step (.create id userId s.id uuid isTrial now) }

/-- `_sweep_unallocated_subscriptions`, at one row. -/
def sweepUnallocated (f : Fleet) (target : ℕ) : Fleet :=
  match f.tables.subscription target, f.allocateOriginServer with
  | some sub, some s =>
    if sub.originNodeId = none ∧
        (sub.status = .pending ∨ sub.status = .active ∨ sub.status = .exhausted) then
      f.putSubscription (sub.allocate s.id)
    else f
  | _, _ => f

/-- The rows a migration moves get the target as their origin; the source is left a cleanup for each
    of them. -/
def moveAll (source target : ServerId) (t : WhiteInternetTables) : WhiteInternetTables :=
  { subscriptions := t.subscriptions.map fun sub =>
      if sub.PlacedOn source then sub.migrateOrigin target else sub
    orphanCleanups := t.orphanCleanups ++
      (t.subscriptions.filter fun sub => sub.PlacedOn source).map fun sub =>
        { serverId := some source, clientUuid := sub.uuid, desiredVersion := sub.desiredVersion } }

/-- `migrate_origin_subscriptions`. -/
def migrateOriginSubscriptions (f : Fleet) (source target : ServerId) : Except Err (ℕ × Fleet) :=
  if source = target then .error (.valueError "Source and target servers must be different.")
  else
    match f.server source, f.server target with
    | some sourceServer, some targetServer =>
      if targetServer.protocol ≠ xrayProtocol ∨ targetServer.isActive = false then
        .error (.valueError "Target server is not an active Xray node.")
      else if xrayOriginCapability ∉ targetServer.capabilities then
        .error (.valueError
          "Target server does not have the required 'xray_origin' capability.")
      else if targetServer.relays = [] then
        .error (.valueError "Target server does not have relays configured.")
      else if targetServer.healthState ≠ .online ∧
          targetServer.healthState ≠ .waitingConfirmation then
        .error (.valueError "Target server health state is not eligible for migration.")
      else if f.consumers source = 0 then .ok (0, f)
      else if targetServer.maxClients < f.consumers target + f.consumers source then
        .error (.valueError (s!"Недостаточно мест на целевом сервере: свободно " ++
          s!"{targetServer.maxClients - f.consumers target}, требуется {f.consumers source}."))
      else
        .ok (f.consumers source,
          { servers := Lib.Table.put Server.id
              { sourceServer with lifecycleStatus := .decommissioning } f.servers
            tables := moveAll source target f.tables })
    | _, _ => .error (.valueError "Source or target server not found.")

/-- What the deletion of a server does: its rows are left without an origin. -/
def detach (f : Fleet) (id : ServerId) : Fleet :=
  { servers := f.servers.filter (·.id ≠ id)
    tables := { f.tables with subscriptions := f.tables.subscriptions.map fun sub =>
      if sub.originNodeId = some id then sub.detach else sub } }

/-- A server row is changed: its health, its lifecycle, its places, which are not lowered. -/
def editServer (f : Fleet) (s : Server) : Fleet :=
  match f.server s.id with
  | some old =>
    if old.maxClients ≤ s.maxClients then { f with servers := Lib.Table.put Server.id s f.servers }
    else f
  | none => f

end Fleet

/-- What can happen to the fleet. -/
inductive FleetEvent
  | create (id : ℕ) (userId : UserId) (uuid : Uuid) (isTrial : Bool) (now : Time)
  | row (target : ℕ) (op : RowOp)
  | revoke (order : Order) (user : User)
  | delete (id : ℕ)
  | sweepUnallocated (target : ℕ)
  | migrateOrigin (source target : ServerId)
  | detach (id : ServerId)
  | editServer (s : Server)

def Fleet.step (f : Fleet) : FleetEvent → Fleet
  | .create id userId uuid isTrial now => f.create id userId uuid isTrial now
  | .row target op => f.rowOp target op
  | .revoke order user => { f with tables := f.tables.step (.revoke order user) }
  | .delete id => { f with tables := f.tables.step (.delete id) }
  | .sweepUnallocated target => f.sweepUnallocated target
  | .migrateOrigin source target => Lib.commit f (f.migrateOriginSubscriptions source target)
  | .detach id => f.detach id
  | .editServer s => f.editServer s

end Just1kBot
