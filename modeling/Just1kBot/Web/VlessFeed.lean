import Just1kBot.Web.FeedRequest

/-! The VLESS feed: `vless_subscription_feed_handler`, with `register_hwid_atomic` of the VLESS
    repository and `generate_vless_links`.

    The handler reads the subscription and its user without a lock. The registration locks the user
    and then the subscription, reads both anew and checks them again, the token apart; then the
    handler refreshes the subscription and makes its links. -/

namespace Just1kBot
namespace VlessFeed
open FeedState (respond answer select)

def tooManyRequests : String := "Слишком много запросов к подписке. Попробуйте позже."
def noServersText : String := "No servers available"
def hwidRequiredText : String := "HWID required"

/-! ### The links -/

/-- `[a-zA-Z0-9](?:[a-zA-Z0-9-]{0,61}[a-zA-Z0-9])?`. -/
def isHostLabel (label : List Char) : Bool :=
  label.length ≤ 63 && label.head?.any Char.isAlphanum && label.getLast?.any Char.isAlphanum &&
    label.all fun c => c.isAlphanum || c = '-'

/-- `_FQDN_REGEX`. -/
def matchesFqdn (domain : List Char) : Bool :=
  let labels := domain.splitOn '.'
  let tld := labels.getLastD []
  1 ≤ domain.length && domain.length ≤ 253 && 2 ≤ labels.length &&
    labels.dropLast.all isHostLabel && 2 ≤ tld.length && tld.length ≤ 63 && tld.all Char.isAlpha

/-- The domain of the clients of a server, where a valid one is configured. -/
def publicDomain (u : Lib.Url.Unicode) (server : FeedServer) : Option (List Char) :=
  let raw :=
    if server.domain ≠ [] then server.domain
    else if server.vlessDomain ≠ [] then server.vlessDomain
    else ((Lib.Url.urlsplit u server.apiUrl.toList).bind fun url => url.hostname u).getD []
  let domain := u.lower (Lib.Python.stripChars raw)
  if matchesFqdn domain then some domain else none

/-- `generate_vless_links`. -/
def generateVlessLinks (u : Lib.Url.Unicode) (uuid : Uuid) (servers : List FeedServer) :
    List FeedLink :=
  servers.filterMap fun server =>
    if server.isActive = false ∨ server.healthState ≠ .online ∨ server.lifecycleStatus ≠ .active ∨
        server.originHidden then none
    else (publicDomain u server).map fun host => { uuid, host }

/-- `is_vless_capable_server`. -/
def isVlessCapable (u : Lib.Url.Unicode) (server : FeedServer) : Bool :=
  server.capabilities.contains "vless" || server.capabilities.contains "xray_vless" ||
    u.lower (Lib.Python.stripChars server.protocol.toList) = vlessProtocol.toList

/-- `get_eligible_vless_servers`. -/
def eligibleServers (u : Lib.Url.Unicode) (w : FeedWorld) : List FeedServer :=
  w.servers.filter fun s =>
    s.isActive && s.healthState = .online && s.lifecycleStatus = .active && isVlessCapable u s

/-! ### The registration -/

/-- `get_effective_device_limit`. -/
def effectiveDeviceLimit (w : FeedWorld) (user : User) : ℕ :=
  match user.currentTariffId with
  | none | some 0 => user.deviceLimit
  | some id =>
    match Lib.Table.lookup FeedTariff.id id w.tariffs with
    | none => user.deviceLimit
    | some t =>
      if t.serviceType = .standard ∨ t.serviceType = .awg then t.deviceLimit else user.deviceLimit

/-- What the registration requires of the user and the subscription it has locked. -/
def entitled (now : Time) (sub : VlessRow) (user : User) : Bool :=
  !user.isBanned && !user.financialHold && !user.isDeleted && sub.isActive &&
    checkVpnAccess now user

/-- What stands when the lock on the subscription is granted, and when the devices are counted. -/
structure Lock where
  id : ℕ
  locked : FeedWorld
  registered : FeedWorld

/-- `SELECT user_id … WHERE id = id`. -/
def selectOwner (id : ℕ) : Lib.Program (FeedState Lock) (Option UserId) :=
  .access
    (fun s => { s with owner := (s.world.vlessRow id).map fun row => (id, row.userId) })
    fun s => (s.world.vlessRow id).map fun row => row.userId

/-- `SELECT … FROM users … FOR UPDATE`. -/
def lockUser (id : UserId) : Lib.Program (FeedState Lock) (Option User) :=
  .access
    (fun s => { s with locks := { s.locks with user := (s.world.user id).map fun _ => id } })
    fun s => s.world.user id

/-- `SELECT … FROM vless_subscriptions … FOR UPDATE`, and what stands then. -/
def lockRow (id : ℕ) : Lib.Program (FeedState Lock) FeedWorld :=
  .access
    (fun s => { s with locks := { s.locks with vless := (s.world.vlessRow id).map fun _ => id } })
    fun s => s.world

/-- The device limit is read and the devices are counted. -/
def countDevices (id : ℕ) (locked : FeedWorld) : Lib.Program (FeedState Lock) FeedWorld :=
  .access (fun s => { s with lock := some { id, locked, registered := s.world } }) fun s => s.world

/-- `register_hwid_atomic`: the subscription and what becomes of the device, or nothing where it is
    turned away before that. -/
def registerHwidAtomic (id : ℕ) (req : FeedRequest) :
    Lib.Program (FeedState Lock) (Option (VlessRow × Registration)) :=
  if req.rawHwid.cleanVless = none then pure none
  else do
    let some userId ← selectOwner id | pure none
    let user ← lockUser userId
    let locked ← lockRow id
    match locked.vlessRow id, user with
    | some sub, some user =>
      if entitled locked.now sub user then do
        let w ← countDevices id locked
        pure (some (sub, sub.activeHwids.registerHwidVless w.now true (effectiveDeviceLimit w user)
          req.rawHwid req.deviceInfo))
      else pure none
    | _, _ => pure none

/-! ### The handler -/

/-- The deactivation of a subscription without access, by an object loaded as `copy`. -/
def deactivate (copy : VlessRow) (w : FeedWorld) : FeedWorld :=
  if copy.isActive then
    w.updateVless copy.id fun row =>
      { row with isActive := false, version := max 1 copy.version + 1 }
  else w

/-- The page on a subscription without access. -/
def closedPage (now : Time) (user : User) : FeedPage :=
  if user.financialHold ∨ ∃ e ∈ user.subscriptionEnd, now < e then .paused else .expired

def deviceLimitNotice : FeedResponse := { status := 200, body := .notice .deviceLimit }

/-- The flush of a registration. -/
def flush (sub : VlessRow) (r : Registration) (w : FeedWorld) : FeedWorld :=
  w.updateVless sub.id fun row =>
    { row with activeHwids := Lib.written sub.activeHwids r.devices row.activeHwids }

/-- A statement of the handler raises: its session is rolled back. -/
def rollback : Lib.Program (FeedState Lock) FeedResponse :=
  .statement (fun s => { s with locks := {} }) fun _ => .done .internalError

/-- The end of the handler, once its checks are passed: the registration, `session.refresh`, and
    the links. -/
def disclose (u : Lib.Url.Unicode) (req : FeedRequest) (copy : VlessRow)
    (servers : List FeedServer) : Lib.Program (FeedState Lock) FeedResponse := do
  let some (sub, r) ← registerHwidAtomic copy.id req | answer deviceLimitNotice
  if r.allowed then do
    let some fresh ← select fun w => w.vlessRow copy.id | rollback
    respond (flush sub r) (.ofLinks (generateVlessLinks u fresh.uuid servers))
  else answer deviceLimitNotice

/-- The handler, for a subscription whose user is there and not banned. -/
def serve (u : Lib.Url.Unicode) (req : FeedRequest) (copy : VlessRow) (user : User) :
    Lib.Program (FeedState Lock) FeedResponse := do
  let now ← select FeedWorld.now
  if ¬ copy.isActive ∨ user.financialHold ∨ ¬ checkVpnAccess now user then
    respond (deactivate copy) (.closed (req.isBrowser u) (closedPage now user) .expired)
  else if req.rawHwid = [] then
    answer (if req.isBrowser u then .page .active else .text 403 hwidRequiredText)
  else do
    let servers ← select (eligibleServers u)
    if generateVlessLinks u copy.uuid servers = [] then answer (.text 503 noServersText)
    else disclose u req copy servers

/-- `vless_subscription_feed_handler`. -/
def feed (u : Lib.Url.Unicode) (req : FeedRequest) :
    Lib.Program (FeedState Lock) FeedResponse :=
  match req.refused tooManyRequests with
  | some resp => .done resp
  | none => do
    let some copy ← select fun w => w.vlessByToken req.cleanToken | answer .notFound
    let some user ← select fun w => w.user copy.userId | answer .notFound
    if user.isDeleted then answer .notFound
    else if user.isBanned then answer .forbidden
    else serve u req copy user

/-! ### What a request is promised -/

/-- The user may use the subscription, and it serves. -/
structure Entitled (w : FeedWorld) (row : VlessRow) (user : User) : Prop where
  banned : user.isBanned = false
  deleted : user.isDeleted = false
  held : user.financialHold = false
  active : row.isActive = true
  unexpired : isVpnAccessExpired w.now vpnAccessGraceHours user.subscriptionEnd = false

/-- An answer with links came from locks under which the user was entitled to them: they carry the
    UUID of the row, and the device of the request is stored among no more than its user may have.
    Any other answer came with a commit that entered no device. -/
structure Promises (req : FeedRequest) (resp : FeedResponse) (s : FeedState Lock) : Prop where
  disclosed : resp.links ≠ [] → ∃ lock ∈ s.lock, ∃ row ∈ lock.locked.vlessRow lock.id,
    ∃ user ∈ lock.locked.user row.userId, Entitled lock.locked row user ∧
      (∀ l ∈ resp.links, l.uuid = row.uuid) ∧
      ∃ hwid ∈ req.rawHwid.cleanVless, ∃ c ∈ s.commit, ∃ stored ∈ c.2.vlessRow lock.id,
        stored.activeHwids.Holds lock.registered.now
          (effectiveDeviceLimit lock.registered user) hwid
  silent : resp.links = [] → ∀ c ∈ s.commit, FeedWorld.EntersNone c.1 c.2

/-! ### The registration -/

variable {u : Lib.Url.Unicode} {req : FeedRequest}

section Registration
variable {now : Time} {limit : ℕ} {info : DeviceInfo} {d : Devices} {hwid : DeviceId}
  {r : Registration} (hr : r = d.registerHwidVless now true limit hwid info)
include hr

theorem respects : Devices.Respects now limit hwid.cleanVless d r := by
  rw [hr]
  exact DeviceRows.registerVless_respects now true limit hwid info d

end Registration

/-- What the registration requires entitles. -/
theorem entitled_of_passed {w : FeedWorld} {sub : VlessRow} {user : User}
    (h : entitled w.now sub user = true) : Entitled w sub user := by
  simp only [entitled, Bool.and_eq_true, Bool.not_eq_true'] at h
  obtain ⟨⟨⟨⟨hbanned, hheld⟩, hdeleted⟩, hactive⟩, haccess⟩ := h
  rw [checkVpnAccess] at haccess
  split_ifs at haccess
  exact ⟨hbanned, hdeleted, hheld, hactive, by simpa using haccess⟩

/-! ### The links -/

theorem uuid_of_mem_links {uuid : Uuid} {servers : List FeedServer} {l : FeedLink}
    (h : l ∈ generateVlessLinks u uuid servers) : l.uuid = uuid := by
  obtain ⟨server, -, hserver⟩ := List.mem_filterMap.mp h
  split_ifs at hserver
  obtain ⟨host, -, rfl⟩ := Option.map_eq_some_iff.mp hserver
  rfl

/-- Whether there is a link does not depend on the UUID. -/
theorem links_eq_nil_iff (uuid uuid' : Uuid) (servers : List FeedServer) :
    generateVlessLinks u uuid servers = [] ↔ generateVlessLinks u uuid' servers = [] := by
  simp only [generateVlessLinks, List.filterMap_eq_nil_iff]
  refine forall₂_congr fun server _ => ?_
  split_ifs
  · exact Iff.rfl
  · rw [Option.map_eq_none_iff, Option.map_eq_none_iff]

/-! ### What holds between the statements -/

/-- The handler has registered nothing and written nothing yet. -/
def Quiet (s : FeedState Lock) : Prop := s.lock = none ∧ s.commit = none

/-- It knows the user of the subscription. -/
structure Owned (id : ℕ) (userId : UserId) (s : FeedState Lock) : Prop where
  quiet : Quiet s
  owner : s.owner = some (id, userId)
  found : ∀ row ∈ s.world.vlessRow id, row.userId = userId

/-- It has locked the user, if there is one. -/
structure UserLocked (id : ℕ) (userId : UserId) (user : Option User) (s : FeedState Lock) : Prop
    extends Owned id userId s where
  holdsUser : ∀ x ∈ user, s.locks.user = some userId ∧ s.world.user userId = some x

/-- It has locked the subscription as well, if there is one, and found the world as `locked`. -/
structure RowLocked (id : ℕ) (userId : UserId) (user : Option User) (locked : FeedWorld)
    (s : FeedState Lock) : Prop extends Owned id userId s where
  stoodUser : ∀ x ∈ user, locked.user userId = some x
  stood : ∀ sub ∈ locked.vlessRow id, sub.userId = userId
  holdsRow : ∀ sub ∈ locked.vlessRow id, s.locks.vless = some id ∧ s.world.vlessRow id = some sub

/-- It has registered the device `req` names on the subscription `sub`, with the outcome `r`. -/
structure Registered (req : FeedRequest) (sub : VlessRow) (r : Registration) (lock : Lock)
    (user : User) (s : FeedState Lock) : Prop where
  noted : s.lock = some lock
  commit : s.commit = none
  locks : s.locks.vless = some lock.id
  found : s.world.vlessRow lock.id = some sub
  stood : lock.locked.vlessRow lock.id = some sub
  stoodUser : lock.locked.user sub.userId = some user
  passed : entitled lock.locked.now sub user = true
  registration : r = sub.activeHwids.registerHwidVless lock.registered.now true
    (effectiveDeviceLimit lock.registered user) req.rawHwid req.deviceInfo

theorem quiet_others (s : FeedState Lock) (w : FeedWorld) (h : Quiet s) : Quiet (s.others w) :=
  s.others_of_history (P := fun lock commit => lock = none ∧ commit = none) w h

theorem owned_others {id : ℕ} {userId : UserId} (s : FeedState Lock) (w : FeedWorld)
    (h : Owned id userId s) : Owned id userId (s.others w) := by
  rcases s.others_eq w with heq | ⟨heq, hallows⟩
  · rw [heq]
    exact h
  · rw [heq]
    exact ⟨h.quiet, h.owner, hallows.owner _ h.owner⟩

theorem userLocked_others {id : ℕ} {userId : UserId} {user : Option User} (s : FeedState Lock)
    (w : FeedWorld) (h : UserLocked id userId user s) : UserLocked id userId user (s.others w) := by
  refine ⟨owned_others s w h.toOwned, ?_⟩
  rcases s.others_eq w with heq | ⟨heq, hallows⟩
  · rw [heq]
    exact h.holdsUser
  · rw [heq]
    intro x hx
    obtain ⟨hlock, hfound⟩ := h.holdsUser x hx
    exact ⟨hlock, (hallows.user _ hlock).trans hfound⟩

theorem rowLocked_others {id : ℕ} {userId : UserId} {user : Option User} {locked : FeedWorld}
    (s : FeedState Lock) (w : FeedWorld) (h : RowLocked id userId user locked s) :
    RowLocked id userId user locked (s.others w) := by
  refine ⟨owned_others s w h.toOwned, h.stoodUser, h.stood, ?_⟩
  rcases s.others_eq w with heq | ⟨heq, hallows⟩
  · rw [heq]
    exact h.holdsRow
  · rw [heq]
    intro sub hsub
    obtain ⟨hlock, hfound⟩ := h.holdsRow sub hsub
    exact ⟨hlock, (hallows.vless _ hlock).trans hfound⟩

theorem registered_others {sub : VlessRow} {r : Registration} {lock : Lock} {user : User}
    (s : FeedState Lock) (w : FeedWorld) (h : Registered req sub r lock user s) :
    Registered req sub r lock user (s.others w) := by
  rcases s.others_eq w with heq | ⟨heq, hallows⟩
  · rw [heq]
    exact h
  · rw [heq]
    exact { h with found := (hallows.vless _ h.locks).trans h.found }

theorem promises_others {resp : FeedResponse} (s : FeedState Lock) (w : FeedWorld)
    (h : Promises req resp s) : Promises req resp (s.others w) := by
  rcases s.others_eq w with heq | ⟨heq, -⟩
  · rw [heq]
    exact h
  · rw [heq]
    exact ⟨h.disclosed, h.silent⟩

/-! ### Every run -/

theorem promises_of_rolledBack {resp : FeedResponse} {s : FeedState Lock}
    (hlinks : resp.links = []) (hcommit : s.commit = none) : Promises req resp s where
  disclosed h := absurd hlinks h
  silent _ c hc := by
    rw [hcommit] at hc
    cases hc

theorem entersNone_deactivate {copy : VlessRow} (w : FeedWorld) :
    FeedWorld.EntersNone w (deactivate copy w) := by
  rw [deactivate]
  split_ifs
  · exact FeedWorld.entersNone_updateVless fun _ => ⟨rfl, rfl⟩
  · exact FeedWorld.EntersNone.refl w

/-- An answer without links, to a request that has registered nothing and enters no device. -/
theorem meets_respond {write : FeedWorld → FeedWorld} {resp : FeedResponse}
    {J : FeedState Lock → Prop} {s : FeedState Lock} (hJ : ∀ s w, J s → J (s.others w)) (hs : J s)
    (hcommit : ∀ t, J t → t.commit = none) (hlinks : resp.links = [])
    (hwrite : ∀ w, FeedWorld.EntersNone w (write w)) :
    (respond write resp).Meets FeedState.others (Promises req) s := by
  refine FeedState.meets_respond hJ hs (fun t ht => promises_of_rolledBack rfl (hcommit t ht)) ?_
  intro t _
  refine ⟨fun h => absurd hlinks h, fun _ c hc => ?_⟩
  obtain rfl := Option.some.inj hc
  exact hwrite t.world

theorem meets_answer {resp : FeedResponse} {s : FeedState Lock} (hs : Quiet s)
    (hlinks : resp.links = []) : (answer resp).Meets FeedState.others (Promises req) s :=
  meets_respond quiet_others hs (fun _ ht => ht.2) hlinks FeedWorld.EntersNone.refl

section Statements
variable {id : ℕ} {userId : UserId} {user : Option User} {locked : FeedWorld} {s : FeedState Lock}

theorem owned_selectOwner {row : VlessRow} (hs : Quiet s) (hrow : s.world.vlessRow id = some row) :
    Owned id row.userId
      { s with owner := (s.world.vlessRow id).map fun row => (id, row.userId) } := by
  rw [hrow]
  refine ⟨hs, rfl, fun row' hrow' => ?_⟩
  rw [Option.some.inj (hrow.symm.trans hrow')]

theorem userLocked_lockUser (hs : Owned id userId s) :
    UserLocked id userId (s.world.user userId)
      { s with locks := { s.locks with user := (s.world.user userId).map fun _ => userId } } := by
  refine ⟨⟨hs.quiet, hs.owner, hs.found⟩, fun x hx => ⟨?_, hx⟩⟩
  rw [Option.mem_def.mp hx]
  rfl

theorem rowLocked_lockRow (hs : UserLocked id userId user s) :
    RowLocked id userId user s.world
      { s with locks := { s.locks with vless := (s.world.vlessRow id).map fun _ => id } } := by
  refine ⟨⟨hs.quiet, hs.owner, hs.found⟩, fun x hx => (hs.holdsUser x hx).2, hs.found, ?_⟩
  intro sub hsub
  refine ⟨?_, hsub⟩
  rw [Option.mem_def.mp hsub]
  rfl

theorem registered_countDevices {sub : VlessRow} {x : User}
    (hs : RowLocked id userId (some x) locked s) (hsub : locked.vlessRow id = some sub)
    (hpassed : entitled locked.now sub x = true) :
    Registered req sub
      (sub.activeHwids.registerHwidVless s.world.now true (effectiveDeviceLimit s.world x)
        req.rawHwid req.deviceInfo)
      { id, locked, registered := s.world } x
      { s with lock := some { id, locked, registered := s.world } } where
  noted := rfl
  commit := hs.quiet.2
  locks := (hs.holdsRow sub hsub).1
  found := (hs.holdsRow sub hsub).2
  stood := hsub
  stoodUser := by
    rw [hs.stood sub hsub]
    exact hs.stoodUser x rfl
  passed := hpassed
  registration := rfl

end Statements

/-- The flush of a registration, under the lock. -/
theorem stored_flush {w : FeedWorld} {id : ℕ} {sub : VlessRow} {r : Registration}
    (hrow : w.vlessRow id = some sub) :
    ∃ stored ∈ (flush sub r w).vlessRow id, stored.activeHwids = r.devices := by
  refine ⟨{ sub with activeHwids := Lib.written sub.activeHwids r.devices sub.activeHwids }, ?_,
    Lib.written_stored _ _⟩
  rw [flush, (FeedWorld.of_vlessRow hrow).2, FeedWorld.vlessRow_update, hrow]
  · rfl
  · exact fun _ => rfl

/-- The registration turned the request away, or it registered the device under its locks. -/
def Outcome (req : FeedRequest) (id : ℕ) : Option (VlessRow × Registration) → FeedState Lock → Prop
  | none, s => Quiet s
  | some (sub, r), s => ∃ lock user, lock.id = id ∧ Registered req sub r lock user s

theorem meets_registerHwidAtomic {id : ℕ} {s : FeedState Lock} (hs : Quiet s) :
    (registerHwidAtomic id req).Meets FeedState.others (Outcome req id) s := by
  rw [registerHwidAtomic]
  split_ifs
  · exact Lib.Program.meets_done hs
  · refine Lib.Program.meets_access quiet_others hs fun s hs => ?_
    cases hrow : s.world.vlessRow id with
    | none => exact Lib.Program.meets_done hs
    | some row =>
      have howned := owned_selectOwner hs hrow
      rw [hrow] at howned
      refine Lib.Program.meets_access owned_others howned fun s hs => ?_
      refine Lib.Program.meets_access userLocked_others (userLocked_lockUser hs) fun t ht => ?_
      have hlocked := rowLocked_lockRow ht
      cases hsub : t.world.vlessRow id with
      | none => exact Lib.Program.meets_done ht.quiet
      | some sub =>
        rw [hsub] at hlocked
        cases huser : s.world.user row.userId with
        | none => exact Lib.Program.meets_done ht.quiet
        | some x =>
          simp only
          rw [huser] at hlocked
          split_ifs with hpassed
          · refine Lib.Program.meets_access rowLocked_others hlocked fun s hs => ?_
            exact Lib.Program.meets_done ⟨_, x, rfl, registered_countDevices hs hsub hpassed⟩
          · exact Lib.Program.meets_done ht.quiet

/-- The links of a request whose device was admitted, with its flush. -/
theorem meets_links {sub fresh : VlessRow} {r : Registration} {lock : Lock} {user : User}
    {servers : List FeedServer} {s : FeedState Lock} (hs : Registered req sub r lock user s)
    (hallowed : r.allowed = true) (hfresh : fresh.uuid = sub.uuid)
    (hservers : generateVlessLinks u fresh.uuid servers ≠ []) :
    (respond (flush sub r) (.ofLinks (generateVlessLinks u fresh.uuid servers))).Meets
      FeedState.others (Promises req) s := by
  refine FeedState.meets_respond registered_others hs
    (fun t ht => promises_of_rolledBack rfl ht.commit) fun t ht => ⟨fun _ => ?_, ?_⟩
  · obtain ⟨hwid, hclean, hholds⟩ := (respects ht.registration).holds hallowed
    obtain ⟨stored, hstored, hdevices⟩ := stored_flush (r := r) ht.found
    refine ⟨lock, ht.noted, sub, ht.stood, user, ht.stoodUser, entitled_of_passed ht.passed,
      fun l hl => (uuid_of_mem_links hl).trans hfresh, hwid, hclean, _, rfl, stored, hstored, ?_⟩
    rw [hdevices]
    exact hholds
  · exact fun h => absurd h hservers

theorem meets_disclose {copy : VlessRow} {servers : List FeedServer} {s : FeedState Lock}
    (hs : Quiet s) (hservers : generateVlessLinks u copy.uuid servers ≠ []) :
    (disclose u req copy servers).Meets FeedState.others (Promises req) s := by
  rw [disclose]
  refine Lib.Program.meets_bind (Lib.Program.meets_mono ?_ (meets_registerHwidAtomic hs))
  rintro (_ | ⟨sub, r⟩) t ht
  · exact meets_answer ht rfl
  · obtain ⟨lock, user, hid, ht⟩ := ht
    cases hallowed : r.allowed with
    | false =>
      simp only [hallowed]
      exact meets_respond registered_others ht (fun _ ht => ht.commit) rfl
        FeedWorld.EntersNone.refl
    | true =>
      simp only [hallowed]
      refine FeedState.meets_select registered_others ht fun t ht => ?_
      rw [← hid, ht.found]
      refine meets_links ht hallowed rfl ?_
      exact mt (links_eq_nil_iff _ copy.uuid servers).mp hservers

theorem meets_serve {copy : VlessRow} {user : User} {s : FeedState Lock} (hs : Quiet s) :
    (serve u req copy user).Meets FeedState.others (Promises req) s := by
  refine FeedState.meets_select quiet_others hs fun s hs => ?_
  by_cases hclosed : ¬ copy.isActive ∨ user.financialHold ∨ ¬ checkVpnAccess s.world.now user
  · rw [if_pos hclosed]
    exact meets_respond quiet_others hs (fun _ ht => ht.2) (FeedResponse.links_closed ..)
      entersNone_deactivate
  · rw [if_neg hclosed]
    by_cases hhwid : req.rawHwid = []
    · rw [if_pos hhwid]
      refine meets_answer hs ?_
      split_ifs <;> rfl
    · rw [if_neg hhwid]
      refine FeedState.meets_select quiet_others hs fun s hs => ?_
      split_ifs with hservers
      · exact meets_answer hs rfl
      · exact meets_disclose hs hservers

/-- The handler, whatever the others do between its statements. -/
theorem meets_feed {s : FeedState Lock} (hs : Quiet s) :
    (feed u req).Meets FeedState.others (Promises req) s := by
  rw [feed]
  cases hrefused : req.refused tooManyRequests with
  | some resp =>
    exact Lib.Program.meets_done (promises_of_rolledBack (FeedRequest.refused_links hrefused) hs.2)
  | none =>
    refine FeedState.meets_select quiet_others hs fun s hs => ?_
    cases s.world.vlessByToken req.cleanToken with
    | none => exact meets_answer hs rfl
    | some copy =>
      refine FeedState.meets_select quiet_others hs fun s hs => ?_
      cases s.world.user copy.userId with
      | none => exact meets_answer hs rfl
      | some user =>
        simp only
        split_ifs
        · exact meets_answer hs rfl
        · exact meets_answer hs rfl
        · exact meets_serve hs

/-- Every run of the handler ends with the promises. -/
theorem promises_of_run (u : Lib.Url.Unicode) (req : FeedRequest) (w : FeedWorld)
    (ms : List (Lib.Move FeedWorld)) (resp : FeedResponse) :
    let final := Lib.run (Lib.Process.step FeedState.others)
      { store := { world := w }, program := feed u req } ms
    final.program = .done resp → Promises req resp final.store := by
  intro final hfinal
  exact Lib.Process.meets_run (Q := Promises req) (fun _ => promises_others)
    (meets_feed ⟨rfl, rfl⟩) ms hfinal

/-! ### A rotation before the locks -/

def phone : FeedRequest := { token := "0123456789abcdef".toList, xHwid := "Phone-1".toList }

/-- A user with one subscription, and one server that serves it. -/
def served (now : Time) (uuid : Uuid) (version : ℕ) : FeedWorld where
  now := now
  users := [{ id := 1, telegramId := 7, subscriptionEnd := some (days 30), deviceLimit := 2 }]
  vless := [{ id := 5, userId := 1, uuid, version, token := "0123456789abcdef".toList }]
  servers := [{ id := 3, capabilities := ["vless"], domain := "example.com".toList }]

/-- The UUID is rotated while the handler waits for the lock of the user. -/
def rotatedMidway : List (Lib.Move FeedWorld) :=
  List.replicate 5 .proceed ++ .other (served (seconds 5) 78 2) :: List.replicate 5 .proceed

theorem promises_of_run_rotated :
    Promises phone (.ofLinks [{ uuid := 78, host := "example.com".toList }])
      (Lib.run (Lib.Process.step FeedState.others)
        { store := { world := served 0 77 1 }, program := feed .asciiOnly phone }
        rotatedMidway).store :=
  promises_of_run .asciiOnly phone (served 0 77 1) rotatedMidway _ rfl

end VlessFeed
end Just1kBot
