import Just1kBot.Web.FeedRequest

/-! The White Internet feed: `white_internet_subscription_feed_handler`, with `register_hwid_atomic`
    of the White Internet repository and `generate_vless_links`.

    The handler reads the subscription, its user and its origin without a lock and refuses in a
    long chain of early returns. Then the registration waits for the lock of the subscription's row.
    Nothing is checked again after that. Whether the locking `session.get` overwrites the object
    that the session has loaded already is left open. -/

namespace Just1kBot
namespace WhiteInternetFeed
open FeedState (respond answer select)

def tooManyRequests : String := "Слишком много запросов. Пожалуйста, подождите минуту."
def pendingText : String := "Шлюз настраивается, повторите через несколько секунд."
def unsyncedText : String := "Шлюз синхронизируется, повторите через несколько секунд."
def cdnUnconfiguredText : String :=
  "Сетевой шлюз временно недоступен. Обратитесь к администратору."
def hwidRequiredText : String :=
  "Требуется HWID устройства. Включите отправку HWID в приложении."

/-- `WHITE_INTERNET_CDN_DOMAIN` and `WHITE_INTERNET_RELAYS` of the environment. -/
structure Config where
  cdnDomain : List Char := []
  relays : Option (List RelayEntry) := none

/-! ### The checks before the lock -/

/-- The user is missing, banned or deleted. -/
def barred (user : Option User) : Bool := user.all fun u => u.isBanned || u.isDeleted

/-- The answer to a subscription that does not serve: it is pending, disabled, expired or
    exhausted, in this order. -/
def statusAnswer (browser : Bool) (now : Time) (sub : WhiteInternetRow) : Option FeedResponse :=
  if sub.status = .pending then
    some (if browser then .page .pending else .text 503 pendingText)
  else if sub.status = .disabled then some (.closed browser .disabled .disabled)
  else if sub.status = .expired ∨ sub.expiresAt ≤ now then
    some (.closed browser .expired .expired)
  else if sub.status = .exhausted ∨ sub.availableQuota = 0 then
    some (.closed browser .exhausted .exhausted)
  else none

/-- `server_proto`. -/
def serverProto (server : FeedServer) : Option String :=
  if server.protocol ≠ "" then some server.protocol
  else if server.capabilities.contains xrayOriginCapability then some xrayProtocol
  else none

/-- The domain of the links. -/
def cdnDomain (u : Lib.Url.Unicode) (cfg : Config) (server : FeedServer) : Option (List Char) :=
  normalizePublicDomain u (if server.cdnDomain ≠ [] then server.cdnDomain else cfg.cdnDomain) true

/-- The origin that serves the subscription and its domain, or the answer that it does not. -/
def originAnswer (u : Lib.Url.Unicode) (cfg : Config) (sub : WhiteInternetRow) :
    Option FeedServer → Except FeedResponse (FeedServer × List Char)
  | none => .error (.text 503 unsyncedText)
  | some server =>
    if ¬ server.capabilities.contains xrayOriginCapability then .error (.text 503 unsyncedText)
    else if serverProto server ≠ some xrayProtocol ∨ sub.actualVersion ≠ sub.desiredVersion ∨
        sub.lastReconciledNodeEpoch ≠ server.xrayInstanceEpoch then
      .error (.text 503 unsyncedText)
    else if ¬ (server.isActive = true ∧ server.healthState = .online) ∧
        ¬ (sub.provisioningStatus = .active ∧ 0 < sub.actualVersion) then
      .error (.text 503 unsyncedText)
    else
      match cdnDomain u cfg server with
      | none => .error (.text 503 cdnUnconfiguredText)
      | some domain => .ok (server, domain)

/-! ### The links -/

/-- `r.get("code") or r.get("name")`. -/
def relayCode (r : Option String × Option String) : Option String :=
  if r.1 ≠ none ∧ r.1 ≠ some "" then r.1 else r.2

/-- `active_relays`. -/
def activeRelays (cfg : Config) (server : FeedServer) : List (Option String × Option String) :=
  (((server.relayEntries <|> cfg.relays).getD []).filterMap id).filter fun r =>
    (relayCode r).all fun code => !server.relayHidden.contains code

/-- `generate_vless_links`. -/
def generateVlessLinks (cfg : Config) (server : FeedServer) (domain : List Char) (uuid : Uuid) :
    List FeedLink :=
  (if server.originHidden then [] else [{ uuid, host := domain }]) ++
    (activeRelays cfg server).map fun r =>
      { uuid, host := domain, relay := some ((relayCode r).getD "default") }

/-- The origin shows a link of its own or one of a relay. -/
def ShowsLink (cfg : Config) (server : FeedServer) : Prop :=
  server.originHidden = false ∨ activeRelays cfg server ≠ []

instance (cfg : Config) (server : FeedServer) : Decidable (ShowsLink cfg server) := by
  unfold ShowsLink; infer_instance

/-! ### The handler -/

/-- What stands when the lock is granted: the world, the id of the row, the subscription as the
    handler holds it, and the origin as it read it. -/
structure Lock where
  world : FeedWorld
  id : ℕ
  sub : WhiteInternetRow
  server : FeedServer

/-- The object of the session after the locking `session.get` of a row it has loaded already. -/
def held (reload : Bool) (copy row : WhiteInternetRow) : WhiteInternetRow :=
  if reload then row else copy

/-- `SELECT … FOR UPDATE` of the row. -/
def lockRow (reload : Bool) (server : FeedServer) (copy : WhiteInternetRow)
    (s : FeedState Lock) : FeedState Lock :=
  match s.world.whiteInternetRow copy.id with
  | none => s
  | some row =>
    { s with
      locks := { s.locks with whiteInternet := some copy.id }
      lock := some { world := s.world, id := copy.id, sub := held reload copy row, server } }

/-- `register_hwid_atomic`: the row is locked, and the answer is the subscription as the session
    holds it then and what becomes of the device. -/
def registerHwidAtomic (reload : Bool) (req : FeedRequest) (server : FeedServer)
    (copy : WhiteInternetRow) :
    Lib.Program (FeedState Lock) (Option (WhiteInternetRow × Registration)) :=
  .access (lockRow reload server copy) fun s =>
    (s.world.whiteInternetRow copy.id).map fun row =>
      let sub := held reload copy row
      (sub, sub.activeHwids.registerHwidWhiteInternet s.world.now sub.deviceLimit
        (max 1 copy.deviceLimit) req.rawHwid req.deviceInfo)

/-- The flush of a registration: the devices are written where they differ from those the session
    has loaded. -/
def flush (id : ℕ) (sub : WhiteInternetRow) (r : Registration) (w : FeedWorld) : FeedWorld :=
  w.updateWhiteInternet id fun row =>
    { row with activeHwids := Lib.written sub.activeHwids r.devices row.activeHwids }

def deviceLimitNotice : FeedResponse := { status := 200, body := .notice .deviceLimit }

/-- The end of the handler, once its checks are passed. -/
def disclose (cfg : Config) (reload : Bool) (req : FeedRequest) (copy : WhiteInternetRow)
    (server : FeedServer) (domain : List Char) : Lib.Program (FeedState Lock) FeedResponse := do
  let some (sub, r) ← registerHwidAtomic reload req server copy | answer deviceLimitNotice
  respond (flush copy.id sub r)
    (if r.allowed then .ofLinks (generateVlessLinks cfg server domain sub.uuid)
    else deviceLimitNotice)

/-- `white_internet_subscription_feed_handler`. -/
def feed (u : Lib.Url.Unicode) (cfg : Config) (reload : Bool) (req : FeedRequest) :
    Lib.Program (FeedState Lock) FeedResponse :=
  match req.refused tooManyRequests with
  | some resp => .done resp
  | none => do
    let now ← select FeedWorld.now
    let some copy ← select fun w => w.whiteInternetByToken req.cleanToken | answer .notFound
    let user ← select fun w => w.user copy.userId
    if barred user then answer .forbidden
    else
      let server ← select fun w => copy.originNodeId.bind w.server
      match statusAnswer (req.isBrowser u) now copy with
      | some resp => answer resp
      | none =>
        if req.rawHwid = [] then
          answer (if req.isBrowser u then .page .active else .text 403 hwidRequiredText)
        else
          match originAnswer u cfg copy server with
          | .error resp => answer resp
          | .ok (server, domain) => disclose cfg reload req copy server domain

/-! ### What a request is promised -/

/-- The subscription is that of the token, its user may use it, and it serves. -/
structure Entitled (token : List Char) (w : FeedWorld) (row : WhiteInternetRow) : Prop where
  owns : row.token = token
  user : ∃ user ∈ w.user row.userId, user.isBanned = false ∧ user.isDeleted = false
  active : row.status = .active
  unexpired : w.now < row.expiresAt
  quota : 0 < row.availableQuota
  synced : row.desiredVersion = row.actualVersion

/-- An answer with links came from a lock under which the row entitled its holder to them: they
    carry its UUID, and its device is stored among no more than the row allows. Any other answer
    came with a commit that entered no device. -/
structure Promises (req : FeedRequest) (resp : FeedResponse) (s : FeedState Lock) : Prop where
  disclosed : resp.links ≠ [] → ∃ lock ∈ s.lock, ∃ row ∈ lock.world.whiteInternetRow lock.id,
    Entitled req.cleanToken lock.world row ∧ (∀ l ∈ resp.links, l.uuid = row.uuid) ∧
      ∃ c ∈ s.commit, ∃ stored ∈ c.2.whiteInternetRow lock.id,
        Devices.Holds lock.world.now row.deviceLimit req.rawHwid.cleanWhiteInternet
          stored.activeHwids
  silent : resp.links = [] → ∀ c ∈ s.commit, FeedWorld.EntersNone c.1 c.2

/-- What the handler does not check again stands when the lock is granted: the row is still that of
    the token, the checks let the request through once more, the handler holds the UUID of the row,
    and there is a link to show. -/
structure Stands (u : Lib.Url.Unicode) (cfg : Config) (req : FeedRequest) (lock : Lock)
    (row : WhiteInternetRow) : Prop where
  token : row.token = req.cleanToken
  user : barred (lock.world.user row.userId) = false
  status : statusAnswer (req.isBrowser u) lock.world.now row = none
  synced : row.actualVersion = row.desiredVersion
  uuid : lock.sub.uuid = row.uuid
  shows : ShowsLink cfg lock.server

/-- The handler holds the devices and the limit that the row has, and where they admit the device
    the rest stands too. -/
structure Attends (u : Lib.Url.Unicode) (cfg : Config) (req : FeedRequest) (lock : Lock)
    (row : WhiteInternetRow) : Prop where
  devices : lock.sub.activeHwids = row.activeHwids
  limit : lock.sub.deviceLimit = row.deviceLimit
  stands : Devices.Admits lock.world.now row.deviceLimit req.rawHwid.cleanWhiteInternet
    row.activeHwids → Stands u cfg req lock row

/-! ### The chain of early returns -/

variable {u : Lib.Url.Unicode} {cfg : Config} {req : FeedRequest} {reload : Bool}

/-- A subscription that passes the chain is active, unexpired and has quota left. -/
theorem serves_of_statusAnswer {browser : Bool} {now : Time} {sub : WhiteInternetRow}
    (h : statusAnswer browser now sub = none) :
    sub.status = .active ∧ now < sub.expiresAt ∧ 0 < sub.availableQuota := by
  rw [statusAnswer] at h
  split_ifs at h with hpending hdisabled hexpired hexhausted
  obtain ⟨hnotExpired, hunexpired⟩ := not_or.mp hexpired
  obtain ⟨hnotExhausted, hquota⟩ := not_or.mp hexhausted
  refine ⟨?_, not_le.mp hunexpired, Nat.pos_of_ne_zero hquota⟩
  cases hstatus : sub.status with
  | pending => exact absurd hstatus hpending
  | active => rfl
  | exhausted => exact absurd hstatus hnotExhausted
  | expired => exact absurd hstatus hnotExpired
  | disabled => exact absurd hstatus hdisabled

theorem links_of_statusAnswer {browser : Bool} {now : Time} {sub : WhiteInternetRow}
    {resp : FeedResponse} (h : statusAnswer browser now sub = some resp) : resp.links = [] := by
  rw [statusAnswer] at h
  split_ifs at h <;> cases h <;> cases browser <;> rfl

theorem links_of_originAnswer {sub : WhiteInternetRow} {server : Option FeedServer}
    {resp : FeedResponse} (h : originAnswer u cfg sub server = .error resp) :
    resp.links = [] := by
  cases server with
  | none => cases h; rfl
  | some server =>
    simp only [originAnswer] at h
    split_ifs at h
    · cases h; rfl
    · cases h; rfl
    · cases hdomain : cdnDomain u cfg server with
      | none => rw [hdomain] at h; cases h; rfl
      | some domain => rw [hdomain] at h; cases h
    · cases h; rfl

theorem exists_of_barred {user : Option User} (h : barred user = false) :
    ∃ x ∈ user, x.isBanned = false ∧ x.isDeleted = false := by
  cases user with
  | none => cases h
  | some x =>
    have hor : (x.isBanned || x.isDeleted) = false := h
    exact ⟨x, rfl, Bool.or_eq_false_iff.mp hor⟩

/-- What stands entitles. -/
theorem Stands.entitled {lock : Lock} {row : WhiteInternetRow} (h : Stands u cfg req lock row) :
    Entitled req.cleanToken lock.world row where
  owns := h.token
  user := exists_of_barred h.user
  active := (serves_of_statusAnswer h.status).1
  unexpired := (serves_of_statusAnswer h.status).2.1
  quota := (serves_of_statusAnswer h.status).2.2
  synced := h.synced.symm

/-! ### The links -/

theorem uuid_of_mem_links {server : FeedServer} {domain : List Char} {uuid : Uuid} {l : FeedLink}
    (h : l ∈ generateVlessLinks cfg server domain uuid) : l.uuid = uuid := by
  rcases List.mem_append.mp h with h | h
  · split_ifs at h with hhidden
    · cases h
    · rw [List.mem_singleton.mp h]
  · obtain ⟨r, -, rfl⟩ := List.mem_map.mp h
    rfl

theorem links_ne_nil {server : FeedServer} {domain : List Char} {uuid : Uuid}
    (h : ShowsLink cfg server) : generateVlessLinks cfg server domain uuid ≠ [] := by
  rw [generateVlessLinks]
  rcases h with h | h
  · rw [h]
    exact List.cons_ne_nil _ _
  · exact List.append_ne_nil_of_right_ne_nil _ (mt List.map_eq_nil_iff.mp h)

/-! ### The registration -/

theorem effectiveLimit_eq (sub : WhiteInternetRow) (maxDevices : ℤ) :
    Devices.effectiveLimit sub.deviceLimit maxDevices = sub.deviceLimit := by
  have hpos : (0 : ℤ) < sub.deviceLimit := by exact_mod_cast sub.limited.1
  rw [Devices.effectiveLimit, if_pos hpos]
  exact Int.toNat_natCast _

section Registration
variable {now : Time} {sub : WhiteInternetRow} {maxDevices : ℤ} {hwid : DeviceId}
  {info : DeviceInfo} {r : Registration}
  (hr : r = sub.activeHwids.registerHwidWhiteInternet now sub.deviceLimit maxDevices hwid info)
include hr

theorem respects : Devices.Respects now sub.deviceLimit
    (if hwid.cleanWhiteInternet = [] then none else some hwid.cleanWhiteInternet)
    sub.activeHwids r := by
  have h := DeviceRows.registerWhiteInternet_respects now sub.deviceLimit maxDevices hwid info
    sub.activeHwids
  rw [effectiveLimit_eq] at h
  rw [hr]
  exact h

theorem admits_of_allowed (hallowed : r.allowed = true) :
    sub.activeHwids.Admits now sub.deviceLimit hwid.cleanWhiteInternet := by
  rw [hr, Devices.registerHwidWhiteInternet] at hallowed
  split_ifs at hallowed with hempty
  · cases hallowed
  · rw [effectiveLimit_eq] at hallowed
    exact (Devices.registerWhiteInternet_registered ..).allowed_iff.mp hallowed

theorem holds_of_allowed (hallowed : r.allowed = true) :
    r.devices.Holds now sub.deviceLimit hwid.cleanWhiteInternet := by
  obtain ⟨h, hkey, hholds⟩ := (respects hr).holds hallowed
  split_ifs at hkey
  · cases hkey
  · rw [Option.some.inj hkey]
    exact hholds

end Registration

/-! ### Every run -/

/-- What a request is owed: where the handler attended to the row it locked, the promises. -/
def Owed (u : Lib.Url.Unicode) (cfg : Config) (req : FeedRequest) (resp : FeedResponse)
    (s : FeedState Lock) : Prop :=
  (∀ lock ∈ s.lock, ∀ row ∈ lock.world.whiteInternetRow lock.id, Attends u cfg req lock row) →
    Promises req resp s

/-- The handler has locked nothing and written nothing yet. -/
def Quiet (s : FeedState Lock) : Prop := s.lock = none ∧ s.commit = none

/-- The handler holds the lock, under which the row is `row`. -/
structure Locked (lock : Lock) (row : WhiteInternetRow) (s : FeedState Lock) : Prop where
  noted : s.lock = some lock
  commit : s.commit = none
  locks : s.locks.whiteInternet = some lock.id
  found : s.world.whiteInternetRow lock.id = some row
  stood : lock.world.whiteInternetRow lock.id = some row

theorem locked_lockRow {server : FeedServer} {copy row : WhiteInternetRow} {s : FeedState Lock}
    (hs : Quiet s) (hrow : s.world.whiteInternetRow copy.id = some row) :
    Locked { world := s.world, id := copy.id, sub := held reload copy row, server } row
      (lockRow reload server copy s) := by
  rw [lockRow, hrow]
  exact ⟨rfl, hs.2, rfl, hrow, hrow⟩

theorem quiet_others (s : FeedState Lock) (w : FeedWorld) (h : Quiet s) : Quiet (s.others w) :=
  s.others_of_history (P := fun lock commit => lock = none ∧ commit = none) w h

theorem locked_others {lock : Lock} {row : WhiteInternetRow} (s : FeedState Lock) (w : FeedWorld)
    (h : Locked lock row s) : Locked lock row (s.others w) := by
  rcases s.others_eq w with heq | ⟨heq, hallows⟩
  · rw [heq]
    exact h
  · rw [heq]
    exact ⟨h.noted, h.commit, h.locks, (hallows.whiteInternet _ h.locks).trans h.found, h.stood⟩

theorem owed_others {resp : FeedResponse} (s : FeedState Lock) (w : FeedWorld)
    (h : Owed u cfg req resp s) : Owed u cfg req resp (s.others w) := by
  rcases s.others_eq w with heq | ⟨heq, -⟩
  · rw [heq]
    exact h
  · rw [heq]
    exact fun hattends => ⟨(h hattends).disclosed, (h hattends).silent⟩

theorem owed_of_rolledBack {resp : FeedResponse} {s : FeedState Lock} (hlinks : resp.links = [])
    (hcommit : s.commit = none) : Owed u cfg req resp s := fun _ =>
  { disclosed := fun h => absurd hlinks h
    silent := fun _ c hc => by
      rw [hcommit] at hc
      cases hc }

/-- An answer without links to a request that has written nothing. -/
theorem meets_answer {resp : FeedResponse} (hlinks : resp.links = []) {s : FeedState Lock}
    (hs : Quiet s) : (answer resp).Meets FeedState.others (Owed u cfg req) s := by
  refine FeedState.meets_respond quiet_others hs (fun t ht => owed_of_rolledBack rfl ht.2) ?_
  intro t _ _
  refine ⟨fun h => absurd hlinks h, fun _ c hc => ?_⟩
  obtain rfl := Option.some.inj hc
  exact FeedWorld.EntersNone.refl _

/-- The flush of a registration, under the lock. -/
theorem stored_flush {w : FeedWorld} {id : ℕ} {sub row : WhiteInternetRow} {r : Registration}
    (hrow : w.whiteInternetRow id = some row) (hdevices : sub.activeHwids = row.activeHwids) :
    ∃ stored ∈ (flush id sub r w).whiteInternetRow id, stored.activeHwids = r.devices := by
  refine ⟨{ row with activeHwids := Lib.written sub.activeHwids r.devices row.activeHwids }, ?_, ?_⟩
  · rw [flush, FeedWorld.whiteInternetRow_update, hrow]
    · rfl
    · exact fun _ => rfl
  · change Lib.written sub.activeHwids r.devices row.activeHwids = r.devices
    rw [hdevices, Lib.written_stored]

theorem entersNone_flush {w : FeedWorld} {id : ℕ} {sub row : WhiteInternetRow} {r : Registration}
    (hrow : w.whiteInternetRow id = some row) (hdevices : sub.activeHwids = row.activeHwids)
    (hr : ∀ d ∈ r.devices, d ∈ sub.activeHwids) : FeedWorld.EntersNone w (flush id sub r w) := by
  refine FeedWorld.entersNone_updateWhiteInternet (fun _ => rfl) fun old hold hid d hd => ?_
  change d ∈ Lib.written sub.activeHwids r.devices old.activeHwids at hd
  rw [Lib.written] at hd
  split_ifs at hd
  · exact ⟨old, hold, hid, hd⟩
  · obtain ⟨hmem, hkey⟩ := FeedWorld.of_whiteInternetRow hrow
    rw [hdevices] at hr
    exact ⟨row, hmem, hkey, hr d hd⟩

/-- A registration under the lock, and the answer that goes out with it. -/
theorem meets_registered {lock : Lock} {row : WhiteInternetRow} {domain : List Char}
    {maxDevices : ℤ} {r : Registration} {s : FeedState Lock} (hs : Locked lock row s)
    (hr : r = lock.sub.activeHwids.registerHwidWhiteInternet lock.world.now lock.sub.deviceLimit
      maxDevices req.rawHwid req.deviceInfo) :
    (respond (flush lock.id lock.sub r)
      (if r.allowed then .ofLinks (generateVlessLinks cfg lock.server domain lock.sub.uuid)
      else deviceLimitNotice)).Meets FeedState.others (Owed u cfg req) s := by
  refine FeedState.meets_respond locked_others hs (fun t ht => owed_of_rolledBack rfl ht.commit) ?_
  intro t ht hattends
  obtain ⟨hdevices, hlimit, hstands⟩ := hattends lock ht.noted row ht.stood
  cases hallowed : r.allowed with
  | true =>
    -- the device is admitted, so the checks still stand
    have hadmits := admits_of_allowed hr hallowed
    rw [hdevices, hlimit] at hadmits
    have hstands := hstands hadmits
    have hholds := holds_of_allowed hr hallowed
    rw [hlimit] at hholds
    rw [if_pos rfl]
    refine ⟨fun _ => ⟨lock, ht.noted, row, ht.stood, hstands.entitled, fun l hl => ?_, ?_⟩,
      fun h => absurd h (links_ne_nil hstands.shows)⟩
    · exact (uuid_of_mem_links hl).trans hstands.uuid
    · obtain ⟨stored, hmem, heq⟩ := stored_flush (r := r) ht.found hdevices
      refine ⟨_, rfl, stored, hmem, ?_⟩
      rw [heq]
      exact hholds
  | false =>
    refine ⟨fun h => absurd rfl h, fun _ c hc => ?_⟩
    obtain rfl := Option.some.inj hc
    exact entersNone_flush ht.found hdevices ((respects hr).entersNone hallowed)

theorem meets_disclose {copy : WhiteInternetRow} {server : FeedServer} {domain : List Char}
    {s : FeedState Lock} (hs : Quiet s) :
    (disclose cfg reload req copy server domain).Meets FeedState.others (Owed u cfg req) s := by
  refine Lib.Program.meets_access quiet_others hs fun s hs => ?_
  cases hrow : s.world.whiteInternetRow copy.id with
  | none =>
    rw [lockRow, hrow]
    exact meets_answer rfl hs
  | some row => exact meets_registered (locked_lockRow hs hrow) rfl

/-- The handler, whatever the others do between its statements. -/
theorem meets_feed {s : FeedState Lock} (hs : Quiet s) :
    (feed u cfg reload req).Meets FeedState.others (Owed u cfg req) s := by
  rw [feed]
  cases hrefused : req.refused tooManyRequests with
  | some resp =>
    exact Lib.Program.meets_done (owed_of_rolledBack (FeedRequest.refused_links hrefused) hs.2)
  | none =>
    refine FeedState.meets_select quiet_others hs fun s hs => ?_
    generalize s.world.now = now
    refine FeedState.meets_select quiet_others hs fun s hs => ?_
    cases s.world.whiteInternetByToken req.cleanToken with
    | none => exact meets_answer rfl hs
    | some copy =>
      refine FeedState.meets_select quiet_others hs fun s hs => ?_
      cases barred (s.world.user copy.userId) with
      | true => exact meets_answer rfl hs
      | false =>
        refine FeedState.meets_select quiet_others hs fun s hs => ?_
        generalize copy.originNodeId.bind s.world.server = server
        cases hstatus : statusAnswer (req.isBrowser u) now copy with
        | some resp => exact meets_answer (links_of_statusAnswer hstatus) hs
        | none =>
          by_cases hhwid : req.rawHwid = []
          · simp only [if_pos hhwid]
            refine meets_answer ?_ hs
            split_ifs <;> rfl
          · simp only [if_neg hhwid]
            cases horigin : originAnswer u cfg copy server with
            | error resp => exact meets_answer (links_of_originAnswer horigin) hs
            | ok origin => exact meets_disclose hs

def phone : FeedRequest := { token := "0123456789abcdef".toList, xHwid := "Phone-1".toList }

def activeRow : WhiteInternetRow where
  id := 5
  userId := 1
  uuid := 77
  token := "0123456789abcdef".toList
  status := .active
  expiresAt := days 30
  originNodeId := some 3
  actualVersion := 1

def origin : FeedServer where
  id := 3
  capabilities := [xrayOriginCapability]
  protocol := xrayProtocol
  cdnDomain := "example.com".toList

def served (now : Time) : FeedWorld where
  now := now
  users := [{ id := 1, telegramId := 7 }]
  whiteInternet := [activeRow]
  servers := [origin]

/-- Time passes before the lock is granted, but the checks still stand. -/
def waited : List (Lib.Move FeedWorld) :=
  List.replicate 4 .proceed ++ .other (served (seconds 5)) :: List.replicate 2 .proceed

end WhiteInternetFeed
end Just1kBot
