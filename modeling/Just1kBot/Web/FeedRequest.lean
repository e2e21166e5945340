import Just1kBot.Lib.Program
import Just1kBot.Lib.Session
import Just1kBot.Orders.Fulfillment
import Just1kBot.Web.DeviceLimit
import Just1kBot.Web.PublicDomain
import Just1kBot.WhiteInternet.Servers
import Just1kBot.WhiteInternet.Traffic

/-! What the two subscription feeds share: `bot/handlers/white_internet_web.py` and
    `bot/handlers/vless_web.py`.

    A request carries a token and headers; its answer carries a text, a page, a notice or the links
    of a subscription. A handler runs in one transaction: other transactions commit between its
    statements, except over the rows it has locked, and the clock goes on. -/

namespace Just1kBot

namespace DeviceId

/-- `[a-zA-Z0-9_\-:]{3,128}`. -/
def wellFormed (hwid : DeviceId) : Bool :=
  3 ≤ hwid.length && hwid.length ≤ 128 && hwid.all validChar

/-- `HWID_PATTERN.match`: the end of the pattern also stands before a last line feed. -/
def matchesPattern (hwid : DeviceId) : Bool :=
  hwid.wellFormed || hwid.getLast? = some '\n' && DeviceId.wellFormed hwid.dropLast

end DeviceId

namespace Devices

/-- The device is stored and not stale, and no more devices than the limit are not stale. -/
def Holds (now : Time) (limit : ℕ) (hwid : DeviceId) (d : Devices) : Prop :=
  (∃ entry ∈ Lib.Dict.get hwid d, now - hours hwidTtlHours ≤ entry.seen) ∧
    (d.pruneStale now).length ≤ limit

instance (now : Time) (limit : ℕ) (hwid : DeviceId) (d : Devices) :
    Decidable (d.Holds now limit hwid) := by
  unfold Holds; infer_instance

/-- A device that a registration admits is stored and not stale. -/
theorem Respects.holds {now : Time} {limit : ℕ} {key : Option DeviceId} {d : Devices}
    {r : Registration} (h : Respects now limit key d r) (hr : r.allowed = true) :
    ∃ hwid ∈ key, r.devices.Holds now limit hwid := by
  obtain ⟨hwid, hkey, entry, hentry, hrecent⟩ := h.stored hr
  refine ⟨hwid, hkey, ⟨entry, hentry, ?_⟩, h.within hr⟩
  simp only [hours, seconds, hwidTtlHours] at hrecent ⊢
  linarith

end Devices

/-! ### Answers -/

/-- A link that carries the UUID of a client. Its transport and its label are left out. -/
structure FeedLink where
  uuid : Uuid
  host : List Char
  /-- The code of the relay; the origin has none. -/
  relay : Option String := none
  deriving DecidableEq, Repr

/-- The pages for browsers. -/
inductive FeedPage
  | pending | disabled | expired | paused | exhausted | active
  deriving DecidableEq, Repr

/-- The notices, each a link under the UUID of zeros. -/
inductive FeedNotice
  | disabled | expired | exhausted | deviceLimit
  deriving DecidableEq, Repr

inductive FeedBody
  | text (msg : String)
  | page (p : FeedPage)
  | notice (n : FeedNotice)
  | links (ls : List FeedLink)
  deriving DecidableEq, Repr

structure FeedResponse where
  status : ℕ
  body : FeedBody
  deriving DecidableEq, Repr

namespace FeedResponse

def text (status : ℕ) (msg : String) : FeedResponse := { status, body := .text msg }

def notFound : FeedResponse := text 404 "Not Found"

def forbidden : FeedResponse := text 403 "Forbidden"

def internalError : FeedResponse := text 500 "500 Internal Server Error"

def page (p : FeedPage) : FeedResponse := { status := 200, body := .page p }

/-- A browser gets a page, an application a notice. -/
def closed (browser : Bool) (p : FeedPage) (n : FeedNotice) : FeedResponse :=
  if browser then page p else { status := 200, body := .notice n }

def ofLinks (ls : List FeedLink) : FeedResponse := { status := 200, body := .links ls }

/-- The links of a subscription in the body. -/
def links (r : FeedResponse) : List FeedLink :=
  match r.body with
  | .links ls => ls
  | _ => []

theorem links_closed (browser : Bool) (p : FeedPage) (n : FeedNotice) :
    (closed browser p n).links = [] := by
  cases browser <;> rfl

end FeedResponse

/-! ### Requests -/

/-- A request, and what the two rate limiters say to it. A header that is not there is empty. -/
structure FeedRequest where
  ipAllowed : Bool := true
  tokenAllowed : Bool := true
  token : List Char
  xHwid : List Char := []
  xDeviceHwid : List Char := []
  xDeviceId : List Char := []
  userAgent : List Char := []
  accept : List Char := []
  /-- `extract_device_metadata`. -/
  deviceInfo : DeviceInfo := []
  deriving DecidableEq

namespace FeedRequest

/-- The token of the path, stripped. -/
def cleanToken (r : FeedRequest) : List Char := Lib.Python.stripChars r.token

/-- `raw_hwid`: the first header that is not empty, without white space and braces around it. -/
def rawHwid (r : FeedRequest) : DeviceId :=
  let header :=
    if r.xHwid ≠ [] then r.xHwid else if r.xDeviceHwid ≠ [] then r.xDeviceHwid else r.xDeviceId
  Lib.Python.stripOf (fun c => c = '{' || c = '}') (Lib.Python.stripChars header)

def apiTokens : List String :=
  ["curl/", "wget/", "python-requests", "urllib", "httpx", "xray/", "v2ray", "sing-box", "clash",
    "incy", "happ"]

def browserTokens : List String :=
  ["mozilla/", "chrome/", "safari/", "applewebkit/", "mobile/", "android", "iphone"]

/-- `_is_browser_request`. -/
def isBrowser (u : Lib.Url.Unicode) (r : FeedRequest) : Bool :=
  if r.rawHwid ≠ [] then false
  else if apiTokens.any fun a => a.toList <:+: u.lower r.userAgent then false
  else if "text/html".toList <:+: u.lower r.accept then true
  else browserTokens.any fun b => b.toList <:+: u.lower r.userAgent

/-- What a handler answers before it opens its session. -/
def refused (tooManyRequests : String) (r : FeedRequest) : Option FeedResponse :=
  if r.ipAllowed = false then some (.text 429 tooManyRequests)
  else if r.cleanToken.length < 16 then some .notFound
  else if r.tokenAllowed = false then some (.text 429 tooManyRequests)
  else if r.rawHwid ≠ [] ∧ ¬ r.rawHwid.matchesPattern then some (.text 400 "Invalid HWID format")
  else none

theorem refused_links {tooManyRequests : String} {r : FeedRequest} {resp : FeedResponse}
    (h : r.refused tooManyRequests = some resp) : resp.links = [] := by
  rw [refused] at h
  split_ifs at h <;> cases h <;> rfl

end FeedRequest

/-! ### The rows -/

/-- A row of `white_internet_subscriptions` with its token and its devices. Its limit is kept by
    `ck_white_internet_subscriptions_device_limit`. -/
structure WhiteInternetRow extends WhiteInternetSubscription where
  token : List Char
  activeHwids : Devices := []
  limited : 1 ≤ deviceLimit ∧ deviceLimit ≤ 3 := by decide
  deriving DecidableEq

/-- A row of `vless_subscriptions` with its token and its devices. -/
structure VlessRow extends VlessSubscription where
  token : List Char
  activeHwids : Devices := []
  deriving DecidableEq

/-- An entry of the relays of a server, and `none` for one that is not a dictionary. -/
abbrev RelayEntry := Option (Option String × Option String)

/-- A server with what the feeds read of its `extra_data`. A text that is not there is empty. -/
structure FeedServer extends Server where
  xrayInstanceEpoch : Option Epoch := none
  cdnDomain : List Char := []
  /-- The code and the name of each relay, where there is a list. -/
  relayEntries : Option (List RelayEntry) := none
  originHidden : Bool := false
  relayHidden : List String := []
  domain : List Char := []
  vlessDomain : List Char := []
  deriving DecidableEq

/-- A tariff, as far as the device limit is read off it. -/
structure FeedTariff where
  id : TariffId
  serviceType : OrderServiceType := .standard
  deviceLimit : ℕ := 2
  deriving DecidableEq

/-- What a request finds: the clock, the rows that are committed, and whether the database gives up
    on the transaction. -/
structure FeedWorld where
  now : Time
  fails : Bool := false
  users : List User := []
  whiteInternet : List WhiteInternetRow := []
  vless : List VlessRow := []
  /-- In the order of their ids. -/
  servers : List FeedServer := []
  tariffs : List FeedTariff := []
  deriving DecidableEq

namespace FeedWorld

def user (w : FeedWorld) (id : UserId) : Option User := Lib.Table.lookup User.id id w.users

def server (w : FeedWorld) (id : ServerId) : Option FeedServer :=
  Lib.Table.lookup (fun s => s.id) id w.servers

def whiteInternetRow (w : FeedWorld) (id : ℕ) : Option WhiteInternetRow :=
  Lib.Table.lookup (fun sub => sub.id) id w.whiteInternet

def vlessRow (w : FeedWorld) (id : ℕ) : Option VlessRow :=
  Lib.Table.lookup (fun sub => sub.id) id w.vless

/-- `get_subscription_by_token` of the White Internet repository. -/
def whiteInternetByToken (w : FeedWorld) (token : List Char) : Option WhiteInternetRow :=
  Lib.Table.lookup (fun sub => sub.token) token w.whiteInternet

/-- `get_subscription_by_token` of the VLESS repository. -/
def vlessByToken (w : FeedWorld) (token : List Char) : Option VlessRow :=
  if token.length < 16 then none else Lib.Table.lookup (fun sub => sub.token) token w.vless

/-- `UPDATE white_internet_subscriptions … WHERE id = id`. -/
def updateWhiteInternet (w : FeedWorld) (id : ℕ) (f : WhiteInternetRow → WhiteInternetRow) :
    FeedWorld :=
  { w with whiteInternet := Lib.Table.modify (fun sub => sub.id) id f w.whiteInternet }

/-- `UPDATE vless_subscriptions … WHERE id = id`. -/
def updateVless (w : FeedWorld) (id : ℕ) (f : VlessRow → VlessRow) : FeedWorld :=
  { w with vless := Lib.Table.modify (fun sub => sub.id) id f w.vless }

/-- No subscription has a device after that it had not before. -/
def EntersNone (before after : FeedWorld) : Prop :=
  (∀ row ∈ after.whiteInternet, ∀ d ∈ row.activeHwids,
    ∃ old ∈ before.whiteInternet, old.id = row.id ∧ d ∈ old.activeHwids) ∧
  ∀ row ∈ after.vless, ∀ d ∈ row.activeHwids,
    ∃ old ∈ before.vless, old.id = row.id ∧ d ∈ old.activeHwids

theorem EntersNone.refl (w : FeedWorld) : EntersNone w w :=
  ⟨fun row hrow _ hd => ⟨row, hrow, rfl, hd⟩, fun row hrow _ hd => ⟨row, hrow, rfl, hd⟩⟩

theorem of_whiteInternetRow {w : FeedWorld} {id : ℕ} {row : WhiteInternetRow}
    (h : w.whiteInternetRow id = some row) : row ∈ w.whiteInternet ∧ row.id = id :=
  ⟨Lib.Table.mem_of_lookup _ h, Lib.Table.key_of_lookup (fun sub : WhiteInternetRow => sub.id) h⟩

theorem of_vlessRow {w : FeedWorld} {id : ℕ} {row : VlessRow} (h : w.vlessRow id = some row) :
    row ∈ w.vless ∧ row.id = id :=
  ⟨Lib.Table.mem_of_lookup _ h, Lib.Table.key_of_lookup (fun sub : VlessRow => sub.id) h⟩

theorem whiteInternetRow_update {w : FeedWorld} {id : ℕ} {f : WhiteInternetRow → WhiteInternetRow}
    (hf : ∀ row, (f row).id = row.id) :
    (w.updateWhiteInternet id f).whiteInternetRow id = (w.whiteInternetRow id).map f :=
  (Lib.Table.lookup_modify _ hf id id w.whiteInternet).trans (if_pos rfl)

theorem vlessRow_update {w : FeedWorld} {id : ℕ} {f : VlessRow → VlessRow}
    (hf : ∀ row, (f row).id = row.id) :
    (w.updateVless id f).vlessRow id = (w.vlessRow id).map f :=
  (Lib.Table.lookup_modify _ hf id id w.vless).trans (if_pos rfl)

theorem entersNone_updateWhiteInternet {w : FeedWorld} {id : ℕ}
    {f : WhiteInternetRow → WhiteInternetRow} (hf : ∀ row, (f row).id = row.id)
    (h : ∀ row ∈ w.whiteInternet, row.id = id → ∀ d ∈ (f row).activeHwids,
      ∃ old ∈ w.whiteInternet, old.id = id ∧ d ∈ old.activeHwids) :
    EntersNone w (w.updateWhiteInternet id f) := by
  refine ⟨fun row hrow d hd => ?_, (EntersNone.refl w).2⟩
  obtain ⟨old, hold, rfl⟩ := List.mem_map.mp hrow
  split_ifs at hd ⊢ with hid
  · obtain ⟨had, hmem, hkey, hin⟩ := h old hold hid d hd
    exact ⟨had, hmem, hkey.trans (hid.symm.trans (hf old).symm), hin⟩
  · exact ⟨old, hold, rfl, hd⟩

/-- An update of a VLESS row that leaves its devices alone enters none. -/
theorem entersNone_updateVless {w : FeedWorld} {id : ℕ} {f : VlessRow → VlessRow}
    (hf : ∀ row, (f row).id = row.id ∧ (f row).activeHwids = row.activeHwids) :
    EntersNone w (w.updateVless id f) := by
  refine ⟨(EntersNone.refl w).1, fun row hrow d hd => ?_⟩
  obtain ⟨old, hold, rfl⟩ := List.mem_map.mp hrow
  split_ifs at hd ⊢
  · rw [(hf old).2] at hd
    exact ⟨old, hold, (hf old).1.symm, hd⟩
  · exact ⟨old, hold, rfl, hd⟩

end FeedWorld

/-! ### Transactions -/

/-- The rows a transaction has locked. -/
structure FeedLocks where
  user : Option UserId := none
  whiteInternet : Option ℕ := none
  vless : Option ℕ := none
  deriving DecidableEq

/-- The transaction of a request: what it finds and what it has locked. The rest is history: whose
    subscription it asked for, what stood there when it registered a device, and what stood there
    before and after its commit. -/
structure FeedState (L : Type) where
  world : FeedWorld
  locks : FeedLocks := {}
  owner : Option (ℕ × UserId) := none
  lock : Option L := none
  commit : Option (FeedWorld × FeedWorld) := none

namespace FeedState
variable {L : Type}

/-- What the others may make of the world: the clock does not go back, the locked rows stay, and a
    VLESS subscription stays that of its user. -/
structure Allows (s : FeedState L) (w : FeedWorld) : Prop where
  clock : s.world.now ≤ w.now
  user : ∀ id ∈ s.locks.user, w.user id = s.world.user id
  whiteInternet : ∀ id ∈ s.locks.whiteInternet, w.whiteInternetRow id = s.world.whiteInternetRow id
  vless : ∀ id ∈ s.locks.vless, w.vlessRow id = s.world.vlessRow id
  owner : ∀ p ∈ s.owner, ∀ row ∈ w.vlessRow p.1, row.userId = p.2

instance (s : FeedState L) (w : FeedWorld) : Decidable (s.Allows w) :=
  decidable_of_iff (s.world.now ≤ w.now ∧ (∀ id ∈ s.locks.user, w.user id = s.world.user id) ∧
      (∀ id ∈ s.locks.whiteInternet, w.whiteInternetRow id = s.world.whiteInternetRow id) ∧
      (∀ id ∈ s.locks.vless, w.vlessRow id = s.world.vlessRow id) ∧
      ∀ p ∈ s.owner, ∀ row ∈ w.vlessRow p.1, row.userId = p.2)
    ⟨fun ⟨h₁, h₂, h₃, h₄, h₅⟩ => ⟨h₁, h₂, h₃, h₄, h₅⟩,
      fun ⟨h₁, h₂, h₃, h₄, h₅⟩ => ⟨h₁, h₂, h₃, h₄, h₅⟩⟩

/-- Other transactions commit, in any number, and time passes. One that waits for a locked row does
    not commit yet. -/
def others (s : FeedState L) (w : FeedWorld) : FeedState L :=
  if s.Allows w then { s with world := w } else s

/-- The end of a handler: its session commits `write` and the answer goes out. Where the database
    gives up, here or before, everything is rolled back. -/
def respond (write : FeedWorld → FeedWorld) (resp : FeedResponse) :
    Lib.Program (FeedState L) FeedResponse :=
  .statement
    (fun s =>
      if s.world.fails then { s with locks := {} }
      else
        { s with
          world := write s.world, locks := {}, commit := some (s.world, write s.world) })
    fun s => .done (if s.world.fails then .internalError else resp)

/-- An answer of a handler that wrote nothing. -/
def answer (resp : FeedResponse) : Lib.Program (FeedState L) FeedResponse := respond id resp

/-- A statement that reads what is committed. -/
def select {α : Type} (get : FeedWorld → α) : Lib.Program (FeedState L) α :=
  .access id fun s => get s.world

/-! ### Rules -/

theorem others_eq (s : FeedState L) (w : FeedWorld) :
    s.others w = s ∨ s.others w = { s with world := w } ∧ s.Allows w := by
  rw [others]
  split_ifs with h
  · exact .inr ⟨rfl, h⟩
  · exact .inl rfl

/-- What is said of the history only stays true. -/
theorem others_of_history {P : Option L → Option (FeedWorld × FeedWorld) → Prop}
    (s : FeedState L) (w : FeedWorld) (h : P s.lock s.commit) :
    P (s.others w).lock (s.others w).commit := by
  rcases s.others_eq w with heq | ⟨heq, -⟩
  · rw [heq]
    exact h
  · rw [heq]
    exact h

section Rules
variable {Q : FeedResponse → FeedState L → Prop} {J : FeedState L → Prop} {s : FeedState L}
  (hJ : ∀ s w, J s → J (s.others w)) (hs : J s)
include hJ hs

theorem meets_select {α : Type} {get : FeedWorld → α}
    {next : α → Lib.Program (FeedState L) FeedResponse}
    (h : ∀ t, J t → (next (get t.world)).Meets others Q t) :
    (select get >>= next).Meets others Q s :=
  Lib.Program.meets_access hJ hs h

/-- The end of a handler: the transaction is committed, or rolled back. -/
theorem meets_respond {write : FeedWorld → FeedWorld} {resp : FeedResponse}
    (hfails : ∀ t, J t → Q .internalError { t with locks := {} })
    (hcommits : ∀ t, J t → Q resp
      { t with world := write t.world, locks := {}, commit := some (t.world, write t.world) }) :
    (respond write resp).Meets others Q s := by
  refine Lib.Program.meets_statement hJ hs fun t ht => ?_
  cases hfail : t.world.fails with
  | true => exact Lib.Program.meets_done (hfails t ht)
  | false => exact Lib.Program.meets_done (hcommits t ht)

end Rules

end FeedState

end Just1kBot
