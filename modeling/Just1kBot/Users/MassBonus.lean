import Just1kBot.Billing.Ledger
import Just1kBot.Lib.Paging
import Just1kBot.Users.Audience
import Just1kBot.Web.Devices
import Just1kBot.WhiteInternet.Servers

/-! The mass bonus: `bot/handlers/admin/users/mass_bonus.py`, with the capability tests of
    `database/repositories/servers_repo.py`.

    The confirmation screen counts the users of the audience, and the background run credits the
    users that it selects itself. For a server the screen has the loaded row and the run has its
    id, and the audience is written once for each. -/

namespace Just1kBot
open Lib

def amneziaProtocols : List String := ["amneziawg2", "amneziawg3", "amneziawg3.1"]

namespace Server
variable (s : Server)

/-- `protocol.strip().lower()`. No letter outside ASCII is lowered to one of the protocols below. -/
def cleanProtocol : String :=
  String.ofList ((Python.strip s.protocol).toList.map Char.toLower)

/-- `is_vless_capable_server`. -/
def isVlessCapable : Bool :=
  s.capabilities.contains "vless" || s.capabilities.contains "xray_vless" ||
    s.cleanProtocol == vlessProtocol

/-- `is_white_internet_origin_server`. -/
def isWhiteInternetOrigin : Bool :=
  if amneziaProtocols.contains s.cleanProtocol then false
  else if s.capabilities.contains xrayOriginCapability then true
  else s.cleanProtocol == xrayProtocol && !s.isVlessCapable

/-- `or_(*conds) if conds else (User.id == -1)`, with one condition for each role of the server. -/
def byRole (vlessCond xrayCond : Sql.Cond) : Sql.Cond :=
  match s.isVlessCapable, s.isWhiteInternetOrigin with
  | true, true => Sql.or vlessCond xrayCond
  | true, false => vlessCond
  | false, true => xrayCond
  | false, false => Sql.ofProp False

variable {s}

theorem holds_byRole {vlessCond xrayCond : Sql.Cond} :
    Sql.Holds (s.byRole vlessCond xrayCond) ↔
      (s.isVlessCapable = true ∧ Sql.Holds vlessCond) ∨
        (s.isWhiteInternetOrigin = true ∧ Sql.Holds xrayCond) := by
  rw [byRole]
  cases s.isVlessCapable <;> cases s.isWhiteInternetOrigin <;> simp

end Server

/-- The database as the mass operations read it: with the servers, and the `active_hwids` column of
    the VLESS rows by their ids. -/
structure AudienceDb where
  db : Db
  servers : List Server := []
  activeHwids : ℕ → Option Devices := fun _ => none

/-- `target_aud`. A text after `server_` that is no number is read as `-1`. -/
inductive TargetAudience
  | all | active | expired | server (id : ℤ)
  deriving DecidableEq, Repr

namespace AudienceDb
variable (t : AudienceDb)

/-- `get_server_by_id`. -/
def getServerById (id : ℤ) : Option Server :=
  if id < 1 ∨ 2147483647 < id then none else Table.lookup Server.id id.toNat t.servers

/-- The row is active and has a device. -/
def liveProfile (v : VlessSubscription) : Sql.Cond :=
  Sql.and (Sql.ofProp (v.isActive = true))
    (Sql.and (Sql.not (Sql.isNull (t.activeHwids v.id)))
      (Sql.compare (· ≠ ·) (t.activeHwids v.id) (some [])))

/-- The same, and the server has counted traffic of the row. -/
def seenProfile (id : ServerId) (v : VlessSubscription) : Sql.Cond :=
  Sql.and (t.liveProfile v) (Sql.ofProp (∃ n ∈ v.nodeTrafficSnapshots.nodes, n.1 = id))

/-- `User.vless_subscription.has(c)`. -/
def hasVless (c : VlessSubscription → Sql.Cond) (u : User) : Sql.Cond :=
  Sql.ofProp (∃ v ∈ t.db.vless, v.userId = u.id ∧ Sql.Holds (c v))

/-- The users with a White Internet row on the origin that is paid for and served. -/
def onOrigin (id : ServerId) (now : Time) : User → Sql.Cond :=
  t.db.inWhiteInternet fun sub => sub.originNodeId = some id ∧ sub.LiveStatus ∧
    sub.expiresAt > now ∧ sub.isTrial = false ∧ sub.provisioningStatus ≠ .pendingDelete

/-- `SELECT protocol FROM servers WHERE id = …` as a scalar sub-query. -/
def serverProto (id : ServerId) : Option String :=
  (Table.lookup Server.id id t.servers).map (·.protocol)

/-- `SELECT CAST(capabilities AS VARCHAR) …` as a scalar sub-query. -/
def serverCaps (id : ServerId) : Option (List Char) :=
  (Table.lookup Server.id id t.servers).map fun s => Sql.jsonArray s.capabilities

/-- `caps LIKE '%"cap"%'`. -/
def capsLike (id : ServerId) (cap : String) : Sql.Cond :=
  (t.serverCaps id).map (Sql.likeInside (Sql.jsonString cap))

/-- `_build_server_audience_condition` over a server's id. -/
def audienceById (id : ℤ) (now : Time) (u : User) : Sql.Cond :=
  if id ≤ 0 then Sql.ofProp False
  else
    let serverId := id.toNat
    let isVlessCapable :=
      Sql.or (Sql.or (Sql.compare (· = ·) (t.serverProto serverId) (some vlessProtocol))
        (t.capsLike serverId "vless")) (t.capsLike serverId "xray_vless")
    let vlessCond := Sql.and (Sql.and isVlessCapable (Db.endsAfter now u))
      (t.hasVless (t.seenProfile serverId) u)
    let xrayCond := Sql.and
      (Sql.or (Sql.compare (· = ·) (t.serverProto serverId) (some xrayProtocol))
        (t.capsLike serverId xrayOriginCapability)) (t.onOrigin serverId now u)
    Sql.or vlessCond xrayCond

/-- `_build_server_audience_condition` over a loaded server. -/
def audienceByServer (s : Server) (now : Time) (u : User) : Sql.Cond :=
  s.byRole (Sql.and (Db.endsAfter now u) (t.hasVless t.liveProfile u)) (t.onOrigin s.id now u)

/-- `_apply_mass_bonus_audience_filter`. -/
def massBonusFilter (aud : TargetAudience) (now : Time) (server : Option Server) (u : User) :
    Sql.Cond :=
  match aud with
  | .server id =>
    match server with
    | some s => t.audienceByServer s now u
    | none => t.audienceById id now u
  | .active => t.db.effectiveActiveCondition now u
  | .expired => Sql.and (Sql.or (Db.endsBy now u) (Sql.isNull u.subscriptionEnd))
      (Sql.not (t.db.xrayActive now u))
  | .all => Sql.ofProp True

/-- `SELECT … WHERE NOT is_deleted AND NOT is_banned AND …`. -/
def selectRows (c : User → Sql.Cond) : List User :=
  t.db.users.filter fun u => u.isDeleted = false ∧ u.isBanned = false ∧ Sql.Holds (c u)

/-- The ids of these users. -/
def selectUsers (c : User → Sql.Cond) : List UserId := (t.selectRows c).map (·.id)

/-- The server that `process_mass_bonus_reason` loads. -/
def loadedServer : TargetAudience → Option Server
  | .server id => t.getServerById id
  | _ => none

/-- The users that the confirmation screen counts. -/
def previewed (aud : TargetAudience) (now : Time) : List UserId :=
  t.selectUsers (t.massBonusFilter aud now (t.loadedServer aud))

end AudienceDb

/-! ### The run -/

/-- The idempotency key of one credit. -/
def massBonusKey (batch : String) (amount : ℤ) (uid : UserId) : String :=
  s!"mass_bonus_{batch}_{uid}_{amount}"

/-- The ledger so far, and the users credited. -/
abbrev BonusRun := Db × List UserId

/-- One user, in a savepoint of their own: `fails` are the users whose credit the database refuses. -/
def creditUser (now : Time) (batch : String) (amount : ℤ) (fails : UserId → Bool) (r : BonusRun)
    (uid : UserId) : BonusRun :=
  if fails uid then r
  else
    match r.1.createAdminAdjustment now uid (.decimal amount)
        (.caller (massBonusKey batch amount uid)) {} with
    | .error _ => r
    | .ok ((_, created), db) => (db, if created then r.2 ++ [uid] else r.2)

/-- `_run_mass_bonus_background`, which credits the users it selects in chunks of 50. -/
def AudienceDb.runMassBonus (t : AudienceDb) (aud : TargetAudience) (now : Time) (batch : String)
    (amount : ℤ) (fails : UserId → Bool) : BonusRun :=
  let users := t.selectUsers (t.massBonusFilter aud now none)
  (Paging.chunks 50 users).foldl (fun r chunk => chunk.foldl (creditUser now batch amount fails) r)
    (t.db, [])

/-! ### The two spellings of a server's audience -/

namespace Server
variable (s : Server)

/-- The server serves direct VLESS clients, as the query over its id reads its row. -/
def VlessInSql : Prop :=
  s.protocol = vlessProtocol ∨
    Sql.likeInside (Sql.jsonString "vless") (Sql.jsonArray s.capabilities) = true ∨
    Sql.likeInside (Sql.jsonString "xray_vless") (Sql.jsonArray s.capabilities) = true

/-- The server is a White Internet origin, as the query over its id reads its row. -/
def OriginInSql : Prop :=
  s.protocol = xrayProtocol ∨
    Sql.likeInside (Sql.jsonString xrayOriginCapability) (Sql.jsonArray s.capabilities) = true

instance : Decidable s.VlessInSql := by unfold VlessInSql; infer_instance

instance : Decidable s.OriginInSql := by unfold OriginInSql; infer_instance

end Server

namespace AudienceDb
variable (t : AudienceDb) (now : Time) (u : User)

/-- The user has standard access and an active profile with a device. -/
def VlessLive : Prop :=
  (∃ e ∈ u.subscriptionEnd, now < e) ∧
    ∃ v ∈ t.db.vless, v.userId = u.id ∧ Sql.Holds (t.liveProfile v)

/-- The same, and the server has counted traffic of the profile. -/
def VlessSeen (id : ServerId) : Prop :=
  (∃ e ∈ u.subscriptionEnd, now < e) ∧
    ∃ v ∈ t.db.vless, v.userId = u.id ∧ Sql.Holds (t.seenProfile id v)

/-- The user has a paid White Internet row on the origin that is served. -/
def OriginLive (id : ServerId) : Prop :=
  ∃ sub ∈ t.db.whiteInternet.subscriptions, sub.userId = u.id ∧ sub.originNodeId = some id ∧
    sub.LiveStatus ∧ now < sub.expiresAt ∧ sub.isTrial = false ∧
    sub.provisioningStatus ≠ .pendingDelete

variable {t now u}

theorem VlessSeen.live {id : ServerId} (h : t.VlessSeen now u id) : t.VlessLive now u := by
  obtain ⟨hend, v, hv, hu, hseen⟩ := h
  exact ⟨hend, v, hv, hu, (Sql.holds_and.mp hseen).1⟩

theorem holds_onOrigin {id : ServerId} :
    Sql.Holds (t.onOrigin id now u) ↔ t.OriginLive now u id := by
  rw [onOrigin, Db.holds_inWhiteInternet]
  rfl

theorem holds_vlessCond :
    Sql.Holds (Sql.and (Db.endsAfter now u) (t.hasVless t.liveProfile u)) ↔ t.VlessLive now u := by
  rw [Sql.holds_and, Db.holds_endsAfter, hasVless, Sql.holds_ofProp]
  rfl

theorem holds_audienceByServer {s : Server} :
    Sql.Holds (t.audienceByServer s now u) ↔
      (s.isVlessCapable = true ∧ t.VlessLive now u) ∨
        (s.isWhiteInternetOrigin = true ∧ t.OriginLive now u s.id) := by
  rw [audienceByServer, Server.holds_byRole, holds_vlessCond, holds_onOrigin]

section
variable {id : ServerId} {s : Server} (hs : Table.lookup Server.id id t.servers = some s)
include hs

theorem holds_serverProto {p : String} :
    Sql.Holds (Sql.compare (· = ·) (t.serverProto id) (some p)) ↔ s.protocol = p := by
  rw [serverProto, hs]
  simp [eq_comm]

theorem holds_capsLike {cap : String} :
    Sql.Holds (t.capsLike id cap) ↔
      Sql.likeInside (Sql.jsonString cap) (Sql.jsonArray s.capabilities) = true := by
  rw [capsLike, serverCaps, hs]
  simp [Sql.Holds]

end

theorem holds_audienceById {id : ℤ} {s : Server} (hpos : 0 < id)
    (hs : Table.lookup Server.id id.toNat t.servers = some s) :
    Sql.Holds (t.audienceById id now u) ↔
      (s.VlessInSql ∧ t.VlessSeen now u s.id) ∨ (s.OriginInSql ∧ t.OriginLive now u s.id) := by
  rw [audienceById, if_neg (not_le.mpr hpos), Table.key_of_lookup Server.id hs]
  simp only [Sql.holds_or, Sql.holds_and, holds_serverProto hs, holds_capsLike hs, holds_onOrigin,
    Db.holds_endsAfter, hasVless, Sql.holds_ofProp]
  rw [Server.VlessInSql, Server.OriginInSql, VlessSeen, or_assoc, and_assoc]

/-! ### Who is selected -/

/-- Not deleted and not banned. -/
def Eligible (u : User) : Prop := u.isDeleted = false ∧ u.isBanned = false

instance : DecidablePred Eligible := fun u => by unfold Eligible; infer_instance

theorem mem_selectUsers {c : User → Sql.Cond} {uid : UserId} :
    uid ∈ t.selectUsers c ↔
      ∃ u ∈ t.db.users, Eligible u ∧ Sql.Holds (c u) ∧ u.id = uid := by
  simp [selectUsers, selectRows, Eligible, and_assoc]

/-- Two conditions select the same users exactly when they agree on every eligible one. -/
theorem selectUsers_iff (hids : (t.db.users.map (·.id)).Nodup) {c d : User → Sql.Cond} :
    (∀ uid, uid ∈ t.selectUsers c ↔ uid ∈ t.selectUsers d) ↔
      ∀ u ∈ t.db.users, Eligible u → (Sql.Holds (c u) ↔ Sql.Holds (d u)) := by
  have huniq : ∀ u ∈ t.db.users, ∀ u' ∈ t.db.users, u.id = u'.id → u = u' :=
    fun u hu u' hu' => List.inj_on_of_nodup_map hids hu hu'
  constructor
  · intro h u hu hel
    have hmem : ∀ c : User → Sql.Cond, u.id ∈ t.selectUsers c ↔ Sql.Holds (c u) := by
      intro c
      rw [mem_selectUsers]
      constructor
      · rintro ⟨u', hu', -, hc, hid⟩
        exact huniq u' hu' u hu hid ▸ hc
      · exact fun hc => ⟨u, hu, hel, hc, rfl⟩
    rw [← hmem c, ← hmem d]
    exact h u.id
  · intro h uid
    rw [mem_selectUsers, mem_selectUsers]
    constructor
    · rintro ⟨u, hu, hel, hc, rfl⟩
      exact ⟨u, hu, hel, (h u hu hel).mp hc, rfl⟩
    · rintro ⟨u, hu, hel, hd, rfl⟩
      exact ⟨u, hu, hel, (h u hu hel).mpr hd, rfl⟩

theorem nodup_selectUsers (hids : (t.db.users.map (·.id)).Nodup) (c : User → Sql.Cond) :
    (t.selectUsers c).Nodup :=
  hids.sublist (List.filter_sublist.map _)

end AudienceDb

/-! ### One credit -/

theorem massBonusKey_inj {batch : String} {amount : ℤ} {uid uid' : UserId}
    (h : massBonusKey batch amount uid = massBonusKey batch amount uid') : uid = uid' := by
  rw [massBonusKey, massBonusKey] at h
  have hchars := congrArg String.toList h
  simp only [String.toList_append] at hchars
  have hdigits : (toString uid).toList = (toString uid').toList := by
    simpa only [List.append_assoc, List.append_cancel_left_eq, List.append_cancel_right_eq]
      using hchars
  rw [Nat.toString_eq_repr, Nat.toString_eq_repr, Nat.toList_repr, Nat.toList_repr] at hdigits
  rw [← Nat.ofDigitChars_ten_toDigits (n := uid), hdigits, Nat.ofDigitChars_ten_toDigits]

/-- A credit under a new key is booked. -/
theorem Db.createAdminAdjustment_new {db : Db} (now : Time) {user : User} {amount : ℤ}
    {key : IdemKey} (hu : db.user user.id = some user) (hpos : 0 < amount)
    (hnew : ∀ e ∈ db.ledger.entries, e.idempotencyKey ≠ key) :
    ∃ v : EntryValues, (v.userId = user.id ∧ v.amount = amount ∧ v.idempotencyKey = key) ∧
      db.createAdminAdjustment now user.id (.decimal amount) key {} =
        .ok ((db.ledger.newEntry now v, true), { db with ledger := db.ledger.post now v }) := by
  have hamount : adjustmentAmount (.decimal amount) = .ok ⟨amount, hpos.ne'⟩ := by
    rw [adjustmentAmount, dif_pos ⟨by simpa using hpos.ne', Rat.den_intCast amount⟩]
    rfl
  have hadm : ∀ v : EntryValues, v.entryType = .adminAdjustment → v.idempotencyKey = key →
      db.ledger.Admits v := by
    rintro v ht rfl e he hclash
    rcases hclash with hkey | ⟨-, ⟨hpay, -⟩ | ⟨hpay, -⟩ | ⟨hpay, -⟩⟩
    · exact hnew e he hkey
    · rw [ht] at hpay
      cases hpay
    · rw [ht] at hpay
      cases hpay
    · rw [ht] at hpay
      cases hpay
  refine ⟨⟨user.id, .adminAdjustment, amount, none, none, none, none, key, {},
    ⟨hpos.ne', rfl, rfl, rfl⟩⟩, ⟨rfl, rfl, rfl⟩, ?_⟩
  rw [createAdminAdjustment, hamount]
  simp only [lockAccountUser, hu, Option.none_or, Ledger.insertOrGetEntry, bind, Except.bind]
  rw [if_pos (hadm _ rfl rfl)]
  simp [pure, Except.pure, hpos.not_gt]

/-! ### The whole run -/

section Run
variable {db : Db} {now : Time} {batch : String} {amount : ℤ} {fails : UserId → Bool}

/-- The run has booked one credit for each of these users, in order, and nothing else. -/
def Booked (db : Db) (batch : String) (amount : ℤ) (ids : List UserId) (r : BonusRun) : Prop :=
  r.1.users = db.users ∧ r.2 = ids ∧
    ∃ new, r.1.ledger.entries = db.ledger.entries ++ new ∧
      new.map (fun e => (e.userId, e.amount, e.idempotencyKey)) =
        ids.map fun uid => (uid, amount, IdemKey.caller (massBonusKey batch amount uid))

/-- No entry of the ledger has a key of the batch. -/
def NewBatch (db : Db) (batch : String) (amount : ℤ) : Prop :=
  ∀ uid, ∀ e ∈ db.ledger.entries, e.idempotencyKey ≠ .caller (massBonusKey batch amount uid)

theorem Booked.newKey {ids : List UserId} {r : BonusRun} {uid : UserId}
    (h : Booked db batch amount ids r) (hbatch : NewBatch db batch amount) (huid : uid ∉ ids) :
    ∀ e ∈ r.1.ledger.entries, e.idempotencyKey ≠ .caller (massBonusKey batch amount uid) := by
  obtain ⟨-, -, new, hentries, hnew⟩ := h
  intro e he hkey
  rw [hentries] at he
  rcases List.mem_append.mp he with he | he
  · exact hbatch uid e he hkey
  · have hmem := List.mem_map_of_mem (f := fun e => (e.userId, e.amount, e.idempotencyKey)) he
    rw [hnew] at hmem
    obtain ⟨uid', huid', heq⟩ := List.mem_map.mp hmem
    have hkeys := (Prod.mk.inj (Prod.mk.inj heq).2).2
    rw [hkey] at hkeys
    exact huid (massBonusKey_inj (IdemKey.caller.inj hkeys) ▸ huid')

/-- One more user is credited, unless their credit fails. -/
theorem Booked.step {ids : List UserId} {r : BonusRun} {user : User} (now : Time)
    (fails : UserId → Bool) (h : Booked db batch amount ids r)
    (hbatch : NewBatch db batch amount) (hpos : 0 < amount) (hu : db.user user.id = some user) (huid : user.id ∉ ids) :
    Booked db batch amount (ids ++ if fails user.id then [] else [user.id])
      (creditUser now batch amount fails r user.id) := by
  rw [creditUser]
  split
  · rw [List.append_nil]
    exact h
  · have hu' : r.1.user user.id = some user := by rw [Db.user, h.1]; exact hu
    obtain ⟨v, ⟨huser, hamount, hkey⟩, heq⟩ :=
      Db.createAdminAdjustment_new now hu' hpos (h.newKey hbatch huid)
    obtain ⟨husers, hids, new, hentries, hnew⟩ := h
    rw [heq]
    refine ⟨husers, by rw [hids]; rfl, new ++ [r.1.ledger.newEntry now v], ?_, ?_⟩
    · rw [← List.append_assoc, ← hentries]
      rfl
    · rw [List.map_append, List.map_append, hnew]
      simp [Ledger.newEntry, huser, hamount, hkey]

/-- The run credits the users it goes through, those whose credit fails excepted. -/
theorem Booked.run (now : Time) (fails : UserId → Bool) (hbatch : NewBatch db batch amount)
    (hpos : 0 < amount) :
    ∀ (xs ids : List UserId) (r : BonusRun), (ids ++ xs).Nodup →
      (∀ uid ∈ xs, ∃ user, db.user uid = some user) → Booked db batch amount ids r →
      Booked db batch amount (ids ++ xs.filter fun uid => !fails uid)
        (xs.foldl (creditUser now batch amount fails) r)
  | [], ids, r, _, _, h => by simpa using h
  | uid :: xs, ids, r, hnodup, husers, h => by
    obtain ⟨user, hu⟩ := husers uid (List.mem_cons_self)
    obtain rfl : user.id = uid := Table.key_of_lookup User.id hu
    have hnot : user.id ∉ ids := fun hmem =>
      List.disjoint_of_nodup_append hnodup hmem List.mem_cons_self
    have hstep := h.step now fails hbatch hpos hu hnot
    have hrest := Booked.run now fails hbatch hpos xs _ _ ?_
      (fun uid huid => husers uid (List.mem_cons_of_mem _ huid)) hstep
    · rw [List.foldl_cons, List.filter_cons]
      cases hf : fails user.id <;> simpa [hf] using hrest
    · cases hf : fails user.id
      · simpa [hf] using hnodup
      · simpa [hf] using hnodup.sublist (List.Sublist.append_left (List.sublist_cons_self _ _) _)

end Run

/-- The entries that the run has added to the user's account. -/
def newCredits (db : Db) (r : BonusRun) (uid : UserId) : List ℤ :=
  ((r.1.ledger.entries.drop db.ledger.entries.length).filter (·.userId = uid)).map (·.amount)

theorem Booked.newCredits {db : Db} {batch : String} {amount : ℤ} {ids : List UserId} {r : BonusRun}
    (h : Booked db batch amount ids r) (hids : ids.Nodup) (uid : UserId) :
    newCredits db r uid = if uid ∈ ids then [amount] else [] := by
  obtain ⟨-, -, new, hentries, hnew⟩ := h
  have hpairs : new.map (fun e => (e.userId, e.amount)) = ids.map fun uid => (uid, amount) := by
    have hfst := congrArg (List.map fun x : UserId × ℤ × IdemKey => (x.1, x.2.1)) hnew
    rwa [List.map_map, List.map_map] at hfst
  have hfilter : (new.filter fun e => e.userId = uid).map (·.amount) =
      ((new.map fun e => (e.userId, e.amount)).filter fun x => x.1 = uid).map (·.2) := by
    rw [List.filter_map, List.map_map]
    rfl
  rw [Just1kBot.newCredits, hentries, List.drop_left, hfilter, hpairs, List.filter_map,
    List.map_map]
  change (ids.filter fun x => x = uid).map _ = _
  rw [List.filter_eq, List.map_replicate, hids.count]
  split <;> rfl

/-! ### The previewed audience and the paid one -/

/-- The object and the row of the server give the user the same answer. -/
def AudienceDb.ServerAgrees (t : AudienceDb) (s : Server) (now : Time) (u : User) : Prop :=
  (t.VlessLive now u → ¬ t.OriginLive now u s.id →
    (s.isVlessCapable = true ↔ s.VlessInSql ∧ t.VlessSeen now u s.id)) ∧
  (t.OriginLive now u s.id → ¬ t.VlessLive now u →
    (s.isWhiteInternetOrigin = true ↔ s.OriginInSql)) ∧
  (t.VlessLive now u → t.OriginLive now u s.id →
    (s.isVlessCapable = true ∨ s.isWhiteInternetOrigin = true ↔
      s.VlessInSql ∧ t.VlessSeen now u s.id ∨ s.OriginInSql))

/-- The audience is not that of a server, the server is gone, or every eligible user gets the same
    answer from its object and from its row. -/
def AudienceDb.SameAudience (t : AudienceDb) (aud : TargetAudience) (now : Time) : Prop :=
  ∀ s ∈ t.loadedServer aud, ∀ u ∈ t.db.users, Eligible u → t.ServerAgrees s now u

/-- Whoever the screen counts is credited once, unless their credit fails, and nobody else is. -/
def AudienceDb.PaysPreview (t : AudienceDb) (aud : TargetAudience) (now : Time) (batch : String)
    (amount : ℤ) : Prop :=
  ∀ fails uid, newCredits t.db (t.runMassBonus aud now batch amount fails) uid =
    if uid ∈ t.previewed aud now ∧ fails uid = false then [amount] else []

namespace AudienceDb
variable {t : AudienceDb} {aud : TargetAudience} {now : Time} {batch : String} {amount : ℤ}

theorem loadedServer_eq_some {s : Server} (h : t.loadedServer aud = some s) :
    ∃ id : ℤ, aud = .server id ∧ 0 < id ∧ Table.lookup Server.id id.toNat t.servers = some s := by
  cases aud with
  | server id =>
    rw [loadedServer, getServerById] at h
    split at h
    · cases h
    · exact ⟨id, rfl, by omega, h⟩
  | all => cases h
  | active => cases h
  | expired => cases h

/-- Two unions of a part in `L` and a part in `O` agree when they do on each kind of element. -/
theorem union_iff {V W V' W' L S O : Prop} (hS : S → L) :
    ((V ∧ L ∨ W ∧ O) ↔ (V' ∧ S ∨ W' ∧ O)) ↔
      (L → ¬ O → (V ↔ V' ∧ S)) ∧ (O → ¬ L → (W ↔ W')) ∧
        (L → O → (V ∨ W ↔ V' ∧ S ∨ W')) := by
  by_cases hL : L
  · by_cases hO : O <;> simp [hL, hO]
  · have hS' : ¬ S := fun h => hL (hS h)
    by_cases hO : O <;> simp [hL, hO, hS']

/-- The two filters agree on a user exactly when the server's object and row do. -/
theorem serverAgrees_iff {s : Server} {u : User} (h : t.loadedServer aud = some s) :
    (Sql.Holds (t.massBonusFilter aud now (some s) u) ↔
      Sql.Holds (t.massBonusFilter aud now none u)) ↔ t.ServerAgrees s now u := by
  obtain ⟨id, rfl, hpos, hs⟩ := loadedServer_eq_some h
  simp only [massBonusFilter]
  rw [holds_audienceByServer, holds_audienceById hpos hs, union_iff VlessSeen.live, ServerAgrees]

theorem sameAudience_iff (hids : (t.db.users.map (·.id)).Nodup) :
    (∀ uid, uid ∈ t.previewed aud now ↔ uid ∈ t.selectUsers (t.massBonusFilter aud now none)) ↔
      t.SameAudience aud now := by
  rw [previewed, selectUsers_iff hids, SameAudience]
  rcases hs : t.loadedServer aud with _ | s
  · simp
  · constructor
    · rintro h s' hs' u hu hel
      cases hs'
      exact (serverAgrees_iff hs).mp (h u hu hel)
    · exact fun h u hu hel => (serverAgrees_iff hs).mpr (h s rfl u hu hel)

/-- Whoever the run selects is credited once, unless their credit fails. -/
theorem newCredits_runMassBonus (hids : (t.db.users.map (·.id)).Nodup) (hpos : 0 < amount)
    (hbatch : NewBatch t.db batch amount) (fails : UserId → Bool) (uid : UserId) :
    newCredits t.db (t.runMassBonus aud now batch amount fails) uid =
      if uid ∈ t.selectUsers (t.massBonusFilter aud now none) ∧ fails uid = false then [amount]
      else [] := by
  have hnodup := nodup_selectUsers hids (t.massBonusFilter aud now none)
  have hrun := Booked.run now fails hbatch hpos
    (t.selectUsers (t.massBonusFilter aud now none)) [] (t.db, []) (by simpa using hnodup) ?_
    ⟨rfl, rfl, [], by simp, rfl⟩
  · rw [runMassBonus, ← List.foldl_flatten, Paging.flatten_chunks (by omega),
      hrun.newCredits (by simpa using hnodup.filter _)]
    simp
  · intro uid huid
    obtain ⟨u, hu, -, -, rfl⟩ := mem_selectUsers.mp huid
    rcases hl : t.db.user u.id with _ | user
    · have hno := List.find?_eq_none.mp hl u hu
      simp at hno
    · exact ⟨user, rfl⟩

/-- The run pays exactly the previewed users where the two spellings of the audience agree. -/
theorem pays_preview_iff (hids : (t.db.users.map (·.id)).Nodup) (hpos : 0 < amount)
    (hbatch : NewBatch t.db batch amount) :
    t.PaysPreview aud now batch amount ↔ t.SameAudience aud now := by
  rw [← sameAudience_iff hids]
  constructor
  · intro h uid
    have hpaid := h (fun _ => false) uid
    rw [newCredits_runMassBonus hids hpos hbatch] at hpaid
    by_cases hsel : uid ∈ t.selectUsers (t.massBonusFilter aud now none) <;>
      by_cases hprev : uid ∈ t.previewed aud now <;> simp [hsel, hprev] at hpaid ⊢
  · intro h fails uid
    rw [newCredits_runMassBonus hids hpos hbatch]
    simp only [h uid]

/-- A user whose device has not yet used the only server. -/
def newDevice : AudienceDb where
  db :=
    { users := [{ id := 1, telegramId := 1, subscriptionEnd := some 10 }]
      vless := [{ id := 1, userId := 1 }] }
  servers := [{ id := 1 }]
  activeHwids := fun _ => some [(['a'], { seen := 0 })]

theorem pays_preview_iff_active :
    (newDevice.db.users.map (·.id)).Nodup ∧ newDevice.PaysPreview .active 0 "b" 5 := by
  have hids : (newDevice.db.users.map (·.id)).Nodup := by decide
  refine ⟨hids, (pays_preview_iff hids (by decide) ?_).mpr ?_⟩
  · intro uid e he
    cases he
  · intro s hs
    cases hs

/-- The screen counts the user and the run does not pay them. -/
theorem new_device_not_paid :
    newDevice.previewed (.server 1) 0 = [1] ∧
      newCredits newDevice.db (newDevice.runMassBonus (.server 1) 0 "b" 5 fun _ => false) 1 = [] ∧
      ¬ newDevice.PaysPreview (.server 1) 0 "b" 5 := by
  have hunpaid :
      newCredits newDevice.db (newDevice.runMassBonus (.server 1) 0 "b" 5 fun _ => false) 1 = [] := by
    decide +kernel
  have hcounted : newDevice.previewed (.server 1) 0 = [1] := by decide +kernel
  refine ⟨hcounted, hunpaid, fun h => ?_⟩
  have hpaid := h (fun _ => false) 1
  rw [hunpaid, if_pos ⟨by rw [hcounted]; exact List.mem_singleton_self 1, rfl⟩] at hpaid
  cases hpaid

end AudienceDb

end Just1kBot
