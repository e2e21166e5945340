import Just1kBot.Users.Traffic
import Just1kBot.Lib.Meter
import Just1kBot.Lib.Transition

/-! VLESS metering: `record_vless_traffic_atomic` of
    `database/repositories/vless_subscription_repo.py`.

    A subscription keeps one snapshot for each server, so the servers are metered apart: the totals
    are the sum of what each server's own samples are charged, however the samples interleave. The
    first sample of a server is charged in full on a row marked `_fresh` (every row the bot
    creates), and is a baseline on a row without the mark. -/

namespace Just1kBot
open Lib.Meter (increase own)

namespace NodeSnapshots

/-- `snapshots.get(str(server_id))`. -/
def find (s : NodeSnapshots) (server : ServerId) : Option NodeSnapshot :=
  (Lib.Table.lookup Prod.fst server s.nodes).map Prod.snd

/-- `snapshots[str(server_id)] = …`. -/
def set (s : NodeSnapshots) (server : ServerId) (n : NodeSnapshot) : NodeSnapshots :=
  { s with nodes := if (s.find server).isSome then Lib.Table.put Prod.fst (server, n) s.nodes
                    else s.nodes ++ [(server, n)] }

theorem find_set (s : NodeSnapshots) (server server' : ServerId) (n : NodeSnapshot) :
    (s.set server n).find server' = if server' = server then some n else s.find server' := by
  rw [set]
  cases hfind : Lib.Table.lookup Prod.fst server s.nodes with
  | none =>
    rw [if_neg (by simp [find, hfind])]
    simp only [find, Lib.Table.lookup_append]
    by_cases h : server' = server
    · subst h
      simp [hfind]
    · simp [h, Ne.symm h]
  | some p =>
    rw [if_pos (by simp [find, hfind])]
    simp only [find, Lib.Table.lookup_put]
    by_cases h : server' = server
    · simp [h, hfind]
    · simp [h]

end NodeSnapshots

/-- A sample as it is handed to the metering: raw counters, and the UUID the caller expects. -/
structure VlessSample where
  server : ServerId
  epoch : Epoch
  rawUplink : ℤ
  rawDownlink : ℤ
  expectedUuid : Option Uuid := none
  now : Time := 0
  cycle : Month := 0
  deriving DecidableEq, Repr

namespace VlessSubscription

/-- What a sample adds, uplink and downlink. -/
def trafficDelta (sub : VlessSubscription) (server : ServerId) (epoch : Epoch) (up down : ℕ) :
    ℕ × ℕ :=
  match sub.nodeTrafficSnapshots.find server with
  | none => if sub.nodeTrafficSnapshots.fresh then (up, down) else (0, 0)
  | some prev =>
    if prev.epoch ≠ epoch then (up, down) else (increase prev.up up, increase prev.down down)

/-- The snapshot of the server already says what the sample says. -/
def SameSnapshot (sub : VlessSubscription) (server : ServerId) (epoch : Epoch) (up down : ℕ) :
    Prop :=
  ∃ prev ∈ sub.nodeTrafficSnapshots.find server,
    prev.epoch = epoch ∧ prev.up = up ∧ prev.down = down

instance (sub : VlessSubscription) (server : ServerId) (epoch : Epoch) (up down : ℕ) :
    Decidable (sub.SameSnapshot server epoch up down) := by unfold SameSnapshot; infer_instance

/-- The row after a sample. -/
def recordTraffic (s : VlessSample) (sub : VlessSubscription) : VlessSubscription :=
  let up := s.rawUplink.toNat
  let down := s.rawDownlink.toNat
  let delta := sub.trafficDelta s.server s.epoch up down
  if 0 < delta.1 + delta.2 ∨ ¬ sub.SameSnapshot s.server s.epoch up down then
    { sub with
      trafficUp := sub.trafficUp + delta.1
      trafficDown := sub.trafficDown + delta.2
      nodeTrafficSnapshots :=
        sub.nodeTrafficSnapshots.set s.server ⟨s.epoch, up, down, s.now / 1000000⟩ }
  else sub

end VlessSubscription

namespace Db

def vlessSubscription (db : Db) (id : ℕ) : Option VlessSubscription :=
  Lib.Table.lookup VlessSubscription.id id db.vless

def putVless (db : Db) (sub : VlessSubscription) : Db :=
  { db with vless := Lib.Table.put VlessSubscription.id sub db.vless }

/-- `record_vless_traffic_atomic`: the total, downlink and uplink deltas, and the next database. -/
def recordVlessTraffic (db : Db) (subscriptionId : ℕ) (s : VlessSample) : (ℕ × ℕ × ℕ) × Db :=
  match db.vlessSubscription subscriptionId with
  | none => ((0, 0, 0), db)
  | some sub =>
    if s.expectedUuid.any (sub.uuid ≠ ·) then ((0, 0, 0), db)
    else
      let delta := sub.trafficDelta s.server s.epoch s.rawUplink.toNat s.rawDownlink.toNat
      let total := delta.1 + delta.2
      let db := db.putVless (sub.recordTraffic s)
      let db := if 0 < total then
          match db.user sub.userId with
          | none => db
          | some user => db.putUser (user.addVlessTraffic s.cycle total)
        else db
      ((total, delta.2, delta.1), db)

end Db

/-! ### The reference -/

/-- What one server reported in one sample. -/
structure Reading where
  epoch : Epoch
  up : ℕ
  down : ℕ
  deriving DecidableEq, Repr

/-- What a reading adds to the one before it on the same server, uplink and downlink: its increase
    over a reading of the same epoch, or its full value when the epoch changed or a counter fell.
    A first reading counts in full if the row is fresh. -/
def Reading.charge (fresh : Bool) (prev : Option Reading) (r : Reading) : ℕ × ℕ :=
  match prev with
  | none => if fresh then (r.up, r.down) else (0, 0)
  | some p =>
    if p.epoch = r.epoch then (increase p.up r.up, increase p.down r.down) else (r.up, r.down)

/-- What the readings of one server add, after the reading before them. -/
abbrev serverReference (fresh : Bool) (prev : Option Reading) (rs : List Reading) : ℕ × ℕ :=
  Lib.Meter.total (Reading.charge fresh) (fun _ r => some r) prev rs

namespace VlessSample

def reading (s : VlessSample) : Reading := ⟨s.epoch, s.rawUplink.toNat, s.rawDownlink.toNat⟩

/-- The caller's sample is of this subscription's UUID. -/
def Accepted (uuid : Uuid) (s : VlessSample) : Prop := ¬ s.expectedUuid.any (uuid ≠ ·) = true

instance (uuid : Uuid) : DecidablePred (Accepted uuid) := fun s => by
  unfold Accepted; infer_instance

end VlessSample

/-- The accepted readings, each with its server. -/
def readings (uuid : Uuid) (samples : List VlessSample) : List (ServerId × Reading) :=
  (samples.filter fun s => s.Accepted uuid).map fun s => (s.server, s.reading)

/-! ### The code meters each server against its own readings -/

namespace VlessSubscription

/-- The last reading stored for each server. -/
def previous (sub : VlessSubscription) (server : ServerId) : Option Reading :=
  (sub.nodeTrafficSnapshots.find server).map fun n => ⟨n.epoch, n.up, n.down⟩

theorem trafficDelta_eq (sub : VlessSubscription) (server : ServerId) (epoch : Epoch)
    (up down : ℕ) : sub.trafficDelta server epoch up down =
      Reading.charge sub.nodeTrafficSnapshots.fresh (sub.previous server) ⟨epoch, up, down⟩ := by
  simp only [trafficDelta, previous, Reading.charge]
  cases sub.nodeTrafficSnapshots.find server with
  | none => rfl
  | some prev =>
    by_cases h : prev.epoch = epoch
    · simp [h]
    · simp [h]

theorem sameSnapshot_iff (sub : VlessSubscription) (server : ServerId) (epoch : Epoch)
    (up down : ℕ) :
    sub.SameSnapshot server epoch up down ↔ sub.previous server = some ⟨epoch, up, down⟩ := by
  rw [SameSnapshot, previous]
  cases sub.nodeTrafficSnapshots.find server with
  | none => simp
  | some prev => simp

/-- What a row carries through every sample. -/
structure SameIdentity (sub sub' : VlessSubscription) : Prop where
  id : sub'.id = sub.id
  userId : sub'.userId = sub.userId
  uuid : sub'.uuid = sub.uuid
  fresh : sub'.nodeTrafficSnapshots.fresh = sub.nodeTrafficSnapshots.fresh

/-- A sample is charged against the previous reading of its server, and becomes the previous one,
    whether or not the row is written. -/
theorem recordTraffic_spec (s : VlessSample) (sub : VlessSubscription) :
    let delta := Reading.charge sub.nodeTrafficSnapshots.fresh (sub.previous s.server) s.reading
    SameIdentity sub (sub.recordTraffic s) ∧
      (sub.recordTraffic s).trafficUp = sub.trafficUp + delta.1 ∧
      (sub.recordTraffic s).trafficDown = sub.trafficDown + delta.2 ∧
      (sub.recordTraffic s).previous = Function.update sub.previous s.server (some s.reading) := by
  have hdelta := trafficDelta_eq sub s.server s.epoch s.rawUplink.toNat s.rawDownlink.toNat
  rw [recordTraffic]
  simp only
  split_ifs with hwrite
  · refine ⟨⟨rfl, rfl, rfl, rfl⟩, ?_, ?_, funext fun server => ?_⟩
    · rw [hdelta]; rfl
    · rw [hdelta]; rfl
    · simp only [previous, NodeSnapshots.find_set, Function.update_apply]
      split_ifs <;> rfl
  · -- the skipped write would have stored what is stored, and added nothing
    rw [not_or, not_not, sameSnapshot_iff, hdelta] at hwrite
    obtain ⟨hzero, hsame⟩ := hwrite
    refine ⟨⟨rfl, rfl, rfl, rfl⟩, ?_, ?_, ?_⟩
    · unfold VlessSample.reading; omega
    · unfold VlessSample.reading; omega
    · rw [VlessSample.reading, ← hsame, Function.update_eq_self]

end VlessSubscription

/-- Samples of one subscription, each in its own transaction. -/
abbrev vlessRun (subscriptionId : ℕ) (db : Db) (samples : List VlessSample) : Db :=
  Lib.run (fun db s => (db.recordVlessTraffic subscriptionId s).2) db samples

/-- A subscription and its user. -/
structure VlessRows (db : Db) (id : ℕ) (sub : VlessSubscription) (user : User) : Prop where
  row : db.vlessSubscription id = some sub
  owner : db.user sub.userId = some user

/-- A sample moves the two rows by what it is charged, or is not of the subscription's UUID and
    changes nothing. -/
theorem VlessRows.record {db : Db} {id : ℕ} {sub : VlessSubscription} {user : User}
    (h : VlessRows db id sub user) (s : VlessSample) (hs : s.Accepted sub.uuid) :
    ∃ user', VlessRows (db.recordVlessTraffic id s).2 id (sub.recordTraffic s) user' ∧
      let delta := Reading.charge sub.nodeTrafficSnapshots.fresh (sub.previous s.server) s.reading
      user'.totalTrafficBytes = user.totalTrafficBytes + (delta.1 + delta.2) := by
  obtain ⟨hid, -⟩ := VlessSubscription.recordTraffic_spec s sub
  have hput : (db.putVless (sub.recordTraffic s)).vlessSubscription id =
      some (sub.recordTraffic s) :=
    Lib.Table.lookup_put_self VlessSubscription.id h.row
      (hid.id.trans (Lib.Table.key_of_lookup VlessSubscription.id h.row))
  have huser : user.id = sub.userId := Lib.Table.key_of_lookup User.id h.owner
  rw [Db.recordVlessTraffic]
  simp only [h.row, if_neg hs, VlessSubscription.trafficDelta_eq]
  split_ifs with hpos
  · simp only [show (db.putVless (sub.recordTraffic s)).user sub.userId = some user from h.owner]
    refine ⟨user.addVlessTraffic s.cycle _, ⟨hput, ?_⟩, rfl⟩
    rw [hid.userId]
    exact Lib.Table.lookup_put_self User.id h.owner huser
  · refine ⟨user, ⟨hput, ?_⟩, ?_⟩
    · rw [hid.userId]
      exact h.owner
    · simp only [VlessSample.reading]
      omega

/-- After a run the totals have grown by what the keyed meter charges. -/
theorem VlessRows.run {id : ℕ} : ∀ (samples : List VlessSample) {db : Db}
    {sub : VlessSubscription} {user : User}, VlessRows db id sub user →
    ∃ sub' user', VlessRows (vlessRun id db samples) id sub' user' ∧
      let charged := Lib.Meter.keyedTotal (Reading.charge sub.nodeTrafficSnapshots.fresh)
        (fun _ r => some r) sub.previous (readings sub.uuid samples)
      sub'.trafficUp = sub.trafficUp + charged.1 ∧ sub'.trafficDown = sub.trafficDown + charged.2 ∧
        user'.totalTrafficBytes = user.totalTrafficBytes + (charged.1 + charged.2)
  | [], _, sub, user, h => ⟨sub, user, h, rfl, rfl, rfl⟩
  | s :: samples, db, sub, user, h => by
    by_cases hs : s.Accepted sub.uuid
    · obtain ⟨user₁, h₁, htotal₁⟩ := h.record s hs
      obtain ⟨hid, hup₁, hdown₁, hprev⟩ := VlessSubscription.recordTraffic_spec s sub
      obtain ⟨sub', user', h', hup, hdown, htotal⟩ := VlessRows.run samples h₁
      rw [hid.fresh, hid.uuid, hprev] at hup hdown htotal
      have hread : readings sub.uuid (s :: samples) =
          (s.server, s.reading) :: readings sub.uuid samples := by
        simp [readings, hs]
      refine ⟨sub', user', h', ?_⟩
      simp only [hread, Lib.Meter.keyedTotal, Prod.fst_add, Prod.snd_add]
      refine ⟨?_, ?_, ?_⟩ <;> omega
    · have hskip : (db.recordVlessTraffic id s).2 = db := by
        rw [Db.recordVlessTraffic]
        simp only [h.row, if_pos (not_not.mp hs)]
      have hread : readings sub.uuid (s :: samples) = readings sub.uuid samples := by
        simp [readings, hs]
      rw [hread, vlessRun, Lib.run_cons, hskip]
      exact VlessRows.run samples h

/-- The totals of a subscription and of its user: uplink, downlink, and the user's lifetime
    total. -/
def Db.vlessTotals (db : Db) (id : ℕ) : Option (ℕ × ℕ × ℕ) := do
  let sub ← db.vlessSubscription id
  let user ← db.user sub.userId
  return (sub.trafficUp, sub.trafficDown, user.totalTrafficBytes)

/-- The reference: the sum, over the servers, of what each server's own readings add. -/
def vlessReference (sub : VlessSubscription) (samples : List VlessSample) : ℕ × ℕ :=
  ∑ server ∈ (samples.map VlessSample.server).toFinset,
    serverReference sub.nodeTrafficSnapshots.fresh (sub.previous server)
      (own server (readings sub.uuid samples))

/-- The totals grow by the sum, over the servers, of what each server's own readings add, so they do
    not depend on how the samples of different servers are interleaved. -/
theorem vless_metering_reference {db : Db} {id : ℕ} {sub : VlessSubscription} {user : User}
    (h : VlessRows db id sub user) (samples : List VlessSample) :
    (let charged := vlessReference sub samples
     (vlessRun id db samples).vlessTotals id =
       some (sub.trafficUp + charged.1, sub.trafficDown + charged.2,
         user.totalTrafficBytes + (charged.1 + charged.2))) ∧
      ∀ samples', (∀ server, own server (readings sub.uuid samples') =
          own server (readings sub.uuid samples)) →
        (vlessRun id db samples').vlessTotals id = (vlessRun id db samples).vlessTotals id := by
  have htotals : ∀ zs, (vlessRun id db zs).vlessTotals id =
      let charged := Lib.Meter.keyedTotal (Reading.charge sub.nodeTrafficSnapshots.fresh)
        (fun _ r => some r) sub.previous (readings sub.uuid zs)
      some (sub.trafficUp + charged.1, sub.trafficDown + charged.2,
        user.totalTrafficBytes + (charged.1 + charged.2)) := fun zs => by
    obtain ⟨sub', user', h', hup, hdown, htotal⟩ := h.run zs
    rw [Db.vlessTotals]
    rw [h'.row]
    simp only [Option.bind_eq_bind, Option.bind_some, h'.owner, hup, hdown, htotal]
    rfl
  refine ⟨?_, fun samples' hown => ?_⟩
  · rw [htotals, vlessReference,
      ← Lib.Meter.keyedTotal_eq _ _ (samples.map VlessSample.server).toFinset]
    intro p hp
    obtain ⟨s, hs, rfl⟩ := List.mem_map.mp hp
    exact List.mem_toFinset.mpr (List.mem_map_of_mem (List.mem_of_mem_filter hs))
  · rw [htotals, htotals, Lib.Meter.keyedTotal_congr _ _ _ hown]

/-- A subscription as the bot creates it, and its user. -/
def freshVless : VlessSubscription :=
  { id := 1, userId := 1, nodeTrafficSnapshots := { fresh := true } }

def freshVlessDb : Db := { users := [{ id := 1, telegramId := 1 }], vless := [freshVless] }

/-- Two servers, interleaved; the counters of the first one fall. -/
def twoServers : List VlessSample :=
  [{ server := 1, epoch := 7, rawUplink := 10, rawDownlink := 100 },
    { server := 2, epoch := 9, rawUplink := 0, rawDownlink := 50 },
    { server := 1, epoch := 7, rawUplink := 10, rawDownlink := 0 },
    { server := 1, epoch := 7, rawUplink := 15, rawDownlink := 150 }]

theorem vless_metering_reference_two_servers :
    (vlessRun 1 freshVlessDb twoServers).vlessTotals 1 =
      some (0 + (vlessReference freshVless twoServers).1,
        0 + (vlessReference freshVless twoServers).2,
        0 + ((vlessReference freshVless twoServers).1 +
          (vlessReference freshVless twoServers).2)) :=
  have h : VlessRows freshVlessDb 1 freshVless { id := 1, telegramId := 1 } := ⟨rfl, rfl⟩
  (vless_metering_reference h twoServers).1

example : (vlessRun 1 freshVlessDb twoServers).vlessTotals 1 = some (15, 300, 315) := by
  decide +kernel

end Just1kBot
