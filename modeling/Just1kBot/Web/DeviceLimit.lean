import Just1kBot.Web.Devices
import Just1kBot.Lib.Transition

/-! The limit on registered devices, over any history of registrations and limit changes.

    An admitted device is stored, and then no more devices are active than the limit allows. A
    refusal enters nothing, and takes away only what is stale or what is least recent above the
    limit. A device that is active and recent enough is not refused. The two registrations look for
    the device under different keys. -/

namespace Just1kBot

namespace Devices

/-- The device is active, and fewer than `limit` active ones come before it in recency; among
    devices seen at the same time the one stored first comes first. -/
def AmongRecent (now : Time) (limit : ℕ) (d : Devices) (p : DeviceId × Device) : Prop :=
  ∃ pre post, d.pruneStale now = pre ++ p :: post ∧ Lib.StableSort.rank Recency pre p post < limit

/-- What a registration under `key` answers and leaves, from the devices `d`. -/
structure Respects (now : Time) (limit : ℕ) (key : Option DeviceId) (d : Devices)
    (r : Registration) : Prop where
  stored : r.allowed = true →
    ∃ h ∈ key, ∃ entry ∈ Lib.Dict.get h r.devices, now - entry.seen < seconds 900
  within : r.allowed = true → (r.devices.pruneStale now).length ≤ limit
  entersNone : r.allowed = false → ∀ p ∈ r.devices, p ∈ d
  removes : r.allowed = false → ∀ p ∈ d, p ∉ r.devices →
    p.2.seen < now - hours hwidTtlHours ∨
      r.devices.length = limit ∧ ∀ q ∈ r.devices, p.2.seen ≤ q.2.seen
  recent : ∀ h ∈ key, ∀ entry, AmongRecent now limit d (h, entry) → r.allowed = true

variable {now : Time} {limit : ℕ} {hwid : DeviceId} {d : Devices} {r : Registration}

/-- A recent device is among those kept. -/
theorem AmongRecent.mem_kept {p : DeviceId × Device} (h : AmongRecent now limit d p) :
    p ∈ d.kept now limit := by
  obtain ⟨pre, post, heq, hrank⟩ := h
  rw [kept, keepRecent, heq]
  split_ifs
  · exact Lib.StableSort.mem_take_insertionSort Recency hrank
  · simp

/-- A device that is not kept is stale, or less recent than all that are kept, which are as many as
    the limit allows. -/
theorem removed_of_not_mem_kept {p : DeviceId × Device} (hp : p ∈ d)
    (hnot : p ∉ d.kept now limit) : p.2.seen < now - hours hwidTtlHours ∨
      (d.kept now limit).length = limit ∧ ∀ q ∈ d.kept now limit, p.2.seen ≤ q.2.seen := by
  rcases lt_or_ge p.2.seen (now - hours hwidTtlHours) with hstale | hfresh
  · exact .inl hstale
  · refine .inr ?_
    have hmem : p ∈ d.pruneStale now := List.mem_filter.mpr ⟨hp, by simpa using hfresh⟩
    rw [kept, keepRecent] at hnot ⊢
    by_cases hlt : limit < (d.pruneStale now).length
    · rw [if_pos hlt] at hnot ⊢
      refine ⟨?_, fun q hq => Lib.StableSort.rel_of_mem_take_of_not_mem Recency hq hmem hnot⟩
      rw [List.length_take, List.length_insertionSort]
      exact min_eq_left hlt.le
    · rw [if_neg hlt] at hnot
      exact absurd hmem hnot

theorem Registered.within (h : Registered now limit hwid d r) (hr : r.allowed = true) :
    (r.devices.pruneStale now).length ≤ limit := by
  refine (List.length_filter_le ..).trans ?_
  rcases h.admitted hr with ⟨hd, hall, -⟩ | ⟨entry, -, hset⟩
  · rw [hd, ← hall]
    exact length_kept_le
  · rw [hset]
    by_cases hmem : hwid ∈ (d.kept now limit).map Prod.fst
    · rw [Lib.Dict.length_set_of_mem hmem]
      exact length_kept_le
    · have hroom := (h.allowed_iff.mp hr).resolve_left hmem
      rw [Lib.Dict.set_of_not_mem hmem, List.length_append]
      exact hroom

/-- A registration that got to the devices respects the limit. -/
theorem Registered.respects (h : Registered now limit hwid d r) :
    Respects now limit (some hwid) d r where
  stored hr := by
    refine ⟨hwid, rfl, ?_⟩
    rcases h.admitted hr with ⟨hd, -, prev, hprev, hrecent⟩ | ⟨entry, hseen, hset⟩
    · rw [hd]
      exact ⟨prev, hprev, hrecent⟩
    · rw [hset]
      refine ⟨entry, Lib.Dict.get_set, ?_⟩
      rw [hseen, sub_self]
      decide
  within := h.within
  entersNone hr p hp := by
    rcases h.refused hr with heq | heq
    · rw [heq] at hp
      exact hp
    · rw [heq] at hp
      exact mem_of_mem_kept hp
  removes hr p hp hnot := by
    rcases h.refused hr with heq | heq
    · rw [heq] at hnot
      exact absurd hp hnot
    · rw [heq] at hnot ⊢
      exact removed_of_not_mem_kept hp hnot
  recent h' hh' entry hrecent := by
    obtain rfl : hwid = h' := Option.some.inj hh'
    exact h.allowed_iff.mpr (.inl (List.mem_map_of_mem hrecent.mem_kept))

/-- A registration that was turned away respects the limit where it had no key to look for, or the
    limit leaves no place at all. -/
theorem respects_of_turnedAway {key : Option DeviceId} (hr : r.allowed = false)
    (hd : r.devices = d) (hkey : key = none ∨ limit = 0) : Respects now limit key d r where
  stored h := by
    rw [hr] at h
    cases h
  within h := by
    rw [hr] at h
    cases h
  entersNone _ p hp := by
    rw [hd] at hp
    exact hp
  removes _ p hp hnot := by
    rw [hd] at hnot
    exact absurd hp hnot
  recent h hh entry hrecent := by
    rcases hkey with rfl | rfl
    · cases hh
    · obtain ⟨_, _, -, hrank⟩ := hrecent
      exact absurd hrank (Nat.not_lt_zero _)

end Devices

/-! ### Histories -/

/-- The devices of a user's two subscriptions, and the device limit of the White Internet one. -/
structure DeviceRows where
  vless : Devices := []
  whiteInternet : Devices := []
  deviceLimit : ℤ := 1

inductive DeviceEvent
  | registerVless (now : Time) (entitled : Bool) (limit : ℤ) (hwid : DeviceId) (info : DeviceInfo)
  | registerWhiteInternet (now : Time) (maxDevices : ℤ) (hwid : DeviceId) (info : DeviceInfo)
  /-- `set_device_limit_atomic`, which cuts the devices down. -/
  | setDeviceLimit (limit : ℕ)
  /-- A slot bought or taken back, which does not. -/
  | changeDeviceLimit (limit : ℤ)
  /-- What else writes the devices: a reset, or the database, which keeps no order of keys. -/
  | rewrite (vless whiteInternet : Devices)

namespace DeviceRows

/-- The registration an event makes. -/
def registration (s : DeviceRows) : DeviceEvent → Option Registration
  | .registerVless now entitled limit hwid info =>
    some (s.vless.registerHwidVless now entitled limit hwid info)
  | .registerWhiteInternet now maxDevices hwid info =>
    some (s.whiteInternet.registerHwidWhiteInternet now s.deviceLimit maxDevices hwid info)
  | _ => none

def step (s : DeviceRows) : DeviceEvent → DeviceRows
  | .registerVless now entitled limit hwid info =>
    { s with vless := (s.vless.registerHwidVless now entitled limit hwid info).devices }
  | .registerWhiteInternet now maxDevices hwid info =>
    { s with
      whiteInternet :=
        (s.whiteInternet.registerHwidWhiteInternet now s.deviceLimit maxDevices hwid info).devices }
  | .setDeviceLimit limit =>
    { s with deviceLimit := limit, whiteInternet := s.whiteInternet.keepRecent limit }
  | .changeDeviceLimit limit => { s with deviceLimit := limit }
  | .rewrite vless whiteInternet => { s with vless := vless, whiteInternet := whiteInternet }

/-- A registration respects the limit. The VLESS one looks for the HWID in lower case, and only for
    an entitled user. -/
def LimitRespected (s : DeviceRows) : DeviceEvent → Prop
  | .registerVless now entitled limit hwid info =>
    Devices.Respects now limit.toNat (if entitled then hwid.cleanVless else none) s.vless
      (s.vless.registerHwidVless now entitled limit hwid info)
  | .registerWhiteInternet now maxDevices hwid info =>
    Devices.Respects now (Devices.effectiveLimit s.deviceLimit maxDevices)
      (if hwid.cleanWhiteInternet = [] then none else some hwid.cleanWhiteInternet)
      s.whiteInternet
      (s.whiteInternet.registerHwidWhiteInternet now s.deviceLimit maxDevices hwid info)
  | _ => True

open Devices

theorem registerVless_respects (now : Time) (entitled : Bool) (limit : ℤ) (hwid : DeviceId)
    (info : DeviceInfo) (d : Devices) :
    Respects now limit.toNat (if entitled then hwid.cleanVless else none) d
      (d.registerHwidVless now entitled limit hwid info) := by
  rw [registerHwidVless]
  cases hclean : hwid.cleanVless with
  | none => exact respects_of_turnedAway rfl rfl (.inl (by split_ifs <;> rfl))
  | some h =>
    simp only
    by_cases haway : ¬ entitled ∨ limit ≤ 0
    · rw [if_pos haway]
      refine respects_of_turnedAway rfl rfl ?_
      rcases haway with hbarred | hlimit
      · exact .inl (if_neg hbarred)
      · exact .inr (Int.toNat_of_nonpos hlimit)
    · rw [if_neg haway]
      obtain ⟨hentitled, -⟩ := not_or.mp haway
      rw [if_pos (not_not.mp hentitled)]
      exact (registerVless_registered now limit.toNat h info d).respects

theorem registerWhiteInternet_respects (now : Time) (deviceLimit maxDevices : ℤ) (hwid : DeviceId)
    (info : DeviceInfo) (d : Devices) :
    Respects now (effectiveLimit deviceLimit maxDevices)
      (if hwid.cleanWhiteInternet = [] then none else some hwid.cleanWhiteInternet) d
      (d.registerHwidWhiteInternet now deviceLimit maxDevices hwid info) := by
  rw [registerHwidWhiteInternet]
  by_cases hempty : hwid.cleanWhiteInternet = []
  · rw [if_pos hempty, if_pos hempty]
    exact respects_of_turnedAway rfl rfl (.inl rfl)
  · rw [if_neg hempty, if_neg hempty]
    exact (registerWhiteInternet_registered _ _ _ info d).respects

/-- From any devices on, every registration of any history respects the limit. -/
theorem limit_respected (es : List DeviceEvent) (s : DeviceRows) :
    Lib.Always step LimitRespected s es := by
  refine Lib.always_of_inv (I := fun _ => True) step (fun _ _ _ => trivial) ?_ es s trivial
  intro s e _
  cases e with
  | registerVless now entitled limit hwid info => exact registerVless_respects ..
  | registerWhiteInternet now maxDevices hwid info => exact registerWhiteInternet_respects ..
  | setDeviceLimit limit => trivial
  | changeDeviceLimit limit => trivial
  | rewrite vless whiteInternet => trivial

/-- The VLESS registration admits "ABC" and stores "abc", and it turns away the stored device of a
    user who is banned. -/
theorem vless_stores_lower_case :
    (registerHwidVless 0 true 1 "ABC".toList [] []).allowed = true ∧
    "ABC".toList ∉
      (registerHwidVless 0 true 1 "ABC".toList [] []).devices.map Prod.fst ∧
    (registerHwidVless 0 false 1 "abc".toList [] [("abc".toList, { seen := 0 })]).allowed =
      false := by
  decide +kernel

end DeviceRows

end Just1kBot
