import Just1kBot.Models
import Just1kBot.Lib.Dict
import Just1kBot.Lib.Python
import Just1kBot.Lib.StableSort
import Mathlib.Tactic.Linarith

/-! The devices registered on a subscription: `register_hwid_atomic` of
    `database/repositories/vless_subscription_repo.py` and of
    `database/repositories/white_internet_repo.py`.

    Both forget the devices not seen for two days, keep the most recent ones within the limit, and
    then look for the device that asks. They differ in how they read an HWID, in when a known device
    is written again, and in what a refusal writes. The limit may have been lowered since, and the
    entries may be of an older form. -/

namespace Just1kBot

/-- An HWID, as its characters. -/
abbrev DeviceId := List Char

/-- `VLESS_HWID_TTL_HOURS` and `WHITE_INTERNET_HWID_TTL_HOURS`. -/
def hwidTtlHours : ℤ := 48

/-- What `extract_device_metadata` reads of the headers. -/
abbrev DeviceInfo := List (String × String)

/-- An entry of `active_hwids`: when the device was seen (`datetime.min` if that cannot be read),
    and its metadata. An entry of the old form is a bare timestamp. `iso` says that the time is
    stored as a string with its time zone, and not as a number or without a zone. -/
structure Device where
  seen : Time
  enriched : Bool := true
  iso : Bool := true
  info : DeviceInfo := []
  deriving DecidableEq

abbrev Devices := List (DeviceId × Device)

namespace Devices

/-- `prune_stale_hwids`. -/
def pruneStale (now : Time) (d : Devices) : Devices :=
  d.filter fun p => now - hours hwidTtlHours ≤ p.2.seen

/-- The order of the devices when some have to go: the most recently seen ones come first. -/
def Recency (a b : DeviceId × Device) : Prop := b.2.seen ≤ a.2.seen

instance : DecidableRel Recency := fun a b => inferInstanceAs (Decidable (b.2.seen ≤ a.2.seen))

instance : IsTrans (DeviceId × Device) Recency := ⟨fun _ _ _ hab hbc => le_trans hbc hab⟩

instance : Std.Total Recency := ⟨fun a b => le_total b.2.seen a.2.seen⟩

/-- The most recent devices within the limit. -/
def keepRecent (limit : ℕ) (d : Devices) : Devices :=
  if limit < d.length then (d.insertionSort Recency).take limit else d

/-- The devices a registration starts from. -/
def kept (now : Time) (limit : ℕ) (d : Devices) : Devices := keepRecent limit (pruneStale now d)

/-- The device is known, or there is room for it. -/
def Admits (now : Time) (limit : ℕ) (hwid : DeviceId) (d : Devices) : Prop :=
  hwid ∈ (d.kept now limit).map Prod.fst ∨ (d.kept now limit).length < limit

instance (now : Time) (limit : ℕ) (hwid : DeviceId) (d : Devices) :
    Decidable (Admits now limit hwid d) := inferInstanceAs (Decidable (_ ∨ _))

end Devices

namespace Device

/-- The metadata that is not blank, cut to 64 characters. -/
def clean (info : DeviceInfo) : DeviceInfo :=
  (info.filter fun p => Lib.Python.strip p.2 ≠ "").map fun p =>
    (p.1, String.ofList ((Lib.Python.strip p.2).toList.take 64))

def enter (now : Time) (info : DeviceInfo) : Device := { seen := now, info := clean info }

/-- The metadata says something new. -/
def differs (info : DeviceInfo) (prev : Device) : Bool :=
  (clean info).any fun p => Lib.Dict.get p.1 prev.info ≠ some p.2

def refresh (now : Time) (info : DeviceInfo) (prev : Device) : Device :=
  { prev with
    seen := now
    iso := true
    info := (clean info).foldl (fun d p => Lib.Dict.set p.1 p.2 d) prev.info }

end Device

/-- What a registration answers (whether the device is admitted, and how many are active), and the
    devices it leaves. -/
structure Registration where
  allowed : Bool
  active : ℕ
  devices : Devices
  deriving DecidableEq

namespace Devices

/-- The registration on a VLESS subscription, of an HWID that passed the checks: a device seen less
    than 15 minutes ago is not written again, unless its time is in an older form. -/
def registerVless (now : Time) (limit : ℕ) (hwid : DeviceId) (info : DeviceInfo) (d : Devices) :
    Registration :=
  let kept := d.kept now limit
  let pruned := kept.length ≠ d.length
  match Lib.Dict.get hwid kept with
  | some prev =>
    if prev.enriched ∧ prev.iso ∧ now - prev.seen < seconds 900 ∧ ¬ pruned ∧
        ¬ prev.differs info then
      { allowed := true, active := kept.length, devices := d }
    else
      let entry := if prev.enriched then prev.refresh now info else .enter now info
      { allowed := true, active := kept.length, devices := Lib.Dict.set hwid entry kept }
  | none =>
    if limit ≤ kept.length then { allowed := false, active := kept.length, devices := d }
    else
      { allowed := true, active := kept.length + 1
        devices := Lib.Dict.set hwid (.enter now info) kept }

/-- The registration on a White Internet subscription: a device seen in the last 15 minutes is not
    written again, a bare timestamp stays one without metadata, and a refusal writes the devices it
    kept. -/
def registerWhiteInternet (now : Time) (limit : ℕ) (hwid : DeviceId) (info : DeviceInfo)
    (d : Devices) : Registration :=
  let kept := d.kept now limit
  let pruned := kept.length ≠ d.length
  let bare : Device := { seen := now, enriched := false }
  match Lib.Dict.get hwid kept with
  | some prev =>
    let recent := 0 ≤ now - prev.seen ∧ now - prev.seen < seconds 900 ∧ ¬ pruned
    if recent ∧ (if prev.enriched then ¬ prev.differs info else info = []) then
      { allowed := true, active := kept.length, devices := d }
    else
      let entry :=
        if prev.enriched then prev.refresh now info
        else if info = [] then bare
        else .enter now info
      { allowed := true, active := kept.length, devices := Lib.Dict.set hwid entry kept }
  | none =>
    if limit ≤ kept.length then { allowed := false, active := kept.length, devices := kept }
    else
      { allowed := true, active := kept.length + 1
        devices := Lib.Dict.set hwid (if info = [] then bare else .enter now info) kept }

end Devices

namespace DeviceId

/-- The characters of `[a-zA-Z0-9_\-:]`. -/
def validChar (c : Char) : Bool :=
  c.val < 128 && (c.isAlphanum || c = '_' || c = '-' || c = ':')

/-- `clean_hwid` of the VLESS registration, where the stripped HWID has the required form. -/
def cleanVless (hwid : DeviceId) : Option DeviceId :=
  let h := Lib.Python.stripChars hwid
  if 3 ≤ h.length ∧ h.length ≤ 128 ∧ h.all validChar then some (h.map Char.toLower) else none

/-- `clean_hwid` of the White Internet registration. -/
def cleanWhiteInternet (hwid : DeviceId) : DeviceId := (Lib.Python.stripChars hwid).take 128

end DeviceId

namespace Devices

/-- A registration that is refused before it looks at the devices. -/
def turnedAway (now : Time) (d : Devices) : Registration :=
  { allowed := false, active := (d.pruneStale now).length, devices := d }

/-- `register_hwid_atomic` of the VLESS repository. `entitled` is what it finds of the user and the
    subscription under their locks, and `limit` the device limit of the user. -/
def registerHwidVless (now : Time) (entitled : Bool) (limit : ℤ) (hwid : DeviceId)
    (info : DeviceInfo) (d : Devices) : Registration :=
  match hwid.cleanVless with
  | none => { allowed := false, active := 0, devices := d }
  | some h =>
    if ¬ entitled ∨ limit ≤ 0 then d.turnedAway now else d.registerVless now limit.toNat h info

/-- `effective_limit` of the White Internet registration. -/
def effectiveLimit (deviceLimit maxDevices : ℤ) : ℕ :=
  (if 0 < deviceLimit then deviceLimit else max 1 maxDevices).toNat

/-- `register_hwid_atomic` of the White Internet repository. -/
def registerHwidWhiteInternet (now : Time) (deviceLimit maxDevices : ℤ) (hwid : DeviceId)
    (info : DeviceInfo) (d : Devices) : Registration :=
  if hwid.cleanWhiteInternet = [] then d.turnedAway now
  else
    d.registerWhiteInternet now (effectiveLimit deviceLimit maxDevices) hwid.cleanWhiteInternet info

/-! ### What is kept -/

theorem mem_of_mem_keepRecent {limit : ℕ} {d : Devices} {p : DeviceId × Device}
    (h : p ∈ d.keepRecent limit) : p ∈ d := by
  rw [keepRecent] at h
  split_ifs at h
  · exact (List.mem_insertionSort _).mp (List.mem_of_mem_take h)
  · exact h

theorem length_keepRecent (limit : ℕ) (d : Devices) :
    (d.keepRecent limit).length = min limit d.length := by
  rw [keepRecent]
  split_ifs with h
  · rw [List.length_take, List.length_insertionSort]
  · exact (min_eq_right (not_lt.mp h)).symm

variable {now : Time} {limit : ℕ} {hwid : DeviceId} {d : Devices}

theorem mem_of_mem_kept {p : DeviceId × Device} (h : p ∈ d.kept now limit) : p ∈ d :=
  List.mem_of_mem_filter (mem_of_mem_keepRecent h)

/-- A device that is kept was seen within the last two days. -/
theorem seen_of_mem_kept {p : DeviceId × Device} (h : p ∈ d.kept now limit) :
    now - hours hwidTtlHours ≤ p.2.seen := by
  simpa using (List.mem_filter.mp (mem_of_mem_keepRecent h)).2

theorem length_kept_le : (d.kept now limit).length ≤ limit := by
  rw [kept, length_keepRecent]
  exact min_le_left _ _

/-- Where there is room, every device seen within the last two days is kept. -/
theorem kept_of_room (h : (d.kept now limit).length < limit) :
    d.kept now limit = d.pruneStale now := by
  rw [kept, length_keepRecent] at h
  rw [kept, keepRecent]
  refine if_neg fun hlt => ?_
  rw [min_eq_left hlt.le] at h
  exact absurd h (lt_irrefl _)

/-- A registration that forgot no device started from all of them. -/
theorem kept_of_length (h : (d.kept now limit).length = d.length) : d.kept now limit = d := by
  have hprune : (d.pruneStale now).length ≤ d.length := List.length_filter_le ..
  have hlength : min limit (d.pruneStale now).length = d.length := by
    rw [← h, kept, length_keepRecent]
  have hall : d.pruneStale now = d := by
    refine List.filter_sublist.eq_of_length (le_antisymm hprune ?_)
    rw [← hlength]
    exact min_le_right _ _
  rw [kept, hall, keepRecent]
  rw [hall] at hlength
  exact if_neg (not_lt.mpr (min_eq_right_iff.mp hlength))

/-- What both registrations do: a device is admitted exactly where it is known or there is room. It
    is found as it is, where no device was forgotten, or set among the devices kept; a refusal
    leaves the devices or those kept. -/
structure Registered (now : Time) (limit : ℕ) (hwid : DeviceId) (d : Devices)
    (r : Registration) : Prop where
  allowed_iff : r.allowed = true ↔ Admits now limit hwid d
  admitted : r.allowed = true →
    (r.devices = d ∧ d.kept now limit = d ∧
        ∃ prev ∈ Lib.Dict.get hwid d, now - prev.seen < seconds 900) ∨
      ∃ entry : Device, entry.seen = now ∧ r.devices = Lib.Dict.set hwid entry (d.kept now limit)
  refused : r.allowed = false → r.devices = d ∨ r.devices = d.kept now limit

theorem registered_known {prev : Device}
    (hknown : Lib.Dict.get hwid (d.kept now limit) = some prev) {r : Registration}
    (hr : r.allowed = true)
    (hdevices : (r.devices = d ∧ (d.kept now limit).length = d.length ∧
        now - prev.seen < seconds 900) ∨
      ∃ entry : Device, entry.seen = now ∧
        r.devices = Lib.Dict.set hwid entry (d.kept now limit)) :
    Registered now limit hwid d r := by
  have hmem : hwid ∈ (d.kept now limit).map Prod.fst := by
    by_contra hnot
    rw [Lib.Dict.get_eq_none_iff.mpr hnot] at hknown
    cases hknown
  refine ⟨iff_of_true hr (.inl hmem), fun _ => ?_, fun h => ?_⟩
  · rcases hdevices with ⟨hd, hlength, hrecent⟩ | hset
    · have hall := kept_of_length hlength
      rw [hall] at hknown
      exact .inl ⟨hd, hall, prev, hknown, hrecent⟩
    · exact .inr hset
  · rw [hr] at h
    cases h

theorem registered_new (hnew : Lib.Dict.get hwid (d.kept now limit) = none)
    {refusal accepted : Registration} (hrefusal : refusal.allowed = false)
    (hkeeps : refusal.devices = d ∨ refusal.devices = d.kept now limit)
    (haccepted : accepted.allowed = true) {entry : Device} (hseen : entry.seen = now)
    (hset : accepted.devices = Lib.Dict.set hwid entry (d.kept now limit)) :
    Registered now limit hwid d
      (if limit ≤ (d.kept now limit).length then refusal else accepted) := by
  have hnot := Lib.Dict.get_eq_none_iff.mp hnew
  split_ifs with hfull
  · refine ⟨?_, fun h => ?_, fun _ => hkeeps⟩
    · rw [hrefusal]
      refine iff_of_false (by simp) ?_
      rintro (hmem | hroom)
      · exact hnot hmem
      · exact absurd hroom (not_lt.mpr hfull)
    · rw [hrefusal] at h
      cases h
  · refine ⟨iff_of_true haccepted (.inr (not_le.mp hfull)), fun _ => .inr ⟨entry, hseen, hset⟩,
      fun h => ?_⟩
    rw [haccepted] at h
    cases h

theorem registerVless_registered (now : Time) (limit : ℕ) (hwid : DeviceId) (info : DeviceInfo)
    (d : Devices) : Registered now limit hwid d (d.registerVless now limit hwid info) := by
  rw [registerVless]
  cases hget : Lib.Dict.get hwid (d.kept now limit) with
  | none => exact registered_new hget rfl (.inl rfl) rfl rfl rfl
  | some prev =>
    simp only
    split_ifs with hrecent henriched
    · obtain ⟨-, -, hseen, hpruned, -⟩ := hrecent
      exact registered_known hget rfl (.inl ⟨rfl, not_not.mp hpruned, hseen⟩)
    · exact registered_known hget rfl (.inr ⟨_, rfl, rfl⟩)
    · exact registered_known hget rfl (.inr ⟨_, rfl, rfl⟩)

theorem registerWhiteInternet_registered (now : Time) (limit : ℕ) (hwid : DeviceId)
    (info : DeviceInfo) (d : Devices) :
    Registered now limit hwid d (d.registerWhiteInternet now limit hwid info) := by
  rw [registerWhiteInternet]
  cases hget : Lib.Dict.get hwid (d.kept now limit) with
  | none =>
    have hseen : (if info = [] then ({ seen := now, enriched := false } : Device)
        else .enter now info).seen = now := by
      split_ifs <;> rfl
    exact registered_new hget rfl (.inr rfl) rfl hseen rfl
  | some prev =>
    have hseen : (if prev.enriched then prev.refresh now info
        else if info = [] then ({ seen := now, enriched := false } : Device)
        else .enter now info).seen = now := by
      split_ifs <;> rfl
    by_cases hwritten : (0 ≤ now - prev.seen ∧ now - prev.seen < seconds 900 ∧
        ¬ (d.kept now limit).length ≠ d.length) ∧
        (if prev.enriched then (¬ prev.differs info : Prop) else info = [])
    · have hlength := not_not.mp hwritten.1.2.2
      have hrecent := hwritten.1.2.1
      simp only
      rw [if_pos hwritten]
      exact registered_known hget rfl (.inl ⟨rfl, hlength, hrecent⟩)
    · simp only
      rw [if_neg hwritten]
      exact registered_known hget rfl (.inr ⟨_, hseen, rfl⟩)

end Devices

end Just1kBot
