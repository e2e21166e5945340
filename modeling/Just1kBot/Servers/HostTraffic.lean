import Just1kBot.Models
import Just1kBot.Lib.Meter
import Just1kBot.Lib.Transition
import Mathlib.Algebra.Order.BigOperators.Group.Finset

/-! Host traffic: `accumulate_host_traffic_cycle` of `utils/traffic_helpers.py`, as both traffic
    workers call it under the lock on the server row.

    Each worker samples the byte counters of the host, and applies its sample later, in a
    transaction of its own; between the two the other worker may apply a sample taken earlier or
    later. The rule charges the increase over the stored total, and all of the sample when it is
    below that total: it takes such a sample for the first one after a reboot. -/

namespace Just1kBot
open Lib.Meter (increase increase_eq_zero_iff)

/-- The host keys of `extra_data`. -/
structure HostTraffic where
  hostTrafficCycle : Option Month := none
  hostLastRawBytes : Option ℕ := none
  hostMonthlyTrafficBytes : ℕ := 0
  deriving DecidableEq, Repr

namespace HostTraffic

/-- `accumulate_host_traffic_cycle`: whether the keys were modified, and the keys. -/
def accumulateHostTrafficCycle (extra : HostTraffic) (hostTx hostRx : ℤ) (currentCycle : Month) :
    Bool × HostTraffic :=
  let rawTotal := hostTx.toNat + hostRx.toNat
  if rawTotal = 0 then (false, extra)
  else if extra.hostTrafficCycle ≠ some currentCycle then
    (true,
      { hostTrafficCycle := some currentCycle
        hostLastRawBytes := some rawTotal
        hostMonthlyTrafficBytes :=
          match extra.hostLastRawBytes with
          | some lastRaw => if lastRaw ≤ rawTotal then rawTotal - lastRaw else rawTotal
          | none => 0 })
  else
    match extra.hostLastRawBytes with
    | none => (true, { extra with hostLastRawBytes := some rawTotal })
    | some lastRaw =>
      let delta := if lastRaw ≤ rawTotal then rawTotal - lastRaw else rawTotal
      if 0 < delta then
        (true,
          { extra with
            hostMonthlyTrafficBytes := extra.hostMonthlyTrafficBytes + delta
            hostLastRawBytes := some rawTotal })
      else (false, extra)

/-- What a sample adds to the month it is counted in. -/
def delta (extra : HostTraffic) (rawTotal : ℕ) : ℕ :=
  extra.hostLastRawBytes.elim 0 fun lastRaw => increase lastRaw rawTotal

/-- A sample with traffic: the stored total becomes its total, and the month grows by the delta, a
    new month from zero. -/
theorem accumulate_snd (extra : HostTraffic) (tx rx : ℕ) (cycle : Month) (h : tx + rx ≠ 0) :
    (extra.accumulateHostTrafficCycle tx rx cycle).2 =
      { hostTrafficCycle := some cycle
        hostLastRawBytes := some (tx + rx)
        hostMonthlyTrafficBytes :=
          (if extra.hostTrafficCycle = some cycle then extra.hostMonthlyTrafficBytes else 0) +
            extra.delta (tx + rx) } := by
  have hdelta : ∀ lastRaw : ℕ, (if lastRaw ≤ tx + rx then tx + rx - lastRaw else tx + rx) =
      increase lastRaw (tx + rx) := by
    intro lastRaw
    rw [increase]
    split_ifs <;> omega
  obtain ⟨storedCycle, last, monthly⟩ := extra
  simp only [accumulateHostTrafficCycle, delta, Int.toNat_natCast, if_neg h, hdelta]
  by_cases hcycle : storedCycle = some cycle
  · cases last with
    | none => simp [hcycle]
    | some lastRaw =>
      by_cases hpos : 0 < increase lastRaw (tx + rx)
      · simp [hcycle, hpos]
      · have hzero : increase lastRaw (tx + rx) = 0 := by omega
        have hlast : tx + rx = lastRaw := (increase_eq_zero_iff.mp hzero).resolve_right h
        rw [hlast] at hzero
        simp [hcycle, hzero, hlast]
  · cases last <;> simp [hcycle]

end HostTraffic

/-! ### The host -/

/-- A host: the bytes it really sent and received up to each time, and its last reboot before it.
    A later time is in the same boot, or the host rebooted in between. -/
structure Host where
  sent : Time → ℕ
  received : Time → ℕ
  lastBoot : Time → Time
  sent_mono : ∀ {s t}, s ≤ t → sent s ≤ sent t
  received_mono : ∀ {s t}, s ≤ t → received s ≤ received t
  lastBoot_le : ∀ t, lastBoot t ≤ t
  same_boot : ∀ {s t}, s ≤ t → lastBoot t = lastBoot s ∨ s ≤ lastBoot t

namespace Host
variable (H : Host)

/-- The byte counters the node reports: they count from the last reboot. -/
def hostTx (t : Time) : ℕ := H.sent t - H.sent (H.lastBoot t)

def hostRx (t : Time) : ℕ := H.received t - H.received (H.lastBoot t)

def rawTotal (t : Time) : ℕ := H.hostTx t + H.hostRx t

def transferred (t : Time) : ℕ := H.sent t + H.received t

theorem transferred_mono {s t : Time} (h : s ≤ t) : H.transferred s ≤ H.transferred t :=
  Nat.add_le_add (H.sent_mono h) (H.received_mono h)

theorem rawTotal_add (t : Time) :
    H.rawTotal t + H.transferred (H.lastBoot t) = H.transferred t := by
  have hs := H.sent_mono (H.lastBoot_le t)
  have hr := H.received_mono (H.lastBoot_le t)
  rw [rawTotal, hostTx, hostRx, transferred, transferred]
  omega

/-- The sample taken at `t` is not older than the one taken at `s`: it is of a later boot, or of the
    same one with a total that is no smaller. -/
def NotOlder (s t : Time) : Prop :=
  H.lastBoot s < H.lastBoot t ∨ H.lastBoot s = H.lastBoot t ∧ H.rawTotal s ≤ H.rawTotal t

instance (s t : Time) : Decidable (H.NotOlder s t) := inferInstanceAs (Decidable (_ ∨ _))

/-- Samples applied in the order they were taken are never older than the one before. -/
theorem notOlder_of_le {s t : Time} (h : s ≤ t) : H.NotOlder s t := by
  have htotal := H.transferred_mono h
  have hs := H.rawTotal_add s
  have ht := H.rawTotal_add t
  rcases H.same_boot h with hb | hb
  · rw [hb] at ht
    exact .inr ⟨hb.symm, by omega⟩
  · rcases ((H.lastBoot_le s).trans hb).lt_or_eq with hlt | heq
    · exact .inl hlt
    · rw [← heq] at ht
      exact .inr ⟨heq, by omega⟩

/-- A sample that is not older is charged at most what was transferred since. -/
theorem charge_le {s t : Time} (h : H.NotOlder s t) :
    H.transferred s + increase (H.rawTotal s) (H.rawTotal t) ≤ H.transferred t := by
  have hs := H.rawTotal_add s
  have ht := H.rawTotal_add t
  rcases h with hboot | ⟨hboot, hraw⟩
  · -- a later boot is a later time, and the host rebooted in between
    have hst : s ≤ t := by
      by_contra hlt
      rcases H.same_boot (not_le.mp hlt).le with hb | hb
      · exact absurd hb hboot.ne
      · exact absurd ((H.lastBoot_le t).trans hb) (not_le.mpr hboot)
    have hreboot : s ≤ H.lastBoot t := (H.same_boot hst).resolve_left hboot.ne'
    have hbefore := H.transferred_mono hreboot
    have hle := Lib.Meter.increase_le (H.rawTotal s) (H.rawTotal t)
    omega
  · have hadd := Lib.Meter.add_increase hraw
    rw [hboot] at hs
    omega

/-- Every other sample with traffic is charged more. -/
theorem charge_le_iff {s t : Time} (hpos : 0 < H.rawTotal t) :
    H.transferred s + increase (H.rawTotal s) (H.rawTotal t) ≤ H.transferred t ↔
      H.NotOlder s t := by
  refine ⟨fun hle => ?_, H.charge_le⟩
  by_contra hold
  obtain ⟨hboot, hraw⟩ := not_or.mp hold
  have hts : t ≤ s := le_of_not_ge fun h => hold (H.notOlder_of_le h)
  have htotal := H.transferred_mono hts
  have hzero : increase (H.rawTotal s) (H.rawTotal t) = 0 := by omega
  have heq : H.rawTotal t = H.rawTotal s :=
    (increase_eq_zero_iff.mp hzero).resolve_right hpos.ne'
  rcases H.same_boot hts with hb | hb
  · exact hraw ⟨hb, heq.ge⟩
  · have hbefore := H.transferred_mono hb
    have hs := H.rawTotal_add s
    omega

end Host

/-! ### The server row -/

/-- A sample: when a worker took it, and the month of the worker's clock. -/
structure HostSample where
  taken : Time
  cycle : Month
  deriving DecidableEq, Repr

/-- The keys of the row, with what is known of its past: the bytes each month was last stored with,
    and when the first and the last of the samples applied so far were taken. -/
structure HostRecord where
  extra : HostTraffic := {}
  months : Month → ℕ := fun _ => 0
  span : Option (Time × Time) := none

namespace HostRecord

/-- A worker applies its sample. It does not call the rule for a sample without traffic. -/
def apply (H : Host) (r : HostRecord) (s : HostSample) : HostRecord :=
  if H.hostTx s.taken = 0 ∧ H.hostRx s.taken = 0 then r
  else
    let extra :=
      (r.extra.accumulateHostTrafficCycle (H.hostTx s.taken) (H.hostRx s.taken) s.cycle).2
    { extra
      months := Function.update r.months s.cycle extra.hostMonthlyTrafficBytes
      span := some ((r.span.elim s.taken Prod.fst), s.taken) }

/-- The months add up to no more than the host transferred since the first applied sample. -/
def Within (H : Host) (now : Time) (r : HostRecord) : Prop :=
  ∀ first last, r.span = some (first, last) → ∀ months : Finset Month,
    (∑ m ∈ months, r.months m) + H.transferred first ≤ H.transferred now

/-- The sample is not older than the one applied before it. -/
def InOrder (H : Host) (r : HostRecord) (s : HostSample) : Prop :=
  ∀ first last, r.span = some (first, last) → H.NotOlder last s.taken

/-- What the rule keeps: the stored total and the month are those of the last sample. -/
structure Metered (H : Host) (r : HostRecord) : Prop where
  empty : r.span = none → r.extra = {} ∧ ∀ m, r.months m = 0
  last : ∀ first last, r.span = some (first, last) →
    r.extra.hostLastRawBytes = some (H.rawTotal last)
  month : ∀ m, r.extra.hostTrafficCycle = some m → r.months m = r.extra.hostMonthlyTrafficBytes
  within : ∀ first last, r.span = some (first, last) → r.Within H last

theorem metered_apply {H : Host} {r : HostRecord} {s : HostSample} (h : Metered H r)
    (hs : InOrder H r s) : Metered H (r.apply H s) := by
  rw [apply]
  split_ifs with hz
  · exact h
  have hraw : H.hostTx s.taken + H.hostRx s.taken ≠ 0 := by omega
  simp only [HostTraffic.accumulate_snd _ _ _ _ hraw]
  refine ⟨by simp, ?_, ?_, ?_⟩
  · rintro first last ⟨⟩
    rfl
  · rintro m ⟨⟩
    exact Function.update_self ..
  · rintro _ _ ⟨⟩ _ _ ⟨⟩ months
    cases hspan : r.span with
    | none =>
      obtain ⟨hextra, hmonths⟩ := h.empty hspan
      have hfun : r.months = fun _ => 0 := funext hmonths
      simp [hextra, hfun, HostTraffic.delta, Function.update_apply]
    | some p =>
      obtain ⟨first, last⟩ := p
      have hwithin := h.within first last hspan first last hspan months
      have hcharge := H.charge_le (hs first last hspan)
      have hle : (if r.extra.hostTrafficCycle = some s.cycle then r.extra.hostMonthlyTrafficBytes
          else 0) + r.extra.delta (H.hostTx s.taken + H.hostRx s.taken) ≤
          r.months s.cycle + increase (H.rawTotal last) (H.rawTotal s.taken) := by
        rw [HostTraffic.delta, h.last first last hspan]
        refine Nat.add_le_add ?_ le_rfl
        split_ifs with hc
        · exact (h.month _ hc).ge
        · exact Nat.zero_le _
      have hsum := Lib.Meter.sum_update_le hle months
      simp only [Option.elim_some]
      omega

/-- The last sample applied is one of the run's. -/
theorem span_last_le (H : Host) {now : Time} (samples : List HostSample)
    (hnow : ∀ s ∈ samples, s.taken ≤ now) :
    ∀ first last, (Lib.run (apply H) {} samples).span = some (first, last) → last ≤ now := by
  refine Lib.run_inv_of_forall (apply H)
    (I := fun r => ∀ first last, r.span = some (first, last) → last ≤ now)
    (fun r s h hs => ?_) samples {} (by simp) hnow
  rw [apply]
  split_ifs
  · exact h
  · rintro _ _ ⟨⟩
    exact hs

/-- The host traffic is not over-counted, whatever the months of the samples, in every run that
    applies no sample over a later one. -/
theorem host_traffic_within (H : Host) (samples : List HostSample) (now : Time)
    (hnow : ∀ s ∈ samples, s.taken ≤ now) (horder : Lib.Always (apply H) (InOrder H) {} samples) :
    Within H now (Lib.run (apply H) {} samples) := by
  have hmetered : Metered H (Lib.run (apply H) {} samples) :=
    Lib.run_inv_of_always (apply H) (fun r s => metered_apply) samples {}
      ⟨fun _ => ⟨rfl, fun _ => rfl⟩, by simp, by simp, by simp⟩ horder
  intro first last hspan months
  exact (hmetered.within first last hspan first last hspan months).trans
    (H.transferred_mono (span_last_le H samples hnow first last hspan))

/-- A host that sends ten bytes a second since its boot at 0. -/
def steadyHost : Host where
  sent t := 10 * t.toNat
  received _ := 0
  lastBoot t := min t 0
  sent_mono h := Nat.mul_le_mul_left 10 (Int.toNat_le_toNat h)
  received_mono _ := le_rfl
  lastBoot_le t := min_le_left t 0
  same_boot := by
    intro s t h
    rcases le_total 0 s with hs | hs
    · exact .inl (by rw [min_eq_right hs, min_eq_right (hs.trans h)])
    · exact .inr (le_min h hs)

theorem host_traffic_within_ordered :
    Within steadyHost 9 (Lib.run (apply steadyHost) {} [⟨5, 1⟩, ⟨6, 1⟩, ⟨9, 2⟩]) :=
  host_traffic_within steadyHost _ 9 (by decide) (by
    refine ⟨by rintro _ _ ⟨⟩, ?_, ?_, trivial⟩
    · rintro _ _ ⟨⟩
      exact Host.notOlder_of_le steadyHost (by decide)
    · rintro _ _ ⟨⟩
      exact Host.notOlder_of_le steadyHost (by decide))

/-- The other worker's sample of second 6 is applied after the sample of second 7: it is charged in
    full, 60 bytes on top of the 20 that were transferred. -/
theorem host_traffic_overcounted :
    ¬ ∀ (H : Host) (samples : List HostSample) (now : Time), (∀ s ∈ samples, s.taken ≤ now) →
      Within H now (Lib.run (apply H) {} samples) := by
  intro h
  have hrun := h steadyHost [⟨5, 1⟩, ⟨7, 1⟩, ⟨6, 1⟩] 7 (by decide) 5 6 rfl {1}
  exact absurd hrun (by decide)

end HostRecord

end Just1kBot
