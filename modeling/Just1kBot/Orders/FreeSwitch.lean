import Just1kBot.Orders.Access
import Just1kBot.Orders.Terms

/-! What free tariff switches make of the value that is left.

    A switch that costs nothing converts the days left at one price to days at another, and rounds
    on the way: the days up, the rubles and the new days to the nearest. The days left at their
    price are a potential: waiting never adds to it, and a switch adds to it exactly when its
    conversion rounds up. -/

namespace Just1kBot
open Lib.Python (roundHalfEven roundHalfEven_le_iff)

/-- A tariff as the audit wants it: it lasts and it costs. -/
structure Tariff.Positive (t : Tariff) : Prop where
  duration : 0 < t.durationDays
  price : 0 < t.priceRub

instance (t : Tariff) : Decidable t.Positive :=
  decidable_of_iff (0 < t.durationDays ∧ 0 < t.priceRub) ⟨fun h => ⟨h.1, h.2⟩, fun h => ⟨h.1, h.2⟩⟩

/-- The access a user holds since its last switch. -/
structure Holding where
  tariff : Tariff
  subscriptionEnd : Time
  since : Time
  deriving DecidableEq, Repr

/-- A change to `target`, settled as soon as it is priced. -/
structure Switch where
  target : Tariff
  now : Time
  deriving DecidableEq, Repr

namespace Holding

/-- The remaining time at the price of the tariff. -/
def value (h : Holding) : ℚ :=
  ((max 0 (h.subscriptionEnd - h.since) : ℤ) : ℚ) / (days 1 : ℤ) * h.tariff.dailyPrice

/-- What a switch is priced at, and the days it results in. -/
def terms (h : Holding) (s : Switch) : ℕ × ℕ :=
  calculateTariffChange (some h.tariff) s.target (some h.subscriptionEnd) s.now

def switch (h : Holding) (s : Switch) : Holding where
  tariff := s.target
  subscriptionEnd := s.now + days (h.terms s).2
  since := s.now

/-- A switch to one of the tariffs, at a later time, with nothing due. -/
structure FreeSwitch (tariffs : List Tariff) (h : Holding) (s : Switch) : Prop where
  offered : s.target ∈ tariffs
  later : h.since ≤ s.now
  free : (h.terms s).1 = 0

instance (tariffs : List Tariff) (h : Holding) (s : Switch) :
    Decidable (FreeSwitch tariffs h s) :=
  decidable_of_iff (s.target ∈ tariffs ∧ h.since ≤ s.now ∧ (h.terms s).1 = 0)
    ⟨fun h => ⟨h.1, h.2.1, h.2.2⟩, fun h => ⟨h.1, h.2, h.3⟩⟩

/-- The conversion does not round up: at one rate the new day is no dearer, and otherwise the rubles
    left are nearer to the whole days they pay for than to one day more. -/
def RoundsDown (h : Holding) (s : Switch) : Prop :=
  let c := h.tariff.dailyPrice
  let t := s.target.dailyPrice
  let left := daysLeft h.subscriptionEnd s.now * c
  if |c - t| < 1 / 1000000 then t ≤ c
  else roundHalfEven left / t < ⌊left / t⌋ + 1 / 2 ∨
    roundHalfEven left / t = ⌊left / t⌋ + 1 / 2 ∧ ⌊left / t⌋ % 2 = 0

instance (h : Holding) (s : Switch) : Decidable (h.RoundsDown s) := by
  rw [RoundsDown]
  infer_instance

end Holding

/-- The price of a day of the dearest tariff. -/
def dearest (tariffs : List Tariff) : ℚ := (tariffs.map Tariff.dailyPrice).foldr max 0

theorem dailyPrice_le_dearest {tariffs : List Tariff} {t : Tariff} (h : t ∈ tariffs) :
    t.dailyPrice ≤ dearest tariffs := by
  induction tariffs with
  | nil => cases h
  | cons x rest ih =>
    rcases List.mem_cons.mp h with rfl | h
    · exact le_max_left _ _
    · exact (ih h).trans (le_max_right _ _)

theorem Tariff.Positive.dailyPrice_pos {t : Tariff} (h : t.Positive) : 0 < t.dailyPrice := by
  have hprice : (0 : ℚ) < t.priceRub := by exact_mod_cast h.price
  have hdays : (0 : ℚ) < t.durationDays := by exact_mod_cast h.duration
  rw [Tariff.dailyPrice, if_pos h.duration]
  exact div_pos hprice hdays

/-- A day costs no more than the tariff. -/
theorem Tariff.Positive.dailyPrice_le {t : Tariff} (h : t.Positive) :
    t.dailyPrice ≤ t.priceRub := by
  have hprice : (0 : ℚ) ≤ t.priceRub := Nat.cast_nonneg _
  have hdays : (1 : ℚ) ≤ t.durationDays := by exact_mod_cast h.duration
  rw [Tariff.dailyPrice, if_pos h.duration]
  exact div_le_self hprice hdays

/-! ### The days left -/

theorem days_one_pos : (0 : ℚ) < (days 1 : ℤ) := by
  have h : (0 : ℤ) < days 1 := by decide
  exact_mod_cast h

theorem daysLeft_antitone {e now now' : Time} (h : now ≤ now') :
    daysLeft e now' ≤ daysLeft e now := by
  refine max_le_max (le_refl 0) (Int.ceil_mono ?_)
  refine div_le_div_of_nonneg_right ?_ days_one_pos.le
  have : e - now' ≤ e - now := Int.sub_le_sub_left h e
  exact_mod_cast this

theorem daysLeft_add_days (now : Time) (n : ℕ) : daysLeft (now + days n) now = n := by
  have hmul : (now + days n - now : ℤ) = n * days 1 := by
    simp only [days, seconds]
    ring
  rw [daysLeft, hmul, Int.cast_mul, mul_div_cancel_right₀ _ days_one_pos.ne', Int.ceil_intCast]
  exact max_eq_right (Int.natCast_nonneg n)

/-- The days left are the remaining time, with less than a day added. -/
theorem daysLeft_bounds (e now : Time) :
    ((max 0 (e - now) : ℤ) : ℚ) / (days 1 : ℤ) ≤ daysLeft e now ∧
      (daysLeft e now : ℚ) ≤ ((max 0 (e - now) : ℤ) : ℚ) / (days 1 : ℤ) + 1 := by
  rcases le_total (e - now) 0 with h | h
  · have hneg : ((e - now : ℤ) : ℚ) / (days 1 : ℤ) ≤ 0 :=
      div_nonpos_of_nonpos_of_nonneg (by exact_mod_cast h) days_one_pos.le
    have hzero : daysLeft e now = 0 := max_eq_left (Int.ceil_le.mpr (by simpa using hneg))
    rw [hzero, max_eq_left h]
    simp
  · have hpos : 0 ≤ ((e - now : ℤ) : ℚ) / (days 1 : ℤ) :=
      div_nonneg (by exact_mod_cast h) days_one_pos.le
    have hceil : daysLeft e now = ⌈((e - now : ℤ) : ℚ) / (days 1 : ℤ)⌉ :=
      max_eq_right (Int.ceil_nonneg hpos)
    rw [hceil, max_eq_right h]
    exact ⟨Int.le_ceil _, (Int.ceil_lt_add_one _).le⟩

/-! ### One switch -/

/-- A change with nothing due is a conversion: the time has not run out, and what is left of it pays
    for the target. -/
theorem calculateTariffChange_free {current target : Tariff} {e now : Time}
    (hprice : 0 < target.priceRub)
    (h : (calculateTariffChange (some current) target (some e) now).1 = 0) :
    0 < daysLeft e now ∧ (target.priceRub : ℤ) ≤ remainingRub current e now ∧
      (calculateTariffChange (some current) target (some e) now).2 =
        convertedDays current target e now := by
  simp only [calculateTariffChange] at h ⊢
  split_ifs at h ⊢ with hfull hpays
  · exact absurd h hprice.ne'
  · simp only [not_or, not_le] at hfull
    exact ⟨hfull.2.1, hpays, rfl⟩
  · simp only at h
    omega

namespace Holding
variable {h : Holding} {s : Switch} {tariffs : List Tariff}

/-- The days left at their price. -/
def potential (h : Holding) : ℚ := daysLeft h.subscriptionEnd h.since * h.tariff.dailyPrice

/-- The potential is the value, with less than a day of the tariff added. -/
theorem potential_bounds (hpos : h.tariff.Positive) :
    h.value ≤ h.potential ∧ h.potential ≤ h.value + h.tariff.dailyPrice := by
  obtain ⟨hle, hlt⟩ := daysLeft_bounds h.subscriptionEnd h.since
  have hprice := hpos.dailyPrice_pos.le
  refine ⟨mul_le_mul_of_nonneg_right hle hprice, ?_⟩
  calc h.potential
      ≤ (((max 0 (h.subscriptionEnd - h.since) : ℤ) : ℚ) / (days 1 : ℤ) + 1) *
          h.tariff.dailyPrice := mul_le_mul_of_nonneg_right hlt hprice
    _ = h.value + h.tariff.dailyPrice := by rw [value, add_mul, one_mul]

theorem potential_switch (h : Holding) (s : Switch) :
    (h.switch s).potential = (h.terms s).2 * s.target.dailyPrice := by
  rw [potential, switch, daysLeft_add_days, Int.cast_natCast]

/-- A free switch gives no more than the days left are worth exactly when it rounds down. -/
theorem converted_le_iff (hs : s.target.Positive) (hfree : (h.terms s).1 = 0) :
    (h.terms s).2 * s.target.dailyPrice ≤
        daysLeft h.subscriptionEnd s.now * h.tariff.dailyPrice ↔ h.RoundsDown s := by
  obtain ⟨hleft, hpays, hdays⟩ := calculateTariffChange_free hs.price hfree
  have ht := hs.dailyPrice_pos
  rw [terms, hdays, convertedDays, RoundsDown]
  split_ifs with hrate
  · have hcast : (((daysLeft h.subscriptionEnd s.now).toNat : ℕ) : ℚ) =
        daysLeft h.subscriptionEnd s.now := by
      have : ((daysLeft h.subscriptionEnd s.now).toNat : ℤ) = daysLeft h.subscriptionEnd s.now :=
        Int.toNat_of_nonneg hleft.le
      exact_mod_cast this
    rw [hcast]
    exact mul_le_mul_iff_right₀ (by exact_mod_cast hleft)
  · set left := daysLeft h.subscriptionEnd s.now * h.tariff.dailyPrice with hl
    set rub := remainingRub h.tariff h.subscriptionEnd s.now with hrub
    -- what pays for the target pays for one of its days
    have hone : 1 ≤ roundHalfEven (rub / s.target.dailyPrice) := by
      have hday : 1 ≤ (rub : ℚ) / s.target.dailyPrice := by
        rw [le_div_iff₀ ht, one_mul]
        exact hs.dailyPrice_le.trans (by exact_mod_cast hpays)
      by_contra hlt
      have hzero : roundHalfEven (rub / s.target.dailyPrice) ≤ (0 : ℤ) := by omega
      rw [roundHalfEven_le_iff] at hzero
      simp only [Int.cast_zero] at hzero
      rcases hzero with h | ⟨h, -⟩ <;> linarith
    have hcast : (((max 1 (roundHalfEven (rub / s.target.dailyPrice))).toNat : ℕ) : ℚ) =
        roundHalfEven (rub / s.target.dailyPrice) := by
      have : ((max 1 (roundHalfEven (rub / s.target.dailyPrice))).toNat : ℤ) =
        roundHalfEven (rub / s.target.dailyPrice) := by omega
      exact_mod_cast this
    rw [hcast, ← le_div_iff₀ ht, ← Int.le_floor, roundHalfEven_le_iff]
    rfl

/-- A free switch that rounds down leaves the potential where it was, or lower. -/
theorem potential_switch_le (hpos : h.tariff.Positive) (hs : s.target.Positive)
    (hlater : h.since ≤ s.now) (hfree : (h.terms s).1 = 0) (hround : h.RoundsDown s) :
    (h.switch s).potential ≤ h.potential := by
  have hwait : (daysLeft h.subscriptionEnd s.now : ℚ) ≤ daysLeft h.subscriptionEnd h.since := by
    exact_mod_cast daysLeft_antitone hlater
  calc (h.switch s).potential
      = (h.terms s).2 * s.target.dailyPrice := potential_switch h s
    _ ≤ daysLeft h.subscriptionEnd s.now * h.tariff.dailyPrice :=
        (converted_le_iff hs hfree).mpr hround
    _ ≤ h.potential := mul_le_mul_of_nonneg_right hwait hpos.dailyPrice_pos.le

/-- Fulfilling the change an order was priced for leaves its user with what the switch does. -/
theorem grantStandard_switch {user : User} {o : Order}
    (hend : user.subscriptionEnd = some h.subscriptionEnd)
    (hdays : o.durationDays =
      (calculateTariffChange (some h.tariff) s.target user.subscriptionEnd s.now).2)
    (hgives : o.durationDays ≠ 0) (hchange : o.metadata.isTariffChange = true)
    (htariff : o.tariffId = some s.target.id) (hid : s.target.id ≠ 0) :
    (grantStandard s.now o user).subscriptionEnd = some (h.switch s).subscriptionEnd ∧
      (grantStandard s.now o user).currentTariffId = some (h.switch s).tariff.id := by
  constructor
  · have hlen : (o.grant s.now).length ≠ 0 := mt days_eq_zero_iff.mp hgives
    rw [grantStandard_subscriptionEnd, Lib.Lease.Grant.apply_of_restarts hlen hchange]
    simp only [Order.grant, switch, terms, hdays, hend]
  · simp [grantStandard, htariff, hid, switch]

end Holding

/-! ### A sequence of switches -/

/-- Free switches that round down leave a value that exceeds the one at the start by no more than a
    day of the tariff held there. -/
theorem switching_creates_no_value (tariffs : List Tariff) (hpos : ∀ t ∈ tariffs, t.Positive)
    (h : Holding) (hh : h.tariff ∈ tariffs) (ss : List Switch)
    (hfree : Lib.Always Holding.switch
      (fun h s => h.FreeSwitch tariffs s ∧ h.RoundsDown s) h ss) :
    (Lib.run Holding.switch h ss).value ≤ h.value + dearest tariffs := by
  have hrun : (Lib.run Holding.switch h ss).tariff ∈ tariffs ∧
      (Lib.run Holding.switch h ss).potential ≤ h.potential := by
    refine Lib.run_inv_of_always Holding.switch
      (I := fun h' => h'.tariff ∈ tariffs ∧ h'.potential ≤ h.potential) ?_ ss h
      ⟨hh, le_refl _⟩ hfree
    rintro h' s ⟨hmem, hle⟩ ⟨hs, hround⟩
    exact ⟨hs.offered, (Holding.potential_switch_le (hpos _ hmem) (hpos _ hs.offered) hs.later
      hs.free hround).trans hle⟩
  calc (Lib.run Holding.switch h ss).value
      ≤ (Lib.run Holding.switch h ss).potential := (Holding.potential_bounds (hpos _ hrun.1)).1
    _ ≤ h.potential := hrun.2
    _ ≤ h.value + h.tariff.dailyPrice := (Holding.potential_bounds (hpos _ hh)).2
    _ ≤ h.value + dearest tariffs := add_le_add_right (dailyPrice_le_dearest hh) _

/-- `DEFAULT_TARIFFS_SEEDS`. -/
def defaultTariffsSeeds : List Tariff :=
  [⟨1, "Базовый", 7, 2, 35⟩, ⟨2, "Базовый", 30, 2, 90⟩, ⟨3, "Базовый", 90, 2, 240⟩,
    ⟨4, "Семейный", 30, 5, 180⟩, ⟨5, "Семейный", 90, 5, 480⟩, ⟨6, "Pro", 30, 10, 320⟩,
    ⟨7, "Pro", 90, 10, 850⟩]

/-- 96 rubles for nine days are 32 days at 3 rubles. -/
theorem switching_creates_no_value_exact :
    (Lib.run Holding.switch ⟨⟨6, "Pro", 30, 10, 320⟩, days 9, 0⟩
      [⟨⟨2, "Базовый", 30, 2, 90⟩, 0⟩]).value ≤
    Holding.value ⟨⟨6, "Pro", 30, 10, 320⟩, days 9, 0⟩ +
      dearest defaultTariffsSeeds :=
  switching_creates_no_value defaultTariffsSeeds (by decide) _ (by decide) _ (by decide +kernel)

/-- 159 days at 480 rubles for 90 are worth 848 rubles; three switches at once, over 80 days at 320
    for 30 and 171 at 35 for 7, make 91 days at 850 for 90 of them, worth 859. -/
theorem switches_gain_value :
    ¬ ∀ (tariffs : List Tariff), (∀ t ∈ tariffs, t.Positive) → ∀ h : Holding,
      h.tariff ∈ tariffs → ∀ ss : List Switch,
        Lib.Always Holding.switch (Holding.FreeSwitch tariffs) h ss →
          (Lib.run Holding.switch h ss).value ≤ h.value + dearest tariffs := by
  intro hall
  have h := hall defaultTariffsSeeds (by decide)
    ⟨⟨5, "Семейный", 90, 5, 480⟩, days 159, 0⟩ (by decide)
    [⟨⟨6, "Pro", 30, 10, 320⟩, 0⟩,
      ⟨⟨1, "Базовый", 7, 2, 35⟩, 0⟩,
      ⟨⟨7, "Pro", 90, 10, 850⟩, 0⟩] (by decide +kernel)
  exact absurd h (by decide +kernel)

end Just1kBot
