import Just1kBot.Orders.FreeSwitch

/-! The price of a tariff change: `calculate_tariff_change` of `services/order_service.py`.

    A later end of the subscription never costs more, and at the same price never gives fewer days.
    The payment and the value that is left cover the days it results in, up to a day of each tariff
    and what is lost in rounding to whole rubles. -/

namespace Just1kBot
open Lib.Python (roundHalfEven roundHalfEven_mono abs_roundHalfEven_sub_le)

variable {current target : Tariff} {e e₁ e₂ now : Time}

theorem daysLeft_mono (h : e₁ ≤ e₂) : daysLeft e₁ now ≤ daysLeft e₂ now := by
  refine max_le_max (le_refl 0) (Int.ceil_mono ?_)
  refine div_le_div_of_nonneg_right ?_ days_one_pos.le
  have : e₁ - now ≤ e₂ - now := Int.sub_le_sub_right h now
  exact_mod_cast this

theorem daysLeft_pos (h : now < e) : 0 < daysLeft e now := by
  have hleft : (0 : ℚ) < ((e - now : ℤ) : ℚ) := by exact_mod_cast Int.sub_pos_of_lt h
  exact lt_max_of_lt_right (Int.ceil_pos.mpr (div_pos hleft days_one_pos))

theorem remainingRub_mono (hc : current.Positive) (h : e₁ ≤ e₂) :
    remainingRub current e₁ now ≤ remainingRub current e₂ now := by
  refine roundHalfEven_mono (mul_le_mul_of_nonneg_right ?_ hc.dailyPrice_pos.le)
  exact_mod_cast daysLeft_mono h

theorem convertedDays_mono (hc : current.Positive) (ht : target.Positive) (h : e₁ ≤ e₂) :
    convertedDays current target e₁ now ≤ convertedDays current target e₂ now := by
  rw [convertedDays, convertedDays]
  split_ifs
  · exact Int.toNat_le_toNat (daysLeft_mono h)
  · have hrub : (remainingRub current e₁ now : ℚ) ≤ remainingRub current e₂ now := by
      exact_mod_cast remainingRub_mono hc h
    exact Int.toNat_le_toNat (max_le_max (le_refl 1)
      (roundHalfEven_mono (div_le_div_of_nonneg_right hrub ht.dailyPrice_pos.le)))

/-- While the subscription runs, what is left of it pays for the target or is taken off its
    price. -/
theorem calculateTariffChange_running (hc : current.Positive) (ht : target.Positive)
    (h : now < e) :
    calculateTariffChange (some current) target (some e) now =
      if (target.priceRub : ℤ) ≤ remainingRub current e now then
        (0, convertedDays current target e now)
      else ((target.priceRub - remainingRub current e now).toNat, target.durationDays) := by
  have hrun : ¬ (e ≤ now ∨ daysLeft e now ≤ 0 ∨ current.priceRub = 0 ∨ target.priceRub = 0) := by
    have hdays := daysLeft_pos h
    have hcurrent := hc.price
    have htarget := ht.price
    simp only [not_or, not_le]
    exact ⟨h, hdays, hcurrent.ne', htarget.ne'⟩
  simp only [calculateTariffChange]
  rw [if_neg hrun]
  split_ifs with hpays
  · rfl
  · rw [max_eq_right (by omega)]

theorem remainingRub_nonneg (hc : current.Positive) : 0 ≤ remainingRub current e now := by
  have hleft : (0 : ℚ) ≤ daysLeft e now * current.dailyPrice :=
    mul_nonneg (by exact_mod_cast le_max_left 0 _) hc.dailyPrice_pos.le
  have hzero : roundHalfEven 0 = 0 := by decide +kernel
  exact hzero.ge.trans (roundHalfEven_mono hleft)

/-! ### Fairness -/

/-- A later end costs no more. -/
theorem due_antitone (hc : current.Positive) (ht : target.Positive) (h₁ : now < e₁)
    (h : e₁ ≤ e₂) :
    (calculateTariffChange (some current) target (some e₂) now).1 ≤
      (calculateTariffChange (some current) target (some e₁) now).1 := by
  have hrub : remainingRub current e₁ now ≤ remainingRub current e₂ now := remainingRub_mono hc h
  rw [calculateTariffChange_running hc ht h₁,
    calculateTariffChange_running hc ht (lt_of_lt_of_le h₁ h)]
  split_ifs with hpays₂ hpays₁
  · exact le_refl 0
  · exact Nat.zero_le _
  · omega
  · exact Int.toNat_le_toNat (by omega)

/-- At the same price a later end gives no fewer days. -/
theorem days_mono_of_due_eq (hc : current.Positive) (ht : target.Positive) (h₁ : now < e₁)
    (h : e₁ ≤ e₂)
    (hdue : (calculateTariffChange (some current) target (some e₁) now).1 =
      (calculateTariffChange (some current) target (some e₂) now).1) :
    (calculateTariffChange (some current) target (some e₁) now).2 ≤
      (calculateTariffChange (some current) target (some e₂) now).2 := by
  have hrub : remainingRub current e₁ now ≤ remainingRub current e₂ now := remainingRub_mono hc h
  rw [calculateTariffChange_running hc ht h₁,
    calculateTariffChange_running hc ht (lt_of_lt_of_le h₁ h)] at hdue ⊢
  by_cases hpays₁ : (target.priceRub : ℤ) ≤ remainingRub current e₁ now
  · rw [if_pos hpays₁, if_pos (hpays₁.trans hrub)]
    exact convertedDays_mono hc ht h
  · rw [if_neg hpays₁] at hdue ⊢
    by_cases hpays₂ : (target.priceRub : ℤ) ≤ remainingRub current e₂ now
    · -- a change that is paid for is not the price of a free one
      rw [if_pos hpays₂] at hdue
      have : (target.priceRub - remainingRub current e₁ now).toNat = 0 := hdue
      omega
    · rw [if_neg hpays₂]

theorem due_le_price (hc : current.Positive) (ht : target.Positive) (h : now < e) :
    (calculateTariffChange (some current) target (some e) now).1 ≤ target.priceRub := by
  have hrub : 0 ≤ remainingRub current e now := remainingRub_nonneg hc
  rw [calculateTariffChange_running hc ht h]
  split_ifs
  · exact Nat.zero_le _
  · simp only
    omega

/-- What rounding may give away: half a ruble, or, where the days are taken over because the daily
    prices are all but equal, their difference for each day. -/
def roundingLoss (current target : Tariff) (e now : Time) : ℚ :=
  1 / 2 + if |current.dailyPrice - target.dailyPrice| < 1 / 1000000 then
    daysLeft e now * |current.dailyPrice - target.dailyPrice| else 0

theorem half_le_roundingLoss (current target : Tariff) (e now : Time) :
    1 / 2 ≤ roundingLoss current target e now := by
  rw [roundingLoss]
  have hnonneg : (0 : ℚ) ≤ daysLeft e now * |current.dailyPrice - target.dailyPrice| :=
    mul_nonneg (by exact_mod_cast le_max_left 0 _) (abs_nonneg _)
  split_ifs <;> linarith

/-- The days left at their price are worth less than the time left and one day. -/
theorem left_le_value (hc : current.Positive) (e now : Time) :
    daysLeft e now * current.dailyPrice ≤
      (Holding.mk current e now).value + current.dailyPrice :=
  (Holding.potential_bounds (h := Holding.mk current e now) hc).2

theorem remainingRub_le (hc : current.Positive) (e now : Time) :
    (remainingRub current e now : ℚ) ≤
      (Holding.mk current e now).value + current.dailyPrice + 1 / 2 := by
  have hround := (abs_le.mp (abs_roundHalfEven_sub_le (daysLeft e now * current.dailyPrice))).2
  have hvalue := left_le_value hc e now
  rw [remainingRub]
  linarith

/-- The days of a free change are worth no more than the value that is left. -/
theorem convertedDays_le (hc : current.Positive) (ht : target.Positive)
    (hpays : (target.priceRub : ℤ) ≤ remainingRub current e now) :
    convertedDays current target e now * target.dailyPrice ≤
      (Holding.mk current e now).value + current.dailyPrice + target.dailyPrice +
        roundingLoss current target e now := by
  have htpos := ht.dailyPrice_pos
  rw [convertedDays]
  split_ifs with hrate
  · -- the days are taken over
    have hcast : (((daysLeft e now).toNat : ℕ) : ℚ) = daysLeft e now := by
      exact_mod_cast Int.toNat_of_nonneg (le_max_left 0 _)
    have hnonneg : (0 : ℚ) ≤ daysLeft e now := by exact_mod_cast le_max_left 0 _
    have hdiff : target.dailyPrice ≤
        current.dailyPrice + |current.dailyPrice - target.dailyPrice| := by
      have := neg_abs_le (current.dailyPrice - target.dailyPrice)
      linarith
    have hvalue := left_le_value hc e now
    rw [hcast, roundingLoss, if_pos hrate]
    calc (daysLeft e now : ℚ) * target.dailyPrice
        ≤ daysLeft e now * (current.dailyPrice + |current.dailyPrice - target.dailyPrice|) :=
          mul_le_mul_of_nonneg_left hdiff hnonneg
      _ = daysLeft e now * current.dailyPrice +
            daysLeft e now * |current.dailyPrice - target.dailyPrice| := mul_add ..
      _ ≤ _ := by linarith
  · set rub : ℤ := remainingRub current e now with hrub
    have hday : 1 ≤ (rub : ℚ) / target.dailyPrice := by
      rw [le_div_iff₀ htpos, one_mul]
      exact ht.dailyPrice_le.trans (by exact_mod_cast hpays)
    have hone : 1 ≤ roundHalfEven (rub / target.dailyPrice) := by
      have hround : roundHalfEven 1 = 1 := by decide +kernel
      exact hround.ge.trans (roundHalfEven_mono hday)
    have hcast : (((max 1 (roundHalfEven (rub / target.dailyPrice))).toNat : ℕ) : ℚ) =
        roundHalfEven (rub / target.dailyPrice) := by
      rw [max_eq_right hone]
      exact_mod_cast Int.toNat_of_nonneg (zero_le_one.trans hone)
    have hround := (abs_le.mp (abs_roundHalfEven_sub_le (rub / target.dailyPrice))).2
    have hvalue := remainingRub_le hc e now
    have hloss := half_le_roundingLoss current target e now
    rw [hcast]
    calc (roundHalfEven (rub / target.dailyPrice) : ℚ) * target.dailyPrice
        ≤ (rub / target.dailyPrice + 1 / 2) * target.dailyPrice :=
          mul_le_mul_of_nonneg_right (by linarith) htpos.le
      _ = rub + target.dailyPrice / 2 := by
          rw [add_mul, div_mul_cancel₀ _ htpos.ne']
          ring
      _ ≤ _ := by linarith

/-- The payment and the value left cover the days the change results in. -/
theorem value_covered (hc : current.Positive) (ht : target.Positive) (h : now < e) :
    ((calculateTariffChange (some current) target (some e) now).2 : ℚ) * target.dailyPrice ≤
      (calculateTariffChange (some current) target (some e) now).1 +
        (Holding.mk current e now).value + current.dailyPrice + target.dailyPrice +
        roundingLoss current target e now := by
  rw [calculateTariffChange_running hc ht h]
  split_ifs with hpays
  · have hconverted := convertedDays_le hc ht hpays
    simp only [Nat.cast_zero]
    linarith
  · have hprice : (target.durationDays : ℚ) * target.dailyPrice = target.priceRub := by
      have hdays : (target.durationDays : ℚ) ≠ 0 := by exact_mod_cast ht.duration.ne'
      rw [Tariff.dailyPrice, if_pos ht.duration]
      exact mul_div_cancel₀ _ hdays
    have hdue : (((target.priceRub - remainingRub current e now).toNat : ℕ) : ℚ) =
        target.priceRub - remainingRub current e now := by
      have : ((target.priceRub - remainingRub current e now : ℤ).toNat : ℤ) =
          target.priceRub - remainingRub current e now := Int.toNat_of_nonneg (by omega)
      exact_mod_cast this
    have hvalue := remainingRub_le hc e now
    have hloss := half_le_roundingLoss current target e now
    have htpos := ht.dailyPrice_pos
    simp only
    rw [hprice, hdue]
    linarith

end Just1kBot
