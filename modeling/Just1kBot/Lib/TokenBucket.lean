import Mathlib.Algebra.Order.Field.Basic
import Mathlib.Algebra.Order.Ring.Cast
import Mathlib.Tactic.Linarith
import Mathlib.Tactic.Ring

/-! Token buckets.

    A bucket holds up to `burst` tokens and gains `rate` of them in a unit of time; a request takes
    one if there is one. What it holds and what it gains bound what can be taken: from a time on no
    more than the level and the gain, and in any interval no more than a full bucket and the gain.
    -/

namespace Lib.TokenBucket

variable {K : Type*} [Field K] [LinearOrder K]

/-- A bucket that held `level` tokens at time `time`. -/
structure Level (K : Type*) where
  level : K
  time : K

variable (burst rate : K)

/-- The level at a later time. -/
def fill (now : K) (b : Level K) : K := min burst (b.level + (now - b.time) * rate)

/-- The bucket after a request, which takes a token if there is one. -/
def take (now : K) (b : Level K) : Level K where
  level := if 1 ≤ fill burst rate now b then fill burst rate now b - 1 else fill burst rate now b
  time := now

/-- What is taken from time `s` to time `u` by requests at the given times. -/
def taken (s u : K) (b : Level K) : List K → ℕ
  | [] => 0
  | now :: times =>
    taken s u (take burst rate now b) times +
      if s ≤ now ∧ now ≤ u ∧ 1 ≤ fill burst rate now b then 1 else 0

variable {burst rate}

theorem fill_le (now : K) (b : Level K) : fill burst rate now b ≤ burst := min_le_left ..

/-- Nothing is taken in an interval that is over. -/
theorem taken_eq_zero {s u : K} (b : Level K) {now : K} {times : List K} (hover : u < now)
    (h : (now :: times).Pairwise (· ≤ ·)) : taken burst rate s u b (now :: times) = 0 := by
  induction times generalizing now b with
  | nil =>
    rw [taken, if_neg fun hin => absurd hin.2.1 (not_le.mpr hover)]
    rfl
  | cons next times ih =>
    obtain ⟨hafter, hrest⟩ := List.pairwise_cons.mp h
    have hnext : u < next := hover.trans_le (hafter next List.mem_cons_self)
    rw [taken, ih _ hnext hrest, if_neg fun hin => absurd hin.2.1 (not_le.mpr hover)]

variable [IsStrictOrderedRing K]

/-- Filling up in two steps. -/
theorem fill_fill (hr : 0 ≤ rate) {now now' : K} (h : now ≤ now') (b : Level K) :
    fill burst rate now' { level := fill burst rate now b, time := now } =
      fill burst rate now' b := by
  have hgain : 0 ≤ (now' - now) * rate := mul_nonneg (sub_nonneg.mpr h) hr
  have hsplit : b.level + (now' - b.time) * rate =
      b.level + (now - b.time) * rate + (now' - now) * rate := by ring
  simp only [fill]
  rw [hsplit]
  rcases le_total burst (b.level + (now - b.time) * rate) with hfull | hless
  · rw [min_eq_left hfull, min_eq_left (by linarith), min_eq_left (by linarith)]
  · rw [min_eq_right hless]

/-- A bucket that holds nothing negative stays so. -/
theorem fill_nonneg (hb : 0 ≤ burst) (hr : 0 ≤ rate) {now : K} {b : Level K} (h : b.time ≤ now)
    (hlevel : 0 ≤ b.level) : 0 ≤ fill burst rate now b :=
  le_min hb (add_nonneg hlevel (mul_nonneg (sub_nonneg.mpr h) hr))

theorem take_nonneg (hb : 0 ≤ burst) (hr : 0 ≤ rate) {now : K} {b : Level K} (h : b.time ≤ now)
    (hlevel : 0 ≤ b.level) : 0 ≤ (take burst rate now b).level := by
  rw [take]
  split_ifs with hone
  · exact sub_nonneg.mpr hone
  · exact fill_nonneg hb hr h hlevel

/-- From a time on no more is taken than the level and the gain. -/
theorem taken_le_level (hb : 0 ≤ burst) (hr : 0 ≤ rate) (s : K) {u : K} {b : Level K}
    {times : List K} (hlevel : 0 ≤ b.level) (hu : b.time ≤ u)
    (htimes : (b.time :: times).Pairwise (· ≤ ·)) :
    (taken burst rate s u b times : K) ≤ b.level + (u - b.time) * rate := by
  induction times generalizing b with
  | nil =>
    have hgain : 0 ≤ (u - b.time) * rate := mul_nonneg (sub_nonneg.mpr hu) hr
    rw [taken, Nat.cast_zero]
    linarith
  | cons now times ih =>
    obtain ⟨hafter, hrest⟩ := List.pairwise_cons.mp htimes
    have hnow : b.time ≤ now := hafter now List.mem_cons_self
    rcases lt_or_ge u now with hover | hin
    · -- the interval is over
      have hgain : 0 ≤ (u - b.time) * rate := mul_nonneg (sub_nonneg.mpr hu) hr
      rw [taken_eq_zero b hover hrest, Nat.cast_zero]
      linarith
    · have hfill : fill burst rate now b ≤ b.level + (now - b.time) * rate := min_le_right ..
      have hih := ih (take_nonneg hb hr hnow hlevel) hin hrest
      have hsplit : (u - b.time) * rate = (now - b.time) * rate + (u - now) * rate := by ring
      have htime : (take burst rate now b).time = now := rfl
      rw [htime] at hih
      rw [taken, hsplit]
      push_cast
      by_cases hone : 1 ≤ fill burst rate now b
      · have hlevel' : (take burst rate now b).level = fill burst rate now b - 1 := if_pos hone
        have hcount : (if s ≤ now ∧ now ≤ u ∧ 1 ≤ fill burst rate now b then (1 : K) else 0) ≤ 1 := by
          split_ifs <;> linarith
        linarith
      · have hlevel' : (take burst rate now b).level = fill burst rate now b := if_neg hone
        have hcount : ¬ (s ≤ now ∧ now ≤ u ∧ 1 ≤ fill burst rate now b) := fun h => hone h.2.2
        rw [if_neg hcount]
        linarith

/-- In any interval no more is taken than a full bucket and the gain. -/
theorem taken_le (hb : 0 ≤ burst) (hr : 0 ≤ rate) {s u : K} (hsu : s ≤ u) {b : Level K}
    {times : List K} (hlevel : 0 ≤ b.level) (htimes : (b.time :: times).Pairwise (· ≤ ·)) :
    (taken burst rate s u b times : K) ≤ burst + (u - s) * rate := by
  have hgain : 0 ≤ (u - s) * rate := mul_nonneg (sub_nonneg.mpr hsu) hr
  induction times generalizing b with
  | nil =>
    rw [taken, Nat.cast_zero]
    linarith
  | cons now times ih =>
    obtain ⟨hafter, hrest⟩ := List.pairwise_cons.mp htimes
    have hnow : b.time ≤ now := hafter now List.mem_cons_self
    rcases lt_or_ge now s with hbefore | hin
    · -- a request before the interval does not count
      have hout : ¬ (s ≤ now ∧ now ≤ u ∧ 1 ≤ fill burst rate now b) :=
        fun h => absurd h.1 (not_le.mpr hbefore)
      rw [taken, if_neg hout, Nat.add_zero]
      exact ih (take_nonneg hb hr hnow hlevel) hrest
    · rcases lt_or_ge u now with hover | hin'
      · rw [taken_eq_zero b hover hrest, Nat.cast_zero]
        linarith
      · -- the first request of the interval finds a full bucket at most
        have hsame : taken burst rate s u b (now :: times) =
            taken burst rate s u { level := fill burst rate now b, time := now }
              (now :: times) := by
          simp only [taken, take, fill_fill hr (le_refl now)]
        have hbound := taken_le_level hb hr s (b := ⟨fill burst rate now b, now⟩)
          (fill_nonneg hb hr hnow hlevel) hin'
          (List.pairwise_cons.mpr ⟨fun time htime => ?_, hrest⟩)
        · have hfill : fill burst rate now b ≤ burst := fill_le now b
          have hshort : (u - now) * rate ≤ (u - s) * rate :=
            mul_le_mul_of_nonneg_right (by linarith) hr
          rw [hsame]
          simp only at hbound
          linarith
        · rcases List.mem_cons.mp htime with rfl | htime
          · exact le_refl _
          · exact (List.pairwise_cons.mp hrest).1 time htime

end Lib.TokenBucket
