import Just1kBot.Lib.Dict
import Just1kBot.Lib.TokenBucket
import Just1kBot.Lib.Transition
import Mathlib.Data.List.Nodup
import Mathlib.Data.Rat.Floor
import Mathlib.Tactic.Linarith

/-! The token buckets of `utils/http_rate_limiter.py`, in exact arithmetic.

    The buckets stand in the order of their last use. A call of a new key on a full table first
    forgets, at most every 30 seconds, the buckets that are full again and were idle for two
    minutes, and then, if that made no room, the least recently used bucket. -/

namespace Just1kBot

structure Bucket where
  tokens : ℚ
  lastRefill : ℚ
  deriving DecidableEq

/-- The settings of an `HttpRateLimiter`, the rate in tokens per second. `cleans` is false for a
    limiter that never cleans up. -/
structure HttpRateLimiter where
  rate : ℚ
  burst : ℚ
  maxEntries : ℕ
  cleans : Bool := true
  rate_pos : 0 < rate
  one_le_burst : 1 ≤ burst
  one_le_maxEntries : 1 ≤ maxEntries

/-- The buckets of a limiter, the least recently used one first. -/
structure RateTable (κ : Type) where
  buckets : List (κ × Bucket) := []
  lastCleanup : ℚ := 0

namespace HttpRateLimiter
variable {κ : Type} [DecidableEq κ] (l : HttpRateLimiter)

/-- The tokens of a bucket, refilled up to now. -/
def refilled (now : ℚ) (b : Bucket) : ℚ :=
  min l.burst (b.tokens + max 0 (now - b.lastRefill) * l.rate)

/-- The bucket is full again and was idle for more than two minutes. -/
def Stale (now : ℚ) (b : Bucket) : Prop := l.burst ≤ l.refilled now b ∧ 120 < now - b.lastRefill

instance (now : ℚ) : DecidablePred (l.Stale now) := fun b =>
  inferInstanceAs (Decidable (l.burst ≤ l.refilled now b ∧ 120 < now - b.lastRefill))

/-- `_cleanup`. -/
def cleanup (now : ℚ) (t : RateTable κ) : RateTable κ :=
  { buckets := t.buckets.filter fun p => ¬ l.Stale now p.2, lastCleanup := now }

/-- The key is new, and the table is full. -/
def Full (key : κ) (t : RateTable κ) : Prop :=
  key ∉ t.buckets.map Prod.fst ∧ l.maxEntries ≤ t.buckets.length

instance (key : κ) (t : RateTable κ) : Decidable (l.Full key t) :=
  inferInstanceAs (Decidable (_ ∧ _))

/-- The table after the throttled clean-up. -/
def cleaned (key : κ) (now : ℚ) (t : RateTable κ) : RateTable κ :=
  if l.Full key t ∧ l.cleans ∧ 30 ≤ now - t.lastCleanup then l.cleanup now t else t

/-- The key that is evicted for capacity. -/
def evicted (key : κ) (now : ℚ) (t : RateTable κ) : Option κ :=
  if l.Full key (l.cleaned key now t) then
    (l.cleaned key now t).buckets.head?.map Prod.fst
  else none

/-- The table once there is room for the key. -/
def withRoom (key : κ) (now : ℚ) (t : RateTable κ) : RateTable κ :=
  if l.Full key (l.cleaned key now t) then
    { l.cleaned key now t with buckets := (l.cleaned key now t).buckets.tail }
  else l.cleaned key now t

/-- The tokens a call of the key finds: a new key has a full bucket. -/
def available (key : κ) (now : ℚ) (t : RateTable κ) : ℚ :=
  match Lib.Dict.get key t.buckets with
  | some b => l.refilled now b
  | none => l.burst

/-- The bucket is stored, as the most recently used one. -/
def store (key : κ) (b : Bucket) (t : RateTable κ) : RateTable κ :=
  { t with buckets := (t.buckets.filter fun p => p.1 ≠ key) ++ [(key, b)] }

/-- `wait_seconds`. -/
def waitSeconds (tokens : ℚ) : ℤ := max 1 ⌈(1 - tokens) / l.rate⌉

/-- `check`: whether the call is allowed, and in how many seconds to come back. -/
def check (key : κ) (now : ℚ) (t : RateTable κ) : (Bool × ℤ) × RateTable κ :=
  let t := l.withRoom key now t
  let tokens := l.available key now t
  if 1 ≤ tokens then
    ((true, 0), store key { tokens := tokens - 1, lastRefill := now } t)
  else ((false, l.waitSeconds tokens), store key { tokens := tokens, lastRefill := now } t)

/-! ### Runs -/

def step (t : RateTable κ) (c : κ × ℚ) : RateTable κ := (l.check c.1 c.2 t).2

/-- The answers to a list of calls. -/
def answers (t : RateTable κ) : List (κ × ℚ) → List (Bool × ℤ)
  | [] => []
  | c :: cs => (l.check c.1 c.2 t).1 :: answers (l.step t c) cs

/-- The times of the key's calls, with the answers to them. -/
def keyAnswers (key : κ) (t : RateTable κ) (calls : List (κ × ℚ)) : List (ℚ × Bool × ℤ) :=
  ((calls.zip (l.answers t calls)).filter fun p => p.1.1 = key).map fun p => (p.1.2, p.2)

/-- How many calls of the key are allowed from time `s` to time `u`. -/
def allowedCalls (key : κ) (s u : ℚ) (t : RateTable κ) (calls : List (κ × ℚ)) : ℕ :=
  (l.keyAnswers key t calls).countP fun a => s ≤ a.1 ∧ a.1 ≤ u ∧ a.2.1 = true

/-- The call does not evict the key. -/
def Spares (key : κ) (t : RateTable κ) (c : κ × ℚ) : Prop := l.evicted c.1 c.2 t ≠ some key

instance (key : κ) (t : RateTable κ) (c : κ × ℚ) : Decidable (l.Spares key t c) :=
  inferInstanceAs (Decidable (_ ≠ _))

/-- No call is earlier than the one before it. -/
def Timely (calls : List (κ × ℚ)) : Prop := (calls.map Prod.snd).Pairwise (· ≤ ·)

instance (calls : List (κ × ℚ)) : Decidable (Timely calls) :=
  inferInstanceAs (Decidable (List.Pairwise _ _))

/-- The same limiter without the clean-up. -/
def lazy (l : HttpRateLimiter) : HttpRateLimiter := { l with cleans := false }

/-- What holds of the table at a time: every key has one bucket, the order is that of the last
    refill, no bucket overflows, and no more keys are kept than allowed. -/
structure Sound (now : ℚ) (t : RateTable κ) : Prop where
  nodup : (t.buckets.map Prod.fst).Nodup
  order : t.buckets.Pairwise fun p q => p.2.lastRefill ≤ q.2.lastRefill
  past : ∀ p ∈ t.buckets, p.2.lastRefill ≤ now
  tokens : ∀ p ∈ t.buckets, 0 ≤ p.2.tokens ∧ p.2.tokens ≤ l.burst
  room : t.buckets.length ≤ l.maxEntries

variable {l} {key k : κ} {now now' : ℚ} {t : RateTable κ}

/-! ### What a call finds -/

open Lib.TokenBucket (Level fill take taken fill_fill fill_le)

theorem refilled_eq_fill {b : Bucket} (h : b.lastRefill ≤ now) :
    l.refilled now b = fill l.burst l.rate now { level := b.tokens, time := b.lastRefill } := by
  rw [refilled, fill, max_eq_right (sub_nonneg.mpr h)]

theorem available_le (key : κ) (now : ℚ) (t : RateTable κ) :
    l.available key now t ≤ l.burst := by
  rw [available]
  split
  · exact min_le_left ..
  · exact le_refl _

/-- The clean-up forgets full buckets only. -/
theorem available_cleaned (hnodup : (t.buckets.map Prod.fst).Nodup) :
    l.available k now (l.cleaned key now t) = l.available k now t := by
  rw [cleaned]
  split_ifs
  · have hget : Lib.Dict.get k (l.cleanup now t).buckets =
        (Lib.Dict.get k t.buckets).filter fun b => ¬ l.Stale now b :=
      Lib.Dict.get_filter (q := fun b => decide (¬ l.Stale now b)) hnodup
    rw [available, available, hget]
    cases Lib.Dict.get k t.buckets with
    | none => rfl
    | some b =>
      by_cases hstale : l.Stale now b
      · have hfull : l.refilled now b = l.burst := le_antisymm (min_le_left ..) hstale.1
        simp [Option.filter, hstale, hfull]
      · simp [Option.filter, hstale]
  · rfl

theorem evicted_ne_self (key : κ) (now : ℚ) (t : RateTable κ) :
    l.evicted key now t ≠ some key := by
  rw [evicted]
  split_ifs with hfull
  · intro hhead
    obtain ⟨p, hp, hkey⟩ := Option.map_eq_some_iff.mp hhead
    have hmem : p.1 ∈ (l.cleaned key now t).buckets.map Prod.fst :=
      List.mem_map_of_mem (List.mem_of_mem_head? (Option.mem_def.mpr hp))
    rw [hkey] at hmem
    exact hfull.1 hmem
  · intro h
    cases h

/-- Making room for a key leaves the bucket of one that is not evicted. -/
theorem available_withRoom (hnodup : (t.buckets.map Prod.fst).Nodup)
    (h : l.evicted key now t ≠ some k) :
    l.available k now (l.withRoom key now t) = l.available k now t := by
  have hcleaned : l.available k now (l.cleaned key now t) = l.available k now t :=
    available_cleaned hnodup
  rw [← hcleaned, withRoom]
  rw [evicted] at h
  split_ifs at h ⊢
  · simp only [available]
    rw [Lib.Dict.get_tail h]
  · rfl

/-! ### What a call answers and leaves -/

/-- The answer to a call that finds this many tokens. -/
def answer (l : HttpRateLimiter) (tokens : ℚ) : Bool × ℤ :=
  if 1 ≤ tokens then (true, 0) else (false, l.waitSeconds tokens)

/-- The bucket after a call that finds this many tokens. -/
def spent (now tokens : ℚ) : Bucket where
  tokens := if 1 ≤ tokens then tokens - 1 else tokens
  lastRefill := now

theorem check_eq (hnodup : (t.buckets.map Prod.fst).Nodup) :
    l.check key now t = (l.answer (l.available key now t),
      store key (spent now (l.available key now t)) (l.withRoom key now t)) := by
  rw [check, available_withRoom hnodup (evicted_ne_self key now t), answer, spent]
  split_ifs <;> rfl

theorem step_eq {c : κ × ℚ} (hnodup : (t.buckets.map Prod.fst).Nodup) :
    l.step t c = store c.1 (spent c.2 (l.available c.1 c.2 t)) (l.withRoom c.1 c.2 t) := by
  rw [step, check_eq hnodup]

theorem available_store_self {b : Bucket} (h : b.lastRefill ≤ now) :
    l.available key now (store key b t) =
      fill l.burst l.rate now { level := b.tokens, time := b.lastRefill } := by
  have hget : Lib.Dict.get key (store key b t).buckets = some b := Lib.Dict.get_filter_append_self
  rw [available, hget, ← refilled_eq_fill h]

theorem available_store_of_ne {b : Bucket} (h : k ≠ key) :
    l.available k now (store key b t) = l.available k now t := by
  have hget : Lib.Dict.get k (store key b t).buckets = Lib.Dict.get k t.buckets :=
    Lib.Dict.get_filter_append_of_ne h
  rw [available, available, hget]

/-! ### What a call keeps -/

theorem cleaned_sublist (key : κ) (now : ℚ) (t : RateTable κ) :
    (l.cleaned key now t).buckets.Sublist t.buckets := by
  rw [cleaned]
  split_ifs
  · exact List.filter_sublist
  · exact List.Sublist.refl _

theorem withRoom_sublist (key : κ) (now : ℚ) (t : RateTable κ) :
    (l.withRoom key now t).buckets.Sublist t.buckets := by
  rw [withRoom]
  split_ifs
  · exact (List.tail_sublist _).trans (cleaned_sublist key now t)
  · exact cleaned_sublist key now t

/-- There is room for a new key. -/
theorem length_withRoom_lt (hroom : t.buckets.length ≤ l.maxEntries)
    (hkey : key ∉ (l.withRoom key now t).buckets.map Prod.fst) :
    (l.withRoom key now t).buckets.length < l.maxEntries := by
  have hlength := (cleaned_sublist (l := l) key now t).length_le
  rw [withRoom] at hkey ⊢
  split_ifs at hkey ⊢ with hfull
  · have hone := l.one_le_maxEntries
    rw [List.length_tail]
    omega
  · exact not_le.mp fun hle => hfull ⟨hkey, hle⟩

namespace Sound

omit [DecidableEq κ] in
theorem empty (now : ℚ) : Sound l now ({} : RateTable κ) where
  nodup := List.nodup_nil
  order := List.Pairwise.nil
  past := by simp
  tokens := by simp
  room := Nat.zero_le _

omit [DecidableEq κ] in
theorem later (h : Sound l now t) (hnow : now ≤ now') : Sound l now' t :=
  { h with past := fun p hp => (h.past p hp).trans hnow }

omit [DecidableEq κ] in
theorem of_sublist {t' : RateTable κ} (h : Sound l now t)
    (hsub : t'.buckets.Sublist t.buckets) : Sound l now t' where
  nodup := h.nodup.sublist (hsub.map Prod.fst)
  order := h.order.sublist hsub
  past := fun p hp => h.past p (hsub.subset hp)
  tokens := fun p hp => h.tokens p (hsub.subset hp)
  room := hsub.length_le.trans h.room

theorem available_nonneg (h : Sound l now t) (key : κ) : 0 ≤ l.available key now t := by
  have hburst : 0 ≤ l.burst := zero_le_one.trans l.one_le_burst
  rw [available]
  cases hget : Lib.Dict.get key t.buckets with
  | none => exact hburst
  | some b =>
    have hmem := Lib.Dict.mem_of_get hget
    have hpast : b.lastRefill ≤ now := h.past _ hmem
    simp only [refilled_eq_fill hpast]
    exact Lib.TokenBucket.fill_nonneg hburst l.rate_pos.le hpast (h.tokens _ hmem).1

/-- A bucket of the present time is stored where there is room. -/
theorem store {b : Bucket} (h : Sound l now t) (hnow : b.lastRefill = now)
    (htokens : 0 ≤ b.tokens ∧ b.tokens ≤ l.burst)
    (hroom : key ∉ t.buckets.map Prod.fst → t.buckets.length < l.maxEntries) :
    Sound l now (store key b t) := by
  have hrest : Sound l now { t with buckets := t.buckets.filter fun p => p.1 ≠ key } :=
    h.of_sublist List.filter_sublist
  have hmem : ∀ p ∈ (HttpRateLimiter.store key b t).buckets,
      p ∈ t.buckets.filter (fun p => p.1 ≠ key) ∨ p = (key, b) := by
    intro p hp
    rcases List.mem_append.mp hp with hp | hp
    · exact .inl hp
    · exact .inr (List.mem_singleton.mp hp)
  refine ⟨?_, ?_, fun p hp => ?_, fun p hp => ?_, ?_⟩
  · have hnot : key ∉ (t.buckets.filter fun p => p.1 ≠ key).map Prod.fst := by simp
    simp only [HttpRateLimiter.store, List.map_append, List.map_cons, List.map_nil]
    refine List.nodup_append.mpr ⟨hrest.nodup, List.nodup_singleton key, ?_⟩
    intro k hk j hj hkj
    rw [hkj, List.mem_singleton.mp hj] at hk
    exact hnot hk
  · refine List.pairwise_append.mpr ⟨hrest.order, List.pairwise_singleton .., ?_⟩
    intro p hp q hq
    rw [List.mem_singleton.mp hq]
    exact (hrest.past p hp).trans hnow.ge
  · rcases hmem p hp with hp | rfl
    · exact hrest.past p hp
    · exact hnow.le
  · rcases hmem p hp with hp | rfl
    · exact hrest.tokens p hp
    · exact htokens
  · simp only [HttpRateLimiter.store, List.length_append, List.length_singleton]
    by_cases hkey : key ∈ t.buckets.map Prod.fst
    · obtain ⟨p, hp, rfl⟩ := List.mem_map.mp hkey
      have hlt : (t.buckets.filter fun q => q.1 ≠ p.1).length < t.buckets.length :=
        List.length_filter_lt_length_iff_exists.mpr ⟨p, hp, by simp⟩
      have hroom := h.room
      omega
    · have hle : (t.buckets.filter fun q => q.1 ≠ key).length ≤ t.buckets.length :=
        List.length_filter_le ..
      have hroom := hroom hkey
      omega

/-- Every call keeps the table sound. -/
theorem step {c : κ × ℚ} (h : Sound l now t) (hnow : now ≤ c.2) : Sound l c.2 (l.step t c) := by
  have hlater := h.later hnow
  have havailable := hlater.available_nonneg c.1
  have hle := available_le (l := l) c.1 c.2 t
  rw [step_eq h.nodup]
  refine (hlater.of_sublist (withRoom_sublist c.1 c.2 t)).store rfl ?_
    (length_withRoom_lt hlater.room)
  rw [spent]
  split_ifs with hone
  · exact ⟨sub_nonneg.mpr hone, by linarith⟩
  · exact ⟨havailable, hle⟩

/-- The table is sound after any calls in the order of time. -/
theorem run {calls : List (κ × ℚ)} (h : Sound l now t)
    (htimes : (now :: (calls.map Prod.snd ++ [now'])).Pairwise (· ≤ ·)) :
    Sound l now' (Lib.run l.step t calls) := by
  induction calls generalizing now t with
  | nil =>
    obtain ⟨hafter, -⟩ := List.pairwise_cons.mp htimes
    exact h.later (hafter now' List.mem_cons_self)
  | cons c calls ih =>
    obtain ⟨hafter, hrest⟩ := List.pairwise_cons.mp htimes
    exact ih (h.step (hafter c.2 List.mem_cons_self)) hrest

end Sound

end HttpRateLimiter

end Just1kBot
