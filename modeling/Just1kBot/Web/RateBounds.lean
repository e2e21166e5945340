import Just1kBot.Web.RateLimiter

/-! What the token buckets of `utils/http_rate_limiter.py` allow, over any calls.

    The calls of a key that is never evicted are answered as by one bucket that nothing forgets, so
    any interval allows no more than a full bucket and the gain. The clean-up shows only in whom
    the capacity evicts, and not at all where a bucket fills up within the two minutes. -/

namespace Just1kBot

namespace HttpRateLimiter
variable {κ : Type} [DecidableEq κ] {l : HttpRateLimiter} {key k : κ} {now now' : ℚ}
  {t : RateTable κ} {calls : List (κ × ℚ)}

open Lib.TokenBucket (Level fill take taken fill_fill fill_le)

/-! ### One bucket -/

/-- The answers of a lone bucket to calls at the given times. -/
def bucketAnswers (l : HttpRateLimiter) (b : Level ℚ) : List ℚ → List (ℚ × Bool × ℤ)
  | [] => []
  | now :: times =>
    (now, l.answer (fill l.burst l.rate now b)) :: bucketAnswers l (take l.burst l.rate now b) times

/-- The times of the key's calls. -/
def keyTimes (key : κ) (calls : List (κ × ℚ)) : List ℚ :=
  (calls.filter fun c => c.1 = key).map Prod.snd

/-- The key finds what the lone bucket holds. -/
structure Follows (l : HttpRateLimiter) (key : κ) (now : ℚ) (b : Level ℚ) (t : RateTable κ) :
    Prop where
  past : b.time ≤ now
  level : l.available key now t = fill l.burst l.rate now b

/-- A new key finds a full bucket. -/
theorem follows_empty (key : κ) (now : ℚ) :
    Follows l key now { level := l.burst, time := now } {} where
  past := le_refl now
  level := by simp [available, Lib.Dict.get, fill]

namespace Follows
variable {b : Level ℚ}

theorem later (h : Follows l key now b t) (ht : Sound l now t) (hnow : now ≤ now') :
    Follows l key now' b t := by
  refine ⟨h.past.trans hnow, ?_⟩
  have hlevel := h.level
  have hr := l.rate_pos.le
  rw [← fill_fill hr hnow b, ← hlevel]
  rw [available, available]
  cases hget : Lib.Dict.get key t.buckets with
  | none =>
    -- a key without a bucket finds a full one at any time
    have hgain : 0 ≤ (now' - now) * l.rate := mul_nonneg (sub_nonneg.mpr hnow) hr
    exact (min_eq_left (le_add_of_nonneg_right hgain)).symm
  | some b' =>
    have hpast : b'.lastRefill ≤ now := ht.past _ (Lib.Dict.mem_of_get hget)
    simp only
    rw [refilled_eq_fill hpast, refilled_eq_fill (hpast.trans hnow), fill_fill hr hnow]

/-- A call of the key takes from the lone bucket. -/
theorem step_self (h : Follows l key now b t) (ht : Sound l now t) :
    Follows l key now (take l.burst l.rate now b) (l.step t (key, now)) := by
  refine ⟨le_refl now, ?_⟩
  have hspent : (spent now (fill l.burst l.rate now b)).lastRefill = now := rfl
  rw [step_eq ht.nodup, h.level, available_store_self hspent.le]
  rfl

/-- A call of another key that does not evict the key leaves it what it had. -/
theorem step_of_ne {c : κ × ℚ} (h : Follows l key c.2 b t) (ht : Sound l now t) (hne : key ≠ c.1)
    (hspares : l.Spares key t c) : Follows l key c.2 b (l.step t c) := by
  refine ⟨h.past, ?_⟩
  rw [step_eq ht.nodup, available_store_of_ne hne, available_withRoom ht.nodup hspares,
    h.level]

end Follows

theorem keyAnswers_cons (key : κ) (t : RateTable κ) (c : κ × ℚ) (calls : List (κ × ℚ)) :
    l.keyAnswers key t (c :: calls) =
      if c.1 = key then (c.2, (l.check c.1 c.2 t).1) :: l.keyAnswers key (l.step t c) calls
      else l.keyAnswers key (l.step t c) calls := by
  rw [keyAnswers, answers, List.zip_cons_cons]
  by_cases hkey : c.1 = key
  · rw [if_pos hkey, List.filter_cons_of_pos (by simp [hkey])]
    rfl
  · rw [if_neg hkey, List.filter_cons_of_neg (by simp [hkey])]
    rfl

/-- A key that is never evicted is answered as by a lone bucket. -/
theorem keyAnswers_eq_bucketAnswers {b : Level ℚ} (ht : Sound l now t)
    (hb : Follows l key now b t) (htimes : (now :: calls.map Prod.snd).Pairwise (· ≤ ·))
    (hspared : Lib.Always l.step (l.Spares key) t calls) :
    l.keyAnswers key t calls = l.bucketAnswers b (keyTimes key calls) := by
  induction calls generalizing now t b with
  | nil => rfl
  | cons c calls ih =>
    obtain ⟨hafter, hrest⟩ := List.pairwise_cons.mp htimes
    have hnow : now ≤ c.2 := hafter c.2 List.mem_cons_self
    have hb := hb.later ht hnow
    have hnext := ht.step hnow
    rw [keyAnswers_cons, keyTimes]
    by_cases hkey : c.1 = key
    · obtain ⟨j, time⟩ := c
      subst hkey
      rw [if_pos rfl, List.filter_cons_of_pos (by simp), List.map_cons, bucketAnswers,
        check_eq ht.nodup, hb.level, ih hnext (hb.step_self (ht.later hnow)) hrest hspared.2]
      rfl
    · rw [if_neg hkey, List.filter_cons_of_neg (by simp [hkey]),
        ih hnext (hb.step_of_ne ht (Ne.symm hkey) hspared.1) hrest hspared.2]
      rfl

/-- The calls that a lone bucket allows take its tokens. -/
theorem countP_bucketAnswers (s u : ℚ) (b : Level ℚ) (times : List ℚ) :
    (l.bucketAnswers b times).countP (fun a => s ≤ a.1 ∧ a.1 ≤ u ∧ a.2.1 = true) =
      taken l.burst l.rate s u b times := by
  induction times generalizing b with
  | nil => rfl
  | cons now times ih =>
    have hallowed : (l.answer (fill l.burst l.rate now b)).1 = true ↔
        1 ≤ fill l.burst l.rate now b := by
      rw [answer]
      split_ifs with hone
      · exact iff_of_true rfl hone
      · exact iff_of_false (by simp) hone
    rw [bucketAnswers, List.countP_cons, ih, taken]
    simp only [hallowed, decide_eq_true_eq]

omit [DecidableEq κ] in
/-- Calls in the order of time are all at or after some time. -/
theorem Timely.exists_start (h : Timely calls) :
    ∃ start, (start :: calls.map Prod.snd).Pairwise (· ≤ ·) := by
  cases calls with
  | nil => exact ⟨0, List.pairwise_singleton ..⟩
  | cons c calls =>
    refine ⟨c.2, List.pairwise_cons.mpr ⟨fun time htime => ?_, h⟩⟩
    rcases List.mem_cons.mp htime with rfl | htime
    · exact le_refl _
    · exact (List.pairwise_cons.mp h).1 time htime

theorem keyTimes_sublist (key : κ) (calls : List (κ × ℚ)) :
    (keyTimes key calls).Sublist (calls.map Prod.snd) := List.filter_sublist.map _

/-- The answers of a fresh limiter to a key that it never evicts. -/
theorem exists_keyAnswers_eq (h : Timely calls) (key : κ) :
    ∃ start, (start :: keyTimes key calls).Pairwise (· ≤ ·) ∧
      ∀ l : HttpRateLimiter, Lib.Always l.step (l.Spares key) {} calls →
        l.keyAnswers key {} calls =
          l.bucketAnswers { level := l.burst, time := start } (keyTimes key calls) := by
  obtain ⟨start, hstart⟩ := h.exists_start
  refine ⟨start, hstart.sublist ((keyTimes_sublist key calls).cons_cons start), ?_⟩
  intro l hspared
  exact keyAnswers_eq_bucketAnswers (Sound.empty start) (follows_empty key start) hstart hspared

/-- In any interval a key that is never evicted is allowed no more than a full bucket and the
    gain. -/
theorem allowedCalls_le (h : Timely calls) (hspared : Lib.Always l.step (l.Spares key) {} calls)
    {s u : ℚ} (hsu : s ≤ u) :
    (l.allowedCalls key s u {} calls : ℚ) ≤ l.burst + l.rate * (u - s) := by
  obtain ⟨start, hstart, heq⟩ := exists_keyAnswers_eq h key
  have hburst : 0 ≤ l.burst := zero_le_one.trans l.one_le_burst
  rw [allowedCalls, heq l hspared, countP_bucketAnswers, mul_comm]
  exact Lib.TokenBucket.taken_le hburst l.rate_pos.le hsu hburst hstart

/-- A key that neither limiter evicts is answered the same with and without the clean-up. -/
theorem keyAnswers_eq_lazy (h : Timely calls) (hspared : Lib.Always l.step (l.Spares key) {} calls)
    (hlazy : Lib.Always l.lazy.step (l.lazy.Spares key) {} calls) :
    l.keyAnswers key {} calls = l.lazy.keyAnswers key {} calls := by
  obtain ⟨start, -, heq⟩ := exists_keyAnswers_eq h key
  have hsame : ∀ (b : Level ℚ) (times : List ℚ),
      l.bucketAnswers b times = l.lazy.bucketAnswers b times := by
    intro b times
    induction times generalizing b with
    | nil => rfl
    | cons now times ih => exact congrArg _ (ih _)
  rw [heq l hspared, heq l.lazy hlazy, hsame]
  rfl

/-! ### After a denial -/

/-- The key's bucket is this one, if it has one. -/
def Keeps (key : κ) (b : Bucket) (t : RateTable κ) : Prop :=
  ∀ b' ∈ Lib.Dict.get key t.buckets, b' = b

/-- Calls of other keys leave the bucket or forget it. -/
theorem Keeps.step {b : Bucket} {c : κ × ℚ} (h : Keeps key b t) (ht : Sound l now t)
    (hne : key ≠ c.1) : Keeps key b (l.step t c) := by
  intro b' hb'
  have hget : Lib.Dict.get key (l.step t c).buckets =
      Lib.Dict.get key (l.withRoom c.1 c.2 t).buckets := by
    rw [step_eq ht.nodup]
    exact Lib.Dict.get_filter_append_of_ne hne
  rw [hget] at hb'
  exact h b' (Lib.Dict.get_of_sublist (withRoom_sublist c.1 c.2 t) ht.nodup hb')

theorem Keeps.run {b : Bucket} (h : Keeps key b t) (ht : Sound l now t)
    (htimes : (now :: calls.map Prod.snd).Pairwise (· ≤ ·)) (hother : ∀ c ∈ calls, key ≠ c.1) :
    Keeps key b (Lib.run l.step t calls) := by
  induction calls generalizing now t with
  | nil => exact h
  | cons c calls ih =>
    obtain ⟨hafter, hrest⟩ := List.pairwise_cons.mp htimes
    obtain ⟨hc, hother⟩ := List.forall_mem_cons.mp hother
    exact ih (h.step ht hc) (ht.step (hafter c.2 List.mem_cons_self)) hrest hother

/-- The time to come back is long enough for a token. -/
theorem one_le_refilled {tokens : ℚ} (hnow : now + l.waitSeconds tokens ≤ now') :
    1 ≤ l.refilled now' { tokens := tokens, lastRefill := now } := by
  have hwait : (1 - tokens) / l.rate ≤ now' - now := by
    have hceil : (1 - tokens) / l.rate ≤ (⌈(1 - tokens) / l.rate⌉ : ℤ) := Int.le_ceil _
    have hmax : (⌈(1 - tokens) / l.rate⌉ : ℚ) ≤ (l.waitSeconds tokens : ℤ) :=
      Int.cast_le.mpr (le_max_right ..)
    linarith
  have hgain : 1 - tokens ≤ (now' - now) * l.rate := (div_le_iff₀ l.rate_pos).mp hwait
  have hpos : (now' - now) * l.rate ≤ max 0 (now' - now) * l.rate :=
    mul_le_mul_of_nonneg_right (le_max_right ..) l.rate_pos.le
  exact le_min l.one_le_burst (by linarith)

/-- A call that was denied is allowed when it comes back in time, whatever others called. -/
theorem check_after_denial {w : ℤ} (ht : Sound l now t)
    (htimes : (now :: (calls.map Prod.snd ++ [now'])).Pairwise (· ≤ ·))
    (hother : ∀ c ∈ calls, key ≠ c.1) (hdenied : (l.check key now t).1 = (false, w))
    (hwait : now + w ≤ now') :
    (l.check key now' (Lib.run l.step t ((key, now) :: calls))).1 = (true, 0) := by
  have hnext : Sound l now (l.step t (key, now)) := ht.step (c := (key, now)) (le_refl now)
  obtain ⟨hless, hw⟩ : ¬ 1 ≤ l.available key now t ∧ l.waitSeconds (l.available key now t) = w := by
    rw [check_eq ht.nodup, answer] at hdenied
    split_ifs at hdenied with hone
    · cases hdenied
    · exact ⟨hone, (Prod.mk.inj hdenied).2⟩
  have hkeeps : Keeps key { tokens := l.available key now t, lastRefill := now }
      (l.step t (key, now)) := by
    intro b hb
    have hget : Lib.Dict.get key (l.step t (key, now)).buckets =
        some (spent now (l.available key now t)) := by
      rw [step_eq ht.nodup]
      exact Lib.Dict.get_filter_append_self
    rw [hget, spent, if_neg hless] at hb
    exact (Option.some.inj hb).symm
  have hlast : Sound l now' (Lib.run l.step t ((key, now) :: calls)) := hnext.run htimes
  have hkept : Keeps key { tokens := l.available key now t, lastRefill := now }
      (Lib.run l.step t ((key, now) :: calls)) :=
    hkeeps.run hnext (htimes.sublist ((List.sublist_append_left ..).cons_cons now)) hother
  have hone : 1 ≤ l.available key now' (Lib.run l.step t ((key, now) :: calls)) := by
    rw [available]
    cases hget : Lib.Dict.get key (Lib.run l.step t ((key, now) :: calls)).buckets with
    | none => exact l.one_le_burst
    | some b =>
      rw [hkept b hget]
      exact one_le_refilled (hw ▸ hwait)
  rw [check_eq hlast.nodup, answer, if_pos hone]

/-! ### Without the clean-up -/

/-- A bucket that is full stays full. -/
theorem refilled_mono {b : Bucket} (hnow : now ≤ now') : l.refilled now b ≤ l.refilled now' b := by
  have hgain : max 0 (now - b.lastRefill) * l.rate ≤ max 0 (now' - b.lastRefill) * l.rate :=
    mul_le_mul_of_nonneg_right (max_le_max_left 0 (by linarith)) l.rate_pos.le
  exact min_le_min_left _ (by linarith)

omit [DecidableEq κ] in
/-- Where a bucket fills up within two minutes, the stale buckets are the least recently used
    ones. -/
theorem exists_stale_prefix (hfast : l.burst ≤ 120 * l.rate) {buckets : List (κ × Bucket)}
    (horder : buckets.Pairwise fun p q => p.2.lastRefill ≤ q.2.lastRefill)
    (htokens : ∀ p ∈ buckets, 0 ≤ p.2.tokens) :
    ∃ stale, buckets = stale ++ buckets.filter (fun p => ¬ l.Stale now p.2) ∧
      ∀ p ∈ stale, l.Stale now p.2 := by
  have hidle : ∀ p ∈ buckets, 120 < now - p.2.lastRefill → l.Stale now p.2 := by
    intro p hp hlong
    have hgain : 120 * l.rate ≤ max 0 (now - p.2.lastRefill) * l.rate :=
      mul_le_mul_of_nonneg_right (hlong.le.trans (le_max_right ..)) l.rate_pos.le
    have htokens := htokens p hp
    exact ⟨le_min (le_refl _) (by linarith), hlong⟩
  induction buckets with
  | nil => exact ⟨[], rfl, by simp⟩
  | cons p buckets ih =>
    obtain ⟨hfirst, hrest⟩ := List.pairwise_cons.mp horder
    by_cases hstale : l.Stale now p.2
    · obtain ⟨stale, heq, hall⟩ := ih hrest (fun q hq => htokens q (List.mem_cons_of_mem p hq))
        fun q hq => hidle q (List.mem_cons_of_mem p hq)
      refine ⟨p :: stale, ?_, List.forall_mem_cons.mpr ⟨hstale, hall⟩⟩
      rw [List.filter_cons_of_neg (by simp [hstale]), List.cons_append, ← heq]
    · refine ⟨[], ?_, by simp⟩
      have hnone : ∀ q ∈ p :: buckets, ¬ l.Stale now q.2 := by
        intro q hq hq'
        rcases List.mem_cons.mp hq with rfl | hmem
        · exact hstale hq'
        · have hle := hfirst q hmem
          have hlong := hq'.2
          exact hstale (hidle p List.mem_cons_self (by linarith))
      rw [List.nil_append, List.filter_eq_self.mpr fun q hq => by simpa using hnone q hq]

/-- The limiter that never cleans up has some more buckets, all full, before those of the other. -/
structure Extends (l : HttpRateLimiter) (now : ℚ) (t lazy : RateTable κ) : Prop where
  sound : Sound l.lazy now lazy
  extra : ∃ full, lazy.buckets = full ++ t.buckets ∧ ∀ p ∈ full, l.burst ≤ l.refilled now p.2

theorem withRoom_of_not_full (h : ¬ l.Full key t) : l.withRoom key now t = t := by
  have hcleaned : l.cleaned key now t = t := if_neg fun hfull => h hfull.1
  rw [withRoom, hcleaned, if_neg h]

theorem buckets_lazy_withRoom (key : κ) (now : ℚ) (t : RateTable κ) :
    (l.lazy.withRoom key now t).buckets =
      if l.Full key t then t.buckets.tail else t.buckets := by
  have hcleaned : l.lazy.cleaned key now t = t := if_neg fun hfull => Bool.noConfusion hfull.2.1
  have hsame : l.lazy.Full key t ↔ l.Full key t := Iff.rfl
  rw [withRoom, hcleaned]
  by_cases hfull : l.Full key t
  · rw [if_pos hfull, if_pos (hsame.mpr hfull)]
  · rw [if_neg hfull, if_neg (hsame.not.mpr hfull)]

namespace Extends
variable {lazy : RateTable κ}

omit [DecidableEq κ] in
theorem empty (now : ℚ) : Extends l now ({} : RateTable κ) {} where
  sound := Sound.empty now
  extra := ⟨[], rfl, by simp⟩

omit [DecidableEq κ] in
theorem later (h : Extends l now t lazy) (hnow : now ≤ now') : Extends l now' t lazy := by
  obtain ⟨full, heq, hfull⟩ := h.extra
  exact ⟨h.sound.later hnow, full, heq, fun p hp => (hfull p hp).trans (refilled_mono hnow)⟩

omit [DecidableEq κ] in
theorem sublist (h : Extends l now t lazy) : t.buckets.Sublist lazy.buckets := by
  obtain ⟨full, heq, -⟩ := h.extra
  rw [heq]
  exact List.sublist_append_right ..

omit [DecidableEq κ] in
theorem nodup (h : Extends l now t lazy) : (t.buckets.map Prod.fst).Nodup :=
  h.sound.nodup.sublist (h.sublist.map Prod.fst)

/-- A call finds the same in both. -/
theorem available_eq (h : Extends l now t lazy) (key : κ) :
    l.lazy.available key now lazy = l.available key now t := by
  obtain ⟨full, heq, hfull⟩ := h.extra
  have hget := Lib.Dict.get_append (k := key) (d := t.buckets) full
  rw [← heq] at hget
  rw [available, available, hget]
  cases hextra : Lib.Dict.get key full with
  | none => rfl
  | some b =>
    -- the key is not in the smaller table, and its bucket is full in the larger one
    have hmem := Lib.Dict.mem_of_get hextra
    have hnone : Lib.Dict.get key t.buckets = none := by
      have hnodup := h.sound.nodup
      rw [heq, List.map_append, List.nodup_append] at hnodup
      refine Lib.Dict.get_eq_none_iff.mpr fun hkey => ?_
      exact hnodup.2.2 key (List.mem_map_of_mem (f := Prod.fst) hmem) key hkey rfl
    have hle : l.burst ≤ l.refilled now b := hfull (key, b) hmem
    have hburst : l.refilled now b = l.burst := le_antisymm (min_le_left ..) hle
    rw [hnone]
    exact hburst

/-- Both make room for a key. -/
theorem exists_withRoom (h : Extends l now t lazy) (hfast : l.burst ≤ 120 * l.rate) (key : κ) :
    ∃ full, (l.lazy.withRoom key now lazy).buckets =
        full ++ (l.withRoom key now t).buckets ∧ ∀ p ∈ full, l.burst ≤ l.refilled now p.2 := by
  obtain ⟨full, heq, hfull⟩ := h.extra
  have hroom : lazy.buckets.length ≤ l.maxEntries := h.sound.room
  rw [buckets_lazy_withRoom]
  by_cases hsmall : l.Full key t
  · -- no bucket is extra
    have hnone : full = [] := by
      rw [heq, List.length_append] at hroom
      have hle := hsmall.2
      exact List.length_eq_zero_iff.mp (by omega)
    rw [hnone, List.nil_append] at heq
    have hlazy : l.Full key lazy := by rwa [Full, heq]
    rw [if_pos hlazy, heq, withRoom]
    by_cases hcleans : l.Full key t ∧ l.cleans ∧ 30 ≤ now - t.lastCleanup
    · have horder := h.sound.order.sublist h.sublist
      have htokens : ∀ p ∈ t.buckets, 0 ≤ p.2.tokens := fun p hp =>
        (h.sound.tokens p (h.sublist.subset hp)).1
      obtain ⟨stale, hsplit, hstale⟩ : ∃ stale, t.buckets = stale ++ (l.cleanup now t).buckets ∧
          ∀ p ∈ stale, l.Stale now p.2 := exists_stale_prefix hfast horder htokens
      have hcleaned : l.cleaned key now t = l.cleanup now t := if_pos hcleans
      rw [hcleaned]
      cases stale with
      | nil =>
        have hsame : (l.cleanup now t).buckets = t.buckets := hsplit.symm
        have hstill : l.Full key (l.cleanup now t) := by rwa [Full, hsame]
        rw [if_pos hstill]
        exact ⟨[], by rw [hsame, List.nil_append], by simp⟩
      | cons p stale =>
        have hlength := congrArg List.length hsplit
        rw [List.cons_append, List.length_cons, List.length_append] at hlength
        have hsame : t.buckets = p :: (stale ++ (l.cleanup now t).buckets) := hsplit
        have hmade : ¬ l.Full key (l.cleanup now t) := by
          intro hagain
          have hle := hagain.2
          rw [heq, hsame, List.length_cons, List.length_append] at hroom
          omega
        rw [if_neg hmade, hsame]
        exact ⟨stale, rfl, fun q hq => (hstale q (List.mem_cons_of_mem p hq)).1⟩
    · have hcleaned : l.cleaned key now t = t := if_neg hcleans
      rw [hcleaned, if_pos hsmall]
      exact ⟨[], rfl, by simp⟩
  · rw [withRoom_of_not_full hsmall]
    split_ifs with hlarge
    · -- the larger table evicts one of its extra buckets
      have hnew : key ∉ t.buckets.map Prod.fst := fun hkey =>
        hlarge.1 ((h.sublist.map Prod.fst).subset hkey)
      have hless : t.buckets.length < l.maxEntries := not_le.mp fun hle => hsmall ⟨hnew, hle⟩
      cases full with
      | nil =>
        have hle := hlarge.2
        rw [heq, List.nil_append] at hle
        omega
      | cons p full =>
        rw [heq]
        exact ⟨full, rfl, fun q hq => hfull q (List.mem_cons_of_mem p hq)⟩
    · exact ⟨full, heq, hfull⟩

/-- A call keeps the relation of the two limiters, and both answer it the same. -/
theorem step {c : κ × ℚ} (h : Extends l now t lazy) (hfast : l.burst ≤ 120 * l.rate)
    (hnow : now ≤ c.2) :
    (l.check c.1 c.2 t).1 = (l.lazy.check c.1 c.2 lazy).1 ∧
      Extends l c.2 (l.step t c) (l.lazy.step lazy c) := by
  have h := h.later hnow
  have hfound := h.available_eq c.1
  refine ⟨?_, h.sound.step (le_refl c.2), ?_⟩
  · rw [check_eq h.nodup, check_eq h.sound.nodup, hfound]
    rfl
  · obtain ⟨full, heq, hfull⟩ := h.exists_withRoom hfast c.1
    rw [step_eq h.nodup, step_eq h.sound.nodup, hfound]
    refine ⟨full.filter fun p => p.1 ≠ c.1, ?_, fun p hp => hfull p (List.mem_of_mem_filter hp)⟩
    simp only [store]
    rw [heq, List.filter_append, List.append_assoc]

end Extends

/-- Where a bucket fills up within two minutes, the clean-up never shows. -/
theorem answers_eq_lazy (hfast : l.burst ≤ 120 * l.rate) {lazy : RateTable κ}
    (h : Extends l now t lazy) (htimes : (now :: calls.map Prod.snd).Pairwise (· ≤ ·)) :
    l.answers t calls = l.lazy.answers lazy calls := by
  induction calls generalizing now t lazy with
  | nil => rfl
  | cons c calls ih =>
    obtain ⟨hafter, hrest⟩ := List.pairwise_cons.mp htimes
    obtain ⟨hsame, hnext⟩ := h.step hfast (hafter c.2 List.mem_cons_self)
    rw [answers, answers, hsame, ih hnext hrest]

/-! ### Over any calls -/

theorem throughout_room (ht : Sound l now t)
    (htimes : (now :: calls.map Prod.snd).Pairwise (· ≤ ·)) :
    Lib.Throughout l.step (fun t => t.buckets.length ≤ l.maxEntries) t calls := by
  induction calls generalizing now t with
  | nil => exact ht.room
  | cons c calls ih =>
    obtain ⟨hafter, hrest⟩ := List.pairwise_cons.mp htimes
    exact ⟨ht.room, ih (ht.step (hafter c.2 List.mem_cons_self)) hrest⟩

/-- What a limiter does over any calls in the order of time: a key that is never evicted is bounded
    in every interval, and answered as without the clean-up where that does not evict it either;
    where a bucket fills up within two minutes, no answer shows the clean-up; the table keeps its
    size; and a call that comes back in time after a denial is allowed. -/
theorem rate_limited (l : HttpRateLimiter) (calls : List (κ × ℚ)) (h : Timely calls) :
    (∀ key, Lib.Always l.step (l.Spares key) {} calls → ∀ s u, s ≤ u →
      (l.allowedCalls key s u {} calls : ℚ) ≤ l.burst + l.rate * (u - s)) ∧
    (∀ key, Lib.Always l.step (l.Spares key) {} calls →
      Lib.Always l.lazy.step (l.lazy.Spares key) {} calls →
        l.keyAnswers key {} calls = l.lazy.keyAnswers key {} calls) ∧
    (l.burst ≤ 120 * l.rate → l.answers {} calls = l.lazy.answers {} calls) ∧
    Lib.Throughout l.step (fun t => t.buckets.length ≤ l.maxEntries) {} calls ∧
    ∀ before key now others now' after w,
      calls = before ++ (key, now) :: (others ++ (key, now') :: after) →
      (∀ c ∈ others, key ≠ c.1) →
      (l.check key now (Lib.run l.step {} before)).1 = (false, w) → now + (w : ℤ) ≤ now' →
        (l.check key now' (Lib.run l.step {} (before ++ (key, now) :: others))).1 = (true, 0) := by
  obtain ⟨start, hstart⟩ := h.exists_start
  refine ⟨fun key hspared s u hsu => allowedCalls_le h hspared hsu,
    fun key hspared hlazy => keyAnswers_eq_lazy h hspared hlazy,
    fun hfast => answers_eq_lazy hfast (Extends.empty start) hstart,
    throughout_room (Sound.empty start) hstart, ?_⟩
  rintro before key now others now' after w rfl hother hdenied hwait
  simp only [List.map_append, List.map_cons] at hstart
  have hbefore : (start :: (before.map Prod.snd ++ [now])).Pairwise (· ≤ ·) := by
    refine hstart.sublist (List.Sublist.cons_cons _ ?_)
    exact (List.Sublist.refl _).append ((List.nil_sublist _).cons_cons now)
  have hbetween : (now :: (others.map Prod.snd ++ [now'])).Pairwise (· ≤ ·) := by
    refine hstart.sublist (List.Sublist.cons _ (List.sublist_append_of_sublist_right ?_))
    exact List.Sublist.cons_cons _ ((List.Sublist.refl _).append
      ((List.nil_sublist _).cons_cons now'))
  rw [Lib.run_append]
  exact check_after_denial ((Sound.empty start).run hbefore) hbetween hother hdenied hwait

/-- Two tokens, one in a hundred seconds, and room for two keys. -/
def slow : HttpRateLimiter where
  rate := 1 / 100
  burst := 2
  maxEntries := 2
  rate_pos := by norm_num
  one_le_burst := by norm_num
  one_le_maxEntries := by norm_num

theorem rate_limited_slow :
    slow.allowedCalls 1 0 200 {} [(1, 0), (1, 0), (1, 0), (2, 50), (1, 100)] = 3 ∧
    (3 : ℚ) ≤ 2 + 1 / 100 * (200 - 0) ∧
    (slow.check 1 100 (Lib.run slow.step {} [(1, 0), (1, 0), (1, 0), (2, 50)])).1 = (true, 0) := by
  have htimely : Timely [(1, 0), (1, 0), (1, 0), (2, 50), (1, 100)] := by decide +kernel
  obtain ⟨hbound, -, -, -, hretry⟩ :=
    rate_limited slow [(1, 0), (1, 0), (1, 0), (2, 50), (1, 100)] htimely
  have hcount : slow.allowedCalls 1 0 200 {} [(1, 0), (1, 0), (1, 0), (2, 50), (1, 100)] = 3 := by
    decide +kernel
  refine ⟨hcount, ?_, ?_⟩
  · have hle := hbound 1 (by decide +kernel) 0 200 (by norm_num)
    rw [hcount] at hle
    exact_mod_cast hle
  · exact hretry [(1, 0), (1, 0)] 1 0 [(2, 50)] 100 [] 100 rfl (by decide) (by decide +kernel)
      (by norm_num)

/-- The clean-up that forgets a full bucket saves another from the capacity, and so keeps its
    debt. -/
theorem cleanup_shows :
    ∃ calls : List (ℕ × ℚ), Timely calls ∧ Lib.Always slow.step (slow.Spares 1) {} calls ∧
      slow.keyAnswers 1 {} calls ≠ slow.lazy.keyAnswers 1 {} calls ∧
      slow.answers {} calls ≠ slow.lazy.answers {} calls :=
  ⟨[(1, 0), (1, 0), (2, 1), (3, 150), (1, 151), (1, 151)], by decide +kernel, by decide +kernel,
    by decide +kernel, by decide +kernel⟩

end HttpRateLimiter

end Just1kBot
