import Just1kBot.Models
import Just1kBot.Lib.Transition

/-! The cache of peer counts: `services/slots_cache.py`.

    A count is requested under the generation of its server, and stored only if the generation is
    still the same when it arrives. An invalidation raises the generation of its server. A clear
    raises the global generation and forgets the generations of the servers, which fall back to the
    global one. Timestamps are only compared; an entry may expire or be evicted at any time. -/

namespace Just1kBot

/-- An entry of `_slots_cache`. -/
structure CachedCount where
  count : ℤ
  timestamp : Time
  generation : ℕ
  deriving DecidableEq, Repr

/-- The module's globals. -/
structure SlotsCache where
  slotsCache : ServerId → Option CachedCount := fun _ => none
  serverGenerations : ServerId → Option ℕ := fun _ => none
  globalGeneration : ℕ := 0

namespace SlotsCache

def getServerGeneration (c : SlotsCache) (server : ServerId) : ℕ :=
  (c.serverGenerations server).getD c.globalGeneration

def getCachedPeerCount (c : SlotsCache) (server : ServerId) : Option ℤ :=
  match c.slotsCache server with
  | none => none
  | some entry => if entry.generation = c.getServerGeneration server then some entry.count else none

/-- `update_cached_peer_count`: whether the cache was updated, and the cache. -/
def updateCachedPeerCount (c : SlotsCache) (server : ServerId) (count : ℤ) (now : Time)
    (generation : Option ℕ) : Bool × SlotsCache :=
  let currentGen := c.getServerGeneration server
  if generation.getD currentGen ≠ currentGen then (false, c)
  else if (c.slotsCache server).any fun e => e.generation = currentGen ∧ now < e.timestamp then
    (false, c)
  else
    (true, { c with
      slotsCache := Function.update c.slotsCache server (some ⟨count, now, currentGen⟩) })

def invalidateServerCache (c : SlotsCache) (server : ServerId) : SlotsCache :=
  { c with
    serverGenerations :=
      Function.update c.serverGenerations server (some (c.getServerGeneration server + 1))
    slotsCache := Function.update c.slotsCache server none }

def clearSlotsCache (c : SlotsCache) : SlotsCache :=
  { slotsCache := fun _ => none
    serverGenerations := fun _ => none
    globalGeneration := c.globalGeneration + 1 }

/-- The time to live of an entry ends, or a newer entry takes its place in the cache. -/
def expire (c : SlotsCache) (server : ServerId) : SlotsCache :=
  { c with slotsCache := Function.update c.slotsCache server none }

/-- An update goes through under the current generation, if it is not older than what is stored
    under it. -/
theorem update_fst_iff (c : SlotsCache) (server : ServerId) (count : ℤ) (now : Time)
    (generation : Option ℕ) :
    (c.updateCachedPeerCount server count now generation).1 = true ↔
      generation.getD (c.getServerGeneration server) = c.getServerGeneration server ∧
        ∀ e ∈ c.slotsCache server, e.generation = c.getServerGeneration server →
          e.timestamp ≤ now := by
  rw [updateCachedPeerCount]
  split_ifs with hgen hlast
  · simp [hgen]
  · obtain ⟨e, he, hlt⟩ := (Option.any_eq_true ..).mp hlast
    obtain ⟨hg, ht⟩ := of_decide_eq_true hlt
    refine iff_of_false (by simp) fun h => ?_
    exact absurd (h.2 e he hg) (not_le.mpr ht)
  · refine iff_of_true rfl ⟨not_not.mp hgen, fun e he hg => ?_⟩
    by_contra hlt
    exact hlast ((Option.any_eq_true ..).mpr ⟨e, he, decide_eq_true ⟨hg, not_le.mp hlt⟩⟩)

/-- A rejected update changes nothing. -/
theorem update_snd_of_false {c : SlotsCache} {server : ServerId} {count : ℤ} {now : Time}
    {generation : Option ℕ}
    (h : (c.updateCachedPeerCount server count now generation).1 = false) :
    (c.updateCachedPeerCount server count now generation).2 = c := by
  rw [updateCachedPeerCount] at h ⊢
  split_ifs at h ⊢
  · rfl
  · rfl

/-- An accepted update stores the count under the current generation. -/
theorem update_snd_of_true {c : SlotsCache} {server : ServerId} {count : ℤ} {now : Time}
    {generation : Option ℕ}
    (h : (c.updateCachedPeerCount server count now generation).1 = true) :
    (c.updateCachedPeerCount server count now generation).2 =
      { c with
        slotsCache := Function.update c.slotsCache server
          (some ⟨count, now, c.getServerGeneration server⟩) } := by
  rw [updateCachedPeerCount] at h ⊢
  split_ifs at h ⊢
  rfl

theorem invalidate_generation (c : SlotsCache) (server v : ServerId) :
    (c.invalidateServerCache server).getServerGeneration v =
      if v = server then c.getServerGeneration server + 1 else c.getServerGeneration v := by
  by_cases h : v = server
  · subst h
    simp [invalidateServerCache, getServerGeneration]
  · simp [invalidateServerCache, getServerGeneration, h]

end SlotsCache

/-! ### Calls over time -/

/-- A generation that was captured, with the calls made before it, the clears among them, and the
    invalidations of the server since the last clear. -/
structure Capture where
  server : ServerId
  generation : ℕ
  calls : ℕ
  clears : ℕ
  invalidations : ℕ
  deriving DecidableEq, Repr

/-- The cache and its past: the number of calls; for each server, the calls up to its latest
    invalidation or clear; the clears and the invalidations since; the captured generations; and
    when the cached count of each server was captured. -/
structure CacheHistory where
  cache : SlotsCache := {}
  calls : ℕ := 0
  fenced : ServerId → ℕ := fun _ => 0
  clears : ℕ := 0
  invalidations : ServerId → ℕ := fun _ => 0
  captures : List Capture := []
  counted : ServerId → ℕ := fun _ => 0

inductive CacheCall
  | invalidateServerCache (server : ServerId)
  | clearSlotsCache
  | getServerGeneration (server : ServerId)
  /-- An update with the generation captured by an earlier call. -/
  | updateCachedPeerCount (capture : ℕ) (count : ℤ) (now : Time)
  /-- An update without a generation; its count is captured now. -/
  | updateUnfenced (server : ServerId) (count : ℤ) (now : Time)
  | expire (server : ServerId)
  deriving DecidableEq, Repr

namespace CacheHistory

/-- A count captured at a given moment arrives. -/
def arrive (s : CacheHistory) (server : ServerId) (count : ℤ) (now : Time)
    (generation : Option ℕ) (captured : ℕ) : CacheHistory :=
  let r := s.cache.updateCachedPeerCount server count now generation
  { s with
    cache := r.2
    calls := s.calls + 1
    counted := if r.1 then Function.update s.counted server captured else s.counted }

def step (s : CacheHistory) : CacheCall → CacheHistory
  | .invalidateServerCache server =>
    { s with
      cache := s.cache.invalidateServerCache server
      calls := s.calls + 1
      fenced := Function.update s.fenced server (s.calls + 1)
      invalidations := Function.update s.invalidations server (s.invalidations server + 1) }
  | .clearSlotsCache =>
    { s with
      cache := s.cache.clearSlotsCache
      calls := s.calls + 1
      fenced := fun _ => s.calls + 1
      clears := s.clears + 1
      invalidations := fun _ => 0 }
  | .getServerGeneration server =>
    { s with
      calls := s.calls + 1
      captures := s.captures ++ [⟨server, s.cache.getServerGeneration server, s.calls, s.clears,
        s.invalidations server⟩] }
  | .updateCachedPeerCount i count now =>
    match s.captures[i]? with
    | none => s
    | some c => s.arrive c.server count now (some c.generation) c.calls
  | .updateUnfenced server count now => s.arrive server count now none s.calls
  | .expire server => { s with cache := s.cache.expire server, calls := s.calls + 1 }

/-- The generation was captured before the latest invalidation of its server or the latest clear. -/
def Stale (s : CacheHistory) (c : Capture) : Prop := c.calls < s.fenced c.server

/-- An update with a stale generation is rejected. -/
def Rejects (s : CacheHistory) : CacheCall → Prop
  | .updateCachedPeerCount i count now => ∀ c ∈ s.captures[i]?, s.Stale c →
      (s.cache.updateCachedPeerCount c.server count now (some c.generation)).1 = false
  | _ => True

instance (s : CacheHistory) (c : Capture) : Decidable (s.Stale c) :=
  inferInstanceAs (Decidable (_ < _))

/-- A cached count is read only if it was captured after the latest invalidation and clear. -/
def ReadsFresh (s : CacheHistory) : Prop :=
  ∀ server, (s.cache.getCachedPeerCount server).isSome → s.fenced server ≤ s.counted server

def Fenced (s : CacheHistory) (call : CacheCall) : Prop :=
  Rejects s call ∧ ReadsFresh (s.step call)

/-- When a stale generation arrives, the clears and invalidations counted at its capture and those
    counted now do not add up to the same number, or a newer entry is stored. -/
def Distinct (s : CacheHistory) : CacheCall → Prop
  | .updateCachedPeerCount i _ now => ∀ c ∈ s.captures[i]?, s.Stale c →
      c.clears + c.invalidations ≠ s.clears + s.invalidations c.server ∨
        ∃ e ∈ s.cache.slotsCache c.server, now < e.timestamp
  | _ => True

/-! ### What every call keeps -/

/-- How a capture stands to the counts of now: a fresh one has the same, and a stale one was made
    before a clear, or under fewer invalidations. -/
structure Counts (s : CacheHistory) (c : Capture) : Prop where
  calls_le : c.calls ≤ s.calls
  generation : c.generation = c.clears + c.invalidations
  fresh : ¬ s.Stale c → c.clears = s.clears ∧ c.invalidations = s.invalidations c.server
  stale : s.Stale c → c.clears < s.clears ∨
    c.clears = s.clears ∧ c.invalidations < s.invalidations c.server

structure Kept (s : CacheHistory) : Prop where
  global : s.cache.globalGeneration = s.clears
  generation : ∀ server, s.cache.getServerGeneration server = s.clears + s.invalidations server
  entries : ∀ server, ∀ e ∈ s.cache.slotsCache server,
    e.generation = s.cache.getServerGeneration server
  fenced_le : ∀ server, s.fenced server ≤ s.calls
  captures : ∀ c ∈ s.captures, s.Counts c

theorem kept_start : Kept {} :=
  ⟨rfl, fun _ => rfl, by simp, fun _ => le_rfl, by simp⟩

/-- A call that touches no fence keeps what is known of the captures. -/
theorem Counts.later {s s' : CacheHistory} {c : Capture} (h : s.Counts c)
    (hcalls : s.calls ≤ s'.calls) (hfenced : s'.fenced = s.fenced) (hclears : s'.clears = s.clears)
    (hinv : s'.invalidations = s.invalidations) : s'.Counts c := by
  refine ⟨h.calls_le.trans hcalls, h.generation, ?_, ?_⟩
  · rw [Stale, hfenced, hclears, hinv]
    exact h.fresh
  · rw [Stale, hfenced, hclears, hinv]
    exact h.stale

theorem kept_arrive {s : CacheHistory} (h : Kept s) (server : ServerId) (count : ℤ) (now : Time)
    (generation : Option ℕ) (captured : ℕ) :
    Kept (s.arrive server count now generation captured) := by
  have hfenced : ∀ v, s.fenced v ≤ s.calls + 1 := fun v => (h.fenced_le v).trans (Nat.le_succ _)
  cases hr : (s.cache.updateCachedPeerCount server count now generation).1 with
  | false =>
    rw [arrive, SlotsCache.update_snd_of_false hr, hr]
    exact ⟨h.global, h.generation, h.entries, hfenced,
      fun c hc => (h.captures c hc).later (Nat.le_succ _) rfl rfl rfl⟩
  | true =>
    rw [arrive, SlotsCache.update_snd_of_true hr, hr]
    refine ⟨h.global, h.generation, ?_, hfenced,
      fun c hc => (h.captures c hc).later (Nat.le_succ _) rfl rfl rfl⟩
    intro v e he
    by_cases hv : v = server
    · subst hv
      simp only [Function.update_self, Option.mem_def, Option.some.injEq] at he
      rw [← he]
      rfl
    · simp only [Function.update_of_ne hv] at he
      exact h.entries v e he

/-- An invalidation makes the captures of its server stale. -/
theorem Counts.invalidated {s : CacheHistory} {c : Capture} (h : s.Counts c) (server : ServerId) :
    (s.step (.invalidateServerCache server)).Counts c := by
  by_cases hs : c.server = server
  · subst hs
    refine ⟨h.calls_le.trans (Nat.le_succ _), h.generation, fun hfresh => ?_, fun _ => ?_⟩
    · refine absurd ?_ hfresh
      simp only [Stale, step, Function.update_self]
      exact Nat.lt_succ_of_le h.calls_le
    · simp only [step, Function.update_self]
      by_cases hstale : s.Stale c
      · exact (h.stale hstale).imp_right fun ⟨hc, hi⟩ => ⟨hc, hi.trans (Nat.lt_succ_self _)⟩
      · obtain ⟨hc, hi⟩ := h.fresh hstale
        exact .inr ⟨hc, hi ▸ Nat.lt_succ_self _⟩
  · refine ⟨h.calls_le.trans (Nat.le_succ _), h.generation, ?_, ?_⟩
    · simp only [Stale, step, Function.update_of_ne hs]
      exact h.fresh
    · simp only [Stale, step, Function.update_of_ne hs]
      exact h.stale

/-- A clear makes every capture stale. -/
theorem Counts.cleared {s : CacheHistory} {c : Capture} (h : s.Counts c) :
    (s.step .clearSlotsCache).Counts c := by
  refine ⟨h.calls_le.trans (Nat.le_succ _), h.generation, fun hfresh => ?_, fun _ => .inl ?_⟩
  · exact absurd (Nat.lt_succ_of_le h.calls_le) hfresh
  · have hle : c.clears ≤ s.clears := by
      by_cases hstale : s.Stale c
      · exact (h.stale hstale).elim le_of_lt fun hc => hc.1.le
      · exact (h.fresh hstale).1.le
    exact Nat.lt_succ_of_le hle

theorem kept_step (s : CacheHistory) (call : CacheCall) (h : Kept s) : Kept (s.step call) := by
  have hfenced : ∀ v, s.fenced v ≤ s.calls + 1 := fun v => (h.fenced_le v).trans (Nat.le_succ _)
  cases call with
  | invalidateServerCache server =>
    refine ⟨h.global, fun v => ?_, fun v e he => ?_, fun v => ?_,
      fun c hc => (h.captures c hc).invalidated server⟩
    · simp only [step, SlotsCache.invalidate_generation]
      by_cases hv : v = server
      · rw [if_pos hv, hv, Function.update_self, h.generation, Nat.add_assoc]
      · rw [if_neg hv, Function.update_of_ne hv, h.generation]
    · simp only [step, SlotsCache.invalidate_generation]
      by_cases hv : v = server
      · subst hv
        simp [step, SlotsCache.invalidateServerCache] at he
      · rw [if_neg hv]
        simp only [step, SlotsCache.invalidateServerCache, Function.update_of_ne hv] at he
        exact h.entries v e he
    · simp only [step, Function.update_apply]
      split_ifs
      · exact le_rfl
      · exact hfenced v
  | clearSlotsCache =>
    refine ⟨congrArg (· + 1) h.global, fun v => ?_, by simp [step, SlotsCache.clearSlotsCache],
      fun v => le_rfl, fun c hc => (h.captures c hc).cleared⟩
    exact congrArg (· + 1) h.global
  | getServerGeneration server =>
    refine ⟨h.global, h.generation, h.entries, hfenced, fun c hc => ?_⟩
    rcases List.mem_append.mp hc with hc | hc
    · exact (h.captures c hc).later (Nat.le_succ _) rfl rfl rfl
    · rw [List.mem_singleton.mp hc]
      exact ⟨Nat.le_succ _, h.generation server, fun _ => ⟨rfl, rfl⟩,
        fun hstale => absurd (h.fenced_le server) (not_le.mpr hstale)⟩
  | updateCachedPeerCount i count now =>
    rw [step]
    cases s.captures[i]? with
    | none => exact h
    | some c => exact kept_arrive h ..
  | updateUnfenced server count now => exact kept_arrive h ..
  | expire server =>
    refine ⟨h.global, h.generation, fun v e he => ?_, hfenced,
      fun c hc => (h.captures c hc).later (Nat.le_succ _) rfl rfl rfl⟩
    by_cases hv : v = server
    · subst hv
      simp [step, SlotsCache.expire] at he
    · simp only [step, SlotsCache.expire, Function.update_of_ne hv] at he
      exact h.entries v e he

/-! ### The fence -/

/-- Every entry of the cache was captured after the latest invalidation of its server. -/
def Fresh (s : CacheHistory) : Prop :=
  ∀ server, (s.cache.slotsCache server).isSome → s.fenced server ≤ s.counted server

/-- What is read is what is stored: no entry outlives its generation. -/
theorem readsFresh_iff {s : CacheHistory} (h : Kept s) : ReadsFresh s ↔ Fresh s := by
  refine forall_congr' fun server => ?_
  rw [SlotsCache.getCachedPeerCount]
  cases he : s.cache.slotsCache server with
  | none => simp
  | some e => simp [h.entries server e he]

/-- A stale generation is rejected exactly when the counts are distinct. -/
theorem rejects_iff {s : CacheHistory} (h : Kept s) (call : CacheCall) :
    Rejects s call ↔ Distinct s call := by
  cases call with
  | updateCachedPeerCount i count now =>
    refine forall₂_congr fun c hc => imp_congr_right fun _ => ?_
    rw [← Bool.not_eq_true, SlotsCache.update_fst_iff, not_and_or, Option.getD_some, h.generation,
      (h.captures c (List.mem_of_getElem? hc)).generation]
    refine or_congr Iff.rfl ?_
    simp only [not_forall, not_le]
    constructor
    · rintro ⟨e, he, -, ht⟩
      exact ⟨e, he, ht⟩
    · rintro ⟨e, he, ht⟩
      exact ⟨e, he, (h.entries _ e he).trans (h.generation _), ht⟩
  | _ => exact Iff.rfl

theorem fresh_arrive {s : CacheHistory} (h : Fresh s) {server : ServerId} {count : ℤ} {now : Time}
    {generation : Option ℕ} {captured : ℕ}
    (hfence : (s.cache.updateCachedPeerCount server count now generation).1 = true →
      s.fenced server ≤ captured) : Fresh (s.arrive server count now generation captured) := by
  cases hr : (s.cache.updateCachedPeerCount server count now generation).1 with
  | false =>
    rw [arrive, SlotsCache.update_snd_of_false hr, hr]
    exact h
  | true =>
    rw [arrive, SlotsCache.update_snd_of_true hr, hr]
    intro v hv
    by_cases hvs : v = server
    · subst hvs
      simp only [if_true, Function.update_self]
      exact hfence hr
    · simp only [Function.update_of_ne hvs] at hv
      simp only [if_true, Function.update_of_ne hvs]
      exact h v hv

/-- A call that rejects stale generations keeps the cache fresh. -/
theorem fresh_step {s : CacheHistory} (hk : Kept s) (h : Fresh s) {call : CacheCall}
    (hr : Rejects s call) : Fresh (s.step call) := by
  cases call with
  | invalidateServerCache server =>
    intro v hv
    by_cases hvs : v = server
    · subst hvs
      simp [step, SlotsCache.invalidateServerCache] at hv
    · simp only [step, SlotsCache.invalidateServerCache, Function.update_of_ne hvs] at hv ⊢
      exact h v hv
  | clearSlotsCache => intro v hv; simp [step, SlotsCache.clearSlotsCache] at hv
  | getServerGeneration server => exact h
  | updateCachedPeerCount i count now =>
    rw [step]
    cases hc : s.captures[i]? with
    | none => exact h
    | some c =>
      refine fresh_arrive h fun hok => ?_
      by_contra hstale
      rw [hr c hc (not_le.mp hstale)] at hok
      cases hok
  | updateUnfenced server count now => exact fresh_arrive h fun _ => hk.fenced_le server
  | expire server =>
    intro v hv
    by_cases hvs : v = server
    · subst hvs
      simp [step, SlotsCache.expire] at hv
    · simp only [step, SlotsCache.expire, Function.update_of_ne hvs] at hv
      exact h v hv

/-- For every sequence of calls: stale generations are rejected and stale counts are never read,
    exactly when no stale generation arrives whose counts add up to those of now. -/
theorem fenced_iff (calls : List CacheCall) :
    Lib.Always step Fenced {} calls ↔ Lib.Always step Distinct {} calls := by
  refine Lib.always_iff step (I := Fresh) kept_step
    (fun s call h hs => (rejects_iff h call).mp hs.1) (fun s call h hfresh hd => ?_) calls {}
    kept_start (by intro server h; simp at h)
  have hr := (rejects_iff h call).mpr hd
  have hnext := fresh_step h hfresh hr
  exact ⟨⟨hr, (readsFresh_iff (kept_step s call h)).mpr hnext⟩, hnext⟩

/-- Without a clear nothing stale is accepted: the invalidations of a server only add up. -/
theorem fenced_of_no_clear (calls : List CacheCall) (h : .clearSlotsCache ∉ calls) :
    Lib.Always step Fenced {} calls := by
  refine (fenced_iff calls).mpr ?_
  have hcalls : ∀ call ∈ calls, call ≠ .clearSlotsCache := fun call hc heq => h (heq ▸ hc)
  refine Lib.always_of_inv_of_always step (I := fun s => Kept s ∧ s.clears = 0)
    (fun s call hs hne => ⟨kept_step s call hs.1, ?_⟩) (fun s call hs _ => ?_) calls {}
    ⟨kept_start, rfl⟩ (Lib.always_of_forall step calls {} hcalls)
  · cases call with
    | clearSlotsCache => exact absurd rfl hne
    | updateCachedPeerCount i count now =>
      rw [step]
      cases s.captures[i]? with
      | none => exact hs.2
      | some c => exact hs.2
    | _ => exact hs.2
  · cases call with
    | updateCachedPeerCount i count now =>
      intro c hc hstale
      have hcounts := hs.1.captures c (List.mem_of_getElem? hc)
      have hzero := hs.2
      refine .inl ?_
      rcases hcounts.stale hstale with hlt | ⟨heq, hlt⟩
      · omega
      · omega
    | _ => trivial

/-- The generation captured after an invalidation is the one the next clear falls back to. -/
theorem stale_count_accepted :
    ¬ ∀ calls : List CacheCall, Lib.Always step Fenced {} calls := by
  intro h
  have hrun := h [.invalidateServerCache 1, .getServerGeneration 1, .clearSlotsCache,
    .updateCachedPeerCount 0 5 0]
  obtain ⟨-, -, -, ⟨hrejects, -⟩, -⟩ := hrun
  exact absurd (hrejects ⟨1, 1, 1, 0, 1⟩ rfl (by decide)) (by decide)

end CacheHistory

end Just1kBot
