import Just1kBot.Lib.Decimal
import Just1kBot.Lib.Python
import Just1kBot.Lib.Transition
import Just1kBot.Lib.TtlCache
import Just1kBot.Models

/-! `bot/middlewares/throttling.py` against what it is for.

    An update is dropped when its sender was active a moment ago, or called the same action just
    before. The middleware keeps two caches of keys for this, which are bounded and forget; as long
    as they are large enough for the updates of their time, they drop what a full record of the
    updates would drop, and nothing else. -/

namespace Just1kBot
open Lib.Decimal (field_inj nat_inj not_mem_nat)
open Lib.Python (isSpace)
open Lib (TtlCache.keys TtlCache.put TtlCache.Recalls TtlCache.countAlive)

def throttleCacheSize : ℕ := 20000

/-- `_DEFAULT_TTL`. -/
def throttleTtl : ℤ := seconds 2

/-- `_GLOBAL_THROTTLE_TTL`, which is 0.3 seconds. -/
def globalThrottleTtl : ℤ := 300000

inductive UpdateKind
  | callback | message
  deriving DecidableEq, Repr

/-- An update, with the id of its sender, the data of the callback or the text of the message, and
    the time of the clock. -/
structure BotUpdate where
  userId : Option ℕ
  kind : UpdateKind
  body : Option String := none
  time : Time
  deriving DecidableEq, Repr

namespace BotUpdate

/-- The sender; `if not user_id` finds none in an id of zero. -/
def sender (v : BotUpdate) : Option ℕ := v.userId.filter (· ≠ 0)

/-- `event.text.split()[0]`, or nothing. -/
def firstWord (text : String) : String :=
  String.ofList ((text.toList.dropWhile isSpace).takeWhile fun c => !isSpace c)

/-- `action_key`: the callback data up to a colon, or the first word of the text. -/
def actionKey (v : BotUpdate) : Option String :=
  match v.kind with
  | .callback => some ("cb:" ++ String.ofList ((v.body.getD "").toList.takeWhile (· ≠ ':')))
  | .message => (v.body.filter (· ≠ "")).map fun text => "msg:" ++ firstWord text

end BotUpdate

def globalKey (kind : UpdateKind) (userId : ℕ) : String :=
  match kind with
  | .callback => "global_cb:" ++ toString userId
  | .message => "global_msg:" ++ toString userId

def callKey (userId : ℕ) (actionKey : String) : String :=
  toString userId ++ ":" ++ actionKey

/-- The caches of the middleware. `admitted` are the updates that passed the first of them, and
    `handled` those that went on to the handler. -/
structure ThrottleState where
  now : Time := 0
  globalThrottle : List (String × Time) := []
  lastCall : List (String × Time) := []
  admitted : List BotUpdate := []
  handled : List BotUpdate := []

namespace ThrottleState

def handle (s : ThrottleState) (v : BotUpdate) : ThrottleState :=
  { s with handled := s.handled ++ [v] }

/-- The update is entered into the first cache. -/
def letThrough (s : ThrottleState) (v : BotUpdate) (u : ℕ) : ThrottleState :=
  { s with
    globalThrottle := TtlCache.put throttleCacheSize globalThrottleTtl v.time (globalKey v.kind u)
      s.globalThrottle
    admitted := s.admitted ++ [v] }

/-- The second cache, for an update that the first one let through. -/
def call (s : ThrottleState) (v : BotUpdate) (u : ℕ) : ThrottleState :=
  match v.actionKey with
  | none => s.handle v
  | some a =>
    if callKey u a ∈ TtlCache.keys throttleTtl v.time s.lastCall then s
    else
      { s.handle v with
        lastCall := TtlCache.put throttleCacheSize throttleTtl v.time (callKey u a) s.lastCall }

/-- `ThrottlingMiddleware.__call__`. -/
def step (s : ThrottleState) (v : BotUpdate) : ThrottleState :=
  let s := { s with now := v.time }
  match v.sender with
  | none => s.handle v
  | some u =>
    if globalKey v.kind u ∈ TtlCache.keys globalThrottleTtl v.time s.globalThrottle then s
    else (s.letThrough v u).call v u

/-! ### What the middleware is for -/

/-- The update goes on to the handler. -/
def Handles (s : ThrottleState) (v : BotUpdate) : Prop := (s.step v).handled = s.handled ++ [v]

/-- The sender had no update of the kind admitted a moment ago, and none of the same action handled
    just before. -/
def Unhurried (s : ThrottleState) (v : BotUpdate) : Prop :=
  (∀ w ∈ s.admitted, w.sender = v.sender → w.kind = v.kind → w.time + globalThrottleTtl ≤ v.time) ∧
    ∀ w ∈ s.handled, w.sender = v.sender → v.actionKey.isSome → w.actionKey = v.actionKey →
      w.time + throttleTtl ≤ v.time

/-- The updates of the last moment fit into the caches. -/
def Roomy (s : ThrottleState) (v : BotUpdate) : Prop :=
  s.admitted.countP (fun w => v.time < w.time + globalThrottleTtl) < throttleCacheSize ∧
    s.handled.countP (fun w => v.time < w.time + throttleTtl) < throttleCacheSize

instance (s : ThrottleState) (v : BotUpdate) : Decidable (s.Roomy v) := by
  unfold Roomy; infer_instance

end ThrottleState

/-! ### The keys -/

theorem globalKey_inj {k k' : UpdateKind} {u u' : ℕ} :
    globalKey k u = globalKey k' u' ↔ k = k' ∧ u = u' := by
  constructor
  · intro h
    have hchars := congrArg String.toList h
    cases k with
    | callback =>
      cases k' with
      | callback => exact ⟨rfl, nat_inj (by simpa [globalKey] using hchars)⟩
      | message => simp [globalKey] at hchars
    | message =>
      cases k' with
      | callback => simp [globalKey] at hchars
      | message => exact ⟨rfl, nat_inj (by simpa [globalKey] using hchars)⟩
  · rintro ⟨rfl, rfl⟩
    rfl

theorem callKey_inj {u u' : ℕ} {a a' : String} :
    callKey u a = callKey u' a' ↔ u = u' ∧ a = a' := by
  constructor
  · intro h
    have hchars := congrArg String.toList h
    simp only [callKey, String.toList_append, List.append_assoc] at hchars
    -- the id ends at the first colon
    have hcolon (n : ℕ) : ':' ∉ (toString n).toList := not_mem_nat (by decide) n
    obtain ⟨hu, ha⟩ := field_inj (hcolon u) (hcolon u') hchars
    exact ⟨nat_inj hu, String.toList_injective ha⟩
  · rintro ⟨rfl, rfl⟩
    rfl

/-! ### The caches against the updates -/

namespace ThrottleState
variable {s : ThrottleState} {v : BotUpdate} {u : ℕ}

/-- The keys that the admitted updates set, with their times. -/
def globalHistory (s : ThrottleState) : List (String × Time) :=
  s.admitted.filterMap fun w => w.sender.map fun u => (globalKey w.kind u, w.time)

/-- The keys that the handled updates set. -/
def callHistory (s : ThrottleState) : List (String × Time) :=
  s.handled.filterMap fun w => w.sender.bind fun u => w.actionKey.map fun a => (callKey u a, w.time)

/-- Both caches recall the updates. -/
structure Faithful (s : ThrottleState) : Prop where
  global : TtlCache.Recalls globalThrottleTtl s.now s.globalThrottle s.globalHistory
  call : TtlCache.Recalls throttleTtl s.now s.lastCall s.callHistory

theorem Roomy.global (h : s.Roomy v) :
    TtlCache.countAlive globalThrottleTtl v.time s.globalHistory < throttleCacheSize := by
  refine lt_of_le_of_lt ?_ h.1
  rw [TtlCache.countAlive, globalHistory, List.countP_filterMap]
  refine List.countP_mono_left fun w _ hw => ?_
  cases hsender : w.sender with
  | none => simp [hsender] at hw
  | some u => simpa [hsender] using hw

theorem Roomy.call (h : s.Roomy v) :
    TtlCache.countAlive throttleTtl v.time s.callHistory < throttleCacheSize := by
  refine lt_of_le_of_lt ?_ h.2
  rw [TtlCache.countAlive, callHistory, List.countP_filterMap]
  refine List.countP_mono_left fun w _ hw => ?_
  cases hsender : w.sender with
  | none => simp [hsender] at hw
  | some u =>
    cases haction : w.actionKey with
    | none => simp [hsender, haction] at hw
    | some a => simpa [hsender, haction] using hw

/-- The first cache does not have the key of an update exactly where its sender was not active a
    moment ago. -/
theorem not_mem_global_iff (hsender : v.sender = some u)
    (h : TtlCache.Recalls globalThrottleTtl v.time s.globalThrottle s.globalHistory) :
    globalKey v.kind u ∉ TtlCache.keys globalThrottleTtl v.time s.globalThrottle ↔
      ∀ w ∈ s.admitted, w.sender = v.sender → w.kind = v.kind →
        w.time + globalThrottleTtl ≤ v.time := by
  rw [h.mem_keys_iff]
  simp only [globalHistory, List.mem_filterMap, Option.map_eq_some_iff, Prod.mk.injEq]
  constructor
  · intro hnot w hw hsame hkind
    by_contra hlive
    exact hnot ⟨w.time, ⟨w, hw, u, hsame.trans hsender, by rw [hkind], rfl⟩, not_le.mp hlive⟩
  · rintro hold ⟨t, ⟨w, hw, u', hu', hkey, rfl⟩, hlive⟩
    obtain ⟨hkind, rfl⟩ := globalKey_inj.mp hkey
    exact absurd (hold w hw (hu'.trans hsender.symm) hkind) (not_le.mpr hlive)

/-- The second cache does not have it exactly where its sender did not call the action just
    before. -/
theorem not_mem_call_iff {a : String} (hsender : v.sender = some u) (haction : v.actionKey = some a)
    (h : TtlCache.Recalls throttleTtl v.time s.lastCall s.callHistory) :
    callKey u a ∉ TtlCache.keys throttleTtl v.time s.lastCall ↔
      ∀ w ∈ s.handled, w.sender = v.sender → w.actionKey = v.actionKey →
        w.time + throttleTtl ≤ v.time := by
  rw [h.mem_keys_iff]
  simp only [callHistory, List.mem_filterMap, Option.bind_eq_some_iff, Option.map_eq_some_iff,
    Prod.mk.injEq]
  constructor
  · intro hnot w hw hsame hsameAction
    by_contra hlive
    exact hnot ⟨w.time, ⟨w, hw, u, hsame.trans hsender, a, hsameAction.trans haction, rfl, rfl⟩,
      not_le.mp hlive⟩
  · rintro hold ⟨t, ⟨w, hw, u', hu', a', ha', hkey, rfl⟩, hlive⟩
    obtain ⟨rfl, rfl⟩ := callKey_inj.mp hkey
    exact absurd (hold w hw (hu'.trans hsender.symm) (ha'.trans haction.symm)) (not_le.mpr hlive)

/-- The second cache, for an update that the first one let through: it is handled exactly where its
    sender did not call the action just before, and the cache recalls it. -/
theorem call_spec {t : ThrottleState} (hsender : v.sender = some u)
    (hcall : TtlCache.Recalls throttleTtl v.time t.lastCall t.callHistory)
    (hroom : TtlCache.countAlive throttleTtl v.time t.callHistory < throttleCacheSize) :
    TtlCache.Recalls throttleTtl v.time (t.call v u).lastCall (t.call v u).callHistory ∧
      ((t.call v u).handled = t.handled ++ [v] ↔
        ∀ w ∈ t.handled, w.sender = v.sender → v.actionKey.isSome → w.actionKey = v.actionKey →
          w.time + throttleTtl ≤ v.time) := by
  rw [ThrottleState.call]
  cases haction : v.actionKey with
  | none =>
    have hhistory : (t.handle v).callHistory = t.callHistory := by
      simp [handle, callHistory, haction]
    refine ⟨hhistory.symm ▸ hcall, iff_of_true rfl ?_⟩
    intro w _ _ hsome
    cases hsome
  | some a =>
    dsimp only
    have hiff := not_mem_call_iff hsender haction hcall
    rw [haction] at hiff
    by_cases hmem : callKey u a ∈ TtlCache.keys throttleTtl v.time t.lastCall
    · rw [if_pos hmem]
      refine ⟨hcall, iff_of_false (by simp) fun hold => ?_⟩
      exact hiff.mpr (fun w hw hsame => hold w hw hsame rfl) hmem
    · rw [if_neg hmem]
      refine ⟨?_, iff_of_true rfl fun w hw hsame _ => hiff.mp hmem w hw hsame⟩
      have hput := hcall.put hmem hroom
      simpa [handle, callHistory, hsender, haction] using hput

/-- The second cache leaves the first alone. -/
theorem call_frame (t : ThrottleState) (v : BotUpdate) (u : ℕ) :
    (t.call v u).now = t.now ∧ (t.call v u).globalThrottle = t.globalThrottle ∧
      (t.call v u).admitted = t.admitted := by
  rw [ThrottleState.call]
  cases v.actionKey with
  | none => exact ⟨rfl, rfl, rfl⟩
  | some a =>
    dsimp only
    split_ifs
    · exact ⟨rfl, rfl, rfl⟩
    · exact ⟨rfl, rfl, rfl⟩

/-- The record does what the caches do: an update is handled exactly where its sender is unhurried,
    and the caches recall it. -/
theorem step_spec (hf : s.Faithful) (hnow : s.now ≤ v.time) (hroom : s.Roomy v) :
    (s.step v).Faithful ∧ (s.Handles v ↔ v.sender = none ∨ s.Unhurried v) := by
  have hglobal := hf.global.later hnow
  have hcall := hf.call.later hnow
  rw [Handles, step]
  dsimp only
  cases hsender : v.sender with
  | none =>
    refine ⟨⟨hglobal, ?_⟩, iff_of_true rfl (.inl rfl)⟩
    simpa [handle, callHistory, hsender] using hcall
  | some u =>
    dsimp only
    have hiff := not_mem_global_iff hsender hglobal
    by_cases hmem : globalKey v.kind u ∈ TtlCache.keys globalThrottleTtl v.time s.globalThrottle
    · rw [if_pos hmem]
      refine ⟨⟨hglobal, hcall⟩, iff_of_false (by simp) ?_⟩
      rintro (hnone | hunhurried)
      · cases hnone
      · exact hiff.mpr hunhurried.1 hmem
    · rw [if_neg hmem]
      obtain ⟨hrecalls, hhandled⟩ := call_spec (t := ({ s with now := v.time }).letThrough v u) hsender
        hcall hroom.call
      obtain ⟨hclock, hcache, hadmitted⟩ := call_frame (({ s with now := v.time }).letThrough v u) v u
      refine ⟨⟨?_, ?_⟩, ?_⟩
      · rw [hclock, hcache, globalHistory, hadmitted]
        have hput := hglobal.put hmem hroom.global
        simpa [letThrough, globalHistory, hsender] using hput
      · rw [hclock]
        exact hrecalls
      · rw [or_iff_right (by simp), Unhurried, and_iff_right (hiff.mp hmem)]
        exact hhandled

/-- In every run from empty caches, an update goes on to its handler exactly where its sender had no
    update of the kind admitted in the last 0.3 seconds and none of the same action handled in the
    last two, as long as the updates of these times fit into the caches. -/
theorem handles_iff_unhurried (vs : List BotUpdate)
    (h : Lib.Always step (fun s v => s.now ≤ v.time ∧ s.Roomy v) {} vs) :
    Lib.Always step (fun s v => s.Handles v ↔ v.sender = none ∨ s.Unhurried v) {} vs :=
  Lib.always_of_inv_of_always step (I := Faithful)
    (fun _ _ hf hv => (step_spec hf hv.1 hv.2).1) (fun _ _ hf hv => (step_spec hf hv.1 hv.2).2) vs {}
    ⟨⟨List.nil_sublist _, by simp [globalHistory]⟩, ⟨List.nil_sublist _, by simp [callHistory]⟩⟩ h

/-- Two clicks on one button, half a second apart. -/
theorem handles_iff_unhurried_clicks :
    Lib.Always step (fun s v => s.Handles v ↔ v.sender = none ∨ s.Unhurried v) {}
      [{ userId := some 7, kind := .callback, body := some "order_check:1", time := seconds 1 },
        { userId := some 7, kind := .callback, body := some "order_check:2", time := 1500000 }] :=
  handles_iff_unhurried _ (by decide)

end ThrottleState

end Just1kBot
