import Just1kBot.Lib.Decimal
import Just1kBot.Lib.Once
import Just1kBot.Users.Referrals
import Just1kBot.WhiteInternet.Quota

/-! The buttons of an admin that must not be pressed twice: `admin_balance_preset`,
    `admin_wi_traffic_add` and `admin_wi_apply_extend`, with `check_and_record_admin_op` of
    `database/repositories/idempotency_repo.py` and the clean-up of its table.

    A click writes the key of its button in the transaction of the operation. The key names the
    admin, the user, the message and the value, so a second click on the button waits for the first
    one and finds the key, until the clean-up drops it after a week. -/

namespace Just1kBot

/-! ### The handlers -/

/-- A button, with the values of its `callback.data`. -/
inductive AdminButton
  | balancePreset (amount : ℤ)
  | wiTrafficAdd (gb : ℕ)
  | wiExtend (days : ℤ) (actionToken : String)
  deriving DecidableEq, Repr

namespace AdminButton

def action : AdminButton → String
  | .balancePreset _ => "balance_adjust"
  | .wiTrafficAdd _ => "wi_traffic_add"
  | .wiExtend .. => "wi_extend"

/-- The `value` of the key. -/
def value : AdminButton → String
  | .balancePreset amount => toString amount
  | .wiTrafficAdd gb => toString gb
  | .wiExtend days actionToken =>
    if actionToken = "" then toString days else toString days ++ ":" ++ actionToken

end AdminButton

/-- A click: who pressed which button of which message, and for whom. `uuid` is what a preset draws
    for its ledger entry. -/
structure AdminClick where
  fromUser : TelegramId
  telegramId : TelegramId
  chatId : ℤ
  messageId : ℤ
  button : AdminButton
  uuid : String := ""
  deriving DecidableEq, Repr

/-- What a handler works with once it has found the user, and the subscription if it needs one. -/
structure AdminOp where
  adminId : TelegramId
  userId : UserId
  chatId : ℤ
  messageId : ℤ
  button : AdminButton
  subscriptionId : Option ℕ := none
  uuid : String := ""
  deriving DecidableEq, Repr

def allowedPresets : List ℤ := [100, 300, 500, 1000]

/-- The checks of a handler before it writes the key. -/
def AdminClick.receive (adminIds : List TelegramId) (c : AdminClick) (db : Db) : Option AdminOp := do
  guard (c.fromUser ∈ adminIds)
  let op (user : User) : AdminOp :=
    ⟨c.fromUser, user.id, c.chatId, c.messageId, c.button, none, c.uuid⟩
  match c.button with
  | .balancePreset amount =>
    guard (amount ∈ allowedPresets)
    let user ← db.getUserByTelegramId c.telegramId
    return op user
  | .wiTrafficAdd _ =>
    let user ← db.getUserByTelegramId c.telegramId
    let sub ← db.whiteInternet.subscriptionByUserId user.id
    guard (sub.isTrial = false)
    return { op user with subscriptionId := some sub.id }
  | .wiExtend days _ =>
    guard (1 ≤ days ∧ days ≤ permanentSubscriptionDays)
    let user ← db.getUserByTelegramId c.telegramId
    guard (user.isBanned = false)
    let sub ← db.whiteInternet.subscriptionByUserId user.id
    guard (sub.isTrial = false)
    return op user

namespace AdminOp

/-- The text that `make_admin_op_key` hashes. -/
def rawKey (op : AdminOp) : String :=
  s!"v1|{op.button.action}|{op.adminId}|{op.userId}|" ++
    s!"{op.chatId}|{op.messageId}|{op.button.value}"

/-- The operation in its transaction. A refused preset and refused traffic are rolled back by the
    handler, a refused extension by `extend_subscription`, which however only answers where it finds
    no subscription, or a trial. -/
def perform (now : Time) (op : AdminOp) (db : Db) : Lib.Once.Outcome Db :=
  match op.button with
  | .balancePreset amount =>
    match db.createAdminAdjustment now op.userId (.decimal amount)
        (.caller ("admin_adj:" ++ op.uuid)) {} with
    | .ok (_, db') => .done db'
    | .error _ => .undone
  | .wiTrafficAdd gb =>
    match op.subscriptionId.bind db.whiteInternet.subscription with
    | none => .undone
    | some sub =>
      match sub.addExtraTraffic (gb * 1024 * 1024 * 1024) with
      | .ok sub' => .done { db with whiteInternet := db.whiteInternet.putSubscription sub' }
      | .error _ => .undone
  | .wiExtend days _ =>
    match db.whiteInternet.subscriptionByUserId op.userId with
    | none => .spent
    | some sub =>
      if sub.isTrial then .spent
      else
        match sub.extend days now with
        | .ok sub' => .done { db with whiteInternet := db.whiteInternet.putSubscription sub' }
        | .error _ => .undone

/-- The same admin pressed the same button of the same message for the same user. -/
structure SameButton (a b : AdminOp) : Prop where
  adminId : a.adminId = b.adminId
  userId : a.userId = b.userId
  chatId : a.chatId = b.chatId
  messageId : a.messageId = b.messageId
  button : a.button = b.button

end AdminOp

/-- The handlers, with the hash of the keys and the time that `_cleanup_old_records` keeps them. -/
def adminClicks (sha256 : String → String) (adminIds : List TelegramId) :
    Lib.Once.Machine AdminClick String AdminOp Db where
  receive := AdminClick.receive adminIds
  key op := sha256 op.rawKey
  perform := AdminOp.perform
  retention := days 7

/-! ### The keys -/

open Lib.Decimal

/-- The value of the key tells the values of a button. -/
theorem AdminButton.value_inj {a b : AdminButton} (haction : a.action = b.action)
    (hvalue : a.value = b.value) : a = b := by
  -- the days end at the first colon
  have hcolon (d : ℤ) : ':' ∉ (toString d).toList := not_mem_int (by decide) (by decide) d
  have hlong (d d' : ℤ) (k : String) : toString d ≠ toString d' ++ ":" ++ k := by
    intro heq
    refine hcolon d ?_
    rw [heq]
    simp
  cases a with
  | balancePreset m =>
    cases b with
    | balancePreset n => rw [int_inj (congrArg String.toList hvalue)]
    | _ =>
      simp only [action] at haction
      exact absurd haction (by decide)
  | wiTrafficAdd m =>
    cases b with
    | wiTrafficAdd n => rw [nat_inj (congrArg String.toList hvalue)]
    | _ =>
      simp only [action] at haction
      exact absurd haction (by decide)
  | wiExtend d k =>
    cases b with
    | wiExtend d' k' =>
      simp only [value] at hvalue
      split_ifs at hvalue with hk hk' hk'
      · rw [int_inj (congrArg String.toList hvalue), hk, hk']
      · exact absurd hvalue (hlong d d' k')
      · exact absurd hvalue.symm (hlong d' d k)
      · have hchars := congrArg String.toList hvalue
        simp only [String.toList_append, List.append_assoc] at hchars
        obtain ⟨hd, hrest⟩ := field_inj (hcolon d) (hcolon d') hchars
        rw [int_inj hd, String.toList_injective hrest]
    | _ =>
      simp only [action] at haction
      exact absurd haction (by decide)

/-- The hashed texts of two clicks are the same only for the same button. -/
theorem AdminOp.rawKey_inj {a b : AdminOp} (h : a.rawKey = b.rawKey) : a.SameButton b := by
  have haction (x : AdminButton) : '|' ∉ x.action.toList := by
    cases x with
    | _ =>
      simp only [AdminButton.action]
      decide
  have hint (n : ℤ) : '|' ∉ (toString n).toList := not_mem_int (by decide) (by decide) n
  have hnat (n : ℕ) : '|' ∉ (toString n).toList := not_mem_nat (by decide) n
  have hraw (op : AdminOp) : op.rawKey = s!"v1|{op.button.action}|{op.adminId}|{op.userId}|" ++
      s!"{op.chatId}|{op.messageId}|{op.button.value}" := rfl
  have hchars := congrArg String.toList h
  simp only [hraw, String.toList_append, List.append_assoc] at hchars
  have hchars := List.append_cancel_left hchars
  obtain ⟨hact, hchars⟩ := field_inj (haction _) (haction _) hchars
  obtain ⟨hadmin, hchars⟩ := field_inj (hint _) (hint _) hchars
  obtain ⟨huser, hchars⟩ := field_inj (hnat _) (hnat _) hchars
  obtain ⟨hchat, hchars⟩ := field_inj (hint _) (hint _) hchars
  obtain ⟨hmessage, hvalue⟩ := field_inj (hint _) (hint _) hchars
  exact ⟨int_inj hadmin, nat_inj huser, int_inj hchat, int_inj hmessage,
    AdminButton.value_inj (String.toList_injective hact) (String.toList_injective hvalue)⟩

theorem AdminOp.SameButton.rawKey_eq {a b : AdminOp} (h : a.SameButton b) :
    a.rawKey = b.rawKey := by
  cases a
  cases b
  obtain ⟨rfl, rfl, rfl, rfl, rfl⟩ := h
  rfl

/-! ### A run -/

/-- However often a button is pressed, by however many clicks at a time, and whenever their
    transactions die: what it does is not done again for a week. A click is turned away only where
    another one on the button was there before, or its key has the same hash by accident. -/
theorem AdminOp.once_of_run (sha256 : String → String) (adminIds : List TelegramId) (db : Db)
    (es : List (Lib.Once.Event AdminClick Db)) :
    ((Lib.run (Lib.Once.State.step (adminClicks sha256 adminIds))
        { store := db } es).effects.Pairwise fun e f =>
      e.op.SameButton f.op → e.began + days 7 < f.committed) ∧
    Lib.Always (Lib.Once.State.step (adminClicks sha256 adminIds))
      (fun s e => ∀ a, s.TurnsAway (adminClicks sha256 adminIds) e a →
        ∃ f ∈ s.effects ++ s.spent, f.op.SameButton a.op ∨
          f.op.rawKey ≠ a.op.rawKey ∧ sha256 f.op.rawKey = sha256 a.op.rawKey)
      { store := db } es := by
  refine ⟨?_, ?_⟩
  · refine (Lib.Once.State.spaced_of_run (adminClicks sha256 adminIds) db es).imp ?_
    intro e f hspaced hsame
    exact hspaced (congrArg sha256 hsame.rawKey_eq)
  · refine Lib.always_of_inv _ (I := Lib.Once.State.Valid (adminClicks sha256 adminIds))
      (fun _ e h => h.step e) (fun s e h a haway => ?_) es _ (Lib.Once.State.valid_start _ db)
    obtain ⟨f, hf, hkey⟩ := h.turnsAway haway
    refine ⟨f, hf, ?_⟩
    by_cases hraw : f.op.rawKey = a.op.rawKey
    · exact .inl (AdminOp.rawKey_inj hraw)
    · exact .inr ⟨hraw, hkey⟩

end Just1kBot
