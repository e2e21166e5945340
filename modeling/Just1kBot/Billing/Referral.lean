import Just1kBot.Billing.Ledger

/-! Referral bonuses: `services/referral_bonus.py`, and the count of active referrals it takes from
    `database/repositories/users_repo.py`.

    A settled order of a referred user credits the referrer with a share that grows with the number
    of referrals that were active before; a refund of the order books what is left of that credit
    back. Both are `admin_adjustment` entries that carry the order in their metadata. -/

namespace Just1kBot
open Lib (sumWhere)
open Lib.Python (roundDown)

def referralBonusSource : String := "referral_bonus"
def referralDefaultRate : ℚ := 15 / 100
def referralActiveMinTopupRub : ℕ := 68
def maxInt64 : ℤ := 2 ^ 63 - 1

structure Tier where
  threshold : ℕ
  rate : ℚ
  name : String
  deriving DecidableEq, Repr

/-- `REFERRAL_TIERS`, by rising threshold. -/
def referralTiers : List Tier :=
  [⟨0, 15 / 100, "Standard"⟩, ⟨3, 20 / 100, "Silver"⟩, ⟨7, 25 / 100, "Gold"⟩,
    ⟨15, 30 / 100, "Platinum"⟩]

structure ReferralTierInfo where
  rate : ℚ
  name : String
  neededForNext : Option ℕ := none
  nextTierName : Option String := none
  nextRate : Option ℚ := none
  deriving DecidableEq, Repr

/-- The loop over the tiers: the last one reached, and the one after it. -/
def tierLoop (count : ℕ) (current : Tier) (next : Option Tier) : List Tier → Tier × Option Tier
  | [] => (current, next)
  | tier :: rest =>
    if tier.threshold ≤ count then tierLoop count tier rest.head? rest else (current, next)

def getReferralTier (activeCount : ℤ) : ReferralTierInfo :=
  let count := (max 0 activeCount).toNat
  let (current, next) := tierLoop count ⟨0, 15 / 100, "Standard"⟩ none referralTiers
  match next with
  | some t =>
    { rate := current.rate, name := current.name, neededForNext := some (t.threshold - count)
      nextTierName := some t.name, nextRate := some t.rate }
  | none => { rate := current.rate, name := current.name }

def calculateReferralBonus (purchaseAmount : ℚ) (rate : Option ℚ := none) : ℤ :=
  if purchaseAmount ≤ 0 then 0 else roundDown (purchaseAmount * rate.getD referralDefaultRate)

/-! ### Active referrals -/

/-- A paid order that activates its user as a referral. -/
def QualifyingOrder (u : UserId) (o : Order) : Prop :=
  o.userId = u ∧ o.status = .paid ∧ referralActiveMinTopupRub ≤ o.amountRub ∧
    (o.serviceType = .topup ∨ o.paymentMethod ≠ .wallet)

/-- A legacy payment that activates its user as a referral. -/
def RealTopup (u : UserId) (p : Payment) : Prop :=
  p.userId = u ∧ p.providerSucceeded = true ∧ p.fulfillmentSucceeded = true ∧
    p.creditedAt.isSome ∧ referralActiveMinTopupRub ≤ p.amount

instance (u : UserId) : DecidablePred (QualifyingOrder u) := fun o => by
  unfold QualifyingOrder; infer_instance

instance (u : UserId) : DecidablePred (RealTopup u) := fun p => by
  unfold RealTopup; infer_instance

namespace Db

/-- `_referral_paid_activity_condition`. -/
def HasPaidActivity (db : Db) (u : UserId) : Prop :=
  (∃ o ∈ db.orders, QualifyingOrder u o) ∨ ∃ p ∈ db.payments, RealTopup u p

instance (db : Db) (u : UserId) : Decidable (db.HasPaidActivity u) := by
  unfold HasPaidActivity; infer_instance

def getUserActiveReferralsCount (db : Db) (t : TelegramId) : ℕ :=
  if t < 1 ∨ maxInt64 < t then 0
  else db.users.countP fun r => r.referredBy = some t ∧ r.isDeleted = false ∧
    db.HasPaidActivity r.id

/-- `_has_other_qualifying_topup`. -/
def HasOtherQualifyingTopup (db : Db) (u : UserId) (excludeOrderId : Option OrderId)
    (excludePaymentId : Option PaymentId) : Prop :=
  (∃ o ∈ db.orders, QualifyingOrder u o ∧ some o.id ≠ excludeOrderId) ∨
    ∃ p ∈ db.payments, RealTopup u p ∧ some p.id ≠ excludePaymentId

instance (db : Db) (u : UserId) (o : Option OrderId) (p : Option PaymentId) :
    Decidable (db.HasOtherQualifyingTopup u o p) := by
  unfold HasOtherQualifyingTopup; infer_instance

end Db

/-! ### Granting -/

structure ReferralBonusGrantResult where
  referrerBonus : ℤ := 0
  purchaserWelcomeBonus : ℤ := 0
  referrerUserId : Option UserId := none
  referrerTelegramId : Option TelegramId := none
  bonusRatePct : ℤ := 15
  tierUpgraded : Bool := false
  newTierName : Option String := none
  newRatePct : Option ℤ := none
  deriving DecidableEq, Repr

/-- `order_id or str(payment_id or "unknown")`. -/
def grantOpId (orderId : Option OrderId) (paymentId : Option PaymentId) : OpId :=
  match orderId, paymentId with
  | some o, _ => .order o
  | none, some p => .payment p
  | none, none => .unknown

/-- Flushing an added row: the unique constraints are checked then. -/
def Ledger.insert (l : Ledger) (now : Time) (v : EntryValues) : Except Err Ledger :=
  if l.Admits v then .ok (l.post now v)
  else .error (.integrityError "account_ledger_entries_idempotency_key_key")

namespace Db

/-- The referrer a purchase of this user pays a bonus to. -/
def bonusReferrer (db : Db) (purchaser : User) : Option User :=
  match purchaser.referredBy with
  | none => none
  | some t =>
    if t = purchaser.telegramId then none
    else
      match db.users.find? fun r => r.telegramId = t ∧ r.isDeleted = false with
      | none => none
      | some referrer =>
        if referrer.isBanned ∨ purchaser.id = referrer.id then none else some referrer

/-- The count of active referrals the rate is taken from: without the purchaser, when it is this
    purchase that activates them. -/
def effectiveCount (db : Db) (purchaser referrer : User) (paymentId : Option PaymentId)
    (orderId : Option OrderId) (topupAmount : ℚ) : ℕ :=
  let activeCount := db.getUserActiveReferralsCount referrer.telegramId
  if ¬ db.HasOtherQualifyingTopup purchaser.id orderId paymentId ∧
      referralActiveMinTopupRub ≤ topupAmount then activeCount - 1
  else activeCount

/-- What a grant that reaches its end reports, `granted` rubles having been booked by it. -/
def grantResult (db : Db) (purchaser referrer : User) (paymentId : Option PaymentId)
    (orderId : Option OrderId) (topupAmount : ℚ) (granted : ℤ) : ReferralBonusGrantResult :=
  let tierInfo := getReferralTier
    (db.effectiveCount purchaser referrer paymentId orderId topupAmount)
  let newTierInfo := getReferralTier (db.getUserActiveReferralsCount referrer.telegramId)
  let upgraded := decide (¬ db.HasOtherQualifyingTopup purchaser.id orderId paymentId ∧
    referralActiveMinTopupRub ≤ topupAmount ∧ tierInfo.rate < newTierInfo.rate)
  { referrerBonus := granted, referrerUserId := referrer.id
    referrerTelegramId := referrer.telegramId, bonusRatePct := roundDown (tierInfo.rate * 100)
    tierUpgraded := upgraded
    newTierName := if upgraded then some newTierInfo.name else none
    newRatePct := if upgraded then some (roundDown (newTierInfo.rate * 100)) else none }

/-- The entry that credits a bonus. -/
def bonusEntry (referrer : User) (paymentId : Option PaymentId) (orderId : Option OrderId)
    (bonus : ℤ) (h : ¬ bonus ≤ 0) : EntryValues where
  userId := referrer.id
  entryType := .adminAdjustment
  amount := bonus
  idempotencyKey := .referralBonus (grantOpId orderId paymentId) referrer.id
  metadata :=
    { sourceType := referralBonusSource, topupPaymentId := paymentId, topupOrderId := orderId }
  shape := ⟨by omega, rfl, rfl, rfl⟩

/-- `grant_referral_bonus_for_topup`. -/
def grantReferralBonusForTopup (db : Db) (now : Time) (purchaserUserId : UserId)
    (paymentId : Option PaymentId) (orderId : Option OrderId) (topupAmount : ℚ) :
    Except Err (ReferralBonusGrantResult × Db) :=
  match db.users.find? fun u => u.id = purchaserUserId ∧ u.isDeleted = false with
  | none => .ok ({}, db)
  | some purchaser =>
    match db.bonusReferrer purchaser with
    | none => .ok ({}, db)
    | some referrer =>
      let tierInfo := getReferralTier
        (db.effectiveCount purchaser referrer paymentId orderId topupAmount)
      let bonus := calculateReferralBonus topupAmount tierInfo.rate
      if h : bonus ≤ 0 then .ok ({}, db)
      else
        let key := IdemKey.referralBonus (grantOpId orderId paymentId) referrer.id
        match db.ledger.entries.find? fun e => e.idempotencyKey = key with
        | some _ => .ok (db.grantResult purchaser referrer paymentId orderId topupAmount 0, db)
        | none => do
          let ledger ← db.ledger.insert now (bonusEntry referrer paymentId orderId bonus h)
          return (db.grantResult purchaser referrer paymentId orderId topupAmount bonus,
            { db with ledger := ledger })

end Db

/-! ### Reversing -/

namespace Ledger

/-- The metadata filter of the reversal: by order when it is given, else by payment. -/
def MatchesTopup (paymentId : Option PaymentId) (orderId : Option OrderId) (m : EntryMeta) : Prop :=
  m.sourceType = some referralBonusSource ∧
    if orderId.isSome then m.topupOrderId = orderId else m.topupPaymentId = paymentId

instance (p : Option PaymentId) (o : Option OrderId) :
    DecidablePred (MatchesTopup p o) := fun m => by
  unfold MatchesTopup; infer_instance

/-- The bonus credits of a top-up. -/
def bonusCredits (l : Ledger) (paymentId : Option PaymentId) (orderId : Option OrderId) :
    List AccountLedgerEntry :=
  l.entries.filter fun e => e.entryType = .adminAdjustment ∧ 0 < e.amount ∧
    MatchesTopup paymentId orderId e.metadata

/-- What was booked back of a credit so far. -/
def alreadyReversed (l : Ledger) (credit : AccountLedgerEntry) : ℤ :=
  sumWhere (fun r => r.userId = credit.userId ∧ r.entryType = .adminAdjustment ∧ r.amount < 0 ∧
    r.metadata.originalCreditId = some credit.id) (fun r => |r.amount|) l.entries

def reversalKey (paymentId : Option PaymentId) (orderId : Option OrderId) (refundId : Option String)
    (u : UserId) : IdemKey :=
  .referralReversal (grantOpId orderId paymentId) u (refundId.filter (· ≠ ""))

/-- The reversal already booked against the user under the key. -/
def findReversal (l : Ledger) (u : UserId) (key : IdemKey) : Option AccountLedgerEntry :=
  l.entries.find? fun e => e.userId = u ∧ e.entryType = .adminAdjustment ∧ e.amount < 0 ∧
    e.idempotencyKey = key

/-- What is left to book back of a credit. -/
def maxCanReverse (l : Ledger) (credit : AccountLedgerEntry) : ℤ :=
  max 0 (credit.amount - l.alreadyReversed credit)

/-- The entry that books back what is left of a credit. -/
def reversalEntry (l : Ledger) (paymentId : Option PaymentId) (orderId : Option OrderId)
    (refundId : Option String) (credit : AccountLedgerEntry)
    (h : ¬ l.maxCanReverse credit ≤ 0) : EntryValues where
  userId := credit.userId
  entryType := .adminAdjustment
  amount := -l.maxCanReverse credit
  idempotencyKey := reversalKey paymentId orderId refundId credit.userId
  metadata :=
    { sourceType := referralBonusSource
      topupPaymentId := paymentId.or credit.metadata.topupPaymentId
      topupOrderId := orderId.or credit.metadata.topupOrderId
      originalCreditId := credit.id }
  shape := ⟨by omega, rfl, rfl, rfl⟩

/-- The loop over the credits of the top-up. -/
def reverseLoop (now : Time) (paymentId : Option PaymentId) (orderId : Option OrderId)
    (refundId : Option String) :
    List AccountLedgerEntry → Ledger → ℤ → Except Err (ℤ × Ledger)
  | [], l, totalReversed => .ok (totalReversed, l)
  | credit :: rest, l, totalReversed =>
    let key := reversalKey paymentId orderId refundId credit.userId
    match l.findReversal credit.userId key with
    | some existing =>
      reverseLoop now paymentId orderId refundId rest l (totalReversed + |existing.amount|)
    | none =>
      if h : l.maxCanReverse credit ≤ 0 then
        reverseLoop now paymentId orderId refundId rest l totalReversed
      else do
        let l' ← l.insert now (l.reversalEntry paymentId orderId refundId credit h)
        reverseLoop now paymentId orderId refundId rest l' (totalReversed + l.maxCanReverse credit)

end Ledger

/-- `reverse_referral_bonus_for_topup`. -/
def Db.reverseReferralBonusForTopup (db : Db) (now : Time) (paymentId : Option PaymentId)
    (orderId : Option OrderId) (refundId : Option String) : Except Err (ℤ × Db) :=
  if paymentId.isNone ∧ orderId.isNone then .ok (0, db)
  else do
    let (totalReversed, ledger) ← Ledger.reverseLoop now paymentId orderId refundId
      (db.ledger.bonusCredits paymentId orderId) db.ledger 0
    return (totalReversed, { db with ledger := ledger })

end Just1kBot
