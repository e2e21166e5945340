import Just1kBot.Lib.Lease
import Just1kBot.Orders.Settlement

/-! The access a user has bought, as a lease.

    A standard order is a grant on the lease of its user: `fulfill_order` extends the end of the
    subscription, or starts it anew for a tariff change, and `revoke_order` sets it back. -/

namespace Just1kBot
open Lib.Lease (Grant leaseEnd)

/-- The order buys access: `service_type in ("standard", "awg")`. -/
def Order.IsStandard (o : Order) : Prop := o.serviceType = .standard ∨ o.serviceType = .awg

instance (o : Order) : Decidable o.IsStandard := by unfold Order.IsStandard; infer_instance

theorem days_nonneg (n : ℕ) : 0 ≤ days n := by
  simp only [days, seconds]
  omega

theorem days_eq_zero_iff {n : ℕ} : days n = 0 ↔ n = 0 := by
  simp only [days, seconds]
  omega

/-- What a standard order grants when it is fulfilled at `now`. -/
def Order.grant (o : Order) (now : Time) : Grant Time where
  time := now
  length := days o.durationDays
  restarts := o.metadata.isTariffChange
  nonneg := days_nonneg o.durationDays

theorem grantStandard_subscriptionEnd (now : Time) (o : Order) (user : User) :
    (grantStandard now o user).subscriptionEnd = (o.grant now).apply user.subscriptionEnd := by
  by_cases h : o.durationDays = 0
  · rw [Grant.apply_of_zero (days_eq_zero_iff.mpr h)]
    simp only [grantStandard, if_pos h]
  · simp only [grantStandard, if_neg h, Grant.apply, Order.grant]
    exact (if_neg (mt days_eq_zero_iff.mp h)).symm

namespace Db

/-- The end of a user's subscription. -/
def subscriptionEnd (db : Db) (u : UserId) : Option Time := (db.user u).bind User.subscriptionEnd

@[simp] theorem user_putOrder (db : Db) (o : Order) (u : UserId) :
    (db.putOrder o).user u = db.user u := rfl

@[simp] theorem user_syncAccessState (db : Db) (now : Time) (user : User) (u : UserId) :
    (db.syncAccessState now user).user u = db.user u := by
  obtain ⟨vless, heq⟩ := db.syncAccessState_eq now user
  rw [heq]
  rfl

theorem user_putUser {db : Db} {u : UserId} {user user' : User} (h : db.user u = some user)
    (hid : user'.id = user.id) : (db.putUser user').user u = some user' :=
  Lib.Table.lookup_put_self User.id h (hid.trans (Lib.Table.key_of_lookup User.id h))

end Db

variable (wi : WhiteInternetApi) {db db' : Db} (now : Time) {o : Order} {user : User}

/-- A standard order is delivered by a grant to its user, whose state before it keeps. -/
theorem fulfillOrder_standard (hstd : o.IsStandard) (hu : db.user o.userId = some user) :
    ∃ db',
      fulfillOrder wi db now o = .ok ({ o with metadata := previousState user o.metadata }, db')
      ∧ db'.user o.userId = some (grantStandard now o user) := by
  have hdel : deliver wi db now o user = .ok ({ o with metadata := previousState user o.metadata },
      (db.putUser (grantStandard now o user)).syncAccessState now (grantStandard now o user)) := by
    rcases hstd with h | h
    · simp only [deliver, h]
    · simp only [deliver, h]
  simp only [fulfillOrder, hu, hdel]
  exact ⟨_, rfl, (Db.user_syncAccessState _ now _ o.userId).trans (Db.user_putUser hu rfl)⟩

/-- `revoke_order` of a standard order. -/
theorem revokeOrder_standard (hstd : o.IsStandard) (hu : db.user o.userId = some user) :
    (revokeOrder db now o).user o.userId = some (revokeStandard now o user) := by
  have hid : (revokeStandard now o user).id = user.id := by
    simp only [revokeStandard]
    split
    · rfl
    · split
      · rfl
      · split <;> rfl
  rcases hstd with h | h
  · simp only [revokeOrder, hu, h, Db.user_syncAccessState]
    exact Db.user_putUser hu hid
  · simp only [revokeOrder, hu, h, Db.user_syncAccessState]
    exact Db.user_putUser hu hid

/-- Orders fulfilled one after another, each at its time. -/
def fulfillAll : Db → List (Time × Order) → Except Err Db
  | db, [] => .ok db
  | db, (now, o) :: rest => do
    let (_, db) ← fulfillOrder wi db now o
    fulfillAll db rest

/-- What the orders grant, one after another. -/
def grants (orders : List (Time × Order)) : List (Grant Time) := orders.map fun o => o.2.grant o.1

/-- Standard orders of one user move the end of its subscription as their grants do. -/
theorem fulfillAll_subscriptionEnd {u : UserId} (orders : List (Time × Order))
    (h : ∀ o ∈ orders, o.2.userId = u ∧ o.2.IsStandard) (hu : db.user u = some user) :
    ∃ db' user', fulfillAll wi db orders = .ok db' ∧ db'.user u = some user' ∧
      user'.subscriptionEnd = leaseEnd user.subscriptionEnd (grants orders) := by
  induction orders generalizing db user with
  | nil => exact ⟨db, user, rfl, hu, rfl⟩
  | cons o rest ih =>
    obtain ⟨huser, hstd⟩ := h o List.mem_cons_self
    obtain ⟨db₁, hful, hu₁⟩ := fulfillOrder_standard wi o.1 hstd (huser ▸ hu)
    obtain ⟨db', user', hall, hu', hend⟩ :=
      ih (fun o ho => h o (List.mem_cons_of_mem _ ho)) (huser ▸ hu₁)
    refine ⟨db', user', ?_, hu', ?_⟩
    · simp only [fulfillAll, hful]
      exact hall
    · rw [hend, grantStandard_subscriptionEnd]
      rfl

/-! ### Settling a standard order -/

variable {now}

/-- A bonus is a posting: nothing but the ledger changes. -/
theorem Db.grantReferralBonusForTopup_users {u : UserId} {p : Option PaymentId}
    {order : Option OrderId} {amount : ℚ} {r : ReferralBonusGrantResult}
    (h : db.grantReferralBonusForTopup now u p order amount = .ok (r, db')) :
    db'.users = db.users := by
  rcases Db.grantReferralBonusForTopup_ok h with rfl | ⟨_, _, _, -, -, -, rfl⟩
  · rfl
  · rfl

theorem grantBonus_access {o' : Order} (h : grantBonus db now o = .ok (o', db')) :
    db'.users = db.users ∧ SameOrder o o' ∧ ∀ t, o'.grant t = o.grant t := by
  have hsame := (grantBonus_effects h).2.2.1
  simp only [grantBonus] at h
  split_ifs at h
  · obtain ⟨⟨g, db₁⟩, hg, h⟩ := Lib.bind_ok h
    have hu := Db.grantReferralBonusForTopup_users hg
    simp only at h
    split at h
    · cases h
      exact ⟨hu, hsame, fun _ => rfl⟩
    · cases h
      exact ⟨hu, hsame, fun _ => rfl⟩
  · cases h
    exact ⟨rfl, hsame, fun _ => rfl⟩

/-- Settling a standard order grants its access, whatever it books besides. -/
theorem settleBenefits_access {o' : Order} (hstd : o.IsStandard) (hpaid : o.status = .paid)
    (hu : db.user o.userId = some user) (h : settleBenefits wi db now o = .ok (o', db')) :
    db'.subscriptionEnd o.userId = (o.grant now).apply user.subscriptionEnd := by
  obtain ⟨db₁, hcredit, hrest⟩ := Lib.bind_ok h
  have htopup : (markNotifyPending o).serviceType ≠ .topup := by
    rcases hstd with hs | hs <;> simp [markNotifyPending, hs]
  rw [creditTopup, if_neg htopup] at hcredit
  cases hcredit
  obtain ⟨⟨o₂, db₂⟩, hbonus, hdeliver⟩ := Lib.bind_ok hrest
  obtain ⟨husers, hsame, hgrant⟩ := grantBonus_access hbonus
  have huser : o₂.userId = o.userId := hsame.2.1
  have hstatus : o₂.status ≠ .refunded := by
    rw [hsame.2.2.1, show (markNotifyPending o).status = o.status from rfl, hpaid]
    decide
  have hstd₂ : o₂.IsStandard := by
    rw [Order.IsStandard, hsame.2.2.2.1]
    exact hstd
  have hu₂ : db₂.user o₂.userId = some user := by
    rw [huser]
    simpa [Db.user, husers, Db.putOrder] using hu
  simp only [if_pos hstatus] at hdeliver
  obtain ⟨db₃, hful, hu₃⟩ := fulfillOrder_standard wi now hstd₂ hu₂
  rw [hful] at hdeliver
  cases hdeliver
  rw [Db.subscriptionEnd, ← huser, hu₃, Option.bind_some, grantStandard_subscriptionEnd, hgrant]
  rfl

/-- A pending standard order that a payment settles, and does not hold, grants its access. -/
theorem markOrderPaid_access {o' : Order} {ext : Option String} {amount : Option ℚ}
    (hrow : db.order o.id = some o) (hpending : o.status = .pending) (hstd : o.IsStandard)
    (hu : db.user o.userId = some user)
    (h : markOrderPaid wi db now o.id ext amount = .ok (some o', db')) (hpaid : o'.status = .paid)
    (hheld : o'.metadata.settlementHeld = false) :
    db'.subscriptionEnd o.userId = (o.grant now).apply user.subscriptionEnd := by
  simp only [markOrderPaid, hrow, hpending, payOrder] at h
  rw [if_neg (by simp)] at h
  split at h
  · obtain ⟨db₁, -, h⟩ := Lib.bind_ok h
    cases h
    rw [show (withExternalId ext o).status = o.status from rfl, hpending] at hpaid
    cases hpaid
  · obtain ⟨db₁, hflush, h⟩ := Lib.bind_ok h
    obtain rfl := flushOrder_ok hflush
    simp only [settleFresh] at h
    split at h
    · cases h
      cases hheld
    · obtain ⟨r, hsettle, hr⟩ := Lib.map_ok h
      cases hr
      have hu' : (db.putOrder (paidRow now (withExternalId ext o))).user o.userId = some user := hu
      exact settleBenefits_access wi (o := paidRow now (withExternalId ext o)) hstd rfl hu' hsettle

end Just1kBot
