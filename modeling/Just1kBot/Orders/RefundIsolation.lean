import Just1kBot.Orders.Access
import Just1kBot.Orders.Refund

/-! What the refund of an order leaves of the orders settled after it.

    `revoke_order` takes back a tariff change by restoring the end it found, and any other standard
    order by subtracting its days, from an end that later orders have moved in the meantime. The
    first forgets every day bought since; the second forgets the time that passed before a later
    order, and all of it when less is left than the order had given. -/

namespace Just1kBot
open Lib.Lease (Grant leaseEnd booked Extends EndsBy InTime leaseEnd_le_iff leaseEnd_of_inTime
  leaseEnd_of_not_extends lt_leaseEnd_of_not_inTime)

variable (wi : WhiteInternetApi)

/-- The end of the subscription when the later orders are settled, and `a` never was. -/
def endWithout (db : Db) (a : Order) (later : List (Time × Order)) : Except Err (Option Time) :=
  (fulfillAll wi db later).map fun db => db.subscriptionEnd a.userId

/-- The end of the subscription when `a` is settled, then the later orders, and `a` is refunded. -/
def endAfterRefund (db : Db) (settled : Time) (a : Order) (later : List (Time × Order))
    (refunded : Time) : Except Err (Option Time) := do
  let (a, db) ← fulfillOrder wi db settled a
  let db ← fulfillAll wi db later
  return (revokeOrder db refunded a).subscriptionEnd a.userId

/-- The refund of `a` leaves what the later orders bought. -/
def RefundIsolated (db : Db) (settled : Time) (a : Order) (later : List (Time × Order))
    (refunded : Time) : Prop :=
  ∀ e₀, endWithout wi db a later = .ok (some e₀) →
    ∃ e, endAfterRefund wi db settled a later refunded = .ok (some e) ∧ e₀ ≤ e

/-- Standard orders of one user: `a`, and those settled after it. -/
structure StandardOrders (db : Db) (user : User) (a : Order) (later : List (Time × Order)) :
    Prop where
  found : db.user a.userId = some user
  standard : a.IsStandard
  later : ∀ b ∈ later, b.2.userId = a.userId ∧ b.2.IsStandard

/-- The end a refund of `a` restores: what `a` stored of its user, if it changed the tariff. -/
def Order.restoredEnd (a : Order) (user : User) : Option Time :=
  if a.metadata.isTariffChange then user.subscriptionEnd.or a.metadata.previousSubscriptionEnd
  else none

/-- Where the days of `a` begin: at the end it extends, or when it is settled. -/
def grantStart (settled : Time) (user : User) : Time :=
  user.subscriptionEnd.elim settled (max · settled)

/-- When the refund of `a` spares the later orders. -/
def RefundSpares (user : User) (settled : Time) (a : Order) (later : List (Grant Time))
    (refunded : Time) : Prop :=
  match a.restoredEnd user with
  | some prevEnd => EndsBy prevEnd user.subscriptionEnd later
  | none =>
    a.durationDays = 0 ∨
    (Extends later ∧ InTime (grantStart settled user) later ∧
      refunded < grantStart settled user + booked later) ∨
    EndsBy (refunded - hours (vpnAccessGraceHours + 1)) user.subscriptionEnd later

instance (user : User) (settled : Time) (a : Order) (later : List (Grant Time))
    (refunded : Time) : Decidable (RefundSpares user settled a later refunded) := by
  rw [RefundSpares]
  split <;> infer_instance

/-! ### What a refund makes of the end -/

section Revoke
variable (now : Time) {o : Order} (user : User)

theorem revokeStandard_of_restored {prevEnd : Time} (hchange : o.metadata.isTariffChange = true)
    (hprev : o.metadata.previousSubscriptionEnd = some prevEnd) :
    (revokeStandard now o user).subscriptionEnd = some prevEnd := by
  simp only [revokeStandard, hchange, hprev]

/-- Otherwise the days are subtracted, and an end that has passed is set before the grace period. -/
theorem revokeStandard_of_subtracted
    (h : o.metadata.isTariffChange = true → o.metadata.previousSubscriptionEnd = none) :
    (revokeStandard now o user).subscriptionEnd =
      if o.durationDays = 0 then user.subscriptionEnd
      else user.subscriptionEnd.map fun e =>
        if e - days o.durationDays ≤ now then now - hours (vpnAccessGraceHours + 1)
        else e - days o.durationDays := by
  simp only [revokeStandard]
  split
  · rename_i hchange hprev
    rw [h hchange] at hprev
    cases hprev
  · split
    · rename_i hnone
      simp [hnone]
    · rename_i e hsome
      split_ifs <;> simp_all

end Revoke

/-- An end that is later than what was left of it survives only where the cutoff reaches it. -/
theorem le_cutoff_iff {c x r cutoff : ℤ} (hlt : x < c) (hcut : cutoff ≤ r) :
    (c ≤ if x ≤ r then cutoff else x) ↔ c ≤ cutoff := by
  split_ifs with hr
  · rfl
  · omega

/-- Subtracting a grant's length from the end it led to, against never having made the grant. -/
theorem forall_le_subtracted_iff {gs : List (Grant ℤ)} {x : Option ℤ} {k d r cutoff : ℤ}
    (hx : ∀ a ∈ x, a ≤ k) (hd : 0 < d) (hcut : cutoff ≤ r) :
    (∀ c ∈ leaseEnd x gs, ∃ e ∈ (leaseEnd (some (k + d)) gs).map fun f =>
        if f - d ≤ r then cutoff else f - d, c ≤ e) ↔
      (Extends gs ∧ InTime k gs ∧ r < k + booked gs) ∨ EndsBy cutoff x gs := by
  rw [← leaseEnd_le_iff]
  by_cases hext : Extends gs
  · by_cases hin : InTime k gs
    · -- the days add up: the refund leaves `k + booked gs`, and nothing ends later without `a`
      have hle : ∀ c ∈ leaseEnd x gs, c ≤ k + booked gs := by
        rw [leaseEnd_le_iff]
        have hk : EndsBy (k + booked gs) (some k) gs :=
          (leaseEnd_le_iff gs (some k)).mp (by simp [leaseEnd_of_inTime hext hin])
        exact ⟨fun _ a ha => add_le_add_left (hx a ha) (booked gs), hk.2⟩
      have hd' : InTime (k + d) gs := hin.mono (by omega)
      rw [leaseEnd_of_inTime hext hd']
      have hsub : k + d + booked gs - d = k + booked gs := by omega
      simp only [Option.map_some, Option.mem_some_iff, exists_eq_left', hsub]
      by_cases hr : r < k + booked gs
      · rw [if_neg (not_le.mpr hr)]
        exact ⟨fun _ => .inl ⟨hext, hin, hr⟩, fun _ => hle⟩
      · rw [if_pos (not_lt.mp hr)]
        exact ⟨.inr, fun h => h.resolve_left fun h => hr h.2.2⟩
    · -- a late grant: without `a` the lease ends after what the refund leaves
      obtain ⟨c, f, hc, hf, -, hlt⟩ := lt_leaseEnd_of_not_inTime hext hx hd hin
      simp only [hc, hf, Option.map_some, Option.mem_some_iff, forall_eq', exists_eq_left']
      have hnot : ¬ (Extends gs ∧ InTime k gs ∧ r < k + booked gs) := fun h => hin h.2.1
      rw [or_iff_right hnot]
      exact le_cutoff_iff (by omega) hcut
  · -- a restart forgot `a`, whose days are subtracted all the same
    obtain ⟨c, hc⟩ := leaseEnd_of_not_extends hext
    simp only [hc, Option.map_some, Option.mem_some_iff, forall_eq', exists_eq_left']
    rw [or_iff_right fun h => hext h.1]
    exact le_cutoff_iff (by omega) hcut

/-! ### When a refund spares the later orders -/

section Run
variable {db : Db} {user : User} {a : Order} {later : List (Time × Order)}

/-- The end without `a`, and the state in which the refund of `a` finds the user. -/
theorem StandardOrders.ends (h : StandardOrders db user a later) (settled refunded : Time) :
    endWithout wi db a later = .ok (leaseEnd user.subscriptionEnd (grants later)) ∧
      ∃ user' : User,
        user'.subscriptionEnd =
          leaseEnd ((a.grant settled).apply user.subscriptionEnd) (grants later) ∧
        endAfterRefund wi db settled a later refunded = .ok (revokeStandard refunded
          { a with metadata := previousState user a.metadata } user').subscriptionEnd := by
  obtain ⟨db₀, user₀, hall₀, hu₀, hend₀⟩ := fulfillAll_subscriptionEnd wi later h.later h.found
  obtain ⟨db₁, hful, hu₁⟩ := fulfillOrder_standard wi settled h.standard h.found
  obtain ⟨db₂, user₂, hall, hu₂, hend⟩ := fulfillAll_subscriptionEnd wi later h.later hu₁
  rw [grantStandard_subscriptionEnd] at hend
  refine ⟨?_, user₂, hend, ?_⟩
  · rw [endWithout, hall₀, ← hend₀]
    simp [Except.map, Db.subscriptionEnd, hu₀]
  · have hrevoke := revokeOrder_standard refunded
      (o := { a with metadata := previousState user a.metadata }) h.standard hu₂
    simp only [endAfterRefund, hful, Except.bind, bind, hall, Db.subscriptionEnd]
    rw [show (a.userId : UserId) = { a with metadata := previousState user a.metadata }.userId
      from rfl, hrevoke]
    rfl

/-- Unless `a` restores an end, its days are added to the start of its grant. -/
theorem grant_apply_of_restoredEnd {settled : Time} (h : a.restoredEnd user = none)
    (hdays : a.durationDays ≠ 0) :
    (a.grant settled).apply user.subscriptionEnd =
      some (grantStart settled user + days a.durationDays) := by
  have hlen : (a.grant settled).length ≠ 0 := mt days_eq_zero_iff.mp hdays
  by_cases hchange : a.metadata.isTariffChange = true
  · rw [Order.restoredEnd, if_pos hchange, Option.or_eq_none_iff] at h
    rw [Grant.apply_of_restarts hlen hchange, grantStart, h.1]
    rfl
  · rw [Grant.apply_of_extends hlen (by simpa [Order.grant] using hchange)]
    rfl

/-- The refund of an order leaves all that the orders settled after it bought exactly when `a`
    restores an end that they do not outlast, or gave no days, or when its days add up with theirs
    and are still to come, or when their access had ended anyway. -/
theorem refund_isolated_iff (h : StandardOrders db user a later) (settled refunded : Time) :
    RefundIsolated wi db settled a later refunded ↔
      RefundSpares user settled a (grants later) refunded := by
  obtain ⟨hwithout, user', hend, hafter⟩ := h.ends wi settled refunded
  rw [RefundIsolated, hwithout, hafter]
  simp only [Except.ok.injEq, RefundSpares]
  cases hrest : a.restoredEnd user with
  | some prevEnd =>
    have hchange : a.metadata.isTariffChange = true := by
      by_contra hc
      rw [Order.restoredEnd, if_neg hc] at hrest
      cases hrest
    rw [Order.restoredEnd, if_pos hchange] at hrest
    have hrevoke := revokeStandard_of_restored refunded user'
      (o := { a with metadata := previousState user a.metadata }) hchange hrest
    simp only [hrevoke, Option.some.injEq, exists_eq_left', ← leaseEnd_le_iff, Option.mem_def]
  | none =>
    have hprev : a.metadata.isTariffChange = true →
        user.subscriptionEnd.or a.metadata.previousSubscriptionEnd = none := fun hchange => by
      rwa [Order.restoredEnd, if_pos hchange] at hrest
    have hrevoke := revokeStandard_of_subtracted refunded user'
      (o := { a with metadata := previousState user a.metadata }) hprev
    rw [hrevoke, hend]
    by_cases hdays : a.durationDays = 0
    · rw [Grant.apply_of_zero (days_eq_zero_iff.mpr hdays)]
      simp only [hdays, if_true, true_or, iff_true]
      exact fun e₀ he₀ => ⟨e₀, he₀, le_refl e₀⟩
    · rw [grant_apply_of_restoredEnd hrest hdays, or_iff_right hdays]
      simp only [if_neg hdays]
      refine forall_le_subtracted_iff (fun x hx => ?_) ?_ ?_
      · rw [grantStart, Option.mem_def.mp hx]
        exact le_max_left x settled
      · exact lt_of_le_of_ne (days_nonneg _) (Ne.symm (mt days_eq_zero_iff.mp hdays))
      · simp only [hours, seconds, vpnAccessGraceHours]
        omega

end Run

/-! ### A renewal lost with the tariff change before it -/

/-- A user with ten days left changes the tariff for 30 days, and renews it for 90. -/
def changeOrder : Order where
  id := 1
  userId := 1
  tariffId := some 2
  amountRub := 50
  durationDays := 30
  metadata := { operation := some "change", isTariffChange := true }

def renewalOrder : Order where
  id := 2
  userId := 1
  tariffId := some 2
  amountRub := 240
  durationDays := 90
  metadata := { operation := some "renew" }

def changingUser : User where
  id := 1
  telegramId := 1
  subscriptionEnd := some (days 10)
  currentTariffId := some 1

def changedThenRenewed : Db where
  users := [changingUser]
  orders := [changeOrder, renewalOrder]

theorem changedThenRenewed_standard :
    StandardOrders changedThenRenewed changingUser changeOrder [(days 1, renewalOrder)] where
  found := rfl
  standard := .inl rfl
  later := by simp [renewalOrder, changeOrder, Order.IsStandard]

theorem refund_isolated_iff_renewed :
    RefundIsolated closedService changedThenRenewed 0 changeOrder [(days 1, renewalOrder)]
        (days 2) ↔
      RefundSpares changingUser 0 changeOrder (grants [(days 1, renewalOrder)]) (days 2) :=
  refund_isolated_iff closedService changedThenRenewed_standard 0 (days 2)

/-- The 90 days go with the refund of the change, which restores the end of its day. -/
theorem renewal_lost_with_change :
    ¬ ∀ (wi : WhiteInternetApi) (db : Db) (user : User) (settled : Time) (a : Order)
        (later : List (Time × Order)) (refunded : Time), StandardOrders db user a later →
      (settled :: later.map Prod.fst ++ [refunded]).Pairwise (· ≤ ·) →
        RefundIsolated wi db settled a later refunded := by
  intro h
  have hwithout : endWithout closedService changedThenRenewed changeOrder
      [(days 1, renewalOrder)] = .ok (some (days 100)) := rfl
  have hafter : endAfterRefund closedService changedThenRenewed 0 changeOrder
      [(days 1, renewalOrder)] (days 2) = .ok (some (days 10)) := rfl
  obtain ⟨e, he, hle⟩ := h closedService changedThenRenewed changingUser 0 changeOrder
    [(days 1, renewalOrder)] (days 2) changedThenRenewed_standard (by decide) (days 100) hwithout
  obtain rfl : days 10 = e := by simpa [hafter] using he
  exact absurd hle (by decide)

/-- A purchase of 30 days by a new user, renewed after 10 and refunded after 20: the renewal began
    to count on the tenth day without it, and counts from the first after the refund. -/
example : ¬ RefundSpares { id := 1, telegramId := 1 } 0 { id := 1, userId := 1, amountRub := 90
                                                          durationDays := 30 }
    [⟨days 10, days 30, false, by decide⟩] (days 20) := by decide

end Just1kBot
