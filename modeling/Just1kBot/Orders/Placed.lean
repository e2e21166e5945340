import Just1kBot.Orders.Checkout

/-! What an order was placed with, which nothing that happens to it later changes: its user, the
    kind of its service, its amount, and whether the amount has the welcome discount. -/

namespace Just1kBot

/-- The part of an order row that is fixed when the order is placed. -/
structure PlacedOrder where
  id : OrderId
  userId : UserId
  serviceType : OrderServiceType
  amountRub : ℕ
  discounted : Bool
  deriving DecidableEq, Repr

def Order.placed (o : Order) : PlacedOrder :=
  ⟨o.id, o.userId, o.serviceType, o.amountRub, o.metadata.isReferralDiscount⟩

def Db.placed (db : Db) : List PlacedOrder := db.orders.map Order.placed

/-- Every row with the id of `p` was placed as `p`. -/
def Db.PlacedAs (db : Db) (p : PlacedOrder) : Prop := ∀ q ∈ db.placed, q.id = p.id → q = p

theorem Db.placed_congr {db db' : Db} (h : db'.orders = db.orders) : db'.placed = db.placed := by
  rw [Db.placed, Db.placed, h]

theorem Db.placedAs_congr {db db' : Db} {p p' : PlacedOrder} (h : db'.placed = db.placed)
    (hp : p' = p)
    (hs : db.PlacedAs p) : db'.PlacedAs p' := by
  rw [Db.PlacedAs, h, hp]
  exact hs

/-- Writing a row back as it was placed. -/
theorem Db.placed_putOrder {db : Db} {o : Order} (h : db.PlacedAs o.placed) :
    (db.putOrder o).placed = db.placed := by
  simp only [placed, putOrder, Lib.Table.put, Lib.Table.modify, List.map_map]
  refine List.map_congr_left fun r hr => ?_
  simp only [Function.comp_apply]
  split_ifs with hid
  · exact (h r.placed (List.mem_map_of_mem hr) hid).symm
  · rfl

theorem UniqueOrders.placedAs {db : Db} (hu : UniqueOrders db) {id : OrderId} {a : Order}
    (hrow : db.order id = some a) : db.PlacedAs a.placed := by
  rintro q hq hid
  obtain ⟨r, hr, rfl⟩ := List.mem_map.mp hq
  have hfound := hu.order_of_mem hr
  rw [show r.id = id from hid.trans (Lib.Table.key_of_lookup Order.id hrow), hrow] at hfound
  rw [Option.some.inj hfound]

/-- Looking an order up finds it as it was placed. -/
theorem Db.order_map_placed (db : Db) (id : OrderId) :
    (db.order id).map Order.placed = Lib.Table.lookup PlacedOrder.id id db.placed := by
  simp only [order, placed, Lib.Table.lookup, List.find?_map]
  rfl

theorem Db.exists_order_of_placed {db db' : Db} (h : db'.placed = db.placed) {id : OrderId}
    {b : Order} (hb : db'.order id = some b) :
    ∃ a, db.order id = some a ∧ a.placed = b.placed := by
  have hmap : (db.order id).map Order.placed = some b.placed := by
    rw [order_map_placed, ← h, ← order_map_placed, hb, Option.map_some]
  exact Option.map_eq_some_iff.mp hmap

theorem uniqueOrders_of_placed {db db' : Db} (h : db'.placed = db.placed) (hu : UniqueOrders db) :
    UniqueOrders db' := by
  have hids : ∀ db : Db, db.orders.map Order.id = db.placed.map PlacedOrder.id := fun db => by
    rw [Db.placed, List.map_map]
    rfl
  rw [UniqueOrders, hids, h, ← hids]
  exact hu

variable {wi : WhiteInternetApi} {db db' : Db} {now : Time} {o o' : Order}

/-! ### Settling -/

theorem grantBonus_placed (hs : db.PlacedAs o.placed) (h : grantBonus db now o = .ok (o', db')) :
    db'.placed = db.placed ∧ o'.placed = o.placed := by
  simp only [grantBonus] at h
  split_ifs at h
  · obtain ⟨⟨g, db₁⟩, hg, hn⟩ := Lib.bind_ok h
    have h₁ : db₁.placed = db.placed :=
      Db.placed_congr (Db.grantReferralBonusForTopup_effects hg).1
    simp only at hn
    split at hn
    · cases hn
      exact ⟨h₁, rfl⟩
    · cases hn
      have hs₁ : db₁.PlacedAs o.placed := Db.placedAs_congr h₁ rfl hs
      exact ⟨Eq.trans (Db.placed_putOrder hs₁) h₁, rfl⟩
  · cases h
    exact ⟨rfl, rfl⟩

theorem fulfillWhiteInternet_placed {user : User}
    (h : fulfillWhiteInternet wi db now o user = .ok (o', db')) : o'.placed = o.placed := by
  simp only [fulfillWhiteInternet] at h
  split_ifs at h
  · obtain ⟨r, -, h₁⟩ := Lib.bind_ok h
    obtain ⟨r', -, h₂⟩ := Lib.bind_ok h₁
    cases h₂
    rfl
  · obtain ⟨r, -, h₁⟩ := Lib.bind_ok h
    obtain ⟨r', -, h₂⟩ := Lib.bind_ok h₁
    cases h₂
    rfl
  · obtain ⟨r, -, h₁⟩ := Lib.bind_ok h
    obtain ⟨r', -, h₂⟩ := Lib.bind_ok h₁
    cases h₂
    split <;> rfl
  · obtain ⟨r, -, h₁⟩ := Lib.bind_ok h
    obtain ⟨r', -, h₂⟩ := Lib.bind_ok h₁
    cases h₂
    split <;> rfl

theorem fulfillOrder_placed (hs : db.PlacedAs o.placed)
    (h : fulfillOrder wi db now o = .ok (o', db')) :
    db'.placed = db.placed ∧ o'.placed = o.placed := by
  have hplaced : o'.placed = o.placed := by
    simp only [fulfillOrder] at h
    split at h
    · cases h
      rfl
    · obtain ⟨⟨o₁, db₁⟩, hdel, hr⟩ := Lib.bind_ok h
      cases hr
      simp only [deliver] at hdel
      split at hdel
      · cases hdel
        rfl
      · cases hdel
        rfl
      · exact fulfillWhiteInternet_placed hdel
      · cases hdel
        rfl
  refine ⟨?_, hplaced⟩
  obtain ⟨-, -, ⟨horders, -⟩ | ⟨horders, -⟩⟩ := fulfillOrder_ok wi h
  · exact Db.placed_congr horders
  · exact (Db.placed_congr horders).trans
      (Db.placed_putOrder (Db.placedAs_congr rfl hplaced hs))

theorem settleBenefits_placed (hs : db.PlacedAs o.placed)
    (h : settleBenefits wi db now o = .ok (o', db')) :
    db'.placed = db.placed ∧ o'.placed = o.placed := by
  obtain ⟨db₁, hcredit, hrest⟩ := Lib.bind_ok h
  obtain ⟨⟨o₂, db₂⟩, hbonus, hdeliver⟩ := Lib.bind_ok hrest
  have h₁ : db₁.placed = db.placed := (Db.placed_congr (creditTopup_effects hcredit).1).trans
    (Db.placed_putOrder (o := markNotifyPending o) hs)
  have hs₁ : db₁.PlacedAs (markNotifyPending o).placed := Db.placedAs_congr h₁ rfl hs
  obtain ⟨h₂, hp₂⟩ := grantBonus_placed hs₁ hbonus
  simp only at hdeliver
  split_ifs at hdeliver
  · obtain ⟨h₃, hp₃⟩ := fulfillOrder_placed (Db.placedAs_congr h₂ hp₂ hs₁) hdeliver
    exact ⟨h₃.trans (h₂.trans h₁), hp₃.trans hp₂⟩
  · cases hdeliver
    exact ⟨h₂.trans h₁, hp₂⟩

/-- `mark_order_paid` leaves what orders were placed with. -/
theorem markOrderPaid_placed (hu : UniqueOrders db) {id : OrderId} {ext : Option String}
    {amount : Option ℚ} {r : Option Order}
    (h : markOrderPaid wi db now id ext amount = .ok (r, db')) :
    db'.placed = db.placed := by
  have hpay : ∀ a, db.order id = some a → payOrder wi db now a ext amount = .ok (r, db') →
      db'.placed = db.placed := fun a ha hpay => by
    have hs := hu.placedAs ha
    simp only [payOrder] at hpay
    split_ifs at hpay
    · cases hpay
      rfl
    · split at hpay
      · obtain ⟨db₁, hflush, hr⟩ := Lib.bind_ok hpay
        obtain rfl := flushOrder_ok hflush
        cases hr
        exact Db.placed_putOrder hs
      · obtain ⟨db₁, hflush, hfresh⟩ := Lib.bind_ok hpay
        obtain rfl := flushOrder_ok hflush
        set p := paidRow now (withExternalId ext a)
        have h₁ : (db.putOrder p).placed = db.placed := Db.placed_putOrder hs
        have hs₁ : (db.putOrder p).PlacedAs p.placed := Db.placedAs_congr h₁ rfl hs
        simp only [settleFresh] at hfresh
        split at hfresh
        · rename_i user huser
          cases hfresh
          exact (Db.placed_putOrder (o := heldRow user p) hs₁).trans h₁
        · obtain ⟨r', hsettle, hr⟩ := Lib.map_ok hfresh
          cases hr
          exact (settleBenefits_placed hs₁ hsettle).1.trans h₁
  simp only [markOrderPaid] at h
  split at h
  · cases h
    rfl
  · rename_i a ha
    split at h
    · split_ifs at h
      · cases h
        rfl
      · obtain ⟨r', hsettle, hr⟩ := Lib.map_ok h
        cases hr
        have hs : db.PlacedAs a.placed := hu.placedAs ha
        exact (settleBenefits_placed (o := releasedRow a) hs hsettle).1
      · cases h
        rfl
    · cases h
      rfl
    · exact hpay a ha h
    · exact hpay a ha h

/-! ### Webhooks -/

theorem processRefund_placed {w : WebhookResult} {r : Option Order} (hs : db.PlacedAs o.placed)
    (h : processRefund db now w o = .ok (r, db')) : db'.placed = db.placed := by
  simp only [processRefund] at h
  split_ifs at h
  · cases h
    rfl
  · cases h
    rfl
  · cases h
    exact Db.placed_putOrder (o := refundMismatchRow w o) hs
  · obtain ⟨db₁, hback, hr⟩ := Lib.map_ok h
    cases hr
    exact (Db.placed_congr (takeBack_effects hback).1).trans
      (Db.placed_putOrder (o := refundedRow now w o) hs)

theorem placed_markOrderCanceled (o : Order) (reason : String) :
    (markOrderCanceled o reason).placed = o.placed := by
  simp only [markOrderCanceled]
  split <;> rfl

theorem processPaid_placed (hu : UniqueOrders db) (hrow : db.order o.id = some o)
    {w : WebhookResult} {r : Option Order} (h : processPaid wi db now w o = .ok (r, db')) :
    db'.placed = db.placed := by
  obtain ⟨⟨paid, db₁⟩, hpay, hrest⟩ := Lib.bind_ok h
  have h₁ := markOrderPaid_placed hu hpay
  cases paid with
  | some o₁ =>
    cases hrest
    exact h₁
  | none =>
    simp only at hrest
    split_ifs at hrest
    · cases hrest
      have hs₁ : db₁.PlacedAs o.placed := Db.placedAs_congr h₁ rfl (hu.placedAs hrow)
      exact (Db.placed_putOrder (o := lateAttemptRow w o) hs₁).trans h₁
    · cases hrest
      exact h₁
    · cases hrest
      exact h₁

/-- A webhook leaves what orders were placed with. -/
theorem processWebhookEvent_placed (hu : UniqueOrders db) {payload : WebhookPayload}
    {r : Option Order} (h : processWebhookEvent wi db now payload = .ok (r, db')) :
    db'.placed = db.placed := by
  simp only [processWebhookEvent] at h
  split at h
  · cases h
    rfl
  · split at h
    · cases h
      rfl
    · rename_i a ha
      have hrow := order_of_webhookOrder hu ha
      split_ifs at h
      · cases h
        rfl
      · exact processPaid_placed hu hrow h
      · simp only [processCanceled] at h
        split_ifs at h
        · cases h
          exact Db.placed_putOrder (Db.placedAs_congr rfl (placed_markOrderCanceled a _)
            (hu.placedAs hrow))
        · cases h
          rfl
      · exact processRefund_placed (hu.placedAs hrow) h
      · cases h
        rfl

end Just1kBot
