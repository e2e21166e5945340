import Just1kBot.Orders.OrderService

/-! Bans: `services/ban_service.py`.

    A ban closes what is open: the pending orders of the user are canceled, their White Internet
    subscriptions are disabled, and the VLESS subscription is deactivated under a new UUID. Nothing
    of it is restored when the ban is lifted, apart from the VLESS access the user still has. The
    legacy payments a ban abandons keep the fields that are read here. -/

namespace Just1kBot

/-- A pending order of a banned user. -/
def closeOrder (u : UserId) (order : Order) : Order :=
  if order.userId = u ∧ order.status = .pending then markOrderCanceled order "user_banned"
  else order

/-- The VLESS subscription of a banned user. -/
def VlessSubscription.ban (newUuid : Uuid) (sub : VlessSubscription) : VlessSubscription :=
  { sub with
    isActive := false
    version := orOne sub.version + 1
    nodeTrafficSnapshots := { fresh := true }
    uuid := newUuid
    pendingRevokedUuids :=
      if sub.uuid ∈ sub.pendingRevokedUuids then sub.pendingRevokedUuids
      else sub.pendingRevokedUuids ++ [sub.uuid] }

/-- The VLESS subscription of a user who is unbanned and has access. -/
def VlessSubscription.unban (sub : VlessSubscription) : VlessSubscription :=
  { sub with
    isActive := true
    version := orOne sub.version + 1
    pendingRevokedUuids := sub.pendingRevokedUuids.filter (· ≠ sub.uuid) }

namespace Db

/-- Rewrite the VLESS subscription of a user, if there is one. -/
def modifyVless (db : Db) (u : UserId) (f : VlessSubscription → VlessSubscription) : Db :=
  { db with vless := Lib.Table.modify VlessSubscription.userId u f db.vless }

/-- `ban_user`. -/
def banUser (db : Db) (u : UserId) (newUuid : Uuid) : Db :=
  match db.user u with
  | none => db
  | some user =>
    if user.isDeleted ∨ user.isBanned then db
    else
      let db := { db with orders := db.orders.map (closeOrder u) }
      let db := db.putUser { user with isBanned := true }
      let db := { db with
        whiteInternet := db.whiteInternet.deactivateUserSubscriptions u "user_banned" }
      db.modifyVless u (·.ban newUuid)

/-- `unban_user`. -/
def unbanUser (db : Db) (now : Time) (u : UserId) : Db :=
  match db.user u with
  | none => db
  | some user =>
    if user.isDeleted ∨ ¬ user.isBanned then db
    else
      let user := { user with isBanned := false }
      let db := db.putUser user
      if checkVpnAccess now user then db.modifyVless u (·.unban) else db

/-- A ban writes orders, and neither money nor the history. -/
theorem banUser_books (db : Db) (u : UserId) (newUuid : Uuid) :
    (db.banUser u newUuid).ledger = db.ledger ∧ (db.banUser u newUuid).fulfilled = db.fulfilled ∧
      ((db.banUser u newUuid).orders = db.orders ∨
        (db.banUser u newUuid).orders = db.orders.map (closeOrder u)) := by
  rw [banUser]
  split
  · exact ⟨rfl, rfl, .inl rfl⟩
  · split_ifs
    · exact ⟨rfl, rfl, .inl rfl⟩
    · exact ⟨rfl, rfl, .inr rfl⟩

theorem sameBooks_unbanUser (db : Db) (now : Time) (u : UserId) :
    SameBooks db (db.unbanUser now u) := by
  rw [unbanUser]
  split
  · exact ⟨rfl, rfl, rfl⟩
  · split_ifs
    · exact ⟨rfl, rfl, rfl⟩
    · simp only
      split_ifs
      · exact ⟨rfl, rfl, rfl⟩
      · exact ⟨rfl, rfl, rfl⟩

end Db

/-- Closing an order cancels it when it is pending, and otherwise leaves it alone. -/
theorem closeOrder_cases (u : UserId) (order : Order) :
    closeOrder u order = order ∨
      order.status = .pending ∧ closeOrder u order = markOrderCanceled order "user_banned" := by
  rw [closeOrder]
  split_ifs with h
  · exact .inr ⟨h.2, rfl⟩
  · exact .inl rfl

end Just1kBot
