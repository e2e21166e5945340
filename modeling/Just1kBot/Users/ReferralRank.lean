import Just1kBot.Billing.Referral
import Just1kBot.Lib.StableSort
import Mathlib.Data.List.Dedup

/-! The leaderboard of referrers and the rank of one of them (`get_referral_leaderboard` and
    `get_user_referral_rank` of `repositories/users_repo.py`).

    Both group the join of the referrers with their active referrals; the leaderboard sorts the
    groups, the rank counts those that go before the user's own count, which comes from a third
    query. -/

namespace Just1kBot

namespace Db

/-- `r` is a referral of `t` that counts. -/
def IsActiveReferral (db : Db) (t : TelegramId) (r : User) : Prop :=
  r.referredBy = some t ∧ r.isDeleted = false ∧ db.HasPaidActivity r.id

instance (db : Db) (t : TelegramId) : DecidablePred (db.IsActiveReferral t) := fun r =>
  inferInstanceAs (Decidable (r.referredBy = some t ∧ r.isDeleted = false ∧
    db.HasPaidActivity r.id))

/-- The join of the referrers that are not deleted with their active referrals. -/
def referralRows (db : Db) : List (TelegramId × UserId) :=
  (db.users.filter fun referrer => referrer.isDeleted = false).flatMap fun referrer =>
    (db.users.filter (db.IsActiveReferral referrer.telegramId)).map fun referral =>
      (referrer.telegramId, referral.id)

/-- Its groups, by referrer, with the number of their rows. -/
def referralCounts (db : Db) : List (TelegramId × ℕ) :=
  (db.referralRows.map Prod.fst).dedup.map fun t => (t, db.referralRows.countP fun row => row.1 = t)

end Db

/-- The order of the leaderboard: by count, the highest first, then by Telegram id. -/
def Ahead (p q : ℤ × ℕ) : Prop := q.2 < p.2 ∨ q.2 = p.2 ∧ p.1 ≤ q.1

instance : DecidableRel Ahead := fun p q =>
  inferInstanceAs (Decidable (q.2 < p.2 ∨ q.2 = p.2 ∧ p.1 ≤ q.1))

namespace Db

/-- The leaderboard without its limit. -/
def referralOrdering (db : Db) : List (TelegramId × ℕ) := db.referralCounts.insertionSort Ahead

def getReferralLeaderboard (db : Db) (limit : ℤ) : List (TelegramId × ℕ) :=
  db.referralOrdering.take (max 1 (min limit 100)).toNat

/-- The rank, counted from one, and the number of active referrals. -/
def getUserReferralRank (db : Db) (t : TelegramId) : Option ℕ × ℕ :=
  let activeCount := db.getUserActiveReferralsCount t
  if activeCount = 0 then (none, 0)
  else
    (some ((db.referralCounts.countP fun row =>
      activeCount < row.2 ∨ row.2 = activeCount ∧ row.1 < t) + 1), activeCount)

end Db

instance : IsTrans (ℤ × ℕ) Ahead where
  trans p q r hpq hqr := by
    simp only [Ahead] at *
    omega

instance : Std.Total Ahead where
  total p q := by
    simp only [Ahead]
    omega

theorem Ahead.fst_eq {p q : ℤ × ℕ} (hpq : Ahead p q) (hqp : Ahead q p) : p.1 = q.1 := by
  simp only [Ahead] at hpq hqp
  omega

/-- Who does not go behind goes strictly before. -/
theorem not_ahead_iff {p q : ℤ × ℕ} :
    ¬ Ahead q p ↔ q.2 < p.2 ∨ p.2 = q.2 ∧ p.1 < q.1 := by
  simp only [Ahead]
  omega

namespace Db
variable {db : Db} {t : TelegramId} {u : User}

/-- What rows of one user contribute to a count. -/
theorem countP_flatMap_of_unique {β : Type*} {f : User → List β} {p : β → Bool} {us : List User}
    (hunique : (us.map User.telegramId).Nodup) (hu : u ∈ us)
    (hf : ∀ v ∈ us, v.telegramId ≠ u.telegramId → (f v).countP p = 0) :
    (us.flatMap f).countP p = (f u).countP p := by
  induction us with
  | nil => cases hu
  | cons v us ih =>
    obtain ⟨hnot, hunique⟩ := List.nodup_cons.mp hunique
    have hrest : ∀ w ∈ us, w.telegramId ≠ u.telegramId → (f w).countP p = 0 := fun w hw =>
      hf w (List.mem_cons_of_mem v hw)
    rw [List.flatMap_cons, List.countP_append]
    rcases List.mem_cons.mp hu with rfl | hu
    · -- nobody else has the Telegram id
      have hzero : (us.flatMap f).countP p = 0 := by
        rw [List.countP_eq_zero]
        intro x hx
        obtain ⟨w, hw, hxw⟩ := List.mem_flatMap.mp hx
        have hne : w.telegramId ≠ u.telegramId := fun heq => hnot (heq ▸ List.mem_map_of_mem hw)
        exact List.countP_eq_zero.mp (hrest w hw hne) x hxw
      rw [hzero, Nat.add_zero]
    · have hne : v.telegramId ≠ u.telegramId := fun heq => hnot (heq ▸ List.mem_map_of_mem hu)
      rw [hf v List.mem_cons_self hne, Nat.zero_add, ih hunique hu hrest]

/-- The join holds a referrer's active referrals once each. -/
theorem countP_referralRows (hunique : (db.users.map User.telegramId).Nodup) (hu : u ∈ db.users)
    (hdel : u.isDeleted = false) :
    (db.referralRows.countP fun row => row.1 = u.telegramId) =
      db.users.countP (db.IsActiveReferral u.telegramId) := by
  have hmem : u ∈ db.users.filter fun referrer => referrer.isDeleted = false :=
    List.mem_filter.mpr ⟨hu, by simpa using hdel⟩
  have hsub := (List.filter_sublist (l := db.users)
    (p := fun referrer => decide (referrer.isDeleted = false))).map User.telegramId
  rw [referralRows, countP_flatMap_of_unique (hunique.sublist hsub) hmem]
  · rw [List.countP_map, List.countP_eq_length.mpr (by simp), List.countP_eq_length_filter]
  · intro v hv hne
    rw [List.countP_eq_zero]
    rintro row hrow
    obtain ⟨referral, -, rfl⟩ := List.mem_map.mp hrow
    simpa using hne

/-- The count of the third query, for a Telegram id that it looks for. -/
theorem getUserActiveReferralsCount_eq (h : 1 ≤ t ∧ t ≤ maxInt64) :
    db.getUserActiveReferralsCount t = db.users.countP (db.IsActiveReferral t) := by
  rw [getUserActiveReferralsCount, if_neg (not_or.mpr ⟨not_lt.mpr h.1, not_lt.mpr h.2⟩)]
  rfl

theorem nodup_referralCounts (db : Db) : (db.referralCounts.map Prod.fst).Nodup := by
  rw [referralCounts, List.map_map]
  simpa [Function.comp_def] using List.nodup_dedup (db.referralRows.map Prod.fst)

/-- A referrer that is not deleted has a group once it has an active referral. -/
theorem mem_referralCounts (hunique : (db.users.map User.telegramId).Nodup) (hu : u ∈ db.users)
    (hdel : u.isDeleted = false) (hactive : ∃ r ∈ db.users, db.IsActiveReferral u.telegramId r) :
    (u.telegramId, db.users.countP (db.IsActiveReferral u.telegramId)) ∈ db.referralCounts := by
  obtain ⟨r, hr, hqualifies⟩ := hactive
  have hrow : (u.telegramId, r.id) ∈ db.referralRows := by
    refine List.mem_flatMap.mpr ⟨u, List.mem_filter.mpr ⟨hu, by simpa using hdel⟩, ?_⟩
    exact List.mem_map.mpr ⟨r, List.mem_filter.mpr ⟨hr, by simpa using hqualifies⟩, rfl⟩
  rw [← countP_referralRows hunique hu hdel]
  exact List.mem_map.mpr
    ⟨u.telegramId, List.mem_dedup.mpr (List.mem_map_of_mem (f := Prod.fst) hrow), rfl⟩

/-- A group stands in the ordering after the groups that the rank counts. -/
theorem getElem?_referralOrdering {p : TelegramId × ℕ} (h : p ∈ db.referralCounts) :
    db.referralOrdering[db.referralCounts.countP fun row =>
      p.2 < row.2 ∨ row.2 = p.2 ∧ row.1 < p.1]? = some p := by
  have hkeys := nodup_referralCounts db
  have hcount : (db.referralCounts.countP fun row => ¬ Ahead p row) =
      db.referralCounts.countP fun row => p.2 < row.2 ∨ row.2 = p.2 ∧ row.1 < p.1 :=
    List.countP_congr fun row _ => by simpa using not_ahead_iff
  rw [referralOrdering, ← hcount]
  exact Lib.StableSort.getElem?_insertionSort Ahead hkeys.of_map h fun q hq hqp hpq =>
    List.inj_on_of_nodup_map hkeys hq h (hqp.fst_eq hpq)

/-- The keys of the ordering are distinct. -/
theorem referralOrdering_unique {i j c c' : ℕ} (hi : db.referralOrdering[i]? = some (t, c))
    (hj : db.referralOrdering[j]? = some (t, c')) : i = j := by
  have hnodup : (db.referralOrdering.map Prod.fst).Nodup :=
    ((List.perm_insertionSort Ahead db.referralCounts).map Prod.fst).nodup_iff.mpr
      (nodup_referralCounts db)
  have hi' : (db.referralOrdering.map Prod.fst)[i]? = some t := by rw [List.getElem?_map, hi]; rfl
  have hj' : (db.referralOrdering.map Prod.fst)[j]? = some t := by rw [List.getElem?_map, hj]; rfl
  obtain ⟨hlt, -⟩ := List.getElem?_eq_some_iff.mp hi'
  exact (List.getElem?_inj hlt hnodup).mp (hi'.trans hj'.symm)

/-- The rank of a referrer is its place on the leaderboard without the limit, and the counts are the
    same. -/
theorem rank_agrees (hunique : (db.users.map User.telegramId).Nodup) (hu : u ∈ db.users)
    (hdel : u.isDeleted = false) (hvalid : 1 ≤ u.telegramId ∧ u.telegramId ≤ maxInt64)
    (hactive : ∃ r ∈ db.users, db.IsActiveReferral u.telegramId r) :
    ∃ i count, db.referralOrdering[i]? = some (u.telegramId, count) ∧
      db.getUserReferralRank u.telegramId = (some (i + 1), count) ∧
      ∀ j count', db.referralOrdering[j]? = some (u.telegramId, count') → j = i := by
  have hcount : db.getUserActiveReferralsCount u.telegramId = _ :=
    getUserActiveReferralsCount_eq hvalid
  have hmem := mem_referralCounts hunique hu hdel hactive
  have hplace := getElem?_referralOrdering hmem
  refine ⟨_, _, hplace, ?_, fun j count' hj => referralOrdering_unique hj hplace⟩
  have hpos : db.users.countP (db.IsActiveReferral u.telegramId) ≠ 0 := by
    obtain ⟨r, hr, hqualifies⟩ := hactive
    refine Nat.pos_iff_ne_zero.mp (List.countP_pos_iff.mpr ⟨r, hr, ?_⟩)
    simpa using hqualifies
  rw [getUserReferralRank, hcount, if_neg hpos]

/-- Two referrers, of Telegram ids `t` and 9, with one active referral each. -/
def tiedReferrers (t : TelegramId) : Db where
  users := [{ id := 1, telegramId := 9 }, { id := 2, telegramId := t, isBanned := true },
    { id := 3, telegramId := 3, referredBy := some t },
    { id := 4, telegramId := 4, referredBy := some 9 }]
  orders := [{ id := 1, userId := 3, serviceType := .topup, amountRub := 100, status := .paid },
    { id := 2, userId := 4, amountRub := 100, status := .paid }]

theorem rank_agrees_tied :
    ∃ i count, (tiedReferrers 10).referralOrdering[i]? = some (9, count) ∧
      (tiedReferrers 10).getUserReferralRank 9 = (some (i + 1), count) := by
  have hmem : { id := 1, telegramId := 9 } ∈ (tiedReferrers 10).users := by decide
  obtain ⟨i, count, hplace, hrank, -⟩ := rank_agrees (by decide) hmem rfl (by decide) (by decide)
  exact ⟨i, count, hplace, hrank⟩

/-- The rank knows positive Telegram ids only. -/
theorem rank_disagrees :
    ((tiedReferrers (-1)).users.map User.telegramId).Nodup ∧
    (tiedReferrers (-1)).referralOrdering[0]? = some (-1, 1) ∧
    (tiedReferrers (-1)).getUserReferralRank (-1) = (none, 0) := by
  decide +kernel

end Db

end Just1kBot
