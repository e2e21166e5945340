import Just1kBot.Models
import Just1kBot.Lib.Sql

/-! The audiences of broadcasts, bonuses and user lists: the conditions of
    `database/repositories/users_repo.py`.

    A user may have standard access until `subscription_end`, which may be `NULL`, and any number of
    White Internet rows. The conditions are written one by one; they partition the users, and the
    one for access that runs out in three days speaks about the latest of all these ends. -/

namespace Just1kBot
open Lib

namespace WhiteInternetSubscription

/-- `status IN (ACTIVE, PENDING, EXHAUSTED)`. -/
def LiveStatus (sub : WhiteInternetSubscription) : Prop :=
  sub.status = .active ∨ sub.status = .pending ∨ sub.status = .exhausted

instance : DecidablePred LiveStatus := fun s => by unfold LiveStatus; infer_instance

/-- The row serves its user, until it expires. -/
def Serves (sub : WhiteInternetSubscription) : Prop :=
  sub.LiveStatus ∧ sub.provisioningStatus ≠ .pendingDelete

instance : DecidablePred Serves := fun s => by unfold Serves; infer_instance

end WhiteInternetSubscription

namespace Db
variable (db : Db)

/-- `User.id IN (SELECT user_id … WHERE p)`. The column is `NOT NULL`, so this is never unknown. -/
def inWhiteInternet (p : WhiteInternetSubscription → Prop) [DecidablePred p] (u : User) : Sql.Cond :=
  Sql.ofProp (∃ sub ∈ db.whiteInternet.subscriptions, sub.userId = u.id ∧ p sub)

/-- `User.subscription_end > t`. -/
def endsAfter (t : Time) (u : User) : Sql.Cond := Sql.compare (· > ·) u.subscriptionEnd (some t)

/-- `User.subscription_end <= t`. -/
def endsBy (t : Time) (u : User) : Sql.Cond := Sql.compare (· ≤ ·) u.subscriptionEnd (some t)

/-- The sub-select of the active White Internet rows. -/
def xrayActive (now : Time) : User → Sql.Cond :=
  db.inWhiteInternet fun sub => sub.Serves ∧ sub.expiresAt > now

/-- `get_effective_active_condition`. -/
def effectiveActiveCondition (now : Time) (u : User) : Sql.Cond :=
  Sql.or (endsAfter now u) (db.xrayActive now u)

/-- `get_effective_expiring_3d_condition`. -/
def effectiveExpiring3dCondition (now : Time) (u : User) : Sql.Cond :=
  let limit3d := now + days 3
  let awgExpiring := Sql.and (endsAfter now u) (endsBy limit3d u)
  let xrayExpiring := db.inWhiteInternet
    (fun sub => sub.Serves ∧ sub.expiresAt > now ∧ sub.expiresAt ≤ limit3d) u
  let xrayLonger := db.inWhiteInternet (fun sub => sub.Serves ∧ sub.expiresAt > limit3d) u
  Sql.and (Sql.or awgExpiring xrayExpiring)
    (Sql.and (Sql.or (Sql.isNull u.subscriptionEnd) (endsBy limit3d u)) (Sql.not xrayLonger))

/-- `get_effective_inactive_condition`. -/
def effectiveInactiveCondition (now : Time) (u : User) : Sql.Cond :=
  Sql.and (Sql.or (endsBy now u) (Sql.isNull u.subscriptionEnd)) (Sql.not (db.xrayActive now u))

/-- The user has a White Internet row, in any state. -/
def hadXray (u : User) : Sql.Cond := db.inWhiteInternet (fun _ => True) u

/-- `get_effective_expired_condition`. -/
def effectiveExpiredCondition (now : Time) (u : User) : Sql.Cond :=
  Sql.and (Sql.or (Sql.not (Sql.isNull u.subscriptionEnd)) (db.hadXray u))
    (db.effectiveInactiveCondition now u)

/-- `get_effective_never_condition`. -/
def effectiveNeverCondition (u : User) : Sql.Cond :=
  Sql.and (Sql.isNull u.subscriptionEnd) (Sql.not (db.hadXray u))

/-! ### What they select -/

/-- The user has access at the instant, by one of the two services. -/
def HasAccess (now : Time) (u : User) : Prop :=
  (∃ e ∈ u.subscriptionEnd, now < e) ∨
    ∃ sub ∈ db.whiteInternet.subscriptions, sub.userId = u.id ∧ sub.Serves ∧ now < sub.expiresAt

/-- The user has had one of the two services. -/
def HadAccess (u : User) : Prop :=
  u.subscriptionEnd ≠ none ∨ ∃ sub ∈ db.whiteInternet.subscriptions, sub.userId = u.id

variable {db} {now : Time} {u : User}

@[simp] theorem holds_inWhiteInternet {p : WhiteInternetSubscription → Prop} [DecidablePred p] :
    Sql.Holds (db.inWhiteInternet p u) ↔
      ∃ sub ∈ db.whiteInternet.subscriptions, sub.userId = u.id ∧ p sub := by
  rw [inWhiteInternet, Sql.holds_ofProp]

@[simp] theorem fails_inWhiteInternet {p : WhiteInternetSubscription → Prop} [DecidablePred p] :
    Sql.Fails (db.inWhiteInternet p u) ↔
      ¬ ∃ sub ∈ db.whiteInternet.subscriptions, sub.userId = u.id ∧ p sub := by
  rw [inWhiteInternet, Sql.fails_ofProp]

theorem holds_endsAfter {t : Time} : Sql.Holds (endsAfter t u) ↔ ∃ e ∈ u.subscriptionEnd, t < e := by
  simp [endsAfter]

theorem holds_endsBy {t : Time} : Sql.Holds (endsBy t u) ↔ ∃ e ∈ u.subscriptionEnd, e ≤ t := by
  simp [endsBy]

theorem holds_effectiveActiveCondition :
    Sql.Holds (db.effectiveActiveCondition now u) ↔ db.HasAccess now u := by
  rw [effectiveActiveCondition, Sql.holds_or, holds_endsAfter, xrayActive, holds_inWhiteInternet]
  rfl

/-- An end that is missing or past is one that is not to come. -/
theorem ended_iff {t : Time} :
    u.subscriptionEnd = none ∨ (∃ e ∈ u.subscriptionEnd, e ≤ t) ↔
      ¬ ∃ e ∈ u.subscriptionEnd, t < e := by
  rcases u.subscriptionEnd with _ | e <;> simp

theorem holds_effectiveInactiveCondition :
    Sql.Holds (db.effectiveInactiveCondition now u) ↔ ¬ db.HasAccess now u := by
  rw [effectiveInactiveCondition, Sql.holds_and, Sql.holds_or, holds_endsBy, Sql.holds_isNull,
    or_comm, ended_iff, Sql.holds_not, xrayActive, fails_inWhiteInternet, HasAccess, not_or]

theorem holds_effectiveNeverCondition :
    Sql.Holds (db.effectiveNeverCondition u) ↔ ¬ db.HadAccess u := by
  rw [effectiveNeverCondition, Sql.holds_and, Sql.holds_isNull, Sql.holds_not, hadXray,
    fails_inWhiteInternet, HadAccess, not_or, not_not]
  simp only [and_true]

theorem holds_effectiveExpiredCondition :
    Sql.Holds (db.effectiveExpiredCondition now u) ↔ db.HadAccess u ∧ ¬ db.HasAccess now u := by
  rw [effectiveExpiredCondition, Sql.holds_and, holds_effectiveInactiveCondition, Sql.holds_or,
    Sql.holds_not, Sql.fails_isNull, hadXray, holds_inWhiteInternet, HadAccess]
  simp

theorem HasAccess.had (h : db.HasAccess now u) : db.HadAccess u := by
  rcases h with ⟨e, he, -⟩ | ⟨sub, hsub, hu, -⟩
  · exact .inl (by rw [Option.mem_def.mp he]; simp)
  · exact .inr ⟨sub, hsub, hu⟩

/-! ### The latest end -/

/-- The future end of standard access and the expiry of every row that serves the user. -/
def effectiveEnds (db : Db) (now : Time) (u : User) : List Time :=
  (u.subscriptionEnd.filter (now < ·)).toList ++
    (db.whiteInternet.subscriptions.filter fun sub => sub.userId = u.id ∧ sub.Serves).map (·.expiresAt)

/-- The latest of them, if there is any. -/
def latestEffectiveEnd (db : Db) (now : Time) (u : User) : Option Time :=
  (db.effectiveEnds now u).max?

theorem mem_effectiveEnds {t : Time} :
    t ∈ db.effectiveEnds now u ↔ (t ∈ u.subscriptionEnd ∧ now < t) ∨
      ∃ sub ∈ db.whiteInternet.subscriptions, sub.userId = u.id ∧ sub.Serves ∧ sub.expiresAt = t := by
  simp [effectiveEnds, and_assoc, Option.filter_eq_some_iff]

/-- The condition asks for an end in the next three days and for none beyond them. -/
theorem holds_effectiveExpiring3dCondition :
    Sql.Holds (db.effectiveExpiring3dCondition now u) ↔
      (∃ t ∈ db.effectiveEnds now u, now < t ∧ t ≤ now + days 3) ∧
        ¬ ∃ t ∈ db.effectiveEnds now u, now + days 3 < t := by
  rw [effectiveExpiring3dCondition]
  simp only [Sql.holds_and, Sql.holds_or, Sql.holds_isNull, ended_iff, holds_endsAfter,
    holds_endsBy, holds_inWhiteInternet, Sql.holds_not, fails_inWhiteInternet, mem_effectiveEnds]
  have hlimit : now < now + days 3 := by simp [days, seconds]
  constructor
  · rintro ⟨hsome, hstd, hwi⟩
    refine ⟨?_, ?_⟩
    · rcases hsome with ⟨⟨e, he, hlow⟩, e', he', hhigh⟩ | ⟨sub, hsub, hu, hserves, hlow, hhigh⟩
      · obtain rfl := Option.some.inj (he.symm.trans he')
        exact ⟨e, .inl ⟨he, hlow⟩, hlow, hhigh⟩
      · exact ⟨_, .inr ⟨sub, hsub, hu, hserves, rfl⟩, hlow, hhigh⟩
    · rintro ⟨t, ⟨ht, -⟩ | ⟨sub, hsub, hu, hserves, rfl⟩, hlate⟩
      · exact hstd ⟨t, ht, hlate⟩
      · exact hwi ⟨sub, hsub, hu, hserves, hlate⟩
  · rintro ⟨⟨t, ht, hlow, hhigh⟩, hnone⟩
    refine ⟨?_, ?_, ?_⟩
    · rcases ht with ⟨ht, -⟩ | ⟨sub, hsub, hu, hserves, rfl⟩
      · exact .inl ⟨⟨t, ht, hlow⟩, t, ht, hhigh⟩
      · exact .inr ⟨sub, hsub, hu, hserves, hlow, hhigh⟩
    · rintro ⟨e, he, hlate⟩
      exact hnone ⟨e, .inl ⟨he, hlimit.trans hlate⟩, hlate⟩
    · rintro ⟨sub, hsub, hu, hserves, hlate⟩
      exact hnone ⟨_, .inr ⟨sub, hsub, hu, hserves, rfl⟩, hlate⟩

theorem latest_in_iff {t₀ t₁ : Time} :
    (∃ e ∈ db.latestEffectiveEnd now u, t₀ < e ∧ e ≤ t₁) ↔
      (∃ t ∈ db.effectiveEnds now u, t₀ < t ∧ t ≤ t₁) ∧ ¬ ∃ t ∈ db.effectiveEnds now u, t₁ < t := by
  constructor
  · rintro ⟨e, he, hlow, hhigh⟩
    obtain ⟨hmem, hmax⟩ := List.max?_eq_some_iff.mp he
    refine ⟨⟨e, hmem, hlow, hhigh⟩, ?_⟩
    rintro ⟨t, ht, hlate⟩
    exact absurd ((hmax t ht).trans hhigh) (not_le.mpr hlate)
  · rintro ⟨⟨t, ht, hlow, hhigh⟩, hnone⟩
    rcases hlast : db.latestEffectiveEnd now u with _ | e
    · rw [List.max?_eq_none_iff.mp hlast] at ht
      cases ht
    · obtain ⟨hmem, hmax⟩ := List.max?_eq_some_iff.mp hlast
      refine ⟨e, rfl, hlow.trans_le (hmax t ht), not_lt.mp fun hlate => hnone ⟨e, hmem, hlate⟩⟩

end Db

/-! ### The partition -/

/-- What is promised of the five conditions about one user. -/
structure AudiencesPartition (db : Db) (now : Time) (u : User) : Prop where
  active_or : Sql.Holds (db.effectiveActiveCondition now u) ∨
    Sql.Holds (db.effectiveExpiredCondition now u) ∨ Sql.Holds (db.effectiveNeverCondition u)
  not_active_expired : ¬ (Sql.Holds (db.effectiveActiveCondition now u) ∧
    Sql.Holds (db.effectiveExpiredCondition now u))
  not_active_never : ¬ (Sql.Holds (db.effectiveActiveCondition now u) ∧
    Sql.Holds (db.effectiveNeverCondition u))
  not_expired_never : ¬ (Sql.Holds (db.effectiveExpiredCondition now u) ∧
    Sql.Holds (db.effectiveNeverCondition u))
  inactive_iff : Sql.Holds (db.effectiveInactiveCondition now u) ↔
    ¬ Sql.Holds (db.effectiveActiveCondition now u)
  expiring_iff : Sql.Holds (db.effectiveExpiring3dCondition now u) ↔
    ∃ e ∈ db.latestEffectiveEnd now u, now < e ∧ e ≤ now + days 3

/-- Every user is active, expired or was never there, and is only one of them. -/
theorem audiences_partition (db : Db) (now : Time) (u : User) : AudiencesPartition db now u where
  active_or := by
    rw [Db.holds_effectiveActiveCondition, Db.holds_effectiveExpiredCondition,
      Db.holds_effectiveNeverCondition]
    by_cases hnow : db.HasAccess now u
    · exact .inl hnow
    · by_cases hhad : db.HadAccess u
      · exact .inr (.inl ⟨hhad, hnow⟩)
      · exact .inr (.inr hhad)
  not_active_expired := by
    rw [Db.holds_effectiveActiveCondition, Db.holds_effectiveExpiredCondition]
    exact fun h => h.2.2 h.1
  not_active_never := by
    rw [Db.holds_effectiveActiveCondition, Db.holds_effectiveNeverCondition]
    exact fun h => h.2 h.1.had
  not_expired_never := by
    rw [Db.holds_effectiveExpiredCondition, Db.holds_effectiveNeverCondition]
    exact fun h => h.2 h.1.1
  inactive_iff := by
    rw [Db.holds_effectiveInactiveCondition, Db.holds_effectiveActiveCondition]
  expiring_iff := Db.holds_effectiveExpiring3dCondition.trans Db.latest_in_iff.symm

end Just1kBot
