import Just1kBot.Billing.Referral
import Just1kBot.Lib.Chain
import Just1kBot.Lib.Transition

/-! The referral graph: `services/subscription.py`, `repositories/users_repo.py`.

    `process_onboarding` stores the owner of a referral code as the referrer of its user, once
    `_validate_referral` has followed the chain from there and not come back. The walk reads one
    user at a time, takes no lock on them and sees no deleted ones. So the graph stays acyclic as
    long as every referrer is stored while its chain, as it is stored then, does not lead to the
    user.

    Users are found and written under `telegram_id`, which is unique and never changes. -/

namespace Just1kBot
open Lib.Chain

def maxReferralChainDepth : ℕ := 50

namespace Db

/-- `get_user_by_telegram_id_any`: deleted users too. -/
def getUserByTelegramIdAny (db : Db) (t : TelegramId) : Option User :=
  if 1 ≤ t ∧ t ≤ maxInt64 then Lib.Table.lookup User.telegramId t db.users else none

/-- `get_user_by_telegram_id`. -/
def getUserByTelegramId (db : Db) (t : TelegramId) : Option User :=
  (db.getUserByTelegramIdAny t).filter fun user => !user.isDeleted

/-- `has_successful_topup`. -/
def hasSuccessfulTopup (db : Db) (u : UserId) : Bool :=
  (db.payments.any fun p => p.userId = u ∧ p.creditedAt.isSome) ||
  db.orders.any fun o => o.userId = u ∧
    (o.status = .paid ∨ o.status = .refunded ∨ o.paidAt.isSome) ∧
    (o.serviceType = .topup ∨ o.paymentMethod ≠ .wallet)

/-- Write the row of a user. -/
def writeUser (db : Db) (t : TelegramId) (f : User → User) : Db :=
  { db with users := Lib.Table.modify User.telegramId t f db.users }

/-- `create_user`, under a `telegram_id` that is free. -/
def createUser (db : Db) (newId : UserId) (t : TelegramId)
    (referredBy : Option TelegramId) : Db :=
  { db with users := db.users ++ [{ id := newId, telegramId := t, referredBy }] }

/-- Delete or restore a user. -/
def setDeleted (db : Db) (t : TelegramId) (isDeleted : Bool) : Db :=
  db.writeUser t ({ · with isDeleted })

/-- Who a user is referred by, as it is stored: a deleted user keeps its referrer. -/
def referrer (db : Db) (t : TelegramId) : Option TelegramId :=
  (Lib.Table.lookup User.telegramId t db.users).bind User.referredBy

/-- Every stored user is one that `get_user_by_telegram_id` finds. -/
def AllLive (db : Db) : Prop :=
  ∀ t, db.getUserByTelegramId t = Lib.Table.lookup User.telegramId t db.users

end Db

/-! ### An onboarding -/

/-- What `process_onboarding` does next. -/
inductive OnboardingPhase
  | findUser
  | lockUser (refId : TelegramId)
  | checkTopup (refId : TelegramId)
  | findReferrer (refId : TelegramId)
  | walk (refId : TelegramId) (refUser : User) (currentId : TelegramId)
      (chainVisited : List TelegramId) (depth : ℕ)
  | write (referredBy : Option TelegramId)
  deriving DecidableEq

/-- A call of `process_onboarding` in its transaction. `user` is the row as it was loaded, and
    `locked` says that the transaction holds the lock on it. -/
structure Onboarding where
  id : ℕ
  telegramId : TelegramId
  refId : Option TelegramId
  newId : UserId
  user : Option User := none
  locked : Bool := false
  phase : OnboardingPhase := .findUser
  deriving DecidableEq

/-- One round of the loop of `_validate_referral`. The row of the referrer is already loaded, and
    reading it again gives the loaded values. -/
def walkOn (db : Db) (refId : TelegramId) (refUser : User) (currentId : TelegramId)
    (chainVisited : List TelegramId) (depth : ℕ) : OnboardingPhase :=
  if maxReferralChainDepth < depth + 1 then .write none
  else match db.getUserByTelegramId currentId with
    | none => .write (some refId)
    | some row =>
      let currentUser := if currentId = refId then refUser else row
      match currentUser.referredBy.filter (· ≠ 0) with
      | none => .write (some refId)
      | some next =>
        if next ∈ chainVisited then .write none
        else .walk refId refUser next (next :: chainVisited) (depth + 1)

namespace Onboarding

/-- A user that was deleted is restored with a write, which takes the lock. -/
def found (o : Onboarding) (user : User) : Onboarding :=
  { o with
    user := some user
    locked := user.isDeleted
    phase := match o.refId with
      | some refId => if user.referredBy = none then .lockUser refId else .write none
      | none => .write none }

/-- The next statement of an onboarding that has not come to its write. Locking the row of the
    user does not load it again, so the referrer it had when it was loaded is not looked at
    twice. -/
def read (db : Db) (o : Onboarding) : Onboarding :=
  match o.phase with
  | .findUser =>
    match db.getUserByTelegramIdAny o.telegramId with
    | some user => o.found user
    | none => { o with phase := match o.refId with
        | some refId => .findReferrer refId
        | none => .write none }
  | .lockUser refId => { o with locked := true, phase := .checkTopup refId }
  | .checkTopup refId =>
    { o with phase :=
        if o.user.any fun user => db.hasSuccessfulTopup user.id then .write none
        else .findReferrer refId }
  | .findReferrer refId =>
    { o with phase :=
        if refId = o.telegramId then .write none
        else match db.getUserByTelegramId refId with
          | none => .write none
          | some refUser => .walk refId refUser refId [o.telegramId, refId] 0 }
  | .walk refId refUser currentId chainVisited depth =>
    { o with phase := walkOn db refId refUser currentId chainVisited depth }
  | .write _ => o

/-- What others see once the onboarding has committed. A new user whose row is there by now is
    only restored. -/
def commit (o : Onboarding) (referredBy : Option TelegramId) (db : Db) : Db :=
  match o.user with
  | some user =>
    db.writeUser o.telegramId fun row => { row with
      isDeleted := if user.isDeleted then false else row.isDeleted
      referredBy := referredBy.or row.referredBy }
  | none =>
    match Lib.Table.lookup User.telegramId o.telegramId db.users with
    | none => db.createUser o.newId o.telegramId referredBy
    | some _ =>
      if (db.getUserByTelegramIdAny o.telegramId).isSome then db.setDeleted o.telegramId false
      else db

/-- The onboarding is about to take the lock on the row of its user. -/
def takesLock (o : Onboarding) (db : Db) : Bool :=
  match o.phase with
  | .findUser => (db.getUserByTelegramIdAny o.telegramId).any User.isDeleted
  | .lockUser _ => true
  | .write _ => o.user.isNone
  | _ => false

/-- The referrer the onboarding is about to store. A user that was not there yet gets it with its
    row, unless somebody else has registered it. -/
def binds (o : Onboarding) (db : Db) : Option TelegramId :=
  match o.phase with
  | .write referredBy =>
    if o.user.isSome = (Lib.Table.lookup User.telegramId o.telegramId db.users).isSome then
      referredBy
    else none
  | _ => none

end Onboarding

/-! ### Onboardings side by side -/

/-- The database and the onboardings that are under way. -/
structure Onboardings where
  db : Db := {}
  sessions : List Onboarding := []
  deriving DecidableEq

/-- What can happen next. `register` is the user that the middleware creates, without a referrer;
    `setDeleted` deletes or restores a user; `other` is anything that leaves the users alone. -/
inductive OnboardingEvent
  | begin (session : ℕ) (telegramId : TelegramId) (refId : Option TelegramId) (newId : UserId)
  | advance (session : ℕ)
  | abort (session : ℕ)
  | register (newId : UserId) (telegramId : TelegramId)
  | setDeleted (telegramId : TelegramId) (isDeleted : Bool)
  | other (tables : Db)
  deriving DecidableEq

namespace Onboardings

def session (s : Onboardings) (id : ℕ) : Option Onboarding :=
  Lib.Table.lookup Onboarding.id id s.sessions

/-- The onboarding waits for the lock that another one holds. -/
def waits (s : Onboardings) (o : Onboarding) : Bool :=
  o.takesLock s.db &&
    s.sessions.any fun p => p.id ≠ o.id ∧ p.telegramId = o.telegramId ∧ p.locked

def step (s : Onboardings) : OnboardingEvent → Onboardings
  | .begin id telegramId refId newId =>
    if (s.session id).isSome then s
    else { s with sessions := s.sessions ++ [{ id, telegramId, refId, newId }] }
  | .advance id =>
    match s.session id with
    | none => s
    | some o =>
      if s.waits o then s
      else match o.phase with
        | .write referredBy =>
          { db := o.commit referredBy s.db, sessions := s.sessions.filter (·.id ≠ id) }
        | _ => { s with sessions := Lib.Table.put Onboarding.id (o.read s.db) s.sessions }
  | .abort id => { s with sessions := s.sessions.filter (·.id ≠ id) }
  | .register id telegramId =>
    if (Lib.Table.lookup User.telegramId telegramId s.db.users).isSome then s
    else { s with db := s.db.createUser id telegramId none }
  | .setDeleted telegramId isDeleted =>
    if s.sessions.any fun p => p.telegramId = telegramId ∧ p.locked then s
    else { s with db := s.db.setDeleted telegramId isDeleted }
  | .other tables => { s with db := { tables with users := s.db.users } }

end Onboardings

/-- When an onboarding stores a referrer, the chain from there does not lead to its user. -/
def BindsForward (s : Onboardings) : OnboardingEvent → Prop
  | .advance id => ∀ o ∈ s.session id, s.waits o = false → ∀ r ∈ o.binds s.db,
      ¬ Leads s.db.referrer r o.telegramId
  | _ => True

/-! ### What a step does to the graph -/

variable {db : Db} {t : TelegramId}

/-- Writing a row changes the graph at its user only. -/
theorem referrer_writeUser {f : User → User} (hf : ∀ u, (f u).telegramId = u.telegramId) :
    (db.writeUser t f).referrer = Function.update db.referrer t
      ((Lib.Table.lookup User.telegramId t db.users).bind fun u => (f u).referredBy) := by
  funext k
  rw [Db.referrer, Db.writeUser, Lib.Table.lookup_modify User.telegramId hf]
  by_cases hk : k = t
  · subst hk
    rw [if_pos rfl, Function.update_self, Option.bind_map]
    rfl
  · rw [if_neg hk, Function.update_of_ne hk, Db.referrer]

/-- Deleting or restoring a user leaves the graph alone. -/
@[simp] theorem referrer_setDeleted (b : Bool) : (db.setDeleted t b).referrer = db.referrer := by
  refine (referrer_writeUser ?_).trans (Function.update_eq_self t db.referrer)
  intro u
  rfl

/-- A new user changes the graph at that user only. -/
theorem referrer_createUser {newId : UserId} {ref : Option TelegramId}
    (hnew : Lib.Table.lookup User.telegramId t db.users = none) :
    (db.createUser newId t ref).referrer = Function.update db.referrer t ref := by
  funext k
  rw [Db.referrer, Db.createUser, Lib.Table.lookup_append]
  by_cases hk : k = t
  · subst hk
    rw [hnew, if_pos rfl, Function.update_self]
    rfl
  · rw [if_neg fun h => hk h.symm, Option.or_none, Function.update_of_ne hk, Db.referrer]

theorem referrer_of_lookup {row : Option User}
    (h : Lib.Table.lookup User.telegramId t db.users = row) :
    db.referrer t = row.bind User.referredBy := congrArg (·.bind User.referredBy) h

/-- An onboarding that commits adds the link it binds, and no other. -/
theorem referrer_commit {o : Onboarding} {ref : Option TelegramId} (h : o.phase = .write ref) :
    (o.commit ref db).referrer = match o.binds db with
      | some r => Function.update db.referrer o.telegramId (some r)
      | none => db.referrer := by
  simp only [Onboarding.binds, Onboarding.commit, h]
  cases hrow : Lib.Table.lookup User.telegramId o.telegramId db.users with
  | some row =>
    have hold : db.referrer o.telegramId = row.referredBy := referrer_of_lookup hrow
    cases o.user with
    | some user =>
      simp only []
      rw [referrer_writeUser fun u => by rfl, hrow]
      cases ref with
      | some r => simp
      | none => simp [hold]
    | none =>
      simp only [Option.isSome_none, Option.isSome_some, Bool.false_eq_true, if_false]
      split_ifs
      · exact referrer_setDeleted false
      · rfl
  | none =>
    have hold : db.referrer o.telegramId = none := referrer_of_lookup hrow
    cases o.user with
    | some user =>
      simp only []
      rw [referrer_writeUser fun u => by rfl, hrow]
      simp [hold]
    | none =>
      simp only []
      rw [referrer_createUser hrow]
      cases ref with
      | some r => simp
      | none => simp [hold]

/-- An onboarding that has not come to its write binds nobody. -/
theorem binds_of_phase {o : Onboarding} (h : ∀ ref, o.phase ≠ .write ref) : o.binds db = none := by
  simp only [Onboarding.binds]

variable {s : Onboardings} {id : ℕ}

/-- What an onboarding does in its turn: it waits, reads on, or commits and is done. -/
theorem step_advance {o : Onboarding} (h : s.session id = some o) :
    s.waits o = true ∧ s.step (.advance id) = s ∨
    s.waits o = false ∧ (∀ ref, o.phase ≠ .write ref) ∧ s.step (.advance id) =
      { s with sessions := Lib.Table.put Onboarding.id (o.read s.db) s.sessions } ∨
    s.waits o = false ∧ ∃ ref, o.phase = .write ref ∧ s.step (.advance id) =
      { db := o.commit ref s.db, sessions := s.sessions.filter (·.id ≠ id) } := by
  simp only [Onboardings.step, h]
  cases hw : s.waits o with
  | true => exact .inl ⟨rfl, if_pos rfl⟩
  | false =>
    refine .inr ?_
    cases hph : o.phase with
    | write ref => exact .inr ⟨rfl, ref, rfl, rfl⟩
    | _ => exact .inl ⟨rfl, by simp, rfl⟩

/-- From an acyclic graph a step leads to an acyclic one exactly when it binds forward. -/
theorem acyclic_step_iff (h : Acyclic s.db.referrer) (e : OnboardingEvent) :
    Acyclic (s.step e).db.referrer ↔ BindsForward s e := by
  cases e with
  | begin id t refId newId =>
    simp only [Onboardings.step]
    split_ifs
    · exact iff_of_true h trivial
    · exact iff_of_true h trivial
  | advance id =>
    cases hs : s.session id with
    | none =>
      simp only [Onboardings.step, BindsForward, hs]
      exact iff_of_true h (by simp)
    | some o =>
      have hguard : BindsForward s (.advance id) ↔
          (s.waits o = false → ∀ r ∈ o.binds s.db, ¬ Leads s.db.referrer r o.telegramId) := by
        simp [BindsForward, hs]
      rw [hguard]
      rcases step_advance hs with ⟨hw, hstep⟩ | ⟨-, hph, hstep⟩ | ⟨hw, ref, hph, hstep⟩
      · rw [hstep]
        exact iff_of_true h (by simp [hw])
      · rw [hstep, binds_of_phase hph]
        exact iff_of_true h (by simp)
      · rw [hstep, referrer_commit hph]
        cases o.binds s.db with
        | none => exact iff_of_true h (by simp)
        | some r => simpa [hw] using acyclic_update_iff h
  | abort id => exact iff_of_true h trivial
  | register newId t =>
    simp only [Onboardings.step]
    split_ifs with hrow
    · exact iff_of_true h trivial
    · have hnone := Option.not_isSome_iff_eq_none.mp hrow
      have hold : s.db.referrer t = none := referrer_of_lookup hnone
      rw [referrer_createUser hnone, ← hold, Function.update_eq_self]
      exact iff_of_true h trivial
  | setDeleted t b =>
    simp only [Onboardings.step]
    split_ifs
    · exact iff_of_true h trivial
    · rw [referrer_setDeleted]
      exact iff_of_true h trivial
  | other tables => exact iff_of_true h trivial

/-! ### An onboarding on its own -/

/-- Users that are not deleted, under identifiers in range, are found. -/
theorem allLive_of_rows (h : ∀ u ∈ db.users,
    u.isDeleted = false ∧ 1 ≤ u.telegramId ∧ u.telegramId ≤ maxInt64) : db.AllLive := by
  intro t
  rw [Db.getUserByTelegramId, Db.getUserByTelegramIdAny]
  cases hrow : Lib.Table.lookup User.telegramId t db.users with
  | none => split_ifs <;> rfl
  | some u =>
    obtain ⟨hdel, hrange⟩ := h u (Lib.Table.mem_of_lookup User.telegramId hrow)
    rw [Lib.Table.key_of_lookup User.telegramId hrow] at hrange
    rw [if_pos hrange, Option.filter_some, hdel]
    rfl

/-- Where no row names a referrer, nobody is referred. -/
theorem referrer_none_of_rows (h : ∀ u ∈ db.users, u.referredBy = none) (t : TelegramId) :
    db.referrer t = none := by
  cases hrow : Lib.Table.lookup User.telegramId t db.users with
  | none => exact referrer_of_lookup hrow
  | some u =>
    exact (referrer_of_lookup hrow).trans (h u (Lib.Table.mem_of_lookup User.telegramId hrow))

/-- What an onboarding of `t` knows about the chain of the referrer it is going to store: as far as
    it has walked, it has not met `t`. -/
def OnboardingPhase.Clear (db : Db) (t : TelegramId) : OnboardingPhase → Prop
  | .walk refId refUser currentId chainVisited _ =>
    db.getUserByTelegramId refId = some refUser ∧ t ∈ chainVisited ∧ currentId ≠ t ∧
      (Leads db.referrer refId t → Leads db.referrer currentId t)
  | .write ref => ∀ r ∈ ref, ¬ Leads db.referrer r t
  | _ => True

@[simp] theorem clear_write_none : OnboardingPhase.Clear db t (.write none) := by
  simp [OnboardingPhase.Clear]

/-- Among live users the walk goes on along the stored chain, and where it stops the chain ends. -/
theorem clear_walkOn {refId currentId : TelegramId} {refUser : User}
    {chainVisited : List TelegramId} {depth : ℕ} (hlive : db.AllLive) (ht : t ≠ 0)
    (h : OnboardingPhase.Clear db t (.walk refId refUser currentId chainVisited depth)) :
    (walkOn db refId refUser currentId chainVisited depth).Clear db t := by
  obtain ⟨href, hmem, hne, hleads⟩ := h
  have hend : db.referrer currentId = none → ¬ Leads db.referrer refId t := by
    intro hnone hback
    exact hne ((leads_iff_of_none hnone).mp (hleads hback))
  simp only [walkOn]
  by_cases hdepth : maxReferralChainDepth < depth + 1
  · rw [if_pos hdepth]
    simp
  rw [if_neg hdepth]
  cases hrow : db.getUserByTelegramId currentId with
  | none =>
    rintro r ⟨⟩
    exact hend (referrer_of_lookup ((hlive currentId).symm.trans hrow))
  | some row =>
    -- The row that was loaded first is the one that is stored.
    have hcurrent : (if currentId = refId then refUser else row) = row := by
      split_ifs with hc
      · subst hc
        exact Option.some.inj (href.symm.trans hrow)
      · rfl
    have hold : db.referrer currentId = row.referredBy :=
      referrer_of_lookup ((hlive currentId).symm.trans hrow)
    simp only [hcurrent]
    cases hnext : row.referredBy with
    | none =>
      rintro r ⟨⟩
      exact hend (hold.trans hnext)
    | some next =>
      rw [hnext] at hold
      have hon : Leads db.referrer refId t → Leads db.referrer next t := fun hback =>
        ((leads_iff_of_edge hold).mp (hleads hback)).resolve_left hne
      by_cases hzero : next = 0
      · subst hzero
        -- Nobody has the id 0, so the chain ends there.
        have hnobody : db.referrer 0 = none := referrer_of_lookup ((hlive 0).symm.trans rfl)
        rintro r ⟨⟩ hback
        exact ht ((leads_iff_of_none hnobody).mp (hon hback)).symm
      · simp only [Option.filter_some, hzero, ne_eq, not_false_eq_true, decide_true, if_true]
        split_ifs with hvisited
        · simp
        · refine ⟨href, List.mem_cons_of_mem next hmem, ?_, hon⟩
          rintro rfl
          exact hvisited hmem

/-- Every read keeps what the onboarding knows. -/
theorem clear_read {o : Onboarding} (hlive : db.AllLive) (ht : o.telegramId ≠ 0)
    (h : o.phase.Clear db o.telegramId) : (o.read db).phase.Clear db o.telegramId := by
  cases hph : o.phase with
  | findUser =>
    simp only [Onboarding.read, Onboarding.found, hph]
    cases db.getUserByTelegramIdAny o.telegramId with
    | none =>
      cases hcode : o.refId with
      | none => simp
      | some refId => trivial
    | some user =>
      cases hcode : o.refId with
      | none => simp
      | some refId =>
        simp only []
        split_ifs
        · trivial
        · simp
  | lockUser refId =>
    simp only [Onboarding.read, hph]
    trivial
  | checkTopup refId =>
    simp only [Onboarding.read, hph]
    split_ifs
    · simp
    · trivial
  | findReferrer refId =>
    simp only [Onboarding.read, hph]
    split_ifs with hself
    · simp
    · cases href : db.getUserByTelegramId refId with
      | none => simp
      | some refUser => exact ⟨href, by simp, hself, id⟩
  | walk refId refUser currentId chainVisited depth =>
    simp only [Onboarding.read, hph]
    rw [hph] at h
    exact clear_walkOn hlive ht h
  | write ref =>
    simp only [Onboarding.read, hph]
    rwa [hph] at h

/-- The onboarding in the session has seen the chain that is stored. -/
def Undisturbed (s : Onboardings) (id : ℕ) : Prop :=
  ∀ o ∈ s.session id, s.db.AllLive ∧ o.telegramId ≠ 0 ∧ o.phase.Clear s.db o.telegramId

/-- Where the onboarding has seen the stored chain, it binds forward. -/
theorem bindsForward_of_undisturbed (h : Undisturbed s id) : BindsForward s (.advance id) := by
  intro o ho _ r hr
  obtain ⟨-, -, hclear⟩ := h o ho
  simp only [Onboarding.binds] at hr
  split at hr
  · rename_i ref hph
    rw [hph] at hclear
    split_ifs at hr
    · exact hclear r hr
    · cases hr
  · cases hr

theorem read_id (o : Onboarding) (db : Db) : (o.read db).id = o.id := by
  simp only [Onboarding.read]
  split
  · split <;> rfl
  all_goals rfl

theorem read_telegramId (o : Onboarding) (db : Db) :
    (o.read db).telegramId = o.telegramId := by
  simp only [Onboarding.read]
  split
  · split <;> rfl
  all_goals rfl

/-- It has still done so after its own turn. -/
theorem undisturbed_advance (h : Undisturbed s id) : Undisturbed (s.step (.advance id)) id := by
  cases hs : s.session id with
  | none => simpa only [Onboardings.step, hs] using h
  | some o =>
    obtain ⟨hlive, ht, hclear⟩ := h o hs
    rcases step_advance hs with ⟨-, hstep⟩ | ⟨-, -, hstep⟩ | ⟨-, ref, -, hstep⟩
    · rwa [hstep]
    · rw [hstep]
      intro o' ho'
      have hid : (o.read s.db).id = id :=
        (read_id o s.db).trans (Lib.Table.key_of_lookup Onboarding.id hs)
      have hput := Lib.Table.lookup_put_self Onboarding.id hs hid
      obtain rfl := Option.some.inj (hput.symm.trans ho')
      rw [read_telegramId]
      exact ⟨hlive, ht, clear_read hlive ht hclear⟩
    · rw [hstep]
      intro o' ho'
      have hmem := List.mem_filter.mp (Lib.Table.mem_of_lookup Onboarding.id ho')
      have hid := Lib.Table.key_of_lookup Onboarding.id ho'
      simp [hid] at hmem

/-- It has done so when it begins. -/
theorem undisturbed_begin (hlive : s.db.AllLive) (hnew : s.session id = none)
    {refId : Option TelegramId} {newId : UserId} (ht : t ≠ 0) :
    Undisturbed (s.step (.begin id t refId newId)) id := by
  intro o ho
  rw [Onboardings.step, hnew] at ho ⊢
  rw [Onboardings.session] at hnew
  simp only [Onboardings.session, Option.isSome_none, Bool.false_eq_true, if_false,
    Lib.Table.lookup_append, hnew, if_true, Option.none_or] at ho
  cases ho
  exact ⟨hlive, ht, trivial⟩

/-- Among live users, an onboarding that nobody disturbs binds forward. -/
theorem onboarding_alone (hlive : s.db.AllLive) (hnew : s.session id = none)
    {refId : Option TelegramId} {newId : UserId} (ht : t ≠ 0) (n : ℕ) :
    Lib.Always Onboardings.step BindsForward s
      (.begin id t refId newId :: List.replicate n (.advance id)) := by
  have hall : ∀ s, Undisturbed s id →
      Lib.Always Onboardings.step BindsForward s (List.replicate n (.advance id)) := by
    induction n with
    | zero =>
      intro s _
      trivial
    | succ n ih =>
      intro s hs
      exact ⟨bindsForward_of_undisturbed hs, ih _ (undisturbed_advance hs)⟩
  exact ⟨trivial, hall _ (undisturbed_begin hlive hnew ht)⟩

/-! ### Every run -/

/-- Two registered users, and nobody referred. -/
def twoUsers : Onboardings where
  db := { users := [{ id := 1, telegramId := 1 }, { id := 2, telegramId := 2 }] }

/-- A user follows the code of another one. -/
def followCode (session : ℕ) (t refId : TelegramId) : List OnboardingEvent :=
  .begin session t (some refId) 0 :: List.replicate 8 (.advance session)

example : (Lib.run Onboardings.step twoUsers (followCode 1 1 2)).db.referrer 1 = some 2 := by
  decide

/-- Two users follow each other's codes, and both chains are walked before either is written. -/
def mutualCodes : List OnboardingEvent :=
  [.register 1 1, .register 2 2, .begin 1 1 (some 2) 0, .begin 2 2 (some 1) 0] ++
    (List.replicate 6 [OnboardingEvent.advance 1, .advance 2]).flatten

/-- User 1 refers user 3, who refers user 2 and is deleted; then user 1 follows the code of
    user 2. -/
def deletedLink : List OnboardingEvent :=
  [.register 1 1, .register 2 2, .register 3 3] ++ followCode 1 3 1 ++ followCode 2 2 3 ++
    [.setDeleted 3 true] ++ followCode 3 1 2

end Just1kBot
