import Just1kBot.Lib.Transition
import Just1kBot.Workers.Notifications

/-! Runs of the expiry reminders: notification cycles, user by user, interleaved with the operations
    that change `subscription_end`.

    A cycle takes its time once, selects the users and goes through them, each in a transaction of
    its own that locks the row; a locked row is skipped. An operation belongs to a session, which
    loads the user when it opens and may have to wait for the row. -/

namespace Just1kBot

/-! ### The system -/

/-- A reminder that was delivered, with the end date it was about, or a change of the end date. -/
inductive ReminderEntry
  | sent (user : UserId) (type : NotificationType) (endsAt : Option Time)
  | moved (user : UserId)
  deriving DecidableEq, Repr

/-- The place of the worker in its cycle: the users that are left for a sender. -/
inductive CyclePhase
  | idle
  | pre (ids : List UserId)
  | post (ids : List UserId)
  deriving DecidableEq, Repr

/-- The rows, the `current_time` of the last cycle, the worker, its cache, the users that open
    sessions loaded, and what has happened so far, the latest first. -/
structure Reminders where
  users : List NotifiedUser
  now : Time
  phase : CyclePhase := .idle
  lastTypes : UserId → Option NotificationType := fun _ => none
  sessions : List User := []
  log : List ReminderEntry := []

inductive ReminderEvent
  /-- A cycle begins, some microseconds after the last one did. -/
  | cycle (d : ℕ)
  /-- The worker takes the next user, whose row may be locked, or goes on to the next sender. -/
  | next (locked : Bool) (outcome : SendOutcome)
  /-- An exception ends the cycle between two users. -/
  | fails
  /-- The cache drops a user, by age, by size or at a restart. -/
  | expires (id : UserId)
  /-- The columns that exclude a user are written. -/
  | excludes (id : UserId) (isBanned isDeleted isBotBlocked : Bool)
  /-- A session loads a user. -/
  | opens (id : UserId)
  /-- The operation of session `i` runs at `now` and commits. -/
  | operates (i : ℕ) (now : Time) (op : EndOperation)
  /-- Session `i` ends without a commit. -/
  | closes (i : ℕ)
  deriving DecidableEq

namespace Reminders

def row (s : Reminders) (id : UserId) : Option NotifiedUser :=
  Lib.Table.lookup NotifiedUser.id id s.users

def putRow (s : Reminders) (r : NotifiedUser) : Reminders :=
  { s with users := Lib.Table.put NotifiedUser.id r s.users }

/-- A sender takes one user. -/
def attempt (s : Reminders)
    (sender : NotifiedUser → Time → Option NotificationType → SendOutcome → Attempt)
    (id : UserId) (locked : Bool) (outcome : SendOutcome) : Reminders :=
  match locked, s.row id with
  | false, some r =>
    let a := sender r s.now (s.lastTypes id) outcome
    { s.putRow a.row with
      lastTypes := Function.update s.lastTypes id a.lastType
      log := (a.sent.map fun t => .sent id t r.user.subscriptionEnd).toList ++ s.log }
  | _, _ => s

/-- An operation commits on a user its session loaded. -/
def operate (s : Reminders) (now : Time) (op : EndOperation) (loaded : User) : Reminders :=
  match s.row loaded.id with
  | none => s
  | some r =>
    let user := op.leaves now loaded r.user
    { s.putRow { r with user } with
      log :=
        if user.subscriptionEnd = r.user.subscriptionEnd then s.log
        else .moved loaded.id :: s.log }

/-- One step of the code. -/
def step (s : Reminders) : ReminderEvent → Reminders
  | .cycle d =>
    match s.phase with
    | .idle =>
      let now := s.now + d
      { s with now, phase := .pre (selectIds (NotifiedUser.preExpirySelected now) s.users) }
    | _ => s
  | .next locked outcome =>
    match s.phase with
    | .idle => s
    | .pre [] =>
      { s with phase := .post (selectIds (NotifiedUser.postExpirySelected s.now) s.users) }
    | .pre (id :: ids) =>
      { s with phase := .pre ids }.attempt NotifiedUser.sendPreExpiry id locked outcome
    | .post [] => { s with phase := .idle }
    | .post (id :: ids) =>
      { s with phase := .post ids }.attempt NotifiedUser.sendPostExpiry id locked outcome
  | .fails => { s with phase := .idle }
  | .expires id => { s with lastTypes := Function.update s.lastTypes id none }
  | .excludes id isBanned isDeleted isBotBlocked =>
    match s.row id with
    | none => s
    | some r => s.putRow { user := { r.user with isBanned, isDeleted }, isBotBlocked }
  | .opens id =>
    match s.row id with
    | none => s
    | some r => { s with sessions := s.sessions ++ [r.user] }
  | .operates i now op =>
    match s.sessions[i]? with
    | none => s
    | some loaded => { s with sessions := s.sessions.eraseIdx i }.operate now op loaded
  | .closes i => { s with sessions := s.sessions.eraseIdx i }

/-! ### What is claimed -/

/-- The levels sent to a user since the end date last changed. -/
def sentSince (id : UserId) : List ReminderEntry → List NotificationType
  | [] => []
  | .sent user type _ :: log => if user = id then type :: sentSince id log else sentSince id log
  | .moved user :: log => if user = id then [] else sentSince id log

/-- The levels sent to a user for an end date, the latest first. -/
def sentFor (id : UserId) (endsAt : Option Time) : List ReminderEntry → List NotificationType
  | [] => []
  | .sent user type e :: log =>
    if user = id ∧ e = endsAt then type :: sentFor id endsAt log else sentFor id endsAt log
  | .moved _ :: log => sentFor id endsAt log

/-- Each level is sent at most once between two changes of the end date, and for one end date no
    level follows a more urgent one. -/
structure Orderly (s : Reminders) : Prop where
  once : ∀ id, (sentSince id s.log).Nodup
  escalating : ∀ id endsAt,
    (sentFor id endsAt s.log).Pairwise fun later earlier => earlier.urgency ≤ later.urgency

end Reminders

/-- The second date is in the future and later than the first. -/
def laterFuture (now : Time) (before after : Option Time) : Bool :=
  after.any fun e => now < e && before.all (· < e)

namespace Reminders

/-- An operation that moves an end date to a later future time leaves every level armed. -/
def Rearms (s : Reminders) (e : ReminderEvent) : Prop :=
  match e with
  | .operates _ now _ => ∀ r₀ ∈ s.users, ∀ r ∈ s.row r₀.user.id, ∀ r' ∈ (s.step e).row r₀.user.id,
      laterFuture now r.user.subscriptionEnd r'.user.subscriptionEnd = true → r'.user.armed = true
  | _ => True

end Reminders

/-! ### The condition -/

/-- The reminders that `stored` records, `u` records. -/
def User.recordsAll (u stored : User) : Bool :=
  (!stored.notified3d || u.notified3d) && (!stored.notified1d || u.notified1d) &&
    (!stored.notified2h || u.notified2h) && (!stored.notifiedExpired || u.notifiedExpired) &&
    (!stored.notifiedGrace12h || u.notifiedGrace12h)

namespace EndOperation

/-- The operation resets the reminders of a user whose end date it does not change. -/
def keepsEnd (now : Time) (endsAt : Option Time) : EndOperation → Bool
  | .fulfill order =>
    order.durationDays = 0 ||
      (order.metadata.isTariffChange && endsAt = some (now + days order.durationDays))
  | .revoke _ => false
  | .extend n _ _ _ => n = 0 || (permanentSubscriptionDays ≤ n && endsAt = some permanentEndDate)
  | .replace subscriptionEnd _ _ _ => endsAt = some subscriptionEnd
  | .reduce _ => endsAt = some (now - hours (vpnAccessGraceHours + 1))

/-- The refund of a tariff change brings back an end date that is later and in the future. -/
def restoresLater (now : Time) (endsAt : Option Time) : EndOperation → Bool
  | .revoke order =>
    order.metadata.isTariffChange && laterFuture now endsAt order.metadata.previousSubscriptionEnd
  | _ => false

/-- The operation resets the reminders. -/
def clears : EndOperation → Bool
  | .revoke _ => false
  | _ => true

/-- Where a reminder is recorded, the operation knows the end date and, to reset them, the records;
    it does not reset them under the same end date, nor keep them under a later one. -/
def Attentive (op : EndOperation) (now : Time) (loaded stored : User) : Prop :=
  op.permitted now (op.copy loaded stored) stored = true → stored.armed = false →
    (op.copy loaded stored).subscriptionEnd = stored.subscriptionEnd ∧
      (op.clears = true → (op.copy loaded stored).recordsAll stored = true) ∧
      op.keepsEnd now stored.subscriptionEnd = false ∧
      op.restoresLater now stored.subscriptionEnd = false

instance (op : EndOperation) (now : Time) (loaded stored : User) :
    Decidable (op.Attentive now loaded stored) := by unfold Attentive; infer_instance

end EndOperation

namespace Reminders

/-- The operation of the step is attentive to the row it finds. -/
def Attentive (s : Reminders) : ReminderEvent → Prop
  | .operates i now op => ∀ loaded ∈ s.sessions[i]?, ∀ r ∈ s.row loaded.id,
      op.Attentive now loaded r.user
  | _ => True

instance (s : Reminders) : ∀ e, Decidable (Attentive s e)
  | .operates i now op =>
    inferInstanceAs (Decidable (∀ loaded ∈ s.sessions[i]?, ∀ r ∈ s.row loaded.id,
      op.Attentive now loaded r.user))
  | .cycle _ | .next _ _ | .fails | .expires _ | .excludes _ _ _ _ | .opens _ | .closes _ =>
    .isTrue trivial

instance (s : Reminders) : ∀ e, Decidable (Rearms s e)
  | .operates i now op =>
    inferInstanceAs (Decidable (∀ r₀ ∈ s.users, ∀ r ∈ s.row r₀.user.id,
      ∀ r' ∈ (s.step (.operates i now op)).row r₀.user.id,
        laterFuture now r.user.subscriptionEnd r'.user.subscriptionEnd = true →
          r'.user.armed = true))
  | .cycle _ | .next _ _ | .fails | .expires _ | .excludes _ _ _ _ | .opens _ | .closes _ =>
    .isTrue trivial

end Reminders

/-! ### What an operation leaves -/

@[simp] theorem laterFuture_self (now : Time) (endsAt : Option Time) :
    laterFuture now endsAt endsAt = false := by
  cases endsAt <;> simp [laterFuture]

namespace User

theorem armed_iff {u : User} : u.armed = true ↔ u.notified = fun _ => false := by
  constructor
  · intro h
    simp only [armed, Bool.and_eq_true, Bool.not_eq_true'] at h
    obtain ⟨⟨⟨⟨hthree, hone⟩, htwo⟩, hexpired⟩, hgrace⟩ := h
    funext t
    cases t <;> assumption
  · intro h
    have hall : ∀ t, u.notified t = false := congrFun h
    simp only [armed, Bool.and_eq_true, Bool.not_eq_true']
    exact ⟨⟨⟨⟨hall .threeDays, hall .oneDay⟩, hall .twoHours⟩, hall .expired⟩, hall .grace12h⟩

theorem Coherent.of_notified {u u' : User} (h : u.Coherent) (hsame : u'.notified = u.notified) :
    u'.Coherent := by
  constructor <;> rw [hsame]
  exacts [h.oneDay, h.threeDays, h.expired]

theorem coherent_of_armed {u : User} (h : u.armed = true) : u.Coherent := by
  rw [armed_iff] at h
  constructor <;> simp [h]

theorem recordsAll_iff {u stored : User} : u.recordsAll stored = true ↔
    ∀ t, stored.notified t = true → u.notified t = true := by
  simp only [recordsAll, Bool.and_eq_true, Bool.or_eq_true, Bool.not_eq_true']
  constructor
  · rintro ⟨⟨⟨⟨hthree, hone⟩, htwo⟩, hexpired⟩, hgrace⟩ t hflag
    have hor : stored.notified t = false ∨ u.notified t = true := by
      cases t
      exacts [hthree, hone, htwo, hexpired, hgrace]
    exact hor.resolve_left (by simp [hflag])
  · intro h
    have hor : ∀ t, stored.notified t = false ∨ u.notified t = true := fun t => by
      rcases hflag : stored.notified t with _ | _
      · exact .inl rfl
      · exact .inr (h t hflag)
    exact ⟨⟨⟨⟨hor .threeDays, hor .oneDay⟩, hor .twoHours⟩, hor .expired⟩, hor .grace12h⟩

theorem notified_flush (loaded current stored : User) (t : NotificationType) :
    (loaded.flush current stored).notified t =
      Lib.written (loaded.notified t) (current.notified t) (stored.notified t) := by
  cases t <;> rfl

end User

namespace EndOperation

/-- All operations but a revocation clear the flags. -/
theorem apply_notified {op : EndOperation} {now : Time} {u stored : User}
    (hpermitted : op.permitted now u stored = true) (hclears : op.clears = true) :
    (op.apply now u).notified = fun _ => false := by
  funext t
  cases op with
  | fulfill order => cases t <;> rfl
  | revoke order => cases hclears
  | extend n limit tariff count => cases t <;> rfl
  | replace e limit tariff count => cases t <;> rfl
  | reduce n =>
    rw [apply, adminSubApplyReduce]
    rcases hend : u.subscriptionEnd with _ | e
    · simp [permitted, hend] at hpermitted
    · cases t <;> rfl

/-- A revocation does not touch them. -/
theorem revokeStandard_notified (now : Time) (order : Order) (u : User) :
    (revokeStandard now order u).notified = u.notified := by
  funext t
  rw [revokeStandard]
  split
  · cases t <;> rfl
  · split
    · rfl
    · split_ifs <;> cases t <;> rfl

/-- What clears the flags moves the end date, unless it keeps it. -/
theorem apply_subscriptionEnd_ne {op : EndOperation} {now : Time} {u stored : User}
    (hpermitted : op.permitted now u stored = true) (hclears : op.clears = true)
    (hkeeps : op.keepsEnd now u.subscriptionEnd = false) :
    (op.apply now u).subscriptionEnd ≠ u.subscriptionEnd := by
  have hday : ∀ n : ℤ, 0 < n → 0 < days n := fun n hn => by
    simp only [days, seconds]
    omega
  cases op with
  | fulfill order =>
    simp only [keepsEnd, Bool.or_eq_false_iff, decide_eq_false_iff_not,
      Bool.and_eq_false_imp] at hkeeps
    have hpos := hday order.durationDays (by omega)
    rw [apply, grantStandard]
    dsimp only
    rw [if_neg hkeeps.1]
    split_ifs with hchange
    · exact fun h => hkeeps.2 hchange h.symm
    · rcases hend : u.subscriptionEnd with _ | e
      · simp
      · intro h
        have hmax : max e now + days order.durationDays = e := Option.some.inj h
        linarith [le_max_left e now]
  | revoke order => cases hclears
  | extend n limit tariff count =>
    simp only [keepsEnd, Bool.or_eq_false_iff, decide_eq_false_iff_not,
      Bool.and_eq_false_imp, decide_eq_true_eq] at hkeeps
    have hpos := hday n (by omega)
    rw [apply, extendSubscription]
    dsimp only
    rw [if_neg hkeeps.1]
    split_ifs with hlong
    · exact fun h => hkeeps.2 hlong h.symm
    · rcases hend : u.subscriptionEnd with _ | e
      · simp
      · intro h
        have hsum : ((some e).filter (now < ·)).getD now + days n = e := Option.some.inj h
        by_cases hactive : now < e
        · rw [Option.filter_some_pos (by simpa using hactive), Option.getD_some] at hsum
          linarith
        · rw [Option.filter_some_neg (by simpa using hactive), Option.getD_none] at hsum
          linarith
  | replace e limit tariff count =>
    simp only [keepsEnd, decide_eq_false_iff_not] at hkeeps
    exact fun h => hkeeps h.symm
  | reduce n =>
    simp only [keepsEnd, decide_eq_false_iff_not] at hkeeps
    simp only [permitted, Bool.and_eq_true, decide_eq_true_eq] at hpermitted
    have hpos := hday n (by omega)
    rw [apply, adminSubApplyReduce]
    rcases hend : u.subscriptionEnd with _ | e
    · simp [hend] at hpermitted
    · rw [hend] at hkeeps
      dsimp only
      split_ifs with hpast
      · exact fun h => hkeeps h.symm
      · intro h
        have hsub : e - days n = e := Option.some.inj h
        linarith

/-- A revocation moves the end date to a later future time only by bringing one back. -/
theorem restoresLater_of_laterFuture {order : Order} {now : Time} {u : User}
    (h : laterFuture now u.subscriptionEnd (revokeStandard now order u).subscriptionEnd = true) :
    (revoke order).restoresLater now u.subscriptionEnd = true := by
  rw [restoresLater]
  unfold revokeStandard at h
  split at h
  · next prevEnd hchange hprev => simpa [hchange, hprev] using h
  · split at h
    · next hend => simp [hend] at h
    · next e hend =>
      by_cases hzero : order.durationDays = 0
      · rw [if_pos hzero, laterFuture_self] at h
        cases h
      · have hpos : 0 < days order.durationDays := by
          simp only [days, seconds]
          omega
        rw [if_neg hzero, hend, laterFuture, Option.any_some, Option.all_some, Bool.and_eq_true,
          decide_eq_true_eq, decide_eq_true_eq] at h
        obtain ⟨hfuture, hlater⟩ := h
        split_ifs at hfuture hlater with hpast
        · simp only [hours, seconds, vpnAccessGraceHours] at hfuture
          linarith
        · linarith

theorem leaves_id (op : EndOperation) (now : Time) (loaded stored : User) :
    (op.leaves now loaded stored).id = stored.id := by
  simp only [leaves]
  split_ifs <;> rfl

/-- A session that knows the stored end date writes the one it decided on. -/
theorem flush_subscriptionEnd {user stored : User}
    (hend : user.subscriptionEnd = stored.subscriptionEnd) (current : User) :
    (user.flush current stored).subscriptionEnd = current.subscriptionEnd := by
  change Lib.written user.subscriptionEnd current.subscriptionEnd stored.subscriptionEnd = _
  rw [hend, Lib.written_stored]

/-- An attentive operation clears the flags and moves the end date, or it keeps the flags and a
    later future date finds none of them. -/
theorem leaves_spec {op : EndOperation} {now : Time} {loaded stored : User}
    (h : op.Attentive now loaded stored) :
    ((op.leaves now loaded stored).notified = stored.notified ∧
      (laterFuture now stored.subscriptionEnd (op.leaves now loaded stored).subscriptionEnd =
        true → (op.leaves now loaded stored).armed = true)) ∨
    ((op.leaves now loaded stored).armed = true ∧
      (op.leaves now loaded stored).subscriptionEnd ≠ stored.subscriptionEnd) := by
  rw [leaves]
  rw [Attentive] at h
  generalize op.copy loaded stored = user at *
  by_cases hpermitted : op.permitted now user stored = true
  · rw [if_pos hpermitted]
    have hflag := user.notified_flush (op.apply now user) stored
    rcases hclears : op.clears with _ | _
    · -- A revocation keeps the flags as they are stored.
      obtain ⟨order, rfl⟩ : ∃ order, op = revoke order := by
        cases op with
        | revoke order => exact ⟨order, rfl⟩
        | _ => cases hclears
      have hsame : (user.flush (apply now user (revoke order)) stored).notified =
          stored.notified := by
        funext t
        rw [hflag t, apply, revokeStandard_notified, Lib.written_loaded]
      refine .inl ⟨hsame, fun hlater => ?_⟩
      rcases harmed : stored.armed with _ | _
      · obtain ⟨hend, -, -, hrestores⟩ := h hpermitted harmed
        rw [flush_subscriptionEnd hend, ← hend] at hlater
        rw [← hend, restoresLater_of_laterFuture hlater] at hrestores
        cases hrestores
      · rwa [User.armed_iff, hsame, ← User.armed_iff]
    · have hnone := apply_notified hpermitted hclears
      have hcleared (hall : ∀ t, stored.notified t = true → user.notified t = true) :
          (user.flush (op.apply now user) stored).armed = true := by
        refine User.armed_iff.mpr (funext fun t => ?_)
        rw [hflag t, hnone, Lib.written]
        rcases ht : stored.notified t with _ | _
        · rw [ite_self]
        · rw [hall t ht, if_neg Bool.false_ne_true]
      rcases harmed : stored.armed with _ | _
      · obtain ⟨hend, hall, hkeeps, -⟩ := h hpermitted harmed
        refine .inr ⟨hcleared (User.recordsAll_iff.mp (hall hclears)), ?_⟩
        rw [flush_subscriptionEnd hend, ← hend]
        exact apply_subscriptionEnd_ne hpermitted hclears (hend ▸ hkeeps)
      · have hstored := User.armed_iff.mp harmed
        have hafter := hcleared fun t ht => by simp [hstored] at ht
        exact .inl ⟨(User.armed_iff.mp hafter).trans hstored.symm, fun _ => hafter⟩
  · rw [if_neg hpermitted]
    refine .inl ⟨rfl, fun hlater => ?_⟩
    rw [laterFuture_self] at hlater
    cases hlater

end EndOperation

namespace Reminders

/-! ### Every run -/

/-- What the rows of the users, the clock and the log keep to. -/
structure Sound (user : UserId → Option User) (now : Time) (log : List ReminderEntry) : Prop where
  coherent : ∀ id, ∀ u ∈ user id, u.Coherent
  recorded : ∀ id, ∀ u ∈ user id, ∀ type ∈ sentSince id log, u.notified type = true
  once : ∀ id, (sentSince id log).Nodup
  escalating : ∀ id endsAt,
    (sentFor id endsAt log).Pairwise fun later earlier => earlier.urgency ≤ later.urgency
  due : ∀ id endsAt, ∀ type ∈ sentFor id (some endsAt) log, type.urgency ≤ urgencyAt now endsAt

section Sound
variable {user user' : UserId → Option User} {now : Time} {log : List ReminderEntry}

/-- The flags of the users stay, and the clock goes on. -/
theorem Sound.of_sameFlags (h : Sound user now log) {now' : Time} (hnow : now ≤ now')
    (hsame : ∀ id, ∀ u' ∈ user' id, ∃ u ∈ user id, u'.notified = u.notified) :
    Sound user' now' log where
  coherent := by
    intro id u' hu'
    obtain ⟨u, hu, hflags⟩ := hsame id u' hu'
    exact (h.coherent id u hu).of_notified hflags
  recorded := by
    intro id u' hu' type htype
    obtain ⟨u, hu, hflags⟩ := hsame id u' hu'
    rw [hflags]
    exact h.recorded id u hu type htype
  once := h.once
  escalating := h.escalating
  due := fun id endsAt type htype => (h.due id endsAt type htype).trans (urgencyAt_mono hnow endsAt)

/-- The flags of one user change. -/
theorem forall_update {P : UserId → User → Prop} {id : UserId} {u : User}
    (hother : ∀ id', ∀ u' ∈ user id', id' ≠ id → P id' u') (hself : P id u) :
    ∀ id', ∀ u' ∈ Function.update user id (some u) id', P id' u' := by
  intro id' u' hu'
  by_cases hid : id' = id
  · subst hid
    rw [Function.update_self] at hu'
    cases hu'
    exact hself
  · rw [Function.update_of_ne hid] at hu'
    exact hother id' u' hu' hid

/-- A level is sent that was not recorded, and is recorded. -/
theorem Sound.sent (h : Sound user now log) {id : UserId} {u u' : User} (hu : user id = some u)
    {type : NotificationType} {endsAt : Time} (hnew : u.notified type = false)
    (hurgency : type.urgency = urgencyAt now endsAt)
    (hsame : (u.recordSent type).SameReminders u') :
    Sound (Function.update user id (some u')) now (.sent id type (some endsAt) :: log) where
  coherent := forall_update (fun id' u' hu' _ => h.coherent id' u' hu')
    (((h.coherent id u hu).recordSent type).of_notified hsame.notified)
  recorded := by
    refine forall_update (fun id' u' hu' hid => ?_) ?_
    · rw [sentSince, if_neg (Ne.symm hid)]
      exact h.recorded id' u' hu'
    · intro t ht
      rw [sentSince, if_pos rfl, List.mem_cons] at ht
      rw [hsame.notified, User.notified_recordSent, Bool.or_eq_true]
      rcases ht with rfl | ht
      · cases t <;> exact .inl rfl
      · exact .inr (h.recorded id u hu t ht)
  once := by
    intro id'
    rw [sentSince]
    split_ifs with hid
    · subst hid
      refine List.nodup_cons.mpr ⟨fun hmem => ?_, h.once id⟩
      rw [h.recorded id u hu type hmem] at hnew
      cases hnew
    · exact h.once id'
  escalating := by
    intro id' endsAt'
    rw [sentFor]
    split_ifs with hmatch
    · obtain ⟨rfl, rfl⟩ := hmatch
      refine List.pairwise_cons.mpr ⟨fun earlier hmem => ?_, h.escalating id _⟩
      rw [hurgency]
      exact h.due id endsAt earlier hmem
    · exact h.escalating id' endsAt'
  due := by
    intro id' endsAt' t ht
    rw [sentFor] at ht
    split_ifs at ht with hmatch
    · obtain ⟨rfl, hends⟩ := hmatch
      cases hends
      rcases List.mem_cons.mp ht with rfl | ht
      · exact hurgency.le
      · exact h.due id endsAt t ht
    · exact h.due id' endsAt' t ht

/-- The end date of a user changes, to one with no flag up or with the flags there were. -/
theorem Sound.moved (h : Sound user now log) {id : UserId} {u' : User} (hu' : u'.Coherent) :
    Sound (Function.update user id (some u')) now (.moved id :: log) where
  coherent := forall_update (fun id' u hu _ => h.coherent id' u hu) hu'
  recorded := by
    refine forall_update (fun id' u hu hid => ?_) ?_
    · rw [sentSince, if_neg (Ne.symm hid)]
      exact h.recorded id' u hu
    · intro t ht
      rw [sentSince, if_pos rfl] at ht
      cases ht
  once := by
    intro id'
    rw [sentSince]
    split_ifs
    · exact List.nodup_nil
    · exact h.once id'
  escalating := h.escalating
  due := h.due

end Sound

/-- The user of a row. -/
def user (s : Reminders) (id : UserId) : Option User := (s.row id).map NotifiedUser.user

theorem user_of_row {s : Reminders} {id : UserId} {r : NotifiedUser} (h : s.row id = some r) :
    s.user id = some r.user := by
  rw [user, h]
  rfl

theorem id_of_row {s : Reminders} {id : UserId} {r : NotifiedUser} (h : s.row id = some r) :
    r.user.id = id :=
  Lib.Table.key_of_lookup NotifiedUser.id h

theorem row_putRow {s : Reminders} {id : UserId} {r r' : NotifiedUser} (h : s.row id = some r)
    (hid : r'.user.id = id) (id' : UserId) :
    (s.putRow r').row id' = if id' = id then some r' else s.row id' := by
  subst hid
  have hlookup : (s.putRow r').row id' =
      if id' = r'.user.id then (s.row r'.user.id).map (fun _ => r') else s.row id' :=
    Lib.Table.lookup_put NotifiedUser.id r' id' s.users
  rw [hlookup, h]
  rfl

theorem user_putRow {s : Reminders} {id : UserId} {r r' : NotifiedUser} (h : s.row id = some r)
    (hid : r'.user.id = id) :
    (s.putRow r').user = Function.update s.user id (some r'.user) := by
  funext id'
  rw [user, row_putRow h hid]
  by_cases heq : id' = id
  · rw [heq, if_pos rfl, Function.update_self]
    rfl
  · rw [if_neg heq, Function.update_of_ne heq]
    rfl

/-- A row is written that has the flags of the row it replaces. -/
theorem Sound.put {s : Reminders} (h : Sound s.user s.now s.log) {id : UserId}
    {r r' : NotifiedUser} (hrow : s.row id = some r) (hid : r'.user.id = id)
    (hflags : r'.user.notified = r.user.notified) : Sound (s.putRow r').user s.now s.log := by
  rw [user_putRow hrow hid]
  exact h.of_sameFlags le_rfl (forall_update (fun _ u hu _ => ⟨u, hu, rfl⟩)
    ⟨r.user, user_of_row hrow, hflags⟩)

/-- One user of a cycle. -/
theorem attempt_sound {s : Reminders} (h : Sound s.user s.now s.log)
    {sender : NotifiedUser → Time → Option NotificationType → SendOutcome → Attempt}
    (hsender : ∀ r last outcome, (sender r s.now last outcome).Reminds r s.now) (id : UserId)
    (locked : Bool) (outcome : SendOutcome) :
    Sound (s.attempt sender id locked outcome).user (s.attempt sender id locked outcome).now
      (s.attempt sender id locked outcome).log := by
  unfold attempt
  split
  · next r hrow =>
    change Sound (s.putRow _).user s.now _
    dsimp only
    rcases hsender r (s.lastTypes id) outcome with
      ⟨hnone, hsame⟩ | ⟨type, endsAt, hsent, hend, hnew, hurgency, hsame⟩
    · rw [hnone]
      exact h.put hrow (hsame.id.trans (id_of_row hrow)) hsame.notified
    · rw [hsent, hend, user_putRow hrow
        (hsame.id.trans ((r.user.recordSent_id type).trans (id_of_row hrow)))]
      exact h.sent (user_of_row hrow) hnew (hurgency (h.coherent id _ (user_of_row hrow))) hsame
  · exact h

/-- One attentive operation. -/
theorem operate_sound {s : Reminders} (h : Sound s.user s.now s.log) {now : Time}
    {op : EndOperation} {loaded : User}
    (hop : ∀ r ∈ s.row loaded.id, op.Attentive now loaded r.user) :
    Sound (s.operate now op loaded).user (s.operate now op loaded).now
      (s.operate now op loaded).log := by
  rw [operate]
  split
  · exact h
  · next r hrow =>
    change Sound (s.putRow _).user s.now _
    have hid := (op.leaves_id now loaded r.user).trans (id_of_row hrow)
    rcases EndOperation.leaves_spec (hop r hrow) with ⟨hflags, -⟩ | ⟨harmed, hmoved⟩
    · dsimp only
      split_ifs
      · exact h.put hrow hid hflags
      · rw [user_putRow hrow hid]
        exact h.moved ((h.coherent _ _ (user_of_row hrow)).of_notified hflags)
    · dsimp only
      rw [if_neg hmoved, user_putRow hrow hid]
      exact h.moved (User.coherent_of_armed harmed)

/-- One step, attentive if it is an operation. -/
theorem step_sound {s : Reminders} (h : Sound s.user s.now s.log) {e : ReminderEvent}
    (he : Attentive s e) : Sound (s.step e).user (s.step e).now (s.step e).log := by
  cases e with
  | cycle d =>
    rw [step]
    split
    · exact h.of_sameFlags (by linarith [Int.natCast_nonneg d]) fun id u hu => ⟨u, hu, rfl⟩
    · exact h
  | next locked outcome =>
    rw [step]
    split
    · exact h
    · exact h
    · next id ids _ =>
      exact attempt_sound (s := { s with phase := .pre ids }) h
        (fun r => r.sendPreExpiry_reminds s.now) id locked outcome
    · exact h
    · next id ids _ =>
      exact attempt_sound (s := { s with phase := .post ids }) h
        (fun r => r.sendPostExpiry_reminds s.now) id locked outcome
  | fails => exact h
  | expires id => exact h
  | excludes id isBanned isDeleted isBotBlocked =>
    rw [step]
    split
    · exact h
    · next r hrow =>
      have hid : r.user.id = id := id_of_row hrow
      exact Sound.put (r := r) h hrow hid (funext fun t => by cases t <;> rfl)
  | opens id =>
    rw [step]
    split <;> exact h
  | operates i now op =>
    rw [step]
    split
    · exact h
    · next loaded hloaded =>
      exact operate_sound (s := { s with sessions := s.sessions.eraseIdx i }) h
        fun r hr => he loaded hloaded r hr
  | closes i => exact h

/-- An attentive operation rearms. -/
theorem rearms_of_attentive {s : Reminders} {e : ReminderEvent} (he : Attentive s e) :
    Rearms s e := by
  cases e with
  | operates i now op =>
    intro r₀ _ r hr r' hr' hlater
    have hstays (hsame : s.row r₀.user.id = some r') : r'.user.armed = true := by
      cases hr.symm.trans hsame
      rw [laterFuture_self] at hlater
      cases hlater
    rw [step] at hr'
    split at hr'
    · exact hstays hr'
    · next loaded hloaded =>
      rw [operate] at hr'
      split at hr'
      · exact hstays hr'
      · next r₁ hrow =>
        change s.row loaded.id = some r₁ at hrow
        have hid := (op.leaves_id now loaded r₁.user).trans (id_of_row hrow)
        replace hr' := (row_putRow hrow hid r₀.user.id).symm.trans hr'
        split_ifs at hr' with heq
        · cases hr'
          cases hrow.symm.trans (heq ▸ hr)
          rcases EndOperation.leaves_spec (he loaded hloaded r hrow) with ⟨-, harmed⟩ | ⟨harmed, -⟩
          · exact harmed hlater
          · exact harmed
        · exact hstays hr'
  | _ => trivial

theorem Sound.orderly {s : Reminders} (h : Sound s.user s.now s.log) : Orderly s :=
  ⟨h.once, h.escalating⟩

/-- Nothing has been sent, and no user has a more urgent flag up alone. -/
def Opened (s : Reminders) : Prop := s.log = [] ∧ ∀ r ∈ s.users, r.user.Coherent

theorem sound_of_opened {s : Reminders} (h : Opened s) : Sound s.user s.now s.log := by
  obtain ⟨hlog, husers⟩ := h
  rw [hlog]
  refine ⟨fun id u hu => ?_, fun _ _ _ _ h => ?_, fun _ => List.nodup_nil, fun _ _ => .nil,
    fun _ _ _ h => ?_⟩
  · obtain ⟨r, hr, rfl⟩ := Option.map_eq_some_iff.mp hu
    exact husers r (Lib.Table.mem_of_lookup NotifiedUser.id hr)
  · cases h
  · cases h

/-- In every run whose operations are attentive, no level is sent twice between two changes of the
    end date or after a more urgent one for the same date, and an end date that moves to a later
    future time finds every level armed. -/
theorem reminders_of_attentive (s : Reminders) (hs : Opened s) (es : List ReminderEvent)
    (hes : Lib.Always step Attentive s es) :
    Lib.Throughout step Orderly s es ∧ Lib.Always step Rearms s es := by
  have hstep (s : Reminders) (e : ReminderEvent) (h : Sound s.user s.now s.log)
      (he : Attentive s e) : Sound (s.step e).user (s.step e).now (s.step e).log :=
    step_sound h he
  have hsound := sound_of_opened hs
  constructor
  · exact Lib.throughout_of_always step hstep (fun _ h => h.orderly) es s hsound hes
  · exact Lib.always_of_inv_of_always step hstep (fun _ _ _ he => rearms_of_attentive he) es s
      hsound hes

/-- One user, to whom nothing was sent yet. -/
def single (endsAt : Time) : Reminders where
  users := [{ user := { id := 1, telegramId := 1, subscriptionEnd := some endsAt } }]
  now := 0

theorem opened_single (endsAt : Time) : Opened (single endsAt) := by
  refine ⟨rfl, fun r hr => ?_⟩
  cases List.mem_singleton.mp hr
  exact User.coherent_of_armed rfl

/-- A user is reminded a day ahead, renews, and is reminded for the new end date. -/
def renewal : List ReminderEvent :=
  [.cycle 0, .next false .delivered, .next false .failed, .next false .failed, .opens 1,
    .operates 0 0 (.fulfill { id := 1, userId := 1, amountRub := 100, durationDays := 2 }),
    .cycle 86400000000, .next true .delivered, .next false .failed, .next false .failed,
    .cycle 1800000000, .next false .delivered]

theorem reminders_of_attentive_renewal :
    (Lib.run step (single (days 1)) renewal).log =
        [.sent 1 .threeDays (some (days 3)), .moved 1, .sent 1 .oneDay (some (days 1))] ∧
      Lib.Throughout step Orderly (single (days 1)) renewal ∧
      Lib.Always step Rearms (single (days 1)) renewal :=
  ⟨by decide +kernel,
    reminders_of_attentive (single (days 1)) (opened_single (days 1)) renewal (by decide +kernel)⟩

/-- The tariff change that is refunded in the run below. -/
def tariffChange : Order where
  id := 1
  userId := 1
  amountRub := 100
  durationDays := 30
  metadata := { isTariffChange := true }

/-- A refund brings back an end date ten days ahead and keeps the flags of the date before; a change
    of tariff by an admin resets the flags under the same end date, so the two-hour reminder is
    sent twice; a session that loaded the user before a reminder was recorded extends the
    subscription and leaves its flag up. -/
theorem refund_and_freeChange_and_staleCopy :
    (Opened (single (days 40)) ∧
      ¬ Lib.Always step Rearms (single (days 40))
        [.opens 1, .operates 0 0 (.fulfill tariffChange), .cycle 2588400000000,
          .next false .delivered, .opens 1, .operates 0 2588400000000 (.revoke { tariffChange with
            metadata.previousSubscriptionEnd := some (days 40) })]) ∧
    (Opened (single (hours 1)) ∧
      ¬ Lib.Throughout step Orderly (single (hours 1))
        [.cycle 0, .next false .delivered, .next false .failed, .next false .failed, .opens 1,
          .operates 0 0 (.extend 0 (some 3) (some 2) 1), .cycle 1800000000,
          .next false .delivered]) ∧
    ¬ Lib.Always step Rearms (single (hours 1))
      [.opens 1, .cycle 0, .next false .delivered, .operates 0 0 (.extend 30 none none 0)] := by
  refine ⟨⟨opened_single _, by decide +kernel⟩, ⟨opened_single _, fun h => ?_⟩, by decide +kernel⟩
  exact absurd ((Lib.run_of_throughout step _ _ h).once 1) (by decide +kernel)

end Reminders

end Just1kBot
