import Just1kBot.Lib.Keyset
import Just1kBot.WhiteInternet.Trials
import Just1kBot.Workers.Notifications

/-! The expiry reminders of White Internet: `_send_white_internet_notifications` of
    `services/workers/notifications.py`, interleaved with everything else that writes the rows.

    A pass takes its time, settles the rows that ended long ago, and selects the ones to remind. It
    takes them one by one, each in a transaction that holds the row until its message was answered;
    a locked row is skipped. A reminder is told by its level; its text and keyboard are not kept. -/

namespace Just1kBot

/-- `notify_type`, the least urgent first. -/
inductive WiReminder
  | threeDays | oneDay | twoHours | expired
  deriving DecidableEq, Repr

def WiReminder.urgency : WiReminder → ℕ
  | .threeDays => 1
  | .oneDay => 2
  | .twoHours => 3
  | .expired => 4

/-- What becomes of the message and of the transaction that sends it. -/
inductive WiSendOutcome
  | delivered
  /-- `TelegramForbiddenError`. -/
  | forbidden
  /-- Any other exception, after which the message may have arrived all the same. -/
  | failed (arrived : Bool)
  /-- The transaction does not commit, and the pass ends. -/
  | aborted (arrived : Bool)
  deriving DecidableEq, Repr

/-! ### The columns of a row -/

namespace WhiteInternetSubscription

/-- The flag of a level. -/
def reminded (sub : WhiteInternetSubscription) : WiReminder → Bool
  | .threeDays => sub.notified3d
  | .oneDay => sub.notified1d
  | .twoHours => sub.notified2h
  | .expired => sub.notifiedExpired

/-- A reminder settles the less urgent ones. -/
def recordReminder (sub : WhiteInternetSubscription) : WiReminder → WhiteInternetSubscription
  | .threeDays => { sub with notified3d := true }
  | .oneDay => { sub with notified1d := true, notified3d := true }
  | .twoHours => { sub with notified2h := true, notified1d := true, notified3d := true }
  | .expired => { sub with
      notifiedExpired := true, notified2h := true, notified1d := true, notified3d := true }

/-- A level is not settled. -/
def Unsettled (sub : WhiteInternetSubscription) : Prop :=
  sub.notified3d = false ∨ sub.notified1d = false ∨ sub.notified2h = false ∨
    sub.notifiedExpired = false

instance : DecidablePred Unsettled := fun sub => by unfold Unsettled; infer_instance

/-- The row is served, or was until it expired. -/
def Remindable (sub : WhiteInternetSubscription) : Prop :=
  sub.status = .active ∨ sub.status = .exhausted ∨ sub.status = .expired

instance : DecidablePred Remindable := fun sub => by unfold Remindable; infer_instance

/-- The end is between `expired_cutoff` and `cutoff`. -/
def InReach (now : Time) (sub : WhiteInternetSubscription) : Prop :=
  now - days 14 ≤ sub.expiresAt ∧ sub.expiresAt ≤ now + days 3

instance (now : Time) (sub : WhiteInternetSubscription) : Decidable (sub.InReach now) := by
  unfold InReach; infer_instance

/-- The update at the beginning of a pass. -/
def settleStale (now : Time) (sub : WhiteInternetSubscription) : WhiteInternetSubscription :=
  if sub.Remindable ∧ sub.expiresAt < now - days 14 ∧ sub.Unsettled then sub.recordReminder .expired
  else sub

/-- A trial is not reminded three days ahead. -/
def settleTrial (sub : WhiteInternetSubscription) : WhiteInternetSubscription :=
  if sub.isTrial = true ∧ sub.notified3d = false then { sub with notified3d := true } else sub

/-- The level that is to be sent, by the time that is left. -/
def dueReminder (sub : WhiteInternetSubscription) (now : Time) : Option WiReminder :=
  if sub.expiresAt - now ≤ 0 then
    if sub.notifiedExpired = false then some .expired else none
  else if sub.expiresAt - now ≤ hours 2 then
    if sub.notified2h = false then some .twoHours else none
  else if sub.expiresAt - now ≤ days 1 then
    if sub.notified1d = false then some .oneDay else none
  else if sub.expiresAt - now ≤ days 3 ∧ sub.isTrial = false then
    if sub.notified3d = false then some .threeDays else none
  else none

/-- A row that has ended and has nothing due is settled. -/
def settleEnded (sub : WhiteInternetSubscription) (now : Time) : WhiteInternetSubscription :=
  if sub.expiresAt - now ≤ 0 then sub.recordReminder .expired else sub

end WhiteInternetSubscription

/-! ### What starts the reminders anew -/

/-- The operations that write the end of a row. -/
def RowOp.Rearms : RowOp → Prop
  | .renew .. | .convertTrial .. | .extend .. => True
  | _ => False

instance : DecidablePred RowOp.Rearms := fun op => by
  rcases op with _ | _
  case renew | convertTrial | extend => exact .isTrue trivial
  all_goals exact .isFalse id

def RowChange.Rearms : RowChange → Prop
  | .op o => o.Rearms
  | .moved o _ => o.Rearms
  | _ => False

instance : DecidablePred RowChange.Rearms := fun c => by
  rcases c with _ | _
  case op o => exact inferInstanceAs (Decidable o.Rearms)
  case moved o target => exact inferInstanceAs (Decidable o.Rearms)
  all_goals exact .isFalse id

/-- Such an operation goes through. -/
def ExtraEvent.Rearms (sub : WhiteInternetSubscription) : ExtraEvent → Prop
  | .change c => c.Rearms ∧ (c.apply sub).isSome = true
  | _ => False

instance (sub : WhiteInternetSubscription) : DecidablePred (ExtraEvent.Rearms sub) := fun e => by
  cases e with
  | change c => exact inferInstanceAs (Decidable (c.Rearms ∧ (c.apply sub).isSome = true))
  | _ => exact .isFalse id

/-! ### The system -/

/-- A message that arrived: the end it was about, the `current_time` of its pass, and whether the
    row records it. -/
structure SentWiReminder where
  sub : ℕ
  level : WiReminder
  endsAt : Time
  at_ : Time
  isTrial : Bool
  recorded : Bool
  deriving DecidableEq, Repr

inductive WiReminderEntry
  | sent (r : SentWiReminder)
  | rearmed (sub : ℕ)
  deriving DecidableEq, Repr

/-- The tables, the `current_time` of the last pass and what is left of it, and what has happened so
    far, the latest first. -/
structure WiReminders where
  subs : List WhiteInternetSubscription
  users : List NotifiedUser
  nextId : ℕ
  now : Time := 0
  queue : List ℕ := []
  log : List WiReminderEntry := []

/-- A pass begins; it takes its next row, which may be locked; it is cut off; others change a row,
    insert one, or write the users. -/
inductive WiReminderEvent
  | select (now : Time)
  | next (locked : Bool) (outcome : WiSendOutcome)
  | fails
  | change (id : ℕ) (e : ExtraEvent)
  | create (userId : UserId) (origin : ServerId) (uuid : Uuid) (baseBytes : ℕ) (durationDays : ℤ)
      (isTrial : Bool) (now : Time)
  | users (users : List NotifiedUser)

namespace WiReminders

def row (s : WiReminders) (id : ℕ) : Option WhiteInternetSubscription :=
  Lib.Table.lookup WhiteInternetSubscription.id id s.subs

def putRow (s : WiReminders) (sub : WhiteInternetSubscription) : WiReminders :=
  { s with subs := Lib.Table.put WhiteInternetSubscription.id sub s.subs }

def user (s : WiReminders) (id : UserId) : Option NotifiedUser :=
  Lib.Table.lookup NotifiedUser.id id s.users

/-- The `WHERE` of the query, with its join. -/
def Selected (s : WiReminders) (now : Time) (sub : WhiteInternetSubscription) : Prop :=
  sub.Remindable ∧ sub.InReach now ∧ sub.Unsettled ∧
    (s.user sub.userId).any (!·.excluded) = true

instance (s : WiReminders) (now : Time) (sub : WhiteInternetSubscription) :
    Decidable (s.Selected now sub) := by
  unfold Selected; infer_instance

/-- The first transaction of a pass. -/
def select (s : WiReminders) (now : Time) : WiReminders :=
  let s := { s with subs := s.subs.map (WhiteInternetSubscription.settleStale now), now }
  { s with
    queue := (Lib.Keyset.first WhiteInternetSubscription.expiresAt notificationSelectLimit
      (s.subs.filter fun sub => s.Selected now sub)).map WhiteInternetSubscription.id }

/-- A message arrived. -/
def noteSent (s : WiReminders) (sub : WhiteInternetSubscription) (level : WiReminder)
    (arrived recorded : Bool) : WiReminders :=
  if arrived then { s with
    log := .sent ⟨sub.id, level, sub.expiresAt, s.now, sub.isTrial, recorded⟩ :: s.log }
  else s

/-- The message of a level is sent. -/
def send (s : WiReminders) (sub : WhiteInternetSubscription) (user : NotifiedUser)
    (level : WiReminder) : WiSendOutcome → WiReminders
  | .delivered => (s.putRow (sub.recordReminder level)).noteSent sub level true true
  | .forbidden => { s.putRow sub with
      users := Lib.Table.put NotifiedUser.id { user with isBotBlocked := true } s.users }
  | .failed arrived => (s.putRow sub).noteSent sub level arrived false
  | .aborted arrived => { s with queue := [] }.noteSent sub level arrived false

/-- Nothing is to be sent. -/
def settle (s : WiReminders) (sub : WhiteInternetSubscription) : WiSendOutcome → WiReminders
  | .aborted _ => { s with queue := [] }
  | .delivered | .forbidden | .failed _ => s.putRow sub

/-- The transaction of a row. -/
def remind (s : WiReminders) (sub : WhiteInternetSubscription) (user : NotifiedUser)
    (outcome : WiSendOutcome) : WiReminders :=
  match sub.settleTrial.dueReminder s.now with
  | some level => s.send sub.settleTrial user level outcome
  | none => s.settle (sub.settleTrial.settleEnded s.now) outcome

/-- The pass takes a row it has selected. -/
def take (s : WiReminders) (id : ℕ) (outcome : WiSendOutcome) : WiReminders :=
  match s.row id with
  | none => s
  | some sub =>
    if sub.Remindable ∧ sub.InReach s.now then
      match s.user sub.userId with
      | none => s
      | some user => if user.excluded then s else s.remind sub user outcome
    else s

def next (s : WiReminders) (locked : Bool) (outcome : WiSendOutcome) : WiReminders :=
  match s.queue with
  | [] => s
  | id :: queue => if locked then { s with queue } else { s with queue }.take id outcome

/-- Another transaction changes a row, or deletes it. -/
def change (s : WiReminders) (id : ℕ) (e : ExtraEvent) : WiReminders :=
  match s.row id with
  | none => s
  | some sub =>
    match sub.after e with
    | none => { s with subs := s.subs.filter (·.id ≠ id) }
    | some sub' => { s.putRow sub' with
        log := if e.Rearms sub then .rearmed id :: s.log else s.log }

def step (s : WiReminders) : WiReminderEvent → WiReminders
  | .select now => if s.queue = [] then s.select now else s
  | .next locked outcome => s.next locked outcome
  | .fails => { s with queue := [] }
  | .change id e => s.change id e
  | .create userId origin uuid baseBytes durationDays isTrial now => { s with
      subs := s.subs ++ [.create s.nextId userId origin uuid baseBytes durationDays isTrial now]
      nextId := s.nextId + 1 }
  | .users users => { s with users }

/-! ### What is promised -/

/-- The messages about a row since its end was last written, the latest first. -/
def sentSince (id : ℕ) : List WiReminderEntry → List SentWiReminder
  | [] => []
  | .sent r :: log => if r.sub = id then r :: sentSince id log else sentSince id log
  | .rearmed sub :: log => if sub = id then [] else sentSince id log

/-- The level of the clock. -/
def levelAt (now endsAt : Time) : WiReminder :=
  if endsAt ≤ now then .expired
  else if endsAt ≤ now + hours 2 then .twoHours
  else if endsAt ≤ now + days 1 then .oneDay
  else .threeDays

/-- A message has the level of the clock, near the end it is about, and a trial gets none three days
    ahead. -/
structure Timely (r : SentWiReminder) : Prop where
  level : r.level = levelAt r.at_ r.endsAt
  near : r.at_ - days 14 ≤ r.endsAt ∧ r.endsAt ≤ r.at_ + days 3
  trial : r.isTrial = true → r.level ≠ .threeDays

/-- After a message that the row records, only more urgent ones follow until the end is written
    again; and every message is timely. -/
structure Orderly (s : WiReminders) : Prop where
  rising : ∀ id, (sentSince id s.log).Pairwise fun later earlier =>
    earlier.recorded = true → earlier.level.urgency < later.level.urgency
  timely : ∀ r, .sent r ∈ s.log → Timely r

/-- A row whose end moves is to be reminded of every level again. -/
def Rearmed (s : WiReminders) (e : WiReminderEvent) : Prop :=
  ∀ id, ∀ sub ∈ s.row id, ∀ sub' ∈ (s.step e).row id, sub'.expiresAt ≠ sub.expiresAt →
    (∀ level, sub'.reminded level = false) ∧ sentSince id (s.step e).log = []

end WiReminders

/-! ### What the columns keep -/

namespace WhiteInternetSubscription

variable {sub sub' : WhiteInternetSubscription}

/-- The row has the same end, and no level becomes due again. -/
structure KeepsReminders (sub sub' : WhiteInternetSubscription) : Prop where
  id : sub'.id = sub.id
  endsAt : sub'.expiresAt = sub.expiresAt
  settled : ∀ level, sub.reminded level = true → sub'.reminded level = true

theorem KeepsReminders.refl (sub : WhiteInternetSubscription) : KeepsReminders sub sub :=
  ⟨rfl, rfl, fun _ h => h⟩

theorem KeepsReminders.trans {a b c : WhiteInternetSubscription} (h : KeepsReminders a b)
    (h' : KeepsReminders b c) : KeepsReminders a c :=
  ⟨h'.id.trans h.id, h'.endsAt.trans h.endsAt, fun level hlevel =>
    h'.settled level (h.settled level hlevel)⟩

/-- An operation that writes none of the columns. -/
theorem keepsReminders_of_eq (hid : sub'.id = sub.id) (hend : sub'.expiresAt = sub.expiresAt)
    (hflags : sub'.reminded = sub.reminded) : KeepsReminders sub sub' :=
  ⟨hid, hend, fun level h => by rwa [hflags]⟩

theorem reminded_recordReminder (sub : WhiteInternetSubscription) (level k : WiReminder) :
    (sub.recordReminder level).reminded k =
      (decide (k.urgency ≤ level.urgency) || sub.reminded k) := by
  cases level <;> cases k <;> rfl

theorem recordReminder_keepsReminders (sub : WhiteInternetSubscription) (level : WiReminder) :
    KeepsReminders sub (sub.recordReminder level) := by
  refine ⟨?_, ?_, fun k hk => ?_⟩
  · cases level <;> rfl
  · cases level <;> rfl
  · rw [reminded_recordReminder, hk, Bool.or_true]

theorem settleStale_keepsReminders (now : Time) (sub : WhiteInternetSubscription) :
    KeepsReminders sub (sub.settleStale now) := by
  rw [settleStale]
  split_ifs
  · exact recordReminder_keepsReminders sub .expired
  · exact .refl sub

theorem settleTrial_keepsReminders (sub : WhiteInternetSubscription) :
    KeepsReminders sub sub.settleTrial := by
  rw [settleTrial]
  split_ifs
  · exact recordReminder_keepsReminders sub .threeDays
  · exact .refl sub

theorem settleEnded_keepsReminders (sub : WhiteInternetSubscription) (now : Time) :
    KeepsReminders sub (sub.settleEnded now) := by
  rw [settleEnded]
  split_ifs
  · exact recordReminder_keepsReminders sub .expired
  · exact .refl sub

/-- The level that is due is the one of the clock, and its flag is down. -/
theorem dueReminder_spec {now : Time} {level : WiReminder} (h : sub.dueReminder now = some level) :
    sub.reminded level = false ∧ level = WiReminders.levelAt now sub.expiresAt ∧
      (sub.isTrial = true → level ≠ .threeDays) := by
  rw [dueReminder] at h
  rw [WiReminders.levelAt]
  split_ifs at h with hended hflag htwo hflag hone hflag hthree hflag
  all_goals obtain rfl := Option.some.inj h
  · refine ⟨hflag, ?_, by simp⟩
    rw [if_pos (by linarith)]
  · refine ⟨hflag, ?_, by simp⟩
    rw [if_neg (by linarith), if_pos (by linarith)]
  · refine ⟨hflag, ?_, by simp⟩
    rw [if_neg (by linarith), if_neg (by linarith), if_pos (by linarith)]
  · refine ⟨hflag, ?_, fun htrial => ?_⟩
    · rw [if_neg (by linarith), if_neg (by linarith), if_neg (by linarith)]
    · rw [hthree.2] at htrial
      cases htrial

/-! ### The operations -/

theorem record_keepsReminders (nodeEpoch : Epoch) (up down : ℕ) (upBefore downBefore : Option ℕ)
    (sub : WhiteInternetSubscription) :
    KeepsReminders sub (sub.recordAndDeductTraffic nodeEpoch up down upBefore downBefore).2 := by
  unfold recordAndDeductTraffic
  extract_lets deltaUplink deltaDownlink next
  split_ifs <;> exact ⟨rfl, rfl, fun level h => by cases level <;> exact h⟩

theorem reactivateExhausted_keepsReminders (sub : WhiteInternetSubscription) :
    KeepsReminders sub sub.reactivateExhausted := by
  rw [reactivateExhausted]
  split
  · exact keepsReminders_of_eq rfl rfl rfl
  · exact .refl sub

theorem clear90p_keepsReminders (sub : WhiteInternetSubscription) :
    KeepsReminders sub sub.clear90p := by
  rw [clear90p]
  split
  · exact keepsReminders_of_eq rfl rfl rfl
  · exact .refl sub

theorem afterAdjustment_keepsReminders (sub : WhiteInternetSubscription) :
    KeepsReminders sub sub.afterAdjustment := by
  rw [afterAdjustment]
  refine .trans ?_ (clear90p_keepsReminders _)
  split
  · exact keepsReminders_of_eq rfl rfl rfl
  · exact .refl sub

theorem addExtra_keepsReminders (bytes : ℕ) (sub : WhiteInternetSubscription) :
    KeepsReminders sub (sub.addExtra bytes) := keepsReminders_of_eq rfl rfl rfl

theorem addSlot_keepsReminders (sub : WhiteInternetSubscription) :
    KeepsReminders sub sub.addSlot := by
  rw [addSlot]
  exact keepsReminders_of_eq rfl rfl rfl

theorem expire_keepsReminders (reason : String) (sub : WhiteInternetSubscription) :
    KeepsReminders sub (sub.expire reason) := by
  rw [expire]
  split
  · exact keepsReminders_of_eq rfl rfl rfl
  · exact .refl sub

theorem reconcile_keepsReminders (task : ReconcileTask) (a : ReconcileAnswer) (now : Time)
    (sub : WhiteInternetSubscription) : KeepsReminders sub (sub.reconcile task a now) := by
  rw [reconcile]
  split
  · exact keepsReminders_of_eq rfl rfl rfl
  · exact keepsReminders_of_eq rfl rfl rfl

theorem finish_keepsReminders (sync : InlineSync) (now : Time) (sub : WhiteInternetSubscription) :
    KeepsReminders sub (sync.finish now sub) := by
  rw [InlineSync.finish]
  split
  · exact keepsReminders_of_eq rfl rfl rfl
  · exact .refl sub

theorem revokePack_keepsReminders (bytes : ℕ) (sub : WhiteInternetSubscription) :
    KeepsReminders sub (sub.revokePack bytes) := keepsReminders_of_eq rfl rfl rfl

theorem revokeSlot_keepsReminders (sub : WhiteInternetSubscription) :
    KeepsReminders sub sub.revokeSlot := by
  rw [revokeSlot]
  refine .trans ?_ (revokePack_keepsReminders _ _)
  exact keepsReminders_of_eq rfl rfl rfl

theorem renew_reminded {durationDays maxExpiryDays : ℤ} {baseBytes : Option ℕ} {now : Time}
    (h : sub.renew durationDays baseBytes maxExpiryDays now = .ok sub') (level : WiReminder) :
    sub'.reminded level = false := by
  unfold renew at h
  split at h
  · cases h
  · extract_lets baseTime newExpiresAt at h
    split at h
    · cases h
    · cases h
      cases level <;> rfl

theorem extend_reminded {n : ℤ} {now : Time} (h : sub.extend n now = .ok sub')
    (level : WiReminder) : sub'.reminded level = false := by
  unfold extend at h
  extract_lets isNewCycle extended at h
  split_ifs at h
  · rw [← Except.ok.inj h]
    cases level <;> rfl
  · rw [← Except.ok.inj h]
    cases level <;> rfl

theorem convertTrial_reminded (durationDays : ℤ) (newOrigin : Option ServerId) (now : Time)
    (sub : WhiteInternetSubscription) (level : WiReminder) :
    (sub.convertTrial durationDays newOrigin now).reminded level = false := by
  cases level <;> rfl

end WhiteInternetSubscription

open WhiteInternetSubscription

variable {sub sub' : WhiteInternetSubscription}

theorem RowOp.apply_keepsReminders {op : RowOp} (hop : ¬ op.Rearms)
    (h : op.apply sub = some sub') : KeepsReminders sub sub' := by
  cases op with
  | record =>
    cases h
    exact record_keepsReminders ..
  | renew | convertTrial | extend => exact (hop trivial).elim
  | addDeviceSlot now =>
    obtain ⟨-, rfl⟩ := addDeviceSlot_ok_iff.mp (Lib.toOption_eq_some h)
    exact (addSlot_keepsReminders sub).trans (reactivateExhausted_keepsReminders _)
  | topupQuota packGb now =>
    obtain ⟨-, rfl⟩ := topupQuota_ok_iff.mp (Lib.toOption_eq_some h)
    refine .trans ?_ (clear90p_keepsReminders _)
    exact (addExtra_keepsReminders _ sub).trans (reactivateExhausted_keepsReminders _)
  | addExtraTraffic extraBytes =>
    obtain ⟨-, rfl⟩ := addExtraTraffic_ok_iff.mp (Lib.toOption_eq_some h)
    exact (addExtra_keepsReminders _ sub).trans (afterAdjustment_keepsReminders _)
  | setBaseTrafficQuota baseBytes =>
    obtain ⟨-, rfl⟩ := setBaseTrafficQuota_ok_iff.mp (Lib.toOption_eq_some h)
    have hbase : KeepsReminders sub (sub.withBase baseBytes.toNat) :=
      keepsReminders_of_eq rfl rfl rfl
    exact hbase.trans (afterAdjustment_keepsReminders _)
  | setDeviceLimit limit =>
    obtain ⟨-, rfl⟩ := setDeviceLimit_ok_iff.mp (Lib.toOption_eq_some h)
    exact keepsReminders_of_eq rfl rfl rfl
  | resetTrafficUsed =>
    obtain ⟨-, rfl⟩ := resetTrafficUsed_ok_iff.mp (Lib.toOption_eq_some h)
    have hclear : KeepsReminders sub { sub.clearUsage with notified90p := false } :=
      keepsReminders_of_eq rfl rfl rfl
    exact hclear.trans (reactivateExhausted_keepsReminders _)
  | expire reason =>
    cases h
    exact expire_keepsReminders reason sub
  | disable | resetTrial =>
    simp only [apply] at h
    split_ifs at h
    cases h
    exact keepsReminders_of_eq rfl rfl rfl
  | migrateTo origin =>
    cases h
    exact keepsReminders_of_eq rfl rfl rfl
  | reconcile task answer now =>
    cases h
    exact reconcile_keepsReminders task answer now sub
  | inlineSync sync now =>
    cases h
    exact finish_keepsReminders sync now sub

theorem RowOp.reminded_of_rearms {op : RowOp} (hop : op.Rearms) (h : op.apply sub = some sub')
    (level : WiReminder) : sub'.reminded level = false := by
  cases op with
  | renew durationDays now =>
    simp only [apply] at h
    split_ifs at h
    exact renew_reminded (Lib.toOption_eq_some h) level
  | convertTrial durationDays newOrigin now =>
    simp only [apply] at h
    split_ifs at h
    cases h
    exact convertTrial_reminded durationDays newOrigin now sub level
  | extend n now => exact extend_reminded (Lib.toOption_eq_some h) level
  | _ => exact hop.elim

namespace RowChange

theorem apply_keepsReminders {c : RowChange} (hc : ¬ c.Rearms) (h : c.apply sub = some sub') :
    KeepsReminders sub sub' := by
  cases c with
  | op o =>
    obtain ⟨-, h⟩ := apply_op_iff.mp h
    exact RowOp.apply_keepsReminders hc h
  | moved o target =>
    simp only [apply] at h
    split_ifs at h
    obtain ⟨_, -, h⟩ := Option.bind_eq_some_iff.mp h
    have hmove : KeepsReminders sub (sub.migrateTo target) := keepsReminders_of_eq rfl rfl rfl
    exact hmove.trans (RowOp.apply_keepsReminders hc h)
  | migrateOrigin | allocate =>
    simp only [apply] at h
    split_ifs at h
    cases h
    exact keepsReminders_of_eq rfl rfl rfl
  | detach | revokePack =>
    cases h
    exact keepsReminders_of_eq rfl rfl rfl
  | revokeSlot =>
    cases h
    exact revokeSlot_keepsReminders sub

theorem reminded_of_rearms {c : RowChange} (hc : c.Rearms) (h : c.apply sub = some sub')
    (level : WiReminder) : sub'.reminded level = false := by
  cases c with
  | op o =>
    obtain ⟨-, h⟩ := apply_op_iff.mp h
    exact RowOp.reminded_of_rearms hc h level
  | moved o target =>
    simp only [apply] at h
    split_ifs at h
    obtain ⟨_, -, h⟩ := Option.bind_eq_some_iff.mp h
    exact RowOp.reminded_of_rearms hc h level
  | _ => exact hc.elim

end RowChange

/-- Whatever happens to a row, either its reminders start anew or it keeps them. -/
theorem WhiteInternetSubscription.after_reminders {e : ExtraEvent} (h : sub.after e = some sub') :
    (e.Rearms sub ∧ ∀ level, sub'.reminded level = false) ∨
      (¬ e.Rearms sub ∧ KeepsReminders sub sub') := by
  cases e with
  | change c =>
    rw [after] at h
    cases happly : c.apply sub with
    | none =>
      rw [happly] at h
      obtain rfl : sub = sub' := Option.some.inj h
      exact .inr ⟨fun hrearms => by simp [ExtraEvent.Rearms, happly] at hrearms, .refl sub⟩
    | some changed =>
      rw [happly] at h
      obtain rfl : changed = sub' := Option.some.inj h
      by_cases hc : c.Rearms
      · exact .inl ⟨⟨hc, by rw [happly]; rfl⟩, RowChange.reminded_of_rearms hc happly⟩
      · exact .inr ⟨fun hrearms => hc hrearms.1, RowChange.apply_keepsReminders hc happly⟩
  | reconcile task answer now =>
    cases h
    exact .inr ⟨fun h => h.elim, reconcile_keepsReminders task answer now sub⟩
  | inlineSync sync now =>
    cases h
    exact .inr ⟨fun h => h.elim, finish_keepsReminders sync now sub⟩
  | purge =>
    cases h
    exact .inr ⟨fun h => h.elim, keepsReminders_of_eq rfl rfl rfl⟩
  | finalize =>
    rw [after] at h
    split_ifs at h
    cases h
    exact .inr ⟨fun h => h.elim, .refl sub⟩

namespace WiReminders

variable {s s' : WiReminders}

/-! ### The invariant -/

theorem row_putRow (s : WiReminders) (sub : WhiteInternetSubscription) (id : ℕ) :
    (s.putRow sub).row id = if id = sub.id then (s.row sub.id).map fun _ => sub else s.row id :=
  Lib.Table.lookup_put WhiteInternetSubscription.id sub id s.subs

/-- What the rows record. -/
structure Sound (s : WiReminders) : Prop where
  ids : ∀ sub ∈ s.subs, sub.id < s.nextId
  known : ∀ r, .sent r ∈ s.log → r.sub < s.nextId
  settled : ∀ id, ∀ sub ∈ s.row id, ∀ r ∈ sentSince id s.log, r.recorded = true →
    ∀ level, level.urgency ≤ r.level.urgency → sub.reminded level = true
  orderly : s.Orderly

theorem mem_of_mem_sentSince {id : ℕ} {r : SentWiReminder} {log : List WiReminderEntry}
    (h : r ∈ sentSince id log) : .sent r ∈ log ∧ r.sub = id := by
  induction log with
  | nil => cases h
  | cons entry log ih =>
    cases entry with
    | sent r' =>
      rw [sentSince] at h
      split_ifs at h with hsub
      · rcases List.mem_cons.mp h with rfl | h
        · exact ⟨List.mem_cons_self, hsub⟩
        · exact ⟨List.mem_cons_of_mem _ (ih h).1, (ih h).2⟩
      · exact ⟨List.mem_cons_of_mem _ (ih h).1, (ih h).2⟩
    | rearmed sub =>
      rw [sentSince] at h
      split_ifs at h
      · cases h
      · exact ⟨List.mem_cons_of_mem _ (ih h).1, (ih h).2⟩

/-- Each row that is there was there before and keeps its reminders, or it is new. -/
structure Continues (s s' : WiReminders) : Prop where
  rows : ∀ id, ∀ sub' ∈ s'.row id, (∃ sub ∈ s.row id, KeepsReminders sub sub') ∨ s.nextId ≤ id
  ids : ∀ sub ∈ s'.subs, sub.id < s'.nextId
  nextId : s.nextId ≤ s'.nextId

theorem Sound.keep (h : s.Sound) (hs : s.Continues s') (hlog : s'.log = s.log) : s'.Sound := by
  refine ⟨hs.ids, fun r hr => ?_, fun id sub' hsub' r hr hrec level hlevel => ?_, ?_⟩
  · rw [hlog] at hr
    exact (h.known r hr).trans_le hs.nextId
  · rw [hlog] at hr
    rcases hs.rows id sub' hsub' with ⟨sub, hsub, hkeeps⟩ | hnew
    · exact hkeeps.settled level (h.settled id sub hsub r hr hrec level hlevel)
    · obtain ⟨hmem, rfl⟩ := mem_of_mem_sentSince hr
      exact absurd (h.known r hmem) (not_lt.mpr hnew)
  · constructor <;> rw [hlog]
    exacts [h.orderly.rising, h.orderly.timely]

/-- A message of a level whose flag is down. -/
theorem Sound.note {sub : WhiteInternetSubscription} (h : s.Sound) (hs : s.Continues s')
    {r : SentWiReminder} (hlog : s'.log = .sent r :: s.log) (hrow : s.row r.sub = some sub)
    (hdown : sub.reminded r.level = false) (htimely : Timely r)
    (hrec : r.recorded = true → ∀ sub' ∈ s'.row r.sub,
      ∀ level, level.urgency ≤ r.level.urgency → sub'.reminded level = true) : s'.Sound := by
  refine ⟨hs.ids, fun q hq => ?_, fun id sub' hsub' q hq hqrec level hlevel => ?_, ?_, ?_⟩
  · rw [hlog] at hq
    rcases List.mem_cons.mp hq with hq | hq
    · obtain rfl : q = r := WiReminderEntry.sent.inj hq
      have hid : sub.id = q.sub := Lib.Table.key_of_lookup _ hrow
      rw [← hid]
      exact (h.ids sub (Lib.Table.mem_of_lookup _ hrow)).trans_le hs.nextId
    · exact (h.known q hq).trans_le hs.nextId
  · rw [hlog, sentSince] at hq
    have hold : q ∈ sentSince id s.log → sub'.reminded level = true := fun hq => by
      rcases hs.rows id sub' hsub' with ⟨old, hold, hkeeps⟩ | hnew
      · exact hkeeps.settled level (h.settled id old hold q hq hqrec level hlevel)
      · obtain ⟨hmem, rfl⟩ := mem_of_mem_sentSince hq
        exact absurd (h.known q hmem) (not_lt.mpr hnew)
    split_ifs at hq with hsub
    · rcases List.mem_cons.mp hq with rfl | hq
      · exact hrec hqrec sub' (hsub ▸ hsub') level hlevel
      · exact hold hq
    · exact hold hq
  · intro id
    rw [hlog, sentSince]
    split_ifs with hsub
    · refine List.pairwise_cons.mpr ⟨fun q hq hqrec => ?_, h.orderly.rising id⟩
      -- a recorded message that is as urgent would have raised the flag
      by_contra hnot
      have hraised := h.settled id sub (hsub ▸ hrow) q hq hqrec r.level (not_lt.mp hnot)
      rw [hdown] at hraised
      cases hraised
    · exact h.orderly.rising id
  · intro q hq
    rw [hlog] at hq
    rcases List.mem_cons.mp hq with hq | hq
    · rwa [WiReminderEntry.sent.inj hq]
    · exact h.orderly.timely q hq

/-! ### The steps -/

theorem Continues.refl (h : s.Sound) : s.Continues s :=
  ⟨fun _ sub' hsub' => .inl ⟨sub', hsub', .refl sub'⟩, h.ids, le_rfl⟩

/-- A row that is there is written, and keeps its reminders. -/
theorem continues_putRow {old new : WhiteInternetSubscription} (h : s.Sound)
    (hrow : s.row new.id = some old) (hkeeps : KeepsReminders old new) :
    s.Continues (s.putRow new) := by
  refine ⟨fun id sub' hsub' => .inl ?_, fun sub' hsub' => ?_, le_rfl⟩
  · rw [row_putRow] at hsub'
    split_ifs at hsub' with hid
    · rw [hrow] at hsub'
      obtain rfl : new = sub' := Option.some.inj hsub'
      exact ⟨old, hid ▸ hrow, hkeeps⟩
    · exact ⟨sub', hsub', .refl sub'⟩
  · rcases Lib.Table.mem_put _ hsub' with rfl | hsub'
    · have hid : old.id = sub'.id := Lib.Table.key_of_lookup _ hrow
      rw [← hid]
      exact h.ids old (Lib.Table.mem_of_lookup _ hrow)
    · exact h.ids sub' hsub'

/-- What is neither in the rows nor in the log does not matter. -/
theorem Sound.of_same (h : s.Sound) (hsubs : s'.subs = s.subs) (hnext : s'.nextId = s.nextId)
    (hlog : s'.log = s.log) : s.Continues s' ∧ s'.Sound := by
  have hcontinues : s.Continues s' := by
    refine ⟨fun id sub' hsub' => .inl ⟨sub', ?_, .refl sub'⟩, fun sub' hsub' => ?_, hnext.ge⟩
    · rwa [row, hsubs] at hsub'
    · rw [hsubs] at hsub'
      rw [hnext]
      exact h.ids sub' hsub'
  exact ⟨hcontinues, h.keep hcontinues hlog⟩

/-- The message of a level that is due, whatever becomes of it. -/
theorem Sound.send {sub : WhiteInternetSubscription} {level : WiReminder} (h : s.Sound)
    (hrow : s.row sub.id = some sub) (hreach : sub.InReach s.now)
    (hdue : sub.settleTrial.dueReminder s.now = some level) (user : NotifiedUser)
    (outcome : WiSendOutcome) :
    s.Continues (s.send sub.settleTrial user level outcome) ∧
      (s.send sub.settleTrial user level outcome).Sound := by
  have htrial := settleTrial_keepsReminders sub
  have hrecord := recordReminder_keepsReminders sub.settleTrial level
  obtain ⟨hdown, hclock, hlevel⟩ := dueReminder_spec hdue
  have hsettled : s.row sub.settleTrial.id = some sub := by rw [htrial.id, hrow]
  have hflag : sub.reminded level = false := by
    by_contra hraised
    rw [htrial.settled level (by simpa using hraised)] at hdown
    cases hdown
  have htimely : ∀ recorded, Timely ⟨sub.settleTrial.id, level, sub.settleTrial.expiresAt, s.now,
      sub.settleTrial.isTrial, recorded⟩ := fun _ => by
    refine ⟨hclock, ?_, hlevel⟩
    show s.now - days 14 ≤ sub.settleTrial.expiresAt ∧ sub.settleTrial.expiresAt ≤ s.now + days 3
    rw [htrial.endsAt]
    exact hreach
  have hput : s.Continues (s.putRow sub.settleTrial) := continues_putRow h hsettled htrial
  cases outcome with
  | delivered =>
    have hboth : s.Continues (s.putRow (sub.settleTrial.recordReminder level)) :=
      continues_putRow h (by rw [hrecord.id, hsettled]) (htrial.trans hrecord)
    have hcontinues : s.Continues (s.send sub.settleTrial user level .delivered) :=
      ⟨hboth.rows, hboth.ids, hboth.nextId⟩
    refine ⟨hcontinues, h.note hcontinues rfl hsettled hflag (htimely true) ?_⟩
    rintro - sub' hsub' k hk
    have hwritten : (s.putRow (sub.settleTrial.recordReminder level)).row sub.settleTrial.id =
        some sub' := hsub'
    rw [row_putRow, hrecord.id, if_pos rfl, hsettled] at hwritten
    rw [← Option.some.inj hwritten, reminded_recordReminder, decide_eq_true hk, Bool.true_or]
  | forbidden =>
    have hcontinues : s.Continues (s.send sub.settleTrial user level .forbidden) :=
      ⟨hput.rows, hput.ids, hput.nextId⟩
    exact ⟨hcontinues, h.keep hcontinues rfl⟩
  | failed arrived =>
    cases arrived with
    | false => exact ⟨hput, h.keep hput rfl⟩
    | true =>
      have hcontinues : s.Continues (s.send sub.settleTrial user level (.failed true)) :=
        ⟨hput.rows, hput.ids, hput.nextId⟩
      exact ⟨hcontinues, h.note hcontinues rfl hsettled hflag (htimely false) (by simp)⟩
  | aborted arrived =>
    cases arrived with
    | false => exact h.of_same rfl rfl rfl
    | true =>
      have hsame := Continues.refl h
      have hcontinues : s.Continues (s.send sub.settleTrial user level (.aborted true)) :=
        ⟨hsame.rows, hsame.ids, hsame.nextId⟩
      exact ⟨hcontinues, h.note hcontinues rfl hsettled hflag (htimely false) (by simp)⟩

theorem Sound.remind {sub : WhiteInternetSubscription} (h : s.Sound)
    (hrow : s.row sub.id = some sub) (hreach : sub.InReach s.now) (user : NotifiedUser)
    (outcome : WiSendOutcome) :
    s.Continues (s.remind sub user outcome) ∧ (s.remind sub user outcome).Sound := by
  rw [WiReminders.remind]
  cases hdue : sub.settleTrial.dueReminder s.now with
  | some level => exact h.send hrow hreach hdue user outcome
  | none =>
    have htrial := settleTrial_keepsReminders sub
    have hended := settleEnded_keepsReminders sub.settleTrial s.now
    have hput : s.Continues (s.putRow (sub.settleTrial.settleEnded s.now)) :=
      continues_putRow h (by rw [hended.id, htrial.id, hrow]) (htrial.trans hended)
    cases outcome with
    | aborted => exact h.of_same rfl rfl rfl
    | delivered | forbidden | failed => exact ⟨hput, h.keep hput rfl⟩

theorem Sound.take (h : s.Sound) (id : ℕ) (outcome : WiSendOutcome) :
    s.Continues (s.take id outcome) ∧ (s.take id outcome).Sound := by
  rw [WiReminders.take]
  cases hrow : s.row id with
  | none => exact ⟨.refl h, h⟩
  | some sub =>
    have hid : sub.id = id := Lib.Table.key_of_lookup _ hrow
    dsimp only
    split_ifs with hreach
    · cases s.user sub.userId with
      | none => exact ⟨.refl h, h⟩
      | some user =>
        dsimp only
        split_ifs
        · exact ⟨.refl h, h⟩
        · exact h.remind (by rw [hid, hrow]) hreach.2 user outcome
    · exact ⟨.refl h, h⟩

theorem Sound.next (h : s.Sound) (locked : Bool) (outcome : WiSendOutcome) :
    s.Continues (s.next locked outcome) ∧ (s.next locked outcome).Sound := by
  rw [WiReminders.next]
  cases s.queue with
  | nil => exact ⟨.refl h, h⟩
  | cons id queue =>
    have hsame : s.Continues { s with queue } ∧ Sound { s with queue } := h.of_same rfl rfl rfl
    cases locked with
    | true => exact hsame
    | false =>
      obtain ⟨hcontinues, hs⟩ := hsame.2.take id outcome
      exact ⟨⟨hcontinues.rows, hcontinues.ids, hcontinues.nextId⟩, hs⟩

theorem Sound.select (h : s.Sound) (now : Time) :
    s.Continues (s.select now) ∧ (s.select now).Sound := by
  have hcontinues : s.Continues (s.select now) := by
    refine ⟨fun id sub' hsub' => .inl ?_, fun sub' hsub' => ?_, le_rfl⟩
    · have hmap : Lib.Table.lookup WhiteInternetSubscription.id id
          (s.subs.map (settleStale now)) = some sub' := hsub'
      rw [Lib.Table.lookup_map _ fun sub => (settleStale_keepsReminders now sub).id,
        Option.map_eq_some_iff] at hmap
      obtain ⟨sub, hsub, rfl⟩ := hmap
      exact ⟨sub, hsub, settleStale_keepsReminders now sub⟩
    · obtain ⟨sub, hsub, rfl⟩ := List.mem_map.mp hsub'
      rw [(settleStale_keepsReminders now sub).id]
      exact h.ids sub hsub
  exact ⟨hcontinues, h.keep hcontinues rfl⟩

theorem Sound.create (h : s.Sound) {sub : WhiteInternetSubscription} (hid : sub.id = s.nextId)
    (hsubs : s'.subs = s.subs ++ [sub]) (hnext : s'.nextId = s.nextId + 1)
    (hlog : s'.log = s.log) : s.Continues s' ∧ s'.Sound := by
  have hcontinues : s.Continues s' := by
    refine ⟨fun id sub' hsub' => ?_, fun sub' hsub' => ?_, by omega⟩
    · rw [row, hsubs, Lib.Table.lookup_append, Option.mem_def, Option.or_eq_some_iff] at hsub'
      rcases hsub' with hsub' | ⟨-, hnew⟩
      · exact .inl ⟨sub', hsub', .refl sub'⟩
      · split_ifs at hnew with heq
        exact .inr (by omega)
    · rw [hsubs] at hsub'
      rw [hnext]
      rcases List.mem_append.mp hsub' with hsub' | hsub'
      · exact (h.ids sub' hsub').trans (Nat.lt_succ_self _)
      · rw [List.mem_singleton.mp hsub', hid]
        exact Nat.lt_succ_self _
  exact ⟨hcontinues, h.keep hcontinues hlog⟩

/-- Another transaction keeps the reminders of every row, or it starts those of its row anew. -/
theorem change_cases (h : s.Sound) (id : ℕ) (e : ExtraEvent) :
    (s.Continues (s.change id e) ∧ (s.change id e).log = s.log) ∨
      ∃ new, new.id = id ∧ (∀ level, new.reminded level = false) ∧
        s.change id e = { s.putRow new with log := .rearmed id :: s.log } := by
  rw [change]
  cases hrow : s.row id with
  | none => exact .inl ⟨.refl h, rfl⟩
  | some sub =>
    have hid : sub.id = id := Lib.Table.key_of_lookup _ hrow
    dsimp only
    cases hafter : sub.after e with
    | none =>
      refine .inl ⟨⟨fun k sub' hsub' => .inl ⟨sub', ?_, .refl sub'⟩, fun sub' hsub' => ?_, le_rfl⟩,
        rfl⟩
      · exact Lib.Table.lookup_of_lookup_filter_ne _ hsub'
      · exact h.ids sub' (List.mem_filter.mp hsub').1
    | some new =>
      have hnew : new.id = id := (after_owner hafter).1.trans hid
      rcases after_reminders hafter with ⟨hrearms, hdown⟩ | ⟨hkeeps, hreminders⟩
      · exact .inr ⟨new, hnew, hdown, by rw [if_pos hrearms]⟩
      · have hput : s.Continues (s.putRow new) :=
          continues_putRow h (by rw [hnew, hrow]) hreminders
        exact .inl ⟨⟨hput.rows, hput.ids, hput.nextId⟩, if_neg hkeeps⟩

/-- A row is written, after the entry that its reminders start anew. -/
theorem Sound.rearm {id : ℕ} {new : WhiteInternetSubscription} (h : s.Sound) (hid : new.id = id) :
    Sound { s.putRow new with log := .rearmed id :: s.log } := by
  have hrow : ∀ k, k ≠ id → ∀ sub' ∈ (s.putRow new).row k, sub' ∈ s.row k := fun k hk sub' h => by
    rwa [row_putRow, if_neg (by rwa [hid])] at h
  refine ⟨fun sub' hsub' => ?_, fun r hr => ?_, fun k sub' hsub' r hr hrec level hlevel => ?_, ?_⟩
  · have hkeys : (Lib.Table.put WhiteInternetSubscription.id new s.subs).map
        WhiteInternetSubscription.id = s.subs.map WhiteInternetSubscription.id :=
      Lib.Table.map_key_put _ new s.subs
    have hmem : sub'.id ∈ (Lib.Table.put WhiteInternetSubscription.id new s.subs).map
        WhiteInternetSubscription.id := List.mem_map_of_mem hsub'
    rw [hkeys] at hmem
    obtain ⟨sub, hsub, heq⟩ := List.mem_map.mp hmem
    rw [← heq]
    exact h.ids sub hsub
  · rcases List.mem_cons.mp hr with hr | hr
    · cases hr
    · exact h.known r hr
  · rw [sentSince] at hr
    split_ifs at hr with hk
    · cases hr
    · exact h.settled k sub' (hrow k (Ne.symm hk) sub' hsub') r hr hrec level hlevel
  · refine ⟨fun k => ?_, fun r hr => ?_⟩
    · rw [sentSince]
      split_ifs
      · exact .nil
      · exact h.orderly.rising k
    · rcases List.mem_cons.mp hr with hr | hr
      · cases hr
      · exact h.orderly.timely r hr

/-- The end of a row does not move where the rows keep their reminders. -/
theorem rearmed_of_continues {e : WiReminderEvent} (h : s.Sound) (hs : s.Continues (s.step e)) :
    s.Rearmed e := by
  intro id sub hsub sub' hsub' hne
  rcases hs.rows id sub' hsub' with ⟨old, hold, hkeeps⟩ | hnew
  · obtain rfl : old = sub := Option.some.inj (hold.symm.trans hsub)
    exact absurd hkeeps.endsAt hne
  · have hid : sub.id = id := Lib.Table.key_of_lookup _ hsub
    have hlt := h.ids sub (Lib.Table.mem_of_lookup _ hsub)
    omega

theorem Sound.step (h : s.Sound) (e : WiReminderEvent) : (s.step e).Sound ∧ s.Rearmed e := by
  have hpass : s.Continues (s.step e) ∧ (s.step e).Sound → (s.step e).Sound ∧ s.Rearmed e :=
    fun hstep => ⟨hstep.2, rearmed_of_continues h hstep.1⟩
  cases e with
  | select now =>
    refine hpass ?_
    rw [WiReminders.step]
    split_ifs
    · exact h.select now
    · exact ⟨.refl h, h⟩
  | next locked outcome => exact hpass (h.next locked outcome)
  | fails => exact hpass (h.of_same rfl rfl rfl)
  | create => exact hpass (h.create rfl rfl rfl rfl)
  | users => exact hpass (h.of_same rfl rfl rfl)
  | change id e =>
    rcases change_cases h id e with ⟨hcontinues, hlog⟩ | ⟨new, hid, hdown, heq⟩
    · exact hpass ⟨hcontinues, h.keep hcontinues hlog⟩
    · have hstep : s.step (.change id e) = { s.putRow new with log := .rearmed id :: s.log } := heq
      refine ⟨hstep ▸ h.rearm hid, fun k sub hsub sub' hsub' hne => ?_⟩
      rw [hstep] at hsub' ⊢
      have hwritten : (s.putRow new).row k = some sub' := hsub'
      rw [row_putRow] at hwritten
      split_ifs at hwritten with hk
      · obtain ⟨_, -, rfl⟩ := Option.map_eq_some_iff.mp hwritten
        refine ⟨hdown, ?_⟩
        rw [sentSince, if_pos (by rw [hk, hid])]
      · rw [hsub] at hwritten
        exact absurd (congrArg expiresAt (Option.some.inj hwritten).symm) hne

/-- Whatever happens, in any order: after a reminder that its row records only more urgent ones are
    sent until the end of the row is written again, each at its time; and where an end moves, every
    level is to be sent again. -/
theorem orderly_of_run (s : WiReminders) (es : List WiReminderEvent)
    (hids : ∀ sub ∈ s.subs, sub.id < s.nextId) (hlog : s.log = []) :
    (Lib.run step s es).Orderly ∧ Lib.Always step Rearmed s es := by
  have hstart : s.Sound := by
    refine ⟨hids, ?_, ?_, ?_, ?_⟩ <;> simp [hlog, sentSince]
  have hend := Lib.run_inv step (I := Sound) (fun _ e h => (h.step e).1) es s hstart
  exact ⟨hend.orderly, Lib.always_of_inv step (I := Sound) (fun _ e h => (h.step e).1)
    (fun _ e h => (h.step e).2) es s hstart⟩

/-- A subscription that ends in twenty hours. -/
def endingSoon : WiReminders :=
  { subs := [{ id := 1, userId := 7, status := .active, expiresAt := hours 20 }]
    users := [{ user := { id := 7, telegramId := 70 } }]
    nextId := 2 }

/-- Its user is reminded, the commit fails and the reminder comes again; then the user renews, and is
    reminded before the next end. -/
def remindedTwice : List WiReminderEvent :=
  [.select 0, .next false (.aborted true), .select (hours 1), .next false .delivered,
    .change 1 (.change (.op (.renew 30 (hours 2)))), .select (days 30),
    .next false .delivered]

theorem orderly_of_run_remindedTwice :
    (Lib.run step endingSoon remindedTwice).Orderly ∧
      Lib.Always step Rearmed endingSoon remindedTwice :=
  orderly_of_run endingSoon remindedTwice (by decide) rfl

end WiReminders

end Just1kBot
