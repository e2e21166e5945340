import Mathlib.Data.List.Basic

/-! The lock of a single-threaded event loop.

    A release marks the lock free and wakes the first waiter, which takes the lock only at its next
    step. Between the two the lock is free and has a queue: a newcomer waits, unless all who wait are
    cancelled. A cancelled waiter leaves at its next step, too, and passes the wake on if the lock is
    free. -/

namespace Lib

/-- What has become of a waiter's future: a waiter is `doomed` if it was woken and cancelled before
    its next step. -/
inductive Wait
  | pending | woken | cancelled | doomed
  deriving DecidableEq, Repr

/-- The waiter will take the lock, unless it is cancelled. -/
def Wait.live : Wait → Bool
  | .pending | .woken => true
  | .cancelled | .doomed => false

/-- The wake has gone to this waiter. -/
def Wait.granted : Wait → Bool
  | .woken | .doomed => true
  | .pending | .cancelled => false

def Wait.cancel : Wait → Wait
  | .pending | .cancelled => .cancelled
  | .woken | .doomed => .doomed

structure AsyncLock (τ : Type*) where
  locked : Bool := false
  waiters : List (τ × Wait) := []
  deriving DecidableEq, Repr

namespace AsyncLock
variable {τ : Type*} [DecidableEq τ]

/-- A newcomer takes the lock at once. -/
def free (l : AsyncLock τ) : Bool := !l.locked && l.waiters.all fun w => w.2 = .cancelled

/-- A task asks for the lock. -/
def acquire (t : τ) (l : AsyncLock τ) : AsyncLock τ :=
  if l.free then { l with locked := true } else { l with waiters := l.waiters ++ [(t, .pending)] }

/-- The first waiter is woken, if nothing has become of it. -/
def wakeFirst (l : AsyncLock τ) : AsyncLock τ :=
  match l.waiters with
  | (t, .pending) :: ws => { l with waiters := (t, .woken) :: ws }
  | _ => l

/-- The holder leaves. -/
def release (l : AsyncLock τ) : AsyncLock τ := { l with locked := false }.wakeFirst

/-- A waiter is cancelled. -/
def cancel (t : τ) (l : AsyncLock τ) : AsyncLock τ :=
  { l with waiters := l.waiters.map fun w => if w.1 = t then (w.1, w.2.cancel) else w }

/-- The future of a waiter. -/
def waitOf (t : τ) (l : AsyncLock τ) : Option Wait :=
  (l.waiters.find? fun w => w.1 = t).map Prod.snd

/-- A waiter leaves the queue. -/
def leave (t : τ) (l : AsyncLock τ) : AsyncLock τ :=
  { l with waiters := l.waiters.eraseP fun w => w.1 = t }

/-- The next step of a waiter: one that was woken takes the lock, a cancelled one passes the wake
    on, and one that still waits takes no step. -/
def resume (t : τ) (l : AsyncLock τ) : AsyncLock τ :=
  match l.waitOf t with
  | some .woken => { l.leave t with locked := true }
  | some .cancelled | some .doomed => if l.locked then l.leave t else (l.leave t).wakeFirst
  | _ => l

/-- The lock is held or waited for. -/
def inUse (l : AsyncLock τ) : Bool := l.locked || l.waiters.any fun w => w.2.live

/-- A wake has gone to the first waiter at most, and to none of a lock that is held. -/
structure Valid (l : AsyncLock τ) : Prop where
  head : ∀ w ∈ l.waiters.tail, w.2.granted = false
  free : l.locked = true → ∀ w ∈ l.waiters, w.2.granted = false

section Wakes
omit [DecidableEq τ]

theorem valid_new : Valid ({} : AsyncLock τ) where
  head := fun _ h => absurd h List.not_mem_nil
  free := fun h => absurd h Bool.false_ne_true

@[simp] theorem locked_wakeFirst (l : AsyncLock τ) : l.wakeFirst.locked = l.locked := by
  unfold wakeFirst
  split <;> rfl

theorem tail_wakeFirst (l : AsyncLock τ) : l.wakeFirst.waiters.tail = l.waiters.tail := by
  unfold wakeFirst
  split
  · next h => rw [h]; rfl
  · rfl

/-- A wake goes to one who waits. -/
theorem inUse_wakeFirst (l : AsyncLock τ) : l.wakeFirst.inUse = l.inUse := by
  unfold wakeFirst
  split
  · next h => simp [inUse, h, Wait.live]
  · rfl

theorem valid_wakeFirst {l : AsyncLock τ} (hhead : ∀ w ∈ l.waiters.tail, w.2.granted = false)
    (hfree : l.locked = false) : l.wakeFirst.Valid where
  head := by rwa [tail_wakeFirst]
  free := by
    intro hlocked
    rw [locked_wakeFirst, hfree] at hlocked
    cases hlocked

theorem Valid.release {l : AsyncLock τ} (h : l.Valid) : l.release.Valid :=
  valid_wakeFirst h.head rfl

@[simp] theorem locked_release (l : AsyncLock τ) : l.release.locked = false :=
  locked_wakeFirst _

theorem inUse_of_release {l : AsyncLock τ} (h : l.release.inUse = true) : l.inUse = true := by
  rw [release, inUse_wakeFirst] at h
  rw [inUse, Bool.or_eq_true]
  exact .inr h

end Wakes

omit [DecidableEq τ] in
theorem Valid.acquire {l : AsyncLock τ} (h : l.Valid) (t : τ) : (l.acquire t).Valid := by
  unfold AsyncLock.acquire
  split_ifs with hfree
  · simp only [AsyncLock.free, Bool.and_eq_true, List.all_eq_true, decide_eq_true_eq] at hfree
    refine ⟨h.head, fun _ w hw => ?_⟩
    rw [hfree.2 w hw]
    rfl
  · have hnew : ∀ w ∈ [(t, Wait.pending)], w.2.granted = false := by simp [Wait.granted]
    refine ⟨fun w hw => ?_, fun hlocked w hw => ?_⟩
    · rcases hws : l.waiters with _ | ⟨first, ws⟩
      · rw [hws] at hw
        cases hw
      · rw [hws] at hw
        rcases List.mem_append.mp hw with hw | hw
        · exact h.head w (by rwa [hws])
        · exact hnew w hw
    · rcases List.mem_append.mp hw with hw | hw
      · exact h.free hlocked w hw
      · exact hnew w hw

theorem granted_cancel (w : Wait) : w.cancel.granted = w.granted := by
  cases w <;> rfl

theorem not_live_cancel (w : Wait) : w.cancel.live = false := by
  cases w <;> rfl

theorem Valid.cancel {l : AsyncLock τ} (h : l.Valid) (t : τ) : (l.cancel t).Valid := by
  have hgranted (w : τ × Wait) :
      (if w.1 = t then (w.1, w.2.cancel) else w).2.granted = w.2.granted := by
    split_ifs
    · exact granted_cancel w.2
    · rfl
  constructor
  · intro w hw
    rw [AsyncLock.cancel, ← List.map_tail] at hw
    obtain ⟨w₀, hw₀, rfl⟩ := List.mem_map.mp hw
    rw [hgranted]
    exact h.head w₀ hw₀
  · intro hlocked w hw
    obtain ⟨w₀, hw₀, rfl⟩ := List.mem_map.mp hw
    rw [hgranted]
    exact h.free hlocked w₀ hw₀

theorem inUse_of_cancel {l : AsyncLock τ} {t : τ} (h : (l.cancel t).inUse = true) :
    l.inUse = true := by
  simp only [inUse, cancel, Bool.or_eq_true, List.any_map, List.any_eq_true] at h ⊢
  refine h.imp id fun ⟨w, hw, hlive⟩ => ⟨w, hw, ?_⟩
  simp only [Function.comp_apply] at hlive
  split_ifs at hlive
  · rw [not_live_cancel] at hlive
    cases hlive
  · exact hlive

theorem mem_of_mem_leave {l : AsyncLock τ} {t : τ} {w : τ × Wait} (h : w ∈ (l.leave t).waiters) :
    w ∈ l.waiters :=
  List.mem_of_mem_eraseP h

theorem mem_of_mem_tail_leave {l : AsyncLock τ} {t : τ} {w : τ × Wait}
    (h : w ∈ (l.leave t).waiters.tail) : w ∈ l.waiters.tail := by
  rw [leave] at h
  rcases hws : l.waiters with _ | ⟨first, ws⟩
  · simp [hws] at h
  · by_cases hfirst : first.1 = t
    · rw [hws, List.eraseP_cons_of_pos (by simpa using hfirst)] at h
      exact List.mem_of_mem_tail h
    · rw [hws, List.eraseP_cons_of_neg (by simpa using hfirst)] at h
      exact List.mem_of_mem_eraseP h

/-- A waiter that was woken is the first, and no wake has gone to the others. -/
theorem Valid.leave_woken {l : AsyncLock τ} (h : l.Valid) {t : τ}
    (hwoken : l.waitOf t = some .woken) : ∀ w ∈ (l.leave t).waiters, w.2.granted = false := by
  obtain ⟨w₀, hfind, hw₀⟩ := Option.map_eq_some_iff.mp hwoken
  rcases hws : l.waiters with _ | ⟨first, ws⟩
  · simp [hws] at hfind
  · rw [hws, List.find?_cons] at hfind
    have htail := h.head
    rw [hws] at htail
    split at hfind
    · next hfirst =>
      intro w hw
      rw [leave, hws] at hw
      rw [List.eraseP_cons_of_pos (by simpa using hfirst)] at hw
      exact htail w hw
    · have hgranted := htail w₀ (List.mem_of_find?_eq_some hfind)
      rw [hw₀] at hgranted
      cases hgranted

theorem Valid.resume {l : AsyncLock τ} (h : l.Valid) (t : τ) : (l.resume t).Valid := by
  have hhead : ∀ w ∈ (l.leave t).waiters.tail, w.2.granted = false :=
    fun w hw => h.head w (mem_of_mem_tail_leave hw)
  have hleft : (if l.locked then l.leave t else (l.leave t).wakeFirst).Valid := by
    split_ifs with hlocked
    · exact ⟨hhead, fun _ w hw => h.free hlocked w (mem_of_mem_leave hw)⟩
    · exact valid_wakeFirst hhead (Bool.of_not_eq_true hlocked)
  unfold AsyncLock.resume
  split
  · next hwoken => exact ⟨hhead, fun _ => h.leave_woken hwoken⟩
  · exact hleft
  · exact hleft
  · exact h

/-- The lock of a waiter that was woken is free. -/
theorem Valid.free_of_woken {l : AsyncLock τ} (h : l.Valid) {t : τ}
    (hwoken : l.waitOf t = some .woken) : l.locked = false := by
  obtain ⟨w, hfind, hw⟩ := Option.map_eq_some_iff.mp hwoken
  refine Bool.of_not_eq_true fun hlocked => ?_
  have hgranted := h.free hlocked w (List.mem_of_find?_eq_some hfind)
  rw [hw] at hgranted
  cases hgranted

theorem locked_resume (l : AsyncLock τ) (t : τ) :
    (l.resume t).locked = (l.locked || decide (l.waitOf t = some .woken)) := by
  unfold resume
  split
  · next hwoken => simp [hwoken]
  · next hcancelled => split_ifs with hlocked <;> simp [hcancelled, hlocked, leave]
  · next hdoomed => split_ifs with hlocked <;> simp [hdoomed, hlocked, leave]
  · next hwoken _ _ => simp only [decide_eq_false hwoken, Bool.or_false]

/-- A step of a waiter is taken for a lock in use, or leaves it as unused as it was. -/
theorem inUse_of_resume {l : AsyncLock τ} {t : τ} (h : (l.resume t).inUse = true) :
    l.inUse = true := by
  have hleave (hlive : (l.leave t).inUse = true) : l.inUse = true := by
    simp only [inUse, Bool.or_eq_true, List.any_eq_true] at hlive ⊢
    exact hlive.imp id fun ⟨w, hw, hlive⟩ => ⟨w, mem_of_mem_leave hw, hlive⟩
  unfold resume at h
  split at h
  · next hwoken =>
    obtain ⟨w, hfind, hw⟩ := Option.map_eq_some_iff.mp hwoken
    rw [inUse, Bool.or_eq_true, List.any_eq_true]
    exact .inr ⟨w, List.mem_of_find?_eq_some hfind, by rw [hw]; rfl⟩
  · split_ifs at h
    · exact hleave h
    · exact hleave ((inUse_wakeFirst _).symm.trans h)
  · split_ifs at h
    · exact hleave h
    · exact hleave ((inUse_wakeFirst _).symm.trans h)
  · exact h

end AsyncLock
end Lib
