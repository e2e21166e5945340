import Mathlib.Algebra.Order.Group.Defs
import Mathlib.Algebra.Order.Group.Unbundled.Basic
import Mathlib.Algebra.Order.Monoid.Unbundled.MinMax
import Mathlib.Algebra.BigOperators.Group.List.Basic
import Mathlib.Tactic.Abel
import Mathlib.Order.Lattice

/-! Leases: access that ends at an instant, and the grants that move its end.

    A grant extends the lease from its end, or from the instant it is made when the lease has run
    out by then; one that restarts the lease counts from that instant in any case. Where a list of
    grants leads is said without running it: by the lengths booked behind each grant, and by whether
    every grant was made in time, before the lease had run out. -/

namespace Lib.Lease

variable {T : Type*} [AddCommGroup T] [LinearOrder T]

/-- A grant of access: when it is made, how long it lasts, and whether it restarts the lease. -/
structure Grant (T : Type*) [AddCommGroup T] [LinearOrder T] where
  time : T
  length : T
  restarts : Bool
  nonneg : 0 ≤ length

/-- The end of the lease after a grant: a grant of no length changes nothing. -/
def Grant.apply (g : Grant T) (e : Option T) : Option T :=
  if g.length = 0 then e
  else if g.restarts then some (g.time + g.length)
  else some (e.elim g.time (max · g.time) + g.length)

def leaseEnd (e : Option T) (gs : List (Grant T)) : Option T := gs.foldl (fun e g => g.apply e) e

/-- The length of all grants together. -/
def booked (gs : List (Grant T)) : T := (gs.map Grant.length).sum

/-- No grant restarts the lease. -/
def Extends (gs : List (Grant T)) : Prop := ∀ g ∈ gs, g.length ≠ 0 → g.restarts = false

/-- Every grant since the last restart is over by `limit`, with all that is booked behind it. -/
def OverBy (limit : T) : List (Grant T) → Prop
  | [] => True
  | g :: rest =>
    (g.length ≠ 0 → Extends rest → g.time + booked (g :: rest) ≤ limit) ∧ OverBy limit rest

/-- What the lease had left and what was granted is over by `limit`. -/
def EndsBy (limit : T) (e : Option T) (gs : List (Grant T)) : Prop :=
  (Extends gs → ∀ x ∈ e, x + booked gs ≤ limit) ∧ OverBy limit gs

/-- Every grant is made while a lease that ends at `k`, and is extended by each, still runs. -/
def InTime (k : T) : List (Grant T) → Prop
  | [] => True
  | g :: rest => (g.length ≠ 0 → g.time ≤ k) ∧ InTime (k + g.length) rest

instance (gs : List (Grant T)) : Decidable (Extends gs) := by unfold Extends; infer_instance

instance decidableOverBy (limit : T) : (gs : List (Grant T)) → Decidable (OverBy limit gs)
  | [] => .isTrue trivial
  | g :: rest =>
    have := decidableOverBy limit rest
    inferInstanceAs (Decidable ((g.length ≠ 0 → Extends rest →
      g.time + booked (g :: rest) ≤ limit) ∧ OverBy limit rest))

instance (limit : T) (e : Option T) (gs : List (Grant T)) : Decidable (EndsBy limit e gs) := by
  unfold EndsBy; infer_instance

instance decidableInTime : (k : T) → (gs : List (Grant T)) → Decidable (InTime k gs)
  | _, [] => .isTrue trivial
  | k, g :: rest =>
    have := decidableInTime (k + g.length) rest
    inferInstanceAs (Decidable ((g.length ≠ 0 → g.time ≤ k) ∧ InTime (k + g.length) rest))

/-! ### One grant -/

section Apply
variable {g : Grant T} {e : Option T}

theorem Grant.apply_of_zero (h : g.length = 0) : g.apply e = e := if_pos h

theorem Grant.apply_of_restarts (h : g.length ≠ 0) (hr : g.restarts = true) :
    g.apply e = some (g.time + g.length) := by rw [apply, if_neg h, if_pos hr]

theorem Grant.apply_of_extends (h : g.length ≠ 0) (hr : g.restarts = false) :
    g.apply e = some (e.elim g.time (max · g.time) + g.length) := by
  rw [apply, if_neg h, hr, if_neg Bool.false_ne_true]

@[simp] theorem leaseEnd_nil : leaseEnd e ([] : List (Grant T)) = e := rfl

@[simp] theorem leaseEnd_cons (gs : List (Grant T)) :
    leaseEnd e (g :: gs) = leaseEnd (g.apply e) gs := rfl

@[simp] theorem booked_nil : booked ([] : List (Grant T)) = 0 := rfl

@[simp] theorem booked_cons (gs : List (Grant T)) : booked (g :: gs) = g.length + booked gs := by
  simp [booked]

theorem extends_cons (gs : List (Grant T)) :
    Extends (g :: gs) ↔ (g.length ≠ 0 → g.restarts = false) ∧ Extends gs := by
  simp [Extends]

end Apply

/-! ### Where the lease ends -/

/-- Grants that were made in time are added up, whatever the lease had left. -/
theorem leaseEnd_of_inTime {gs : List (Grant T)} {k : T} (hext : Extends gs) (h : InTime k gs) :
    leaseEnd (some k) gs = some (k + booked gs) := by
  induction gs generalizing k with
  | nil => simp
  | cons g rest ih =>
    obtain ⟨hg, hrest⟩ := (extends_cons rest).mp hext
    obtain ⟨htime, h⟩ := h
    have happly : g.apply (some k) = some (k + g.length) := by
      by_cases hz : g.length = 0
      · rw [Grant.apply_of_zero hz, hz, add_zero]
      · rw [Grant.apply_of_extends hz (hg hz), Option.elim_some, max_eq_left (htime hz)]
    rw [leaseEnd_cons, happly, ih hrest h, booked_cons, add_assoc]

variable [IsOrderedAddMonoid T]

/-- The end of the lease, in terms of what is booked. -/
theorem leaseEnd_le_iff {limit : T} (gs : List (Grant T)) (e : Option T) :
    (∀ x ∈ leaseEnd e gs, x ≤ limit) ↔ EndsBy limit e gs := by
  induction gs generalizing e with
  | nil => simp [EndsBy, OverBy, Extends]
  | cons g rest ih =>
    rw [leaseEnd_cons, ih, EndsBy, EndsBy, OverBy, extends_cons]
    by_cases hz : g.length = 0
    · rw [Grant.apply_of_zero hz]
      simp [hz]
    · by_cases hr : g.restarts = true
      · rw [Grant.apply_of_restarts hz hr]
        simp [hz, hr, add_assoc]
      · rw [Grant.apply_of_extends hz (by simpa using hr)]
        cases e with
        | none => simp [hz, hr, add_assoc]
        | some x =>
          have hmax : max x g.time + g.length + booked rest ≤ limit ↔
              x + (g.length + booked rest) ≤ limit ∧
                g.time + (g.length + booked rest) ≤ limit := by
            rw [add_assoc, max_add, max_le_iff]
          simp only [Option.elim_some, Option.mem_some_iff, forall_eq', hmax, booked_cons, hz, hr,
            ne_eq, not_false_eq_true, forall_const, true_and]
          tauto

theorem InTime.mono {gs : List (Grant T)} {k k' : T} (hk : k ≤ k') (h : InTime k gs) :
    InTime k' gs := by
  induction gs generalizing k k' with
  | nil => trivial
  | cons g rest ih =>
    exact ⟨fun hz => (h.1 hz).trans hk, ih (add_le_add_left hk g.length) h.2⟩

/-- A lease that starts with more has no more advantage at its end, and keeps what is booked. -/
theorem leaseEnd_of_le {gs : List (Grant T)} {a b : T} (hab : a ≤ b) (hext : Extends gs) :
    ∃ c f, leaseEnd (some a) gs = some c ∧ leaseEnd (some b) gs = some f ∧
      a + booked gs ≤ c ∧ f + a ≤ c + b := by
  induction gs generalizing a b with
  | nil => exact ⟨a, b, rfl, rfl, by simp, by rw [add_comm]⟩
  | cons g rest ih =>
    obtain ⟨hg, hrest⟩ := (extends_cons rest).mp hext
    by_cases hz : g.length = 0
    · rw [leaseEnd_cons, leaseEnd_cons, Grant.apply_of_zero hz, Grant.apply_of_zero hz, booked_cons,
        hz, zero_add]
      exact ih hab hrest
    · rw [leaseEnd_cons, leaseEnd_cons, Grant.apply_of_extends hz (hg hz),
        Grant.apply_of_extends hz (hg hz), Option.elim_some, Option.elim_some, booked_cons]
      have hmax : max a g.time + g.length ≤ max b g.time + g.length :=
        add_le_add_left (max_le_max_right g.time hab) g.length
      obtain ⟨c, f, hc, hf, hbook, hlate⟩ := ih hmax hrest
      have ha : a ≤ max a g.time := le_max_left a g.time
      have hb : max b g.time + a ≤ max a g.time + b := by
        rcases le_total g.time a with h | h
        · rw [max_eq_left h, max_eq_left (h.trans hab), add_comm]
        · rw [max_eq_right h, max_add]
          exact max_le (by rw [add_comm]; exact add_le_add_left h b) (add_le_add_right hab _)
      refine ⟨c, f, hc, hf, ?_, ?_⟩
      · grind
      · grind

/-- A restart forgets what the lease had left. -/
theorem leaseEnd_of_not_extends {gs : List (Grant T)} (h : ¬ Extends gs) :
    ∃ c, ∀ e, leaseEnd e gs = some c := by
  induction gs with
  | nil => simp [Extends] at h
  | cons g rest ih =>
    by_cases hrest : Extends rest
    · obtain ⟨hz, hr⟩ : g.length ≠ 0 ∧ g.restarts = true := by
        simpa [extends_cons, hrest] using h
      obtain ⟨c, hc⟩ : ∃ c, leaseEnd (some (g.time + g.length)) rest = some c := by
        obtain ⟨c, -, hc, -⟩ := leaseEnd_of_le (le_refl (g.time + g.length)) hrest
        exact ⟨c, hc⟩
      exact ⟨c, fun e => by rw [leaseEnd_cons, Grant.apply_of_restarts hz hr, hc]⟩
    · obtain ⟨c, hc⟩ := ih hrest
      exact ⟨c, fun e => hc (g.apply e)⟩

/-- A grant made when the lease had run out ends later than a longer lease, taken back by what made
    it longer, would. -/
theorem lt_leaseEnd_of_not_inTime {gs : List (Grant T)} {e : Option T} {k d : T}
    (hext : Extends gs) (he : ∀ a ∈ e, a ≤ k) (hd : 0 < d) (h : ¬ InTime k gs) :
    ∃ c f, leaseEnd e gs = some c ∧ leaseEnd (some (k + d)) gs = some f ∧ k + booked gs < c ∧
      f < c + d := by
  induction gs generalizing e k with
  | nil => exact absurd trivial h
  | cons g rest ih =>
    obtain ⟨hg, hrest⟩ := (extends_cons rest).mp hext
    by_cases hz : g.length = 0
    · rw [leaseEnd_cons, leaseEnd_cons, Grant.apply_of_zero hz, Grant.apply_of_zero hz, booked_cons,
        hz, zero_add]
      refine ih hrest he fun hin => h ⟨fun hne => absurd hz hne, ?_⟩
      rw [hz, add_zero]
      exact hin
    · rw [leaseEnd_cons, leaseEnd_cons, Grant.apply_of_extends hz (hg hz),
        Grant.apply_of_extends hz (hg hz), Option.elim_some, booked_cons]
      by_cases htime : g.time ≤ k
      · -- made in time: both leases grow by its length, and a later grant is the late one
        have hstart : e.elim g.time (max · g.time) ≤ k := by
          cases e with
          | none => exact htime
          | some a => exact max_le (he a rfl) htime
        have hk : g.time ≤ k + d := htime.trans (le_add_of_nonneg_right hd.le)
        have hlate := ih (e := some (e.elim g.time (max · g.time) + g.length)) (k := k + g.length)
          hrest (by simpa using hstart) fun hin => h ⟨fun _ => htime, hin⟩
        rw [max_eq_left hk, add_right_comm k d, ← add_assoc]
        exact hlate
      · -- made late: from here on the longer lease is ahead by less than `d`
        have hstart : e.elim g.time (max · g.time) = g.time := by
          cases e with
          | none => rfl
          | some a => exact max_eq_right ((he a rfl).trans (not_le.mp htime).le)
        rw [hstart]
        obtain ⟨c, f, hc, hf, hbook, hlate⟩ := leaseEnd_of_le
          (add_le_add_left (le_max_right (k + d) g.time) g.length) hrest
        have hahead : max (k + d) g.time < g.time + d := by
          refine max_lt ?_ (lt_add_of_pos_right _ hd)
          exact add_lt_add_left (not_le.mp htime) d
        refine ⟨c, f, hc, hf, ?_, ?_⟩
        · grind
        · grind

end Lib.Lease
