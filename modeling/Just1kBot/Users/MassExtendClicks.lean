import Just1kBot.Lib.Transition
import Mathlib.Data.Finset.Basic

/-! The clicks that start a mass extension: `apply_mass_extend` of
    `bot/handlers/admin/users/mass_extend.py`.

    A handler runs from one `await` to the next. It looks at `_mass_extend_in_progress` first, reads
    the configuration and takes the keyboard off in two awaits, and enters the set after them. So
    two handlers that have both looked before either has entered start a run each. -/

namespace Just1kBot.MassExtendClicks
open Lib (Always Throughout)

/-- Where a handler waits, with the configuration it has read. -/
inductive Stage
  /-- It found nobody in the set; `state.get_data()` is next. -/
  | checked
  /-- `edit_reply_markup` is next, and then the admin enters the set. -/
  | loaded (config : ℕ)
  /-- `state.clear()` is next. -/
  | entered (config : ℕ)
  /-- The answer and the edited message are next, and then the run starts. -/
  | cleared (config : ℕ)
  deriving DecidableEq, Repr

structure Click where
  admin : ℕ
  stage : Stage
  deriving DecidableEq, Repr

/-- The handler has not entered the set yet. -/
def Click.Waits (c : Click) : Prop :=
  match c.stage with
  | .checked | .loaded _ => True
  | .entered _ | .cleared _ => False

instance : DecidablePred Click.Waits := fun c => by unfold Click.Waits; split <;> infer_instance

/-- `configured` is the confirmed configuration in an admin's state, `inProgress` the set
    `_mass_extend_in_progress`, `runs` the background runs that are active, and `started` a history
    of the configurations that were started. Configurations are numbered as they are made. -/
structure State where
  configured : ℕ → Option ℕ := fun _ => none
  nextConfig : ℕ := 0
  inProgress : Finset ℕ := ∅
  clicks : List Click := []
  runs : List ℕ := []
  started : List ℕ := []

/-- `ok` says that the awaited call returns and does not raise. `leave` is a handler that is
    cancelled, `clear` any other handler that clears an admin's state. -/
inductive Event
  | configure (admin : ℕ)
  | clear (admin : ℕ)
  | click (admin : ℕ)
  | resume (k : ℕ) (ok : Bool)
  | leave (k : ℕ)
  | finish (k : ℕ)
  deriving DecidableEq, Repr

def State.setConfig (s : State) (admin : ℕ) (config : Option ℕ) : State :=
  { s with configured := Function.update s.configured admin config }

/-- The handler returns. -/
def State.drop (s : State) (k : ℕ) : State := { s with clicks := s.clicks.eraseIdx k }

def State.stage (s : State) (k : ℕ) (c : Click) : State := { s with clicks := s.clicks.set k c }

/-- The handler `k` of the admin goes on after an await. -/
def State.resume (s : State) (k : ℕ) (ok : Bool) (admin : ℕ) : Stage → State
  | .checked =>
    match s.configured admin with
    | none => s.drop k
    | some config => if ok then s.stage k ⟨admin, .loaded config⟩ else s.drop k
  | .loaded config =>
    -- an error of `edit_reply_markup` is passed over
    { s.stage k ⟨admin, .entered config⟩ with inProgress := insert admin s.inProgress }
  | .entered config =>
    if ok then (s.stage k ⟨admin, .cleared config⟩).setConfig admin none
    else { s.drop k with inProgress := s.inProgress.erase admin }
  | .cleared config =>
    if ok then { s.drop k with runs := s.runs ++ [admin], started := s.started ++ [config] }
    else { s.drop k with inProgress := s.inProgress.erase admin }

def step (s : State) : Event → State
  | .configure admin => { s.setConfig admin (some s.nextConfig) with nextConfig := s.nextConfig + 1 }
  | .clear admin => s.setConfig admin none
  | .click admin =>
    if s.inProgress = ∅ then { s with clicks := s.clicks ++ [⟨admin, .checked⟩] } else s
  | .resume k ok =>
    match s.clicks[k]? with
    | none => s
    | some c => s.resume k ok c.admin c.stage
  | .leave k => s.drop k
  | .finish k =>
    match s.runs[k]? with
    | none => s
    | some admin =>
      { s with runs := s.runs.eraseIdx k, inProgress := s.inProgress.erase admin }

/-- A click looks at the set while no other handler is between its look and its entry. -/
def Alone (s : State) : Event → Prop
  | .click _ => ∀ c ∈ s.clicks, ¬ c.Waits
  | _ => True

instance (s : State) : DecidablePred (Alone s) := fun e => by
  cases e <;> unfold Alone <;> infer_instance

/-- At most one run is active, and no configuration was started twice. -/
def Once (s : State) : Prop := s.runs.length ≤ 1 ∧ s.started.Nodup

instance (s : State) : Decidable (Once s) := by unfold Once; infer_instance

/-! ### One handler or run at a time -/

/-- The configuration the handler has read. -/
def Click.config (c : Click) : Option ℕ :=
  match c.stage with
  | .checked => none
  | .loaded config | .entered config | .cleared config => some config

/-- The configurations: an admin's is a made one that was not started, and nobody else has it. -/
structure Configs (s : State) : Prop where
  made : ∀ a config, s.configured a = some config → config < s.nextConfig
  fresh : ∀ a config, s.configured a = some config → config ∉ s.started
  apart : ∀ a b config, s.configured a = some config → s.configured b = some config → a = b
  once : s.started.Nodup
  startedMade : ∀ config ∈ s.started, config < s.nextConfig

/-- What a handler has read was not started, and is in the state of its admin if it is in any. -/
structure Read (s : State) (c : Click) : Prop where
  made : ∀ config ∈ c.config, config < s.nextConfig
  fresh : ∀ config ∈ c.config, config ∉ s.started
  own : ∀ config ∈ c.config, ∀ a, s.configured a = some config → a = c.admin
  cleared : ∀ config, c.stage = .cleared config → ∀ a, s.configured a ≠ some config

/-- What holds while the clicks look one at a time. -/
structure Inv (s : State) : Prop where
  one : s.clicks.length + s.runs.length ≤ 1
  entered : ∀ c ∈ s.clicks, ¬ c.Waits → c.admin ∈ s.inProgress
  running : ∀ admin ∈ s.runs, admin ∈ s.inProgress
  configs : Configs s
  read : ∀ c ∈ s.clicks, Read s c

theorem inv_init : Inv {} where
  one := by decide
  entered := by simp
  running := by simp
  configs := ⟨by simp, by simp, by simp, by simp, by simp⟩
  read := by simp

section Configurations
variable {s : State} {admin : ℕ}

/-- The rest of the state does not matter. -/
theorem Configs.congr {s' : State} (h : Configs s) (hconf : s'.configured = s.configured)
    (hnext : s'.nextConfig = s.nextConfig) (hstarted : s'.started = s.started) : Configs s' := by
  obtain ⟨made, fresh, apart, once, startedMade⟩ := h
  constructor <;> simpa only [hconf, hnext, hstarted]

theorem Read.congr {s' : State} {c : Click} (h : Read s c) (hconf : s'.configured = s.configured)
    (hnext : s'.nextConfig = s.nextConfig) (hstarted : s'.started = s.started) : Read s' c := by
  obtain ⟨made, fresh, own, cleared⟩ := h
  constructor <;> simpa only [hconf, hnext, hstarted]

theorem configured_setConfig (a : ℕ) (config : Option ℕ) :
    (s.setConfig admin config).configured a = if a = admin then config else s.configured a :=
  Function.update_apply ..

theorem configured_configure {a config : ℕ}
    (h : (step s (.configure admin)).configured a = some config) :
    (a = admin ∧ config = s.nextConfig) ∨ s.configured a = some config := by
  have hupd := Eq.trans (configured_setConfig a (some s.nextConfig)).symm h
  split at hupd
  · next ha => exact .inl ⟨ha, (Option.some.inj hupd).symm⟩
  · exact .inr hupd

theorem configured_clear {a config : ℕ} (h : (s.setConfig admin none).configured a = some config) :
    a ≠ admin ∧ s.configured a = some config := by
  rw [configured_setConfig] at h
  split at h
  · cases h
  · next ha => exact ⟨ha, h⟩

theorem Configs.configure (h : Configs s) : Configs (step s (.configure admin)) where
  made := by
    intro a config ha
    rcases configured_configure ha with ⟨-, rfl⟩ | ha
    · exact Nat.lt_succ_self _
    · exact (h.made a config ha).trans (Nat.lt_succ_self _)
  fresh := by
    intro a config ha hstarted
    rcases configured_configure ha with ⟨-, rfl⟩ | ha
    · exact absurd (h.startedMade _ hstarted) (lt_irrefl _)
    · exact h.fresh a config ha hstarted
  apart := by
    intro a b config ha hb
    rcases configured_configure ha with ⟨hadm, hc⟩ | ha' <;>
      rcases configured_configure hb with ⟨hadm', hc'⟩ | hb'
    · exact hadm.trans hadm'.symm
    · exact absurd (h.made b config hb') (hc ▸ lt_irrefl _)
    · exact absurd (h.made a config ha') (hc' ▸ lt_irrefl _)
    · exact h.apart a b config ha' hb'
  once := h.once
  startedMade := fun config hc => (h.startedMade config hc).trans (Nat.lt_succ_self _)

theorem Configs.clear (h : Configs s) : Configs (s.setConfig admin none) where
  made := fun a config ha => h.made a config (configured_clear ha).2
  fresh := fun a config ha => h.fresh a config (configured_clear ha).2
  apart := fun a b config ha hb => h.apart a b config (configured_clear ha).2 (configured_clear hb).2
  once := h.once
  startedMade := h.startedMade

theorem Read.configure {c : Click} (h : Read s c) : Read (step s (.configure admin)) c where
  made := fun config hc => (h.made config hc).trans (Nat.lt_succ_self _)
  fresh := h.fresh
  own := by
    intro config hc a ha
    rcases configured_configure ha with ⟨-, rfl⟩ | ha
    · exact absurd (h.made _ hc) (lt_irrefl _)
    · exact h.own config hc a ha
  cleared := by
    intro config hc a ha
    rcases configured_configure ha with ⟨-, rfl⟩ | ha
    · exact absurd (h.made _ (by rw [Click.config, hc]; rfl)) (lt_irrefl _)
    · exact h.cleared config hc a ha

theorem Read.clear {c : Click} (h : Read s c) : Read (s.setConfig admin none) c where
  made := h.made
  fresh := h.fresh
  own := fun config hc a ha => h.own config hc a (configured_clear ha).2
  cleared := fun config hc a ha => h.cleared config hc a (configured_clear ha).2

/-- A handler that has just read its configuration, or not even that. -/
theorem Read.checked : Read s ⟨admin, .checked⟩ := by
  constructor <;> intro config hc <;> cases hc

theorem Configs.read {config : ℕ} (h : Configs s) (hc : s.configured admin = some config) :
    Read s ⟨admin, .loaded config⟩ where
  made := by rintro _ ⟨⟩; exact h.made admin config hc
  fresh := by rintro _ ⟨⟩; exact h.fresh admin config hc
  own := by rintro _ ⟨⟩ a ha; exact h.apart a admin config ha hc
  cleared := by rintro _ ⟨⟩

end Configurations

/-- With one handler at most, the one that goes on is the only one. -/
theorem eq_singleton {s : State} (h : Inv s) {k : ℕ} {c : Click} (hk : s.clicks[k]? = some c) :
    s.clicks = [c] ∧ k = 0 ∧ s.runs = [] := by
  have hone := h.one
  obtain ⟨hlt, -⟩ := List.getElem?_eq_some_iff.mp hk
  obtain ⟨c', hc'⟩ := List.length_eq_one_iff.mp (show s.clicks.length = 1 by omega)
  obtain rfl : k = 0 := by omega
  rw [hc'] at hk
  cases hk
  exact ⟨hc', rfl, List.eq_nil_of_length_eq_zero (by omega)⟩

section Shapes
variable {s : State}

theorem Inv.of_idle (hclicks : s.clicks = []) (hruns : s.runs = []) (h : Configs s) : Inv s where
  one := by simp [hclicks, hruns]
  entered := by simp [hclicks]
  running := by simp [hruns]
  configs := h
  read := by simp [hclicks]

theorem Inv.of_click {c : Click} (hclicks : s.clicks = [c]) (hruns : s.runs = [])
    (hin : ¬ c.Waits → c.admin ∈ s.inProgress) (h : Configs s) (hread : Read s c) : Inv s where
  one := by simp [hclicks, hruns]
  entered := by simpa [hclicks] using hin
  running := by simp [hruns]
  configs := h
  read := by simpa [hclicks] using hread

theorem Inv.of_run {admin : ℕ} (hclicks : s.clicks = []) (hruns : s.runs = [admin])
    (hin : admin ∈ s.inProgress) (h : Configs s) : Inv s where
  one := by simp [hclicks, hruns]
  entered := by simp [hclicks]
  running := by simpa [hruns] using hin
  configs := h
  read := by simp [hclicks]

/-- A click that finds the set empty, and nobody before their entry, is the only one. -/
theorem Inv.idle (h : Inv s) (hempty : s.inProgress = ∅) (halone : ∀ c ∈ s.clicks, ¬ c.Waits) :
    s.clicks = [] ∧ s.runs = [] := by
  refine ⟨List.eq_nil_iff_forall_not_mem.mpr fun c hc => ?_,
    List.eq_nil_iff_forall_not_mem.mpr fun admin ha => ?_⟩
  · have hin := h.entered c hc (halone c hc)
    simp [hempty] at hin
  · have hin := h.running admin ha
    simp [hempty] at hin

/-- The run of a configuration that is in no admin's state any more. -/
theorem Configs.start {config : ℕ} (h : Configs s) (hmade : config < s.nextConfig)
    (hfresh : config ∉ s.started) (hgone : ∀ a, s.configured a ≠ some config) (runs : List ℕ)
    (k : ℕ) : Configs { s.drop k with runs := runs, started := s.started ++ [config] } where
  made := h.made
  fresh := by
    intro a c ha hstarted
    rcases List.mem_append.mp hstarted with hstarted | hstarted
    · exact h.fresh a c ha hstarted
    · exact hgone a (List.mem_singleton.mp hstarted ▸ ha)
  apart := h.apart
  once := h.once.append (List.nodup_singleton _) (by simpa using hfresh)
  startedMade := by
    intro c hc
    rcases List.mem_append.mp hc with hc | hc
    · exact h.startedMade c hc
    · exact List.mem_singleton.mp hc ▸ hmade

end Shapes

/-- A handler that goes on keeps the invariant. -/
theorem Inv.resume {s : State} (h : Inv s) {k : ℕ} (ok : Bool) {c : Click}
    (hk : s.clicks[k]? = some c) : Inv (s.resume k ok c.admin c.stage) := by
  obtain ⟨hclicks, rfl, hruns⟩ := eq_singleton h hk
  have hread : Read s c := h.read c (by rw [hclicks]; exact List.mem_singleton_self c)
  have hin : ¬ c.Waits → c.admin ∈ s.inProgress :=
    h.entered c (by rw [hclicks]; exact List.mem_singleton_self c)
  have hdrop : (s.drop 0).clicks = [] := by simp [State.drop, hclicks]
  have hset : ∀ c', (s.stage 0 c').clicks = [c'] := fun c' => by simp [State.stage, hclicks]
  have hconfigs := h.configs
  obtain ⟨admin, stage⟩ := c
  cases stage with
  | checked =>
    simp only [State.resume]
    split
    · exact .of_idle hdrop hruns (hconfigs.congr rfl rfl rfl)
    · next config hc =>
      cases ok with
      | true =>
        exact .of_click (hset _) hruns (absurd trivial) (hconfigs.congr rfl rfl rfl)
          ((hconfigs.read hc).congr rfl rfl rfl)
      | false => exact .of_idle hdrop hruns (hconfigs.congr rfl rfl rfl)
  | loaded config =>
    refine .of_click (hset ⟨admin, .entered config⟩) hruns
      (fun _ => Finset.mem_insert_self _ _) (hconfigs.congr rfl rfl rfl) ?_
    refine ⟨hread.made, hread.fresh, hread.own, ?_⟩
    intro c' hc'
    cases hc'
  | entered config =>
    cases ok with
    | true =>
      refine .of_click (hset ⟨admin, .cleared config⟩) hruns (fun _ => hin id)
        (hconfigs.clear.congr rfl rfl rfl)
        ⟨hread.made, hread.fresh, fun c hc a ha => hread.own c hc a (configured_clear ha).2, ?_⟩
      -- the configuration was in the state of this admin, which is clear now
      rintro _ ⟨⟩ a ha
      exact (configured_clear ha).1 (hread.own config rfl a (configured_clear ha).2)
    | false => exact .of_idle hdrop hruns (hconfigs.congr rfl rfl rfl)
  | cleared config =>
    cases ok with
    | true =>
      refine .of_run hdrop (by simp [State.resume, hruns]) (hin id) ?_
      exact hconfigs.start (hread.made config rfl) (hread.fresh config rfl)
        (hread.cleared config rfl) _ 0
    | false => exact .of_idle hdrop hruns (hconfigs.congr rfl rfl rfl)

theorem Inv.step {s : State} (e : Event) (h : Inv s) (halone : Alone s e) : Inv (step s e) := by
  cases e with
  | configure admin =>
    exact ⟨h.one, h.entered, h.running, h.configs.configure, fun c hc => (h.read c hc).configure⟩
  | clear admin =>
    exact ⟨h.one, h.entered, h.running, h.configs.clear, fun c hc => (h.read c hc).clear⟩
  | click admin =>
    rw [MassExtendClicks.step]
    split
    · next hempty =>
      obtain ⟨hclicks, hruns⟩ := h.idle hempty halone
      exact .of_click (c := ⟨admin, .checked⟩) (by simp [hclicks]) hruns (absurd trivial)
        (h.configs.congr rfl rfl rfl) .checked
    · exact h
  | resume k ok =>
    rw [MassExtendClicks.step]
    split
    · exact h
    · next c hk => exact h.resume ok hk
  | leave k =>
    have hmem : ∀ c ∈ (s.drop k).clicks, c ∈ s.clicks := fun c hc => List.mem_of_mem_eraseIdx hc
    refine ⟨?_, fun c hc => h.entered c (hmem c hc), h.running, h.configs.congr rfl rfl rfl,
      fun c hc => (h.read c (hmem c hc)).congr rfl rfl rfl⟩
    have hone := h.one
    have hle : (s.clicks.eraseIdx k).length ≤ s.clicks.length := List.length_eraseIdx_le ..
    change (s.clicks.eraseIdx k).length + s.runs.length ≤ 1
    omega
  | finish k =>
    rw [MassExtendClicks.step]
    split
    · exact h
    · next admin hk =>
      have hone := h.one
      obtain ⟨hlt, -⟩ := List.getElem?_eq_some_iff.mp hk
      refine .of_idle (List.eq_nil_of_length_eq_zero ?_) (List.eq_nil_of_length_eq_zero ?_)
        (h.configs.congr rfl rfl rfl)
      · change s.clicks.length = 0
        omega
      · rw [List.length_eraseIdx_of_lt hlt]
        omega

/-- While the clicks look one at a time, a configuration starts one run and one run is active. -/
theorem once_of_alone (es : List Event) (h : Always step Alone {} es) :
    Throughout step Once {} es :=
  Lib.throughout_of_always step (fun _ e hinv halone => Inv.step e hinv halone)
    (fun _ hinv => ⟨(Nat.le_add_left _ _).trans hinv.one, hinv.configs.once⟩) es {} inv_init h

/-- One admin clicks twice before the first click has read the configuration. -/
def doubleClick : List Event :=
  [.configure 0, .click 0, .click 0, .resume 0 true, .resume 0 true, .resume 1 true, .resume 1 true,
    .resume 0 true, .resume 0 true, .resume 0 true, .resume 0 true]

theorem doubleClick_twice : ¬ ∀ es, Throughout step Once {} es := by
  intro h
  have hdouble := h doubleClick
  revert hdouble
  decide +kernel

end Just1kBot.MassExtendClicks
