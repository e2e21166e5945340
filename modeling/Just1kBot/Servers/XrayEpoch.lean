import Just1kBot.Models
import Just1kBot.Lib.Transition

/-! The generation of a node's Xray process: `update_server_xray_epoch_cas` of
    `database/repositories/servers_repo.py`, as the monitor, the reconciliation and the traffic
    worker call it.

    A writer reads the stored boot id and start time, probes the node, and then hands both the pair
    it read and what it observed to the function, which compares the pair with the stored one under
    the row lock. A node has a new epoch at each start of its process, so an epoch is the number of
    the start; the node may leave the boot id or the start time out of an answer. -/

namespace Just1kBot

abbrev BootId := ℕ

/-- A generation as it is stored on the server row, or observed on the node. -/
structure XrayInstance where
  epoch : Option Epoch := none
  bootId : Option BootId := none
  starttime : Option ℕ := none
  deriving DecidableEq, Repr

namespace XrayInstance

/-- `update_server_xray_epoch_cas`: whether the generation was accepted, and the row. -/
def updateServerXrayEpochCas (server : XrayInstance) (expectedBootId : Option BootId)
    (expectedStarttime : Option ℕ) (new : XrayInstance) : Bool × XrayInstance :=
  -- primary registration
  if server.bootId = none then (true, new)
  else
    let curSt := server.starttime.getD 0
    if (server.bootId, curSt) ≠ (expectedBootId, expectedStarttime.getD 0) then (false, server)
    else if new.bootId ≠ server.bootId then (true, new)
    else
      let newSt := new.starttime.getD 0
      if curSt < newSt then (true, new)
      else if newSt = curSt then
        if server.epoch = new.epoch then (true, server) else (true, new)
      else (false, server)

/-- The pair the writer read is the stored one, with a missing start time as 0. -/
def Expected (server read : XrayInstance) : Prop :=
  server.bootId = read.bootId ∧ server.starttime.getD 0 = read.starttime.getD 0

/-- What the writer observed is not of the stored boot before the stored start time. -/
def NotBehind (server new : XrayInstance) : Prop :=
  new.bootId = server.bootId → server.starttime.getD 0 ≤ new.starttime.getD 0

instance (server read : XrayInstance) : Decidable (server.Expected read) :=
  inferInstanceAs (Decidable (_ ∧ _))

instance (server new : XrayInstance) : Decidable (server.NotBehind new) :=
  inferInstanceAs (Decidable (_ → _))

/-- The row changes only to what was observed, and only without a stored boot id or over the pair
    that was read. -/
theorem cas_changes {server read new : XrayInstance}
    (h : (server.updateServerXrayEpochCas read.bootId read.starttime new).2 ≠ server) :
    (server.updateServerXrayEpochCas read.bootId read.starttime new).2 = new ∧
      (server.bootId = none ∨ server.Expected read ∧ server.NotBehind new) := by
  rw [updateServerXrayEpochCas] at h ⊢
  by_cases hnone : server.bootId = none
  · rw [if_pos hnone]
    exact ⟨rfl, .inl hnone⟩
  rw [if_neg hnone] at h ⊢
  by_cases hpair : (server.bootId, server.starttime.getD 0) = (read.bootId, read.starttime.getD 0)
  · have hexpected : server.Expected read := Prod.mk.inj hpair
    rw [if_neg (not_not.mpr hpair)] at h ⊢
    by_cases hboot : new.bootId = server.bootId
    · rw [if_neg (not_not.mpr hboot)] at h ⊢
      simp only at h ⊢
      by_cases hlt : server.starttime.getD 0 < new.starttime.getD 0
      · rw [if_pos hlt]
        exact ⟨rfl, .inr ⟨hexpected, fun _ => hlt.le⟩⟩
      rw [if_neg hlt] at h ⊢
      by_cases heq : new.starttime.getD 0 = server.starttime.getD 0
      · rw [if_pos heq] at h ⊢
        by_cases hepoch : server.epoch = new.epoch
        · rw [if_pos hepoch] at h
          exact absurd rfl h
        · rw [if_neg hepoch]
          exact ⟨rfl, .inr ⟨hexpected, fun _ => heq.ge⟩⟩
      · rw [if_neg heq] at h
        exact absurd rfl h
    · rw [if_pos hboot]
      exact ⟨rfl, .inr ⟨hexpected, fun hb => absurd hb hboot⟩⟩
  · rw [if_pos hpair] at h
    exact absurd rfl h

end XrayInstance

/-! ### Writers and the node -/

/-- A node: the boot each of its starts belongs to, and the start time within the boot. -/
structure XrayNode where
  boot : Epoch → BootId
  starttime : Epoch → ℕ

/-- A writer that has read the row, and then what it observed. -/
structure EpochWriter where
  read : XrayInstance
  observed : Option XrayInstance := none
  deriving DecidableEq, Repr

/-- The server row, the current start of the node, the writers at work, and the epochs that were
    stored so far. -/
structure XrayState where
  server : XrayInstance
  now : Epoch := 0
  writers : ℕ → Option EpochWriter := fun _ => none
  stored : List Epoch

inductive XrayEvent
  | restart
  | read (w : ℕ)
  /-- The writer probes the node; the answer may lack the boot id or the start time. -/
  | probe (w : ℕ) (bootId starttime : Bool)
  | cas (w : ℕ)
  deriving DecidableEq, Repr

namespace XrayState
open XrayInstance (Expected NotBehind)

/-- What the node answers at its start `now`. -/
def observe (node : XrayNode) (now : Epoch) (bootId starttime : Bool) : XrayInstance where
  epoch := some now
  bootId := if bootId then some (node.boot now) else none
  starttime := if starttime then some (node.starttime now) else none

def step (node : XrayNode) (s : XrayState) : XrayEvent → XrayState
  | .restart => { s with now := s.now + 1 }
  | .read w => { s with writers := Function.update s.writers w (some ⟨s.server, none⟩) }
  | .probe w bootId starttime =>
    match s.writers w with
    | none => s
    | some writer =>
      { s with
        writers := Function.update s.writers w
          (some { writer with observed := some (observe node s.now bootId starttime) }) }
  | .cas w =>
    match s.writers w with
    | some ⟨read, some new⟩ =>
      let server := (s.server.updateServerXrayEpochCas read.bootId read.starttime new).2
      { s with
        server
        writers := Function.update s.writers w none
        stored := server.epoch.toList ++ s.stored }
    | _ => s

/-- The row of a server before any of the writers has come to it. -/
def start (server : XrayInstance) : XrayState := { server, stored := server.epoch.toList }

/-- A writer whose pair is not the stored one never changes the row. -/
def StaleRejected (node : XrayNode) (s : XrayState) : XrayEvent → Prop
  | .cas w => ∀ writer ∈ s.writers w,
      (writer.read.bootId, writer.read.starttime) ≠ (s.server.bootId, s.server.starttime) →
        (step node s (.cas w)).server = s.server
  | _ => True

/-- A new generation in the row is none that the node had left when a later one of its boot was
    stored. -/
def NeverBack (node : XrayNode) (s : XrayState) (e : XrayEvent) : Prop :=
  (step node s e).server ≠ s.server → ∀ o ∈ (step node s e).server.epoch,
    ∀ j ∈ s.stored, node.boot j = node.boot o → j ≤ o

def Safe (node : XrayNode) (s : XrayState) (e : XrayEvent) : Prop :=
  StaleRejected node s e ∧ NeverBack node s e

/-- Where no boot id is stored, or the stored pair is the one that was read and the observation not
    behind it: the writer observed what is stored, or the pair is exactly the one it read and what
    it observed is not older than what is stored. -/
def Current (s : XrayState) : XrayEvent → Prop
  | .cas w => ∀ writer ∈ s.writers w, ∀ new ∈ writer.observed,
      s.server.bootId = none ∨ s.server.Expected writer.read ∧ s.server.NotBehind new →
        new = s.server ∨
          (writer.read.bootId, writer.read.starttime) = (s.server.bootId, s.server.starttime) ∧
            ∀ e ∈ s.server.epoch, ∀ o ∈ new.epoch, e ≤ o
  | _ => True

/-- What is stored is the newest of what was stored, and every observation has an epoch. -/
structure Newest (s : XrayState) : Prop where
  stored : ∀ j ∈ s.stored, ∃ e ∈ s.server.epoch, j ≤ e
  observed : ∀ w, ∀ writer ∈ s.writers w, ∀ new ∈ writer.observed, new.epoch.isSome

theorem newest_start (server : XrayInstance) : Newest (start server) :=
  ⟨fun j hj => ⟨j, by simpa [start] using hj, le_rfl⟩, by simp [start]⟩

/-- What a call does to the row, as the caller sees it. -/
theorem cas_cases (node : XrayNode) (s : XrayState) (w : ℕ) :
    (step node s (.cas w)).server = s.server ∨
      ∃ read new, s.writers w = some ⟨read, some new⟩ ∧ new ≠ s.server ∧
        (step node s (.cas w)).server = new ∧
          (s.server.bootId = none ∨ s.server.Expected read ∧ s.server.NotBehind new) := by
  by_cases hsame : (step node s (.cas w)).server = s.server
  · exact .inl hsame
  · refine .inr ?_
    rw [step] at hsame ⊢
    split at hsame
    · rename_i read new hw
      obtain ⟨heq, hpass⟩ := XrayInstance.cas_changes hsame
      refine ⟨read, new, hw, ?_, heq, hpass⟩
      rw [← heq]
      exact hsame
    · exact absurd rfl hsame

/-- Only a call writes the row. -/
theorem server_step (node : XrayNode) (s : XrayState) {e : XrayEvent} (he : ∀ w, e ≠ .cas w) :
    (step node s e).server = s.server ∧ (step node s e).stored = s.stored := by
  cases e with
  | cas w => exact absurd rfl (he w)
  | probe w bootId starttime =>
    rw [step]
    split <;> exact ⟨rfl, rfl⟩
  | _ => exact ⟨rfl, rfl⟩

/-- A call that changes the row under the condition is from a writer of the stored pair, and its
    generation is not older than any that was stored. -/
theorem cas_current {node : XrayNode} {s : XrayState} {w : ℕ} (h : Newest s)
    (hc : Current s (.cas w)) (hne : (step node s (.cas w)).server ≠ s.server) :
    ∃ read new, s.writers w = some ⟨read, some new⟩ ∧ (step node s (.cas w)).server = new ∧
      (read.bootId, read.starttime) = (s.server.bootId, s.server.starttime) ∧
      ∀ o ∈ new.epoch, ∀ j ∈ s.stored, j ≤ o := by
  obtain heq | ⟨read, new, hw, hnew, heq, hpass⟩ := cas_cases node s w
  · exact absurd heq hne
  · obtain ⟨hpair, hle⟩ := (hc _ hw new rfl hpass).resolve_left hnew
    refine ⟨read, new, hw, heq, hpair, fun o ho j hj => ?_⟩
    obtain ⟨e, he, hje⟩ := h.stored j hj
    exact hje.trans (hle e he o ho)

theorem safe_step {node : XrayNode} {s : XrayState} {e : XrayEvent} (h : Newest s)
    (hc : Current s e) : Safe node s e := by
  cases e with
  | cas w =>
    refine ⟨fun writer hw hpair => ?_, fun hne o ho j hj _ => ?_⟩
    · by_contra hne
      obtain ⟨read, new, hw', -, hpair', -⟩ := cas_current h hc hne
      obtain rfl := Option.some.inj (hw.symm.trans hw')
      exact hpair hpair'
    · obtain ⟨read, new, -, heq, -, hle⟩ := cas_current h hc hne
      exact hle o (heq ▸ ho) j hj
  | _ => exact ⟨trivial, fun hne => absurd (server_step node s (by simp)).1 hne⟩

/-- The observations a call leaves at work were there before it. -/
theorem writers_cas {node : XrayNode} {s : XrayState} {w v : ℕ} {writer : EpochWriter}
    (h : (step node s (.cas w)).writers v = some writer) : s.writers v = some writer := by
  rw [step] at h
  split at h
  · by_cases hv : v = w
    · subst hv
      simp at h
    · rw [← h]
      exact (Function.update_of_ne hv ..).symm
  · exact h

/-- A call adds only the epoch it leaves on the row to what was stored. -/
theorem stored_cas {node : XrayNode} {s : XrayState} {w : ℕ} {j : Epoch}
    (h : j ∈ (step node s (.cas w)).stored) :
    j ∈ (step node s (.cas w)).server.epoch ∨ j ∈ s.stored := by
  rw [step] at h ⊢
  split at h
  · exact (List.mem_append.mp h).imp_left Option.mem_toList.mp
  · exact .inr h

theorem newest_step {node : XrayNode} {s : XrayState} {e : XrayEvent} (h : Newest s)
    (hc : Current s e) : Newest (step node s e) := by
  cases e with
  | restart => exact ⟨h.stored, h.observed⟩
  | read w =>
    refine ⟨h.stored, fun v writer hv new hnew => ?_⟩
    by_cases hvw : v = w
    · subst hvw
      simp only [step, Function.update_self, Option.mem_def, Option.some.injEq] at hv
      rw [← hv] at hnew
      cases hnew
    · simp only [step, Function.update_of_ne hvw] at hv
      exact h.observed v writer hv new hnew
  | probe w bootId starttime =>
    rw [step]
    split
    · exact h
    · refine ⟨h.stored, fun v writer hv new hnew => ?_⟩
      by_cases hvw : v = w
      · subst hvw
        simp only [Function.update_self, Option.mem_def, Option.some.injEq] at hv
        rw [← hv] at hnew
        rw [← Option.some.inj hnew]
        rfl
      · simp only [Function.update_of_ne hvw] at hv
        exact h.observed v writer hv new hnew
  | cas w =>
    refine ⟨fun j hj => ?_, fun v writer hv => h.observed v writer (writers_cas hv)⟩
    rcases stored_cas hj with hj | hj
    · exact ⟨j, hj, le_rfl⟩
    · by_cases hsame : (step node s (.cas w)).server = s.server
      · rw [hsame]
        exact h.stored j hj
      · obtain ⟨read, new, hw, heq, -, hle⟩ := cas_current h hc hsame
        obtain ⟨o, ho⟩ := Option.isSome_iff_exists.mp (h.observed w _ hw new rfl)
        rw [heq]
        exact ⟨o, ho, hle o ho j hj⟩

/-- In every run whose calls all come with a current observation, no stale writer changes the row,
    and the row never goes back. -/
theorem epoch_never_back (node : XrayNode) (server : XrayInstance) (es : List XrayEvent)
    (h : Lib.Always (step node) Current (start server) es) :
    Lib.Always (step node) (Safe node) (start server) es :=
  Lib.always_of_inv_of_always (step node) (fun _ _ => newest_step) (fun _ _ => safe_step) es
    (start server) (newest_start server) h

/-- One writer registers the node, and another follows it through a restart. -/
theorem epoch_never_back_restart :
    Lib.Always (step ⟨fun _ => 1, fun _ => 5⟩) (Safe ⟨fun _ => 1, fun _ => 5⟩) (start {})
      [.read 0, .probe 0 true true, .cas 0, .restart, .read 1, .probe 1 true true, .cas 1] := by
  refine epoch_never_back ⟨fun _ => 1, fun _ => 5⟩ {} _
    ⟨trivial, trivial, ?_, trivial, trivial, trivial, ?_, trivial⟩
  · rintro writer ⟨⟩ new ⟨⟩ -
    exact .inr ⟨rfl, by rintro e ⟨⟩⟩
  · rintro writer ⟨⟩ new ⟨⟩ -
    refine .inr ⟨rfl, ?_⟩
    rintro e ⟨⟩ o ⟨⟩
    decide

/-- Two starts in one clock tick of one boot: a writer that probed before the second start comes
    after the one that stored it. And where no boot id is stored, a writer changes a row it never
    read. -/
theorem stale_generation_stored :
    (¬ ∀ node server es, Lib.Always (step node) (NeverBack node) (start server) es) ∧
      ¬ ∀ node server es, Lib.Always (step node) (StaleRejected node) (start server) es := by
  constructor
  · intro h
    have hrun := h ⟨fun _ => 1, fun _ => 5⟩ {} [.read 0, .probe 0 true true, .cas 0, .read 1,
      .probe 1 true true, .restart, .read 2, .probe 2 true true, .cas 2, .cas 1]
    obtain ⟨-, -, -, -, -, -, -, -, -, hback, -⟩ := hrun
    exact absurd (hback (by decide) 0 rfl 1 (by decide) rfl) (by decide)
  · intro h
    have hrun := h ⟨fun _ => 1, fun _ => 5⟩ {} [.read 0, .probe 0 false true, .read 1,
      .probe 1 true true, .cas 0, .cas 1]
    obtain ⟨-, -, -, -, -, hstale, -⟩ := hrun
    exact absurd (hstale _ rfl (by decide)) (by decide)

end XrayState

end Just1kBot
