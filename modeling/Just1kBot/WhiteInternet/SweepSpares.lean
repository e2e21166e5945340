import Just1kBot.WhiteInternet.OrphanCleanups

/-! The sweep of clean-ups spares a subscription that has come back. A paid move cancels what is
    pending for its target, and waits for the lock of the sweep to do so. The bulk migration and the
    allocation do not look for pending clean-ups, so nothing may be pending where they go. -/

namespace Just1kBot
namespace OutboxState

/-- The row gets no server for which a clean-up of its client is pending: the bulk migration and the
    allocation do not look for one, and a paid operation cancels them before it records its own. -/
def Cancels (s : OutboxState) : OutboxEvent → Prop
  | .base (.change (.migrateOrigin target)) | .base (.change (.allocate target)) =>
    ∀ c ∈ s.cleanups, c.serverId = some target → c.done = true
  | .base (.change (.moved _ target)) => Away target s
  | _ => True

instance (s : OutboxState) (e : OutboxEvent) : Decidable (s.Cancels e) := by
  unfold Cancels
  split <;> infer_instance

/-- A request of the sweep goes to a server that does not have the row. -/
def Spares (s : OutboxState) : OutboxEvent → Prop
  | .call .. => ∀ p ∈ s.sweep, p.2 = .checked → ∀ c ∈ s.cleanups[p.1]?,
      ∀ server ∈ c.serverId, Away server s
  | _ => True

/-- No clean-up is pending for the server that has the row. -/
def Apart (s : OutboxState) : Prop :=
  ∀ c ∈ s.cleanups, c.done = false → ∀ server ∈ c.serverId, Away server s

end OutboxState

/-- The origin of a row is chosen by a move, a migration or an allocation only. -/
theorem RowChange.origin_of_apply {c : RowChange} {sub sub' : WhiteInternetSubscription}
    (hplain : c.Plain) (h : c.apply sub = some sub') :
    sub'.originNodeId = sub.originNodeId ∨ ∃ target, sub'.originNodeId = some target ∧
      ((∃ o, c = .moved o target) ∨ c = .migrateOrigin target ∧ sub.originNodeId ≠ some target ∨
        c = .allocate target) := by
  cases c with
  | op o =>
    obtain ⟨-, h⟩ := apply_op_iff.mp h
    exact .inl ((RowOp.apply_kept h).origin hplain)
  | moved o target => exact .inr ⟨target, origin_of_moved hplain h, .inl ⟨o, rfl⟩⟩
  | migrateOrigin target =>
    simp only [apply] at h
    split_ifs at h with hallowed
    cases h
    exact .inr ⟨target, rfl, .inr (.inl ⟨rfl, hallowed.2.1⟩)⟩
  | allocate target =>
    simp only [apply] at h
    split_ifs at h
    cases h
    exact .inr ⟨target, rfl, .inr (.inr rfl)⟩
  | detach => exact hplain.elim
  | revokePack bytes =>
    cases h
    exact .inl rfl
  | revokeSlot =>
    cases h
    refine .inl ?_
    rw [WhiteInternetSubscription.revokeSlot, WhiteInternetSubscription.revokePack]

/-- Next to the changes, the origin of a row stays. -/
theorem ProvisioningState.origin_of_step {s : ProvisioningState} {e : ProvisioningEvent}
    (he : ∀ c, e ≠ .change c) {sub' : WhiteInternetSubscription} (h : (s.step e).row = some sub') :
    ∃ sub, s.row = some sub ∧ sub'.originNodeId = sub.originNodeId := by
  obtain ⟨sub, hrow, -⟩ := row_of_step e h
  refine ⟨sub, hrow, ?_⟩
  have hkept {row : Option WhiteInternetSubscription} (hsame : row = s.row)
      (h : row = some sub') : sub'.originNodeId = sub.originNodeId := by
    rw [hsame, hrow] at h
    cases h
    rfl
  cases e with
  | change c => exact absurd rfl (he c)
  | build targetEpoch inboundTags now =>
    simp only [step, build, hrow] at h
    split at h
    · exact hkept rfl h
    · split_ifs at h
      · cases h
        exact WhiteInternetSubscription.expireDue_origin now sub
      · exact hkept rfl h
  | call i outcome => exact hkept (s.call_row i outcome) h
  | deliver j =>
    rw [step] at h
    cases hj : s.sent[j]? with
    | none =>
      rw [hj] at h
      exact hkept rfl h
    | some r =>
      rw [hj] at h
      exact hkept (s.deliver_row r) h
  | finish error inventory now =>
    rw [step, finish] at h
    split at h
    · exact hkept rfl h
    · rename_i run _
      rw [hrow] at h
      cases h
      have hkeeps : (RowOp.reconcile run.task ⟨run.sync, error, inventory⟩ now).Kept sub _ :=
        RowOp.apply_kept rfl
      exact hkeeps.origin trivial
  | crash => exact hkept rfl h
  | restart k epoch =>
    rw [step] at h
    split_ifs at h
    · exact hkept rfl h
    · exact hkept rfl h
  | finalize =>
    simp only [step, finalize, hrow] at h
    split_ifs at h
    exact hkept rfl h

namespace OutboxState
variable {s : OutboxState}

/-- An event that marks clean-ups done at most, and does not move the row. -/
theorem Apart.frame {s' : OutboxState} (h : s.Apart)
    (hcleanups : ∀ c' ∈ s'.cleanups, c'.done = false →
      ∃ c ∈ s.cleanups, c.done = false ∧ ∀ x ∈ c'.serverId, x ∈ c.serverId)
    (hrow : ∀ sub', s'.base.row = some sub' → ∃ sub, s.base.row = some sub ∧
      ∀ x ∈ sub'.originNodeId, x ∈ sub.originNodeId) : s'.Apart := by
  intro c' hc' hdone x hx sub' hsub' horigin
  obtain ⟨c, hc, hpending, hserver⟩ := hcleanups c' hc' hdone
  obtain ⟨sub, hsub, hkept⟩ := hrow sub' hsub'
  exact h c hc hpending x (hserver x hx) sub hsub (hkept x horigin)

theorem Apart.settle (h : s.Apart) {s' : OutboxState} (hbase : s'.base.row = s.base.row) {i : ℕ}
    {mark : OutboxCleanup → OutboxCleanup} (hcleanups : s'.cleanups = s.cleanups.modify i mark)
    (hmark : ∀ c, (mark c).done = false → c.done = false ∧ (mark c).serverId = c.serverId) :
    s'.Apart := by
  refine h.frame (fun c' hc' hdone => ?_) fun sub' hsub' => ⟨sub', hbase ▸ hsub', fun _ hx => hx⟩
  rw [hcleanups] at hc'
  obtain ⟨j, hj⟩ := List.getElem?_of_mem hc'
  rw [List.getElem?_modify] at hj
  obtain ⟨c, hc, heq⟩ := Option.map_eq_some_iff.mp hj
  have hmem := List.mem_of_getElem? hc
  split_ifs at heq
  · obtain ⟨hpending, hserver⟩ := hmark c (heq ▸ hdone)
    exact ⟨c, hmem, hpending, fun x hx => hserver ▸ heq ▸ hx⟩
  · exact ⟨c, hmem, heq ▸ hdone, fun x hx => heq ▸ hx⟩

theorem pending_of_markDone (c : OutboxCleanup) (h : c.markDone.done = false) :
    c.done = false ∧ c.markDone.serverId = c.serverId := by
  rw [c.markDone_done] at h
  cases h

theorem pending_of_markFailed (error : String) (c : OutboxCleanup)
    (h : (c.markFailed error).done = false) :
    c.done = false ∧ (c.markFailed error).serverId = c.serverId := by
  rw [OutboxCleanup.markFailed] at h ⊢
  split_ifs at h ⊢
  · exact ⟨h, rfl⟩
  · exact ⟨h, rfl⟩

/-- A clean-up is recorded for the origin the row had, by a change that chooses another. -/
theorem serverId_of_departure {c : RowChange} {sub sub' : WhiteInternetSubscription}
    {cleanup : OutboxCleanup} (h : c.departure sub sub' = some cleanup) :
    cleanup.serverId = sub.originNodeId ∧
      ((∃ o target, c = .moved o target) ∨ ∃ target, c = .migrateOrigin target) := by
  cases c with
  | moved o target =>
    obtain ⟨origin, horigin, h⟩ := Option.bind_eq_some_iff.mp h
    refine ⟨?_, .inl ⟨o, target, rfl⟩⟩
    rw [horigin]
    split at h
    · split_ifs at h
      cases h
      rfl
    · cases h
      rfl
  | migrateOrigin target =>
    cases h
    exact ⟨rfl, .inr ⟨target, rfl⟩⟩
  | _ => cases h

/-- A clean-up that a change leaves pending was pending before, and not cancelled, or is new. -/
theorem pending_of_change {c : RowChange} {sub sub' : WhiteInternetSubscription}
    {cleanup : OutboxCleanup}
    (hmem : cleanup ∈ (match c.cancels with
      | none => s.cleanups
      | some k => s.cleanups.map (OutboxCleanup.cancel k)) ++ (c.departure sub sub').toList)
    (hdone : cleanup.done = false) :
    (cleanup ∈ s.cleanups ∧ ∀ k ∈ c.cancels, cleanup.serverId ≠ some k) ∨
      c.departure sub sub' = some cleanup := by
  rcases List.mem_append.mp hmem with hmem | hmem
  · refine .inl ?_
    cases hcancels : c.cancels with
    | none =>
      rw [hcancels] at hmem
      exact ⟨hmem, fun k hk => absurd hk (Option.not_mem_none k)⟩
    | some k =>
      rw [hcancels] at hmem
      obtain ⟨old, hold, rfl⟩ := List.mem_map.mp hmem
      rw [OutboxCleanup.cancel] at hdone ⊢
      split_ifs at hdone ⊢ with hcancelled
      refine ⟨hold, fun k' hk' hserver => hcancelled ⟨?_, hdone⟩⟩
      rw [hserver, Option.some.inj hk']
  · exact .inr (Option.mem_toList.mp hmem)

theorem Apart.change (h : s.Apart) (c : RowChange) (hguard : s.Cancels (.base (.change c))) :
    (s.change c).Apart := by
  rcases s.change_cases c with heq | ⟨sub, sub', hrow, hplain, hc, -, hrow', heq⟩
  · rwa [heq]
  · intro cleanup hmem hdone x hx y hy horigin
    rw [heq] at hmem hy
    obtain rfl := Option.some.inj (hrow'.symm.trans hy)
    have hcases := pending_of_change hmem hdone
    rcases RowChange.origin_of_apply hplain hc with hkept | ⟨target, htarget, hby⟩
    · -- the row stays where it is
      rcases hcases with ⟨hold, -⟩ | hnew
      · exact h cleanup hold hdone x hx sub hrow (hkept ▸ horigin)
      · obtain ⟨hserver, ⟨o, target, rfl⟩ | ⟨target, rfl⟩⟩ := serverId_of_departure hnew
        · exact hguard sub hrow (hkept ▸ RowChange.origin_of_moved hplain hc)
        · simp only [RowChange.apply] at hc
          split_ifs at hc with hallowed
          cases hc
          exact hallowed.2.1 hkept.symm
    · -- it comes to `target`, for which nothing is pending
      obtain rfl : target = x := Option.some.inj (htarget.symm.trans horigin)
      rcases hby with ⟨o, rfl⟩ | ⟨rfl, hne⟩ | rfl
      · rcases hcases with ⟨-, hfree⟩ | hnew
        · exact hfree target rfl hx
        · exact hguard sub hrow ((serverId_of_departure hnew).1 ▸ hx)
      · rcases hcases with ⟨hold, -⟩ | hnew
        · rw [hguard cleanup hold hx] at hdone
          cases hdone
        · exact hne ((serverId_of_departure hnew).1 ▸ hx)
      · rcases hcases with ⟨hold, -⟩ | hnew
        · rw [hguard cleanup hold hx] at hdone
          cases hdone
        · cases hnew

theorem Apart.step (s : OutboxState) (e : OutboxEvent) (h : s.Apart) (hguard : s.Cancels e) :
    (s.step e).Apart := by
  have hbase (e : ProvisioningEvent) (he : ∀ c, e ≠ .change c) (sweep : Option (ℕ × SweepStage)) :
      ({ s with base := s.base.step e, sweep := sweep } : OutboxState).Apart := by
    refine h.frame (fun c hc hdone => ⟨c, hc, hdone, fun _ hx => hx⟩) fun sub' hsub' => ?_
    obtain ⟨sub, hsub, horigin⟩ := ProvisioningState.origin_of_step he hsub'
    exact ⟨sub, hsub, fun x hx => horigin ▸ hx⟩
  cases e with
  | base e =>
    cases e with
    | change c => exact h.change c hguard
    | crash => exact hbase .crash (by simp) none
    | _ =>
      refine hbase _ (fun c hc => ?_) s.sweep
      cases hc
  | inlineSync => exact h
  | inlineWrite sync now =>
    refine h.frame (fun c hc hdone => ⟨c, hc, hdone, fun _ hx => hx⟩) fun sub' hsub' => ?_
    obtain ⟨sub, hsub, rfl⟩ := Option.map_eq_some_iff.mp hsub'
    have hkeeps : (RowOp.inlineSync sync now).Kept sub _ := RowOp.apply_kept rfl
    have horigin := hkeeps.origin trivial
    exact ⟨sub, hsub, fun x hx => horigin ▸ hx⟩
  | deleteServer k =>
    rw [OutboxState.step, deleteServer]
    split_ifs
    · exact h
    · refine h.frame (fun c' hc' hdone => ?_) fun sub' hsub' => ?_
      · obtain ⟨c, hc, rfl⟩ := List.mem_map.mp hc'
        rw [OutboxCleanup.forget] at hdone ⊢
        split_ifs at hdone ⊢
        · exact ⟨c, hc, hdone, fun _ hx => absurd hx (Option.not_mem_none _)⟩
        · exact ⟨c, hc, hdone, fun _ hx => hx⟩
      · obtain ⟨sub, hsub, rfl⟩ := Option.map_eq_some_iff.mp hsub'
        refine ⟨sub, hsub, fun x hx => ?_⟩
        split_ifs at hx
        · cases hx
        · exact hx
  | claim i callable =>
    rw [OutboxState.step, claim]
    split
    · split
      · exact h
      · split
        · exact h.settle rfl rfl pending_of_markDone
        · split_ifs
          · exact h.settle rfl rfl pending_of_markDone
          · exact h
          · exact h
    · exact h
  | call outcome error =>
    rw [OutboxState.step, call]
    split
    · split
      · exact h
      · rename_i r _
        dsimp only
        split
        · split
          · refine h.settle ?_ rfl pending_of_markDone
            exact ProvisioningState.deliver_row { s.base with sent := s.base.sent ++ [r] } r
          · exact h
          · exact h.settle rfl rfl (pending_of_markFailed _)
        · exact h.settle rfl rfl (pending_of_markFailed _)
    · exact h
  | inspect reached =>
    rw [OutboxState.step, inspect]
    split
    · extract_lets shown
      split_ifs
      · exact h.settle rfl rfl pending_of_markDone
      · exact h.settle rfl rfl (pending_of_markFailed _)
    · exact h

theorem spares_of_apart (h : s.Apart) (hpending : s.HoldsPending) (e : OutboxEvent) :
    s.Spares e := by
  cases e with
  | call outcome error =>
    intro p hp _ c hc x hx
    obtain ⟨c', hc', hdone⟩ := hpending p hp
    obtain rfl := Option.some.inj (hc'.symm.trans hc)
    exact h c' (List.mem_of_getElem? hc) hdone x hx
  | _ => trivial

end OutboxState
end Just1kBot
