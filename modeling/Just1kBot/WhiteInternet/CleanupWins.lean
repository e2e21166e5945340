import Just1kBot.WhiteInternet.OrphanCleanups

/-! A clean-up wins at its server. After a paid move, and as long as the subscription stays away,
    no request to enable the client reaches the version of the clean-up, so once the server stores
    that version or a later one the client is disabled there for good. -/

namespace Just1kBot
namespace OutboxState
variable {s : OutboxState} {server : ServerId} {version : ℕ}

/-! ### What every run keeps -/

/-- The client was only ever to be enabled under versions that the row has had. -/
def Bounded (s : OutboxState) : Prop :=
  ∀ sub ∈ s.base.row, 0 < sub.desiredVersion ∧
    ∀ server version, s.base.Enables server version → version ≤ sub.desiredVersion

theorem Bounded.step (s : OutboxState) (e : OutboxEvent) (h : s.Bounded) : (s.step e).Bounded := by
  intro sub' hsub'
  obtain ⟨sub, hrow, hle⟩ := row_of_step e hsub'
  obtain ⟨hpos, hbound⟩ := h sub hrow
  have hpos' : 0 < sub'.desiredVersion := hpos.trans_le hle
  refine ⟨hpos', fun server version henables => ?_⟩
  rcases enables_of_step e henables with henables | ⟨x, hx, -, hversion⟩
  · exact (hbound server version henables).trans hle
  · obtain rfl := Option.some.inj (hx.symm.trans hsub')
    rwa [orOne, if_neg hpos'.ne'] at hversion

theorem bounded_created (id : ℕ) (userId : UserId) (origin : ServerId) (uuid : Uuid)
    (isTrial : Bool) (now : Time) : (created id userId origin uuid isTrial now).Bounded := by
  intro sub hsub
  refine ⟨(ProvisioningState.inv_created id userId origin uuid isTrial now sub hsub).pos, ?_⟩
  rintro server version (⟨t, ht, -⟩ | hmem | hstored)
  · exact absurd ht List.not_mem_nil
  · exact absurd hmem List.not_mem_nil
  · cases hstored

/-- The row has left the server, and the clean-up at `k` outranks every request to enable the client
    there. Once it is done, the server has stored its version or a later one. -/
structure Retired (server : ServerId) (k version : ℕ) (s : OutboxState) : Prop where
  outranks : ∀ w, s.base.Enables server w → w < version
  recorded : ∃ c, s.cleanups[k]? = some c ∧ c.desiredVersion = version ∧
    (∀ x ∈ c.serverId, x = server) ∧
    (c.done = true → c.serverId = none ∨ s.base.Reached server version)
  inspected : s.sweep = some (k, .inspecting) → s.base.Reached server version

section Retired
variable {k : ℕ}

/-- A step that leaves the clean-ups and the sweep alone. -/
theorem Retired.frame {s' : OutboxState} (h : Retired server k version s)
    (houtranks : ∀ w, s'.base.Enables server w → w < version)
    (hreached : s.base.Reached server version → s'.base.Reached server version)
    (hcleanups : s'.cleanups = s.cleanups)
    (hsweep : s'.sweep = some (k, .inspecting) → s.sweep = some (k, .inspecting)) :
    Retired server k version s' := by
  obtain ⟨c, hc, hversion, hserver, hdone⟩ := h.recorded
  refine ⟨houtranks, ⟨c, hcleanups ▸ hc, hversion, hserver, fun hd => ?_⟩, fun hs => ?_⟩
  · exact (hdone hd).imp id hreached
  · exact hreached (h.inspected (hsweep hs))

/-- A step that marks clean-ups: the one at `k` keeps its version, and its server unless that is
    gone, and becomes done only rightly. -/
theorem Retired.mark {s' : OutboxState} (h : Retired server k version s)
    (hbase : s'.base = s.base) (hsweep : s'.sweep = some (k, .inspecting) → s.sweep = s'.sweep)
    (hmark : ∀ c, s.cleanups[k]? = some c → ∃ c', s'.cleanups[k]? = some c' ∧
      c'.desiredVersion = c.desiredVersion ∧ (c'.serverId = c.serverId ∨ c'.serverId = none) ∧
      (c'.done = true → c.done = true ∨ c'.serverId = none ∨ s.base.Reached server version)) :
    Retired server k version s' := by
  obtain ⟨c, hc, hversion, hserver, hdone⟩ := h.recorded
  obtain ⟨c', hc', hversion', hserver', hdone'⟩ := hmark c hc
  refine ⟨?_, ⟨c', hc', hversion'.trans hversion, fun x hx => ?_, fun hd => ?_⟩, fun hs => ?_⟩
  · rw [hbase]
    exact h.outranks
  · rcases hserver' with heq | hnone
    · exact hserver x (heq ▸ hx)
    · rw [hnone] at hx
      cases hx
  · rw [hbase]
    rcases hdone' hd with hd | hd | hd
    · rcases hserver' with heq | hnone
      · rw [heq]
        exact hdone hd
      · exact .inl hnone
    · exact .inl hd
    · exact .inr hd
  · rw [hbase]
    exact h.inspected ((hsweep hs).trans hs)

theorem settle_cleanups (s : OutboxState) (i : ℕ) (mark : OutboxCleanup → OutboxCleanup) :
    (s.settle i mark).cleanups[k]? =
      s.cleanups[k]?.map fun c => if i = k then mark c else c := by
  rw [settle, List.getElem?_modify]
  rfl

theorem Retired.failed (h : Retired server k version s) (i : ℕ) (error : String) :
    Retired server k version (s.settle i (OutboxCleanup.markFailed error)) := by
  refine h.mark rfl (by simp [OutboxState.settle]) fun c hc => ?_
  rw [settle_cleanups, hc, Option.map_some]
  by_cases hi : i = k
  · refine ⟨c.markFailed error, by rw [if_pos hi], ?_⟩
    rw [OutboxCleanup.markFailed]
    split_ifs with hdone
    · exact ⟨rfl, .inl rfl, .inl⟩
    · exact ⟨rfl, .inl rfl, .inl⟩
  · exact ⟨c, by rw [if_neg hi], rfl, .inl rfl, .inl⟩

theorem Retired.finished (h : Retired server k version s) (i : ℕ)
    (hi : i = k → ∀ c, s.cleanups[k]? = some c →
      c.serverId = none ∨ s.base.Reached server version) :
    Retired server k version (s.settle i OutboxCleanup.markDone) := by
  refine h.mark rfl (by simp [OutboxState.settle]) fun c hc => ?_
  rw [settle_cleanups, hc, Option.map_some]
  by_cases hik : i = k
  · refine ⟨c.markDone, by rw [if_pos hik], ?_⟩
    rw [OutboxCleanup.markDone]
    split_ifs with hdone
    · exact ⟨rfl, .inl rfl, .inl⟩
    · exact ⟨rfl, .inl rfl, fun _ => .inr (hi hik c hc)⟩
  · exact ⟨c, by rw [if_neg hik], rfl, .inl rfl, .inl⟩

theorem Retired.change (h : Retired server k version s) (c : RowChange)
    (hafter : Away server (s.change c)) : Retired server k version (s.change c) := by
  have houtranks (w : ℕ) (hw : (s.change c).base.Enables server w) : w < version := by
    rcases enables_of_step (.base (.change c)) hw with hw | ⟨sub, hsub, horigin, -⟩
    · exact h.outranks w hw
    · exact absurd horigin (hafter sub hsub)
  rcases s.change_cases c with heq | ⟨sub, sub', -, hplain, hc, -, hrow, heq⟩
  · rwa [heq]
  · have hreached : s.base.Reached server version → (s.change c).base.Reached server version :=
      fun hr => reached_step hr (.base (.change c))
    obtain ⟨x, hx, hversion, hserver, hdone⟩ := h.recorded
    refine ⟨houtranks, ⟨x, ?_, hversion, hserver, fun hd => (hdone hd).imp id hreached⟩, ?_⟩
    · -- a move cancels only what is recorded for its target, which is another server
      rw [heq]
      refine getElem?_append_of_eq_some ?_ _
      cases hcancels : c.cancels with
      | none => exact hx
      | some target =>
        simp only [List.getElem?_map, hx, Option.map_some, Option.some.injEq]
        rw [OutboxCleanup.cancel, if_neg]
        rintro ⟨htarget, -⟩
        have hmoved : sub'.originNodeId = some target := by
          cases c with
          | moved o t =>
            cases hcancels
            exact RowChange.origin_of_moved hplain hc
          | _ => cases hcancels
        obtain rfl := hserver target htarget
        rw [heq] at hafter
        exact hafter sub' hrow hmoved
    · intro hs
      rw [heq] at hs
      exact hreached (h.inspected hs)

theorem Retired.claim (h : Retired server k version s) (hbefore : Away server s) (i : ℕ)
    (callable : Bool) : Retired server k version (s.claim i callable) := by
  rw [OutboxState.claim]
  split
  · rename_i c _ hc
    split
    · exact h
    · split
      · rename_i hnone
        refine h.finished i ?_
        rintro rfl x hx
        obtain rfl := Option.some.inj (hc.symm.trans hx)
        exact .inl hnone
      · rename_i x hx
        split_ifs with hserves
        · refine h.finished i ?_
          rintro rfl y hy
          -- the row is not on the server of the clean-up at `k`
          obtain rfl := Option.some.inj (hc.symm.trans hy)
          obtain ⟨z, hz, -, hserver, -⟩ := h.recorded
          obtain rfl := Option.some.inj (hc.symm.trans hz)
          obtain ⟨sub, hsub, horigin, -⟩ := hserves
          exact absurd (hserver x hx ▸ horigin) (hbefore sub hsub)
        · exact h.frame h.outranks id rfl (by simp)
        · exact h
  · exact h

theorem Retired.call (h : Retired server k version s) (outcome : CallOutcome)
    (error : Option String) : Retired server k version (s.call outcome error) := by
  rw [OutboxState.call]
  split
  · rename_i i hsweep
    split
    · exact h
    · rename_i r hr
      obtain ⟨c, hc, hcr⟩ := Option.bind_eq_some_iff.mp hr
      obtain ⟨x, hx, rfl⟩ := Option.map_eq_some_iff.mp hcr
      have hsent : Retired server k version { s with
          base := { s.base with sent := s.base.sent ++ [⟨x, c.desiredVersion, false⟩] } } := by
        refine h.frame (fun w hw => h.outranks w (hw.frame (fun _ ht => ht) ?_ rfl)) id rfl id
        intro r' hr' hactive
        rcases List.mem_append.mp hr' with hr' | hr'
        · exact hr'
        · rw [List.mem_singleton.mp hr'] at hactive
          cases hactive
      -- at the clean-up at `k`, the request goes to its server under its version
      have hat (hik : i = k) : x = server ∧ c.desiredVersion = version := by
        subst hik
        obtain ⟨y, hy, hversion, hserver, -⟩ := h.recorded
        obtain rfl := Option.some.inj (hc.symm.trans hy)
        exact ⟨hserver x hx, hversion⟩
      dsimp only
      split
      · split
        · rename_i tags happlied
          refine Retired.finished (s := { s with base := _ }) ?_ i ?_
          · refine hsent.frame (fun w hw => ?_) (fun hr => hr.deliver _) rfl id
            exact hsent.outranks w (ProvisioningState.enables_of_deliver
              (fun hactive => absurd hactive Bool.false_ne_true) hw)
          · intro hik y _
            obtain ⟨rfl, rfl⟩ := hat hik
            refine .inr ?_
            simp only [ProvisioningState.answer] at happlied
            split at happlied
            · cases happlied
            · rename_i epoch hepoch
              split_ifs at happlied with haccepts
              refine ⟨(c.desiredVersion, false), ?_, le_rfl⟩
              rw [ProvisioningState.deliver_of_accepts
                (s := { s.base with sent := s.base.sent ++ [⟨x, c.desiredVersion, false⟩] })
                (r := ⟨x, c.desiredVersion, false⟩) hepoch haccepts]
              simp only [Function.update_self, Option.mem_some_iff]
        · rename_i tags hnewer
          refine ⟨hsent.outranks, hsent.recorded, fun hs => ?_⟩
          obtain ⟨rfl, rfl⟩ := hat (congrArg Prod.fst (Option.some.inj hs))
          simp only [ProvisioningState.answer] at hnewer
          split at hnewer
          · cases hnewer
          · split_ifs at hnewer with haccepts
            simp only [NodeRuntime.Accepts, not_forall, not_le] at haccepts
            obtain ⟨stored, hstored, hlt⟩ := haccepts
            exact ⟨stored, hstored, hlt.le⟩
        · exact hsent.failed i _
      · exact hsent.failed i _
  · exact h

theorem Retired.inspect (h : Retired server k version s) (reached : Bool) :
    Retired server k version (s.inspect reached) := by
  rw [OutboxState.inspect]
  split
  · rename_i i hsweep
    extract_lets shown
    split_ifs
    · refine h.finished i fun hik _ _ => .inr (h.inspected ?_)
      rw [hsweep, hik]
    · exact h.failed i _
  · exact h

theorem Retired.deleteServer (h : Retired server k version s) (x : ServerId)
    (houtranks : ∀ w, (s.deleteServer x).base.Enables server w → w < version) :
    Retired server k version (s.deleteServer x) := by
  rw [OutboxState.deleteServer] at houtranks ⊢
  split_ifs at houtranks ⊢
  · exact h
  · have hmarked : Retired server k version
        { s with cleanups := s.cleanups.map (OutboxCleanup.forget x) } := by
      refine h.mark rfl (fun _ => rfl) fun c hc => ⟨c.forget x, ?_, ?_⟩
      · rw [List.getElem?_map, hc, Option.map_some]
      · rw [OutboxCleanup.forget]
        split_ifs
        · exact ⟨rfl, .inr rfl, .inl⟩
        · exact ⟨rfl, .inl rfl, .inl⟩
    exact hmarked.frame houtranks id rfl id

/-- As long as the row stays away from the server, the clean-up outranks what is asked of it. -/
theorem Retired.step (h : Retired server k version s) (e : OutboxEvent) (hbefore : Away server s)
    (hafter : Away server (s.step e)) : Retired server k version (s.step e) := by
  have houtranks (w : ℕ) (hw : (s.step e).base.Enables server w) : w < version := by
    rcases enables_of_step e hw with hw | ⟨sub, hsub, horigin, -⟩
    · exact h.outranks w hw
    · exact absurd horigin (hafter sub hsub)
  cases e with
  | base e =>
    cases e with
    | change c => exact h.change c hafter
    | crash => exact h.frame houtranks (fun hr => hr.step .crash) rfl (by simp [OutboxState.step])
    | _ => exact h.frame houtranks (fun hr => hr.step _) rfl id
  | inlineSync => exact h.frame houtranks id rfl id
  | inlineWrite sync now => exact h.frame houtranks id rfl id
  | deleteServer x => exact h.deleteServer x houtranks
  | claim i callable => exact h.claim hbefore i callable
  | call outcome error => exact h.call outcome error
  | inspect reached => exact h.inspect reached

theorem Retired.run : ∀ (es : List OutboxEvent) (s : OutboxState), Retired server k version s →
    Lib.Throughout OutboxState.step (Away server) s es →
      Retired server k version (Lib.run OutboxState.step s es)
  | [], _, h, _ => h
  | e :: es, s, h, haway => by
    have hafter : Away server (s.step e) := by
      cases es with
      | nil => exact haway.2
      | cons e' es => exact haway.2.1
    exact Retired.run es (s.step e) (h.step e haway.1 hafter) haway.2

end Retired

/-! ### A clean-up wins -/

/-- A server that has reached the version of the clean-up has the client disabled. -/
theorem Retired.disabled {k : ℕ} (h : Retired server k version s)
    (hreached : s.base.Reached server version) :
    ∃ w, (s.base.nodes server).stored = some (w, false) := by
  obtain ⟨⟨w, active⟩, hstored, hle⟩ := hreached
  cases active with
  | false => exact ⟨w, hstored⟩
  | true => exact absurd (h.outranks w (.inr (.inr hstored))) (not_lt.mpr hle)

/-- What a clean-up achieves at its server. It stays recorded above every version under which the
    server was ever to enable the client; where it is done, the server has the client disabled; and
    where it is not, one pass of the sweep that gets through to the server finishes it. -/
structure Wins (server : ServerId) (k : ℕ) (s : OutboxState) : Prop where
  recorded : ∃ c, s.cleanups[k]? = some c ∧ (∀ x ∈ c.serverId, x = server) ∧
    ∀ w, s.base.Enables server w → w < c.desiredVersion
  disabled : ∀ c ∈ s.cleanups[k]?, c.done = true → c.serverId = some server →
    ∃ w, (s.base.nodes server).stored = some (w, false)
  converges : ∀ c ∈ s.cleanups[k]?, c.done = false → c.serverId = some server → s.sweep = none →
    (s.base.nodes server).epoch ≠ none → ∀ tags error,
      let s' := Lib.run step s [.claim k true, .call (.handled tags) error, .inspect true]
      (∃ c' ∈ s'.cleanups[k]?, c'.done = true) ∧
        ∃ w, (s'.base.nodes server).stored = some (w, false)

section Sweep
variable {k : ℕ} {c : OutboxCleanup}

theorem claim_of_pending (haway : Away server s) (hsweep : s.sweep = none)
    (hc : s.cleanups[k]? = some c) (hdone : c.done = false) (hserver : c.serverId = some server) :
    s.claim k true = { s with sweep := some (k, .checked) } := by
  have hserves : ¬ s.Serves server := by
    rintro ⟨sub, hsub, horigin, -⟩
    exact haway sub hsub horigin
  simp only [claim, hsweep, hc, hdone, hserver, if_neg hserves, Bool.false_eq_true, if_false,
    if_true]

/-- The node applies the request of the clean-up, or has a later version already. -/
theorem call_of_checked {epoch : Epoch} (hc : s.cleanups[k]? = some c)
    (hserver : c.serverId = some server) (hepoch : (s.base.nodes server).epoch = some epoch)
    (tags : List String) (error : Option String) :
    let s' := { s with sweep := some (k, .checked) }.call (.handled tags) error
    (s'.sweep = none ∧ s'.cleanups[k]? = some c.markDone) ∨
      (s'.sweep = some (k, .inspecting) ∧ s'.cleanups = s.cleanups) := by
  simp only [call, hc, hserver, Option.bind_some, Option.map_some, ProvisioningState.answer, hepoch]
  by_cases haccepts : (s.base.nodes server).Accepts c.desiredVersion
  · refine .inl ?_
    simp only [if_pos haccepts]
    refine ⟨rfl, ?_⟩
    rw [settle_cleanups]
    simp only [hc, Option.map_some, if_true]
  · refine .inr ?_
    simp only [if_neg haccepts, and_self]

theorem inspect_of_disabled {w : ℕ} (hsweep : s.sweep = some (k, .inspecting))
    (hc : s.cleanups[k]? = some c) (hserver : c.serverId = some server)
    (hstored : (s.base.nodes server).stored = some (w, false)) :
    (s.inspect true).cleanups[k]? = some c.markDone := by
  have hshown : s.observed server = some "disabled" := by
    rw [observed, hstored]
    rfl
  simp only [inspect, hsweep, hc, hserver, Option.bind_some, hshown, if_true]
  rw [settle_cleanups, hc, Option.map_some, if_pos rfl]

end Sweep

theorem Retired.wins {k : ℕ} (h : Retired server k version s) (haway : Away server s) :
    Wins server k s := by
  obtain ⟨c, hc, hversion, hserver, hdone⟩ := h.recorded
  refine ⟨⟨c, hc, hserver, hversion ▸ h.outranks⟩, fun x hx hd hs => ?_,
    fun x hx hd hs hsweep hepoch tags error => ?_⟩
  · obtain rfl := Option.some.inj (hc.symm.trans hx)
    rcases hdone hd with hnone | hreached
    · cases hnone.symm.trans hs
    · exact h.disabled hreached
  · obtain rfl := Option.some.inj (hc.symm.trans hx)
    obtain ⟨epoch, hepoch⟩ := Option.ne_none_iff_exists'.mp hepoch
    -- the three events, one by one; none of them touches the row
    have hclaim := claim_of_pending haway hsweep hc hd hs
    have haway₁ : Away server (s.claim k true) := by
      rw [Away, claim_base]
      exact haway
    have h₁ : Retired server k version (s.claim k true) := h.step (.claim k true) haway haway₁
    have haway₂ : Away server ((s.claim k true).call (.handled tags) error) := by
      rw [Away, call_row]
      exact haway₁
    have h₂ : Retired server k version ((s.claim k true).call (.handled tags) error) :=
      h₁.step (.call (.handled tags) error) haway₁ haway₂
    have haway₃ : Away server (((s.claim k true).call (.handled tags) error).inspect true) := by
      rw [Away, inspect_base]
      exact haway₂
    have h₃ := h₂.step (.inspect true) haway₂ haway₃
    have hfinal : ∃ x ∈ (((s.claim k true).call (.handled tags) error).inspect true).cleanups[k]?,
        x.done = true ∧ x.serverId = some server := by
      have hmarked : c.markDone.serverId = some server := by
        rw [OutboxCleanup.markDone]
        split_ifs
        · exact hs
        · exact hs
      rw [hclaim] at h₂ ⊢
      rcases call_of_checked (s := s) hc hs hepoch tags error with ⟨hidle, hx⟩ | ⟨hbusy, hx⟩
      · refine ⟨c.markDone, ?_, c.markDone_done, hmarked⟩
        rw [OutboxState.inspect, hidle]
        exact hx
      · obtain ⟨w, hstored⟩ := h₂.disabled (h₂.inspected hbusy)
        refine ⟨c.markDone, inspect_of_disabled hbusy ?_ hs hstored, c.markDone_done, hmarked⟩
        rw [hx]
        exact hc
    obtain ⟨x, hx, hxdone, hxserver⟩ := hfinal
    obtain ⟨y, hy, -, -, hydone⟩ := h₃.recorded
    obtain rfl := Option.some.inj (hy.symm.trans hx)
    refine ⟨⟨y, hx, hxdone⟩, h₃.disabled ?_⟩
    exact (hydone hxdone).resolve_left fun hnone => by cases hnone.symm.trans hxserver

/-- A paid move retires the client from its former origin. -/
theorem retired_of_moved {o : RowOp} {target : ServerId} {sub sub' : WhiteInternetSubscription}
    (hs : s.Bounded) (hsweep : s.HoldsPending) (hrow : s.base.row = some sub)
    (horigin : sub.originNodeId = some server) (hplain : (RowChange.moved o target).Plain)
    (hmoved : (RowChange.moved o target).apply sub = some sub') (hfree : ¬ s.Locks target)
    (haway : Away server (s.change (.moved o target))) :
    (∃ c, (s.change (.moved o target)).cleanups[s.cleanups.length]? = some c ∧
        c.serverId = some server ∧ c.done = false) ∧
      ∃ version, Retired server s.cleanups.length version (s.change (.moved o target)) := by
  rcases s.change_cases (.moved o target) with heq | ⟨x, x', hx, -, hc, -, hx', heq⟩
  · -- nothing holds the move back
    exfalso
    have hgoes : ¬ (¬ (RowChange.moved o target).Plain ∨
        ∃ k ∈ (RowChange.moved o target).cancels, s.Locks k) := by
      rintro (h | ⟨k, hk, hlocks⟩)
      · exact h hplain
      · cases hk
        exact hfree hlocks
    have hlater : (s.change (.moved o target)).base.row = some sub' := by
      rw [OutboxState.change, if_neg hgoes, hrow]
      simp only [hmoved]
      rw [ProvisioningState.change, hrow, Option.bind_some, hmoved]
    rw [heq, hrow] at hlater
    obtain rfl := Option.some.inj hlater
    rw [heq] at haway
    exact haway sub hrow horigin
  · obtain rfl := Option.some.inj (hrow.symm.trans hx)
    have hne : target ≠ server := by
      rintro rfl
      rw [heq] at haway
      exact haway x' hx' (RowChange.origin_of_moved hplain hc)
    obtain ⟨cleanup, hdeparture, hserver, hdone, hlt⟩ :=
      RowChange.departure_of_moved hplain hc horigin hne
    have hentry : (s.change (.moved o target)).cleanups[s.cleanups.length]? = some cleanup := by
      rw [heq, hdeparture]
      simp [RowChange.cancels]
    refine ⟨⟨cleanup, hentry, hserver, hdone⟩, cleanup.desiredVersion, ⟨fun w hw => ?_, ?_, ?_⟩⟩
    · rcases enables_of_step (.base (.change (.moved o target))) hw with hw | ⟨y, hy, hyorigin, -⟩
      · exact ((hs sub hrow).2 server w hw).trans_lt hlt
      · exact absurd hyorigin (haway y hy)
    · refine ⟨cleanup, hentry, rfl, fun y hy => ?_, fun h => ?_⟩
      · exact Option.some.inj (hy.symm.trans hserver)
      · rw [hdone] at h
        cases h
    · -- the sweep is not at a clean-up that is new
      intro hnew
      rw [heq] at hnew
      obtain ⟨y, hy, -⟩ := hsweep _ hnew
      exact absurd (List.getElem?_eq_some_iff.mp hy).1 (lt_irrefl _)

/-- A paid operation that takes a subscription away from a server, at any point of any run, leaves a
    clean-up for that server, and the clean-up wins in every run in which the subscription stays
    away: whatever the tasks, the inline syncs, the late requests and the other moves do. -/
theorem cleanup_wins (id : ℕ) (userId : UserId) (origin : ServerId) (uuid : Uuid) (isTrial : Bool)
    (now : Time) (es es' : List OutboxEvent) (o : RowOp) (server target : ServerId)
    (sub sub' : WhiteInternetSubscription) :
    let s := Lib.run step (created id userId origin uuid isTrial now) es
    let t := s.change (.moved o target)
    s.base.row = some sub → sub.originNodeId = some server → (RowChange.moved o target).Plain →
      (RowChange.moved o target).apply sub = some sub' → ¬ s.Locks target →
      Lib.Throughout step (Away server) t es' →
      (∃ c, t.cleanups[s.cleanups.length]? = some c ∧ c.serverId = some server ∧ c.done = false) ∧
        Wins server s.cleanups.length (Lib.run step t es') := by
  intro s t hrow horigin hplain hmoved hfree haway
  have hbounded : s.Bounded := Lib.run_inv step Bounded.step es _
    (bounded_created id userId origin uuid isTrial now)
  have hpending : s.HoldsPending := Lib.run_inv step HoldsPending.step es _
    (holdsPending_created id userId origin uuid isTrial now)
  have haway₀ : Away server t := by
    cases es' with
    | nil => exact haway
    | cons e es' => exact haway.1
  obtain ⟨hentry, version, hretired⟩ :=
    retired_of_moved hbounded hpending hrow horigin hplain hmoved hfree haway₀
  have hlater : Retired server _ version _ := Retired.run es' t hretired haway
  exact ⟨hentry, hlater.wins (Lib.run_of_throughout step es' t haway)⟩

/-- The purchase of a slot moves an active subscription from server 1 to server 2, in a run that
    then takes the clean-up to server 1 and delivers the first activation there once more. -/
theorem cleanup_wins_slot :
    let es := [.base (.restart 1 100), .base (.build 100 [] 0), .base (.call 0 (.handled [])),
      .base (.finish none none 1), .base (.change (.op (.extend 5 2)))]
    let s := Lib.run step (created 1 7 1 11 false 0) es
    Wins 1 0 (Lib.run step (s.change (.moved (.addDeviceSlot 4) 2))
      [.claim 0 true, .call (.handled []) none, .base (.deliver 0), .inspect true]) :=
  (cleanup_wins 1 7 1 11 false 0
    [.base (.restart 1 100), .base (.build 100 [] 0), .base (.call 0 (.handled [])),
      .base (.finish none none 1), .base (.change (.op (.extend 5 2)))]
    [.claim 0 true, .call (.handled []) none, .base (.deliver 0), .inspect true]
    (.addDeviceSlot 4) 1 2 _ _ rfl rfl trivial rfl (by decide +kernel) (by decide +kernel)).2

-- The clean-up of a bulk migration goes under the version that the server has enabled the client
-- under. A late request of that version undoes it, though the clean-up is done and stays so.
example :
    let s := Lib.run step (created 1 7 1 11 false 0)
      [.base (.restart 1 100), .base (.build 100 [] 0), .base (.call 0 (.handled [])),
       .base (.finish none none 1), .base (.change (.migrateOrigin 2)), .claim 0 true,
       .call (.handled []) none, .base (.deliver 0)]
    Away 1 s ∧ (∃ c ∈ s.cleanups[0]?, c.done = true) ∧
      (s.base.nodes 1).stored = some (1, true) := by
  decide +kernel

end OutboxState
end Just1kBot
