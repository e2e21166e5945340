import Just1kBot.Database.Encryption
import Just1kBot.Lib.Keyset
import Just1kBot.Lib.Transition

/-! The rotation of the encryption key: `reencrypt_all` of `scripts/reencrypt_database.py`.

    A run passes through the servers and then the API operations, a batch and a transaction at a
    time, and rewrites each row whose decrypted value is truthy under the primary key; then it opens
    each raw value with the primary key alone. It may crash between two transactions, and a run
    starts at the first row again. -/

namespace Just1kBot

/-- A row of `servers` or `api_operations`: its id and its encrypted column. -/
structure EncryptedRow where
  id : ℤ
  value : Option FernetToken
  deriving DecidableEq, Repr

structure EncryptedDb where
  servers : List EncryptedRow
  operations : List EncryptedRow
  deriving DecidableEq, Repr

inductive ReencryptionError
  /-- "Maintenance mode must be enabled before rotation". -/
  | maintenance (state : Option Bool)
  | encryption (e : EncryptionError)
  /-- "Server ID … is not encrypted with the new primary key". -/
  | server (id : ℤ)
  /-- "APIOperation ID … is not encrypted with the new primary key". -/
  | operation (id : ℤ)
  deriving DecidableEq, Repr

/-- Where a run is; `servers` and `operations` have the id of the last row that was read. -/
inductive ReencryptionPlace
  | idle
  | servers (lastServerId : ℤ)
  | operations (lastOpId : ℤ)
  | verification
  | finished
  | failed (e : ReencryptionError)
  deriving DecidableEq, Repr

structure Reencryption where
  db : EncryptedDb
  place : ReencryptionPlace := .idle
  deriving DecidableEq, Repr

inductive ReencryptionEvent
  /-- `reencrypt_all(force=…)` is called, and reads `is_enabled`, or no row. -/
  | start (maintenanceEnabled : Option Bool) (force : Bool)
  | proceed
  | crash
  deriving DecidableEq, Repr

namespace EncryptedRow

/-- The row is loaded and, if its value is truthy, written back. -/
def rewrite (s : KeySettings) (r : EncryptedRow) : Except EncryptionError EncryptedRow :=
  match EncryptedString.processResultValue s true r.value with
  | .error e => .error e
  | .ok none => .ok r
  | .ok (some []) => .ok r
  | .ok (some (c :: cs)) =>
    (EncryptedString.processBindParam s (some (c :: cs))).map fun value => { r with value }

/-- `primary_fernet.decrypt` opens the raw value, if there is one. -/
def OpensWithPrimary (s : KeySettings) (r : EncryptedRow) : Prop :=
  ∀ t ∈ r.value, t.key = s.primary.text

instance (s : KeySettings) (r : EncryptedRow) : Decidable (r.OpensWithPrimary s) :=
  inferInstanceAs (Decidable (∀ t ∈ r.value, t.key = s.primary.text))

end EncryptedRow

/-- The rows of a batch are rewritten. -/
def rewriteBatch (s : KeySettings) (batch rows : List EncryptedRow) :
    Except EncryptionError (List EncryptedRow) :=
  rows.mapM fun r => if r.id ∈ batch.map EncryptedRow.id then r.rewrite s else .ok r

namespace Reencryption
variable (s : KeySettings) (batchSize : ℕ)

/-- The guard of `reencrypt_all`. -/
def mayRotate (maintenanceEnabled : Option Bool) (force : Bool) : Bool :=
  maintenanceEnabled == some true || force

/-- A batch of servers. -/
def proceedServers (st : Reencryption) (lastServerId : ℤ) : Reencryption :=
  let batch := Lib.Keyset.page EncryptedRow.id batchSize lastServerId st.db.servers
  if batch = [] then { st with place := .operations 0 }
  else
    match rewriteBatch s batch st.db.servers with
    | .error e => { st with place := .failed (.encryption e) }
    | .ok servers =>
      { db := { st.db with servers }
        place := .servers (Lib.Keyset.advance EncryptedRow.id lastServerId batch) }

/-- A batch of API operations, those without a value left out. -/
def proceedOperations (st : Reencryption) (lastOpId : ℤ) : Reencryption :=
  let batch := Lib.Keyset.page EncryptedRow.id batchSize lastOpId
    (st.db.operations.filter fun r => r.value.isSome)
  if batch = [] then { st with place := .verification }
  else
    match rewriteBatch s batch st.db.operations with
    | .error e => { st with place := .failed (.encryption e) }
    | .ok operations =>
      { db := { st.db with operations }
        place := .operations (Lib.Keyset.advance EncryptedRow.id lastOpId batch) }

/-- The verification phase. -/
def verify (db : EncryptedDb) : ReencryptionPlace :=
  match db.servers.find? fun r => ¬ r.OpensWithPrimary s with
  | some r => .failed (.server r.id)
  | none =>
    match db.operations.find? fun r => ¬ r.OpensWithPrimary s with
    | some r => .failed (.operation r.id)
    | none => .finished

/-- The next transaction of the run. -/
def proceed (st : Reencryption) : Reencryption :=
  match st.place with
  | .servers lastServerId => st.proceedServers s batchSize lastServerId
  | .operations lastOpId => st.proceedOperations s batchSize lastOpId
  | .verification => { st with place := verify s st.db }
  | _ => st

def step (st : Reencryption) : ReencryptionEvent → Reencryption
  | .start maintenanceEnabled force =>
    { st with
      place := if mayRotate maintenanceEnabled force then .servers 0
        else .failed (.maintenance maintenanceEnabled) }
  | .proceed => st.proceed s batchSize
  | .crash => { st with place := .idle }

end Reencryption

namespace EncryptedDb

/-- The plaintexts, row by row. -/
def plaintexts (db : EncryptedDb) :
    List (ℤ × Option (List Char)) × List (ℤ × Option (List Char)) :=
  (db.servers.map fun r => (r.id, r.value.map FernetToken.plaintext),
    db.operations.map fun r => (r.id, r.value.map FernetToken.plaintext))

def rows (db : EncryptedDb) : List EncryptedRow := db.servers ++ db.operations

/-- Each value is encrypted under one of the configured keys. -/
def Configured (s : KeySettings) (db : EncryptedDb) : Prop :=
  ∀ r ∈ db.rows, ∀ t ∈ r.value, t.key ∈ s.configured

/-- Each row can be loaded. -/
def Readable (s : KeySettings) (db : EncryptedDb) : Prop :=
  ∀ r ∈ db.rows, ∃ plaintext, EncryptedString.processResultValue s true r.value = .ok plaintext

/-- A value under another key than the primary one is not empty, and has a positive id. -/
def Rotatable (s : KeySettings) (db : EncryptedDb) : Prop :=
  ∀ r ∈ db.rows, ∀ t ∈ r.value, t.key ≠ s.primary.text → 0 < r.id ∧ t.plaintext ≠ []

instance (s : KeySettings) (db : EncryptedDb) : Decidable (db.Configured s) :=
  inferInstanceAs (Decidable (∀ r ∈ db.rows, ∀ t ∈ r.value, t.key ∈ s.configured))

instance (s : KeySettings) (db : EncryptedDb) : Decidable (db.Rotatable s) :=
  inferInstanceAs (Decidable (∀ r ∈ db.rows, ∀ t ∈ r.value, t.key ≠ s.primary.text →
    0 < r.id ∧ t.plaintext ≠ []))

end EncryptedDb

/-- What the rotation promises of a state that was reached from the database `db`. -/
structure Reencryption.Promises (s : KeySettings) (batchSize : ℕ) (db : EncryptedDb)
    (st : Reencryption) : Prop where
  plaintexts : st.db.plaintexts = db.plaintexts
  readable : st.db.Readable s
  /-- An uninterrupted run ends without an error. -/
  ends : ∀ maintenanceEnabled force, mayRotate maintenanceEnabled force = true →
    ∃ n, (Lib.run (step s batchSize) st
      (.start maintenanceEnabled force :: List.replicate n .proceed)).place = .finished
  /-- Where it has ended so, the primary key opens every value. -/
  rotated : st.place = .finished → ∀ r ∈ st.db.rows, r.OpensWithPrimary s

/-! ### A row -/

namespace EncryptedRow
variable {s : KeySettings} {r r' r'' : EncryptedRow}

/-- The row under the primary key, if its value is truthy. -/
def rotated (s : KeySettings) (r : EncryptedRow) : EncryptedRow :=
  { r with
    value := r.value.map fun t =>
      if t.plaintext = [] then t else ⟨s.primary.text, t.plaintext⟩ }

/-- The value is empty, or under the primary key. -/
def Fresh (s : KeySettings) (r : EncryptedRow) : Prop :=
  ∀ t ∈ r.value, t.plaintext ≠ [] → t.key = s.primary.text

/-- What a run may have made of a row. -/
def Kept (s : KeySettings) (r r' : EncryptedRow) : Prop := r' = r ∨ 0 < r.id ∧ r' = r.rotated s

theorem rewrite_eq (h : ∀ t ∈ r.value, t.key ∈ s.configured) :
    r.rewrite s = .ok (r.rotated s) := by
  rw [rewrite]
  rcases r with ⟨id, _ | ⟨key, plaintext⟩⟩
  · rfl
  · rw [EncryptedString.processResultValue_of_mem s true (h ⟨key, plaintext⟩ rfl)]
    cases plaintext with
    | nil => rfl
    | cons c cs =>
      simp only [EncryptedString.processBindParam_some]
      rfl

@[simp] theorem id_rotated : (r.rotated s).id = r.id := rfl

@[simp] theorem plaintext_rotated :
    (r.rotated s).value.map FernetToken.plaintext = r.value.map FernetToken.plaintext := by
  rw [rotated, Option.map_map]
  refine congrArg (fun f => r.value.map f) (funext fun t => ?_)
  by_cases h : t.plaintext = [] <;> simp [h]

theorem mem_rotated {t : FernetToken} (ht : t ∈ (r.rotated s).value) :
    t ∈ r.value ∧ t.plaintext = [] ∨ t.plaintext ≠ [] ∧ t.key = s.primary.text := by
  obtain ⟨t', ht', rfl⟩ := Option.map_eq_some_iff.mp ht
  by_cases h : t'.plaintext = []
  · rw [if_pos h]
    exact .inl ⟨ht', h⟩
  · rw [if_neg h]
    exact .inr ⟨h, rfl⟩

theorem fresh_rotated : (r.rotated s).Fresh s := by
  intro t ht hne
  rcases mem_rotated ht with ⟨-, hnil⟩ | ⟨-, hkey⟩
  · exact absurd hnil hne
  · exact hkey

@[simp] theorem rotated_rotated : (r.rotated s).rotated s = r.rotated s := by
  rw [rotated, rotated, Option.map_map]
  refine congrArg (fun f => (⟨r.id, r.value.map f⟩ : EncryptedRow)) (funext fun t => ?_)
  by_cases h : t.plaintext = [] <;> simp [h]

theorem Kept.trans (h : Kept s r r') (h' : Kept s r' r'') : Kept s r r'' := by
  rcases h with rfl | ⟨hid, rfl⟩
  · exact h'
  · rcases h' with rfl | ⟨-, rfl⟩
    · exact .inr ⟨hid, rfl⟩
    · exact .inr ⟨hid, rotated_rotated⟩

theorem Kept.id_eq (h : Kept s r r') : r'.id = r.id := by
  rcases h with rfl | ⟨-, rfl⟩ <;> rfl

theorem Kept.plaintext_eq (h : Kept s r r') :
    r'.value.map FernetToken.plaintext = r.value.map FernetToken.plaintext := by
  rcases h with rfl | ⟨-, rfl⟩
  · rfl
  · exact plaintext_rotated

theorem Kept.configured (h : Kept s r r') (hr : ∀ t ∈ r.value, t.key ∈ s.configured) :
    ∀ t ∈ r'.value, t.key ∈ s.configured := by
  rcases h with rfl | ⟨-, rfl⟩
  · exact hr
  · intro t ht
    rcases mem_rotated ht with ⟨ht, -⟩ | ⟨-, hkey⟩
    · exact hr t ht
    · rw [hkey]
      exact List.mem_cons_self

/-- A row that could be rotated still can, or has been. -/
theorem Kept.rotatable (h : Kept s r r')
    (hr : ∀ t ∈ r.value, t.key ≠ s.primary.text → 0 < r.id ∧ t.plaintext ≠ []) :
    ∀ t ∈ r'.value, t.key ≠ s.primary.text → 0 < r'.id ∧ t.plaintext ≠ [] := by
  rcases h with rfl | ⟨-, rfl⟩
  · exact hr
  · intro t ht hkey
    rcases mem_rotated ht with ⟨ht, -⟩ | ⟨-, hkey'⟩
    · exact hr t ht hkey
    · exact absurd hkey' hkey

/-- A row that was rotated could be. -/
theorem Kept.of_opens (h : Kept s r r') (hopens : r'.OpensWithPrimary s) :
    ∀ t ∈ r.value, t.key ≠ s.primary.text → 0 < r.id ∧ t.plaintext ≠ [] := by
  intro t ht hkey
  rcases h with rfl | ⟨hid, rfl⟩
  · exact absurd (hopens t ht) hkey
  · refine ⟨hid, fun hnil => hkey (hopens t ?_)⟩
    exact Option.map_eq_some_iff.mpr ⟨t, ht, if_pos hnil⟩

end EncryptedRow

/-! ### A batch -/

section Batch
variable {s : KeySettings} {batchSize : ℕ} {last : ℤ} {wanted rows : List EncryptedRow}

/-- What a batch makes of a row. -/
def rotatedIn (s : KeySettings) (batch : List EncryptedRow) (r : EncryptedRow) : EncryptedRow :=
  if r.id ∈ batch.map EncryptedRow.id then r.rotated s else r

theorem rewriteBatch_eq {batch : List EncryptedRow}
    (h : ∀ r ∈ rows, ∀ t ∈ r.value, t.key ∈ s.configured) :
    rewriteBatch s batch rows = .ok (rows.map (rotatedIn s batch)) := by
  rw [rewriteBatch]
  induction rows with
  | nil => rfl
  | cons r rows ih =>
    have hr : (if r.id ∈ batch.map EncryptedRow.id then r.rewrite s else .ok r) =
        .ok (rotatedIn s batch r) := by
      rw [rotatedIn, EncryptedRow.rewrite_eq (h r List.mem_cons_self)]
      split_ifs <;> rfl
    rw [List.mapM_cons, hr, ih fun r hr => h r (List.mem_cons_of_mem _ hr)]
    rfl

theorem id_rotatedIn (batch : List EncryptedRow) (r : EncryptedRow) :
    (rotatedIn s batch r).id = r.id := by
  rw [rotatedIn]
  split_ifs <;> rfl

theorem isSome_rotatedIn (batch : List EncryptedRow) (r : EncryptedRow) :
    (rotatedIn s batch r).value.isSome = r.value.isSome := by
  rw [rotatedIn]
  split_ifs
  · exact Option.isSome_map
  · rfl

/-- Only rows beyond the cursor are rewritten. -/
theorem kept_rotatedIn (hlast : 0 ≤ last) (r : EncryptedRow) :
    r.Kept s (rotatedIn s (Lib.Keyset.page EncryptedRow.id batchSize last wanted) r) := by
  rw [rotatedIn]
  split_ifs with hr
  · obtain ⟨r', hr', hid⟩ := List.mem_map.mp hr
    exact .inr ⟨hlast.trans_lt (hid ▸ (Lib.Keyset.mem_of_mem_page hr').2), rfl⟩
  · exact .inl rfl

/-- The rows up to the cursor are fresh before the batch, and those up to the next one after it. -/
theorem fresh_rotatedIn (hwanted : ∀ r ∈ rows, r.value.isSome = true → r ∈ wanted)
    (hfresh : ∀ r ∈ rows, 0 < r.id → r.id ≤ last → r.Fresh s) :
    ∀ r ∈ rows.map (rotatedIn s (Lib.Keyset.page EncryptedRow.id batchSize last wanted)),
      0 < r.id → r.id ≤ Lib.Keyset.advance EncryptedRow.id last
        (Lib.Keyset.page EncryptedRow.id batchSize last wanted) → r.Fresh s := by
  intro r' hr' hpos hle
  obtain ⟨r, hr, rfl⟩ := List.mem_map.mp hr'
  rw [id_rotatedIn] at hpos hle
  rw [rotatedIn]
  split_ifs with hpage
  · exact EncryptedRow.fresh_rotated
  · intro t ht hne
    rcases le_or_gt r.id last with hold | hnew
    · exact hfresh r hr hpos hold t ht hne
    · refine absurd (Lib.Keyset.key_mem_page (hwanted r hr ?_) hnew hle) hpage
      exact Option.isSome_iff_exists.mpr ⟨t, ht⟩

/-- An empty batch comes after the last row. -/
theorem fresh_of_page_nil (hsize : 0 < batchSize)
    (hwanted : ∀ r ∈ rows, r.value.isSome = true → r ∈ wanted)
    (hfresh : ∀ r ∈ rows, 0 < r.id → r.id ≤ last → r.Fresh s)
    (hnil : Lib.Keyset.page EncryptedRow.id batchSize last wanted = []) :
    ∀ r ∈ rows, 0 < r.id → r.Fresh s := by
  intro r hr hpos t ht hne
  have hmem := hwanted r hr (Option.isSome_iff_exists.mpr ⟨t, ht⟩)
  exact hfresh r hr hpos ((Lib.Keyset.page_eq_nil_iff hsize).mp hnil r hmem) t ht hne

end Batch

/-! ### A run -/

namespace Reencryption

/-- How far a run is. -/
def Progress (s : KeySettings) (st : Reencryption) : Prop :=
  match st.place with
  | .servers last => 0 ≤ last ∧ ∀ r ∈ st.db.servers, 0 < r.id → r.id ≤ last → r.Fresh s
  | .operations last => 0 ≤ last ∧ (∀ r ∈ st.db.servers, 0 < r.id → r.Fresh s) ∧
      ∀ r ∈ st.db.operations, 0 < r.id → r.id ≤ last → r.Fresh s
  | .verification => ∀ r ∈ st.db.rows, 0 < r.id → r.Fresh s
  | .finished => ∀ r ∈ st.db.rows, r.OpensWithPrimary s
  | .idle | .failed _ => True

/-- Each row is what a run may have made of the row of `db`. -/
structure Sound (s : KeySettings) (db : EncryptedDb) (st : Reencryption) : Prop where
  servers : ∃ f, (∀ r : EncryptedRow, r.Kept s (f r)) ∧ st.db.servers = db.servers.map f
  operations : ∃ f, (∀ r : EncryptedRow, r.Kept s (f r)) ∧ st.db.operations = db.operations.map f
  progress : st.Progress s

variable {s : KeySettings} {batchSize : ℕ} {db : EncryptedDb} {st : Reencryption}

theorem sound_start (s : KeySettings) (db : EncryptedDb) : Sound s db { db } where
  servers := ⟨id, fun _ => .inl rfl, (List.map_id _).symm⟩
  operations := ⟨id, fun _ => .inl rfl, (List.map_id _).symm⟩
  progress := trivial

/-- A row of a state comes from a row of the database. -/
theorem Sound.origin (hs : Sound s db st) :
    ∀ r' ∈ st.db.rows, ∃ r ∈ db.rows, r.Kept s r' := by
  obtain ⟨f, hf, hservers⟩ := hs.servers
  obtain ⟨g, hg, hoperations⟩ := hs.operations
  intro r' hr'
  rw [EncryptedDb.rows, hservers, hoperations, List.mem_append] at hr'
  rcases hr' with hr' | hr'
  · obtain ⟨r, hr, rfl⟩ := List.mem_map.mp hr'
    exact ⟨r, List.mem_append_left _ hr, hf r⟩
  · obtain ⟨r, hr, rfl⟩ := List.mem_map.mp hr'
    exact ⟨r, List.mem_append_right _ hr, hg r⟩

/-- What becomes of a row of the database. -/
theorem Sound.image (hs : Sound s db st) : ∀ r ∈ db.rows, ∃ r' ∈ st.db.rows, r.Kept s r' := by
  obtain ⟨f, hf, hservers⟩ := hs.servers
  obtain ⟨g, hg, hoperations⟩ := hs.operations
  intro r hr
  rw [EncryptedDb.rows, hservers, hoperations]
  rcases List.mem_append.mp hr with hr | hr
  · exact ⟨f r, List.mem_append_left _ (List.mem_map_of_mem hr), hf r⟩
  · exact ⟨g r, List.mem_append_right _ (List.mem_map_of_mem hr), hg r⟩

theorem Sound.configured (hs : Sound s db st) (hdb : db.Configured s) : st.db.Configured s := by
  intro r' hr'
  obtain ⟨r, hr, hkept⟩ := hs.origin r' hr'
  exact hkept.configured (hdb r hr)

theorem Sound.rotatable (hs : Sound s db st) (hdb : db.Rotatable s) : st.db.Rotatable s := by
  intro r' hr'
  obtain ⟨r, hr, hkept⟩ := hs.origin r' hr'
  exact hkept.rotatable (hdb r hr)

theorem Sound.plaintexts (hs : Sound s db st) : st.db.plaintexts = db.plaintexts := by
  obtain ⟨f, hf, hservers⟩ := hs.servers
  obtain ⟨g, hg, hoperations⟩ := hs.operations
  have hsame {f : EncryptedRow → EncryptedRow} (hf : ∀ r : EncryptedRow, r.Kept s (f r))
      (rows : List EncryptedRow) :
      ((rows.map f).map fun r => (r.id, r.value.map FernetToken.plaintext)) =
        rows.map fun r => (r.id, r.value.map FernetToken.plaintext) := by
    rw [List.map_map]
    refine List.map_congr_left fun r _ => ?_
    rw [Function.comp_apply, (hf r).id_eq, (hf r).plaintext_eq]
  rw [EncryptedDb.plaintexts, EncryptedDb.plaintexts, hservers, hoperations, hsame hf, hsame hg]

theorem Sound.readable (hs : Sound s db st) (hdb : db.Configured s) : st.db.Readable s := by
  intro r hr
  rcases hvalue : r.value with _ | t
  · exact ⟨none, rfl⟩
  · exact ⟨_, EncryptedString.processResultValue_of_mem s true
      (hs.configured hdb r hr t hvalue)⟩

/-- More rows are rewritten. -/
theorem kept_map {rows rows' : List EncryptedRow}
    (h : ∃ f, (∀ r : EncryptedRow, r.Kept s (f r)) ∧ rows' = rows.map f)
    {g : EncryptedRow → EncryptedRow} (hg : ∀ r : EncryptedRow, r.Kept s (g r)) :
    ∃ f, (∀ r : EncryptedRow, r.Kept s (f r)) ∧ rows'.map g = rows.map f := by
  obtain ⟨f, hf, rfl⟩ := h
  exact ⟨g ∘ f, fun r => (hf r).trans (hg (f r)), List.map_map ..⟩

/-- The rows that are left for a run. -/
def left (st : Reencryption) : ℕ :=
  match st.place with
  | .servers last => Lib.Keyset.remaining EncryptedRow.id last st.db.servers +
      Lib.Keyset.remaining EncryptedRow.id 0
        (st.db.operations.filter fun r => r.value.isSome) + 3
  | .operations last => Lib.Keyset.remaining EncryptedRow.id last
      (st.db.operations.filter fun r => r.value.isSome) + 2
  | .verification => 1
  | .idle | .finished | .failed _ => 0

/-- A run that has begun and has not failed. -/
def Going (st : Reencryption) : Prop := st.left ≠ 0 ∨ st.place = .finished

theorem remaining_map {rows : List EncryptedRow} {g : EncryptedRow → EncryptedRow}
    (hg : ∀ r, (g r).id = r.id) (last : ℤ) :
    Lib.Keyset.remaining EncryptedRow.id last (rows.map g) =
      Lib.Keyset.remaining EncryptedRow.id last rows := by
  have hkeys : EncryptedRow.id ∘ g = EncryptedRow.id := funext hg
  rw [Lib.Keyset.remaining, List.map_map, hkeys, Lib.Keyset.remaining]

/-- A batch of servers, where they are readable. -/
theorem proceedServers_spec (hsize : 0 < batchSize) (hs : Sound s db st)
    (hdb : db.Configured s) {last : ℤ} (hplace : st.place = .servers last) :
    Sound s db (st.proceed s batchSize) ∧ (st.proceed s batchSize).left < st.left ∧
      Going (st.proceed s batchSize) := by
  have hprogress := hs.progress
  have hconfigured := hs.configured hdb
  rw [Progress, hplace] at hprogress
  have hleft : st.left = Lib.Keyset.remaining EncryptedRow.id last st.db.servers +
      Lib.Keyset.remaining EncryptedRow.id 0
        (st.db.operations.filter fun r => r.value.isSome) + 3 := by
    rw [left, hplace]
  rw [proceed, hplace]
  dsimp only
  rw [proceedServers, hleft]
  split_ifs with hnil
  · have hfresh := fresh_of_page_nil hsize (fun r hr _ => hr) hprogress.2 hnil
    refine ⟨⟨hs.servers, hs.operations, le_rfl, hfresh, fun r _ hpos hle => ?_⟩, ?_, ?_⟩
    · exact absurd hpos (not_lt.mpr hle)
    · simp only [left]
      omega
    · exact .inl (by simp only [left]; omega)
  · rw [rewriteBatch_eq fun r hr => hconfigured r (List.mem_append_left _ hr)]
    dsimp only
    have hlt := Lib.Keyset.remaining_lt hnil
    refine ⟨⟨kept_map hs.servers (kept_rotatedIn hprogress.1), hs.operations, ?_,
      fresh_rotatedIn (fun r hr _ => hr) hprogress.2⟩, ?_, ?_⟩
    · exact hprogress.1.trans (Lib.Keyset.lt_advance hnil).le
    · simp only [left]
      rw [remaining_map (id_rotatedIn _)]
      omega
    · exact .inl (by simp only [left]; omega)

theorem filter_rotatedIn (batch rows : List EncryptedRow) :
    ((rows.map (rotatedIn s batch)).filter fun r => r.value.isSome) =
      (rows.filter fun r => r.value.isSome).map (rotatedIn s batch) := by
  rw [List.filter_map]
  refine congrArg _ (List.filter_congr fun r _ => ?_)
  exact isSome_rotatedIn batch r

/-- A batch of API operations, where they are readable. -/
theorem proceedOperations_spec (hsize : 0 < batchSize) (hs : Sound s db st)
    (hdb : db.Configured s) {last : ℤ} (hplace : st.place = .operations last) :
    Sound s db (st.proceed s batchSize) ∧ (st.proceed s batchSize).left < st.left ∧
      Going (st.proceed s batchSize) := by
  have hprogress := hs.progress
  have hconfigured := hs.configured hdb
  rw [Progress, hplace] at hprogress
  obtain ⟨hlast, hservers, hoperations⟩ := hprogress
  have hwanted : ∀ r ∈ st.db.operations, r.value.isSome = true →
      r ∈ st.db.operations.filter fun r => r.value.isSome :=
    fun r hr hsome => List.mem_filter.mpr ⟨hr, hsome⟩
  have hleft : st.left = Lib.Keyset.remaining EncryptedRow.id last
      (st.db.operations.filter fun r => r.value.isSome) + 2 := by
    rw [left, hplace]
  rw [proceed, hplace]
  dsimp only
  rw [proceedOperations, hleft]
  split_ifs with hnil
  · have hfresh := fresh_of_page_nil hsize hwanted hoperations hnil
    refine ⟨⟨hs.servers, hs.operations, fun r hr => ?_⟩, ?_, ?_⟩
    · rcases List.mem_append.mp hr with hr | hr
      · exact hservers r hr
      · exact hfresh r hr
    · simp only [left]
      omega
    · exact .inl (by simp only [left]; omega)
  · rw [rewriteBatch_eq fun r hr => hconfigured r (List.mem_append_right _ hr)]
    dsimp only
    have hlt := Lib.Keyset.remaining_lt hnil
    refine ⟨⟨hs.servers, kept_map hs.operations (kept_rotatedIn hlast), ?_, hservers,
      fresh_rotatedIn hwanted hoperations⟩, ?_, ?_⟩
    · exact hlast.trans (Lib.Keyset.lt_advance hnil).le
    · simp only [left]
      rw [filter_rotatedIn, remaining_map (id_rotatedIn _)]
      omega
    · exact .inl (by simp only [left]; omega)

/-- The verification finds what the primary key does not open. -/
theorem verify_eq_finished_iff (db : EncryptedDb) :
    verify s db = .finished ↔ ∀ r ∈ db.rows, r.OpensWithPrimary s := by
  rw [verify, EncryptedDb.rows, List.forall_mem_append]
  split
  · next r hr =>
    have hclosed : ¬ r.OpensWithPrimary s := by
      simpa using List.find?_some hr
    refine ⟨fun h => (by cases h), fun h => ?_⟩
    exact absurd (h.1 r (List.mem_of_find?_eq_some hr)) hclosed
  · next hservers =>
    have hservers : ∀ r ∈ db.servers, r.OpensWithPrimary s := by
      simpa using List.find?_eq_none.mp hservers
    split
    · next r hr =>
      have hclosed : ¬ r.OpensWithPrimary s := by
        simpa using List.find?_some hr
      refine ⟨fun h => (by cases h), fun h => ?_⟩
      exact absurd (h.2 r (List.mem_of_find?_eq_some hr)) hclosed
    · next hoperations =>
      exact ⟨fun _ => ⟨hservers, by simpa using List.find?_eq_none.mp hoperations⟩, fun _ => rfl⟩

/-- Otherwise it fails. -/
theorem verify_cases (db : EncryptedDb) :
    verify s db = .finished ∨ ∃ e, verify s db = .failed e := by
  rw [verify]
  split
  · exact .inr ⟨_, rfl⟩
  · split
    · exact .inr ⟨_, rfl⟩
    · exact .inl rfl

theorem verification_spec (hs : Sound s db st) (hplace : st.place = .verification) :
    Sound s db (st.proceed s batchSize) ∧ (st.proceed s batchSize).left < st.left := by
  have hverified := verify_eq_finished_iff (s := s) st.db
  have hleft : st.left = 1 := by rw [left, hplace]
  rw [proceed, hplace, hleft]
  dsimp only
  rcases verify_cases (s := s) st.db with hfinished | ⟨e, hfailed⟩
  · rw [hfinished] at hverified ⊢
    exact ⟨⟨hs.servers, hs.operations, hverified.mp rfl⟩, Nat.one_pos⟩
  · rw [hfailed]
    exact ⟨⟨hs.servers, hs.operations, trivial⟩, Nat.one_pos⟩

/-- What could be rotated and is fresh is opened by the primary key. -/
theorem opens_of_verification (hs : Sound s db st) (hrotatable : db.Rotatable s)
    (hplace : st.place = .verification) : (st.proceed s batchSize).place = .finished := by
  have hprogress := hs.progress
  rw [Progress, hplace] at hprogress
  rw [proceed, hplace]
  refine (verify_eq_finished_iff st.db).mpr fun r hr t ht => ?_
  by_contra hkey
  obtain ⟨hpos, hne⟩ := hs.rotatable hrotatable r hr t ht hkey
  exact hkey (hprogress r hr hpos t ht hne)

/-- Every transaction keeps the rows and lowers what is left. -/
theorem proceed_spec (hsize : 0 < batchSize) (hdb : db.Configured s) (hs : Sound s db st) :
    Sound s db (st.proceed s batchSize) ∧
      (st.left ≠ 0 → (st.proceed s batchSize).left < st.left) := by
  rcases hplace : st.place with _ | last | last | _ | _ | e
  · rw [proceed, hplace]
    exact ⟨hs, fun hne => absurd (by rw [left, hplace]) hne⟩
  · obtain ⟨hsound, hlt, -⟩ := proceedServers_spec hsize hs hdb hplace
    exact ⟨hsound, fun _ => hlt⟩
  · obtain ⟨hsound, hlt, -⟩ := proceedOperations_spec hsize hs hdb hplace
    exact ⟨hsound, fun _ => hlt⟩
  · exact (verification_spec hs hplace).imp_right fun hlt _ => hlt
  · rw [proceed, hplace]
    exact ⟨hs, fun hne => absurd (by rw [left, hplace]) hne⟩
  · rw [proceed, hplace]
    exact ⟨hs, fun hne => absurd (by rw [left, hplace]) hne⟩

/-- A run over rows that can be rotated does not fail. -/
theorem going_proceed (hsize : 0 < batchSize) (hdb : db.Configured s) (hrotatable : db.Rotatable s)
    (hs : Sound s db st) (hgoing : Going st) : Going (st.proceed s batchSize) := by
  rcases hplace : st.place with _ | last | last | _ | _ | e
  · rw [proceed, hplace]
    exact hgoing
  · exact (proceedServers_spec hsize hs hdb hplace).2.2
  · exact (proceedOperations_spec hsize hs hdb hplace).2.2
  · exact .inr (opens_of_verification hs hrotatable hplace)
  · rw [proceed, hplace]
    exact hgoing
  · rw [proceed, hplace]
    exact hgoing

theorem sound_step (hsize : 0 < batchSize) (hdb : db.Configured s) (st : Reencryption)
    (e : ReencryptionEvent) (hs : Sound s db st) : Sound s db (st.step s batchSize e) := by
  cases e with
  | start maintenanceEnabled force =>
    refine ⟨hs.servers, hs.operations, ?_⟩
    rw [step]
    by_cases hmay : mayRotate maintenanceEnabled force = true
    · rw [if_pos hmay]
      exact ⟨le_rfl, fun r _ hpos hle => absurd hpos (not_lt.mpr hle)⟩
    · rw [if_neg hmay]
      trivial
  | proceed => exact (proceed_spec hsize hdb hs).1
  | crash => exact ⟨hs.servers, hs.operations, trivial⟩

/-- An uninterrupted run comes to its end, without an error over rows that can be rotated. -/
theorem ends_of_rotatable (hsize : 0 < batchSize) (hdb : db.Configured s)
    (hrotatable : db.Rotatable s) (hs : Sound s db st) {maintenanceEnabled : Option Bool}
    {force : Bool} (hmay : mayRotate maintenanceEnabled force = true) :
    ∃ n, (Lib.run (step s batchSize) st
      (.start maintenanceEnabled force :: List.replicate n .proceed)).place = .finished := by
  have hstarted := sound_step hsize hdb st (.start maintenanceEnabled force) hs
  have hgoing : Going (st.step s batchSize (.start maintenanceEnabled force)) := by
    left
    simp only [step, if_pos hmay, left]
    omega
  obtain ⟨n, hleft, -, hgoing⟩ := Lib.exists_run_replicate (step s batchSize)
    (I := fun st => Sound s db st ∧ Going st) (μ := left) (e := .proceed)
    (fun st hst => ⟨(proceed_spec hsize hdb hst.1).1,
      going_proceed hsize hdb hrotatable hst.1 hst.2⟩)
    (fun st hst => (proceed_spec hsize hdb hst.1).2) _ ⟨hstarted, hgoing⟩
  exact ⟨n, hgoing.resolve_left fun hne => hne hleft⟩

/-- The rotation keeps its promises after every sequence of runs and crashes exactly when each value
    under another key than the primary one is not empty and has a positive id. -/
theorem promises_iff_rotatable (s : KeySettings) (batchSize : ℕ) (hsize : 0 < batchSize)
    (db : EncryptedDb) (hdb : db.Configured s) :
    (∀ es : List ReencryptionEvent,
      Promises s batchSize db (Lib.run (step s batchSize) { db } es)) ↔ db.Rotatable s := by
  have hsound (es : List ReencryptionEvent) : Sound s db (Lib.run (step s batchSize) { db } es) :=
    Lib.run_inv (step s batchSize) (sound_step hsize hdb) es _ (sound_start s db)
  constructor
  · intro h r hr
    obtain ⟨n, hfinished⟩ := (h []).ends (some true) false rfl
    obtain ⟨r', hr', hkept⟩ :=
      (hsound (.start (some true) false :: List.replicate n .proceed)).image r hr
    exact hkept.of_opens ((h _).rotated hfinished r' hr')
  · intro hrotatable es
    refine ⟨(hsound es).plaintexts, (hsound es).readable hdb,
      fun maintenanceEnabled force hmay => ?_, fun hfinished => ?_⟩
    · exact ends_of_rotatable hsize hdb hrotatable (hsound es) hmay
    · have hprogress := (hsound es).progress
      rw [Progress, hfinished] at hprogress
      exact hprogress

/-- A new primary key and an old one. -/
def newAndOld : KeySettings where
  primary := ⟨List.replicate 43 'N' ++ ['='], by decide +kernel⟩
  additional := [⟨List.replicate 43 'O' ++ ['='], by decide +kernel⟩]

/-- Values under both keys, and an operation without one. -/
def halfRotated : EncryptedDb where
  servers := [⟨1, some ⟨List.replicate 43 'N' ++ ['='], ['a']⟩⟩,
    ⟨2, some ⟨List.replicate 43 'O' ++ ['='], ['b']⟩⟩]
  operations := [⟨5, none⟩, ⟨3, some ⟨List.replicate 43 'O' ++ ['='], ['c']⟩⟩]

theorem promises_halfRotated : halfRotated.Rotatable newAndOld ∧ ∀ es : List ReencryptionEvent,
    Promises newAndOld 1 halfRotated (Lib.run (step newAndOld 1) { db := halfRotated } es) := by
  have hrotatable : halfRotated.Rotatable newAndOld := by decide +kernel
  exact ⟨hrotatable, (promises_iff_rotatable newAndOld 1 Nat.one_pos halfRotated
    (by decide +kernel)).mpr hrotatable⟩

/-- An empty value under the old key. -/
def emptyValue : EncryptedDb where
  servers := [⟨1, some ⟨List.replicate 43 'O' ++ ['='], []⟩⟩]
  operations := []

theorem emptyValue_fails : emptyValue.Configured newAndOld ∧
    (Lib.run (step newAndOld 100) { db := emptyValue }
      [.start (some true) false, .proceed, .proceed, .proceed, .proceed]).place =
        .failed (.server 1) := by
  decide +kernel

end Reencryption

end Just1kBot
