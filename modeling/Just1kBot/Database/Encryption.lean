import Just1kBot.Lib.Python
import Mathlib.Data.List.Basic

/-! The encrypted columns: `_get_fernet_engine`, `_get_active_keys` and `EncryptedString` of
    `utils/encryption.py`.

    A token is a key with a plaintext, and only the same key opens it. The keys come as two texts,
    `DB_ENCRYPTION_KEY` and the comma-separated `DB_ENCRYPTION_KEYS`, which the settings have
    validated; the texts are joined and split again before each use. -/

namespace Just1kBot

/-- A character of url-safe base64: a digit, a letter, a hyphen, an underscore or `=`. -/
def isUrlSafe (c : Char) : Bool :=
  48 ≤ c.toNat && c.toNat ≤ 57 || 65 ≤ c.toNat && c.toNat ≤ 90 ||
    97 ≤ c.toNat && c.toNat ≤ 122 || c.toNat ∈ [45, 95, 61]

/-- `Fernet(key)` accepts the text: 44 characters of url-safe base64. -/
def isFernetKey (text : List Char) : Bool := text.length == 44 && text.all isUrlSafe

structure FernetKey where
  text : List Char
  valid : isFernetKey text = true
  deriving DecidableEq

/-- What a Fernet key made of a plaintext. -/
structure FernetToken where
  key : List Char
  plaintext : List Char
  deriving DecidableEq, Repr

/-- `DB_ENCRYPTION_KEY`, and the keys of `DB_ENCRYPTION_KEYS`. -/
structure KeySettings where
  primary : FernetKey
  additional : List FernetKey
  deriving DecidableEq

/-- `MultiFernet`, by the texts of its keys. -/
structure MultiFernet where
  first : List Char
  others : List (List Char)
  deriving DecidableEq, Repr

/-- `.strip().strip("'").strip('"')`. -/
def unquote (s : List Char) : List Char :=
  Lib.Python.stripOf (· == Char.ofNat 34)
    (Lib.Python.stripOf (· == Char.ofNat 39) (Lib.Python.stripChars s))

/-- The items of a comma-separated text, without the empty ones. -/
def keyTexts (s : List Char) : List (List Char) :=
  ((s.splitOn ',').map unquote).filter fun k => k ≠ []

/-- `if k not in keys: keys.append(k)`, for all of them. -/
def addKeys (keys more : List (List Char)) : List (List Char) :=
  more.foldl (fun keys k => if keys.contains k then keys else keys ++ [k]) keys

namespace KeySettings

/-- `DB_ENCRYPTION_KEYS`. -/
def dbEncryptionKeys (s : KeySettings) : List Char :=
  [','].intercalate (s.additional.map FernetKey.text)

/-- `_get_active_keys`. -/
def getActiveKeys (s : KeySettings) : List Char :=
  let primary := unquote s.primary.text
  let additional :=
    if Lib.Python.stripChars s.dbEncryptionKeys = [] then [] else keyTexts s.dbEncryptionKeys
  [','].intercalate (addKeys (if primary = [] then [] else [primary]) additional)

/-- The texts of the configured keys. -/
def configured (s : KeySettings) : List (List Char) :=
  s.primary.text :: s.additional.map FernetKey.text

end KeySettings

inductive EncryptionError
  /-- "DB_ENCRYPTION_KEY is empty". -/
  | keyEmpty
  /-- "Encryption failed". -/
  | encryption
  /-- "Failed to decrypt critical field", or another decryption error. -/
  | decryption
  deriving DecidableEq, Repr

/-- `_get_fernet_engine`: without a key, or with a text that is no key, it raises. -/
def getFernetEngine (keysStr : List Char) : Option MultiFernet :=
  match keyTexts keysStr with
  | [] => none
  | k :: ks => if (k :: ks).all isFernetKey then some ⟨k, ks⟩ else none

namespace MultiFernet

def encrypt (f : MultiFernet) (plaintext : List Char) : FernetToken := ⟨f.first, plaintext⟩

/-- The first key that opens the token gives the plaintext. -/
def decrypt (f : MultiFernet) (t : FernetToken) : Option (List Char) :=
  (f.first :: f.others).findSome? fun k => if t.key = k then some t.plaintext else none

end MultiFernet

namespace EncryptedString

/-- `process_bind_param`. -/
def processBindParam (s : KeySettings) :
    Option (List Char) → Except EncryptionError (Option FernetToken)
  | none => .ok none
  | some value =>
    if s.getActiveKeys = [] then .error .keyEmpty
    else
      match getFernetEngine s.getActiveKeys with
      | none => .error .encryption
      | some f => .ok (some (f.encrypt value))

/-- `process_result_value`. -/
def processResultValue (s : KeySettings) (critical : Bool) :
    Option FernetToken → Except EncryptionError (Option (List Char))
  | none => .ok none
  | some value =>
    if s.getActiveKeys = [] then if critical then .error .keyEmpty else .ok none
    else
      match (getFernetEngine s.getActiveKeys).bind fun f => f.decrypt value with
      | none => if critical then .error .decryption else .ok none
      | some plaintext => .ok (some plaintext)

end EncryptedString

/-! ### The keys -/

theorem isUrlSafe_clear {c : Char} (h : isUrlSafe c = true) : Lib.Python.isSpace c = false ∧
    (c == Char.ofNat 34) = false ∧ (c == Char.ofNat 39) = false ∧ c ≠ ',' := by
  refine ⟨?_, ?_, ?_, ?_⟩
  · simp only [isUrlSafe, Bool.or_eq_true, Bool.and_eq_true, decide_eq_true_eq, List.mem_cons,
      List.not_mem_nil, or_false] at h
    simp only [Lib.Python.isSpace, decide_eq_false_iff_not, List.mem_cons, List.not_mem_nil,
      or_false]
    omega
  · refine beq_eq_false_iff_ne.mpr ?_
    rintro rfl
    exact absurd h (by decide)
  · refine beq_eq_false_iff_ne.mpr ?_
    rintro rfl
    exact absurd h (by decide)
  · rintro rfl
    exact absurd h (by decide)

theorem isFernetKey_iff {text : List Char} :
    isFernetKey text = true ↔ text.length = 44 ∧ ∀ c ∈ text, isUrlSafe c = true := by
  rw [isFernetKey, Bool.and_eq_true, beq_iff_eq, List.all_eq_true]

theorem ne_nil_of_isFernetKey {text : List Char} (h : isFernetKey text = true) : text ≠ [] := by
  rintro rfl
  exact absurd (isFernetKey_iff.mp h).1 (by decide)

theorem unquote_of_isFernetKey {text : List Char} (h : isFernetKey text = true) :
    unquote text = text := by
  have hclear : ∀ c ∈ text, _ := fun c hc => isUrlSafe_clear ((isFernetKey_iff.mp h).2 c hc)
  have hstrip : Lib.Python.stripChars text = text :=
    Lib.Python.stripOf_of_forall fun c hc => (hclear c hc).1
  rw [unquote, hstrip, Lib.Python.stripOf_of_forall fun c hc => (hclear c hc).2.2.1,
    Lib.Python.stripOf_of_forall fun c hc => (hclear c hc).2.1]

theorem mem_intercalate {c : Char} :
    ∀ {texts : List (List Char)}, c ∈ [','].intercalate texts → c = ',' ∨ ∃ text ∈ texts, c ∈ text
  | [], h => by simp at h
  | [text], h => .inr ⟨text, List.mem_cons_self, by simpa using h⟩
  | text :: text' :: texts, h => by
    rw [List.intercalate_cons_cons, List.append_assoc, List.mem_append, List.mem_append] at h
    rcases h with h | h | h
    · exact .inr ⟨text, List.mem_cons_self, h⟩
    · exact .inl (List.mem_singleton.mp h)
    · exact (mem_intercalate h).imp id fun ⟨t, ht, hc⟩ => ⟨t, List.mem_cons_of_mem text ht, hc⟩

/-- Keys that are joined are split again into themselves. -/
theorem keyTexts_intercalate {texts : List (List Char)}
    (h : ∀ text ∈ texts, isFernetKey text = true) : keyTexts ([','].intercalate texts) = texts := by
  rw [keyTexts]
  rcases List.eq_nil_or_concat' texts with rfl | ⟨_, _, hcons⟩
  · rfl
  · have hcomma : ∀ text ∈ texts, ',' ∉ text := fun text ht hmem =>
      (isUrlSafe_clear ((isFernetKey_iff.mp (h text ht)).2 ',' hmem)).2.2.2 rfl
    rw [List.splitOn_intercalate ',' hcomma (by simp [hcons]),
      List.map_congr_left fun text ht => unquote_of_isFernetKey (h text ht), List.map_id']
    exact List.filter_eq_self.mpr fun text ht => decide_eq_true (ne_nil_of_isFernetKey (h text ht))

theorem mem_addKeys {keys more : List (List Char)} {k : List Char} :
    k ∈ addKeys keys more ↔ k ∈ keys ∨ k ∈ more := by
  induction more generalizing keys with
  | nil => simp [addKeys]
  | cons m more ih =>
    rw [addKeys, List.foldl_cons]
    by_cases hm : m ∈ keys
    · rw [if_pos (List.contains_iff_mem.mpr hm)]
      refine ih.trans ?_
      rw [List.mem_cons]
      refine ⟨Or.imp_right .inr, fun h' => ?_⟩
      rcases h' with h' | rfl | h'
      · exact .inl h'
      · exact .inl hm
      · exact .inr h'
    · rw [if_neg fun hc => hm (List.contains_iff_mem.mp hc)]
      refine ih.trans ?_
      simp [or_assoc]

/-- The first key stays the first. -/
theorem addKeys_cons (k : List Char) (keys more : List (List Char)) :
    ∃ rest, addKeys (k :: keys) more = k :: rest := by
  induction more generalizing keys with
  | nil => exact ⟨keys, rfl⟩
  | cons m more ih =>
    rw [addKeys, List.foldl_cons]
    split_ifs
    · exact ih keys
    · exact ih (keys ++ [m])

namespace KeySettings
variable (s : KeySettings)

theorem isFernetKey_of_mem_additional :
    ∀ text ∈ s.additional.map FernetKey.text, isFernetKey text = true := by
  intro text ht
  obtain ⟨k, -, rfl⟩ := List.mem_map.mp ht
  exact k.valid

/-- The active keys are the configured ones, the primary key first. -/
theorem getActiveKeys_eq : ∃ others,
    s.getActiveKeys = [','].intercalate (s.primary.text :: others) ∧
      ∀ k, k ∈ s.primary.text :: others ↔ k ∈ s.configured := by
  have hkeys : (if Lib.Python.stripChars s.dbEncryptionKeys = [] then []
      else keyTexts s.dbEncryptionKeys) = s.additional.map FernetKey.text := by
    rw [dbEncryptionKeys, keyTexts_intercalate s.isFernetKey_of_mem_additional]
    refine ite_eq_right_iff.mpr fun hnil => ?_
    have hspace : ∀ c ∈ s.dbEncryptionKeys, Lib.Python.isSpace c = false := by
      intro c hc
      rcases mem_intercalate hc with rfl | ⟨text, ht, hc⟩
      · decide
      · have hvalid := isFernetKey_iff.mp (s.isFernetKey_of_mem_additional text ht)
        exact (isUrlSafe_clear (hvalid.2 c hc)).1
    have hempty : s.dbEncryptionKeys = [] :=
      (Lib.Python.stripOf_of_forall hspace).symm.trans hnil
    rw [← keyTexts_intercalate s.isFernetKey_of_mem_additional, ← dbEncryptionKeys, hempty]
    rfl
  obtain ⟨others, hothers⟩ := addKeys_cons s.primary.text [] (s.additional.map FernetKey.text)
  refine ⟨others, ?_, fun k => ?_⟩
  · rw [getActiveKeys, hkeys, unquote_of_isFernetKey s.primary.valid,
      if_neg (ne_nil_of_isFernetKey s.primary.valid), hothers]
  · rw [← hothers, mem_addKeys, List.mem_singleton, configured, List.mem_cons]

theorem isFernetKey_of_mem_configured : ∀ text ∈ s.configured, isFernetKey text = true := by
  intro text ht
  rcases List.mem_cons.mp ht with rfl | ht
  · exact s.primary.valid
  · exact s.isFernetKey_of_mem_additional text ht

theorem getActiveKeys_ne_nil : s.getActiveKeys ≠ [] := by
  obtain ⟨others, heq, hmem⟩ := s.getActiveKeys_eq
  intro hnil
  have hkeys := keyTexts_intercalate fun text ht =>
    s.isFernetKey_of_mem_configured text ((hmem text).mp ht)
  rw [← heq, hnil] at hkeys
  cases hkeys

/-- The engine encrypts with the primary key and decrypts with the configured keys. -/
theorem getFernetEngine_eq : ∃ others,
    getFernetEngine s.getActiveKeys = some ⟨s.primary.text, others⟩ ∧
      ∀ k, k ∈ s.primary.text :: others ↔ k ∈ s.configured := by
  obtain ⟨others, heq, hmem⟩ := s.getActiveKeys_eq
  have hvalid : ∀ text ∈ s.primary.text :: others, isFernetKey text = true := fun text ht =>
    s.isFernetKey_of_mem_configured text ((hmem text).mp ht)
  refine ⟨others, ?_, hmem⟩
  rw [getFernetEngine, heq, keyTexts_intercalate hvalid]
  exact if_pos (List.all_eq_true.mpr hvalid)

end KeySettings

/-! ### The columns -/

theorem MultiFernet.decrypt_of_mem {f : MultiFernet} {t : FernetToken}
    (h : t.key ∈ f.first :: f.others) : f.decrypt t = some t.plaintext := by
  rw [decrypt]
  generalize f.first :: f.others = keys at h ⊢
  induction keys with
  | nil => cases h
  | cons k ks ih =>
    rw [List.findSome?_cons]
    by_cases hk : t.key = k
    · rw [if_pos hk]
    · rw [if_neg hk]
      exact ih ((List.mem_cons.mp h).resolve_left hk)

namespace EncryptedString
variable (s : KeySettings)

/-- What is stored is a token of the primary key. -/
theorem processBindParam_some (value : List Char) :
    processBindParam s (some value) = .ok (some ⟨s.primary.text, value⟩) := by
  obtain ⟨others, hengine, -⟩ := s.getFernetEngine_eq
  simp only [processBindParam, if_neg s.getActiveKeys_ne_nil, hengine, MultiFernet.encrypt]

/-- A token of a configured key is read. -/
theorem processResultValue_of_mem (critical : Bool) {t : FernetToken} (ht : t.key ∈ s.configured) :
    processResultValue s critical (some t) = .ok (some t.plaintext) := by
  obtain ⟨others, hengine, hmem⟩ := s.getFernetEngine_eq
  have hopen : MultiFernet.decrypt ⟨s.primary.text, others⟩ t = some t.plaintext :=
    MultiFernet.decrypt_of_mem ((hmem t.key).mpr ht)
  simp only [processResultValue, if_neg s.getActiveKeys_ne_nil, hengine, Option.bind_some, hopen]

end EncryptedString

end Just1kBot
