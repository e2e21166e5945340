import Just1kBot.Lib.Paging
import Just1kBot.Lib.Python

/-! The repair of an inline keyboard (`sanitize_reply_markup` of `utils/telegram.py`).

    Every button is repaired by itself: its label, its copy text and its callback data. Then long
    rows are split, and what is over a hundred buttons is cut off. The buttons that stay are the
    first hundred repaired ones, in their order. -/

namespace Just1kBot

open Lib.Python (stripChars)

/-- An inline button. Of the actions that the repair does not touch it asks only whether one is
    there. -/
structure InlineKeyboardButton where
  text : List Char
  callbackData : Option (List Char) := none
  copyText : Option (List Char) := none
  disabled : Bool := false
  url : Option String := none
  webApp : Option String := none
  loginUrl : Option String := none
  switchInlineQuery : Option String := none
  switchInlineQueryCurrentChat : Option String := none
  switchInlineQueryChosenChat : Bool := false
  callbackGame : Bool := false
  pay : Bool := false
  deriving DecidableEq, Repr

/-- The rows of a keyboard. -/
abbrev Keyboard := List (List InlineKeyboardButton)

/-- The length of a text in UTF-8. -/
def utf8Length (text : List Char) : ℕ := (text.map Char.utf8Size).sum

/-- The callback that says that a text is too long to copy. -/
def copyAlert : List Char := "alert:copy_too_long".toList

/-- The callback that does nothing. -/
def ignored : List Char := "ignore".toList

namespace InlineKeyboardButton

/-- The button has an action of another kind. -/
def HasOtherAction (b : InlineKeyboardButton) : Prop :=
  (∃ url ∈ b.url, url ≠ "") ∨ b.webApp.isSome ∨ b.loginUrl.isSome ∨
    (∃ query ∈ b.switchInlineQuery, query ≠ "") ∨
    (∃ query ∈ b.switchInlineQueryCurrentChat, query ≠ "") ∨
    b.switchInlineQueryChosenChat ∨ b.callbackGame ∨ b.pay ∨ b.disabled

instance : DecidablePred HasOtherAction := fun b =>
  inferInstanceAs (Decidable ((∃ url ∈ b.url, url ≠ "") ∨ b.webApp.isSome ∨ b.loginUrl.isSome ∨
    (∃ query ∈ b.switchInlineQuery, query ≠ "") ∨
    (∃ query ∈ b.switchInlineQueryCurrentChat, query ≠ "") ∨
    b.switchInlineQueryChosenChat ∨ b.callbackGame ∨ b.pay ∨ b.disabled))

/-- What changes of a button; `none` where a field stays. -/
structure Updates where
  text : Option (List Char) := none
  copyText : Option (Option (List Char)) := none
  callbackData : Option (Option (List Char)) := none
  deriving DecidableEq, Repr

def updateText (b : InlineKeyboardButton) (u : Updates) : Updates :=
  if stripChars b.text = [] then { u with text := some ['—'] } else u

/-- A disabled button keeps no payload. -/
def updateDisabled (b : InlineKeyboardButton) (u : Updates) : Updates :=
  if b.disabled then
    { u with
      callbackData := if b.callbackData.isSome then some none else u.callbackData
      copyText := if b.copyText.isSome then some none else u.copyText }
  else u

/-- A copy text of a wrong length is dropped, and an alert takes its place where the button has no
    other action. -/
def updateCopyText (b : InlineKeyboardButton) (u : Updates) : Updates :=
  match b.copyText, u.copyText with
  | some copyText, none =>
    if 1 ≤ copyText.length ∧ copyText.length ≤ 256 then u
    else if b.HasOtherAction then { u with copyText := some none }
    else
      { u with
        copyText := some none
        callbackData := some (some copyAlert) }
  | _, _ => u

/-- Callback data of more than 64 bytes is neutralised. -/
def updateCallbackData (b : InlineKeyboardButton) (u : Updates) : Updates :=
  match b.callbackData, u.callbackData with
  | some callbackData, none =>
    if 64 < utf8Length callbackData then { u with callbackData := some (some ignored) }
    else u
  | _, _ => u

def updates (b : InlineKeyboardButton) : Updates :=
  b.updateCallbackData (b.updateCopyText (b.updateDisabled (b.updateText {})))

/-- The repaired button. -/
def sanitize (b : InlineKeyboardButton) : InlineKeyboardButton :=
  { b with
    text := b.updates.text.getD b.text
    copyText := b.updates.copyText.getD b.copyText
    callbackData := b.updates.callbackData.getD b.callbackData }

end InlineKeyboardButton

/-- A row of more than eight buttons is split. -/
def splitRow (row : List InlineKeyboardButton) : Keyboard :=
  if 8 < row.length then
    (List.range ((row.length + 7) / 8)).map fun k => Lib.Paging.page 8 k row
  else [row]

/-- The rows up to a hundred buttons, of which some are already kept. -/
def capRows (buttonsKept : ℕ) : Keyboard → Keyboard
  | [] => []
  | row :: rows =>
    if buttonsKept + row.length ≤ 100 then row :: capRows (buttonsKept + row.length) rows
    else if 0 < 100 - buttonsKept then [row.take (100 - buttonsKept)]
    else []

def totalButtons (rows : Keyboard) : ℕ := (rows.map List.length).sum

/-- `sanitize_reply_markup`. -/
def sanitizeReplyMarkup (keyboard : Keyboard) : Keyboard :=
  let rows := keyboard.flatMap fun row => splitRow (row.map InlineKeyboardButton.sanitize)
  if 100 < totalButtons rows then capRows 0 rows else rows

/-! ### A button -/

namespace InlineKeyboardButton
variable {b : InlineKeyboardButton}

/-- The button satisfies the limits; a label of white space counts as empty. -/
structure Fits (b : InlineKeyboardButton) : Prop where
  text : stripChars b.text ≠ []
  copyText : ∀ copyText ∈ b.copyText, 1 ≤ copyText.length ∧ copyText.length ≤ 256
  callbackData : ∀ callbackData ∈ b.callbackData,
    1 ≤ utf8Length callbackData ∧ utf8Length callbackData ≤ 64

/-- The button is disabled and has a payload all the same. -/
def Redundant (b : InlineKeyboardButton) : Prop :=
  b.disabled ∧ (b.callbackData.isSome ∨ b.copyText.isSome)

/-- What a repair asks of a button. -/
structure Settled (b : InlineKeyboardButton) : Prop where
  text : stripChars b.text ≠ []
  copyText : ∀ copyText ∈ b.copyText, 1 ≤ copyText.length ∧ copyText.length ≤ 256
  callbackData : ∀ callbackData ∈ b.callbackData, utf8Length callbackData ≤ 64
  payload : ¬ b.Redundant

theorem Fits.settled {b : InlineKeyboardButton} (h : b.Fits) (hredundant : ¬ b.Redundant) :
    b.Settled where
  text := h.text
  copyText := h.copyText
  callbackData := fun callbackData hcallback => (h.callbackData callbackData hcallback).2
  payload := hredundant

/-- The button, not disabled, has empty callback data. -/
def EmptyCallback (b : InlineKeyboardButton) : Prop := b.disabled = false ∧ b.callbackData = some []

@[simp] theorem updateDisabled_text (u : Updates) : (b.updateDisabled u).text = u.text := by
  rw [updateDisabled]
  split <;> rfl

@[simp] theorem updateCopyText_text (u : Updates) : (b.updateCopyText u).text = u.text := by
  rw [updateCopyText]
  split
  · split_ifs <;> rfl
  · rfl

@[simp] theorem updateCallbackData_text (u : Updates) :
    (b.updateCallbackData u).text = u.text := by
  rw [updateCallbackData]
  split
  · split_ifs <;> rfl
  · rfl

@[simp] theorem updateCallbackData_copyText (u : Updates) :
    (b.updateCallbackData u).copyText = u.copyText := by
  rw [updateCallbackData]
  split
  · split_ifs <;> rfl
  · rfl

@[simp] theorem updateText_copyText (u : Updates) : (b.updateText u).copyText = u.copyText := by
  rw [updateText]
  split <;> rfl

@[simp] theorem updateText_callbackData (u : Updates) :
    (b.updateText u).callbackData = u.callbackData := by
  rw [updateText]
  split <;> rfl

/-- The label of the repaired button. -/
theorem sanitize_text (b : InlineKeyboardButton) :
    b.sanitize.text = if stripChars b.text = [] then ['—'] else b.text := by
  simp only [sanitize, updates, updateCallbackData_text, updateCopyText_text, updateDisabled_text,
    updateText]
  split_ifs <;> rfl

/-- Its copy text: what is too short or too long is dropped, and all of a disabled button. -/
theorem sanitize_copyText (b : InlineKeyboardButton) :
    b.sanitize.copyText =
      if b.disabled then none
      else b.copyText.filter fun copyText => 1 ≤ copyText.length ∧ copyText.length ≤ 256 := by
  simp only [sanitize, updates, updateCallbackData_copyText]
  cases hdisabled : b.disabled <;> cases hcopy : b.copyText with
  | none => simp [updateCopyText, updateDisabled, hdisabled, hcopy]
  | some copyText =>
    by_cases hfits : 1 ≤ copyText.length ∧ copyText.length ≤ 256
    · simp [updateCopyText, updateDisabled, hdisabled, hcopy, hfits, Option.filter]
    · by_cases haction : b.HasOtherAction <;>
        simp [updateCopyText, updateDisabled, hdisabled, hcopy, hfits, haction, Option.filter]

/-- The button loses a copy text of a wrong length and has nothing else to do. -/
def NeedsAlert (b : InlineKeyboardButton) : Prop :=
  (∃ copyText ∈ b.copyText, ¬ (1 ≤ copyText.length ∧ copyText.length ≤ 256)) ∧ ¬ b.HasOtherAction

instance : DecidablePred NeedsAlert := fun b =>
  inferInstanceAs (Decidable ((∃ copyText ∈ b.copyText, _) ∧ ¬ b.HasOtherAction))

theorem not_needsAlert_of_disabled (h : b.disabled = true) : ¬ b.NeedsAlert := by
  simp [NeedsAlert, HasOtherAction, h]

/-- What of the callback data changes before its own length is looked at. -/
theorem callbackData_before (b : InlineKeyboardButton) :
    (b.updateCopyText (b.updateDisabled (b.updateText {}))).callbackData =
      if b.disabled ∧ b.callbackData.isSome then some none
      else if b.NeedsAlert then some (some copyAlert)
      else none := by
  cases hdisabled : b.disabled with
  | true =>
    have hnot := not_needsAlert_of_disabled hdisabled
    cases hcallback : b.callbackData <;> cases hcopy : b.copyText <;>
      simp [updateCopyText, updateDisabled, hdisabled, hcallback, hcopy, hnot]
  | false =>
    cases hcopy : b.copyText with
    | none => simp [updateCopyText, updateDisabled, hdisabled, hcopy, NeedsAlert]
    | some copyText =>
      by_cases hfits : 1 ≤ copyText.length ∧ copyText.length ≤ 256
      · simp [updateCopyText, updateDisabled, hdisabled, hcopy, hfits, NeedsAlert]
      · by_cases haction : b.HasOtherAction <;>
          simp [updateCopyText, updateDisabled, hdisabled, hcopy, hfits, haction, NeedsAlert]

/-- Its callback data. -/
theorem sanitize_callbackData (b : InlineKeyboardButton) :
    b.sanitize.callbackData =
      if b.disabled then none
      else if b.NeedsAlert then some copyAlert
      else b.callbackData.map fun callbackData =>
        if 64 < utf8Length callbackData then ignored else callbackData := by
  have hbefore := callbackData_before b
  simp only [sanitize, updates, updateCallbackData]
  cases hcallback : b.callbackData with
  | none =>
    rw [hcallback] at hbefore
    cases hdisabled : b.disabled with
    | true => simp [hbefore, not_needsAlert_of_disabled hdisabled]
    | false =>
      by_cases halert : b.NeedsAlert <;> simp [hbefore, halert]
  | some callbackData =>
    rw [hcallback] at hbefore
    cases hdisabled : b.disabled with
    | true =>
      rw [hdisabled] at hbefore
      simp [hbefore]
    | false =>
      rw [hdisabled] at hbefore
      by_cases halert : b.NeedsAlert
      · simp [hbefore, halert]
      · by_cases hlong : 64 < utf8Length callbackData <;> simp [hbefore, halert, hlong]

theorem sanitize_disabled (b : InlineKeyboardButton) : b.sanitize.disabled = b.disabled := rfl

/-- A button is equal to its repair exactly when the three fields are. -/
theorem sanitize_eq_iff : b.sanitize = b ↔
    b.sanitize.text = b.text ∧ b.sanitize.copyText = b.copyText ∧
      b.sanitize.callbackData = b.callbackData := by
  constructor
  · intro h
    rw [h]
    exact ⟨rfl, rfl, rfl⟩
  · rintro ⟨htext, hcopy, hcallback⟩
    cases b
    simp only [sanitize] at htext hcopy hcallback ⊢
    rw [htext, hcopy, hcallback]

/-- A button that asks for no repair stays. -/
theorem Settled.sanitize_eq (h : b.Settled) : b.sanitize = b := by
  have halert : ¬ b.NeedsAlert := fun halert => by
    obtain ⟨⟨copyText, hcopy, hlength⟩, -⟩ := halert
    exact hlength (h.copyText copyText hcopy)
  rw [sanitize_eq_iff, sanitize_text, if_neg h.text, sanitize_copyText, sanitize_callbackData,
    if_neg halert]
  cases hdisabled : b.disabled with
  | true =>
    have hnone : b.callbackData = none ∧ b.copyText = none := by
      simpa [Redundant, hdisabled] using h.payload
    simp [hnone]
  | false =>
    refine ⟨rfl, ?_, ?_⟩
    · cases hcopy : b.copyText with
      | none => rfl
      | some copyText => simp [Option.filter, h.copyText copyText hcopy]
    · cases hcallback : b.callbackData with
      | none => rfl
      | some callbackData =>
        have hshort : ¬ 64 < utf8Length callbackData := not_lt.mpr (h.callbackData _ hcallback)
        simp [hshort]

/-- A repaired button asks for no repair. -/
theorem settled_sanitize (b : InlineKeyboardButton) : b.sanitize.Settled := by
  refine ⟨?_, fun copyText hcopy => ?_, fun callbackData hcallback => ?_, ?_⟩
  · rw [sanitize_text]
    split_ifs with hblank
    · decide
    · exact hblank
  · rw [sanitize_copyText] at hcopy
    split_ifs at hcopy with hdisabled
    · cases hcopy
    · simpa using (Option.mem_filter_iff.mp hcopy).2
  · rw [sanitize_callbackData] at hcallback
    split_ifs at hcallback with hdisabled halert
    · cases hcallback
    · cases hcallback
      decide
    · obtain ⟨old, -, rfl⟩ := Option.map_eq_some_iff.mp hcallback
      split_ifs with hlong
      · decide
      · exact not_lt.mp hlong
  · rintro ⟨hdisabled, hpayload⟩
    rw [sanitize_disabled] at hdisabled
    rw [sanitize_callbackData, sanitize_copyText, if_pos hdisabled, if_pos hdisabled] at hpayload
    simp at hpayload

theorem sanitize_sanitize (b : InlineKeyboardButton) : b.sanitize.sanitize = b.sanitize :=
  (settled_sanitize b).sanitize_eq

theorem utf8Length_pos {text : List Char} (h : text ≠ []) : 1 ≤ utf8Length text := by
  cases text with
  | nil => exact absurd rfl h
  | cons c text =>
    have hc : 0 < c.utf8Size := Char.utf8Size_pos c
    rw [utf8Length, List.map_cons, List.sum_cons]
    omega

/-- The repaired button satisfies the limits, as far as its callback data was not empty. -/
theorem fits_sanitize (h : ¬ b.EmptyCallback) : b.sanitize.Fits := by
  have hsettled := settled_sanitize b
  refine ⟨hsettled.text, hsettled.copyText, fun callbackData hcallback => ?_⟩
  refine ⟨utf8Length_pos ?_, hsettled.callbackData callbackData hcallback⟩
  rintro rfl
  rw [Option.mem_def, sanitize_callbackData] at hcallback
  split_ifs at hcallback with hdisabled halert
  · cases hcallback
  · obtain ⟨old, hold, hempty⟩ := Option.map_eq_some_iff.mp hcallback
    split_ifs at hempty
    · cases hempty
    · exact h ⟨by simpa using hdisabled, by rw [hold, hempty]⟩

end InlineKeyboardButton

/-! ### The rows -/

theorem flatten_splitRow (row : List InlineKeyboardButton) : (splitRow row).flatten = row := by
  rw [splitRow]
  split_ifs with hlong
  · rw [← List.flatMap_def, Lib.Paging.flatMap_page, List.take_of_length_le (by omega)]
  · simp

theorem length_le_of_mem_splitRow {row part : List InlineKeyboardButton}
    (h : part ∈ splitRow row) : part.length ≤ 8 := by
  rw [splitRow] at h
  split_ifs at h with hlong
  · obtain ⟨k, -, rfl⟩ := List.mem_map.mp h
    rw [Lib.Paging.length_page]
    exact min_le_left ..
  · rw [List.mem_singleton.mp h]
    omega

theorem splitRow_of_le {row : List InlineKeyboardButton} (h : row.length ≤ 8) :
    splitRow row = [row] := if_neg (not_lt.mpr h)

theorem totalButtons_eq (rows : Keyboard) : totalButtons rows = rows.flatten.length := by
  rw [totalButtons, List.length_flatten]

/-- Capping keeps the first buttons. -/
theorem flatten_capRows {n : ℕ} (hn : n ≤ 100) (rows : Keyboard) :
    (capRows n rows).flatten = rows.flatten.take (100 - n) := by
  induction rows generalizing n with
  | nil => simp [capRows]
  | cons row rows ih =>
    rw [capRows, List.flatten_cons]
    split_ifs with hfits hsome
    · have hrow : row.take (100 - n) = row := List.take_of_length_le (by omega)
      rw [List.flatten_cons, ih hfits, List.take_append, hrow, Nat.sub_sub]
    · rw [List.flatten_singleton, List.take_append_of_le_length (by omega)]
    · rw [Nat.eq_zero_of_not_pos hsome]
      simp

theorem length_le_of_mem_capRows {n : ℕ} {rows : Keyboard} (h : ∀ row ∈ rows, row.length ≤ 8) :
    ∀ row ∈ capRows n rows, row.length ≤ 8 := by
  induction rows generalizing n with
  | nil => exact h
  | cons row rows ih =>
    obtain ⟨hrow, hrows⟩ := List.forall_mem_cons.mp h
    rw [capRows]
    split_ifs
    · exact List.forall_mem_cons.mpr ⟨hrow, ih hrows⟩
    · intro part hpart
      rw [List.mem_singleton.mp hpart]
      exact (List.length_take_le' ..).trans hrow
    · simp

/-! ### The keyboard -/

/-- The keyboard satisfies the limits. -/
structure Keyboard.Fits (keyboard : Keyboard) : Prop where
  rows : ∀ row ∈ keyboard, row.length ≤ 8
  total : keyboard.flatten.length ≤ 100
  buttons : ∀ b ∈ keyboard.flatten, b.Fits

/-- The rows before the total is capped. -/
theorem flatten_split (keyboard : Keyboard) :
    (keyboard.flatMap fun row => splitRow (row.map InlineKeyboardButton.sanitize)).flatten =
      keyboard.flatten.map InlineKeyboardButton.sanitize := by
  induction keyboard with
  | nil => rfl
  | cons row keyboard ih =>
    rw [List.flatMap_cons, List.flatten_append, ih, flatten_splitRow, List.flatten_cons,
      List.map_append]

/-- What is left are the first hundred repaired buttons. -/
theorem flatten_sanitizeReplyMarkup (keyboard : Keyboard) :
    (sanitizeReplyMarkup keyboard).flatten =
      (keyboard.flatten.map InlineKeyboardButton.sanitize).take 100 := by
  simp only [sanitizeReplyMarkup, totalButtons_eq, flatten_split]
  split_ifs with hmany
  · rw [flatten_capRows (Nat.zero_le _), flatten_split]
  · rw [flatten_split, List.take_of_length_le (not_lt.mp hmany)]

theorem length_le_of_mem_sanitizeReplyMarkup (keyboard : Keyboard) :
    ∀ row ∈ sanitizeReplyMarkup keyboard, row.length ≤ 8 := by
  have hsplit : ∀ row ∈ keyboard.flatMap fun row =>
      splitRow (row.map InlineKeyboardButton.sanitize), row.length ≤ 8 := by
    intro row hrow
    obtain ⟨_, -, hpart⟩ := List.mem_flatMap.mp hrow
    exact length_le_of_mem_splitRow hpart
  simp only [sanitizeReplyMarkup]
  split_ifs
  · exact length_le_of_mem_capRows hsplit
  · exact hsplit

/-- A keyboard of short rows that has no more than a hundred buttons, none of which asks for a
    repair, stays. -/
theorem sanitizeReplyMarkup_eq_self {keyboard : Keyboard} (hrows : ∀ row ∈ keyboard, row.length ≤ 8)
    (htotal : keyboard.flatten.length ≤ 100)
    (hbuttons : ∀ b ∈ keyboard.flatten, b.sanitize = b) :
    sanitizeReplyMarkup keyboard = keyboard := by
  have hsplit : (keyboard.flatMap fun row => splitRow (row.map InlineKeyboardButton.sanitize)) =
      keyboard := by
    have hrow : ∀ row ∈ keyboard, splitRow (row.map InlineKeyboardButton.sanitize) = [row] := by
      intro row hrow
      have hsame : row.map InlineKeyboardButton.sanitize = row :=
        (List.map_congr_left fun b hb => hbuttons b (List.mem_flatten.mpr ⟨row, hrow, hb⟩)).trans
          (List.map_id _)
      rw [hsame, splitRow_of_le (hrows row hrow)]
    rw [List.flatMap_congr hrow, List.flatMap_singleton']
  simp only [sanitizeReplyMarkup]
  rw [hsplit, totalButtons_eq, if_neg (not_lt.mpr htotal)]

/-- What the repair gives: a keyboard within the limits, as far as no callback data was empty, with
    the first hundred repaired buttons in their order; it leaves a keyboard within the limits that
    has no redundant payload, and its own result. -/
theorem sanitizeReplyMarkup_spec (keyboard : Keyboard) :
    (∀ row ∈ sanitizeReplyMarkup keyboard, row.length ≤ 8) ∧
    (sanitizeReplyMarkup keyboard).flatten.length ≤ 100 ∧
    (∀ b ∈ (sanitizeReplyMarkup keyboard).flatten, b.Settled) ∧
    ((∀ b ∈ keyboard.flatten, ¬ b.EmptyCallback) → (sanitizeReplyMarkup keyboard).Fits) ∧
    (sanitizeReplyMarkup keyboard).flatten =
      (keyboard.flatten.map InlineKeyboardButton.sanitize).take 100 ∧
    (keyboard.Fits → (∀ b ∈ keyboard.flatten, ¬ b.Redundant) →
      sanitizeReplyMarkup keyboard = keyboard) ∧
    sanitizeReplyMarkup (sanitizeReplyMarkup keyboard) = sanitizeReplyMarkup keyboard := by
  have hflatten := flatten_sanitizeReplyMarkup keyboard
  have hrows := length_le_of_mem_sanitizeReplyMarkup keyboard
  have htotal : (sanitizeReplyMarkup keyboard).flatten.length ≤ 100 := by
    rw [hflatten]
    exact List.length_take_le ..
  have hbuttons : ∀ b ∈ (sanitizeReplyMarkup keyboard).flatten,
      ∃ old ∈ keyboard.flatten, old.sanitize = b := by
    intro b hb
    rw [hflatten] at hb
    exact List.mem_map.mp (List.mem_of_mem_take hb)
  refine ⟨hrows, htotal, fun b hb => ?_, fun hfull => ⟨hrows, htotal, fun b hb => ?_⟩, hflatten,
    fun hfits hpayload => ?_, ?_⟩
  · obtain ⟨old, -, rfl⟩ := hbuttons b hb
    exact old.settled_sanitize
  · obtain ⟨old, hold, rfl⟩ := hbuttons b hb
    exact InlineKeyboardButton.fits_sanitize (hfull old hold)
  · exact sanitizeReplyMarkup_eq_self hfits.rows hfits.total fun b hb =>
      ((hfits.buttons b hb).settled (hpayload b hb)).sanitize_eq
  · refine sanitizeReplyMarkup_eq_self hrows htotal fun b hb => ?_
    obtain ⟨old, -, rfl⟩ := hbuttons b hb
    exact old.sanitize_sanitize

/-- Two buttons, the first with nothing wrong. -/
def twoButtons : Keyboard :=
  [[{ text := ['a'], callbackData := some ['b'] }, { text := [' '], copyText := some [] }]]

theorem sanitizeReplyMarkup_spec_two :
    (sanitizeReplyMarkup twoButtons).Fits ∧ sanitizeReplyMarkup [twoButtons.flatten.take 1] =
      [twoButtons.flatten.take 1] := by
  obtain ⟨-, -, -, hfits, -⟩ := sanitizeReplyMarkup_spec twoButtons
  obtain ⟨-, -, -, -, -, hsame, -⟩ := sanitizeReplyMarkup_spec [twoButtons.flatten.take 1]
  refine ⟨hfits ?_, hsame ⟨by decide, by decide, ?_⟩ ?_⟩
  · simp [twoButtons, InlineKeyboardButton.EmptyCallback]
  · intro b hb
    obtain rfl := List.mem_singleton.mp hb
    exact ⟨by decide, by simp, by decide⟩
  · intro b hb
    obtain rfl := List.mem_singleton.mp hb
    simp [InlineKeyboardButton.Redundant]

/-- A disabled button loses its callback data, although it is within the limits. -/
theorem sanitizeReplyMarkup_disabled :
    ∃ keyboard : Keyboard, keyboard.Fits ∧ sanitizeReplyMarkup keyboard ≠ keyboard := by
  refine ⟨[[{ text := ['a'], callbackData := some ['b'], disabled := true }]],
    ⟨by decide, by decide, fun b hb => ?_⟩, by decide⟩
  obtain rfl := List.mem_singleton.mp hb
  exact ⟨by decide, by simp, by decide⟩

end Just1kBot
