import Just1kBot.Orders.Terms

/-! Asking the gateway for a payment: `YooKassaService._request`, and `create_payment_url` of
    `YooKassaGateway`.

    The gateway creates the payment when the request reaches it, whatever the client then sees of the
    answer. An order is rolled back only where the client takes its request for refused, so the
    answers that it takes for a refusal, and that need not be one, are told apart here. -/

namespace Just1kBot

/-! ### JSON -/

/-- What `json.loads` returns; the keys of an object differ. -/
inductive JsonValue
  | null
  | bool (b : Bool)
  | number (q : ℚ)
  | str (s : String)
  | array (xs : List JsonValue)
  | object (items : List (String × JsonValue))

namespace JsonValue

def truthy : JsonValue → Bool
  | null => false
  | bool b => b
  | number q => q ≠ 0
  | str s => s ≠ ""
  | array xs => !xs.isEmpty
  | object items => !items.isEmpty

/-- `items.get(key)`, where it is not replaced by a default. -/
def item (key : String) (items : List (String × JsonValue)) : Option JsonValue :=
  (items.lookup key).filter truthy

/-- `(items.get(key) or "").strip()`, which only a string has. -/
def strippedText (key : String) (items : List (String × JsonValue)) : Option String :=
  match item key items with
  | none => some ""
  | some (str s) => some (Lib.Python.strip s)
  | some _ => none

end JsonValue
open JsonValue (item strippedText)

/-! ### The transport -/

inductive YooKassaErrorKind
  | authFailed | validationFailed | notFound | rateLimited | serverError | networkError | timeout
  | invalidResponse | unknown
  deriving DecidableEq, Repr

structure YooKassaResult where
  ok : Bool
  value : Option (List (String × JsonValue)) := none
  errorKind : Option YooKassaErrorKind := none
  statusCode : Option ℕ := none
  retryable : Bool := false
  ambiguous : Bool := false

/-- How the body of a response cannot be read. -/
inductive ReadFailure
  | timeout | clientError | invalidJson | unexpected
  deriving DecidableEq, Repr

/-- What the client sees of a request: a response with its status and its body, or an exception. -/
inductive HttpOutcome
  | response (code : ℕ) (body : Except ReadFailure JsonValue)
  | timeout
  | clientError
  | unexpected

/-- A response whose body cannot be read. -/
def unreadable (code : ℕ) (ambiguous : Bool) : ReadFailure → YooKassaResult
  | .timeout =>
    { ok := false, errorKind := some .timeout, statusCode := some code, retryable := true,
      ambiguous }
  | .clientError =>
    { ok := false, errorKind := some .networkError, statusCode := some code, retryable := true,
      ambiguous }
  | .invalidJson =>
    { ok := false, errorKind := some .invalidResponse, statusCode := some code,
      retryable := 200 ≤ code && code < 300 || 500 ≤ code, ambiguous }
  | .unexpected =>
    { ok := false, errorKind := some .unknown, statusCode := some code, ambiguous }

/-- The kind of a status that is no success. -/
def errorKindOf (code : ℕ) : YooKassaErrorKind :=
  if code = 401 ∨ code = 403 then .authFailed
  else if code = 404 then .notFound
  else if code = 429 then .rateLimited
  else if 500 ≤ code then .serverError
  else .validationFailed

/-- What `_request` makes of a request that was sent. -/
def sent (ambiguousOnFailure : Bool) : HttpOutcome → YooKassaResult
  | .response code (.error failure) =>
    unreadable code (ambiguousOnFailure && !(400 ≤ code && code < 500)) failure
  | .response code (.ok data) =>
    if 200 ≤ code ∧ code < 300 then
      match data with
      | .object items => { ok := true, value := some items, statusCode := some code }
      | _ =>
        { ok := false, errorKind := some .invalidResponse, statusCode := some code,
          retryable := true, ambiguous := ambiguousOnFailure && !(400 ≤ code && code < 500) }
    else
      { ok := false, errorKind := some (errorKindOf code), statusCode := some code,
        retryable := code = 429 || 500 ≤ code, ambiguous := ambiguousOnFailure && 500 ≤ code }
  | .timeout =>
    { ok := false, errorKind := some .timeout, retryable := true, ambiguous := ambiguousOnFailure }
  | .clientError =>
    { ok := false, errorKind := some .networkError, retryable := true,
      ambiguous := ambiguousOnFailure }
  | .unexpected => { ok := false, errorKind := some .unknown }

/-- `_request`; where the key is too long nothing is sent. -/
def request (idempotencyKey : Option String) (ambiguousOnFailure : Bool) (outcome : HttpOutcome) :
    YooKassaResult :=
  if idempotencyKey.any fun key => 64 < key.length then
    { ok := false, errorKind := some .validationFailed }
  else sent ambiguousOnFailure outcome

/-! ### The payment -/

/-- The hexadecimal digits of a UUID. -/
def uuidDigits (id : ℕ) : List Char :=
  (List.range 32).map fun i => Nat.digitChar (id / 16 ^ (31 - i) % 16)

/-- Digits in groups, with dashes between them. -/
def dashed : List ℕ → List Char → List Char
  | [], digits => digits
  | n :: ns, digits => digits.take n ++ '-' :: dashed ns (digits.drop n)

/-- The text of a UUID. -/
def uuidText (id : ℕ) : String := String.ofList (dashed [8, 4, 4, 4] (uuidDigits id))

/-- What `create_payment_url` asks for; the address to return to does not matter here. -/
structure PaymentPayload where
  value : String
  currency : String := "RUB"
  capture : Bool := true
  description : String
  orderId : OrderId
  deriving DecidableEq, Repr

/-- The payment of an order, in the terms of its row. -/
def Order.payload (o : Order) : PaymentPayload where
  value := s!"{o.amountRub}.00"
  description := String.ofList ((o.description.getD "").toList.take 128)
  orderId := o.id

/-- The link in a response, where `confirmation` is an object with a text for it. -/
def confirmationUrl (items : List (String × JsonValue)) : Option String :=
  match item "confirmation" items with
  | none => some ""
  | some (.object fields) => strippedText "confirmation_url" fields
  | some _ => none

/-- The invoice in a response; an attribute that is missing raises an `AttributeError`. -/
def invoiceOf (items : List (String × JsonValue)) : InvoiceAnswer :=
  match strippedText "id" items with
  | none => .failed (.typeError "object has no attribute 'strip'")
  | some externalId =>
    match confirmationUrl items with
    | none => .failed (.typeError "object has no attribute")
    | some url => if externalId = "" ∨ url = "" then .ambiguous else .invoice externalId url

/-- What `create_payment_url` makes of the result of its request. -/
def paymentInvoice (result : YooKassaResult) : InvoiceAnswer :=
  match result.value.filter fun items => result.ok && !items.isEmpty with
  | none =>
    if result.ambiguous then .ambiguous
    else .failed (.runtimeError "YooKassa payment creation error")
  | some items => invoiceOf items

/-- `create_payment_url`. -/
def createPaymentUrl (orderId : OrderId) (outcome : HttpOutcome) : InvoiceAnswer :=
  paymentInvoice (request (some ("order_" ++ uuidText orderId)) true outcome)

/-! ### What is taken for a refusal -/

/-- A text, or nothing that would be taken for one. -/
def HasText (key : String) (items : List (String × JsonValue)) : Prop :=
  match item key items with
  | none | some (.str _) => True
  | some _ => False

/-- The parts of a payment object that are read have the types they should have. -/
def HasConfirmation (items : List (String × JsonValue)) : Prop :=
  match item "confirmation" items with
  | none => True
  | some (.object fields) => HasText "confirmation_url" fields
  | some _ => False

instance (key : String) (items : List (String × JsonValue)) : Decidable (HasText key items) := by
  unfold HasText
  split <;> infer_instance

instance (items : List (String × JsonValue)) : Decidable (HasConfirmation items) := by
  unfold HasConfirmation
  split <;> infer_instance

namespace HttpOutcome

/-- The gateway refused the request: a status of 400 to 499 says that nothing was created. -/
def Refused : HttpOutcome → Prop
  | response code _ => 400 ≤ code ∧ code < 500
  | _ => False

/-- The request is taken for failed, though nothing says that the gateway refused it: an exception
    that is none of the client's own, a readable status outside the successes that is no error, and
    a success without any item or with items of other types. -/
def Misread : HttpOutcome → Prop
  | unexpected => True
  | response code (.ok (.object items)) => code < 200 ∨ 300 ≤ code ∧ code < 400 ∨
      code < 300 ∧ (items.isEmpty = true ∨ ¬ (HasText "id" items ∧ HasConfirmation items))
  | response code (.ok _) => code < 200 ∨ 300 ≤ code ∧ code < 400
  | _ => False

instance (outcome : HttpOutcome) : Decidable outcome.Refused := by
  unfold Refused
  split <;> infer_instance

instance (outcome : HttpOutcome) : Decidable outcome.Misread := by
  unfold Misread
  split <;> infer_instance

end HttpOutcome

/-! ### Which answers fail -/

theorem length_dashed (ns : List ℕ) (digits : List Char) (h : ns.sum ≤ digits.length) :
    (dashed ns digits).length = digits.length + ns.length := by
  induction ns generalizing digits with
  | nil => rfl
  | cons n ns ih =>
    rw [List.sum_cons] at h
    have hrest := ih (digits.drop n) (by rw [List.length_drop]; omega)
    rw [List.length_drop] at hrest
    simp only [dashed, List.length_append, List.length_cons, List.length_take, hrest]
    omega

/-- The key of an order is short enough. -/
theorem idempotencyKey_sent (id : OrderId) : ¬ 64 < ("order_" ++ uuidText id).length := by
  have hdigits : (uuidDigits id).length = 32 := by
    rw [uuidDigits, List.length_map, List.length_range]
  have htext : (uuidText id).length = 36 := by
    rw [uuidText, String.length_ofList, length_dashed, hdigits]
    · rfl
    · rw [hdigits]
      decide
  rw [String.length_append, htext]
  decide

theorem strippedText_eq_none_iff {key : String} {items : List (String × JsonValue)} :
    strippedText key items = none ↔ ¬ HasText key items := by
  rw [strippedText, HasText]
  cases item key items with
  | none => simp
  | some v => cases v <;> simp

theorem confirmationUrl_eq_none_iff {items : List (String × JsonValue)} :
    confirmationUrl items = none ↔ ¬ HasConfirmation items := by
  rw [confirmationUrl, HasConfirmation]
  cases item "confirmation" items with
  | none => simp
  | some v => cases v <;> simp [strippedText_eq_none_iff]

theorem invoiceOf_failed_iff {items : List (String × JsonValue)} :
    (∃ err, invoiceOf items = .failed err) ↔ ¬ (HasText "id" items ∧ HasConfirmation items) := by
  rw [invoiceOf]
  cases hid : strippedText "id" items with
  | none => exact iff_of_true ⟨_, rfl⟩ fun h => strippedText_eq_none_iff.mp hid h.1
  | some externalId =>
    cases hurl : confirmationUrl items with
    | none => exact iff_of_true ⟨_, rfl⟩ fun h => confirmationUrl_eq_none_iff.mp hurl h.2
    | some url =>
      have htext : HasText "id" items := by
        by_contra h
        exact Option.some_ne_none _ (hid.symm.trans (strippedText_eq_none_iff.mpr h))
      have hconfirmation : HasConfirmation items := by
        by_contra h
        exact Option.some_ne_none _ (hurl.symm.trans (confirmationUrl_eq_none_iff.mpr h))
      refine iff_of_false ?_ (not_not_intro ⟨htext, hconfirmation⟩)
      rintro ⟨err, h⟩
      dsimp only at h
      split_ifs at h

/-- The link of an invoice is not empty. -/
theorem invoiceOf_url {items : List (String × JsonValue)} {externalId url : String}
    (h : invoiceOf items = .invoice externalId url) : url ≠ "" := by
  rw [invoiceOf] at h
  cases hid : strippedText "id" items with
  | none =>
    rw [hid] at h
    cases h
  | some externalId' =>
    cases hurl : confirmationUrl items with
    | none =>
      rw [hid, hurl] at h
      cases h
    | some url' =>
      rw [hid, hurl] at h
      dsimp only at h
      split_ifs at h with hempty
      cases h
      exact fun hurl => hempty (.inr hurl)

theorem createPaymentUrl_eq (id : OrderId) (outcome : HttpOutcome) :
    createPaymentUrl id outcome = paymentInvoice (sent true outcome) := by
  rw [createPaymentUrl, request, Option.any_some, if_neg]
  rw [decide_eq_true_eq]
  exact idempotencyKey_sent id

/-- A result without a payment fails unless it is ambiguous. -/
theorem paymentInvoice_failed_of_none {result : YooKassaResult}
    (h : (result.value.filter fun items => result.ok && !items.isEmpty) = none) :
    (∃ err, paymentInvoice result = .failed err) ↔ result.ambiguous = false := by
  rw [paymentInvoice, h]
  cases result.ambiguous with
  | false => exact iff_of_true ⟨_, rfl⟩ rfl
  | true => exact iff_of_false nofun nofun

theorem sent_of_not_ok {code : ℕ} (h : ¬ (200 ≤ code ∧ code < 300)) (ambiguous : Bool)
    (data : JsonValue) : sent ambiguous (.response code (.ok data)) =
      { ok := false, errorKind := some (errorKindOf code), statusCode := some code,
        retryable := code = 429 || 500 ≤ code, ambiguous := ambiguous && 500 ≤ code } := by
  cases data <;> exact if_neg h

/-- `create_payment_url` fails, and its order is rolled back, exactly where the gateway refused the
    request and where its answer is misread. -/
theorem createPaymentUrl_failed_iff {id : OrderId} {outcome : HttpOutcome} :
    (∃ err, createPaymentUrl id outcome = .failed err) ↔ outcome.Refused ∨ outcome.Misread := by
  rw [createPaymentUrl_eq]
  cases outcome with
  | timeout => exact iff_of_false nofun (or_self_iff.not.mpr not_false)
  | clientError => exact iff_of_false nofun (or_self_iff.not.mpr not_false)
  | unexpected => exact iff_of_true ⟨_, rfl⟩ (.inr trivial)
  | response code body =>
    cases body with
    | error failure =>
      rw [paymentInvoice_failed_of_none (by cases failure <;> rfl)]
      simp only [HttpOutcome.Refused, HttpOutcome.Misread, or_false]
      cases failure <;> simp [sent, unreadable]
    | ok data =>
      by_cases hok : 200 ≤ code ∧ code < 300
      · cases data with
        | object items =>
          rw [sent, if_pos hok]
          simp only [HttpOutcome.Refused, HttpOutcome.Misread]
          cases items with
          | nil =>
            rw [paymentInvoice_failed_of_none rfl]
            exact iff_of_true rfl (.inr (.inr (.inr ⟨hok.2, .inl rfl⟩)))
          | cons item items =>
            rw [show paymentInvoice _ = invoiceOf (item :: items) from rfl, invoiceOf_failed_iff]
            constructor
            · exact fun h => .inr (.inr (.inr ⟨hok.2, .inr h⟩))
            · rintro (h | h | h | ⟨-, h | h⟩)
              · omega
              · omega
              · omega
              · cases h
              · exact h
        | _ =>
          rw [sent, if_pos hok, paymentInvoice_failed_of_none rfl]
          · simp only [HttpOutcome.Refused, HttpOutcome.Misread]
            simp
            omega
          · exact nofun
      · rw [sent_of_not_ok hok, paymentInvoice_failed_of_none rfl, Bool.true_and,
          decide_eq_false_iff_not]
        cases data <;> simp only [HttpOutcome.Refused, HttpOutcome.Misread] <;> omega

/-- The link of an invoice is not empty. -/
theorem createPaymentUrl_url {id : OrderId} {outcome : HttpOutcome} {externalId url : String}
    (h : createPaymentUrl id outcome = .invoice externalId url) : url ≠ "" := by
  rw [createPaymentUrl_eq, paymentInvoice] at h
  split at h
  · split_ifs at h
  · exact invoiceOf_url h

end Just1kBot
