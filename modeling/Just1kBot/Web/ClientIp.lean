import Just1kBot.Lib.IpAddress
import Just1kBot.Lib.Python

/-! The client address of a request (`_is_trusted_proxy_peer` and `get_trusted_client_ip` of
    `utils/http_rate_limiter.py`).

    Only a trusted peer is asked for the client's address. In X-Forwarded-For every hop adds to the
    right, so the rightmost address that is no trusted proxy is the client's, whatever the client
    itself put to the left of it. -/

namespace Just1kBot

open Lib.IpAddress (ipAddress ipNetwork)
open Lib.Python (stripChars)

/-- The items of a comma-separated text, stripped, without the empty ones. -/
def commaItems (text : List Char) : List (List Char) :=
  ((text.splitOn ',').map stripChars).filter fun item => item ≠ []

/-- `trusted_proxies`, as one text or as a list, set or tuple of items. -/
inductive TrustedProxies
  | text (proxies : List Char)
  | items (proxies : List (List Char))

def TrustedProxies.trustedItems : TrustedProxies → List (List Char)
  | .text proxies => commaItems proxies
  | .items proxies => proxies

/-- The `trusted_proxies` of the application, if it has any, and `TRUSTED_PROXIES` of the settings,
    if these can be read. -/
structure ProxyConfig where
  app : Option TrustedProxies
  settings : Option (List Char)

namespace ProxyConfig

def fallback : List Char := "127.0.0.1,::1,10.0.0.0/8,172.16.0.0/12,192.168.0.0/16".toList

/-- The proxies that are trusted. -/
def trusted (c : ProxyConfig) : TrustedProxies :=
  c.app.getD (.text (c.settings.getD fallback))

end ProxyConfig

/-- What of a request decides its client address. -/
structure WebRequest where
  remote : Option (List Char)
  realIp : Option (List Char)
  forwardedFor : Option (List Char)

/-- The address of a peer matches an item of the trusted ones, which is a network if it has a
    slash. An item that cannot be read matches nothing. -/
def matchesItem (ip : Lib.IpAddress.Address) (item : List Char) : Bool :=
  if '/' ∈ item then
    match ipNetwork item with
    | some network => network.contains ip
    | none => false
  else ipAddress item = some ip

/-- `_is_trusted_proxy_peer`. -/
def isTrustedProxyPeer (peerIp : List Char) (trustedProxies : TrustedProxies) : Bool :=
  match ipAddress peerIp with
  | some ip => trustedProxies.trustedItems.any (matchesItem ip)
  | none => false

namespace WebRequest

/-- `request.remote or "127.0.0.1"`. -/
def peerIp (r : WebRequest) : List Char :=
  match r.remote with
  | some (c :: cs) => c :: cs
  | _ => "127.0.0.1".toList

/-- The X-Real-IP, if it is an address. -/
def validRealIp (r : WebRequest) : Option (List Char) :=
  (r.realIp.map stripChars).filter fun candidate => (ipAddress candidate).isSome

/-- The address of the client from X-Forwarded-For: the rightmost one that is not trusted, or else
    the leftmost one. -/
def forwardedIp (trustedProxies : TrustedProxies) (forwarded : List Char) : Option (List Char) :=
  let ips := commaItems forwarded
  (ips.reverse.find? fun rawIp =>
    (ipAddress rawIp).isSome ∧ ¬ isTrustedProxyPeer rawIp trustedProxies).or
      (ips.find? fun rawIp => (ipAddress rawIp).isSome)

/-- `get_trusted_client_ip`. -/
def clientIp (c : ProxyConfig) (r : WebRequest) : List Char :=
  if isTrustedProxyPeer r.peerIp c.trusted then
    (r.validRealIp.or (r.forwardedFor.bind (forwardedIp c.trusted))).getD r.peerIp
  else r.peerIp

end WebRequest

/-! ### The suffix decides -/

/-- `x` is the last element of the list that has the property. -/
def IsRightmost {α : Type*} (P : α → Prop) (l : List α) (x : α) : Prop :=
  ∃ left right, l = left ++ x :: right ∧ P x ∧ ∀ y ∈ right, ¬ P y

theorem IsRightmost.append {α : Type*} {P : α → Prop} {l : List α} {x : α}
    (h : IsRightmost P l x) (l' : List α) : IsRightmost P (l' ++ l) x := by
  obtain ⟨left, right, rfl, hx, hright⟩ := h
  exact ⟨l' ++ left, right, (List.append_assoc ..).symm, hx, hright⟩

theorem exists_isRightmost {α : Type*} {P : α → Prop} {l : List α} (h : ∃ x ∈ l, P x) :
    ∃ x, IsRightmost P l x := by
  induction l with
  | nil =>
    obtain ⟨x, hx, -⟩ := h
    cases hx
  | cons y l ih =>
    by_cases hl : ∃ x ∈ l, P x
    · obtain ⟨x, hx⟩ := ih hl
      exact ⟨x, hx.append [y]⟩
    · have hnone : ∀ x ∈ l, ¬ P x := fun x hx hP => hl ⟨x, hx, hP⟩
      obtain ⟨x, hx, hP⟩ := h
      rcases List.mem_cons.mp hx with rfl | hx
      · exact ⟨x, [], l, rfl, hP, hnone⟩
      · exact absurd hP (hnone x hx)

/-- A search from the right finds the rightmost element. -/
theorem IsRightmost.find?_reverse {α : Type*} {P : α → Prop} [DecidablePred P] {l : List α} {x : α}
    (h : IsRightmost P l x) : l.reverse.find? P = some x := by
  obtain ⟨left, right, rfl, hx, hright⟩ := h
  rw [List.find?_eq_some_iff_append]
  refine ⟨by simpa using hx, right.reverse, left.reverse, by simp, fun y hy => ?_⟩
  simpa using hright y (List.mem_reverse.mp hy)

theorem commaItems_append (front suffix : List Char) :
    commaItems (front ++ ',' :: suffix) = commaItems front ++ commaItems suffix := by
  rw [commaItems, List.splitOn_append_cons_self, List.map_append, List.filter_append]
  rfl

/-- The value of a header with something put before the suffix, or nothing. -/
def withFront (front : Option (List Char)) (suffix : List Char) : List Char :=
  match front with
  | some front => front ++ ',' :: suffix
  | none => suffix

/-- The item is an address, of no trusted proxy. -/
def ValidUntrusted (c : ProxyConfig) (rawIp : List Char) : Prop :=
  (ipAddress rawIp).isSome ∧ ¬ isTrustedProxyPeer rawIp c.trusted

instance (c : ProxyConfig) : DecidablePred (ValidUntrusted c) := fun rawIp =>
  inferInstanceAs (Decidable ((ipAddress rawIp).isSome ∧ ¬ isTrustedProxyPeer rawIp c.trusted))

theorem isRightmost_withFront {P : List Char → Prop} {front : Option (List Char)}
    {suffix x : List Char} (h : IsRightmost P (commaItems suffix) x) :
    IsRightmost P (commaItems (withFront front suffix)) x := by
  cases front with
  | none => exact h
  | some front =>
    rw [withFront, commaItems_append]
    exact h.append _

/-- Without a valid X-Real-IP the client of a trusted peer is the rightmost untrusted address. -/
theorem clientIp_eq {c : ProxyConfig} {r : WebRequest} {forwarded x : List Char}
    (htrusted : isTrustedProxyPeer r.peerIp c.trusted) (hreal : r.validRealIp = none)
    (hforwarded : r.forwardedFor = some forwarded)
    (h : IsRightmost (ValidUntrusted c) (commaItems forwarded) x) : r.clientIp c = x := by
  have hfound : WebRequest.forwardedIp c.trusted forwarded = some x := by
    have hfind := h.find?_reverse
    rw [WebRequest.forwardedIp, Option.or_eq_some_iff]
    exact .inl hfind
  rw [WebRequest.clientIp, if_pos htrusted, hreal, hforwarded, Option.none_or,
    Option.bind_some, hfound, Option.getD_some]

/-- Two requests of trusted peers whose X-Forwarded-For end alike have the same client, the
    rightmost untrusted address of what they share; and the headers of an untrusted peer do not
    matter. -/
theorem client_address_unspoofable (c : ProxyConfig) :
    (∀ (r r' : WebRequest) (front front' : Option (List Char)) (suffix : List Char),
      isTrustedProxyPeer r.peerIp c.trusted → isTrustedProxyPeer r'.peerIp c.trusted →
      r.validRealIp = none → r'.validRealIp = none →
      r.forwardedFor = some (withFront front suffix) →
      r'.forwardedFor = some (withFront front' suffix) →
      (∃ x ∈ commaItems suffix, ValidUntrusted c x) →
        ∃ x, IsRightmost (ValidUntrusted c) (commaItems suffix) x ∧
          r.clientIp c = x ∧ r'.clientIp c = x) ∧
    ∀ r r' : WebRequest, r.remote = r'.remote → ¬ isTrustedProxyPeer r.peerIp c.trusted →
      r.clientIp c = r.peerIp ∧ r'.clientIp c = r.clientIp c := by
  refine ⟨?_, ?_⟩
  · intro r r' front front' suffix htrusted htrusted' hreal hreal' hforwarded hforwarded' hsome
    obtain ⟨x, hx⟩ := exists_isRightmost hsome
    exact ⟨x, hx, clientIp_eq htrusted hreal hforwarded (isRightmost_withFront hx),
      clientIp_eq htrusted' hreal' hforwarded' (isRightmost_withFront hx)⟩
  · intro r r' hremote huntrusted
    have hpeer : r'.peerIp = r.peerIp := by rw [WebRequest.peerIp, WebRequest.peerIp, hremote]
    have hclient : r.clientIp c = r.peerIp := if_neg huntrusted
    have hclient' : r'.clientIp c = r'.peerIp := if_neg (hpeer ▸ huntrusted)
    exact ⟨hclient, by rw [hclient', hclient, hpeer]⟩

/-- Proxies of a private network. -/
def privateProxies : ProxyConfig where
  app := some (.text "10.0.0.0/8".toList)
  settings := none

/-- A request that came through one of them. -/
def proxied (forwarded : String) : WebRequest where
  remote := some "10.0.0.5".toList
  realIp := none
  forwardedFor := some forwarded.toList

theorem client_address_unspoofable_proxied :
    (proxied "185.71.76.11, ::1, 198.51.100.7, bad,, 10.0.0.9").clientIp privateProxies =
      (proxied " 198.51.100.7, bad,, 10.0.0.9").clientIp privateProxies := by
  obtain ⟨x, -, hspoofed, hplain⟩ := (client_address_unspoofable privateProxies).1
    (proxied "185.71.76.11, ::1, 198.51.100.7, bad,, 10.0.0.9")
    (proxied " 198.51.100.7, bad,, 10.0.0.9") (some "185.71.76.11, ::1".toList) none
    " 198.51.100.7, bad,, 10.0.0.9".toList (by decide +kernel) (by decide +kernel)
    (by decide +kernel) (by decide +kernel) (by decide +kernel) rfl (by decide +kernel)
  rw [hspoofed, hplain]

end Just1kBot
