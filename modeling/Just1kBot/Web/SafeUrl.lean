import Just1kBot.Lib.IpClasses
import Just1kBot.Lib.Python
import Just1kBot.Lib.Url

/-! The guard against requests to internal addresses: `is_safe_url`, `SafeResolver` and
    `is_ip_allowed` of `utils/security.py`.

    Names are blocked by their text, and addresses by their class. -/

namespace Just1kBot
open Lib
open Lib.IpAddress (Address ipAddress)

/-- `_BLOCKED_HOSTNAMES`. -/
def blockedHostnames : List (List Char) :=
  ["169.254.169.254".toList, "metadata.google.internal".toList, "100.100.100.200".toList,
    "169.254.170.2".toList]

/-- `_LOCAL_HOSTNAMES`. -/
def localHostnames : List (List Char) :=
  ["localhost".toList, "127.0.0.1".toList, "::1".toList, "0.0.0.0".toList]

/-- `ALLOW_LOCAL_HTTP` and `ALLOW_LOCAL_HTTPS`. -/
structure LocalAccess where
  http : Bool := false
  https : Bool := false

/-- `text.strip("[]")`. -/
def stripBrackets (text : List Char) : List Char :=
  let bracket := fun c : Char => decide (c = '[' ∨ c = ']')
  ((text.dropWhile bracket).reverse.dropWhile bracket).reverse

/-- `_host_is_localish`. -/
def hostIsLocalish (u : Url.Unicode) (hostname : List Char) : Bool :=
  let h := stripBrackets (Python.stripChars (u.lower hostname))
  if h = [] then false
  else if h ∈ localHostnames then true
  else
    match ipAddress h with
    | none => false
    | some ip =>
      if ip.isLinkLocal || ip.isReserved || ip.isMulticast then false
      else ip.isLoopback || ip.isPrivate || ip.isUnspecified

/-- `is_ip_allowed`. -/
def isIpAllowed (ip : Address) (allowLocal : Bool) : Bool :=
  let ip := ip.unmapped
  if ip.isLinkLocal || ip.isReserved || ip.isMulticast then false
  else if ip.isLoopback || ip.isPrivate || ip.isUnspecified then allowLocal
  else true

/-- `SafeResolver.resolve`, of the `host` fields of the records. `answer` is what the resolver it is
    built on returns, if it returns. -/
def SafeResolver.resolve (u : Url.Unicode) (allowLocal : Bool) (answer : Option (List (List Char)))
    (host : List Char) : Option (List (List Char)) :=
  if u.lower host ∈ blockedHostnames then none
  else do
    let records ← answer
    let allowForHost := allowLocal && hostIsLocalish u host
    let safeRecords := records.filter fun record =>
      (ipAddress record).any fun ip => isIpAllowed ip allowForHost
    if safeRecords = [] then none else some safeRecords

/-- `_resolved_ips_are_safe`. The answer is missing when the resolution fails or takes too long. -/
def resolvedIpsAreSafe (u : Url.Unicode) (allowLocal : Bool) (answer : Option (List (List Char)))
    (hostname : List Char) : Bool :=
  match answer with
  | none => false
  | some addrInfo =>
    addrInfo ≠ [] && addrInfo.all fun text =>
      (ipAddress text).any fun ip => isIpAllowed ip (allowLocal && hostIsLocalish u hostname)

/-- `is_safe_url`, where `dns` is what `getaddrinfo` answers. -/
def isSafeUrl (u : Url.Unicode) (access : LocalAccess) (dns : List Char → Option (List (List Char)))
    (url : List Char) : Bool :=
  match Url.urlsplit u url with
  | none => false
  | some parsed =>
    match parsed.hostname u with
    | none => false
    | some hostname =>
      if parsed.scheme ≠ "http".toList ∧ parsed.scheme ≠ "https".toList then false
      else
        let hostname := u.lower hostname
        if hostname ∈ blockedHostnames then false
        else if hostname ∈ localHostnames then
          if parsed.scheme = "http".toList then access.http else access.https
        else if parsed.scheme = "http".toList then false
        else
          match ipAddress hostname with
          | some ip => isIpAllowed ip (access.https && hostIsLocalish u hostname)
          | none => resolvedIpsAreSafe u access.https (dns hostname) hostname

/-! ### Where a connection goes -/

/-- The addresses among the blocked host names. -/
def metadataAddresses : List Address := blockedHostnames.filterMap ipAddress

/-- Internal: of one of the classes, or a blocked metadata address, whether IPv4-mapped or not. -/
def Forbidden (ip : Address) : Prop :=
  ip.unmapped.isPrivate = true ∨ ip.unmapped.isLoopback = true ∨ ip.unmapped.isLinkLocal = true ∨
    ip.unmapped.isReserved = true ∨ ip.unmapped.isMulticast = true ∨
    ip.unmapped.isUnspecified = true ∨ ip.unmapped ∈ metadataAddresses

/-- Where a request to the host may go: the address it spells, or else those it resolves to. -/
def hostAddresses (dns : List Char → Option (List (List Char))) (hostname : List Char) :
    List Address :=
  match ipAddress hostname with
  | some ip => [ip]
  | none => ((dns hostname).getD []).filterMap ipAddress

/-- The addresses of a URL. -/
def urlAddresses (u : Url.Unicode) (dns : List Char → Option (List (List Char))) (url : List Char) :
    List Address :=
  match (Url.urlsplit u url).bind (·.hostname u) with
  | none => []
  | some hostname => hostAddresses dns (u.lower hostname)

/-- The metadata address that is in no class: it is of the shared address space. -/
def sharedMetadata : Address := .v4 0x646464c8

/-! ### One address -/

/-- Every class is refused. -/
theorem isIpAllowed_iff {ip : Address} :
    isIpAllowed ip false = true ↔
      ¬ (ip.unmapped.isPrivate = true ∨ ip.unmapped.isLoopback = true ∨
        ip.unmapped.isLinkLocal = true ∨ ip.unmapped.isReserved = true ∨
        ip.unmapped.isMulticast = true ∨ ip.unmapped.isUnspecified = true) := by
  simp only [isIpAllowed]
  cases ip.unmapped.isPrivate <;> cases ip.unmapped.isLoopback <;>
    cases ip.unmapped.isLinkLocal <;> cases ip.unmapped.isReserved <;>
    cases ip.unmapped.isMulticast <;> cases ip.unmapped.isUnspecified <;> simp

/-- The classes catch the other metadata addresses. -/
theorem metadata_allowed {ip : Address} (hmeta : ip.unmapped ∈ metadataAddresses)
    (hallowed : isIpAllowed ip false = true) : ip.unmapped = sharedMetadata := by
  have hclasses : ∀ a ∈ metadataAddresses, isIpAllowed a false = true → a = sharedMetadata := by
    decide +kernel
  refine hclasses _ hmeta ?_
  rwa [isIpAllowed, IpAddress.Address.unmapped_unmapped]

/-- An allowed address is internal only if it is the shared metadata address. -/
theorem forbidden_iff {ip : Address} (hallowed : isIpAllowed ip false = true) :
    Forbidden ip ↔ ip.unmapped = sharedMetadata := by
  have hclasses := isIpAllowed_iff.mp hallowed
  constructor
  · intro h
    have hmeta : ip.unmapped ∈ metadataAddresses := by
      rw [Forbidden] at h
      tauto
    exact metadata_allowed hmeta hallowed
  · intro h
    have hmeta : sharedMetadata ∈ metadataAddresses := by decide +kernel
    rw [Forbidden, h]
    exact .inr (.inr (.inr (.inr (.inr (.inr hmeta)))))

/-! ### The guard -/

/-- The texts are addresses, all of them allowed. -/
def AllAllowed (texts : List (List Char)) : Prop :=
  texts ≠ [] ∧ ∀ text ∈ texts, ∃ ip, ipAddress text = some ip ∧ isIpAllowed ip false = true

/-- The host spells an allowed address, or it resolves to allowed ones. -/
def HostAllowed (dns : List Char → Option (List (List Char))) (hostname : List Char) : Prop :=
  match ipAddress hostname with
  | some ip => isIpAllowed ip false = true
  | none => ∃ texts ∈ dns hostname, AllAllowed texts

theorem resolvedIpsAreSafe_iff {u : Url.Unicode} {answer : Option (List (List Char))}
    {hostname : List Char} :
    resolvedIpsAreSafe u false answer hostname = true ↔ ∃ texts ∈ answer, AllAllowed texts := by
  rcases answer with _ | texts
  · simp [resolvedIpsAreSafe]
  · simp [resolvedIpsAreSafe, AllAllowed, Option.any_eq_true]

/-- The `https` URL of this host, which is no blocked and no local name. -/
def HttpsUrl (u : Url.Unicode) (url hostname : List Char) : Prop :=
  ∃ parsed ∈ Url.urlsplit u url, parsed.scheme = "https".toList ∧
    (∃ host ∈ parsed.hostname u, u.lower host = hostname) ∧
    hostname ∉ blockedHostnames ∧ hostname ∉ localHostnames

/-- What makes the guard accept a URL while local access is off. -/
theorem isSafeUrl_iff {u : Url.Unicode} {dns : List Char → Option (List (List Char))}
    {url : List Char} :
    isSafeUrl u {} dns url = true ↔
      ∃ hostname, HttpsUrl u url hostname ∧ HostAllowed dns hostname := by
  rcases hurl : Url.urlsplit u url with _ | parsed
  · simp [isSafeUrl, HttpsUrl, hurl]
  rcases hhost : parsed.hostname u with _ | host
  · simp [isSafeUrl, HttpsUrl, hurl, hhost]
  have hguard : isSafeUrl u {} dns url = true ↔ parsed.scheme = "https".toList ∧
      u.lower host ∉ blockedHostnames ∧ u.lower host ∉ localHostnames ∧
      HostAllowed dns (u.lower host) := by
    simp only [isSafeUrl, hurl, hhost, HostAllowed]
    by_cases hscheme : parsed.scheme = "https".toList
    · have hhttp : parsed.scheme ≠ "http".toList := by rw [hscheme]; decide
      by_cases hblocked : u.lower host ∈ blockedHostnames
      · simp [hscheme, hblocked]
      by_cases hlocal : u.lower host ∈ localHostnames
      · simp [hscheme, hblocked, hlocal]
      · rw [if_neg (by simp [hscheme]), if_neg hblocked, if_neg hlocal, if_neg hhttp]
        simp only [hscheme, hblocked, hlocal, not_false_eq_true, true_and]
        rcases ipAddress (u.lower host) with _ | ip
        · exact resolvedIpsAreSafe_iff
        · exact Iff.rfl
    · by_cases hhttp : parsed.scheme = "http".toList
      · by_cases hblocked : u.lower host ∈ blockedHostnames <;> simp [hhttp, hblocked]
      · rw [if_pos ⟨hhttp, hscheme⟩]
        exact iff_of_false Bool.false_ne_true fun h => hscheme h.1
  rw [hguard]
  constructor
  · rintro ⟨hscheme, hblocked, hlocal, hallowed⟩
    exact ⟨u.lower host, ⟨parsed, hurl, hscheme, ⟨host, hhost, rfl⟩, hblocked, hlocal⟩, hallowed⟩
  · rintro ⟨hostname, ⟨parsed', hurl', hscheme, ⟨host', hhost', rfl⟩, hblocked, hlocal⟩, hallowed⟩
    obtain rfl := Option.some.inj (hurl.symm.trans hurl')
    obtain rfl := Option.some.inj (hhost.symm.trans hhost')
    exact ⟨hscheme, hblocked, hlocal, hallowed⟩

theorem urlAddresses_of_httpsUrl {u : Url.Unicode} {dns : List Char → Option (List (List Char))}
    {url hostname : List Char} (h : HttpsUrl u url hostname) :
    urlAddresses u dns url = hostAddresses dns hostname := by
  obtain ⟨parsed, hurl, -, ⟨host, hhost, rfl⟩, -⟩ := h
  have hbind : (Url.urlsplit u url).bind (·.hostname u) = some host := by
    rw [Option.mem_def.mp hurl, Option.bind_some]
    exact hhost
  rw [urlAddresses, hbind]

/-- Every address of a host that passes is allowed by itself. -/
theorem HostAllowed.addresses {dns : List Char → Option (List (List Char))} {hostname : List Char}
    (h : HostAllowed dns hostname) :
    ∀ ip ∈ hostAddresses dns hostname, isIpAllowed ip false = true := by
  intro ip hip
  rw [hostAddresses] at hip
  rw [HostAllowed] at h
  rcases hlit : ipAddress hostname with _ | lit
  · simp only [hlit] at h hip
    obtain ⟨texts, hdns, -, hall⟩ := h
    rw [Option.mem_def.mp hdns, Option.getD_some] at hip
    obtain ⟨text, htext, hread⟩ := List.mem_filterMap.mp hip
    obtain ⟨ip', hread', hallowed⟩ := hall text htext
    exact Option.some.inj (hread'.symm.trans hread) ▸ hallowed
  · simp only [hlit, List.mem_singleton] at h hip
    exact hip ▸ h

/-! ### Names and literals together -/

/-- If the guard accepts the URL while local access is off, no address of it is internal. -/
def UrlGuarded (u : Url.Unicode) (dns : List Char → Option (List (List Char))) (url : List Char) :
    Prop :=
  isSafeUrl u {} dns url = true → ∀ ip ∈ urlAddresses u dns url, ¬ Forbidden ip

/-- No record that the resolver returns for the host is of an internal address. -/
def RecordsGuarded (u : Url.Unicode) (answer : Option (List (List Char))) (host : List Char) :
    Prop :=
  ∀ records ∈ SafeResolver.resolve u false answer host, ∀ record ∈ records,
    ∀ ip ∈ ipAddress record, ¬ Forbidden ip

/-- One of the texts is the shared metadata address, IPv4-mapped or not. -/
def HasShared (texts : List (List Char)) : Prop :=
  ∃ text ∈ texts, ∃ ip ∈ ipAddress text, ip.unmapped = sharedMetadata

/-- The `https` URL does not spell the shared metadata address as an IPv6 address, and does not
    resolve to it, unless another address of the answer is refused. -/
def NotToShared (u : Url.Unicode) (dns : List Char → Option (List (List Char))) (url : List Char) :
    Prop :=
  ∀ hostname, HttpsUrl u url hostname →
    match ipAddress hostname with
    | some ip => ip.unmapped ≠ sharedMetadata
    | none => ∀ texts ∈ dns hostname, HasShared texts → ¬ AllAllowed texts

theorem shared_allowed {ip : Address} (h : ip.unmapped = sharedMetadata) :
    isIpAllowed ip false = true := by
  have hshared : isIpAllowed sharedMetadata false = true := by decide +kernel
  rw [isIpAllowed, h]
  exact hshared

theorem urlGuarded_iff (u : Url.Unicode) (dns : List Char → Option (List (List Char)))
    (url : List Char) : UrlGuarded u dns url ↔ NotToShared u dns url := by
  constructor
  · intro h hostname hurl
    have hguard : HostAllowed dns hostname →
        ∀ ip ∈ hostAddresses dns hostname, ip.unmapped ≠ sharedMetadata := by
      intro hallowed ip hip hshared
      refine h (isSafeUrl_iff.mpr ⟨hostname, hurl, hallowed⟩) ip ?_
        ((forbidden_iff (hallowed.addresses ip hip)).mpr hshared)
      rwa [urlAddresses_of_httpsUrl hurl]
    rcases hlit : ipAddress hostname with _ | ip
    · simp only [HostAllowed, hostAddresses, hlit] at hguard
      rintro texts hdns ⟨text, htext, ip, hip, hshared⟩ hall
      refine hguard ⟨texts, hdns, hall⟩ ip ?_ hshared
      rw [Option.mem_def.mp hdns]
      exact List.mem_filterMap.mpr ⟨text, htext, hip⟩
    · simp only [HostAllowed, hostAddresses, hlit] at hguard
      intro hshared
      exact hguard (shared_allowed hshared) ip (List.mem_singleton_self ip) hshared
  · intro h hsafe ip hip hforbidden
    obtain ⟨hostname, hurl, hallowed⟩ := isSafeUrl_iff.mp hsafe
    rw [urlAddresses_of_httpsUrl hurl] at hip
    have hshared := (forbidden_iff (hallowed.addresses ip hip)).mp hforbidden
    have hnot := h hostname hurl
    rw [hostAddresses] at hip
    rw [HostAllowed] at hallowed
    rcases hlit : ipAddress hostname with _ | lit
    · simp only [hlit] at hnot hip hallowed
      obtain ⟨texts, hdns, hall⟩ := hallowed
      rw [Option.mem_def.mp hdns] at hip
      obtain ⟨text, htext, hread⟩ := List.mem_filterMap.mp hip
      exact hnot texts hdns ⟨text, htext, ip, hread, hshared⟩ hall
    · simp only [hlit, List.mem_singleton] at hnot hip
      exact hnot (hip ▸ hshared)

/-- The records that the resolver returns. -/
theorem resolve_eq_some_iff {u : Url.Unicode} {answer : Option (List (List Char))}
    {host : List Char} {records : List (List Char)} :
    SafeResolver.resolve u false answer host = some records ↔
      u.lower host ∉ blockedHostnames ∧ records ≠ [] ∧ ∃ texts ∈ answer,
        texts.filter (fun text => (ipAddress text).any fun ip => isIpAllowed ip false) =
          records := by
  rw [SafeResolver.resolve]
  by_cases hblocked : u.lower host ∈ blockedHostnames
  · simp [hblocked]
  rcases answer with _ | texts
  · simp
  simp only [hblocked, if_false, not_false_eq_true, true_and, Option.mem_some_iff, exists_eq_left',
    Bool.false_and, Option.bind_eq_bind, Option.bind_some]
  split
  · next hempty =>
    refine iff_of_false (by simp) ?_
    rintro ⟨hne, rfl⟩
    exact hne hempty
  · next hne =>
    rw [Option.some.injEq]
    exact ⟨fun h => ⟨h ▸ hne, h⟩, fun h => h.2⟩

theorem recordsGuarded_iff (u : Url.Unicode) (answer : Option (List (List Char)))
    (host : List Char) :
    RecordsGuarded u answer host ↔
      u.lower host ∈ blockedHostnames ∨ ∀ texts ∈ answer, ¬ HasShared texts := by
  constructor
  · intro h
    by_contra hno
    push Not at hno
    obtain ⟨hblocked, texts, hanswer, text, htext, ip, hip, hshared⟩ := hno
    have hallowed := shared_allowed hshared
    have hkept : text ∈ texts.filter
        (fun text => (ipAddress text).any fun ip => isIpAllowed ip false) := by
      refine List.mem_filter.mpr ⟨htext, ?_⟩
      rw [Option.mem_def.mp hip]
      exact hallowed
    refine h _ (resolve_eq_some_iff.mpr ⟨hblocked, List.ne_nil_of_mem hkept, texts, hanswer, rfl⟩)
      text hkept ip hip ((forbidden_iff hallowed).mpr hshared)
  · rintro h records hrecords record hrecord ip hip hforbidden
    obtain ⟨hblocked, -, texts, hanswer, rfl⟩ := resolve_eq_some_iff.mp hrecords
    obtain ⟨hmem, hallowed⟩ := List.mem_filter.mp hrecord
    rw [Option.mem_def.mp hip] at hallowed
    refine (h.resolve_left hblocked) texts hanswer ⟨record, hmem, ip, hip, ?_⟩
    exact (forbidden_iff hallowed).mp hforbidden

/-- The guard keeps from every internal address but one: the shared metadata address, which is
    blocked as a name only. -/
theorem guarded_iff (u : Url.Unicode) (dns : List Char → Option (List (List Char)))
    (answer : Option (List (List Char))) (url host : List Char) :
    (UrlGuarded u dns url ↔ NotToShared u dns url) ∧
      (RecordsGuarded u answer host ↔
        u.lower host ∈ blockedHostnames ∨ ∀ texts ∈ answer, ¬ HasShared texts) :=
  ⟨urlGuarded_iff u dns url, recordsGuarded_iff u answer host⟩

def mappedUrl : List Char := "https://[::ffff:100.100.100.200]/".toList

def sharedText : List Char := "100.100.100.200".toList

/-- The address is reached as an IPv6 literal, through a name, and through the resolver. -/
theorem shared_reached :
    ¬ UrlGuarded .asciiOnly (fun _ => none) mappedUrl ∧
      ¬ UrlGuarded .asciiOnly (fun _ => some [sharedText]) "https://node.example".toList ∧
      ¬ RecordsGuarded .asciiOnly (some [sharedText]) "node.example".toList := by
  have hmapped : Forbidden (.v6 0xffff646464c8 none) :=
    (forbidden_iff (by decide +kernel)).mpr (by decide +kernel)
  have hshared : Forbidden sharedMetadata := (forbidden_iff (by decide +kernel)).mpr rfl
  refine ⟨fun h => h (by decide +kernel) _ ?_ hmapped, fun h => h (by decide +kernel) _ ?_ hshared,
    fun h => h [sharedText] (by decide +kernel) _ (List.mem_singleton_self _) _ ?_ hshared⟩
  · decide +kernel
  · decide +kernel
  · decide +kernel

end Just1kBot
