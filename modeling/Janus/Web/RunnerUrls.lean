import Janus.Server.RunnerClient

/-! Which base URLs a runner may have: `validate_base_url`, and the two ways to write one IPv4
address as the host of a URL. -/

namespace Janus.Web

open Janus.Data Janus.Server

structure RunnerUrlPolicyConfig where
  requireHttps : Bool
  allowCredentials : Bool
  allowQuery : Bool
  allowFragment : Bool
  allowPath : Bool
  allowLocalhost : Bool
  allowPrivateIps : Bool
  allowLinkLocalIps : Bool
  allowDocumentationIps : Bool
  allowMulticastIps : Bool

structure Ipv4Addr where
  a : Fin 256
  b : Fin 256
  c : Fin 256
  d : Fin 256
  deriving DecidableEq

namespace Ipv4Addr

variable (ip : Ipv4Addr)

def isLoopback : Bool := ip.a == 127

def isPrivate : Bool :=
  ip.a == 10 || (ip.a == 172 && ip.b.val &&& 0xf0 == 16) || (ip.a == 192 && ip.b == 168)

def isUnspecified : Bool := ip == ⟨0, 0, 0, 0⟩

def isLinkLocal : Bool := ip.a == 169 && ip.b == 254

def isDocumentation : Bool :=
  (ip.a == 192 && ip.b == 0 && ip.c == 2) || (ip.a == 198 && ip.b == 51 && ip.c == 100) ||
    (ip.a == 203 && ip.b == 0 && ip.c == 113)

def isBroadcast : Bool := ip == ⟨255, 255, 255, 255⟩

def text : String :=
  toString ip.a.val ++ "." ++ toString ip.b.val ++ "." ++ toString ip.c.val ++ "." ++
    toString ip.d.val

end Ipv4Addr

structure Ipv6Addr where
  s0 : Fin 65536
  s1 : Fin 65536
  s2 : Fin 65536
  s3 : Fin 65536
  s4 : Fin 65536
  s5 : Fin 65536
  s6 : Fin 65536
  s7 : Fin 65536
  deriving DecidableEq

namespace Ipv6Addr

variable (ip : Ipv6Addr)

def isLoopback : Bool := ip == ⟨0, 0, 0, 0, 0, 0, 0, 1⟩

def isUniqueLocal : Bool := ip.s0.val &&& 0xfe00 == 0xfc00

def isUnspecified : Bool := ip == ⟨0, 0, 0, 0, 0, 0, 0, 0⟩

def isUnicastLinkLocal : Bool := ip.s0.val &&& 0xffc0 == 0xfe80

def isMulticast : Bool := ip.s0.val / 256 == 0xff

end Ipv6Addr

/-- `::ffff:a.b.c.d`. -/
def Ipv4Addr.toIpv6Mapped (ip : Ipv4Addr) : Ipv6Addr :=
  ⟨0, 0, 0, 0, 0, 0xffff, ⟨ip.a * 256 + ip.b, by omega⟩, ⟨ip.c * 256 + ip.d, by omega⟩⟩

inductive UrlHost
  | domain (domain : String)
  | ipv4 (ip : Ipv4Addr)
  | ipv6 (ip : Ipv6Addr)
  deriving DecidableEq

structure Url where
  scheme : String
  username : String := ""
  password : Option String := none
  host : Option UrlHost
  path : String := "/"
  query : Option String := none
  fragment : Option String := none
  deriving DecidableEq

def trimEndDots (text : String) : String :=
  String.ofList (text.toList.reverse.dropWhile fun c => c == '.').reverse

section

variable (policy : RunnerUrlPolicyConfig)

def validateIpv4RunnerHost (ip : Ipv4Addr) : Except String Unit :=
  if policy.allowLocalhost = false ∧ ip.isLoopback = true then
    .error "base_url host must not be localhost"
  else if policy.allowPrivateIps = false ∧
      (ip.isPrivate = true ∨ ip.isUnspecified = true ∨ ip.a = 0) then
    .error "base_url host must not be private or unspecified"
  else if policy.allowLinkLocalIps = false ∧ ip.isLinkLocal = true then
    .error "base_url host must not be link-local"
  else if policy.allowDocumentationIps = false ∧ ip.isDocumentation = true then
    .error "base_url host must not be documentation-only"
  else if policy.allowMulticastIps = false ∧ (224 ≤ ip.a.val ∨ ip.isBroadcast = true) then
    .error "base_url host must not be multicast or broadcast"
  else .ok ()

def validateIpv6RunnerHost (ip : Ipv6Addr) : Except String Unit :=
  if policy.allowLocalhost = false ∧ ip.isLoopback = true then
    .error "base_url host must not be localhost"
  else if policy.allowPrivateIps = false ∧ (ip.isUniqueLocal = true ∨ ip.isUnspecified = true) then
    .error "base_url host must not be private or unspecified"
  else if policy.allowLinkLocalIps = false ∧ ip.isUnicastLinkLocal = true then
    .error "base_url host must not be link-local"
  else if policy.allowDocumentationIps = false ∧ ip.s0.val = 0x2001 ∧ ip.s1.val = 0x0db8 then
    .error "base_url host must not be documentation-only"
  else if policy.allowMulticastIps = false ∧ ip.isMulticast = true then
    .error "base_url host must not be multicast or broadcast"
  else .ok ()

def validateHost : UrlHost → Except String Unit
  | .domain domain =>
    let domain := (trimEndDots domain).toList.map Char.toLower
    if policy.allowLocalhost = false ∧ (domain = "localhost".toList ∨
        domain = "localhost.localdomain".toList ∨ ".localhost".toList <:+ domain) then
      .error "base_url host must not be localhost"
    else .ok ()
  | .ipv4 ip => validateIpv4RunnerHost policy ip
  | .ipv6 ip => validateIpv6RunnerHost policy ip

def validateUrlParts (parsed : Url) : Except String Unit :=
  if policy.requireHttps = true ∧ parsed.scheme ≠ "https" then .error "base_url must use https"
  else if parsed.host.isNone then .error "base_url must include a host"
  else if policy.allowCredentials = false ∧ (parsed.username ≠ "" ∨ parsed.password.isSome) then
    .error "base_url must not include credentials"
  else if policy.allowQuery = false ∧ parsed.query.isSome then
    .error "base_url must not include query"
  else if policy.allowFragment = false ∧ parsed.fragment.isSome then
    .error "base_url must not include fragment"
  else if policy.allowPath = false ∧ ¬(parsed.path = "" ∨ parsed.path = "/") then
    .error "base_url must not include a path"
  else .ok ()

/-- The library that parses URLs is not part of the program. -/
def validateBaseUrl (parse : String → Option Url) (url : String) : Except String Unit :=
  if (trim url).length > 2048 then .error "base_url must be 2048 characters or fewer"
  else match parse (trim url) with
    | none => .error "base_url must be a valid URL"
    | some parsed => do
      validateUrlParts policy parsed
      match parsed.host with
      | none => pure ()
      | some host => validateHost policy host

end

def hostUrl (scheme : String) (host : UrlHost) : Url := { scheme, host := some host }

def Ipv4Addr.url (scheme : String) (ip : Ipv4Addr) : String := scheme ++ "://" ++ ip.text

def Ipv4Addr.mappedUrl (scheme : String) (ip : Ipv4Addr) : String :=
  scheme ++ "://[::ffff:" ++ ip.text ++ "]"

def Compact (n : ℕ) (text : String) : Prop :=
  (∀ c ∈ text.toList, isWhitespace c = false) ∧ text.length ≤ n

instance (n : ℕ) (text : String) : Decidable (Compact n text) :=
  decidable_of_iff ((text.toList.all fun c => isWhitespace c = false) ∧ text.length ≤ n)
    (by simp [Compact])

lemma Compact.append {m n : ℕ} {s t : String} (hs : Compact m s) (ht : Compact n t) :
    Compact (m + n) (s ++ t) := by
  refine ⟨fun c hc => ?_, ?_⟩
  · rw [String.toList_append, List.mem_append] at hc
    rcases hc with hc | hc
    · exact hs.1 c hc
    · exact ht.1 c hc
  · rw [String.length_append]
    exact Nat.add_le_add hs.2 ht.2

lemma Compact.trim {n : ℕ} {s : String} (hs : Compact n s) : Server.trim s = s := by
  have hkept : ∀ l : List Char, (∀ c ∈ l, isWhitespace c = false) →
      l.dropWhile isWhitespace = l := by
    intro l hl
    cases l with
    | nil => rfl
    | cons c l => simp [hl c List.mem_cons_self]
  unfold Server.trim
  rw [hkept _ hs.1, hkept _ (fun c hc => hs.1 c (List.mem_reverse.mp hc)), List.reverse_reverse,
    String.ofList_toList]

lemma compact_octet (n : Fin 256) : Compact 3 (toString n.val) := by
  have hall : ∀ n : Fin 256, Compact 3 (toString n.val) := by decide +kernel
  exact hall n

lemma compact_text (ip : Ipv4Addr) : Compact 15 ip.text := by
  have hdot : Compact 1 "." := by decide +kernel
  exact ((((((compact_octet ip.a).append hdot).append (compact_octet ip.b)).append hdot).append
    (compact_octet ip.c)).append hdot).append (compact_octet ip.d)

section

variable {policy : RunnerUrlPolicyConfig} {parse : String → Option Url} {scheme : String}
variable {ip : Ipv4Addr}

lemma compact_scheme (hscheme : scheme = "http" ∨ scheme = "https") : Compact 5 scheme := by
  rcases hscheme with rfl | rfl
  · decide +kernel
  · decide +kernel

lemma validateBaseUrl_hostUrl {n : ℕ} {text : String} {host : UrlHost} (htext : Compact n text)
    (hn : n ≤ 2048) (hparse : parse text = some (hostUrl scheme host)) :
    validateBaseUrl policy parse text =
      if policy.requireHttps = true ∧ scheme ≠ "https" then .error "base_url must use https"
      else validateHost policy host := by
  have hlength : ¬text.length > 2048 := Nat.not_lt.mpr (htext.2.trans hn)
  unfold validateBaseUrl
  rw [htext.trim, if_neg hlength, hparse]
  simp only [validateUrlParts, hostUrl]
  by_cases hhttps : policy.requireHttps = true ∧ scheme ≠ "https"
  · simp only [if_pos hhttps]
    rfl
  · simp only [if_neg hhttps, Option.isNone_some, Option.isSome_none, Bool.false_eq_true, ne_eq,
      not_true_eq_false, or_self, or_true, and_false, if_false]
    rfl

lemma validateIpv6_mapped : validateIpv6RunnerHost policy ip.toIpv6Mapped = .ok () := by
  have hloopback : ip.toIpv6Mapped.isLoopback = false := rfl
  have hunspecified : ip.toIpv6Mapped.isUnspecified = false := rfl
  have hlocal : ip.toIpv6Mapped.isUniqueLocal = false :=
    (by decide : ((0 : Fin 65536).val &&& 0xfe00 == 0xfc00) = false)
  have hlink : ip.toIpv6Mapped.isUnicastLinkLocal = false :=
    (by decide : ((0 : Fin 65536).val &&& 0xffc0 == 0xfe80) = false)
  have hmulticast : ip.toIpv6Mapped.isMulticast = false :=
    (by decide : ((0 : Fin 65536).val / 256 == 0xff) = false)
  have hfirst : ip.toIpv6Mapped.s0.val ≠ 0x2001 :=
    (by decide : (0 : Fin 65536).val ≠ 0x2001)
  simp [validateIpv6RunnerHost, hloopback, hunspecified, hlocal, hlink, hmulticast, hfirst]

end

/-- Every range that the address lies in is allowed. -/
def RunnerUrlPolicyConfig.Admits (policy : RunnerUrlPolicyConfig) (ip : Ipv4Addr) : Prop :=
  (ip.isLoopback = true → policy.allowLocalhost = true) ∧
    (ip.isPrivate = true ∨ ip.a = 0 → policy.allowPrivateIps = true) ∧
    (ip.isLinkLocal = true → policy.allowLinkLocalIps = true) ∧
    (ip.isDocumentation = true → policy.allowDocumentationIps = true) ∧
    (224 ≤ ip.a.val → policy.allowMulticastIps = true)

section

variable {policy : RunnerUrlPolicyConfig} {parse : String → Option Url} {scheme : String}
variable {ip : Ipv4Addr}

lemma validateIpv4_eq_ok : validateIpv4RunnerHost policy ip = .ok () ↔ policy.Admits ip := by
  have hunspecified : ip.isUnspecified = true → ip.a = 0 := by
    intro h
    exact congrArg Ipv4Addr.a (beq_iff_eq.mp h)
  have hbroadcast : ip.isBroadcast = true → 224 ≤ ip.a.val := by
    intro h
    rw [congrArg Ipv4Addr.a (beq_iff_eq.mp h)]
    decide
  unfold validateIpv4RunnerHost RunnerUrlPolicyConfig.Admits
  constructor
  · intro h
    split_ifs at h with hloopback hprivate hlink hdocumentation hmulticast
    simp only [not_and_or, not_or, Bool.not_eq_false, Bool.not_eq_true] at *
    refine ⟨?_, ?_, ?_, ?_, ?_⟩ <;> grind
  · rintro ⟨hloopback, hprivate, hlink, hdocumentation, hmulticast⟩
    rw [if_neg, if_neg, if_neg, if_neg, if_neg]
    · rintro ⟨hswitch, h | h⟩
      · cases hswitch.symm.trans (hmulticast h)
      · cases hswitch.symm.trans (hmulticast (hbroadcast h))
    · rintro ⟨hswitch, h⟩
      cases hswitch.symm.trans (hdocumentation h)
    · rintro ⟨hswitch, h⟩
      cases hswitch.symm.trans (hlink h)
    · rintro ⟨hswitch, h | h | h⟩
      · cases hswitch.symm.trans (hprivate (.inl h))
      · cases hswitch.symm.trans (hprivate (.inr (hunspecified h)))
      · cases hswitch.symm.trans (hprivate (.inr h))
    · rintro ⟨hswitch, h⟩
      cases hswitch.symm.trans (hloopback h)

end

def RejectedForHost (policy : RunnerUrlPolicyConfig) (parse : String → Option Url) (scheme : String)
    (ip : Ipv4Addr) : Prop :=
  ∃ error, validateBaseUrl policy parse (ip.url scheme) = .error error ∧
    validateIpv4RunnerHost policy ip = .error error

/-- The mapped notation of an address is rejected with the plain one only where that is not rejected
for its host: no range that the policy forbids is looked for in it. -/
theorem mapped_host_rejected_iff (policy : RunnerUrlPolicyConfig) {parse : String → Option Url}
    {scheme : String} {ip : Ipv4Addr} (hscheme : scheme = "http" ∨ scheme = "https")
    (hplain : parse (ip.url scheme) = some (hostUrl scheme (.ipv4 ip)))
    (hmapped : parse (ip.mappedUrl scheme) = some (hostUrl scheme (.ipv6 ip.toIpv6Mapped))) :
    (RejectedForHost policy parse scheme ip →
      ∃ error, validateBaseUrl policy parse (ip.mappedUrl scheme) = .error error) ↔
        policy.requireHttps = true ∧ scheme = "http" ∨ policy.Admits ip := by
  have hseparator : Compact 3 "://" := by decide +kernel
  have hopening : Compact 11 "://[::ffff:" := by decide +kernel
  have hclosing : Compact 1 "]" := by decide +kernel
  have hplainCompact := ((compact_scheme hscheme).append hseparator).append (compact_text ip)
  have hmappedCompact :=
    (((compact_scheme hscheme).append hopening).append (compact_text ip)).append hclosing
  have hurl : validateBaseUrl policy parse (ip.url scheme) = _ :=
    validateBaseUrl_hostUrl hplainCompact (by decide) hplain
  have hmappedUrl : validateBaseUrl policy parse (ip.mappedUrl scheme) = _ :=
    validateBaseUrl_hostUrl hmappedCompact (by decide) hmapped
  by_cases hhttps : policy.requireHttps = true ∧ scheme ≠ "https"
  · rw [if_pos hhttps] at hmappedUrl
    exact ⟨fun _ => .inl ⟨hhttps.1, hscheme.resolve_right hhttps.2⟩, fun _ _ => ⟨_, hmappedUrl⟩⟩
  · rw [if_neg hhttps] at hurl hmappedUrl
    have haccepted : validateBaseUrl policy parse (ip.mappedUrl scheme) = .ok () :=
      hmappedUrl.trans validateIpv6_mapped
    have hscheme' : ¬(policy.requireHttps = true ∧ scheme = "http") := by
      rintro ⟨hrequired, rfl⟩
      exact hhttps ⟨hrequired, by decide⟩
    rw [← validateIpv4_eq_ok, or_iff_right hscheme']
    constructor
    · intro h
      cases hip : validateIpv4RunnerHost policy ip with
      | ok _ => rfl
      | error error =>
        obtain ⟨error', hrejected⟩ := h ⟨error, hurl.trans hip, hip⟩
        cases haccepted.symm.trans hrejected
    · rintro hip ⟨error, -, hrejected⟩
      cases hip.symm.trans hrejected

def strictPolicy : RunnerUrlPolicyConfig :=
  ⟨true, false, false, false, false, false, false, false, false, false⟩

def localhostAddr : Ipv4Addr := ⟨127, 0, 0, 1⟩

def parseLocalhost (text : String) : Option Url :=
  if text = "https://127.0.0.1" then some (hostUrl "https" (.ipv4 localhostAddr))
  else if text = "https://[::ffff:127.0.0.1]" then
    some (hostUrl "https" (.ipv6 localhostAddr.toIpv6Mapped))
  else none

theorem mapped_host_rejected_iff_localhost :
    (RejectedForHost strictPolicy parseLocalhost "https" localhostAddr →
      ∃ error, validateBaseUrl strictPolicy parseLocalhost (localhostAddr.mappedUrl "https") =
        .error error) ↔
      strictPolicy.requireHttps = true ∧ "https" = "http" ∨ strictPolicy.Admits localhostAddr :=
  mapped_host_rejected_iff strictPolicy (.inr rfl) (by decide +kernel) (by decide +kernel)

theorem mapped_localhost_accepted :
    validateBaseUrl strictPolicy parseLocalhost (localhostAddr.url "https") =
        .error "base_url host must not be localhost" ∧
      validateIpv4RunnerHost strictPolicy localhostAddr =
        .error "base_url host must not be localhost" ∧
      validateBaseUrl strictPolicy parseLocalhost (localhostAddr.mappedUrl "https") = .ok () := by
  refine ⟨?_, ?_, ?_⟩ <;> decide +kernel

end Janus.Web
