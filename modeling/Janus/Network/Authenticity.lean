import Janus.Runner.Replay

/-! How the server signs the requests that the runner authenticates, and whose requests those are. -/

namespace Janus.Network

open Janus.Concurrency Janus.Data Janus.Server Janus.Runner

def hexDigit (n : ℕ) : Char := "0123456789abcdef".toList.getD n '0'

def hexPair (byte : UInt8) : List Char :=
  [hexDigit (byte >>> 4).toNat, hexDigit (byte &&& 0x0f).toNat]

def hexLower (bytes : Bytes) : String :=
  String.ofList (bytes.flatMap hexPair)

def sha256Hex (digest : Bytes → Bytes) (bytes : Bytes) : String := hexLower (digest bytes)

/-- What the server takes from the libraries for dates, encodings and signatures. -/
structure SigningLibraries where
  toRfc3339Secs : ℤ → String
  encodeBase64 : Bytes → String
  sha256 : Bytes → Bytes
  verifyingKey : (signingKey : Bytes) → Bytes
  sign : (signingKey : Bytes) → (message : String) → Bytes

structure RunnerSigner where
  keyId : String
  signingKey : Bytes

/-- What a signature is made of: the arguments of `sign`, the time and the fresh UUID. -/
structure Signing where
  method : String
  pathAndQuery : String
  body : Bytes
  now : ℤ
  nonce : String

section

variable (S : SigningLibraries) (signer : RunnerSigner) (signing : Signing)

def RunnerSigner.publicKeyBase64 : String := S.encodeBase64 (S.verifyingKey signer.signingKey)

def Signing.canonical : String :=
  canonicalSignedRequest signing.method signing.pathAndQuery (sha256Hex S.sha256 signing.body)
    (S.toRfc3339Secs signing.now) signing.nonce

def RunnerSigner.sign : SignatureHeaders where
  keyId := signer.keyId
  timestamp := S.toRfc3339Secs signing.now
  nonce := signing.nonce
  contentSha256 := sha256Hex S.sha256 signing.body
  signature :=
    "ed25519" ++ ":" ++ S.encodeBase64 (S.sign signer.signingKey (signing.canonical S))

end

def apply (headers : SignatureHeaders) (others : List (String × HeaderValue)) :
    List (String × HeaderValue) :=
  [("x-janus-key-id", .text headers.keyId), ("x-janus-timestamp", .text headers.timestamp),
    ("x-janus-nonce", .text headers.nonce),
    ("x-janus-content-sha256", .text headers.contentSha256),
    ("x-janus-signature", .text headers.signature)] ++ others

def RunnerSigner.request (S : SigningLibraries) (signer : RunnerSigner) (signing : Signing)
    (others : List (String × HeaderValue)) : Request where
  method := signing.method
  pathAndQuery := signing.pathAndQuery
  headers := apply (signer.sign S signing) others
  body := signing.body

lemma signatureHeaders_apply (headers : SignatureHeaders) (others : List (String × HeaderValue)) :
    signatureHeaders (apply headers others) = .ok headers := by
  rfl

lemma hexDigit_injOn {m n : ℕ} (hm : m < 16) (hn : n < 16) (h : hexDigit m = hexDigit n) : m = n := by
  have hall : ∀ m < 16, ∀ n < 16, hexDigit m = hexDigit n → m = n := by decide
  exact hall m hm n hn h

lemma hexDigit_plain {n : ℕ} (hn : n < 16) :
    hexDigit n ≠ '\n' ∧ (hexDigit n).toLower = hexDigit n := by
  have hall : ∀ n < 16, hexDigit n ≠ '\n' ∧ (hexDigit n).toLower = hexDigit n := by decide
  exact hall n hn

lemma toNat_nibbles (byte : UInt8) :
    (byte >>> 4).toNat = byte.toNat / 16 ∧ (byte &&& 0x0f).toNat = byte.toNat % 16 := by
  constructor
  · exact Nat.shiftRight_eq_div_pow byte.toNat 4
  · exact Nat.and_two_pow_sub_one_eq_mod byte.toNat 4

lemma hexPair_injective : Function.Injective hexPair := by
  intro a b h
  simp only [hexPair, List.cons.injEq, and_true, toNat_nibbles] at h
  have ha := a.toNat_lt
  have hb := b.toNat_lt
  have hhigh := hexDigit_injOn (by omega) (by omega) h.1
  have hlow := hexDigit_injOn (by omega) (by omega) h.2
  exact UInt8.toNat_inj.mp (by omega)

lemma hexPair_plain {byte : UInt8} {c : Char} (h : c ∈ hexPair byte) : c ≠ '\n' ∧ c.toLower = c := by
  have hlt := byte.toNat_lt
  simp only [hexPair, toNat_nibbles, List.mem_cons, List.not_mem_nil, or_false] at h
  rcases h with rfl | rfl
  · exact hexDigit_plain (by omega)
  · exact hexDigit_plain (by omega)

lemma hexLower_injective : Function.Injective hexLower := by
  intro a b h
  replace h := String.ofList_injective h
  induction a generalizing b with
  | nil =>
    cases b with
    | nil => rfl
    | cons y b => simp [hexPair] at h
  | cons x a ih =>
    cases b with
    | nil => simp [hexPair] at h
    | cons y b =>
      simp only [List.flatMap_cons] at h
      obtain ⟨hxy, hrest⟩ := List.append_inj h rfl
      rw [hexPair_injective hxy, ih hrest]

lemma hexLower_plain {bytes : Bytes} {c : Char} (h : c ∈ (hexLower bytes).toList) :
    c ≠ '\n' ∧ c.toLower = c := by
  rw [hexLower, String.toList_ofList] at h
  obtain ⟨byte, -, hc⟩ := List.mem_flatMap.mp h
  exact hexPair_plain hc

lemma map_toLower_hexLower (bytes : Bytes) :
    (hexLower bytes).toList.map Char.toLower = (hexLower bytes).toList := by
  refine (List.map_congr_left fun c hc => ?_).trans (List.map_id _)
  exact (hexLower_plain hc).2

lemma eqIgnoreAsciiCase_hexLower {a b : Bytes} :
    eqIgnoreAsciiCase (hexLower a) (hexLower b) = true ↔ a = b := by
  simp only [eqIgnoreAsciiCase, beq_iff_eq, map_toLower_hexLower, String.toList_inj]
  exact hexLower_injective.eq_iff

def LineFree (text : String) : Prop := '\n' ∉ text.toList

instance (text : String) : Decidable (LineFree text) := inferInstanceAs (Decidable (¬ _))

lemma lineFree_hexLower (bytes : Bytes) : LineFree (hexLower bytes) :=
  fun h => (hexLower_plain h).1 rfl

lemma toList_canonicalSignedRequest (method pathAndQuery contentSha256 timestamp nonce : String) :
    (canonicalSignedRequest method pathAndQuery contentSha256 timestamp nonce).toList =
      ['\n'].intercalate ([method, pathAndQuery, contentSha256, timestamp, nonce].map String.toList) := by
  have hnewline : "\n".toList = ['\n'] := rfl
  simp only [canonicalSignedRequest, String.toList_append, hnewline, List.map_cons, List.map_nil,
    List.intercalate_cons_cons, List.intercalate_singleton, List.append_assoc]

/-- The arguments of `canonical_signed_request`. -/
@[ext] structure SignedFields where
  method : String
  pathAndQuery : String
  contentSha256 : String
  timestamp : String
  nonce : String

namespace SignedFields

def list (fields : SignedFields) : List String :=
  [fields.method, fields.pathAndQuery, fields.contentSha256, fields.timestamp, fields.nonce]

def canonical (fields : SignedFields) : String :=
  canonicalSignedRequest fields.method fields.pathAndQuery fields.contentSha256 fields.timestamp
    fields.nonce

lemma canonical_injOn {fields fields' : SignedFields} (h : ∀ text ∈ fields.list, LineFree text)
    (h' : ∀ text ∈ fields'.list, LineFree text) (heq : fields.canonical = fields'.canonical) :
    fields = fields' := by
  have hsplit {fields : SignedFields} (h : ∀ text ∈ fields.list, LineFree text) :
      fields.canonical.toList.splitOn '\n' = fields.list.map String.toList := by
    rw [canonical, toList_canonicalSignedRequest]
    refine List.splitOn_intercalate _ (fun line hl => ?_) (by simp)
    obtain ⟨text, ht, rfl⟩ := List.mem_map.mp hl
    exact h text ht
  have hlist : fields.list.map String.toList = fields'.list.map String.toList := by
    rw [← hsplit h, ← hsplit h', heq]
  have hfields := List.map_injective_iff.mpr (fun _ _ => String.toList_inj.mp) hlist
  simp only [list, List.cons.injEq, and_true] at hfields
  obtain ⟨hmethod, hpath, hdigest, htimestamp, hnonce⟩ := hfields
  exact SignedFields.ext hmethod hpath hdigest htimestamp hnonce

end SignedFields

section

variable (L : Libraries) (S : SigningLibraries)

def Signing.fields (signing : Signing) : SignedFields :=
  ⟨signing.method, signing.pathAndQuery, sha256Hex S.sha256 signing.body,
    S.toRfc3339Secs signing.now, signing.nonce⟩

def signedFields (request : Request) (headers : SignatureHeaders) : SignedFields :=
  ⟨request.method, request.pathAndQuery, headers.contentSha256, headers.timestamp, headers.nonce⟩

structure Configured (config : AuthConfig) (signer : RunnerSigner) : Prop where
  server : ∃ server ∈ config.servers, server.keyId = signer.keyId ∧
    server.publicKey = signer.publicKeyBase64 S
  publicKey : L.decodeBase64 (trim (signer.publicKeyBase64 S)) =
    some (S.verifyingKey signer.signingKey)

/-- The libraries read what they have written: the signature of the request and its timestamp, which
stands for `instant`; the nonce is a UUID. -/
structure ReadsBack (signer : RunnerSigner) (signing : Signing) (instant : ℤ) : Prop where
  signature : L.decodeBase64 (S.encodeBase64 (S.sign signer.signingKey (signing.canonical S))) =
    some (S.sign signer.signingKey (signing.canonical S))
  signatureLength : (S.sign signer.signingKey (signing.canonical S)).length = 64
  verifies : L.verify (S.verifyingKey signer.signingKey) (signing.canonical S)
    (S.sign signer.signingKey (signing.canonical S)) = true
  timestamp : L.parseFromRfc3339 (S.toRfc3339Secs signing.now) = some instant
  nonce : isBlank signing.nonce = false ∧ signing.nonce.utf8ByteSize ≤ 128

/-- A signature that is good under the key was made by its holder, for one of the requests in
`signed`, and no two bodies in question have the same digest. -/
structure Unforged (signed : Signing → Prop) (key : Bytes) (request : Request) : Prop where
  signature : ∀ headers signature, signatureHeaders request.headers = .ok headers →
    L.verify key (signedFields request headers).canonical signature = true →
      ∃ signing, signed signing ∧ signing.canonical S = (signedFields request headers).canonical
  digest : ∀ signing, signed signing → S.sha256 signing.body = S.sha256 request.body →
    signing.body = request.body

end

/-- The fields that a signer takes as they come have no newlines. -/
def Signing.LineFree (S : SigningLibraries) (signing : Signing) : Prop :=
  ∀ text ∈ [signing.method, signing.pathAndQuery, S.toRfc3339Secs signing.now, signing.nonce],
    Network.LineFree text

structure LineFreeRequest (request : Request) : Prop where
  method : LineFree request.method
  pathAndQuery : LineFree request.pathAndQuery
  headers : ∀ name text, (name, HeaderValue.text text) ∈ request.headers → LineFree text

/-- What a signer put its signature to is what the request says. -/
structure SameRequest (S : SigningLibraries) (signing : Signing) (request : Request)
    (headers : SignatureHeaders) : Prop where
  method : request.method = signing.method
  pathAndQuery : request.pathAndQuery = signing.pathAndQuery
  body : request.body = signing.body
  timestamp : headers.timestamp = S.toRfc3339Secs signing.now
  nonce : headers.nonce = signing.nonce

variable {L : Libraries} {S : SigningLibraries} {request : Request} {headers : SignatureHeaders}
variable {record : PublicKeyRecord}

lemma requiredHeader_mem {values : List (String × HeaderValue)} {name text : String}
    (h : requiredHeader values name = .ok text) : (name, HeaderValue.text text) ∈ values := by
  simp only [requiredHeader] at h
  split at h
  · cases h
  · cases h
  · next value hlookup =>
    cases h
    obtain ⟨before, after, rfl, -⟩ := List.lookup_eq_some_iff.mp hlookup
    simp

lemma signatureHeaders_mem {values : List (String × HeaderValue)}
    (h : signatureHeaders values = .ok headers) :
    ("x-janus-timestamp", HeaderValue.text headers.timestamp) ∈ values ∧
      ("x-janus-nonce", HeaderValue.text headers.nonce) ∈ values ∧
      ("x-janus-content-sha256", HeaderValue.text headers.contentSha256) ∈ values := by
  simp only [signatureHeaders] at h
  cases hk : requiredHeader values "x-janus-key-id" with
  | error e => simp [hk, bind, Except.bind] at h
  | ok keyId =>
  cases ht : requiredHeader values "x-janus-timestamp" with
  | error e => simp [hk, ht, bind, Except.bind] at h
  | ok timestamp =>
  cases hn : requiredHeader values "x-janus-nonce" with
  | error e => simp [hk, ht, hn, bind, Except.bind] at h
  | ok nonce =>
  cases hc : requiredHeader values "x-janus-content-sha256" with
  | error e => simp [hk, ht, hn, hc, bind, Except.bind] at h
  | ok contentSha256 =>
  cases hs : requiredHeader values "x-janus-signature" with
  | error e => simp [hk, ht, hn, hc, hs, bind, Except.bind] at h
  | ok signature =>
  simp only [hk, ht, hn, hc, hs, bind, Except.bind, pure, Except.pure, Except.ok.injEq] at h
  subst h
  exact ⟨requiredHeader_mem ht, requiredHeader_mem hn, requiredHeader_mem hc⟩

lemma authenticate_ok {context : AuthContext}
    (h : authenticate L record request headers = .ok context) :
    eqIgnoreAsciiCase headers.contentSha256 (L.sha256Hex request.body) = true ∧
      ∃ signature, parseSignature L headers.signature = .ok signature ∧
        L.verify record.verifyingKey (signedFields request headers).canonical signature = true := by
  simp only [authenticate] at h
  cases hd : eqIgnoreAsciiCase headers.contentSha256 (L.sha256Hex request.body) with
  | false => simp [hd, throw, throwThe, MonadExceptOf.throw, bind, Except.bind] at h
  | true =>
  cases hs : parseSignature L headers.signature with
  | error e => simp [hd, hs, bind, Except.bind] at h
  | ok signature =>
  refine ⟨rfl, signature, rfl, ?_⟩
  by_contra hv
  simp only [Bool.not_eq_true] at hv
  change L.verify record.verifyingKey (canonicalSignedRequest request.method request.pathAndQuery
    headers.contentSha256 headers.timestamp headers.nonce) signature = false at hv
  simp [hd, hs, hv, throw, throwThe, MonadExceptOf.throw, bind, Except.bind] at h

lemma authenticate_signed {context : AuthContext} {signed : Signing → Prop}
    (hdigest : ∀ body, L.sha256Hex body = sha256Hex S.sha256 body)
    (hheaders : signatureHeaders request.headers = .ok headers)
    (hok : authenticate L record request headers = .ok context)
    (hunforged : Unforged L S signed record.verifyingKey request)
    (hsigned : ∀ signing, signed signing → signing.LineFree S) (hline : LineFreeRequest request) :
    ∃ signing, signed signing ∧ SameRequest S signing request headers := by
  obtain ⟨hsame, signature, -, hverify⟩ := authenticate_ok hok
  obtain ⟨signing, hsigning, hcanonical⟩ := hunforged.signature headers signature hheaders hverify
  obtain ⟨htimestamp, hnonce, hcontent⟩ := signatureHeaders_mem hheaders
  have hfields : signing.fields S = signedFields request headers := by
    refine SignedFields.canonical_injOn ?_ ?_ hcanonical
    · have hfree := hsigned signing hsigning
      simp only [Signing.LineFree, List.forall_mem_cons] at hfree
      simp only [SignedFields.list, Signing.fields, List.forall_mem_cons]
      exact ⟨hfree.1, hfree.2.1, lineFree_hexLower _, hfree.2.2.1, hfree.2.2.2.1, by simp⟩
    · simp only [SignedFields.list, signedFields, List.forall_mem_cons]
      exact ⟨hline.method, hline.pathAndQuery, hline.headers _ _ hcontent,
        hline.headers _ _ htimestamp, hline.headers _ _ hnonce, by simp⟩
  simp only [Signing.fields, signedFields, SignedFields.mk.injEq] at hfields
  obtain ⟨hmethod, hpath, hsha, htime, hnon⟩ := hfields
  refine ⟨signing, hsigning, ⟨hmethod.symm, hpath.symm, ?_, htime.symm, hnon.symm⟩⟩
  rw [← hsha, hdigest, sha256Hex, sha256Hex, eqIgnoreAsciiCase_hexLower] at hsame
  exact (hunforged.digest signing hsigning hsame).symm

lemma loadServers_get {servers : List AuthServerConfig} {keys keys' : BTreeMap PublicKeyRecord}
    (h : loadServers L keys servers = .ok keys') :
    (∀ keyId record, keys.get keyId = some record → keys'.get keyId = some record) ∧
      ∀ server ∈ servers, ∃ record, keys'.get server.keyId = some record ∧
        L.decodeBase64 (trim server.publicKey) = some record.verifyingKey := by
  induction servers generalizing keys with
  | nil =>
    cases h
    exact ⟨fun _ _ h => h, nofun⟩
  | cons server servers ih =>
    simp only [loadServers] at h
    cases hnew : keys.containsKey server.keyId with
    | true => simp [hnew, throw, throwThe, MonadExceptOf.throw, bind, Except.bind] at h
    | false =>
    cases hempty : server.permissions.isEmpty with
    | true => simp [hnew, hempty, throw, throwThe, MonadExceptOf.throw, bind, Except.bind] at h
    | false =>
    cases hperm : checkPermissions server.keyId server.permissions with
    | error e => simp [hnew, hempty, hperm, bind, Except.bind] at h
    | ok u =>
    cases hkey : verifyingKey L server with
    | error e => simp [hnew, hempty, hperm, hkey, bind, Except.bind] at h
    | ok key =>
    simp only [hnew, hempty, hperm, hkey, Bool.false_eq_true, if_false, bind, Except.bind] at h
    obtain ⟨hkept, hrest⟩ := ih h
    constructor
    · intro keyId record hget
      refine hkept keyId record ?_
      by_cases hid : keyId = server.keyId
      · subst hid
        rw [OrderedMap.containsKey_iff.mpr ⟨record, hget⟩] at hnew
        cases hnew
      · rwa [OrderedMap.get_insert_of_ne hid]
    · intro other hother
      rcases List.mem_cons.mp hother with rfl | hother
      · refine ⟨_, hkept _ _ OrderedMap.get_insert_self, ?_⟩
        simp only [verifyingKey] at hkey
        split at hkey
        · cases hkey
        · next bytes hdecode =>
          split at hkey
          · cases hkey
            exact hdecode
          · cases hkey
      · exact hrest other hother

lemma loadFromConfig_get {config : AuthConfig} {keys : BTreeMap PublicKeyRecord}
    (h : loadFromConfig L config = .ok keys) {server : AuthServerConfig}
    (hserver : server ∈ config.servers) : ∃ record, keys.get server.keyId = some record ∧
      L.decodeBase64 (trim server.publicKey) = some record.verifyingKey := by
  simp only [loadFromConfig] at h
  by_cases hmode : config.mode = "signed"
  · cases hempty : config.servers.isEmpty with
    | true => simp [hmode, hempty, throw, throwThe, MonadExceptOf.throw, bind, Except.bind] at h
    | false =>
      simp only [hmode, hempty, ne_eq, not_true_eq_false, if_false, Bool.false_eq_true, bind,
        Except.bind] at h
      exact (loadServers_get h).2 server hserver
  · simp [hmode, throw, throwThe, MonadExceptOf.throw, bind, Except.bind] at h

lemma Configured.get {config : AuthConfig} {keys : BTreeMap PublicKeyRecord} {signer : RunnerSigner}
    (h : Configured L S config signer) (hload : loadFromConfig L config = .ok keys) :
    ∃ record, keys.get signer.keyId = some record ∧
      record.verifyingKey = S.verifyingKey signer.signingKey := by
  obtain ⟨server, hserver, hid, hpublic⟩ := h.server
  obtain ⟨record, hget, hdecode⟩ := loadFromConfig_get hload hserver
  rw [hpublic, h.publicKey] at hdecode
  exact ⟨record, hid ▸ hget, (Option.some.inj hdecode).symm⟩

lemma stripPrefix_append (pattern text : String) : stripPrefix pattern (pattern ++ text) = some text := by
  simp [stripPrefix]

variable {signer : RunnerSigner} {signing : Signing} {instant : ℤ}
variable {others : List (String × HeaderValue)}

lemma authenticate_eq_ok (signature : Bytes)
    (hsame : eqIgnoreAsciiCase headers.contentSha256 (L.sha256Hex request.body) = true)
    (hsignature : parseSignature L headers.signature = .ok signature)
    (hverify : L.verify record.verifyingKey (canonicalSignedRequest request.method
      request.pathAndQuery headers.contentSha256 headers.timestamp headers.nonce) signature = true) :
    authenticate L record request headers = .ok ⟨headers.keyId, record.name, record.permissions⟩ := by
  simp [authenticate, hsame, hsignature, hverify, bind, Except.bind, pure, Except.pure]

lemma authenticate_request (others : List (String × HeaderValue))
    (hdigest : ∀ body, L.sha256Hex body = sha256Hex S.sha256 body)
    (hreads : ReadsBack L S signer signing instant)
    (hkey : record.verifyingKey = S.verifyingKey signer.signingKey) :
    authenticate L record (signer.request S signing others) (signer.sign S signing) =
      .ok ⟨signer.keyId, record.name, record.permissions⟩ := by
  refine authenticate_eq_ok (S.sign signer.signingKey (signing.canonical S)) ?_ ?_ ?_
  · rw [hdigest]
    exact eqIgnoreAsciiCase_hexLower.mpr rfl
  · simp only [parseSignature, RunnerSigner.sign, String.append_assoc, stripPrefix_append,
      Option.bind_some, hreads.signature, hreads.signatureLength, if_true]
  · rw [hkey]
    exact hreads.verifies

def Timely (request : Request) (instant : ℤ) (p : AuthPool) : AuthEvent → Prop
  | .step i _ => match p.tasks[i]? with
    | some (r, .call .timestampNow _) => r = request → withinTolerance p.store.clock instant = true
    | _ => True
  | _ => True

def Fresh (request : Request) (p : AuthPool) (e : AuthEvent) : Prop :=
  ∀ entry ∈ nonceEntry p e, entry.request = request →
    (retainedNonces p.store.seenNonces entry.now).containsKey entry.replayKey = false

instance (request : Request) (instant : ℤ) (p : AuthPool) (e : AuthEvent) :
    Decidable (Timely request instant p e) := by
  unfold Timely
  split
  · split <;> infer_instance
  · infer_instance

instance (request : Request) (p : AuthPool) (e : AuthEvent) : Decidable (Fresh request p e) := by
  unfold Fresh
  infer_instance

def Passing (L : Libraries) (record : PublicKeyRecord) (request : Request)
    (headers : SignatureHeaders) (instant : ℤ) : AuthProgram Unit → Prop
  | .call .timestampNow next => next = onTimestampNow L record request headers instant
  | .call .nonceNow next => next = onNonceNow L record request headers
  | .call (.recordNonce r key _) next => r = request ∧
    key = replayKey headers.keyId headers.nonce ∧ next = onRecorded L record request headers
  | .done x => x = .ok ()

section

variable {h : SignatureHeaders} {keys : BTreeMap PublicKeyRecord} {p p' : AuthPool} {e : AuthEvent}

lemma Passing.onTimestampNow {now : ℤ} (hnow : withinTolerance now instant = true)
    (hnonce : isBlank h.nonce = false ∧ h.nonce.utf8ByteSize ≤ 128) :
    Passing L record request h instant (onTimestampNow L record request h instant (.ok now)) := by
  have hvalid : ¬ (isBlank h.nonce = true ∨ h.nonce.utf8ByteSize > 128) := by
    simp [hnonce.1, hnonce.2]
  simp only [Runner.onTimestampNow, hnow, if_true, if_neg hvalid]
  rfl

lemma Passing.onRecorded {context : AuthContext}
    (hok : authenticate L record request h = .ok context) :
    Passing L record request h instant (onRecorded L record request h (.ok ())) := by
  simp only [Runner.onRecorded, hok]
  rfl

lemma Passing.program (hheaders : signatureHeaders request.headers = .ok h)
    (hkey : keys.get h.keyId = some record)
    (htimestamp : L.parseFromRfc3339 h.timestamp = some instant) :
    Passing L record request h instant ((authSystem L keys).program request) := by
  rw [program_eq hheaders hkey htimestamp]
  rfl

lemma Passing.step {c : AuthCall} {next : Except AuthRejection c.Answer → AuthProgram Unit}
    {store : AuthStore} {context : AuthContext}
    (hq : Passing L record request h instant (.call c next))
    (hnonce : isBlank h.nonce = false ∧ h.nonce.utf8ByteSize ≤ 128)
    (hok : authenticate L record request h = .ok context)
    (htimely : c = .timestampNow → withinTolerance store.clock instant = true)
    (hfresh : ∀ key now, c = .recordNonce request key now →
      (retainedNonces store.seenNonces now).containsKey key = false) :
    Passing L record request h instant (next (c.exec () store).1) := by
  cases c with
  | timestampNow =>
    obtain rfl : next = Runner.onTimestampNow L record request h instant := hq
    exact Passing.onTimestampNow (htimely rfl) hnonce
  | nonceNow =>
    obtain rfl : next = onNonceNow L record request h := hq
    exact ⟨rfl, rfl, rfl⟩
  | recordNonce r key now =>
    obtain ⟨rfl, rfl, rfl⟩ := hq
    simp only [AuthCall.exec, hfresh _ _ rfl, Bool.false_eq_true, if_false]
    exact Passing.onRecorded hok

lemma passing_apply {context : AuthContext} (hheaders : signatureHeaders request.headers = .ok h)
    (hkey : keys.get h.keyId = some record)
    (htimestamp : L.parseFromRfc3339 h.timestamp = some instant)
    (hnonce : isBlank h.nonce = false ∧ h.nonce.utf8ByteSize ≤ 128)
    (hok : authenticate L record request h = .ok context)
    (hp : ∀ t ∈ p.tasks, t.1 = request → Passing L record request h instant t.2)
    (htimely : Timely request instant p e) (hfresh : Fresh request p e)
    (ha : (authSystem L keys).apply p e = some p') :
    (∀ t ∈ p'.tasks, t.1 = request → Passing L record request h instant t.2) ∧
      ∀ x, (authSystem L keys).result? p e = some (request, x) → x = .ok () := by
  obtain ⟨r, rfl, -, rfl⟩ | ⟨i, o, r, c, next, rfl, ht, -, rfl⟩ | ⟨i, r, x, rfl, -, rfl⟩ |
    ⟨rfl, rfl⟩ | ⟨v, rfl, rfl⟩ := System.apply_cases ha
  · refine ⟨fun t ht htr => ?_, fun x hx => by cases hx⟩
    rcases List.mem_append.mp ht with ht | ht
    · exact hp t ht htr
    · obtain rfl := List.mem_singleton.mp ht
      obtain rfl : r = request := htr
      exact Passing.program hheaders hkey htimestamp
  · have hnext (hr : r = request) :
        Passing L record request h instant (next (c.exec () p.store).1) := by
      refine Passing.step (hp _ (List.mem_of_getElem? ht) hr) hnonce hok ?_ ?_
      · rintro rfl
        simp only [Timely, ht] at htimely
        exact htimely hr
      · rintro key now rfl
        exact hfresh ⟨request, key, now⟩ (by simp [nonceEntry, Pool.call?, ht]) rfl
    constructor
    · intro t ht' htr
      rcases List.mem_or_eq_of_mem_set ht' with ht' | rfl
      · exact hp t ht' htr
      · exact hnext htr
    · intro x hx
      rw [System.result?_step _ ht, Option.map_eq_some_iff] at hx
      obtain ⟨y, hy, hxy⟩ := hx
      obtain ⟨rfl, rfl⟩ := Prod.mk.inj hxy
      have hdone := hnext rfl
      change (next (c.exec () p.store).1).result? = some y at hy
      cases hq : next (c.exec () p.store).1 with
      | done z =>
        rw [hq] at hy hdone
        cases hy
        exact hdone
      | call c' next' =>
        rw [hq] at hy
        cases hy
  · exact ⟨fun t ht => hp t (List.mem_of_mem_eraseIdx ht), fun x hx => by cases hx⟩
  · exact ⟨fun t ht => (List.not_mem_nil ht).elim, fun x hx => by cases hx⟩
  · exact ⟨hp, fun x hx => by cases hx⟩

lemma apply_last {store store' : AuthStore} {tasks : List (Request × AuthProgram Unit)}
    {r : Request} {c : AuthCall} {next : Except AuthRejection c.Answer → AuthProgram Unit}
    {x : Except AuthRejection c.Answer} {q : AuthProgram Unit} (hx : c.exec () store = (x, store'))
    (hq : next x = q) : (authSystem L keys).apply ⟨store, tasks ++ [(r, .call c next)]⟩
      (.step tasks.length ()) = some ⟨store', tasks ++ [(r, q)]⟩ := by
  simp only [System.apply, List.getElem?_concat_length]
  simp [authSystem, hx, hq]

lemma Passing.run {context : AuthContext} (hheaders : signatureHeaders request.headers = .ok h)
    (hkey : keys.get h.keyId = some record)
    (htimestamp : L.parseFromRfc3339 h.timestamp = some instant)
    (hnonce : isBlank h.nonce = false ∧ h.nonce.utf8ByteSize ≤ 128)
    (hok : authenticate L record request h = .ok context)
    (htimely : withinTolerance p.store.clock instant = true)
    (hfresh : (retainedNonces p.store.seenNonces p.store.clock).containsKey
      (replayKey h.keyId h.nonce) = false) :
    ∃ p', (authSystem L keys).run (.start request :: List.replicate 3 (.step p.tasks.length ())) p =
      some p' ∧ p'.tasks = p.tasks ++ [(request, .done (.ok ()))] := by
  have hvalid : ¬ (isBlank h.nonce = true ∨ h.nonce.utf8ByteSize > 128) := by
    simp [hnonce.1, hnonce.2]
  have hstart : (authSystem L keys).apply p (.start request) =
      some ⟨p.store, p.tasks ++ [(request, (authSystem L keys).program request)]⟩ := by
    simp [System.apply, authSystem]
  have htimestampNow : Runner.onTimestampNow L record request h instant (.ok p.store.clock) =
      .call .nonceNow (onNonceNow L record request h) := by
    simp only [Runner.onTimestampNow, htimely, if_true, if_neg hvalid]
  have hdone : Runner.onRecorded L record request h (.ok ()) = .done (.ok ()) := by
    simp only [Runner.onRecorded, hok]
    rfl
  obtain ⟨store, hrecord⟩ : ∃ store, (AuthCall.recordNonce request (replayKey h.keyId h.nonce)
      p.store.clock).exec () p.store = (.ok (), store) := by
    simp only [AuthCall.exec, hfresh, Bool.false_eq_true, if_false]
    exact ⟨_, rfl⟩
  refine ⟨⟨store, p.tasks ++ [(request, .done (.ok ()))]⟩, ?_, rfl⟩
  rw [System.run_cons hstart, program_eq hheaders hkey htimestamp]
  exact (System.run_cons (apply_last rfl htimestampNow) _).trans
    ((System.run_cons (apply_last rfl rfl) _).trans (System.run_cons (apply_last hrecord hdone) _))

lemma accepted_authenticates (hp : Staged L keys p) (ha : (authSystem L keys).apply p e = some p')
    (hres : (authSystem L keys).result? p e = some (request, .ok ())) :
    ∃ headers record context, signatureHeaders request.headers = .ok headers ∧
      keys.get headers.keyId = some record ∧ authenticate L record request headers = .ok context := by
  have hc : e ≠ .crash := by
    rintro rfl
    cases hres
  obtain ⟨-, hstep⟩ := hp.step hc ha
  cases hstep with
  | quiet hq =>
    obtain ⟨m, hm, -⟩ := hq.result _ _ hres
    cases hm
  | replay _ hres' _ _ _ => cases hres'.symm.trans hres
  | @recorded i r record h now _ hres' _ hh hk _ =>
    obtain ⟨rfl, hx⟩ := Prod.mk.inj (Option.some.inj (hres'.symm.trans hres))
    cases hok : authenticate L record r h with
    | error m => simp [hok, Except.map] at hx
    | ok context => exact ⟨h, record, context, hh, hk, hok⟩

end

theorem requests_authentic (L : Libraries) (S : SigningLibraries) (config : AuthConfig)
    (keys : BTreeMap PublicKeyRecord) (hdigest : ∀ body, L.sha256Hex body = sha256Hex S.sha256 body)
    (hload : loadFromConfig L config = .ok keys) :
    -- Newline-free fields are told apart by their canonical text.
    (∀ fields fields' : SignedFields, (∀ text ∈ fields.list, LineFree text) →
      (∀ text ∈ fields'.list, LineFree text) → fields.canonical = fields'.canonical →
        fields = fields') ∧
    -- What a configured signer signs is accepted, in time and with a fresh nonce.
    (∀ signer signing others instant, Configured L S config signer →
      ReadsBack L S signer signing instant →
      (∀ clock events, (authSystem L keys).Along (fun p e =>
          Timely (signer.request S signing others) instant p e ∧
            Fresh (signer.request S signing others) p e) events ⟨.new clock, []⟩ →
        (authSystem L keys).Along (fun p e => ∀ x, (authSystem L keys).result? p e =
          some (signer.request S signing others, x) → x = .ok ()) events ⟨.new clock, []⟩) ∧
      ∀ p : AuthPool, withinTolerance p.store.clock instant = true →
        (retainedNonces p.store.seenNonces p.store.clock).containsKey
          (replayKey signer.keyId signing.nonce) = false →
        ∃ p', (authSystem L keys).run (.start (signer.request S signing others) ::
            List.replicate 3 (.step p.tasks.length ())) p = some p' ∧
          p'.tasks = p.tasks ++ [(signer.request S signing others, .done (.ok ()))]) ∧
    -- What is accepted, the holder of the key has signed.
    ∀ clock events, (authSystem L keys).Along (fun p e => ∀ request,
      (authSystem L keys).result? p e = some (request, .ok ()) →
        ∃ headers record, signatureHeaders request.headers = .ok headers ∧
          keys.get headers.keyId = some record ∧ ∀ signed : Signing → Prop,
            Unforged L S signed record.verifyingKey request →
            (∀ signing, signed signing → signing.LineFree S) → LineFreeRequest request →
            ∃ signing, signed signing ∧ SameRequest S signing request headers)
      events ⟨.new clock, []⟩ := by
  refine ⟨fun _ _ h h' => SignedFields.canonical_injOn h h', ?_, ?_⟩
  · intro signer signing others instant hconfigured hreads
    obtain ⟨record, hget, hkey⟩ := hconfigured.get hload
    have hheaders : signatureHeaders (signer.request S signing others).headers =
        .ok (signer.sign S signing) := signatureHeaders_apply _ _
    have hok := authenticate_request others hdigest hreads hkey
    constructor
    · intro clock events
      refine System.Along.of_invariant (I := fun p => ∀ t ∈ p.tasks,
        t.1 = signer.request S signing others → Passing L record (signer.request S signing others)
          (signer.sign S signing) instant t.2) ?_ ?_ nofun
      · intro p e p' hp he ha
        exact (passing_apply hheaders hget hreads.timestamp hreads.nonce hok hp he.1 he.2 ha).1
      · intro p e p' hp he ha
        exact (passing_apply hheaders hget hreads.timestamp hreads.nonce hok hp he.1 he.2 ha).2
    · intro p htimely hfresh
      exact Passing.run hheaders hget hreads.timestamp hreads.nonce hok htimely hfresh
  · intro clock events
    refine System.Along.of_invariant (I := Staged L keys) ?_ ?_ nofun
      (System.Along.of_forall (P := fun _ _ => True) (fun _ _ => trivial) _ _)
    · intro p e p' hp _ ha
      by_cases hc : e = .crash
      · subst hc
        cases ha
        exact nofun
      · exact (hp.step hc ha).1
    · intro p e p' hp _ ha request hres
      obtain ⟨headers, record, context, hh, hk, hok⟩ := accepted_authenticates hp ha hres
      exact ⟨headers, record, hh, hk, fun signed hunforged hsigned hline =>
        authenticate_signed hdigest hh hok hunforged hsigned hline⟩

def sampleSignatureBytes : Bytes :=
  [164, 204, 23, 131, 80, 22, 22, 197, 55, 56, 170, 193, 50, 227, 62, 98, 96, 128, 228, 36, 81, 208,
    147, 89, 89, 96, 243, 20, 64, 136, 32, 148, 58, 242, 40, 116, 51, 235, 29, 139, 112, 146, 201, 82,
    224, 24, 109, 128, 47, 4, 217, 11, 40, 82, 50, 139, 154, 56, 226, 209, 239, 174, 179, 12]

def emptyDigest : Bytes :=
  [227, 176, 196, 66, 152, 252, 28, 20, 154, 251, 244, 200, 153, 111, 185, 36, 39, 174, 65, 228, 100,
    155, 147, 76, 164, 149, 153, 27, 120, 82, 184, 85]

def sampleSigning : Signing where
  method := "GET"
  pathAndQuery := "/jobs"
  body := []
  now := seconds 1767225900
  nonce := "019b76f2-3420-7b3c-9d1e-5a6b7c8d9e0f"

def sampleSigner : RunnerSigner := ⟨"main", List.replicate 32 7⟩

def sampleSigningLibraries : SigningLibraries where
  toRfc3339Secs _ := "2026-01-01T00:05:00Z"
  encodeBase64 bytes :=
    if bytes = samplePublicKey then "6kpsY+KcUgq+9VB7Ey7F+ZVHdq6+vnuSQh7qaRRG0iw="
    else "pMwXg1AWFsU3OKrBMuM+YmCA5CRR0JNZWWDzFECIIJQ68ih0M+sdi3CSyVLgGG2ALwTZCyhSMouaOOLR766zDA=="
  sha256 body := if body = [] then emptyDigest else body
  verifyingKey _ := samplePublicKey
  sign _ _ := sampleSignatureBytes

def signingLibraries : Libraries where
  parseFromRfc3339 := sampleLibraries.parseFromRfc3339
  decodeBase64 text :=
    if text = "6kpsY+KcUgq+9VB7Ey7F+ZVHdq6+vnuSQh7qaRRG0iw=" then some samplePublicKey
    else some sampleSignatureBytes
  sha256Hex := sha256Hex sampleSigningLibraries.sha256
  isVerifyingKey key := key = samplePublicKey
  verify key message signature := key = samplePublicKey ∧ signature = sampleSignatureBytes ∧
    message = sampleSigning.canonical sampleSigningLibraries

lemma load_signingLibraries : loadFromConfig signingLibraries sampleConfig = .ok sampleKeys := by
  rfl

def signedRequest : Request := sampleSigner.request sampleSigningLibraries sampleSigning []

theorem requests_authentic_sample :
    ((authSystem signingLibraries sampleKeys).run (verifying signedRequest)
        ⟨.new (seconds 1767226000), []⟩).isSome ∧
      (authSystem signingLibraries sampleKeys).Along (fun p e =>
        (∀ x, (authSystem signingLibraries sampleKeys).result? p e = some (signedRequest, x) →
          x = .ok ()) ∧
        ((authSystem signingLibraries sampleKeys).result? p e = some (signedRequest, .ok ()) →
          ∃ headers, SameRequest sampleSigningLibraries sampleSigning signedRequest headers))
        (verifying signedRequest) ⟨.new (seconds 1767226000), []⟩ := by
  obtain ⟨-, haccepted, hsigned⟩ := requests_authentic signingLibraries sampleSigningLibraries
    sampleConfig sampleKeys (fun _ => rfl) load_signingLibraries
  have hconfigured : Configured signingLibraries sampleSigningLibraries sampleConfig sampleSigner :=
    ⟨⟨_, List.mem_singleton_self _, rfl, rfl⟩, rfl⟩
  have hreads : ReadsBack signingLibraries sampleSigningLibraries sampleSigner sampleSigning
      (seconds 1767225900) := ⟨rfl, rfl, by decide +kernel, rfl, by decide +kernel⟩
  refine ⟨by decide +kernel, ?_⟩
  refine ((haccepted sampleSigner sampleSigning [] _ hconfigured hreads).1 (seconds 1767226000)
    (verifying signedRequest) ?_).and ((hsigned _ _).mono fun p e he hres => ?_)
  · decide +kernel
  · obtain ⟨headers, record, -, -, hsame⟩ := he signedRequest hres
    have hunforged : Unforged signingLibraries sampleSigningLibraries (· = sampleSigning)
        record.verifyingKey signedRequest := by
      constructor
      · intro headers signature _ hverify
        simp only [signingLibraries, decide_eq_true_eq] at hverify
        exact ⟨sampleSigning, rfl, hverify.2.2.symm⟩
      · rintro signing rfl -
        rfl
    have hline : ∀ signing, signing = sampleSigning → signing.LineFree sampleSigningLibraries := by
      rintro signing rfl
      unfold Signing.LineFree
      decide +kernel
    have hrequest : LineFreeRequest signedRequest := by
      refine ⟨by decide +kernel, by decide +kernel, fun name text hmem => ?_⟩
      simp only [signedRequest, RunnerSigner.request, apply, List.append_nil, List.mem_cons,
        Prod.mk.injEq, HeaderValue.text.injEq, List.not_mem_nil, or_false] at hmem
      rcases hmem with ⟨-, rfl⟩ | ⟨-, rfl⟩ | ⟨-, rfl⟩ | ⟨-, rfl⟩ | ⟨-, rfl⟩ <;> decide +kernel
    obtain ⟨signing, rfl, h⟩ := hsame _ hunforged hline hrequest
    exact ⟨headers, h⟩

end Janus.Network
