import Janus.Concurrency.Pool
import Janus.Server.RunnerClient

/-! How the runner authenticates signed requests. -/

namespace Janus.Runner

open Janus.Concurrency Janus.Data Janus.Server

def seconds (n : ℤ) : ℤ := n * 1000000000

def signatureToleranceSeconds : ℤ := 300

def nonceRetentionSeconds : ℤ := signatureToleranceSeconds * 2

def knownPermissions : List String :=
  ["artifacts:write", "artifacts:read", "jobs:run", "jobs:read", "logs:read"]

structure AuthServerConfig where
  name : String
  keyId : String
  publicKey : String
  permissions : List String

structure AuthConfig where
  mode : String
  servers : List AuthServerConfig

inductive AuthError
  | unsupportedMode (mode : String)
  | noTrustedServers
  | duplicateKeyId (keyId : String)
  | emptyPermissions (keyId : String)
  | unknownPermission (keyId permission : String)
  | invalidPublicKey (keyId : String)

structure PublicKeyRecord where
  name : String
  verifyingKey : Bytes
  permissions : BTreeMap Unit

structure AuthContext where
  keyId : String
  serverName : String
  permissions : BTreeMap Unit

inductive AuthRejection
  | missingAuthorization | invalidAuthorizationHeader | invalidKeyId | invalidSignature
  | invalidTimestamp | invalidNonce | replay | contentShaMismatch
  deriving DecidableEq

/-- What the runner takes from the libraries for dates, encodings and signatures. -/
structure Libraries where
  parseFromRfc3339 : String → Option ℤ
  decodeBase64 : String → Option Bytes
  sha256Hex : Bytes → String
  isVerifyingKey : Bytes → Bool
  verify : (key : Bytes) → (message : String) → (signature : Bytes) → Bool

def checkPermissions (keyId : String) : List String → Except AuthError Unit
  | [] => .ok ()
  | permission :: permissions =>
    if knownPermissions.contains permission then checkPermissions keyId permissions
    else .error (.unknownPermission keyId permission)

def permissionSet (permissions : List String) : BTreeMap Unit :=
  permissions.foldl (fun set permission => set.insert permission ()) .empty

inductive HeaderValue
  | text (value : String)
  | binary
  deriving DecidableEq

structure Request where
  method : String
  pathAndQuery : String
  headers : List (String × HeaderValue)
  body : Bytes
  deriving DecidableEq

def requiredHeader (headers : List (String × HeaderValue)) (name : String) :
    Except AuthRejection String :=
  match headers.lookup name with
  | none => .error .missingAuthorization
  | some .binary => .error .invalidAuthorizationHeader
  | some (.text value) => .ok value

structure SignatureHeaders where
  keyId : String
  timestamp : String
  nonce : String
  contentSha256 : String
  signature : String

def signatureHeaders (headers : List (String × HeaderValue)) :
    Except AuthRejection SignatureHeaders := do
  let keyId ← requiredHeader headers "x-janus-key-id"
  let timestamp ← requiredHeader headers "x-janus-timestamp"
  let nonce ← requiredHeader headers "x-janus-nonce"
  let contentSha256 ← requiredHeader headers "x-janus-content-sha256"
  let signature ← requiredHeader headers "x-janus-signature"
  return ⟨keyId, timestamp, nonce, contentSha256, signature⟩

def canonicalSignedRequest (method pathAndQuery contentSha256 timestamp nonce : String) : String :=
  method ++ "\n" ++ pathAndQuery ++ "\n" ++ contentSha256 ++ "\n" ++ timestamp ++ "\n" ++ nonce

def eqIgnoreAsciiCase (a b : String) : Bool :=
  a.toList.map Char.toLower == b.toList.map Char.toLower

def stripPrefix (pattern text : String) : Option String :=
  if pattern.toList.isPrefixOf text.toList then
    some (String.ofList (text.toList.drop pattern.toList.length))
  else none

def replayKey (keyId nonce : String) : String := keyId ++ ":" ++ nonce

section

variable (L : Libraries)

def verifyingKey (server : AuthServerConfig) : Except AuthError Bytes :=
  match L.decodeBase64 (trim server.publicKey) with
  | none => .error (.invalidPublicKey server.keyId)
  | some bytes =>
    if bytes.length = 32 ∧ L.isVerifyingKey bytes = true then .ok bytes
    else .error (.invalidPublicKey server.keyId)

def loadServers (keys : BTreeMap PublicKeyRecord) :
    List AuthServerConfig → Except AuthError (BTreeMap PublicKeyRecord)
  | [] => .ok keys
  | server :: servers => do
    if keys.containsKey server.keyId then throw (.duplicateKeyId server.keyId)
    if server.permissions.isEmpty then throw (.emptyPermissions server.keyId)
    checkPermissions server.keyId server.permissions
    let key ← verifyingKey L server
    loadServers (keys.insert server.keyId ⟨server.name, key, permissionSet server.permissions⟩)
      servers

/-- The keys of the store that `load_from_config` builds; its table of nonces is empty. -/
def loadFromConfig (config : AuthConfig) : Except AuthError (BTreeMap PublicKeyRecord) := do
  if config.mode ≠ "signed" then throw (.unsupportedMode config.mode)
  if config.servers.isEmpty then throw .noTrustedServers
  loadServers L .empty config.servers

def parseSignature (value : String) : Except AuthRejection Bytes :=
  match (stripPrefix "ed25519" value).bind (stripPrefix ":") with
  | none => .error .invalidAuthorizationHeader
  | some encoded =>
    match L.decodeBase64 encoded with
    | none => .error .invalidAuthorizationHeader
    | some bytes => if bytes.length = 64 then .ok bytes else .error .invalidAuthorizationHeader

/-- What `verify_request` checks after the nonce. -/
def authenticate (record : PublicKeyRecord) (request : Request) (headers : SignatureHeaders) :
    Except AuthRejection AuthContext := do
  let actualSha256 := L.sha256Hex request.body
  if eqIgnoreAsciiCase headers.contentSha256 actualSha256 = false then throw .contentShaMismatch
  let signature ← parseSignature L headers.signature
  let canonical := canonicalSignedRequest request.method request.pathAndQuery headers.contentSha256
    headers.timestamp headers.nonce
  if L.verify record.verifyingKey canonical signature = false then throw .invalidSignature
  return ⟨headers.keyId, record.name, record.permissions⟩

end

inductive AuthCall
  | timestampNow
  | nonceNow
  | recordNonce (request : Request) (replayKey : String) (now : ℤ)

def AuthCall.Answer : AuthCall → Type
  | .timestampNow | .nonceNow => ℤ
  | .recordNonce _ _ _ => Unit

structure AuthStore where
  clock : ℤ
  seenNonces : BTreeMap ℤ
  recorded : List Request

def AuthStore.new (clock : ℤ) : AuthStore := ⟨clock, .empty, []⟩

/-- The nonces that `verify_nonce` still remembers at an instant. -/
def retainedNonces (seen : BTreeMap ℤ) (now : ℤ) : BTreeMap ℤ :=
  seen.retain fun _ seenAt => now - seconds nonceRetentionSeconds ≤ seenAt

def AuthCall.exec : (c : AuthCall) → Unit → AuthStore → Except AuthRejection c.Answer × AuthStore
  | .timestampNow, _, store => (.ok store.clock, store)
  | .nonceNow, _, store => (.ok store.clock, store)
  | .recordNonce request key now, _, store =>
    let seen := retainedNonces store.seenNonces now
    if seen.containsKey key then (.error .replay, { store with seenNonces := seen })
    else (.ok (), { store with
      seenNonces := seen.insert key now
      recorded := request :: store.recorded })

abbrev AuthProgram := Program AuthCall AuthCall.Answer AuthRejection

def withinTolerance (now timestamp : ℤ) : Bool :=
  decide (((now - timestamp).tdiv (seconds 1)).natAbs ≤ signatureToleranceSeconds)

section

variable (L : Libraries)

def verifyTimestamp (value : String) : AuthProgram Unit :=
  match L.parseFromRfc3339 value with
  | none => .fail .invalidTimestamp
  | some timestamp => do
    let now : ℤ ← Program.request AuthCall.timestampNow
    if withinTolerance now timestamp then pure () else .fail .invalidTimestamp

def verifyNonce (request : Request) (keyId nonce : String) : AuthProgram Unit :=
  if isBlank nonce ∨ nonce.utf8ByteSize > 128 then .fail .invalidNonce
  else do
    let now : ℤ ← Program.request AuthCall.nonceNow
    Program.request (AuthCall.recordNonce request (replayKey keyId nonce) now)

def verifyRequest (keys : BTreeMap PublicKeyRecord) (request : Request) : AuthProgram AuthContext := do
  let headers ← .done (signatureHeaders request.headers)
  match keys.get headers.keyId with
  | none => .fail .invalidKeyId
  | some record =>
    verifyTimestamp L headers.timestamp
    verifyNonce request headers.keyId headers.nonce
    .done (authenticate L record request headers)

def authSystem (keys : BTreeMap PublicKeyRecord) :
    System Request AuthCall AuthCall.Answer AuthRejection AuthStore Unit ℕ where
  program request := do
    let _ ← verifyRequest L keys request
    pure ()
  beside _ _ := true
  exec := AuthCall.exec
  environ elapsed store := { store with clock := store.clock + elapsed }

end

end Janus.Runner
