import BerryKeep.StatefulProgram
import BerryKeep.ClusterPlacement
import BerryKeep.ContentCodec

/-!
Signed requests of client devices. A request names its cluster, device and
credential, the second at which it was signed and a nonce; the device key signs
those fields trimmed, together with the method and the path. A request is
accepted when the signature is right, the second is near the clock and the
device and nonce, as they stand in the headers, have not been seen lately.
The signature scheme, the digest and the identifier syntax are parameters.
-/
namespace BerryKeepClientRequestAuth
open FiniteTable TextOperations StatefulProgram BerryKeepClusterPlacement BerryKeepContentCodec
variable {α : Type}

def headerClusterId : String := "x-berrykeep-cluster-id"
def headerDeviceId : String := "x-berrykeep-device-id"
def headerCredentialFingerprint : String := "x-berrykeep-credential-fingerprint"
def headerAuthTimestamp : String := "x-berrykeep-auth-timestamp"
def headerAuthNonce : String := "x-berrykeep-auth-nonce"
def headerAuthSignature : String := "x-berrykeep-auth-signature"
def legacyHeaderClusterId : String := "x-ironmesh-cluster-id"
def legacyHeaderDeviceId : String := "x-ironmesh-device-id"
def legacyHeaderCredentialFingerprint : String := "x-ironmesh-credential-fingerprint"
def legacyHeaderAuthTimestamp : String := "x-ironmesh-auth-timestamp"
def legacyHeaderAuthNonce : String := "x-ironmesh-auth-nonce"
def legacyHeaderAuthSignature : String := "x-ironmesh-auth-signature"

def requestAuthContext : String := "berrykeep-client-request-v1"
def legacyRequestAuthContext : String := "ironmesh-client-request-v1"

def clientAuthMaxClockSkewSecs : Nat := 300

/-- A cluster id is a UUID and is written as a node id is. -/
abbrev ClusterId := NodeId

structure SignedRequestHeaders where
  clusterId : ClusterId
  deviceId : String
  credentialFingerprint : String
  timestampUnix : Nat
  nonce : String
  signatureBase64 : String
  deriving DecidableEq

structure ClientCredential where
  deviceId : String
  label : Option String
  publicKeyPem : Option String
  credentialFingerprint : Option String
  issuedCredentialPem : Option String
  revokedAtUnix : Option Nat

structure AuthenticatedClientIdentity where
  deviceId : String
  label : Option String
  credentialFingerprint : Option String
  deriving DecidableEq

structure AuthLibraries where
  parseUuid : String → Option ClusterId
  decodeBase64Url : String → Option Bytes
  isPublicKeyPem : String → Bool
  verify : String → String → Bytes → Bool
  digestHex : String → String

abbrev HeaderMap := String → Option Bytes

def isVisibleAscii (b : UInt8) : Bool := (32 ≤ b && b < 127) || b == 9

def headerText (value : Bytes) : Option String :=
  if value.all isVisibleAscii then some (String.ofList (value.map fun b => Char.ofNat b.toNat))
  else none

structure AuthCall where
  headers : HeaderMap
  method : String
  pathAndQuery : String
  credentials : List ClientCredential
  now : Nat

def lookupHeader (headers : HeaderMap) (name : String) : Option String :=
  (headers name).bind headerText

def lookupCanonicalOrLegacyHeader (headers : HeaderMap) (canonical_name legacy_name : String) :
    Option String :=
  (lookupHeader headers canonical_name).or (lookupHeader headers legacy_name)

def required (value : Option α) (context : String) : Except String α :=
  match value with
  | some value => .ok value
  | none => .error context

def SignedRequestHeaders.validate (h : SignedRequestHeaders) : Except String Unit :=
  if h.clusterId = 0 then .error "signed request headers must include a non-nil cluster_id"
  else if isBlank h.deviceId then .error "signed request headers must include a device_id"
  else if isBlank h.credentialFingerprint then
    .error "signed request headers must include a credential_fingerprint"
  else if isBlank h.nonce then .error "signed request headers must include a nonce"
  else if isBlank h.signatureBase64 then .error "signed request headers must include a signature"
  else .ok ()

def fromHeaderLookup (lib : AuthLibraries) (headers : HeaderMap) :
    Except String SignedRequestHeaders := do
  let lookup := lookupCanonicalOrLegacyHeader headers
  let cluster_text ← required (lookup headerClusterId legacyHeaderClusterId)
    "missing cluster_id request header"
  let cluster_id ← required (lib.parseUuid cluster_text) "invalid cluster_id request header"
  let timestamp_text ← required (lookup headerAuthTimestamp legacyHeaderAuthTimestamp)
    "missing auth timestamp request header"
  let timestamp_unix ← required (parseU64 timestamp_text) "invalid auth timestamp request header"
  let device_id ← required (lookup headerDeviceId legacyHeaderDeviceId)
    "missing device_id request header"
  let credential_fingerprint ←
    required (lookup headerCredentialFingerprint legacyHeaderCredentialFingerprint)
      "missing credential_fingerprint request header"
  let nonce ← required (lookup headerAuthNonce legacyHeaderAuthNonce)
    "missing auth nonce request header"
  let signature_base64 ← required (lookup headerAuthSignature legacyHeaderAuthSignature)
    "missing auth signature request header"
  let headers : SignedRequestHeaders :=
    ⟨cluster_id, device_id, credential_fingerprint, timestamp_unix, nonce, signature_base64⟩
  headers.validate
  return headers

def normalizePathAndQuery (path_and_query : String) : String :=
  let trimmed := trim path_and_query
  if trimmed = "" ∨ trimmed = "*" then "/"
  else if trimmed.toList.head? = some '/' then trimmed
  else "/" ++ trimmed

def canonicalRequestMessage (headers : SignedRequestHeaders) (method path_and_query : String)
    (request_auth_context : String) : String :=
  request_auth_context ++ "\n" ++ (nodeIdText headers.clusterId ++ "\n" ++
    (trim headers.deviceId ++ "\n" ++ (trim headers.credentialFingerprint ++ "\n" ++
      (toString headers.timestampUnix ++ "\n" ++ (trim headers.nonce ++ "\n" ++
        (toAsciiUppercase (trim method) ++ "\n" ++ normalizePathAndQuery path_and_query))))))

def verifySignedRequestHeaders (lib : AuthLibraries) (headers : SignedRequestHeaders)
    (public_key_pem method path_and_query : String) : Except String Unit := do
  headers.validate
  if isBlank public_key_pem then
    .error "signed request verification requires a public key"
  else if !lib.isPublicKeyPem public_key_pem then .error "failed to parse client public key PEM"
  else match lib.decodeBase64Url headers.signatureBase64 with
    | none => .error "failed to decode request signature"
    | some signature =>
      if signature.length ≠ 64 then .error "request signature had invalid length"
      else if lib.verify public_key_pem
          (canonicalRequestMessage headers method path_and_query requestAuthContext) signature then
        .ok ()
      else if lib.verify public_key_pem
          (canonicalRequestMessage headers method path_and_query legacyRequestAuthContext)
          signature then .ok ()
      else
        .error "request signature verification failed for canonical or legacy request context"

def credentialFingerprint (lib : AuthLibraries) (credential_pem : String) : Option String :=
  let credential_pem := trim credential_pem
  if credential_pem = "" then none else some (lib.digestHex credential_pem)

def storedCredentialFingerprint (lib : AuthLibraries) (device : ClientCredential) : Option String :=
  match device.credentialFingerprint.filter fun fingerprint => !isBlank fingerprint with
  | some fingerprint => some fingerprint
  | none => device.issuedCredentialPem.bind (credentialFingerprint lib)

abbrev ClientAuthReplayCache := Table String Nat

def ClientAuthReplayCache.prune (cache : ClientAuthReplayCache) (now : Nat) :
    ClientAuthReplayCache :=
  let oldest_allowed := now - clientAuthMaxClockSkewSecs * 2
  cache.retain fun _ seen_at => decide (oldest_allowed ≤ seen_at)

def ClientAuthReplayCache.remember (cache : ClientAuthReplayCache) (device_id nonce : String)
    (now : Nat) : Bool × ClientAuthReplayCache :=
  let cache := ClientAuthReplayCache.prune cache now
  let key := device_id ++ ":" ++ nonce
  (!cache.has key, cache.put key now)

/-- Every check that comes before the replay cache; the only answer to a failure is 401. -/
def checkedHeaders (lib : AuthLibraries) (cluster_id : ClusterId) (call : AuthCall) :
    Option (SignedRequestHeaders × AuthenticatedClientIdentity) := do
  let signed_headers ← (fromHeaderLookup lib call.headers).toOption
  guard (signed_headers.clusterId = cluster_id)
  guard (call.now - clientAuthMaxClockSkewSecs ≤ signed_headers.timestampUnix ∧
    signed_headers.timestampUnix ≤ min (call.now + clientAuthMaxClockSkewSecs) (2 ^ 64 - 1))
  let device ← call.credentials.find? fun device =>
    device.revokedAtUnix.isNone && device.deviceId == signed_headers.deviceId
  let public_key_pem ← device.publicKeyPem
  let stored_credential_fingerprint ← storedCredentialFingerprint lib device
  guard (stored_credential_fingerprint = signed_headers.credentialFingerprint)
  let _ ← (verifySignedRequestHeaders lib signed_headers public_key_pem call.method
    call.pathAndQuery).toOption
  return (signed_headers,
    ⟨signed_headers.deviceId, device.label, some stored_credential_fingerprint⟩)

def unauthorized : Nat := 401

def validateClientAuthRequest (lib : AuthLibraries) (cluster_id : ClusterId) (call : AuthCall)
    (cache : ClientAuthReplayCache) :
    Except Nat AuthenticatedClientIdentity × ClientAuthReplayCache :=
  match checkedHeaders lib cluster_id call with
  | none => (.error unauthorized, cache)
  | some (signed_headers, identity) =>
    let (fresh, cache) := ClientAuthReplayCache.remember cache signed_headers.deviceId
      signed_headers.nonce call.now
    (if fresh then .ok identity else .error unauthorized, cache)

/-- A server that has served some calls: its replay cache, the last second it judged a call
    at, and the calls it accepted. -/
structure AuthServer where
  cache : ClientAuthReplayCache
  clock : Nat
  accepted : List AuthCall

def serve (lib : AuthLibraries) (cluster_id : ClusterId) (call : AuthCall) (server : AuthServer) :
    AuthServer :=
  match validateClientAuthRequest lib cluster_id call server.cache with
  | (.ok _, cache) => ⟨cache, call.now, server.accepted ++ [call]⟩
  | (.error _, cache) => ⟨cache, call.now, server.accepted⟩

def SignedText (lib : AuthLibraries) (call : AuthCall) (text : String) : Prop :=
  ∃ headers, fromHeaderLookup lib call.headers = .ok headers ∧
    (text = canonicalRequestMessage headers call.method call.pathAndQuery requestAuthContext ∨
      text = canonicalRequestMessage headers call.method call.pathAndQuery
        legacyRequestAuthContext)

def AcceptedOnce (lib : AuthLibraries) (accepted : List AuthCall) : Prop :=
  accepted.Pairwise fun earlier later => ∀ text, SignedText lib earlier text →
    ¬SignedText lib later text

def Unpadded (lib : AuthLibraries) (call : AuthCall) : Prop :=
  ∀ headers, fromHeaderLookup lib call.headers = .ok headers →
    trim headers.deviceId = headers.deviceId ∧ trim headers.nonce = headers.nonce

section Lines

theorem headerText_line {value : Bytes} {text : String} (read : headerText value = some text) :
    '\n' ∉ text.toList := by
  unfold headerText at read
  split at read
  · next visible =>
    cases read
    intro member
    rw [String.toList_ofList, List.mem_map] at member
    obtain ⟨b, listed, is_newline⟩ := member
    have shown := List.all_eq_true.mp visible b listed
    have apart : ∀ n < 256, isVisibleAscii (UInt8.ofNat n) = true → Char.ofNat n ≠ '\n' := by
      decide +kernel
    exact apart b.toNat b.toNat_lt (by rwa [UInt8.ofNat_toNat]) is_newline
  · cases read

theorem lookup_line {headers : HeaderMap} {canonical_name legacy_name text : String}
    (read : lookupCanonicalOrLegacyHeader headers canonical_name legacy_name = some text) :
    '\n' ∉ text.toList := by
  have one : ∀ name, lookupHeader headers name = some text → '\n' ∉ text.toList := by
    intro name found
    obtain ⟨value, -, shown⟩ := Option.bind_eq_some_iff.mp found
    exact headerText_line shown
  unfold lookupCanonicalOrLegacyHeader at read
  rcases Option.or_eq_some_iff.mp read with canonical | ⟨-, legacy⟩
  · exact one _ canonical
  · exact one _ legacy

theorem required_ok {value : Option α} {context : String} {found : α}
    (ok : required value context = .ok found) : value = some found := by
  cases value with
  | none => cases ok
  | some value => cases ok; rfl

theorem nodeIdText_line (node_id : NodeId) : '\n' ∉ (nodeIdText node_id).toList := by
  have digit : ∀ n < 16, hexDigit n ≠ '\n' := by decide
  have digits : '\n' ∉ (List.range 32).map fun i =>
      hexDigit (node_id.val / 16 ^ (31 - i) % 16) := by
    intro member
    obtain ⟨i, -, is_newline⟩ := List.mem_map.mp member
    exact digit _ (Nat.mod_lt _ (by decide)) is_newline
  unfold nodeIdText
  generalize ((List.range 32).map fun i => hexDigit (node_id.val / 16 ^ (31 - i) % 16)) = text
    at digits
  have cut : ∀ n k, '\n' ∉ (text.drop n).take k := fun n k member =>
    digits (List.mem_of_mem_drop (List.mem_of_mem_take member))
  have front : '\n' ∉ text.take 8 := fun member => digits (List.mem_of_mem_take member)
  have rest : '\n' ∉ text.drop 20 := fun member => digits (List.mem_of_mem_drop member)
  simp only [String.toList_ofList, List.mem_append, List.mem_singleton, cut, front, rest]
  decide

theorem decimal_line (n : Nat) : '\n' ∉ (toString n).toList := by
  rw [Nat.toString_eq_repr, Nat.toList_repr]
  intro member
  have digit := Nat.isDigit_of_mem_toDigits (by decide) (by decide) member
  revert digit
  decide

theorem decimal_injective {n m : Nat} (same : toString n = toString m) : n = m := by
  have digits := congrArg String.toList same
  rw [Nat.toString_eq_repr, Nat.toString_eq_repr, Nat.toList_repr, Nat.toList_repr] at digits
  rw [← Nat.ofDigitChars_ten_toDigits (n := n), digits, Nat.ofDigitChars_ten_toDigits]

end Lines

section Messages
variable {lib : AuthLibraries} {headers : HeaderMap} {signed other : SignedRequestHeaders}

theorem parsed_lines (parsed : fromHeaderLookup lib headers = .ok signed) :
    '\n' ∉ signed.deviceId.toList ∧ '\n' ∉ signed.credentialFingerprint.toList ∧
      '\n' ∉ signed.nonce.toList := by
  unfold fromHeaderLookup at parsed
  obtain ⟨_, -, parsed⟩ := except_bind_ok parsed
  obtain ⟨_, -, parsed⟩ := except_bind_ok parsed
  obtain ⟨_, -, parsed⟩ := except_bind_ok parsed
  obtain ⟨_, -, parsed⟩ := except_bind_ok parsed
  obtain ⟨device_id, device, parsed⟩ := except_bind_ok parsed
  obtain ⟨fingerprint, credential, parsed⟩ := except_bind_ok parsed
  obtain ⟨nonce, nonced, parsed⟩ := except_bind_ok parsed
  obtain ⟨_, -, parsed⟩ := except_bind_ok parsed
  obtain ⟨_, -, parsed⟩ := except_bind_ok parsed
  cases parsed
  exact ⟨lookup_line (required_ok device), lookup_line (required_ok credential),
    lookup_line (required_ok nonced)⟩

theorem message_fields {method path method' path' context context' : String}
    (first : '\n' ∉ context.toList) (second : '\n' ∉ context'.toList)
    (lines : '\n' ∉ signed.deviceId.toList ∧ '\n' ∉ signed.credentialFingerprint.toList ∧
      '\n' ∉ signed.nonce.toList)
    (lines' : '\n' ∉ other.deviceId.toList ∧ '\n' ∉ other.credentialFingerprint.toList ∧
      '\n' ∉ other.nonce.toList)
    (same : canonicalRequestMessage signed method path context =
      canonicalRequestMessage other method' path' context') :
    trim signed.deviceId = trim other.deviceId ∧ trim signed.nonce = trim other.nonce ∧
      signed.timestampUnix = other.timestampUnix := by
  have trimmed : ∀ {text : String}, '\n' ∉ text.toList → '\n' ∉ (trim text).toList :=
    fun clean member => clean (trim_subset member)
  unfold canonicalRequestMessage at same
  obtain ⟨-, rest⟩ := line_cancel first second same
  obtain ⟨-, rest⟩ := line_cancel (nodeIdText_line _) (nodeIdText_line _) rest
  obtain ⟨device, rest⟩ := line_cancel (trimmed lines.1) (trimmed lines'.1) rest
  obtain ⟨-, rest⟩ := line_cancel (trimmed lines.2.1) (trimmed lines'.2.1) rest
  obtain ⟨seconds, rest⟩ := line_cancel (decimal_line _) (decimal_line _) rest
  obtain ⟨nonce, -⟩ := line_cancel (trimmed lines.2.2) (trimmed lines'.2.2) rest
  exact ⟨device, nonce, decimal_injective seconds⟩

end Messages

section Runs
variable {lib : AuthLibraries} {cluster_id : ClusterId} {call : AuthCall}

def replayKey (headers : SignedRequestHeaders) : String := headers.deviceId ++ ":" ++ headers.nonce

theorem checkedHeaders_spec {signed : SignedRequestHeaders}
    {identity : AuthenticatedClientIdentity}
    (checked : checkedHeaders lib cluster_id call = some (signed, identity)) :
    fromHeaderLookup lib call.headers = .ok signed ∧
      call.now ≤ signed.timestampUnix + clientAuthMaxClockSkewSecs ∧
      signed.timestampUnix ≤ call.now + clientAuthMaxClockSkewSecs := by
  unfold checkedHeaders at checked
  cases parsed : fromHeaderLookup lib call.headers with
  | error message => simp [parsed, Except.toOption] at checked
  | ok headers =>
    simp only [parsed, Except.toOption, Option.bind_eq_bind, Option.bind_some,
      Option.bind_eq_some_iff, Option.guard_eq_some'] at checked
    obtain ⟨-, -, -, window, device, -, _, -, fingerprint, -, -, -, -, -, same⟩ := checked
    cases same
    exact ⟨rfl, by omega, by omega⟩

theorem remember_keeps {cache : ClientAuthReplayCache} {key device_id nonce : String}
    {since seen_at now : Nat} (stored : cache.get key = some seen_at) (after : since ≤ seen_at)
    (young : now ≤ since + clientAuthMaxClockSkewSecs * 2) (order : since ≤ now) :
    ∃ seen_at, (ClientAuthReplayCache.remember cache device_id nonce now).2.get key =
      some seen_at ∧ since ≤ seen_at := by
  simp only [ClientAuthReplayCache.remember, get_put]
  split
  · exact ⟨now, rfl, order⟩
  · have kept : now ≤ seen_at + clientAuthMaxClockSkewSecs * 2 := by omega
    exact ⟨seen_at, by simp [ClientAuthReplayCache.prune, get_retain, stored, kept], after⟩

theorem remember_refuses {cache : ClientAuthReplayCache} {device_id nonce : String}
    {since seen_at now : Nat} (stored : cache.get (device_id ++ ":" ++ nonce) = some seen_at)
    (after : since ≤ seen_at) (young : now ≤ since + clientAuthMaxClockSkewSecs * 2) :
    (ClientAuthReplayCache.remember cache device_id nonce now).1 = false := by
  have kept : now ≤ seen_at + clientAuthMaxClockSkewSecs * 2 := by omega
  simp [ClientAuthReplayCache.remember, ClientAuthReplayCache.prune, Table.has, get_retain,
    stored, kept]

/-- The cache still knows every accepted call whose signed second may be near the clock. -/
structure Remembered (lib : AuthLibraries) (server : AuthServer) : Prop where
  once : AcceptedOnce lib server.accepted
  seen : ∀ call ∈ server.accepted, ∃ headers, fromHeaderLookup lib call.headers = .ok headers ∧
    Unpadded lib call ∧ headers.timestampUnix ≤ call.now + clientAuthMaxClockSkewSecs ∧
    call.now ≤ server.clock ∧
    (server.clock ≤ call.now + clientAuthMaxClockSkewSecs * 2 →
      ∃ seen_at, server.cache.get (replayKey headers) = some seen_at ∧ call.now ≤ seen_at)

theorem serve_checked {signed : SignedRequestHeaders} {identity : AuthenticatedClientIdentity}
    (checked : checkedHeaders lib cluster_id call = some (signed, identity))
    (server : AuthServer) :
    serve lib cluster_id call server =
      ⟨(ClientAuthReplayCache.remember server.cache signed.deviceId signed.nonce call.now).2,
        call.now,
        if (ClientAuthReplayCache.remember server.cache signed.deviceId signed.nonce call.now).1
        then server.accepted ++ [call] else server.accepted⟩ := by
  unfold serve validateClientAuthRequest
  rw [checked]
  dsimp only
  cases (ClientAuthReplayCache.remember server.cache signed.deviceId signed.nonce call.now).1 with
  | false => rfl
  | true => rfl

theorem serve_cases (server : AuthServer) :
    (serve lib cluster_id call server).clock = call.now ∧
    ((serve lib cluster_id call server).cache = server.cache ∧
        (serve lib cluster_id call server).accepted = server.accepted ∨
      ∃ signed, fromHeaderLookup lib call.headers = .ok signed ∧
        call.now ≤ signed.timestampUnix + clientAuthMaxClockSkewSecs ∧
        signed.timestampUnix ≤ call.now + clientAuthMaxClockSkewSecs ∧
        (serve lib cluster_id call server).cache = (ClientAuthReplayCache.remember server.cache
          signed.deviceId signed.nonce call.now).2 ∧
        (serve lib cluster_id call server).accepted =
          if (ClientAuthReplayCache.remember server.cache signed.deviceId signed.nonce
            call.now).1 then server.accepted ++ [call] else server.accepted) := by
  cases checked : checkedHeaders lib cluster_id call with
  | none => simp [serve, validateClientAuthRequest, checked]
  | some pair =>
    obtain ⟨signed, identity⟩ := pair
    obtain ⟨parsed, low, high⟩ := checkedHeaders_spec checked
    rw [serve_checked checked]
    exact ⟨rfl, .inr ⟨signed, parsed, low, high, rfl, rfl⟩⟩

theorem signed_text_key {earlier later : AuthCall} {headers signed : SignedRequestHeaders}
    {text : String} (parsed : fromHeaderLookup lib earlier.headers = .ok headers)
    (parsed' : fromHeaderLookup lib later.headers = .ok signed) (unpadded : Unpadded lib earlier)
    (unpadded' : Unpadded lib later) (first : SignedText lib earlier text)
    (second : SignedText lib later text) :
    replayKey headers = replayKey signed ∧ headers.timestampUnix = signed.timestampUnix := by
  obtain ⟨read, again, first⟩ := first
  cases parsed.symm.trans again
  obtain ⟨read, again, second⟩ := second
  cases parsed'.symm.trans again
  have clean : '\n' ∉ requestAuthContext.toList ∧ '\n' ∉ legacyRequestAuthContext.toList := by
    decide
  have fields : trim headers.deviceId = trim signed.deviceId ∧
      trim headers.nonce = trim signed.nonce ∧
      headers.timestampUnix = signed.timestampUnix := by
    have lines := parsed_lines parsed
    have lines' := parsed_lines parsed'
    rcases first with first | first <;> rcases second with second | second
    · exact message_fields clean.1 clean.1 lines lines' (first.symm.trans second)
    · exact message_fields clean.1 clean.2 lines lines' (first.symm.trans second)
    · exact message_fields clean.2 clean.1 lines lines' (first.symm.trans second)
    · exact message_fields clean.2 clean.2 lines lines' (first.symm.trans second)
  obtain ⟨device, nonce, seconds⟩ := fields
  rw [(unpadded _ parsed).1, (unpadded' _ parsed').1] at device
  rw [(unpadded _ parsed).2, (unpadded' _ parsed').2] at nonce
  exact ⟨by rw [replayKey, replayKey, device, nonce], seconds⟩

theorem serve_remembered {server : AuthServer} (order : server.clock ≤ call.now)
    (unpadded : Unpadded lib call) (known : Remembered lib server) :
    Remembered lib (serve lib cluster_id call server) := by
  obtain ⟨clock, ⟨cache, accepted⟩ | ⟨signed, parsed, low, high, cache, accepted⟩⟩ :=
    @serve_cases lib cluster_id call server
  · constructor
    · rw [accepted]; exact known.once
    · intro earlier listed
      rw [accepted] at listed
      obtain ⟨headers, read, clean, window, before, stored⟩ := known.seen earlier listed
      rw [clock, cache]
      exact ⟨headers, read, clean, window, by omega, fun young => stored (by omega)⟩
  · have old : ∀ earlier ∈ server.accepted, ∃ headers,
        fromHeaderLookup lib earlier.headers = .ok headers ∧ Unpadded lib earlier ∧
        headers.timestampUnix ≤ earlier.now + clientAuthMaxClockSkewSecs ∧
        earlier.now ≤ call.now ∧
        (call.now ≤ earlier.now + clientAuthMaxClockSkewSecs * 2 → ∃ seen_at,
          (serve lib cluster_id call server).cache.get (replayKey headers) = some seen_at ∧
            earlier.now ≤ seen_at) := by
      intro earlier listed
      obtain ⟨headers, read, clean, window, before, stored⟩ := known.seen earlier listed
      refine ⟨headers, read, clean, window, by omega, fun young => ?_⟩
      obtain ⟨seen_at, found, after⟩ := stored (by omega)
      rw [cache]
      exact remember_keeps found after young (by omega)
    cases fresh : (ClientAuthReplayCache.remember server.cache signed.deviceId signed.nonce
      call.now).1 with
    | false =>
      rw [fresh] at accepted
      constructor
      · rw [accepted]; exact known.once
      · rw [accepted, clock]; exact old
    | true =>
      rw [fresh] at accepted
      constructor
      · rw [accepted]
        refine List.pairwise_append.mpr ⟨known.once, List.pairwise_singleton _ _, ?_⟩
        intro earlier listed later same text first second
        cases List.mem_singleton.mp same
        -- The signed second is near both calls, so the earlier row is still in the cache.
        obtain ⟨headers, read, clean, window, before, stored⟩ := known.seen earlier listed
        obtain ⟨key, seconds⟩ := signed_text_key read parsed clean unpadded first second
        obtain ⟨seen_at, found, after⟩ := stored (by omega)
        rw [key] at found
        rw [remember_refuses found after (by omega)] at fresh
        cases fresh
      · rw [accepted, clock]
        intro earlier listed
        rcases List.mem_append.mp listed with listed | same
        · exact old earlier listed
        · cases List.mem_singleton.mp same
          refine ⟨signed, parsed, unpadded, high, le_refl _, fun _ => ⟨call.now, ?_, le_refl _⟩⟩
          rw [cache]
          exact get_put_self _ _ _

/-- Along a run whose clock never goes back and whose calls carry their device id and nonce
    as they are signed, no signed text is accepted twice. -/
theorem signed_text_accepted_once (lib : AuthLibraries) (cluster_id : ClusterId)
    (cache : ClientAuthReplayCache) (start : Nat) (calls : List AuthCall)
    (steps : AllSteps (serve lib cluster_id)
      (fun server call => server.clock ≤ call.now ∧ Unpadded lib call) ⟨cache, start, []⟩ calls) :
    AcceptedOnce lib (runAll (serve lib cluster_id) ⟨cache, start, []⟩ calls).accepted := by
  have begun : Remembered lib ⟨cache, start, []⟩ := by
    constructor
    · exact List.Pairwise.nil
    · intro call listed; cases listed
  exact (run_invariant (Remembered lib)
    (fun server call allowed known => serve_remembered allowed.1 allowed.2 known)
    calls _ steps begun).once

end Runs

def issuedFingerprint : String :=
  "cfc73681c907ff842a9151497762e8aa97b0c0fe1685bbc8b1432a722b32738e"

def devicePublicKeyPem : String :=
  "-----BEGIN PUBLIC KEY-----\nMCowBQYDK2VwAyEA11qYAYKxCrfVS/7TyWQHOg7hcvPapiMlrwIaaPcHURo=\n" ++
    "-----END PUBLIC KEY-----\n"

def deviceSignatureBase64 : String :=
  "y9OwJqsiXDbgdaq0ISCzSEKFpn1p4Tjl6JERjL4BQuyPKr8NbfbdpxGc3fp6u0PRB_vHS4xYktfh3F9qkI6OAQ"

def deviceSignature : Bytes :=
  [203, 211, 176, 38, 171, 34, 92, 54, 224, 117, 170, 180, 33, 32, 179, 72, 66, 133, 166, 125,
    105, 225, 56, 229, 232, 145, 17, 140, 190, 1, 66, 236, 143, 42, 191, 13, 109, 246, 221, 167,
    17, 156, 221, 250, 122, 187, 67, 209, 7, 251, 199, 75, 140, 88, 146, 215, 225, 220, 95, 106,
    144, 142, 142, 1]

def deviceMessage : String :=
  "berrykeep-client-request-v1\n00000000-0000-0000-0000-000000000001\ndevice-1\n" ++
    issuedFingerprint ++ "\n1730000000\nnonce-1\nGET\n/store/index"

/-- The libraries on the texts of that request; the key has signed nothing else. -/
def deviceLibraries : AuthLibraries where
  parseUuid text := if text = "00000000-0000-0000-0000-000000000001" then some 1 else none
  decodeBase64Url text := if text = deviceSignatureBase64 then some deviceSignature else none
  isPublicKeyPem text := decide (text = devicePublicKeyPem)
  verify key message signature :=
    decide (key = devicePublicKeyPem ∧ message = deviceMessage ∧ signature = deviceSignature)
  digestHex text := if text = "issued-credential" then issuedFingerprint else ""

def deviceRequest (nonce : String) : AuthCall where
  headers name :=
    if name = headerClusterId then some (textBytes "00000000-0000-0000-0000-000000000001")
    else if name = headerDeviceId then some (textBytes "device-1")
    else if name = headerCredentialFingerprint then some (textBytes issuedFingerprint)
    else if name = headerAuthTimestamp then some (textBytes "1730000000")
    else if name = headerAuthNonce then some (textBytes nonce)
    else if name = headerAuthSignature then some (textBytes deviceSignatureBase64)
    else none
  method := "GET"
  pathAndQuery := "/store/index"
  credentials := [⟨"device-1", none, some devicePublicKeyPem, none, some "issued-credential", none⟩]
  now := 1730000001

def deviceHeaders (nonce : String) : SignedRequestHeaders :=
  ⟨1, "device-1", issuedFingerprint, 1730000000, nonce, deviceSignatureBase64⟩

theorem deviceRequest_checked :
    checkedHeaders deviceLibraries 1 (deviceRequest "nonce-1") =
        some (deviceHeaders "nonce-1", ⟨"device-1", none, some issuedFingerprint⟩) ∧
      checkedHeaders deviceLibraries 1 (deviceRequest " nonce-1") =
        some (deviceHeaders " nonce-1", ⟨"device-1", none, some issuedFingerprint⟩) := by
  decide +kernel

theorem repeated_request_refused :
    (runAll (serve deviceLibraries 1) ⟨Table.empty, 0, []⟩
        [deviceRequest "nonce-1", deviceRequest "nonce-1"]).accepted =
      [deviceRequest "nonce-1"] ∧
    AcceptedOnce deviceLibraries (runAll (serve deviceLibraries 1) ⟨Table.empty, 0, []⟩
      [deviceRequest "nonce-1", deviceRequest "nonce-1"]).accepted := by
  obtain ⟨checked, -⟩ := deviceRequest_checked
  have clean : Unpadded deviceLibraries (deviceRequest "nonce-1") := by
    intro headers read
    cases (checkedHeaders_spec checked).1.symm.trans read
    decide
  constructor
  · simp only [runAll_cons, runAll_nil, serve_checked checked]
    rfl
  · refine signed_text_accepted_once deviceLibraries 1 Table.empty 0 _
      ⟨⟨Nat.zero_le _, clean⟩, ⟨?_, clean⟩, trivial⟩
    rw [serve_checked checked]

/-- A space before the nonce leaves the signed text as it is and gets the request accepted
    a second time. -/
theorem padded_nonce_accepted_again :
    ¬AcceptedOnce deviceLibraries (runAll (serve deviceLibraries 1) ⟨Table.empty, 0, []⟩
      [deviceRequest "nonce-1", deviceRequest " nonce-1"]).accepted := by
  obtain ⟨first, second⟩ := deviceRequest_checked
  have both : (runAll (serve deviceLibraries 1) ⟨Table.empty, 0, []⟩
      [deviceRequest "nonce-1", deviceRequest " nonce-1"]).accepted =
      [deviceRequest "nonce-1", deviceRequest " nonce-1"] := by
    simp only [runAll_cons, runAll_nil, serve_checked first, serve_checked second]
    rfl
  rw [both]
  intro once
  have apart := (List.pairwise_cons.mp once).1 _ (List.mem_singleton.mpr rfl)
  refine apart _ ⟨_, (checkedHeaders_spec first).1, .inl rfl⟩
    ⟨_, (checkedHeaders_spec second).1, .inl ?_⟩
  have trimmed : trim (deviceHeaders " nonce-1").nonce = trim (deviceHeaders "nonce-1").nonce := by
    decide
  simp only [canonicalRequestMessage, trimmed]
  rfl

end BerryKeepClientRequestAuth
