import BerryKeep.ClusterPlacement
import BerryKeep.ContentCodec
import BerryKeep.StatefulProgram

/-!
Global cluster registration. A registrant asks for a challenge, signs it with
the key of its cluster CA and completes the registration; an operator suspends
and resumes clusters. A completion runs in three sections, each under its own
lock: it takes the challenge out of the table, checks the proof and looks the
cluster up under the registration lock, and writes the registry. The steps
below are these sections, so that a run is any interleaving of any number of
requests.
-/
namespace BerryKeepGlobalRegistration
open FiniteTable TextOperations StatefulProgram BerryKeepContentCodec

section Protocol

abbrev Uuid := Fin (2 ^ 128)

def uuidText (id : Uuid) : String := BerryKeepClusterPlacement.nodeIdText id

inductive ProofAlgorithm where
  | ecdsaP256Sha256Asn1
  deriving DecidableEq, Repr

structure ChallengeRequest where
  protocolVersion : Nat
  clusterId : Uuid
  clusterCaPem : String
  proofAlgorithm : ProofAlgorithm

structure ChallengeResponse where
  protocolVersion : Nat
  clusterId : Uuid
  clusterCaFingerprintSha256 : String
  proofAlgorithm : ProofAlgorithm
  challengeId : Uuid
  challengeNonceB64u : String
  expiresAtUnix : Nat
  deriving DecidableEq, Repr

structure CompleteRequest where
  protocolVersion : Nat
  clusterId : Uuid
  clusterCaFingerprintSha256 : String
  proofAlgorithm : ProofAlgorithm
  challengeId : Uuid
  challengeNonceB64u : String
  expiresAtUnix : Nat
  proofSignatureB64u : String
  deriving DecidableEq, Repr

structure Certificate where
  remaining : Bytes
  basicConstraints : Option (Option Bool)
  declaresCa : Bool
  publicKeyAlgorithm : String
  curve : Option String
  subjectPublicKey : Bytes

structure Primitives where
  pemCertificates : String → Option (List Bytes)
  parseCertificate : Bytes → Option Certificate
  sha256 : Bytes → Bytes
  base64Decode : String → Option Bytes
  base64Encode : Bytes → String
  isP256Key : Bytes → Bool
  isDerSignature : Bytes → Bool
  verify : Bytes → Bytes → Bytes → Bool
  newChallengeId : Nat → Uuid
  newNonce : Nat → Bytes

variable (prims : Primitives)

def protocolVersionOne : Nat := 1

def validateProtocolVersion (protocol_version : Nat) : Except String Unit :=
  if protocol_version ≠ protocolVersionOne then
    .error ("unsupported cluster registration protocol version " ++ toString protocol_version)
  else .ok ()

def validateClusterId (cluster_id : Uuid) : Except String Unit :=
  if cluster_id = 0 then .error "cluster registration must include a non-nil cluster_id UUID"
  else .ok ()

def isLowerHexDigit (c : Char) : Bool :=
  isAsciiDigit c || (97 ≤ c.toNat && c.toNat ≤ 102)

def validateNormalizedSha256Fingerprint (value : String) : Except String Unit :=
  if value.utf8ByteSize ≠ 64 ∨ ¬value.toList.all isLowerHexDigit then
    .error "cluster_ca_fingerprint_sha256 must be 64 lowercase hexadecimal characters"
  else .ok ()

def decodeBase64url (value field_name : String) : Except String Bytes :=
  if value = "" then .error (field_name ++ " must not be empty")
  else if trim value ≠ value ∨ '=' ∈ value.toList then
    .error (field_name ++ " must be unpadded base64url without surrounding whitespace")
  else match prims.base64Decode value with
    | none => .error (field_name ++ " must be valid unpadded base64url")
    | some decoded =>
      if prims.base64Encode decoded ≠ value then
        .error (field_name ++ " is not canonical base64url")
      else .ok decoded

def decodeChallengeNonce (challenge_nonce_b64u : String) : Except String Bytes := do
  let nonce ← decodeBase64url prims challenge_nonce_b64u "challenge_nonce_b64u"
  if nonce.length < 16 ∨ 64 < nonce.length then
    .error "challenge_nonce_b64u must decode to 16 through 64 bytes"
  else return nonce

def validateProofFields (protocol_version : Nat) (cluster_id : Uuid) (fingerprint : String)
    (challenge_id : Uuid) (challenge_nonce_b64u : String) (expires_at_unix : Nat) :
    Except String Unit := do
  validateProtocolVersion protocol_version
  validateClusterId cluster_id
  validateNormalizedSha256Fingerprint fingerprint
  if challenge_id = 0 then
    .error "cluster registration challenge_id must be a non-nil UUID"
  let _ ← decodeChallengeNonce prims challenge_nonce_b64u
  if expires_at_unix = 0 then
    .error "cluster registration challenge must include a non-zero expires_at_unix"

def checkDerInteger (signature : Bytes) (offset : Nat) : Except String Nat :=
  if signature[offset]? ≠ some 0x02 then
    .error "ecdsa_p256_sha256_asn1 proof signature must contain two DER integers"
  else match signature[offset + 1]? with
    | none => .error "ECDSA proof signature is truncated"
    | some integer_len =>
      if integer_len = 0 ∨ 33 < integer_len then
        .error "ecdsa_p256_sha256_asn1 proof signature integer has an invalid length"
      else
        let integer := (signature.drop (offset + 2)).take integer_len.toNat
        if integer.length < integer_len.toNat then .error "ECDSA proof signature is truncated"
        else
          let first := integer.headD 0
          let second := integer.getD 1 0
          if 0x80 ≤ first ∨ (1 < integer_len ∧ first = 0 ∧ second < 0x80) ∨
              integer.all (· == 0) then
            .error "ecdsa_p256_sha256_asn1 proof signature integer is not canonical"
          else .ok (offset + 2 + integer_len.toNat)

def validateEcdsaP256Asn1Signature (signature : Bytes) : Except String Unit :=
  if signature.head? ≠ some 0x30 ∨
      signature[1]? ≠ some (UInt8.ofNat (signature.length - 2)) then
    .error "ecdsa_p256_sha256_asn1 proof signature must be a definite-length DER sequence"
  else do
    let second ← checkDerInteger signature 2
    let stop ← checkDerInteger signature second
    if stop ≠ signature.length then
      .error "ecdsa_p256_sha256_asn1 proof signature has trailing DER data"

def validateSignatureB64u (proof_signature_b64u : String) : Except String Unit := do
  let signature ← decodeBase64url prims proof_signature_b64u "proof_signature_b64u"
  if signature.length < 8 ∨ 80 < signature.length then
    .error "ecdsa_p256_sha256_asn1 proof_signature_b64u must decode to 8 through 80 bytes"
  validateEcdsaP256Asn1Signature signature

def onePemBlock (cluster_ca_pem : String) : Bool :=
  let lines := ((splitOn cluster_ca_pem '\n').map trim).filter fun line => line != ""
  lines.head? == some "-----BEGIN CERTIFICATE-----" &&
    lines.getLast? == some "-----END CERTIFICATE-----" &&
    (lines.filter fun line => "-----BEGIN ".toList.isPrefixOf line.toList ||
      "-----END ".toList.isPrefixOf line.toList).length == 2

def checkCaCertificate (certificate_der : Bytes) : Except String Unit :=
  match prims.parseCertificate certificate_der with
  | none => .error "failed parsing cluster registration CA certificate"
  | some certificate =>
    if !certificate.remaining.isEmpty then
      .error "cluster registration CA certificate contains trailing DER data"
    else match certificate.basicConstraints with
      | none => .error "failed reading cluster registration CA basic constraints"
      | some none => .error "cluster registration certificate is missing basic constraints"
      | some (some false) => .error "cluster registration certificate is not a CA"
      | some (some true) => .ok ()

def parseSingleClusterCaPem (cluster_ca_pem : String) : Except String Bytes :=
  if isBlank cluster_ca_pem then
    .error "cluster registration requires a non-empty cluster_ca_pem"
  else if 32768 < cluster_ca_pem.utf8ByteSize then
    .error "cluster registration cluster_ca_pem exceeds 32768 bytes"
  else if !onePemBlock cluster_ca_pem then
    .error "cluster registration cluster_ca_pem must contain exactly one certificate PEM block"
  else match prims.pemCertificates cluster_ca_pem with
    | none => .error "failed parsing cluster registration CA PEM"
    | some [certificate_der] => do
      checkCaCertificate prims certificate_der
      return certificate_der
    | some _ =>
      .error "cluster registration cluster_ca_pem must contain exactly one certificate"

def validateClusterCa (certificate_der : Bytes) : Except String Unit :=
  match prims.parseCertificate certificate_der with
  | none => .error "failed parsing cluster registration CA certificate"
  | some certificate =>
    if certificate.publicKeyAlgorithm ≠ "1.2.840.10045.2.1" ∨
        certificate.curve ≠ some "1.2.840.10045.3.1.7" then
      .error ("cluster registration proof algorithm ecdsa_p256_sha256_asn1 requires a " ++
        "P-256 EC CA public key")
    else if certificate.subjectPublicKey.length ≠ 65 ∨
        certificate.subjectPublicKey.head? ≠ some 0x04 then
      .error "cluster registration requires an uncompressed P-256 CA public key for mTLS"
    else .ok ()

def challengeFingerprint (request : ChallengeRequest) : Except String String := do
  validateProtocolVersion request.protocolVersion
  validateClusterId request.clusterId
  let certificate_der ← parseSingleClusterCaPem prims request.clusterCaPem
  validateClusterCa prims certificate_der
  return toHex (prims.sha256 certificate_der)

def CompleteRequest.validate (request : CompleteRequest) : Except String Unit := do
  validateProofFields prims request.protocolVersion request.clusterId
    request.clusterCaFingerprintSha256 request.challengeId request.challengeNonceB64u
    request.expiresAtUnix
  validateSignatureB64u prims request.proofSignatureB64u

def bytesOf (width n : Nat) : Bytes :=
  (List.range width).map fun i => UInt8.ofNat (n / 256 ^ (width - 1 - i) % 256)

def hexValue (c : Char) : Nat := if isAsciiDigit c then c.toNat - 48 else c.toNat - 87

def decodeFingerprint : List Char → Bytes
  | high :: low :: rest =>
    UInt8.ofNat (16 * hexValue high + hexValue low) :: decodeFingerprint rest
  | _ => []

def proofMessageDomain : Bytes := textBytes "berrykeep.cluster-registration-proof" ++ [0]

def legacyProofMessageDomain : Bytes := textBytes "ironmesh.cluster-registration-proof" ++ [0]

def proofMessageV1 (domain : Bytes) (cluster_id : Uuid) (fingerprint : String)
    (challenge_id : Uuid) (challenge_nonce_b64u : String) (expires_at_unix : Nat) :
    Except String Bytes := do
  validateProofFields prims protocolVersionOne cluster_id fingerprint challenge_id
    challenge_nonce_b64u expires_at_unix
  let nonce ← decodeChallengeNonce prims challenge_nonce_b64u
  return domain ++ bytesOf 2 protocolVersionOne ++ bytesOf 16 cluster_id ++
    decodeFingerprint fingerprint.toList ++ bytesOf 16 challenge_id ++
    bytesOf 2 nonce.length ++ nonce ++ bytesOf 8 expires_at_unix

def ChallengeResponse.proofMessage (domain : Bytes) (response : ChallengeResponse) :
    Except String Bytes := do
  validateProofFields prims response.protocolVersion response.clusterId
    response.clusterCaFingerprintSha256 response.challengeId response.challengeNonceB64u
    response.expiresAtUnix
  proofMessageV1 prims domain response.clusterId response.clusterCaFingerprintSha256
    response.challengeId response.challengeNonceB64u response.expiresAtUnix

def CompleteRequest.proofMessage (domain : Bytes) (request : CompleteRequest) :
    Except String Bytes := do
  request.validate prims
  proofMessageV1 prims domain request.clusterId request.clusterCaFingerprintSha256
    request.challengeId request.challengeNonceB64u request.expiresAtUnix

end Protocol

section Registry
variable (prims : Primitives)

structure ClusterCaRecord where
  clusterId : Uuid
  caPem : String
  caFingerprint : String
  createdAtUnixSecs : Nat
  lastSeenAtUnixSecs : Nat
  registrationProofFingerprint : String
  suspended : Bool
  suspendedAtUnixSecs : Option Nat
  suspensionReason : Option String
  deriving DecidableEq, Repr

abbrev Registry := Table Uuid ClusterCaRecord

def validateSuspensionReason (reason : String) : Except String Unit :=
  if isBlank reason then .error "cluster suspension reason must not be empty"
  else if 1024 < reason.utf8ByteSize then .error "cluster suspension reason exceeds 1024 bytes"
  else .ok ()

def ClusterCaRecord.validateSuspension (record : ClusterCaRecord) : Except String Unit :=
  match record.suspended, record.suspendedAtUnixSecs, record.suspensionReason with
  | false, none, none => .ok ()
  | false, _, _ => .error "active cluster record must not include suspension metadata"
  | true, some suspended_at, some reason =>
    if suspended_at = 0 then
      .error "suspended cluster record must include a non-zero suspension timestamp"
    else validateSuspensionReason reason
  | true, _, none => .error "suspended cluster record must include a suspension reason"
  | true, none, some _ =>
    .error "suspended cluster record must include a non-zero suspension timestamp"

def clusterCaFingerprint (ca_pem : String) : Except String String :=
  match prims.pemCertificates ca_pem with
  | none => .error "failed parsing cluster CA PEM"
  | some [certificate_der] => match prims.parseCertificate certificate_der with
    | none => .error "failed parsing cluster CA certificate"
    | some certificate =>
      if certificate.declaresCa then .ok (toHex (prims.sha256 certificate_der))
      else .error "registered cluster certificate is not a CA"
  | some _ => .error "cluster CA PEM must contain exactly one certificate"

/-- Writing the file comes before the change in memory; it may fail. -/
def persistRegistry (failure : Option String) (updated : Registry) : Except String Registry :=
  match failure with
  | some message => .error message
  | none => .ok updated

def registerOrUpdate (registry : Registry) (cluster_id : Uuid)
    (ca_pem proof_fingerprint : String) (now : Nat) (failure : Option String) :
    Except String (ClusterCaRecord × Registry) :=
  if isBlank proof_fingerprint then
    .error "registration proof fingerprint must not be empty"
  else do
    let ca_fingerprint ← clusterCaFingerprint prims ca_pem
    let created := (((registry.get cluster_id).filter fun record =>
      record.caFingerprint == ca_fingerprint).map (·.createdAtUnixSecs)).getD now
    let record : ClusterCaRecord :=
      { clusterId := cluster_id
        caPem := ca_pem
        caFingerprint := ca_fingerprint
        createdAtUnixSecs := created
        lastSeenAtUnixSecs := now
        registrationProofFingerprint := proof_fingerprint
        suspended := false
        suspendedAtUnixSecs := none
        suspensionReason := none }
    let updated ← persistRegistry failure (registry.put cluster_id record)
    return (record, updated)

def updateRecord (registry : Registry) (cluster_id : Uuid) (failure : Option String)
    (update : ClusterCaRecord → Except String ClusterCaRecord) :
    Except String (ClusterCaRecord × Registry) :=
  match registry.get cluster_id with
  | none => .error ("cluster " ++ uuidText cluster_id ++ " is not registered")
  | some record => do
    let record ← update record
    let updated ← persistRegistry failure (registry.put cluster_id record)
    return (record, updated)

def suspend (registry : Registry) (cluster_id : Uuid) (reason : String) (now : Nat)
    (failure : Option String) : Except String (ClusterCaRecord × Registry) := do
  validateSuspensionReason reason
  updateRecord registry cluster_id failure fun record => do
    let suspended := { record with
      suspended := true, suspendedAtUnixSecs := some now, suspensionReason := some reason }
    suspended.validateSuspension
    return suspended

def resume (registry : Registry) (cluster_id : Uuid) (failure : Option String) :
    Except String (ClusterCaRecord × Registry) :=
  updateRecord registry cluster_id failure fun record => do
    let active := { record with
      suspended := false, suspendedAtUnixSecs := none, suspensionReason := none }
    active.validateSuspension
    return active

def observeAccess (registry : Registry) (cluster_id : Uuid) (now : Nat)
    (failure : Option String) : Except String (ClusterCaRecord × Registry) :=
  updateRecord registry cluster_id failure fun record =>
    if record.suspended then .error ("cluster " ++ uuidText cluster_id ++ " is suspended")
    else .ok { record with lastSeenAtUnixSecs := now }

end Registry

section Service
variable (prims : Primitives)

inductive IpAddr where
  | v4 (bits : Fin (2 ^ 32))
  | v6 (bits : Fin (2 ^ 128))
  deriving DecidableEq, Repr

/-- A challenge that was given out. `issue` is the draw it was made from; the code does not store
    it, and nothing is decided by it. -/
structure PendingChallenge where
  sourceIp : IpAddr
  clusterCaPem : String
  response : ChallengeResponse
  issue : Nat
  deriving DecidableEq

structure RegistrationConfig where
  challengeTtlSecs : Nat
  maxPendingChallenges : Nat

def ensureChallengeMatches (challenge : ChallengeResponse) (completion : CompleteRequest) :
    Except String Unit :=
  if completion.protocolVersion ≠ challenge.protocolVersion ∨
      completion.clusterId ≠ challenge.clusterId ∨
      completion.clusterCaFingerprintSha256 ≠ challenge.clusterCaFingerprintSha256 ∨
      completion.proofAlgorithm ≠ challenge.proofAlgorithm ∨
      completion.challengeId ≠ challenge.challengeId ∨
      completion.challengeNonceB64u ≠ challenge.challengeNonceB64u ∨
      completion.expiresAtUnix ≠ challenge.expiresAtUnix then
    .error "global registration completion does not match its issued challenge"
  else .ok ()

def verifyingKeyFromCa (ca_pem : String) : Except String Bytes :=
  match prims.pemCertificates ca_pem with
  | none => .error "failed parsing global registration CA PEM"
  | some [certificate_der] => match prims.parseCertificate certificate_der with
    | none => .error "failed parsing global registration CA certificate"
    | some certificate =>
      if prims.isP256Key certificate.subjectPublicKey then .ok certificate.subjectPublicKey
      else .error "global registration CA does not contain a valid P-256 public key"
  | some _ => .error "global registration CA PEM must contain exactly one certificate"

def proofSignature (completion : CompleteRequest) : Except String Bytes :=
  match prims.base64Decode completion.proofSignatureB64u with
  | none => .error "failed decoding global registration proof signature"
  | some signature =>
    if prims.isDerSignature signature then .ok signature
    else .error "global registration proof signature is not ASN.1 ECDSA P-256"

def verifyProof (ca_pem : String) (completion : CompleteRequest) : Except String Unit := do
  let message ← completion.proofMessage prims proofMessageDomain
  let signature ← proofSignature prims completion
  let key ← verifyingKeyFromCa prims ca_pem
  if prims.verify key message signature then return ()
  else
    let legacy_message ← completion.proofMessage prims legacyProofMessageDomain
    if prims.verify key legacy_message signature then return ()
    else .error "global registration proof signature does not verify"

inductive CompletePhase where
  | claimed
  | registering
  deriving DecidableEq

structure CompleteCall where
  challenge : PendingChallenge
  request : CompleteRequest
  sourceIp : IpAddr
  now : Nat
  phase : CompletePhase

inductive RegistrationEvent where
  | issued (challenge : PendingChallenge)
  | completed (challenge : PendingChallenge) (request : CompleteRequest) (source_ip : IpAddr)
      (now : Nat)
  deriving DecidableEq

/-- The service: its registry and pending challenges, who holds the registration lock, the
    completions under way, the draws made, and what it granted, latest first. -/
structure Service where
  registry : Registry
  challenges : Table Uuid PendingChallenge
  guard : Option Nat
  calls : Table Nat CompleteCall
  draws : Nat
  log : List RegistrationEvent

def Service.opened (registry : Registry) : Service :=
  ⟨registry, Table.empty, none, Table.empty, 0, []⟩

def cleanup (challenges : Table Uuid PendingChallenge) (now : Nat) : Table Uuid PendingChallenge :=
  challenges.retain fun _ challenge => decide (now < challenge.response.expiresAtUnix)

def challengeResponse (config : RegistrationConfig) (request : ChallengeRequest)
    (fingerprint : String) (now draw : Nat) : Except String ChallengeResponse :=
  if 2 ^ 64 ≤ now + config.challengeTtlSecs then
    .error "global registration challenge expiry overflows Unix time"
  else do
    let response : ChallengeResponse :=
      { protocolVersion := protocolVersionOne
        clusterId := request.clusterId
        clusterCaFingerprintSha256 := fingerprint
        proofAlgorithm := request.proofAlgorithm
        challengeId := prims.newChallengeId draw
        challengeNonceB64u := prims.base64Encode (prims.newNonce draw)
        expiresAtUnix := now + config.challengeTtlSecs }
    validateProofFields prims response.protocolVersion response.clusterId
      response.clusterCaFingerprintSha256 response.challengeId response.challengeNonceB64u
      response.expiresAtUnix
    return response

def challenge (config : RegistrationConfig) (service : Service) (request : ChallengeRequest)
    (source_ip : IpAddr) (now : Nat) : Except String ChallengeResponse × Service :=
  let drawn := { service with draws := service.draws + 1 }
  match challengeFingerprint prims request with
  | .error message => (.error message, service)
  | .ok fingerprint =>
    match challengeResponse prims config request fingerprint now service.draws with
    | .error message => (.error message, drawn)
    | .ok response =>
      let kept := cleanup service.challenges now
      if config.maxPendingChallenges ≤ kept.size then
        (.error "global registration challenge store is full", { drawn with challenges := kept })
      else
        let pending : PendingChallenge := ⟨source_ip, request.clusterCaPem, response, service.draws⟩
        (.ok response,
          { drawn with
            challenges := kept.put response.challengeId pending
            log := .issued pending :: service.log })

def completeClaim (service : Service) (call : Nat) (request : CompleteRequest)
    (source_ip : IpAddr) (now : Nat) : Except String Unit × Service :=
  match request.validate prims with
  | .error message => (.error message, service)
  | .ok () =>
    let kept := cleanup service.challenges now
    match kept.get request.challengeId with
    | none => (.error "unknown or expired global registration challenge",
        { service with challenges := kept })
    | some pending =>
      if pending.sourceIp ≠ source_ip then
        (.error "global registration challenge source IP does not match",
          { service with challenges := kept })
      else if pending.response.expiresAtUnix ≤ now then
        (.error "global registration challenge has expired",
          { service with challenges := kept.del request.challengeId })
      else
        (.ok (),
          { service with
            challenges := kept.del request.challengeId
            calls := service.calls.put call ⟨pending, request, source_ip, now, .claimed⟩ })

def proofFingerprint (request : CompleteRequest) : Except String String :=
  match prims.base64Decode request.proofSignatureB64u with
  | none => .error "failed decoding validated global registration proof"
  | some signature => .ok (toHex (prims.sha256 signature))

def Service.finish (service : Service) (call : Nat) : Service :=
  { service with calls := service.calls.del call }

/-- The second section: the checks without a lock, then the look-up under the registration
    lock, for which the call waits. -/
def completeVerify (service : Service) (call : Nat) (current : CompleteCall) :
    Except String Unit × Service :=
  match (do ensureChallengeMatches current.challenge.response current.request
            verifyProof prims current.challenge.clusterCaPem current.request) with
  | .error message => (.error message, service.finish call)
  | .ok () =>
    if service.guard.isSome then (.ok (), service)
    else match service.registry.get current.request.clusterId with
      | some existing =>
        if existing.caFingerprint ≠ current.request.clusterCaFingerprintSha256 then
          (.error "cluster ID is already registered with a different CA", service.finish call)
        else
          (.ok (), { service.finish call with
            log := .completed current.challenge current.request current.sourceIp current.now ::
              service.log })
      | none => match proofFingerprint prims current.request with
        | .error message => (.error message, service.finish call)
        | .ok _ =>
          (.ok (), { service with
            guard := some call
            calls := service.calls.put call { current with phase := .registering } })

def completeRegister (service : Service) (call : Nat) (current : CompleteCall) (now : Nat)
    (failure : Option String) : Except String ClusterCaRecord × Service :=
  let released := { service.finish call with guard := none }
  match (do let fingerprint ← proofFingerprint prims current.request
            registerOrUpdate prims service.registry current.request.clusterId
              current.challenge.clusterCaPem fingerprint now failure) with
  | .error message => (.error message, released)
  | .ok (registered, registry) =>
    (.ok registered, { released with
      registry := registry
      log := .completed current.challenge current.request current.sourceIp current.now ::
        service.log })

def setSuspension (service : Service) (cluster_id : Uuid) (suspended : Bool)
    (reason : Option String) (now : Nat) (failure : Option String) :
    Except String ClusterCaRecord × Service :=
  let outcome := if suspended then
      match reason with
      | none => .error "suspending a cluster requires a reason"
      | some reason => suspend service.registry cluster_id reason now failure
    else resume service.registry cluster_id failure
  match outcome with
  | .error message => (.error message, service)
  | .ok (record, registry) => (.ok record, { service with registry := registry })

/-- The steps of a run. A step of a completion that is not at that section does nothing. -/
inductive Step where
  | challenge (request : ChallengeRequest) (source_ip : IpAddr) (now : Nat)
  | completeClaim (call : Nat) (request : CompleteRequest) (source_ip : IpAddr) (now : Nat)
  | completeVerify (call : Nat)
  | completeRegister (call : Nat) (now : Nat) (failure : Option String)
  | setSuspension (cluster_id : Uuid) (suspended : Bool) (reason : Option String) (now : Nat)
      (failure : Option String)
  | observeAccess (cluster_id : Uuid) (now : Nat) (failure : Option String)

def Step.exec (config : RegistrationConfig) : Step → Service → Service
  | .challenge request source_ip now, service =>
    (BerryKeepGlobalRegistration.challenge prims config service request source_ip now).2
  | .completeClaim call request source_ip now, service =>
    match service.calls.get call with
    | some _ => service
    | none => (BerryKeepGlobalRegistration.completeClaim prims service call request source_ip now).2
  | .completeVerify call, service =>
    match service.calls.get call with
    | some current => match current.phase with
      | .claimed => (BerryKeepGlobalRegistration.completeVerify prims service call current).2
      | .registering => service
    | none => service
  | .completeRegister call now failure, service =>
    match service.calls.get call with
    | some current => match current.phase with
      | .registering =>
        (BerryKeepGlobalRegistration.completeRegister prims service call current now failure).2
      | .claimed => service
    | none => service
  | .setSuspension cluster_id suspended reason now failure, service =>
    (BerryKeepGlobalRegistration.setSuspension service cluster_id suspended reason now failure).2
  | .observeAccess cluster_id now failure, service =>
    match BerryKeepGlobalRegistration.observeAccess service.registry cluster_id now failure with
    | .error _ => service
    | .ok (_, registry) => { service with registry := registry }

end Service

end BerryKeepGlobalRegistration
