import BerryKeep.ClientRequestAuth

/-!
Signed requests of the S3 listener. The Authorization header carries a
signature over a text that is made of the method, the path, the sorted query,
the signed headers and a digest that the client states for its body; a request
whose query carries a signature is judged by its query instead. The handler of
PutObject hands the body to the store once the access key and the bucket allow
it. SHA-256, HMAC, the calendar and the decoders of the web framework are
parameters.
-/
namespace BerryKeepS3RequestAuth
open TextOperations StatefulProgram BerryKeepContentCodec BerryKeepClientRequestAuth

def s3UnsignedPayload : String := "UNSIGNED-PAYLOAD"

/-- The part of a request target that the parser of the framework lets through. -/
structure Uri where
  path : String
  query : Option String
  path_line : '\n' ∉ path.toList
  query_line : '\n' ∉ (query.getD "").toList

abbrev Headers := List (String × Bytes)

structure S3Request where
  method : String
  uri : Uri
  headers : Headers
  body : Bytes

abbrev Authority := String × Option Nat

structure S3AccessKeyRecord where
  accessKeyId : String
  secretMaterial : String
  bucketScope : List String
  prefixScope : List String
  allowWrite : Bool
  revokedAtUnix : Option Nat
  deriving DecidableEq

structure S3BucketRecord where
  bucketName : String
  rootPrefix : String
  readOnly : Bool
  deletedAtUnix : Option Nat

structure S3ControlPlaneState where
  buckets : List S3BucketRecord
  accessKeys : List S3AccessKeyRecord
  publicAuthority : Option Authority

structure S3ObjectQuery where
  uploadId : Option String
  partNumber : Option Nat
  deriving DecidableEq

/-- What the libraries answer. `parseObjectQuery` has no value where the framework refuses the
    query, and `calendarDays` none for a day that does not exist. -/
structure S3Libraries where
  sha256 : Bytes → Bytes
  hmacSha256 : Bytes → Bytes → Bytes
  percentDecode : String → Option String
  calendarDays : Int → Nat → Nat → Option Int
  parseAuthority : String → Option Authority
  isIpAddr : String → Bool
  parseObjectQuery : Option String → Option S3ObjectQuery

structure S3Error where
  status : Nat
  code : String
  message : String
  deriving DecidableEq

def headerGet (headers : Headers) (name : String) : Option Bytes :=
  (headers.find? fun row => row.1 == name).map Prod.snd

def headerGetAll (headers : Headers) (name : String) : List Bytes :=
  (headers.filter fun row => row.1 == name).map Prod.snd

def headerValueName (headers : Headers) (name : String) : Option String :=
  (((headerGet headers name).bind headerText).map trim).filter fun value => value ≠ ""

structure ParsedS3Authorization where
  accessKeyId : String
  credentialScope : String
  signedHeaders : List String
  signatureHex : String
  dateScope : String
  region : String
  service : String
  deriving DecidableEq

structure ParsedS3QueryAuthorization where
  parsed : ParsedS3Authorization
  amzDate : String
  payloadHash : String

def parseCredentialScope (credential : String) (signed_headers : List String)
    (signature_hex : String) : Except String ParsedS3Authorization :=
  match splitOn credential '/' with
  | [access_key_id, date_scope, region, service, terminator] =>
    if terminator ≠ "aws4_request" then
      .error "Credential scope must end with aws4_request"
    else .ok {
      accessKeyId := access_key_id
      credentialScope := joinWith '/' [date_scope, region, service, terminator]
      signedHeaders := signed_headers
      signatureHex := signature_hex
      dateScope := date_scope
      region := region
      service := service }
  | _ => .error ("Credential scope must contain access key, date, region, service, and " ++
      "aws4_request")

def signedHeaderList (value : String) : List String :=
  ((splitOn value ';').map fun entry => toAsciiLowercase (trim entry)).filter fun entry =>
    entry ≠ ""

structure AuthorizationFields where
  credential : Option String
  signedHeaders : Option (List String)
  signatureHex : Option String

def AuthorizationFields.read (fields : AuthorizationFields) (part : String) :
    AuthorizationFields :=
  match splitOnce (trim part) "=" with
  | none => fields
  | some (name, value) =>
    if name = "Credential" then { fields with credential := some (trim value) }
    else if name = "SignedHeaders" then
      { fields with signedHeaders := some (signedHeaderList value) }
    else if name = "Signature" then
      { fields with signatureHex := some (toAsciiLowercase (trim value)) }
    else fields

def parseAuthorizationHeader (value : String) : Except String ParsedS3Authorization := do
  let rest ← required (stripPrefix (trim value) "AWS4-HMAC-SHA256 ")
    "only AWS4-HMAC-SHA256 authorization is supported"
  let fields := (splitOn rest ',').foldl AuthorizationFields.read ⟨none, none, none⟩
  let credential ← required fields.credential "Credential is missing"
  let signed_headers ← required fields.signedHeaders "SignedHeaders is missing"
  let signature_hex ← required fields.signatureHex "Signature is missing"
  parseCredentialScope credential signed_headers signature_hex

def queryPair (pair : String) : String × String := (splitOnce pair "=").getD (pair, "")

def queryPairs (uri : Uri) : List (String × String) :=
  ((splitOn (uri.query.getD "") '&').filter fun pair => pair ≠ "").map queryPair

def queryParameterValue (lib : S3Libraries) (uri : Uri) (parameter_name : String) :
    Except String (Option String) :=
  match (queryPairs uri).find? fun pair => pair.1 == parameter_name with
  | none => .ok none
  | some (_, value) => match lib.percentDecode value with
    | some decoded => .ok (some decoded)
    | none => .error ("query parameter " ++ parameter_name ++
        " contains invalid percent-encoding")

def parseI32 (text : String) : Option Int :=
  match text.toList with
  | '-' :: '+' :: _ => none
  | '-' :: rest => ((parseU64 (String.ofList rest)).filter fun n => n ≤ 2 ^ 31).map fun n => -n
  | _ => ((parseU64 text).filter fun n => n < 2 ^ 31).map fun n => n

def parseU8 (text : String) : Option Nat := (parseU64 text).filter fun n => n < 256

/-- A slice that falls inside a character ends the request. -/
def slice (text : String) (start stop : Nat) : Except String String :=
  required (byteSlice text start stop) "byte index is not a char boundary"

def parseSigv4TimestampUnix (lib : S3Libraries) (amz_date : String) : Except String Nat := do
  if amz_date.utf8ByteSize ≠ 16 then
    .error "X-Amz-Date must be in SigV4 basic format YYYYMMDDTHHMMSSZ"
  else if (← slice amz_date 8 9) ≠ "T" ∨ amz_date.toList.getLast? ≠ some 'Z' then
    .error "X-Amz-Date must be in SigV4 basic format YYYYMMDDTHHMMSSZ"
  else
    let year ← required (parseI32 (← slice amz_date 0 4)) "X-Amz-Date year is invalid"
    let month ← required (parseU8 (← slice amz_date 4 6)) "X-Amz-Date month is invalid"
    let day ← required (parseU8 (← slice amz_date 6 8)) "X-Amz-Date day is invalid"
    let hour ← required (parseU8 (← slice amz_date 9 11)) "X-Amz-Date hour is invalid"
    let minute ← required (parseU8 (← slice amz_date 11 13)) "X-Amz-Date minute is invalid"
    let second ← required (parseU8 (← slice amz_date 13 15)) "X-Amz-Date second is invalid"
    if month < 1 ∨ 12 < month then .error "X-Amz-Date month is invalid"
    else
      let days ← required (lib.calendarDays year month day)
        "X-Amz-Date calendar date is invalid"
      if 24 ≤ hour ∨ 60 ≤ minute ∨ 60 ≤ second then
        .error "X-Amz-Date clock time is invalid"
      else
        let unix_timestamp := days * 86400 + (hour * 3600 + minute * 60 + second : Nat)
        if unix_timestamp < 0 then .error "X-Amz-Date must not be earlier than the Unix epoch"
        else .ok unix_timestamp.toNat

def parsePresignedAuthorization (lib : S3Libraries) (uri : Uri) (now : Nat) :
    Except String ParsedS3QueryAuthorization := do
  let parameter name := do
    required (← queryParameterValue lib uri name) (name ++ " is missing")
  let algorithm ← parameter "X-Amz-Algorithm"
  if algorithm ≠ "AWS4-HMAC-SHA256" then
    .error "only AWS4-HMAC-SHA256 presigned requests are supported"
  else
    let credential ← parameter "X-Amz-Credential"
    let amz_date ← parameter "X-Amz-Date"
    let expires ← required (parseU64 (← parameter "X-Amz-Expires"))
      "X-Amz-Expires must be an integer"
    if expires < 1 ∨ 604800 < expires then
      .error "X-Amz-Expires must be between 1 and 604800 seconds"
    else
      let signed_at_unix ← parseSigv4TimestampUnix lib amz_date
      if min (signed_at_unix + expires) (2 ^ 64 - 1) < now then
        .error "the presigned request has expired"
      else
        let signed_headers := signedHeaderList (← parameter "X-Amz-SignedHeaders")
        let signature_hex := toAsciiLowercase (← parameter "X-Amz-Signature")
        let parsed ← parseCredentialScope credential signed_headers signature_hex
        .ok ⟨parsed, amz_date, s3UnsignedPayload⟩

def pairLe (a b : String × String) : Prop := a.1 < b.1 ∨ (a.1 = b.1 ∧ a.2 ≤ b.2)

instance : DecidableRel pairLe := fun a b =>
  inferInstanceAs (Decidable (a.1 < b.1 ∨ (a.1 = b.1 ∧ a.2 ≤ b.2)))

def pairText (pair : String × String) : String := pair.1 ++ "=" ++ pair.2

def canonicalQueryStringExcluding (uri : Uri) (excluded_name : String) : String :=
  joinWith '&' ((((queryPairs uri).filter fun pair =>
    excluded_name = "" ∨ pair.1 ≠ excluded_name).insertionSort pairLe).map pairText)

def canonicalQueryString (uri : Uri) : String := canonicalQueryStringExcluding uri ""

def isTokenChar (c : Char) : Bool :=
  c.isAlphanum || "!#$%&'*+-.^_`|~".toList.contains c

def isHeaderName (name : String) : Bool :=
  name.toList.all isTokenChar && name ≠ "" && name.toList.length < 2 ^ 16

def normalizeHeaderValue (value : String) : String := joinWith ' ' (splitWhitespace value)

def signedHeaderValue (headers : Headers) (header_name : String) : Except String String :=
  if !isHeaderName header_name then
    .error ("signed header \"" ++ header_name ++ "\" is invalid")
  else match (headerGetAll headers header_name).mapM headerText with
    | none => .error ("header \"" ++ header_name ++ "\" is not valid UTF-8")
    | some values =>
      let value := joinWith ',' (values.map normalizeHeaderValue)
      if value = "" then .error ("signed header \"" ++ header_name ++ "\" is missing")
      else .ok value

def canonicalHeaders (headers : Headers) : List String → Except String String
  | [] => .ok ""
  | header_name :: signed_headers => do
    let value ← signedHeaderValue headers header_name
    let rest ← canonicalHeaders headers signed_headers
    return header_name ++ ":" ++ value ++ "\n" ++ rest

def buildCanonicalRequest (method : String) (uri : Uri) (headers : Headers)
    (signed_headers : List String) (payload_hash canonical_query : String) :
    Except String String := do
  let canonical_uri := if uri.path = "" then "/" else uri.path
  let canonical_headers ← canonicalHeaders headers signed_headers
  let signed_headers_value := joinWith ';' signed_headers
  return method ++ "\n" ++ (canonical_uri ++ "\n" ++ (canonical_query ++ "\n" ++
    (canonical_headers ++ "\n" ++ (signed_headers_value ++ "\n" ++ payload_hash))))

def deriveSigningKey (lib : S3Libraries) (secret_material date region service : String) : Bytes :=
  let date_key := lib.hmacSha256 (textBytes ("AWS4" ++ secret_material)) (textBytes date)
  let region_key := lib.hmacSha256 date_key (textBytes region)
  let service_key := lib.hmacSha256 region_key (textBytes service)
  lib.hmacSha256 service_key (textBytes "aws4_request")

def stringToSign (lib : S3Libraries) (amz_date credential_scope canonical_request : String) :
    String :=
  "AWS4-HMAC-SHA256\n" ++ amz_date ++ "\n" ++ credential_scope ++ "\n" ++
    toHex (lib.sha256 (textBytes canonical_request))

def signText (lib : S3Libraries) (parsed : ParsedS3Authorization) (secret_material text : String) :
    String :=
  toHex (lib.hmacSha256
    (deriveSigningKey lib secret_material parsed.dateScope parsed.region parsed.service)
    (textBytes text))

/-- The digest of the body as the client states it; it is not compared with the body. -/
def statedPayloadHash (headers : Headers) : Except String String := do
  let payload_hash ← required (headerValueName headers "x-amz-content-sha256")
    "x-amz-content-sha256 is missing"
  return if toAsciiLowercase payload_hash = toAsciiLowercase s3UnsignedPayload then
    s3UnsignedPayload else payload_hash

def signedRequestText (method : String) (uri : Uri) (headers : Headers)
    (parsed : ParsedS3Authorization) : Except String String := do
  let payload_hash ← statedPayloadHash headers
  buildCanonicalRequest method uri headers parsed.signedHeaders payload_hash
    (canonicalQueryString uri)

def buildExpectedSignature (lib : S3Libraries) (method : String) (uri : Uri) (headers : Headers)
    (parsed : ParsedS3Authorization) (secret_material : String) : Except String String := do
  let amz_date ← required (headerValueName headers "x-amz-date") "x-amz-date is missing"
  let canonical_request ← signedRequestText method uri headers parsed
  return signText lib parsed secret_material
    (stringToSign lib amz_date parsed.credentialScope canonical_request)

def buildExpectedPresignedSignature (lib : S3Libraries) (method : String) (uri : Uri)
    (headers : Headers) (parsed : ParsedS3QueryAuthorization) (secret_material : String) :
    Except String String := do
  let canonical_request ← buildCanonicalRequest method uri headers parsed.parsed.signedHeaders
    parsed.payloadHash (canonicalQueryStringExcluding uri "X-Amz-Signature")
  return signText lib parsed.parsed secret_material
    (stringToSign lib parsed.amzDate parsed.parsed.credentialScope canonical_request)

def resolveS3AccessKey (plane : S3ControlPlaneState) (access_key_id : String) :
    Option S3AccessKeyRecord :=
  plane.accessKeys.find? fun access_key =>
    access_key.accessKeyId == access_key_id && access_key.revokedAtUnix.isNone

def resolveBucket (plane : S3ControlPlaneState) (bucket_name : String) : Option S3BucketRecord :=
  plane.buckets.find? fun bucket =>
    bucket.bucketName == bucket_name && bucket.deletedAtUnix.isNone

/-- The error of a step, with the status and the code that the caller answers. -/
def refused {α : Type} (code : String) (result : Except String α) : Except S3Error α :=
  result.mapError fun message => ⟨403, code, message⟩

def signatureMismatch : String :=
  "the request signature we calculated does not match the provided signature"

/-- A query that carries a signature decides alone. -/
def isPresigned (uri : Uri) : Bool := containsText (uri.query.getD "") "X-Amz-Signature="

def authenticatePresigned (lib : S3Libraries) (plane : S3ControlPlaneState) (now : Nat)
    (method : String) (uri : Uri) (headers : Headers) : Except S3Error S3AccessKeyRecord := do
  let parsed ← refused "AuthorizationQueryParametersError"
    (parsePresignedAuthorization lib uri now)
  if parsed.parsed.service ≠ "s3" then
    .error ⟨403, "AuthorizationQueryParametersError",
      "the presigned credential scope must target the s3 service"⟩
  else
    let access_key ← refused "InvalidAccessKeyId" (required
      (resolveS3AccessKey plane parsed.parsed.accessKeyId)
      "the provided access key is not recognized")
    let expected_signature ← refused "SignatureDoesNotMatch"
      (buildExpectedPresignedSignature lib method uri headers parsed access_key.secretMaterial)
    if expected_signature = parsed.parsed.signatureHex then .ok access_key
    else .error ⟨403, "SignatureDoesNotMatch", signatureMismatch⟩

def parsedAuthorization (headers : Headers) : Except S3Error ParsedS3Authorization := do
  let authorization ← refused "AccessDenied" (required
    ((headerGet headers "authorization").bind headerText)
    "an AWS Signature Version 4 Authorization header is required")
  refused "AuthorizationHeaderMalformed" (parseAuthorizationHeader authorization)

def authenticateHeader (lib : S3Libraries) (plane : S3ControlPlaneState) (method : String)
    (uri : Uri) (headers : Headers) : Except S3Error S3AccessKeyRecord := do
  let parsed ← parsedAuthorization headers
  if parsed.service ≠ "s3" then
    .error ⟨403, "AuthorizationHeaderMalformed",
      "the authorization header must target the s3 service"⟩
  else
    let access_key ← refused "InvalidAccessKeyId" (required
      (resolveS3AccessKey plane parsed.accessKeyId)
      "the provided access key is not recognized")
    let expected_signature ← refused "SignatureDoesNotMatch"
      (buildExpectedSignature lib method uri headers parsed access_key.secretMaterial)
    if expected_signature = toAsciiLowercase parsed.signatureHex then .ok access_key
    else .error ⟨403, "SignatureDoesNotMatch", signatureMismatch⟩

def authenticateRequest (lib : S3Libraries) (plane : S3ControlPlaneState) (now : Nat)
    (method : String) (uri : Uri) (headers : Headers) : Except S3Error S3AccessKeyRecord :=
  if isPresigned uri then authenticatePresigned lib plane now method uri headers
  else authenticateHeader lib plane method uri headers

def accessKeyAllowsBucket (access_key : S3AccessKeyRecord) (bucket : S3BucketRecord) : Bool :=
  let starts text start := (stripPrefix text start).isSome
  (access_key.bucketScope.isEmpty || access_key.bucketScope.contains bucket.bucketName) &&
    (access_key.prefixScope.isEmpty || access_key.prefixScope.any fun scope =>
      starts bucket.rootPrefix scope || starts scope bucket.rootPrefix)

def accessKeyAllowsStoragePath (access_key : S3AccessKeyRecord) (full_key : String) : Bool :=
  access_key.prefixScope.isEmpty || access_key.prefixScope.any fun scope =>
    (stripPrefix full_key scope).isSome

def accessKeyAllowsObject (access_key : S3AccessKeyRecord) (bucket : S3BucketRecord)
    (full_key : String) : Bool :=
  accessKeyAllowsBucket access_key bucket && accessKeyAllowsStoragePath access_key full_key

structure ObjectRoute where
  bucketName : String
  rawKey : String
  query : S3ObjectQuery
  deriving DecidableEq

def normalizeS3BucketName (bucket_name : String) : Except String String :=
  let normalized := toAsciiLowercase (trim bucket_name)
  let ends c := normalized.toList.head? = some c ∨ normalized.toList.getLast? = some c
  if normalized.utf8ByteSize < 3 ∨ 63 < normalized.utf8ByteSize then
    .error "bucket_name must be between 3 and 63 characters"
  else if ends '-' ∨ ends '.' then
    .error "bucket_name must start and end with a letter or digit"
  else if containsText normalized ".." then
    .error "bucket_name must not contain adjacent dots"
  else if !normalized.toList.all fun c => c.isLower || isAsciiDigit c || c == '-' || c == '.' then
    .error "bucket_name may only contain lowercase letters, digits, dots, and hyphens"
  else .ok normalized

def hostText (host : String) : String :=
  toAsciiLowercase (String.ofList (host.toList.reverse.dropWhile fun c => c == '.').reverse)

def virtualHostedBucketName (lib : S3Libraries) (plane : S3ControlPlaneState)
    (headers : Headers) : Option String := do
  let public_authority ← plane.publicAuthority
  let endpoint_host := hostText public_authority.1
  guard (!lib.isIpAddr endpoint_host)
  let request_host ← headerValueName headers "host"
  let request_authority ← lib.parseAuthority request_host
  guard (public_authority.2.isNone ∨ request_authority.2 = public_authority.2)
  let bucket_name ← stripSuffix (hostText request_authority.1) ("." ++ endpoint_host)
  let _ ← (normalizeS3BucketName bucket_name).toOption
  return bucket_name

/-- The path that the inner router sees: a virtual host contributes the bucket. -/
def listenerPath (lib : S3Libraries) (plane : S3ControlPlaneState) (request : S3Request) : String :=
  match virtualHostedBucketName lib plane request.headers with
  | none => request.uri.path
  | some bucket_name =>
    if request.uri.path = "" ∨ request.uri.path = "/" then "/" ++ bucket_name
    else "/" ++ bucket_name ++ request.uri.path

/-- The route of a PUT of an object; none where another handler or the framework answers. -/
def putObjectRoute (lib : S3Libraries) (plane : S3ControlPlaneState) (request : S3Request) :
    Option ObjectRoute := do
  guard (request.method = "PUT")
  let rest ← stripPrefix (listenerPath lib plane request) "/"
  let (bucket, key) ← splitOnce rest "/"
  guard (bucket ≠ "" ∧ key ≠ "")
  return ⟨← lib.percentDecode bucket, ← lib.percentDecode key,
    ← lib.parseObjectQuery request.uri.query⟩

inductive PutAction where
  | uploadPart (full_key : String)
  | copyObject (full_key : String)
  | putObjectVersioned (full_key : String) (payload : Bytes)
  deriving DecidableEq

def trimStartSlashes (text : String) : String :=
  String.ofList (text.toList.dropWhile fun c => c == '/')

def putObject (lib : S3Libraries) (plane : S3ControlPlaneState) (now : Nat) (route : ObjectRoute)
    (request : S3Request) : Except S3Error PutAction := do
  let access_key ← authenticateRequest lib plane now "PUT" request.uri request.headers
  if !access_key.allowWrite then
    .error ⟨403, "AccessDenied", "the access key is not allowed to write objects"⟩
  else match resolveBucket plane route.bucketName with
    | none => .error ⟨404, "NoSuchBucket", "the specified bucket does not exist"⟩
    | some bucket =>
      let full_key := bucket.rootPrefix ++ trimStartSlashes route.rawKey
      if bucket.readOnly then .error ⟨403, "AccessDenied", "the bucket mapping is read-only"⟩
      else if !accessKeyAllowsObject access_key bucket full_key then
        .error ⟨403, "AccessDenied", "the access key is not allowed to write this object path"⟩
      else if route.query.uploadId.isSome ∨ route.query.partNumber.isSome then
        .ok (.uploadPart full_key)
      else if (headerValueName request.headers "x-amz-copy-source").isSome then
        .ok (.copyObject full_key)
      else .ok (.putObjectVersioned full_key request.body)

def Served (lib : S3Libraries) (plane : S3ControlPlaneState) (now : Nat) (request : S3Request) :
    Prop :=
  ∃ route full_key, putObjectRoute lib plane request = some route ∧
    putObject lib plane now route request = .ok (.putObjectVersioned full_key request.body)

def signedHeadersOf (lib : S3Libraries) (request : S3Request) : List String :=
  if isPresigned request.uri then
    match queryParameterValue lib request.uri "X-Amz-SignedHeaders" with
    | .ok (some value) => signedHeaderList value
    | _ => []
  else match parsedAuthorization request.headers with
    | .ok parsed => parsed.signedHeaders
    | .error _ => []

structure SameHead (lib : S3Libraries) (request other : S3Request) : Prop where
  method : request.method = other.method
  path : request.uri.path = other.uri.path
  query : (queryPairs request.uri).Perm (queryPairs other.uri)
  signed : signedHeadersOf lib request = signedHeadersOf lib other
  headers : ∀ name ∈ signedHeadersOf lib request,
    signedHeaderValue request.headers name = signedHeaderValue other.headers name

structure SameRequest (lib : S3Libraries) (request other : S3Request) : Prop where
  head : SameHead lib request other
  body : request.body = other.body

/-- The check that neither `authenticateRequest` nor `putObject` makes: the body has the digest
    that its request states for it. -/
def HasStatedDigest (lib : S3Libraries) (request : S3Request) : Prop :=
  ∃ value, headerValueName request.headers "x-amz-content-sha256" = some value ∧
    toAsciiLowercase value = toHex (lib.sha256 request.body)

/-- The bodies of the two requests and what their Authorization headers sign do not collide. -/
structure NoCollision (lib : S3Libraries) (request other : S3Request) : Prop where
  payload : lib.sha256 request.body = lib.sha256 other.body → request.body = other.body
  sha256 : ∀ parsed parsed' text text', parsedAuthorization request.headers = .ok parsed →
    parsedAuthorization other.headers = .ok parsed' →
    signedRequestText "PUT" request.uri request.headers parsed = .ok text →
    signedRequestText "PUT" other.uri other.headers parsed' = .ok text' →
    lib.sha256 (textBytes text) = lib.sha256 (textBytes text') → text = text'
  hmac : ∀ parsed parsed' text text' date date' key key',
    parsedAuthorization request.headers = .ok parsed →
    parsedAuthorization other.headers = .ok parsed' →
    signedRequestText "PUT" request.uri request.headers parsed = .ok text →
    signedRequestText "PUT" other.uri other.headers parsed' = .ok text' →
    headerValueName request.headers "x-amz-date" = some date →
    headerValueName other.headers "x-amz-date" = some date' →
    lib.hmacSha256 key (textBytes (stringToSign lib date parsed.credentialScope text)) =
      lib.hmacSha256 key' (textBytes (stringToSign lib date' parsed'.credentialScope text')) →
    stringToSign lib date parsed.credentialScope text =
      stringToSign lib date' parsed'.credentialScope text'

section Text

theorem isHeaderName_clean {name : String} (valid : isHeaderName name = true) :
    '\n' ∉ name.toList := by
  simp only [isHeaderName, Bool.and_eq_true, List.all_eq_true] at valid
  intro member
  have token := valid.1.1 _ member
  revert token
  decide

theorem normalizeHeaderValue_line {value : String} (clean : '\n' ∉ value.toList) :
    '\n' ∉ (normalizeHeaderValue value).toList := by
  intro member
  rcases mem_joinWith member with same | ⟨piece, listed, inside⟩
  · cases same
  · exact clean (splitWhitespace_pieces listed inside)

theorem mem_mapM {α β : Type} {f : α → Option β} {xs : List α} :
    ∀ {ys : List β}, xs.mapM f = some ys → ∀ y ∈ ys, ∃ x, f x = some y := by
  induction xs with
  | nil =>
    intro ys all y member
    cases all
    cases member
  | cons x xs ih =>
    intro ys all y member
    simp only [List.mapM_cons, Option.bind_eq_bind, Option.bind_eq_some_iff] at all
    obtain ⟨first, read, rest, tail, same⟩ := all
    cases same
    rcases List.mem_cons.mp member with rfl | later
    · exact ⟨x, read⟩
    · exact ih tail y later

theorem signedHeaderValue_line {headers : Headers} {name value : String}
    (read : signedHeaderValue headers name = .ok value) :
    '\n' ∉ (name ++ ":" ++ value).toList := by
  unfold signedHeaderValue at read
  split at read
  · cases read
  · next valid =>
    have named := isHeaderName_clean (by simpa using valid)
    split at read
    · cases read
    · next values shown =>
      dsimp only at read
      split at read
      · cases read
      · cases read
        have lines : '\n' ∉ (joinWith ',' (values.map normalizeHeaderValue)).toList := by
          intro member
          rcases mem_joinWith member with same | ⟨part, listed, inside⟩
          · cases same
          · obtain ⟨text, source, rfl⟩ := List.mem_map.mp listed
            have clean : '\n' ∉ text.toList := by
              obtain ⟨bytes, printed⟩ := mem_mapM shown text source
              exact headerText_line printed
            exact normalizeHeaderValue_line clean inside
        simp only [String.toList_append, List.mem_append, not_or]
        exact ⟨⟨named, by decide⟩, lines⟩

theorem canonicalHeaders_cancel {headers others : Headers} {names : List String} :
    ∀ {text text' rest rest' : String}, canonicalHeaders headers names = .ok text →
      canonicalHeaders others names = .ok text' → text ++ rest = text' ++ rest' →
      (∀ name ∈ names, signedHeaderValue headers name = signedHeaderValue others name) ∧
        rest = rest' := by
  induction names with
  | nil =>
    intro text text' rest rest' first second same
    cases first
    cases second
    exact ⟨by simp, by simpa using same⟩
  | cons name names ih =>
    intro text text' rest rest' first second same
    simp only [canonicalHeaders] at first second
    obtain ⟨value, read, first⟩ := except_bind_ok first
    obtain ⟨tail, below, first⟩ := except_bind_ok first
    obtain ⟨value', read', second⟩ := except_bind_ok second
    obtain ⟨tail', below', second⟩ := except_bind_ok second
    cases first
    cases second
    have lined : name ++ ":" ++ value ++ "\n" ++ (tail ++ rest) =
        name ++ ":" ++ value' ++ "\n" ++ (tail' ++ rest') := by
      simpa [String.append_assoc] using same
    obtain ⟨line, onward⟩ :=
      line_cancel (signedHeaderValue_line read) (signedHeaderValue_line read') lined
    obtain ⟨later, done⟩ := ih below below' onward
    have values : value = value' := by simpa using line
    refine ⟨fun other listed => ?_, done⟩
    rcases List.mem_cons.mp listed with rfl | member
    · rw [read, read', values]
    · exact later other member

theorem queryPair_name (pair : String) : '=' ∉ (queryPair pair).1.toList := by
  unfold queryPair splitOnce
  cases parts : splitFirst "=".toList pair.toList with
  | none =>
    have absent : ¬"=".toList <:+: pair.toList := splitFirst_eq_none.mp parts
    intro member
    obtain ⟨before, after, whole⟩ := List.append_of_mem member
    have chars : pair.toList = before ++ '=' :: after := by simpa using whole
    exact absent ⟨before, after, by simp [chars]⟩
  | some halves =>
    obtain ⟨before, after⟩ := halves
    have unmarked : '=' ∉ before := splitFirst_char_clean parts
    simpa using unmarked

theorem queryPair_chars {pair : String} {c : Char}
    (member : c ∈ (pairText (queryPair pair)).toList) : c = '=' ∨ c ∈ pair.toList := by
  unfold queryPair splitOnce at member
  cases parts : splitFirst "=".toList pair.toList with
  | none =>
    rw [parts] at member
    simp only [pairText, Option.map_none, Option.getD_none, String.toList_append,
      List.mem_append] at member
    rcases member with (inside | same) | none
    · exact .inr inside
    · exact .inl (by simpa using same)
    · cases none
  | some halves =>
    obtain ⟨before, after⟩ := halves
    have whole := splitFirst_append _ parts
    rw [parts] at member
    simp only [pairText, Option.map_some, Option.getD_some, String.toList_append,
      String.toList_ofList] at member
    rw [whole] at member
    exact .inr member

theorem queryPairs_chars {uri : Uri} {pair : String × String} (listed : pair ∈ queryPairs uri) :
    '=' ∉ pair.1.toList ∧ ∀ c ∈ (pairText pair).toList,
      c = '=' ∨ (c ∈ (uri.query.getD "").toList ∧ c ≠ '&') := by
  obtain ⟨text, split, rfl⟩ := List.mem_map.mp listed
  refine ⟨queryPair_name text, fun c member => ?_⟩
  rcases queryPair_chars member with same | inside
  · exact .inl same
  · exact .inr (splitOn_pieces (List.mem_filter.mp split).1 inside)

theorem canonicalQueryString_eq (uri : Uri) : canonicalQueryString uri =
    joinWith '&' (((queryPairs uri).insertionSort pairLe).map pairText) := by
  simp [canonicalQueryString, canonicalQueryStringExcluding]

theorem mem_sortedPairs {uri : Uri} {pair : String × String} :
    pair ∈ (queryPairs uri).insertionSort pairLe ↔ pair ∈ queryPairs uri :=
  (List.perm_insertionSort pairLe _).mem_iff

theorem canonicalQueryString_line (uri : Uri) : '\n' ∉ (canonicalQueryString uri).toList := by
  rw [canonicalQueryString_eq]
  intro member
  rcases mem_joinWith member with same | ⟨text, listed, inside⟩
  · cases same
  · obtain ⟨pair, sorted, rfl⟩ := List.mem_map.mp listed
    rcases (queryPairs_chars (mem_sortedPairs.mp sorted)).2 _ inside with same | ⟨occurs, -⟩
    · cases same
    · exact uri.query_line occurs

theorem canonicalQueryString_perm {uri other : Uri}
    (same : canonicalQueryString uri = canonicalQueryString other) :
    (queryPairs uri).Perm (queryPairs other) := by
  have clean : ∀ uri : Uri, ∀ text ∈ ((queryPairs uri).insertionSort pairLe).map pairText,
      '&' ∉ text.toList ∧ text ≠ "" := by
    intro uri text listed
    obtain ⟨pair, sorted, rfl⟩ := List.mem_map.mp listed
    constructor
    · intro member
      rcases (queryPairs_chars (mem_sortedPairs.mp sorted)).2 _ member with same | ⟨-, apart⟩
      · cases same
      · exact apart rfl
    · intro empty
      have chars := congrArg String.toList empty
      simp [pairText] at chars
  have names : ∀ pair ∈ (queryPairs uri).insertionSort pairLe,
      ∀ pair' ∈ (queryPairs other).insertionSort pairLe, pairText pair = pairText pair' →
        pair = pair' := by
    intro pair sorted pair' sorted' texts
    obtain ⟨name, value⟩ := char_cancel (queryPairs_chars (mem_sortedPairs.mp sorted)).1
      (queryPairs_chars (mem_sortedPairs.mp sorted')).1 texts
    exact Prod.ext name value
  rw [canonicalQueryString_eq, canonicalQueryString_eq] at same
  have texts := joinWith_injective (clean uri) (clean other) same
  have lists : (queryPairs uri).insertionSort pairLe =
      (queryPairs other).insertionSort pairLe := by
    refine List.ext_getElem (by simpa using congrArg List.length texts) fun i first second => ?_
    have here := congrArg (fun list => list[i]?) texts
    simp only [List.getElem?_map, List.getElem?_eq_getElem first,
      List.getElem?_eq_getElem second, Option.map_some, Option.some.injEq] at here
    exact names _ (List.getElem_mem first) _ (List.getElem_mem second) here
  exact (List.perm_insertionSort pairLe _).symm.trans
    (lists ▸ List.perm_insertionSort pairLe (queryPairs other))

theorem signedRequestText_injective {uri other : Uri} {headers others : Headers}
    {parsed : ParsedS3Authorization} {text : String}
    (first : signedRequestText "PUT" uri headers parsed = .ok text)
    (second : signedRequestText "PUT" other others parsed = .ok text) :
    (if uri.path = "" then "/" else uri.path) = (if other.path = "" then "/" else other.path) ∧
      (queryPairs uri).Perm (queryPairs other) ∧
      (∀ name ∈ parsed.signedHeaders, signedHeaderValue headers name =
        signedHeaderValue others name) ∧
      statedPayloadHash headers = statedPayloadHash others := by
  simp only [signedRequestText, buildCanonicalRequest] at first second
  obtain ⟨payload_hash, stated, first⟩ := except_bind_ok first
  obtain ⟨lines, read, first⟩ := except_bind_ok first
  obtain ⟨payload_hash', stated', second⟩ := except_bind_ok second
  obtain ⟨lines', read', second⟩ := except_bind_ok second
  have same := Except.ok.inj (first.trans second.symm)
  have path_line : ∀ uri : Uri, '\n' ∉ (if uri.path = "" then "/" else uri.path).toList := by
    intro uri
    split
    · decide
    · exact uri.path_line
  obtain ⟨-, same⟩ := line_cancel (by decide) (by decide) same
  obtain ⟨path, same⟩ := line_cancel (path_line uri) (path_line other) same
  obtain ⟨query, same⟩ :=
    line_cancel (canonicalQueryString_line uri) (canonicalQueryString_line other) same
  have block : lines ++ ("\n" ++ (joinWith ';' parsed.signedHeaders ++ "\n" ++ payload_hash)) =
      lines' ++ ("\n" ++ (joinWith ';' parsed.signedHeaders ++ "\n" ++ payload_hash')) := by
    simpa [String.append_assoc] using same
  obtain ⟨values, ending⟩ := canonicalHeaders_cancel read read' block
  have hashes : payload_hash = payload_hash' := by
    simpa [String.append_assoc] using ending
  exact ⟨path, canonicalQueryString_perm query, values, by rw [stated, stated', hashes]⟩

end Text

section Acceptance
variable {lib : S3Libraries} {plane plane' : S3ControlPlaneState} {now now' : Nat}
  {request other : S3Request}

theorem refused_ok {α : Type} {code : String} {result : Except String α} {value : α}
    (ok : refused code result = .ok value) : result = .ok value := by
  cases result with
  | error message => cases ok
  | ok found => cases ok; rfl

variable {headers : Headers}

theorem authenticateHeader_ok {method : String} {uri : Uri} {access_key : S3AccessKeyRecord}
    (accepted : authenticateHeader lib plane method uri headers = .ok access_key) :
    ∃ parsed date text, parsedAuthorization headers = .ok parsed ∧
      headerValueName headers "x-amz-date" = some date ∧
      signedRequestText method uri headers parsed = .ok text ∧
      signText lib parsed access_key.secretMaterial
        (stringToSign lib date parsed.credentialScope text) =
          toAsciiLowercase parsed.signatureHex := by
  unfold authenticateHeader at accepted
  obtain ⟨parsed, read, accepted⟩ := except_bind_ok accepted
  split at accepted
  · cases accepted
  · obtain ⟨key, -, accepted⟩ := except_bind_ok accepted
    obtain ⟨expected, built, accepted⟩ := except_bind_ok accepted
    have expectation := refused_ok built
    split at accepted
    · next equal =>
      cases accepted
      unfold buildExpectedSignature at expectation
      obtain ⟨date, dated, expectation⟩ := except_bind_ok expectation
      obtain ⟨text, signed, expectation⟩ := except_bind_ok expectation
      cases expectation
      exact ⟨parsed, date, text, read, required_ok dated, signed, equal⟩
    · cases accepted

theorem authenticateHeader_intro {method date text : String} {uri : Uri}
    {parsed : ParsedS3Authorization} {access_key : S3AccessKeyRecord}
    (read : parsedAuthorization headers = .ok parsed) (service : parsed.service = "s3")
    (known : resolveS3AccessKey plane parsed.accessKeyId = some access_key)
    (dated : headerValueName headers "x-amz-date" = some date)
    (signed : signedRequestText method uri headers parsed = .ok text)
    (expected : signText lib parsed access_key.secretMaterial
      (stringToSign lib date parsed.credentialScope text) =
        toAsciiLowercase parsed.signatureHex) :
    authenticateHeader lib plane method uri headers = .ok access_key := by
  simp only [authenticateHeader, read, service, known, buildExpectedSignature, dated, signed,
    expected, required, refused, bind, Except.bind, pure, Except.pure, Except.mapError, ne_eq,
    not_true_eq_false, if_false, if_true]

theorem normalized_bucket_plain {bucket_name normalized : String}
    (ok : normalizeS3BucketName bucket_name = .ok normalized) : '/' ∉ bucket_name.toList := by
  unfold normalizeS3BucketName at ok
  dsimp only at ok
  split at ok
  · cases ok
  split at ok
  · cases ok
  split at ok
  · cases ok
  split at ok
  · cases ok
  · next plain =>
    intro member
    have trimmed := trim_keeps member (by decide)
    have lowered : '/' ∈ (toAsciiLowercase (trim bucket_name)).toList := by
      rw [toAsciiLowercase, String.toList_ofList]
      exact List.mem_map.mpr ⟨'/', trimmed, by decide⟩
    simp only [Bool.not_eq_true', Bool.not_eq_false] at plain
    have allowed := List.all_eq_true.mp plain _ lowered
    revert allowed
    decide

theorem virtual_bucket_plain {bucket_name : String}
    (found : virtualHostedBucketName lib plane headers = some bucket_name) :
    '/' ∉ bucket_name.toList := by
  simp only [virtualHostedBucketName, Option.bind_eq_bind, Option.bind_eq_some_iff] at found
  obtain ⟨_, -, _, -, _, -, _, -, _, -, name, -, normalized, plain, same⟩ := found
  have named : name = bucket_name := Option.some.inj same
  subst named
  cases checked : normalizeS3BucketName name with
  | error message => rw [checked] at plain; cases plain
  | ok text => exact normalized_bucket_plain checked

theorem splitOnce_needs {text sep : String} {parts : String × String} {c : Char}
    (found : splitOnce text sep = some parts) (member : c ∈ sep.toList) : c ∈ text.toList := by
  obtain ⟨halves, split, -⟩ := Option.map_eq_some_iff.mp found
  rw [← splitFirst_append _ split]
  simp [member]

theorem stripPrefix_chars {text start rest : String} {c : Char}
    (found : stripPrefix text start = some rest) (member : c ∈ rest.toList) : c ∈ text.toList := by
  unfold stripPrefix at found
  split at found
  · cases found
    rw [String.toList_ofList] at member
    exact List.mem_of_mem_drop member
  · cases found

theorem routed_path {route : ObjectRoute} (routed : putObjectRoute lib plane request = some route) :
    request.method = "PUT" ∧ request.uri.path ≠ "" := by
  simp only [putObjectRoute, Option.bind_eq_bind, Option.bind_eq_some_iff,
    Option.guard_eq_some'] at routed
  obtain ⟨-, method, rest, stripped, pair, split, -⟩ := routed
  refine ⟨method, fun empty => ?_⟩
  have slash : '/' ∈ rest.toList := splitOnce_needs split (by decide)
  unfold listenerPath at stripped
  cases hosted : virtualHostedBucketName lib plane request.headers with
  | none =>
    simp only [hosted, empty] at stripped
    exact absurd (stripPrefix_chars stripped slash) (by decide)
  | some bucket_name =>
    simp only [hosted, empty, true_or, if_true] at stripped
    have whole : rest = bucket_name := by
      simpa [stripPrefix] using stripped.symm
    exact virtual_bucket_plain hosted (whole ▸ slash)

theorem served_accepted (served : Served lib plane now request) :
    request.method = "PUT" ∧ request.uri.path ≠ "" ∧ ∃ access_key,
      authenticateRequest lib plane now "PUT" request.uri request.headers = .ok access_key := by
  obtain ⟨route, full_key, routed, done⟩ := served
  obtain ⟨method, path⟩ := routed_path routed
  unfold putObject at done
  obtain ⟨access_key, accepted, -⟩ := except_bind_ok done
  exact ⟨method, path, access_key, accepted⟩

theorem header_binds_head (served : Served lib plane now request)
    (served' : Served lib plane' now' other)
    (authorization : headerGet request.headers "authorization" =
      headerGet other.headers "authorization")
    (date : headerGet request.headers "x-amz-date" = headerGet other.headers "x-amz-date")
    (apart : NoCollision lib request other) (unsigned : isPresigned request.uri = false)
    (unsigned' : isPresigned other.uri = false) : SameHead lib request other ∧
      statedPayloadHash request.headers = statedPayloadHash other.headers := by
  obtain ⟨method, path, key, accepted⟩ := served_accepted served
  obtain ⟨method', path', key', accepted'⟩ := served_accepted served'
  simp only [authenticateRequest, unsigned, unsigned', Bool.false_eq_true, if_false]
    at accepted accepted'
  obtain ⟨parsed, day, text, read, dated, signed, expected⟩ := authenticateHeader_ok accepted
  obtain ⟨parsed', day', text', read', dated', signed', expected'⟩ :=
    authenticateHeader_ok accepted'
  have again : parsedAuthorization request.headers = parsedAuthorization other.headers := by
    simp only [parsedAuthorization, authorization]
  cases Except.ok.inj (read.symm.trans (again.trans read'))
  have days : day = day' := by
    have same : headerValueName request.headers "x-amz-date" =
        headerValueName other.headers "x-amz-date" := by
      simp only [headerValueName, date]
    exact Option.some.inj (dated.symm.trans (same.trans dated'))
  subst days
  simp only [signText] at expected expected'
  have digests := toHex_injective (expected.trans expected'.symm)
  have strings := apart.hmac parsed parsed text text' day day _ _ read read' signed signed' dated
    dated' digests
  unfold stringToSign at strings
  have hashes := toHex_injective ((String.append_right_inj _).mp strings)
  have texts := apart.sha256 parsed parsed text text' read read' signed signed' hashes
  subst texts
  obtain ⟨paths, pairs, values, stated⟩ := signedRequestText_injective signed signed'
  have names : signedHeadersOf lib request = parsed.signedHeaders ∧
      signedHeadersOf lib other = parsed.signedHeaders := by
    simp only [signedHeadersOf, unsigned, unsigned', Bool.false_eq_true, if_false, read, read']
    exact ⟨trivial, trivial⟩
  refine ⟨?_, stated⟩
  exact {
    method := method.trans method'.symm
    path := by simpa [path, path'] using paths
    query := pairs
    signed := names.1.trans names.2.symm
    headers := by rw [names.1]; exact values }

-- The signed line may be spelt in another case than the header only for an unsigned payload.
theorem statedPayloadHash_lowercase {value : String}
    (read : headerValueName headers "x-amz-content-sha256" = some value) :
    ∃ payload_hash, statedPayloadHash headers = .ok payload_hash ∧
      toAsciiLowercase payload_hash = toAsciiLowercase value := by
  refine ⟨_, by simp only [statedPayloadHash, read]; rfl, ?_⟩
  split
  · next unsigned => exact unsigned.symm
  · rfl

theorem stated_digest_carries
    (stated : statedPayloadHash request.headers = statedPayloadHash other.headers)
    {value value' : String}
    (read : headerValueName request.headers "x-amz-content-sha256" = some value)
    (read' : headerValueName other.headers "x-amz-content-sha256" = some value') :
    toAsciiLowercase value = toAsciiLowercase value' := by
  obtain ⟨payload_hash, signed, lower⟩ := statedPayloadHash_lowercase read
  obtain ⟨payload_hash', signed', lower'⟩ := statedPayloadHash_lowercase read'
  cases Except.ok.inj (signed.symm.trans (stated.trans signed'))
  exact lower.symm.trans lower'

theorem same_body_of_digests (apart : NoCollision lib request other)
    (stated : statedPayloadHash request.headers = statedPayloadHash other.headers)
    (checked : HasStatedDigest lib request) (checked' : HasStatedDigest lib other) :
    request.body = other.body := by
  obtain ⟨value, read, digest⟩ := checked
  obtain ⟨value', read', digest'⟩ := checked'
  have lower := stated_digest_carries stated read read'
  exact apart.payload (toHex_injective (digest.symm.trans (lower.trans digest')))

theorem digest_of_same_body
    (stated : statedPayloadHash request.headers = statedPayloadHash other.headers)
    (body : request.body = other.body) (checked : HasStatedDigest lib request) :
    HasStatedDigest lib other := by
  obtain ⟨value, read, digest⟩ := checked
  obtain ⟨payload_hash, signed, _⟩ := statedPayloadHash_lowercase read
  rw [signed] at stated
  obtain ⟨value', read', _⟩ := except_bind_ok stated.symm
  have shown := required_ok read'
  refine ⟨value', shown, ?_⟩
  rw [← stated_digest_carries (signed.trans stated) read shown, digest, body]

theorem signedRequestText_congr {method : String} {uri other : Uri}
    (path : uri.path = other.path) (query : canonicalQueryString uri = canonicalQueryString other)
    (parsed : ParsedS3Authorization) :
    signedRequestText method uri headers parsed = signedRequestText method other headers parsed := by
  simp only [signedRequestText, buildCanonicalRequest, path, query]

theorem noCollision_of_same_head
    (payload : lib.sha256 request.body = lib.sha256 other.body → request.body = other.body)
    (headers : request.headers = other.headers)
    (path : request.uri.path = other.uri.path)
    (query : canonicalQueryString request.uri = canonicalQueryString other.uri) :
    NoCollision lib request other := by
  have same := fun parsed => @signedRequestText_congr other.headers "PUT" _ _ path query parsed
  refine ⟨payload, ?_, ?_⟩
  · intro parsed parsed' text text' read read' signed signed' _
    rw [headers] at read signed
    cases Except.ok.inj (read.symm.trans read')
    exact Except.ok.inj (signed.symm.trans ((same parsed).trans signed'))
  · intro parsed parsed' text text' date date' key key' read read' signed signed' dated dated' _
    rw [headers] at read signed dated
    cases Except.ok.inj (read.symm.trans read')
    cases Option.some.inj (dated.symm.trans dated')
    rw [Except.ok.inj (signed.symm.trans ((same parsed).trans signed'))]

end Acceptance

/-- Beside a request whose body has the digest it states, a request under the same signature is
    the same one exactly if its own body has the digest that it states. Both are judged by
    their Authorization header, as one with a signature in its query is not. -/
theorem s3_signature_binds_request_iff (lib : S3Libraries) (plane plane' : S3ControlPlaneState)
    (now now' : Nat) (request other : S3Request) (served : Served lib plane now request)
    (served' : Served lib plane' now' other)
    (authorization : headerGet request.headers "authorization" =
      headerGet other.headers "authorization")
    (date : headerGet request.headers "x-amz-date" = headerGet other.headers "x-amz-date")
    (apart : NoCollision lib request other)
    (judged : isPresigned request.uri = false ∧ isPresigned other.uri = false)
    (checked : HasStatedDigest lib request) :
    SameRequest lib request other ↔ HasStatedDigest lib other := by
  obtain ⟨head, stated⟩ :=
    header_binds_head served served' authorization date apart judged.1 judged.2
  constructor
  · intro same
    exact digest_of_same_body stated same.body checked
  · intro checked'
    exact ⟨head, same_body_of_digests apart stated checked checked'⟩

def helloHash : String := "2cf24dba5fb0a30e26e83b2ac5b9e29e1b161e5c1fa7425e73043362938b9824"

def helloSignature : String :=
  "ef2f742f0296cf2e035ad80caf4e81fea6d5310550710a5ac5a634b069441477"

def helloText : String :=
  "PUT\n/photos/a.txt\na=1&b=2\nhost:s3.test\nx-amz-date:20240101T000000Z\n\n" ++
    "host;x-amz-date\n" ++ helloHash

/-- SHA-256 and HMAC on the texts of one request signed with the secret `secret`, and SHA-256
    on two bodies. -/
def helloLibraries : S3Libraries where
  sha256 data :=
    if data = textBytes helloText then
      [42, 219, 177, 145, 96, 251, 183, 85, 42, 172, 191, 124, 198, 37, 134, 121, 32, 152, 37,
        26, 86, 96, 126, 173, 36, 243, 80, 217, 75, 173, 164, 193]
    else if data = textBytes "hello" then
      [44, 242, 77, 186, 95, 176, 163, 14, 38, 232, 59, 42, 197, 185, 226, 158, 27, 22, 30, 92,
        31, 167, 66, 94, 115, 4, 51, 98, 147, 139, 152, 36]
    else if data = textBytes "forged" then
      [204, 221, 53, 22, 138, 180, 116, 250, 87, 100, 165, 38, 207, 184, 54, 33, 53, 30, 35,
        104, 44, 80, 117, 178, 225, 141, 86, 189, 223, 150, 170, 48]
    else []
  hmacSha256 _ data :=
    if data = textBytes "20240101" then
      [236, 10, 55, 64, 164, 76, 86, 210, 226, 95, 179, 142, 236, 23, 133, 174, 226, 172, 150,
        46, 125, 245, 26, 186, 124, 159, 136, 249, 112, 48, 90, 24]
    else if data = textBytes "eu" then
      [144, 43, 93, 3, 50, 92, 9, 125, 131, 157, 240, 20, 135, 105, 204, 106, 133, 164, 94,
        183, 132, 60, 52, 22, 37, 47, 197, 5, 49, 239, 63, 207]
    else if data = textBytes "s3" then
      [57, 21, 84, 47, 98, 154, 98, 236, 81, 12, 17, 225, 85, 24, 178, 78, 250, 224, 168, 25,
        55, 115, 96, 170, 132, 232, 187, 186, 235, 104, 204, 7]
    else if data = textBytes "aws4_request" then
      [235, 111, 35, 153, 216, 253, 204, 59, 67, 128, 90, 6, 205, 145, 107, 17, 69, 32, 34,
        248, 85, 248, 230, 33, 193, 115, 5, 182, 161, 57, 165, 163]
    else
      [239, 47, 116, 47, 2, 150, 207, 46, 3, 90, 216, 12, 175, 78, 129, 254, 166, 213, 49, 5,
        80, 113, 10, 90, 197, 166, 52, 176, 105, 68, 20, 119]
  percentDecode text := some text
  calendarDays _ _ _ := none
  parseAuthority _ := none
  isIpAddr _ := false
  parseObjectQuery _ := some ⟨none, none⟩

def photosKey : S3AccessKeyRecord := ⟨"K1", "secret", [], [], true, none⟩

def photosBucket : S3BucketRecord := ⟨"photos", "s3/photos/", false, none⟩

def photosPlane : S3ControlPlaneState := ⟨[photosBucket], [photosKey], none⟩

def sortedUri : Uri := ⟨"/photos/a.txt", some "a=1&b=2", by decide, by decide⟩

def swappedUri : Uri := ⟨"/photos/a.txt", some "b=2&a=1", by decide, by decide⟩

def helloHeaders : Headers :=
  [("host", textBytes "s3.test"), ("x-amz-date", textBytes "20240101T000000Z"),
    ("x-amz-content-sha256", textBytes helloHash),
    ("authorization", textBytes ("AWS4-HMAC-SHA256 Credential=K1/20240101/eu/s3/aws4_request," ++
      "SignedHeaders=host;x-amz-date,Signature=" ++ helloSignature))]

def helloParsed : ParsedS3Authorization :=
  ⟨"K1", "20240101/eu/s3/aws4_request", ["host", "x-amz-date"], helloSignature, "20240101", "eu",
    "s3"⟩

def photosRequest (uri : Uri) (body : Bytes) : S3Request := ⟨"PUT", uri, helloHeaders, body⟩

section Evaluation

theorem helloHeaders_parsed : parsedAuthorization helloHeaders = .ok helloParsed := by
  decide +kernel

theorem helloHeaders_text :
    signedRequestText "PUT" sortedUri helloHeaders helloParsed = .ok helloText := by
  decide +kernel

theorem helloHeaders_signature :
    signText helloLibraries helloParsed photosKey.secretMaterial (stringToSign helloLibraries "20240101T000000Z"
      helloParsed.credentialScope helloText) = toAsciiLowercase helloParsed.signatureHex := by
  decide +kernel

theorem hello_digests : headerValueName helloHeaders "x-amz-content-sha256" = some helloHash ∧
    toAsciiLowercase helloHash = toHex (helloLibraries.sha256 (textBytes "hello")) ∧
    toAsciiLowercase helloHash ≠ toHex (helloLibraries.sha256 (textBytes "forged")) ∧
    helloLibraries.sha256 (textBytes "hello") ≠ helloLibraries.sha256 (textBytes "forged") := by
  decide +kernel

theorem photosQuery_sorted : canonicalQueryString swappedUri = canonicalQueryString sortedUri ∧
    swappedUri.path = sortedUri.path ∧ isPresigned sortedUri = false ∧
    isPresigned swappedUri = false := by
  decide +kernel

theorem helloHeaders_accepted {uri : Uri} (unsigned : isPresigned uri = false)
    (text : signedRequestText "PUT" uri helloHeaders helloParsed = .ok helloText) :
    authenticateRequest helloLibraries photosPlane 0 "PUT" uri helloHeaders = .ok photosKey := by
  have date : headerValueName helloHeaders "x-amz-date" = some "20240101T000000Z" := by
    decide +kernel
  have known : resolveS3AccessKey photosPlane helloParsed.accessKeyId = some photosKey := by
    decide +kernel
  rw [authenticateRequest, unsigned, if_neg Bool.false_ne_true]
  exact authenticateHeader_intro helloHeaders_parsed rfl known date text helloHeaders_signature

theorem photosRequest_served {uri : Uri} (body : Bytes)
    (accepted : authenticateRequest helloLibraries photosPlane 0 "PUT" uri helloHeaders =
      .ok photosKey) (path : uri.path = "/photos/a.txt") :
    Served helloLibraries photosPlane 0 (photosRequest uri body) := by
  have plain : headerValueName helloHeaders "x-amz-copy-source" = none ∧
      "s3/photos/" ++ trimStartSlashes "a.txt" = "s3/photos/a.txt" := by
    decide +kernel
  refine ⟨⟨"photos", "a.txt", ⟨none, none⟩⟩, "s3/photos/a.txt", ?_, ?_⟩
  · simp only [putObjectRoute, listenerPath, photosRequest, photosPlane, virtualHostedBucketName,
      path]
    rfl
  · unfold putObject
    simp only [photosRequest, accepted, plain]
    rfl

end Evaluation

theorem swapped_query_same_request :
    SameRequest helloLibraries (photosRequest sortedUri (textBytes "hello"))
      (photosRequest swappedUri (textBytes "hello")) := by
  obtain ⟨query, path, unsigned, unsigned'⟩ := photosQuery_sorted
  have text := (signedRequestText_congr path query helloParsed).trans helloHeaders_text
  have served := photosRequest_served (textBytes "hello")
    (helloHeaders_accepted unsigned helloHeaders_text) rfl
  have served' := photosRequest_served (textBytes "hello")
    (helloHeaders_accepted unsigned' text) rfl
  have headers : (photosRequest sortedUri (textBytes "hello")).headers =
      (photosRequest swappedUri (textBytes "hello")).headers := by simp only [photosRequest]
  have checked : ∀ uri, HasStatedDigest helloLibraries (photosRequest uri (textBytes "hello")) :=
    fun _ => ⟨helloHash, hello_digests.1, hello_digests.2.1⟩
  have bound := s3_signature_binds_request_iff helloLibraries photosPlane photosPlane 0 0 _ _
    served served' (by rw [headers]) (by rw [headers])
    (noCollision_of_same_head (fun _ => by simp only [photosRequest]) headers path.symm query.symm)
    ⟨unsigned, unsigned'⟩ (checked sortedUri)
  exact bound.mpr (checked swappedUri)

/-- The same headers let another body in, although they state the digest of `hello`. -/
theorem other_body_served_under_signature :
    Served helloLibraries photosPlane 0 (photosRequest sortedUri (textBytes "hello")) ∧
    Served helloLibraries photosPlane 0 (photosRequest sortedUri (textBytes "forged")) ∧
    NoCollision helloLibraries (photosRequest sortedUri (textBytes "hello"))
      (photosRequest sortedUri (textBytes "forged")) ∧
    isPresigned sortedUri = false ∧
    HasStatedDigest helloLibraries (photosRequest sortedUri (textBytes "hello")) ∧
    ¬HasStatedDigest helloLibraries (photosRequest sortedUri (textBytes "forged")) ∧
    ¬SameRequest helloLibraries (photosRequest sortedUri (textBytes "hello"))
      (photosRequest sortedUri (textBytes "forged")) := by
  obtain ⟨stated, hello, forged, digests⟩ := hello_digests
  have served := fun body => photosRequest_served body
    (helloHeaders_accepted photosQuery_sorted.2.2.1 helloHeaders_text) rfl
  have apart : NoCollision helloLibraries (photosRequest sortedUri (textBytes "hello"))
      (photosRequest sortedUri (textBytes "forged")) := by
    apply noCollision_of_same_head
    · exact fun collided => absurd collided digests
    all_goals simp only [photosRequest]
  refine ⟨served _, served _, apart, photosQuery_sorted.2.2.1, ⟨helloHash, stated, hello⟩, ?_, ?_⟩
  · rintro ⟨value, read, digest⟩
    cases Option.some.inj (stated.symm.trans read)
    exact forged digest
  · intro same
    have bodies : textBytes "hello" ≠ textBytes "forged" := by decide
    exact bodies same.body

end BerryKeepS3RequestAuth
