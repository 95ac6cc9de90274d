import QMux.Support.Bytes

/-!
# Exporter-bound token proofs

Embedding of `auth/token/token.go`.  Strings are byte strings, as they are in
Go.  Lengths of slices and strings are natural numbers; the `uint64`
accumulator of the encoder keeps its explicit wrap-around, so that the
absence of overflow is a theorem and not a modelling choice.

HMAC-SHA512 and the TLS exporter live outside the repository.  The first is
an argument of the proof functions and the second a field of the connection
state.
-/

namespace QMux.Auth

open Support

abbrev Bytes := List UInt8

/-- The bytes of an ASCII string constant. -/
def ascii (text : String) : Bytes :=
  text.toList.map fun character => UInt8.ofNat character.toNat

def scheme : Bytes := ascii "qmux-token-ekm-hmac-sha512-v1"
def exporterLabel : Bytes := ascii "EXPERIMENTAL-QMux-token-auth-v1"
def meshScheme : Bytes := ascii "qmux-mesh-token-ekm-hmac-sha512-v1"
def meshExporterLabel : Bytes := ascii "EXPERIMENTAL-QMux-mesh-token-auth-v1"
def minSecretSize : Nat := 16
def proofSize : Nat := 64
def proofDomain : Bytes := ascii "QMux token authentication proof"
def meshProofDomain : Bytes := ascii "QMux mesh token authentication proof"
def exporterLength : Nat := 32

def maxUint32 : Nat := 2 ^ 32 - 1
def maxUint64 : Nat := 2 ^ 64 - 1
def maxInt : Nat := 2 ^ 63 - 1
def versionTLS13 : Nat := 0x0304

/-- Registration fields authenticated by an ordinary proof. -/
structure Transcript where
  clientID : Bytes
  version : Bytes
  capabilities : List Bytes
deriving DecidableEq

/-- Role and identity fields authenticated by a mesh proof. -/
structure MeshTranscript where
  version : Bytes
  capabilities : List Bytes
  role : Bytes
  targetServerID : Bytes
  peerServerID : Bytes
  instanceID : Bytes
  groupID : Bytes
deriving DecidableEq

inductive TokenError where
  | secretTooShort
  | handshakeIncomplete
  | tlsVersion (got : Nat)
  | fieldTooLarge
  | transcriptTooLarge
  | tooManyCapabilities
  | duplicateCapability (capability : Bytes)
  | exporter
  | proofLength (got : Nat)
  | invalidProof
deriving DecidableEq

/-- The part of `tls.ConnectionState` read by the proof functions.  The
exporter takes a label and a length; its context argument is always nil. -/
structure ConnectionState where
  handshakeComplete : Bool
  version : Nat
  exportKeyingMaterial : Bytes → Nat → Option Bytes

def addEncodedLength (total length : Nat) : Except TokenError Nat :=
  if length > maxUint32 then .error .fieldTooLarge
  else
    let encodedSize := (4 + length) % 2 ^ 64
    if total > maxUint64 - encodedSize then .error .transcriptTooLarge
    else .ok ((total + encodedSize) % 2 ^ 64)

def addEncodedStringSize (total : Nat) (value : Bytes) :
    Except TokenError Nat :=
  addEncodedLength total value.length

/-- The size loop over the fixed fields around the capabilities. -/
def addFieldSizes (total : Nat) : List Bytes → Except TokenError Nat
  | [] => .ok total
  | field :: fields =>
    match addEncodedStringSize total field with
    | .error failure => .error failure
    | .ok next => addFieldSizes next fields

/-- The size loop over the capabilities, with its duplicate check. -/
def addCapabilitySizes (seen : List Bytes) (total : Nat) :
    List Bytes → Except TokenError Nat
  | [] => .ok total
  | capability :: capabilities =>
    if capability ∈ seen then .error (.duplicateCapability capability)
    else
      match addEncodedStringSize total capability with
      | .error failure => .error failure
      | .ok next => addCapabilitySizes (capability :: seen) next capabilities

/-- The total that `marshalTokenTranscript` computes before it writes. -/
def precomputedTotal (prefixFields capabilities suffixFields : List Bytes) :
    Except TokenError Nat :=
  match addFieldSizes 4 (prefixFields ++ suffixFields) with
  | .error failure => .error failure
  | .ok fixed =>
    if capabilities.length > maxUint32 then .error .tooManyCapabilities
    else addCapabilitySizes [] fixed capabilities

/-- A string behind its four-byte length; the length is cut to `uint32`. -/
def writeString (value : Bytes) : Bytes :=
  putUint 4 (value.length % 2 ^ 32) ++ value

def marshalTokenTranscript
    (prefixFields capabilities suffixFields : List Bytes) :
    Except TokenError Bytes :=
  match precomputedTotal prefixFields capabilities suffixFields with
  | .error failure => .error failure
  | .ok total =>
    if total > maxInt then .error .transcriptTooLarge
    else
      .ok (prefixFields.flatMap writeString ++
        (putUint 4 (capabilities.length % 2 ^ 32) ++
          (capabilities.flatMap writeString ++
            suffixFields.flatMap writeString)))

def marshalTranscript (transcript : Transcript) : Except TokenError Bytes :=
  marshalTokenTranscript
    [proofDomain, scheme, transcript.clientID, transcript.version]
    transcript.capabilities
    []

def marshalMeshTranscript (transcript : MeshTranscript) :
    Except TokenError Bytes :=
  marshalTokenTranscript
    [meshProofDomain, meshScheme, transcript.version]
    transcript.capabilities
    [transcript.role, transcript.targetServerID, transcript.peerServerID,
      transcript.instanceID, transcript.groupID]

section Proofs

/-! The keyed hash is `hmac.New(sha512.New, secret)`: it takes the secret and
the bytes written so far. -/
variable (hmac : Bytes → Bytes → Bytes)

def computeProof (secret canonical ekm : Bytes) : Bytes :=
  hmac secret (canonical ++ ekm)

def compute (secret : Bytes) (transcript : Transcript)
    (state : ConnectionState) : Except TokenError Bytes :=
  if secret.length < minSecretSize then .error .secretTooShort
  else if state.handshakeComplete = false then .error .handshakeIncomplete
  else if state.version ≠ versionTLS13 then .error (.tlsVersion state.version)
  else
    match marshalTranscript transcript with
    | .error failure => .error failure
    | .ok canonical =>
      match state.exportKeyingMaterial exporterLabel exporterLength with
      | none => .error .exporter
      | some ekm => .ok (computeProof hmac secret canonical ekm)

def computeWithExporter (secret canonical label : Bytes)
    (state : ConnectionState) : Except TokenError Bytes :=
  if secret.length < minSecretSize then .error .secretTooShort
  else if state.handshakeComplete = false then .error .handshakeIncomplete
  else if state.version ≠ versionTLS13 then .error (.tlsVersion state.version)
  else
    match state.exportKeyingMaterial label exporterLength with
    | none => .error .exporter
    | some ekm => .ok (computeProof hmac secret canonical ekm)

/-- Unlike `compute`, the mesh variant encodes before it checks the secret. -/
def computeMesh (secret : Bytes) (transcript : MeshTranscript)
    (state : ConnectionState) : Except TokenError Bytes :=
  match marshalMeshTranscript transcript with
  | .error failure => .error failure
  | .ok canonical =>
    computeWithExporter hmac secret canonical meshExporterLabel state

/-- The comparison shared by `Verify` and `VerifyMesh`. -/
def verifyAgainst (proof : Bytes) (expected : Except TokenError Bytes) :
    Except TokenError Unit :=
  if proof.length ≠ proofSize then .error (.proofLength proof.length)
  else
    match expected with
    | .error failure => .error failure
    | .ok value => if proof = value then .ok () else .error .invalidProof

def verify (secret : Bytes) (transcript : Transcript) (proof : Bytes)
    (state : ConnectionState) : Except TokenError Unit :=
  verifyAgainst proof (compute hmac secret transcript state)

def verifyMesh (secret : Bytes) (transcript : MeshTranscript) (proof : Bytes)
    (state : ConnectionState) : Except TokenError Unit :=
  verifyAgainst proof (computeMesh hmac secret transcript state)

end Proofs

end QMux.Auth
