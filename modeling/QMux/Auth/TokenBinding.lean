import QMux.Auth.Token

/-!
# What a token proof is bound to

The encoder writes fixed fields, a count, the counted capabilities, and more
fixed fields.  Its output can be parsed in only one way once the number of
fixed fields is known, and the two registration kinds differ already in their
first field.  Under an injective keyed hash and a collision-free exporter, a
proof therefore names its registration kind, its connection and every field of
its transcript.
-/

namespace QMux.Auth

open Support

/-! ## The size computation -/

/-- Every field can be described by a four-byte length. -/
def FieldsFit (fields : List Bytes) : Prop :=
  ∀ field ∈ fields, field.length < 2 ^ 32

/-- Bytes needed by a list of length-prefixed fields. -/
def encodedSize (fields : List Bytes) : Nat :=
  (fields.map fun field => 4 + field.length).sum

variable {total next : Nat}
  {capabilities leftPrefix rightPrefix leftCapabilities : List Bytes}
  {rightCapabilities leftSuffix rightSuffix : List Bytes} {output : Bytes}

theorem addEncodedLength_ok {length : Nat}
    (success : addEncodedLength total length = .ok next) :
    length < 2 ^ 32 ∧ next = total + (4 + length) := by
  unfold addEncodedLength at success
  split at success
  · simp at success
  rename_i short
  have lengthFits : length < 2 ^ 32 := by
    simp only [maxUint32] at short
    omega
  have sizeFits : (4 + length) % 2 ^ 64 = 4 + length :=
    Nat.mod_eq_of_lt (by omega)
  simp only [sizeFits] at success
  split at success
  · simp at success
  rename_i roomy
  have sumFits : (total + (4 + length)) % 2 ^ 64 = total + (4 + length) :=
    Nat.mod_eq_of_lt (by
      simp only [maxUint64] at roomy
      omega)
  rw [sumFits] at success
  exact ⟨lengthFits, (Except.ok.inj success).symm⟩

theorem addFieldSizes_ok {fields : List Bytes}
    (success : addFieldSizes total fields = .ok next) :
    FieldsFit fields ∧ next = total + encodedSize fields := by
  induction fields generalizing total with
  | nil =>
    simp only [addFieldSizes, Except.ok.injEq] at success
    exact ⟨by simp [FieldsFit], by simp [encodedSize, success]⟩
  | cons field fields ih =>
    simp only [addFieldSizes] at success
    cases first : addEncodedStringSize total field with
    | error failure => simp [first] at success
    | ok middle =>
      simp only [first] at success
      obtain ⟨fieldFits, middleEq⟩ := addEncodedLength_ok first
      obtain ⟨restFit, nextEq⟩ := ih success
      refine ⟨?_, ?_⟩
      · intro candidate member
        rcases List.mem_cons.mp member with rfl | later
        · exact fieldFits
        · exact restFit candidate later
      · simp only [encodedSize, List.map_cons, List.sum_cons] at nextEq ⊢
        omega

theorem addCapabilitySizes_ok {seen : List Bytes}
    (success : addCapabilitySizes seen total capabilities = .ok next) :
    FieldsFit capabilities ∧ next = total + encodedSize capabilities := by
  induction capabilities generalizing seen total with
  | nil =>
    simp only [addCapabilitySizes, Except.ok.injEq] at success
    exact ⟨by simp [FieldsFit], by simp [encodedSize, success]⟩
  | cons capability capabilities ih =>
    simp only [addCapabilitySizes] at success
    split at success
    · simp at success
    cases first : addEncodedStringSize total capability with
    | error failure => simp [first] at success
    | ok middle =>
      simp only [first] at success
      obtain ⟨fieldFits, middleEq⟩ := addEncodedLength_ok first
      obtain ⟨restFit, nextEq⟩ := ih success
      refine ⟨?_, ?_⟩
      · intro candidate member
        rcases List.mem_cons.mp member with rfl | later
        · exact fieldFits
        · exact restFit candidate later
      · simp only [encodedSize, List.map_cons, List.sum_cons] at nextEq ⊢
        omega

/-! ## The encoder -/

/-- The layout that the encoder writes once its checks have passed. -/
def encodeFields (prefixFields capabilities suffixFields : List Bytes) :
    Bytes :=
  prefixFields.flatMap writeString ++
    (putUint 4 (capabilities.length % 2 ^ 32) ++
      (capabilities.flatMap writeString ++ suffixFields.flatMap writeString))

theorem length_flatMap_writeString (fields : List Bytes) :
    (fields.flatMap writeString).length = encodedSize fields := by
  induction fields with
  | nil => rfl
  | cons field fields ih =>
    simp [encodedSize, writeString] at ih ⊢
    omega

/-- Everything a successful encoding tells about its inputs. -/
structure Encodes (prefixFields capabilities suffixFields : List Bytes)
    (output : Bytes) : Prop where
  layout : output = encodeFields prefixFields capabilities suffixFields
  prefixFit : FieldsFit prefixFields
  capabilitiesFit : FieldsFit capabilities
  suffixFit : FieldsFit suffixFields
  countFits : capabilities.length < 2 ^ 32
  total : precomputedTotal prefixFields capabilities suffixFields =
    .ok output.length
  bounded : output.length ≤ maxInt

theorem marshalTokenTranscript_ok {prefixFields suffixFields : List Bytes}
    (success : marshalTokenTranscript prefixFields capabilities suffixFields =
      .ok output) : Encodes prefixFields capabilities suffixFields output := by
  unfold marshalTokenTranscript at success
  cases computed : precomputedTotal prefixFields capabilities suffixFields with
  | error failure => simp [computed] at success
  | ok total =>
    simp only [computed] at success
    split at success
    · simp at success
    rename_i bounded
    have outputEq :
        output = encodeFields prefixFields capabilities suffixFields :=
      (Except.ok.inj success).symm
    have sizes := computed
    unfold precomputedTotal at sizes
    cases fixed : addFieldSizes 4 (prefixFields ++ suffixFields) with
    | error failure => simp [fixed] at sizes
    | ok fixedTotal =>
      simp only [fixed] at sizes
      split at sizes
      · simp at sizes
      rename_i countSmall
      obtain ⟨fixedFit, fixedEq⟩ := addFieldSizes_ok fixed
      obtain ⟨capabilitiesFit, totalEq⟩ := addCapabilitySizes_ok sizes
      have lengthEq : output.length = total := by
        rw [outputEq, totalEq, fixedEq]
        simp only [encodeFields, List.length_append, length_putUint,
          length_flatMap_writeString]
        simp only [encodedSize, List.map_append, List.sum_append]
        omega
      exact
        { layout := outputEq
          prefixFit := fun field member =>
            fixedFit field (List.mem_append_left _ member)
          capabilitiesFit := capabilitiesFit
          suffixFit := fun field member =>
            fixedFit field (List.mem_append_right _ member)
          countFits := by
            simp only [maxUint32] at countSmall
            omega
          total := by rw [lengthEq, computed]
          bounded := by omega }

theorem prefixCode_writeString :
    PrefixCode (fun value : Bytes => value.length < 2 ^ 32) writeString := by
  intro left right leftRest rightRest leftFits rightFits same
  simp only [writeString, Nat.mod_eq_of_lt leftFits,
    Nat.mod_eq_of_lt rightFits] at same
  exact prefixCode_lengthPrefixed 4 (by simpa using leftFits)
    (by simpa using rightFits) same

theorem Encodes.fields_eq
    (left : Encodes leftPrefix leftCapabilities leftSuffix output)
    (right : Encodes rightPrefix rightCapabilities rightSuffix output)
    (prefixLength : leftPrefix.length = rightPrefix.length)
    (suffixLength : leftSuffix.length = rightSuffix.length) :
    leftPrefix = rightPrefix ∧ leftCapabilities = rightCapabilities ∧
      leftSuffix = rightSuffix := by
  have same := left.layout.symm.trans right.layout
  unfold encodeFields at same
  obtain ⟨prefixes, counted⟩ :=
    prefixCode_writeString.flatMap rightPrefix.length
      ⟨prefixLength, left.prefixFit⟩ ⟨rfl, right.prefixFit⟩ same
  rw [Nat.mod_eq_of_lt left.countFits, Nat.mod_eq_of_lt right.countFits]
    at counted
  obtain ⟨counts, bodies⟩ :=
    prefixCode_putUint 4 (by simpa using left.countFits)
      (by simpa using right.countFits) counted
  obtain ⟨capabilities, suffixes⟩ :=
    prefixCode_writeString.flatMap rightCapabilities.length
      ⟨counts, left.capabilitiesFit⟩ ⟨rfl, right.capabilitiesFit⟩ bodies
  have suffixEq := (prefixCode_writeString.flatMap rightSuffix.length).injective
      ⟨suffixLength, left.suffixFit⟩ ⟨rfl, right.suffixFit⟩ suffixes
  exact ⟨prefixes, capabilities, suffixEq⟩

theorem Encodes.head_eq {leftHead rightHead : Bytes}
    (left : Encodes (leftHead :: leftPrefix) leftCapabilities leftSuffix output)
    (right :
      Encodes (rightHead :: rightPrefix) rightCapabilities rightSuffix output) :
    leftHead = rightHead := by
  have same := left.layout.symm.trans right.layout
  simp only [encodeFields, List.flatMap_cons, List.append_assoc] at same
  exact (prefixCode_writeString (left.prefixFit leftHead (by simp))
    (right.prefixFit rightHead (by simp)) same).1

theorem marshalTranscript_injective {left right : Transcript}
    (leftSuccess : marshalTranscript left = .ok output)
    (rightSuccess : marshalTranscript right = .ok output) : left = right := by
  obtain ⟨prefixes, capabilities, _⟩ :=
    (marshalTokenTranscript_ok leftSuccess).fields_eq
      (marshalTokenTranscript_ok rightSuccess) rfl rfl
  cases left
  cases right
  simp_all

theorem marshalMeshTranscript_injective {left right : MeshTranscript}
    (leftSuccess : marshalMeshTranscript left = .ok output)
    (rightSuccess : marshalMeshTranscript right = .ok output) :
    left = right := by
  obtain ⟨prefixes, capabilities, suffixes⟩ :=
    (marshalTokenTranscript_ok leftSuccess).fields_eq
      (marshalTokenTranscript_ok rightSuccess) rfl rfl
  cases left
  cases right
  simp_all

theorem marshalTranscript_ne_mesh {ordinary : Transcript}
    {mesh : MeshTranscript}
    (ordinarySuccess : marshalTranscript ordinary = .ok output) :
    marshalMeshTranscript mesh ≠ .ok output := by
  intro meshSuccess
  have domains := (marshalTokenTranscript_ok ordinarySuccess).head_eq
      (marshalTokenTranscript_ok meshSuccess)
  exact absurd domains (by decide)

/-! ## Proofs of both kinds -/

/-- A registration of either kind, as both sides authenticate it. -/
inductive Registration where
  | ordinary (transcript : Transcript)
  | mesh (transcript : MeshTranscript)
deriving DecidableEq

namespace Registration

def marshal : Registration → Except TokenError Bytes
  | .ordinary transcript => marshalTranscript transcript
  | .mesh transcript => marshalMeshTranscript transcript

def label : Registration → Bytes
  | .ordinary _ => exporterLabel
  | .mesh _ => meshExporterLabel

section Proofs

variable (hmac : Bytes → Bytes → Bytes) (secret : Bytes)

/-- `Compute` or `ComputeMesh`, by kind. -/
def compute (state : ConnectionState) :
    Registration → Except TokenError Bytes
  | .ordinary transcript => Auth.compute hmac secret transcript state
  | .mesh transcript => computeMesh hmac secret transcript state

/-- `Verify` or `VerifyMesh`, by kind. -/
def verify (proof : Bytes) (state : ConnectionState) :
    Registration → Except TokenError Unit
  | .ordinary transcript => Auth.verify hmac secret transcript proof state
  | .mesh transcript => verifyMesh hmac secret transcript proof state

end Proofs

variable {left right registration : Registration} {hmac : Bytes → Bytes → Bytes}
  {secret proof : Bytes} {state : ConnectionState}

theorem marshal_injective {output : Bytes}
    (leftSuccess : left.marshal = .ok output)
    (rightSuccess : right.marshal = .ok output) : left = right := by
  cases left with
  | ordinary left =>
    cases right with
    | ordinary right =>
      rw [marshalTranscript_injective leftSuccess rightSuccess]
    | mesh right =>
      exact absurd rightSuccess (marshalTranscript_ne_mesh leftSuccess)
  | mesh left =>
    cases right with
    | ordinary right =>
      exact absurd leftSuccess (marshalTranscript_ne_mesh rightSuccess)
    | mesh right =>
      rw [marshalMeshTranscript_injective leftSuccess rightSuccess]

/-- A fixed-width trailer does not blur the end of an encoding. -/
theorem marshal_append_injective
    {leftOutput rightOutput leftEkm rightEkm : Bytes}
    (leftSuccess : left.marshal = .ok leftOutput)
    (rightSuccess : right.marshal = .ok rightOutput)
    (leftLength : leftEkm.length = exporterLength)
    (rightLength : rightEkm.length = exporterLength)
    (same : leftOutput ++ leftEkm = rightOutput ++ rightEkm) :
    left = right ∧ leftEkm = rightEkm := by
  obtain ⟨outputs, ekms⟩ :=
    List.append_inj' same (leftLength.trans rightLength.symm)
  subst outputs
  exact ⟨marshal_injective leftSuccess rightSuccess, ekms⟩

theorem computeWithExporter_ok {canonical label : Bytes}
    (success : computeWithExporter hmac secret canonical label state =
      .ok proof) :
    ∃ ekm, state.exportKeyingMaterial label exporterLength = some ekm ∧
      proof = hmac secret (canonical ++ ekm) := by
  unfold computeWithExporter at success
  split at success
  · simp at success
  split at success
  · simp at success
  split at success
  · simp at success
  cases exported : state.exportKeyingMaterial label exporterLength with
  | none => simp [exported] at success
  | some ekm =>
    simp only [exported, Except.ok.injEq, computeProof] at success
    exact ⟨ekm, rfl, success.symm⟩

/-- A produced proof is the keyed hash of an accepted encoding followed by
the exporter value of its own kind. -/
theorem compute_ok
    (success : registration.compute hmac secret state = .ok proof) :
    ∃ canonical ekm, registration.marshal = .ok canonical ∧
      state.exportKeyingMaterial registration.label exporterLength = some ekm ∧
      proof = hmac secret (canonical ++ ekm) := by
  cases registration with
  | ordinary transcript =>
    simp only [compute, Auth.compute] at success
    cases encoded : marshalTranscript transcript with
    | error failure =>
      simp only [encoded] at success
      split at success
      · simp at success
      split at success
      · simp at success
      split at success <;> simp at success
    | ok canonical =>
      -- Once encoded, both kinds run the same checks in the same order.
      simp only [encoded] at success
      obtain ⟨ekm, exported, proofEq⟩ := computeWithExporter_ok success
      exact ⟨canonical, ekm, encoded, exported, proofEq⟩
  | mesh transcript =>
    simp only [compute, computeMesh] at success
    cases encoded : marshalMeshTranscript transcript with
    | error failure => simp [encoded] at success
    | ok canonical =>
      simp only [encoded] at success
      obtain ⟨ekm, exported, proofEq⟩ := computeWithExporter_ok success
      exact ⟨canonical, ekm, encoded, exported, proofEq⟩

theorem verifyAgainst_ok {expected : Except TokenError Bytes}
    (accepted : verifyAgainst proof expected = .ok ()) :
    expected = .ok proof := by
  unfold verifyAgainst at accepted
  split at accepted
  · simp at accepted
  cases expected with
  | error failure => simp at accepted
  | ok value =>
    simp only at accepted
    split at accepted
    · rename_i same
      rw [same]
    · simp at accepted

theorem verify_ok
    (accepted : registration.verify hmac secret proof state = .ok ()) :
    registration.compute hmac secret state = .ok proof := by
  cases registration with
  | ordinary | mesh => exact verifyAgainst_ok accepted

end Registration

/-- The exporter of a family of connections returns 32 bytes and never
repeats a value across connections or across the two labels. -/
structure ExporterSeparates {Conn : Type} (state : Conn → ConnectionState) :
    Prop where
  length : ∀ connection registration ekm,
    (state connection).exportKeyingMaterial
      (Registration.label registration) exporterLength = some ekm →
    ekm.length = exporterLength
  distinct : ∀ left right leftRegistration rightRegistration ekm,
    (state left).exportKeyingMaterial
      (Registration.label leftRegistration) exporterLength = some ekm →
    (state right).exportKeyingMaterial
      (Registration.label rightRegistration) exporterLength = some ekm →
    left = right ∧
      Registration.label leftRegistration = Registration.label rightRegistration

/-- Encodings of the two registration kinds are injective, disjoint, as long
as their precomputed total, and separable from a following exporter value; a
proof verifies only for the registration and the connection it was computed
for. -/
theorem token_proof_binding :
    (∀ left right output, marshalTranscript left = .ok output →
      marshalTranscript right = .ok output → left = right) ∧
    (∀ left right output, marshalMeshTranscript left = .ok output →
      marshalMeshTranscript right = .ok output → left = right) ∧
    (∀ ordinary mesh output, marshalTranscript ordinary = .ok output →
      marshalMeshTranscript mesh ≠ .ok output) ∧
    (∀ (left right : Registration) leftOutput rightOutput leftEkm rightEkm,
      left.marshal = .ok leftOutput → right.marshal = .ok rightOutput →
      leftEkm.length = exporterLength → rightEkm.length = exporterLength →
      leftOutput ++ leftEkm = rightOutput ++ rightEkm →
      left = right ∧ leftOutput = rightOutput ∧ leftEkm = rightEkm) ∧
    (∀ prefixFields capabilities suffixFields output,
      marshalTokenTranscript prefixFields capabilities suffixFields =
        .ok output →
      precomputedTotal prefixFields capabilities suffixFields =
        .ok output.length ∧ output.length ≤ maxInt) ∧
    (∀ (Conn : Type) (state : Conn → ConnectionState)
      (hmac : Bytes → Bytes → Bytes) (secret : Bytes),
      Function.Injective (hmac secret) → ExporterSeparates state →
      ∀ (verified computed : Registration) (receiver sender : Conn) proof,
        computed.compute hmac secret (state sender) = .ok proof →
        verified.verify hmac secret proof (state receiver) = .ok () →
        verified = computed ∧ receiver = sender) := by
  refine ⟨fun _ _ _ => marshalTranscript_injective,
    fun _ _ _ => marshalMeshTranscript_injective,
    fun _ _ _ => marshalTranscript_ne_mesh, ?_, ?_, ?_⟩
  · intro left right leftOutput rightOutput leftEkm rightEkm leftSuccess
      rightSuccess leftLength rightLength same
    obtain ⟨outputs, ekms⟩ :=
      List.append_inj' same (leftLength.trans rightLength.symm)
    exact ⟨(Registration.marshal_append_injective leftSuccess rightSuccess
      leftLength rightLength same).1, outputs, ekms⟩
  · intro prefixFields capabilities suffixFields output success
    have encodes := marshalTokenTranscript_ok success
    exact ⟨encodes.total, encodes.bounded⟩
  · intro Conn state hmac secret injective separates verified computed receiver
      sender proof produced accepted
    obtain ⟨sent, sentEkm, sentMarshal, sentExport, sentProof⟩ :=
      Registration.compute_ok produced
    obtain ⟨expected, ekm, marshalled, exported, expectedProof⟩ :=
      Registration.compute_ok (Registration.verify_ok accepted)
    have messages : expected ++ ekm = sent ++ sentEkm :=
      injective (expectedProof.symm.trans sentProof)
    obtain ⟨registrations, ekms⟩ :=
      Registration.marshal_append_injective marshalled sentMarshal
        (separates.length receiver verified ekm exported)
        (separates.length sender computed sentEkm sentExport) messages
    subst ekms
    exact ⟨registrations,
      (separates.distinct receiver sender verified computed ekm exported
        sentExport).1⟩

/-! ### One accepted proof

The hash below agrees with HMAC-SHA512 on the one message that is hashed, and
is injective everywhere else. -/

def sampleSecret : Bytes := ascii "0123456789abcdef"

def sampleTranscript : Transcript :=
  { clientID := ascii "a", version := ascii "2.0",
    capabilities := [ascii "tcp"] }

/-- `HMAC-SHA512` of the sample transcript and thirty-two one bytes. -/
def sampleProof : Bytes :=
  [52, 231, 163, 216, 58, 209, 122, 218, 114, 226, 200, 183, 156, 177, 95,
    198, 119, 154, 189, 240, 36, 247, 172, 213, 210, 183, 44, 13, 243, 104,
    128, 128, 225, 193, 100, 45, 245, 129, 199, 126, 14, 3, 29, 186, 90, 206,
    127, 169, 75, 200, 181, 210, 48, 39, 1, 114, 135, 39, 254, 185, 109, 180,
    132, 250]

def sampleMessage : Bytes :=
  encodeFields [proofDomain, scheme, ascii "a", ascii "2.0"] [ascii "tcp"] [] ++
    List.replicate 32 1

def sampleHmac (_secret message : Bytes) : Bytes :=
  if message = sampleMessage then sampleProof
  else List.replicate 65 0 ++ message

/-- Two connections, each with its own exporter value for each label. -/
def sampleState (first : Bool) : ConnectionState :=
  { handshakeComplete := true
    version := versionTLS13
    exportKeyingMaterial := fun label length =>
      if label = exporterLabel then
        some (List.replicate length (if first then 1 else 2))
      else if label = meshExporterLabel then
        some (List.replicate length (if first then 3 else 4))
      else none }

theorem sampleHmac_injective :
    Function.Injective (sampleHmac sampleSecret) := by
  intro left right same
  have lengths := congrArg List.length same
  have proofLength : sampleProof.length = 64 := rfl
  unfold sampleHmac at same lengths
  split at same <;> split at same
  · simp_all
  · simp_all
  · simp_all
  · exact List.append_cancel_left same

theorem sampleState_separates : ExporterSeparates sampleState := by
  have labels : meshExporterLabel ≠ exporterLabel := by decide
  constructor
  · intro connection registration ekm exported
    cases registration <;>
      simp [sampleState, Registration.label, labels] at exported <;>
      simp [← exported]
  · intro left right leftRegistration rightRegistration ekm leftExport
      rightExport
    have values := leftExport.trans rightExport.symm
    cases left <;> cases right <;> cases leftRegistration <;>
      cases rightRegistration <;>
      simp [sampleState, Registration.label, labels, exporterLength] at values ⊢

theorem token_proof_binding_sample :
    marshalTranscript sampleTranscript =
        .ok (encodeFields [proofDomain, scheme, ascii "a", ascii "2.0"]
          [ascii "tcp"] []) ∧
      (Registration.ordinary sampleTranscript).compute sampleHmac sampleSecret
        (sampleState true) = .ok sampleProof ∧
      (Registration.ordinary sampleTranscript).verify sampleHmac sampleSecret
        sampleProof (sampleState true) = .ok () ∧
      (Registration.ordinary sampleTranscript).verify sampleHmac sampleSecret
        sampleProof (sampleState false) ≠ .ok () := by
  have produced : (Registration.ordinary sampleTranscript).compute sampleHmac
      sampleSecret (sampleState true) = .ok sampleProof := by decide +kernel
  refine ⟨by decide +kernel, produced, by decide +kernel, ?_⟩
  intro accepted
  have bound := token_proof_binding.2.2.2.2.2 Bool sampleState sampleHmac
    sampleSecret sampleHmac_injective sampleState_separates
    (.ordinary sampleTranscript) (.ordinary sampleTranscript) false true
    sampleProof produced accepted
  exact absurd bound.2 (by decide)

end QMux.Auth
