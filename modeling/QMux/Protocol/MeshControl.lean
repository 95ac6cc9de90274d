import QMux.Protocol.UDPFragment
import QMux.Support.Bytes

/-!
# Mesh control messages

Embedding of `protocol/mesh_control.go`.  A frame is one type byte, a
big-endian length and a JSON payload of at most 4 KiB.  The JSON encoder and
decoder are a parameter; `Inverts` is what is assumed of them.  Counters are
natural numbers here and `uint32` or `uint64` in the source.
-/

namespace QMux.Protocol

open Support

def maxMeshChunkDataSize : Nat := 2 * 1024
def maxControlPayloadSize : Nat := 4 * 1024

structure MeshBegin where
  revision : Nat
  groups : Nat
  paths : Nat
  groupBytes : Nat
deriving DecidableEq

structure MeshChunk where
  sequence : Nat
  record : Nat
  total : Nat
  offset : Nat
  digest : Bytes
  data : Bytes
deriving DecidableEq

structure MeshPath where
  sequence : Nat
  pathID : String
  groupID : String
  ruleVersion : Nat
  terminalServerID : String
  servers : List String
  generation : Nat
deriving DecidableEq

structure MeshWithdraw where
  sequence : Nat
  pathID : String
deriving DecidableEq

structure MeshEnd where
  groups : Nat
  paths : Nat
  groupBytes : Nat
  finalSequence : Nat
deriving DecidableEq

structure MeshReady where
  state : String
deriving DecidableEq

inductive MeshControl where
  | begin (value : MeshBegin)
  | chunk (value : MeshChunk)
  | path (value : MeshPath)
  | withdraw (value : MeshWithdraw)
  | end (value : MeshEnd)
  | ready (value : MeshReady)
deriving DecidableEq

namespace MeshControl

/-- The message types `MsgTypeMeshBegin` to `MsgTypeMeshReady`. -/
def kind : MeshControl → UInt8
  | .begin _ => 0x0B
  | .chunk _ => 0x0C
  | .path _ => 0x0D
  | .withdraw _ => 0x0E
  | .end _ => 0x0F
  | .ready _ => 0x10

end MeshControl

def MeshChunk.wellFormed (value : MeshChunk) : Bool :=
  !(decide (value.data.length = 0) ||
    decide (maxMeshChunkDataSize < value.data.length) ||
    decide (value.total = 0) || decide (value.total ≤ value.offset) ||
    decide (value.total < value.offset + value.data.length) ||
    (decide (value.offset = 0) && decide (value.digest.length ≠ 32)) ||
    (decide (value.offset ≠ 0) && decide (value.digest.length ≠ 0)))

def MeshPath.wellFormed (value : MeshPath) : Bool :=
  !(decide (value.pathID = "") || decide (value.groupID = "") ||
    decide (value.ruleVersion = 0) || decide (value.terminalServerID = "") ||
    decide (value.servers.length = 0))

def MeshWithdraw.wellFormed (value : MeshWithdraw) : Bool :=
  !decide (value.pathID = "")

def MeshReady.wellFormed (value : MeshReady) : Bool :=
  !(decide (value.state ≠ "staged") && decide (value.state ≠ "accepted"))

inductive MeshControlError where
  /-- "invalid mesh declaration chunk" -/
  | invalidChunk
  /-- "invalid mesh path record" -/
  | invalidPath
  /-- "invalid mesh path withdrawal" -/
  | invalidWithdraw
  /-- "invalid mesh ready state %q" -/
  | invalidReady (state : String)
  /-- "marshal mesh control: %w" -/
  | marshal
  /-- "mesh control payload too large: %d bytes" -/
  | payloadTooLarge (size : Nat)
  /-- "unexpected mesh control message 0x%02x" -/
  | unexpectedKind (kind : UInt8)
  /-- "decode mesh control: %w" -/
  | unmarshal
deriving DecidableEq

/-- The shape rules of a message. -/
def MeshControl.check : MeshControl → Except MeshControlError Unit
  | .begin _ => .ok ()
  | .chunk value =>
    if value.wellFormed then .ok () else .error .invalidChunk
  | .path value => if value.wellFormed then .ok () else .error .invalidPath
  | .withdraw value =>
    if value.wellFormed then .ok () else .error .invalidWithdraw
  | .end _ => .ok ()
  | .ready value =>
    if value.wellFormed then .ok () else .error (.invalidReady value.state)

/-- `json.Marshal` and `json.Unmarshal` with unknown members rejected, for the
control types; the message type selects the type that is decoded into. -/
structure MeshJSON where
  marshal : MeshControl → Option Bytes
  unmarshal : UInt8 → Bytes → Option MeshControl

/-- Decoding inverts encoding. -/
def MeshJSON.Inverts (json : MeshJSON) : Prop :=
  ∀ message payload, json.marshal message = some payload →
    json.unmarshal message.kind payload = some message

def marshalMeshControlFrame (json : MeshJSON) (message : MeshControl) :
    Except MeshControlError Bytes :=
  match message.check with
  | .error failure => .error failure
  | .ok () =>
    match json.marshal message with
    | none => .error .marshal
    | some payload =>
      if maxControlPayloadSize < payload.length then
        .error (.payloadTooLarge payload.length)
      else .ok (message.kind :: putUint 4 payload.length ++ payload)

def decodeMeshControl (json : MeshJSON) (kind : UInt8) (payload : Bytes) :
    Except MeshControlError MeshControl :=
  if kind < 0x0B ∨ 0x10 < kind then .error (.unexpectedKind kind)
  else
    match json.unmarshal kind payload with
    | none => .error .unmarshal
    | some message =>
      match marshalMeshControlFrame json message with
      | .error failure => .error failure
      | .ok _ => .ok message

variable {json : MeshJSON} {message : MeshControl} {frame payload : Bytes}

/-- What a successful encoding has checked. -/
theorem marshalMeshControlFrame_ok
    (encoded : marshalMeshControlFrame json message = .ok frame) :
    ∃ payload, message.check = .ok () ∧ json.marshal message = some payload ∧
      payload.length ≤ maxControlPayloadSize ∧
      frame = message.kind :: putUint 4 payload.length ++ payload := by
  unfold marshalMeshControlFrame at encoded
  split at encoded
  · cases encoded
  rename_i checked
  split at encoded
  · cases encoded
  rename_i payload marshalled
  split at encoded
  · cases encoded
  · rename_i fits
    cases encoded
    exact ⟨payload, checked, marshalled, Nat.le_of_not_lt fits, rfl⟩

theorem decodeMeshControl_marshalled (inverts : json.Inverts)
    (encoded : marshalMeshControlFrame json message = .ok frame)
    (marshalled : json.marshal message = some payload) :
    decodeMeshControl json message.kind payload = .ok message := by
  have known : ¬ (message.kind < 0x0B ∨ 0x10 < message.kind) := by
    cases message <;> simp [MeshControl.kind]
  unfold decodeMeshControl
  rw [if_neg known, inverts message payload marshalled]
  simp only [encoded]

end QMux.Protocol
