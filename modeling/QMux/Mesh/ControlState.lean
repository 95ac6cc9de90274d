import Mathlib.Data.String.Basic
import QMux.Mesh.Declaration
import QMux.Protocol.MeshControl

/-!
# The published control state

Embedding of `mesh/control_state.go`: the groups and paths a server publishes,
the queues of the peers that follow them, and the snapshots these peers start
from.  Each function is one critical section of the state's mutex.  Pushing
into a link's queue and reading a record's immutable fields happen inside it;
references to declarations that a function gives up are part of its result and
are released afterwards, as in the source.

A published path and a link are shared by reference: a position in the list of
all paths and links ever made.  Frames are exact slices, so `cap(frame)` is
the length of the list.
-/

namespace QMux.Mesh

open Support Protocol

/-- The parts of `config.MeshServerLimits` that the control state reads. -/
structure MeshLimits where
  maxGroups : Nat
  maxGroupDeclarationBytes : Nat
  maxTotalGroupDeclarationBytes : Nat
  maxPathsPerGroup : Nat
  maxTotalPaths : Nat
  maxPathHops : Nat
  maxControlQueueMessages : Nat
  maxControlQueueBytes : Nat
deriving DecidableEq

def MeshLimits.ledger (limits : MeshLimits) : LedgerLimits :=
  ⟨limits.maxGroups, limits.maxTotalGroupDeclarationBytes,
    limits.maxGroupDeclarationBytes⟩

/-! ## Queues -/

structure QueuedControlFrame where
  sequence : Nat
  last : Bool
  data : Bytes
deriving DecidableEq

/-- The size of the frame's data, an exact slice. -/
def QueuedControlFrame.size (frame : QueuedControlFrame) : Nat :=
  frame.data.length

/-- `controlQueue`, over the frames as its users know them. -/
structure ControlQueue (Frame : Type) where
  frames : List Frame
  bytes : Int
  maxMessages : Nat
  maxBytes : Nat
  failed : Bool
deriving DecidableEq

namespace ControlQueue

variable {Frame : Type}

def new (limits : MeshLimits) : ControlQueue Frame :=
  ⟨[], 0, limits.maxControlQueueMessages, limits.maxControlQueueBytes, false⟩

/-- Whether the frames were queued, and the queue; the limits count the
capacity of the frames' data. -/
def push (q : ControlQueue Frame) (capacity : Frame → Nat)
    (frames : List Frame) : Bool × ControlQueue Frame :=
  if q.failed then (false, q)
  else if (q.maxMessages : Int) - q.frames.length < frames.length ∨
      q.maxBytes - q.bytes < (frames.map capacity).sum then
    (false, { q with failed := true })
  else
    (true, { q with
      frames := q.frames ++ frames
      bytes := q.bytes + (frames.map capacity).sum })

end ControlQueue

/-! ## State -/

structure PublishedPath where
  id : String
  groupID : String
  version : Nat
  frame : Bytes
  backing : Int
  refs : Int
deriving DecidableEq

abbrev PathRef := Nat
abbrev LinkRef := Nat

structure PeerSnapshot where
  revision : Nat
  groups : List RecordRef
  paths : List PathRef
  link : LinkRef
deriving DecidableEq

structure ControlState where
  limits : MeshLimits
  closed : Bool
  revision : Nat
  groups : FiniteMap String RecordRef
  paths : FiniteMap String PathRef
  pathCells : List PublishedPath
  links : List LinkRef
  linkCells : List (ControlQueue QueuedControlFrame)
  pathRecords : Int
  pathBytes : Int

inductive ControlError where
  /-- `ErrMeshServerStopped` -/
  | stopped
  /-- "mesh group rule version conflicts with retained declaration" -/
  | conflict
  /-- "empty mesh declaration" -/
  | emptyDeclaration
  /-- The error of `MarshalMeshControlFrame`. -/
  | frame (failure : MeshControlError)
  /-- "mesh path requires a published matching declaration" -/
  | noDeclaration
  /-- "mesh published path limit reached" -/
  | pathHops
  /-- "mesh published paths per group reached" -/
  | pathsPerGroup
  /-- "mesh published path transition capacity reached" -/
  | pathCapacity
  /-- "unknown mesh path %q" -/
  | unknownPath (id : String)
deriving DecidableEq

def newControlState (limits : MeshLimits) : ControlState where
  limits := limits
  closed := false
  revision := 0
  groups := ∅
  paths := ∅
  pathCells := []
  links := []
  linkCells := []
  pathRecords := 0
  pathBytes := 0

/-- What a reference to a declaration points to. -/
def DeclarationLedger.record (l : DeclarationLedger) (ref : RecordRef) :
    GroupRecord :=
  (l.recordCells[ref]?).getD ⟨⟨"", 0⟩, "", [], [], 0⟩

/-- The chunks of a declaration. -/
def declarationChunks (hash : Bytes → Bytes) (sequence record : Nat)
    (data : Bytes) : List MeshChunk :=
  (List.range (chunkCount maxMeshChunkDataSize data.length)).map fun index =>
    { sequence := sequence
      record := record
      total := data.length
      offset := index * maxMeshChunkDataSize
      digest := if index = 0 then hash data else []
      data := chunk maxMeshChunkDataSize data index }

/-- Encode messages of one sequence number; the last frame completes it. -/
def encodeFrames (json : MeshJSON) (sequence : Nat) :
    List MeshControl → Except MeshControlError (List QueuedControlFrame)
  | [] => .ok []
  | message :: rest =>
    match marshalMeshControlFrame json message with
    | .error failure => .error failure
    | .ok data =>
      match encodeFrames json sequence rest with
      | .error failure => .error failure
      | .ok frames => .ok (⟨sequence, rest.isEmpty, data⟩ :: frames)

def declarationFrames (json : MeshJSON) (hash : Bytes → Bytes)
    (sequence : Nat) (data : Bytes) :
    Except ControlError (List QueuedControlFrame) :=
  if data.length = 0 then .error .emptyDeclaration
  else
    match encodeFrames json sequence
        ((declarationChunks hash sequence 0 data).map .chunk) with
    | .error failure => .error (.frame failure)
    | .ok frames => .ok frames

namespace ControlState

def path (s : ControlState) (ref : PathRef) : PublishedPath :=
  (s.pathCells[ref]?).getD ⟨"", "", 0, [], 0, 0⟩

/-- Push into the queue of every link. -/
def broadcastLocked (s : ControlState) (frames : List QueuedControlFrame) :
    ControlState :=
  { s with
    linkCells := s.linkCells.mapIdx fun link queue =>
      if link ∈ s.links then
        (queue.push QueuedControlFrame.size frames).2
      else queue }

def releasePathLocked (s : ControlState) (ref : PathRef) : ControlState :=
  let path := s.path ref
  let released := { path with refs := path.refs - 1 }
  if released.refs = 0 then
    { s with
      pathCells := s.pathCells.set ref { released with frame := [] }
      pathRecords := s.pathRecords - 1
      pathBytes := s.pathBytes - path.backing }
  else { s with pathCells := s.pathCells.set ref released }

/-- Count a snapshot among the owners of its paths. -/
def retainPaths (s : ControlState) (refs : List PathRef) : ControlState :=
  { s with
    pathCells := s.pathCells.mapIdx fun ref path =>
      if ref ∈ refs then { path with refs := path.refs + 1 } else path }

/-- The groups in the order of their keys and the paths in the order of their
ids; the maps are keyed by both. -/
def subscribe (s : ControlState) : PeerSnapshot × ControlState :=
  let snapshot : PeerSnapshot :=
    { revision := s.revision
      groups := s.groups.sortedKeys.filterMap s.groups.get
      paths := s.paths.sortedKeys.filterMap s.paths.get
      link := s.linkCells.length }
  (snapshot, { s.retainPaths snapshot.paths with
    links := s.links ++ [s.linkCells.length]
    linkCells := s.linkCells ++ [.new s.limits] })

/-- The path part of `peerSnapshot.release`. -/
def releaseSnapshot (s : ControlState) (snapshot : PeerSnapshot) :
    ControlState :=
  snapshot.paths.foldl releasePathLocked s

def unsubscribe (s : ControlState) (link : LinkRef) : ControlState :=
  { s with links := s.links.filter fun other => other ≠ link }

/-- Make a record the published one of its group. -/
def installGroup (s : ControlState) (id : String) (ref : RecordRef) :
    ControlState :=
  { s with groups := s.groups.put id ref, revision := s.revision + 1 }

end ControlState

end QMux.Mesh
