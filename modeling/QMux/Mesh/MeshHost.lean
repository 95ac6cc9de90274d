import QMux.Mesh.DeclarationContents
import QMux.Mesh.MeshServer

/-!
# Holders of declarations on one server

The ledger, the registry and the control state of one server with everything
that holds declarations: the states staged by registrations and kept by
sessions, the published groups, and the snapshots of peers.  References in the
hands of a goroutine are those the ledger has handed out and none of these
holds.  Client registrations, peer sessions, retirements and releases move
references between them, in any interleaving.
-/

namespace QMux.Mesh

open Support Protocol

namespace DeclarationRun

/-- A holder takes one more reference. -/
def retainRef (run : DeclarationRun) (ref : RecordRef) : DeclarationRun :=
  { run with
    ledger := run.ledger.retain ref
    held := fun other => run.held other + one (some ref) other }

end DeclarationRun

/-- The state of a registration or session; `groupID` is the group a client
registered for, and empty for a peer. -/
structure Stage where
  groupID : String
  records : List RecordRef
deriving DecidableEq

/-- A client generation was committed with a declaration of this version. -/
structure ClientCommit where
  generation : GenRef
  groupID : String
  version : Nat
deriving DecidableEq

structure MeshHost where
  run : DeclarationRun
  server : MeshServer
  stages : List Stage
  snapshots : List PeerSnapshot
  commits : List ClientCommit

namespace MeshHost

def record (s : MeshHost) (ref : RecordRef) : GroupRecord :=
  s.run.ledger.record ref

/-- The published record of a group. -/
def published (s : MeshHost) (groupID : String) : Option RecordRef :=
  s.server.control.groups.get groupID

/-- The references of stages, published groups and snapshots. -/
def tied (s : MeshHost) (ref : RecordRef) : Int :=
  (s.stages.map fun stage => (stage.records.count ref : Int)).sum +
    (s.server.control.groups.values.count ref : Nat) +
    (s.snapshots.map fun snapshot => (snapshot.groups.count ref : Int)).sum

def writeStage (s : MeshHost) (index : Nat) (stage : Stage) : MeshHost :=
  { s with stages := s.stages.set index stage }

/-- The ledger's part of a commit. -/
def retainPublished (run : DeclarationRun) :
    Option RecordRef → DeclarationRun
  | none => run
  | some ref => run.retainRef ref

/-- `commitClientGroup` for the declaration a client has staged. -/
def commitClient (json : MeshJSON) (hash : Bytes → Bytes) (s : MeshHost)
    (g : GenRef) (groupID : String) (ref : RecordRef) : MeshHost :=
  let outcome := s.server.commitClientGroup json hash s.run.ledger g ref
  { s with
    run := retainPublished s.run outcome.retained
    server := outcome.server
    commits :=
      if outcome.committed then
        s.commits ++ [⟨g, groupID, (s.record ref).key.version⟩]
      else s.commits }

def subscribePeer (s : MeshHost) : MeshHost :=
  let (snapshot, control) := s.server.control.subscribe
  { s with
    run := snapshot.groups.foldl DeclarationRun.retainRef s.run
    server := { s.server with control := control }
    snapshots := s.snapshots ++ [snapshot] }

def releasePeerSnapshot (s : MeshHost) (index : Nat)
    (snapshot : PeerSnapshot) : MeshHost :=
  { s with
    server :=
      { s.server with control := s.server.control.releaseSnapshot snapshot }
    snapshots := s.snapshots.set index
      { snapshot with groups := [], paths := [] } }

inductive Step (json : MeshJSON) (hash : Bytes → Bytes)
    (validates : Bytes → Except String Declared → Prop) (s : MeshHost) :
    MeshHost → Prop where
  /-- A claim moves, or a goroutine shares or releases a reference of its
  own. -/
  | ledger {run : DeclarationRun}
      (step : DeclarationRun.Step hash validates s.run run)
      (spared : ∀ ref, s.tied ref ≤ run.held ref) :
      Step json hash validates s { s with run := run }
  | openStage (groupID : String) :
      Step json hash validates s
        { s with stages := s.stages ++ [⟨groupID, []⟩] }
  /-- A stage keeps the record `finish` returned; for a client `finish` has
  checked the group. -/
  | adopt (index : Nat) (ref : RecordRef) {stage : Stage}
      (found : s.stages[index]? = some stage)
      (spare : s.tied ref < s.run.held ref)
      (expected : stage.groupID = "" ∨ (s.record ref).key.id = stage.groupID) :
      Step json hash validates s
        (s.writeStage index { stage with records := stage.records ++ [ref] })
  | drop (index : Nat) (ref : RecordRef) {stage : Stage}
      (found : s.stages[index]? = some stage) (member : ref ∈ stage.records) :
      Step json hash validates s
        (s.writeStage index { stage with records := stage.records.erase ref })
  | registry (op : RegistryOp) :
      Step json hash validates s
        { s with
          server := { s.server with registry := s.server.registry.run op } }
  | commitClient (g : GenRef) (index : Nat) {stage : Stage}
      {ref : RecordRef} {rest : List RecordRef}
      (found : s.stages[index]? = some stage)
      (first : stage.records = ref :: rest) (client : stage.groupID ≠ "")
      (group : (s.server.registry.gens g).groupID = stage.groupID) :
      Step json hash validates s (s.commitClient json hash g stage.groupID ref)
  | publishForwarding (g : GenRef) (eligibility : ForwardingEligibility) :
      Step json hash validates s
        { s with server := s.server.publishForwarding g eligibility }
  | publishL4Healthy (g : GenRef) :
      Step json hash validates s
        { s with server := s.server.publishL4Healthy g }
  | subscribe : Step json hash validates s s.subscribePeer
  | releaseSnapshot (index : Nat) {snapshot : PeerSnapshot}
      (found : s.snapshots[index]? = some snapshot) :
      Step json hash validates s (s.releasePeerSnapshot index snapshot)
  | unsubscribe (link : LinkRef) :
      Step json hash validates s
        { s with
          server :=
            { s.server with control := s.server.control.unsubscribe link } }

def start (registry : Registry) (limits : MeshLimits) : MeshHost where
  run := DeclarationRun.start limits.ledger
  server := .new registry limits
  stages := []
  snapshots := []
  commits := []

/-- The runs of one server whose declarations are validated by `parse`. -/
def runs (json : MeshJSON) (hash : Bytes → Bytes)
    (parse : Bytes → Except String Declared) :
    TransitionSystem MeshHost where
  initial s := ∃ maxPending maxClients maxPeers limits,
    s = start (Registry.newRegistry maxPending maxClients maxPeers) limits
  step := Step json hash fun input outcome => parse input = outcome

end MeshHost

end QMux.Mesh
