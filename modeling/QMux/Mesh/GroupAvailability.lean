import QMux.Mesh.Admission
import QMux.Mesh.MeshServer
import Mathlib.Data.Multiset.Sort

/-!
# Group availability of the registry

The registry with what it publishes about groups: which of them have an
instance that can take traffic, the channel whose closing announces a change
of that, and the positions of the round robin.  `refreshGroupLocked` computes
one group anew from the client entries; the operations that may change a
group call it for that group.

A channel is a number, and `closedChannels` lists every `close` in order; a
channel closed twice would be there twice.  Owners and the notification of
registry changes are left out, as in the registry itself.
-/

namespace QMux.Mesh

open Support Protocol

structure GroupRegistry where
  server : MeshServer
  /-- The snapshot of a `Stop` between its two sections. -/
  stopping : Option (List GenRef)
  groupAvailable : Finset String
  groupChanged : Nat
  closedChannels : List Nat
  roundRobin : FiniteMap String Nat
  l7Health : GenRef → InstanceL7Health

namespace GroupRegistry

def new (maxPending maxClients maxPeers : Nat) (limits : MeshLimits) :
    GroupRegistry where
  server := .new (.newRegistry maxPending maxClients maxPeers) limits
  stopping := none
  groupAvailable := ∅
  groupChanged := 0
  closedChannels := []
  roundRobin := ∅
  l7Health := fun _ => .unknown

/-- The entries of `clients` bound to a group. -/
def groupEntries (r : Registry) (groupID : String) :
    Multiset (String × Entry) :=
  r.entries.entries.filterMap fun item =>
    match item.1 with
    | .client instanceID =>
      if item.2.groupID = groupID then some (instanceID, item.2) else none
    | .peer _ => none

variable (s : GroupRegistry)

/-- The current generation of the entry is ready for forwarding. -/
def entryReady (entry : Entry) : Bool :=
  match entry.current with
  | none => false
  | some g => s.server.isForwardingReadyLocked g

/-- The channel is closed and another one takes its place. -/
def replaceChannel : GroupRegistry :=
  { s with
    groupChanged := s.groupChanged + 1
    closedChannels := s.closedChannels ++ [s.groupChanged] }

/-- The availability of a group as it was computed. -/
def setAvailable (groupID : String) (available : Bool) : GroupRegistry :=
  if decide (groupID ∈ s.groupAvailable) ≠ available then
    { s.replaceChannel with
      groupAvailable :=
        if available then insert groupID s.groupAvailable
        else s.groupAvailable.erase groupID }
  else s

def refreshGroupLocked (groupID : String) : GroupRegistry :=
  let entries := groupEntries s.server.registry groupID
  let available := decide (true ∈ entries.map fun item => s.entryReady item.2)
  let retained := decide (entries ≠ 0)
  let updated := s.setAvailable groupID available
  if retained then updated
  else { updated with roundRobin := updated.roundRobin.delete groupID }

def withRegistry (registry : Registry) : GroupRegistry :=
  { s with server := { s.server with registry := registry } }

/-- `BeginRetire` -/
def beginRetire (g : GenRef) : GroupRegistry :=
  let r := s.server.registry
  let retired := s.withRegistry (r.beginRetire g).2
  if g ∈ r.all ∧ (r.gens g).phase ∈ [Phase.prepared, .current] ∧
      (r.gens g).role = .client then
    retired.refreshGroupLocked (r.gens g).groupID
  else retired

/-- The generation is the loser of an arbitration of its peer. -/
def lost (r : Registry) (g : GenRef) : Bool :=
  match r.arbitrations.get (r.gens g).peerID with
  | none => false
  | some arb => decide ((r.arbs arb).loser = g)

/-- The group of a client, and none of another generation. -/
def clientGroup (r : Registry) (g : GenRef) : String :=
  if (r.gens g).role = .client then (r.gens g).groupID else ""

/-- `Release` -/
def release (g : GenRef) : GroupRegistry :=
  let r := s.server.registry
  let released := s.withRegistry (r.release g).2
  if g ∈ r.all ∧ lost r g = false ∧ clientGroup r g ≠ "" then
    released.refreshGroupLocked (clientGroup r g)
  else released

/-- The first section of `Stop`. -/
def stopBegin (generations : List GenRef) : GroupRegistry :=
  { s.withRegistry s.server.registry.stopBegin with
    stopping := some generations
    groupAvailable := ∅
    closedChannels := s.closedChannels ++ [s.groupChanged] }

/-- The last section of `Stop`. -/
def stopFinish (generations : List GenRef) : GroupRegistry :=
  { s.withRegistry (s.server.registry.stopFinish generations) with
    stopping := none }

/-- `commitClientGroup`; the group it refreshes is that of the record. -/
def commitClientGroup (json : MeshJSON) (hash : Bytes → Bytes)
    (l : DeclarationLedger) (g : GenRef) (ref : RecordRef) : GroupRegistry :=
  let outcome := s.server.commitClientGroup json hash l g ref
  let committed := { s with server := outcome.server }
  if outcome.committed then
    committed.refreshGroupLocked (l.record ref).key.id
  else committed

def publishForwarding (g : GenRef) (eligibility : ForwardingEligibility) :
    GroupRegistry :=
  let r := s.server.registry
  if r.isCurrentLocked g = false then s
  else if s.server.forwarding g = eligibility then s
  else
    let published :=
      { s with server := s.server.publishForwarding g eligibility }
    if (r.gens g).role = .client then
      published.refreshGroupLocked (r.gens g).groupID
    else published

def publishL4Healthy (g : GenRef) : GroupRegistry :=
  let r := s.server.registry
  if r.isCurrentLocked g = false ∨ (r.gens g).role ≠ .client then s
  else if (s.server.forwarding g).l4Healthy then s
  else
    { s with server := s.server.publishL4Healthy g }.refreshGroupLocked
      (r.gens g).groupID

def publishInstanceL7Health (g : GenRef) (health : InstanceL7Health) :
    GroupRegistry :=
  let r := s.server.registry
  if r.isCurrentLocked g = false ∨ (r.gens g).role ≠ .client then s
  else { s with l7Health := Function.update s.l7Health g health }

/-- The current generations of a group in the order of their instances. -/
def candidates (groupID : String) : List GenRef :=
  let r := s.server.registry
  let instances := (groupEntries r groupID).map Prod.fst
  (instances.sort (· ≤ ·)).filterMap fun instanceID =>
    (r.entries.get (.client instanceID)).bind Entry.current

/-- The positions of the candidates that pass a test. -/
def positions (candidates : List GenRef) (test : GenRef → Bool) : List Nat :=
  (List.range candidates.length).filter fun i =>
    (candidates[i]?).any test

/-- The positions among which the round robin turns. -/
def selectable (candidates : List GenRef) : List Nat :=
  let healthy := positions candidates fun g =>
    s.server.isForwardingReadyLocked g && decide (s.l7Health g ≠ .failed)
  if healthy = [] then
    positions candidates s.server.isForwardingReadyLocked
  else healthy

/-- `beginClientSelection` with a setup: the selection it returns, and the
registry with the round robin moved on. -/
def beginClientSelection (groupID : String) (setup : Nat)
    (roundRobin : Bool) : ClientSelection × GroupRegistry :=
  let candidates := s.candidates groupID
  let selectable := s.selectable candidates
  let turn := (s.roundRobin.get groupID).getD 0
  if candidates ≠ [] ∧ roundRobin = true ∧ selectable ≠ [] then
    (⟨some setup, roundRobin, candidates, [],
      (selectable[turn % selectable.length]?).getD 0⟩,
      { s with
        roundRobin := s.roundRobin.put groupID ((turn + 1) % 2 ^ 64) })
  else (⟨some setup, roundRobin, candidates, [], 0⟩, s)

inductive Op where
  | registry (op : RegistryOp)
  | commitClientGroup (json : MeshJSON) (hash : Bytes → Bytes)
      (l : DeclarationLedger) (g : GenRef) (ref : RecordRef)
  | publishForwarding (g : GenRef) (eligibility : ForwardingEligibility)
  | publishL4Healthy (g : GenRef)
  | publishInstanceL7Health (g : GenRef) (health : InstanceL7Health)
  | beginClientSelection (groupID : String) (setup : Nat)
      (roundRobin : Bool)

def apply : Op → GroupRegistry
  | .registry (.beginRetire g) => s.beginRetire g
  | .registry (.release g) => s.release g
  | .registry (.stopBegin generations) => s.stopBegin generations
  | .registry (.stopFinish generations) => s.stopFinish generations
  | .registry op => s.withRegistry (s.server.registry.run op)
  | .commitClientGroup json hash l g ref =>
    s.commitClientGroup json hash l g ref
  | .publishForwarding g eligibility => s.publishForwarding g eligibility
  | .publishL4Healthy g => s.publishL4Healthy g
  | .publishInstanceL7Health g health => s.publishInstanceL7Health g health
  | .beginClientSelection groupID setup roundRobin =>
    (s.beginClientSelection groupID setup roundRobin).2

/-- The registry as a run of its own. -/
def registryRun : RegistryRun := ⟨s.server.registry, s.stopping, ∅, ∅, 0, 0, 0⟩

/-- A declaration is committed with a client of its own group; the calls on
the registry are those of `RegistryRun`. -/
def Calls : Op → Prop
  | .registry op => s.registryRun.Enabled op
  | .commitClientGroup _ _ l g ref =>
    (l.record ref).key.id = (s.server.registry.gens g).groupID
  | _ => True

/-- A client is prepared for a group with a name. -/
def Op.Named : Op → Prop
  | .registry (.prepareClient _ _ groupID) => groupID ≠ ""
  | _ => True

/-- The calls in which every client has a named group. -/
def Enabled (op : Op) : Prop := s.Calls op ∧ op.Named

instance (op : Op) : Decidable (s.Calls op) := by
  cases op <;> dsimp only [Calls] <;> infer_instance

instance (op : Op) : Decidable op.Named := by
  cases op with
  | registry op =>
    apply @RegistryOp.casesOn (fun op => Decidable (Op.registry op).Named)
      op <;> dsimp only [Op.Named] <;> infer_instance
  | _ => exact isTrue trivial

instance (op : Op) : Decidable (s.Enabled op) :=
  inferInstanceAs (Decidable (_ ∧ _))

/-- The registries that operations within `allowed` make of a new one. -/
def runs (allowed : GroupRegistry → Op → Prop) :
    TransitionSystem GroupRegistry where
  initial s := ∃ maxPending maxClients maxPeers limits,
    s = new maxPending maxClients maxPeers limits
  step s next := ∃ op, allowed s op ∧ next = s.apply op

end GroupRegistry

end QMux.Mesh
