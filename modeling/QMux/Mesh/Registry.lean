import QMux.Support.FiniteMap
import Mathlib.Data.Finset.Card
import Mathlib.Data.Finset.Filter

/-!
# The mesh registry

Embedding of `mesh/registry.go`.  Every function below runs under the
registry mutex in the source, except `Stop`, which holds it twice; its two
sections are separate functions.

A reference stands for a `*Generation` or an `*Arbitration`.  The registry
owns a generation while the reference is in `all`; any other reference is a
stale token, a token of another registry or a nil pointer.  The two maps
`clients` and `peers`, whose entries and code differ only in the group a
client entry is bound to, are one map keyed by role and identity.
Identifiers count up and never wrap.  Owners, change notifications, and the
rules and health of groups do not take part in the slots and are left out.
-/

namespace QMux.Mesh

open Support

abbrev GenRef := Nat
abbrev ArbRef := Nat

inductive Role where
  | unknown
  | client
  | peer
deriving DecidableEq

inductive Direction where
  | inbound
  | outbound
deriving DecidableEq

inductive Phase where
  | pending
  | prepared
  | current
  | retiring
  | done
deriving DecidableEq

structure Generation where
  role : Role
  direction : Direction
  phase : Phase
  instanceID : String
  groupID : String
  peerID : String
deriving DecidableEq

/-- The key of an entry of `clients` or of `peers`. -/
inductive EntryKey where
  | client (instanceID : String)
  | peer (peerID : String)
deriving DecidableEq

/-- The entry named by the role and identity of a generation. -/
def Generation.key (generation : Generation) : Option EntryKey :=
  match generation.role with
  | .unknown => none
  | .client => some (.client generation.instanceID)
  | .peer => some (.peer generation.peerID)

/-- `clientEntry` and `peerEntry`; a peer entry has no group. -/
structure Entry where
  groupID : String
  prepared : Option GenRef
  current : Option GenRef
  retiring : Finset GenRef
deriving DecidableEq

namespace Entry

def new (groupID : String) : Entry := ⟨groupID, none, none, ∅⟩

def isEmpty (entry : Entry) : Bool :=
  entry.prepared = none ∧ entry.current = none ∧ entry.retiring = ∅

/-- Take a generation out of the prepared and the current slot. -/
def unlink (entry : Entry) (ref : GenRef) : Entry :=
  { entry with
    prepared := if entry.prepared = some ref then none else entry.prepared
    current := if entry.current = some ref then none else entry.current }

def retire (entry : Entry) (ref : GenRef) : Entry :=
  { entry with retiring := insert ref entry.retiring }

def dropRetiring (entry : Entry) (ref : GenRef) : Entry :=
  { entry with retiring := entry.retiring.erase ref }

def prepare (entry : Entry) (ref : GenRef) : Entry :=
  { entry with prepared := some ref }

/-- Publish the prepared generation. -/
def publish (entry : Entry) (ref : GenRef) : Entry :=
  { entry with prepared := none, current := some ref }

end Entry

structure Arbitration where
  peerID : String
  inbound : GenRef
  loser : GenRef
  loserReleased : Bool
deriving DecidableEq

inductive RegistryError where
  | registryStopped
  | pendingCapacity
  | clientCapacity
  | peerCapacity
  | staleGeneration
  | clientGroupConflict
  | clientPrepared
  | clientCurrent
  | peerPrepared
  | peerCurrent
  | peerSuppressed
deriving DecidableEq

/-- The result of `PreparePeer`. -/
inductive Prepared where
  | generation (ref : GenRef)
  | arbitration (ref : ArbRef)
deriving DecidableEq

structure Registry where
  closed : Bool
  maxPending : Nat
  maxClients : Nat
  maxPeers : Nat
  pendingHigh : Nat
  clientHigh : Nat
  peerHigh : Nat
  gens : GenRef → Generation
  nextID : GenRef
  all : Finset GenRef
  entries : FiniteMap EntryKey Entry
  arbs : ArbRef → Arbitration
  nextArbID : ArbRef
  arbitrations : FiniteMap String ArbRef

namespace Registry

def newRegistry (maxPending maxClients maxPeers : Nat) : Registry :=
  { closed := false
    maxPending := maxPending
    maxClients := maxClients
    maxPeers := maxPeers
    pendingHigh := 0
    clientHigh := 0
    peerHigh := 0
    gens := fun _ => ⟨.unknown, .inbound, .done, "", "", ""⟩
    nextID := 0
    all := ∅
    entries := ∅
    arbs := fun _ => ⟨"", 0, 0, false⟩
    nextArbID := 0
    arbitrations := ∅ }

def countRoleLocked (r : Registry) (role : Role) : Nat :=
  (r.all.filter fun ref => (r.gens ref).role = role).card

def countPhaseLocked (r : Registry) (role : Role) (phase : Phase) : Nat :=
  (r.all.filter fun ref =>
    (r.gens ref).role = role ∧ (r.gens ref).phase = phase).card

def isExactLocked (r : Registry) (ref : GenRef) (role : Role)
    (phase : Phase) : Bool :=
  ref ∈ r.all ∧ (r.gens ref).role = role ∧ (r.gens ref).phase = phase

def isExactArbitrationLocked (r : Registry) (arb : ArbRef) : Bool :=
  r.arbitrations.get (r.arbs arb).peerID = some arb

/-- Write through a `*Generation`. -/
def writeGen (r : Registry) (ref : GenRef) (generation : Generation) :
    Registry :=
  { r with gens := Function.update r.gens ref generation }

/-- Change the entry at `key`, if there is one. -/
def editEntry (r : Registry) (key : Option EntryKey)
    (edit : Entry → Entry) : Registry :=
  match key with
  | none => r
  | some key =>
    match r.entries.get key with
    | none => r
    | some entry =>
      { r with entries := r.entries.put key (edit entry) }

/-- Remove the entry at `key` if it holds no generation. -/
def collectEntry (r : Registry) (key : Option EntryKey) : Registry :=
  match key with
  | none => r
  | some key =>
    match r.entries.get key with
    | none => r
    | some entry =>
      if entry.isEmpty then { r with entries := r.entries.delete key }
      else r

def updateRoleHighWaterLocked (r : Registry) : Role → Registry
  | .unknown => r
  | .client =>
    { r with clientHigh := max r.clientHigh (r.countRoleLocked .client) }
  | .peer => { r with peerHigh := max r.peerHigh (r.countRoleLocked .peer) }

/-! ## Slots -/

/-- `newGenerationLocked`, for a generation whose identity is known. -/
def newGenerationLocked (r : Registry) (generation : Generation) : Registry :=
  { r.writeGen r.nextID generation with
    nextID := r.nextID + 1
    all := insert r.nextID r.all }

def unlinkActiveLocked (r : Registry) (ref : GenRef) : Registry :=
  r.editEntry (r.gens ref).key fun entry => entry.unlink ref

def addRetiringLocked (r : Registry) (ref : GenRef) : Registry :=
  r.editEntry (r.gens ref).key fun entry => entry.retire ref

/-- Put a generation into the prepared slot of an entry, which is created if
it does not exist. -/
def prepareLocked (r : Registry) (ref : GenRef) (key : EntryKey)
    (groupID : String) (generation : Generation) : Registry :=
  let entry := (r.entries.get key).getD (.new groupID)
  { r.writeGen ref generation with
    entries := r.entries.put key (entry.prepare ref) }

def transferPendingToPeerLocked (r : Registry) (pending : GenRef)
    (peerID : String) : Registry :=
  (r.prepareLocked pending (.peer peerID) ""
    { r.gens pending with
      role := .peer, phase := .prepared, peerID := peerID }
    ).updateRoleHighWaterLocked .peer

/-- Take an active generation out of its slot and into the retiring set. -/
def retireLocked (r : Registry) (ref : GenRef) : Registry :=
  let unlinked := r.unlinkActiveLocked ref
  (unlinked.writeGen ref { r.gens ref with phase := .retiring }
    ).addRetiringLocked ref

/-- The part of `removeLocked` after the generation's arbitration is
finished. -/
def dropLocked (r : Registry) (ref : GenRef) : Registry :=
  let key := (r.gens ref).key
  let unlinked := r.unlinkActiveLocked ref
  let dropped := (unlinked.editEntry key fun entry =>
    entry.dropRetiring ref).collectEntry key
  { dropped.writeGen ref { r.gens ref with phase := .done } with
    all := r.all.erase ref }

/-- The arbitration whose inbound side is `ref`.  The source searches the
map in an arbitrary order; at most one arbitration matches. -/
def arbitrationForInboundLocked (r : Registry) (ref : GenRef) :
    Option ArbRef :=
  (List.range r.nextArbID).find? fun arb =>
    r.isExactArbitrationLocked arb ∧ (r.arbs arb).inbound = ref

/-- `finishArbitrationLocked`, given what removes a generation. -/
def finishArbitrationWith (remove : Registry → GenRef → Registry)
    (r : Registry) (arb : ArbRef) : Registry :=
  let finished := { r with
    arbitrations := r.arbitrations.delete (r.arbs arb).peerID }
  if (r.arbs arb).loserReleased then remove finished (r.arbs arb).loser
  else finished

/-- `removeLocked` with a bound on its recursion through
`finishArbitrationLocked`; each round has one arbitration less. -/
def removeWithin : Nat → Registry → GenRef → Registry
  | 0, r, _ => r
  | depth + 1, r, ref =>
    if ref ∉ r.all then r
    else
      let finished := match r.arbitrationForInboundLocked ref with
        | none => r
        | some arb => r.finishArbitrationWith (removeWithin depth) arb
      finished.dropLocked ref

def removeLocked (r : Registry) (ref : GenRef) : Registry :=
  removeWithin (r.arbitrations.size + 1) r ref

def finishArbitrationLocked (r : Registry) (arb : ArbRef) : Registry :=
  r.finishArbitrationWith removeLocked arb

/-! ## Operations -/

def beginInbound (r : Registry) : Except RegistryError GenRef × Registry :=
  if r.closed then (.error .registryStopped, r)
  else if r.countPhaseLocked .unknown .pending ≥ r.maxPending then
    (.error .pendingCapacity, r)
  else
    let begun := r.newGenerationLocked
      ⟨.unknown, .inbound, .pending, "", "", ""⟩
    (.ok r.nextID, { begun with
      pendingHigh := max r.pendingHigh
        (begun.countPhaseLocked .unknown .pending) })

/-- The refusal of a peer entry that is taken. -/
def peerTaken (r : Registry) (peerID : String) : Option RegistryError :=
  match r.entries.get (.peer peerID) with
  | none => none
  | some entry =>
    if entry.current ≠ none then some .peerCurrent
    else if entry.prepared ≠ none then some .peerPrepared
    else none

def beginOutboundPeer (r : Registry) (peerID : String) :
    Except RegistryError GenRef × Registry :=
  if r.closed then (.error .registryStopped, r)
  else if r.arbitrations.has peerID then (.error .peerSuppressed, r)
  else
    match r.peerTaken peerID with
    | some failure => (.error failure, r)
    | none =>
      if r.countRoleLocked .peer ≥ r.maxPeers then (.error .peerCapacity, r)
      else
        let generation : Generation :=
          ⟨.peer, .outbound, .prepared, "", "", peerID⟩
        (.ok r.nextID, ((r.newGenerationLocked generation).prepareLocked
          r.nextID (.peer peerID) "" generation).updateRoleHighWaterLocked
            .peer)

/-- The refusal of a client entry that is taken or bound to another group. -/
def clientTaken (r : Registry) (instanceID groupID : String) :
    Option RegistryError :=
  match r.entries.get (.client instanceID) with
  | none => none
  | some entry =>
    if entry.groupID ≠ groupID then some .clientGroupConflict
    else if entry.current ≠ none then some .clientCurrent
    else if entry.prepared ≠ none then some .clientPrepared
    else none

def prepareClient (r : Registry) (pending : GenRef)
    (instanceID groupID : String) : Except RegistryError GenRef × Registry :=
  if r.closed then (.error .registryStopped, r)
  else if r.isExactLocked pending .unknown .pending = false then
    (.error .staleGeneration, r)
  else
    match r.clientTaken instanceID groupID with
    | some failure => (.error failure, r)
    | none =>
      if r.countRoleLocked .client ≥ r.maxClients then
        (.error .clientCapacity, r)
      else
        (.ok pending, (r.prepareLocked pending (.client instanceID) groupID
          { r.gens pending with
            role := .client
            phase := .prepared
            instanceID := instanceID
            groupID := groupID }).updateRoleHighWaterLocked .client)

/-- Suppress the outbound side of a peer in favour of an inbound one. -/
def beginArbitration (r : Registry) (pending loser : GenRef)
    (peerID : String) : Registry :=
  { r with
    arbs := Function.update r.arbs r.nextArbID ⟨peerID, pending, loser, false⟩
    nextArbID := r.nextArbID + 1
    arbitrations := r.arbitrations.put peerID r.nextArbID }

def preparePeer (r : Registry) (pending : GenRef) (peerID : String)
    (preferredInbound : Bool) : Except RegistryError Prepared × Registry :=
  if r.closed then (.error .registryStopped, r)
  else if r.isExactLocked pending .unknown .pending = false then
    (.error .staleGeneration, r)
  else if r.arbitrations.has peerID then (.error .peerPrepared, r)
  else
    let free : Except RegistryError Prepared × Registry :=
      if r.countRoleLocked .peer ≥ r.maxPeers then (.error .peerCapacity, r)
      else (.ok (.generation pending),
        r.transferPendingToPeerLocked pending peerID)
    match r.entries.get (.peer peerID) with
    | none => free
    | some entry =>
      if entry.current ≠ none then (.error .peerCurrent, r)
      else
        match entry.prepared with
        | none => free
        | some loser =>
          if preferredInbound ∧ (r.gens loser).direction = .outbound then
            (.ok (.arbitration r.nextArbID),
              r.beginArbitration pending loser peerID)
          else (.error .peerPrepared, r)

def completeArbitration (r : Registry) (arb : ArbRef) :
    Except RegistryError GenRef × Registry :=
  let arbitration := r.arbs arb
  if r.isExactArbitrationLocked arb = false then (.error .staleGeneration, r)
  else if r.closed then
    (.error .registryStopped, r.finishArbitrationLocked arb)
  else if r.isExactLocked arbitration.inbound .unknown .pending = false ∨
      arbitration.loserReleased = false ∨
      r.isExactLocked arbitration.loser .peer .retiring = false then
    (.error .staleGeneration, r.finishArbitrationLocked arb)
  else if (r.peerTaken arbitration.peerID).isSome then
    (.error .peerCurrent, r.finishArbitrationLocked arb)
  else if r.countRoleLocked .peer > r.maxPeers then
    (.error .peerCapacity, r.finishArbitrationLocked arb)
  else
    (.ok arbitration.inbound,
      (r.finishArbitrationLocked arb).transferPendingToPeerLocked
        arbitration.inbound arbitration.peerID)

def cancelArbitration (r : Registry) (arb : ArbRef) (abortInbound : Bool) :
    Bool × Registry :=
  if r.isExactArbitrationLocked arb = false then (false, r)
  else
    let finished := r.finishArbitrationLocked arb
    (true, if abortInbound then finished.removeLocked (r.arbs arb).inbound
      else finished)

/-- Publish the prepared generation of an entry with an empty current slot. -/
def publishLocked (r : Registry) (ref : GenRef) : Bool × Registry :=
  match (r.gens ref).key with
  | none => (false, r)
  | some key =>
    match r.entries.get key with
    | none => (false, r)
    | some entry =>
      if entry.prepared ≠ some ref ∨ entry.current ≠ none then (false, r)
      else
        (true, { r.writeGen ref { r.gens ref with phase := .current } with
          entries := r.entries.put key (entry.publish ref) })

/-- `CommitReceiver`: whether it committed, and whether shutdown raced it. -/
def commitReceiver (r : Registry) (ref : GenRef) : (Bool × Bool) × Registry :=
  if r.isExactLocked ref (r.gens ref).role .prepared = false then
    ((false, r.closed), r)
  else
    let (committed, next) := r.publishLocked ref
    ((committed, r.closed), next)

def commitOutboundPeer (r : Registry) (ref : GenRef) : Bool × Registry :=
  if r.closed ∨ r.isExactLocked ref .peer .prepared = false then (false, r)
  else
    match r.arbitrations.get (r.gens ref).peerID with
    | some arb =>
      if (r.arbs arb).loser = ref then (false, r) else r.publishLocked ref
    | none => r.publishLocked ref

def beginRetire (r : Registry) (ref : GenRef) : Bool × Registry :=
  if ref ∉ r.all then (false, r)
  else
    match (r.gens ref).phase with
    | .prepared => (true, r.retireLocked ref)
    | .current => (true, r.retireLocked ref)
    | .retiring => (true, r)
    | .pending => (false, r)
    | .done => (false, r)

/-- The loser of an arbitration keeps its slot when it is released. -/
def releaseLoser (r : Registry) (arb : ArbRef) : Bool × Registry :=
  let arbitration := r.arbs arb
  if arbitration.loserReleased then (false, r)
  else
    let retired := if (r.gens arbitration.loser).phase ≠ .retiring then
        r.retireLocked arbitration.loser
      else r
    (true, { retired with
      arbs := Function.update r.arbs arb
        { arbitration with loserReleased := true } })

def release (r : Registry) (ref : GenRef) : Bool × Registry :=
  if ref ∉ r.all then (false, r)
  else
    match r.arbitrations.get (r.gens ref).peerID with
    | some arb =>
      if (r.arbs arb).loser = ref then r.releaseLoser arb
      else (true, r.removeLocked ref)
    | none => (true, r.removeLocked ref)

/-- The first section of `Stop`; its snapshot of the generations is `all`. -/
def stopBegin (r : Registry) : Registry :=
  { r with closed := true, arbitrations := ∅ }

/-- The last section of `Stop`, for the generations of the snapshot in the
order of the slice. -/
def stopFinish (r : Registry) (generations : List GenRef) : Registry :=
  generations.foldl removeLocked r

end Registry

end QMux.Mesh
