import QMux.Mesh.RegistryTokens

/-!
# Two mesh servers

Embedding of how two servers connect to each other: `peerWorker` and
`runOutboundPeerAttempt` on the dialling side, `prepareInboundPeer` and the
rest of the registration handler on the accepting side, both of
`mesh/server.go`, over one registry on each side.

A connection records its generation on each side and how far the handler of
the accepting side has come.  The identity in a registration is that of the
dialling server, which authentication assures, and the dialling side commits
only after a success acknowledgment was sent.  What else happens on a server
(clients, other peers, retirement, `Stop`) is any operation on any token that
does not register or commit a connection between the two.
-/

namespace QMux.Mesh

open Support

structure MeshPeer where
  serverID : String
  address : String
deriving DecidableEq

/-- The part of a server's configuration that is used here. -/
structure PeerConfig where
  serverID : String
  peers : List MeshPeer
deriving DecidableEq

inductive InboundPeerError where
  | localServer
  | notConfigured
  | nonPreferred
  | registry (failure : RegistryError)
deriving DecidableEq

namespace PeerConfig

def configuredPeer (config : PeerConfig) (peerID : String) :
    Option MeshPeer :=
  config.peers.find? fun peer => peer.serverID = peerID

/-- An inbound connection is accepted from a peer that is not dialled, or
whose identity is the smaller one. -/
def preferred (config : PeerConfig) (peer : MeshPeer) (peerID : String) :
    Bool :=
  if peer.address ≠ "" then decide (peerID < config.serverID) else true

/-- `prepareInboundPeer` up to the result of `PreparePeer`. -/
def prepareInboundPeer (config : PeerConfig) (r : Registry)
    (pending : GenRef) (peerID : String) :
    Except InboundPeerError Prepared × Registry :=
  if peerID = config.serverID then (.error .localServer, r)
  else
    match config.configuredPeer peerID with
    | none => (.error .notConfigured, r)
    | some peer =>
      if config.preferred peer peerID = false then (.error .nonPreferred, r)
      else
        match r.preparePeer pending peerID true with
        | (.ok prepared, next) => (.ok prepared, next)
        | (.error failure, next) => (.error (.registry failure), next)

end PeerConfig

inductive Side where
  | low
  | high
deriving DecidableEq

def Side.other : Side → Side
  | .low => .high
  | .high => .low

/-- How far the handler of the accepting side has come. -/
inductive HandlerStage where
  | opened
  | accepted
  | arbitrating (arb : ArbRef)
  | prepared
  | acknowledged
  | committed
  | ended
deriving DecidableEq

abbrev ConnectionRef := Nat

structure PeerConnection where
  dialler : Side
  outbound : GenRef
  inbound : Option GenRef
  stage : HandlerStage
deriving DecidableEq

/-- The success acknowledgment has been sent. -/
def PeerConnection.acked (connection : PeerConnection) : Bool :=
  connection.stage = .acknowledged ∨ connection.stage = .committed

structure PeerPair where
  config : Side → PeerConfig
  registries : Side → Registry
  connections : List PeerConnection

namespace PeerPair

def serverID (pair : PeerPair) (side : Side) : String :=
  (pair.config side).serverID

/-- The identity a server knows the other one by. -/
def peerID (pair : PeerPair) (side : Side) : String := pair.serverID side.other

def setRegistry (pair : PeerPair) (side : Side) (r : Registry) : PeerPair :=
  { pair with registries := Function.update pair.registries side r }

def setConnection (pair : PeerPair) (ref : ConnectionRef)
    (connection : PeerConnection) : PeerPair :=
  { pair with connections := pair.connections.set ref connection }

/-! ## The dialling side -/

def dial (pair : PeerPair) (side : Side) : PeerPair :=
  match (pair.registries side).beginOutboundPeer (pair.peerID side) with
  | (.error _, r) => pair.setRegistry side r
  | (.ok outbound, r) =>
    { pair.setRegistry side r with
      connections := pair.connections ++ [⟨side, outbound, none, .opened⟩] }

/-- The success acknowledgment has arrived. -/
def commitOutbound (pair : PeerPair) (connection : PeerConnection) :
    PeerPair :=
  pair.setRegistry connection.dialler
    ((pair.registries connection.dialler).commitOutboundPeer
      connection.outbound).2

/-! ## The accepting side -/

def accept (pair : PeerPair) (ref : ConnectionRef)
    (connection : PeerConnection) : PeerPair :=
  let side := connection.dialler.other
  match (pair.registries side).beginInbound with
  | (.error _, r) => (pair.setRegistry side r).setConnection ref
      { connection with stage := .ended }
  | (.ok inbound, r) => (pair.setRegistry side r).setConnection ref
      { connection with inbound := some inbound, stage := .accepted }

def register (pair : PeerPair) (ref : ConnectionRef)
    (connection : PeerConnection) (inbound : GenRef) : PeerPair :=
  let side := connection.dialler.other
  match (pair.config side).prepareInboundPeer (pair.registries side) inbound
      (pair.serverID connection.dialler) with
  | (.error _, r) => (pair.setRegistry side r).setConnection ref
      { connection with stage := .ended }
  | (.ok (.generation _), r) => (pair.setRegistry side r).setConnection ref
      { connection with stage := .prepared }
  | (.ok (.arbitration arb), r) => (pair.setRegistry side r).setConnection ref
      { connection with stage := .arbitrating arb }

/-- The loser has been joined. -/
def completeArbitration (pair : PeerPair) (ref : ConnectionRef)
    (connection : PeerConnection) (arb : ArbRef) : PeerPair :=
  let side := connection.dialler.other
  match (pair.registries side).completeArbitration arb with
  | (.error _, r) =>
    (pair.setRegistry side (r.cancelArbitration arb false).2).setConnection
      ref { connection with stage := .ended }
  | (.ok _, r) => (pair.setRegistry side r).setConnection ref
      { connection with stage := .prepared }

/-- The registration ran out of time during the arbitration. -/
def cancelArbitration (pair : PeerPair) (ref : ConnectionRef)
    (connection : PeerConnection) (arb : ArbRef) : PeerPair :=
  let side := connection.dialler.other
  (pair.setRegistry side
    ((pair.registries side).cancelArbitration arb true).2).setConnection ref
      { connection with stage := .ended }

def commitReceiver (pair : PeerPair) (ref : ConnectionRef)
    (connection : PeerConnection) (inbound : GenRef) : PeerPair :=
  let side := connection.dialler.other
  (pair.setRegistry side ((pair.registries side).commitReceiver inbound).2
    ).setConnection ref { connection with stage := .committed }

/-- The next step of the handler; `fails` is a registration that ends before
its acknowledgment for another reason. -/
def handle (pair : PeerPair) (ref : ConnectionRef)
    (connection : PeerConnection) (fails : Bool) : PeerPair :=
  match connection.stage, connection.inbound with
  | .opened, _ => pair.accept ref connection
  | .accepted, some inbound => pair.register ref connection inbound
  | .arbitrating arb, _ =>
    if fails then pair.cancelArbitration ref connection arb
    else pair.completeArbitration ref connection arb
  | .prepared, _ =>
    pair.setConnection ref { connection with
      stage := if fails then .ended else .acknowledged }
  | .acknowledged, some inbound => pair.commitReceiver ref connection inbound
  | _, _ => pair

end PeerPair

/-- The steps of the two servers. -/
inductive PeerOp where
  | dial (side : Side)
  | handle (ref : ConnectionRef) (fails : Bool)
  | commitOutbound (ref : ConnectionRef)
  | other (side : Side) (op : RegistryOp)

namespace PeerPair

/-- The operation neither registers nor commits a connection to the other
server: a dial and an inbound peer are those of another identity, and a
commit is that of an inbound handler or of an attempt for another peer. -/
def Foreign (pair : PeerPair) (side : Side) : RegistryOp → Prop
  | .beginOutboundPeer peerID => peerID ≠ pair.peerID side
  | .preparePeer _ peerID _ => peerID ≠ pair.peerID side
  | .commitReceiver ref =>
    ((pair.registries side).gens ref).direction = .inbound
  | .commitOutboundPeer ref =>
    ((pair.registries side).gens ref).key ≠
      some (.peer (pair.peerID side))
  | _ => True

instance (pair : PeerPair) (side : Side) (op : RegistryOp) :
    Decidable (pair.Foreign side op) := by
  apply @RegistryOp.casesOn (fun op => Decidable (pair.Foreign side op)) op <;>
    dsimp only [Foreign] <;> infer_instance

/-- The connection exists and the acknowledgment was sent on it. -/
def ackedAt (pair : PeerPair) (ref : ConnectionRef) : Bool :=
  match pair.connections[ref]? with
  | none => false
  | some connection => connection.acked

def Enabled (pair : PeerPair) : PeerOp → Prop
  | .dial _ => True
  | .handle _ _ => True
  | .commitOutbound ref => pair.ackedAt ref = true
  | .other side op => pair.Foreign side op

instance (pair : PeerPair) (op : PeerOp) : Decidable (pair.Enabled op) := by
  cases op <;> dsimp only [Enabled] <;> infer_instance

def apply (pair : PeerPair) : PeerOp → PeerPair
  | .dial side => pair.dial side
  | .handle ref fails =>
    match pair.connections[ref]? with
    | none => pair
    | some connection => pair.handle ref connection fails
  | .commitOutbound ref =>
    match pair.connections[ref]? with
    | none => pair
    | some connection => pair.commitOutbound connection
  | .other side op =>
    pair.setRegistry side ((pair.registries side).run op)

/-- The server lists the other one with an address to dial. -/
def Dials (pair : PeerPair) (side : Side) : Prop :=
  ∃ peer, (pair.config side).configuredPeer (pair.peerID side) = some peer ∧
    peer.address ≠ ""

/-- New servers whose identities are in this order and that dial each
other. -/
structure Initial (pair : PeerPair) : Prop where
  order : pair.serverID .low < pair.serverID .high
  dials : ∀ side, pair.Dials side
  registries : ∀ side, ∃ maxPending maxClients maxPeers,
    pair.registries side = .newRegistry maxPending maxClients maxPeers
  connections : pair.connections = []

/-- All runs of the two servers. -/
def runs : TransitionSystem PeerPair where
  initial := Initial
  step pair next := ∃ op, pair.Enabled op ∧ next = pair.apply op

/-- The side's end of the connection is current there. -/
def CurrentAt (pair : PeerPair) (side : Side) (connection : PeerConnection) :
    Prop :=
  ∃ ref, (pair.registries side).Seated (.peer (pair.peerID side)) .current
      ref ∧
    if connection.dialler = side then connection.outbound = ref
    else connection.inbound = some ref

end PeerPair

end QMux.Mesh
