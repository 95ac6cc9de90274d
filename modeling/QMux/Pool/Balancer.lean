import Mathlib.Data.List.Basic

/-!
# Client generations and load balancers

Embedding of `ClientConn` and of `server/pool/balancer.go`.  A reference
stands for a `*ClientConn`; two generations with the same client ID have
different references.  The registration time, heartbeat, version and labels
of a generation are read by logging and snapshots only and are left out.
-/

namespace QMux.Pool

/-- A pointer to a `ClientConn`. -/
abbrev ConnRef := Nat

structure ClientConn where
  id : String
  capabilities : List String
  activeConns : Int
  totalConns : Nat
  tcpPending : Int
  tcpActive : Int
  udpSessions : Int
  tcpStreamID : Int
  tcpOpened : Bool
  healthy : Bool
  added : Bool
deriving DecidableEq

/-- A generation before its first use: all counters zero, not yet added. -/
def newClientConn (id : String) (capabilities : List String) : ClientConn :=
  { id := id
    capabilities := capabilities
    activeConns := 0
    totalConns := 0
    tcpPending := 0
    tcpActive := 0
    udpSessions := 0
    tcpStreamID := 0
    tcpOpened := false
    healthy := false
    added := false }

inductive Protocol where
  | tcp
  | udp
deriving DecidableEq

def Protocol.name : Protocol → String
  | .tcp => "tcp"
  | .udp => "udp"

/-- Only the two known protocols reach `isEligible`, so its test for other
names is the type of `protocol`. -/
def isEligible (conn : ClientConn) (protocol : Protocol) : Bool :=
  conn.healthy && conn.capabilities.contains protocol.name

inductive PoolError where
  | invalidReservation
  | emptyClientID
  | reservationNotPending
  | clientExists (id : String)
  | clientPending (id : String)
  | clientAlreadyAdded (id : String)
  | reservedIDChanged
  | outsideCandidateSet (protocol : Protocol)
  | noClientsAvailable
  | noHealthyClients
  | noEligibleClients
  | accountingFault
  | pendingRegistrationCapacity
  | clientGenerationCapacity
  | tcpGenerationConnectionCapacity
  | tcpGenerationSetupCapacity
  | udpGenerationCapacity
deriving DecidableEq

/-- A selection strategy with its own state.  It reads the generations it is
offered and may answer with any reference or any error. -/
structure LoadBalancer (σ : Type*) where
  select : σ → (ConnRef → ClientConn) → List ConnRef →
    Except PoolError ConnRef × σ

/-! ## Round robin -/

/-- The second scan of `Select`: the healthy client at position `idx`, or the
first healthy one. -/
def roundRobinScan (conns : ConnRef → ClientConn) :
    (clients : List ConnRef) → (idx : Nat) → (fallback : Option ConnRef) →
      Except PoolError ConnRef
  | [], _, some client => .ok client
  | [], _, none => .error .noHealthyClients
  | client :: rest, idx, fallback =>
    if (conns client).healthy = false then
      roundRobinScan conns rest idx fallback
    else if idx = 0 then .ok client
    else roundRobinScan conns rest (idx - 1) (fallback.or (some client))

/-- `RoundRobinBalancer`; its state is the atomic counter. -/
def roundRobinBalancer : LoadBalancer UInt64 where
  select counter conns clients :=
    if clients.length = 0 then (.error .noClientsAvailable, counter)
    else
      let healthyCount := clients.countP fun client => (conns client).healthy
      if healthyCount = 0 then (.error .noHealthyClients, counter)
      else
        let idx := (counter + 1).toNat % healthyCount
        if healthyCount = clients.length then
          match clients[idx]? with
          | some client => (.ok client, counter + 1)
          | none => (.error .noHealthyClients, counter + 1)
        else (roundRobinScan conns clients idx none, counter + 1)

/-! ## Least connections -/

/-- What the balancer compares. -/
def ClientConn.load (conn : ClientConn) : Int :=
  conn.tcpPending + conn.activeConns

/-- The loop of `Select` over the clients, each with what is read of it when
the loop comes to it. -/
def leastConnectionsScan :
    (reads : List (ConnRef × ClientConn)) →
      (selected : Option (ConnRef × Int)) → Option (ConnRef × Int)
  | [], selected => selected
  | (client, conn) :: rest, selected =>
    if conn.healthy = false then leastConnectionsScan rest selected
    else
      match selected with
      | none => leastConnectionsScan rest (some (client, conn.load))
      | some (_, minConns) =>
        if conn.load < minConns then
          leastConnectionsScan rest (some (client, conn.load))
        else leastConnectionsScan rest selected

def leastConnectionsSelect (reads : List (ConnRef × ClientConn)) :
    Except PoolError ConnRef :=
  if reads.length = 0 then .error .noClientsAvailable
  else
    match leastConnectionsScan reads none with
    | some (client, _) => .ok client
    | none => .error .noHealthyClients

/-- `LeastConnectionsBalancer`, all of whose reads see the same counters. -/
def leastConnectionsBalancer : LoadBalancer Unit where
  select _ conns clients :=
    (leastConnectionsSelect (clients.map fun client => (client, conns client)),
      ())

end QMux.Pool
