import QMux.Pool.Balancer
import QMux.Support.FiniteMap

/-!
# The server connection pool

Embedding of `server/pool/pool.go`.  Every function below runs under the pool
mutex in the source and is therefore one atomic step, except `Remove`, which
like `Add` and the pool's own `Reserve` is a sequence of such functions, and
`RecordStream`, whose atomic parts are separate functions.

Objects that the pool hands out (reservations, retirements, leases and
admissions) live in lists of allocated cells; a reference is a position.  A
reference outside its list stands for a nil pointer or an object of another
pool.  Iterating over the `clients` map visits its entries in an arbitrary
order, which is an argument of the functions that iterate.
-/

namespace QMux.Pool

open Support

abbrev ReservationRef := Nat
abbrev RetirementRef := Nat
abbrev LeaseRef := Nat
abbrev AdmissionRef := Nat

inductive ReservationState where
  | pending
  | reserved
  | committed
  | aborted
deriving DecidableEq

structure Reservation where
  conn : Option ConnRef
  id : String
  state : ReservationState
deriving DecidableEq

/-- `tcpDrained` is the content of the channel of capacity one. -/
structure Retirement where
  conn : ConnRef
  done : Bool
  tcpDrained : Option Int
  drainSent : Bool
deriving DecidableEq

inductive TCPLeaseState where
  | pending
  | active
  | released
deriving DecidableEq

structure TCPLease where
  conn : ConnRef
  state : TCPLeaseState
deriving DecidableEq

structure TCPAdmission where
  candidates : List ConnRef
  next : Nat
  balanced : Bool
  balanceErr : Option PoolError
deriving DecidableEq

/-- Capacity bounds.  Callers of `NewWithLimits` pass positive values. -/
structure Limits where
  maxClientGenerations : Int
  maxPendingRegistrations : Int
  maxTCPConnectionsPerGeneration : Int
  maxPendingTCPSetupsPerGeneration : Int
  maxUDPSessionsPerGeneration : Int
  clientGenerationsPositive : 0 < maxClientGenerations
  pendingRegistrationsPositive : 0 < maxPendingRegistrations
  tcpConnectionsPositive : 0 < maxTCPConnectionsPerGeneration
  pendingTCPSetupsPositive : 0 < maxPendingTCPSetupsPerGeneration
  udpSessionsPositive : 0 < maxUDPSessionsPerGeneration

def defaultLimits : Limits where
  maxClientGenerations := 16
  maxPendingRegistrations := 128
  maxTCPConnectionsPerGeneration := 100
  maxPendingTCPSetupsPerGeneration := 16
  maxUDPSessionsPerGeneration := 256
  clientGenerationsPositive := by decide
  pendingRegistrationsPositive := by decide
  tcpConnectionsPositive := by decide
  pendingTCPSetupsPositive := by decide
  udpSessionsPositive := by decide

structure CapacityState where
  highWater : Int
  drops : Nat
deriving DecidableEq

def CapacityState.observe (state : CapacityState) (current : Int) :
    CapacityState :=
  if current > state.highWater then { state with highWater := current }
  else state

def CapacityState.drop (state : CapacityState) : CapacityState :=
  { state with drops := state.drops + 1 }

/-- The pool together with the objects reachable from it and its callers. -/
structure ConnectionPool (σ : Type*) where
  conns : ConnRef → ClientConn
  reservationCells : List Reservation
  retirementCells : List Retirement
  leaseCells : List TCPLease
  admissionCells : List TCPAdmission
  clients : FiniteMap String ConnRef
  reservations : FiniteMap String ReservationRef
  retiring : FiniteMap ConnRef RetirementRef
  serverPending : Int
  accountingFaults : Nat
  limits : Limits
  pendingRegistrations : CapacityState
  clientGenerations : CapacityState
  tcpConnections : CapacityState
  pendingTCPSetups : CapacityState
  udpSessions : CapacityState
  balancer : LoadBalancer σ
  balancerState : σ
  cachedClients : Option (List ConnRef)

namespace ConnectionPool

variable {σ : Type*}

def newWithLimits (conns : ConnRef → ClientConn) (balancer : LoadBalancer σ)
    (balancerState : σ) (limits : Limits) : ConnectionPool σ :=
  { conns := conns
    reservationCells := []
    retirementCells := []
    leaseCells := []
    admissionCells := []
    clients := ∅
    reservations := ∅
    retiring := ∅
    serverPending := 0
    accountingFaults := 0
    limits := limits
    pendingRegistrations := ⟨0, 0⟩
    clientGenerations := ⟨0, 0⟩
    tcpConnections := ⟨0, 0⟩
    pendingTCPSetups := ⟨0, 0⟩
    udpSessions := ⟨0, 0⟩
    balancer := balancer
    balancerState := balancerState
    cachedClients := none }

/-- Write through a `*ClientConn`. -/
def updateConn (p : ConnectionPool σ) (conn : ConnRef)
    (write : ClientConn → ClientConn) : ConnectionPool σ :=
  { p with conns := Function.update p.conns conn (write (p.conns conn)) }

def isCurrentLocked (p : ConnectionPool σ) (expected : ConnRef) : Bool :=
  decide ((p.conns expected).id ≠ "" ∧
    p.clients.get (p.conns expected).id = some expected)

def clientGenerationCountLocked (p : ConnectionPool σ) : Int :=
  p.reservations.size + p.clients.size + p.retiring.size

/-- A possible order of one iteration over the `clients` map. -/
def IterationOrder (p : ConnectionPool σ) (order : List ConnRef) : Prop :=
  (order : Multiset ConnRef) = p.clients.values

instance (p : ConnectionPool σ) (order : List ConnRef) :
    Decidable (p.IterationOrder order) :=
  inferInstanceAs (Decidable (_ = _))

/-! ## Registration -/

def beginPending (p : ConnectionPool σ) :
    Except PoolError ReservationRef × ConnectionPool σ :=
  if p.accountingFaults ≠ 0 then (.error .accountingFault, p)
  else if p.serverPending ≥ p.limits.maxPendingRegistrations then
    (.error .pendingRegistrationCapacity,
      { p with pendingRegistrations := p.pendingRegistrations.drop })
  else
    (.ok p.reservationCells.length, { p with
        serverPending := p.serverPending + 1
        pendingRegistrations :=
          p.pendingRegistrations.observe (p.serverPending + 1)
        reservationCells := p.reservationCells ++ [⟨none, "", .pending⟩] })

/-- `Reservation.Reserve`. -/
def bind (p : ConnectionPool σ) (ref : ReservationRef) (conn : ConnRef) :
    Except PoolError Unit × ConnectionPool σ :=
  match p.reservationCells[ref]? with
  | none => (.error .invalidReservation, p)
  | some reservation =>
    let id := (p.conns conn).id
    if id = "" then (.error .emptyClientID, p)
    else if reservation.state ≠ .pending then
      (.error .reservationNotPending, p)
    else if p.accountingFaults ≠ 0 then (.error .accountingFault, p)
    else if p.clients.has id then (.error (.clientExists id), p)
    else if p.reservations.has id then (.error (.clientPending id), p)
    else if (p.conns conn).added then (.error (.clientAlreadyAdded id), p)
    else if p.clientGenerationCountLocked ≥
        p.limits.maxClientGenerations then
      (.error .clientGenerationCapacity,
        { p with clientGenerations := p.clientGenerations.drop })
    else
      let bound := { p with
        reservationCells :=
          p.reservationCells.set ref ⟨some conn, id, .reserved⟩
        reservations := p.reservations.put id ref }
      (.ok (), { bound with
        clientGenerations :=
          p.clientGenerations.observe bound.clientGenerationCountLocked })

def commit (p : ConnectionPool σ) (ref : ReservationRef) :
    Except PoolError Unit × ConnectionPool σ :=
  match p.reservationCells[ref]? with
  | none => (.error .invalidReservation, p)
  | some reservation =>
    if reservation.state ≠ .reserved ∨
        p.reservations.get reservation.id ≠ some ref then
      (.error .reservationNotPending, p)
    else if p.accountingFaults ≠ 0 then (.error .accountingFault, p)
    else
      match reservation.conn with
      | none => (.error .reservedIDChanged, p)
      | some conn =>
        if (p.conns conn).id ≠ reservation.id then
          (.error .reservedIDChanged, p)
        else if p.clients.has reservation.id then
          (.error (.clientExists reservation.id), p)
        else if (p.conns conn).added then
          (.error (.clientAlreadyAdded reservation.id), p)
        else
          let published := p.updateConn conn fun c =>
            { c with added := true, healthy := true }
          (.ok (), { published with
            clients := p.clients.put reservation.id conn
            reservations := p.reservations.delete reservation.id
            serverPending := p.serverPending - 1
            reservationCells := p.reservationCells.set ref
              { reservation with state := .committed }
            cachedClients := none })

def abort (p : ConnectionPool σ) (ref : ReservationRef) :
    Bool × ConnectionPool σ :=
  match p.reservationCells[ref]? with
  | none => (false, p)
  | some reservation =>
    let aborted := { p with
      serverPending := p.serverPending - 1
      reservationCells := p.reservationCells.set ref
        { reservation with state := .aborted } }
    match reservation.state with
    | .pending => (true, aborted)
    | .reserved =>
      if p.reservations.get reservation.id ≠ some ref then (false, p)
      else
        (true, { aborted with
          reservations := p.reservations.delete reservation.id })
    | .committed => (false, p)
    | .aborted => (false, p)

/-! ## Retirement -/

/-- The fence: the highest recorded stream, or `-1` if none was opened. -/
def drainFence (conn : ClientConn) : Int :=
  if conn.tcpOpened then conn.tcpStreamID else -1

def signalTCPDrainedLocked (p : ConnectionPool σ) (ref : RetirementRef) :
    ConnectionPool σ :=
  match p.retirementCells[ref]? with
  | none => p
  | some retirement =>
    let conn := p.conns retirement.conn
    if retirement.drainSent ∨ conn.tcpPending + conn.tcpActive ≠ 0 then p
    else
      { p with
        retirementCells := p.retirementCells.set ref
          { retirement with
            tcpDrained := some (drainFence conn)
            drainSent := true } }

def finalizeRetirementLocked (p : ConnectionPool σ) (conn : ConnRef) :
    ConnectionPool σ :=
  match p.retiring.get conn with
  | none => p
  | some ref =>
    match p.retirementCells[ref]? with
    | none => p
    | some retirement =>
      if retirement.done ∧ (p.conns conn).tcpPending = 0 ∧
          (p.conns conn).tcpActive = 0 ∧
          (p.conns conn).udpSessions = 0 then
        { p with retiring := p.retiring.delete conn }
      else p

def beginRetire (p : ConnectionPool σ) (expected : ConnRef) :
    Option RetirementRef × ConnectionPool σ :=
  if p.isCurrentLocked expected = false then (none, p)
  else
    let ref := p.retirementCells.length
    let removed := p.updateConn expected fun c => { c with healthy := false }
    let retiring := { removed with
      clients := p.clients.delete (p.conns expected).id
      retirementCells := p.retirementCells ++
        [Retirement.mk expected false none false]
      retiring := p.retiring.put expected ref
      cachedClients := none }
    (some ref, retiring.signalTCPDrainedLocked ref)

/-- Receive from the channel returned by `TCPDrained`. -/
def receiveTCPDrained (p : ConnectionPool σ) (ref : RetirementRef) :
    Option Int × ConnectionPool σ :=
  match p.retirementCells[ref]? with
  | none => (none, p)
  | some retirement =>
    match retirement.tcpDrained with
    | none => (none, p)
    | some fence =>
      (some fence, { p with
        retirementCells := p.retirementCells.set ref
          { retirement with tcpDrained := none } })

def done (p : ConnectionPool σ) (ref : RetirementRef) :
    Bool × ConnectionPool σ :=
  match p.retirementCells[ref]? with
  | none => (false, p)
  | some retirement =>
    if retirement.done ∨ p.retiring.get retirement.conn ≠ some ref then
      (false, p)
    else
      (true, finalizeRetirementLocked
        { p with
          retirementCells := p.retirementCells.set ref
            { retirement with done := true } } retirement.conn)

def remove (p : ConnectionPool σ) (expected : ConnRef) :
    Bool × ConnectionPool σ :=
  match p.beginRetire expected with
  | (none, next) => (false, next)
  | (some ref, next) => next.done ref

/-! ## UDP reservations -/

def reserveUDP (p : ConnectionPool σ) (order : List ConnRef) :
    Except PoolError ConnRef × ConnectionPool σ :=
  if p.accountingFaults ≠ 0 then (.error .accountingFault, p)
  else if p.clients.size = 0 then (.error .noClientsAvailable, p)
  else
    let capable := order.filter fun conn => isEligible (p.conns conn) .udp
    let eligible := capable.filter fun conn =>
      (p.conns conn).udpSessions < p.limits.maxUDPSessionsPerGeneration
    if capable.length = 0 then (.error .noEligibleClients, p)
    else if eligible.length = 0 then
      (.error .udpGenerationCapacity,
        { p with udpSessions := p.udpSessions.drop })
    else
      match p.balancer.select p.balancerState p.conns eligible with
      | (.error failure, balancerState) =>
        (.error failure, { p with balancerState := balancerState })
      | (.ok selected, balancerState) =>
        let selectedPool := { p with balancerState := balancerState }
        if selected ∉ eligible then
          (.error (.outsideCandidateSet .udp), selectedPool)
        else
          let sessions := (p.conns selected).udpSessions + 1
          let reserved := selectedPool.updateConn selected fun c =>
            { c with udpSessions := sessions }
          (.ok selected, { reserved with
            udpSessions := p.udpSessions.observe sessions })

def releaseUDP (p : ConnectionPool σ) (conn : ConnRef) :
    Bool × ConnectionPool σ :=
  if (p.conns conn).udpSessions ≤ 0 then
    (false, { p with accountingFaults := p.accountingFaults + 1 })
  else
    (true, (p.updateConn conn fun c =>
      { c with udpSessions := c.udpSessions - 1 }).finalizeRetirementLocked
        conn)

def isCurrentEligible (p : ConnectionPool σ) (conn : ConnRef)
    (protocol : Protocol) : Bool :=
  p.isCurrentLocked conn && isEligible (p.conns conn) protocol

/-! ## TCP admission and leases -/

def clientSliceLocked (p : ConnectionPool σ) (order : List ConnRef) :
    List ConnRef × ConnectionPool σ :=
  match p.cachedClients with
  | some clients => (clients, p)
  | none => (order, { p with cachedClients := some order })

def beginTCPAdmission (p : ConnectionPool σ) (order : List ConnRef) :
    Except PoolError AdmissionRef × ConnectionPool σ :=
  if p.accountingFaults ≠ 0 then (.error .accountingFault, p)
  else if p.clients.size = 0 then (.error .noClientsAvailable, p)
  else
    let (clients, next) := p.clientSliceLocked order
    let candidates := clients.filter fun conn =>
      isEligible (next.conns conn) .tcp
    if candidates.length = 0 then (.error .noEligibleClients, next)
    else
      (.ok next.admissionCells.length, { next with
        admissionCells := next.admissionCells ++
          [⟨candidates, 0, false, none⟩] })

def tcpCapacityErrorLocked (p : ConnectionPool σ) (conn : ConnRef) :
    Option PoolError :=
  if (p.conns conn).tcpPending + (p.conns conn).tcpActive ≥
      p.limits.maxTCPConnectionsPerGeneration then
    some .tcpGenerationConnectionCapacity
  else if (p.conns conn).tcpPending ≥
      p.limits.maxPendingTCPSetupsPerGeneration then
    some .tcpGenerationSetupCapacity
  else none

/-- Current, healthy and TCP-capable. -/
def isTCPCandidate (p : ConnectionPool σ) (conn : ConnRef) : Bool :=
  p.isCurrentEligible conn .tcp

def swapFirst (candidates : List ConnRef) (index : Nat) : List ConnRef :=
  match candidates[0]?, candidates[index]? with
  | some first, some selected => (candidates.set 0 selected).set index first
  | _, _ => candidates

/-- The first call's selection: the admission afterwards, and the balancer's
new state. -/
def balance (p : ConnectionPool σ) (admission : TCPAdmission) :
    TCPAdmission × σ :=
  if admission.balanced then (admission, p.balancerState)
  else
    let balanced := { admission with balanced := true }
    let eligible := admission.candidates.filter fun conn =>
      p.isTCPCandidate conn && (p.tcpCapacityErrorLocked conn).isNone
    if eligible.length = 0 then (balanced, p.balancerState)
    else
      match p.balancer.select p.balancerState p.conns eligible with
      | (.error failure, balancerState) =>
        ({ balanced with balanceErr := some failure }, balancerState)
      | (.ok selected, balancerState) =>
        if selected ∉ eligible then
          ({ balanced with
            balanceErr := some (.outsideCandidateSet .tcp) }, balancerState)
        else
          ({ balanced with
            candidates := swapFirst admission.candidates
              (admission.candidates.idxOf selected) }, balancerState)

/-- Result of walking the candidates: the generation to lease, if any, the
number of candidates passed, and whether one was at either limit. -/
structure Walk where
  conn : Option ConnRef
  passed : Nat
  atConnectionCapacity : Bool
  atSetupCapacity : Bool
deriving DecidableEq

def walk (p : ConnectionPool σ) :
    (remaining : List ConnRef) → (passed : Nat) →
      (atConnectionCapacity atSetupCapacity : Bool) → Walk
  | [], passed, atConnection, atSetup => ⟨none, passed, atConnection, atSetup⟩
  | conn :: rest, passed, atConnection, atSetup =>
    if p.isTCPCandidate conn = false then
      walk p rest (passed + 1) atConnection atSetup
    else
      match p.tcpCapacityErrorLocked conn with
      | some .tcpGenerationConnectionCapacity =>
        walk p rest (passed + 1) true atSetup
      | some .tcpGenerationSetupCapacity =>
        walk p rest (passed + 1) atConnection true
      | _ => ⟨some conn, passed + 1, atConnection, atSetup⟩

/-- `TCPAdmission.Next`. -/
def next (p : ConnectionPool σ) (ref : AdmissionRef) :
    Except PoolError (Option LeaseRef) × ConnectionPool σ :=
  match p.admissionCells[ref]? with
  | none => (.ok none, p)
  | some admission =>
    if p.accountingFaults ≠ 0 then (.error .accountingFault, p)
    else
      let (balanced, balancerState) := p.balance admission
      match balanced.balanceErr with
      | some failure =>
        (.error failure, { p with
          balancerState := balancerState
          admissionCells := p.admissionCells.set ref balanced })
      | none =>
        let walked := p.walk (balanced.candidates.drop balanced.next) 0
          false false
        let moved := { p with
          balancerState := balancerState
          admissionCells := p.admissionCells.set ref
            { balanced with next := balanced.next + walked.passed } }
        match walked.conn with
        | some conn =>
          let pending := (p.conns conn).tcpPending + 1
          let leased := moved.updateConn conn fun c =>
            { c with tcpPending := pending }
          (.ok (some p.leaseCells.length), { leased with
            pendingTCPSetups := p.pendingTCPSetups.observe pending
            tcpConnections := p.tcpConnections.observe
              (pending + (p.conns conn).tcpActive)
            leaseCells := p.leaseCells ++ [⟨conn, .pending⟩] })
        | none =>
          if walked.atConnectionCapacity then
            (.error .tcpGenerationConnectionCapacity,
              { moved with tcpConnections := p.tcpConnections.drop })
          else if walked.atSetupCapacity then
            (.error .tcpGenerationSetupCapacity,
              { moved with pendingTCPSetups := p.pendingTCPSetups.drop })
          else (.ok none, moved)

/-- `TCPLease.Commit`. -/
def commitLease (p : ConnectionPool σ) (ref : LeaseRef) :
    Bool × ConnectionPool σ :=
  match p.leaseCells[ref]? with
  | none => (false, p)
  | some lease =>
    if lease.state ≠ .pending then (false, p)
    else
      let active := p.updateConn lease.conn fun c =>
        { c with
          activeConns := c.activeConns + 1
          tcpActive := c.tcpActive + 1
          totalConns := c.totalConns + 1
          tcpPending := c.tcpPending - 1 }
      (true, { active with
        leaseCells := p.leaseCells.set ref { lease with state := .active } })

/-- The common tail of `TCPLease.Release`. -/
def finishLease (p : ConnectionPool σ) (ref : LeaseRef) (lease : TCPLease) :
    ConnectionPool σ :=
  let released := { p with
    leaseCells := p.leaseCells.set ref { lease with state := .released } }
  let signalled := match released.retiring.get lease.conn with
    | none => released
    | some retirement => released.signalTCPDrainedLocked retirement
  signalled.finalizeRetirementLocked lease.conn

/-- `TCPLease.Release`. -/
def releaseLease (p : ConnectionPool σ) (ref : LeaseRef) :
    Bool × ConnectionPool σ :=
  match p.leaseCells[ref]? with
  | none => (false, p)
  | some lease =>
    match lease.state with
    | .pending =>
      (true, (p.updateConn lease.conn fun c =>
        { c with tcpPending := c.tcpPending - 1 }).finishLease ref lease)
    | .active =>
      (true, (p.updateConn lease.conn fun c =>
        { c with
          activeConns := c.activeConns - 1
          tcpActive := c.tcpActive - 1 }).finishLease ref lease)
    | .released => (false, p)

/-! ## The atomic parts of `RecordStream` -/

/-- `tcpStreamID.CompareAndSwap(current, streamID)`. -/
def compareAndSwapStreamID (p : ConnectionPool σ) (conn : ConnRef)
    (current streamID : Int) : Bool × ConnectionPool σ :=
  if (p.conns conn).tcpStreamID = current then
    (true, p.updateConn conn fun c => { c with tcpStreamID := streamID })
  else (false, p)

/-- `tcpOpened.Store(true)`. -/
def storeTCPOpened (p : ConnectionPool σ) (conn : ConnRef) :
    ConnectionPool σ :=
  p.updateConn conn fun c => { c with tcpOpened := true }

/-! ## Health and counters written by callers -/

def markUnhealthy (p : ConnectionPool σ) (expected : ConnRef) :
    Bool × ConnectionPool σ :=
  if p.isCurrentLocked expected = false then (false, p)
  else
    let marked := p.updateConn expected fun c => { c with healthy := false }
    (true, { marked with cachedClients := none })

def markHealthy (p : ConnectionPool σ) (expected : ConnRef) :
    Bool × ConnectionPool σ :=
  if p.isCurrentLocked expected = false then (false, p)
  else
    let marked := p.updateConn expected fun c => { c with healthy := true }
    (true, { marked with cachedClients := none })

/-- `ActiveConns.Add(delta)`, called by the UDP handler. -/
def addActiveConns (p : ConnectionPool σ) (conn : ConnRef) (delta : Int) :
    ConnectionPool σ :=
  p.updateConn conn fun c => { c with activeConns := c.activeConns + delta }

/-- `TotalConns.Add(1)`, called by the UDP handler. -/
def addTotalConns (p : ConnectionPool σ) (conn : ConnRef) :
    ConnectionPool σ :=
  p.updateConn conn fun c => { c with totalConns := c.totalConns + 1 }

end ConnectionPool

end QMux.Pool
