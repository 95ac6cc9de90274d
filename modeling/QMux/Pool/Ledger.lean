import QMux.Pool.ConnectionPool
import QMux.Support.Cells

/-!
# The accounting ledger of a pool

What the pool is for, without load balancing, health, caches, high-water marks
and drain signals: reservations, current and retiring generations, and the
counters of outstanding leases.  A ledger changes only by the steps of
`Ledger.Step`; each names the guard under which it is taken.
-/

namespace QMux.Pool

open Support

/-- The accounting part of one generation. -/
structure ConnAccount where
  id : String
  added : Bool
  tcpPending : Int
  tcpActive : Int
  udpSessions : Int
deriving DecidableEq

namespace ConnAccount

def Idle (account : ConnAccount) : Prop :=
  account.tcpPending = 0 ∧ account.tcpActive = 0 ∧ account.udpSessions = 0

instance (account : ConnAccount) : Decidable account.Idle :=
  inferInstanceAs (Decidable (_ ∧ _ ∧ _))

end ConnAccount

structure RetirementAccount where
  conn : ConnRef
  done : Bool
deriving DecidableEq

structure Ledger where
  conns : ConnRef → ConnAccount
  reservationCells : List Reservation
  retirementCells : List RetirementAccount
  leaseCells : List TCPLease
  clients : FiniteMap String ConnRef
  reservations : FiniteMap String ReservationRef
  retiring : FiniteMap ConnRef RetirementRef
  serverPending : Int
  accountingFaults : Nat
  limits : Limits

namespace Ledger

def updateConn (ledger : Ledger) (conn : ConnRef)
    (write : ConnAccount → ConnAccount) : Ledger :=
  { ledger with
    conns := Function.update ledger.conns conn (write (ledger.conns conn)) }

def Current (ledger : Ledger) (conn : ConnRef) : Prop :=
  (ledger.conns conn).id ≠ "" ∧
    ledger.clients.get (ledger.conns conn).id = some conn

def generationCount (ledger : Ledger) : Int :=
  ledger.reservations.size + ledger.clients.size + ledger.retiring.size

def begun (ledger : Ledger) : Ledger :=
  { ledger with
    serverPending := ledger.serverPending + 1
    reservationCells := ledger.reservationCells ++ [⟨none, "", .pending⟩] }

def bound (ledger : Ledger) (ref : ReservationRef) (conn : ConnRef) : Ledger :=
  { ledger with
    reservationCells := ledger.reservationCells.set ref
      ⟨some conn, (ledger.conns conn).id, .reserved⟩
    reservations := ledger.reservations.put (ledger.conns conn).id ref }

def committed (ledger : Ledger) (ref : ReservationRef)
    (reservation : Reservation) (conn : ConnRef) : Ledger :=
  { ledger.updateConn conn fun account => { account with added := true } with
    clients := ledger.clients.put reservation.id conn
    reservations := ledger.reservations.delete reservation.id
    serverPending := ledger.serverPending - 1
    reservationCells := ledger.reservationCells.set ref
      { reservation with state := .committed } }

def abortedPending (ledger : Ledger) (ref : ReservationRef)
    (reservation : Reservation) : Ledger :=
  { ledger with
    serverPending := ledger.serverPending - 1
    reservationCells := ledger.reservationCells.set ref
      { reservation with state := .aborted } }

def abortedReserved (ledger : Ledger) (ref : ReservationRef)
    (reservation : Reservation) : Ledger :=
  { ledger.abortedPending ref reservation with
    reservations := ledger.reservations.delete reservation.id }

def retired (ledger : Ledger) (conn : ConnRef) : Ledger :=
  { ledger with
    clients := ledger.clients.delete (ledger.conns conn).id
    retirementCells := ledger.retirementCells ++ [⟨conn, false⟩]
    retiring := ledger.retiring.put conn ledger.retirementCells.length }

/-- Drop a generation whose owner is done and whose counters are zero. -/
def finalize (ledger : Ledger) (conn : ConnRef) : Ledger :=
  match ledger.retiring.get conn with
  | none => ledger
  | some ref =>
    match ledger.retirementCells[ref]? with
    | none => ledger
    | some retirement =>
      if retirement.done = true ∧ (ledger.conns conn).Idle then
        { ledger with retiring := ledger.retiring.delete conn }
      else ledger

def ownerDone (ledger : Ledger) (ref : RetirementRef)
    (retirement : RetirementAccount) : Ledger :=
  { ledger with
    retirementCells := ledger.retirementCells.set ref
      { retirement with done := true } }

def udpReserved (ledger : Ledger) (conn : ConnRef) : Ledger :=
  ledger.updateConn conn fun account =>
    { account with udpSessions := account.udpSessions + 1 }

def udpReleased (ledger : Ledger) (conn : ConnRef) : Ledger :=
  ledger.updateConn conn fun account =>
    { account with udpSessions := account.udpSessions - 1 }

def faulted (ledger : Ledger) : Ledger :=
  { ledger with accountingFaults := ledger.accountingFaults + 1 }

def leased (ledger : Ledger) (conn : ConnRef) : Ledger :=
  { ledger.updateConn conn fun account =>
      { account with tcpPending := account.tcpPending + 1 } with
    leaseCells := ledger.leaseCells ++ [⟨conn, .pending⟩] }

def activated (ledger : Ledger) (ref : LeaseRef) (conn : ConnRef) : Ledger :=
  { ledger.updateConn conn fun account =>
      { account with
        tcpActive := account.tcpActive + 1
        tcpPending := account.tcpPending - 1 } with
    leaseCells := ledger.leaseCells.set ref ⟨conn, .active⟩ }

def releasedPending (ledger : Ledger) (ref : LeaseRef) (conn : ConnRef) :
    Ledger :=
  { ledger.updateConn conn fun account =>
      { account with tcpPending := account.tcpPending - 1 } with
    leaseCells := ledger.leaseCells.set ref ⟨conn, .released⟩ }

def releasedActive (ledger : Ledger) (ref : LeaseRef) (conn : ConnRef) :
    Ledger :=
  { ledger.updateConn conn fun account =>
      { account with tcpActive := account.tcpActive - 1 } with
    leaseCells := ledger.leaseCells.set ref ⟨conn, .released⟩ }

/-- What a step does to UDP reservations, as far as its caller sees it. -/
inductive Action where
  | other
  | reserveUDP (conn : ConnRef)
  | releaseUDP (conn : ConnRef)
  | fault
deriving DecidableEq

/-- The atomic changes of a ledger. -/
inductive Step (ledger : Ledger) : Action → Ledger → Prop where
  | beginPending
      (room : ledger.serverPending < ledger.limits.maxPendingRegistrations) :
      Step ledger .other ledger.begun
  | bind {ref : ReservationRef} {reservation : Reservation} {conn : ConnRef}
      (found : ledger.reservationCells[ref]? = some reservation)
      (named : (ledger.conns conn).id ≠ "")
      (pending : reservation.state = .pending)
      (notCurrent : ledger.clients.get (ledger.conns conn).id = none)
      (notReserved : ledger.reservations.get (ledger.conns conn).id = none)
      (unused : (ledger.conns conn).added = false)
      (room : ledger.generationCount < ledger.limits.maxClientGenerations) :
      Step ledger .other (ledger.bound ref conn)
  | commit {ref : ReservationRef} {reservation : Reservation} {conn : ConnRef}
      (found : ledger.reservationCells[ref]? = some reservation)
      (reserved : reservation.state = .reserved)
      (listed : ledger.reservations.get reservation.id = some ref)
      (holds : reservation.conn = some conn)
      (sameID : (ledger.conns conn).id = reservation.id)
      (notCurrent : ledger.clients.get reservation.id = none)
      (unused : (ledger.conns conn).added = false) :
      Step ledger .other (ledger.committed ref reservation conn)
  | abortPending {ref : ReservationRef} {reservation : Reservation}
      (found : ledger.reservationCells[ref]? = some reservation)
      (pending : reservation.state = .pending) :
      Step ledger .other (ledger.abortedPending ref reservation)
  | abortReserved {ref : ReservationRef} {reservation : Reservation}
      (found : ledger.reservationCells[ref]? = some reservation)
      (reserved : reservation.state = .reserved)
      (listed : ledger.reservations.get reservation.id = some ref) :
      Step ledger .other (ledger.abortedReserved ref reservation)
  | beginRetire {conn : ConnRef} (current : ledger.Current conn) :
      Step ledger .other (ledger.retired conn)
  | done {ref : RetirementRef} {retirement : RetirementAccount}
      (found : ledger.retirementCells[ref]? = some retirement)
      (first : retirement.done = false)
      (listed : ledger.retiring.get retirement.conn = some ref) :
      Step ledger .other
        ((ledger.ownerDone ref retirement).finalize retirement.conn)
  | reserveUDP {conn : ConnRef} {id : String}
      (listed : ledger.clients.get id = some conn)
      (room : (ledger.conns conn).udpSessions <
        ledger.limits.maxUDPSessionsPerGeneration) :
      Step ledger (.reserveUDP conn) (ledger.udpReserved conn)
  | releaseUDP {conn : ConnRef}
      (held : 0 < (ledger.conns conn).udpSessions) :
      Step ledger (.releaseUDP conn) ((ledger.udpReleased conn).finalize conn)
  | fault {conn : ConnRef}
      (none : (ledger.conns conn).udpSessions ≤ 0) :
      Step ledger .fault ledger.faulted
  | lease {conn : ConnRef} (current : ledger.Current conn)
      (connectionRoom : (ledger.conns conn).tcpPending +
        (ledger.conns conn).tcpActive <
          ledger.limits.maxTCPConnectionsPerGeneration)
      (setupRoom : (ledger.conns conn).tcpPending <
        ledger.limits.maxPendingTCPSetupsPerGeneration) :
      Step ledger .other (ledger.leased conn)
  | activate {ref : LeaseRef} {conn : ConnRef}
      (found : ledger.leaseCells[ref]? = some ⟨conn, .pending⟩) :
      Step ledger .other (ledger.activated ref conn)
  | releasePending {ref : LeaseRef} {conn : ConnRef}
      (found : ledger.leaseCells[ref]? = some ⟨conn, .pending⟩) :
      Step ledger .other ((ledger.releasedPending ref conn).finalize conn)
  | releaseActive {ref : LeaseRef} {conn : ConnRef}
      (found : ledger.leaseCells[ref]? = some ⟨conn, .active⟩) :
      Step ledger .other ((ledger.releasedActive ref conn).finalize conn)

end Ledger

end QMux.Pool
