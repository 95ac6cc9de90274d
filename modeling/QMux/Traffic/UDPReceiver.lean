import QMux.Traffic.UDPSessionIDs
import QMux.Protocol.UDPFragmentGroups

/-!
# The receiving side of a UDP listener

Embedding of `receiveDatagrams`: one loop per QUIC connection decodes what
the client sends, looks the session up, checks that the session belongs to
this connection, reassembles fragments and writes to the public address.

The handler of `UDPHandler` runs beside the loops, and so do the sweeps and
the end of the fragment assembler, which remove groups.  A loop may be started
at any time for any connection, which is more than the handler does; a loop
that has returned is one that takes no more steps.  `AddFragment` holds the
lock of its shard, so it is one step; what calls on other shards have
reserved at that moment and may give back is an argument of the step.  The
activity time of a session and the logging are left out.
-/

namespace QMux.Traffic

open Support Pool Protocol

abbrev QuicConn := Nat
abbrev ReceiverRef := Nat

/-- Where a loop is, with the datagram it works on. -/
inductive ReceivePhase where
  | waiting
  | load (dgram : Bytes) (parsed : UDPDatagram)
  | addFragment (dgram : Bytes) (parsed : UDPDatagram) (session : SessionRef)
  | write (dgram : Bytes) (parsed : UDPDatagram) (session : SessionRef)
      (payload : Bytes)
deriving DecidableEq

structure ReceiveLoop where
  quicConn : QuicConn
  phase : ReceivePhase
deriving DecidableEq

/-- A datagram written to a public address, with the connection and the
datagram that caused it. -/
structure PublicWrite where
  quicConn : QuicConn
  dgram : Bytes
  session : SessionRef
  addr : AddrPort
  payload : Bytes
deriving DecidableEq

/-- A listener with its receive loops.  `conn` is the `Conn` field of the
generations.  `received` and `writes` record what went through the loops. -/
structure Receiving (σ : Type*) where
  handler : UDPHandler σ
  conn : ConnRef → Option QuicConn
  fragmentAssembler : Option ShardedFragmentAssembler
  receivers : List ReceiveLoop
  unknownSession : Nat
  decodeDrops : Nat
  received : List (QuicConn × Bytes)
  writes : List PublicWrite

namespace Receiving

variable {σ : Type*}

def setPhase (h : Receiving σ) (ref : ReceiverRef) (loop : ReceiveLoop)
    (phase : ReceivePhase) : Receiving σ :=
  { h with receivers := h.receivers.set ref { loop with phase := phase } }

def recordDecodeError (h : Receiving σ) (failure : FragmentError) :
    Receiving σ :=
  if failure ≠ .fragmentAssemblerFull ∧ failure ≠ .fragmentAssemblerClosed then
    { h with decodeDrops := h.decodeDrops + 1 }
  else h

/-- `ReceiveDatagram` returns `dgram`, which is decoded. -/
def receiveDatagram (h : Receiving σ) (ref : ReceiverRef) (loop : ReceiveLoop)
    (dgram : Bytes) : Receiving σ :=
  let arrived := { h with received := (loop.quicConn, dgram) :: h.received }
  match decodeUDPDatagram dgram with
  | .error failure => arrived.recordDecodeError failure
  | .ok parsed => arrived.setPhase ref loop (.load dgram parsed)

/-- `sessionsByID.Load` and the test of the session's owner. -/
def loadSession (h : Receiving σ) (ref : ReceiverRef) (loop : ReceiveLoop)
    (dgram : Bytes) (parsed : UDPDatagram) : Receiving σ :=
  let unknown :=
    { h with unknownSession := h.unknownSession + 1 }.setPhase ref loop
      .waiting
  match h.handler.book.sessionsByID.get parsed.sessionID.toNat with
  | none => unknown
  | some session =>
    if h.conn (h.handler.session session).client ≠ some loop.quicConn then
      unknown
    else if parsed.isFragmented then
      h.setPhase ref loop (.addFragment dgram parsed session)
    else h.setPhase ref loop (.write dgram parsed session parsed.payload)

/-- `AddFragment` while other calls have added `groups` and `bytes` to the
counters. -/
def addFragmentAmid (sfa : ShardedFragmentAssembler) (now groups bytes : Int)
    (parsed : UDPDatagram) :
    Except FragmentError (Option Bytes) × ShardedFragmentAssembler :=
  let (result, next) := { sfa with
      retainedGroups := sfa.retainedGroups + groups
      retainedBytes := sfa.retainedBytes + bytes }.addFragment now
      parsed.sessionID parsed.fragmentID parsed.fragmentIndex
      parsed.fragmentTotal parsed.payload
  (result, { next with
    retainedGroups := next.retainedGroups - groups
    retainedBytes := next.retainedBytes - bytes })

def addFragment (h : Receiving σ) (ref : ReceiverRef) (loop : ReceiveLoop)
    (now groups bytes : Int) (dgram : Bytes) (parsed : UDPDatagram)
    (session : SessionRef) : Receiving σ :=
  match h.fragmentAssembler with
  | none =>
    (h.recordDecodeError .fragmentAssemblerNil).setPhase ref loop .waiting
  | some sfa =>
    match addFragmentAmid sfa now groups bytes parsed with
    | (.error failure, next) =>
      ({ h with fragmentAssembler := some next }.recordDecodeError failure
        ).setPhase ref loop .waiting
    | (.ok none, next) =>
      { h with fragmentAssembler := some next }.setPhase ref loop .waiting
    | (.ok (some payload), next) =>
      { h with fragmentAssembler := some next }.setPhase ref loop
        (.write dgram parsed session payload)

/-- `WriteToUDPAddrPort(payload, session.clientAddr)`. -/
def writePublic (h : Receiving σ) (ref : ReceiverRef) (loop : ReceiveLoop)
    (dgram : Bytes) (session : SessionRef) (payload : Bytes) : Receiving σ :=
  { h with
    writes :=
      { quicConn := loop.quicConn
        dgram := dgram
        session := session
        addr := (h.handler.session session).clientAddr
        payload := payload } :: h.writes }.setPhase ref loop .waiting

/-- The next step of a loop.  `dgram` is used by a loop that waits, the other
arguments by one that adds a fragment. -/
def receiverStep (h : Receiving σ) (ref : ReceiverRef) (dgram : Bytes)
    (now groups bytes : Int) : Receiving σ :=
  match h.receivers[ref]? with
  | none => h
  | some loop =>
    match loop.phase with
    | .waiting => h.receiveDatagram ref loop dgram
    | .load dgram parsed => h.loadSession ref loop dgram parsed
    | .addFragment dgram parsed session =>
      h.addFragment ref loop now groups bytes dgram parsed session
    | .write dgram _ session payload =>
      h.writePublic ref loop dgram session payload

/-- A sweep or `Close` removes one group. -/
def removeGroup (h : Receiving σ) (key : FragmentKey) : Receiving σ :=
  match h.fragmentAssembler with
  | none => h
  | some sfa =>
    match sfa.lookup key with
    | none => h
    | some group =>
      { h with fragmentAssembler := some (sfa.discard key group) }

/-- The group held for a key. -/
def group (h : Receiving σ) (key : FragmentKey) : Option FragmentGroup :=
  h.fragmentAssembler.bind fun sfa => sfa.lookup key

/-- The group may be removed: it has expired, or the assembler is closed. -/
def removable (h : Receiving σ) (now : Int) (key : FragmentKey) : Bool :=
  match h.fragmentAssembler with
  | none => false
  | some sfa =>
    sfa.closed ||
      match sfa.lookup key with
      | none => false
      | some group => decide (now - group.createdAt > fragmentTimeout)

end Receiving

/-- The steps of a listener with its receive loops. -/
inductive ReceiveOp where
  | handler (op : UDPOp)
  | start (quicConn : QuicConn)
  | receiver (ref : ReceiverRef) (dgram : Bytes) (now groups bytes : Int)
  | remove (now : Int) (key : FragmentKey)
  | closeAssembler

namespace Receiving

variable {σ : Type*}

def apply (h : Receiving σ) : ReceiveOp → Receiving σ
  | .handler op => { h with handler := h.handler.apply op }
  | .start quicConn =>
    { h with receivers := h.receivers ++ [⟨quicConn, .waiting⟩] }
  | .receiver ref dgram now groups bytes =>
    h.receiverStep ref dgram now groups bytes
  | .remove _ key => h.removeGroup key
  | .closeAssembler =>
    { h with fragmentAssembler :=
        h.fragmentAssembler.map fun sfa => { sfa with closed := true } }

def Enabled (h : Receiving σ) : ReceiveOp → Prop
  | .handler op => h.handler.Enabled op
  | .start _ => True
  | .receiver ref _ _ _ _ => ref < h.receivers.length
  | .remove now key => h.removable now key = true
  | .closeAssembler => True

instance (h : Receiving σ) (op : ReceiveOp) : Decidable (h.Enabled op) := by
  cases op <;> dsimp only [Enabled] <;> infer_instance

/-- A new handler and a new assembler, if the listener has one. -/
def Initial (h : Receiving σ) : Prop :=
  UDPHandler.Initial h.handler ∧
    (∀ sfa, h.fragmentAssembler = some sfa →
      ∃ hash shardCount maxGroups maxBackingBytes,
        sfa = .new hash shardCount maxGroups maxBackingBytes) ∧
    h.receivers = [] ∧ h.received = [] ∧ h.writes = []

/-- All runs: any clients, sending any datagrams. -/
def runs (σ : Type*) : TransitionSystem (Receiving σ) where
  initial := Initial
  step h next := ∃ op, h.Enabled op ∧ next = h.apply op

end Receiving

end QMux.Traffic
