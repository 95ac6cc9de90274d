import QMux.Pool.Runs

/-!
# UDP sessions of a listener

Embedding of the session part of `server/traffic/udp.go`: `processPacket`,
`sendDatagrams`, `createSession`, `closeSession`, the admission slots, and
the goroutines that close sessions: the senders, the expiry loop and `close`.

A step is one operation on a `sync.Map`, one counter update, or one section
of a mutex without such an operation.  The reader is a single goroutine, so
its position in the code is one value; the position of a `closeSession` call
is kept per call, with the goroutine that runs it.  `lifecycleMu` is held by
the reader while it publishes a session and by `close` while it stops the
senders.

Times, datagrams, the queues of the senders and the receiving side are left
out: they take no part in the accounting.  What they decide is an argument of
the step (whether a datagram is sent, whether a session is expired).  A
generation without a connection behaves like one whose connection is closed.
-/

namespace QMux.Traffic

open Support Pool

/-- A canonical address and port. -/
structure AddrPort where
  addr : Nat
  port : Nat
deriving DecidableEq

abbrev SessionRef := Nat
abbrev SenderRef := Nat
abbrev CallRef := Nat

structure UDPSession where
  id : Nat
  epoch : Nat
  clientAddr : AddrPort
  client : ConnRef
deriving DecidableEq

/-- `udpSessionStats`, with the number of tokens in `sessionSlots`. -/
structure SessionStats where
  slots : Nat
  current : Int
  held : Int
  highWater : Int
  listenerCapacityDrops : Nat
  generationCapacityDrops : Nat
  accountingFaults : Nat
deriving DecidableEq

namespace SessionStats

def acquireSessionSlot (stats : SessionStats) (sessionLimit : Nat) :
    Bool × SessionStats :=
  if stats.accountingFaults ≠ 0 then (false, stats)
  else if stats.slots < sessionLimit then
    (true, { stats with
      slots := stats.slots + 1
      held := stats.held + 1
      highWater := max stats.highWater (stats.held + 1) })
  else
    (false, { stats with
      listenerCapacityDrops := stats.listenerCapacityDrops + 1 })

def accountingFault (stats : SessionStats) : SessionStats :=
  { stats with accountingFaults := stats.accountingFaults + 1 }

def releaseSessionSlot (stats : SessionStats) : SessionStats :=
  if stats.slots = 0 then stats.accountingFault
  else if stats.held - 1 < 0 then
    { stats.accountingFault with slots := stats.slots - 1 }
  else
    { stats with slots := stats.slots - 1, held := stats.held - 1 }

def generationCapacityDrop (stats : SessionStats) : SessionStats :=
  { stats with
    generationCapacityDrops := stats.generationCapacityDrops + 1 }

def publish (stats : SessionStats) : SessionStats :=
  { stats with current := stats.current + 1 }

def unpublish (stats : SessionStats) : SessionStats :=
  { stats with current := stats.current - 1 }

end SessionStats

/-- The session tables and the allocators.  `released` are the sessions whose
admission has been given back; giving it back again has no effect. -/
structure Book where
  sessions : FiniteMap AddrPort SessionRef
  sessionsByID : FiniteMap Nat SessionRef
  session : SessionRef → UDPSession
  nextSession : SessionRef
  released : Finset SessionRef
  nextSessionID : Nat
  epochAllocator : Nat

/-- Part of the deferred release of an admission that was not used. -/
inductive GiveBack where
  | slot
  | udp
  | fault
deriving DecidableEq

/-- Where the reader is.  `giveBack` carries the session that is returned
when another one was found at the address. -/
inductive Reader where
  | idle
  | acquire (addr : AddrPort)
  | reserve (addr : AddrPort)
  | refused (capacity : Bool)
  | capacityDrop
  | load (addr : AddrPort) (client : ConnRef)
  | epoch (addr : AddrPort) (client : ConnRef)
  | sessionID (addr : AddrPort) (client : ConnRef) (epoch : Nat)
  | store (session : SessionRef)
  | index (session : SessionRef)
  | publish (session : SessionRef)
  | activate (session : SessionRef)
  | total (session : SessionRef)
  | register (session : SessionRef)
  | verify (session : SessionRef)
  | giveBack (client : ConnRef) (stage : GiveBack)
      (existing : Option SessionRef)
  | sending (session : SessionRef)
  | enqueue (session : SessionRef) (sender : SenderRef)
deriving DecidableEq

/-- The reader holds `lifecycleMu`. -/
def Reader.holdsLifecycle : Reader → Bool
  | .index _ => true
  | .publish _ => true
  | .activate _ => true
  | .total _ => true
  | .register _ => true
  | _ => false

/-- The reader has stored the session at its address, and has yet to count
it for its generation. -/
def Reader.publishes (reader : Reader) (session : SessionRef) : Bool :=
  decide (reader = .index session ∨ reader = .publish session ∨
    reader = .activate session)

/-- The reader is in `createSession`. -/
def Reader.creating : Reader → Bool
  | .idle => false
  | .sending _ => false
  | .enqueue _ _ => false
  | _ => true

/-- The next step of a `closeSession` call. -/
inductive CloseStage where
  | remove
  | unindex
  | unpublish
  | deactivate
  | reactivate
  | fault
  | releaseSlot
  | releaseUDP
  | udpFault
  | returned
deriving DecidableEq

/-- The goroutine that runs a `closeSession` call. -/
inductive Owner where
  | reader
  | sender (ref : SenderRef)
  | cleanup
  | shutdown
deriving DecidableEq

structure CloseCall where
  owner : Owner
  session : SessionRef
  stage : CloseStage
deriving DecidableEq

/-- A sender's `runSender` and `finishSender`; `ranging` is the iteration of
`closeClientSessions`, which visits no address twice. -/
inductive SenderPhase where
  | running
  | ranging (terminal : Bool) (visited : List AddrPort)
  | waiting
  | leaving
  | finished
deriving DecidableEq

def SenderPhase.isRanging (terminal : Bool) : SenderPhase → Bool
  | .ranging ends _ => decide (ends = terminal)
  | _ => false

structure UDPSender where
  client : ConnRef
  stopped : Bool
  phase : SenderPhase
deriving DecidableEq

/-- The goroutine in `close`. -/
inductive Shutdown where
  | notStarted
  | stopping
  | failing (sender : SenderRef) (visited : List AddrPort)
  | draining (visited : List AddrPort)
  | done
deriving DecidableEq

def Shutdown.holdsLifecycle : Shutdown → Bool
  | .stopping => true
  | .failing _ _ => true
  | _ => false

def Shutdown.isFailing : Shutdown → Bool
  | .failing _ _ => true
  | _ => false

def Shutdown.isDraining : Shutdown → Bool
  | .draining _ => true
  | _ => false

/-- The goroutines that close sessions, and what they and the reader look at:
the senders, the sender each session has used, the end of the listener and of
the connections. -/
structure Workers where
  senders : FiniteMap ConnRef SenderRef
  sender : SenderRef → UDPSender
  nextSender : SenderRef
  attached : SessionRef → Option SenderRef
  cleanup : Option (List AddrPort)
  shutdown : Shutdown
  closed : Bool
  cancelled : Bool
  closedConns : Finset ConnRef

structure UDPHandler (σ : Type*) where
  pool : ConnectionPool σ
  book : Book
  stats : SessionStats
  sessionLimit : Nat
  reader : Reader
  calls : List CloseCall
  workers : Workers

namespace UDPHandler

variable {σ : Type*}

def newUDPHandler (pool : ConnectionPool σ) (sessionLimit : Nat) :
    UDPHandler σ :=
  { pool := pool
    book :=
      { sessions := ∅
        sessionsByID := ∅
        session := fun _ => ⟨0, 0, ⟨0, 0⟩, 0⟩
        nextSession := 0
        released := ∅
        nextSessionID := 0
        epochAllocator := 0 }
    stats := ⟨0, 0, 0, 0, 0, 0, 0⟩
    sessionLimit := sessionLimit
    reader := .idle
    calls := []
    workers :=
      { senders := ∅
        sender := fun _ => ⟨0, false, .finished⟩
        nextSender := 0
        attached := fun _ => none
        cleanup := none
        shutdown := .notStarted
        closed := false
        cancelled := false
        closedConns := ∅ } }

def session (h : UDPHandler σ) (ref : SessionRef) : UDPSession :=
  h.book.session ref

/-- The goroutine is inside `closeSession`. -/
def Busy (h : UDPHandler σ) (owner : Owner) : Prop :=
  ∃ call ∈ h.calls, call.owner = owner ∧ call.stage ≠ .returned

instance (h : UDPHandler σ) (owner : Owner) : Decidable (h.Busy owner) :=
  inferInstanceAs (Decidable (∃ call ∈ h.calls, _))

/-- Call `closeSession`. -/
def callClose (h : UDPHandler σ) (owner : Owner) (session : SessionRef) :
    UDPHandler σ :=
  { h with calls := h.calls ++ [⟨owner, session, .remove⟩] }

/-- `lifecycleMu` is free. -/
def lifecycleFree (h : UDPHandler σ) : Bool :=
  !h.reader.holdsLifecycle && !h.workers.shutdown.holdsLifecycle

/-! ## `closeSession` -/

/-- Go on with the call at `ref`. -/
def setStage (h : UDPHandler σ) (ref : CallRef) (call : CloseCall)
    (stage : CloseStage) : UDPHandler σ :=
  { h with calls := h.calls.set ref { call with stage := stage } }

/-- `sessions.CompareAndDelete(session.clientAddr, session)`. -/
def closeRemove (h : UDPHandler σ) (ref : CallRef) (call : CloseCall) :
    UDPHandler σ :=
  let addr := (h.session call.session).clientAddr
  if h.book.sessions.get addr = some call.session then
    { h with book.sessions := h.book.sessions.delete addr }.setStage ref call
      .unindex
  else h.setStage ref call .returned

/-- `sessionsByID.CompareAndDelete(session.id, session)`. -/
def closeUnindex (h : UDPHandler σ) (ref : CallRef) (call : CloseCall) :
    UDPHandler σ :=
  let id := (h.session call.session).id
  if h.book.sessionsByID.get id = some call.session then
    { h with book.sessionsByID := h.book.sessionsByID.delete id }.setStage
      ref call .unpublish
  else h.setStage ref call .unpublish

def closeUnpublish (h : UDPHandler σ) (ref : CallRef) (call : CloseCall) :
    UDPHandler σ :=
  { h with stats := h.stats.unpublish }.setStage ref call .deactivate

/-- `session.client.ActiveConns.Add(-1) < 0`. -/
def closeDeactivate (h : UDPHandler σ) (ref : CallRef) (call : CloseCall) :
    UDPHandler σ :=
  let client := (h.session call.session).client
  { h with pool := h.pool.addActiveConns client (-1) }.setStage ref call
    (if (h.pool.conns client).activeConns - 1 < 0 then .reactivate
      else .releaseSlot)

def closeReactivate (h : UDPHandler σ) (ref : CallRef) (call : CloseCall) :
    UDPHandler σ :=
  { h with
    pool := h.pool.addActiveConns (h.session call.session).client 1
    }.setStage ref call .fault

def closeFault (h : UDPHandler σ) (ref : CallRef) (call : CloseCall) :
    UDPHandler σ :=
  { h with stats := h.stats.accountingFault }.setStage ref call .releaseSlot

/-- The first part of `session.releaseAdmission()`. -/
def closeReleaseSlot (h : UDPHandler σ) (ref : CallRef) (call : CloseCall) :
    UDPHandler σ :=
  if call.session ∈ h.book.released then h.setStage ref call .returned
  else
    { h with
      book.released := insert call.session h.book.released
      stats := h.stats.releaseSessionSlot }.setStage ref call .releaseUDP

def closeReleaseUDP (h : UDPHandler σ) (ref : CallRef) (call : CloseCall) :
    UDPHandler σ :=
  let (released, pool) := h.pool.releaseUDP (h.session call.session).client
  { h with pool := pool }.setStage ref call
    (if released then .returned else .udpFault)

def closeUDPFault (h : UDPHandler σ) (ref : CallRef) (call : CloseCall) :
    UDPHandler σ :=
  { h with stats := h.stats.accountingFault }.setStage ref call .returned

/-- The next step of a call. -/
def closeStep (h : UDPHandler σ) (ref : CallRef) : UDPHandler σ :=
  match h.calls[ref]? with
  | none => h
  | some call =>
    match call.stage with
    | .remove => h.closeRemove ref call
    | .unindex => h.closeUnindex ref call
    | .unpublish => h.closeUnpublish ref call
    | .deactivate => h.closeDeactivate ref call
    | .reactivate => h.closeReactivate ref call
    | .fault => h.closeFault ref call
    | .releaseSlot => h.closeReleaseSlot ref call
    | .releaseUDP => h.closeReleaseUDP ref call
    | .udpFault => h.closeUDPFault ref call
    | .returned => h

/-! ## `createSession` -/

def goto (h : UDPHandler σ) (reader : Reader) : UDPHandler σ :=
  { h with reader := reader }

/-- `processPacket` up to the lookup of the session. -/
def processPacket (h : UDPHandler σ) (addr : AddrPort) : UDPHandler σ :=
  if h.workers.cancelled then h
  else
    match h.book.sessions.get addr with
    | some session => h.goto (.sending session)
    | none => h.goto (.acquire addr)

def createAcquire (h : UDPHandler σ) (addr : AddrPort) : UDPHandler σ :=
  let (acquired, stats) := h.stats.acquireSessionSlot h.sessionLimit
  { h with stats := stats }.goto (if acquired then .reserve addr else .idle)

def createReserve (h : UDPHandler σ) (addr : AddrPort)
    (order : List ConnRef) : UDPHandler σ :=
  match h.pool.reserveUDP order with
  | (.ok client, pool) => { h with pool := pool }.goto (.load addr client)
  | (.error failure, pool) =>
    { h with pool := pool }.goto
      (.refused (decide (failure = PoolError.udpGenerationCapacity)))

def createRefused (h : UDPHandler σ) (capacity : Bool) : UDPHandler σ :=
  { h with stats := h.stats.releaseSessionSlot }.goto
    (if capacity then .capacityDrop else .idle)

def createCapacityDrop (h : UDPHandler σ) : UDPHandler σ :=
  { h with stats := h.stats.generationCapacityDrop }.goto .idle

def createLoad (h : UDPHandler σ) (addr : AddrPort) (client : ConnRef) :
    UDPHandler σ :=
  match h.book.sessions.get addr with
  | some session => h.goto (.giveBack client .slot (some session))
  | none => h.goto (.epoch addr client)

/-- `AllocateUDPEpoch`. -/
def createEpoch (h : UDPHandler σ) (addr : AddrPort) (client : ConnRef) :
    UDPHandler σ :=
  if h.book.epochAllocator = 2 ^ 32 - 1 then
    h.goto (.giveBack client .slot none)
  else
    { h with book.epochAllocator := h.book.epochAllocator + 1 }.goto
      (.sessionID addr client (h.book.epochAllocator + 1))

/-- `nextSessionID.Add(1)`, and the session object. -/
def createSessionID (h : UDPHandler σ) (addr : AddrPort) (client : ConnRef)
    (epoch : Nat) : UDPHandler σ :=
  let id := (h.book.nextSessionID + 1) % 2 ^ 32
  { h with
    book := { h.book with
      nextSessionID := id
      session := Function.update h.book.session h.book.nextSession
        ⟨id, epoch, addr, client⟩
      nextSession := h.book.nextSession + 1 } }.goto
    (.store h.book.nextSession)

/-- Under `lifecycleMu`: the test of `closed` and
`sessions.LoadOrStore(addr, session)`. -/
def createStore (h : UDPHandler σ) (session : SessionRef) : UDPHandler σ :=
  let addr := (h.session session).clientAddr
  let client := (h.session session).client
  if h.workers.closed then h.goto (.giveBack client .slot none)
  else
    match h.book.sessions.get addr with
    | some actual => h.goto (.giveBack client .slot (some actual))
    | none =>
      { h with book.sessions := h.book.sessions.put addr session }.goto
        (.index session)

def createIndex (h : UDPHandler σ) (session : SessionRef) : UDPHandler σ :=
  { h with
    book.sessionsByID :=
      h.book.sessionsByID.put (h.session session).id session }.goto
    (.publish session)

def createPublish (h : UDPHandler σ) (session : SessionRef) : UDPHandler σ :=
  { h with stats := h.stats.publish }.goto (.activate session)

def createActivate (h : UDPHandler σ) (session : SessionRef) :
    UDPHandler σ :=
  { h with pool := h.pool.addActiveConns (h.session session).client 1 }.goto
    (.total session)

def createTotal (h : UDPHandler σ) (session : SessionRef) : UDPHandler σ :=
  { h with pool := h.pool.addTotalConns (h.session session).client }.goto
    (.register session)

/-- The connection of the generation is unusable. -/
def connClosed (h : UDPHandler σ) (client : ConnRef) : Bool :=
  decide (client ∈ h.workers.closedConns)

/-- The test after publication. -/
def createVerify (h : UDPHandler σ) (session : SessionRef) : UDPHandler σ :=
  let client := (h.session session).client
  if h.workers.cancelled || !h.pool.isCurrentEligible client .udp ||
      h.connClosed client then
    (h.callClose .reader session).goto .idle
  else h.goto (.sending session)

/-- Where `createSession` returns to. -/
def afterCreate : Option SessionRef → Reader
  | some session => .sending session
  | none => .idle

/-- The deferred `releaseAdmission()`. -/
def createGiveBack (h : UDPHandler σ) (client : ConnRef) (stage : GiveBack)
    (existing : Option SessionRef) : UDPHandler σ :=
  match stage with
  | .slot =>
    { h with stats := h.stats.releaseSessionSlot }.goto
      (.giveBack client .udp existing)
  | .udp =>
    let (released, pool) := h.pool.releaseUDP client
    { h with pool := pool }.goto (if released then afterCreate existing
      else .giveBack client .fault existing)
  | .fault =>
    { h with stats := h.stats.accountingFault }.goto (afterCreate existing)

/-! ## `sendDatagrams` -/

/-- What becomes of the datagrams once the sender accepts batches. -/
inductive SendResult where
  | enqueued
  | queueFull
  | fragmentFailed
deriving DecidableEq

/-- A new sender for the generation, with its goroutine. -/
def startSender (w : Workers) (client : ConnRef) : Workers :=
  { w with
    senders := w.senders.put client w.nextSender
    sender := Function.update w.sender w.nextSender ⟨client, false, .running⟩
    nextSender := w.nextSender + 1 }

/-- `sendDatagrams` up to the choice of a sender, with `senderFor`. -/
def sendStart (h : UDPHandler σ) (session : SessionRef) : UDPHandler σ :=
  let client := (h.session session).client
  if h.workers.cancelled then h.goto .idle
  else
    match h.workers.attached session with
    | some sender => h.goto (.enqueue session sender)
    | none =>
      if h.connClosed client || h.workers.closed then
        (h.callClose .reader session).goto .idle
      else
        match h.workers.senders.get client with
        | some sender => h.goto (.enqueue session sender)
        | none =>
          { h with workers := startSender h.workers client }.goto
            (.enqueue session h.workers.nextSender)

/-- The rest of `sendDatagrams`, in its section of `sender.mu`. -/
def sendFinish (h : UDPHandler σ) (session : SessionRef) (sender : SenderRef)
    (result : SendResult) : UDPHandler σ :=
  if h.workers.cancelled || h.connClosed (h.session session).client ||
      (h.workers.sender sender).stopped then
    (h.callClose .reader session).goto .idle
  else
    match result with
    | .enqueued =>
      { h with
        workers.attached := Function.update h.workers.attached session
          (some sender) }.goto .idle
    | .queueFull => h.goto .idle
    | .fragmentFailed => (h.callClose .reader session).goto .idle

/-- The next step of the reader; `order` and `result` are used by the steps
that reserve a generation and that send. -/
def readerStep (h : UDPHandler σ) (order : List ConnRef)
    (result : SendResult) : UDPHandler σ :=
  match h.reader with
  | .idle => h
  | .acquire addr => h.createAcquire addr
  | .reserve addr => h.createReserve addr order
  | .refused capacity => h.createRefused capacity
  | .capacityDrop => h.createCapacityDrop
  | .load addr client => h.createLoad addr client
  | .epoch addr client => h.createEpoch addr client
  | .sessionID addr client epoch => h.createSessionID addr client epoch
  | .store session => h.createStore session
  | .index session => h.createIndex session
  | .publish session => h.createPublish session
  | .activate session => h.createActivate session
  | .total session => h.createTotal session
  | .register session => h.goto (.verify session)
  | .verify session => h.createVerify session
  | .giveBack client stage existing => h.createGiveBack client stage existing
  | .sending session => h.sendStart session
  | .enqueue session sender => h.sendFinish session sender result

/-! ## The goroutines that close sessions -/

def setSender (h : UDPHandler σ) (ref : SenderRef) (sender : UDPSender) :
    UDPHandler σ :=
  { h with
    workers.sender := Function.update h.workers.sender ref sender }

/-- `failSender`: the sender is stopped and its sessions are visited. -/
def senderFails (h : UDPHandler σ) (ref : SenderRef) (terminal : Bool) :
    UDPHandler σ :=
  h.setSender ref { h.workers.sender ref with
    stopped := true
    phase := .ranging terminal [] }

/-- One entry visited by a `Range` that closes the sessions `chosen`. -/
def visit (h : UDPHandler σ) (owner : Owner) (addr : AddrPort)
    (chosen : UDPSession → Bool) : UDPHandler σ :=
  match h.book.sessions.get addr with
  | none => h
  | some session =>
    if chosen (h.session session) then h.callClose owner session else h

def senderVisits (h : UDPHandler σ) (ref : SenderRef) (terminal : Bool)
    (visited : List AddrPort) (addr : AddrPort) : UDPHandler σ :=
  let sender := h.workers.sender ref
  (h.setSender ref { sender with
    phase := .ranging terminal (addr :: visited) }).visit (.sender ref) addr
      fun session => decide (session.client = sender.client)

/-- The end of `closeClientSessions` in `failSender`. -/
def senderRanged (h : UDPHandler σ) (ref : SenderRef) (terminal : Bool) :
    UDPHandler σ :=
  h.setSender ref { h.workers.sender ref with
    phase := if terminal then .waiting else .leaving }

/-- The end of `finishSender`. -/
def senderLeaves (h : UDPHandler σ) (ref : SenderRef) : UDPHandler σ :=
  let sender := h.workers.sender ref
  let finished := h.setSender ref { sender with phase := .finished }
  if h.workers.senders.get sender.client = some ref then
    { finished with
      workers.senders := h.workers.senders.delete sender.client }
  else finished

def setCleanup (h : UDPHandler σ) (cleanup : Option (List AddrPort)) :
    UDPHandler σ :=
  { h with workers.cleanup := cleanup }

def setShutdown (h : UDPHandler σ) (shutdown : Shutdown) : UDPHandler σ :=
  { h with workers.shutdown := shutdown }

/-- The senders `close` stops, one after another. -/
def shutdownFails (h : UDPHandler σ) (ref : SenderRef) : UDPHandler σ :=
  (h.setSender ref { h.workers.sender ref with stopped := true }
    ).setShutdown (.failing ref [])

end UDPHandler

/-- The steps of the goroutines of a listener and of the pool's other users. -/
inductive UDPOp where
  | pool (op : Pool.Op)
  | closeConn (client : ConnRef)
  | cancel
  | packet (addr : AddrPort)
  | reader (order : List ConnRef) (result : UDPHandler.SendResult)
  | close (ref : CallRef)
  | senderFails (ref : SenderRef) (terminal : Bool)
  | senderVisits (ref : SenderRef) (terminal : Bool)
      (visited : List AddrPort) (addr : AddrPort)
  | senderRanged (ref : SenderRef) (terminal : Bool)
  | senderLeaves (ref : SenderRef)
  | cleanupStarts
  | cleanupVisits (visited : List AddrPort) (addr : AddrPort) (expired : Bool)
  | cleanupEnds
  | shutdownStarts
  | shutdownFails (ref : SenderRef)
  | shutdownVisitsSender (ref : SenderRef) (visited : List AddrPort)
      (addr : AddrPort)
  | shutdownRanged
  | shutdownCancels
  | shutdownVisits (visited : List AddrPort) (addr : AddrPort)
  | shutdownEnds

namespace UDPHandler

variable {σ : Type*}

/-- The operations on the pool that are not made by the handler. -/
def Foreign : Pool.Op → Prop
  | .reserveUDP _ => False
  | .releaseUDP _ => False
  | .addActiveConns _ _ => False
  | .addTotalConns _ => False
  | _ => True

instance (op : Pool.Op) : Decidable (Foreign op) := by
  apply @Pool.Op.casesOn (fun op => Decidable (Foreign op)) op <;>
    dsimp only [Foreign] <;> infer_instance

def apply (h : UDPHandler σ) : UDPOp → UDPHandler σ
  | .pool op => { h with pool := h.pool.apply op }
  | .closeConn client =>
    { h with workers.closedConns := insert client h.workers.closedConns }
  | .cancel => { h with workers.cancelled := true }
  | .packet addr => h.processPacket addr
  | .reader order result => h.readerStep order result
  | .close ref => h.closeStep ref
  | .senderFails ref terminal => h.senderFails ref terminal
  | .senderVisits ref terminal visited addr =>
    h.senderVisits ref terminal visited addr
  | .senderRanged ref terminal => h.senderRanged ref terminal
  | .senderLeaves ref => h.senderLeaves ref
  | .cleanupStarts => h.setCleanup (some [])
  | .cleanupVisits visited addr expired =>
    (h.setCleanup (some (addr :: visited))).visit .cleanup addr
      fun _ => expired
  | .cleanupEnds => h.setCleanup none
  | .shutdownStarts =>
    { h with workers.closed := true }.setShutdown .stopping
  | .shutdownFails ref => h.shutdownFails ref
  | .shutdownVisitsSender ref visited addr =>
    (h.setShutdown (.failing ref (addr :: visited))).visit .shutdown addr
      fun session =>
        decide (session.client = (h.workers.sender ref).client)
  | .shutdownRanged => h.setShutdown .stopping
  | .shutdownCancels =>
    { h with workers.cancelled := true }.setShutdown (.draining [])
  | .shutdownVisits visited addr =>
    (h.setShutdown (.draining (addr :: visited))).visit .shutdown addr
      fun _ => true
  | .shutdownEnds => h.setShutdown .done

/-- A sender sees the end of its connection or of the listener. -/
def senderEnds (h : UDPHandler σ) (ref : SenderRef) : Bool :=
  h.workers.cancelled || h.connClosed (h.workers.sender ref).client

/-- What the reader waits for: the order in which the pool iterates is a
possible one, and `lifecycleMu` is free where it is taken. -/
def readerReady (h : UDPHandler σ) (order : List ConnRef) : Bool :=
  match h.reader with
  | .idle => false
  | .reserve _ => decide (h.pool.IterationOrder order)
  | .store _ => h.lifecycleFree
  | .sending session =>
    h.lifecycleFree || (h.workers.attached session).isSome ||
      h.connClosed (h.session session).client
  | _ => true

/-- When a goroutine can take the step. -/
def Enabled (h : UDPHandler σ) : UDPOp → Prop
  | .pool op => Foreign op ∧ h.pool.Enabled op
  | .closeConn _ => True
  | .cancel => True
  | .packet _ => h.reader = .idle ∧ ¬ h.Busy .reader
  | .reader order _ => h.readerReady order = true
  | .close ref => ref < h.calls.length
  | .senderFails ref terminal =>
    ref < h.workers.nextSender ∧ (((h.workers.sender ref).phase = .running ∧
        (terminal = true ∨ (h.workers.sender ref).stopped = true ∨
          h.senderEnds ref = true)) ∨
      ((h.workers.sender ref).phase = .waiting ∧ terminal = false ∧
        h.senderEnds ref = true))
  | .senderVisits ref terminal visited addr =>
    ref < h.workers.nextSender ∧
      (h.workers.sender ref).phase = .ranging terminal visited ∧
      addr ∉ visited ∧ ¬ h.Busy (.sender ref)
  | .senderRanged ref terminal =>
    ref < h.workers.nextSender ∧ ¬ h.Busy (.sender ref) ∧
      (h.workers.sender ref).phase.isRanging terminal = true
  | .senderLeaves ref =>
    ref < h.workers.nextSender ∧ (h.workers.sender ref).phase = .leaving ∧
      h.lifecycleFree = true
  | .cleanupStarts => h.workers.cleanup = none
  | .cleanupVisits visited addr _ =>
    h.workers.cleanup = some visited ∧ addr ∉ visited ∧ ¬ h.Busy .cleanup
  | .cleanupEnds => h.workers.cleanup ≠ none ∧ ¬ h.Busy .cleanup
  | .shutdownStarts =>
    h.workers.shutdown = .notStarted ∧ h.lifecycleFree = true
  | .shutdownFails ref =>
    h.workers.shutdown = .stopping ∧
      h.workers.senders.get (h.workers.sender ref).client = some ref
  | .shutdownVisitsSender ref visited addr =>
    h.workers.shutdown = .failing ref visited ∧ addr ∉ visited ∧
      ¬ h.Busy .shutdown
  | .shutdownRanged =>
    ¬ h.Busy .shutdown ∧ h.workers.shutdown.isFailing = true
  | .shutdownCancels => h.workers.shutdown = .stopping
  | .shutdownVisits visited addr =>
    h.workers.shutdown = .draining visited ∧ addr ∉ visited ∧ ¬ h.Busy .shutdown
  | .shutdownEnds =>
    ¬ h.Busy .shutdown ∧ h.workers.shutdown.isDraining = true

instance (h : UDPHandler σ) (op : UDPOp) : Decidable (h.Enabled op) := by
  cases op <;> dsimp only [Enabled] <;> infer_instance

def Step (h next : UDPHandler σ) : Prop :=
  ∃ op, h.Enabled op ∧ next = h.apply op

/-- A new handler over a new pool. -/
def Initial (h : UDPHandler σ) : Prop :=
  ∃ (pool : ConnectionPool σ) (sessionLimit : Nat),
    pool.Fresh ∧ h = newUDPHandler pool sessionLimit

/-- All runs of the goroutines of a listener. -/
def runs (σ : Type*) : TransitionSystem (UDPHandler σ) where
  initial := Initial
  step := Step

/-- No `createSession` or `closeSession` is in progress. -/
def Quiescent (h : UDPHandler σ) : Prop :=
  h.reader.creating = false ∧ ∀ call ∈ h.calls, call.stage = .returned

instance (h : UDPHandler σ) : Decidable h.Quiescent :=
  inferInstanceAs (Decidable (_ ∧ _))

/-- A `closeSession` call does not undo what `createSession` has not yet
done: it does not look for the session's identifier before it is stored, and
does not take the session off its generation before it is counted there. -/
def Orderly (h : UDPHandler σ) : UDPOp → Prop
  | .close ref =>
    ∀ call ∈ h.calls[ref]?,
      (call.stage = .unindex → h.reader ≠ .index call.session) ∧
      (call.stage = .deactivate → h.reader.publishes call.session = false)
  | _ => True

instance (h : UDPHandler σ) (op : UDPOp) : Decidable (h.Orderly op) := by
  cases op <;> dsimp only [Orderly] <;> infer_instance

/-- The runs in which every step is orderly. -/
def orderlyRuns (σ : Type*) : TransitionSystem (UDPHandler σ) where
  initial := Initial
  step h next := ∃ op, h.Enabled op ∧ h.Orderly op ∧ next = h.apply op

end UDPHandler

end QMux.Traffic
