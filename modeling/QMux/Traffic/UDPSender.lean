import QMux.Support.Cells
import QMux.Support.Transition
import QMux.Traffic.UDPHandler

/-!
# Datagram senders of a listener

Embedding of the sending side of `server/traffic/udp.go`: `sendDatagrams`,
`senderFor`, `enqueueSenderLocked`, `runSender`, `sendBatch`,
`releaseSenderBatch`, `failSender`, `finishSender` and the part of `close`
that stops the senders.

A datagram is represented by its pooled buffer, a batch by the buffers of its
datagrams.  Every buffer that `FragmentUDPPooled` takes from the pool gets a
new number, and `returned` lists the buffers in the order they are put back.
Each sender keeps the batches it accepted and the datagrams passed to
`SendDatagram`; the code does not store these two.

`sender.mu` is held over several steps only while `failSender` empties the
queue, `lifecycleMu` only by `close`.  The worker receives from the queue
without `sender.mu`.  `closeClientSessions` and `closeSession` do not touch
the senders and are left out.
-/

namespace QMux.Traffic.Sending

open Support Pool

abbrev BufferRef := Nat

structure UDPSendBatch where
  datagrams : List BufferRef
deriving DecidableEq

def UDPSendBatch.frames (batch : UDPSendBatch) : Nat := batch.datagrams.length

/-- What follows the release of a batch in `runSender`. -/
inductive AfterBatch where
  | proceed
  | fail
  | finish
deriving DecidableEq

/-- Where `runSender` and `finishSender` are.  `terminal` tells the call of
`failSender` after a terminal error from the one in `finishSender`. -/
inductive Worker where
  | selecting
  | taken (batch : UDPSendBatch)
  | sending (batch : UDPSendBatch) (rest : List BufferRef)
  | releasing (batch : UDPSendBatch) (after : AfterBatch)
  | returning (batch : UDPSendBatch) (after : AfterBatch)
  | failing (terminal : Bool)
  | draining (terminal : Bool)
  | waiting
  | leaving
  | finished
deriving DecidableEq

/-- The goroutine that holds `sender.mu` while it empties the queue. -/
inductive Holder where
  | worker
  | closer
deriving DecidableEq

structure UDPSender where
  client : ConnRef
  queue : List UDPSendBatch
  /-- The capacity of the channel. -/
  capacity : Nat
  mu : Option Holder
  stopped : Bool
  ownedFrames : Int
  worker : Worker
  accepted : List UDPSendBatch
  sent : List BufferRef
deriving DecidableEq

inductive UDPEnqueueResult where
  | udpEnqueued
  | udpQueueFull
  | udpSenderUnavailable
deriving DecidableEq

/-- How `SendDatagram` returns; only an error other than a datagram that is
too large is terminal. -/
inductive SendOutcome where
  | sent
  | tooLarge
  | failed
deriving DecidableEq

namespace UDPSender

/-- A sender as `senderFor` creates it. -/
def new (client : ConnRef) (senderFrameLimit : Nat) : UDPSender :=
  { client := client
    queue := []
    capacity := senderFrameLimit
    mu := none
    stopped := false
    ownedFrames := 0
    worker := .selecting
    accepted := []
    sent := [] }

def enqueueSenderLocked (sender : UDPSender) (senderFrameLimit : Nat)
    (batch : UDPSendBatch) : UDPEnqueueResult × UDPSender :=
  if sender.stopped then (.udpSenderUnavailable, sender)
  else if (batch.frames : Int) > senderFrameLimit - sender.ownedFrames then
    (.udpQueueFull, sender)
  else
    let nextFrames := sender.ownedFrames + batch.frames
    if sender.queue.length < sender.capacity then
      (.udpEnqueued, { sender with
        ownedFrames := nextFrames
        queue := sender.queue ++ [batch]
        accepted := sender.accepted ++ [batch] })
    else
      (.udpQueueFull, { sender with
        ownedFrames := nextFrames - batch.frames })

/-- Lock and set `stopped` at the start of `failSender`. -/
def stop (sender : UDPSender) (holder : Holder) : UDPSender :=
  { sender with mu := some holder, stopped := true }

/-- One batch received by `failSender`: the buffers it returns, and the
sender afterwards. -/
def drain (sender : UDPSender) : List BufferRef × UDPSender :=
  match sender.queue with
  | [] => ([], sender)
  | batch :: rest =>
    (batch.datagrams, { sender with
      queue := rest
      ownedFrames := sender.ownedFrames - batch.frames })

/-- The worker's next step when it is not in `select`, and the buffers it
returns.  `outcome` is used by the step that calls `SendDatagram`. -/
def work (sender : UDPSender) (outcome : SendOutcome) :
    List BufferRef × UDPSender :=
  match sender.worker with
  | .taken batch =>
    ([], { sender with
      worker :=
        if sender.stopped then .releasing batch .finish
        else .sending batch batch.datagrams })
  | .sending batch [] =>
    ([], { sender with worker := .releasing batch .proceed })
  | .sending batch (datagram :: rest) =>
    ([], { sender with
      sent := sender.sent ++ [datagram]
      worker :=
        match outcome with
        | .sent => .sending batch rest
        | .tooLarge => .releasing batch .proceed
        | .failed => .releasing batch .fail })
  | .releasing batch after =>
    ([], { sender with
      ownedFrames := sender.ownedFrames - batch.frames
      worker := .returning batch after })
  | .returning batch after =>
    (batch.datagrams, { sender with
      worker :=
        match after with
        | .proceed => .selecting
        | .fail => .failing true
        | .finish => .failing false })
  | .failing terminal =>
    ([], { sender.stop .worker with worker := .draining terminal })
  | .draining terminal =>
    match sender.queue with
    | [] =>
      ([], { sender with
        mu := none
        worker := if terminal then .waiting else .leaving })
    | _ => sender.drain
  | _ => ([], sender)

/-- `select` receives a batch. -/
def receive (sender : UDPSender) : UDPSender :=
  match sender.queue with
  | [] => sender
  | batch :: rest => { sender with queue := rest, worker := .taken batch }

/-- The worker takes `sender.mu` in its next step. -/
def locks (sender : UDPSender) : Bool :=
  match sender.worker with
  | .releasing _ _ => true
  | .failing _ => true
  | _ => false

/-- The worker is between two of its calls and needs nothing but
`sender.mu`. -/
def working (sender : UDPSender) : Bool :=
  match sender.worker with
  | .selecting => false
  | .waiting => false
  | .leaving => false
  | .finished => false
  | _ => true

end UDPSender

/-- Where the packet reader is in `sendDatagrams`. -/
inductive Reader where
  | idle
  | choosing (session : SessionRef)
  | checking (session : SessionRef) (sender : SenderRef)
  | fragmenting (session : SessionRef) (sender : SenderRef)
  | locking (session : SessionRef) (sender : SenderRef)
      (batch : UDPSendBatch)
  | releasing (batch : UDPSendBatch)
deriving DecidableEq

/-- Where `close` is.  It holds `lifecycleMu` from its start until it has
cancelled the context. -/
inductive Closer where
  | notStarted
  | stopping (failed : List SenderRef)
  | failing (sender : SenderRef) (failed : List SenderRef)
  | draining (sender : SenderRef) (failed : List SenderRef)
  | done
deriving DecidableEq

def Closer.holdsLifecycle : Closer → Bool
  | .notStarted => false
  | .done => false
  | _ => true

structure SendHandler where
  maxSenderQueuedFrames : Nat
  maxSenderQueuedBackingBytes : Nat
  /-- `session.client`, fixed when the session is created. -/
  client : SessionRef → ConnRef
  /-- `session.sender`. -/
  attached : SessionRef → Option SenderRef
  senders : FiniteMap ConnRef SenderRef
  cells : List UDPSender
  reader : Reader
  closer : Closer
  closed : Bool
  cancelled : Bool
  closedConns : Finset ConnRef
  nextBuffer : Nat
  returned : List BufferRef

namespace SendHandler

def new (maxSenderQueuedFrames maxSenderQueuedBackingBytes : Nat)
    (client : SessionRef → ConnRef) : SendHandler :=
  { maxSenderQueuedFrames := maxSenderQueuedFrames
    maxSenderQueuedBackingBytes := maxSenderQueuedBackingBytes
    client := client
    attached := fun _ => none
    senders := ∅
    cells := []
    reader := .idle
    closer := .notStarted
    closed := false
    cancelled := false
    closedConns := ∅
    nextBuffer := 0
    returned := [] }

def datagramBufferSize : Nat := 1200

def senderFrameLimit (h : SendHandler) : Nat :=
  min h.maxSenderQueuedFrames
    (h.maxSenderQueuedBackingBytes / datagramBufferSize)

def goto (h : SendHandler) (reader : Reader) : SendHandler :=
  { h with reader := reader }

def setCell (h : SendHandler) (ref : SenderRef) (sender : UDPSender) :
    SendHandler :=
  { h with cells := h.cells.set ref sender }

/-- Put buffers back into the pool. -/
def putBuffers (h : SendHandler) (buffers : List BufferRef) : SendHandler :=
  { h with returned := h.returned ++ buffers }

/-- The context of the listener or of the connection has ended. -/
def ended (h : SendHandler) (client : ConnRef) : Bool :=
  h.cancelled || decide (client ∈ h.closedConns)

/-- `stopped.Load()`. -/
def isStopped (h : SendHandler) (ref : SenderRef) : Bool :=
  match h.cells[ref]? with
  | none => true
  | some sender => sender.stopped

/-! ## `sendDatagrams` -/

/-- A new sender for the generation, registered and with its goroutine. -/
def startSender (h : SendHandler) (client : ConnRef) : SendHandler :=
  { h with
    senders := h.senders.put client h.cells.length
    cells := h.cells ++ [UDPSender.new client h.senderFrameLimit] }

/-- `session.sender`, or `senderFor(session.client)`.  Without a sender the
session is closed. -/
def choose (h : SendHandler) (session : SessionRef) : SendHandler :=
  if h.cancelled then h.goto .idle
  else
    match h.attached session with
    | some sender => h.goto (.checking session sender)
    | none =>
      let client := h.client session
      if h.closed || h.ended client then h.goto .idle
      else
        match h.senders.get client with
        | some sender => h.goto (.checking session sender)
        | none =>
          (h.startSender client).goto (.checking session h.cells.length)

def check (h : SendHandler) (session : SessionRef) (sender : SenderRef) :
    SendHandler :=
  if h.ended (h.client session) || h.isStopped sender then h.goto .idle
  else h.goto (.fragmenting session sender)

/-- `FragmentUDPPooled` returns `frames` datagrams, or fails. -/
def fragment (h : SendHandler) (session : SessionRef) (sender : SenderRef)
    (frames : Option Nat) : SendHandler :=
  match frames with
  | none => h.goto .idle
  | some frames =>
    { h with nextBuffer := h.nextBuffer + frames }.goto
      (.locking session sender ⟨List.range' h.nextBuffer frames⟩)

/-- The section of `sender.mu`. -/
def enqueue (h : SendHandler) (session : SessionRef) (ref : SenderRef)
    (batch : UDPSendBatch) : SendHandler :=
  match h.cells[ref]? with
  | none => h
  | some sender =>
    if h.ended (h.client session) || sender.stopped then
      h.goto (.releasing batch)
    else
      match sender.enqueueSenderLocked h.senderFrameLimit batch with
      | (.udpEnqueued, next) =>
        { h.setCell ref next with
          attached := Function.update h.attached session (some ref)
          }.goto .idle
      | (_, next) => (h.setCell ref next).goto (.releasing batch)

/-- The reader's next step; `frames` is used by `FragmentUDPPooled`. -/
def read (h : SendHandler) (frames : Option Nat) : SendHandler :=
  match h.reader with
  | .idle => h
  | .choosing session => h.choose session
  | .checking session sender => h.check session sender
  | .fragmenting session sender => h.fragment session sender frames
  | .locking session sender batch => h.enqueue session sender batch
  | .releasing batch => (h.putBuffers batch.datagrams).goto .idle

/-! ## Workers and `close` -/

/-- The buffers a sender returns, and the sender afterwards. -/
def update (h : SendHandler) (ref : SenderRef)
    (step : UDPSender → List BufferRef × UDPSender) : SendHandler :=
  match h.cells[ref]? with
  | none => h
  | some sender =>
    let (buffers, next) := step sender
    (h.setCell ref next).putBuffers buffers

/-- The worker goes to another part of its code. -/
def moveWorker (h : SendHandler) (ref : SenderRef) (worker : Worker) :
    SendHandler :=
  h.update ref fun sender => ([], { sender with worker := worker })

/-- The end of `finishSender`. -/
def leave (h : SendHandler) (ref : SenderRef) : SendHandler :=
  match h.cells[ref]? with
  | none => h
  | some sender =>
    let finished := h.setCell ref { sender with worker := .finished }
    if h.senders.get sender.client = some ref then
      { finished with senders := h.senders.delete sender.client }
    else finished

/-- The next step of `close`. -/
def closeStep (h : SendHandler) : SendHandler :=
  match h.closer with
  | .failing ref failed =>
    { h.update ref fun sender => ([], sender.stop .closer) with
      closer := .draining ref failed }
  | .draining ref failed =>
    match h.cells[ref]? with
    | none => h
    | some sender =>
      if sender.queue = [] then
        { h.setCell ref { sender with mu := none } with
          closer := .stopping (ref :: failed) }
      else h.update ref UDPSender.drain
  | _ => h

end SendHandler

/-- The steps of the reader, the workers, `close` and the outside. -/
inductive SendOp where
  | closeConn (client : ConnRef)
  | cancel
  | packet (session : SessionRef)
  | read (frames : Option Nat)
  | receive (ref : SenderRef)
  | quit (ref : SenderRef)
  | work (ref : SenderRef) (outcome : SendOutcome)
  | wake (ref : SenderRef)
  | leave (ref : SenderRef)
  | closeStarts
  | closeFails (ref : SenderRef)
  | closeStep
  | closeCancels

namespace SendHandler

def apply (h : SendHandler) : SendOp → SendHandler
  | .closeConn client =>
    { h with closedConns := insert client h.closedConns }
  | .cancel => { h with cancelled := true }
  | .packet session => h.goto (.choosing session)
  | .read frames => h.read frames
  | .receive ref => h.update ref fun sender => ([], sender.receive)
  | .quit ref => h.moveWorker ref (.failing false)
  | .work ref outcome => h.update ref fun sender => sender.work outcome
  | .wake ref => h.moveWorker ref (.failing false)
  | .leave ref => h.leave ref
  | .closeStarts => { h with closed := true, closer := .stopping [] }
  | .closeFails ref =>
    match h.closer with
    | .stopping failed => { h with closer := .failing ref failed }
    | _ => h
  | .closeStep => h.closeStep
  | .closeCancels => { h with cancelled := true, closer := .done }

/-- A property of the sender at `ref`. -/
def At (h : SendHandler) (ref : SenderRef) (holds : UDPSender → Bool) :
    Bool :=
  (h.cells[ref]?).any holds

/-- `sender.mu` is free. -/
def muFree (h : SendHandler) (ref : SenderRef) : Bool :=
  h.At ref fun sender => decide (sender.mu = none)

/-- What the reader waits for: `lifecycleMu` where it creates a sender, and
`sender.mu`.  A batch is never empty. -/
def readReady (h : SendHandler) (frames : Option Nat) : Bool :=
  match h.reader with
  | .idle => false
  | .choosing session =>
    !h.closer.holdsLifecycle || (h.attached session).isSome ||
      h.ended (h.client session)
  | .fragmenting _ _ => decide (frames ≠ some 0)
  | .locking _ sender _ => h.muFree sender
  | _ => true

/-- The senders `close` still has to stop. -/
def Unfailed (h : SendHandler) (ref : SenderRef) : Bool :=
  match h.closer with
  | .stopping failed =>
    decide (ref ∉ failed) && h.At ref fun sender =>
      decide (h.senders.get sender.client = some ref)
  | _ => false

/-- What `close` waits for. -/
def closeReady (h : SendHandler) : Bool :=
  match h.closer with
  | .failing ref _ => h.muFree ref
  | .draining _ _ => true
  | _ => false

/-- `close` has gone through all senders. -/
def stoppedAll (h : SendHandler) : Bool :=
  match h.closer with
  | .stopping _ => decide (∀ ref < h.cells.length, h.Unfailed ref = false)
  | _ => false

def Enabled (h : SendHandler) : SendOp → Prop
  | .closeConn _ => True
  | .cancel => True
  | .packet _ => h.reader = .idle
  | .read frames => h.readReady frames = true
  | .receive ref =>
    h.At ref fun sender =>
      decide (sender.worker = .selecting ∧ sender.queue ≠ [])
  | .quit ref =>
    h.At ref fun sender =>
      decide (sender.worker = .selecting) && h.ended sender.client
  | .work ref _ =>
    h.At ref fun sender => sender.working &&
      (!sender.locks || decide (sender.mu = none))
  | .wake ref =>
    h.At ref fun sender =>
      decide (sender.worker = .waiting) && h.ended sender.client
  | .leave ref =>
    h.closer.holdsLifecycle = false ∧
      h.At ref fun sender => decide (sender.worker = .leaving)
  | .closeStarts => h.closer = .notStarted
  | .closeFails ref => h.Unfailed ref = true
  | .closeStep => h.closeReady = true
  | .closeCancels => h.stoppedAll = true

instance (h : SendHandler) (op : SendOp) : Decidable (h.Enabled op) := by
  cases op <;> dsimp only [Enabled] <;> infer_instance

/-- All runs of the senders of a listener. -/
def runs : TransitionSystem SendHandler where
  initial h := ∃ frames bytes client, h = new frames bytes client
  step h next := ∃ op, h.Enabled op ∧ next = h.apply op

end SendHandler

end QMux.Traffic.Sending
