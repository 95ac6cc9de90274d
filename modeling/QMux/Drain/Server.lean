import QMux.Pool.DrainSignal

/-!
# The server side of draining one generation

One generation of the pool with the flows that hold leases on it and its
control loop (`handleControlStream` in `server/server.go`).  A flow obtains a
lease, opens streams on the generation's connection, passes every stream it
opened to `RecordStream`, and only then releases the lease
(`handleTCPConnection` in `server/traffic/tcp.go`).  Everything else the
server does to the pool happens at any time.

The control loop runs from the start here; in the source it starts once the
generation is registered, which only removes runs.
-/

namespace QMux.Drain

open Support Pool

/-- The `n`-th bidirectional stream a QUIC server opens on a connection. -/
def streamID (n : Nat) : Int := 4 * n + 1

/-- The largest value of a QUIC variable-length integer. -/
def quicVarintMax : Int := 2 ^ 62 - 1

/-- `protocol.ValidateDrainFence`. -/
def validateDrainFence (fence : Int) : Bool :=
  fence = -1 ∨ (fence ≥ 1 ∧ fence ≤ quicVarintMax ∧ fence % 4 = 1)

/-- Progress of a `RecordStream` call: about to load the current maximum,
about to replace the loaded one, or about to set the opened flag. -/
inductive Recording where
  | load (streamID : Int)
  | compareAndSwap (streamID current : Int)
  | storeOpened (streamID : Int)
deriving DecidableEq

/-- The argument of the call. -/
def Recording.streamID : Recording → Int
  | .load streamID => streamID
  | .compareAndSwap streamID _ => streamID
  | .storeOpened streamID => streamID

/-- The call has not yet passed its maximum loop. -/
def Recording.Raising : Recording → Prop
  | .storeOpened _ => False
  | _ => True

/-- The holder of one lease: the streams it opened and has not passed to
`RecordStream`, and its call in progress. -/
structure Flow where
  unrecorded : List Int
  recording : Option Recording
deriving DecidableEq

def Flow.idle : Flow := ⟨[], none⟩

/-- In its loop, past the loop but before the deferred retirement, or
returned. -/
inductive ControlPhase where
  | running
  | returning
  | returned
deriving DecidableEq

/-- The local variables of `handleControlStream`; `writing` is a fence taken
from the channel and not yet written. -/
structure ServerControl where
  phase : ControlPhase
  retirement : Option RetirementRef
  tcpDrained : Option RetirementRef
  writing : Option Int
deriving DecidableEq

/-- `opened` counts the streams opened on the generation's connection,
`recorded` lists the arguments of all `RecordStream` calls, and `sent` the
`DrainComplete` messages on the control stream. -/
structure Server (σ : Type*) where
  pool : ConnectionPool σ
  flows : LeaseRef → Flow
  opened : Nat
  recorded : List Int
  control : ServerControl
  sent : List Int

inductive ServerOp where
  | pool (op : Op)
  | openStream (lease : LeaseRef)
  | recordStream (lease : LeaseRef)
  | recordStep (lease : LeaseRef)
  | drainRequest
  | receiveFence
  | writeDrainComplete (delivered failed : Bool)
  | stop
  | finish
deriving DecidableEq

namespace Server

variable {σ : Type*} (gen : ConnRef)

def setFlow (server : Server σ) (lease : LeaseRef) (flow : Flow) : Server σ :=
  { server with flows := Function.update server.flows lease flow }

/-- One atomic step of `RecordStream` on the generation. -/
def recordStep (pool : ConnectionPool σ) :
    Recording → Option Recording × ConnectionPool σ
  | .load streamID =>
    let current := (pool.conns gen).tcpStreamID
    if streamID > current then
      (some (.compareAndSwap streamID current), pool)
    else (some (.storeOpened streamID), pool)
  | .compareAndSwap streamID current =>
    match pool.compareAndSwapStreamID gen current streamID with
    | (true, swapped) => (some (.storeOpened streamID), swapped)
    | (false, unchanged) => (some (.load streamID), unchanged)
  | .storeOpened _ => (none, pool.storeTCPOpened gen)

/-- A `DrainRequest` retires the generation once; a stale one ends the
loop. -/
def drainRequest (server : Server σ) : Server σ :=
  match server.control.retirement with
  | some _ => server
  | none =>
    let (retirement, pool) := server.pool.beginRetire gen
    { server with
      pool := pool
      control := match retirement with
        | none => { server.control with phase := .returning }
        | some ref => { server.control with
            retirement := some ref
            tcpDrained := some ref } }

/-- Take the fence from the armed channel, if it is there. -/
def receiveFence (server : Server σ) : Server σ :=
  match server.control.tcpDrained with
  | none => server
  | some ref =>
    let (received, pool) := server.pool.receiveTCPDrained ref
    { server with
      pool := pool
      control := match received with
        | none => server.control
        | some fence => { server.control with
            tcpDrained := none
            writing := some fence } }

/-- The loop ends: its context or connection is done, a read, a heartbeat or
the peer's health failed, or a message was invalid. -/
def stop (server : Server σ) : Server σ :=
  { server with
    control := { server.control with phase := .returning, writing := none } }

/-- Validate and write `DrainComplete`.  A failed write ends the loop and may
still have reached the peer. -/
def writeDrainComplete (server : Server σ) (delivered failed : Bool) :
    Server σ :=
  match server.control.writing with
  | none => server
  | some fence =>
    if validateDrainFence fence = false then server.stop
    else
      let written := { server with
        control := { server.control with writing := none }
        sent := if delivered ∨ failed = false then server.sent ++ [fence]
          else server.sent }
      if failed then written.stop else written

/-- The deferred function retires a generation that the loop did not. -/
def finish (server : Server σ) : Server σ :=
  match server.control.retirement with
  | some _ =>
    { server with control := { server.control with phase := .returned } }
  | none =>
    let (retirement, pool) := server.pool.beginRetire gen
    { server with
      pool := pool
      control := { server.control with
        phase := .returned
        retirement := retirement } }

/-- `OpenStream` on the generation's connection. -/
def openStream (server : Server σ) (lease : LeaseRef) : Server σ :=
  { server.setFlow lease { server.flows lease with
      unrecorded := (server.flows lease).unrecorded ++
        [streamID server.opened] } with
    opened := server.opened + 1 }

/-- Call `RecordStream` with the next opened stream. -/
def recordStream (server : Server σ) (lease : LeaseRef) : Server σ :=
  match (server.flows lease).unrecorded with
  | [] => server
  | id :: rest =>
    { server.setFlow lease ⟨rest, some (.load id)⟩ with
      recorded := server.recorded ++ [id] }

/-- The next atomic step of the flow's `RecordStream` call. -/
def advanceRecord (server : Server σ) (lease : LeaseRef) : Server σ :=
  match (server.flows lease).recording with
  | none => server
  | some recording =>
    { server.setFlow lease { server.flows lease with
        recording := (recordStep gen server.pool recording).1 } with
      pool := (recordStep gen server.pool recording).2 }

def apply (server : Server σ) : ServerOp → Server σ
  | .pool op => { server with pool := server.pool.apply op }
  | .openStream lease => server.openStream lease
  | .recordStream lease => server.recordStream lease
  | .recordStep lease => server.advanceRecord gen lease
  | .drainRequest => server.drainRequest gen
  | .receiveFence => server.receiveFence
  | .writeDrainComplete delivered failed =>
    server.writeDrainComplete delivered failed
  | .stop => server.stop
  | .finish => server.finish gen

/-- Operations of other parts of the server.  Only `RecordStream` writes the
streams of the generation, only the control loop receives from the channels
of its retirements, and a flow has recorded what it opened when it releases
its lease. -/
def Foreign (server : Server σ) : Op → Prop
  | .compareAndSwapStreamID conn _ _ => conn ≠ gen
  | .storeTCPOpened conn => conn ≠ gen
  | .receiveTCPDrained ref =>
    ∀ cell ∈ server.pool.retirementCells[ref]?, cell.conn ≠ gen
  | .releaseLease lease => server.flows lease = .idle
  | _ => True

instance (server : Server σ) (op : Op) :
    Decidable (server.Foreign gen op) := by
  apply @Op.casesOn (fun op => Decidable (server.Foreign gen op)) op <;>
    dsimp only [Foreign] <;> infer_instance

/-- When an operation can happen. -/
def Enabled (server : Server σ) : ServerOp → Prop
  | .pool op => server.pool.Enabled op ∧ server.Foreign gen op
  | .openStream lease =>
    server.pool.Outstanding gen lease ∧ streamID server.opened ≤ quicVarintMax
  | .recordStream lease => (server.flows lease).recording = none
  | .recordStep _ => True
  | .drainRequest =>
    server.control.phase = .running ∧ server.control.writing = none
  | .receiveFence =>
    server.control.phase = .running ∧ server.control.writing = none
  | .writeDrainComplete _ _ => server.control.phase = .running
  | .stop => server.control.phase = .running
  | .finish => server.control.phase = .returning

instance (server : Server σ) (op : ServerOp) :
    Decidable (server.Enabled gen op) := by
  cases op <;> dsimp only [Enabled] <;> infer_instance

/-- A new pool, no streams, and a control loop that saw no request. -/
def Initial (server : Server σ) : Prop :=
  server.pool.Fresh ∧ (∀ lease, server.flows lease = .idle) ∧
    server.opened = 0 ∧ server.recorded = [] ∧
    server.control = ⟨.running, none, none, none⟩ ∧ server.sent = []

def Step (server next : Server σ) : Prop :=
  ∃ op, server.Enabled gen op ∧ next = server.apply gen op

/-- All runs of the server around one generation. -/
def runs (σ : Type*) (gen : ConnRef) : TransitionSystem (Server σ) where
  initial := Initial
  step := Step gen

end Server

end QMux.Drain
