import Mathlib.Data.Finset.Card
import QMux.Support.Cells
import QMux.Support.Transition

/-!
# TCP listener admission

Embedding of the admission part of `server/traffic/tcp.go` and of
`Listener.close`.  Sockets are the cells of a list, in the order of
acceptance.  Each lock section and each channel operation is one action; the
setup loop of a handler is represented by what it can do to the admission
state: abort the flow, activate the permit, or return with some terminal
result.
-/

namespace QMux.Traffic

open Support

inductive TCPTerminalResult where
  | committed
  | flowCapacity
  | listenerCapacity
  | unavailable
  | generationConnectionCapacity
  | generationSetupCapacity
  | peerStreamLimit
  | deadline
  | setupFailure
  | canceled
deriving DecidableEq

/-- `tcpAdmissionStats`: the gauges under its mutex and the terminal
counters. -/
structure TCPAdmissionStats where
  flowCurrent : Int
  flowHighWater : Int
  setupCurrent : Int
  setupHighWater : Int
  activeCurrent : Int
  activeHighWater : Int
  terminals : TCPTerminalResult → Nat

namespace TCPAdmissionStats

def finish (stats : TCPAdmissionStats) (result : TCPTerminalResult) :
    TCPAdmissionStats :=
  { stats with
    terminals := Function.update stats.terminals result
      (stats.terminals result + 1) }

def finishActive (stats : TCPAdmissionStats) : TCPAdmissionStats :=
  { stats with activeCurrent := stats.activeCurrent - 1 }

end TCPAdmissionStats

/-- Where `handleTCPConnection` is.  From `unwinding` on the deferred calls
run, last one first. -/
inductive HandlerStage where
  | setup
  | activated
  | relaying
  | unwinding
  | closing
  | releasing
  | finishing
  | removing
deriving DecidableEq

/-- The variables of `handleTCPConnection`: whether the permit's `once` has
run, whether the flow is active, the terminal result, and whether
`finishTerminal` has run. -/
structure TCPHandler where
  stage : HandlerStage
  permitUsed : Bool
  active : Bool
  terminal : TCPTerminalResult
  finished : Bool
deriving DecidableEq

/-- A socket in the accept loop and in its handler. -/
inductive SocketPhase where
  | accepted
  | refused
  | added
  | overCapacity
  | overCounted
  | overClosed
  | handling (handler : TCPHandler)
  | removed
deriving DecidableEq

/-- One accepted socket with its flow.  `results` are the terminal results
counted for it. -/
structure TCPSocket where
  phase : SocketPhase
  connClosed : Bool
  aborted : Bool
  results : List TCPTerminalResult
deriving DecidableEq

/-- `tcpFlow.abort`. -/
def TCPSocket.abort (socket : TCPSocket) : TCPSocket :=
  if socket.aborted then socket
  else { socket with aborted := true, connClosed := true }

/-- `Listener.close`: not called, the listening socket closed, the flows of
the map at the time of marking still to abort, finished. -/
inductive ListenerClose where
  | opened
  | unbound
  | aborting (todo : Finset Nat)
  | done
deriving DecidableEq

structure TCPListener where
  tcpFlowLimit : Nat
  tcpSetupLimit : Nat
  /-- Occupancy of the setup slot channel. -/
  tcpSetupSlots : Nat
  tcpAdmission : TCPAdmissionStats
  flows : Finset Nat
  flowsClosing : Bool
  sockets : List TCPSocket
  close : ListenerClose

namespace TCPListener

def new (flowLimit setupLimit : Nat) : TCPListener :=
  { tcpFlowLimit := flowLimit
    tcpSetupLimit := setupLimit
    tcpSetupSlots := 0
    tcpAdmission :=
      { flowCurrent := 0
        flowHighWater := 0
        setupCurrent := 0
        setupHighWater := 0
        activeCurrent := 0
        activeHighWater := 0
        terminals := fun _ => 0 }
    flows := ∅
    flowsClosing := false
    sockets := []
    close := .opened }

variable (l : TCPListener)

def put (index : Nat) (socket : TCPSocket) : TCPListener :=
  { l with sockets := l.sockets.set index socket }

/-- Count a terminal result for a socket. -/
def finish (index : Nat) (socket : TCPSocket) (result : TCPTerminalResult) :
    TCPListener :=
  { l with
    tcpAdmission := l.tcpAdmission.finish result
    sockets := l.sockets.set index
      { socket with results := socket.results ++ [result] } }

def addTCPFlow (index : Nat) (socket : TCPSocket) : TCPListener :=
  if l.flowsClosing then
    l.put index { socket.abort with phase := .refused }
  else if l.flows.card ≥ l.tcpFlowLimit then
    l.finish index { socket.abort with phase := .refused } .flowCapacity
  else
    { l with
      flows := insert index l.flows
      tcpAdmission := { l.tcpAdmission with
        flowCurrent := l.tcpAdmission.flowCurrent + 1
        flowHighWater := max l.tcpAdmission.flowHighWater
          (l.tcpAdmission.flowCurrent + 1) }
      sockets := l.sockets.set index { socket with phase := .added } }

def acquireTCPSetup (index : Nat) (socket : TCPSocket) : TCPListener :=
  if l.tcpSetupSlots < l.tcpSetupLimit then
    { l with
      tcpSetupSlots := l.tcpSetupSlots + 1
      tcpAdmission := { l.tcpAdmission with
        setupCurrent := l.tcpAdmission.setupCurrent + 1
        setupHighWater := max l.tcpAdmission.setupHighWater
          (l.tcpAdmission.setupCurrent + 1) }
      sockets := l.sockets.set index
        { socket with
          phase := .handling
            { stage := .setup
              permitUsed := false
              active := false
              terminal := .setupFailure
              finished := false } } }
  else l.put index { socket with phase := .overCapacity }

def removeTCPFlow (index : Nat) (socket : TCPSocket) : TCPListener :=
  if index ∈ l.flows then
    { l with
      flows := l.flows.erase index
      tcpAdmission := { l.tcpAdmission with
        flowCurrent := l.tcpAdmission.flowCurrent - 1 }
      sockets := l.sockets.set index { socket with phase := .removed } }
  else l.put index { socket with phase := .removed }

/-- `tcpSetupPermit.release`, with the handler it returns to. -/
def release (index : Nat) (socket : TCPSocket) (handler : TCPHandler) :
    TCPListener :=
  let next : TCPSocket := { socket with
      phase := .handling { handler with
        stage := .finishing, permitUsed := true } }
  if handler.permitUsed then l.put index next
  else
    { l with
      tcpSetupSlots := l.tcpSetupSlots - 1
      tcpAdmission := { l.tcpAdmission with
        setupCurrent := l.tcpAdmission.setupCurrent - 1 }
      sockets := l.sockets.set index next }

/-- `tcpSetupPermit.activate`, with the assignments that follow it. -/
def activate (index : Nat) (socket : TCPSocket) (handler : TCPHandler) :
    TCPListener :=
  let next : TCPSocket := { socket with
      phase := .handling { handler with
        stage := .activated
        permitUsed := true
        active := true
        terminal := .committed } }
  if handler.permitUsed then l.put index next
  else
    { l with
      tcpSetupSlots := l.tcpSetupSlots - 1
      tcpAdmission := { l.tcpAdmission with
        setupCurrent := l.tcpAdmission.setupCurrent - 1
        activeCurrent := l.tcpAdmission.activeCurrent + 1
        activeHighWater := max l.tcpAdmission.activeHighWater
          (l.tcpAdmission.activeCurrent + 1) }
      sockets := l.sockets.set index next }

/-- `finishTerminal`, a `sync.OnceFunc`. -/
def finishTerminal (index : Nat) (socket : TCPSocket) (handler : TCPHandler)
    (stage : HandlerStage) : TCPListener :=
  let next : TCPSocket := { socket with
      phase := .handling { handler with stage := stage, finished := true } }
  if handler.finished then l.put index next
  else l.finish index next handler.terminal

/-- The deferred function that lowers the active gauge. -/
def leave (index : Nat) (socket : TCPSocket) (handler : TCPHandler) :
    TCPListener :=
  let next : TCPSocket :=
    { socket with phase := .handling { handler with stage := .closing } }
  if handler.active then
    { l with
      tcpAdmission := l.tcpAdmission.finishActive
      sockets := l.sockets.set index next }
  else l.put index next

/-- The next action on a socket.  `returns` is the terminal result of a setup
that fails, and nothing when it succeeds. -/
def advance (index : Nat) (socket : TCPSocket)
    (returns : Option TCPTerminalResult) : TCPListener :=
  match socket.phase with
  | .accepted => l.addTCPFlow index socket
  | .added => l.acquireTCPSetup index socket
  | .overCapacity =>
    l.finish index { socket with phase := .overCounted } .listenerCapacity
  | .overCounted =>
    l.put index { socket with phase := .overClosed, connClosed := true }
  | .overClosed => l.removeTCPFlow index socket
  | .handling handler =>
    match handler.stage with
    | .setup =>
      match returns with
      | some terminal =>
        l.put index { socket with
          phase := .handling { handler with
            stage := .unwinding, terminal := terminal } }
      | none => l.activate index socket handler
    | .activated => l.finishTerminal index socket handler .relaying
    | .relaying =>
      l.put index { socket with
        phase := .handling { handler with stage := .unwinding } }
    | .unwinding => l.leave index socket handler
    | .closing =>
      l.put index { socket with
        connClosed := true
        phase := .handling { handler with stage := .releasing } }
    | .releasing => l.release index socket handler
    | .finishing => l.finishTerminal index socket handler .removing
    | .removing => l.removeTCPFlow index socket
  | .refused | .removed => l

inductive Op where
  | accept
  | advance (index : Nat) (returns : Option TCPTerminalResult)
  | abort (index : Nat)
  | close (index : Nat)

/-- The channel receive of a permit would block. -/
def Blocks (handler : TCPHandler) (returns : Option TCPTerminalResult) :
    Prop :=
  handler.permitUsed = false ∧ l.tcpSetupSlots = 0 ∧
    (handler.stage = .releasing ∨ (handler.stage = .setup ∧ returns = none))

instance (handler : TCPHandler) (returns : Option TCPTerminalResult) :
    Decidable (l.Blocks handler returns) :=
  inferInstanceAs (Decidable (_ ∧ _))

/-- An action can happen: a socket has one left and does not wait for a slot,
a handler is there to abort its flow, `close` has a flow to abort. -/
def Enabled : Op → Prop
  | .accept => True
  | .advance index returns =>
    match l.sockets[index]? with
    | none => False
    | some socket =>
      match socket.phase with
      | .refused | .removed => False
      | .handling handler => ¬l.Blocks handler returns
      | _ => True
  | .abort index =>
    match l.sockets[index]? with
    | none => False
    | some socket =>
      match socket.phase with
      | .handling _ => True
      | _ => False
  | .close index =>
    match l.close with
    | .opened | .unbound => True
    | .aborting todo => todo = ∅ ∨ index ∈ todo
    | .done => False

instance (op : Op) : Decidable (l.Enabled op) := by
  cases op <;> unfold Enabled <;> (try dsimp only) <;> repeat' split
  all_goals infer_instance

/-- The next action of `close`; `index` is the flow it takes from its list. -/
def closeStep (index : Nat) : TCPListener :=
  match l.close with
  | .opened => { l with close := .unbound }
  | .unbound => { l with flowsClosing := true, close := .aborting l.flows }
  | .aborting todo =>
    if todo = ∅ then { l with close := .done }
    else
      match l.sockets[index]? with
      | none => l
      | some socket =>
        { l with
          close := .aborting (todo.erase index)
          sockets := l.sockets.set index socket.abort }
  | .done => l

def apply : Op → TCPListener
  | .accept =>
    { l with
      sockets := l.sockets ++
        [{ phase := .accepted, connClosed := false, aborted := false
           results := [] }] }
  | .advance index returns =>
    match l.sockets[index]? with
    | none => l
    | some socket => l.advance index socket returns
  | .abort index =>
    match l.sockets[index]? with
    | none => l
    | some socket => l.put index socket.abort
  | .close index => l.closeStep index

/-- The runs of a listener. -/
def system (flowLimit setupLimit : Nat) : TransitionSystem TCPListener where
  initial l := l = new flowLimit setupLimit
  step before after := ∃ op, before.Enabled op ∧ after = before.apply op

end TCPListener

end QMux.Traffic
