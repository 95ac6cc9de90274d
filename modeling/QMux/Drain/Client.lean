import QMux.Drain.Server

/-!
# The client side of draining one connection

One `connectionRuntime` of `client/client.go` with the goroutines that touch
it: the accept loop, the stream handlers, `processRuntime`, the control loop
of `client/server_connection.go`, and the cleanup by the transport watcher or
by a forced shutdown.  Each constructor of `ClientOp` is one atomic step; a
program counter records where the accept loop, `processRuntime` and the
control loop are.
-/

namespace QMux.Drain

/-- Where `acceptStreamsFromConnection` is. -/
inductive AcceptPC where
  | accepting
  | accepted (id : Int)
  | cancelling
  | erred
  | ungraceful
  | failing
  | returning
  | returned
deriving DecidableEq

/-- Where `processRuntime` is; `semantic` says whether its result carries a
semantic error. -/
inductive ProcessPC where
  | checking
  | requesting
  | awaitingFence
  | settingFence (fence : Int)
  | awaitingAccept
  | awaitingHandlers
  | awaitingQuiescence
  | checkingControl
  | checkingPending
  | checkingTransport
  | checkingAcceptErr
  | cleaning (semantic : Bool)
  | returned (semantic : Bool)
deriving DecidableEq

/-- Where the control loop is: in its select, writing the drain request,
before publishing that it was written, or done. -/
inductive ControlPC where
  | selecting
  | writing
  | written
  | done
deriving DecidableEq

inductive DrainEpoch where
  | notRequested
  | requestWriting
  | requestCommitted
  | completeReceived
deriving DecidableEq

/-- The epoch is at least `drainRequestCommitted`. -/
def DrainEpoch.committed : DrainEpoch → Bool
  | .notRequested => false
  | .requestWriting => false
  | .requestCommitted => true
  | .completeReceived => true

/-- The fields of a `connectionRuntime` and the contexts above it.
`acceptErr` is a channel of capacity one. -/
structure Runtime where
  fenceSet : Bool
  fence : Int
  acceptedHigh : Int
  acceptErr : Bool
  acceptCancelled : Bool
  clientForced : Bool
  runtimeForced : Bool
  transportFailed : Bool
  transportDone : Bool
deriving DecidableEq

/-- The accept loop and its handlers.  `delivered` counts the streams QUIC
has handed out, and `dispatched` lists those given to `handleStream`. -/
structure AcceptLoop where
  pc : AcceptPC
  delivered : Nat
  dispatched : List Int
  handlers : Nat
deriving DecidableEq

/-- The control loop, its reader goroutine, and the channel `drainComplete`
of capacity one. -/
structure ClientControl where
  pc : ControlPC
  drainEpoch : DrainEpoch
  requestWritten : Bool
  read : Nat
  readCh : List (Int × DrainEpoch)
  controlPending : Nat
  completeFence : Int
  drainComplete : Option Int
deriving DecidableEq

/-- `received` is the fence `processRuntime` took from `drainComplete`. -/
structure Client where
  runtime : Runtime
  accept : AcceptLoop
  control : ClientControl
  process : ProcessPC
  received : Option Int
deriving DecidableEq

/-- The ready case a `select` of `processRuntime` takes. -/
inductive Selected where
  | forced
  | acceptErr
  | controlDone
  | transportDone
  | ready
deriving DecidableEq

/-- The outcome of the checks at the start of `processRuntime`. -/
inductive Checked where
  | stale
  | unfit
  | fit
deriving DecidableEq

inductive ClientOp where
  | acceptStream
  | acceptError
  | dispatch
  | cancelAccept
  | checkGraceful
  | checkForced
  | failAccept
  | closeAcceptDone
  | handlerDone
  | check (outcome : Checked)
  | requestDrain (failed : Bool)
  | awaitFence (selected : Selected)
  | setFence
  | awaitAccept (selected : Selected)
  | awaitHandlers (selected : Selected)
  | awaitQuiescence (selected : Selected)
  | checkControl
  | checkPending
  | checkTransport
  | checkAcceptErr
  | cleanupCancel
  | cleanupDone
  | drainCommand
  | writeDrainRequest (delivered failed : Bool)
  | commitDrainRequest
  | readDrainComplete
  | handleDrainComplete
  | readOther
  | handleOther
  | controlStop
  | force
  | forceOwned
  | transportFail
  | transportClose
  | watcherCleanup
deriving DecidableEq

namespace Runtime

def graceful (runtime : Runtime) : Bool :=
  runtime.fenceSet ∧
    (runtime.fence = -1 ∨ runtime.acceptedHigh ≥ runtime.fence)

/-- `runtime.forceCtx`, a child of the client's force context. -/
def forced (runtime : Runtime) : Bool :=
  runtime.runtimeForced ∨ runtime.clientForced

/-- The first steps of `cleanupRuntime` and `forceOwned`. -/
def cancel (runtime : Runtime) : Runtime :=
  { runtime with runtimeForced := true, acceptCancelled := true }

/-- `setFence`. -/
def setFence (runtime : Runtime) (fence : Int) : Option Runtime :=
  if runtime.fenceSet ∧ runtime.fence ≠ fence then none
  else if runtime.acceptedHigh > fence then none
  else
    some { runtime with
      fenceSet := true
      fence := fence
      acceptCancelled := runtime.acceptCancelled ∨
        (fence = -1 ∨ runtime.acceptedHigh ≥ fence) }

end Runtime

namespace Client

/-- A runtime that was just installed. -/
def initial : Client where
  runtime := ⟨false, 0, -1, false, false, false, false, false, false⟩
  accept := ⟨.accepting, 0, [], 0⟩
  control := ⟨.selecting, .notRequested, false, 0, [], 0, -2, none⟩
  process := .checking
  received := none

/-! ## The accept loop -/

def acceptStream (client : Client) : Client :=
  { client with
    accept := { client.accept with
      pc := .accepted (streamID client.accept.delivered)
      delivered := client.accept.delivered + 1 } }

/-- Move the accept loop. -/
def acceptAt (client : Client) (pc : AcceptPC) : Client :=
  { client with accept := { client.accept with pc := pc } }

/-- Validate the accepted stream and, under the runtime mutex, dispatch it
unless it lies above the fence. -/
def dispatch (client : Client) : Client :=
  match client.accept.pc with
  | .accepted id =>
    if validateDrainFence id = false then client.acceptAt .failing
    else if client.runtime.fenceSet ∧ id > client.runtime.fence then
      client.acceptAt .failing
    else
      let acceptedHigh := max client.runtime.acceptedHigh id
      { client with
        runtime := { client.runtime with acceptedHigh := acceptedHigh }
        accept := { client.accept with
          pc := if client.runtime.fenceSet ∧
              acceptedHigh ≥ client.runtime.fence then .cancelling
            else .accepting
          dispatched := client.accept.dispatched ++ [id]
          handlers := client.accept.handlers + 1 } }
  | _ => client

def cancelAccept (client : Client) : Client :=
  { client.acceptAt .accepting with
    runtime := { client.runtime with acceptCancelled := true } }

def failAccept (client : Client) : Client :=
  { client.acceptAt .returning with
    runtime := { client.runtime with acceptErr := true } }

/-! ## `processRuntime` -/

/-- Move `processRuntime`. -/
def processAt (client : Client) (pc : ProcessPC) : Client :=
  { client with process := pc }

/-- Failures that a forced stop of the client explains are not semantic. -/
def failure (client : Client) : ProcessPC :=
  .cleaning (!client.runtime.clientForced)

/-- One of the selects of `processRuntime`: the four failures, and where it
continues otherwise. -/
def select (client continues : Client) : Selected → Client
  | .forced => client.processAt (.cleaning false)
  | .acceptErr =>
    { client.processAt (.cleaning true) with
      runtime := { client.runtime with acceptErr := false } }
  | .controlDone => client.processAt (.cleaning true)
  | .transportDone => client.processAt (.cleaning true)
  | .ready => continues

/-- When a case of such a select is ready. -/
def Selects (client : Client) (ready : Prop) : Selected → Prop
  | .forced => client.runtime.clientForced = true
  | .acceptErr => client.runtime.acceptErr = true
  | .controlDone => client.control.pc = .done
  | .transportDone => client.runtime.transportDone = true
  | .ready => ready

instance (client : Client) (ready : Prop) [Decidable ready]
    (selected : Selected) : Decidable (client.Selects ready selected) := by
  cases selected <;> dsimp only [Selects] <;> infer_instance

/-- Take the fence from `drainComplete`. -/
def receiveFence (client : Client) : Client :=
  match client.control.drainComplete with
  | none => client
  | some fence =>
    { client with
      control := { client.control with drainComplete := none }
      received := some fence
      process := .settingFence fence }

def setFence (client : Client) : Client :=
  match client.process with
  | .settingFence fence =>
    match client.runtime.setFence fence with
    | none => client.processAt (.cleaning true)
    | some runtime =>
      { client.processAt .awaitingAccept with runtime := runtime }
  | _ => client

def checkAcceptErr (client : Client) : Client :=
  { client.processAt (.cleaning client.runtime.acceptErr) with
    runtime := { client.runtime with acceptErr := false } }

/-- `cleanupRuntime` is over and `processRuntime` returns. -/
def cleanupDone (client : Client) : Client :=
  match client.process with
  | .cleaning semantic => client.processAt (.returned semantic)
  | _ => client

end Client

namespace ClientControl

/-! ## The control loop -/

/-- The write of the drain request; a failed one may reach the server. -/
def writeDrainRequest (control : ClientControl) (delivered failed : Bool) :
    ClientControl :=
  { control with
    requestWritten := control.requestWritten ∨ delivered ∨ failed = false
    pc := if failed then .done else .written }

/-- The reader goroutine reads the next `DrainComplete`. -/
def readDrainComplete (control : ClientControl) (sent : List Int) :
    ClientControl :=
  match sent[control.read]? with
  | none => control
  | some fence =>
    { control with
      read := control.read + 1
      readCh := control.readCh ++ [(fence, control.drainEpoch)]
      controlPending := control.controlPending + 1 }

/-- Handle the next `DrainComplete`: an unsolicited or conflicting one ends
the loop. -/
def handleDrainComplete (control : ClientControl) : ClientControl :=
  match control.readCh with
  | [] => control
  | (fence, readEpoch) :: rest =>
    let stopped := { control with readCh := rest, pc := .done }
    let handled := { control with
      readCh := rest
      controlPending := control.controlPending - 1 }
    if readEpoch = .notRequested ∨ (readEpoch = .requestWriting ∧
          control.drainEpoch.committed = false) ∨
        control.drainEpoch.committed = false then stopped
    else if control.drainEpoch = .completeReceived then
      if control.completeFence ≠ fence then stopped else handled
    else
      { handled with
        completeFence := fence
        drainEpoch := .completeReceived
        drainComplete := control.drainComplete.or (some fence) }

end ClientControl

namespace Client

/-! ## Steps -/

/-- The effect of a step; `sent` are the `DrainComplete` messages on the
control stream. -/
def apply (sent : List Int) (client : Client) : ClientOp → Client
  | .acceptStream => client.acceptStream
  | .acceptError => client.acceptAt .erred
  | .dispatch => client.dispatch
  | .cancelAccept => client.cancelAccept
  | .checkGraceful => client.acceptAt
      (if client.runtime.graceful then .returning else .ungraceful)
  | .checkForced => client.acceptAt
      (if client.runtime.forced then .returning else .failing)
  | .failAccept => client.failAccept
  | .closeAcceptDone => client.acceptAt .returned
  | .handlerDone =>
    { client with accept := { client.accept with
      handlers := client.accept.handlers - 1 } }
  | .check .stale => client.processAt (.cleaning false)
  | .check .unfit => client.processAt (.cleaning true)
  | .check .fit => client.processAt .requesting
  | .requestDrain true => client.processAt client.failure
  | .requestDrain false => client.processAt .awaitingFence
  | .awaitFence selected => client.select client.receiveFence selected
  | .setFence => client.setFence
  | .awaitAccept selected =>
    client.select (client.processAt .awaitingHandlers) selected
  | .awaitHandlers selected =>
    client.select (client.processAt .awaitingQuiescence) selected
  | .awaitQuiescence .ready => client.processAt .checkingControl
  | .awaitQuiescence _ => client.processAt client.failure
  | .checkControl => client.processAt
      (if client.control.pc = .done then client.failure else .checkingPending)
  | .checkPending => client.processAt
      (if client.control.controlPending ≠ 0 then client.failure
      else .checkingTransport)
  | .checkTransport => client.processAt
      (if client.runtime.transportDone then .cleaning true
      else .checkingAcceptErr)
  | .checkAcceptErr => client.checkAcceptErr
  | .cleanupCancel => { client with runtime := client.runtime.cancel }
  | .cleanupDone => client.cleanupDone
  | .drainCommand =>
    { client with control := { client.control with
      pc := .writing, drainEpoch := .requestWriting } }
  | .writeDrainRequest delivered failed =>
    { client with
      control := client.control.writeDrainRequest delivered failed }
  | .commitDrainRequest =>
    { client with control := { client.control with
      pc := .selecting, drainEpoch := .requestCommitted } }
  | .readDrainComplete =>
    { client with control := client.control.readDrainComplete sent }
  | .handleDrainComplete =>
    { client with control := client.control.handleDrainComplete }
  | .readOther =>
    { client with control := { client.control with
      controlPending := client.control.controlPending + 1 } }
  | .handleOther =>
    { client with control := { client.control with
      controlPending := client.control.controlPending - 1 } }
  | .controlStop =>
    { client with control := { client.control with pc := .done } }
  | .force =>
    { client with runtime := { client.runtime with clientForced := true } }
  | .forceOwned => { client with runtime := client.runtime.cancel }
  | .transportFail =>
    { client with runtime := { client.runtime with
      transportFailed := true } }
  | .transportClose =>
    { client with runtime := { client.runtime with transportDone := true } }
  | .watcherCleanup => { client with runtime := client.runtime.cancel }

/-- When a step can happen; `opened` counts the streams the server opened.
QUIC hands them out in order.  `AcceptStream` fails once its context is
cancelled or the transport has failed. -/
def Enabled (opened : Nat) (client : Client) : ClientOp → Prop
  | .acceptStream =>
    client.accept.pc = .accepting ∧ client.accept.delivered < opened
  | .acceptError => client.accept.pc = .accepting ∧
      (client.runtime.acceptCancelled = true ∨
        client.runtime.forced = true ∨ client.runtime.transportFailed = true)
  | .dispatch => True
  | .cancelAccept => client.accept.pc = .cancelling
  | .checkGraceful => client.accept.pc = .erred
  | .checkForced => client.accept.pc = .ungraceful
  | .failAccept => client.accept.pc = .failing
  | .closeAcceptDone => client.accept.pc = .returning
  | .handlerDone => 0 < client.accept.handlers
  | .check _ => client.process = .checking
  | .requestDrain failed => client.process = .requesting ∧
      (failed = true ∨ client.control.drainEpoch.committed = true)
  | .awaitFence selected => client.process = .awaitingFence ∧
      client.Selects (client.control.drainComplete ≠ none) selected
  | .setFence => True
  | .awaitAccept selected => client.process = .awaitingAccept ∧
      client.Selects (client.accept.pc = .returned) selected
  | .awaitHandlers selected => client.process = .awaitingHandlers ∧
      client.Selects (client.accept.handlers = 0) selected
  | .awaitQuiescence selected => client.process = .awaitingQuiescence ∧
      selected ≠ .acceptErr ∧ selected ≠ .transportDone ∧
      client.Selects (client.control.controlPending = 0) selected
  | .checkControl => client.process = .checkingControl
  | .checkPending => client.process = .checkingPending
  | .checkTransport => client.process = .checkingTransport
  | .checkAcceptErr => client.process = .checkingAcceptErr
  | .cleanupCancel =>
    client.process = .cleaning true ∨ client.process = .cleaning false
  | .cleanupDone => client.runtime.runtimeForced = true ∧
      client.accept.pc = .returned ∧ client.accept.handlers = 0
  | .drainCommand => client.process ≠ .checking ∧
      client.control.pc = .selecting ∧
      client.control.drainEpoch = .notRequested
  | .writeDrainRequest _ _ => client.control.pc = .writing
  | .commitDrainRequest => client.control.pc = .written
  | .readDrainComplete => True
  | .handleDrainComplete => client.control.pc = .selecting
  | .readOther => True
  | .handleOther => client.control.pc = .selecting
  | .controlStop => True
  | .force => True
  | .forceOwned => client.runtime.clientForced = true
  | .transportFail => True
  | .transportClose => True
  | .watcherCleanup => client.runtime.transportDone = true

instance (opened : Nat) (client : Client) (op : ClientOp) :
    Decidable (client.Enabled opened op) := by
  cases op <;> dsimp only [Enabled] <;> infer_instance

end Client

end QMux.Drain
