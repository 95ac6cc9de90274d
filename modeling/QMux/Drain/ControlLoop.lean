import QMux.Drain.Client

/-!
# The drain epoch of the control loop

`heartbeatLoop` of `client/server_connection.go` with its reader goroutine,
one drain command, and a server that sends any control messages.  Where the
model of the whole client reads, samples and announces a message in one step,
here every access to `drainEpoch` and `controlPending` is a step of its own.
-/

namespace QMux.Drain

open Support

/-! ## Control messages -/

/-- A token of a payload; a number carries its value if that is an `int64`. -/
inductive DrainToken where
  | beginObject
  | endObject
  | string (value : String)
  | number (value : Option Int)
  | other
deriving DecidableEq

inductive DrainDecodeError where
  | readToken
  | notObject
  | missingAcceptFence
  | unknownMember
  | notInteger
  | invalidAcceptFence
  | notClosed
  | trailing
  | invalidFence
deriving DecidableEq

/-- The tokens of a payload; `none` is a syntax error. -/
abbrev DrainTokens := List (Option DrainToken)

def readToken :
    DrainTokens → Except DrainDecodeError (DrainToken × DrainTokens)
  | some token :: rest => .ok (token, rest)
  | _ => .error .readToken

def drainObjectStart (tokens : DrainTokens) :
    Except DrainDecodeError DrainTokens := do
  let (token, rest) ← readToken tokens
  if token ≠ .beginObject then throw .notObject
  return rest

def drainObjectEnd (tokens : DrainTokens) :
    Except DrainDecodeError Unit := do
  let (token, rest) ← readToken tokens
  if token ≠ .endObject then throw .notClosed
  if rest ≠ [] then throw .trailing

def decodeDrainComplete (payload : DrainTokens) :
    Except DrainDecodeError Int := do
  let rest ← drainObjectStart payload
  let (name, rest) ← readToken rest
  if name = .endObject then throw .missingAcceptFence
  if name ≠ .string "AcceptFence" then throw .unknownMember
  let (value, rest) ← readToken rest
  match value with
  | .number (some acceptFence) =>
    drainObjectEnd rest
    if validateDrainFence acceptFence = false then throw .invalidFence
    return acceptFence
  | .number none => throw .invalidAcceptFence
  | _ => throw .notInteger

inductive ControlMsgType where
  | heartbeat
  | drainRequest
  | drainComplete
  | unknown
deriving DecidableEq

structure ControlMessage where
  msgType : ControlMsgType
  payload : DrainTokens
deriving DecidableEq

/-- `controlReadResult`; `early` records that it was sampled before the loop
took the drain command. -/
structure ControlReadResult where
  msgType : ControlMsgType
  err : Bool
  drain : Int
  drainEpoch : DrainEpoch
  early : Bool
deriving DecidableEq

/-- What the reader makes of a message before it samples the epoch. -/
def readResult (message : ControlMessage) : ControlReadResult :=
  let (err, drain) : Bool × Int :=
    match message.msgType, decodeDrainComplete message.payload with
    | .drainComplete, .ok fence => (false, fence)
    | .drainComplete, .error _ => (true, 0)
    | _, _ => (false, 0)
  ⟨message.msgType, err, drain, .notRequested, false⟩

def readError : ControlReadResult := ⟨.unknown, true, 0, .notRequested, false⟩

/-! ## The loop and its reader -/

/-- Where the reader is. -/
inductive ReaderPC where
  | reading
  | sampling (result : ControlReadResult)
  | announcing (result : ControlReadResult)
  | offering (result : ControlReadResult)
  | returned
deriving DecidableEq

namespace ReaderPC

/-- The sampled message in the reader's hands. -/
@[simp] def held : ReaderPC → List ControlReadResult
  | .announcing result | .offering result => [result]
  | _ => []

/-- The message read but not sampled. -/
@[simp] def unsampled : ReaderPC → List ControlMsgType
  | .sampling result => [result.msgType]
  | _ => []

/-- The announced messages that the reader still offers. -/
@[simp] def offered : ReaderPC → Nat
  | .offering _ => 1
  | _ => 0

end ReaderPC

/-- Why the loop returned; only `cancelled` is no error. -/
inductive LoopEnd where
  | cancelled
  | drainRequestFailed
  | heartbeatFailed
  | readFailed
  | unsolicited
  | conflicting
  | wrongDirection
  | timedOut
deriving DecidableEq

/-- Where the loop is. -/
inductive LoopPC where
  | selecting
  | commanded
  | writing
  | written
  | handling (result : ControlReadResult)
  | finishing
  | ended (reason : LoopEnd)
deriving DecidableEq

namespace LoopPC

/-- The message in the loop's hands. -/
@[simp] def held : LoopPC → List ControlReadResult
  | .handling result => [result]
  | _ => []

@[simp] def running : LoopPC → Bool
  | .ended _ => false
  | _ => true

/-- The messages that the loop has received and not finished. -/
@[simp] def unfinished : LoopPC → Nat
  | .handling _ | .finishing => 1
  | _ => 0

end LoopPC

/-- The one drain command. -/
inductive Command where
  | unsent
  | queued
  | taken
deriving DecidableEq

/-- The connection as the loop, its reader and the server see it.  The
channels `readCh` and `drainComplete` have capacity one.  The last fields are
a record of the run: how many messages were announced, withdrawn and handled
to the end, the `DrainComplete` messages accepted, and the fences delivered. -/
structure ControlLoop where
  wire : List ControlMessage
  requestReceived : Bool
  ctxDone : Bool
  command : Command
  drainEpoch : DrainEpoch
  controlPending : Int
  reader : ReaderPC
  readCh : Option ControlReadResult
  loop : LoopPC
  completeFence : Int
  drainComplete : Option Int
  announced : Nat
  withdrawn : Nat
  finished : Nat
  accepted : List ControlReadResult
  delivered : List Int
deriving DecidableEq

/-- The steps; those of the reader and of the loop name the message they are
at. -/
inductive ControlOp where
  | send (message : ControlMessage)
  | requestDrain
  | cancel
  | read (message : ControlMessage)
  | readError
  | sample (result : ControlReadResult)
  | announce (result : ControlReadResult)
  | offer (result : ControlReadResult)
  | withdraw (result : ControlReadResult)
  | stop
  | takeCommand
  | storeWriting
  | writeDrainRequest (received failed : Bool)
  | storeCommitted
  | heartbeatError
  | receive (result : ControlReadResult)
  | handle (result : ControlReadResult)
  | controlReadDone
  | timeout
  | receiveFence
deriving DecidableEq

namespace ControlLoop

def initial : ControlLoop :=
  ⟨[], false, false, .unsent, .notRequested, 0, .reading, none, .selecting, -2,
    none, 0, 0, 0, [], []⟩

variable (s : ControlLoop) (result : ControlReadResult)

@[simp] def endWith (reason : LoopEnd) : ControlLoop :=
  { s with loop := .ended reason }

@[simp] def accept : ControlLoop :=
  { s with loop := .finishing, accepted := s.accepted ++ [result] }

/-- The first accepted `DrainComplete`, with the send that may not block. -/
@[simp] def acceptFirst : ControlLoop :=
  { s.accept result with
    completeFence := result.drain
    drainEpoch := .completeReceived
    drainComplete := s.drainComplete.or (some result.drain)
    delivered := if s.drainComplete = none then s.delivered ++ [result.drain]
      else s.delivered }

def handleDrainComplete : ControlLoop :=
  if result.drainEpoch = .notRequested ∨
      (result.drainEpoch = .requestWriting ∧ s.drainEpoch.committed = false) ∨
      s.drainEpoch.committed = false then s.endWith .unsolicited
  else if s.drainEpoch = .completeReceived then
    if s.completeFence ≠ result.drain then s.endWith .conflicting
    else s.accept result
  else s.acceptFirst result

def handle : ControlLoop :=
  if result.err then s.endWith .readFailed
  else
    match result.msgType with
    | .heartbeat | .unknown => { s with loop := .finishing }
    | .drainComplete => s.handleDrainComplete result
    | .drainRequest => s.endWith .wrongDirection

def sampled : ControlReadResult :=
  { result with drainEpoch := s.drainEpoch, early := s.command ≠ .taken }

/-- The effect of a step.  A drain request whose write fails may still reach
the server, and a read error is the reader's last result. -/
def apply : ControlOp → ControlLoop
  | .send message => { s with wire := s.wire ++ [message] }
  | .requestDrain => { s with command := .queued }
  | .cancel => { s with ctxDone := true }
  | .read message =>
    { s with
      wire := s.wire.tail
      reader := .sampling (readResult message) }
  | .readError => { s with reader := .sampling readError }
  | .sample result => { s with reader := .announcing (s.sampled result) }
  | .announce result =>
    { s with
      reader := .offering result
      controlPending := s.controlPending + 1
      announced := s.announced + 1 }
  | .offer result =>
    { s with
      reader := if result.err then .returned else .reading
      readCh := some result }
  | .withdraw _ =>
    { s with
      reader := .returned
      controlPending := s.controlPending - 1
      withdrawn := s.withdrawn + 1 }
  | .stop => s.endWith .cancelled
  | .takeCommand => { s with command := .taken, loop := .commanded }
  | .storeWriting => { s with drainEpoch := .requestWriting, loop := .writing }
  | .writeDrainRequest received failed =>
    { s with
      requestReceived := s.requestReceived ∨ received ∨ failed = false
      loop := if failed then .ended .drainRequestFailed else .written }
  | .storeCommitted =>
    { s with drainEpoch := .requestCommitted, loop := .selecting }
  | .heartbeatError => s.endWith .heartbeatFailed
  | .receive result => { s with readCh := none, loop := .handling result }
  | .handle result => s.handle result
  | .controlReadDone =>
    { s with
      loop := .selecting
      controlPending := s.controlPending - 1
      finished := s.finished + 1 }
  | .timeout => s.endWith .timedOut
  | .receiveFence => { s with drainComplete := none }

/-- When a step can happen.  A server that `answers` sends `DrainComplete`
only after it has received the request. -/
def Enabled (answers : Bool) : ControlOp → Prop
  | .send message => answers = true → message.msgType = .drainComplete →
      s.requestReceived = true
  | .requestDrain => s.command = .unsent
  | .read message => s.reader = .reading ∧ s.wire.head? = some message
  | .readError => s.reader = .reading
  | .sample result => s.reader = .sampling result
  | .announce result => s.reader = .announcing result
  | .offer result => s.reader = .offering result ∧ s.readCh = none
  | .withdraw result => s.reader = .offering result ∧
      (s.ctxDone = true ∨ s.loop.running = false)
  | .stop => s.loop = .selecting ∧ s.ctxDone = true
  | .takeCommand => s.loop = .selecting ∧ s.command = .queued
  | .storeWriting => s.loop = .commanded
  | .writeDrainRequest _ _ => s.loop = .writing
  | .storeCommitted => s.loop = .written
  | .heartbeatError | .timeout => s.loop = .selecting
  | .receive result => s.loop = .selecting ∧ s.readCh = some result
  | .handle result => s.loop = .handling result
  | .controlReadDone => s.loop = .finishing
  | .cancel | .receiveFence => True

instance (answers : Bool) (op : ControlOp) :
    Decidable (s.Enabled answers op) := by
  cases op <;> dsimp only [Enabled] <;> infer_instance

def runs (answers : Bool) : TransitionSystem ControlLoop where
  initial s := s = initial
  step s next := ∃ op, s.Enabled answers op ∧ next = s.apply op

/-- The sampled messages on their way through the loop, oldest first. -/
def held : List ControlReadResult :=
  s.loop.held ++ s.readCh.toList ++ s.reader.held

/-- The messages on the stream or read, and not sampled. -/
def unsampled : List ControlMsgType :=
  s.reader.unsampled ++ s.wire.map (·.msgType)

/-- The messages offered by the reader, in `readCh` and with the loop. -/
def outstanding : Nat :=
  s.reader.offered + s.readCh.toList.length + s.loop.unfinished

/-- The epoch for each place of the command and of the loop. -/
def Stage : Prop :=
  match s.command, s.loop with
  | .taken, .commanded => s.drainEpoch = .notRequested
  | .taken, .writing | .taken, .written => s.drainEpoch = .requestWriting
  | .taken, .ended _ => True
  | .taken, _ => s.drainEpoch.committed = true
  | _, .commanded | _, .writing | _, .written => False
  | _, _ => s.drainEpoch = .notRequested

variable {s result} {answers : Bool} {op : ControlOp}

/-! ## One step -/

/-- What the loop makes of a message it handles. -/
inductive Handles (s : ControlLoop) (result : ControlReadResult) :
    ControlLoop → Prop where
  | fails (reason : LoopEnd)
      (cause : reason = .unsolicited → result.msgType = .drainComplete ∧
        (result.drainEpoch = .notRequested ∨ s.drainEpoch.committed = false)) :
      Handles s result (s.endWith reason)
  | ignores : Handles s result { s with loop := .finishing }
  | repeats (solicited : result.drainEpoch ≠ .notRequested)
      (complete : s.drainEpoch = .completeReceived)
      (same : s.completeFence = result.drain) :
      Handles s result (s.accept result)
  | accepts (solicited : result.drainEpoch ≠ .notRequested)
      (committed : s.drainEpoch = .requestCommitted) :
      Handles s result (s.acceptFirst result)

theorem handle_handles : Handles s result (s.handle result) := by
  unfold handle
  split_ifs
  · exact .fails _ nofun
  split
  · exact .ignores
  · exact .ignores
  · rename_i complete
    unfold handleDrainComplete
    split_ifs with refused received same
    · exact .fails _ fun _ => ⟨complete, by tauto⟩
    · exact .fails _ nofun
    · exact .repeats (by tauto) received (of_not_not same)
    · refine .accepts (by tauto) ?_
      cases epoch : s.drainEpoch <;> simp_all [DrainEpoch.committed]
  · exact .fails _ nofun

variable {next : ControlLoop}

theorem Stage.untaken (stage : s.Stage) (untaken : s.command ≠ .taken) :
    s.drainEpoch = .notRequested := by
  unfold Stage at stage
  cases command : s.command with
  | taken => exact absurd command untaken
  | unsent | queued =>
    rw [command] at stage
    cases loop : s.loop with
    | commanded | writing | written =>
      rw [loop] at stage
      exact stage.elim
    | _ =>
      rw [loop] at stage
      exact stage

theorem stage_settled (settled : s.loop = .selecting ∨ s.loop = .finishing ∨
    ∃ result, s.loop = .handling result) :
    s.Stage ↔ if s.command = .taken then s.drainEpoch.committed = true
      else s.drainEpoch = .notRequested := by
  unfold Stage
  rcases settled with here | here | ⟨_, here⟩
  all_goals
    rw [here]
    cases s.command <;> simp only [reduceCtorEq, if_true, if_false]

theorem Stage.taken (stage : s.Stage) (busy : s.loop = .commanded ∨
    s.loop = .writing ∨ s.loop = .written) : s.command = .taken := by
  unfold Stage at stage
  cases command : s.command with
  | taken => rfl
  | unsent | queued =>
    rw [command] at stage
    rcases busy with here | here | here
    all_goals
      rw [here] at stage
      exact stage.elim

theorem Stage.requestWriting (stage : s.Stage) (writing : s.loop = .writing) :
    s.drainEpoch = .requestWriting := by
  have taken := stage.taken (.inr (.inl writing))
  unfold Stage at stage
  rw [taken, writing] at stage
  exact stage

theorem Stage.endWith (stage : s.Stage) (reason : LoopEnd) :
    (s.endWith reason).Stage := by
  have untaken := stage.untaken
  unfold Stage
  dsimp only [ControlLoop.endWith]
  cases command : s.command with
  | taken => trivial
  | unsent | queued => exact untaken (by simp [command])

theorem Handles.stage (handles : Handles s result next)
    (handling : s.loop = .handling result) (stage : s.Stage) :
    next.Stage := by
  have before := (stage_settled (.inr (.inr ⟨result, handling⟩))).mp stage
  cases handles with
  | fails reason => exact stage.endWith reason
  | ignores | repeats => exact (stage_settled (.inr (.inl rfl))).mpr before
  | accepts _ committed =>
    have taken : s.command = .taken := by
      by_contra untaken
      rw [stage.untaken untaken] at committed
      cases committed
    exact (stage_settled (.inr (.inl rfl))).mpr ((if_pos taken).mpr rfl)

theorem apply_stage (enabled : s.Enabled answers op) (stage : s.Stage) :
    (s.apply op).Stage := by
  cases op with
  | handle => exact handle_handles.stage enabled stage
  | requestDrain =>
    have unsent : s.command = .unsent := enabled
    unfold Stage at stage ⊢
    rw [unsent] at stage
    dsimp only [apply]
    cases loop : s.loop with
    | commanded | writing | written =>
      rw [loop] at stage
      exact stage.elim
    | _ =>
      rw [loop] at stage
      exact stage
  | stop | heartbeatError | timeout => exact stage.endWith _
  | takeCommand =>
    exact stage.untaken (by simp [enabled.2])
  | storeWriting =>
    have taken := stage.taken (.inl enabled)
    unfold Stage
    dsimp only [apply]
    rw [taken]
  | writeDrainRequest received failed =>
    have taken := stage.taken (.inr (.inl enabled))
    have writing := stage.requestWriting enabled
    unfold Stage
    dsimp only [apply]
    rw [taken]
    cases failed with
    | true => trivial
    | false => exact writing
  | storeCommitted =>
    have taken := stage.taken (.inr (.inr enabled))
    exact (stage_settled (.inl rfl)).mpr ((if_pos taken).mpr rfl)
  | receive =>
    exact (stage_settled (.inr (.inr ⟨_, rfl⟩))).mpr
      ((stage_settled (.inl enabled.1)).mp stage)
  | controlReadDone =>
    exact (stage_settled (.inl rfl)).mpr
      ((stage_settled (.inr (.inl enabled))).mp stage)
  | _ => exact stage

theorem Stage.handling (stage : s.Stage) (handling : s.loop = .handling result)
    (requested : s.drainEpoch ≠ .notRequested) :
    s.drainEpoch.committed = true := by
  have settled := (stage_settled (.inr (.inr ⟨result, handling⟩))).mp stage
  have taken : s.command = .taken := by
    by_contra untaken
    exact requested (stage.untaken untaken)
  rw [if_pos taken] at settled
  exact settled

/-! ## Sampled messages -/

/-- The epoch does not return to its first value, and does not reach its
last. -/
def Moves (epoch later : DrainEpoch) : Prop :=
  (epoch ≠ .notRequested → later ≠ .notRequested) ∧
    (later = .completeReceived → epoch = .completeReceived)

/-- The sampled messages on their way, oldest first.  Those sampled late were
sampled after the loop took the command. -/
structure Samples (answers : Bool) (epoch : DrainEpoch)
    (held : List ControlReadResult) : Prop where
  early : ∀ result ∈ held, result.early = true →
    result.drainEpoch = .notRequested
  late : ∀ result ∈ held, result.drainEpoch ≠ .notRequested →
    epoch ≠ .notRequested
  answered : answers = true → ∀ result ∈ held,
    result.msgType = .drainComplete → result.drainEpoch ≠ .notRequested
  ordered : held.Pairwise fun first second =>
    first.drainEpoch ≠ .notRequested → second.drainEpoch ≠ .notRequested
  complete : epoch = .completeReceived → ∀ result ∈ held,
    result.drainEpoch ≠ .notRequested

namespace Samples

variable {epoch later : DrainEpoch} {held rest : List ControlReadResult}

theorem thin (samples : Samples answers epoch held)
    (moves : Moves epoch later) (sublist : rest.Sublist held) :
    Samples answers later rest where
  early result member := samples.early result (sublist.subset member)
  late result member sampled :=
    moves.1 (samples.late result (sublist.subset member) sampled)
  answered polite result member :=
    samples.answered polite result (sublist.subset member)
  ordered := samples.ordered.sublist sublist
  complete received result member :=
    samples.complete (moves.2 received) result (sublist.subset member)

theorem add (samples : Samples answers epoch held)
    (sampled : result.drainEpoch = epoch)
    (early : result.early = true → epoch = .notRequested)
    (answered : answers = true → result.msgType = .drainComplete →
      epoch ≠ .notRequested) :
    Samples answers epoch (held ++ [result]) where
  early := by
    simpa [or_imp, forall_and, sampled] using ⟨samples.early, early⟩
  late := by
    simpa [or_imp, forall_and, sampled] using samples.late
  answered polite := by
    simpa [or_imp, forall_and, sampled] using
      ⟨samples.answered polite, answered polite⟩
  ordered := by
    simpa [List.pairwise_append, sampled] using ⟨samples.ordered, samples.late⟩
  complete received := by
    simpa [or_imp, forall_and, sampled, received] using
      samples.complete received

/-- The oldest message is accepted, so those behind it were sampled late. -/
theorem accept (samples : Samples answers epoch (result :: rest))
    (solicited : result.drainEpoch ≠ .notRequested) :
    Samples answers .completeReceived rest where
  early other member := samples.early other (.tail _ member)
  late _ _ _ := nofun
  answered polite other member := samples.answered polite other (.tail _ member)
  ordered := (List.pairwise_cons.mp samples.ordered).2
  complete _ other member :=
    (List.pairwise_cons.mp samples.ordered).1 other member solicited

end Samples

theorem Handles.samples (handles : Handles s result next)
    (handling : s.loop = .handling result)
    (samples : Samples answers s.drainEpoch s.held) :
    Samples answers next.drainEpoch next.held := by
  rw [held, handling] at samples
  cases handles with
  | fails | ignores | repeats =>
    exact samples.thin ⟨id, id⟩ (by simp [held])
  | accepts solicited => exact samples.accept solicited

theorem apply_samples (enabled : s.Enabled answers op) (stage : s.Stage)
    (answered : answers = true → .drainComplete ∈ s.unsampled →
      s.drainEpoch ≠ .notRequested)
    (samples : Samples answers s.drainEpoch s.held) :
    Samples answers (s.apply op).drainEpoch (s.apply op).held := by
  cases op with
  | sample result =>
    have sampling : s.reader = .sampling result := enabled
    have added : Samples answers s.drainEpoch
        (s.held ++ [s.sampled result]) := by
      refine samples.add rfl ?_ ?_
      · intro early
        exact stage.untaken (of_decide_eq_true early)
      · intro answering complete
        apply answered answering
        simp_all [unsampled, sampled]
    simpa [apply, held, sampling] using added
  | handle result => exact handle_handles.samples enabled samples
  | storeWriting | storeCommitted =>
    exact samples.thin ⟨nofun, nofun⟩ (by simp_all [Enabled, apply, held])
  | offer result =>
    refine samples.thin ⟨id, id⟩ ?_
    cases failed : result.err <;> simp_all [Enabled, apply, held]
  | writeDrainRequest received failed =>
    refine samples.thin ⟨id, id⟩ ?_
    cases failed <;> simp [apply, held]
  | _ => exact samples.thin ⟨id, id⟩ (by simp_all [Enabled, apply, held])

/-! ## The fence -/

/-- The accepted messages carry one fence, that of the first was delivered,
and none is early. -/
structure Fenced (s : ControlLoop) : Prop where
  accepted : ∀ result ∈ s.accepted,
    result.drain = s.completeFence ∧ result.early = false
  delivered : s.delivered = (s.accepted.map (·.drain)).take 1
  before : s.drainEpoch ≠ .completeReceived →
    s.accepted = [] ∧ s.drainComplete = none
  after : s.drainEpoch = .completeReceived → s.accepted ≠ []

theorem Handles.fenced (handles : Handles s result next)
    (early : result.early = true → result.drainEpoch = .notRequested)
    (fenced : s.Fenced) : next.Fenced := by
  cases handles with
  | fails | ignores => exact { fenced with }
  | repeats solicited complete same =>
    have late := Bool.eq_false_iff.mpr fun sampled => solicited (early sampled)
    refine ⟨?_, ?_, absurd complete, by simp⟩
    · simpa [or_imp, forall_and, same, late] using fenced.accepted
    · obtain ⟨first, rest, accepted⟩ :=
        List.exists_cons_of_ne_nil (fenced.after complete)
      have delivered := fenced.delivered
      rw [accepted] at delivered
      dsimp only [accept]
      rw [delivered, accepted]
      rfl
  | accepts solicited committed =>
    have late := Bool.eq_false_iff.mpr fun sampled => solicited (early sampled)
    obtain ⟨unaccepted, empty⟩ := fenced.before (by simp [committed])
    have undelivered := fenced.delivered
    rw [unaccepted] at undelivered
    refine ⟨?_, ?_, absurd rfl, ?_⟩
    · simp [unaccepted, late]
    · simp [unaccepted, empty, undelivered]
    · simp

theorem apply_fenced (enabled : s.Enabled answers op) (stage : s.Stage)
    (samples : Samples answers s.drainEpoch s.held) (fenced : s.Fenced) :
    (s.apply op).Fenced := by
  cases op with
  | handle result =>
    have handling : s.loop = .handling result := enabled
    exact handle_handles.fenced
      (samples.early result (by simp [held, handling])) fenced
  | storeWriting | storeCommitted =>
    have before := fenced.before (by
      unfold Stage at stage
      cases command : s.command <;> simp_all [Enabled])
    exact { fenced with before := fun _ => before, after := nofun }
  | receiveFence =>
    exact { fenced with
      before := fun incomplete => ⟨(fenced.before incomplete).1, rfl⟩ }
  | _ => exact { fenced with }

/-! ## Every run -/

/-- The request reaches the server after the epoch has moved, so before that
a server which `answers` has not sent `DrainComplete`. -/
structure Polite (answers : Bool) (s : ControlLoop) : Prop where
  received : s.requestReceived = true → s.drainEpoch ≠ .notRequested
  unsampled : answers = true → .drainComplete ∈ s.unsampled →
    s.drainEpoch ≠ .notRequested
  solicited : answers = true → s.loop ≠ .ended .unsolicited

theorem Handles.polite (handles : Handles s result next)
    (handling : s.loop = .handling result) (stage : s.Stage)
    (samples : Samples answers s.drainEpoch s.held)
    (polite : Polite answers s) : Polite answers next := by
  cases handles with
  | fails reason cause =>
    refine { polite with solicited := ?_ }
    intro answering unsolicited
    obtain ⟨complete, refused⟩ := cause (LoopPC.ended.inj unsolicited)
    have member : result ∈ s.held := by simp [held, handling]
    have late := samples.answered answering result member complete
    have committed := stage.handling handling (samples.late result member late)
    simp_all
  | ignores | repeats => exact { polite with solicited := nofun }
  | accepts =>
    exact { polite with
      received := nofun, unsampled := nofun, solicited := nofun }

theorem apply_polite (enabled : s.Enabled answers op) (stage : s.Stage)
    (samples : Samples answers s.drainEpoch s.held)
    (polite : Polite answers s) : Polite answers (s.apply op) := by
  cases op with
  | handle => exact handle_handles.polite enabled stage samples polite
  | send message =>
    refine { polite with unsampled := ?_ }
    intro answering complete
    have sent : .drainComplete ∈ s.unsampled ∨
        .drainComplete = message.msgType := by
      simpa [unsampled, apply, or_assoc] using complete
    rcases sent with earlier | now
    · exact polite.unsampled answering earlier
    · exact polite.received (enabled answering now.symm)
  | read message =>
    obtain ⟨reading, first⟩ := enabled
    obtain ⟨rest, wire⟩ := List.head?_eq_some_iff.mp first
    refine { polite with unsampled := ?_ }
    intro answering complete
    apply polite.unsampled answering
    simpa [unsampled, apply, readResult, reading, wire] using complete
  | readError | sample | announce | withdraw =>
    refine { polite with unsampled := ?_ }
    intro answering complete
    apply polite.unsampled answering
    simp_all [unsampled, apply, readError]
  | offer result =>
    refine { polite with unsampled := ?_ }
    intro answering complete
    apply polite.unsampled answering
    cases failed : result.err <;> simp_all [unsampled, apply]
  | stop | takeCommand | heartbeatError | receive | controlReadDone | timeout =>
    exact { polite with solicited := nofun }
  | storeWriting | storeCommitted => exact ⟨nofun, nofun, nofun⟩
  | writeDrainRequest received failed =>
    have requested := stage.requestWriting enabled
    refine ⟨?_, ?_, ?_⟩
    · simp [apply, requested]
    · simp [apply, requested]
    · cases failed <;> simp [apply]
  | requestDrain | cancel | receiveFence => exact { polite with }

structure Sound (answers : Bool) (s : ControlLoop) : Prop where
  stage : s.Stage
  samples : Samples answers s.drainEpoch s.held
  fenced : s.Fenced
  polite : Polite answers s
  pending : s.controlPending = s.announced - s.withdrawn - s.finished
  counted : s.loop.running = true → s.controlPending = s.outstanding

/-- A message is counted from its announcement on, and moves from the reader
through `readCh` to the loop. -/
theorem apply_counted (enabled : s.Enabled answers op)
    (counted : s.loop.running = true → s.controlPending = s.outstanding) :
    (s.apply op).loop.running = true →
      (s.apply op).controlPending = (s.apply op).outstanding := by
  unfold outstanding at *
  cases op with
  | send | requestDrain | cancel | receiveFence => exact counted
  | read =>
    have reading : s.reader = .reading := enabled.1
    rw [reading] at counted
    exact counted
  | readError =>
    have reading : s.reader = .reading := enabled
    rw [reading] at counted
    exact counted
  | sample result =>
    have sampling : s.reader = .sampling result := enabled
    rw [sampling] at counted
    exact counted
  | announce result =>
    have announcing : s.reader = .announcing result := enabled
    intro running
    have before := counted running
    rw [announcing] at before
    simp only [apply, ReaderPC.offered] at before ⊢
    omega
  | offer result =>
    obtain ⟨offering, empty⟩ := enabled
    intro running
    have before := counted running
    rw [offering, empty] at before
    cases failed : result.err with
    | true => simpa [apply, failed] using before
    | false => simpa [apply, failed] using before
  | withdraw result =>
    have offering : s.reader = .offering result := enabled.1
    intro running
    have before := counted running
    rw [offering] at before
    simp only [apply, ReaderPC.offered] at before ⊢
    omega
  | stop | heartbeatError | timeout => exact nofun
  | takeCommand =>
    rw [enabled.1] at counted
    exact counted
  | storeWriting =>
    have commanded : s.loop = .commanded := enabled
    rw [commanded] at counted
    exact counted
  | writeDrainRequest received failed =>
    have writing : s.loop = .writing := enabled
    rw [writing] at counted
    cases failed with
    | true => exact nofun
    | false => exact counted
  | storeCommitted =>
    have written : s.loop = .written := enabled
    rw [written] at counted
    exact counted
  | receive result =>
    obtain ⟨selecting, full⟩ := enabled
    rw [selecting, full] at counted
    intro _
    have before := counted rfl
    simpa [apply] using before
  | handle result =>
    have handling : s.loop = .handling result := enabled
    have handles : Handles s result (s.handle result) := handle_handles
    rw [handling] at counted
    dsimp only [apply]
    generalize s.handle result = next at *
    cases handles with
    | fails => exact nofun
    | _ => exact counted
  | controlReadDone =>
    have finishing : s.loop = .finishing := enabled
    rw [finishing] at counted
    intro _
    have before := counted rfl
    simp only [apply, LoopPC.unfinished] at before ⊢
    omega

theorem apply_pending
    (pending : s.controlPending = s.announced - s.withdrawn - s.finished) :
    (s.apply op).controlPending = (s.apply op).announced -
      (s.apply op).withdrawn - (s.apply op).finished := by
  cases op with
  | announce | withdraw | controlReadDone =>
    simp only [apply]
    omega
  | handle result =>
    have handles : Handles s result (s.handle result) := handle_handles
    dsimp only [apply]
    generalize s.handle result = next at *
    cases handles <;> exact pending
  | _ => exact pending

theorem sound_of_reachable (reachable : (runs answers).Reachable s) :
    Sound answers s := by
  apply reachable.invariant
  · rintro _ rfl
    exact ⟨rfl, ⟨nofun, nofun, nofun, .nil, nofun⟩,
      ⟨nofun, rfl, fun _ => ⟨rfl, rfl⟩, nofun⟩, ⟨nofun, nofun, nofun⟩, rfl,
      fun _ => rfl⟩
  · rintro state _ _ sound ⟨op, enabled, rfl⟩
    exact ⟨apply_stage enabled sound.stage,
      apply_samples enabled sound.stage sound.polite.unsampled sound.samples,
      apply_fenced enabled sound.stage sound.samples sound.fenced,
      apply_polite enabled sound.stage sound.samples sound.polite,
      apply_pending sound.pending, apply_counted enabled sound.counted⟩

/-- What holds of the epoch in every state of a run. -/
structure EpochKept (answers : Bool) (s : ControlLoop) : Prop where
  /-- A message sampled before the loop took the command ends the loop. -/
  stale : ∀ result, s.loop = .handling result →
    result.msgType = .drainComplete → result.early = true →
    s.handle result =
      s.endWith (if result.err then .readFailed else .unsolicited)
  accepted : ∀ result ∈ s.accepted, result.early = false
  solicited : answers = true → s.loop ≠ .ended .unsolicited
  /-- At most one fence is delivered, that of the first accepted message. -/
  delivered : s.delivered = (s.accepted.map (·.drain)).take 1
  later : ∀ first rest result, s.accepted = first :: rest →
    s.loop = .handling result → result.msgType = .drainComplete →
    result.err = false →
    s.handle result = if first.drain = result.drain then s.accept result
      else s.endWith .conflicting
  pending : s.loop.running = true →
    s.controlPending = s.announced - s.withdrawn - s.finished ∧
      s.controlPending = s.outstanding

/-- A `DrainComplete` sampled before the loop took the drain command is never
accepted and ends the loop; a server that answers the request is never
refused as unsolicited; only the first accepted fence is delivered, equal
ones are ignored and another one ends the loop; and `controlPending` counts
the announced messages that are neither withdrawn nor handled, which are those
offered, in `readCh` and with the loop. -/
theorem control_loop_keeps_epoch (reachable : (runs answers).Reachable s) :
    EpochKept answers s := by
  have sound := sound_of_reachable reachable
  refine ⟨?_, fun result member => (sound.fenced.accepted result member).2,
    sound.polite.solicited, sound.fenced.delivered, ?_,
    fun running => ⟨sound.pending, sound.counted running⟩⟩
  · intro result handling complete early
    have member : result ∈ s.held := by simp [held, handling]
    have unsampled := sound.samples.early result member early
    cases failed : result.err <;>
      simp [handle, handleDrainComplete, failed, complete, unsampled]
  · intro first rest result accepted handling complete decoded
    have received : s.drainEpoch = .completeReceived := by
      by_contra incomplete
      simp [(sound.fenced.before incomplete).1] at accepted
    have member : result ∈ s.held := by simp [held, handling]
    have late := sound.samples.complete received result member
    have fence := (sound.fenced.accepted first (by simp [accepted])).1
    simp [handle, handleDrainComplete, decoded, complete, received, late,
      DrainEpoch.committed, fence]

/-- The server's answer is sampled before the request is marked committed. -/
def sampleMessage : ControlMessage :=
  ⟨.drainComplete, [some .beginObject, some (.string "AcceptFence"),
    some (.number (some 1)), some .endObject]⟩

def sampleResult : ControlReadResult :=
  ⟨.drainComplete, false, 1, .requestWriting, false⟩

def sampleSchedule : List ControlOp :=
  [.requestDrain, .takeCommand, .storeWriting, .writeDrainRequest true false,
    .send sampleMessage, .read sampleMessage,
    .sample (readResult sampleMessage), .announce sampleResult,
    .storeCommitted, .offer sampleResult, .receive sampleResult,
    .handle sampleResult, .controlReadDone]

theorem control_loop_keeps_epoch_sample :
    (sampleSchedule.foldl apply initial).accepted = [sampleResult] ∧
      (sampleSchedule.foldl apply initial).delivered = [1] ∧
      (sampleSchedule.foldl apply initial).controlPending = 0 := by
  have start : (runs true).Reachable initial := .start rfl
  have allows : TransitionSystem.Allows (Enabled · true) apply initial
      sampleSchedule := by
    decide +kernel
  have steps : ∀ (s : ControlLoop) (op : ControlOp), s.Enabled true op →
    (runs true).step s (s.apply op) := fun _ op enabled => ⟨op, enabled, rfl⟩
  have kept := control_loop_keeps_epoch (start.schedule steps allows)
  have accepted : (sampleSchedule.foldl apply initial).accepted =
      [sampleResult] := by
    decide +kernel
  refine ⟨accepted, ?_, ?_⟩
  · rw [kept.delivered, accepted]
    rfl
  · rw [(kept.pending (by decide +kernel)).2]
    decide +kernel

end ControlLoop

end QMux.Drain
