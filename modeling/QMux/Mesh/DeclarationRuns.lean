import Mathlib.Algebra.Order.BigOperators.Group.List
import QMux.Mesh.DeclarationAccounts
import QMux.Support.Transition

/-!
# Concurrent use of the ledger

Any number of claims are open at once, and any number of holders keep, share
and give back references to records.  A claim belongs to one goroutine: it is
begun, compared with arriving chunks and charged with its input once, then
finished at most once, and closed as often as its owner likes while no
`finish` is running.  `finish` waits for the process-wide validation slot,
validates the input, and only then enters its last critical section; claims
and holders may move between any two of these steps.
-/

namespace QMux.Mesh

open Support

/-- The arguments of a `finish` call. -/
structure FinishCall where
  input : Bytes
  capacity : Nat
  expectedGroup : String

/-- How far the owner of a claim has come. -/
inductive ClaimStage where
  | collecting
  /-- In `finish`, waiting for the validation slot. -/
  | waiting (call : FinishCall)
  /-- With the slot, before the context is checked again. -/
  | entered (call : FinishCall)
  /-- Validating, with `work` bytes of buffers counted. -/
  | validating (call : FinishCall) (work : Int)
  /-- Validation has returned and the slot is free again. -/
  | validated (call : FinishCall) (outcome : Except String Declared)
      (peak : Int)
  | checked (call : FinishCall) (declared : Declared)
  | finished (result : Except DeclarationError RecordRef)

namespace ClaimStage

/-- The buffers of a running validation. -/
def work : ClaimStage → Int
  | .validating _ work => work
  | _ => 0

/-- The `finish` call in progress. -/
def call : ClaimStage → Option FinishCall
  | .collecting => none
  | .waiting call => some call
  | .entered call => some call
  | .validating call _ => some call
  | .validated call _ _ => some call
  | .checked call _ => some call
  | .finished _ => none

def result : ClaimStage → Option (Except DeclarationError RecordRef)
  | .finished result => some result
  | _ => none

end ClaimStage

/-- A claim, its owner's progress, the size passed to `trackInput`, and
whether `begin` granted it a reservation. -/
structure ClaimCell where
  claim : DeclarationClaim
  stage : ClaimStage
  tracked : Option Nat
  granted : Bool
  closed : Bool

/-- The tracked input that is still counted, until `finish` succeeds or the
claim is closed. -/
def ClaimCell.input (cell : ClaimCell) : Int :=
  if cell.closed || (cell.stage.result.bind Except.toOption).isSome then 0
  else (cell.tracked.getD 0 : Nat)

/-- The ledger with all claims ever begun and, for each record, the number of
references its holders have yet to release. -/
structure DeclarationRun where
  ledger : DeclarationLedger
  claims : List ClaimCell
  held : RecordRef → Int
  slot : Option Nat

namespace DeclarationRun

def writeClaim (s : DeclarationRun) (index : Nat) (cell : ClaimCell) :
    DeclarationRun :=
  { s with claims := s.claims.set index cell }

/-- The stage after `finish` has checked the outcome of validation. -/
def stageAfterCheck (call : FinishCall) (cancelled : Bool)
    (outcome : Except String Declared) : ClaimStage :=
  match DeclarationLedger.checkDeclared cancelled outcome
      call.expectedGroup with
  | .error reason => .finished (.error reason)
  | .ok declared => .checked call declared

def settleClaim (hash : Bytes → Bytes) (s : DeclarationRun) (index : Nat)
    (cell : ClaimCell) (call : FinishCall) (declared : Declared) :
    DeclarationRun :=
  let finished := s.ledger.finishLocked hash cell.claim call.input
    call.capacity declared
  { s with
    ledger := finished.2.2
    claims := s.claims.set index
      { cell with claim := finished.2.1, stage := .finished finished.1 }
    held := fun ref => s.held ref + one finished.1.toOption ref }

def closeClaim (s : DeclarationRun) (index : Nat) (cell : ClaimCell) :
    DeclarationRun :=
  { s with
    ledger := (s.ledger.close cell.claim).2
    claims := s.claims.set index
      { cell with claim := (s.ledger.close cell.claim).1, closed := true } }

/-- One critical section of a claim or a holder.  Sizes are `uint32`, and
validation returns some outcome that `validates` allows for its input. -/
inductive Step (hash : Bytes → Bytes)
    (validates : Bytes → Except String Declared → Prop) (s : DeclarationRun) :
    DeclarationRun → Prop where
  | begin (size : Nat) (digest : Bytes) {claim : DeclarationClaim}
      {ledger : DeclarationLedger} (wide : size < 2 ^ 32)
      (began : s.ledger.begin size digest = .ok (claim, ledger)) :
      Step hash validates s
        { s with
          ledger := ledger
          claims := s.claims ++
            [⟨claim, .collecting, none, claim.reserved, false⟩] }
  | compare (index offset : Nat) (data : Bytes) {cell : ClaimCell}
      {claim : DeclarationClaim} (found : s.claims[index]? = some cell)
      (stage : cell.stage = .collecting) (isOpen : cell.closed = false)
      (compared : s.ledger.compare cell.claim offset data = some claim) :
      Step hash validates s (s.writeClaim index { cell with claim := claim })
  | trackInput (index size : Nat) {cell : ClaimCell}
      (found : s.claims[index]? = some cell)
      (stage : cell.stage = .collecting) (isOpen : cell.closed = false)
      (untracked : cell.tracked = none) :
      Step hash validates s
        { s.writeClaim index
            { cell with
              claim := (s.ledger.trackInput cell.claim size).1
              tracked := some size } with
          ledger := (s.ledger.trackInput cell.claim size).2 }
  | finish (index : Nat) (call : FinishCall) {cell : ClaimCell}
      (found : s.claims[index]? = some cell)
      (stage : cell.stage = .collecting) (isOpen : cell.closed = false)
      (sized : call.input.length = cell.claim.size)
      (capacity : call.input.length ≤ call.capacity) :
      Step hash validates s
        (s.writeClaim index { cell with stage := .waiting call })
  | cancelWaiting (index : Nat) {cell : ClaimCell} {call : FinishCall}
      (found : s.claims[index]? = some cell)
      (stage : cell.stage = .waiting call) :
      Step hash validates s (s.writeClaim index
        { cell with stage := .finished (.error .cancelled) })
  | enter (index : Nat) {cell : ClaimCell} {call : FinishCall}
      (found : s.claims[index]? = some cell)
      (stage : cell.stage = .waiting call) (free : s.slot = none) :
      Step hash validates s
        { s.writeClaim index { cell with stage := .entered call } with
          slot := some index }
  | cancelEntered (index : Nat) {cell : ClaimCell} {call : FinishCall}
      (found : s.claims[index]? = some cell)
      (stage : cell.stage = .entered call) :
      Step hash validates s
        { s.writeClaim index
            { cell with stage := .finished (.error .cancelled) } with
          slot := none }
  | validate (index : Nat) {cell : ClaimCell} {call : FinishCall}
      (found : s.claims[index]? = some cell)
      (stage : cell.stage = .entered call) :
      Step hash validates s (s.writeClaim index
        { cell with stage := .validating call 0 })
  | changeWork (index : Nat) (size : Int) {cell : ClaimCell}
      {call : FinishCall} {work : Int} (found : s.claims[index]? = some cell)
      (stage : cell.stage = .validating call work) :
      Step hash validates s
        { s.writeClaim index
            { cell with stage := .validating call (work + size) } with
          ledger := s.ledger.changeWork size }
  -- Every buffer the parser counts is taken off again by a deferred call.
  | validated (index : Nat) (outcome : Except String Declared) (peak : Int)
      {cell : ClaimCell} {call : FinishCall}
      (found : s.claims[index]? = some cell)
      (stage : cell.stage = .validating call 0)
      (valid : validates call.input outcome) :
      Step hash validates s
        { s.writeClaim index
            { cell with stage := .validated call outcome peak } with
          slot := none }
  | check (index : Nat) (cancelled : Bool) {cell : ClaimCell}
      {call : FinishCall} {outcome : Except String Declared} {peak : Int}
      (found : s.claims[index]? = some cell)
      (stage : cell.stage = .validated call outcome peak) :
      Step hash validates s
        { s.writeClaim index
            { cell with stage := stageAfterCheck call cancelled outcome } with
          ledger := s.ledger.notePeak peak }
  | settle (index : Nat) {cell : ClaimCell} {call : FinishCall}
      {declared : Declared} (found : s.claims[index]? = some cell)
      (stage : cell.stage = .checked call declared) :
      Step hash validates s (s.settleClaim hash index cell call declared)
  | close (index : Nat) {cell : ClaimCell}
      (found : s.claims[index]? = some cell)
      (idle : cell.stage.call = none) :
      Step hash validates s (s.closeClaim index cell)
  | retain (ref : RecordRef) (held : 0 < s.held ref) :
      Step hash validates s
        { s with
          ledger := s.ledger.retain ref
          held := fun other => s.held other + one (some ref) other }
  | release (ref : RecordRef) (held : 0 < s.held ref) :
      Step hash validates s
        { s with
          ledger := s.ledger.release ref
          held := fun other => s.held other - one (some ref) other }

/-- Nothing begun and nothing held. -/
def start (limits : LedgerLimits) : DeclarationRun where
  ledger := newDeclarationLedger limits
  claims := []
  held := fun _ => 0
  slot := none

/-- The runs of a ledger with limits that are not negative. -/
def runs (hash : Bytes → Bytes)
    (validates : Bytes → Except String Declared → Prop) :
    TransitionSystem DeclarationRun where
  initial s := ∃ limits : LedgerLimits, 0 ≤ limits.maxGroups ∧
    0 ≤ limits.maxTotalGroupDeclarationBytes ∧ s = start limits
  step := Step hash validates

/-- The claims whose candidate is the record. -/
def candidates (s : DeclarationRun) (ref : RecordRef) : Int :=
  (s.claims.map fun cell => one cell.claim.candidate ref).sum

/-- All outstanding references to a record. -/
def owed (s : DeclarationRun) (ref : RecordRef) : Int :=
  s.held ref + s.candidates ref

def promised (s : DeclarationRun) : Int :=
  (s.claims.map fun cell => cell.claim.promise).sum

def promisedSize (s : DeclarationRun) : Int :=
  (s.claims.map fun cell => cell.claim.promisedSize).sum

/-- Tracked inputs and running validations. -/
def work (s : DeclarationRun) : Int :=
  (s.claims.map fun cell => cell.input + cell.stage.work).sum

/-- The same, as the claims have it. -/
def claimedWork (s : DeclarationRun) : Int :=
  (s.claims.map fun cell => cell.claim.workSize + cell.stage.work).sum

end DeclarationRun

/-- The owner's progress agrees with the claim. -/
structure ClaimCell.Fits (cell : ClaimCell) : Prop where
  input : cell.claim.workSize = cell.input
  closed : cell.closed = true → cell.claim.candidate = none ∧
    cell.claim.reserved = false ∧ cell.claim.workSize = 0 ∧
    cell.stage.call = none
  sized : ∀ call, cell.stage.call = some call →
    call.input.length = cell.claim.size
  granted : cell.granted = true → cell.closed = false →
    cell.stage.result = none → cell.claim.reserved = true
  capacity : cell.granted = true → cell.stage.result ≠ some (.error .capacity)

namespace ClaimCell

variable {cell : ClaimCell} {call : FinishCall}

theorem Fits.open_of_call (fits : cell.Fits)
    (busy : cell.stage.call = some call) : cell.closed = false := by
  cases closed : cell.closed with
  | false => rfl
  | true =>
    have idle := (fits.closed closed).2.2.2
    rw [busy] at idle
    cases idle

variable {stage : ClaimStage}

theorem result_of_call (busy : stage.call = some call) :
    stage.result = none := by
  cases stage <;> first | rfl | cases busy

theorem input_of_counted
    (counted : cell.stage.result.bind Except.toOption = none) :
    cell.input = if cell.closed then 0 else (cell.tracked.getD 0 : Nat) := by
  simp [input, counted]

theorem counted_of_call (busy : stage.call = some call) :
    stage.result.bind Except.toOption = none := by
  rw [result_of_call busy]
  rfl

theorem Fits.proceed (fits : cell.Fits) (busy : cell.stage.call = some call)
    (same : stage.call = some call) : Fits { cell with stage := stage } where
  input := by
    rw [fits.input, input_of_counted (counted_of_call busy),
      input_of_counted (counted_of_call same)]
  closed := by
    intro closed
    rw [fits.open_of_call busy] at closed
    cases closed
  sized := by
    intro other current
    cases same.symm.trans current
    exact fits.sized call busy
  granted granted isOpen _ := fits.granted granted isOpen (result_of_call busy)
  capacity := by
    intro _ failed
    rw [result_of_call same] at failed
    cases failed

theorem Fits.fail (fits : cell.Fits) (busy : cell.stage.call = some call)
    {reason : DeclarationError} (early : reason ≠ .capacity) :
    Fits { cell with stage := .finished (.error reason) } where
  input := by
    rw [fits.input, input_of_counted (counted_of_call busy),
      input_of_counted rfl]
  closed := by
    intro closed
    rw [fits.open_of_call busy] at closed
    cases closed
  sized := by
    intro other current
    cases current
  granted := by
    intro _ _ unfinished
    cases unfinished
  capacity := by
    intro _ failed
    cases failed
    exact early rfl

theorem work_of_call_none (idle : stage.call = none) : stage.work = 0 := by
  cases stage <;> first | rfl | cases idle

end ClaimCell

namespace DeclarationRun

/-- The ledger agrees with the claims and holders. -/
structure Settled (s : DeclarationRun) : Prop where
  accounts : s.ledger.Accounts s.owed s.promised s.promisedSize
    s.claimedWork
  held : ∀ ref, 0 ≤ s.held ref
  fits : ∀ (index : Nat) (cell : ClaimCell),
    s.claims[index]? = some cell → cell.Fits

variable {hash : Bytes → Bytes}
  {validates : Bytes → Except String Declared → Prop}
  {s next : DeclarationRun} {index : Nat} {cell : ClaimCell}
  {call : FinishCall}

theorem start_settled {limits : LedgerLimits} (groups : 0 ≤ limits.maxGroups)
    (bytes : 0 ≤ limits.maxTotalGroupDeclarationBytes) :
    (start limits).Settled where
  accounts :=
    DeclarationLedger.newDeclarationLedger_accounts groups bytes
  held _ := Int.le_refl 0
  fits := by
    intro index cell found
    cases found

theorem Settled.owed_candidate (settled : s.Settled)
    (found : s.claims[index]? = some cell) :
    ∀ ref ∈ cell.claim.candidate, 0 < s.owed ref := by
  intro ref candidate
  have member : one cell.claim.candidate ref ∈
      s.claims.map fun cell => one cell.claim.candidate ref :=
    List.mem_map_of_mem (List.mem_of_getElem? found)
  have counted : one cell.claim.candidate ref ≤ s.candidates ref := by
    apply List.single_le_sum _ _ member
    intro count among
    obtain ⟨other, -, rfl⟩ := List.mem_map.mp among
    exact one_nonneg _ _
  have held := settled.held ref
  rw [Option.mem_def.mp candidate, one_self] at counted
  unfold owed
  omega

variable {after : ClaimCell} {ledger l : DeclarationLedger}
  {held : RecordRef → Int} {slot : Option Nat} {size offset : Nat}
  {digest data : Bytes} {claim : DeclarationClaim} {ref : RecordRef}

theorem Settled.update (settled : s.Settled)
    (found : s.claims[index]? = some cell)
    (accounts : ledger.Accounts
      (fun ref => s.owed ref - one cell.claim.candidate ref +
        one after.claim.candidate ref + (held ref - s.held ref))
      (s.promised - cell.claim.promise + after.claim.promise)
      (s.promisedSize - cell.claim.promisedSize + after.claim.promisedSize)
      (s.claimedWork - (cell.claim.workSize + cell.stage.work) +
        (after.claim.workSize + after.stage.work)))
    (nonneg : ∀ ref, 0 ≤ held ref) (fits : after.Fits) :
    Settled ⟨ledger, s.claims.set index after, held, slot⟩ where
  accounts := by
    have references : owed ⟨ledger, s.claims.set index after, held, slot⟩ =
        fun ref => s.owed ref - one cell.claim.candidate ref +
          one after.claim.candidate ref + (held ref - s.held ref) := by
      funext ref
      have moved := sum_map_set_eq
        (fun cell => one cell.claim.candidate ref) found after
      unfold owed candidates
      dsimp only at moved ⊢
      omega
    have reservations := sum_map_set_eq
      (fun cell => cell.claim.promise) found after
    have reservedSizes := sum_map_set_eq
      (fun cell => cell.claim.promisedSize) found after
    have works := sum_map_set_eq
      (fun cell => cell.claim.workSize + cell.stage.work) found after
    rw [references]
    unfold promised promisedSize claimedWork at accounts ⊢
    rw [reservations, reservedSizes, works]
    exact accounts
  held := nonneg
  fits := by
    intro other written cellAt
    rcases cases_set found cellAt with ⟨_, rfl⟩ | ⟨_, cellAt⟩
    · exact fits
    · exact settled.fits other written cellAt

theorem Settled.advance (settled : s.Settled)
    (found : s.claims[index]? = some cell) {stage : ClaimStage}
    (work : stage.work = cell.stage.work)
    (fits : ClaimCell.Fits { cell with stage := stage }) :
    Settled ⟨s.ledger,
      s.claims.set index { cell with stage := stage }, s.held, slot⟩ := by
  apply settled.update found _ settled.held fits
  simpa [work] using settled.accounts

private theorem Settled.extend (settled : s.Settled)
    (accounts : ledger.Accounts
      (fun ref => s.owed ref + one after.claim.candidate ref)
      (s.promised + after.claim.promise)
      (s.promisedSize + after.claim.promisedSize)
      (s.claimedWork + (after.claim.workSize + after.stage.work)))
    (fits : after.Fits) :
    Settled { s with ledger := ledger, claims := s.claims ++ [after] } where
  accounts := by
    have references : owed
        { s with ledger := ledger, claims := s.claims ++ [after] } =
        fun ref => s.owed ref + one after.claim.candidate ref := by
      funext ref
      unfold owed candidates
      rw [sum_map_append_singleton]
      exact (Int.add_assoc _ _ _).symm
    rw [references]
    unfold promised promisedSize claimedWork at accounts ⊢
    rw [sum_map_append_singleton, sum_map_append_singleton,
      sum_map_append_singleton]
    exact accounts
  held := settled.held
  fits := by
    intro index cell found
    rcases cases_append found with ⟨_, rfl⟩ | found
    · exact fits
    · exact settled.fits index cell found

private theorem begin_workSize
    (began : l.begin size digest = .ok (claim, ledger)) :
    claim.workSize = 0 := by
  unfold DeclarationLedger.begin at began
  repeat' split at began
  all_goals cases began
  all_goals rfl

private theorem Settled.begin (settled : s.Settled)
    (began : s.ledger.begin size digest = .ok (claim, ledger)) :
    Settled { s with
      ledger := ledger
      claims := s.claims ++
        [⟨claim, .collecting, none, claim.reserved, false⟩] } := by
  apply settled.extend
  · have accounts := settled.accounts.begin began
    simpa [ClaimStage.work] using accounts
  · exact
      { input := begin_workSize began
        closed := by simp
        sized := by simp [ClaimStage.call]
        granted := fun granted _ _ => granted
        capacity := by simp [ClaimStage.result] }

private theorem compare_keeps {after : DeclarationClaim}
    (compared : l.compare claim offset data = some after) :
    after.candidate = claim.candidate ∧ after.reserved = claim.reserved ∧
      after.size = claim.size ∧ after.workSize = claim.workSize := by
  unfold DeclarationLedger.compare at compared
  repeat' split at compared
  all_goals cases compared
  all_goals exact ⟨rfl, rfl, rfl, rfl⟩

private theorem Settled.compare (settled : s.Settled)
    (found : s.claims[index]? = some cell)
    (compared : s.ledger.compare cell.claim offset data = some claim) :
    (s.writeClaim index { cell with claim := claim }).Settled := by
  obtain ⟨candidate, reserved, size, workSize⟩ := compare_keeps compared
  have fits := settled.fits index cell found
  apply settled.update found _ settled.held
  · exact
      { input := workSize.trans fits.input
        closed := by
          intro closed
          obtain ⟨first, second, third, idle⟩ := fits.closed closed
          exact ⟨candidate.trans first, reserved.trans second,
            workSize.trans third, idle⟩
        sized := by
          intro call busy
          rw [size]
          exact fits.sized call busy
        granted := by
          intro granted isOpen unfinished
          rw [reserved]
          exact fits.granted granted isOpen unfinished
        capacity := fits.capacity }
  · simpa [candidate, reserved, size, workSize] using settled.accounts

private theorem Settled.trackInput (settled : s.Settled)
    (found : s.claims[index]? = some cell)
    (stage : cell.stage = .collecting) (isOpen : cell.closed = false)
    (untracked : cell.tracked = none) (size : Nat) :
    Settled { s.writeClaim index
        { cell with
          claim := (s.ledger.trackInput cell.claim size).1
          tracked := some size } with
      ledger := (s.ledger.trackInput cell.claim size).2 } := by
  have fits := settled.fits index cell found
  have accounts := settled.accounts.trackInput cell.claim size
  have nothing : cell.claim.workSize = 0 := by
    simp [fits.input, ClaimCell.input, untracked]
  apply settled.update found _ settled.held
  · exact
      { input := by
          simp [ClaimCell.input, stage, isOpen, ClaimStage.result,
            DeclarationLedger.trackInput]
        closed := by
          intro closed
          rw [isOpen] at closed
          cases closed
        sized := fits.sized
        granted := fits.granted
        capacity := fits.capacity }
  · have total : s.claimedWork - (cell.claim.workSize + cell.stage.work) +
        ((s.ledger.trackInput cell.claim size).1.workSize + cell.stage.work) =
        s.claimedWork + (s.ledger.trackInput cell.claim size).1.workSize := by
      omega
    have promise : (s.ledger.trackInput cell.claim size).1.promise =
        cell.claim.promise := rfl
    have promisedSize : (s.ledger.trackInput cell.claim size).1.promisedSize =
        cell.claim.promisedSize := rfl
    have candidate : (s.ledger.trackInput cell.claim size).1.candidate =
        cell.claim.candidate := rfl
    rw [total, promise, promisedSize, candidate]
    simpa using accounts

private theorem Settled.settleClaim (settled : s.Settled)
    (found : s.claims[index]? = some cell) {declared : Declared}
    (stage : cell.stage = .checked call declared) :
    (s.settleClaim hash index cell call declared).Settled := by
  have fits := settled.fits index cell found
  have busy : cell.stage.call = some call := by
    rw [stage]
    rfl
  have isOpen := fits.open_of_call busy
  have held := settled.owed_candidate found
  have candidate : (s.ledger.finishLocked hash cell.claim call.input
      call.capacity declared).2.1.candidate = none :=
    DeclarationLedger.Accounts.finishLocked_candidate
  have workSize : (s.ledger.finishLocked hash cell.claim call.input
      call.capacity declared).2.1.workSize =
        bif (s.ledger.finishLocked hash cell.claim call.input call.capacity
          declared).1.toOption.isSome then 0 else cell.claim.workSize :=
    DeclarationLedger.Accounts.finishLocked_workSize
  have refused : cell.claim.reserved = true →
      (s.ledger.finishLocked hash cell.claim call.input call.capacity
        declared).1 ≠ .error .capacity := by
    intro reserved
    exact settled.accounts.finishLocked_of_reserved held reserved
      (fits.sized call busy)
  unfold DeclarationRun.settleClaim
  revert candidate workSize refused
  generalize finished : s.ledger.finishLocked hash cell.claim call.input
    call.capacity declared = outcome
  intro candidate workSize refused
  obtain ⟨result, after, ledger⟩ := outcome
  have accounts := settled.accounts.finishLocked held finished
  dsimp only at candidate workSize refused ⊢
  apply settled.update found
  · have idle : ClaimStage.work (.finished result) = 0 := rfl
    have quiet : cell.stage.work = 0 := by
      rw [stage]
      rfl
    have reference : ∀ ref, s.owed ref - one cell.claim.candidate ref +
        one after.candidate ref +
          (s.held ref + one result.toOption ref - s.held ref) =
        s.owed ref - one cell.claim.candidate ref +
          one result.toOption ref := by
      intro ref
      rw [candidate, one_none]
      omega
    simpa only [reference, idle, quiet, add_zero] using accounts
  · intro ref
    have before := settled.held ref
    have more := one_nonneg result.toOption ref
    omega
  · exact
      { input := by
          rw [workSize, fits.input,
            ClaimCell.input_of_counted (ClaimCell.counted_of_call busy)]
          cases result <;>
            simp [ClaimCell.input, ClaimStage.result, Except.toOption]
        closed := by simp [isOpen]
        sized := by simp [ClaimStage.call]
        granted := by simp [ClaimStage.result]
        capacity := by
          intro granted failed
          have reserved := fits.granted granted isOpen
            (ClaimCell.result_of_call busy)
          exact refused reserved (Option.some.inj failed) }

private theorem fits_stageAfterCheck (fits : cell.Fits)
    (busy : cell.stage.call = some call) (cancelled : Bool)
    (outcome : Except String Declared) :
    ClaimCell.Fits
      { cell with stage := stageAfterCheck call cancelled outcome } ∧
    (stageAfterCheck call cancelled outcome).work = 0 := by
  unfold stageAfterCheck
  split
  · rename_i reason failed
    refine ⟨fits.fail busy ?_, rfl⟩
    unfold DeclarationLedger.checkDeclared at failed
    repeat' split at failed
    all_goals cases failed
    all_goals simp
  · exact ⟨fits.proceed busy rfl, rfl⟩

private theorem Settled.check (settled : s.Settled)
    (found : s.claims[index]? = some cell) {outcome : Except String Declared}
    {peak : Int} (stage : cell.stage = .validated call outcome peak)
    (cancelled : Bool) :
    Settled { s.writeClaim index
        { cell with stage := stageAfterCheck call cancelled outcome } with
      ledger := s.ledger.notePeak peak } := by
  have fits := settled.fits index cell found
  have busy : cell.stage.call = some call := by
    rw [stage]
    rfl
  have quiet : cell.stage.work = 0 := by
    rw [stage]
    rfl
  obtain ⟨after, idle⟩ := fits_stageAfterCheck fits busy cancelled outcome
  apply settled.update found _ settled.held after
  have accounts := settled.accounts.notePeak peak
  simpa [quiet, idle] using accounts

private theorem Settled.closeClaim (settled : s.Settled)
    (found : s.claims[index]? = some cell) (idle : cell.stage.call = none) :
    (s.closeClaim index cell).Settled := by
  have fits := settled.fits index cell found
  have accounts := settled.accounts.close (settled.owed_candidate found)
  have quiet := ClaimCell.work_of_call_none idle
  apply settled.update found _ settled.held
  · exact
      { input := by simp [ClaimCell.input, DeclarationLedger.close]
        closed := fun _ => ⟨rfl, rfl, rfl, idle⟩
        sized := by
          intro call busy
          rw [idle] at busy
          cases busy
        granted := by simp
        capacity := fits.capacity }
  · simpa [DeclarationLedger.close, quiet] using accounts

private theorem Settled.hold (settled : s.Settled)
    (accounts : ledger.Accounts
      (fun ref => s.owed ref + (held ref - s.held ref)) s.promised
      s.promisedSize s.claimedWork) (nonneg : ∀ ref, 0 ≤ held ref) :
    Settled { s with ledger := ledger, held := held } where
  accounts := by
    have references : owed { s with ledger := ledger, held := held } =
        fun ref => s.owed ref + (held ref - s.held ref) := by
      funext ref
      unfold owed candidates
      dsimp only
      omega
    rw [references]
    exact accounts
  held := nonneg
  fits := settled.fits

theorem owed_pos_of_held (held : 0 < s.held ref) : 0 < s.owed ref := by
  have among : 0 ≤ s.candidates ref := by
    apply List.sum_nonneg
    intro count member
    obtain ⟨cell, -, rfl⟩ := List.mem_map.mp member
    exact one_nonneg _ _
  unfold owed
  omega

private theorem Settled.retain (settled : s.Settled) (held : 0 < s.held ref) :
    Settled { s with
      ledger := s.ledger.retain ref
      held := fun other => s.held other + one (some ref) other } := by
  apply settled.hold
  · have accounts := settled.accounts.retain (owed_pos_of_held held)
    simpa using accounts
  · intro other
    have before := settled.held other
    have more := one_nonneg (some ref) other
    omega

private theorem Settled.release (settled : s.Settled) (held : 0 < s.held ref) :
    Settled { s with
      ledger := s.ledger.release ref
      held := fun other => s.held other - one (some ref) other } := by
  apply settled.hold
  · have accounts : (s.ledger.release ref).Accounts
        (fun other => s.owed other - one (some ref) other) s.promised
        s.promisedSize s.claimedWork := by
      apply settled.accounts.releaseLocked
      intro target same
      cases same
      exact owed_pos_of_held held
    have reference : ∀ other, s.owed other +
        (s.held other - one (some ref) other - s.held other) =
        s.owed other - one (some ref) other := by
      intro other
      omega
    simpa only [reference] using accounts
  · intro other
    have before := settled.held other
    by_cases here : other = ref
    · subst here
      rw [one_self]
      omega
    · rw [one_of_ne here]
      omega

theorem Settled.step (settled : s.Settled) (step : Step hash validates s next) :
    next.Settled := by
  cases step with
  | begin size digest wide began =>
    exact settled.begin began
  | compare index offset data found stage isOpen compared =>
    exact settled.compare found compared
  | trackInput index size found stage isOpen untracked =>
    exact settled.trackInput found stage isOpen untracked size
  | finish index call found stage isOpen sized capacity =>
    have fits := settled.fits _ _ found
    apply settled.advance found
    · rw [stage]
      rfl
    · exact
        { input := by
            rw [fits.input, ClaimCell.input_of_counted (by rw [stage]; rfl),
              ClaimCell.input_of_counted rfl]
          closed := by simp [isOpen]
          sized := by
            intro call current
            cases current
            exact sized
          granted := by
            intro granted _ _
            apply fits.granted granted isOpen
            rw [stage]
            rfl
          capacity := by simp [ClaimStage.result] }
  | cancelWaiting index found stage | cancelEntered index found stage =>
    have fits := settled.fits _ _ found
    apply settled.advance found
    · rw [stage]
      rfl
    · exact fits.fail (by rw [stage]; rfl) (by simp)
  | enter index found stage free | validate index found stage
  | validated index outcome peak found stage valid =>
    have fits := settled.fits _ _ found
    apply settled.advance found
    · rw [stage]
      rfl
    · exact fits.proceed (by rw [stage]; rfl) rfl
  | changeWork index size found stage =>
    rename_i cell call work
    have fits := settled.fits _ _ found
    apply settled.update found _ settled.held
    · exact fits.proceed (by rw [stage]; rfl) rfl
    · have accounts := settled.accounts.changeWork size
      have before : cell.stage.work = work := by
        rw [stage]
        rfl
      have total : s.claimedWork -
          (cell.claim.workSize + cell.stage.work) + (cell.claim.workSize +
            ClaimStage.work (.validating call (work + size))) =
          s.claimedWork + size := by
        rw [before]
        show s.claimedWork - (cell.claim.workSize + work) +
          (cell.claim.workSize + (work + size)) = s.claimedWork + size
        omega
      simpa [total] using accounts
  | check index cancelled found stage =>
    exact settled.check found stage cancelled
  | settle index found stage => exact settled.settleClaim found stage
  | close index found idle => exact settled.closeClaim found idle
  | retain ref held => exact settled.retain held
  | release ref held => exact settled.release held

theorem reachable_settled (reachable : (runs hash validates).Reachable s) :
    s.Settled := by
  refine reachable.invariant ?_ ?_
  · rintro state ⟨limits, groups, bytes, rfl⟩
    exact start_settled groups bytes
  · intro before after _ settled step
    exact settled.step step

/-- The counters and indexes of the ledger are what its users make of them. -/
structure Balanced (s : DeclarationRun) : Prop where
  refs : ∀ ref record, s.ledger.recordCells[ref]? = some record →
    record.refs = s.held ref + s.candidates ref
  recorded : ∀ ref record, s.ledger.recordCells[ref]? = some record →
    ((∃ key, s.ledger.records.get key = some ref) ↔ 0 < record.refs) ∧
    (s.ledger.records.get record.key = some ref ↔ 0 < record.refs)
  filed : ∀ ref record, s.ledger.recordCells[ref]? = some record →
    ∀ digest, (s.ledger.bucket digest).count ref =
      if digest = record.digest ∧ 0 < record.refs then 1 else 0
  known : ∀ ref, s.ledger.recordCells[ref]? = none →
    (∀ key, s.ledger.records.get key ≠ some ref) ∧
      ∀ digest, ref ∉ s.ledger.bucket digest
  groups : s.ledger.groups =
    (s.ledger.recordCells.countP GroupRecord.live : Nat)
  bytes : s.ledger.bytes = (s.ledger.recordCells.map GroupRecord.charged).sum
  reserved : s.ledger.reserved = s.promised
  reservedSize : s.ledger.reservedSize = s.promisedSize
  room : s.ledger.groups + s.ledger.reserved ≤ s.ledger.maxGroups
  roomBytes : s.ledger.bytes + s.ledger.reservedSize ≤ s.ledger.maxBytes
  workBytes : s.ledger.workBytes = s.work
  granted : ∀ (index : Nat) (cell : ClaimCell),
    s.claims[index]? = some cell → cell.granted = true →
    cell.stage.result ≠ some (.error .capacity)
  quiet : (∀ cell ∈ s.claims, cell.closed = true) → (∀ ref, s.held ref = 0) →
    s.ledger.groups = 0 ∧ s.ledger.bytes = 0 ∧ s.ledger.reserved = 0 ∧
      s.ledger.reservedSize = 0 ∧ s.ledger.workBytes = 0 ∧
      s.ledger.records = ∅ ∧ s.ledger.byDigest = ∅

private theorem sum_eq_zero_of_forall {cells : List ClaimCell}
    {weight : ClaimCell → Int} (zero : ∀ cell ∈ cells, weight cell = 0) :
    (cells.map weight).sum = 0 := by
  apply List.sum_eq_zero
  intro value member
  obtain ⟨cell, among, rfl⟩ := List.mem_map.mp member
  exact zero cell among

/-- The claims count the inputs that were tracked. -/
private theorem Settled.work (settled : s.Settled) :
    s.claimedWork = s.work := by
  unfold claimedWork DeclarationRun.work
  congr 1
  apply List.map_congr_left
  intro cell member
  obtain ⟨index, found⟩ := List.mem_iff_getElem?.mp member
  rw [(settled.fits index cell found).input]

private theorem Settled.closed (settled : s.Settled)
    (closed : ∀ cell ∈ s.claims, cell.closed = true) :
    (∀ ref, s.candidates ref = 0) ∧ s.promised = 0 ∧ s.promisedSize = 0 ∧
      s.work = 0 := by
  have facts : ∀ cell ∈ s.claims, cell.claim.candidate = none ∧
      cell.claim.reserved = false ∧ cell.claim.workSize = 0 ∧
      cell.stage.call = none := by
    intro cell member
    obtain ⟨index, found⟩ := List.mem_iff_getElem?.mp member
    exact (settled.fits index cell found).closed (closed cell member)
  refine ⟨?_, ?_, ?_, ?_⟩
  · intro ref
    apply sum_eq_zero_of_forall
    intro cell member
    rw [(facts cell member).1, one_none]
  · apply sum_eq_zero_of_forall
    intro cell member
    simp [(facts cell member).2.1]
  · apply sum_eq_zero_of_forall
    intro cell member
    simp [(facts cell member).2.1]
  · apply sum_eq_zero_of_forall
    intro cell member
    rw [ClaimCell.work_of_call_none (facts cell member).2.2.2]
    simp [ClaimCell.input, closed cell member]

/-- In every run of claims and holders over one ledger the counters, indexes
and limits hold, a granted reservation is honoured, and nothing is left once
everything is closed and released. -/
theorem declaration_ledger_balanced
    (reachable : (runs hash validates).Reachable s) : s.Balanced := by
  have settled := reachable_settled reachable
  have accounts := settled.accounts
  refine
    { refs := accounts.refs, recorded := ?_, filed := ?_, known := ?_,
      groups := accounts.groups, bytes := accounts.bytes,
      reserved := accounts.reservations,
      reservedSize := accounts.reservedSizes, room := accounts.room,
      roomBytes := accounts.roomBytes,
      workBytes := accounts.workBytes.trans settled.work,
      granted := ?_, quiet := ?_ }
  · intro ref record cell
    have own : ∀ key, s.ledger.records.get key = some ref ↔
        record.key = key ∧ 0 < record.refs := by
      intro key
      rw [accounts.indexed key ref]
      simp [cell]
    constructor
    · simp [own]
    · simp [own]
  · intro ref record cell digest
    have own : s.ledger.Filed digest ref ↔
        digest = record.digest ∧ 0 < record.refs := by
      simp [DeclarationLedger.Filed, cell, eq_comm]
    split
    · rename_i filed
      exact accounts.filed digest ref (own.mpr filed)
    · rename_i unfiled
      apply List.count_eq_zero.mpr
      exact accounts.unfiled digest ref fun filed => unfiled (own.mp filed)
  · intro ref unknown
    constructor
    · intro key found
      obtain ⟨record, cell, -⟩ := (accounts.indexed key ref).mp found
      rw [unknown] at cell
      cases cell
    · intro digest
      apply accounts.unfiled digest ref
      rintro ⟨record, cell, -⟩
      rw [unknown] at cell
      cases cell
  · intro index cell found granted
    exact (settled.fits index cell found).capacity granted
  · intro closed released
    obtain ⟨candidates, promised, promisedSize, work⟩ := settled.closed closed
    have unowed : ∀ ref, s.owed ref = 0 := by
      intro ref
      unfold owed
      rw [released ref, candidates ref]
      rfl
    obtain ⟨groups, bytes, records, byDigest⟩ := accounts.empty unowed
    exact ⟨groups, bytes, accounts.reservations.trans promised,
      accounts.reservedSizes.trans promisedSize,
      accounts.workBytes.trans (settled.work.trans work), records, byDigest⟩

theorem declaration_ledger_balanced_sample :
    ∃ s : DeclarationRun,
      (runs (fun input => input) fun _ _ => True).Reachable s ∧
      (s.ledger.groups = 1 ∧ s.ledger.bytes = 2 ∧ s.held 0 = 1) ∧
      s.Balanced := by
  have run : ∃ s : DeclarationRun,
      (runs (fun input => input) fun _ _ => True).Reachable s ∧
      s.ledger.groups = 1 ∧ s.ledger.bytes = 2 ∧ s.held 0 = 1 :=
    ⟨_, .next (.next (.next (.next (.next (.next (.next (.next (.next (.next
      (.next (.start ⟨⟨1, 4, 4⟩, by decide, by decide, rfl⟩)
      (.begin 2 [] (by decide) rfl))
      (.trackInput 0 34 rfl rfl rfl rfl))
      (.finish 0 ⟨[1, 2], 2, "api"⟩ rfl rfl rfl rfl (by decide)))
      (.enter 0 rfl rfl rfl))
      (.validate 0 rfl rfl))
      (.changeWork 0 7 rfl rfl))
      (.changeWork 0 (-7) rfl rfl))
      (.validated 0 (.ok ⟨"api", 1, "apply_latest_rules"⟩) 7 rfl rfl
        trivial))
      (.check 0 false rfl rfl))
      (.settle 0 rfl rfl))
      (.close 0 rfl rfl), rfl, rfl, rfl⟩
  obtain ⟨s, reachable, facts⟩ := run
  exact ⟨s, reachable, facts, declaration_ledger_balanced reachable⟩

end DeclarationRun

end QMux.Mesh
