import QMux.Support.Cells
import QMux.Support.Transition

/-!
# The TLS material reloader

Embedding of `internal/tlsreload/tlsreload.go`.  The calls of `LoadInitial`,
`PrepareStart` and `Stop` and the watch goroutine are threads with a program
counter.  A section under `stateMu` is one action; `loadMu` is held over
several actions by `load`, whose reading of the files and whose `publish`
call take time.  The timers of the watch loop are left out: the loop may load
again or return at any moment, which covers every firing of its timers, a
cancelled context and every watcher failure.
-/

namespace QMux.TLSReload

open Support

/-- What a call returns. -/
inductive CallResult where
  | succeeded
  | errStopped
  | alreadyStarted
  | failed
deriving DecidableEq

/-- A filesystem watcher with the context it runs under. -/
structure Watch where
  closed : Bool
  cancelled : Bool
deriving DecidableEq

section Types

variable (δ : Type)

/-- Where `load` is: waiting for `loadMu`, reading the files, or in the call
of `publish` with the bundle it has read. -/
inductive LoadPhase where
  | waiting
  | loading
  | publishing (bundle : δ)
deriving DecidableEq

end Types

/-- Where `complete` is: before its first section, or between the two. -/
inductive CompletePhase where
  | first
  | second
deriving DecidableEq

/-- Who has called `load`. -/
inductive LoadCaller where
  | initial
  | plain
  | startup (watcher : Nat)
  | watch (watcher : Nat)
deriving DecidableEq

/-- Who has called `complete`. -/
inductive CompleteCaller where
  | failStart
  | abandon
  | stop
  | run (watcher : Nat)
deriving DecidableEq

/-- The program counters of all threads. -/
inductive Pc (δ : Type) where
  | load (caller : LoadCaller) (phase : LoadPhase δ)
  | complete (caller : CompleteCaller) (phase : CompletePhase) (fatal : Bool)
  /-- `PrepareStart` without a watch. -/
  | plainCheck
  /-- `PrepareStart` with a watch. -/
  | prepareCheck
  | creating
  | failStart
  | storing (watcher : Nat)
  | finishing (watcher : Nat)
  | abandoning (watcher : Nat)
  | launching (watcher : Nat)
  /-- `Stop`. -/
  | stopCheck
  | stopCancel (cancel watcher : Option Nat) (starting started : Bool)
  | stopMark (starting started : Bool)
  | stopDone
  /-- The watch goroutine. -/
  | watching (watcher : Nat)
  | closing (watcher : Nat) (fatal : Bool)
  | runExited (watcher : Nat)
  | returned (result : CallResult)
deriving DecidableEq

/-- Where a thread goes on after `load`. -/
def LoadCaller.after {δ : Type} : LoadCaller → CallResult → Pc δ
  | .initial, result => .returned result
  | .plain, result => .returned result
  | .startup watcher, _ => .finishing watcher
  | .watch watcher, _ => .watching watcher

/-- Where a thread goes on after `complete`. -/
def CompleteCaller.after {δ : Type} : CompleteCaller → Pc δ
  | .failStart => .returned .failed
  | .abandon => .returned .errStopped
  | .stop => .stopDone
  | .run watcher => .runExited watcher

/-- The fields of a `Reloader`, the watchers created so far, and the history
of its `publish` calls with their outcomes. -/
structure Reloader (δ : Type) where
  loadHeld : Bool
  digest : δ
  published : Bool
  watcher : Option Nat
  cancel : Option Nat
  /-- How often `done` has been closed. -/
  doneCloses : Nat
  waitErr : Bool
  starting : Bool
  started : Bool
  stopping : Bool
  stopped : Bool
  completed : Bool
  watchers : List Watch
  publishes : List (δ × Bool)

/-- What the environment decides in an action. -/
inductive Choice (δ : Type) where
  | proceed
  | createFailed
  | addFailed
  | loadFailed
  | loaded (bundle : δ)
  | publishFailed
  | publishOk
  | watchLoads
  | watchReturns (fatal : Bool)
deriving DecidableEq

namespace Reloader

variable {δ : Type} [DecidableEq δ] (r : Reloader δ)

def new (digest : δ) : Reloader δ :=
  { loadHeld := false
    digest := digest
    published := false
    watcher := none
    cancel := none
    doneCloses := 0
    waitErr := false
    starting := false
    started := false
    stopping := false
    stopped := false
    completed := false
    watchers := []
    publishes := [] }

/-- `stopping || stopped`. -/
def halted : Bool := r.stopping || r.stopped

def closeWatcher (watcher : Nat) : Reloader δ :=
  match r.watchers[watcher]? with
  | none => r
  | some watch =>
    { r with
      watchers := r.watchers.set watcher { watch with closed := true } }

def cancelContext (watcher : Nat) : Reloader δ :=
  match r.watchers[watcher]? with
  | none => r
  | some watch =>
    { r with
      watchers := r.watchers.set watcher { watch with cancelled := true } }

/-- One action of `load`. -/
def loadStep (caller : LoadCaller) (phase : LoadPhase δ)
    (choice : Choice δ) : Reloader δ × Pc δ :=
  match phase with
  | .waiting =>
    if r.halted then (r, caller.after .errStopped)
    else ({ r with loadHeld := true }, .load caller .loading)
  | .loading =>
    match choice with
    | .loaded bundle =>
      if r.published && decide (bundle = r.digest) then
        ({ r with loadHeld := false }, caller.after .succeeded)
      else (r, .load caller (.publishing bundle))
    | _ => ({ r with loadHeld := false }, caller.after .failed)
  | .publishing bundle =>
    match choice with
    | .publishOk =>
      ({ r with
         loadHeld := false
         digest := bundle
         published := true
         publishes := r.publishes ++ [(bundle, true)] },
        caller.after .succeeded)
    | _ =>
      ({ r with
         loadHeld := false
         publishes := r.publishes ++ [(bundle, false)] },
        caller.after .failed)

/-- One action of `complete`. -/
def completeStep (caller : CompleteCaller) (phase : CompletePhase)
    (fatal : Bool) : Reloader δ × Pc δ :=
  match phase with
  | .first =>
    if r.completed then (r, caller.after)
    else ({ r with stopping := true }, .complete caller .second fatal)
  | .second =>
    if r.completed then (r, caller.after)
    else
      ({ r with
         waitErr := fatal
         stopped := true
         completed := true
         doneCloses := r.doneCloses + 1 }, caller.after)

/-- One action of a thread.  The result of the startup load only decides
whether the watch loop starts with a retry timer. -/
def step (pc : Pc δ) (choice : Choice δ) : Reloader δ × Pc δ :=
  match pc with
  | .load caller phase => r.loadStep caller phase choice
  | .complete caller phase fatal => r.completeStep caller phase fatal
  | .plainCheck =>
    if r.halted then (r, .returned .errStopped)
    else (r, .load .plain .waiting)
  | .prepareCheck =>
    if r.halted then (r, .returned .errStopped)
    else if r.starting || r.started then (r, .returned .alreadyStarted)
    else ({ r with starting := true }, .creating)
  | .creating =>
    match choice with
    | .createFailed => (r, .failStart)
    | .addFailed =>
      ({ r with watchers := r.watchers ++ [⟨true, false⟩] }, .failStart)
    | _ =>
      ({ r with watchers := r.watchers ++ [⟨false, false⟩] },
        .storing r.watchers.length)
  | .failStart =>
    ({ r with starting := false, stopped := true },
      .complete .failStart .first false)
  | .storing watcher =>
    if r.halted then ({ r with starting := false }, .abandoning watcher)
    else
      ({ r with watcher := some watcher, cancel := some watcher },
        .load (.startup watcher) .waiting)
  | .finishing watcher =>
    if r.halted then ({ r with starting := false }, .abandoning watcher)
    else
      ({ r with starting := false, started := true }, .launching watcher)
  | .abandoning watcher =>
    ((r.cancelContext watcher).closeWatcher watcher,
      .complete .abandon .first false)
  | .launching _ => (r, .returned .succeeded)
  | .stopCheck =>
    if r.halted then (r, .returned .succeeded)
    else
      ({ r with stopping := true },
        .stopCancel r.cancel r.watcher r.starting r.started)
  | .stopCancel cancel watcher starting started =>
    let cancelled := cancel.elim r r.cancelContext
    (watcher.elim cancelled cancelled.closeWatcher, .stopMark starting started)
  | .stopMark starting started =>
    ({ r with stopped := true },
      if !starting && !started then .complete .stop .first false
      else .stopDone)
  | .stopDone => (r, .stopDone)
  | .watching watcher =>
    match choice with
    | .watchReturns fatal => (r, .closing watcher fatal)
    | _ => (r, .load (.watch watcher) .waiting)
  | .closing watcher fatal =>
    (r.closeWatcher watcher, .complete (.run watcher) .first fatal)
  | .runExited watcher => (r, .runExited watcher)
  | .returned result => (r, .returned result)

/-- The threads an action starts: `go r.run`. -/
def spawned : Pc δ → List (Pc δ)
  | .launching watcher => [.watching watcher]
  | _ => []

end Reloader

namespace Pc

variable {δ : Type}

/-- The thread is over. -/
def ended : Pc δ → Bool
  | .stopDone | .runExited _ | .returned _ => true
  | _ => false

/-- The next action takes `loadMu`. -/
def takesLoad : Pc δ → Bool
  | .stopMark _ _ | .load _ .waiting | .complete _ .second _ => true
  | _ => false

/-- A `publish` call is in progress. -/
def publishing : Pc δ → Bool
  | .load _ (.publishing _) => true
  | _ => false

/-- The thread is a call of `PrepareStart` that has not returned. -/
def preparing : Pc δ → Bool
  | .plainCheck | .prepareCheck | .creating | .failStart | .storing _
  | .finishing _ | .abandoning _ | .launching _ | .load .plain _
  | .load (.startup _) _ | .complete .failStart _ _
  | .complete .abandon _ _ => true
  | _ => false

/-- The watch goroutine, with its watcher. -/
def run? : Pc δ → Option Nat
  | .watching watcher | .load (.watch watcher) _ | .closing watcher _
  | .complete (.run watcher) _ _ | .runExited watcher => some watcher
  | _ => none

end Pc

/-- A reloader with its threads. -/
structure System (δ : Type) where
  reloader : Reloader δ
  threads : List (Pc δ)

namespace System

variable {δ : Type} [DecidableEq δ]

/-- The calls a caller can make. -/
inductive Call where
  | loadInitial
  | prepareStart (watch : Bool)
  | stop

def Call.entry : Call → Pc δ
  | .loadInitial => .load .initial .waiting
  | .prepareStart false => .plainCheck
  | .prepareStart true => .prepareCheck
  | .stop => .stopCheck

inductive Op (δ : Type) where
  | call (call : Call)
  | step (thread : Nat) (choice : Choice δ)

def Enabled (state : System δ) : Op δ → Prop
  | .call _ => True
  | .step thread _ =>
    match state.threads[thread]? with
    | none => False
    | some pc => pc.ended = false ∧
        (pc.takesLoad = true → state.reloader.loadHeld = false)

instance (state : System δ) (op : Op δ) : Decidable (state.Enabled op) := by
  cases op <;> unfold Enabled <;> (try dsimp only) <;> repeat' split
  all_goals infer_instance

def apply (state : System δ) : Op δ → System δ
  | .call call => { state with threads := state.threads ++ [call.entry] }
  | .step thread choice =>
    match state.threads[thread]? with
    | none => state
    | some pc =>
      { reloader := (state.reloader.step pc choice).1
        threads := state.threads.set thread
          (state.reloader.step pc choice).2 ++ Reloader.spawned pc }

/-- The runs of a new reloader. -/
def system (digest : δ) : TransitionSystem (System δ) where
  initial state := state = ⟨.new digest, []⟩
  step before after := ∃ op, before.Enabled op ∧ after = before.apply op

end System

end QMux.TLSReload
