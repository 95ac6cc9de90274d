import QMux.TLSReload.Lifecycle

/-!
# The watch loop

Embedding of `watch` and `reload` in `internal/tlsreload/tlsreload.go`, with
the three timers that decide when the files are read again.  One pass of the
loop is one step: what its `select` received, the clock it read, and the
outcome of the load it made, if it made one.  Times are in milliseconds, a
timer is the delay it was armed with, and a `nil` timer is never received
from.  A change that was consumed leaves a timer armed until the next load,
and every firing of a timer starts a load.
-/

namespace QMux.TLSReload

open Support Reloader

def quietPeriod : Nat := 200
def maximumWait : Nat := 1000
def retryDelays : List Nat := [100, 250, 500, 1000, 2000]

inductive ReloadMode where
  | idle
  | debounce
  | retry
deriving DecidableEq

/-- What a load comes to: it finds the reloader stopped, it cannot read the
files, or it reads a bundle that `publish` would accept or refuse. -/
inductive LoadOutcome (δ : Type) where
  | stopped
  | unreadable
  | read (bundle : δ) (accepted : Bool)

/-- The operation bits of an `fsnotify.Event` that the loop looks at, and
whether its name is a watched directory. -/
structure FileEvent where
  watchedParent : Bool
  create : Bool
  write : Bool
  remove : Bool
  rename : Bool

/-- What one `select` of the loop receives. -/
inductive Received where
  | done
  | event (event : FileEvent)
  | eventsClosed
  | error
  | errorsClosed
  | quiet
  | maximum
  | retry

/-- One pass of the loop. -/
structure Pass (δ : Type) where
  received : Received
  now : Nat
  /-- `ctx.Err() != nil` -/
  cancelled : Bool
  outcome : LoadOutcome δ

inductive WatchError where
  /-- "TLS filesystem watcher event channel closed" -/
  | eventsClosed
  /-- "TLS watched parent was removed or renamed: " and its name -/
  | parentLost
  /-- "TLS filesystem watcher error channel closed" -/
  | errorsClosed
deriving DecidableEq

/-- The variables of the loop, the reloader, and how many loads it began. -/
structure WatchLoop (δ : Type) where
  quietTimer : Option Nat
  maximumTimer : Option Nat
  retryTimer : Option Nat
  mode : ReloadMode
  retryIndex : Nat
  maximumDeadline : Nat
  reloader : Reloader δ
  loads : Nat
  returned : Option (Option WatchError)

/-- `Remove|Rename` of a watched directory. -/
def FileEvent.losesParent (event : FileEvent) : Bool :=
  event.watchedParent && (event.remove || event.rename)

/-- `Create|Write|Remove|Rename`. -/
def FileEvent.changes (event : FileEvent) : Bool :=
  event.create || event.write || event.remove || event.rename

/-- A change of the files, or an error that may hide one. -/
def Received.changes : Received → Bool
  | .event file => file.changes
  | .error => true
  | _ => false

/-- A timer has fired. -/
def Received.fires : Received → Bool
  | .quiet | .maximum | .retry => true
  | _ => false

section Loop

variable {δ : Type}

/-- `load`: whether it succeeded, and the reloader. -/
def Reloader.load [DecidableEq δ] (r : Reloader δ) :
    LoadOutcome δ → Bool × Reloader δ
  | .stopped => (false, r)
  | .unreadable => (false, r)
  | .read bundle accepted =>
    if r.published && decide (bundle = r.digest) then (true, r)
    else if accepted then
      (true, { r with
        digest := bundle
        published := true
        publishes := r.publishes ++ [(bundle, true)] })
    else (false, { r with publishes := r.publishes ++ [(bundle, false)] })

namespace WatchLoop

def start (r : Reloader δ) (retryStartup : Bool) : WatchLoop δ :=
  { quietTimer := none
    maximumTimer := none
    retryTimer := if retryStartup then retryDelays[0]? else none
    mode := if retryStartup then .retry else .idle
    retryIndex := 0
    maximumDeadline := 0
    reloader := r
    loads := 0
    returned := none }

variable [DecidableEq δ] (s : WatchLoop δ)

/-- The first change: both timers of the debounce are armed. -/
def arm (now : Nat) : WatchLoop δ :=
  { s with
    mode := .debounce
    quietTimer := some quietPeriod
    maximumTimer := some maximumWait
    maximumDeadline := now + maximumWait }

/-- `resetTimer(quietTimer, quietPeriod)` -/
def resetQuiet : WatchLoop δ :=
  { s with quietTimer := s.quietTimer.map fun _ => quietPeriod }

/-- The reloader after a load that the loop began. -/
def loaded (outcome : LoadOutcome δ) : WatchLoop δ :=
  { s with
    reloader := (s.reloader.load outcome).2
    loads := s.loads + 1 }

def reload (outcome : LoadOutcome δ) : WatchLoop δ :=
  if (s.reloader.load outcome).1 then
    { s.loaded outcome with
      quietTimer := none
      maximumTimer := none
      retryTimer := none
      mode := .idle
      retryIndex := 0 }
  else
    { s.loaded outcome with
      quietTimer := none
      maximumTimer := none
      retryTimer := retryDelays[0]?
      mode := .retry
      retryIndex := 0 }

/-- The arm of the retry timer. -/
def retryLoad (outcome : LoadOutcome δ) : WatchLoop δ :=
  let attempt := s.retryIndex + 1
  if (s.reloader.load outcome).1 then
    { s.loaded outcome with
      retryTimer := none
      mode := .idle
      retryIndex := 0 }
  else if attempt < retryDelays.length then
    { s.loaded outcome with
      retryTimer := retryDelays[attempt]?
      retryIndex := attempt }
  else
    { s.loaded outcome with
      retryTimer := none
      mode := .idle
      retryIndex := 0 }

/-- One pass of `watch`. -/
def pass (p : Pass δ) : WatchLoop δ :=
  match p.received with
  | .done => { s with returned := some none }
  | .event event =>
    if event.losesParent then { s with returned := some (some .parentLost) }
    else if event.changes = false ∨ s.mode = .retry then s
    else if s.mode = .idle then s.arm p.now
    else if s.maximumDeadline ≤ p.now then s.reload p.outcome
    else s.resetQuiet
  | .eventsClosed =>
    { s with
      returned := some (if p.cancelled then none else some .eventsClosed) }
  | .error =>
    if s.mode = .retry then s
    else if s.mode = .idle then s.arm p.now
    else s.resetQuiet
  | .errorsClosed =>
    { s with
      returned := some (if p.cancelled then none else some .errorsClosed) }
  | .quiet | .maximum => s.reload p.outcome
  | .retry => s.retryLoad p.outcome

/-- The loop has not returned, and it receives from armed timers only. -/
def Enabled (p : Pass δ) : Prop :=
  s.returned = none ∧ match p.received with
    | .quiet => s.quietTimer.isSome = true
    | .maximum => s.maximumTimer.isSome = true
    | .retry => s.retryTimer.isSome = true
    | _ => True

/-- The runs of `watch` on a reloader. -/
def runs (r : Reloader δ) : TransitionSystem (WatchLoop δ) where
  initial s := ∃ retryStartup, s = start r retryStartup
  step s next := ∃ p, s.Enabled p ∧ next = s.pass p

/-! ## Modes and timers -/

/-- Which timers are armed in which mode. -/
def Timed (s : WatchLoop δ) : Prop :=
  match s.mode with
  | .idle => s.quietTimer = none ∧ s.maximumTimer = none ∧ s.retryTimer = none
  | .debounce => s.quietTimer.isSome = true ∧ s.maximumTimer.isSome = true ∧
      s.retryTimer = none
  | .retry => s.quietTimer = none ∧ s.maximumTimer = none ∧
      s.retryTimer.isSome = true ∧ s.retryIndex < retryDelays.length

/-- What a pass can do. -/
inductive Effect (s : WatchLoop δ) (p : Pass δ) : WatchLoop δ → Prop where
  | returns (still : p.received.fires = false)
      (result : Option WatchError) :
      Effect s p { s with returned := some result }
  | ignores (still : p.received.fires = false)
      (later : p.received.changes = true → s.mode = .retry) : Effect s p s
  | arms (still : p.received.fires = false) (idle : s.mode = .idle) :
      Effect s p (s.arm p.now)
  | postpones (still : p.received.fires = false)
      (waits : s.mode = .debounce) : Effect s p s.resetQuiet
  | reloads (waits : s.mode = .debounce) : Effect s p (s.reload p.outcome)
  | retries (waits : s.mode = .retry) : Effect s p (s.retryLoad p.outcome)

variable {s next : WatchLoop δ} {p : Pass δ}

omit [DecidableEq δ] in
theorem debounce_of_ne (notIdle : s.mode ≠ .idle) (notRetry : s.mode ≠ .retry) :
    s.mode = .debounce := by
  cases mode : s.mode with
  | idle => exact absurd mode notIdle
  | debounce => rfl
  | retry => exact absurd mode notRetry

theorem Timed.effect (timed : s.Timed) (enabled : s.Enabled p) :
    Effect s p (s.pass p) := by
  have armed := enabled.2
  unfold pass
  cases received : p.received with
  | done | eventsClosed | errorsClosed =>
    exact .returns (by rw [received]; rfl) _
  | event event =>
    have still : p.received.fires = false := by rw [received]; rfl
    dsimp only
    split_ifs with lost ignored idle due
    · exact .returns still _
    · refine .ignores still ?_
      intro changes
      rcases ignored with irrelevant | retry
      · simp [received, Received.changes, irrelevant] at changes
      · exact retry
    · exact .arms still idle
    · exact .reloads (debounce_of_ne idle (not_or.mp ignored).2)
    · exact .postpones still (debounce_of_ne idle (not_or.mp ignored).2)
  | error =>
    have still : p.received.fires = false := by rw [received]; rfl
    dsimp only
    split_ifs with retry idle
    · exact .ignores still fun _ => retry
    · exact .arms still idle
    · exact .postpones still (debounce_of_ne idle retry)
  | quiet | maximum =>
    rw [received] at armed
    refine .reloads ?_
    cases mode : s.mode <;> simp_all [Timed]
  | retry =>
    rw [received] at armed
    refine .retries ?_
    cases mode : s.mode <;> simp_all [Timed]

omit [DecidableEq δ] in
theorem Timed.start (r : Reloader δ) (retryStartup : Bool) :
    (start r retryStartup).Timed := by
  cases retryStartup <;> simp [Timed, WatchLoop.start, retryDelays]

theorem Timed.kept (timed : s.Timed) (effect : Effect s p next) :
    next.Timed := by
  unfold Timed at timed
  cases effect with
  | returns | ignores => exact timed
  | arms still idle =>
    rw [idle] at timed
    simp [Timed, arm, timed.2.2]
  | postpones still waits =>
    rw [waits] at timed
    simpa [Timed, resetQuiet, waits] using timed
  | reloads waits =>
    unfold reload
    split
    · simp [Timed]
    · simp [Timed, retryDelays]
  | retries waits =>
    rw [waits] at timed
    unfold retryLoad
    dsimp only
    split_ifs with ok more
    · simp [Timed, loaded, timed]
    · simp [Timed, loaded, timed, waits, more]
    · simp [Timed, loaded, timed]

/-! ## Loads -/

@[simp] theorem loads_reload (outcome : LoadOutcome δ) :
    (s.reload outcome).loads = s.loads + 1 := by
  unfold reload
  split <;> rfl

@[simp] theorem loads_retryLoad (outcome : LoadOutcome δ) :
    (s.retryLoad outcome).loads = s.loads + 1 := by
  unfold retryLoad
  dsimp only
  split_ifs <;> rfl

theorem Effect.loads_le (effect : Effect s p next) : s.loads ≤ next.loads := by
  cases effect with
  | reloads | retries => simp
  | returns | ignores | arms | postpones => exact Nat.le_refl _

theorem Effect.loads_of_fires (effect : Effect s p next)
    (fires : p.received.fires = true) : s.loads < next.loads := by
  cases effect with
  | reloads | retries => simp
  | returns still | ignores still | arms still | postpones still =>
    cases still.symm.trans fires

/-- A load has begun since there were `base` of them, or the loop has
returned, or it waits for a timer. -/
def Answered (base : Nat) (s : WatchLoop δ) : Prop :=
  base ≤ s.loads ∧ (base < s.loads ∨ s.returned ≠ none ∨ s.mode ≠ .idle)

/-- A change is answered, also by a loop that ignores it for now. -/
theorem Effect.answers (effect : Effect s p next)
    (changes : p.received.changes = true) : Answered s.loads next := by
  refine ⟨effect.loads_le, ?_⟩
  cases effect with
  | returns still result => exact .inr (.inl (by simp))
  | ignores still later => exact .inr (.inr (by simp [later changes]))
  | arms => exact .inr (.inr (by simp [arm]))
  | postpones still waits =>
    exact .inr (.inr (by simp [resetQuiet, waits]))
  | reloads | retries => exact .inl (by simp)

theorem Answered.kept {base : Nat} (answered : Answered base s)
    (running : s.returned = none) (effect : Effect s p next) :
    Answered base next := by
  obtain ⟨counted, begun | returned | waiting⟩ := answered
  · exact ⟨counted.trans effect.loads_le,
      .inl (Nat.lt_of_lt_of_le begun effect.loads_le)⟩
  · exact absurd running returned
  · refine ⟨counted.trans effect.loads_le, ?_⟩
    cases effect with
    | returns still result => exact .inr (.inl (by simp))
    | ignores | postpones => exact .inr (.inr waiting)
    | arms => exact .inr (.inr (by simp [arm]))
    | reloads | retries => exact .inl (by simp; omega)

section Runs

variable {passes : List (Pass δ)}

theorem Timed.loads_le_run (timed : s.Timed)
    (allows : TransitionSystem.Allows Enabled pass s passes) :
    s.loads ≤ (passes.foldl pass s).loads := by
  induction passes generalizing s with
  | nil => exact Nat.le_refl _
  | cons p rest ih =>
    have effect := timed.effect allows.1
    exact effect.loads_le.trans (ih (timed.kept effect) allows.2)

/-- From an answered state on, a load begins, or the loop returns, or a timer
is still armed and none has fired. -/
theorem Answered.run {base : Nat} (answered : Answered base s)
    (timed : s.Timed)
    (allows : TransitionSystem.Allows Enabled pass s passes) :
    base < (passes.foldl pass s).loads ∨ (passes.foldl pass s).returned ≠ none ∨
      (passes.foldl pass s).mode ≠ .idle ∧
        ∀ p ∈ passes, p.received.fires = false := by
  induction passes generalizing s with
  | nil =>
    rcases answered.2 with begun | returned | waiting
    · exact .inl begun
    · exact .inr (.inl returned)
    · exact .inr (.inr ⟨waiting, by simp⟩)
  | cons p rest ih =>
    have effect := timed.effect allows.1
    have kept := timed.kept effect
    rcases ih (answered.kept allows.1.1 effect) kept allows.2 with
      begun | returned | ⟨waiting, still⟩
    · exact .inl begun
    · exact .inr (.inl returned)
    · cases fires : p.received.fires with
      | false =>
        refine .inr (.inr ⟨waiting, ?_⟩)
        simpa [fires] using still
      | true =>
        have begun := effect.loads_of_fires fires
        have later := kept.loads_le_run allows.2
        exact .inl (Nat.lt_of_le_of_lt answered.1
          (Nat.lt_of_lt_of_le begun later))

/-- The loop is in retry mode before each of the passes. -/
def Retrying : WatchLoop δ → List (Pass δ) → Prop
  | _, [] => True
  | s, p :: rest => s.mode = .retry ∧ Retrying (s.pass p) rest

/-- How many retries are left. -/
def budget (s : WatchLoop δ) : Nat :=
  if s.mode = .retry then retryDelays.length - s.retryIndex else 0

/-- In retry mode every load takes one of the retries, and the loop stays in
retry mode or becomes idle. -/
theorem Effect.retry (effect : Effect s p next) (timed : s.Timed)
    (waits : s.mode = .retry) :
    next.loads + next.budget ≤ s.loads + s.budget ∧ next.mode ≠ .debounce := by
  unfold Timed at timed
  rw [waits] at timed
  have within := timed.2.2.2
  cases effect with
  | returns | ignores => exact ⟨Nat.le_refl _, by simp [waits]⟩
  | arms still idle => cases waits.symm.trans idle
  | postpones still debounces | reloads debounces =>
    cases waits.symm.trans debounces
  | retries =>
    unfold retryLoad
    dsimp only
    split_ifs with ok more
    all_goals
      simp [budget, loaded, waits]
      omega

theorem Timed.retries (timed : s.Timed)
    (allows : TransitionSystem.Allows Enabled pass s passes)
    (retrying : Retrying s passes) (start : s.mode ≠ .debounce) :
    (passes.foldl pass s).loads ≤ s.loads + s.budget ∧
      (passes.foldl pass s).mode ≠ .debounce := by
  induction passes generalizing s with
  | nil => exact ⟨Nat.le_add_right _ _, start⟩
  | cons p rest ih =>
    have effect := timed.effect allows.1
    obtain ⟨spent, stays⟩ := effect.retry timed retrying.1
    obtain ⟨bound, last⟩ := ih (timed.kept effect) allows.2 retrying.2 stays
    exact ⟨bound.trans spent, last⟩

end Runs

/-! ## The remembered digest -/

variable {r : Reloader δ}

theorem load_remembered (outcome : LoadOutcome δ)
    (last : r.remembered = lastPublished r.publishes) :
    (r.load outcome).2.remembered =
      lastPublished (r.load outcome).2.publishes := by
  cases outcome with
  | stopped | unreadable => exact last
  | read bundle accepted =>
    unfold load
    dsimp only
    split_ifs
    · exact last
    · rw [lastPublished_append]
      rfl
    · rw [lastPublished_append]
      exact last

theorem Effect.reloader (effect : Effect s p next) :
    next.reloader = s.reloader ∨
      next.reloader = (s.reloader.load p.outcome).2 := by
  cases effect with
  | reloads =>
    unfold reload
    split <;> exact .inr rfl
  | retries =>
    unfold retryLoad
    dsimp only
    split_ifs <;> exact .inr rfl
  | returns | ignores | arms | postpones => exact .inl rfl

/-! ## Every run -/

/-- The invariant of all runs. -/
structure Sound (s : WatchLoop δ) : Prop where
  timed : s.Timed
  remembered : s.reloader.remembered = lastPublished s.reloader.publishes

theorem sound_of_reachable
    (last : r.remembered = lastPublished r.publishes)
    (reachable : (runs r).Reachable s) : s.Sound := by
  apply reachable.invariant
  · intro state initial
    obtain ⟨retryStartup, rfl⟩ := initial
    exact ⟨.start r retryStartup, last⟩
  · intro before after _ sound step
    obtain ⟨p, enabled, rfl⟩ := step
    have effect := sound.timed.effect enabled
    refine ⟨sound.timed.kept effect, ?_⟩
    rcases effect.reloader with same | loaded
    · rw [same]
      exact sound.remembered
    · rw [loaded]
      exact load_remembered p.outcome sound.remembered

/-- What holds in every state of a run: which timers each mode has armed, that
a change consumed now is followed by a load, that it starts one past the
deadline, how many retries there are, and which digest is remembered. -/
structure LosesNoChange (s : WatchLoop δ) : Prop where
  idle : s.mode = .idle ↔
    s.quietTimer = none ∧ s.maximumTimer = none ∧ s.retryTimer = none
  debounce : s.mode = .debounce → s.quietTimer.isSome = true ∧
    s.maximumTimer.isSome = true ∧ s.retryTimer = none
  retry : s.mode = .retry → s.retryTimer.isSome = true ∧
    s.quietTimer = none ∧ s.maximumTimer = none
  followed : ∀ (p : Pass δ) (passes : List (Pass δ)),
    s.Enabled p → p.received.changes = true →
    TransitionSystem.Allows Enabled pass (s.pass p) passes →
      s.loads < (passes.foldl pass (s.pass p)).loads ∨
      (passes.foldl pass (s.pass p)).returned ≠ none ∨
      (passes.foldl pass (s.pass p)).mode ≠ .idle ∧
        ∀ later ∈ passes, later.received.fires = false
  deadline : s.mode = .debounce → ∀ (p : Pass δ) (event : FileEvent),
    p.received = .event event → event.changes = true →
    event.losesParent = false → s.maximumDeadline ≤ p.now →
      s.pass p = s.reload p.outcome
  retries : s.mode = .retry → ∀ passes : List (Pass δ),
    TransitionSystem.Allows Enabled pass s passes → Retrying s passes →
      (passes.foldl pass s).loads ≤ s.loads + retryDelays.length ∧
      (passes.foldl pass s).mode ≠ .debounce
  remembered : s.reloader.remembered = lastPublished s.reloader.publishes

/-- A watch loop on a reloader in any state the reloader can be in. -/
theorem watch_loses_no_change {digest : δ} {state : System δ}
    (earlier : (System.system digest).Reachable state)
    (reachable : (runs state.reloader).Reachable s) : s.LosesNoChange := by
  have sound := sound_of_reachable
    (System.reachable_sound earlier).remembered reachable
  have timed := sound.timed
  have armed := timed
  unfold Timed at armed
  refine ⟨?_, ?_, ?_, ?_, ?_, ?_, sound.remembered⟩
  · cases mode : s.mode with
    | idle =>
      rw [mode] at armed
      simpa using armed
    | debounce =>
      rw [mode] at armed
      refine iff_of_false (by simp) fun unarmed => ?_
      simp [unarmed.1] at armed
    | retry =>
      rw [mode] at armed
      refine iff_of_false (by simp) fun unarmed => ?_
      simp [unarmed.2.2] at armed
  · intro mode
    rw [mode] at armed
    exact armed
  · intro mode
    rw [mode] at armed
    exact ⟨armed.2.2.1, armed.1, armed.2.1⟩
  · intro p passes enabled changes allows
    have effect := timed.effect enabled
    exact (effect.answers changes).run (timed.kept effect) allows
  · intro mode p event received changes kept due
    unfold pass
    rw [received]
    simp [kept, changes, mode, due]
  · intro mode passes allows retrying
    obtain ⟨bound, stays⟩ := timed.retries allows retrying (by simp [mode])
    refine ⟨bound.trans ?_, stays⟩
    simp [budget, mode]

end WatchLoop

end Loop

namespace WatchLoop

/-- A write, a second write past the deadline whose load cannot read the
files, and the first retry. -/
def samplePasses : List (Pass Nat) :=
  let write : Received := .event ⟨false, false, true, false, false⟩
  [⟨write, 0, false, .stopped⟩, ⟨write, 1500, false, .unreadable⟩,
    ⟨.retry, 1600, false, .read 3 true⟩]

theorem watch_loses_no_change_sample :
    ∃ s : WatchLoop Nat, (runs (.new 0)).Reachable s ∧ s.mode = .idle ∧
      s.loads = 2 ∧ s.reloader.remembered = some 3 ∧ s.LosesNoChange := by
  have allows : TransitionSystem.Allows Enabled pass
      (start (.new 0) false) samplePasses :=
    ⟨⟨rfl, trivial⟩, ⟨rfl, trivial⟩, ⟨rfl, rfl⟩, trivial⟩
  have begins : (runs (new 0)).Reachable (start (.new 0) false) :=
    .start ⟨false, rfl⟩
  have steps : ∀ (s : WatchLoop Nat) p, s.Enabled p →
    (runs (new 0)).step s (s.pass p) := fun _ p enabled => ⟨p, enabled, rfl⟩
  have reachable := begins.schedule steps allows
  have earlier : (System.system 0).Reachable ⟨new 0, []⟩ := .start rfl
  exact ⟨_, reachable, by decide +kernel, by decide +kernel,
    by decide +kernel, watch_loses_no_change earlier reachable⟩

end WatchLoop

end QMux.TLSReload
