import QMux.TLSReload.Reloader

/-!
# What one action of a thread does

The flags of a reloader count threads: `starting` the call that is setting up
a watcher, `started` the watch goroutine from its launch on, `loadMu` the
load that holds it.  Each action of a thread moves flag and count together.
-/

namespace QMux.TLSReload

variable {δ : Type}

namespace Pc

/-- The thread holds `loadMu`. -/
def holds : Pc δ → Bool
  | .load _ .loading | .load _ (.publishing _) => true
  | _ => false

/-- The thread has set `starting`. -/
def startup : Pc δ → Bool
  | .creating | .failStart | .storing _ | .finishing _
  | .load (.startup _) _ => true
  | _ => false

/-- The watch goroutine, or the call about to launch it. -/
def launched : Pc δ → Bool
  | .launching _ => true
  | pc => pc.run?.isSome

/-- A `Stop` call that found the reloader neither stopping nor stopped. -/
def stops : Pc δ → Bool
  | .stopCancel .. | .stopMark .. | .complete .stop _ _ | .stopDone => true
  | _ => false

/-- Such a call past its wait for `loadMu`. -/
def marked : Pc δ → Bool
  | .complete .stop _ _ | .stopDone => true
  | _ => false

/-- The thread goes through `complete` before it is over, once the reloader
is stopping. -/
def completes : Pc δ → Bool
  | .creating | .failStart | .storing _ | .finishing _
  | .load (.startup _) _ | .abandoning _ | .complete .. | .launching _
  | .watching _ | .load (.watch _) _ | .closing _ _ => true
  | .stopCancel _ _ starting started => !starting && !started
  | .stopMark starting started => !starting && !started
  | _ => false

/-- Not in `complete`, and not at the end of `Stop` or of the goroutine. -/
def ordinary : Pc δ → Bool
  | .complete .. | .stopDone | .runExited _ => false
  | _ => true

/-- The watcher a thread works with. -/
def watcher? : Pc δ → Option Nat
  | .storing watcher | .finishing watcher | .load (.startup watcher) _
  | .abandoning watcher | .launching watcher => some watcher
  | pc => pc.run?

end Pc

/-! ## Watchers -/

/-- Watchers stay closed. -/
def Grows (before after : List Watch) : Prop :=
  ∀ (watcher : Nat) (watch : Watch), before[watcher]? = some watch →
    ∃ later : Watch, after[watcher]? = some later ∧
      (watch.closed = true → later.closed = true)

/-- The watcher exists and is closed. -/
def Closed (watchers : List Watch) (watcher : Nat) : Prop :=
  ∃ watch : Watch, watchers[watcher]? = some watch ∧ watch.closed = true

theorem Grows.refl (watchers : List Watch) : Grows watchers watchers := by
  intro watcher watch found
  exact ⟨watch, found, fun closed => closed⟩

theorem Grows.trans {first second third : List Watch}
    (left : Grows first second) (right : Grows second third) :
    Grows first third := by
  intro watcher watch found
  obtain ⟨middle, between, keeps⟩ := left watcher watch found
  obtain ⟨last, later, stays⟩ := right watcher middle between
  exact ⟨last, later, fun closed => stays (keeps closed)⟩

theorem Grows.append (watchers : List Watch) (watch : Watch) :
    Grows watchers (watchers ++ [watch]) := by
  intro watcher old found
  refine ⟨old, ?_, fun closed => closed⟩
  rw [List.getElem?_append_left (List.getElem?_eq_some_iff.mp found).1]
  exact found

theorem Grows.set {watchers : List Watch} {watcher : Nat} {old new : Watch}
    (found : watchers[watcher]? = some old)
    (keeps : old.closed = true → new.closed = true) :
    Grows watchers (watchers.set watcher new) := by
  intro other watch at_
  rw [Support.getElem?_set_eq found]
  split
  · rename_i same
    rw [same] at at_
    cases found.symm.trans at_
    exact ⟨new, rfl, keeps⟩
  · exact ⟨watch, at_, fun closed => closed⟩

variable {before after : List Watch}

theorem Grows.closed (grows : Grows before after) {watcher : Nat}
    (closed : Closed before watcher) : Closed after watcher := by
  obtain ⟨watch, found, isClosed⟩ := closed
  obtain ⟨later, at_, keeps⟩ := grows watcher watch found
  exact ⟨later, at_, keeps isClosed⟩

theorem Grows.lt (grows : Grows before after) {watcher : Nat}
    (bound : watcher < before.length) : watcher < after.length := by
  obtain ⟨later, at_, _⟩ := grows watcher _ (List.getElem?_eq_getElem bound)
  exact (List.getElem?_eq_some_iff.mp at_).1

namespace Reloader

section Watchers

variable (r : Reloader δ)

theorem closeWatcher_eq (watcher : Nat) :
    ∃ watchers, r.closeWatcher watcher = { r with watchers := watchers } ∧
      Grows r.watchers watchers ∧
      (watcher < r.watchers.length → Closed watchers watcher) := by
  unfold closeWatcher
  split
  · rename_i absent
    refine ⟨r.watchers, rfl, .refl _, ?_⟩
    intro bound
    rw [List.getElem?_eq_getElem bound] at absent
    cases absent
  · rename_i watch found
    refine ⟨_, rfl, .set found fun _ => rfl, ?_⟩
    intro _
    refine ⟨{ watch with closed := true }, ?_, rfl⟩
    rw [Support.getElem?_set_eq found, if_pos rfl]

theorem cancelContext_eq (watcher : Nat) :
    ∃ watchers, r.cancelContext watcher = { r with watchers := watchers } ∧
      Grows r.watchers watchers := by
  unfold cancelContext
  split
  · exact ⟨r.watchers, rfl, .refl _⟩
  · rename_i watch found
    exact ⟨_, rfl, .set found fun closed => closed⟩

theorem shut_eq (cancel watcher : Option Nat) :
    ∃ watchers, watcher.elim (cancel.elim r r.cancelContext)
        (cancel.elim r r.cancelContext).closeWatcher =
        { r with watchers := watchers } ∧ Grows r.watchers watchers := by
  obtain ⟨cancelled, same, grows⟩ : ∃ watchers,
      cancel.elim r r.cancelContext = { r with watchers := watchers } ∧
        Grows r.watchers watchers := by
    cases cancel with
    | none => exact ⟨r.watchers, rfl, .refl _⟩
    | some context => exact r.cancelContext_eq context
  rw [same]
  cases watcher with
  | none => exact ⟨cancelled, rfl, grows⟩
  | some watcher =>
    obtain ⟨closed, eq, more, _⟩ :=
      { r with watchers := cancelled }.closeWatcher_eq watcher
    exact ⟨closed, eq, grows.trans more⟩

end Watchers

/-- The actions of a thread, one case for each way through the code. -/
inductive Acts (r : Reloader δ) : Pc δ → Reloader δ → Pc δ → Prop where
  | loadRefused (caller : LoadCaller) (halted : r.halted = true) :
      Acts r (.load caller .waiting) r (caller.after .errStopped)
  | loadEnter (caller : LoadCaller) (running : r.halted = false) :
      Acts r (.load caller .waiting) { r with loadHeld := true }
        (.load caller .loading)
  | loadLeave (caller : LoadCaller) (result : CallResult) :
      Acts r (.load caller .loading) { r with loadHeld := false }
        (caller.after result)
  | publish (caller : LoadCaller) (bundle : δ)
      (changed : ¬(r.published = true ∧ bundle = r.digest)) :
      Acts r (.load caller .loading) r (.load caller (.publishing bundle))
  | publishOk (caller : LoadCaller) (bundle : δ) :
      Acts r (.load caller (.publishing bundle))
        { r with
          loadHeld := false
          digest := bundle
          published := true
          publishes := r.publishes ++ [(bundle, true)] }
        (caller.after .succeeded)
  | publishFailed (caller : LoadCaller) (bundle : δ) :
      Acts r (.load caller (.publishing bundle))
        { r with
          loadHeld := false
          publishes := r.publishes ++ [(bundle, false)] }
        (caller.after .failed)
  | completeSkip (caller : CompleteCaller) (phase : CompletePhase)
      (fatal : Bool) (done : r.completed = true) :
      Acts r (.complete caller phase fatal) r caller.after
  | completeFirst (caller : CompleteCaller) (fatal : Bool) :
      Acts r (.complete caller .first fatal) { r with stopping := true }
        (.complete caller .second fatal)
  | completeSecond (caller : CompleteCaller) (fatal : Bool)
      (open_ : r.completed = false) :
      Acts r (.complete caller .second fatal)
        { r with
          waitErr := fatal
          stopped := true
          completed := true
          doneCloses := r.doneCloses + 1 } caller.after
  | plainRefused : Acts r .plainCheck r (.returned .errStopped)
  | plainLoad : Acts r .plainCheck r (.load .plain .waiting)
  | prepareRefused (result : CallResult) :
      Acts r .prepareCheck r (.returned result)
  | prepareStart (running : r.halted = false)
      (notStarting : r.starting = false) (notStarted : r.started = false) :
      Acts r .prepareCheck { r with starting := true } .creating
  | createFailed : Acts r .creating r .failStart
  | addFailed :
      Acts r .creating
        { r with watchers := r.watchers ++ [⟨true, false⟩] } .failStart
  | created :
      Acts r .creating
        { r with watchers := r.watchers ++ [⟨false, false⟩] }
        (.storing r.watchers.length)
  | failStart :
      Acts r .failStart { r with starting := false, stopped := true }
        (.complete .failStart .first false)
  | storeRefused (watcher : Nat) :
      Acts r (.storing watcher) { r with starting := false }
        (.abandoning watcher)
  | stored (watcher : Nat) :
      Acts r (.storing watcher)
        { r with watcher := some watcher, cancel := some watcher }
        (.load (.startup watcher) .waiting)
  | finishRefused (watcher : Nat) :
      Acts r (.finishing watcher) { r with starting := false }
        (.abandoning watcher)
  | finished (watcher : Nat) (running : r.halted = false) :
      Acts r (.finishing watcher)
        { r with starting := false, started := true } (.launching watcher)
  | abandoned (watcher : Nat) (watchers : List Watch)
      (grows : Grows r.watchers watchers) :
      Acts r (.abandoning watcher) { r with watchers := watchers }
        (.complete .abandon .first false)
  | launched (watcher : Nat) :
      Acts r (.launching watcher) r (.returned .succeeded)
  | stopRefused : Acts r .stopCheck r (.returned .succeeded)
  | stopBegin (running : r.halted = false) :
      Acts r .stopCheck { r with stopping := true }
        (.stopCancel r.cancel r.watcher r.starting r.started)
  | stopCancelled (cancel watcher : Option Nat) (starting started : Bool)
      (watchers : List Watch) (grows : Grows r.watchers watchers) :
      Acts r (.stopCancel cancel watcher starting started)
        { r with watchers := watchers } (.stopMark starting started)
  | stopMarked (starting started : Bool) :
      Acts r (.stopMark starting started) { r with stopped := true }
        (if !starting && !started then .complete .stop .first false
        else .stopDone)
  | watchLoads (watcher : Nat) :
      Acts r (.watching watcher) r (.load (.watch watcher) .waiting)
  | watchReturns (watcher : Nat) (fatal : Bool) :
      Acts r (.watching watcher) r (.closing watcher fatal)
  | watcherClosed (watcher : Nat) (fatal : Bool) (watchers : List Watch)
      (grows : Grows r.watchers watchers)
      (closed : watcher < r.watchers.length → Closed watchers watcher) :
      Acts r (.closing watcher fatal) { r with watchers := watchers }
        (.complete (.run watcher) .first fatal)

/-- `step` takes one of these ways. -/
theorem step_acts [DecidableEq δ] (r : Reloader δ) {pc : Pc δ}
    (choice : Choice δ) (goesOn : pc.ended = false) :
    r.Acts pc (r.step pc choice).1 (r.step pc choice).2 := by
  cases pc with
  | load caller phase =>
    simp only [step, loadStep]
    cases phase with
    | waiting =>
      dsimp only
      split
      · rename_i halted
        exact .loadRefused caller halted
      · rename_i running
        exact .loadEnter caller (Bool.not_eq_true _ ▸ running)
    | loading =>
      dsimp only
      split
      · rename_i bundle
        split
        · exact .loadLeave caller _
        · rename_i changed
          apply Acts.publish caller bundle
          simpa using changed
      · exact .loadLeave caller _
    | publishing bundle =>
      dsimp only
      split
      · exact .publishOk caller bundle
      · exact .publishFailed caller bundle
  | complete caller phase fatal =>
    simp only [step, completeStep]
    cases phase with
    | first =>
      dsimp only
      split
      · rename_i done
        exact .completeSkip caller .first fatal done
      · exact .completeFirst caller fatal
    | second =>
      dsimp only
      split
      · rename_i done
        exact .completeSkip caller .second fatal done
      · rename_i open_
        exact .completeSecond caller fatal (Bool.not_eq_true _ ▸ open_)
  | plainCheck =>
    simp only [step]
    split
    · exact .plainRefused
    · exact .plainLoad
  | prepareCheck =>
    simp only [step]
    split
    · exact .prepareRefused _
    rename_i running
    split
    · exact .prepareRefused _
    · rename_i idle
      rw [Bool.or_eq_true, not_or, Bool.not_eq_true, Bool.not_eq_true] at idle
      exact .prepareStart (Bool.not_eq_true _ ▸ running) idle.1 idle.2
  | creating =>
    simp only [step]
    split
    · exact .createFailed
    · exact .addFailed
    · exact .created
  | failStart => exact .failStart
  | storing watcher =>
    simp only [step]
    split
    · exact .storeRefused watcher
    · exact .stored watcher
  | finishing watcher =>
    simp only [step]
    split
    · exact .finishRefused watcher
    · rename_i running
      exact .finished watcher (Bool.not_eq_true _ ▸ running)
  | abandoning watcher =>
    obtain ⟨watchers, same, grows⟩ := r.shut_eq (some watcher) (some watcher)
    have step : r.step (.abandoning watcher) choice =
        ({ r with watchers := watchers }, .complete .abandon .first false) :=
      congrArg (·, Pc.complete .abandon .first false) same
    rw [step]
    exact .abandoned watcher watchers grows
  | launching watcher => exact .launched watcher
  | stopCheck =>
    simp only [step]
    split
    · exact .stopRefused
    · rename_i running
      exact .stopBegin (Bool.not_eq_true _ ▸ running)
  | stopCancel cancel watcher starting started =>
    obtain ⟨watchers, same, grows⟩ := r.shut_eq cancel watcher
    have step : r.step (.stopCancel cancel watcher starting started)
        choice = ({ r with watchers := watchers },
          .stopMark starting started) :=
      congrArg (·, Pc.stopMark starting started) same
    rw [step]
    exact .stopCancelled cancel watcher starting started watchers grows
  | stopMark starting started => exact .stopMarked starting started
  | watching watcher =>
    simp only [step]
    split
    · exact .watchReturns watcher _
    · exact .watchLoads watcher
  | closing watcher fatal =>
    obtain ⟨watchers, same, grows, closed⟩ := r.closeWatcher_eq watcher
    have step : r.step (.closing watcher fatal) choice =
        ({ r with watchers := watchers },
          .complete (.run watcher) .first fatal) :=
      congrArg (·, Pc.complete (.run watcher) .first fatal) same
    rw [step]
    exact .watcherClosed watcher fatal watchers grows closed
  | stopDone | runExited | returned => cases goesOn

variable {r after : Reloader δ} {pc next : Pc δ}

section

variable (acts : r.Acts pc after next)

include acts

theorem Acts.loadHeld (held : pc.holds = true → r.loadHeld = true)
    (free : pc.takesLoad = true → r.loadHeld = false) :
    after.loadHeld.toNat + pc.holds.toNat =
      r.loadHeld.toNat + next.holds.toNat := by
  cases acts with
  | loadRefused caller _ | completeSkip caller _ _ _
  | completeSecond caller _ _ => cases caller <;> rfl
  | loadEnter caller _ =>
    rw [free rfl]
    rfl
  | loadLeave caller result | publishOk caller bundle
  | publishFailed caller bundle =>
    rw [held rfl]
    cases caller <;> rfl
  | stopMarked starting started =>
    cases starting <;> cases started <;> rfl
  | _ => rfl

theorem Acts.starting (set : pc.startup = true → r.starting = true) :
    after.starting.toNat + pc.startup.toNat =
      r.starting.toNat + next.startup.toNat := by
  cases acts with
  | loadRefused caller _ | loadEnter caller _ | loadLeave caller result
  | publish caller bundle _ | publishOk caller bundle
  | publishFailed caller bundle | completeSkip caller _ _ _
  | completeSecond caller _ _ => cases caller <;> rfl
  | stopMarked starting started =>
    cases starting <;> cases started <;> rfl
  | prepareStart _ notStarting _ =>
    rw [notStarting]
    rfl
  | failStart | storeRefused | finishRefused | finished =>
    rw [set rfl]
    rfl
  | _ => rfl

theorem Acts.started (free : pc.startup = true → r.started = false) :
    after.started.toNat + pc.launched.toNat =
      r.started.toNat + next.launched.toNat +
        (spawned pc).countP Pc.launched := by
  cases acts with
  | loadRefused caller _ | loadEnter caller _ | loadLeave caller result
  | publish caller bundle _ | publishOk caller bundle
  | publishFailed caller bundle | completeSkip caller _ _ _
  | completeFirst caller _ | completeSecond caller _ _ => cases caller <;> rfl
  | stopMarked starting started =>
    cases starting <;> cases started <;> rfl
  | finished =>
    rw [free rfl]
    rfl
  | _ => rfl

theorem Acts.stopping_mono (stopping : r.stopping = true) :
    after.stopping = true := by
  cases acts <;> first | rfl | exact stopping

theorem Acts.completed_mono (completed : r.completed = true) :
    after.completed = true := by
  cases acts <;> first | rfl | exact completed

theorem Acts.grows : Grows r.watchers after.watchers := by
  cases acts <;> first
    | assumption
    | exact .refl _
    | exact .append _ _

theorem Acts.exclusive (free : r.starting = true → r.started = false) :
    after.starting = true → after.started = false := by
  cases acts with
  | prepareStart _ _ notStarted =>
    intro _
    exact notStarted
  | failStart | storeRefused | finishRefused | finished =>
    intro starting
    cases starting
  | _ => exact free

end

theorem stopping_of_halted (running : r.halted = false) :
    r.stopping = false := by
  unfold halted at running
  rw [Bool.or_eq_false_iff] at running
  exact running.1

section

variable (acts : r.Acts pc after next)

include acts

theorem Acts.stops :
    next.stops.toNat + r.stopping.toNat ≤
      pc.stops.toNat + after.stopping.toNat := by
  cases acts with
  | loadRefused caller _ | loadLeave caller result | publishOk caller bundle
  | publishFailed caller bundle | completeSkip caller _ _ _
  | completeSecond caller _ _ => cases caller <;> exact Nat.le_refl _
  | completeFirst caller fatal =>
    have same : (Pc.complete (δ := δ) caller .second fatal).stops =
        (Pc.complete (δ := δ) caller .first fatal).stops := by
      cases caller <;> rfl
    rw [same]
    exact Nat.add_le_add_left (Bool.toNat_le _) _
  | stopMarked starting started =>
    cases starting <;> cases started <;> exact Nat.le_refl _
  | stopBegin running =>
    rw [stopping_of_halted running]
    exact Nat.le_refl _
  | _ => exact Nat.le_refl _

theorem Acts.closes (closes : r.doneCloses = r.completed.toNat) :
    after.doneCloses = after.completed.toNat := by
  cases acts with
  | completeSecond caller fatal open_ =>
    rw [open_] at closes
    dsimp only
    rw [closes]
    rfl
  | _ => exact closes

theorem Acts.completes (completes : pc.completes = true) :
    next.completes = true ∨ (spawned pc).any Pc.completes = true ∨
      after.completed = true := by
  cases acts with
  | loadRefused caller _ | loadLeave caller result | publishOk caller bundle
  | publishFailed caller bundle =>
    cases caller with
    | initial | plain => cases completes
    | startup | watch => exact .inl rfl
  | loadEnter caller _ => exact .inl (by cases caller <;> exact completes)
  | publish caller bundle _ =>
    exact .inl (by cases caller <;> exact completes)
  | completeSkip caller phase fatal done => exact .inr (.inr done)
  | completeSecond caller fatal _ => exact .inr (.inr rfl)
  | launched watcher => exact .inr (.inl rfl)
  | stopMarked starting started =>
    refine .inl ?_
    change (!starting && !started) = true at completes
    rw [if_pos completes]
    rfl
  | stopCancelled cancel watcher starting started => exact .inl completes
  | plainRefused | plainLoad | prepareRefused | prepareStart | stopRefused
  | stopBegin => cases completes
  | _ => exact .inl rfl

theorem Acts.stopping_begins (before : r.stopping = false)
    (stopping : after.stopping = true) :
    next.completes = true ∨ r.starting = true ∨ r.started = true := by
  cases acts with
  | completeFirst caller fatal => exact .inl rfl
  | stopBegin running =>
    cases starting : r.starting with
    | true => exact .inr (.inl rfl)
    | false =>
      cases started : r.started with
      | true => exact .inr (.inr rfl)
      | false =>
        refine .inl ?_
        rfl
  | _ => cases before.symm.trans stopping

theorem Acts.loadHeld_stays (stopping : r.stopping = true)
    (free : r.loadHeld = false) : after.loadHeld = false := by
  cases acts with
  | loadEnter caller running =>
    cases (stopping_of_halted running).symm.trans stopping
  | loadLeave | publishOk | publishFailed => rfl
  | _ => exact free

end

/-! ## The remembered digest -/

/-- The digest a reloader compares new bundles with. -/
def remembered (r : Reloader δ) : Option δ :=
  if r.published then some r.digest else none

/-- The bundle of the last `publish` call that succeeded. -/
def lastPublished (publishes : List (δ × Bool)) : Option δ :=
  ((publishes.filter Prod.snd).getLast?).map Prod.fst

theorem lastPublished_append (publishes : List (δ × Bool)) (bundle : δ)
    (succeeded : Bool) :
    lastPublished (publishes ++ [(bundle, succeeded)]) =
      if succeeded then some bundle else lastPublished publishes := by
  unfold lastPublished
  cases succeeded <;> simp

theorem Acts.remembered (acts : r.Acts pc after next)
    (last : r.remembered = lastPublished r.publishes) :
    after.remembered = lastPublished after.publishes := by
  cases acts with
  | publishOk caller bundle =>
    rw [lastPublished_append]
    rfl
  | publishFailed caller bundle =>
    rw [lastPublished_append]
    exact last
  | _ => exact last

/-- Only a `publish` call that succeeds changes the remembered digest. -/
theorem Acts.remembered_changes (acts : r.Acts pc after next)
    (changes : after.remembered ≠ r.remembered) :
    ∃ caller bundle, pc = .load caller (.publishing bundle) ∧
      after.publishes = r.publishes ++ [(bundle, true)] ∧
      after.remembered = some bundle := by
  cases acts with
  | publishOk caller bundle => exact ⟨caller, bundle, rfl, rfl, rfl⟩
  | _ => exact absurd rfl changes

/-! ## What is known of one thread -/

/-- Facts about a thread at its program counter. -/
structure Good (r : Reloader δ) (pc : Pc δ) : Prop where
  watcher : ∀ watcher, pc.watcher? = some watcher → watcher < r.watchers.length
  marked : pc.marked = true → r.loadHeld = false
  second : ∀ caller fatal, pc = .complete caller .second fatal →
    r.stopping = true
  exited : ∀ watcher, pc = .runExited watcher → r.completed = true
  closed : ∀ watcher, pc = .runExited watcher ∨
    (∃ phase fatal, pc = .complete (.run watcher) phase fatal) →
    Closed r.watchers watcher

theorem Good.other (good : r.Good pc) {acting : Pc δ}
    (acts : r.Acts acting after next)
    (stopping : pc.stops = true → r.stopping = true) : after.Good pc := by
  refine ⟨?_, ?_, ?_, ?_, ?_⟩
  · intro watcher works
    exact acts.grows.lt (good.watcher watcher works)
  · intro marked
    apply acts.loadHeld_stays _ (good.marked marked)
    apply stopping
    cases pc with
    | complete caller _ _ =>
      cases caller with
      | stop => rfl
      | failStart | abandon | run => cases marked
    | stopDone => rfl
    | _ => cases marked
  · intro caller fatal same
    exact acts.stopping_mono (good.second caller fatal same)
  · intro watcher same
    exact acts.completed_mono (good.exited watcher same)
  · intro watcher same
    exact acts.grows.closed (good.closed watcher same)

theorem Acts.completed_stopping (acts : r.Acts pc after next)
    (good : r.Good pc) (stopping : r.completed = true → r.stopping = true) :
    after.completed = true → after.stopping = true := by
  cases acts with
  | completeSecond caller fatal _ =>
    intro _
    exact good.second caller fatal rfl
  | completeFirst | stopBegin => exact fun _ => rfl
  | _ => exact stopping

theorem good_of_ordinary (ordinary : pc.ordinary = true)
    (watcher : ∀ watcher, pc.watcher? = some watcher →
      watcher < r.watchers.length) : r.Good pc := by
  refine ⟨watcher, ?_, ?_, ?_, ?_⟩
  · intro marked
    cases pc with
    | complete | stopDone | runExited => cases ordinary
    | _ => cases marked
  · intro caller fatal same
    subst same
    cases ordinary
  · intro watcher same
    subst same
    cases ordinary
  · intro watcher same
    rcases same with same | ⟨phase, fatal, same⟩
    all_goals
      subst same
      cases ordinary

variable {caller : LoadCaller} {phase : LoadPhase δ} {fatal : Bool}

theorem good_after (good : r.Good (.load caller phase))
    (grows : Grows r.watchers after.watchers) (result : CallResult) :
    after.Good (caller.after result) := by
  cases caller with
  | initial | plain =>
    apply good_of_ordinary rfl
    intro watcher works
    cases works
  | startup watcher | watch watcher =>
    apply good_of_ordinary rfl
    intro other works
    cases works
    exact grows.lt (good.watcher watcher rfl)

theorem good_load {other : LoadPhase δ} (good : r.Good (.load caller phase))
    (grows : Grows r.watchers after.watchers) :
    after.Good (.load caller other) := by
  apply good_of_ordinary rfl
  intro watcher works
  apply grows.lt (good.watcher watcher _)
  cases caller <;> exact works

theorem good_complete_after {caller : CompleteCaller} {phase : CompletePhase}
    (good : r.Good (.complete caller phase fatal))
    (watchers : after.watchers = r.watchers)
    (free : after.loadHeld = r.loadHeld) (done : after.completed = true) :
    after.Good caller.after := by
  cases caller with
  | failStart | abandon =>
    apply good_of_ordinary rfl
    intro watcher works
    cases works
  | stop =>
    refine ⟨?_, ?_, ?_, ?_, ?_⟩
    · intro watcher works
      cases works
    · intro _
      rw [free]
      exact good.marked rfl
    · intro caller fatal same
      cases same
    · intro watcher same
      cases same
    · intro watcher same
      rcases same with same | ⟨_, _, same⟩ <;> cases same
  | run watcher =>
    refine ⟨?_, ?_, ?_, ?_, ?_⟩
    · intro other works
      rw [watchers]
      exact good.watcher other works
    · intro marked
      cases marked
    · intro caller fatal same
      cases same
    · intro _ _
      exact done
    · intro other same
      rw [watchers]
      apply good.closed other
      rcases same with same | ⟨_, _, same⟩
      · cases same
        exact .inr ⟨phase, fatal, rfl⟩
      · cases same

theorem good_complete_first {caller : CompleteCaller}
    (free : caller = .stop → r.loadHeld = false)
    (closed : ∀ watcher, caller = .run watcher → Closed r.watchers watcher) :
    r.Good (.complete caller .first fatal) := by
  refine ⟨?_, ?_, ?_, ?_, ?_⟩
  · intro watcher works
    cases caller with
    | failStart | abandon | stop => cases works
    | run own =>
      cases works
      obtain ⟨watch, found, _⟩ := closed watcher rfl
      exact (List.getElem?_eq_some_iff.mp found).1
  · intro marked
    cases caller with
    | stop => exact free rfl
    | failStart | abandon | run => cases marked
  · intro other fatal same
    cases same
  · intro watcher same
    cases same
  · intro watcher same
    rcases same with same | ⟨_, _, same⟩
    · cases same
    · cases same
      exact closed watcher rfl

theorem Acts.good (acts : r.Acts pc after next) (good : r.Good pc)
    (free : pc.takesLoad = true → r.loadHeld = false) :
    after.Good next := by
  have grows := acts.grows
  cases acts with
  | loadRefused | loadLeave | publishOk | publishFailed =>
    exact good_after good grows _
  | loadEnter | publish => exact good_load good grows
  | completeSkip caller phase fatal done =>
    exact good_complete_after good rfl rfl done
  | completeFirst caller fatal =>
    refine ⟨?_, ?_, fun _ _ _ => rfl, ?_, ?_⟩
    · intro watcher works
      apply good.watcher watcher
      cases caller <;> exact works
    · intro marked
      apply good.marked
      cases caller <;> exact marked
    · intro watcher same
      cases same
    · intro watcher same
      apply good.closed watcher
      rcases same with same | ⟨_, _, same⟩
      · cases same
      · cases same
        exact .inr ⟨_, _, rfl⟩
  | completeSecond caller fatal _ =>
    exact good_complete_after good rfl rfl rfl
  | plainRefused | plainLoad | prepareRefused | prepareStart | createFailed
  | addFailed | launched | stopRefused | stopBegin | stopCancelled =>
    apply good_of_ordinary rfl
    intro watcher works
    cases works
  | created =>
    apply good_of_ordinary rfl
    intro watcher works
    cases works
    dsimp only
    rw [List.length_append]
    exact Nat.lt_succ_self _
  | storeRefused watcher | stored watcher | finishRefused watcher
  | finished watcher | watchLoads watcher | watchReturns watcher _ =>
    apply good_of_ordinary rfl
    intro other works
    cases works
    exact good.watcher watcher rfl
  | failStart | abandoned =>
    apply good_complete_first
    · intro same
      cases same
    · intro watcher same
      cases same
  | stopMarked starting started =>
    have clear := free rfl
    split
    · apply good_complete_first
      · intro _
        exact clear
      · intro watcher same
        cases same
    · refine ⟨?_, fun _ => clear, ?_, ?_, ?_⟩
      · intro watcher works
        cases works
      · intro caller fatal same
        cases same
      · intro watcher same
        cases same
      · intro watcher same
        rcases same with same | ⟨_, _, same⟩ <;> cases same
  | watcherClosed watcher fatal watchers _ closed =>
    apply good_complete_first
    · intro same
      cases same
    · intro other same
      cases same
      exact closed (good.watcher watcher rfl)

theorem Acts.good_spawned (acts : r.Acts pc after next) (good : r.Good pc)
    (started : Pc δ) (among : started ∈ spawned pc) : after.Good started := by
  cases acts with
  | launched watcher =>
    cases List.mem_singleton.mp among
    apply good_of_ordinary rfl
    intro other works
    cases works
    exact good.watcher watcher rfl
  | _ => cases among

end Reloader

end QMux.TLSReload
