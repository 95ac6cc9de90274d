import QMux.TLSReload.Steps

/-!
# The lifecycle of a reloader

Over every interleaving of loads, starts, stops and the watch goroutine:
`done` is closed once, by whoever `Stop` left it to; after `Stop` has returned
nothing is published; one watch goroutine is started at most; and the digest
that decides whether a bundle is new is that of the last bundle published.
-/

namespace QMux.TLSReload

open Support

variable {δ : Type} [DecidableEq δ]

namespace System

open Reloader

variable {state : System δ}

/-- The invariant of all runs. -/
structure Sound (state : System δ) : Prop where
  good : ∀ pc ∈ state.threads, state.reloader.Good pc
  held : state.threads.countP Pc.holds = state.reloader.loadHeld.toNat
  starting : state.threads.countP Pc.startup = state.reloader.starting.toNat
  started : state.threads.countP Pc.launched = state.reloader.started.toNat
  exclusive : state.reloader.starting = true → state.reloader.started = false
  stops : state.threads.countP Pc.stops ≤ state.reloader.stopping.toNat
  closes : state.reloader.doneCloses = state.reloader.completed.toNat
  stopping : state.reloader.completed = true → state.reloader.stopping = true
  completes : state.reloader.stopping = true → state.reloader.completed = true ∨
      ∃ pc ∈ state.threads, pc.completes = true
  remembered : state.reloader.remembered =
    lastPublished state.reloader.publishes

omit [DecidableEq δ] in
theorem sound_new (digest : δ) : Sound ⟨.new digest, []⟩ := by
  refine
    { good := ?_, held := rfl, starting := rfl, started := rfl,
      exclusive := ?_, stops := Nat.le_refl _, closes := rfl,
      stopping := ?_, completes := ?_, remembered := rfl }
  · intro pc among
    cases among
  · intro starting
    cases starting
  · intro completed
    cases completed
  · intro stopping
    cases stopping

variable {pc : Pc δ}

omit [DecidableEq δ] in
theorem flag_of_mem {threads : List (Pc δ)} {counted : Pc δ → Bool}
    {flag : Bool} (count : threads.countP counted ≤ flag.toNat)
    (among : pc ∈ threads) (truth : counted pc = true) : flag = true := by
  have positive := List.countP_pos_iff.mpr ⟨pc, among, truth⟩
  cases flag with
  | true => rfl
  | false =>
    change _ ≤ 0 at count
    omega

theorem Sound.call (sound : state.Sound) (call : Call) :
    (state.apply (.call call)).Sound := by
  have member : ∀ pc, pc ∈ (state.apply (.call call)).threads →
      pc ∈ state.threads ∨ pc = call.entry := by
    intro pc among
    rcases List.mem_append.mp among with old | new
    · exact .inl old
    · exact .inr (List.mem_singleton.mp new)
  have count : ∀ counted : Pc δ → Bool, counted call.entry = false →
      (state.apply (.call call)).threads.countP counted =
        state.threads.countP counted := by
    intro counted nothing
    change (state.threads ++ [call.entry]).countP counted = _
    rw [countP_append_singleton, nothing]
    rfl
  have entry : ∀ counted : Pc δ → Bool, counted (.load .initial .waiting) =
      false → counted .plainCheck = false → counted .prepareCheck =
      false → counted .stopCheck = false → counted call.entry = false := by
    intro counted initial plain prepare stop
    cases call with
    | loadInitial => exact initial
    | prepareStart watch =>
      cases watch with
      | false => exact plain
      | true => exact prepare
    | stop => exact stop
  refine
    { good := ?_, held := ?_, starting := ?_, started := ?_,
      exclusive := sound.exclusive, stops := ?_, closes := sound.closes,
      stopping := sound.stopping, completes := ?_,
      remembered := sound.remembered }
  · intro pc among
    rcases member pc among with old | rfl
    · exact sound.good pc old
    apply good_of_ordinary
    · cases call with
      | loadInitial | stop => rfl
      | prepareStart watch => cases watch <;> rfl
    · intro watcher works
      cases call with
      | loadInitial | stop => cases works
      | prepareStart watch => cases watch <;> cases works
  · rw [count _ (entry _ rfl rfl rfl rfl)]
    exact sound.held
  · rw [count _ (entry _ rfl rfl rfl rfl)]
    exact sound.starting
  · rw [count _ (entry _ rfl rfl rfl rfl)]
    exact sound.started
  · rw [count _ (entry _ rfl rfl rfl rfl)]
    exact sound.stops
  · intro stopping
    rcases sound.completes stopping with done | ⟨pc, among, completes⟩
    · exact .inl done
    · exact .inr ⟨pc, List.mem_append_left _ among, completes⟩

section Step

variable {thread : Nat} {choice : Choice δ} {pc : Pc δ}

omit [DecidableEq δ] in
theorem enabled_step (enabled : state.Enabled (.step thread choice)) :
    ∃ pc, state.threads[thread]? = some pc ∧ pc.ended = false ∧
      (pc.takesLoad = true → state.reloader.loadHeld = false) := by
  unfold Enabled at enabled
  dsimp only at enabled
  split at enabled
  · exact enabled.elim
  · rename_i pc found
    exact ⟨pc, found, enabled⟩

theorem apply_step (found : state.threads[thread]? = some pc) :
    state.apply (.step thread choice) =
      { reloader := (state.reloader.step pc choice).1
        threads := state.threads.set thread
          (state.reloader.step pc choice).2 ++ spawned pc } := by
  unfold apply
  dsimp only
  rw [found]

omit [DecidableEq δ] in
theorem countP_step (counted : Pc δ → Bool)
    (found : state.threads[thread]? = some pc) (next : Pc δ) :
    (state.threads.set thread next ++ spawned pc).countP counted +
        (counted pc).toNat =
      state.threads.countP counted + (counted next).toNat +
        (spawned pc).countP counted := by
  have moved := countP_set_eq counted found next
  rw [List.countP_append]
  omega

omit [DecidableEq δ] in
theorem countP_spawned (counted : Pc δ → Bool)
    (nothing : ∀ watcher, counted (.watching watcher) = false) (pc : Pc δ) :
    (spawned pc).countP counted = 0 := by
  cases pc with
  | launching watcher =>
    change [Pc.watching watcher].countP counted = 0
    rw [List.countP_singleton, nothing]
    rfl
  | _ => rfl

theorem Sound.completes_step (sound : state.Sound) {after : Reloader δ}
    {next : Pc δ} (found : state.threads[thread]? = some pc)
    (acts : state.reloader.Acts pc after next)
    (stopping : after.stopping = true) :
    after.completed = true ∨
      ∃ other ∈ state.threads.set thread next ++ spawned pc,
        other.completes = true := by
  have own : next ∈ state.threads.set thread next ++ spawned pc := by
    apply List.mem_append_left
    exact List.mem_of_getElem? (by
      rw [getElem?_set_eq found, if_pos rfl])
  -- Some thread was to complete before this action.
  have before : state.reloader.completed = true ∨ next.completes = true ∨
      ∃ other ∈ state.threads, other.completes = true := by
    cases was : state.reloader.stopping with
    | true =>
      rcases sound.completes was with done | waiting
      · exact .inl done
      · exact .inr (.inr waiting)
    | false =>
      rcases acts.stopping_begins was stopping with completes |
        starting | started
      · exact .inr (.inl completes)
      · have positive : 0 < state.threads.countP Pc.startup := by
          rw [sound.starting, starting]
          decide
        obtain ⟨other, among, startup⟩ := List.countP_pos_iff.mp positive
        refine .inr (.inr ⟨other, among, ?_⟩)
        cases other with
        | load caller phase =>
          cases caller with
          | startup watcher => rfl
          | initial | plain | watch => cases startup
        | creating | failStart | storing | finishing => rfl
        | _ => cases startup
      · have positive : 0 < state.threads.countP Pc.launched := by
          rw [sound.started, started]
          decide
        obtain ⟨other, among, launched⟩ := List.countP_pos_iff.mp positive
        cases other with
        | load caller phase =>
          cases caller with
          | watch watcher => exact .inr (.inr ⟨_, among, rfl⟩)
          | initial | plain | startup => cases launched
        | complete | launching | watching | closing =>
          exact .inr (.inr ⟨_, among, rfl⟩)
        | runExited watcher =>
          exact .inl ((sound.good _ among).exited watcher rfl)
        | _ => cases launched
  rcases before with done | completes | ⟨other, among, completes⟩
  · exact .inl (acts.completed_mono done)
  · exact .inr ⟨next, own, completes⟩
  · by_cases same : other = pc
    · subst same
      rcases acts.completes completes with goesOn | handsOver | done
      · exact .inr ⟨next, own, goesOn⟩
      · obtain ⟨started, new, truth⟩ := List.any_eq_true.mp handsOver
        exact .inr ⟨started, List.mem_append_right _ new, truth⟩
      · exact .inl done
    · refine .inr ⟨other, List.mem_append_left _ ?_, completes⟩
      obtain ⟨index, at_⟩ := List.getElem?_of_mem among
      apply List.mem_of_getElem? (i := index)
      rw [getElem?_set_eq found]
      split
      · rename_i here
        rw [here, found] at at_
        exact absurd (Option.some.inj at_).symm same
      · exact at_

theorem Sound.step (sound : state.Sound)
    (enabled : state.Enabled (.step thread choice)) :
    (state.apply (.step thread choice)).Sound := by
  obtain ⟨pc, found, goesOn, free⟩ := enabled_step enabled
  have among : pc ∈ state.threads := List.mem_of_getElem? found
  have good := sound.good pc among
  have acts := state.reloader.step_acts choice goesOn
  rw [apply_step found]
  generalize (state.reloader.step pc choice).1 = after at acts ⊢
  generalize (state.reloader.step pc choice).2 = next at acts ⊢
  have starting : pc.startup = true → state.reloader.starting = true :=
    flag_of_mem sound.starting.le among
  refine
    { good := ?_, held := ?_, starting := ?_, started := ?_,
      exclusive := acts.exclusive sound.exclusive, stops := ?_,
      closes := acts.closes sound.closes,
      stopping := acts.completed_stopping good sound.stopping,
      completes := sound.completes_step found acts,
      remembered := acts.remembered sound.remembered }
  · intro other member
    rcases List.mem_append.mp member with old | new
    · obtain ⟨index, at_⟩ := List.getElem?_of_mem old
      rcases cases_set found at_ with ⟨_, rfl⟩ | ⟨_, at_⟩
      · exact acts.good good free
      · have there := List.mem_of_getElem? at_
        exact (sound.good other there).other acts
          (flag_of_mem sound.stops there)
    · exact acts.good_spawned good other new
  · have moved := countP_step Pc.holds found next
    have spawns := countP_spawned Pc.holds (fun _ => rfl) pc
    have balance := acts.loadHeld (flag_of_mem sound.held.le among) free
    have before := sound.held
    dsimp only
    omega
  · have moved := countP_step Pc.startup found next
    have spawns := countP_spawned Pc.startup (fun _ => rfl) pc
    have balance := acts.starting starting
    have before := sound.starting
    dsimp only
    omega
  · have moved := countP_step Pc.launched found next
    have balance := acts.started fun startup =>
      sound.exclusive (starting startup)
    have before := sound.started
    dsimp only
    omega
  · have moved := countP_step Pc.stops found next
    have spawns := countP_spawned Pc.stops (fun _ => rfl) pc
    have balance := acts.stops
    have before := sound.stops
    dsimp only
    omega

end Step

variable {op : Op δ}

theorem Sound.apply (sound : state.Sound) (enabled : state.Enabled op) :
    (state.apply op).Sound := by
  cases op with
  | call call => exact sound.call call
  | step thread choice => exact sound.step enabled

theorem reachable_sound {digest : δ}
    (reachable : (system digest).Reachable state) : state.Sound := by
  apply reachable.invariant
  · intro state initial
    rw [initial]
    exact sound_new digest
  · intro before after _ sound step
    obtain ⟨op, enabled, rfl⟩ := step
    exact sound.apply enabled

/-! ## After `Stop` -/

/-- A call of `Stop` that stopped the reloader has returned. -/
def Stopped (state : System δ) : Prop := Pc.stopDone ∈ state.threads

omit [DecidableEq δ] in
theorem Sound.quiet (sound : state.Sound) (stopped : state.Stopped)
    (among : pc ∈ state.threads) : pc.publishing = false := by
  have free := (sound.good _ stopped).marked rfl
  have none := sound.held
  rw [free] at none
  cases publishing : pc.publishing with
  | false => rfl
  | true =>
    have holds : pc.holds = true := by
      cases pc with
      | load caller phase =>
        cases phase with
        | publishing bundle => rfl
        | waiting | loading => cases publishing
      | _ => cases publishing
    exact absurd holds (List.countP_eq_zero.mp none pc among)

theorem Stopped.apply (enabled : state.Enabled op) (stopped : state.Stopped) :
    (state.apply op).Stopped := by
  cases op with
  | call call => exact List.mem_append_left _ stopped
  | step thread choice =>
    obtain ⟨pc, found, goesOn, _⟩ := enabled_step enabled
    rw [apply_step found]
    apply List.mem_append_left
    obtain ⟨index, at_⟩ := List.getElem?_of_mem stopped
    apply List.mem_of_getElem? (i := index)
    rw [getElem?_set_eq found]
    split
    · rename_i here
      rw [here, found] at at_
      cases at_
      cases goesOn
    · exact at_

/-- Nothing is published after `Stop`. -/
theorem Sound.publishes_apply (sound : state.Sound) (stopped : state.Stopped)
    (enabled : state.Enabled op) :
    (state.apply op).reloader.publishes = state.reloader.publishes := by
  cases op with
  | call call => rfl
  | step thread choice =>
    obtain ⟨pc, found, goesOn, _⟩ := enabled_step enabled
    have quiet := sound.quiet stopped (List.mem_of_getElem? found)
    have acts := state.reloader.step_acts choice goesOn
    rw [apply_step found]
    dsimp only
    generalize (state.reloader.step pc choice).1 = after at acts ⊢
    generalize (state.reloader.step pc choice).2 = next at acts
    cases acts with
    | publishOk | publishFailed => cases quiet
    | _ => rfl

omit [DecidableEq δ] in
/-- `done` is closed once all that could still close it are over. -/
theorem Sound.done (sound : state.Sound) (stopped : state.Stopped)
    (prepared : ∀ pc ∈ state.threads, pc.preparing = false)
    (exited : ∀ pc ∈ state.threads, ∀ watcher, pc.run? = some watcher →
      pc = .runExited watcher) : state.reloader.doneCloses = 1 := by
  have stopping := flag_of_mem sound.stops stopped rfl
  rcases sound.completes stopping with done | ⟨pc, among, completes⟩
  · rw [sound.closes, done]
    rfl
  exfalso
  have notPreparing := prepared pc among
  have notRunning := exited pc among
  -- Only another `Stop` call is left, and there is no other.
  have stops : pc.stops = true ∧ pc ≠ .stopDone := by
    cases pc with
    | load caller phase =>
      cases caller with
      | initial => cases completes
      | plain | startup => cases notPreparing
      | watch watcher => cases notRunning watcher rfl
    | complete caller phase fatal =>
      cases caller with
      | failStart | abandon => cases notPreparing
      | stop => exact ⟨rfl, by simp⟩
      | run watcher => cases notRunning watcher rfl
    | stopCancel | stopMark => exact ⟨rfl, by simp⟩
    | watching watcher | closing watcher fatal => cases notRunning watcher rfl
    | creating | failStart | storing | finishing | abandoning
    | launching => cases notPreparing
    | plainCheck | prepareCheck | stopCheck | stopDone | runExited
    | returned => cases completes
  obtain ⟨before, after, split⟩ := List.append_of_mem stopped
  have count := sound.stops
  rw [split, List.countP_append, List.countP_cons_of_pos rfl, stopping] at count
  have elsewhere : pc ∈ before ∨ pc ∈ after := by
    rw [split] at among
    rcases List.mem_append.mp among with left | right
    · exact .inl left
    · rcases List.mem_cons.mp right with same | later
      · exact absurd same stops.2
      · exact .inr later
  change _ ≤ 1 at count
  rcases elsewhere with left | right
  · have one := List.countP_pos_iff.mpr ⟨pc, left, stops.1⟩
    omega
  · have one := List.countP_pos_iff.mpr ⟨pc, right, stops.1⟩
    omega

/-- What holds of a reloader in every state of every run. -/
structure Lifecycle (digest : δ) (state : System δ) : Prop where
  once : state.reloader.doneCloses ≤ 1
  quiet : state.Stopped → ∀ later, (system digest).Reaches state later →
    (∀ pc ∈ later.threads, pc.publishing = false) ∧
      later.reloader.publishes = state.reloader.publishes
  done : state.Stopped → (∀ pc ∈ state.threads, pc.preparing = false) →
    (∀ pc ∈ state.threads, ∀ watcher, pc.run? = some watcher →
      pc = .runExited watcher) → state.reloader.doneCloses = 1
  single : state.threads.countP (fun pc => pc.run?.isSome) ≤ 1
  watched : ∀ pc ∈ state.threads, ∀ watcher, pc.run? = some watcher →
    watcher < state.reloader.watchers.length ∧
      (pc = .runExited watcher → Closed state.reloader.watchers watcher)
  remembered : state.reloader.remembered =
    lastPublished state.reloader.publishes
  changes : ∀ op, state.Enabled op →
    (state.apply op).reloader.remembered ≠ state.reloader.remembered →
    ∃ thread choice caller bundle, op = .step thread choice ∧
      state.threads[thread]? = some (.load caller (.publishing bundle)) ∧
      (state.apply op).reloader.publishes =
        state.reloader.publishes ++ [(bundle, true)] ∧
      (state.apply op).reloader.remembered = some bundle

/-- The lifecycle of a reloader over every run. -/
theorem reloader_lifecycle (digest : δ) (state : System δ)
    (reachable : (system digest).Reachable state) :
    Lifecycle digest state := by
  have sound := reachable_sound reachable
  refine ⟨?_, ?_, sound.done, ?_, ?_, sound.remembered, ?_⟩
  · rw [sound.closes]
    exact Bool.toNat_le _
  · intro stopped later reaches
    have kept : later.Stopped ∧
        later.reloader.publishes = state.reloader.publishes := by
      apply reaches.invariant (fun later => later.Stopped ∧
        later.reloader.publishes = state.reloader.publishes) _ reachable
        ⟨stopped, rfl⟩
      intro before after earlier kept step
      obtain ⟨op, enabled, rfl⟩ := step
      refine ⟨kept.1.apply enabled, ?_⟩
      rw [(reachable_sound earlier).publishes_apply kept.1 enabled]
      exact kept.2
    refine ⟨?_, kept.2⟩
    intro pc among
    exact (reachable_sound (reachable.trans reaches)).quiet kept.1 among
  · calc state.threads.countP (fun pc => pc.run?.isSome)
        ≤ state.threads.countP Pc.launched := by
          apply List.countP_mono_left
          intro pc _ runs
          cases pc with
          | launching => rfl
          | _ => exact runs
      _ = state.reloader.started.toNat := sound.started
      _ ≤ 1 := Bool.toNat_le _
  · intro pc among watcher runs
    have good := sound.good pc among
    refine ⟨good.watcher watcher ?_, ?_⟩
    · cases pc with
      | load caller phase =>
        cases caller with
        | watch => exact runs
        | initial | plain | startup => cases runs
      | storing | finishing | abandoning | launching => cases runs
      | _ => exact runs
    · intro exited
      exact good.closed watcher (.inl exited)
  · intro op enabled changes
    cases op with
    | call call => exact absurd rfl changes
    | step thread choice =>
      obtain ⟨pc, found, goesOn, _⟩ := enabled_step enabled
      have acts := state.reloader.step_acts choice goesOn
      rw [apply_step found] at changes ⊢
      obtain ⟨caller, bundle, same, log, now⟩ := acts.remembered_changes changes
      exact ⟨thread, choice, caller, bundle, rfl, same ▸ found, log, now⟩

/-- A start with a watch, a load that changes the bundle, and a stop during a
second load. -/
def sampleSchedule : List (Op Nat) :=
  [.call .loadInitial, .step 0 .proceed, .step 0 (.loaded 1),
    .step 0 .publishOk, .call (.prepareStart true), .step 1 .proceed,
    .step 1 .proceed, .step 1 .proceed, .step 1 .proceed,
    .step 1 (.loaded 1), .step 1 .proceed, .step 1 .proceed,
    .step 2 .watchLoads, .step 2 .proceed, .step 2 (.loaded 5),
    .call .stop, .step 3 .proceed, .step 3 .proceed, .step 2 .publishOk,
    .step 3 .proceed, .step 2 (.watchReturns false), .step 2 .proceed,
    .step 2 .proceed, .step 2 .proceed]

theorem reloader_lifecycle_sample :
    ∃ state, (system (0 : Nat)).Reachable state ∧ state.Stopped ∧
      state.threads = [.returned .succeeded, .returned .succeeded,
        .runExited 0, .stopDone] ∧
      state.reloader.doneCloses = 1 ∧
      state.reloader.remembered = some 5 ∧ Lifecycle 0 state := by
  have allows : TransitionSystem.Allows Enabled System.apply
      (⟨.new 0, []⟩ : System Nat) sampleSchedule := by
    decide +kernel
  have start : (system (0 : Nat)).Reachable ⟨.new 0, []⟩ := .start rfl
  have steps : ∀ (state : System Nat) op, Enabled state op →
      (system (0 : Nat)).step state (System.apply state op) := by
    intro state op enabled
    exact ⟨op, enabled, rfl⟩
  have reachable := start.schedule steps allows
  refine ⟨_, reachable, ?_, ?_, ?_, ?_, ?_⟩
  · unfold Stopped
    decide +kernel
  · decide +kernel
  · decide +kernel
  · decide +kernel
  · exact reloader_lifecycle 0 _ reachable

end System

end QMux.TLSReload
