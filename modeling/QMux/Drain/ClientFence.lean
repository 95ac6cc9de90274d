import QMux.Drain.Client

/-!
# What a client has dispatched when it accepts a fence

The accept loop dispatches the server's streams in order, never above the
fence.  If the loop ends before it has reached the fence, an accept error, a
forced runtime or a forced client explains it, and `processRuntime` turns the
first two into a semantic error.  So a return without one, after a fence was
received and without a forced client, has dispatched every stream up to the
fence.
-/

namespace QMux.Drain

/-! ## The order of dispatched streams -/

/-- How far the loop is with the streams QUIC handed out. -/
def AcceptLoop.InStep (accept : AcceptLoop) : Prop :=
  match accept.pc with
  | .accepting => accept.delivered = accept.dispatched.length
  | .cancelling => accept.delivered = accept.dispatched.length
  | .accepted id => id = streamID accept.dispatched.length ∧
      accept.delivered = accept.dispatched.length + 1
  | _ => accept.dispatched.length ≤ accept.delivered

/-- The dispatched streams are the first ones the server opened. -/
structure Ordered (opened : Nat) (acceptedHigh : Int) (accept : AcceptLoop) :
    Prop where
  streams : accept.dispatched =
    (List.range accept.dispatched.length).map streamID
  none : accept.dispatched.length = 0 → acceptedHigh = -1
  last : ∀ n, accept.dispatched.length = n + 1 → acceptedHigh = streamID n
  inStep : accept.InStep
  bound : accept.delivered ≤ opened

theorem streamID_lt {m n : Nat} : streamID m < streamID n ↔ m < n := by
  unfold streamID
  omega

namespace Ordered

variable {opened : Nat} {acceptedHigh : Int} {accept : AcceptLoop}

theorem dispatched_le (ordered : Ordered opened acceptedHigh accept) :
    accept.dispatched.length ≤ accept.delivered := by
  have inStep := ordered.inStep
  unfold AcceptLoop.InStep at inStep
  split at inStep
  · exact Nat.le_of_eq inStep.symm
  · exact Nat.le_of_eq inStep.symm
  · omega
  · exact inStep

variable {pc : AcceptPC}

variable (ordered : Ordered opened acceptedHigh accept)

include ordered

theorem leave
    (leaves : pc ≠ .accepting ∧ pc ≠ .cancelling ∧ ∀ id, pc ≠ .accepted id) :
    Ordered opened acceptedHigh { accept with pc := pc } := by
  refine ⟨ordered.streams, ordered.none, ordered.last, ?_, ordered.bound⟩
  obtain ⟨notAccepting, notCancelling, notAccepted⟩ := leaves
  have behind := ordered.dispatched_le
  cases pc with
  | accepting => exact absurd rfl notAccepting
  | cancelling => exact absurd rfl notCancelling
  | accepted id => exact absurd rfl (notAccepted id)
  | _ => exact behind

theorem acceptStream (accepting : accept.pc = .accepting)
    (more : accept.delivered < opened) :
    Ordered opened acceptedHigh
      { accept with
        pc := .accepted (streamID accept.delivered)
        delivered := accept.delivered + 1 } := by
  have inStep := ordered.inStep
  rw [AcceptLoop.InStep, accepting] at inStep
  dsimp only at inStep
  refine ⟨ordered.streams, ordered.none, ordered.last, ?_, more⟩
  refine ⟨?_, ?_⟩
  · dsimp only
    rw [inStep]
  · dsimp only
    rw [inStep]

theorem dispatch {id : Int} (accepted : accept.pc = .accepted id)
    (continues : pc = .accepting ∨ pc = .cancelling) (handlers : Nat) :
    Ordered opened (max acceptedHigh id)
      { accept with
        pc := pc
        dispatched := accept.dispatched ++ [id]
        handlers := handlers } := by
  have inStep := ordered.inStep
  rw [AcceptLoop.InStep, accepted] at inStep
  obtain ⟨next, delivered⟩ := inStep
  have above : acceptedHigh < id := by
    rw [next]
    cases count : accept.dispatched.length with
    | zero =>
      rw [ordered.none count]
      decide
    | succ n =>
      rw [ordered.last n count]
      exact streamID_lt.mpr (Nat.lt_succ_self n)
  have high : max acceptedHigh id = id := max_eq_right (Int.le_of_lt above)
  constructor
  · dsimp only
    rw [List.length_append, List.length_singleton, List.range_succ,
      List.map_append, ← ordered.streams, next]
    rfl
  · intro empty
    simp at empty
  · intro n count
    simp only [List.length_append, List.length_singleton] at count
    rw [high, next, Nat.succ.inj count]
  · rcases continues with rfl | rfl
    all_goals simpa [AcceptLoop.InStep] using delivered
  · exact ordered.bound

theorem reaccept (cancelling : accept.pc = .cancelling) :
    Ordered opened acceptedHigh { accept with pc := .accepting } := by
  refine ⟨ordered.streams, ordered.none, ordered.last, ?_, ordered.bound⟩
  have inStep := ordered.inStep
  rw [AcceptLoop.InStep, cancelling] at inStep
  exact inStep

theorem mono {later : Nat} (grows : opened ≤ later) :
    Ordered later acceptedHigh accept :=
  ⟨ordered.streams, ordered.none, ordered.last, ordered.inStep,
    Nat.le_trans ordered.bound grows⟩

end Ordered

namespace Client

variable {opened : Nat} {sent : List Int} {client : Client}

/-- Both loops' view of the streams accepted so far. -/
def InOrder (opened : Nat) (client : Client) : Prop :=
  Ordered opened client.runtime.acceptedHigh client.accept

/-- The steps of `processRuntime` leave the accept loop alone. -/
structure KeepsAccept (client next : Client) : Prop where
  high : next.runtime.acceptedHigh = client.runtime.acceptedHigh
  accept : next.accept = client.accept

theorem select_keepsAccept {continues : Client}
    (keeps : client.KeepsAccept continues) (selected : Selected) :
    client.KeepsAccept (client.select continues selected) := by
  cases selected with
  | ready => exact keeps
  | _ => exact ⟨rfl, rfl⟩

theorem receiveFence_keepsAccept : client.KeepsAccept client.receiveFence := by
  unfold receiveFence
  split
  all_goals exact ⟨rfl, rfl⟩

theorem runtime_setFence_some {runtime next : Runtime} {fence : Int}
    (sets : runtime.setFence fence = some next) :
    next = { runtime with
      fenceSet := true
      fence := fence
      acceptCancelled := runtime.acceptCancelled ∨
        (fence = -1 ∨ runtime.acceptedHigh ≥ fence) } := by
  unfold Runtime.setFence at sets
  split at sets
  · cases sets
  · split at sets
    · cases sets
    · exact (Option.some.inj sets).symm

theorem setFence_keepsAccept : client.KeepsAccept client.setFence := by
  unfold setFence
  split
  · split
    · exact ⟨rfl, rfl⟩
    · rename_i runtime sets
      obtain rfl := runtime_setFence_some sets
      exact ⟨rfl, rfl⟩
  · exact ⟨rfl, rfl⟩

theorem cleanupDone_keepsAccept : client.KeepsAccept client.cleanupDone := by
  unfold cleanupDone
  split
  all_goals exact ⟨rfl, rfl⟩

theorem InOrder.of_keepsAccept {next : Client} (inOrder : client.InOrder opened)
    (keeps : client.KeepsAccept next) : next.InOrder opened := by
  unfold InOrder
  rw [keeps.high, keeps.accept]
  exact inOrder

theorem InOrder.dispatch (inOrder : client.InOrder opened) :
    client.dispatch.InOrder opened := by
  unfold Client.dispatch
  split
  · rename_i id accepted
    split
    · exact Ordered.leave inOrder (by simp)
    split
    · exact Ordered.leave inOrder (by simp)
    · apply Ordered.dispatch inOrder accepted
      split
      · exact .inr rfl
      · exact .inl rfl
  · exact inOrder

theorem InOrder.step {op : ClientOp} (inOrder : client.InOrder opened)
    (enabled : client.Enabled opened op) :
    (client.apply sent op).InOrder opened := by
  cases op with
  | acceptStream => exact Ordered.acceptStream inOrder enabled.1 enabled.2
  | acceptError | failAccept | closeAcceptDone =>
    exact Ordered.leave inOrder (by simp)
  | dispatch => exact inOrder.dispatch
  | cancelAccept => exact Ordered.reaccept inOrder enabled
  | checkGraceful | checkForced =>
    apply Ordered.leave inOrder
    split
    · simp
    · simp
  | handlerDone =>
    exact ⟨inOrder.streams, inOrder.none, inOrder.last, inOrder.inStep,
      inOrder.bound⟩
  | check outcome =>
    cases outcome with
    | stale | unfit | fit => exact inOrder
  | requestDrain failed =>
    cases failed with
    | true | false => exact inOrder
  | awaitFence selected =>
    exact inOrder.of_keepsAccept
      (select_keepsAccept receiveFence_keepsAccept selected)
  | setFence => exact inOrder.of_keepsAccept setFence_keepsAccept
  | awaitAccept selected | awaitHandlers selected =>
    exact inOrder.of_keepsAccept
      (select_keepsAccept (by exact ⟨rfl, rfl⟩) selected)
  | awaitQuiescence selected =>
    cases selected with
    | ready => exact inOrder
    | _ => exact inOrder
  | cleanupDone => exact inOrder.of_keepsAccept cleanupDone_keepsAccept
  | _ => exact inOrder

end Client

/-! ## The fence and the position of `processRuntime` -/

namespace ProcessPC

/-- No fence has been received. -/
def early : ProcessPC → Bool
  | .checking => true
  | .requesting => true
  | .awaitingFence => true
  | _ => false

/-- The fence is set and cleanup has not begun. -/
def fenced : ProcessPC → Bool
  | .awaitingAccept => true
  | .awaitingHandlers => true
  | .awaitingQuiescence => true
  | .checkingControl => true
  | .checkingPending => true
  | .checkingTransport => true
  | .checkingAcceptErr => true
  | _ => false

/-- The accept loop was seen to have returned. -/
def pastAccept : ProcessPC → Bool
  | .awaitingHandlers => true
  | .awaitingQuiescence => true
  | .checkingControl => true
  | .checkingPending => true
  | .checkingTransport => true
  | .checkingAcceptErr => true
  | _ => false

/-- The result is a semantic error. -/
def failed : ProcessPC → Bool
  | .cleaning semantic => semantic
  | .returned semantic => semantic
  | _ => false

/-- The result is not a semantic error. -/
def succeeded : ProcessPC → Bool
  | .cleaning semantic => !semantic
  | .returned semantic => !semantic
  | _ => false

end ProcessPC

/-- The fence set is the fence received, and it is set where
`processRuntime` relies on it. -/
structure Fenced (runtime : Runtime) (process : ProcessPC)
    (received : Option Int) : Prop where
  value : runtime.fenceSet = true → received = some runtime.fence
  early : process.early = true → received = none ∧ runtime.fenceSet = false
  setting : ∀ fence, process = .settingFence fence →
    received = some fence ∧ runtime.fenceSet = false
  set : process.fenced = true → runtime.fenceSet = true

namespace Fenced

variable {runtime : Runtime} {process : ProcessPC} {received : Option Int}

theorem leave (fenced : Fenced runtime process received) (semantic : Bool) :
    Fenced runtime (.cleaning semantic) received :=
  ⟨fenced.value, nofun, nofun, nofun⟩

variable {next : ProcessPC}

theorem advance (fenced : Fenced runtime process received)
    (before : process.fenced = true) (after : next.fenced = true) :
    Fenced runtime next received := by
  refine ⟨fenced.value, ?_, ?_, fun _ => fenced.set before⟩
  · intro early
    cases next <;> cases early <;> cases after
  · rintro fence rfl
    cases after

theorem prepare (fenced : Fenced runtime process received)
    (before : process.early = true) (after : next.early = true) :
    Fenced runtime next received := by
  refine ⟨fenced.value, fun _ => fenced.early before, ?_, ?_⟩
  · rintro fence rfl
    cases after
  · intro late
    cases next <;> cases late <;> cases after

theorem of_same (fenced : Fenced runtime process received) {next : Runtime}
    (fenceSet : next.fenceSet = runtime.fenceSet)
    (fence : next.fence = runtime.fence) :
    Fenced next process received := by
  constructor
  · rw [fenceSet, fence]
    exact fenced.value
  · rw [fenceSet]
    exact fenced.early
  · rw [fenceSet]
    exact fenced.setting
  · rw [fenceSet]
    exact fenced.set

end Fenced

namespace Client

variable {opened : Nat} {sent : List Int} {client : Client}

/-- The fence is consistent with where `processRuntime` is. -/
def FenceHeld (client : Client) : Prop :=
  Fenced client.runtime client.process client.received

variable (held : client.FenceHeld)

include held

theorem FenceHeld.dispatch : client.dispatch.FenceHeld := by
  unfold Client.dispatch
  split
  · split
    · exact held
    · split
      · exact held
      · exact Fenced.of_same held rfl rfl
  · exact held

theorem FenceHeld.select {continues : Client}
    (continued : continues.FenceHeld) (selected : Selected) :
    (client.select continues selected).FenceHeld := by
  cases selected with
  | ready => exact continued
  | acceptErr => exact (Fenced.leave held true).of_same rfl rfl
  | _ => exact Fenced.leave held _

theorem FenceHeld.receiveFence (awaiting : client.process = .awaitingFence) :
    client.receiveFence.FenceHeld := by
  unfold Client.receiveFence
  split
  · exact held
  rename_i fence ready
  have unset : client.runtime.fenceSet = false := by
    apply (held.early _).2
    rw [awaiting]
    rfl
  refine ⟨?_, nofun, ?_, nofun⟩
  · intro set
    cases unset.symm.trans set
  · rintro _ ⟨⟩
    exact ⟨rfl, unset⟩

theorem FenceHeld.setFence : client.setFence.FenceHeld := by
  unfold Client.setFence
  split
  · rename_i fence setting
    split
    · exact Fenced.leave held true
    rename_i runtime sets
    obtain rfl := runtime_setFence_some sets
    refine ⟨?_, nofun, nofun, fun _ => rfl⟩
    intro _
    exact (held.setting fence setting).1
  · exact held

theorem FenceHeld.step {op : ClientOp} (enabled : client.Enabled opened op) :
    (client.apply sent op).FenceHeld := by
  cases op with
  | dispatch => exact held.dispatch
  | cancelAccept | failAccept | cleanupCancel | force | forceOwned
  | transportFail | transportClose | watcherCleanup =>
    exact Fenced.of_same held rfl rfl
  | check outcome =>
    have early : client.process.early = true := by
      rw [show client.process = .checking from enabled]
      rfl
    cases outcome with
    | stale => exact Fenced.leave held false
    | unfit => exact Fenced.leave held true
    | fit => exact Fenced.prepare held early rfl
  | requestDrain failed =>
    cases failed with
    | true => exact Fenced.leave held _
    | false =>
      apply Fenced.prepare held
      · rw [enabled.1]
        rfl
      · rfl
  | awaitFence selected =>
    exact held.select (held.receiveFence enabled.1) selected
  | setFence => exact held.setFence
  | awaitAccept | awaitHandlers =>
    apply held.select
    apply Fenced.advance held
    · rw [enabled.1]
      rfl
    · rfl
  | awaitQuiescence selected =>
    cases selected with
    | ready =>
      apply Fenced.advance held
      · rw [enabled.1]
        rfl
      · rfl
    | _ => exact Fenced.leave held _
  | checkControl | checkPending | checkTransport =>
    have fenced : client.process.fenced = true := by
      rw [show client.process = _ from enabled]
      rfl
    change Fenced client.runtime (if _ then _ else _) client.received
    split
    · exact Fenced.leave held _
    · exact Fenced.advance held fenced rfl
  | checkAcceptErr => exact (Fenced.leave held _).of_same rfl rfl
  | cleanupDone =>
    change client.cleanupDone.FenceHeld
    unfold Client.cleanupDone
    split
    · exact ⟨held.value, nofun, nofun, nofun⟩
    · exact held
  | _ => exact held

end Client

/-! ## Why the accept loop ended -/

/-- The loop is past its last decision. -/
def AcceptPC.exited : AcceptPC → Bool
  | .returning => true
  | .returned => true
  | _ => false

/-- An ended accept loop is explained by the fence, an error in the channel
or a forced stop, until `processRuntime` has failed. -/
structure Exits (runtime : Runtime) (accept : AcceptPC)
    (process : ProcessPC) (received : Option Int) : Prop where
  forcedWhy : runtime.runtimeForced = true →
    runtime.transportDone = true ∨ runtime.clientForced = true ∨
      process.failed = true ∨ process.succeeded = true
  exitWhy : accept.exited = true →
    runtime.graceful = true ∨ runtime.acceptErr = true ∨
      runtime.forced = true ∨ process.failed = true
  returned : process.pastAccept = true → accept = .returned
  connected : process = .checkingAcceptErr →
    runtime.graceful = true ∨ runtime.acceptErr = true ∨
      runtime.clientForced = true
  success : process.succeeded = true → received ≠ none →
    (runtime.graceful = true ∧ accept = .returned) ∨ runtime.clientForced = true

namespace Exits

variable {runtime : Runtime} {accept : AcceptPC} {process : ProcessPC}
  {received : Option Int}

theorem fail : Exits runtime accept (.cleaning true) received where
  forcedWhy _ := Or.inr (.inr (.inl rfl))
  exitWhy _ := Or.inr (.inr (.inr rfl))
  returned := nofun
  connected := nofun
  success := nofun

theorem stop (forced : runtime.clientForced = true) :
    Exits runtime accept (.cleaning false) received where
  forcedWhy _ := Or.inr (.inl forced)
  exitWhy _ := by
    refine .inr (.inr (.inl ?_))
    simp [Runtime.forced, forced]
  returned := nofun
  connected := nofun
  success _ _ := Or.inr forced

theorem advance (exits : Exits runtime accept process received)
    {next : ProcessPC} {later : Option Int}
    (unfinished : process.failed = false ∧ process.succeeded = false)
    (continues : next.succeeded = false)
    (returned : next.pastAccept = true → accept = .returned)
    (notLast : next ≠ .checkingAcceptErr) :
    Exits runtime accept next later where
  forcedWhy forced := by
    rcases exits.forcedWhy forced with lost | stopped | failed | succeeded
    · exact .inl lost
    · exact .inr (.inl stopped)
    · cases unfinished.1.symm.trans failed
    · cases unfinished.2.symm.trans succeeded
  exitWhy exited := by
    rcases exits.exitWhy exited with graceful | erred | forced | failed
    · exact .inl graceful
    · exact .inr (.inl erred)
    · exact .inr (.inr (.inl forced))
    · cases unfinished.1.symm.trans failed
  returned := returned
  connected last := absurd last notLast
  success succeeded := by cases continues.symm.trans succeeded

theorem accepts (exits : Exits runtime accept process received)
    {next : AcceptPC} (running : accept ≠ .returned)
    (why : next.exited = true → runtime.graceful = true ∨
      runtime.acceptErr = true ∨ runtime.forced = true ∨
      process.failed = true) : Exits runtime next process received where
  forcedWhy := exits.forcedWhy
  exitWhy := why
  returned past := absurd (exits.returned past) running
  connected last := by
    have past : process.pastAccept = true := by
      rw [last]
      rfl
    exact absurd (exits.returned past) running
  success succeeded got := by
    rcases exits.success succeeded got with ⟨_, done⟩ | stopped
    · exact absurd done running
    · exact .inr stopped

theorem grow (exits : Exits runtime accept process received)
    {next : Runtime}
    (graceful : runtime.graceful = true → next.graceful = true)
    (acceptErr : runtime.acceptErr = true → next.acceptErr = true)
    (clientForced : runtime.clientForced = true → next.clientForced = true)
    (runtimeForced : runtime.runtimeForced = true → next.runtimeForced = true)
    (forcedWhy : next.runtimeForced = true →
      next.transportDone = true ∨ next.clientForced = true ∨
        process.failed = true ∨ process.succeeded = true) :
    Exits next accept process received where
  forcedWhy := forcedWhy
  exitWhy exited := by
    have forced : runtime.forced = true → next.forced = true := by
      simp only [Runtime.forced, decide_eq_true_eq]
      exact Or.imp runtimeForced clientForced
    exact (exits.exitWhy exited).imp graceful
      (Or.imp acceptErr (Or.imp_left forced))
  returned := exits.returned
  connected last :=
    (exits.connected last).imp graceful (Or.imp acceptErr clientForced)
  success succeeded got :=
    (exits.success succeeded got).imp (And.imp_left graceful) clientForced

end Exits

namespace Client

variable {opened : Nat} {sent : List Int} {client : Client}

/-- The end of the accept loop is explained. -/
def Explained (client : Client) : Prop :=
  Exits client.runtime client.accept.pc client.process client.received

theorem exits_failure {accept : AcceptPC} {received : Option Int} :
    Exits client.runtime accept client.failure received := by
  unfold failure
  cases forced : client.runtime.clientForced with
  | true => exact .stop forced
  | false => exact .fail

theorem Explained.select {continues : Client} {selected : Selected}
    {ready : Prop} (selects : client.Selects ready selected)
    (continued : ready → continues.Explained) :
    (client.select continues selected).Explained := by
  cases selected with
  | forced => exact .stop selects
  | acceptErr | controlDone | transportDone => exact .fail
  | ready => exact continued selects

variable (explained : client.Explained)

include explained

theorem Explained.dispatch : client.dispatch.Explained := by
  unfold Client.dispatch
  split
  · rename_i stream accepted
    have running : client.accept.pc ≠ .returned := by
      rw [accepted]
      nofun
    split
    · exact Exits.accepts explained running nofun
    split
    · exact Exits.accepts explained running nofun
    refine Exits.grow (Exits.accepts explained running ?_) ?_ id id id
      explained.forcedWhy
    · dsimp only
      split
      · nofun
      · nofun
    · simp only [Runtime.graceful, decide_eq_true_eq]
      rintro ⟨set, reached⟩
      exact ⟨set, reached.imp id (fun high => le_max_of_le_left high)⟩
  · exact explained

theorem Explained.stale (held : client.FenceHeld)
    (checking : client.process = .checking) :
    (client.processAt (.cleaning false)).Explained := by
  have early : client.process.early = true := by
    rw [checking]
    rfl
  refine ⟨fun _ => .inr (.inr (.inr rfl)), ?_, nofun, nofun, ?_⟩
  · intro exited
    rcases explained.exitWhy exited with graceful | erred | forced | failed
    · exact .inl graceful
    · exact .inr (.inl erred)
    · exact .inr (.inr (.inl forced))
    · rw [checking] at failed
      cases failed
  · intro _ got
    exact absurd (held.early early).1 got

theorem Explained.receiveFence (awaiting : client.process = .awaitingFence) :
    client.receiveFence.Explained := by
  unfold Client.receiveFence
  split
  · exact explained
  · refine Exits.advance explained ?_ rfl nofun nofun
    rw [awaiting]
    exact ⟨rfl, rfl⟩

theorem Explained.setFence (held : client.FenceHeld) :
    client.setFence.Explained := by
  unfold Client.setFence
  split
  · rename_i fence setting
    have unset := (held.setting fence setting).2
    split
    · exact .fail
    rename_i runtime sets
    obtain rfl := runtime_setFence_some sets
    have unreached : client.runtime.graceful = false := by
      simp [Runtime.graceful, unset]
    apply Exits.advance
    · apply Exits.grow explained
      · intro graceful
        cases unreached.symm.trans graceful
      · exact id
      · exact id
      · exact id
      · exact explained.forcedWhy
    · rw [setting]
      exact ⟨rfl, rfl⟩
    · rfl
    · nofun
    · nofun
  · exact explained

theorem Explained.checkTransport
    (checking : client.process = .checkingTransport) :
    (client.processAt (if client.runtime.transportDone then .cleaning true
      else .checkingAcceptErr)).Explained := by
  split
  · exact .fail
  rename_i alive
  have past : client.process.pastAccept = true := by
    rw [checking]
    rfl
  have returned := explained.returned past
  have forcedWhy : client.runtime.runtimeForced = true →
      client.runtime.clientForced = true := by
    intro forced
    rcases explained.forcedWhy forced with lost | stopped | failed | succeeded
    · exact absurd lost alive
    · exact stopped
    · rw [checking] at failed
      cases failed
    · rw [checking] at succeeded
      cases succeeded
  have why : client.runtime.graceful = true ∨
      client.runtime.acceptErr = true ∨ client.runtime.clientForced = true := by
    have exited : client.accept.pc.exited = true := by
      rw [returned]
      rfl
    rcases explained.exitWhy exited with graceful | erred | forced | failed
    · exact .inl graceful
    · exact .inr (.inl erred)
    · simp only [Runtime.forced, decide_eq_true_eq] at forced
      exact .inr (.inr (forced.elim forcedWhy id))
    · rw [checking] at failed
      cases failed
  refine ⟨?_, ?_, fun _ => returned, fun _ => why, nofun⟩
  · intro forced
    exact .inr (.inl (forcedWhy forced))
  · intro _
    rcases why with graceful | erred | stopped
    · exact .inl graceful
    · exact .inr (.inl erred)
    · refine .inr (.inr (.inl ?_))
      exact decide_eq_true (.inr stopped)

theorem Explained.checkAcceptErr
    (checking : client.process = .checkingAcceptErr) :
    client.checkAcceptErr.Explained := by
  have past : client.process.pastAccept = true := by
    rw [checking]
    rfl
  unfold Client.checkAcceptErr
  cases erred : client.runtime.acceptErr with
  | true => exact .fail
  | false =>
    have why : client.runtime.graceful = true ∨
        client.runtime.clientForced = true := by
      rcases explained.connected checking with graceful | error | stopped
      · exact .inl graceful
      · cases erred.symm.trans error
      · exact .inr stopped
    refine ⟨fun _ => .inr (.inr (.inr rfl)), ?_, nofun, nofun, ?_⟩
    · intro _
      rcases why with graceful | stopped
      · exact .inl graceful
      · refine .inr (.inr (.inl ?_))
        exact decide_eq_true (.inr stopped)
    · intro _ _
      exact why.imp_left fun graceful => ⟨graceful, explained.returned past⟩

theorem Explained.cleanupDone : client.cleanupDone.Explained := by
  unfold Client.cleanupDone
  split
  · rename_i semantic cleaning
    have forcedWhy := explained.forcedWhy
    have exitWhy := explained.exitWhy
    have success := explained.success
    rw [cleaning] at forcedWhy exitWhy success
    exact ⟨forcedWhy, exitWhy, nofun, nofun, success⟩
  · exact explained

theorem Explained.cancel
    (why : client.runtime.transportDone = true ∨
      client.runtime.clientForced = true ∨ client.process.failed = true ∨
      client.process.succeeded = true) :
    Explained { client with runtime := client.runtime.cancel } :=
  Exits.grow explained id id id (fun _ => rfl) (fun _ => why)

theorem Explained.advance (pc next : ProcessPC) (now : client.process = pc)
    (unfinished : pc.failed = false ∧ pc.succeeded = false)
    (continues : next.succeeded = false ∧ next ≠ .checkingAcceptErr)
    (returned : next.pastAccept = true →
      pc.pastAccept = true ∨ client.accept.pc = .returned) :
    (client.processAt next).Explained := by
  apply Exits.advance explained
  · rw [now]
    exact unfinished
  · exact continues.1
  · intro past
    rcases returned past with before | seen
    · apply explained.returned
      rw [now]
      exact before
    · exact seen
  · exact continues.2

theorem Explained.step {op : ClientOp} (held : client.FenceHeld)
    (enabled : client.Enabled opened op) :
    (client.apply sent op).Explained := by
  cases op with
  | acceptStream | acceptError =>
    apply Exits.accepts explained
    · rw [enabled.1]
      nofun
    · nofun
  | dispatch => exact explained.dispatch
  | cancelAccept =>
    have cancelled : Exits { client.runtime with acceptCancelled := true }
        client.accept.pc client.process client.received :=
      Exits.grow explained id id id id explained.forcedWhy
    apply Exits.accepts cancelled
    · rw [show client.accept.pc = .cancelling from enabled]
      nofun
    · nofun
  | checkGraceful =>
    apply Exits.accepts explained
    · rw [show client.accept.pc = .erred from enabled]
      nofun
    · change (if _ then AcceptPC.returning else _).exited = true → _
      split
      · rename_i graceful
        intro _
        exact .inl graceful
      · nofun
  | checkForced =>
    apply Exits.accepts explained
    · rw [show client.accept.pc = .ungraceful from enabled]
      nofun
    · change (if _ then AcceptPC.returning else _).exited = true → _
      split
      · rename_i forced
        intro _
        exact .inr (.inr (.inl forced))
      · nofun
  | failAccept =>
    have erred : Exits { client.runtime with acceptErr := true }
        client.accept.pc client.process client.received :=
      Exits.grow explained id (fun _ => rfl) id id explained.forcedWhy
    apply Exits.accepts erred
    · rw [show client.accept.pc = .failing from enabled]
      nofun
    · intro _
      exact .inr (.inl rfl)
  | closeAcceptDone =>
    apply Exits.accepts explained
    · rw [show client.accept.pc = .returning from enabled]
      nofun
    · intro _
      apply explained.exitWhy
      rw [show client.accept.pc = .returning from enabled]
      rfl
  | check outcome =>
    cases outcome with
    | stale => exact explained.stale held enabled
    | unfit => exact .fail
    | fit =>
      exact explained.advance .checking .requesting enabled ⟨rfl, rfl⟩
        ⟨rfl, nofun⟩ nofun
  | requestDrain failed =>
    cases failed with
    | true => exact exits_failure
    | false =>
      exact explained.advance .requesting .awaitingFence enabled.1
        ⟨rfl, rfl⟩ ⟨rfl, nofun⟩ nofun
  | awaitFence selected =>
    apply Explained.select enabled.2
    intro _
    exact explained.receiveFence enabled.1
  | setFence => exact explained.setFence held
  | awaitAccept selected =>
    apply Explained.select enabled.2
    intro returned
    exact explained.advance .awaitingAccept .awaitingHandlers enabled.1
      ⟨rfl, rfl⟩ ⟨rfl, nofun⟩ (fun _ => .inr returned)
  | awaitHandlers selected =>
    apply Explained.select enabled.2
    intro _
    exact explained.advance .awaitingHandlers .awaitingQuiescence enabled.1
      ⟨rfl, rfl⟩ ⟨rfl, nofun⟩ (fun _ => .inl rfl)
  | awaitQuiescence selected =>
    cases selected with
    | ready =>
      exact explained.advance .awaitingQuiescence .checkingControl
        enabled.1 ⟨rfl, rfl⟩ ⟨rfl, nofun⟩ (fun _ => .inl rfl)
    | _ => exact exits_failure
  | checkControl =>
    change Exits client.runtime client.accept.pc (if _ then _ else _)
      client.received
    split
    · exact exits_failure
    · exact explained.advance .checkingControl .checkingPending enabled
        ⟨rfl, rfl⟩ ⟨rfl, nofun⟩ (fun _ => .inl rfl)
  | checkPending =>
    change Exits client.runtime client.accept.pc (if _ then _ else _)
      client.received
    split
    · exact exits_failure
    · exact explained.advance .checkingPending .checkingTransport enabled
        ⟨rfl, rfl⟩ ⟨rfl, nofun⟩ (fun _ => .inl rfl)
  | checkTransport => exact explained.checkTransport enabled
  | checkAcceptErr => exact explained.checkAcceptErr enabled
  | cleanupCancel =>
    apply explained.cancel
    rcases enabled with failing | succeeding
    · rw [failing]
      exact .inr (.inr (.inl rfl))
    · rw [succeeding]
      exact .inr (.inr (.inr rfl))
  | cleanupDone => exact explained.cleanupDone
  | force =>
    exact Exits.grow explained id id (fun _ => rfl) id
      (fun _ => .inr (.inl rfl))
  | forceOwned => exact explained.cancel (.inr (.inl enabled))
  | transportFail =>
    exact Exits.grow explained id id id id explained.forcedWhy
  | transportClose =>
    exact Exits.grow explained id id id id (fun _ => .inl rfl)
  | watcherCleanup => exact explained.cancel (.inl enabled)
  | _ => exact explained

end Client

end QMux.Drain
