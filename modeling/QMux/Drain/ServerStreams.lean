import QMux.Drain.Server

/-!
# Streams opened and recorded by a server

Runs of the server are runs of its pool.  Every stream a flow opened is
recorded before its lease is released, and the compare-and-swap loop of
`RecordStream` keeps the maximum of what was recorded.
-/

namespace QMux.Drain

open Function Support Pool

namespace Server

variable {σ : Type*} {gen : ConnRef} {server next : Server σ}

/-! ## Runs of the server are runs of its pool -/

/-- The pool operation that an operation of the server performs. -/
def poolOp (gen : ConnRef) (server : Server σ) : ServerOp → Option Op
  | .pool op => some op
  | .recordStep lease =>
    match (server.flows lease).recording with
    | some (.compareAndSwap streamID current) =>
      some (.compareAndSwapStreamID gen current streamID)
    | some (.storeOpened _) => some (.storeTCPOpened gen)
    | _ => none
  | .drainRequest =>
    if server.control.retirement = none then some (.beginRetire gen)
    else none
  | .finish =>
    if server.control.retirement = none then some (.beginRetire gen)
    else none
  | .receiveFence => server.control.tcpDrained.map .receiveTCPDrained
  | _ => none

theorem recordStep_pool (pool : ConnectionPool σ) (recording : Recording) :
    (recordStep gen pool recording).2 = match recording with
      | .load _ => pool
      | .compareAndSwap streamID current =>
        (pool.compareAndSwapStreamID gen current streamID).2
      | .storeOpened _ => pool.storeTCPOpened gen := by
  cases recording with
  | load streamID =>
    unfold recordStep
    dsimp only
    split
    · rfl
    · rfl
  | compareAndSwap streamID current =>
    unfold recordStep
    dsimp only
    split
    · rename_i swapped result
      rw [result]
    · rename_i unchanged result
      rw [result]
  | storeOpened streamID => rfl

theorem apply_pool (op : ServerOp) :
    (server.apply gen op).pool =
      (server.poolOp gen op).elim server.pool server.pool.apply := by
  cases op with
  | pool | openStream | stop => rfl
  | recordStream lease =>
    change (server.recordStream lease).pool = server.pool
    unfold recordStream
    split
    · rfl
    · rfl
  | recordStep lease =>
    change (server.advanceRecord gen lease).pool = _
    unfold advanceRecord poolOp
    dsimp only
    cases recording : (server.flows lease).recording with
    | none => rfl
    | some current =>
      dsimp only
      rw [recordStep_pool]
      cases current with
      | load | compareAndSwap | storeOpened => rfl
  | drainRequest =>
    change (server.drainRequest gen).pool = _
    unfold drainRequest poolOp
    dsimp only
    cases retirement : server.control.retirement with
    | some | none => rfl
  | receiveFence =>
    change server.receiveFence.pool = _
    unfold receiveFence poolOp
    dsimp only
    cases armed : server.control.tcpDrained with
    | none | some => rfl
  | writeDrainComplete delivered failed =>
    change (server.writeDrainComplete delivered failed).pool = server.pool
    unfold writeDrainComplete
    dsimp only
    repeat' split
    all_goals rfl
  | finish =>
    change (server.finish gen).pool = _
    unfold finish poolOp
    dsimp only
    cases retirement : server.control.retirement with
    | some | none => rfl

variable {op : ServerOp} {performed : Op} {lease : LeaseRef}

theorem poolOp_enabled (enabled : server.Enabled gen op)
    (performs : server.poolOp gen op = some performed) :
    server.pool.Enabled performed := by
  cases op with
  | pool op =>
    cases performs
    exact enabled.1
  | recordStep lease =>
    unfold poolOp at performs
    dsimp only at performs
    split at performs
    · cases performs
      trivial
    · cases performs
      trivial
    · cases performs
  | drainRequest | finish =>
    unfold poolOp at performs
    dsimp only at performs
    split at performs
    · cases performs
      trivial
    · cases performs
  | receiveFence =>
    obtain ⟨ref, _, rfl⟩ := Option.map_eq_some_iff.mp performs
    trivial
  | _ => cases performs

theorem Step.pool_reaches (step : server.Step gen next) :
    (ConnectionPool.runs σ).Reaches server.pool next.pool := by
  obtain ⟨op, enabled, rfl⟩ := step
  rw [apply_pool]
  cases performs : server.poolOp gen op with
  | none => exact .refl
  | some performed =>
    exact .single ⟨performed, poolOp_enabled enabled performs, rfl⟩

theorem pool_reachable (reachable : (runs σ gen).Reachable server) :
    (ConnectionPool.runs σ).Reachable server.pool := by
  apply reachable.project
  · intro state initial
    exact initial.1
  · intro before after _ step
    exact step.pool_reaches

/-! ## Streams opened and recorded -/

/-- A `RecordStream` call with this stream is in progress. -/
def InCall (server : Server σ) (id : Int) (phase : Recording → Prop) : Prop :=
  ∃ lease recording, (server.flows lease).recording = some recording ∧
    recording.streamID = id ∧ phase recording

/-- A flow holds its lease, its streams were opened, and the call in progress
is recorded. -/
structure Follows (gen : ConnRef) (server : Server σ) (lease : LeaseRef)
    (flow : Flow) : Prop where
  held : flow ≠ .idle → server.pool.Outstanding gen lease
  opened : ∀ id ∈ flow.unrecorded, ∃ n, n < server.opened ∧ id = streamID n
  call : ∀ recording, flow.recording = some recording →
    recording.streamID ∈ server.recorded
  swap : ∀ id current, flow.recording = some (.compareAndSwap id current) →
    current < id

theorem Follows.mono {flow : Flow} (follows : server.Follows gen lease flow)
    (held : server.pool.Outstanding gen lease → next.pool.Outstanding gen lease)
    (opened : server.opened ≤ next.opened)
    (recorded : ∀ id ∈ server.recorded, id ∈ next.recorded) :
    next.Follows gen lease flow := by
  refine ⟨fun busy => held (follows.held busy), ?_, ?_, follows.swap⟩
  · intro id waiting
    obtain ⟨n, inside, same⟩ := follows.opened id waiting
    exact ⟨n, Nat.lt_of_lt_of_le inside opened, same⟩
  · intro recording call
    exact recorded _ (follows.call recording call)

/-- What is opened is recorded or about to be, and the two fields of the
generation follow the calls of `RecordStream`. -/
structure Recorded (gen : ConnRef) (server : Server σ) : Prop where
  follows : ∀ lease, server.Follows gen lease (server.flows lease)
  openedKnown : ∀ n, n < server.opened → streamID n ∈ server.recorded ∨
    ∃ lease, streamID n ∈ (server.flows lease).unrecorded
  recordedOpened : ∀ id ∈ server.recorded,
    ∃ n, n < server.opened ∧ id = streamID n
  maximum : (server.pool.conns gen).tcpStreamID = 0 ∨
    (server.pool.conns gen).tcpStreamID ∈ server.recorded
  raised : ∀ id ∈ server.recorded, id ≤ (server.pool.conns gen).tcpStreamID ∨
      server.InCall id Recording.Raising
  flagged : ∀ id ∈ server.recorded, (server.pool.conns gen).tcpOpened = true ∨
      server.InCall id fun _ => True
  unflagged : (server.pool.conns gen).tcpOpened = true → server.recorded ≠ []

theorem Recorded.of_same (recorded : server.Recorded gen)
    (flows : next.flows = server.flows) (opened : next.opened = server.opened)
    (listed : next.recorded = server.recorded)
    (streams : (next.pool.conns gen).streams = (server.pool.conns gen).streams)
    (held : ∀ lease, server.flows lease ≠ .idle →
      next.pool.Outstanding gen lease) : next.Recorded gen := by
  obtain ⟨maximum, opens⟩ := Prod.mk.inj streams
  have inCall : ∀ id phase, next.InCall id phase ↔ server.InCall id phase := by
    intro id phase
    unfold InCall
    rw [flows]
  constructor
  · intro lease
    have follows := recorded.follows lease
    rw [flows]
    refine ⟨held lease, ?_, ?_, follows.swap⟩
    · rw [opened]
      exact follows.opened
    · rw [listed]
      exact follows.call
  · rw [flows, opened, listed]
    exact recorded.openedKnown
  · rw [opened, listed]
    exact recorded.recordedOpened
  · rw [maximum, listed]
    exact recorded.maximum
  · intro id member
    rw [listed] at member
    rw [maximum, inCall]
    exact recorded.raised id member
  · intro id member
    rw [listed] at member
    rw [opens, inCall]
    exact recorded.flagged id member
  · rw [opens, listed]
    exact recorded.unflagged

theorem setFlow_flows (lease other : LeaseRef) (flow : Flow) :
    (server.setFlow lease flow).flows other =
      if other = lease then flow else server.flows other :=
  update_apply server.flows lease flow other

theorem Recorded.openStream (recorded : server.Recorded gen)
    (held : server.pool.Outstanding gen lease) :
    (server.openStream lease).Recorded gen := by
  have flows : ∀ other, (server.openStream lease).flows other =
      if other = lease then ⟨(server.flows lease).unrecorded ++
        [streamID server.opened], (server.flows lease).recording⟩
      else server.flows other := fun other => setFlow_flows lease other _
  have recording : ∀ other, ((server.openStream lease).flows other).recording =
      (server.flows other).recording := by
    intro other
    rw [flows]
    split
    · rename_i same
      rw [same]
    · rfl
  have inCall : ∀ id phase, (server.openStream lease).InCall id phase ↔
      server.InCall id phase := by
    intro id phase
    unfold InCall
    simp only [recording]
  constructor
  · intro other
    have follows := recorded.follows other
    have later : (server.openStream lease).Follows gen other
        (server.flows other) :=
      follows.mono id (Nat.le_succ _) fun _ => id
    rw [flows]
    split
    · rename_i same
      subst same
      refine ⟨fun _ => held, ?_, later.call, later.swap⟩
      intro id waiting
      rcases List.mem_append.mp waiting with earlier | latest
      · exact later.opened id earlier
      · exact ⟨server.opened, Nat.lt_succ_self _, List.mem_singleton.mp latest⟩
    · exact later
  · intro n inside
    by_cases latest : n = server.opened
    · refine .inr ⟨lease, ?_⟩
      rw [flows, if_pos rfl, latest]
      exact List.mem_append_right _ List.mem_cons_self
    · have earlier : n < server.opened :=
        Nat.lt_of_le_of_ne (Nat.le_of_lt_succ inside) latest
      rcases recorded.openedKnown n earlier with known | ⟨other, waiting⟩
      · exact .inl known
      refine .inr ⟨other, ?_⟩
      rw [flows]
      split
      · rename_i same
        rw [same] at waiting
        exact List.mem_append_left _ waiting
      · exact waiting
  · intro id member
    obtain ⟨n, inside, same⟩ := recorded.recordedOpened id member
    exact ⟨n, Nat.lt_succ_of_lt inside, same⟩
  · exact recorded.maximum
  · intro id member
    rw [inCall]
    exact recorded.raised id member
  · intro id member
    rw [inCall]
    exact recorded.flagged id member
  · exact recorded.unflagged

theorem Recorded.recordStream (recorded : server.Recorded gen)
    (free : (server.flows lease).recording = none) :
    (server.recordStream lease).Recorded gen := by
  unfold Server.recordStream
  split
  · exact recorded
  rename_i id rest waiting
  let flow : Flow := ⟨rest, some (.load id)⟩
  change Recorded gen { server.setFlow lease flow with
    recorded := server.recorded ++ [id] }
  have busy : server.flows lease ≠ .idle := by
    intro idle
    rw [idle] at waiting
    cases waiting
  have known : ∃ n, n < server.opened ∧ id = streamID n := by
    apply (recorded.follows lease).opened
    rw [waiting]
    exact List.mem_cons_self
  -- The lease had no call in progress, so every other call is still there.
  have inCall : ∀ other phase, server.InCall other phase →
      InCall { server.setFlow lease flow with
        recorded := server.recorded ++ [id] } other phase := by
    rintro other phase ⟨holder, recording, call, argument, holds⟩
    refine ⟨holder, recording, ?_, argument, holds⟩
    have different : holder ≠ lease := by
      rintro rfl
      rw [free] at call
      cases call
    rw [setFlow_flows, if_neg different]
    exact call
  constructor
  · intro other
    have follows := recorded.follows other
    dsimp only
    rw [setFlow_flows]
    split
    · rename_i same
      subst same
      refine ⟨fun _ => follows.held busy, ?_, ?_, ?_⟩
      · intro otherID member
        apply follows.opened
        rw [waiting]
        exact List.mem_cons_of_mem _ member
      · rintro _ ⟨⟩
        exact List.mem_append_right _ List.mem_cons_self
      · rintro _ _ ⟨⟩
    · exact follows.mono (fun held => held) le_rfl fun _ =>
        List.mem_append_left _
  · intro n inside
    rcases recorded.openedKnown n inside with member | ⟨other, member⟩
    · exact .inl (List.mem_append_left _ member)
    by_cases same : other = lease
    · rw [same, waiting] at member
      rcases List.mem_cons.mp member with head | tail
      · refine .inl (List.mem_append_right _ ?_)
        rw [head]
        exact List.mem_cons_self
      · refine .inr ⟨lease, ?_⟩
        rw [setFlow_flows, if_pos rfl]
        exact tail
    · refine .inr ⟨other, ?_⟩
      rw [setFlow_flows, if_neg same]
      exact member
  · intro otherID member
    rcases List.mem_append.mp member with earlier | latest
    · exact recorded.recordedOpened otherID earlier
    · rw [List.mem_singleton.mp latest]
      exact known
  · exact recorded.maximum.imp_right (List.mem_append_left _)
  · intro otherID member
    rcases List.mem_append.mp member with earlier | latest
    · exact (recorded.raised otherID earlier).imp_right (inCall _ _)
    · refine .inr ⟨lease, .load id, ?_, ?_, trivial⟩
      · rw [setFlow_flows, if_pos rfl]
      · exact (List.mem_singleton.mp latest).symm
  · intro otherID member
    rcases List.mem_append.mp member with earlier | latest
    · exact (recorded.flagged otherID earlier).imp_right (inCall _ _)
    · refine .inr ⟨lease, .load id, ?_, ?_, trivial⟩
      · rw [setFlow_flows, if_pos rfl]
      · exact (List.mem_singleton.mp latest).symm
  · intro _
    exact List.append_ne_nil_of_right_ne_nil _ (List.cons_ne_nil _ _)

/-- What the next step of a call must achieve: the stream stays below the
maximum or the call goes on, and its flag is set before it ends. -/
structure Advances (gen : ConnRef) (server : Server σ)
    (recording : Recording) (later : Option Recording)
    (pool : ConnectionPool σ) : Prop where
  argument : ∀ call, later = some call → call.streamID = recording.streamID
  swapRaises : ∀ id current, later = some (.compareAndSwap id current) →
    current < id
  maximum : (pool.conns gen).tcpStreamID = (server.pool.conns gen).tcpStreamID ∨
    (pool.conns gen).tcpStreamID = recording.streamID
  grows : (server.pool.conns gen).tcpStreamID ≤ (pool.conns gen).tcpStreamID
  raised : recording.Raising →
    recording.streamID ≤ (pool.conns gen).tcpStreamID ∨
      ∃ call, later = some call ∧ call.Raising
  flag : (pool.conns gen).tcpOpened = true ∨
    ((pool.conns gen).tcpOpened = (server.pool.conns gen).tcpOpened ∧
      ∃ call, later = some call)
  leases : pool.leaseCells = server.pool.leaseCells

theorem Recorded.advances (recorded : server.Recorded gen)
    {recording : Recording}
    (call : (server.flows lease).recording = some recording) :
    Advances gen server recording
      (recordStep gen server.pool recording).1
      (recordStep gen server.pool recording).2 := by
  cases recording with
  | load id =>
    unfold recordStep
    dsimp only
    split
    · rename_i above
      constructor
      · rintro _ ⟨⟩
        rfl
      · rintro _ _ ⟨⟩
        exact above
      · exact .inl rfl
      · exact Int.le_refl _
      · intro _
        exact .inr ⟨_, rfl, trivial⟩
      · exact .inr ⟨rfl, _, rfl⟩
      · rfl
    · rename_i notAbove
      constructor
      · rintro _ ⟨⟩
        rfl
      · rintro _ _ ⟨⟩
      · exact .inl rfl
      · exact Int.le_refl _
      · intro _
        exact .inl (Int.not_lt.mp notAbove)
      · exact .inr ⟨rfl, _, rfl⟩
      · rfl
  | compareAndSwap id current =>
    have above := (recorded.follows lease).swap id current call
    unfold recordStep ConnectionPool.compareAndSwapStreamID
    dsimp only
    by_cases unchanged : (server.pool.conns gen).tcpStreamID = current
    · rw [if_pos unchanged]
      have swapped : ((server.pool.updateConn gen fun c =>
          { c with tcpStreamID := id }).conns gen) =
          { server.pool.conns gen with tcpStreamID := id } :=
        update_self _ _ _
      constructor
      · rintro _ ⟨⟩
        rfl
      · rintro _ _ ⟨⟩
      · rw [swapped]
        exact .inr rfl
      · rw [swapped, unchanged]
        exact Int.le_of_lt above
      · rw [swapped]
        intro _
        exact .inl (Int.le_refl _)
      · rw [swapped]
        exact .inr ⟨rfl, _, rfl⟩
      · rfl
    · rw [if_neg unchanged]
      constructor
      · rintro _ ⟨⟩
        rfl
      · rintro _ _ ⟨⟩
      · exact .inl rfl
      · exact Int.le_refl _
      · intro _
        exact .inr ⟨_, rfl, trivial⟩
      · exact .inr ⟨rfl, _, rfl⟩
      · rfl
  | storeOpened id =>
    have stored : ((server.pool.storeTCPOpened gen).conns gen) =
        { server.pool.conns gen with tcpOpened := true } :=
      update_self _ _ _
    unfold recordStep
    dsimp only
    constructor
    · rintro _ ⟨⟩
    · rintro _ _ ⟨⟩
    · rw [stored]
      exact .inl rfl
    · rw [stored]
    · intro raising
      exact raising.elim
    · rw [stored]
      exact .inl rfl
    · rfl

theorem Recorded.advanceRecord (recorded : server.Recorded gen)
    (lease : LeaseRef) : (server.advanceRecord gen lease).Recorded gen := by
  unfold Server.advanceRecord
  split
  · exact recorded
  rename_i recording call
  have advances := recorded.advances call
  generalize (recordStep gen server.pool recording).1 = later at advances ⊢
  generalize (recordStep gen server.pool recording).2 = pool at advances ⊢
  let flow : Flow := { server.flows lease with recording := later }
  let after : Server σ := { server.setFlow lease flow with pool := pool }
  change after.Recorded gen
  have flows : ∀ other, after.flows other =
      if other = lease then flow else server.flows other :=
    fun other => setFlow_flows lease other flow
  have busy : server.flows lease ≠ .idle := by
    intro idle
    rw [idle] at call
    cases call
  have listed := (recorded.follows lease).call recording call
  -- A call of another lease is untouched; this one continues as `later`.
  have inCall : ∀ id phase, server.InCall id phase →
      after.InCall id phase ∨ (id = recording.streamID ∧ phase recording) := by
    rintro id phase ⟨holder, current, found, argument, holds⟩
    by_cases same : holder = lease
    · rw [same, call] at found
      cases found
      exact .inr ⟨argument.symm, holds⟩
    · refine .inl ⟨holder, current, ?_, argument, holds⟩
      rw [flows, if_neg same]
      exact found
  have continues : ∀ current phase, later = some current → phase current →
      after.InCall recording.streamID phase := by
    intro current phase goesOn holds
    refine ⟨lease, current, ?_, advances.argument current goesOn, holds⟩
    rw [flows, if_pos rfl]
    exact goesOn
  constructor
  · intro other
    have follows : after.Follows gen other (server.flows other) :=
      (recorded.follows other).mono
        (fun held => held.of_leaseCells advances.leases) le_rfl fun _ => id
    rw [flows]
    split
    · rename_i same
      subst same
      refine ⟨fun _ => follows.held busy, follows.opened, ?_,
        advances.swapRaises⟩
      intro current found
      rw [advances.argument current found]
      exact listed
    · exact follows
  · intro n inside
    rcases recorded.openedKnown n inside with member | ⟨other, member⟩
    · exact .inl member
    refine .inr ⟨other, ?_⟩
    rw [flows]
    split
    · rename_i same
      rw [same] at member
      exact member
    · exact member
  · exact recorded.recordedOpened
  · rcases advances.maximum with same | raised
    · rw [show (after.pool.conns gen).tcpStreamID = _ from same]
      exact recorded.maximum
    · rw [show (after.pool.conns gen).tcpStreamID = _ from raised]
      exact .inr listed
  · intro id member
    rcases recorded.raised id member with below | raising
    · exact .inl (Int.le_trans below advances.grows)
    rcases inCall id _ raising with going | ⟨rfl, raises⟩
    · exact .inr going
    · rcases advances.raised raises with below | ⟨current, goesOn, still⟩
      · exact .inl below
      · exact .inr (continues current _ goesOn still)
  · intro id member
    rcases advances.flag with set | ⟨same, current, goesOn⟩
    · exact .inl set
    rcases recorded.flagged id member with set | calling
    · exact .inl (same.trans set)
    · rcases inCall id _ calling with going | ⟨rfl, _⟩
      · exact .inr going
      · exact .inr (continues current _ goesOn trivial)
  · intro _
    exact List.ne_nil_of_mem listed

theorem Foreign.not_records {op : Op} (foreign : server.Foreign gen op) :
    ¬ op.Records gen := by
  cases op with
  | compareAndSwapStreamID | storeTCPOpened => exact foreign
  | _ => exact id

theorem Foreign.not_release {op : Op} (foreign : server.Foreign gen op)
    (busy : server.flows lease ≠ .idle) : op ≠ .releaseLease lease := by
  rintro rfl
  exact busy foreign

/-- The step changes neither flows nor streams. -/
structure Uninvolved (server next : Server σ) : Prop where
  flows : next.flows = server.flows
  opened : next.opened = server.opened
  recorded : next.recorded = server.recorded

theorem drainRequest_uninvolved :
    server.Uninvolved (server.drainRequest gen) := by
  unfold drainRequest
  split
  all_goals exact ⟨rfl, rfl, rfl⟩

theorem receiveFence_uninvolved : server.Uninvolved server.receiveFence := by
  unfold receiveFence
  split
  all_goals exact ⟨rfl, rfl, rfl⟩

theorem writeDrainComplete_uninvolved (delivered failed : Bool) :
    server.Uninvolved (server.writeDrainComplete delivered failed) := by
  unfold writeDrainComplete
  dsimp only
  repeat' split
  all_goals exact ⟨rfl, rfl, rfl⟩

theorem finish_uninvolved : server.Uninvolved (server.finish gen) := by
  unfold finish
  split
  all_goals exact ⟨rfl, rfl, rfl⟩

/-- A step outside the flows that performs at most a pool operation other
than `RecordStream`'s writes and the release of a busy flow's lease. -/
theorem Recorded.of_uninvolved (recorded : server.Recorded gen)
    (uninvolved : server.Uninvolved (server.apply gen op))
    (records : ∀ performed, server.poolOp gen op = some performed →
      ¬ performed.Records gen)
    (keeps : ∀ performed, server.poolOp gen op = some performed →
      ∀ lease, server.flows lease ≠ .idle → performed ≠ .releaseLease lease) :
    (server.apply gen op).Recorded gen := by
  apply recorded.of_same uninvolved.flows uninvolved.opened uninvolved.recorded
  · rw [apply_pool]
    cases performs : server.poolOp gen op with
    | none => rfl
    | some performed =>
      exact ConnectionPool.apply_streams (records performed performs)
  · intro lease busy
    have held := (recorded.follows lease).held busy
    rw [apply_pool]
    cases performs : server.poolOp gen op with
    | none => exact held
    | some performed => exact held.apply (keeps performed performs lease busy)

theorem poolOp_retirement (performs : server.poolOp gen op = some performed)
    (control : op = .drainRequest ∨ op = .finish ∨ op = .receiveFence) :
    performed = .beginRetire gen ∨ ∃ ref, server.control.tcpDrained = some ref ∧
        performed = .receiveTCPDrained ref := by
  rcases control with rfl | rfl | rfl
  case inr.inr =>
    obtain ⟨ref, armed, rfl⟩ := Option.map_eq_some_iff.mp performs
    exact .inr ⟨ref, armed, rfl⟩
  all_goals
    unfold poolOp at performs
    dsimp only at performs
    split at performs
    · cases performs
      exact .inl rfl
    · cases performs

private theorem Recorded.control (recorded : server.Recorded gen)
    (control : op = .drainRequest ∨ op = .finish ∨ op = .receiveFence)
    (uninvolved : server.Uninvolved (server.apply gen op)) :
    (server.apply gen op).Recorded gen := by
  apply recorded.of_uninvolved uninvolved
  · intro performed performs
    rcases poolOp_retirement performs control with rfl | ⟨ref, _, rfl⟩
    · exact id
    · exact id
  · intro performed performs lease _
    rcases poolOp_retirement performs control with rfl | ⟨ref, _, rfl⟩
    · simp
    · simp

theorem Recorded.step (recorded : server.Recorded gen)
    (step : server.Step gen next) : next.Recorded gen := by
  obtain ⟨op, enabled, rfl⟩ := step
  cases op with
  | pool op =>
    apply recorded.of_uninvolved
    · exact ⟨rfl, rfl, rfl⟩
    · rintro _ ⟨⟩
      exact enabled.2.not_records
    · rintro _ ⟨⟩ lease busy
      exact enabled.2.not_release busy
  | openStream lease => exact recorded.openStream enabled.1
  | recordStream lease => exact recorded.recordStream enabled
  | recordStep lease => exact recorded.advanceRecord lease
  | drainRequest =>
    exact recorded.control (.inl rfl) drainRequest_uninvolved
  | receiveFence =>
    exact recorded.control (.inr (.inr rfl)) receiveFence_uninvolved
  | writeDrainComplete delivered failed =>
    apply recorded.of_uninvolved
    · exact writeDrainComplete_uninvolved delivered failed
    all_goals rintro _ ⟨⟩
  | stop =>
    apply recorded.of_uninvolved
    · exact ⟨rfl, rfl, rfl⟩
    all_goals rintro _ ⟨⟩
  | finish =>
    exact recorded.control (.inr (.inl rfl)) finish_uninvolved

theorem recorded_of_reachable (reachable : (runs σ gen).Reachable server) :
    server.Recorded gen := by
  apply reachable.invariant
  · rintro state ⟨fresh, idle, opened, recorded, _, _⟩
    obtain ⟨conns, balancer, balancerState, limits, unused, pool⟩ := fresh
    obtain ⟨id, capabilities, same⟩ := unused gen
    have conn : state.pool.conns gen = newClientConn id capabilities := by
      rw [pool]
      exact same
    constructor
    · intro lease
      rw [idle]
      exact ⟨absurd rfl, nofun, nofun, nofun⟩
    · intro n inside
      rw [opened] at inside
      cases inside
    · rw [recorded]
      rintro _ ⟨⟩
    · rw [conn]
      exact .inl rfl
    · rw [recorded]
      rintro _ ⟨⟩
    · rw [recorded]
      rintro _ ⟨⟩
    · rw [conn]
      rintro ⟨⟩
  · intro before after _ recorded step
    exact recorded.step step

end Server

end QMux.Drain
