import QMux.Drain.ServerStreams

/-!
# The fence a server announces

A fence is computed when the retired generation has no outstanding lease.
From then on nothing is opened or recorded on it, so every copy of the fence,
in the channel, in the control loop or on the wire, is the fence of all
streams ever opened.  The control loop announces at most one.
-/

namespace QMux.Drain

open Support Pool ConnectionPool

/-- The drain fence of the recorded streams: their maximum, or `-1`. -/
def IsFence (recorded : List Int) (fence : Int) : Prop :=
  (recorded = [] ∧ fence = -1) ∨
    (fence ∈ recorded ∧ ∀ id ∈ recorded, id ≤ fence)

namespace Server

variable {σ : Type*} {gen : ConnRef} {server next : Server σ}

/-! ## A drained generation -/

section

variable (recorded : server.Recorded gen)

include recorded

theorem Recorded.idle (drained : server.pool.ledger.Drained gen)
    (lease : LeaseRef) : server.flows lease = .idle := by
  by_contra busy
  exact ((recorded.follows lease).held busy).not_drained drained

theorem Recorded.not_inCall (drained : server.pool.ledger.Drained gen)
    (id : Int) (phase : Recording → Prop) : ¬ server.InCall id phase := by
  rintro ⟨lease, recording, call, _⟩
  rw [recorded.idle drained lease] at call
  cases call

theorem Recorded.all_recorded (drained : server.pool.ledger.Drained gen)
    {n : Nat} (inside : n < server.opened) : streamID n ∈ server.recorded := by
  rcases recorded.openedKnown n inside with known | ⟨lease, waiting⟩
  · exact known
  · rw [recorded.idle drained lease] at waiting
    cases waiting

/-- Without outstanding leases the pool computes the fence of what was
recorded. -/
theorem Recorded.isFence (drained : server.pool.ledger.Drained gen) :
    IsFence server.recorded
      (drainFence (server.pool.conns gen)) := by
  unfold drainFence
  by_cases none : server.recorded = []
  · have unopened : ¬ (server.pool.conns gen).tcpOpened = true := by
      intro set
      exact recorded.unflagged set none
    rw [if_neg unopened]
    exact .inl ⟨none, rfl⟩
  · obtain ⟨id, member⟩ := List.exists_mem_of_ne_nil _ none
    have opened : (server.pool.conns gen).tcpOpened = true :=
      (recorded.flagged id member).resolve_right
        (recorded.not_inCall drained _ _)
    have above : ∀ id ∈ server.recorded,
        id ≤ (server.pool.conns gen).tcpStreamID := fun id member =>
      (recorded.raised id member).resolve_right
        (recorded.not_inCall drained _ _)
    have positive : 1 ≤ id := by
      obtain ⟨n, _, rfl⟩ := recorded.recordedOpened id member
      unfold streamID
      omega
    rw [if_pos opened]
    refine .inr ⟨recorded.maximum.resolve_left ?_, above⟩
    have below := above id member
    omega

end

/-! ## From the signal on -/

/-- A retirement of the generation has sent its fence. -/
def Produced (gen : ConnRef) (server : Server σ) : Prop :=
  ∃ (ref : RetirementRef) (cell : Retirement),
    server.pool.retirementCells[ref]? = some cell ∧ cell.conn = gen ∧
      cell.drainSent = true

theorem Produced.drained (produced : server.Produced gen)
    (reachable : (runs σ gen).Reachable server) :
    server.pool.ledger.Drained gen := by
  obtain ⟨ref, cell, found, rfl, sent⟩ := produced
  exact (signals_of_reachable
    (pool_reachable reachable)).drained ref cell found sent

theorem Step.pool_cases (step : server.Step gen next) :
    next.pool = server.pool ∨ server.pool.Step next.pool := by
  obtain ⟨op, enabled, rfl⟩ := step
  rw [apply_pool]
  cases performs : server.poolOp gen op with
  | none => exact .inl rfl
  | some performed =>
    exact .inr ⟨performed, poolOp_enabled enabled performs, rfl⟩

theorem Produced.step (produced : server.Produced gen)
    (step : server.Step gen next) : next.Produced gen := by
  obtain ⟨ref, cell, found, owner, sent⟩ := produced
  rcases step.pool_cases with same | moved
  · refine ⟨ref, cell, ?_, owner, sent⟩
    rw [same]
    exact found
  · obtain ⟨later, laterFound, laterOwner, laterSent⟩ :=
      drainSent_persists found sent moved
    exact ⟨ref, later, laterFound, laterOwner.trans owner, laterSent⟩

variable {lease : LeaseRef} {held : TCPLease} {fence : Int}
  {ref : RetirementRef} {cell : Retirement}

theorem Produced.lease_step (produced : server.Produced gen)
    (reachable : (runs σ gen).Reachable server) (step : server.Step gen next)
    (found : next.pool.leaseCells[lease]? = some held)
    (owner : held.conn = gen) : server.pool.leaseCells[lease]? = some held := by
  have drained := produced.drained reachable
  rcases step.pool_cases with same | moved
  · rw [same] at found
    exact found
  obtain ⟨ref, cell, cellFound, rfl, _⟩ := produced
  have gone := (retired_of_cell cellFound).notCurrent
    (registered_of_reachable (pool_reachable reachable))
  rcases step_refines moved with unchanged | ⟨action, changed⟩
  · have cells : next.pool.leaseCells = server.pool.leaseCells :=
      congrArg Ledger.leaseCells unchanged
    rw [cells] at found
    exact found
  · exact drained.step_lease gone changed found owner

theorem Produced.leases_kept (produced : server.Produced gen)
    (reachable : (runs σ gen).Reachable server)
    (reaches : (runs σ gen).Reaches server next)
    (found : next.pool.leaseCells[lease]? = some held)
    (owner : held.conn = gen) :
    server.pool.leaseCells[lease]? = some held ∧ held.state = .released := by
  have kept : server.pool.leaseCells[lease]? = some held := by
    induction reaches with
    | refl => exact found
    | tail earlier step ih =>
      apply ih
      have before : Produced gen _ :=
        TransitionSystem.Reaches.invariant (Produced gen)
          (fun _ _ _ produced step => produced.step step) reachable earlier
          produced
      exact before.lease_step (reachable.trans earlier) step found owner
  exact ⟨kept, produced.drained reachable lease held kept owner⟩

theorem poolOp_not_records {op : ServerOp} (enabled : server.Enabled gen op)
    (idle : ∀ lease, server.flows lease = .idle) {performed : Op}
    (performs : server.poolOp gen op = some performed) :
    ¬ performed.Records gen := by
  cases op with
  | pool op =>
    cases performs
    exact enabled.2.not_records
  | recordStep lease =>
    unfold poolOp at performs
    dsimp only at performs
    rw [idle lease] at performs
    cases performs
  | drainRequest =>
    rcases poolOp_retirement performs (.inl rfl) with rfl | ⟨_, _, rfl⟩
    · exact id
    · exact id
  | finish =>
    rcases poolOp_retirement performs (.inr (.inl rfl)) with rfl | ⟨_, _, rfl⟩
    · exact id
    · exact id
  | receiveFence =>
    rcases poolOp_retirement performs (.inr (.inr rfl)) with rfl | ⟨_, _, rfl⟩
    · exact id
    · exact id
  | _ => cases performs

theorem Produced.fence_step (produced : server.Produced gen)
    (reachable : (runs σ gen).Reachable server)
    (step : server.Step gen next) :
    drainFence (next.pool.conns gen) = drainFence (server.pool.conns gen) := by
  have idle := (recorded_of_reachable reachable).idle
    (produced.drained reachable)
  obtain ⟨op, enabled, rfl⟩ := step
  rw [apply_pool]
  cases performs : server.poolOp gen op with
  | none => rfl
  | some performed =>
    exact drainFence_eq (apply_streams
      (poolOp_not_records enabled idle performs))

/-! ## The announcement -/

/-- At most one fence is on its way from the channel to the wire. -/
structure Once (server : Server σ) : Prop where
  unretired : server.control.retirement = none →
    server.control.tcpDrained = none ∧ server.control.writing = none ∧
      server.sent = []
  single : server.control.tcpDrained.toList.length +
    server.control.writing.toList.length + server.sent.length ≤ 1

section

variable (once : server.Once)

include once

theorem Once.drainRequest : (server.drainRequest gen).Once := by
  unfold Server.drainRequest
  split
  · exact once
  rename_i unretired
  obtain ⟨disarmed, notWriting, unsent⟩ := once.unretired unretired
  dsimp only
  split
  · exact ⟨once.unretired, once.single⟩
  · constructor
    · intro retirement
      cases retirement
    · simp [notWriting, unsent]

theorem Once.receiveFence (free : server.control.writing = none) :
    server.receiveFence.Once := by
  unfold Server.receiveFence
  split
  · exact once
  rename_i ref armed
  have single := once.single
  dsimp only
  split
  · exact ⟨once.unretired, once.single⟩
  constructor
  · intro retirement
    rw [(once.unretired retirement).1] at armed
    cases armed
  · simp only [armed, free, Option.toList_some, Option.toList_none,
      List.length_singleton, List.length_nil] at single ⊢
    exact single

theorem Once.stop : server.stop.Once := by
  constructor
  · intro retirement
    exact ⟨(once.unretired retirement).1, rfl, (once.unretired retirement).2.2⟩
  · have single := once.single
    simp only [Server.stop, Option.toList_none, List.length_nil]
    omega

theorem Once.writeDrainComplete (delivered failed : Bool) :
    (server.writeDrainComplete delivered failed).Once := by
  unfold Server.writeDrainComplete
  split
  · exact once
  rename_i fence writing
  dsimp only
  split
  · exact once.stop
  have written : Once { server with
      control := { server.control with writing := none }
      sent := if delivered ∨ failed = false then server.sent ++ [fence]
        else server.sent } := by
    constructor
    · intro retirement
      rw [(once.unretired retirement).2.1] at writing
      cases writing
    · have single := once.single
      simp only [writing, Option.toList_some, Option.toList_none,
        List.length_singleton, List.length_nil] at single ⊢
      split
      · rw [List.length_append, List.length_singleton]
        omega
      · omega
  split
  · exact written.stop
  · exact written

theorem Once.finish : (server.finish gen).Once := by
  unfold Server.finish
  split
  · exact ⟨once.unretired, once.single⟩
  · rename_i unretired
    exact ⟨fun _ => once.unretired unretired, once.single⟩

theorem Once.step (step : server.Step gen next) : next.Once := by
  obtain ⟨op, enabled, rfl⟩ := step
  cases op with
  | pool | openStream => exact ⟨once.unretired, once.single⟩
  | recordStream lease =>
    change (server.recordStream lease).Once
    unfold Server.recordStream
    split
    · exact once
    · exact ⟨once.unretired, once.single⟩
  | recordStep lease =>
    change (server.advanceRecord gen lease).Once
    unfold Server.advanceRecord
    split
    · exact once
    · exact ⟨once.unretired, once.single⟩
  | drainRequest => exact once.drainRequest
  | receiveFence => exact once.receiveFence enabled.2
  | writeDrainComplete delivered failed =>
    exact once.writeDrainComplete delivered failed
  | stop => exact once.stop
  | finish => exact once.finish

end

theorem once_of_reachable (reachable : (runs σ gen).Reachable server) :
    server.Once := by
  apply reachable.invariant
  · rintro state ⟨_, _, _, _, control, unsent⟩
    constructor
    · intro _
      rw [control]
      exact ⟨rfl, rfl, unsent⟩
    · rw [control, unsent]
      exact Nat.zero_le _
  · intro before after _ once step
    exact once.step step

/-- The control loop holds the fence or has written it. -/
def Carries (server : Server σ) (fence : Int) : Prop :=
  server.control.writing = some fence ∨ fence ∈ server.sent

theorem stop_carries (carries : server.stop.Carries fence) :
    server.Carries fence := by
  rcases carries with writing | sent
  · cases writing
  · exact .inr sent

theorem writeDrainComplete_carries {delivered failed : Bool}
    (carries : (server.writeDrainComplete delivered failed).Carries fence) :
    server.Carries fence := by
  unfold writeDrainComplete at carries
  split at carries
  · exact carries
  rename_i held writing
  dsimp only at carries
  split at carries
  · exact stop_carries carries
  have written : ∀ control : ServerControl, control.writing = none →
      Carries { server with
        control := control
        sent := if delivered ∨ failed = false then server.sent ++ [held]
          else server.sent } fence → server.Carries fence := by
    intro control notWriting carried
    rcases carried with still | sent
    · rw [notWriting] at still
      cases still
    dsimp only at sent
    split at sent
    · rcases List.mem_append.mp sent with earlier | latest
      · exact .inr earlier
      · rw [List.mem_singleton.mp latest]
        exact .inl writing
    · exact .inr sent
  split at carries
  · exact written _ rfl (stop_carries carries)
  · exact written _ rfl carries

theorem Step.carries_cases (step : server.Step gen next)
    (carries : next.Carries fence) :
    server.Carries fence ∨ ∃ ref, server.control.tcpDrained = some ref ∧
      (server.pool.receiveTCPDrained ref).1 = some fence := by
  obtain ⟨op, enabled, rfl⟩ := step
  cases op with
  | pool | openStream => exact .inl carries
  | recordStream lease =>
    change (server.recordStream lease).Carries fence at carries
    unfold recordStream at carries
    split at carries
    all_goals exact .inl carries
  | recordStep lease =>
    change (server.advanceRecord gen lease).Carries fence at carries
    unfold advanceRecord at carries
    split at carries
    all_goals exact .inl carries
  | drainRequest =>
    change (server.drainRequest gen).Carries fence at carries
    unfold drainRequest at carries
    split at carries
    · exact .inl carries
    · dsimp only at carries
      split at carries
      all_goals exact .inl carries
  | receiveFence =>
    change server.receiveFence.Carries fence at carries
    unfold receiveFence at carries
    split at carries
    · exact .inl carries
    rename_i ref armed
    dsimp only at carries
    split at carries
    · exact .inl carries
    rename_i received receives
    rcases carries with writing | sent
    · refine .inr ⟨ref, armed, ?_⟩
      rw [receives]
      exact writing
    · exact .inl (.inr sent)
  | writeDrainComplete delivered failed =>
    exact .inl (writeDrainComplete_carries carries)
  | stop => exact .inl (stop_carries carries)
  | finish =>
    change (server.finish gen).Carries fence at carries
    unfold finish at carries
    split at carries
    all_goals exact .inl carries

theorem Step.armed_cases (step : server.Step gen next)
    (armed : next.control.tcpDrained = some ref) :
    server.control.tcpDrained = some ref ∨
      ((server.pool.beginRetire gen).1 = some ref ∧
        next.pool = (server.pool.beginRetire gen).2) := by
  obtain ⟨op, enabled, rfl⟩ := step
  cases op with
  | pool | openStream | stop => exact .inl armed
  | recordStream lease =>
    change (server.recordStream lease).control.tcpDrained = _ at armed
    unfold recordStream at armed
    split at armed
    all_goals exact .inl armed
  | recordStep lease =>
    change (server.advanceRecord gen lease).control.tcpDrained = _ at armed
    unfold advanceRecord at armed
    split at armed
    all_goals exact .inl armed
  | drainRequest =>
    change (server.drainRequest gen).control.tcpDrained = _ at armed
    change _ ∨ _ ∧ (server.drainRequest gen).pool = _
    unfold drainRequest at armed ⊢
    split at armed
    · exact .inl armed
    dsimp only at armed
    split at armed
    · exact .inl armed
    rename_i retirement retires
    refine .inr ⟨?_, ?_⟩
    · rw [retires]
      exact armed
    · rfl
  | receiveFence =>
    change server.receiveFence.control.tcpDrained = _ at armed
    unfold receiveFence at armed
    split at armed
    · exact .inl armed
    · dsimp only at armed
      split at armed
      · exact .inl armed
      · cases armed
  | writeDrainComplete delivered failed =>
    change (server.writeDrainComplete delivered failed).control.tcpDrained =
      _ at armed
    unfold writeDrainComplete at armed
    dsimp only at armed
    repeat' split at armed
    all_goals exact .inl armed
  | finish =>
    change (server.finish gen).control.tcpDrained = _ at armed
    unfold finish at armed
    split at armed
    all_goals exact .inl armed

/-- Every copy of a fence is the fence the pool would compute now. -/
structure Announced (gen : ConnRef) (server : Server σ) : Prop where
  channel : ∀ (ref : RetirementRef) (cell : Retirement),
    server.pool.retirementCells[ref]? = some cell → cell.conn = gen →
    ∀ fence, cell.tcpDrained = some fence →
      fence = drainFence (server.pool.conns gen)
  armed : ∀ ref, server.control.tcpDrained = some ref →
    ∃ cell, server.pool.retirementCells[ref]? = some cell ∧ cell.conn = gen
  carried : ∀ fence, server.Carries fence → server.Produced gen ∧
    fence = drainFence (server.pool.conns gen)

theorem produced_of_channel (reachable : (runs σ gen).Reachable server)
    (found : server.pool.retirementCells[ref]? = some cell)
    (owner : cell.conn = gen) (full : cell.tcpDrained = some fence) :
    server.Produced gen := by
  refine ⟨ref, cell, found, owner, ?_⟩
  cases sent : cell.drainSent with
  | true => rfl
  | false =>
    have signals := signals_of_reachable (pool_reachable reachable)
    rw [signals.unsent ref cell found sent] at full
    cases full

private theorem Announced.channel_step (announced : server.Announced gen)
    (reachable : (runs σ gen).Reachable server) (step : server.Step gen next)
    (found : next.pool.retirementCells[ref]? = some cell)
    (owner : cell.conn = gen) (full : cell.tcpDrained = some fence) :
    fence = drainFence (next.pool.conns gen) := by
  have kept : ∀ old, server.pool.retirementCells[ref]? = some old →
      old.conn = gen → old.tcpDrained = some fence →
      fence = drainFence (next.pool.conns gen) := by
    intro old oldFound oldOwner oldFull
    have produced := produced_of_channel reachable oldFound oldOwner oldFull
    rw [produced.fence_step reachable step]
    exact announced.channel ref old oldFound oldOwner fence oldFull
  rcases step.pool_cases with same | ⟨op, _, moved⟩
  · rw [same] at found
    exact kept cell found owner full
  rw [moved] at found
  cases apply_signalStep found with
  | kept old oldFound conn _ tcpDrained =>
    rcases tcpDrained with unchanged | emptied
    · exact kept old oldFound (conn.symm.trans owner)
        (unchanged.symm.trans full)
    · rw [emptied] at full
      cases full
  | unsent _ _ empty =>
    rw [empty] at full
    cases full
  | signalled _ tcpDrained _ =>
    rw [tcpDrained, owner, ← moved] at full
    exact (Option.some.inj full).symm

theorem Announced.step (announced : server.Announced gen)
    (reachable : (runs σ gen).Reachable server)
    (step : server.Step gen next) : next.Announced gen := by
  constructor
  · intro ref cell found owner fence full
    exact announced.channel_step reachable step found owner full
  · intro ref armed
    rcases step.armed_cases armed with earlier | ⟨retires, pool⟩
    · obtain ⟨cell, found, owner⟩ := announced.armed ref earlier
      rcases step.pool_cases with same | moved
      · rw [same]
        exact ⟨cell, found, owner⟩
      · obtain ⟨later, laterFound, laterOwner⟩ := cell_persists found moved
        exact ⟨later, laterFound, laterOwner.trans owner⟩
    · rw [pool]
      exact beginRetire_cell retires
  · intro fence carries
    have before : server.Produced gen ∧
        fence = drainFence (server.pool.conns gen) := by
      rcases step.carries_cases carries with earlier | ⟨ref, armed, receives⟩
      · exact announced.carried fence earlier
      obtain ⟨cell, found, owner⟩ := announced.armed ref armed
      obtain ⟨same, sameFound, full⟩ := receiveTCPDrained_cell receives
      rw [found] at sameFound
      cases sameFound
      exact ⟨produced_of_channel reachable found owner full,
        announced.channel ref cell found owner fence full⟩
    obtain ⟨produced, value⟩ := before
    exact ⟨produced.step step,
      value.trans (produced.fence_step reachable step).symm⟩

theorem announced_of_reachable (reachable : (runs σ gen).Reachable server) :
    server.Announced gen := by
  apply reachable.invariant
  · rintro state ⟨fresh, _, _, _, control, unsent⟩
    obtain ⟨conns, balancer, balancerState, limits, _, pool⟩ := fresh
    constructor
    · intro ref cell found
      rw [pool] at found
      cases found
    · intro ref armed
      rw [control] at armed
      cases armed
    · rintro fence (writing | sent)
      · rw [control] at writing
        cases writing
      · rw [unsent] at sent
        cases sent
  · intro before after earlier announced step
    exact announced.step earlier step

/-- What a written or held fence says, in every later state. -/
theorem carries_isFence (reachable : (runs σ gen).Reachable server)
    (carries : server.Carries fence) :
    server.pool.ledger.Drained gen ∧ IsFence server.recorded fence ∧
      ∀ n, n < server.opened → streamID n ∈ server.recorded := by
  obtain ⟨produced, value⟩ :=
    (announced_of_reachable reachable).carried fence carries
  have recorded := recorded_of_reachable reachable
  have drained := produced.drained reachable
  refine ⟨drained, ?_, fun n inside => recorded.all_recorded drained inside⟩
  rw [value]
  exact recorded.isFence drained

end Server

end QMux.Drain
