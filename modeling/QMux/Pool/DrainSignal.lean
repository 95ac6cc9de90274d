import QMux.Pool.Frames
import QMux.Pool.Registration

/-!
# Drain signals

When a retirement announces its drain fence, what the fence is, and what the
pool guarantees from then on.  Only `RecordStream` writes the two fields a
fence is computed from, and a signalled generation never has an outstanding
TCP lease again.
-/

namespace QMux.Pool

open Support

/-! ## Leases of a retired generation -/

namespace Ledger

variable {ledger next : Ledger} {action : Action} {conn : ConnRef}

/-- Every lease ever issued on `conn` has been released. -/
def Drained (ledger : Ledger) (conn : ConnRef) : Prop :=
  ∀ (ref : LeaseRef) (lease : TCPLease),
    ledger.leaseCells[ref]? = some lease → lease.conn = conn →
    lease.state = .released

variable {ref : LeaseRef} {lease : TCPLease}

theorem Step.lease_cases (step : ledger.Step action next)
    (found : next.leaseCells[ref]? = some lease) :
    ledger.leaseCells[ref]? = some lease ∨ ledger.Current lease.conn ∨
      ∃ state, state ≠ .released ∧
        ledger.leaseCells[ref]? = some ⟨lease.conn, state⟩ := by
  have written : ∀ (target : LeaseRef) (owner : ConnRef)
      (old new : TCPLeaseState), old ≠ .released →
      ledger.leaseCells[target]? = some ⟨owner, old⟩ →
      (ledger.leaseCells.set target ⟨owner, new⟩)[ref]? = some lease →
      ledger.leaseCells[ref]? = some lease ∨ ledger.Current lease.conn ∨
        ∃ state, state ≠ .released ∧
          ledger.leaseCells[ref]? = some ⟨lease.conn, state⟩ := by
    intro target owner old new outstanding targetFound result
    rcases cases_set targetFound result with ⟨same, rfl⟩ | ⟨_, result⟩
    · refine .inr (.inr ⟨old, outstanding, ?_⟩)
      rw [same]
      exact targetFound
    · exact .inl result
  cases step with
  | @lease owner current _ _ =>
    rcases cases_append found with ⟨_, rfl⟩ | found
    · exact .inr (.inl current)
    · exact .inl found
  | activate outstanding =>
    exact written _ _ .pending _ (by simp) outstanding found
  | releasePending outstanding =>
    rw [finalize_leaseCells] at found
    exact written _ _ .pending _ (by simp) outstanding found
  | releaseActive outstanding =>
    rw [finalize_leaseCells] at found
    exact written _ _ .active _ (by simp) outstanding found
  | done | releaseUDP =>
    rw [finalize_leaseCells] at found
    exact .inl found
  | _ => exact .inl found

theorem Drained.step_lease (drained : ledger.Drained conn)
    (gone : ¬ ledger.Current conn) (step : ledger.Step action next)
    (found : next.leaseCells[ref]? = some lease) (owner : lease.conn = conn) :
    ledger.leaseCells[ref]? = some lease := by
  rcases step.lease_cases found with same | current | ⟨state, held, before⟩
  · exact same
  · rw [owner] at current
    exact absurd current gone
  · exact absurd (drained ref _ before owner) held

theorem Drained.step (drained : ledger.Drained conn)
    (gone : ¬ ledger.Current conn) (step : ledger.Step action next) :
    next.Drained conn := by
  intro ref lease found owner
  exact drained ref lease (drained.step_lease gone step found owner) owner

theorem Counted.drained (counted : ledger.Counted)
    (idle : (ledger.conns conn).tcpPending +
      (ledger.conns conn).tcpActive = 0) : ledger.Drained conn := by
  intro ref lease found owner
  have pending := counted.pendingLeases conn
  have active := counted.activeLeases conn
  cases state : lease.state with
  | released => rfl
  | pending =>
    have positive := countP_pos_of_getElem?
      (TCPLease.isOn conn .pending) found
      (by simp [TCPLease.isOn, owner, state])
    omega
  | active =>
    have positive := countP_pos_of_getElem?
      (TCPLease.isOn conn .active) found
      (by simp [TCPLease.isOn, owner, state])
    omega

end Ledger

/-! ## What a step does to streams and signals -/

/-- The fields `RecordStream` writes and the fence is computed from. -/
def ClientConn.streams (conn : ClientConn) : Int × Bool :=
  (conn.tcpStreamID, conn.tcpOpened)

/-- The operation is a write of `RecordStream` to `conn`. -/
def Op.Records (conn : ConnRef) : Op → Prop
  | .compareAndSwapStreamID target _ _ => target = conn
  | .storeTCPOpened target => target = conn
  | _ => False

namespace ConnectionPool

variable {σ : Type*} {p : ConnectionPool σ}

theorem drainFence_eq {left right : ClientConn}
    (same : left.streams = right.streams) :
    drainFence left = drainFence right := by
  obtain ⟨streamID, opened⟩ := Prod.mk.inj same
  unfold drainFence
  rw [streamID, opened]

/-- What one step may have done to the retirement `ref`, now `later`. -/
inductive SignalStep (p next : ConnectionPool σ) (ref : RetirementRef)
    (later : Retirement) : Prop where
  | kept (cell : Retirement) (found : p.retirementCells[ref]? = some cell)
      (conn : later.conn = cell.conn)
      (drainSent : later.drainSent = cell.drainSent)
      (tcpDrained : later.tcpDrained = cell.tcpDrained ∨
        later.tcpDrained = none)
  | unsent (new : p.retirementCells[ref]? = none)
      (drainSent : later.drainSent = false)
      (tcpDrained : later.tcpDrained = none)
  | signalled (drainSent : later.drainSent = true)
      (tcpDrained : later.tcpDrained =
        some (drainFence (next.conns later.conn)))
      (idle : (next.conns later.conn).tcpPending +
        (next.conns later.conn).tcpActive = 0)

theorem finalizeRetirementLocked_cells (conn : ConnRef) :
    (p.finalizeRetirementLocked conn).retirementCells = p.retirementCells := by
  obtain ⟨retiring, same⟩ := p.finalizeRetirementLocked_eq conn
  rw [same]

variable {target ref : RetirementRef} {later cell : Retirement}
  {lease : LeaseRef} {op : Op} {conn : ConnRef}

theorem signalTCPDrainedLocked_signalStep
    (found : (p.signalTCPDrainedLocked target).retirementCells[ref]? =
      some later) :
    SignalStep p (p.signalTCPDrainedLocked target) ref later := by
  rw [signalTCPDrainedLocked] at found
  split at found
  · exact .kept later found rfl rfl (.inl rfl)
  rename_i retirement targetFound
  dsimp only at found
  split at found
  · exact .kept later found rfl rfl (.inl rfl)
  rename_i due
  rcases cases_set targetFound found with ⟨_, rfl⟩ | ⟨_, found⟩
  · refine .signalled rfl ?_ ?_
    · rw [signalTCPDrainedLocked_conns]
    · rw [signalTCPDrainedLocked_conns]
      exact not_not.mp (not_or.mp due).2
  · exact .kept later found rfl rfl (.inl rfl)

theorem SignalStep.of_same {before middle next : ConnectionPool σ}
    (step : SignalStep before middle ref later)
    (cells : before.retirementCells = p.retirementCells)
    (conns : next.conns = middle.conns) : SignalStep p next ref later := by
  cases step with
  | kept cell found conn drainSent tcpDrained =>
    rw [cells] at found
    exact .kept cell found conn drainSent tcpDrained
  | unsent new drainSent tcpDrained =>
    rw [cells] at new
    exact .unsent new drainSent tcpDrained
  | signalled drainSent tcpDrained idle =>
    rw [← conns] at tcpDrained idle
    exact .signalled drainSent tcpDrained idle

theorem beginRetire_signalStep {target : ConnRef}
    (found : (p.beginRetire target).2.retirementCells[ref]? = some later) :
    SignalStep p (p.beginRetire target).2 ref later := by
  unfold beginRetire at found ⊢
  split
  · rename_i stale
    rw [if_pos stale] at found
    exact .kept later found rfl rfl (.inl rfl)
  rename_i current
  rw [if_neg current] at found
  dsimp only at found ⊢
  cases signalTCPDrainedLocked_signalStep found with
  | kept cell cellFound conn drainSent tcpDrained =>
    dsimp only at cellFound
    rcases cases_append cellFound with ⟨last, rfl⟩ | cellFound
    · refine .unsent ?_ drainSent (tcpDrained.elim id id)
      rw [last]
      exact getElem?_length_eq_none _
    · exact .kept cell cellFound conn drainSent tcpDrained
  | unsent new drainSent tcpDrained =>
    dsimp only at new
    rw [getElem?_append_singleton] at new
    split at new
    · cases new
    · exact .unsent new drainSent tcpDrained
  | signalled drainSent tcpDrained idle =>
    exact .signalled drainSent tcpDrained idle

theorem receiveTCPDrained_signalStep
    (found : (p.receiveTCPDrained target).2.retirementCells[ref]? =
      some later) : SignalStep p (p.receiveTCPDrained target).2 ref later := by
  unfold receiveTCPDrained at found
  split at found
  · exact .kept later found rfl rfl (.inl rfl)
  rename_i retirement targetFound
  split at found
  · exact .kept later found rfl rfl (.inl rfl)
  dsimp only at found
  rcases cases_set targetFound found with ⟨same, rfl⟩ | ⟨_, found⟩
  · rw [← same] at targetFound
    exact .kept retirement targetFound rfl rfl (.inr rfl)
  · exact .kept later found rfl rfl (.inl rfl)

theorem done_signalStep
    (found : (p.done target).2.retirementCells[ref]? = some later) :
    SignalStep p (p.done target).2 ref later := by
  unfold done at found
  split at found
  · exact .kept later found rfl rfl (.inl rfl)
  rename_i retirement targetFound
  split at found
  · exact .kept later found rfl rfl (.inl rfl)
  dsimp only at found
  rw [finalizeRetirementLocked_cells, getElem?_set_eq targetFound] at found
  split at found
  · rename_i same
    cases found
    rw [← same] at targetFound
    exact .kept retirement targetFound rfl rfl (.inl rfl)
  · exact .kept later found rfl rfl (.inl rfl)

theorem finishLease_signalStep {held : TCPLease}
    (found : (p.finishLease lease held).retirementCells[ref]? = some later) :
    SignalStep p (p.finishLease lease held) ref later := by
  unfold finishLease at found
  dsimp only at found
  rw [finalizeRetirementLocked_cells] at found
  split at found
  · exact .kept later found rfl rfl (.inl rfl)
  · apply (signalTCPDrainedLocked_signalStep found).of_same
    · rfl
    · rw [finishLease_conns, signalTCPDrainedLocked_conns]

theorem releaseLease_signalStep
    (found : (p.releaseLease lease).2.retirementCells[ref]? = some later) :
    SignalStep p (p.releaseLease lease).2 ref later := by
  revert found
  unfold releaseLease
  repeat' split
  · intro found
    exact .kept later found rfl rfl (.inl rfl)
  · intro found
    exact (finishLease_signalStep found).of_same rfl rfl
  · intro found
    exact (finishLease_signalStep found).of_same rfl rfl
  · intro found
    exact .kept later found rfl rfl (.inl rfl)

theorem apply_streams (foreign : ¬ op.Records conn) :
    ((p.apply op).conns conn).streams = (p.conns conn).streams := by
  apply apply_view ClientConn.streams
  intro written writes
  cases writes with
  | recordStream | storeTCPOpened => exact absurd rfl foreign
  | _ => rfl

theorem apply_signalStep
    (found : (p.apply op).retirementCells[ref]? = some later) :
    SignalStep p (p.apply op) ref later := by
  by_cases retires : op.Retires
  · cases op with
    | beginRetire conn => exact beginRetire_signalStep found
    | receiveTCPDrained target => exact receiveTCPDrained_signalStep found
    | done target => exact done_signalStep found
    | releaseLease lease => exact releaseLease_signalStep found
    | _ => exact retires.elim
  · rw [(p.apply_frame op).retirements retires] at found
    exact .kept later found rfl rfl (.inl rfl)

/-! ## Outstanding leases -/

/-- The lease was issued on `conn` and is not released. -/
def Outstanding (p : ConnectionPool σ) (conn : ConnRef) (lease : LeaseRef) :
    Prop :=
  ∃ held ∈ p.leaseCells[lease]?, held.conn = conn ∧ held.state ≠ .released

instance (p : ConnectionPool σ) (conn : ConnRef) (lease : LeaseRef) :
    Decidable (p.Outstanding conn lease) :=
  inferInstanceAs (Decidable (∃ held ∈ _, _))

theorem Outstanding.not_drained (outstanding : p.Outstanding conn lease) :
    ¬ p.ledger.Drained conn := by
  intro drained
  obtain ⟨held, found, owner, unreleased⟩ := outstanding
  exact unreleased (drained lease held found owner)

theorem Outstanding.of_leaseCells {next : ConnectionPool σ}
    (outstanding : p.Outstanding conn lease)
    (same : next.leaseCells = p.leaseCells) : next.Outstanding conn lease := by
  unfold Outstanding
  rw [same]
  exact outstanding

theorem finishLease_leaseCells (lease : LeaseRef) (held : TCPLease) :
    (p.finishLease lease held).leaseCells =
      p.leaseCells.set lease { held with state := .released } :=
  (congrArg Ledger.leaseCells (p.ledger_finishLease lease held)).trans
    (Ledger.finalize_leaseCells held.conn)

section

variable (outstanding : p.Outstanding conn lease)

include outstanding

private theorem Outstanding.next (ref : AdmissionRef) :
    (p.next ref).2.Outstanding conn lease := by
  rcases p.next_cases ref with ⟨target, _, _, _, leased⟩ | ⟨_, same⟩
  · obtain ⟨held, found, owner, unreleased⟩ := outstanding
    have cells : (p.next ref).2.leaseCells =
      p.leaseCells ++ [⟨target, .pending⟩] := congrArg Ledger.leaseCells leased
    have inside := (List.getElem?_eq_some_iff.mp found).1
    refine ⟨held, ?_, owner, unreleased⟩
    rw [cells, getElem?_append_singleton, if_neg (Nat.ne_of_lt inside)]
    exact found
  · exact outstanding.of_leaseCells (congrArg Ledger.leaseCells same)

private theorem Outstanding.commitLease (ref : LeaseRef) :
    (p.commitLease ref).2.Outstanding conn lease := by
  unfold ConnectionPool.commitLease
  split
  · exact outstanding
  rename_i target targetFound
  split
  · exact outstanding
  obtain ⟨held, found, owner, unreleased⟩ := outstanding
  unfold Outstanding
  dsimp only
  rw [getElem?_set_eq targetFound]
  split
  · rename_i same
    have both : some held = some target := by
      rw [← targetFound, ← same]
      exact found.symm
    cases both
    exact ⟨_, rfl, owner, by simp⟩
  · exact ⟨held, found, owner, unreleased⟩

private theorem Outstanding.releaseLease {ref : LeaseRef}
    (other : ref ≠ lease) : (p.releaseLease ref).2.Outstanding conn lease := by
  unfold ConnectionPool.releaseLease
  obtain ⟨held, found, owner, unreleased⟩ := outstanding
  repeat' split
  · exact ⟨held, found, owner, unreleased⟩
  · refine ⟨held, ?_, owner, unreleased⟩
    rw [finishLease_leaseCells]
    exact (List.getElem?_set_ne other).trans found
  · refine ⟨held, ?_, owner, unreleased⟩
    rw [finishLease_leaseCells]
    exact (List.getElem?_set_ne other).trans found
  · exact ⟨held, found, owner, unreleased⟩

theorem Outstanding.apply (kept : op ≠ .releaseLease lease) :
    (p.apply op).Outstanding conn lease := by
  by_cases notNext : ∀ ref, op ≠ .next ref
  · by_cases notCommit : ∀ ref, op ≠ .commitLease ref
    · by_cases notRelease : ∀ ref, op ≠ .releaseLease ref
      · exact outstanding.of_leaseCells
          ((p.apply_frame op).leases notNext notCommit notRelease)
      · obtain ⟨ref, rfl⟩ := not_forall_not.mp notRelease
        apply outstanding.releaseLease
        rintro rfl
        exact kept rfl
    · obtain ⟨ref, rfl⟩ := not_forall_not.mp notCommit
      exact outstanding.commitLease ref
  · obtain ⟨ref, rfl⟩ := not_forall_not.mp notNext
    exact outstanding.next ref

end

/-! ## Signals along a run -/

/-- The channel of a retirement is empty until its fence is sent, and a
generation whose fence was sent is drained. -/
structure Signals (p : ConnectionPool σ) : Prop where
  unsent : ∀ (ref : RetirementRef) (cell : Retirement),
    p.retirementCells[ref]? = some cell → cell.drainSent = false →
    cell.tcpDrained = none
  drained : ∀ (ref : RetirementRef) (cell : Retirement),
    p.retirementCells[ref]? = some cell → cell.drainSent = true →
    p.ledger.Drained cell.conn

theorem retired_of_cell (found : p.retirementCells[ref]? = some cell) :
    p.Retired cell.conn := by
  refine ⟨ref, cell.account, ?_, rfl⟩
  change (p.retirementCells.map Retirement.account)[ref]? = _
  rw [List.getElem?_map, found, Option.map_some]

theorem drained_step {next : ConnectionPool σ}
    (registered : p.ledger.Registered) (retired : p.Retired conn)
    (drained : p.ledger.Drained conn) (step : p.Step next) :
    next.ledger.Drained conn := by
  rcases step_refines step with same | ⟨action, moved⟩
  · rw [same]
    exact drained
  · exact drained.step (retired.notCurrent registered) moved

theorem signals_of_reachable (reachable : (runs σ).Reachable p) :
    p.Signals := by
  apply reachable.invariant
  · intro state fresh
    obtain ⟨conns, balancer, balancerState, limits, _, rfl⟩ := fresh
    constructor
    all_goals
      intro ref cell found
      cases found
  · intro before after earlier signals step
    have later : (runs σ).Reachable after := earlier.next step
    obtain ⟨op, enabled, rfl⟩ := step
    constructor
    · intro ref cell found unsent
      cases apply_signalStep found with
      | kept old oldFound conn drainSent tcpDrained =>
        rcases tcpDrained with same | empty
        · rw [same]
          exact signals.unsent ref old oldFound (drainSent ▸ unsent)
        · exact empty
      | unsent _ _ tcpDrained => exact tcpDrained
      | signalled drainSent => cases drainSent.symm.trans unsent
    · intro ref cell found sent
      cases apply_signalStep found with
      | kept old oldFound conn drainSent tcpDrained =>
        rw [conn]
        apply drained_step (registered_of_reachable earlier)
          (retired_of_cell oldFound)
        · exact signals.drained ref old oldFound (drainSent ▸ sent)
        · exact ⟨op, enabled, rfl⟩
      | unsent _ drainSent => cases drainSent.symm.trans sent
      | signalled _ _ idle =>
        exact (counted_of_reachable later).drained idle

/-! ## Retirements persist -/

theorem ledger_cell_iff {account : RetirementAccount} :
    p.ledger.retirementCells[ref]? = some account ↔
      ∃ cell, p.retirementCells[ref]? = some cell ∧ cell.account = account := by
  change (p.retirementCells.map Retirement.account)[ref]? = _ ↔ _
  rw [List.getElem?_map]
  exact Option.map_eq_some_iff

theorem cell_persists {next : ConnectionPool σ}
    (found : p.retirementCells[ref]? = some cell) (step : p.Step next) :
    ∃ later, next.retirementCells[ref]? = some later ∧
      later.conn = cell.conn := by
  have listed := ledger_cell_iff.mpr ⟨cell, found, rfl⟩
  rcases step_refines step with same | ⟨action, moved⟩
  · rw [← same] at listed
    obtain ⟨later, laterFound, account⟩ := ledger_cell_iff.mp listed
    exact ⟨later, laterFound, congrArg RetirementAccount.conn account⟩
  · obtain ⟨account, accountFound, conn⟩ := moved.retirement_persists listed
    obtain ⟨later, laterFound, rfl⟩ := ledger_cell_iff.mp accountFound
    exact ⟨later, laterFound, conn⟩

theorem drainSent_persists {next : ConnectionPool σ}
    (found : p.retirementCells[ref]? = some cell)
    (sent : cell.drainSent = true) (step : p.Step next) :
    ∃ later, next.retirementCells[ref]? = some later ∧
      later.conn = cell.conn ∧ later.drainSent = true := by
  obtain ⟨later, laterFound, conn⟩ := cell_persists found step
  refine ⟨later, laterFound, conn, ?_⟩
  obtain ⟨op, _, rfl⟩ := step
  cases apply_signalStep laterFound with
  | kept old oldFound _ drainSent _ =>
    rw [found] at oldFound
    cases oldFound
    rw [drainSent, sent]
  | unsent new =>
    rw [found] at new
    cases new
  | signalled drainSent => exact drainSent

theorem beginRetire_cell (retires : (p.beginRetire conn).1 = some ref) :
    ∃ cell, (p.beginRetire conn).2.retirementCells[ref]? = some cell ∧
      cell.conn = conn := by
  have current := beginRetire_some retires
  have last : ref = p.retirementCells.length := by
    unfold beginRetire at retires
    rw [if_neg (by simp [current])] at retires
    exact (Option.some.inj retires).symm
  have listed : (p.beginRetire conn).2.ledger.retirementCells[ref]? =
      some ⟨conn, false⟩ := by
    rw [beginRetire_ledger current, last]
    change (p.retirementCells.map Retirement.account ++ _)[_]? = _
    rw [getElem?_append_singleton, List.length_map, if_pos rfl]
  obtain ⟨cell, found, account⟩ := ledger_cell_iff.mp listed
  exact ⟨cell, found, congrArg RetirementAccount.conn account⟩

theorem receiveTCPDrained_cell {fence : Int}
    (receives : (p.receiveTCPDrained ref).1 = some fence) :
    ∃ cell, p.retirementCells[ref]? = some cell ∧
      cell.tcpDrained = some fence := by
  revert receives
  unfold receiveTCPDrained
  split
  · intro receives
    cases receives
  · rename_i cell found
    split
    · intro receives
      cases receives
    · rename_i content full
      intro receives
      exact ⟨cell, found, full.trans receives⟩

end ConnectionPool

end QMux.Pool
