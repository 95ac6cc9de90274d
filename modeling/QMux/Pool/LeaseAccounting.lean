import QMux.Pool.Frames
import QMux.Pool.Registration

/-!
# Lease accounting of the pool

Runs in which every UDP reservation is given back at most once.  Beside the
pool the state has the books of its callers: the UDP reservations, TCP leases
and retirements they obtained, and the calls they made on them.  In every
reachable state the counters of each generation count what is outstanding in
the books, nothing exceeds a limit, and no accounting fault has been raised.
-/

namespace QMux.Pool

open Function Support ConnectionPool

/-- One successful `ReserveUDP`, until it is released. -/
structure UDPReservation where
  conn : ConnRef
  released : Bool
deriving DecidableEq

/-- The reservation is outstanding on `conn`. -/
def UDPReservation.isOn (conn : ConnRef) (reservation : UDPReservation) :
    Bool :=
  reservation.conn = conn ∧ reservation.released = false

/-- A pool and the books of its callers: the reservations and leases they
obtained, with the calls made on each, and for each retirement whether `Done`
was called on it. -/
structure Accounts (σ : Type*) where
  pool : ConnectionPool σ
  udpReservations : List UDPReservation
  tcpLeases : List TCPLease
  doneCalls : List Bool

namespace Accounts

variable {σ : Type*} {accounts : Accounts σ}

/-- The TCP leases in the books after a call. -/
def leasesAfter (accounts : Accounts σ) : Op → List TCPLease
  | .next ref =>
    match (accounts.pool.next ref).1 with
    | .ok (some lease) => accounts.tcpLeases ++
        (((accounts.pool.next ref).2.leaseCells[lease]?).map fun held =>
          ⟨held.conn, .pending⟩).toList
    | _ => accounts.tcpLeases
  | .commitLease ref =>
    match accounts.tcpLeases[ref]? with
    | some ⟨conn, .pending⟩ => accounts.tcpLeases.set ref ⟨conn, .active⟩
    | _ => accounts.tcpLeases
  | .releaseLease ref =>
    match accounts.tcpLeases[ref]? with
    | some lease => accounts.tcpLeases.set ref ⟨lease.conn, .released⟩
    | none => accounts.tcpLeases
  | _ => accounts.tcpLeases

/-- The retirements in the books after a call. -/
def doneAfter (accounts : Accounts σ) : Op → List Bool
  | .beginRetire conn =>
    match (accounts.pool.beginRetire conn).1 with
    | some _ => accounts.doneCalls ++ [false]
    | none => accounts.doneCalls
  | .done ref => accounts.doneCalls.set ref true
  | _ => accounts.doneCalls

/-- A call that neither obtains nor releases a UDP reservation. -/
def called (accounts : Accounts σ) (op : Op) : Accounts σ :=
  { accounts with
    pool := accounts.pool.apply op
    tcpLeases := accounts.leasesAfter op
    doneCalls := accounts.doneAfter op }

/-- What `ReserveUDP` leaves with its caller. -/
def reserved (accounts : Accounts σ) (order : List ConnRef) : Accounts σ :=
  { accounts with
    pool := (accounts.pool.reserveUDP order).2
    udpReservations :=
      match (accounts.pool.reserveUDP order).1 with
      | .ok conn => accounts.udpReservations ++ [⟨conn, false⟩]
      | .error _ => accounts.udpReservations }

def released (accounts : Accounts σ) (ref : Nat) (conn : ConnRef) :
    Accounts σ :=
  { accounts with
    pool := (accounts.pool.releaseUDP conn).2
    udpReservations := accounts.udpReservations.set ref ⟨conn, true⟩ }

inductive Step (accounts : Accounts σ) : Accounts σ → Prop where
  | plain (op : Op) (plain : op.Plain) (enabled : accounts.pool.Enabled op) :
      Step accounts (accounts.called op)
  | reserveUDP (order : List ConnRef)
      (iteration : accounts.pool.IterationOrder order) :
      Step accounts (accounts.reserved order)
  | releaseUDP {ref : Nat} {conn : ConnRef}
      (held : accounts.udpReservations[ref]? = some ⟨conn, false⟩) :
      Step accounts (accounts.released ref conn)

/-- All runs in which a UDP reservation is released at most once. -/
def runs (σ : Type*) : TransitionSystem (Accounts σ) where
  initial accounts := ∃ pool : ConnectionPool σ, pool.Fresh ∧
    accounts = ⟨pool, [], [], []⟩
  step := Step

theorem Step.pool_step {next : Accounts σ} (step : accounts.Step next) :
    accounts.pool.Step next.pool := by
  cases step with
  | plain op _ enabled => exact ⟨op, enabled, rfl⟩
  | reserveUDP order iteration => exact ⟨.reserveUDP order, iteration, rfl⟩
  | @releaseUDP ref conn _ => exact ⟨.releaseUDP conn, trivial, rfl⟩

theorem pool_reachable (reachable : (runs σ).Reachable accounts) :
    (ConnectionPool.runs σ).Reachable accounts.pool := by
  apply reachable.project
  · rintro _ ⟨pool, fresh, rfl⟩
    exact fresh
  · intro before after _ step
    exact .single step.pool_step

/-- UDP counters count the reservations held by callers. -/
structure Balanced (accounts : Accounts σ) : Prop where
  udpReserved : ∀ conn, (accounts.pool.conns conn).udpSessions =
    accounts.udpReservations.countP (UDPReservation.isOn conn)
  noFault : accounts.pool.accountingFaults = 0

end Accounts

namespace Ledger

variable {ledger next : Ledger} {action : Action}

/-- How an action changes the UDP counter of a generation. -/
def Action.udpDelta (action : Action) (conn : ConnRef) : Int :=
  match action with
  | .other => 0
  | .reserveUDP target => if conn = target then 1 else 0
  | .releaseUDP target => if conn = target then -1 else 0
  | .fault => 0

variable {write : ConnAccount → ConnAccount}

private theorem updateConn_udpSessions (ledger : Ledger) {delta : Int}
    (other conn : ConnRef)
    (moves : ∀ account, (write account).udpSessions =
      account.udpSessions + delta) :
    ((ledger.updateConn other write).conns conn).udpSessions =
      (ledger.conns conn).udpSessions + if conn = other then delta else 0 := by
  change (Function.update ledger.conns other _ conn).udpSessions = _
  by_cases same : conn = other
  · rw [same, update_self, if_pos rfl, moves]
  · rw [update_of_ne same, if_neg same, Int.add_zero]

private theorem updateConn_udpSessions_of_same (other conn : ConnRef)
    (same : ∀ account, (write account).udpSessions = account.udpSessions) :
    ((ledger.updateConn other write).conns conn).udpSessions =
      (ledger.conns conn).udpSessions := by
  have unmoved : ∀ account, (write account).udpSessions =
      account.udpSessions + 0 := by
    simpa using same
  have moved := updateConn_udpSessions ledger other conn unmoved
  simpa using moved

theorem Step.udpSessions (step : ledger.Step action next) (conn : ConnRef) :
    (next.conns conn).udpSessions =
      (ledger.conns conn).udpSessions + action.udpDelta conn := by
  cases step with
  | commit =>
    rw [Action.udpDelta, Int.add_zero]
    dsimp only [committed]
    apply updateConn_udpSessions_of_same
    intro account
    rfl
  | done =>
    rw [finalize_conns, Action.udpDelta, Int.add_zero]
    rfl
  | reserveUDP =>
    rw [Action.udpDelta]
    apply updateConn_udpSessions
    intro account
    rfl
  | releaseUDP =>
    rw [finalize_conns, Action.udpDelta]
    apply updateConn_udpSessions
    intro account
    rfl
  | lease =>
    rw [Action.udpDelta, Int.add_zero]
    dsimp only [leased]
    apply updateConn_udpSessions_of_same
    intro account
    rfl
  | activate =>
    rw [Action.udpDelta, Int.add_zero]
    dsimp only [activated]
    apply updateConn_udpSessions_of_same
    intro account
    rfl
  | releasePending =>
    rw [finalize_conns, Action.udpDelta, Int.add_zero]
    dsimp only [releasedPending]
    apply updateConn_udpSessions_of_same
    intro account
    rfl
  | releaseActive =>
    rw [finalize_conns, Action.udpDelta, Int.add_zero]
    dsimp only [releasedActive]
    apply updateConn_udpSessions_of_same
    intro account
    rfl
  | _ =>
    rw [Action.udpDelta, Int.add_zero]
    rfl

@[simp] theorem finalize_accountingFaults (conn : ConnRef) :
    (ledger.finalize conn).accountingFaults = ledger.accountingFaults := by
  rw [finalize_eq]

theorem Step.accountingFaults (step : ledger.Step action next)
    (noFault : action ≠ .fault) :
    next.accountingFaults = ledger.accountingFaults := by
  cases step with
  | fault => exact absurd rfl noFault
  | done | releaseUDP | releasePending | releaseActive =>
    exact finalize_accountingFaults _
  | _ => rfl

end Ledger

namespace Accounts

variable {σ : Type*} {accounts : Accounts σ}

theorem balanced_of_initial (initial : (runs σ).initial accounts) :
    accounts.Balanced := by
  obtain ⟨_, ⟨conns, balancer, balancerState, limits, unused, rfl⟩, rfl⟩ :=
    initial
  constructor
  · intro conn
    obtain ⟨id, capabilities, same⟩ := unused conn
    change (conns conn).udpSessions = 0
    rw [same]
    rfl
  · rfl

section

variable (balanced : accounts.Balanced)

include balanced

private theorem Balanced.of_unmoved {next : Accounts σ}
    (same : next.udpReservations = accounts.udpReservations)
    (moves : next.pool.ledger = accounts.pool.ledger ∨
      accounts.pool.ledger.Step .other next.pool.ledger) : next.Balanced := by
  rcases moves with kept | moved
  · constructor
    · intro conn
      have unchanged := congrArg
        (fun ledger : Ledger => (ledger.conns conn).udpSessions) kept
      rw [same]
      exact unchanged.trans (balanced.udpReserved conn)
    · exact (congrArg Ledger.accountingFaults kept).trans balanced.noFault
  · constructor
    · intro conn
      have unchanged := moved.udpSessions conn
      rw [Ledger.Action.udpDelta, Int.add_zero] at unchanged
      rw [same]
      exact unchanged.trans (balanced.udpReserved conn)
    · exact (moved.accountingFaults (by simp)).trans balanced.noFault

private theorem Balanced.reserved {order : List ConnRef}
    (iteration : accounts.pool.IterationOrder order) :
    (accounts.reserved order).Balanced := by
  rcases reserveUDP_refines iteration with
    ⟨selected, result, moved⟩ | ⟨⟨failure, result⟩, same⟩
  · constructor
    · intro conn
      have sessions := moved.udpSessions conn
      change ((accounts.pool.reserveUDP order).2.conns conn).udpSessions =
        (accounts.pool.conns conn).udpSessions +
          if conn = selected then 1 else 0 at sessions
      change ((accounts.pool.reserveUDP order).2.conns conn).udpSessions = _
      simp only [Accounts.reserved, result]
      rw [sessions, balanced.udpReserved conn, countP_append_singleton]
      by_cases same : conn = selected
      · simp [UDPReservation.isOn, same]
      · simp [UDPReservation.isOn, same, Ne.symm same]
    · exact (moved.accountingFaults (by simp)).trans balanced.noFault
  · refine balanced.of_unmoved ?_ (.inl same)
    unfold Accounts.reserved
    rw [result]

private theorem Balanced.released {ref : Nat} {target : ConnRef}
    (held : accounts.udpReservations[ref]? = some ⟨target, false⟩) :
    (accounts.released ref target).Balanced := by
  have positive : 0 < (accounts.pool.conns target).udpSessions := by
    have counted := countP_pos_of_getElem? (UDPReservation.isOn target)
      held (by simp [UDPReservation.isOn])
    rw [balanced.udpReserved target]
    omega
  rcases accounts.pool.releaseUDP_refines target with ⟨none, _⟩ | ⟨_, moved⟩
  · omega
  constructor
  · intro conn
    have sessions := moved.udpSessions conn
    change ((accounts.pool.releaseUDP target).2.conns conn).udpSessions =
      (accounts.pool.conns conn).udpSessions +
        if conn = target then -1 else 0 at sessions
    have count := countP_set_eq (UDPReservation.isOn conn) held ⟨target, true⟩
    change ((accounts.pool.releaseUDP target).2.conns conn).udpSessions =
      ((accounts.udpReservations.set ref ⟨target, true⟩).countP _ : Nat)
    rw [sessions, balanced.udpReserved conn]
    by_cases same : conn = target
    · simp only [UDPReservation.isOn, same, and_self, decide_true,
        Bool.toNat_true, Bool.true_eq_false, and_false, decide_false,
        Bool.toNat_false] at count ⊢
      rw [if_pos trivial]
      omega
    · simp only [UDPReservation.isOn, Ne.symm same, false_and,
        decide_false, Bool.toNat_false] at count ⊢
      rw [if_neg same]
      omega
  · exact (moved.accountingFaults (by simp)).trans balanced.noFault

theorem Balanced.step {next : Accounts σ} (step : accounts.Step next) :
    next.Balanced := by
  cases step with
  | plain op plain enabled =>
    exact balanced.of_unmoved rfl (accounts.pool.plain_refines plain)
  | reserveUDP order iteration => exact balanced.reserved iteration
  | releaseUDP held => exact balanced.released held

end

theorem balanced_of_reachable (reachable : (runs σ).Reachable accounts) :
    accounts.Balanced := by
  apply reachable.invariant
  · intro state initial
    exact balanced_of_initial initial
  · intro before after _ balanced step
    exact balanced.step step

end Accounts

namespace ConnectionPool

variable {σ : Type*} {p : ConnectionPool σ}

/-- Committing and releasing a lease writes to the generation it was issued
on and to no other. -/
theorem lease_frame {ref : LeaseRef} {lease : TCPLease}
    (found : p.leaseCells[ref]? = some lease) {other : ConnRef}
    (different : other ≠ lease.conn) :
    (p.commitLease ref).2.conns other = p.conns other ∧
      (p.releaseLease ref).2.conns other = p.conns other := by
  constructor
  · unfold commitLease
    simp only [found]
    split
    · rfl
    · exact update_of_ne different _ _
  · unfold releaseLease
    simp only [found]
    split
    · rw [finishLease_conns]
      exact updateConn_conns_of_ne _ different
    · rw [finishLease_conns]
      exact updateConn_conns_of_ne _ different
    · rfl

end ConnectionPool

namespace Accounts

variable {σ : Type*} {accounts : Accounts σ}

/-! ## The books -/

/-- The pool's own record of leases and retirements is what the callers'
books say. -/
structure Recorded (accounts : Accounts σ) : Prop where
  leases : accounts.pool.leaseCells = accounts.tcpLeases
  done : accounts.pool.retirementCells.map Retirement.done = accounts.doneCalls

theorem leases_called {op : Op}
    (leases : accounts.pool.leaseCells = accounts.tcpLeases) :
    (accounts.pool.apply op).leaseCells = accounts.leasesAfter op := by
  have frame := (accounts.pool.apply_frame op).leases
  cases op with
  | next ref =>
    unfold leasesAfter
    rw [← leases]
    rcases accounts.pool.next_cases ref with
      ⟨conn, _, _, result, leased⟩ | ⟨refused, same⟩
    · have cells : (accounts.pool.next ref).2.leaseCells =
          accounts.pool.leaseCells ++ [⟨conn, .pending⟩] :=
        congrArg Ledger.leaseCells leased
      change (accounts.pool.next ref).2.leaseCells = _
      simp [result, cells]
    · have cells : (accounts.pool.next ref).2.leaseCells =
          accounts.pool.leaseCells := congrArg Ledger.leaseCells same
      dsimp only
      split
      · rename_i lease result
        exact absurd result (refused lease)
      · exact cells
  | commitLease ref =>
    change (accounts.pool.commitLease ref).2.leaseCells = _
    unfold commitLease leasesAfter
    dsimp only
    rw [← leases]
    cases found : accounts.pool.leaseCells[ref]? with
    | none => rfl
    | some lease =>
      obtain ⟨conn, state⟩ := lease
      cases state <;> rfl
  | releaseLease ref =>
    change (accounts.pool.releaseLease ref).2.leaseCells = _
    unfold releaseLease leasesAfter
    dsimp only
    rw [← leases]
    cases found : accounts.pool.leaseCells[ref]? with
    | none => rfl
    | some lease =>
      obtain ⟨conn, state⟩ := lease
      cases state with
      | pending | active =>
        dsimp only
        obtain ⟨_, _, finished⟩ := finishLease_eq _ ref ⟨conn, _⟩
        rw [finished]
        rfl
      | released => exact (set_eq_self found).symm
  | _ => exact (frame nofun nofun nofun).trans leases

theorem done_called {op : Op}
    (retires : accounts.pool.ledger.RetiresExactly)
    (done : accounts.pool.retirementCells.map Retirement.done =
      accounts.doneCalls) :
    (accounts.pool.apply op).retirementCells.map Retirement.done =
      accounts.doneAfter op := by
  have frame := (accounts.pool.apply_frame op).retirements
  have same : ∀ {next : ConnectionPool σ},
      next.ledger.retirementCells = accounts.pool.ledger.retirementCells →
      next.retirementCells.map Retirement.done = accounts.doneCalls := by
    intro next cells
    have flags := congrArg (List.map RetirementAccount.done) cells
    simp only [ledger, List.map_map] at flags
    exact flags.trans done
  cases op with
  | beginRetire conn =>
    unfold doneAfter
    by_cases current : accounts.pool.isCurrentLocked conn = true
    · have cells := congrArg (fun ledger : Ledger =>
        ledger.retirementCells.map RetirementAccount.done)
        (beginRetire_ledger current)
      have result : (accounts.pool.beginRetire conn).1 =
          some accounts.pool.retirementCells.length := by
        unfold beginRetire
        rw [if_neg (by simp [current])]
      simp only [ledger, Ledger.retired, List.map_map, List.map_append] at cells
      dsimp only
      rw [result]
      dsimp only
      rw [← done]
      exact cells
    · have refused : accounts.pool.beginRetire conn =
          (none, accounts.pool) := by
        unfold beginRetire
        exact if_pos (Bool.eq_false_iff.mpr current)
      dsimp only [apply]
      rw [refused]
      exact done
  | receiveTCPDrained ref =>
    exact same (congrArg Ledger.retirementCells
      (accounts.pool.receiveTCPDrained_ledger ref))
  | releaseLease ref =>
    apply same
    change (accounts.pool.releaseLease ref).2.ledger.retirementCells = _
    unfold releaseLease
    repeat' split
    all_goals try rfl
    all_goals
      dsimp only
      rw [ledger_finishLease, Ledger.finalize_eq]
      rfl
  | done ref =>
    change (accounts.pool.done ref).2.retirementCells.map _ =
      accounts.doneCalls.set ref true
    rw [← done]
    unfold ConnectionPool.done
    cases found : accounts.pool.retirementCells[ref]? with
    | none =>
      rw [List.set_eq_of_length_le]
      rw [List.length_map]
      exact List.getElem?_eq_none_iff.mp found
    | some retirement =>
      have flag : (accounts.pool.retirementCells.map
          Retirement.done)[ref]? = some retirement.done := by
        rw [List.getElem?_map, found, Option.map_some]
      have cell : accounts.pool.ledger.retirementCells[ref]? =
          some retirement.account := by
        change (accounts.pool.retirementCells.map _)[ref]? = _
        rw [List.getElem?_map, found, Option.map_some]
      dsimp only
      split
      · rename_i refused
        have finished : retirement.done = true := by
          rcases refused with already | unlisted
          · exact already
          · by_contra running
            exact unlisted ((retires.listedIff ref _ cell).mpr
              fun ended => running ended.1)
        rw [finished] at flag
        exact (set_eq_self flag).symm
      · obtain ⟨_, finalized⟩ := finalizeRetirementLocked_eq _ retirement.conn
        rw [finalized]
        exact List.map_set
  | _ => exact (congrArg (List.map Retirement.done) (frame id)).trans done

theorem recorded_of_reachable (reachable : (runs σ).Reachable accounts) :
    accounts.Recorded := by
  apply reachable.invariant
  · rintro _ ⟨_, ⟨_, _, _, _, _, rfl⟩, rfl⟩
    exact ⟨rfl, rfl⟩
  · rintro before after reached recorded step
    have retires := ConnectionPool.retiresExactly_of_reachable
      (pool_reachable reached)
    cases step with
    | plain op =>
      exact ⟨leases_called recorded.leases, done_called retires recorded.done⟩
    | reserveUDP order =>
      have frame := before.pool.apply_frame (.reserveUDP order)
      refine ⟨(frame.leases nofun nofun nofun).trans recorded.leases, ?_⟩
      exact (congrArg (List.map Retirement.done)
        (frame.retirements id)).trans recorded.done
    | @releaseUDP _ conn =>
      have frame := before.pool.apply_frame (.releaseUDP conn)
      refine ⟨(frame.leases nofun nofun nofun).trans recorded.leases, ?_⟩
      exact (congrArg (List.map Retirement.done)
        (frame.retirements id)).trans recorded.done

/-- Lease accounting in every reachable state: the three counters of each
generation count its leases and reservations that are outstanding in the
callers' books within the limits, no accounting fault was raised, a lease only
ever writes to its own generation, and a retired generation is in the retiring
set exactly until `Done` has been called on its retirement and its counters
are zero. -/
theorem leases_accounted (reachable : (runs σ).Reachable accounts) :
    (∀ conn, (accounts.pool.conns conn).tcpPending =
        accounts.tcpLeases.countP (TCPLease.isOn conn .pending) ∧
      (accounts.pool.conns conn).tcpActive =
        accounts.tcpLeases.countP (TCPLease.isOn conn .active) ∧
      (accounts.pool.conns conn).udpSessions =
        accounts.udpReservations.countP (UDPReservation.isOn conn)) ∧
    (∀ conn, (accounts.pool.conns conn).tcpPending ≤
        accounts.pool.limits.maxPendingTCPSetupsPerGeneration ∧
      (accounts.pool.conns conn).tcpPending +
          (accounts.pool.conns conn).tcpActive ≤
        accounts.pool.limits.maxTCPConnectionsPerGeneration ∧
      (accounts.pool.conns conn).udpSessions ≤
        accounts.pool.limits.maxUDPSessionsPerGeneration) ∧
    accounts.pool.accountingFaults = 0 ∧
    (∀ (ref : LeaseRef) (lease : TCPLease),
      accounts.tcpLeases[ref]? = some lease →
      ∀ other, other ≠ lease.conn →
        (accounts.pool.commitLease ref).2.conns other =
          accounts.pool.conns other ∧
        (accounts.pool.releaseLease ref).2.conns other =
          accounts.pool.conns other) ∧
    accounts.doneCalls.length = accounts.pool.retirementCells.length ∧
    (∀ (ref : RetirementRef) (retirement : Retirement),
      accounts.pool.retirementCells[ref]? = some retirement →
      (accounts.pool.retiring.get retirement.conn = some ref ↔
        ¬ (accounts.doneCalls[ref]? = some true ∧
          (accounts.pool.conns retirement.conn).tcpPending = 0 ∧
          (accounts.pool.conns retirement.conn).tcpActive = 0 ∧
          (accounts.pool.conns retirement.conn).udpSessions = 0))) := by
  have balanced := balanced_of_reachable reachable
  have counted := ConnectionPool.counted_of_reachable (pool_reachable reachable)
  have retires := ConnectionPool.retiresExactly_of_reachable
    (pool_reachable reachable)
  have recorded := recorded_of_reachable reachable
  refine ⟨?_, ?_, balanced.noFault, ?_, ?_, ?_⟩
  · intro conn
    rw [← recorded.leases]
    exact ⟨counted.pendingLeases conn, counted.activeLeases conn,
      balanced.udpReserved conn⟩
  · intro conn
    exact ⟨counted.setupBound conn, counted.connectionBound conn,
      counted.udpBound conn⟩
  · intro ref lease found other different
    rw [← recorded.leases] at found
    exact lease_frame found different
  · rw [← recorded.done, List.length_map]
  · intro ref retirement found
    rw [← recorded.done, List.getElem?_map, found, Option.map_some,
      Option.some_inj]
    apply retires.listedIff ref retirement.account
    change (accounts.pool.retirementCells.map _)[ref]? = _
    rw [List.getElem?_map, found, Option.map_some]

/-- One published generation with a lease and a UDP reservation, retired while
both are outstanding, and then given back. -/
def sampleAccounts : Accounts UInt64 :=
  let registered : Accounts UInt64 :=
    ((called ⟨samplePool, [], [], []⟩ .beginPending).called
      (.bind 0 0)).called (.commit 0)
  let leased := ((registered.called (.beginTCPAdmission [0])).called
    (.next 0)).called (.commitLease 0)
  ((leased.reserved [0]).called (.beginRetire 0)).called (.done 0)

def sampleReleased : Accounts UInt64 :=
  (sampleAccounts.called (.releaseLease 0)).released 0 0

theorem sampleAccounts_reachable :
    (runs UInt64).Reachable sampleAccounts := by
  have iteration : sampleCommitted.IterationOrder [0] := by
    decide +kernel
  have fresh : (runs UInt64).Reachable ⟨samplePool, [], [], []⟩ :=
    .start ⟨_, ⟨_, _, _, _, fun _ => ⟨_, _, rfl⟩, rfl⟩, rfl⟩
  have pending := fresh.next (.plain .beginPending trivial trivial)
  have bound := pending.next (.plain (.bind 0 0) trivial trivial)
  have committed := bound.next (.plain (.commit 0) trivial trivial)
  have admission := committed.next
    (.plain (.beginTCPAdmission [0]) trivial iteration)
  have leased := admission.next (.plain (.next 0) trivial trivial)
  have active := leased.next (.plain (.commitLease 0) trivial trivial)
  have held := active.next (.reserveUDP [0] (by decide +kernel))
  have retired := held.next (.plain (.beginRetire 0) trivial trivial)
  exact retired.next (.plain (.done 0) trivial trivial)

theorem sampleReleased_reachable :
    (runs UInt64).Reachable sampleReleased := by
  have released := sampleAccounts_reachable.next
    (.plain (.releaseLease 0) trivial trivial)
  exact released.next (.releaseUDP (by rfl))

theorem leases_accounted_sample :
    ((sampleAccounts.pool.conns 0).tcpActive = 1 ∧
      (sampleAccounts.pool.conns 0).udpSessions = 1 ∧
      sampleAccounts.pool.retiring.get 0 = some 0) ∧
    (sampleReleased.pool.conns 0).tcpActive = 0 ∧
      (sampleReleased.pool.conns 0).udpSessions = 0 ∧
      sampleReleased.pool.retiring.get 0 ≠ some 0 := by
  obtain ⟨counts, _, _, _, _, retiring⟩ :=
    leases_accounted sampleAccounts_reachable
  obtain ⟨laterCounts, _, _, _, _, laterRetiring⟩ :=
    leases_accounted sampleReleased_reachable
  have active : (sampleAccounts.pool.conns 0).tcpActive = 1 := by
    rw [(counts 0).2.1]
    decide +kernel
  have sessions : (sampleAccounts.pool.conns 0).udpSessions = 1 := by
    rw [(counts 0).2.2]
    decide +kernel
  have idle : (sampleReleased.pool.conns 0).tcpActive = 0 := by
    rw [(laterCounts 0).2.1]
    decide +kernel
  have ended : (sampleReleased.pool.conns 0).udpSessions = 0 := by
    rw [(laterCounts 0).2.2]
    decide +kernel
  refine ⟨⟨active, sessions, ?_⟩, idle, ended, ?_⟩
  · apply (retiring 0 ⟨0, true, none, false⟩ (by decide +kernel)).mpr
    rintro ⟨_, _, none, _⟩
    rw [active] at none
    cases none
  · intro listed
    apply (laterRetiring 0 ⟨0, true, some (-1), true⟩ (by decide +kernel)).mp
      listed
    refine ⟨by decide +kernel, ?_, idle, ended⟩
    rw [(laterCounts 0).1]
    decide +kernel

end Accounts

end QMux.Pool
