import QMux.Pool.LedgerAccounting
import QMux.Support.Transition

/-!
# The pool refines its ledger

Every atomic operation of the pool changes its ledger by at most one ledger
step.  Health, caches, capacity statistics, the balancer, admissions, stream
identifiers and drain signals are invisible in the ledger.
-/

namespace QMux.Pool

open Function Support

def ClientConn.account (conn : ClientConn) : ConnAccount :=
  ⟨conn.id, conn.added, conn.tcpPending, conn.tcpActive, conn.udpSessions⟩

def Retirement.account (retirement : Retirement) : RetirementAccount :=
  ⟨retirement.conn, retirement.done⟩

namespace ConnectionPool

variable {σ : Type*} {p : ConnectionPool σ}

def ledger (p : ConnectionPool σ) : Ledger :=
  { conns := fun conn => (p.conns conn).account
    reservationCells := p.reservationCells
    retirementCells := p.retirementCells.map Retirement.account
    leaseCells := p.leaseCells
    clients := p.clients
    reservations := p.reservations
    retiring := p.retiring
    serverPending := p.serverPending
    accountingFaults := p.accountingFaults
    limits := p.limits }

theorem account_update (conns : ConnRef → ClientConn) (conn : ConnRef)
    (value : ClientConn) :
    (fun other => (Function.update conns conn value other).account) =
      Function.update (fun other => (conns other).account) conn
        value.account := by
  funext other
  by_cases same : other = conn
  · rw [same, update_self, update_self]
  · rw [update_of_ne same, update_of_ne same]

theorem ledger_updateConn (p : ConnectionPool σ) (conn : ConnRef)
    (write : ClientConn → ClientConn) (accountWrite : ConnAccount → ConnAccount)
    (corresponds : (write (p.conns conn)).account =
      accountWrite (p.conns conn).account) :
    (p.updateConn conn write).ledger =
      p.ledger.updateConn conn accountWrite := by
  have conns := account_update p.conns conn (write (p.conns conn))
  rw [corresponds] at conns
  simp only [ledger, updateConn, Ledger.updateConn]
  rw [conns]

theorem ledger_updateConn_of_same (p : ConnectionPool σ) (conn : ConnRef)
    (write : ClientConn → ClientConn)
    (same : (write (p.conns conn)).account = (p.conns conn).account) :
    (p.updateConn conn write).ledger = p.ledger := by
  have conns := account_update p.conns conn (write (p.conns conn))
  rw [same, update_eq_self] at conns
  simp only [ledger, updateConn]
  rw [conns]

variable {conn : ConnRef} {order : List ConnRef}

theorem isCurrentLocked_iff :
    p.isCurrentLocked conn = true ↔ p.ledger.Current conn := by
  simp [isCurrentLocked, Ledger.Current, ledger, ClientConn.account]

/-! ## Drain signals and finalization -/

theorem map_account_set {cells : List Retirement} {ref : RetirementRef}
    {old : Retirement} (found : cells[ref]? = some old) (new : Retirement)
    (same : new.account = old.account) :
    (cells.set ref new).map Retirement.account =
      cells.map Retirement.account := by
  apply List.ext_getElem?
  intro other
  rw [List.getElem?_map, List.getElem?_map, getElem?_set_eq found]
  split
  · rename_i sameRef
    rw [sameRef, found, Option.map_some, Option.map_some, same]
  · rfl

@[simp] theorem ledger_signalTCPDrainedLocked (ref : RetirementRef) :
    (p.signalTCPDrainedLocked ref).ledger = p.ledger := by
  unfold signalTCPDrainedLocked
  split
  · rfl
  rename_i retirement found
  dsimp only
  split
  · rfl
  have cells := map_account_set found
    { retirement with
      tcpDrained := some (drainFence (p.conns retirement.conn))
      drainSent := true } rfl
  simp only [ledger, cells]

theorem updateConn_conns_of_ne {other : ConnRef}
    (write : ClientConn → ClientConn) (different : other ≠ conn) :
    (p.updateConn conn write).conns other = p.conns other :=
  update_of_ne different _ _

@[simp] theorem signalTCPDrainedLocked_conns (ref : RetirementRef) :
    (p.signalTCPDrainedLocked ref).conns = p.conns := by
  unfold signalTCPDrainedLocked
  split
  · rfl
  · dsimp only
    split <;> rfl

@[simp] theorem finalizeRetirementLocked_conns (conn : ConnRef) :
    (p.finalizeRetirementLocked conn).conns = p.conns := by
  unfold finalizeRetirementLocked
  split
  · rfl
  · split
    · rfl
    · split <;> rfl

theorem ledger_finalizeRetirementLocked (conn : ConnRef) :
    (p.finalizeRetirementLocked conn).ledger = p.ledger.finalize conn := by
  have sameRetiring : p.ledger.retiring = p.retiring := rfl
  unfold finalizeRetirementLocked Ledger.finalize
  cases listed : p.retiring.get conn with
  | none => simp only [sameRetiring, listed]
  | some ref =>
    have sameCell : p.ledger.retirementCells[ref]? =
      p.retirementCells[ref]?.map Retirement.account := List.getElem?_map
    cases found : p.retirementCells[ref]? with
    | none => simp only [sameRetiring, listed, sameCell, found, Option.map_none]
    | some retirement =>
      simp only [sameRetiring, listed, sameCell, found, Option.map_some]
      by_cases finished : retirement.done = true ∧ (p.conns conn).tcpPending =
          0 ∧ (p.conns conn).tcpActive = 0 ∧ (p.conns conn).udpSessions = 0
      · rw [if_pos finished]
        exact (if_pos finished).symm
      · rw [if_neg finished]
        exact (if_neg finished).symm

/-! ## Registration -/

theorem beginPending_refines :
    (p.beginPending).2.ledger = p.ledger ∨
      p.ledger.Step .other (p.beginPending).2.ledger := by
  unfold beginPending
  split
  · exact .inl rfl
  · split
    · exact .inl rfl
    · rename_i room
      exact .inr (.beginPending (Int.not_le.mp room))

private theorem get_none_of_has {ν : Type*} {entries : FiniteMap String ν}
    {key : String} (absent : ¬ entries.has key = true) :
    entries.get key = none := by
  simpa [FiniteMap.has] using absent

theorem bind_refines (ref : ReservationRef) (conn : ConnRef) :
    (p.bind ref conn).2.ledger = p.ledger ∨
      p.ledger.Step .other (p.bind ref conn).2.ledger := by
  unfold bind
  split
  · exact .inl rfl
  rename_i reservation found
  dsimp only
  split
  · exact .inl rfl
  rename_i named
  split
  · exact .inl rfl
  rename_i pending
  split
  · exact .inl rfl
  split
  · exact .inl rfl
  rename_i notCurrent
  split
  · exact .inl rfl
  rename_i notReserved
  split
  · exact .inl rfl
  rename_i unused
  split
  · exact .inl rfl
  rename_i room
  exact .inr (.bind found named (not_not.mp pending)
    (get_none_of_has notCurrent) (get_none_of_has notReserved)
    (Bool.eq_false_iff.mpr unused) (Int.not_le.mp room))

theorem commit_refines (ref : ReservationRef) :
    (p.commit ref).2.ledger = p.ledger ∨
      p.ledger.Step .other (p.commit ref).2.ledger := by
  unfold commit
  split
  · exact .inl rfl
  rename_i reservation found
  split
  · exact .inl rfl
  rename_i exactClaim
  obtain ⟨reserved, listed⟩ := not_or.mp exactClaim
  split
  · exact .inl rfl
  split
  · exact .inl rfl
  rename_i conn holds
  split
  · exact .inl rfl
  rename_i sameID
  split
  · exact .inl rfl
  rename_i notCurrent
  split
  · exact .inl rfl
  rename_i unused
  refine .inr ?_
  have published := p.ledger_updateConn conn
    (fun c => { c with added := true, healthy := true })
    (fun account => { account with added := true }) rfl
  have result : p.ledger.Step .other
      (p.ledger.committed ref reservation conn) := .commit found
    (not_not.mp reserved) (not_not.mp listed) holds (not_not.mp sameID)
    (get_none_of_has notCurrent) (Bool.eq_false_iff.mpr unused)
  unfold Ledger.committed at result
  rw [← published] at result
  exact result

theorem abort_refines (ref : ReservationRef) :
    (p.abort ref).2.ledger = p.ledger ∨
      p.ledger.Step .other (p.abort ref).2.ledger := by
  unfold abort
  split
  · exact .inl rfl
  rename_i reservation found
  cases state : reservation.state with
  | pending => exact .inr (.abortPending found state)
  | reserved =>
    dsimp only
    split
    · exact .inl rfl
    · rename_i listed
      exact .inr (.abortReserved found state (not_not.mp listed))
  | committed | aborted => exact .inl rfl

/-! ## Retirement -/

theorem beginRetire_ledger (current : p.isCurrentLocked conn = true) :
    (p.beginRetire conn).2.ledger = p.ledger.retired conn := by
  have marked : (p.updateConn conn fun c =>
      { c with healthy := false }).ledger = p.ledger :=
    p.ledger_updateConn_of_same conn _ rfl
  unfold beginRetire
  rw [if_neg (by simp [current])]
  dsimp only
  rw [ledger_signalTCPDrainedLocked]
  unfold Ledger.retired
  rw [← marked]
  simp [ledger, updateConn, Retirement.account, ClientConn.account]

theorem beginRetire_refines (conn : ConnRef) :
    (p.beginRetire conn).2.ledger = p.ledger ∨
      p.ledger.Step .other (p.beginRetire conn).2.ledger := by
  by_cases current : p.isCurrentLocked conn = true
  · rw [beginRetire_ledger current]
    exact .inr (.beginRetire (isCurrentLocked_iff.mp current))
  · unfold beginRetire
    rw [if_pos (Bool.eq_false_iff.mpr current)]
    exact .inl rfl

theorem receiveTCPDrained_ledger (ref : RetirementRef) :
    (p.receiveTCPDrained ref).2.ledger = p.ledger := by
  unfold receiveTCPDrained
  split
  · rfl
  rename_i retirement found
  split
  · rfl
  · have cells := map_account_set found
      { retirement with tcpDrained := none } rfl
    simp only [ledger, cells]

theorem done_refines (ref : RetirementRef) :
    (p.done ref).2.ledger = p.ledger ∨
      p.ledger.Step .other (p.done ref).2.ledger := by
  unfold done
  split
  · exact .inl rfl
  rename_i retirement found
  split
  · exact .inl rfl
  rename_i exactToken
  obtain ⟨first, listed⟩ := not_or.mp exactToken
  refine .inr ?_
  dsimp only
  rw [ledger_finalizeRetirementLocked]
  have cell : p.ledger.retirementCells[ref]? = some retirement.account := by
    change (p.retirementCells.map _)[ref]? = _
    rw [List.getElem?_map, found, Option.map_some]
  have result : p.ledger.Step .other _ :=
    .done cell (Bool.eq_false_iff.mpr first) (not_not.mp listed)
  have cells : (p.retirementCells.set ref
        { retirement with done := true }).map Retirement.account =
      (p.retirementCells.map Retirement.account).set ref
        { retirement.account with done := true } := List.map_set
  simp only [ledger, cells]
  exact result

/-! ## UDP reservations -/

theorem mem_clients_of_order (iteration : p.IterationOrder order)
    (member : conn ∈ order) : ∃ id, p.clients.get id = some conn := by
  rw [← FiniteMap.mem_values_iff, ← iteration]
  exact member

theorem reserveUDP_refines (iteration : p.IterationOrder order) :
    (∃ conn, (p.reserveUDP order).1 = .ok conn ∧
      p.ledger.Step (.reserveUDP conn) (p.reserveUDP order).2.ledger) ∨
    ((∃ failure, (p.reserveUDP order).1 = .error failure) ∧
      (p.reserveUDP order).2.ledger = p.ledger) := by
  unfold reserveUDP
  split
  · exact .inr ⟨⟨_, rfl⟩, rfl⟩
  split
  · exact .inr ⟨⟨_, rfl⟩, rfl⟩
  dsimp only
  split
  · exact .inr ⟨⟨_, rfl⟩, rfl⟩
  split
  · exact .inr ⟨⟨_, rfl⟩, rfl⟩
  split
  · exact .inr ⟨⟨_, rfl⟩, rfl⟩
  rename_i selected balancerState _
  split
  · exact .inr ⟨⟨_, rfl⟩, rfl⟩
  rename_i inside
  refine .inl ⟨selected, rfl, ?_⟩
  have eligible := not_not.mp inside
  obtain ⟨capable, room⟩ := List.mem_filter.mp eligible
  obtain ⟨id, listed⟩ :=
    mem_clients_of_order iteration (List.mem_filter.mp capable).1
  have written := ledger_updateConn { p with balancerState := balancerState }
    selected (fun c =>
      { c with udpSessions := (p.conns selected).udpSessions + 1 })
    (fun account =>
      { account with udpSessions := account.udpSessions + 1 }) rfl
  have result : p.ledger.Step (.reserveUDP selected)
      (p.ledger.udpReserved selected) :=
    .reserveUDP listed (of_decide_eq_true room)
  have same : ledger { p with balancerState := balancerState } = p.ledger := rfl
  rw [same] at written
  unfold Ledger.udpReserved at result
  rw [← written] at result
  exact result

theorem releaseUDP_refines (conn : ConnRef) :
    ((p.conns conn).udpSessions ≤ 0 ∧
      p.ledger.Step .fault (p.releaseUDP conn).2.ledger) ∨
    (0 < (p.conns conn).udpSessions ∧
      p.ledger.Step (.releaseUDP conn) (p.releaseUDP conn).2.ledger) := by
  unfold releaseUDP
  split
  · rename_i none
    exact .inl ⟨none, .fault none⟩
  rename_i some
  have held : 0 < (p.conns conn).udpSessions := Int.not_le.mp some
  refine .inr ⟨held, ?_⟩
  dsimp only
  rw [ledger_finalizeRetirementLocked, ledger_updateConn p conn _
    (fun account => { account with udpSessions := account.udpSessions - 1 })
    rfl]
  exact .releaseUDP held

/-! ## TCP admission and leases -/

theorem beginTCPAdmission_ledger (order : List ConnRef) :
    (p.beginTCPAdmission order).2.ledger = p.ledger := by
  have slice : ((p.clientSliceLocked order).2).ledger = p.ledger := by
    unfold clientSliceLocked
    split <;> rfl
  unfold beginTCPAdmission
  split
  · rfl
  split
  · rfl
  dsimp only
  split
  · exact slice
  · exact slice

theorem tcpCapacityErrorLocked_cases (p : ConnectionPool σ)
    (conn : ConnRef) :
    p.tcpCapacityErrorLocked conn = some .tcpGenerationConnectionCapacity ∨
      p.tcpCapacityErrorLocked conn = some .tcpGenerationSetupCapacity ∨
      p.tcpCapacityErrorLocked conn = none := by
  unfold tcpCapacityErrorLocked
  split
  · exact .inl rfl
  · split
    · exact .inr (.inl rfl)
    · exact .inr (.inr rfl)

theorem walk_conn {remaining : List ConnRef} {passed : Nat}
    {atConnection atSetup : Bool}
    (stops : (p.walk remaining passed atConnection atSetup).conn = some conn) :
    conn ∈ remaining ∧ p.isTCPCandidate conn = true ∧
      p.tcpCapacityErrorLocked conn = none := by
  induction remaining generalizing passed atConnection atSetup with
  | nil => cases stops
  | cons head tail ih =>
    unfold walk at stops
    split at stops
    · obtain ⟨member, facts⟩ := ih stops
      exact ⟨List.mem_cons_of_mem _ member, facts⟩
    · rename_i candidate
      split at stops
      · obtain ⟨member, facts⟩ := ih stops
        exact ⟨List.mem_cons_of_mem _ member, facts⟩
      · obtain ⟨member, facts⟩ := ih stops
        exact ⟨List.mem_cons_of_mem _ member, facts⟩
      · rename_i notConnection notSetup
        obtain rfl := Option.some.inj stops
        refine ⟨List.mem_cons_self, by simpa using candidate, ?_⟩
        rcases p.tcpCapacityErrorLocked_cases head with
          connection | setup | room
        · exact absurd connection notConnection
        · exact absurd setup notSetup
        · exact room

theorem tcpCapacityErrorLocked_none
    (room : p.tcpCapacityErrorLocked conn = none) :
    (p.conns conn).tcpPending + (p.conns conn).tcpActive <
        p.limits.maxTCPConnectionsPerGeneration ∧
      (p.conns conn).tcpPending <
        p.limits.maxPendingTCPSetupsPerGeneration := by
  unfold tcpCapacityErrorLocked at room
  split at room
  · cases room
  · split at room
    · cases room
    · rename_i connection setup
      exact ⟨Int.not_le.mp connection, Int.not_le.mp setup⟩

theorem next_cases (ref : AdmissionRef) :
    (∃ conn, p.isTCPCandidate conn = true ∧
      p.tcpCapacityErrorLocked conn = none ∧
      (p.next ref).1 = .ok (some p.leaseCells.length) ∧
      (p.next ref).2.ledger = p.ledger.leased conn) ∨
    ((∀ lease, (p.next ref).1 ≠ .ok (some lease)) ∧
      (p.next ref).2.ledger = p.ledger) := by
  unfold next
  split
  · exact .inr ⟨by simp, rfl⟩
  rename_i admission found
  split
  · exact .inr ⟨by simp, rfl⟩
  dsimp only
  split
  · exact .inr ⟨by simp, rfl⟩
  split
  · rename_i conn stops
    obtain ⟨_, candidate, room⟩ := walk_conn stops
    refine .inl ⟨conn, candidate, room, rfl, ?_⟩
    have written := ledger_updateConn p conn
      (fun c => { c with tcpPending := (p.conns conn).tcpPending + 1 })
      (fun account => { account with tcpPending := account.tcpPending + 1 })
      rfl
    unfold Ledger.leased
    rw [← written]
    rfl
  · split
    · exact .inr ⟨by simp, rfl⟩
    · split
      all_goals exact .inr ⟨by simp, rfl⟩

theorem isTCPCandidate_current (candidate : p.isTCPCandidate conn = true) :
    p.isCurrentLocked conn = true :=
  (Bool.and_eq_true_iff.mp candidate).1

theorem next_refines (ref : AdmissionRef) :
    (p.next ref).2.ledger = p.ledger ∨
      p.ledger.Step .other (p.next ref).2.ledger := by
  rcases p.next_cases ref with ⟨conn, candidate, room, _, leased⟩ | ⟨_, same⟩
  · obtain ⟨connectionRoom, setupRoom⟩ := tcpCapacityErrorLocked_none room
    rw [leased]
    exact .inr (.lease
      (isCurrentLocked_iff.mp (isTCPCandidate_current candidate))
      connectionRoom setupRoom)
  · exact .inl same

theorem commitLease_refines (ref : LeaseRef) :
    (p.commitLease ref).2.ledger = p.ledger ∨
      p.ledger.Step .other (p.commitLease ref).2.ledger := by
  unfold commitLease
  split
  · exact .inl rfl
  rename_i lease found
  split
  · exact .inl rfl
  rename_i pending
  have state := not_not.mp pending
  refine .inr ?_
  have cell : p.ledger.leaseCells[ref]? = some ⟨lease.conn, .pending⟩ := by
    rw [← state]
    exact found
  have written := ledger_updateConn p lease.conn
    (fun c =>
      { c with
        activeConns := c.activeConns + 1
        tcpActive := c.tcpActive + 1
        totalConns := c.totalConns + 1
        tcpPending := c.tcpPending - 1 })
    (fun account =>
      { account with
        tcpActive := account.tcpActive + 1
        tcpPending := account.tcpPending - 1 }) rfl
  have result : p.ledger.Step .other (p.ledger.activated ref lease.conn) :=
    .activate cell
  unfold Ledger.activated at result
  rw [← written] at result
  exact result

@[simp] theorem finishLease_conns (ref : LeaseRef) (lease : TCPLease) :
    (p.finishLease ref lease).conns = p.conns := by
  unfold finishLease
  dsimp only
  rw [finalizeRetirementLocked_conns]
  split
  · rfl
  · rw [signalTCPDrainedLocked_conns]

theorem ledger_finishLease (ref : LeaseRef) (lease : TCPLease) :
    (p.finishLease ref lease).ledger = Ledger.finalize { p.ledger with
        leaseCells := p.leaseCells.set ref { lease with state := .released } }
        lease.conn := by
  unfold finishLease
  dsimp only
  rw [ledger_finalizeRetirementLocked]
  split
  · rfl
  · rw [ledger_signalTCPDrainedLocked]
    rfl

theorem releaseLease_refines (ref : LeaseRef) :
    (p.releaseLease ref).2.ledger = p.ledger ∨
      p.ledger.Step .other (p.releaseLease ref).2.ledger := by
  unfold releaseLease
  split
  · exact .inl rfl
  rename_i lease found
  cases state : lease.state with
  | pending =>
    have cell : p.ledger.leaseCells[ref]? = some ⟨lease.conn, .pending⟩ := by
      rw [← state]
      exact found
    refine .inr ?_
    dsimp only
    rw [ledger_finishLease, ledger_updateConn p lease.conn _
      (fun account => { account with tcpPending := account.tcpPending - 1 })
      rfl]
    exact .releasePending cell
  | active =>
    have cell : p.ledger.leaseCells[ref]? = some ⟨lease.conn, .active⟩ := by
      rw [← state]
      exact found
    refine .inr ?_
    dsimp only
    rw [ledger_finishLease, ledger_updateConn p lease.conn _
      (fun account => { account with tcpActive := account.tcpActive - 1 })
      rfl]
    exact .releaseActive cell
  | released => exact .inl rfl

/-! ## Writes outside the ledger -/

theorem compareAndSwapStreamID_ledger (conn : ConnRef)
    (current streamID : Int) :
    (p.compareAndSwapStreamID conn current streamID).2.ledger = p.ledger := by
  unfold compareAndSwapStreamID
  split
  · exact p.ledger_updateConn_of_same conn
      (fun c => { c with tcpStreamID := streamID }) rfl
  · rfl

theorem storeTCPOpened_ledger (conn : ConnRef) :
    (p.storeTCPOpened conn).ledger = p.ledger :=
  p.ledger_updateConn_of_same conn _ rfl

theorem markUnhealthy_ledger (conn : ConnRef) :
    (p.markUnhealthy conn).2.ledger = p.ledger := by
  unfold markUnhealthy
  split
  · rfl
  · exact p.ledger_updateConn_of_same conn
      (fun c => { c with healthy := false }) rfl

theorem markHealthy_ledger (conn : ConnRef) :
    (p.markHealthy conn).2.ledger = p.ledger := by
  unfold markHealthy
  split
  · rfl
  · exact p.ledger_updateConn_of_same conn
      (fun c => { c with healthy := true }) rfl

theorem addActiveConns_ledger (conn : ConnRef) (delta : Int) :
    (p.addActiveConns conn delta).ledger = p.ledger :=
  p.ledger_updateConn_of_same conn _ rfl

theorem addTotalConns_ledger (conn : ConnRef) :
    (p.addTotalConns conn).ledger = p.ledger :=
  p.ledger_updateConn_of_same conn _ rfl

end ConnectionPool

end QMux.Pool
