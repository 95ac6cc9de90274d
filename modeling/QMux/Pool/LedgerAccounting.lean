import QMux.Pool.LedgerRegistration

/-!
# Lease accounting of the ledger

The counters of every generation equal the number of its outstanding leases
and respect the limits, and a retired generation stays in the retiring set
until its owner is done and its counters are zero.
-/

namespace QMux.Pool

open Function Support TCPLease

/-- The lease is held on `conn` in state `state`. -/
def TCPLease.isOn (conn : ConnRef) (state : TCPLeaseState) (lease : TCPLease) :
    Bool :=
  lease.conn = conn ∧ lease.state = state

namespace Ledger

variable {ledger : Ledger}

/-! ## What `finalize` leaves alone -/

theorem finalize_eq (ledger : Ledger) (conn : ConnRef) :
    ledger.finalize conn =
      { ledger with retiring := (ledger.finalize conn).retiring } := by
  unfold finalize
  split
  · rfl
  · split
    · rfl
    · split <;> rfl

@[simp] theorem finalize_conns (conn : ConnRef) :
    (ledger.finalize conn).conns = ledger.conns := by
  rw [finalize_eq]

@[simp] theorem finalize_leaseCells (conn : ConnRef) :
    (ledger.finalize conn).leaseCells = ledger.leaseCells := by
  rw [finalize_eq]

@[simp] theorem finalize_retirementCells (conn : ConnRef) :
    (ledger.finalize conn).retirementCells = ledger.retirementCells := by
  rw [finalize_eq]

@[simp] theorem finalize_limits (conn : ConnRef) :
    (ledger.finalize conn).limits = ledger.limits := by
  rw [finalize_eq]

variable {conn : ConnRef} {next : Ledger} {ref : LeaseRef}
  {before : TCPLeaseState} {action : Action}

theorem finalize_retiring_of_ne {other : ConnRef} (different : other ≠ conn) :
    (ledger.finalize conn).retiring.get other = ledger.retiring.get other := by
  unfold finalize
  split
  · rfl
  split
  · rfl
  · split
    · exact FiniteMap.get_delete_of_ne _ different
    · rfl

theorem finalize_retiring_self {ref : RetirementRef}
    {retirement : RetirementAccount}
    (listed : ledger.retiring.get conn = some ref)
    (found : ledger.retirementCells[ref]? = some retirement) :
    (ledger.finalize conn).retiring.get conn = some ref ↔
      ¬ (retirement.done = true ∧ (ledger.conns conn).Idle) := by
  unfold finalize
  simp only [listed, found]
  split
  · rename_i finished
    simp [finished]
  · rename_i unfinished
    simp only [listed, true_iff]
    exact unfinished

/-! ## Counters -/

/-- The counters count the outstanding leases, within the limits. -/
structure Counted (ledger : Ledger) : Prop where
  pendingLeases : ∀ conn, (ledger.conns conn).tcpPending =
    ledger.leaseCells.countP (isOn conn .pending)
  activeLeases : ∀ conn, (ledger.conns conn).tcpActive =
    ledger.leaseCells.countP (isOn conn .active)
  setupBound : ∀ conn, (ledger.conns conn).tcpPending ≤
    ledger.limits.maxPendingTCPSetupsPerGeneration
  connectionBound : ∀ conn,
    (ledger.conns conn).tcpPending + (ledger.conns conn).tcpActive ≤
      ledger.limits.maxTCPConnectionsPerGeneration
  udpBound : ∀ conn, (ledger.conns conn).udpSessions ≤
    ledger.limits.maxUDPSessionsPerGeneration
  udpNonneg : ∀ conn, 0 ≤ (ledger.conns conn).udpSessions

section

variable (counted : ledger.Counted)

include counted

theorem Counted.of_same
    (samePending : ∀ conn,
      (next.conns conn).tcpPending = (ledger.conns conn).tcpPending)
    (sameActive : ∀ conn,
      (next.conns conn).tcpActive = (ledger.conns conn).tcpActive)
    (sameUDP : ∀ conn,
      (next.conns conn).udpSessions = (ledger.conns conn).udpSessions)
    (sameLeases : next.leaseCells = ledger.leaseCells)
    (sameLimits : next.limits = ledger.limits) : next.Counted := by
  constructor
  · intro conn
    rw [samePending, sameLeases]
    exact counted.pendingLeases conn
  · intro conn
    rw [sameActive, sameLeases]
    exact counted.activeLeases conn
  · intro conn
    rw [samePending, sameLimits]
    exact counted.setupBound conn
  · intro conn
    rw [samePending, sameActive, sameLimits]
    exact counted.connectionBound conn
  · intro conn
    rw [sameUDP, sameLimits]
    exact counted.udpBound conn
  · intro conn
    rw [sameUDP]
    exact counted.udpNonneg conn

theorem Counted.of_same_conns (sameConns : next.conns = ledger.conns)
    (sameLeases : next.leaseCells = ledger.leaseCells)
    (sameLimits : next.limits = ledger.limits) : next.Counted := by
  apply counted.of_same
  · intro conn
    rw [sameConns]
  · intro conn
    rw [sameConns]
  · intro conn
    rw [sameConns]
  · exact sameLeases
  · exact sameLimits

theorem Counted.finalize (conn : ConnRef) : (ledger.finalize conn).Counted := by
  apply counted.of_same_conns <;> simp

theorem Counted.pending_pos
    (found : ledger.leaseCells[ref]? = some ⟨conn, .pending⟩) :
    0 < (ledger.conns conn).tcpPending := by
  have positive := countP_pos_of_getElem? (isOn conn .pending) found
    (by simp [isOn])
  rw [counted.pendingLeases conn]
  omega

theorem Counted.active_pos
    (found : ledger.leaseCells[ref]? = some ⟨conn, .active⟩) :
    0 < (ledger.conns conn).tcpActive := by
  have positive := countP_pos_of_getElem? (isOn conn .active) found
    (by simp [isOn])
  rw [counted.activeLeases conn]
  omega

/-- The general lease step: one generation's counters and the lease cells move
together and stay inside the limits. -/
private theorem Counted.move (write : ConnAccount → ConnAccount)
    (cells : List TCPLease)
    (otherLeases : ∀ other state, other ≠ conn →
      cells.countP (isOn other state) =
        ledger.leaseCells.countP (isOn other state))
    (pendingLeases : (write (ledger.conns conn)).tcpPending =
      cells.countP (isOn conn .pending))
    (activeLeases : (write (ledger.conns conn)).tcpActive =
      cells.countP (isOn conn .active))
    (setupBound : (write (ledger.conns conn)).tcpPending ≤
      ledger.limits.maxPendingTCPSetupsPerGeneration)
    (connectionBound : (write (ledger.conns conn)).tcpPending +
      (write (ledger.conns conn)).tcpActive ≤
        ledger.limits.maxTCPConnectionsPerGeneration)
    (udpBound : (write (ledger.conns conn)).udpSessions ≤
      ledger.limits.maxUDPSessionsPerGeneration)
    (udpNonneg : 0 ≤ (write (ledger.conns conn)).udpSessions) :
    Counted { ledger.updateConn conn write with leaseCells := cells } := by
  have own : (ledger.updateConn conn write).conns conn =
      write (ledger.conns conn) := update_self _ _ _
  have others : ∀ other, other ≠ conn →
      (ledger.updateConn conn write).conns other = ledger.conns other :=
    fun other different => update_of_ne different _ _
  have limits : (ledger.updateConn conn write).limits = ledger.limits := rfl
  constructor <;> intro other <;> by_cases same : other = conn
  · simp only [same, own, pendingLeases]
  · simp only [others other same, otherLeases other _ same,
      counted.pendingLeases other]
  · simp only [same, own, activeLeases]
  · simp only [others other same, otherLeases other _ same,
      counted.activeLeases other]
  · simpa only [same, own, limits] using setupBound
  · simpa only [others other same, limits] using counted.setupBound other
  · simpa only [same, own, limits] using connectionBound
  · simpa only [others other same, limits] using counted.connectionBound other
  · simpa only [same, own, limits] using udpBound
  · simpa only [others other same, limits] using counted.udpBound other
  · simpa only [same, own, limits] using udpNonneg
  · simpa only [others other same, limits] using counted.udpNonneg other

end

private theorem countP_set_lease
    (found : ledger.leaseCells[ref]? = some ⟨conn, before⟩)
    (after : TCPLeaseState) (other : ConnRef) (state : TCPLeaseState) :
    (ledger.leaseCells.set ref ⟨conn, after⟩).countP
          (isOn other state) +
        (decide (conn = other ∧ before = state)).toNat =
      ledger.leaseCells.countP (isOn other state) +
        (decide (conn = other ∧ after = state)).toNat :=
  countP_set_eq (isOn other state) found ⟨conn, after⟩

private theorem Counted.transfer (counted : ledger.Counted)
    (found : ledger.leaseCells[ref]? = some ⟨conn, before⟩)
    (outstanding : before ≠ .released) {after : TCPLeaseState}
    (onward : after ≠ .pending) (write : ConnAccount → ConnAccount)
    (pendingMove : (write (ledger.conns conn)).tcpPending =
      (ledger.conns conn).tcpPending - (decide (before = .pending)).toNat)
    (activeMove : (write (ledger.conns conn)).tcpActive =
      (ledger.conns conn).tcpActive - (decide (before = .active)).toNat +
        (decide (after = .active)).toNat)
    (sameUDP : (write (ledger.conns conn)).udpSessions =
      (ledger.conns conn).udpSessions) :
    Counted { ledger.updateConn conn write with
      leaseCells := ledger.leaseCells.set ref ⟨conn, after⟩ } := by
  have pending := counted.pendingLeases conn
  have active := counted.activeLeases conn
  have setupBound := counted.setupBound conn
  have connectionBound := counted.connectionBound conn
  have counts := countP_set_lease found after
  have pendingCount := counts conn .pending
  have activeCount := counts conn .active
  simp only [true_and, onward, decide_false, Bool.toNat_false]
    at pendingCount activeCount
  have leaves : 1 ≤ (decide (before = .pending)).toNat +
      (decide (before = .active)).toNat := by
    cases before <;> simp_all
  have arrives : (decide (after = .active)).toNat ≤ 1 := Bool.toNat_le _
  refine counted.move write _ ?_ ?_ ?_ ?_ ?_ ?_ ?_
  · intro other state different
    simpa [Ne.symm different] using counts other state
  · rw [pendingMove]
    omega
  · rw [activeMove]
    omega
  · rw [pendingMove]
    omega
  · rw [pendingMove, activeMove]
    omega
  · rw [sameUDP]
    exact counted.udpBound conn
  · rw [sameUDP]
    exact counted.udpNonneg conn

theorem Counted.step (counted : ledger.Counted)
    (step : ledger.Step action next) : next.Counted := by
  cases step with
  | beginPending | bind | abortPending | abortReserved | beginRetire | fault =>
    exact counted.of_same_conns rfl rfl rfl
  | @commit ref reservation conn =>
    exact counted.move (fun account => { account with added := true })
      ledger.leaseCells (fun _ _ _ => rfl) (counted.pendingLeases conn)
      (counted.activeLeases conn) (counted.setupBound conn)
      (counted.connectionBound conn) (counted.udpBound conn)
      (counted.udpNonneg conn) |>.of_same_conns rfl rfl rfl
  | done =>
    apply Counted.finalize
    exact counted.of_same_conns rfl rfl rfl
  | @reserveUDP conn id listed room =>
    have nonneg := counted.udpNonneg conn
    exact counted.move (fun account =>
        { account with udpSessions := account.udpSessions + 1 })
      ledger.leaseCells (fun _ _ _ => rfl) (counted.pendingLeases conn)
      (counted.activeLeases conn) (counted.setupBound conn)
      (counted.connectionBound conn) (by dsimp only; omega)
      (by dsimp only; omega)
  | @releaseUDP conn held =>
    have bound := counted.udpBound conn
    apply Counted.finalize
    exact counted.move (fun account =>
        { account with udpSessions := account.udpSessions - 1 })
      ledger.leaseCells (fun _ _ _ => rfl) (counted.pendingLeases conn)
      (counted.activeLeases conn) (counted.setupBound conn)
      (counted.connectionBound conn) (by dsimp only; omega)
      (by dsimp only; omega)
  | @lease conn current connectionRoom setupRoom =>
    have pending := counted.pendingLeases conn
    have active := counted.activeLeases conn
    refine counted.move (fun account =>
        { account with tcpPending := account.tcpPending + 1 })
      (ledger.leaseCells ++ [⟨conn, .pending⟩]) ?_ ?_ ?_
      (by dsimp only; omega) (by dsimp only; omega)
      (counted.udpBound conn) (counted.udpNonneg conn)
    · intro other state different
      rw [countP_append_singleton]
      simp [isOn, Ne.symm different]
    · rw [countP_append_singleton]
      simp [isOn, pending]
    · rw [countP_append_singleton]
      simp [isOn, active]
  | activate found =>
    apply counted.transfer found (by decide) (by decide)
    · rfl
    · simp
    · rfl
  | releasePending found =>
    apply Counted.finalize
    apply counted.transfer found (by decide) (by decide)
    · rfl
    · simp
    · rfl
  | releaseActive found =>
    apply Counted.finalize
    apply counted.transfer found (by decide) (by decide)
    · simp
    · simp
    · rfl

/-! ## Retirement -/

/-- Each generation retires at most once, and it is in the retiring set
exactly until its owner is done and its counters are zero. -/
structure RetiresExactly (ledger : Ledger) : Prop where
  once : ∀ (left right : RetirementRef)
    (leftCell rightCell : RetirementAccount),
    ledger.retirementCells[left]? = some leftCell →
    ledger.retirementCells[right]? = some rightCell →
    leftCell.conn = rightCell.conn → left = right
  listedIff : ∀ (ref : RetirementRef) (retirement : RetirementAccount),
    ledger.retirementCells[ref]? = some retirement →
    (ledger.retiring.get retirement.conn = some ref ↔
      ¬ (retirement.done = true ∧ (ledger.conns retirement.conn).Idle))

theorem RetiresExactly.of_same (retires : ledger.RetiresExactly)
    (sameCells : next.retirementCells = ledger.retirementCells)
    (sameRetiring : next.retiring = ledger.retiring)
    (sameIdle : ∀ (ref : RetirementRef) (retirement : RetirementAccount),
      ledger.retirementCells[ref]? = some retirement →
      ((next.conns retirement.conn).Idle ↔
        (ledger.conns retirement.conn).Idle)) : next.RetiresExactly := by
  constructor
  · rw [sameCells]
    exact retires.once
  · intro ref retirement found
    rw [sameCells] at found
    rw [sameRetiring, sameIdle ref retirement found]
    exact retires.listedIff ref retirement found

theorem RetiresExactly.finalize
    (once : ∀ (left right : RetirementRef)
      (leftCell rightCell : RetirementAccount),
      ledger.retirementCells[left]? = some leftCell →
      ledger.retirementCells[right]? = some rightCell →
      leftCell.conn = rightCell.conn → left = right)
    (own : ∀ (ref : RetirementRef) (retirement : RetirementAccount),
      ledger.retirementCells[ref]? = some retirement →
      retirement.conn = conn → ledger.retiring.get conn = some ref)
    (others : ∀ (ref : RetirementRef) (retirement : RetirementAccount),
      ledger.retirementCells[ref]? = some retirement →
      retirement.conn ≠ conn →
      (ledger.retiring.get retirement.conn = some ref ↔
        ¬ (retirement.done = true ∧ (ledger.conns retirement.conn).Idle))) :
    (ledger.finalize conn).RetiresExactly := by
  constructor
  · rw [finalize_retirementCells]
    exact once
  · intro ref retirement found
    rw [finalize_retirementCells] at found
    rw [finalize_conns]
    by_cases same : retirement.conn = conn
    · rw [same]
      exact finalize_retiring_self (own ref retirement found same) found
    · rw [finalize_retiring_of_ne same]
      exact others ref retirement found same

/-- A busy generation that gives something back: it was listed before, and
finalizing decides whether it still is. -/
private theorem RetiresExactly.giveBack (retires : ledger.RetiresExactly)
    (write : ConnAccount → ConnAccount) (cells : List TCPLease)
    (busy : ¬ (ledger.conns conn).Idle) :
    RetiresExactly (Ledger.finalize { ledger.updateConn conn write with
      leaseCells := cells } conn) := by
  apply RetiresExactly.finalize
  · exact retires.once
  · rintro ref retirement found rfl
    apply (retires.listedIff ref retirement found).mpr
    intro finished
    exact busy finished.2
  · intro ref retirement found different
    change _ ↔ ¬ (_ ∧ (Function.update ledger.conns conn _ _).Idle)
    rw [update_of_ne different]
    exact retires.listedIff ref retirement found

private theorem RetiresExactly.unretired (retires : ledger.RetiresExactly)
    (write : ConnAccount → ConnAccount) (cells : List TCPLease)
    (notRetired : ∀ (ref : RetirementRef) (retirement : RetirementAccount),
      ledger.retirementCells[ref]? = some retirement →
      retirement.conn ≠ conn) :
    RetiresExactly { ledger.updateConn conn write with
      leaseCells := cells } := by
  apply retires.of_same
  · rfl
  · rfl
  · intro ref retirement found
    change (Function.update ledger.conns conn _ _).Idle ↔ _
    rw [update_of_ne (notRetired ref retirement found)]

theorem Registered.notRetired_of_current (registered : ledger.Registered)
    (current : ledger.Current conn) :
    ∀ (ref : RetirementRef) (retirement : RetirementAccount),
      ledger.retirementCells[ref]? = some retirement →
      retirement.conn ≠ conn := by
  rintro ref retirement found rfl
  exact (registered.retiredGone ref retirement found).2 current

theorem RetiresExactly.step (retires : ledger.RetiresExactly)
    (registered : ledger.Registered) (counted : ledger.Counted)
    (step : ledger.Step action next) : next.RetiresExactly := by
  cases step with
  | beginPending | bind | abortPending | abortReserved | fault =>
    exact retires.of_same rfl rfl (fun _ _ _ => Iff.rfl)
  | @commit ref reservation conn =>
    apply retires.of_same
    · rfl
    · rfl
    · intro ref retirement found
      change (Function.update ledger.conns conn _ _).Idle ↔ _
      by_cases same : retirement.conn = conn
      · rw [same, update_self]
        rfl
      · rw [update_of_ne same]
  | @beginRetire conn current =>
    have notRetired := registered.notRetired_of_current current
    constructor
    · intro left right leftCell rightCell leftFound rightFound same
      change (ledger.retirementCells ++ _)[left]? = _ at leftFound
      change (ledger.retirementCells ++ _)[right]? = _ at rightFound
      rw [getElem?_append_singleton] at leftFound rightFound
      split at leftFound <;> split at rightFound
      · rename_i leftNew rightNew
        rw [leftNew, rightNew]
      · cases leftFound
        exact absurd same.symm (notRetired _ _ rightFound)
      · cases rightFound
        exact absurd same (notRetired _ _ leftFound)
      · exact retires.once _ _ _ _ leftFound rightFound same
    · intro ref retirement found
      change (ledger.retirementCells ++ _)[ref]? = _ at found
      change (ledger.retiring.put conn _).get _ = _ ↔ _
      rcases cases_append found with ⟨new, rfl⟩ | found
      · simp [new]
      · rw [FiniteMap.get_put_of_ne _ _ (notRetired _ _ found)]
        exact retires.listedIff ref retirement found
  | @done ref retirement found first listed =>
    have written := getElem?_set_eq found { retirement with done := true }
    have sameConn : ∀ (other : RetirementRef) (cell : RetirementAccount),
        (ledger.ownerDone ref retirement).retirementCells[other]? =
        some cell → ∃ old, ledger.retirementCells[other]? =
        some old ∧ old.conn = cell.conn ∧ (other ≠ ref → old = cell) := by
      intro other cell otherFound
      change (ledger.retirementCells.set ref _)[other]? = _ at otherFound
      rw [written] at otherFound
      split at otherFound
      · rename_i same
        cases otherFound
        exact ⟨retirement, by rw [same, found], rfl,
          fun different => absurd same different⟩
      · exact ⟨cell, otherFound, rfl, fun _ => rfl⟩
    apply RetiresExactly.finalize
    · intro left right leftCell rightCell leftFound rightFound same
      obtain ⟨oldLeft, oldLeftFound, leftConn, _⟩ :=
        sameConn left leftCell leftFound
      obtain ⟨oldRight, oldRightFound, rightConn, _⟩ :=
        sameConn right rightCell rightFound
      exact retires.once _ _ _ _ oldLeftFound oldRightFound
        (leftConn.trans (same.trans rightConn.symm))
    · intro other cell otherFound same
      obtain ⟨old, oldFound, oldConn, _⟩ := sameConn other cell otherFound
      have sameRef := retires.once _ _ _ _ oldFound found (oldConn.trans same)
      rw [sameRef]
      exact listed
    · intro other cell otherFound different
      obtain ⟨old, oldFound, oldConn, unchanged⟩ :=
        sameConn other cell otherFound
      have otherRef : other ≠ ref := by
        rintro rfl
        rw [found] at oldFound
        cases oldFound
        exact different oldConn.symm
      rw [← unchanged otherRef]
      exact retires.listedIff other old oldFound
  | reserveUDP listed _ =>
    exact retires.unretired (fun account =>
        { account with udpSessions := account.udpSessions + 1 })
      ledger.leaseCells (registered.notRetired_of_current
        (registered.current_of_listed listed))
  | @releaseUDP conn held =>
    refine retires.giveBack (fun account =>
        { account with udpSessions := account.udpSessions - 1 })
      ledger.leaseCells ?_
    rintro ⟨_, _, idle⟩
    omega
  | lease current _ _ =>
    exact retires.unretired _ _ (registered.notRetired_of_current current)
  | @activate ref conn found =>
    have pendingPositive := counted.pending_pos found
    have activeCount := counted.activeLeases conn
    apply retires.of_same
    · rfl
    · rfl
    · intro other retirement retirementFound
      change (Function.update ledger.conns conn _ _).Idle ↔ _
      by_cases same : retirement.conn = conn
      · -- The lease is pending before and active after: never idle.
        rw [same, update_self]
        constructor
        · rintro ⟨_, active, _⟩
          dsimp only at active
          omega
        · rintro ⟨pending, _, _⟩
          omega
      · rw [update_of_ne same]
  | releasePending found =>
    have positive := counted.pending_pos found
    apply retires.giveBack
    rintro ⟨idle, _, _⟩
    omega
  | releaseActive found =>
    have positive := counted.active_pos found
    apply retires.giveBack
    rintro ⟨_, idle, _⟩
    omega

end Ledger

end QMux.Pool
