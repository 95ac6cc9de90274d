import QMux.Pool.Refinement

/-!
# Runs of the pool

Any sequence of atomic pool operations, on any references, from a new pool.
The registration and accounting invariants of the ledger hold throughout.
-/

namespace QMux.Pool

open Support

/-- The atomic operations of a pool and of the lock-free writes to its
generations.  `Reserve`, `Add` and `Remove` are sequences of these. -/
inductive Op where
  | beginPending
  | bind (ref : ReservationRef) (conn : ConnRef)
  | commit (ref : ReservationRef)
  | abort (ref : ReservationRef)
  | beginRetire (conn : ConnRef)
  | receiveTCPDrained (ref : RetirementRef)
  | done (ref : RetirementRef)
  | reserveUDP (order : List ConnRef)
  | releaseUDP (conn : ConnRef)
  | beginTCPAdmission (order : List ConnRef)
  | next (ref : AdmissionRef)
  | commitLease (ref : LeaseRef)
  | releaseLease (ref : LeaseRef)
  | compareAndSwapStreamID (conn : ConnRef) (current streamID : Int)
  | storeTCPOpened (conn : ConnRef)
  | markHealthy (conn : ConnRef)
  | markUnhealthy (conn : ConnRef)
  | addActiveConns (conn : ConnRef) (delta : Int)
  | addTotalConns (conn : ConnRef)
deriving DecidableEq

/-- Operations that neither obtain nor release a UDP reservation. -/
def Op.Plain : Op → Prop
  | .reserveUDP _ => False
  | .releaseUDP _ => False
  | _ => True

namespace ConnectionPool

variable {σ : Type*} {p : ConnectionPool σ}

def apply (p : ConnectionPool σ) : Op → ConnectionPool σ
  | .beginPending => (p.beginPending).2
  | .bind ref conn => (p.bind ref conn).2
  | .commit ref => (p.commit ref).2
  | .abort ref => (p.abort ref).2
  | .beginRetire conn => (p.beginRetire conn).2
  | .receiveTCPDrained ref => (p.receiveTCPDrained ref).2
  | .done ref => (p.done ref).2
  | .reserveUDP order => (p.reserveUDP order).2
  | .releaseUDP conn => (p.releaseUDP conn).2
  | .beginTCPAdmission order => (p.beginTCPAdmission order).2
  | .next ref => (p.next ref).2
  | .commitLease ref => (p.commitLease ref).2
  | .releaseLease ref => (p.releaseLease ref).2
  | .compareAndSwapStreamID conn current streamID =>
    (p.compareAndSwapStreamID conn current streamID).2
  | .storeTCPOpened conn => p.storeTCPOpened conn
  | .markHealthy conn => (p.markHealthy conn).2
  | .markUnhealthy conn => (p.markUnhealthy conn).2
  | .addActiveConns conn delta => p.addActiveConns conn delta
  | .addTotalConns conn => p.addTotalConns conn

/-- Operations that iterate over the clients see them in some order. -/
def Enabled (p : ConnectionPool σ) : Op → Prop
  | .reserveUDP order => p.IterationOrder order
  | .beginTCPAdmission order => p.IterationOrder order
  | _ => True

instance (p : ConnectionPool σ) (op : Op) : Decidable (p.Enabled op) := by
  cases op <;> dsimp only [Enabled] <;> infer_instance

/-- A new pool whose callers hold unused generations. -/
def Fresh (p : ConnectionPool σ) : Prop :=
  ∃ (conns : ConnRef → ClientConn) (balancer : LoadBalancer σ)
    (balancerState : σ) (limits : Limits),
    (∀ conn, ∃ id capabilities, conns conn = newClientConn id capabilities) ∧
    p = newWithLimits conns balancer balancerState limits

def Step (p next : ConnectionPool σ) : Prop :=
  ∃ op, p.Enabled op ∧ next = p.apply op

/-- All runs of a pool. -/
def runs (σ : Type*) : TransitionSystem (ConnectionPool σ) where
  initial := Fresh
  step := Step

theorem Step.of_apply (op : Op) (enabled : p.Enabled op) :
    p.Step (p.apply op) :=
  ⟨op, enabled, rfl⟩

/-- `Remove` is a run of its own. -/
theorem remove_reaches (conn : ConnRef) :
    (runs σ).Reaches p (p.remove conn).2 := by
  have begins : (runs σ).Reaches p (p.beginRetire conn).2 :=
    .single (Step.of_apply (.beginRetire conn) trivial)
  unfold remove
  split
  · rename_i next retires
    rw [retires] at begins
    exact begins
  · rename_i ref next retires
    rw [retires] at begins
    exact begins.tail (Step.of_apply (.done ref) trivial)

/-! ## The ledger along a run -/

/-- An operation that neither obtains nor releases a UDP reservation moves the
ledger by at most one step, and no UDP counter with it. -/
theorem plain_refines {op : Op} (plain : op.Plain) :
    (p.apply op).ledger = p.ledger ∨
      p.ledger.Step .other (p.apply op).ledger := by
  cases op with
  | beginPending => exact beginPending_refines
  | bind ref conn => exact bind_refines ref conn
  | commit ref => exact commit_refines ref
  | abort ref => exact abort_refines ref
  | beginRetire conn => exact beginRetire_refines conn
  | receiveTCPDrained ref => exact .inl (receiveTCPDrained_ledger ref)
  | done ref => exact done_refines ref
  | reserveUDP | releaseUDP => exact plain.elim
  | beginTCPAdmission order => exact .inl (beginTCPAdmission_ledger order)
  | next ref => exact next_refines ref
  | commitLease ref => exact commitLease_refines ref
  | releaseLease ref => exact releaseLease_refines ref
  | compareAndSwapStreamID conn current streamID =>
    exact .inl (compareAndSwapStreamID_ledger conn current streamID)
  | storeTCPOpened conn => exact .inl (storeTCPOpened_ledger conn)
  | markHealthy conn => exact .inl (markHealthy_ledger conn)
  | markUnhealthy conn => exact .inl (markUnhealthy_ledger conn)
  | addActiveConns conn delta => exact .inl (addActiveConns_ledger conn delta)
  | addTotalConns conn => exact .inl (addTotalConns_ledger conn)

theorem step_refines {next : ConnectionPool σ} (step : p.Step next) :
    next.ledger = p.ledger ∨ ∃ action, p.ledger.Step action next.ledger := by
  obtain ⟨op, enabled, rfl⟩ := step
  by_cases plain : op.Plain
  · rcases plain_refines (p := p) plain with same | moved
    · exact .inl same
    · exact .inr ⟨_, moved⟩
  · cases op with
    | reserveUDP order =>
      rcases reserveUDP_refines enabled with ⟨conn, _, moved⟩ | ⟨_, same⟩
      · exact .inr ⟨_, moved⟩
      · exact .inl same
    | releaseUDP conn =>
      rcases p.releaseUDP_refines conn with ⟨_, moved⟩ | ⟨_, moved⟩
      all_goals exact .inr ⟨_, moved⟩
    | _ => exact absurd trivial plain

theorem Fresh.registered (fresh : p.Fresh) : p.ledger.Registered := by
  obtain ⟨conns, balancer, balancerState, limits, unused, rfl⟩ := fresh
  have notAdded : ∀ conn, (conns conn).added = false := by
    intro conn
    obtain ⟨id, capabilities, same⟩ := unused conn
    rw [same]
    rfl
  constructor
  case pendingCount => rfl
  case pendingBound => exact Int.le_of_lt limits.pendingRegistrationsPositive
  case generationBound =>
    exact Int.le_of_lt limits.clientGenerationsPositive
  case reservationOf =>
    intro id ref found
    cases (FiniteMap.get_empty id).symm.trans found
  case reservedListed =>
    intro ref reservation found
    cases found
  case clientOf =>
    intro id conn found
    cases (FiniteMap.get_empty id).symm.trans found
  case disjoint =>
    intro id ref found
    cases (FiniteMap.get_empty id).symm.trans found
  case reservedNamed =>
    intro id ref found
    cases (FiniteMap.get_empty id).symm.trans found
  case committedOnce =>
    intro conn
    change 0 = ((conns conn).added).toNat
    rw [notAdded]
    rfl
  case retiringOf =>
    intro conn ref found
    cases (FiniteMap.get_empty conn).symm.trans found
  case retiredGone =>
    intro ref retirement found
    cases found

theorem registered_of_reachable (reachable : (runs σ).Reachable p) :
    p.ledger.Registered := by
  apply reachable.invariant
  · intro state fresh
    exact Fresh.registered fresh
  · intro before after _ registered step
    rcases step_refines step with same | ⟨action, moved⟩
    · rw [same]
      exact registered
    · exact registered.step moved

private theorem Fresh.idle (fresh : p.Fresh) (conn : ConnRef) :
    (p.ledger.conns conn).Idle := by
  obtain ⟨conns, balancer, balancerState, limits, unused, rfl⟩ := fresh
  obtain ⟨id, capabilities, same⟩ := unused conn
  change (conns conn).account.Idle
  rw [same]
  exact ⟨rfl, rfl, rfl⟩

private theorem Fresh.noCells (fresh : p.Fresh) :
    p.ledger.leaseCells = [] ∧ p.ledger.retirementCells = [] := by
  obtain ⟨conns, balancer, balancerState, limits, unused, rfl⟩ := fresh
  exact ⟨rfl, rfl⟩

theorem Fresh.counted (fresh : p.Fresh) : p.ledger.Counted := by
  have noLeases := (Fresh.noCells fresh).1
  constructor
  case pendingLeases =>
    intro conn
    rw [(Fresh.idle fresh conn).1, noLeases]
    rfl
  case activeLeases =>
    intro conn
    rw [(Fresh.idle fresh conn).2.1, noLeases]
    rfl
  case setupBound =>
    intro conn
    rw [(Fresh.idle fresh conn).1]
    exact Int.le_of_lt p.ledger.limits.pendingTCPSetupsPositive
  case connectionBound =>
    intro conn
    rw [(Fresh.idle fresh conn).1, (Fresh.idle fresh conn).2.1]
    exact Int.le_of_lt p.ledger.limits.tcpConnectionsPositive
  case udpBound =>
    intro conn
    rw [(Fresh.idle fresh conn).2.2]
    exact Int.le_of_lt p.ledger.limits.udpSessionsPositive
  case udpNonneg =>
    intro conn
    rw [(Fresh.idle fresh conn).2.2]

theorem Fresh.retiresExactly (fresh : p.Fresh) :
    p.ledger.RetiresExactly := by
  have noRetirements := (Fresh.noCells fresh).2
  constructor
  · intro left right leftCell rightCell found
    rw [noRetirements] at found
    cases found
  · intro ref retirement found
    rw [noRetirements] at found
    cases found

theorem counted_of_reachable (reachable : (runs σ).Reachable p) :
    p.ledger.Counted := by
  apply reachable.invariant
  · intro state fresh
    exact Fresh.counted fresh
  · intro before after _ counted step
    rcases step_refines step with same | ⟨action, moved⟩
    · rw [same]
      exact counted
    · exact counted.step moved

theorem retiresExactly_of_reachable (reachable : (runs σ).Reachable p) :
    p.ledger.RetiresExactly := by
  apply reachable.invariant
  · intro state fresh
    exact Fresh.retiresExactly fresh
  · intro before after earlier retires step
    rcases step_refines step with same | ⟨action, moved⟩
    · rw [same]
      exact retires
    · exact retires.step (registered_of_reachable earlier)
        (counted_of_reachable earlier) moved

end ConnectionPool

end QMux.Pool
