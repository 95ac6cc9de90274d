import QMux.Pool.Runs

/-!
# Registration safety of the pool

The registration invariant read off the pool itself, the fate of a retired
generation in every later state, and the success of every commit that a
reservation has been acknowledged for.
-/

namespace QMux.Pool

open Support

variable {ledger next : Ledger}

theorem Ledger.Step.retirement_persists {action : Ledger.Action}
    (step : ledger.Step action next) {ref : RetirementRef}
    {retirement : RetirementAccount}
    (found : ledger.retirementCells[ref]? = some retirement) :
    ∃ later, next.retirementCells[ref]? = some later ∧
      later.conn = retirement.conn := by
  cases step with
  | beginRetire _ =>
    refine ⟨retirement, ?_, rfl⟩
    change (ledger.retirementCells ++ _)[ref]? = _
    rw [getElem?_append_singleton, if_neg, found]
    rintro rfl
    rw [getElem?_length_eq_none] at found
    cases found
  | @done other otherRetirement otherFound _ _ =>
    rw [Ledger.finalize_retirementCells]
    change ∃ later, (ledger.retirementCells.set other _)[ref]? = _ ∧ _
    rw [getElem?_set_eq otherFound]
    split
    · rename_i same
      rw [same, otherFound] at found
      cases found
      exact ⟨_, rfl, rfl⟩
    · exact ⟨retirement, found, rfl⟩
  | releaseUDP | releasePending | releaseActive =>
    rw [Ledger.finalize_retirementCells]
    exact ⟨retirement, found, rfl⟩
  | _ => exact ⟨retirement, found, rfl⟩

theorem Ledger.Step.reserveUDP_listed {conn : ConnRef}
    (step : ledger.Step (.reserveUDP conn) next) :
    ∃ id, ledger.clients.get id = some conn := by
  cases step with
  | reserveUDP listed _ => exact ⟨_, listed⟩

namespace ConnectionPool

variable {σ : Type*} {p : ConnectionPool σ}

/-- A retirement of the generation has begun. -/
def Retired (p : ConnectionPool σ) (conn : ConnRef) : Prop :=
  ∃ (ref : RetirementRef) (retirement : RetirementAccount),
    p.ledger.retirementCells[ref]? = some retirement ∧ retirement.conn = conn

/-- Some UDP reservation or some TCP admission would be given `conn`. -/
def Selects (p : ConnectionPool σ) (conn : ConnRef) : Prop :=
  (∃ order, p.IterationOrder order ∧ (p.reserveUDP order).1 = .ok conn) ∨
    ∃ (ref : AdmissionRef) (lease : LeaseRef),
      (p.next ref).1 = .ok (some lease) ∧
      (p.next ref).2.leaseCells[lease]? = some ⟨conn, .pending⟩

variable {conn : ConnRef} {ref : RetirementRef}

theorem Retired.step {next : ConnectionPool σ} (retired : p.Retired conn)
    (step : p.Step next) : next.Retired conn := by
  obtain ⟨ref, retirement, found, same⟩ := retired
  rcases step_refines step with unchanged | ⟨action, moved⟩
  · exact ⟨ref, retirement, by rw [unchanged, found], same⟩
  · obtain ⟨later, laterFound, laterConn⟩ := moved.retirement_persists found
    exact ⟨ref, later, laterFound, laterConn.trans same⟩

theorem beginRetire_some (retires : (p.beginRetire conn).1 = some ref) :
    p.isCurrentLocked conn = true := by
  by_contra notCurrent
  unfold beginRetire at retires
  rw [if_pos (Bool.eq_false_iff.mpr notCurrent)] at retires
  cases retires

theorem retired_of_beginRetire (retires : (p.beginRetire conn).1 = some ref) :
    (p.beginRetire conn).2.Retired conn := by
  refine ⟨p.retirementCells.length, ⟨conn, false⟩, ?_, rfl⟩
  rw [beginRetire_ledger (beginRetire_some retires)]
  change (p.retirementCells.map Retirement.account ++ _)[_]? = _
  rw [getElem?_append_singleton, List.length_map, if_pos rfl]

theorem next_leases {ref : AdmissionRef} {lease : LeaseRef}
    (leases : (p.next ref).1 = .ok (some lease)) :
    ∃ conn, (p.next ref).2.leaseCells[lease]? = some ⟨conn, .pending⟩ ∧
      p.isCurrentLocked conn = true := by
  rcases p.next_cases ref with
    ⟨conn, candidate, _, result, leased⟩ | ⟨refused, _⟩
  · rw [leases] at result
    cases result
    refine ⟨conn, ?_, isTCPCandidate_current candidate⟩
    change (p.next ref).2.ledger.leaseCells[p.leaseCells.length]? = _
    rw [leased]
    change (p.leaseCells ++ _)[p.leaseCells.length]? = _
    rw [getElem?_append_singleton, if_pos rfl]
  · exact absurd leases (refused lease)

theorem Selects.current (registered : p.ledger.Registered)
    (selects : p.Selects conn) : p.ledger.Current conn := by
  rcases selects with ⟨order, iteration, reserved⟩ | ⟨ref, lease, leases, cell⟩
  · rcases reserveUDP_refines iteration with
      ⟨selected, result, moved⟩ | ⟨⟨failure, result⟩, _⟩
    · rw [reserved] at result
      cases result
      obtain ⟨id, listed⟩ := moved.reserveUDP_listed
      exact registered.current_of_listed listed
    · rw [reserved] at result
      cases result
  · obtain ⟨leased, leasedCell, current⟩ := next_leases leases
    rw [cell] at leasedCell
    cases leasedCell
    exact isCurrentLocked_iff.mp current

theorem Retired.notCurrent (registered : p.ledger.Registered)
    (retired : p.Retired conn) : ¬ p.ledger.Current conn := by
  obtain ⟨ref, retirement, found, rfl⟩ := retired
  exact (registered.retiredGone ref retirement found).2

/-- A reservation in state reserved is publishable while nothing is wrong
with the pool's accounting. -/
theorem commit_of_reserved (registered : p.ledger.Registered)
    (noFault : p.accountingFaults = 0) {ref : ReservationRef}
    {reservation : Reservation}
    (found : p.reservationCells[ref]? = some reservation)
    (reserved : reservation.state = .reserved) :
    ∃ conn, reservation.conn = some conn ∧ (p.commit ref).1 = .ok () ∧
      (p.commit ref).2.clients.get reservation.id = some conn := by
  have listed := registered.reservedListed ref reservation found reserved
  obtain ⟨conn, cell, sameID, unused⟩ := registered.reservationOf _ _ listed
  change p.reservationCells[ref]? = _ at cell
  change (p.conns conn).id = reservation.id at sameID
  change (p.conns conn).added = false at unused
  have holds : reservation.conn = some conn := by
    rw [found] at cell
    exact congrArg Reservation.conn (Option.some.inj cell)
  have notCurrent : p.clients.has reservation.id = false := by
    have absent : p.clients.get reservation.id = none :=
      registered.disjoint _ _ listed
    rw [FiniteMap.has, absent]
    rfl
  refine ⟨conn, holds, ?_⟩
  unfold commit
  simp only [found]
  rw [if_neg (by
      rintro (wrongState | unlisted)
      · exact wrongState reserved
      · exact unlisted listed),
    if_neg (by omega)]
  simp only [holds]
  rw [if_neg (not_not.mpr sameID), if_neg (by simp [notCurrent]),
    if_neg (by simp [unused])]
  exact ⟨rfl, FiniteMap.get_put_self _ _ _⟩

/-- Registration safety of every reachable pool: the pending count and both
capacity bounds are exact, a client ID is reserved or current but not both,
each generation is published at most once, retirement is final, an
acknowledged reservation can be committed, and `Remove` is such a run. -/
theorem registration_safe (reachable : (runs σ).Reachable p) :
    (p.serverPending = p.reservationCells.countP Reservation.isOpen ∧
      p.serverPending ≤ p.limits.maxPendingRegistrations) ∧
    (p.reservations.size + p.clients.size + p.retiring.size : Int) ≤
      p.limits.maxClientGenerations ∧
    (∀ id, ¬ (p.reservations.has id = true ∧ p.clients.has id = true)) ∧
    (∀ conn, p.reservationCells.countP (Reservation.hasCommitted conn) ≤ 1) ∧
    (∀ conn, ¬ (p.isCurrentLocked conn = true ∧ p.retiring.has conn = true)) ∧
    (∀ conn ref, (p.beginRetire conn).1 = some ref →
      ∀ later, (runs σ).Reaches (p.beginRetire conn).2 later →
        later.isCurrentLocked conn = false ∧ ¬ later.Selects conn) ∧
    (p.accountingFaults = 0 →
      ∀ (ref : ReservationRef) (reservation : Reservation),
        p.reservationCells[ref]? = some reservation →
        reservation.state = .reserved →
        ∃ conn, reservation.conn = some conn ∧ (p.commit ref).1 = .ok () ∧
          (p.commit ref).2.clients.get reservation.id = some conn) ∧
    (∀ conn, (runs σ).Reaches p (p.remove conn).2) := by
  have registered := registered_of_reachable reachable
  refine ⟨⟨registered.pendingCount, registered.pendingBound⟩,
    registered.generationBound, ?_, ?_, ?_, ?_, ?_, remove_reaches⟩
  · rintro id ⟨reserved, current⟩
    obtain ⟨ref, found⟩ := Option.isSome_iff_exists.mp reserved
    have absent : p.clients.get id = none := registered.disjoint id ref found
    rw [FiniteMap.has, absent] at current
    cases current
  · intro conn
    have once := registered.committedOnce conn
    change p.reservationCells.countP _ = _ at once
    rw [once]
    exact Bool.toNat_le _
  · rintro conn ⟨current, retiring⟩
    obtain ⟨ref, found⟩ := Option.isSome_iff_exists.mp retiring
    obtain ⟨retirement, cell, same⟩ := registered.retiringOf conn ref found
    exact Retired.notCurrent registered ⟨ref, retirement, cell, same⟩
      (isCurrentLocked_iff.mp current)
  · intro conn ref retires later reaches
    have begins : (runs σ).Reachable (p.beginRetire conn).2 :=
      reachable.next (Step.of_apply (.beginRetire conn) trivial)
    have laterRegistered := registered_of_reachable (begins.trans reaches)
    have laterRetired : later.Retired conn :=
      TransitionSystem.Reaches.invariant (fun state => state.Retired conn)
        (fun _ _ _ retired step => retired.step step) begins reaches
        (retired_of_beginRetire retires)
    have gone := laterRetired.notCurrent laterRegistered
    refine ⟨?_, fun selects => gone (selects.current laterRegistered)⟩
    rw [Bool.eq_false_iff, Ne, isCurrentLocked_iff]
    exact gone
  · intro noFault ref reservation found reserved
    exact commit_of_reserved registered noFault found reserved

/-- A pool with a round-robin balancer whose callers hold generations of one
client. -/
def samplePool : ConnectionPool UInt64 :=
  newWithLimits (fun _ => newClientConn "edge" ["tcp", "udp"])
    roundRobinBalancer 0 defaultLimits

theorem samplePool_reachable : (runs UInt64).Reachable samplePool :=
  .start ⟨_, _, _, _, fun _ => ⟨_, _, rfl⟩, rfl⟩

/-- The sample pool after the first generation has been reserved. -/
def sampleReserved : ConnectionPool UInt64 :=
  (samplePool.apply .beginPending).apply (.bind 0 0)

theorem sampleReserved_reachable : (runs UInt64).Reachable sampleReserved :=
  (samplePool_reachable.next (Step.of_apply .beginPending trivial)).next
    (Step.of_apply (.bind 0 0) trivial)

/-- The sample pool after that generation has been published. -/
def sampleCommitted : ConnectionPool UInt64 := sampleReserved.apply (.commit 0)

theorem sampleCommitted_reachable : (runs UInt64).Reachable sampleCommitted :=
  sampleReserved_reachable.next (Step.of_apply (.commit 0) trivial)

theorem registration_safe_sample :
    (∃ conn, (sampleReserved.commit 0).2.clients.get "edge" = some conn) ∧
      ((sampleCommitted.beginRetire 0).1 = some 0 ∧
        ((sampleCommitted.beginRetire 0).2.apply
          (.done 0)).isCurrentLocked 0 = false) := by
  have retires : (sampleCommitted.beginRetire 0).1 = some 0 := by
    decide +kernel
  refine ⟨?_, retires, ?_⟩
  · have committed := (registration_safe sampleReserved_reachable).2.2.2.2.2.2.1
      (by decide +kernel) 0 ⟨some 0, "edge", .reserved⟩ (by decide +kernel) rfl
    obtain ⟨conn, _, _, published⟩ := committed
    exact ⟨conn, published⟩
  · exact ((registration_safe sampleCommitted_reachable).2.2.2.2.2.1 0 0
      retires _ (.single (Step.of_apply (.done 0) trivial))).1

end ConnectionPool

end QMux.Pool
