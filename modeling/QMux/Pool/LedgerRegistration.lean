import QMux.Pool.Ledger

/-!
# Registration invariant of the ledger

Client IDs in use, the generations behind them, and the state of every
reservation agree.  Each ledger step keeps the agreement.
-/

namespace QMux.Pool

open Function Support Reservation

namespace Reservation

/-- Counted by `serverPending`. -/
def isOpen (reservation : Reservation) : Bool :=
  reservation.state = .pending ∨ reservation.state = .reserved

/-- This reservation published `conn`. -/
def hasCommitted (conn : ConnRef) (reservation : Reservation) : Bool :=
  reservation.conn = some conn ∧ reservation.state = .committed

end Reservation

namespace Ledger

/-- Reservations, current clients and retired generations are consistent. -/
structure Registered (ledger : Ledger) : Prop where
  pendingCount : ledger.serverPending = ledger.reservationCells.countP isOpen
  pendingBound : ledger.serverPending ≤ ledger.limits.maxPendingRegistrations
  generationBound :
    ledger.generationCount ≤ ledger.limits.maxClientGenerations
  reservationOf : ∀ id ref, ledger.reservations.get id = some ref →
    ∃ conn, ledger.reservationCells[ref]? = some ⟨some conn, id, .reserved⟩ ∧
      (ledger.conns conn).id = id ∧ (ledger.conns conn).added = false
  reservedListed : ∀ (ref : ReservationRef) (reservation : Reservation),
    ledger.reservationCells[ref]? = some reservation →
    reservation.state = .reserved →
    ledger.reservations.get reservation.id = some ref
  clientOf : ∀ id conn, ledger.clients.get id = some conn →
    (ledger.conns conn).id = id ∧ id ≠ "" ∧ (ledger.conns conn).added = true
  disjoint : ∀ id ref, ledger.reservations.get id = some ref →
    ledger.clients.get id = none
  reservedNamed : ∀ id ref, ledger.reservations.get id = some ref → id ≠ ""
  committedOnce : ∀ conn, ledger.reservationCells.countP (hasCommitted conn) =
      (ledger.conns conn).added.toNat
  retiringOf : ∀ conn ref, ledger.retiring.get conn = some ref →
    ∃ retirement, ledger.retirementCells[ref]? = some retirement ∧
      retirement.conn = conn
  retiredGone : ∀ (ref : RetirementRef) (retirement : RetirementAccount),
    ledger.retirementCells[ref]? = some retirement →
    (ledger.conns retirement.conn).added = true ∧
      ¬ ledger.Current retirement.conn

section

variable {ledger : Ledger}

variable {conn : ConnRef} {next : Ledger} {ref : ReservationRef}
  {reservation : Reservation} {write : ConnAccount → ConnAccount}

section

variable (registered : ledger.Registered)

include registered

theorem Registered.current_of_listed {id : String}
    (listed : ledger.clients.get id = some conn) : ledger.Current conn := by
  obtain ⟨sameID, named, _⟩ := registered.clientOf id conn listed
  refine ⟨?_, ?_⟩
  · rwa [sameID]
  · rwa [sameID]

/-- Changes that touch neither reservations, clients nor identities, and at
most drop retiring generations, keep the invariant. -/
theorem Registered.of_same
    (sameID : ∀ conn, (next.conns conn).id = (ledger.conns conn).id)
    (sameAdded : ∀ conn, (next.conns conn).added = (ledger.conns conn).added)
    (sameReservationCells : next.reservationCells = ledger.reservationCells)
    (sameClients : next.clients = ledger.clients)
    (sameReservations : next.reservations = ledger.reservations)
    (samePending : next.serverPending = ledger.serverPending)
    (sameLimits : next.limits = ledger.limits)
    (sameRetired : ∀ ref : RetirementRef,
      next.retirementCells[ref]?.map RetirementAccount.conn =
        ledger.retirementCells[ref]?.map RetirementAccount.conn)
    (fewerRetiring : ∀ conn ref, next.retiring.get conn = some ref →
      ledger.retiring.get conn = some ref)
    (smallerRetiring : next.retiring.size ≤ ledger.retiring.size) :
    next.Registered := by
  have sameCurrent : ∀ conn, next.Current conn ↔ ledger.Current conn := by
    intro conn
    simp only [Current, sameID, sameClients]
  constructor
  · rw [samePending, sameReservationCells]
    exact registered.pendingCount
  · rw [samePending, sameLimits]
    exact registered.pendingBound
  · have bound := registered.generationBound
    simp only [generationCount, sameReservations, sameClients,
      sameLimits] at bound ⊢
    omega
  · intro id ref found
    rw [sameReservations] at found
    obtain ⟨conn, cell, named, unused⟩ := registered.reservationOf id ref found
    exact ⟨conn, by rw [sameReservationCells, cell], by rw [sameID, named],
      by rw [sameAdded, unused]⟩
  · rw [sameReservationCells, sameReservations]
    exact registered.reservedListed
  · intro id conn found
    rw [sameClients] at found
    rw [sameID, sameAdded]
    exact registered.clientOf id conn found
  · rw [sameReservations, sameClients]
    exact registered.disjoint
  · rw [sameReservations]
    exact registered.reservedNamed
  · intro conn
    rw [sameReservationCells, sameAdded]
    exact registered.committedOnce conn
  · intro conn ref found
    obtain ⟨retirement, cell, same⟩ :=
      registered.retiringOf conn ref (fewerRetiring conn ref found)
    have mapped := sameRetired ref
    rw [cell, Option.map_some] at mapped
    obtain ⟨nextRetirement, nextCell, nextConn⟩ :=
      Option.map_eq_some_iff.mp mapped
    exact ⟨nextRetirement, nextCell, nextConn.trans same⟩
  · intro ref retirement cell
    have mapped := (sameRetired ref).symm
    rw [cell, Option.map_some] at mapped
    obtain ⟨oldRetirement, oldCell, oldConn⟩ := Option.map_eq_some_iff.mp mapped
    rw [sameAdded, sameCurrent, ← oldConn]
    exact registered.retiredGone ref oldRetirement oldCell

/-! ## Reservations -/

theorem Registered.begun
    (room : ledger.serverPending < ledger.limits.maxPendingRegistrations) :
    ledger.begun.Registered := by
  have fresh := getElem?_length_eq_none ledger.reservationCells
  constructor
  case pendingCount =>
    change ledger.serverPending + 1 = ((ledger.reservationCells ++ _).countP
      isOpen : Nat)
    rw [countP_append_singleton, registered.pendingCount]
    simp [isOpen]
  case pendingBound =>
    change ledger.serverPending + 1 ≤ ledger.limits.maxPendingRegistrations
    omega
  case generationBound => exact registered.generationBound
  case reservationOf =>
    intro id ref found
    obtain ⟨conn, cell, facts⟩ := registered.reservationOf id ref found
    refine ⟨conn, ?_, facts⟩
    change (ledger.reservationCells ++ _)[ref]? = _
    rw [getElem?_append_singleton, if_neg, cell]
    rintro rfl
    rw [fresh] at cell
    cases cell
  case reservedListed =>
    intro ref reservation cell reserved
    rcases cases_append cell with ⟨_, rfl⟩ | cell
    · cases reserved
    · exact registered.reservedListed ref reservation cell reserved
  case clientOf => exact registered.clientOf
  case disjoint => exact registered.disjoint
  case reservedNamed => exact registered.reservedNamed
  case committedOnce =>
    intro conn
    change (ledger.reservationCells ++ _).countP _ = _
    rw [countP_append_singleton]
    exact registered.committedOnce conn
  case retiringOf => exact registered.retiringOf
  case retiredGone => exact registered.retiredGone

theorem Registered.bound
    (found : ledger.reservationCells[ref]? = some reservation)
    (named : (ledger.conns conn).id ≠ "")
    (pending : reservation.state = .pending)
    (notCurrent : ledger.clients.get (ledger.conns conn).id = none)
    (notReserved : ledger.reservations.get (ledger.conns conn).id = none)
    (unused : (ledger.conns conn).added = false)
    (room : ledger.generationCount < ledger.limits.maxClientGenerations) :
    (ledger.bound ref conn).Registered := by
  have written := getElem?_set_eq found
    ⟨some conn, (ledger.conns conn).id, .reserved⟩
  constructor
  case pendingCount =>
    have count := countP_set_eq isOpen found
      ⟨some conn, (ledger.conns conn).id, .reserved⟩
    have before : reservation.isOpen = true := by
      simp [isOpen, pending]
    have after : isOpen
        ⟨some conn, (ledger.conns conn).id, .reserved⟩ = true := by
      simp [isOpen]
    rw [before, after] at count
    change ledger.serverPending = ((ledger.reservationCells.set ref _).countP
      isOpen : Nat)
    rw [registered.pendingCount]
    omega
  case pendingBound => exact registered.pendingBound
  case generationBound =>
    have grown := FiniteMap.size_put_of_absent ref notReserved
    simp only [generationCount] at room
    change ((ledger.reservations.put _ ref).size : Int) + ledger.clients.size +
      ledger.retiring.size ≤ ledger.limits.maxClientGenerations
    omega
  case reservationOf =>
    intro id other lookup
    change (ledger.reservations.put _ ref).get id = some other at lookup
    rw [FiniteMap.get_put] at lookup
    change ∃ conn', (ledger.reservationCells.set ref _)[other]? = _ ∧ _
    split at lookup
    · rename_i same
      cases lookup
      exact ⟨conn, by rw [written, if_pos rfl, same], same.symm, unused⟩
    obtain ⟨otherConn, cell, facts⟩ := registered.reservationOf id other lookup
    refine ⟨otherConn, ?_, facts⟩
    rw [written, if_neg, cell]
    rintro rfl
    rw [found] at cell
    cases cell
    cases pending
  case reservedListed =>
    intro other otherReservation cell reserved
    change (ledger.reservationCells.set ref _)[other]? = _ at cell
    change (ledger.reservations.put _ ref).get _ = _
    rw [written] at cell
    rw [FiniteMap.get_put]
    split at cell
    · rename_i same
      cases cell
      rw [if_pos rfl, same]
    have listed := registered.reservedListed other otherReservation cell
      reserved
    rw [if_neg, listed]
    intro same
    rw [same, notReserved] at listed
    cases listed
  case clientOf => exact registered.clientOf
  case disjoint =>
    intro id other lookup
    change (ledger.reservations.put _ ref).get id = some other at lookup
    rw [FiniteMap.get_put] at lookup
    split at lookup
    · rename_i same
      rw [same]
      exact notCurrent
    · exact registered.disjoint id other lookup
  case reservedNamed =>
    intro id other lookup
    change (ledger.reservations.put _ ref).get id = some other at lookup
    rw [FiniteMap.get_put] at lookup
    split at lookup
    · rename_i same
      rw [same]
      exact named
    · exact registered.reservedNamed id other lookup
  case committedOnce =>
    intro other
    have count := countP_set_eq (hasCommitted other) found
      ⟨some conn, (ledger.conns conn).id, .reserved⟩
    have before : reservation.hasCommitted other = false := by
      simp [hasCommitted, pending]
    have after : hasCommitted other
        ⟨some conn, (ledger.conns conn).id, .reserved⟩ = false := by
      simp [hasCommitted]
    rw [before, after] at count
    exact Nat.add_right_cancel count |>.trans (registered.committedOnce other)
  case retiringOf => exact registered.retiringOf
  case retiredGone => exact registered.retiredGone

end

/-- What closing an open reservation does to the cells: one fewer is open and
the reserved ones are the old ones without it. -/
private theorem close_counts {state : ReservationState}
    (found : ledger.reservationCells[ref]? = some reservation)
    (wasOpen : reservation.isOpen = true)
    (closed : state = .committed ∨ state = .aborted) :
    ((ledger.reservationCells.set ref
        { reservation with state := state }).countP isOpen : Int) + 1 =
      (ledger.reservationCells.countP isOpen : Int) := by
  have count := countP_set_eq isOpen found
    { reservation with state := state }
  have after : isOpen { reservation with state := state } =
      false := by
    rcases closed with rfl | rfl <;> simp [isOpen]
  rw [wasOpen, after, Bool.toNat_true, Bool.toNat_false] at count
  omega

variable (registered : ledger.Registered)

include registered

section

variable (found : ledger.reservationCells[ref]? = some reservation)

include found

theorem Registered.committed (reserved : reservation.state = .reserved)
    (listed : ledger.reservations.get reservation.id = some ref)
    (holds : reservation.conn = some conn)
    (sameID : (ledger.conns conn).id = reservation.id)
    (notCurrent : ledger.clients.get reservation.id = none)
    (unused : (ledger.conns conn).added = false) :
    (ledger.committed ref reservation conn).Registered := by
  have written := getElem?_set_eq found
    { reservation with state := .committed }
  have otherConn : ∀ other, other ≠ conn →
      (ledger.committed ref reservation conn).conns other =
        ledger.conns other := by
    intro other different
    exact update_of_ne different _ _
  have ownConn : (ledger.committed ref reservation conn).conns conn =
      { ledger.conns conn with added := true } := update_self _ _ _
  have anyID : ∀ other,
      ((ledger.committed ref reservation conn).conns other).id =
        (ledger.conns other).id := by
    intro other
    by_cases same : other = conn
    · rw [same, ownConn]
    · rw [otherConn other same]
  constructor
  case pendingCount =>
    have counts := close_counts found (by simp [isOpen, reserved])
      (.inl rfl)
    have before := registered.pendingCount
    change ledger.serverPending - 1 = _
    rw [before, ← counts]
    simp [Ledger.committed]
  case pendingBound =>
    have before := registered.pendingBound
    change ledger.serverPending - 1 ≤ ledger.limits.maxPendingRegistrations
    omega
  case generationBound =>
    have before := registered.generationBound
    have grown := FiniteMap.size_put_of_absent conn notCurrent
    have shrunk := FiniteMap.size_delete_of_present listed
    simp only [generationCount] at before
    change ((ledger.reservations.delete _).size : Int) +
      (ledger.clients.put _ conn).size + ledger.retiring.size ≤
        ledger.limits.maxClientGenerations
    omega
  case reservationOf =>
    intro id other lookup
    have old := FiniteMap.get_of_get_delete lookup
    obtain ⟨held, cell, named, fresh⟩ := registered.reservationOf id other old
    have otherRef : other ≠ ref := by
      rintro rfl
      rw [found] at cell
      cases cell
      exact absurd lookup (by simp [Ledger.committed])
    have otherHeld : held ≠ conn := by
      rintro rfl
      rw [← named, sameID, listed] at old
      exact otherRef (Option.some.inj old).symm
    refine ⟨held, ?_, by rw [anyID, named],
      by rw [otherConn _ otherHeld, fresh]⟩
    change (ledger.reservationCells.set ref _)[other]? = _
    rw [written, if_neg otherRef, cell]
  case reservedListed =>
    intro other otherReservation cell otherReserved
    change (ledger.reservationCells.set ref _)[other]? = _ at cell
    rw [written] at cell
    split at cell
    · cases cell
      cases otherReserved
    rename_i otherRef
    have old := registered.reservedListed other otherReservation cell
      otherReserved
    change (ledger.reservations.delete _).get _ = _
    rw [FiniteMap.get_delete, if_neg, old]
    intro same
    rw [same, listed] at old
    exact otherRef (Option.some.inj old).symm
  case clientOf =>
    intro id client lookup
    change (ledger.clients.put _ conn).get id = some client at lookup
    rw [FiniteMap.get_put] at lookup
    rw [anyID]
    split at lookup
    · rename_i same
      cases lookup
      rw [ownConn, same]
      exact ⟨sameID, registered.reservedNamed _ _ listed, rfl⟩
    obtain ⟨named, nonempty, used⟩ := registered.clientOf id client lookup
    refine ⟨named, nonempty, ?_⟩
    rw [otherConn, used]
    rintro rfl
    rw [unused] at used
    cases used
  case disjoint =>
    intro id other lookup
    change (ledger.reservations.delete _).get id = some other at lookup
    change (ledger.clients.put _ conn).get id = none
    rw [FiniteMap.get_delete] at lookup
    split at lookup
    · cases lookup
    · rename_i different
      rw [FiniteMap.get_put_of_ne _ _ different]
      exact registered.disjoint id other lookup
  case reservedNamed =>
    intro id other lookup
    exact registered.reservedNamed id other (FiniteMap.get_of_get_delete lookup)
  case committedOnce =>
    intro other
    have count := countP_set_eq (hasCommitted other) found
      { reservation with state := .committed }
    have before : reservation.hasCommitted other = false := by
      simp [hasCommitted, reserved]
    rw [before, Bool.toNat_false, Nat.add_zero,
      registered.committedOnce other] at count
    refine count.trans ?_
    by_cases same : other = conn
    · rw [same, ownConn, unused]
      simp [hasCommitted, holds]
    rw [otherConn other same]
    have after : hasCommitted other
        { reservation with state := .committed } = false := by
      simp [hasCommitted, holds, Ne.symm same]
    rw [after, Bool.toNat_false, Nat.add_zero]
  case retiringOf => exact registered.retiringOf
  case retiredGone =>
    intro retirementRef retirement cell
    obtain ⟨used, gone⟩ := registered.retiredGone retirementRef retirement cell
    have different : retirement.conn ≠ conn := by
      intro same
      rw [same, unused] at used
      cases used
    rw [otherConn _ different]
    refine ⟨used, ?_⟩
    rintro ⟨nonempty, lookup⟩
    change (ledger.clients.put _ conn).get _ = _ at lookup
    rw [anyID] at nonempty lookup
    rw [FiniteMap.get_put] at lookup
    split at lookup
    · exact different (Option.some.inj lookup).symm
    · exact gone ⟨nonempty, lookup⟩

private theorem Registered.aborted
    {reservations : FiniteMap String ReservationRef}
    (wasOpen : reservation.isOpen = true)
    (without : ∀ id other, reservations.get id = some other ↔
      ledger.reservations.get id = some other ∧ other ≠ ref)
    (smaller : reservations.size ≤ ledger.reservations.size) :
    Registered { ledger.abortedPending ref reservation with
      reservations := reservations } := by
  have written := getElem?_set_eq found { reservation with state := .aborted }
  constructor
  case pendingCount =>
    have counts := close_counts found wasOpen (.inr rfl)
    have before := registered.pendingCount
    change ledger.serverPending - 1 = _
    rw [before, ← counts]
    simp [Ledger.abortedPending]
  case pendingBound =>
    have before := registered.pendingBound
    change ledger.serverPending - 1 ≤ ledger.limits.maxPendingRegistrations
    omega
  case generationBound =>
    have before := registered.generationBound
    simp only [generationCount] at before
    change (reservations.size : Int) + ledger.clients.size +
      ledger.retiring.size ≤ ledger.limits.maxClientGenerations
    omega
  case reservationOf =>
    intro id other lookup
    obtain ⟨old, different⟩ := (without id other).mp lookup
    obtain ⟨held, cell, facts⟩ := registered.reservationOf id other old
    refine ⟨held, ?_, facts⟩
    change (ledger.reservationCells.set ref _)[other]? = _
    rw [written, if_neg different, cell]
  case reservedListed =>
    intro other otherReservation cell otherReserved
    change (ledger.reservationCells.set ref _)[other]? = _ at cell
    rw [written] at cell
    split at cell
    · cases cell
      cases otherReserved
    · rename_i different
      exact (without _ _).mpr ⟨registered.reservedListed other
        otherReservation cell otherReserved, different⟩
  case clientOf => exact registered.clientOf
  case disjoint =>
    intro id other lookup
    exact registered.disjoint id other ((without id other).mp lookup).1
  case reservedNamed =>
    intro id other lookup
    exact registered.reservedNamed id other ((without id other).mp lookup).1
  case committedOnce =>
    intro other
    have count := countP_set_eq (hasCommitted other) found
      { reservation with state := .aborted }
    have before : reservation.hasCommitted other = false := by
      cases state : reservation.state <;>
        simp_all [hasCommitted, isOpen]
    have after : hasCommitted other
        { reservation with state := .aborted } = false := by
      simp [hasCommitted]
    rw [before, after] at count
    exact (Nat.add_right_cancel count).trans (registered.committedOnce other)
  case retiringOf => exact registered.retiringOf
  case retiredGone => exact registered.retiredGone

theorem Registered.abortedPending (pending : reservation.state = .pending) :
    (ledger.abortedPending ref reservation).Registered := by
  refine registered.aborted found (by simp [isOpen, pending])
    ?_ (Nat.le_refl _)
  intro id other
  refine ⟨fun lookup => ⟨lookup, ?_⟩, And.left⟩
  rintro rfl
  obtain ⟨held, cell, _⟩ := registered.reservationOf id other lookup
  rw [found] at cell
  cases cell
  cases pending

theorem Registered.abortedReserved (reserved : reservation.state = .reserved)
    (listed : ledger.reservations.get reservation.id = some ref) :
    (ledger.abortedReserved ref reservation).Registered := by
  refine registered.aborted found (by simp [isOpen, reserved])
    ?_ (FiniteMap.size_delete_le _ _)
  intro id other
  rw [FiniteMap.get_delete]
  constructor
  · intro lookup
    split at lookup
    · cases lookup
    rename_i different
    refine ⟨lookup, ?_⟩
    rintro rfl
    obtain ⟨held, cell, _⟩ := registered.reservationOf id other lookup
    rw [found] at cell
    cases cell
    exact different rfl
  · rintro ⟨lookup, different⟩
    rw [if_neg, lookup]
    rintro rfl
    rw [listed] at lookup
    exact different (Option.some.inj lookup).symm

end

/-! ## Retirement and leases -/

theorem Registered.retired (current : ledger.Current conn) :
    (ledger.retired conn).Registered := by
  have fresh := getElem?_length_eq_none ledger.retirementCells
  have used := (registered.clientOf _ _ current.2).2.2
  have notRetiring : ledger.retiring.get conn = none := by
    cases lookup : ledger.retiring.get conn with
    | none => rfl
    | some ref =>
      obtain ⟨retirement, cell, same⟩ := registered.retiringOf conn ref lookup
      have gone := (registered.retiredGone ref retirement cell).2
      rw [same] at gone
      exact absurd current gone
  constructor
  case pendingCount => exact registered.pendingCount
  case pendingBound => exact registered.pendingBound
  case generationBound =>
    have before := registered.generationBound
    have shrunk := FiniteMap.size_delete_of_present current.2
    have grown := FiniteMap.size_put_of_absent ledger.retirementCells.length
      notRetiring
    simp only [generationCount] at before
    change (ledger.reservations.size : Int) + (ledger.clients.delete _).size +
      (ledger.retiring.put conn _).size ≤ ledger.limits.maxClientGenerations
    omega
  case reservationOf => exact registered.reservationOf
  case reservedListed => exact registered.reservedListed
  case clientOf =>
    intro id client lookup
    exact registered.clientOf id client (FiniteMap.get_of_get_delete lookup)
  case disjoint =>
    intro id ref lookup
    change (ledger.clients.delete _).get id = none
    rw [FiniteMap.get_delete]
    split
    · rfl
    · exact registered.disjoint id ref lookup
  case reservedNamed => exact registered.reservedNamed
  case committedOnce => exact registered.committedOnce
  case retiringOf =>
    intro other ref lookup
    change (ledger.retiring.put conn _).get other = some ref at lookup
    change ∃ retirement, (ledger.retirementCells ++ _)[ref]? = _ ∧ _
    rw [FiniteMap.get_put] at lookup
    split at lookup
    · rename_i same
      cases lookup
      exact ⟨⟨conn, false⟩, by simp, same.symm⟩
    obtain ⟨retirement, cell, same⟩ := registered.retiringOf other ref lookup
    refine ⟨retirement, ?_, same⟩
    rw [getElem?_append_singleton, if_neg, cell]
    rintro rfl
    rw [fresh] at cell
    cases cell
  case retiredGone =>
    intro ref retirement cell
    rcases cases_append cell with ⟨_, rfl⟩ | cell
    · refine ⟨used, ?_⟩
      rintro ⟨_, lookup⟩
      change (ledger.clients.delete (ledger.conns conn).id).get
        (ledger.conns conn).id = _ at lookup
      simp at lookup
    · obtain ⟨otherUsed, gone⟩ := registered.retiredGone ref retirement cell
      refine ⟨otherUsed, ?_⟩
      rintro ⟨named, lookup⟩
      exact gone ⟨named, FiniteMap.get_of_get_delete lookup⟩

theorem Registered.finalize (conn : ConnRef) :
    (ledger.finalize conn).Registered := by
  unfold Ledger.finalize
  split
  · exact registered
  split
  · exact registered
  split
  · exact registered.of_same (fun _ => rfl) (fun _ => rfl) rfl rfl rfl rfl
      rfl (fun _ => rfl) (fun _ _ => FiniteMap.get_of_get_delete)
      (FiniteMap.size_delete_le _ _)
  · exact registered

theorem Registered.ownerDone {ref : RetirementRef}
    {retirement : RetirementAccount}
    (found : ledger.retirementCells[ref]? = some retirement) :
    (ledger.ownerDone ref retirement).Registered := by
  refine registered.of_same (fun _ => rfl) (fun _ => rfl) rfl rfl rfl rfl rfl
    ?_ (fun _ _ lookup => lookup) (Nat.le_refl _)
  intro other
  change ((ledger.retirementCells.set ref _)[other]?).map _ = _
  rw [getElem?_set_eq found]
  split
  · rename_i same
    rw [same, found]
    rfl
  · rfl

private theorem Registered.counters (conn : ConnRef)
    (leaseCells : List TCPLease)
    (sameID : ∀ account, (write account).id = account.id)
    (sameAdded : ∀ account, (write account).added = account.added) :
    Registered { ledger.updateConn conn write with
      leaseCells := leaseCells } := by
  refine registered.of_same ?_ ?_ rfl rfl rfl rfl rfl (fun _ => rfl)
    (fun _ _ lookup => lookup) (Nat.le_refl _)
  · intro other
    change (Function.update ledger.conns conn _ other).id = _
    by_cases same : other = conn
    · rw [same, update_self, sameID]
    · rw [update_of_ne same]
  · intro other
    change (Function.update ledger.conns conn _ other).added = _
    by_cases same : other = conn
    · rw [same, update_self, sameAdded]
    · rw [update_of_ne same]

private theorem Registered.updateConn (conn : ConnRef)
    (sameID : ∀ account, (write account).id = account.id)
    (sameAdded : ∀ account, (write account).added = account.added) :
    (ledger.updateConn conn write).Registered :=
  registered.counters conn ledger.leaseCells sameID sameAdded

theorem Registered.step {action : Action} (step : ledger.Step action next) :
    next.Registered := by
  cases step with
  | beginPending room => exact registered.begun room
  | bind found named pending notCurrent notReserved unused room =>
    exact registered.bound found named pending notCurrent notReserved unused
      room
  | commit found reserved listed holds sameID notCurrent unused =>
    exact registered.committed found reserved listed holds sameID notCurrent
      unused
  | abortPending found pending => exact registered.abortedPending found pending
  | abortReserved found reserved listed =>
    exact registered.abortedReserved found reserved listed
  | beginRetire current => exact registered.retired current
  | done found _ _ => exact (registered.ownerDone found).finalize _
  | reserveUDP _ _ =>
    apply registered.updateConn
    · intro account
      rfl
    · intro account
      rfl
  | releaseUDP _ =>
    apply Registered.finalize
    apply registered.updateConn
    · intro account
      rfl
    · intro account
      rfl
  | fault _ =>
    exact registered.of_same (fun _ => rfl) (fun _ => rfl) rfl rfl rfl rfl
      rfl (fun _ => rfl) (fun _ _ lookup => lookup) (Nat.le_refl _)
  | lease | activate =>
    apply registered.counters
    · intro account
      rfl
    · intro account
      rfl
  | releasePending | releaseActive =>
    apply Registered.finalize
    apply registered.counters
    · intro account
      rfl
    · intro account
      rfl

end

end Ledger

end QMux.Pool
