import QMux.Pool.Frames

/-!
# Membership and the client cache

Which operations write the membership of the pool or the health of a
generation, what all others leave alone, and that the cached slice of
clients is a permutation of the clients whenever it is set.
-/

namespace QMux.Pool

open Support

/-- What selection reads of a generation apart from its counters. -/
def ClientConn.profile (conn : ClientConn) : String × List String × Bool :=
  (conn.id, conn.capabilities, conn.healthy)

theorem isEligible_of_profile {left right : ClientConn}
    (same : left.profile = right.profile) (protocol : Protocol) :
    isEligible left protocol = isEligible right protocol := by
  obtain ⟨_, rest⟩ := Prod.mk.inj same
  obtain ⟨capabilities, healthy⟩ := Prod.mk.inj rest
  unfold isEligible
  rw [capabilities, healthy]

namespace ConnectionPool

variable {σ : Type*} {p : ConnectionPool σ}

/-! ## Steps that keep the membership -/

/-- The step writes neither the clients nor what selection reads of them. -/
structure Steady (p next : ConnectionPool σ) : Prop where
  clients : next.clients = p.clients
  limits : next.limits = p.limits
  balancer : next.balancer = p.balancer
  profiles : ∀ conn, (next.conns conn).profile = (p.conns conn).profile

theorem Steady.refl : p.Steady p := ⟨rfl, rfl, rfl, fun _ => rfl⟩

theorem Steady.trans {middle last : ConnectionPool σ}
    (first : p.Steady middle) (second : middle.Steady last) :
    p.Steady last where
  clients := second.clients.trans first.clients
  limits := second.limits.trans first.limits
  balancer := second.balancer.trans first.balancer
  profiles conn := (second.profiles conn).trans (first.profiles conn)

variable {next : ConnectionPool σ} {op : Op}

theorem Steady.isCurrentLocked (steady : p.Steady next) (conn : ConnRef) :
    next.isCurrentLocked conn = p.isCurrentLocked conn := by
  have id := (Prod.mk.inj (steady.profiles conn)).1
  unfold ConnectionPool.isCurrentLocked
  rw [id, steady.clients]

theorem Steady.isTCPCandidate (steady : p.Steady next) (conn : ConnRef) :
    next.isTCPCandidate conn = p.isTCPCandidate conn := by
  unfold ConnectionPool.isTCPCandidate isCurrentEligible
  rw [steady.isCurrentLocked, isEligible_of_profile (steady.profiles conn)]

theorem Steady.eligible (steady : p.Steady next) (protocol : Protocol)
    (conns : List ConnRef) :
    (conns.filter fun conn => isEligible (next.conns conn) protocol) =
      conns.filter fun conn => isEligible (p.conns conn) protocol := by
  congr 1
  funext conn
  exact isEligible_of_profile (steady.profiles conn) protocol

theorem clientSliceLocked_cases (order : List ConnRef) :
    (∃ cached, p.cachedClients = some cached ∧
      p.clientSliceLocked order = (cached, p)) ∨
    (p.cachedClients = none ∧ p.clientSliceLocked order =
      (order, { p with cachedClients := some order })) := by
  unfold clientSliceLocked
  cases cached : p.cachedClients with
  | none => exact .inr ⟨rfl, rfl⟩
  | some clients => exact .inl ⟨clients, rfl, rfl⟩

/-- The call publishes, retires or marks a generation: it is not refused. -/
def Marks (p : ConnectionPool σ) : Op → Prop
  | .commit ref => (p.commit ref).1 = .ok ()
  | .beginRetire conn => (p.beginRetire conn).1 ≠ none
  | .markHealthy conn => (p.markHealthy conn).1 = true
  | .markUnhealthy conn => (p.markUnhealthy conn).1 = true
  | _ => False

instance (op : Op) : Decidable (p.Marks op) := by
  apply @Op.casesOn (fun op => Decidable (p.Marks op)) op <;>
    dsimp only [Marks] <;> infer_instance

theorem mayMark_of_marks (marks : p.Marks op) : op.MayMark := by
  cases op with
  | commit | beginRetire | markHealthy | markUnhealthy => trivial
  | _ => exact marks.elim

theorem apply_mayMark (marks : op.MayMark) :
    p.Marks op ∧ (p.apply op).cachedClients = none ∨
      ¬ p.Marks op ∧ p.apply op = p := by
  cases op with
  | commit ref =>
    change (p.commit ref).1 = .ok () ∧ (p.commit ref).2.cachedClients = none ∨
      (p.commit ref).1 ≠ .ok () ∧ (p.commit ref).2 = p
    unfold commit
    split
    · exact .inr ⟨by simp, rfl⟩
    · repeat' split
      all_goals first
        | exact .inr ⟨by simp, rfl⟩
        | exact .inl ⟨rfl, rfl⟩
  | beginRetire conn =>
    change (p.beginRetire conn).1 ≠ none ∧
        (p.beginRetire conn).2.cachedClients = none ∨
      ¬ (p.beginRetire conn).1 ≠ none ∧ (p.beginRetire conn).2 = p
    unfold beginRetire
    split
    · exact .inr ⟨fun retires => retires rfl, rfl⟩
    · dsimp only
      obtain ⟨cells, signalled⟩ := signalTCPDrainedLocked_eq _ _
      exact .inl ⟨by simp, by rw [signalled]⟩
  | markHealthy conn =>
    change (p.markHealthy conn).1 = true ∧
        (p.markHealthy conn).2.cachedClients = none ∨
      ¬ (p.markHealthy conn).1 = true ∧ (p.markHealthy conn).2 = p
    unfold markHealthy
    split
    · exact .inr ⟨by simp, rfl⟩
    · exact .inl ⟨rfl, rfl⟩
  | markUnhealthy conn =>
    change (p.markUnhealthy conn).1 = true ∧
        (p.markUnhealthy conn).2.cachedClients = none ∨
      ¬ (p.markUnhealthy conn).1 = true ∧ (p.markUnhealthy conn).2 = p
    unfold markUnhealthy
    split
    · exact .inr ⟨by simp, rfl⟩
    · exact .inl ⟨rfl, rfl⟩
  | _ => exact marks.elim

theorem apply_unmarked (unmarked : ¬ p.Marks op) :
    p.apply op = p ∨ ¬ op.MayMark := by
  by_cases may : op.MayMark
  · rcases p.apply_mayMark may with ⟨marks, _⟩ | ⟨_, same⟩
    · exact absurd marks unmarked
    · exact .inl same
  · exact .inr may

theorem apply_steady (unmarked : ¬ p.Marks op) : p.Steady (p.apply op) := by
  rcases p.apply_unmarked unmarked with same | other
  · rw [same]
    exact .refl
  have frame := p.apply_frame op
  refine ⟨frame.clients other, frame.limits, frame.balancer, ?_⟩
  intro conn
  apply apply_view ClientConn.profile
  intro written writes
  cases writes with
  | commit | beginRetire | markHealthy | markUnhealthy =>
    exact absurd trivial other
  | _ => rfl

theorem beginTCPAdmission_steady (order : List ConnRef) :
    p.Steady (p.beginTCPAdmission order).2 :=
  show p.Steady (p.apply (.beginTCPAdmission order)) from apply_steady id

theorem beginTCPAdmission_cached (order : List ConnRef) :
    (p.beginTCPAdmission order).2.cachedClients = p.cachedClients ∨
      p.cachedClients = none ∧
        (p.beginTCPAdmission order).2.cachedClients = some order := by
  have slice : (p.clientSliceLocked order).2.cachedClients =
      p.cachedClients ∨ p.cachedClients = none ∧
        (p.clientSliceLocked order).2.cachedClients = some order := by
    rcases p.clientSliceLocked_cases order with ⟨_, _, same⟩ | ⟨none, same⟩
    · rw [same]
      exact .inl rfl
    · rw [same]
      exact .inr ⟨none, rfl⟩
  unfold beginTCPAdmission
  dsimp only
  repeat' split
  · exact .inl rfl
  · exact .inl rfl
  · exact slice
  · exact slice

theorem apply_cached (unmarked : ¬ p.Marks op) :
    (p.apply op).cachedClients = p.cachedClients ∨
      p.cachedClients = none ∧ ∃ order, op = .beginTCPAdmission order ∧
        (p.apply op).cachedClients = some order := by
  rcases p.apply_unmarked unmarked with same | other
  · rw [same]
    exact .inl rfl
  by_cases begins : ∃ order, op = .beginTCPAdmission order
  · obtain ⟨order, rfl⟩ := begins
    rcases p.beginTCPAdmission_cached order with same | ⟨none, set⟩
    · exact .inl same
    · exact .inr ⟨none, order, rfl, set⟩
  · push Not at begins
    exact .inl ((p.apply_frame op).cached other begins)

theorem apply_cached_some (unmarked : ¬ p.Marks op) {cached : List ConnRef}
    (set : p.cachedClients = some cached) :
    (p.apply op).cachedClients = some cached := by
  rcases p.apply_cached unmarked with same | ⟨none, _⟩
  · exact same.trans set
  · rw [set] at none
    cases none

/-- An admission starts with the eligible generations of the cached slice. -/
theorem beginTCPAdmission_cases (order : List ConnRef) :
    (p.beginTCPAdmission order).2.admissionCells = p.admissionCells ∧
      (∀ ref, (p.beginTCPAdmission order).1 ≠ .ok ref) ∨
    (p.beginTCPAdmission order).1 = .ok p.admissionCells.length ∧
      ∃ cached, (p.beginTCPAdmission order).2.cachedClients = some cached ∧
        (p.cachedClients = some cached ∨
          p.cachedClients = none ∧ cached = order) ∧
        (p.beginTCPAdmission order).2.admissionCells = p.admissionCells ++
          [⟨cached.filter fun conn => isEligible (p.conns conn) .tcp,
            0, false, none⟩] := by
  unfold beginTCPAdmission
  split
  · exact .inl ⟨rfl, by simp⟩
  split
  · exact .inl ⟨rfl, by simp⟩
  rcases p.clientSliceLocked_cases order with
    ⟨cached, set, same⟩ | ⟨unset, same⟩
  · rw [same]
    dsimp only
    split
    · exact .inl ⟨rfl, by simp⟩
    · exact .inr ⟨rfl, cached, set, .inl set, rfl⟩
  · rw [same]
    dsimp only
    split
    · exact .inl ⟨rfl, by simp⟩
    · exact .inr ⟨rfl, order, rfl, .inr ⟨unset, rfl⟩, rfl⟩

/-! ## The cache in every run -/

/-- A cache that is set is a permutation of the clients. -/
def Coherent (p : ConnectionPool σ) : Prop :=
  ∀ cached, p.cachedClients = some cached → p.IterationOrder cached

theorem Coherent.apply (coherent : p.Coherent) (enabled : p.Enabled op) :
    (p.apply op).Coherent := by
  intro cached set
  by_cases marks : p.Marks op
  · have dropped : (p.apply op).cachedClients = none := by
      rcases p.apply_mayMark (mayMark_of_marks marks) with
        ⟨_, dropped⟩ | ⟨refused, _⟩
      · exact dropped
      · exact absurd marks refused
    rw [dropped] at set
    cases set
  · have clients := (p.apply_steady marks).clients
    unfold IterationOrder
    rw [clients]
    rcases p.apply_cached marks with same | ⟨_, order, rfl, fresh⟩
    · exact coherent cached (same.symm.trans set)
    · cases fresh.symm.trans set
      exact enabled

theorem coherent_of_reachable (reachable : (runs σ).Reachable p) :
    p.Coherent := by
  induction reachable with
  | start fresh =>
    obtain ⟨_, _, _, _, _, rfl⟩ := fresh
    intro cached set
    cases set
  | next _ step coherent =>
    obtain ⟨op, enabled, rfl⟩ := step
    exact coherent.apply enabled

/-- A client is listed under its own name only. -/
theorem nodup_of_iterationOrder (reachable : (runs σ).Reachable p)
    {order : List ConnRef} (iteration : p.IterationOrder order) :
    order.Nodup := by
  have registered := registered_of_reachable reachable
  rw [← Multiset.coe_nodup, show (order : Multiset ConnRef) = p.clients.values
    from iteration]
  apply FiniteMap.nodup_values
  intro id other conn found foundToo
  have named := (registered.clientOf id conn found).1
  exact named.symm.trans (registered.clientOf other conn foundToo).1

end ConnectionPool

end QMux.Pool
