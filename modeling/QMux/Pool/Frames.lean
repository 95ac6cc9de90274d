import QMux.Pool.Runs

/-!
# What a pool operation writes

One case analysis over the operations says which record a generation gets and
which of the pool's fields an operation may change.  Everything an operation
leaves alone follows from it.
-/

namespace QMux.Pool

open Support

/-- The operations that publish, retire or mark a generation, unless they are
refused. -/
def Op.MayMark : Op → Prop
  | .commit _ | .beginRetire _ | .markHealthy _ | .markUnhealthy _ => True
  | _ => False

/-- The operations that write a retirement. -/
def Op.Retires : Op → Prop
  | .beginRetire _ | .receiveTCPDrained _ | .done _ | .releaseLease _ => True
  | _ => False

/-- The operation may write to `conn`, which it found as `c`. -/
inductive Op.Writes (c : ClientConn) : Op → ConnRef → ClientConn → Prop where
  | commit {ref : ReservationRef} {conn : ConnRef} :
      Writes c (.commit ref) conn { c with added := true, healthy := true }
  | beginRetire {conn : ConnRef} :
      Writes c (.beginRetire conn) conn { c with healthy := false }
  | reserveUDP {order : List ConnRef} {conn : ConnRef} :
      Writes c (.reserveUDP order) conn
        { c with udpSessions := c.udpSessions + 1 }
  | releaseUDP {conn : ConnRef} :
      Writes c (.releaseUDP conn) conn
        { c with udpSessions := c.udpSessions - 1 }
  | next {ref : AdmissionRef} {conn : ConnRef} :
      Writes c (.next ref) conn { c with tcpPending := c.tcpPending + 1 }
  | commitLease {ref : LeaseRef} {conn : ConnRef} :
      Writes c (.commitLease ref) conn
        { c with
          activeConns := c.activeConns + 1
          tcpActive := c.tcpActive + 1
          totalConns := c.totalConns + 1
          tcpPending := c.tcpPending - 1 }
  | releasePending {ref : LeaseRef} {conn : ConnRef} :
      Writes c (.releaseLease ref) conn
        { c with tcpPending := c.tcpPending - 1 }
  | releaseActive {ref : LeaseRef} {conn : ConnRef} :
      Writes c (.releaseLease ref) conn
        { c with
          activeConns := c.activeConns - 1
          tcpActive := c.tcpActive - 1 }
  | recordStream {conn : ConnRef} {current streamID : Int} :
      Writes c (.compareAndSwapStreamID conn current streamID) conn
        { c with tcpStreamID := streamID }
  | storeTCPOpened {conn : ConnRef} :
      Writes c (.storeTCPOpened conn) conn { c with tcpOpened := true }
  | markHealthy {conn : ConnRef} :
      Writes c (.markHealthy conn) conn { c with healthy := true }
  | markUnhealthy {conn : ConnRef} :
      Writes c (.markUnhealthy conn) conn { c with healthy := false }
  | addActiveConns {conn : ConnRef} {delta : Int} :
      Writes c (.addActiveConns conn delta) conn
        { c with activeConns := c.activeConns + delta }
  | addTotalConns {conn : ConnRef} :
      Writes c (.addTotalConns conn) conn
        { c with totalConns := c.totalConns + 1 }

namespace ConnectionPool

variable {σ : Type*} {p next : ConnectionPool σ} {op : Op}

/-- What the operation may have changed between two pools. -/
structure Frame (op : Op) (p next : ConnectionPool σ) : Prop where
  conns : next.conns = p.conns ∨ ∃ target written,
    op.Writes (p.conns target) target written ∧
      next.conns = Function.update p.conns target written
  limits : next.limits = p.limits
  balancer : next.balancer = p.balancer
  clients : ¬ op.MayMark → next.clients = p.clients
  cached : ¬ op.MayMark → (∀ order, op ≠ .beginTCPAdmission order) →
    next.cachedClients = p.cachedClients
  admissions : (∀ order, op ≠ .beginTCPAdmission order) →
    (∀ ref, op ≠ .next ref) → next.admissionCells = p.admissionCells
  leases : (∀ ref, op ≠ .next ref) → (∀ ref, op ≠ .commitLease ref) →
    (∀ ref, op ≠ .releaseLease ref) → next.leaseCells = p.leaseCells
  retirements : ¬ op.Retires → next.retirementCells = p.retirementCells

theorem Frame.refl : Frame op p p :=
  ⟨.inl rfl, rfl, rfl, fun _ => rfl, fun _ _ => rfl, fun _ _ => rfl,
    fun _ _ _ => rfl, fun _ => rfl⟩

/-- The fields that a frame speaks about, the generations aside. -/
def core (p : ConnectionPool σ) :=
  (p.limits, p.balancer, p.clients, p.cachedClients, p.admissionCells,
    p.leaseCells, p.retirementCells)

theorem Frame.of_core (conns : next.conns = p.conns ∨ ∃ target written,
    op.Writes (p.conns target) target written ∧
      next.conns = Function.update p.conns target written)
    (same : next.core = p.core) : Frame op p next := by
  simp only [core, Prod.mk.injEq] at same
  obtain ⟨limits, balancer, clients, cached, admissions, leases,
    retirements⟩ := same
  exact ⟨conns, limits, balancer, fun _ => clients, fun _ _ => cached,
    fun _ _ => admissions, fun _ _ _ => leases, fun _ => retirements⟩

/-! ## Shared parts -/

theorem signalTCPDrainedLocked_eq (p : ConnectionPool σ)
    (ref : RetirementRef) :
    ∃ cells, p.signalTCPDrainedLocked ref =
      { p with retirementCells := cells } := by
  unfold signalTCPDrainedLocked
  split
  · exact ⟨_, rfl⟩
  · dsimp only
    split
    all_goals exact ⟨_, rfl⟩

theorem finalizeRetirementLocked_eq (p : ConnectionPool σ) (conn : ConnRef) :
    ∃ retiring, p.finalizeRetirementLocked conn =
      { p with retiring := retiring } := by
  unfold finalizeRetirementLocked
  repeat' split
  all_goals exact ⟨_, rfl⟩

theorem finishLease_eq (p : ConnectionPool σ) (ref : LeaseRef)
    (lease : TCPLease) :
    ∃ cells retiring, p.finishLease ref lease = { p with
        leaseCells := p.leaseCells.set ref { lease with state := .released }
        retirementCells := cells
        retiring := retiring } := by
  unfold finishLease
  dsimp only
  split
  · exact ⟨_, finalizeRetirementLocked_eq _ _⟩
  rename_i retirement _
  obtain ⟨cells, signalled⟩ := signalTCPDrainedLocked_eq { p with
    leaseCells := p.leaseCells.set ref { lease with state := .released } }
    retirement
  rw [signalled]
  exact ⟨cells, finalizeRetirementLocked_eq _ _⟩

theorem clientSliceLocked_eq (p : ConnectionPool σ) (order : List ConnRef) :
    ∃ cached, (p.clientSliceLocked order).2 =
      { p with cachedClients := cached } := by
  unfold clientSliceLocked
  split
  all_goals exact ⟨_, rfl⟩

/-! ## Every operation -/

theorem beginTCPAdmission_frame (order : List ConnRef) :
    Frame (.beginTCPAdmission order) p (p.beginTCPAdmission order).2 := by
  obtain ⟨cached, slice⟩ := p.clientSliceLocked_eq order
  unfold beginTCPAdmission
  dsimp only
  rw [slice]
  repeat' split
  all_goals exact ⟨.inl rfl, rfl, rfl, fun _ => rfl,
    fun _ notBegin => absurd rfl (notBegin order),
    fun notBegin => absurd rfl (notBegin order), fun _ _ _ => rfl,
    fun _ => rfl⟩

theorem next_frame (ref : AdmissionRef) :
    Frame (.next ref) p (p.next ref).2 := by
  unfold ConnectionPool.next
  dsimp only
  repeat' split
  all_goals first
    | exact ⟨.inl rfl, rfl, rfl, fun _ => rfl, fun _ _ => rfl,
        fun _ notNext => absurd rfl (notNext ref), fun _ _ _ => rfl,
        fun _ => rfl⟩
    | exact ⟨.inr ⟨_, _, .next, rfl⟩, rfl, rfl, fun _ => rfl, fun _ _ => rfl,
        fun _ notNext => absurd rfl (notNext ref),
        fun notNext => absurd rfl (notNext ref), fun _ => rfl⟩

theorem releaseLease_frame (ref : LeaseRef) :
    Frame (.releaseLease ref) p (p.releaseLease ref).2 := by
  unfold releaseLease
  split
  · exact .refl
  rename_i lease _
  split
  · obtain ⟨cells, retiring, finished⟩ := finishLease_eq
      (p.updateConn lease.conn fun c =>
        { c with tcpPending := c.tcpPending - 1 }) ref lease
    rw [finished]
    exact ⟨.inr ⟨_, _, .releasePending, rfl⟩, rfl,
      rfl, fun _ => rfl, fun _ _ => rfl, fun _ _ => rfl, fun _ _ notRelease =>
      absurd rfl (notRelease ref), fun kept => absurd trivial kept⟩
  · obtain ⟨cells, retiring, finished⟩ := finishLease_eq
      (p.updateConn lease.conn fun c =>
        { c with
          activeConns := c.activeConns - 1
          tcpActive := c.tcpActive - 1 }) ref lease
    rw [finished]
    exact ⟨.inr ⟨_, _, .releaseActive, rfl⟩, rfl,
      rfl, fun _ => rfl, fun _ _ => rfl, fun _ _ => rfl, fun _ _ notRelease =>
      absurd rfl (notRelease ref), fun kept => absurd trivial kept⟩
  · exact .refl

theorem beginRetire_frame (conn : ConnRef) :
    Frame (.beginRetire conn) p (p.beginRetire conn).2 := by
  unfold beginRetire
  split
  · exact .refl
  dsimp only
  obtain ⟨cells, signalled⟩ := signalTCPDrainedLocked_eq _ _
  rw [signalled]
  exact ⟨.inr ⟨_, _, .beginRetire, rfl⟩, rfl, rfl, fun unmarked =>
    absurd trivial unmarked, fun unmarked => absurd trivial unmarked,
    fun _ _ => rfl, fun _ _ _ => rfl, fun kept => absurd trivial kept⟩

theorem done_frame (ref : RetirementRef) :
    Frame (.done ref) p (p.done ref).2 := by
  unfold done
  split
  · exact .refl
  split
  · exact .refl
  dsimp only
  obtain ⟨retiring, finalized⟩ := finalizeRetirementLocked_eq _ _
  rw [finalized]
  exact ⟨.inl rfl, rfl, rfl, fun _ => rfl, fun _ _ => rfl,
    fun _ _ => rfl, fun _ _ _ => rfl, fun kept => absurd trivial kept⟩

theorem apply_frame (p : ConnectionPool σ) (op : Op) :
    Frame op p (p.apply op) := by
  cases op with
  | beginPending =>
    change Frame _ p (p.beginPending).2
    unfold beginPending
    repeat' split
    all_goals exact .of_core (.inl rfl) rfl
  | bind ref conn =>
    change Frame _ p (p.bind ref conn).2
    unfold bind
    dsimp only
    repeat' split
    all_goals exact .of_core (.inl rfl) rfl
  | commit ref =>
    change Frame _ p (p.commit ref).2
    unfold commit
    dsimp only
    repeat' split
    all_goals try exact .refl
    exact ⟨.inr ⟨_, _, .commit, rfl⟩,
      rfl, rfl, fun unmarked => absurd trivial unmarked, fun unmarked =>
      absurd trivial unmarked, fun _ _ => rfl, fun _ _ _ => rfl, fun _ => rfl⟩
  | abort ref =>
    change Frame _ p (p.abort ref).2
    unfold abort
    dsimp only
    repeat' split
    all_goals exact .of_core (.inl rfl) rfl
  | beginRetire conn => exact beginRetire_frame conn
  | receiveTCPDrained ref =>
    change Frame _ p (p.receiveTCPDrained ref).2
    unfold receiveTCPDrained
    repeat' split
    all_goals exact ⟨.inl rfl, rfl, rfl, fun _ => rfl, fun _ _ => rfl,
      fun _ _ => rfl, fun _ _ _ => rfl, fun kept => absurd trivial kept⟩
  | done ref => exact done_frame ref
  | reserveUDP order =>
    change Frame _ p (p.reserveUDP order).2
    unfold reserveUDP
    dsimp only
    repeat' split
    all_goals first
      | exact .of_core (.inl rfl) rfl
      | exact .of_core (.inr ⟨_, _, .reserveUDP, rfl⟩) rfl
  | releaseUDP conn =>
    change Frame _ p (p.releaseUDP conn).2
    unfold releaseUDP
    split
    · exact .of_core (.inl rfl) rfl
    dsimp only
    obtain ⟨retiring, finalized⟩ := finalizeRetirementLocked_eq
      (p.updateConn conn fun c =>
        { c with udpSessions := c.udpSessions - 1 }) conn
    rw [finalized]
    exact .of_core (.inr ⟨_, _, .releaseUDP, rfl⟩) rfl
  | beginTCPAdmission order => exact beginTCPAdmission_frame order
  | next ref => exact next_frame ref
  | commitLease ref =>
    change Frame _ p (p.commitLease ref).2
    unfold commitLease
    dsimp only
    repeat' split
    all_goals try exact .refl
    exact ⟨.inr ⟨_, _, .commitLease, rfl⟩, rfl, rfl, fun _ => rfl,
      fun _ _ => rfl, fun _ _ => rfl,
      fun _ notCommit => absurd rfl (notCommit ref), fun _ => rfl⟩
  | releaseLease ref => exact releaseLease_frame ref
  | compareAndSwapStreamID conn current streamID =>
    change Frame _ p (p.compareAndSwapStreamID conn current streamID).2
    unfold compareAndSwapStreamID
    split
    · exact .of_core (.inr ⟨_, _, .recordStream, rfl⟩) rfl
    · exact .refl
  | storeTCPOpened conn =>
    exact .of_core (.inr ⟨_, _, .storeTCPOpened, rfl⟩) rfl
  | markHealthy conn =>
    change Frame _ p (p.markHealthy conn).2
    unfold markHealthy
    split
    · exact .refl
    · exact ⟨.inr ⟨_, _, .markHealthy, rfl⟩, rfl, rfl, fun _ => rfl,
        fun unmarked => absurd trivial unmarked, fun _ _ => rfl,
        fun _ _ _ => rfl, fun _ => rfl⟩
  | markUnhealthy conn =>
    change Frame _ p (p.markUnhealthy conn).2
    unfold markUnhealthy
    split
    · exact .refl
    · exact ⟨.inr ⟨_, _, .markUnhealthy, rfl⟩, rfl, rfl, fun _ => rfl,
        fun unmarked => absurd trivial unmarked, fun _ _ => rfl,
        fun _ _ _ => rfl, fun _ => rfl⟩
  | addActiveConns conn delta =>
    exact .of_core (.inr ⟨_, _, .addActiveConns, rfl⟩) rfl
  | addTotalConns conn =>
    exact .of_core (.inr ⟨_, _, .addTotalConns, rfl⟩) rfl

theorem apply_view {β : Type*} (view : ClientConn → β) {conn : ConnRef}
    (kept : ∀ written, op.Writes (p.conns conn) conn written →
      view written = view (p.conns conn)) :
    view ((p.apply op).conns conn) = view (p.conns conn) := by
  rcases (p.apply_frame op).conns with same | ⟨target, written, writes, now⟩
  · rw [same]
  rw [now]
  by_cases here : conn = target
  · subst here
    rw [Function.update_self]
    exact kept written writes
  · rw [Function.update_of_ne here]

end ConnectionPool

end QMux.Pool
