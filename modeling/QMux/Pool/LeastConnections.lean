import Mathlib.Data.List.MinMax
import QMux.Pool.Fairness

/-!
# Least connections

The balancer selects a generation whose load, when it is read, is minimal
among the loads it reads, and the first lease of an admission is on that
generation.  UDP sessions are counted in `ActiveConns` outside the pool's
mutex, so the loads of one scan may be read at different times.  A greedy
choice keeps loads that were equal within one of each other, unless one
generation reaches its limits before another.
-/

namespace QMux.Pool

open Support

/-- The counters that loads and limits are computed from. -/
def ClientConn.counters (conn : ClientConn) : Int × Int × Int :=
  (conn.tcpPending, conn.tcpActive, conn.activeConns)

namespace ConnectionPool

/-! ## One selection -/

variable {conns : ConnRef → ClientConn} {candidates : List ConnRef}
  {conn : ConnRef} {scanned : List (ConnRef × ClientConn)}

theorem leastConnectionsScan_eq
    (healthy : ∀ read ∈ scanned, read.2.healthy = true)
    (selected : Option (ConnRef × ClientConn)) :
    leastConnectionsScan scanned
        (selected.map fun read => (read.1, read.2.load)) =
      (scanned.foldl (List.argAux fun left right => left.2.load < right.2.load)
        selected).map fun read => (read.1, read.2.load) := by
  induction scanned generalizing selected with
  | nil => rfl
  | cons head tail ih =>
    have later := ih fun read member => healthy read (.tail _ member)
    have alive : head.2.healthy ≠ false := by
      simp [healthy head List.mem_cons_self]
    unfold leastConnectionsScan
    rw [if_neg alive, List.foldl_cons]
    cases selected with
    | none => exact later (some head)
    | some least =>
      dsimp only [Option.map_some, List.argAux, Option.casesOn]
      split
      · exact later (some head)
      · exact later (some least)

theorem leastConnectionsSelect_least (nonempty : scanned ≠ [])
    (healthy : ∀ read ∈ scanned, read.2.healthy = true) :
    ∃ read ∈ scanned, leastConnectionsSelect scanned = .ok read.1 ∧
      ∀ other ∈ scanned, read.2.load ≤ other.2.load := by
  obtain ⟨read, least⟩ : ∃ read, scanned.argmin (fun read => read.2.load) =
      some read := by
    apply Option.ne_none_iff_exists'.mp
    rw [Ne, List.argmin_eq_none]
    exact nonempty
  have member := List.argmin_mem least
  refine ⟨read, member, ?_, fun other listed => List.le_of_mem_argmin
    (f := fun read : ConnRef × ClientConn => read.2.load) listed least⟩
  have scan : leastConnectionsScan scanned none =
      some (read.1, read.2.load) := by
    have folded := leastConnectionsScan_eq healthy none
    rw [show scanned.foldl _ none = some read from least] at folded
    exact folded
  unfold leastConnectionsSelect
  rw [if_neg (by simpa using nonempty), scan]

/-! ## Counting of UDP sessions -/

/-- What is added to `ActiveConns` before each read of a scan. -/
abbrev Counting := List (List (ConnRef × Int))

/-- The UDP sessions of the handlers are counted, one after the other. -/
def counted {σ : Type*} (p : ConnectionPool σ)
    (adds : List (ConnRef × Int)) : ConnectionPool σ :=
  adds.foldl (fun p add => p.addActiveConns add.1 add.2) p

/-- What the scan reads of the clients while sessions are counted. -/
def reads (p : ConnectionPool Unit) (counting : Counting)
    (clients : List ConnRef) : List (ConnRef × ClientConn) :=
  clients.mapIdx fun i client =>
    (client, (p.counted (counting.take (i + 1)).flatten).conns client)

/-- The pool as an operation meets it: its selection reads the counters while
sessions are counted. -/
def during (p : ConnectionPool Unit) (counting : Counting) :
    ConnectionPool Unit :=
  { p with
    balancer := ⟨fun _ _ clients =>
      (leastConnectionsSelect (p.reads counting clients), ())⟩ }

/-- An operation while sessions are counted. -/
def applyDuring (p : ConnectionPool Unit) (op : Op) (counting : Counting) :
    ConnectionPool Unit :=
  { ((p.during counting).apply op).counted counting.flatten with
    balancer := p.balancer }

/-- All runs of a pool with the least-connections balancer. -/
def countingRuns : TransitionSystem (ConnectionPool Unit) where
  initial p := p.Fresh ∧ p.balancer = leastConnectionsBalancer
  step p next := ∃ op counting, p.Enabled op ∧ next = p.applyDuring op counting

section Counting

variable {p : ConnectionPool Unit} {counting : Counting}

theorem counted_eq {σ : Type*} (p : ConnectionPool σ)
    (adds : List (ConnRef × Int)) :
    p.counted adds = { p with conns := (p.counted adds).conns } := by
  induction adds generalizing p with
  | nil => rfl
  | cons add rest ih => exact ih (p.addActiveConns add.1 add.2)

theorem counted_healthy {σ : Type*} (p : ConnectionPool σ)
    (adds : List (ConnRef × Int)) :
    ((p.counted adds).conns conn).healthy = (p.conns conn).healthy := by
  induction adds generalizing p with
  | nil => rfl
  | cons add rest ih =>
    apply (ih (p.addActiveConns add.1 add.2)).trans
    dsimp only [addActiveConns, updateConn]
    rw [Function.update_apply]
    split
    · rename_i here
      rw [here]
    · rfl

theorem counted_conns {σ : Type*} (p : ConnectionPool σ)
    {adds : List (ConnRef × Int)} (outside : ∀ add ∈ adds, add.1 ≠ conn) :
    (p.counted adds).conns conn = p.conns conn := by
  induction adds generalizing p with
  | nil => rfl
  | cons add rest ih =>
    obtain ⟨here, later⟩ := List.forall_mem_cons.mp outside
    apply (ih (p.addActiveConns add.1 add.2) later).trans
    exact Function.update_of_ne here.symm _ _

theorem coherent_of_counting (reachable : countingRuns.Reachable p) :
    p.Coherent := by
  apply reachable.invariant
  · rintro p ⟨⟨_, _, _, _, _, rfl⟩, _⟩
    exact nofun
  · rintro p _ _ coherent ⟨op, counting, enabled, rfl⟩
    have after : ((p.during counting).apply op).Coherent := by
      apply Coherent.apply (show (p.during counting).Coherent from coherent)
      cases op <;> exact enabled
    intro cached set
    unfold applyDuring at set ⊢
    rw [counted_eq] at set ⊢
    exact after cached set

end Counting

/-! ## The first lease of an admission -/

/-- The generation can be leased now. -/
def Leasable {σ : Type*} (p : ConnectionPool σ) (conn : ConnRef) : Prop :=
  p.isTCPCandidate conn = true ∧ p.tcpCapacityErrorLocked conn = none

instance {σ : Type*} (p : ConnectionPool σ) (conn : ConnRef) :
    Decidable (p.Leasable conn) :=
  inferInstanceAs (Decidable (_ ∧ _))

theorem mem_offered_iff {σ : Type*} {p : ConnectionPool σ} :
    conn ∈ p.offered candidates ↔ conn ∈ candidates ∧ p.Leasable conn := by
  unfold offered Leasable
  rw [List.mem_filter, Bool.and_eq_true_iff, Option.isNone_iff_eq_none]

variable {p : ConnectionPool Unit} {admission : TCPAdmission}

/-- Among the loads read of the candidates that can be leased, that of `conn`
is minimal. -/
def ReadLeast (p : ConnectionPool Unit) (counting : Counting)
    (candidates : List ConnRef) (conn : ConnRef) : Prop :=
  ∃ read ∈ p.reads counting (p.offered candidates), read.1 = conn ∧
    ∀ other ∈ p.reads counting (p.offered candidates),
      read.2.load ≤ other.2.load

variable {counting : Counting}

theorem select_readLeast (p : ConnectionPool Unit) (counting : Counting)
    (some_ : p.offered candidates ≠ []) :
    ∃ selected ∈ p.offered candidates,
      leastConnectionsSelect (p.reads counting (p.offered candidates)) =
        .ok selected ∧ p.ReadLeast counting candidates selected := by
  have nonempty : p.reads counting (p.offered candidates) ≠ [] := by
    unfold reads
    simpa using some_
  have there : ∀ read ∈ p.reads counting (p.offered candidates),
      read.1 ∈ p.offered candidates ∧ read.2.healthy = true := by
    intro read member
    obtain ⟨i, inside, rfl⟩ := List.mem_mapIdx.mp member
    have offers : (p.offered candidates)[i] ∈ p.offered candidates :=
      List.getElem_mem inside
    refine ⟨offers, ?_⟩
    dsimp only
    rw [counted_healthy]
    have candidate := (mem_offered_iff.mp offers).2.1
    have eligible := (Bool.and_eq_true_iff.mp candidate).2
    exact (Bool.and_eq_true_iff.mp eligible).1
  obtain ⟨read, member, selects, least⟩ := leastConnectionsSelect_least
    nonempty fun read member => (there read member).2
  exact ⟨read.1, (there read member).1, selects, read, member, rfl, least⟩

/-- Of generations whose sessions are not counted during the call, the load of
the chosen one is minimal. -/
theorem ReadLeast.load_le (chosen : p.ReadLeast counting candidates conn)
    {other : ConnRef} (listed : other ∈ candidates)
    (leasable : p.Leasable other)
    (outside : ∀ add ∈ counting.flatten, add.1 ≠ conn ∧ add.1 ≠ other) :
    (p.conns conn).load ≤ (p.conns other).load := by
  have early : ∀ {count add}, add ∈ (counting.take count).flatten →
      add.1 ≠ conn ∧ add.1 ≠ other := by
    intro count add member
    obtain ⟨adds, taken, inside⟩ := List.mem_flatten.mp member
    exact outside add
      (List.mem_flatten.mpr ⟨adds, List.mem_of_mem_take taken, inside⟩)
  obtain ⟨read, member, rfl, least⟩ := chosen
  obtain ⟨i, inside, rfl⟩ := List.mem_mapIdx.mp member
  obtain ⟨j, bound, rfl⟩ := List.getElem_of_mem
    (mem_offered_iff.mpr ⟨listed, leasable⟩)
  have minimal := least _ (List.mem_mapIdx.mpr ⟨j, bound, rfl⟩)
  dsimp only at minimal early ⊢
  rw [counted_conns p fun add member => (early member).1,
    counted_conns p fun add member => (early member).2] at minimal
  exact minimal

/-- No lease has been taken: the balancer has not been asked, or there is
nothing left. -/
structure Unleased (admission : TCPAdmission) : Prop where
  clean : admission.balanceErr = none
  untouched : admission.balanced = false ∧ admission.next = 0 ∨
    admission.balanced = true ∧ admission.candidates.length ≤ admission.next

variable {ref : AdmissionRef}

theorem Unleased.next_none (unleased : Unleased admission)
    (found : p.admissionCells[ref]? = some admission)
    (kept : (p.balance admission).1 = { admission with balanced := true })
    (nothing : ∀ conn ∈ admission.candidates.drop admission.next,
      ¬ p.Leasable conn) :
    p.leased ref = none ∧ ∃ after,
      (p.next ref).2.admissionCells[ref]? = some after ∧ Unleased after ∧
      after.candidates = admission.candidates := by
  have inside : ref < p.admissionCells.length :=
    (List.getElem?_eq_some_iff.mp found).1
  rcases p.next_eq found with ⟨_, outcome⟩ | ⟨failure, failed, _⟩ |
    ⟨_, _, cells, ⟨conn, stops, _⟩ | ⟨ends, outcome⟩⟩
  · refine ⟨leased_none (by simp [outcome]), admission, ?_, unleased, rfl⟩
    rw [outcome]
    exact found
  · rw [kept] at failed
    cases unleased.clean.symm.trans failed
  · obtain ⟨member, candidate, room⟩ := walk_conn stops
    rw [kept] at member
    exact absurd ⟨candidate, room⟩ (nothing conn member)
  · obtain ⟨count, _⟩ := walk_none ends
    have refuses : ∀ lease, (p.next ref).1 ≠ .ok (some lease) := by
      rw [outcome]
      rcases p.report_cases ((p.balance admission).1.candidates.drop
        (p.balance admission).1.next) with none | connection | setup
      · simp [none]
      · simp [connection]
      · simp [setup]
    refine ⟨leased_none refuses, _, by
      rw [cells]
      exact List.getElem?_set_self inside, ?_⟩
    rw [count, kept]
    refine ⟨⟨unleased.clean, .inr ⟨rfl, ?_⟩⟩, rfl⟩
    dsimp only
    rw [List.length_drop]
    omega

theorem Unleased.next (found : p.admissionCells[ref]? = some admission)
    (unleased : Unleased admission) (counting : Counting) :
    (∃ conn, (p.during counting).leased ref = some conn ∧
      conn ∈ admission.candidates ∧ p.Leasable conn ∧
      p.ReadLeast counting admission.candidates conn) ∨
    ((p.during counting).leased ref = none ∧ ∃ after,
      ((p.during counting).next ref).2.admissionCells[ref]? = some after ∧
      Unleased after ∧ after.candidates = admission.candidates) := by
  have found : (p.during counting).admissionCells[ref]? = some admission :=
    found
  by_cases fault : p.accountingFaults ≠ 0
  · right
    have outcome : (p.during counting).next ref =
        (.error .accountingFault, p.during counting) := by
      unfold ConnectionPool.next
      rw [found]
      exact if_pos fault
    refine ⟨leased_none (by simp [outcome]), admission, ?_, unleased, rfl⟩
    rw [outcome]
    exact found
  rcases unleased.untouched with ⟨unbalanced, first⟩ | ⟨balanced, exhausted⟩
  · by_cases none_ : p.offered admission.candidates = []
    · right
      apply unleased.next_none found
      · have empty : ((p.during counting).offered
            admission.candidates).length = 0 :=
          List.length_eq_zero_iff.mpr none_
        unfold offered at empty
        unfold balance
        rw [unbalanced, if_neg (by simp)]
        dsimp only
        rw [if_pos empty]
      · intro conn member leasable
        have offers : conn ∈ p.offered admission.candidates :=
          mem_offered_iff.mpr ⟨List.mem_of_mem_drop member, leasable⟩
        rw [none_] at offers
        cases offers
    · left
      obtain ⟨selected, member, answers, least⟩ :=
        p.select_readLeast counting none_
      obtain ⟨listed, leasable⟩ := mem_offered_iff.mp member
      exact ⟨selected, (leased_first found unbalanced first unleased.clean
        (not_not.mp fault) (congrArg (·, ()) answers) member).1, listed,
        leasable, least⟩
  · right
    apply unleased.next_none found
    · unfold balance
      rw [if_pos balanced, ← balanced]
    · intro conn member
      rw [List.drop_eq_nil_of_le exhausted] at member
      cases member

theorem next_conns {σ : Type*} {p : ConnectionPool σ} (ref : AdmissionRef) :
    (∃ conn, p.leased ref = some conn ∧ (p.next ref).2.conns =
      Function.update p.conns conn { p.conns conn with
        tcpPending := (p.conns conn).tcpPending + 1 }) ∨
    (p.next ref).2.conns = p.conns := by
  cases outcome : p.next ref with
  | mk result later =>
    have returned := outcome
    unfold next at returned
    dsimp only at returned
    repeat' split at returned
    all_goals cases returned
    all_goals try exact .inr rfl
    refine .inl ⟨_, ?_, rfl⟩
    unfold leased
    rw [outcome]
    exact congrArg (Option.map TCPLease.conn) List.getElem?_concat_length

/-- Loads that are within one of each other. -/
def Even (p : ConnectionPool Unit) (group : List ConnRef) : Prop :=
  ∀ left ∈ group, ∀ right ∈ group,
    (p.conns left).load ≤ (p.conns right).load + 1

theorem Even.next {group : List ConnRef} (even : p.Even group)
    (least : ∀ conn, p.leased ref = some conn → conn ∈ group →
      ∀ other ∈ group, (p.conns conn).load ≤ (p.conns other).load) :
    (p.next ref).2.Even group := by
  intro left member right other
  have before := even left member right other
  rcases p.next_conns ref with ⟨conn, leases, conns⟩ | conns
  · have load : ∀ each, ((p.next ref).2.conns each).load =
        (p.conns each).load + if each = conn then 1 else 0 := by
      intro each
      rw [conns, Function.update_apply]
      split
      · rename_i here
        subst here
        unfold ClientConn.load
        dsimp only
        omega
      · omega
    rw [load, load]
    by_cases here : left = conn
    · have minimal := least conn leases (here ▸ member) right other
      rw [here]
      split <;> split <;> omega
    · rw [if_neg here]
      split <;> omega
  · rw [conns]
    exact before

theorem mem_slice_of_candidate {σ : Type*} {p q : ConnectionPool σ}
    {cached : List ConnRef} (ordered : q.IterationOrder cached)
    (before : p.isTCPCandidate conn = true)
    (after : q.isTCPCandidate conn = true) :
    conn ∈ cached.filter fun conn => isEligible (p.conns conn) .tcp := by
  obtain ⟨current, _⟩ := Bool.and_eq_true_iff.mp after
  refine List.mem_filter.mpr ⟨?_, (Bool.and_eq_true_iff.mp before).2⟩
  have listed : conn ∈ q.clients.values :=
    FiniteMap.mem_values_iff.mpr ⟨_, (of_decide_eq_true current).2⟩
  rw [← show (cached : Multiset ConnRef) = q.clients.values
    from ordered] at listed
  exact listed

/-- A run, each operation with what is counted meanwhile, throughout which the
generations of the group are current and eligible. -/
structure GroupRun (p : Nat → ConnectionPool Unit) (turn : Nat → Op × Counting)
    (stop : Nat) (group : List ConnRef) : Prop where
  start : countingRuns.Reachable (p 0)
  step : ∀ i, i < stop → (p i).Enabled (turn i).1 ∧
    p (i + 1) = (p i).applyDuring (turn i).1 (turn i).2
  current : ∀ i, i ≤ stop → ∀ conn ∈ group, (p i).isTCPCandidate conn = true

/-- The first call of an admission that has begun in the run, during which no
session of the group is counted. -/
structure GroupCall (p : Nat → ConnectionPool Unit) (turn : Nat → Op × Counting)
    (group : List ConnRef) (i : Nat) (ref : AdmissionRef) : Prop where
  calls : (turn i).1 = .next ref
  late : (p 0).admissionCells.length ≤ ref
  first : ∃ admission, (p i).admissionCells[ref]? = some admission ∧
    admission.balanced = false
  outside : ∀ add ∈ (turn i).2.flatten, add.1 ∉ group

section Group

variable {p : Nat → ConnectionPool Unit} {turn : Nat → Op × Counting}
  {stop i : Nat} {group : List ConnRef}

theorem GroupRun.reachable (run : GroupRun p turn stop group)
    (before : i ≤ stop) : countingRuns.Reachable (p i) := by
  induction i with
  | zero => exact run.start
  | succ i ih =>
    obtain ⟨enabled, next⟩ := run.step i before
    exact (ih (Nat.le_of_succ_le before)).next ⟨_, _, enabled, next⟩

/-- Until its first call, an admission that has begun in the run has the whole
group among its candidates. -/
theorem GroupRun.snapshot (run : GroupRun p turn stop group)
    (before : i ≤ stop) (late : (p 0).admissionCells.length ≤ ref)
    (found : (p i).admissionCells[ref]? = some admission)
    (unbalanced : admission.balanced = false) :
    Unleased admission ∧ ∀ conn ∈ group, conn ∈ admission.candidates := by
  induction i with
  | zero =>
    have early := (List.getElem?_eq_some_iff.mp found).1
    omega
  | succ i ih =>
    have early := Nat.le_of_succ_le before
    have coherent := coherent_of_counting (run.reachable before)
    have current := run.current (i + 1) before
    rw [(run.step i before).2, applyDuring, counted_eq] at found coherent
    rcases admission_of_apply found unbalanced with earlier | ⟨cached, set, rfl⟩
    · exact ih early earlier
    · refine ⟨⟨rfl, .inl ⟨rfl, rfl⟩⟩, ?_⟩
      intro conn member
      have after := current conn member
      rw [(run.step i before).2, applyDuring, counted_eq] at after
      exact mem_slice_of_candidate (coherent cached set)
        (run.current i early conn member) after

theorem GroupCall.least (call : GroupCall p turn group i ref)
    (run : GroupRun p turn stop group) (before : i < stop)
    (leases : ((p i).during (turn i).2).leased ref = some conn)
    (inside : conn ∈ group) :
    (p i).Leasable conn ∧ ∀ other ∈ group, (p i).Leasable other →
      ((p i).conns conn).load ≤ ((p i).conns other).load := by
  obtain ⟨admission, found, unbalanced⟩ := call.first
  obtain ⟨unleased, listed⟩ :=
    run.snapshot (Nat.le_of_lt before) call.late found unbalanced
  rcases unleased.next found (turn i).2 with
    ⟨selected, chosen, _, leasable, least⟩ | ⟨none, _⟩
  · cases leases.symm.trans chosen
    refine ⟨leasable, ?_⟩
    intro other member leasableOther
    refine least.load_le (listed other member) leasableOther ?_
    intro add counted
    have apart := call.outside add counted
    exact ⟨fun same => apart (same ▸ inside), fun same => apart (same ▸ member)⟩
  · cases leases.symm.trans none

theorem GroupCall.next_conns (call : GroupCall p turn group i ref)
    (run : GroupRun p turn stop group) (before : i < stop)
    (member : conn ∈ group) : (p (i + 1)).conns conn =
      (((p i).during (turn i).2).next ref).2.conns conn := by
  rw [(run.step i before).2, call.calls]
  apply counted_conns
  intro add counted same
  exact call.outside add counted (same ▸ member)

/-- Whatever of the group cannot be leased is loaded more than what can. -/
def FullLast (p : ConnectionPool Unit) (group : List ConnRef) : Prop :=
  ∀ conn ∈ group, ∀ other ∈ group, p.Leasable conn → ¬ p.Leasable other →
    (p.conns conn).load ≤ (p.conns other).load

theorem GroupRun.even (run : GroupRun p turn stop group)
    (equal : ∀ left ∈ group, ∀ right ∈ group,
      ((p 0).conns left).load = ((p 0).conns right).load)
    (steps : ∀ i, i < stop →
      (∃ ref, GroupCall p turn group i ref ∧ (p i).FullLast group) ∨
      ∀ conn ∈ group, ((p (i + 1)).conns conn).load =
        ((p i).conns conn).load) (before : i ≤ stop) :
    (p i).Even group := by
  induction i with
  | zero =>
    intro left member right other
    have same := equal left member right other
    omega
  | succ i ih =>
    have even := ih (Nat.le_of_succ_le before)
    rcases steps i before with ⟨ref, call, full⟩ | kept
    · have after : (((p i).during (turn i).2).next ref).2.Even group := by
        apply Even.next (p := (p i).during (turn i).2) even
        intro conn leases member other listed
        obtain ⟨leasable, least⟩ := call.least run before leases member
        by_cases leasableOther : (p i).Leasable other
        · exact least other listed leasableOther
        · exact full conn member other listed leasable leasableOther
      intro left member right other
      rw [call.next_conns run before member, call.next_conns run before other]
      exact after left member right other
    · intro left member right other
      rw [kept left member, kept right other]
      exact even left member right other

theorem GroupRun.active (run : GroupRun p turn stop group)
    (equal : ∀ left ∈ group, ∀ right ∈ group,
      ((p 0).conns left).counters = ((p 0).conns right).counters)
    (steps : ∀ i, i < stop → (∃ ref, GroupCall p turn group i ref) ∨
      ∀ conn ∈ group, ((p (i + 1)).conns conn).counters =
        ((p i).conns conn).counters) (before : i ≤ stop)
    {left right : ConnRef} (member : left ∈ group) (other : right ∈ group) :
    ((p i).conns left).counters.2 = ((p i).conns right).counters.2 := by
  induction i with
  | zero => rw [equal left member right other]
  | succ i ih =>
    have active := ih (Nat.le_of_succ_le before)
    rcases steps i before with ⟨ref, call⟩ | kept
    · have same : ∀ conn, ((((p i).during (turn i).2).apply
          (.next ref)).conns conn).counters.2 =
            ((p i).conns conn).counters.2 := by
        intro conn
        apply apply_view (p := (p i).during (turn i).2) fun c => c.counters.2
        intro written writes
        cases writes
        rfl
      rw [call.next_conns run before member, call.next_conns run before other]
      exact (same left).trans (active.trans (same right).symm)
    · rw [kept left member, kept right other]
      exact active

end Group

end ConnectionPool

end QMux.Pool
