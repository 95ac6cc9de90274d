import Mathlib.Data.Nat.ModEq
import QMux.Pool.AdmissionWalk

/-!
# Fairness of round robin

The counter of the balancer picks a position of the slice it is offered, so
consecutive selections from one slice are distinct.  The slice of an admission
comes from the cache and is the same until a generation is published, retired
or marked; the slice of `ReserveUDP` is built from the map at every call, and
is the same only if the map is iterated in the same order.
-/

namespace QMux.Pool

open Support

namespace ConnectionPool

/-! ## One selection -/

theorem roundRobin_select (counter : UInt64) {conns : ConnRef → ClientConn}
    {clients : List ConnRef} (nonempty : clients ≠ [])
    (healthy : ∀ client ∈ clients, (conns client).healthy = true) :
    ∃ conn, clients[(counter + 1).toNat % clients.length]? = some conn ∧
      roundRobinBalancer.select counter conns clients =
        (.ok conn, counter + 1) := by
  have positive : 0 < clients.length := List.length_pos_iff.mpr nonempty
  have all : (clients.countP fun client => (conns client).healthy) =
      clients.length := List.countP_eq_length.mpr healthy
  have inside : (counter + 1).toNat % clients.length < clients.length :=
    Nat.mod_lt _ positive
  refine ⟨_, List.getElem?_eq_getElem inside, ?_⟩
  unfold roundRobinBalancer
  dsimp only
  rw [if_neg (by omega), all, if_neg (by omega), if_pos rfl,
    List.getElem?_eq_getElem inside]

variable {σ : Type*} {p : ConnectionPool σ} {admission : TCPAdmission}

/-- The generations the balancer is offered by the first call. -/
def offered (p : ConnectionPool σ) (candidates : List ConnRef) :
    List ConnRef :=
  candidates.filter fun conn =>
    p.isTCPCandidate conn && (p.tcpCapacityErrorLocked conn).isNone

variable {ref : AdmissionRef} {op : Nat → Op} {stop i n k gap : Nat}
  {time : Nat → Nat} {slice cached order : List ConnRef} {conn : ConnRef}

theorem next_balancerState (found : p.admissionCells[ref]? = some admission)
    (faultless : p.accountingFaults = 0) :
    (p.next ref).2.balancerState = (p.balance admission).2 := by
  unfold next
  rw [found]
  dsimp only
  rw [if_neg (by simp [faultless])]
  repeat' split
  all_goals rfl

theorem leased_first (found : p.admissionCells[ref]? = some admission)
    (unbalanced : admission.balanced = false) (first : admission.next = 0)
    (clean : admission.balanceErr = none) (faultless : p.accountingFaults = 0)
    {selected : ConnRef} {state : σ}
    (selects : p.balancer.select p.balancerState p.conns
      (p.offered admission.candidates) = (.ok selected, state))
    (member : selected ∈ p.offered admission.candidates) :
    p.leased ref = some selected ∧ (p.next ref).2.balancerState = state := by
  have some_ : (p.offered admission.candidates).length ≠ 0 :=
    Nat.ne_of_gt (List.length_pos_of_mem member)
  have balanced : p.balance admission = ({ admission with
      balanced := true
      candidates := swapFirst admission.candidates
        (admission.candidates.idxOf selected) }, state) := by
    unfold offered at some_ selects member
    unfold balance
    rw [unbalanced, if_neg (by simp)]
    dsimp only
    rw [if_neg some_, selects]
    dsimp only
    rw [if_neg (not_not.mpr member)]
  obtain ⟨listed, facts⟩ := List.mem_filter.mp member
  obtain ⟨candidate, room⟩ := Bool.and_eq_true_iff.mp facts
  obtain ⟨rest, head⟩ := swapFirst_head listed
  have stops : (p.walk ((p.balance admission).1.candidates.drop
      (p.balance admission).1.next) 0 false false).conn = some selected := by
    rw [balanced]
    dsimp only
    rw [first, List.drop_zero, head]
    unfold walk
    rw [if_neg (by simp [candidate]), Option.isNone_iff_eq_none.mp room]
  refine ⟨?_, by rw [next_balancerState found faultless, balanced]⟩
  rcases p.next_eq found with ⟨fault, _⟩ | ⟨failure, failed, _⟩ |
    ⟨_, _, _, ⟨conn, same, outcome, leases⟩ | ⟨ends, _⟩⟩
  · exact absurd faultless fault
  · rw [balanced] at failed
    cases clean.symm.trans failed
  · rw [stops] at same
    cases same
    unfold leased
    rw [outcome]
    dsimp only
    rw [leases, List.getElem?_concat_length]
    rfl
  · rw [stops] at ends
    cases ends

/-! ## Runs in time -/

/-- A reachable pool from step to step. -/
structure Run (p : Nat → ConnectionPool σ) (op : Nat → Op) (stop : Nat) :
    Prop where
  start : (runs σ).Reachable (p 0)
  step : ∀ i, i < stop → (p i).Enabled (op i) ∧ p (i + 1) = (p i).apply (op i)

theorem Run.reachable {p : Nat → ConnectionPool σ} (run : Run p op stop)
    (before : i ≤ stop) : (runs σ).Reachable (p i) := by
  induction i with
  | zero => exact run.start
  | succ i ih =>
    obtain ⟨enabled, next⟩ := run.step i before
    rw [next]
    exact (ih (Nat.le_of_succ_le before)).next (Step.of_apply _ enabled)

theorem Run.balancer_eq {p : Nat → ConnectionPool σ} (run : Run p op stop)
    (before : i ≤ stop) : (p i).balancer = (p 0).balancer := by
  induction i with
  | zero => rfl
  | succ i ih =>
    rw [(run.step i before).2, (apply_frame _ _).balancer]
    exact ih (Nat.le_of_succ_le before)

/-- The times of `n` consecutive uses of the balancer. -/
structure Consecutive (p : Nat → ConnectionPool σ) (time : Nat → Nat)
    (n : Nat) : Prop where
  ordered : ∀ k, k + 1 < n → time k < time (k + 1)
  alone : ∀ i, time 0 < i → i < time (n - 1) → (∀ k, k < n → i ≠ time k) →
    (p (i + 1)).balancerState = (p i).balancerState

theorem Consecutive.monotone {p : Nat → ConnectionPool σ}
    (consecutive : Consecutive p time n) {j : Nat} (le : j ≤ k)
    (before : k < n) : time j ≤ time k := by
  induction k with
  | zero => rw [Nat.le_zero.mp le]
  | succ k ih =>
    rcases Nat.lt_or_ge j (k + 1) with earlier | later
    · have step := consecutive.ordered k before
      have below := ih (by omega) (by omega)
      omega
    · rw [Nat.le_antisymm le later]

theorem Consecutive.between {p : Nat → ConnectionPool σ}
    (consecutive : Consecutive p time n) (before : k + 1 < n)
    (inside : time k + 1 + gap ≤ time (k + 1)) :
    (p (time k + 1 + gap)).balancerState = (p (time k + 1)).balancerState := by
  induction gap with
  | zero => rfl
  | succ gap ih =>
    rw [← ih (by omega), ← Nat.add_assoc]
    have first : time 0 ≤ time k := consecutive.monotone (by omega) (by omega)
    have last : time (k + 1) ≤ time (n - 1) :=
      consecutive.monotone (by omega) (by omega)
    refine consecutive.alone (time k + 1 + gap) (by omega) (by omega) ?_
    intro j small same
    rcases Nat.lt_or_ge k j with later | earlier
    · have above := consecutive.monotone (show k + 1 ≤ j by omega) small
      omega
    · have below := consecutive.monotone earlier (by omega)
      omega

theorem Consecutive.counter {p : Nat → ConnectionPool UInt64}
    (consecutive : Consecutive p time n)
    (raises : ∀ k, k < n → (p (time k + 1)).balancerState =
      (p (time k)).balancerState + 1)
    (unwrapped : (p (time 0)).balancerState.toNat + n < 2 ^ 64)
    (before : k < n) :
    (p (time k)).balancerState.toNat =
      (p (time 0)).balancerState.toNat + k := by
  induction k with
  | zero => rfl
  | succ k ih =>
    have earlier := ih (by omega)
    have gap := consecutive.ordered k before
    have stays := consecutive.between before
      (show time k + 1 + (time (k + 1) - (time k + 1)) ≤ time (k + 1) by
        omega)
    rw [show time k + 1 + (time (k + 1) - (time k + 1)) = time (k + 1) by
      omega] at stays
    rw [stays, raises k (by omega), UInt64.toNat_add, earlier]
    simp only [UInt64.toNat_one]
    omega

theorem distinct_of_positions (nodup : slice.Nodup) {start : Nat}
    {conn : Nat → ConnRef}
    (picks : ∀ k, k < slice.length →
      slice[(start + k) % slice.length]? = some (conn k)) :
    ∀ j, j < slice.length → ∀ k, k < slice.length → conn j = conn k →
      j = k := by
  intro j small k smaller same
  obtain ⟨_, first⟩ := List.getElem?_eq_some_iff.mp (picks j small)
  obtain ⟨_, second⟩ := List.getElem?_eq_some_iff.mp (picks k smaller)
  have positions : (start + j) % slice.length = (start + k) % slice.length :=
    nodup.getElem_inj_iff.mp (first.trans (same.trans second.symm))
  have residues : j % slice.length = k % slice.length :=
    Nat.ModEq.add_left_cancel' start positions
  rw [Nat.mod_eq_of_lt small, Nat.mod_eq_of_lt smaller] at residues
  exact residues

/-- As many consecutive answers as the slice is long are distinct. -/
theorem rotation {α : Type*} (nodup : slice.Nodup) {state : Nat → UInt64}
    {result : Nat → α} {answer : ConnRef → α}
    (each : ∀ k, k < slice.length → ∃ conn, result k = answer conn ∧
      slice[(state k + 1).toNat % slice.length]? = some conn)
    (counter : ∀ k, k < slice.length → (state k).toNat = (state 0).toNat + k)
    (unwrapped : (state 0).toNat + slice.length < 2 ^ 64) :
    ∃ conn : Nat → ConnRef,
      (∀ k, k < slice.length → result k = answer (conn k)) ∧
      ∀ j, j < slice.length → ∀ k, k < slice.length → conn j = conn k →
        j = k := by
  have position : ∀ k, k < slice.length →
      (state k + 1).toNat = (state 0).toNat + 1 + k := by
    intro k small
    rw [UInt64.toNat_add, counter k small, UInt64.toNat_one]
    omega
  refine ⟨fun k =>
    (slice[((state 0).toNat + 1 + k) % slice.length]?).getD 0, ?_, ?_⟩
  · intro k small
    obtain ⟨conn, answered, found⟩ := each k small
    rw [position k small] at found
    dsimp only
    rw [answered, found]
    rfl
  · apply distinct_of_positions nodup
    intro k small
    obtain ⟨conn, _, found⟩ := each k small
    rw [position k small] at found
    rw [found]
    rfl

/-! ## TCP admissions -/

theorem balance_balanced : (p.balance admission).1.balanced = true := by
  unfold balance
  split
  · assumption
  · dsimp only
    repeat' split
    all_goals rfl

theorem admission_of_apply {op : Op}
    (there : (p.apply op).admissionCells[ref]? = some admission)
    (unbalanced : admission.balanced = false) :
    p.admissionCells[ref]? = some admission ∨
      ∃ cached, (p.apply op).cachedClients = some cached ∧
        admission = ⟨cached.filter fun conn => isEligible (p.conns conn) .tcp,
          0, false, none⟩ := by
  by_cases begins : ∃ order, op = .beginTCPAdmission order
  · obtain ⟨order, rfl⟩ := begins
    change (p.beginTCPAdmission order).2.admissionCells[ref]? = _ at there
    rcases p.beginTCPAdmission_cases order with
      ⟨same, _⟩ | ⟨_, cached, set, _, added⟩
    · rw [same] at there
      exact .inl there
    · rw [added, getElem?_append_singleton] at there
      split at there
      · exact .inr ⟨cached, set, (Option.some.inj there).symm⟩
      · exact .inl there
  by_cases nexts : ∃ target, op = .next target
  · obtain ⟨target, rfl⟩ := nexts
    change (p.next target).2.admissionCells[ref]? = _ at there
    cases found : p.admissionCells[target]? with
    | none =>
      have same : (p.next target).2 = p := by
        unfold next
        rw [found]
      rw [same] at there
      exact .inl there
    | some held =>
      -- A call leaves its own admission balanced.
      have kept : ∀ {later : TCPAdmission}, later.balanced = true →
          (p.admissionCells.set target later)[ref]? = some admission →
          p.admissionCells[ref]? = some admission := by
        intro later balanced there
        rcases cases_set found there with ⟨_, rfl⟩ | ⟨_, there⟩
        · cases balanced.symm.trans unbalanced
        · exact there
      rcases p.next_eq found with ⟨_, outcome⟩ | ⟨_, _, _, cells⟩ |
        ⟨_, _, cells, _⟩
      · rw [outcome] at there
        exact .inl there
      · rw [cells] at there
        exact .inl (kept balance_balanced there)
      · rw [cells] at there
        exact .inl (kept
          (show { (p.balance held).1 with next := _ }.balanced = true from
            balance_balanced) there)
  · push Not at begins nexts
    rw [(p.apply_frame op).admissions begins nexts] at there
    exact .inl there

/-- In a run that marks no generation, an admission that has begun in it is
the slice of the cache until its first call. -/
theorem Run.slices {p : Nat → ConnectionPool σ} (run : Run p op stop)
    (unmarked : ∀ i, i < stop → ¬ (p i).Marks (op i)) (before : i ≤ stop) :
    (p 0).Steady (p i) ∧ ∀ ref admission, (p 0).admissionCells.length ≤ ref →
      (p i).admissionCells[ref]? = some admission →
      admission.balanced = false →
      ∃ cached, (p i).cachedClients = some cached ∧ admission =
        ⟨cached.filter fun conn => isEligible ((p 0).conns conn) .tcp,
          0, false, none⟩ := by
  induction i with
  | zero =>
    refine ⟨.refl, ?_⟩
    intro ref admission late found _
    have early := (List.getElem?_eq_some_iff.mp found).1
    omega
  | succ i ih =>
    obtain ⟨steady, slices⟩ := ih (Nat.le_of_succ_le before)
    have quiet := unmarked i before
    rw [(run.step i before).2]
    refine ⟨steady.trans (apply_steady quiet), ?_⟩
    intro ref admission late there unbalanced
    rcases admission_of_apply there unbalanced with
      earlier | ⟨cached, set, same⟩
    · obtain ⟨cached, set, same⟩ := slices ref admission late earlier unbalanced
      exact ⟨cached, apply_cached_some quiet set, same⟩
    · rw [steady.eligible] at same
      exact ⟨cached, set, same⟩

theorem Run.cached_stays {p : Nat → ConnectionPool σ} (run : Run p op stop)
    (unmarked : ∀ i, i < stop → ¬ (p i).Marks (op i))
    (set : (p i).cachedClients = some cached) (before : i + gap ≤ stop) :
    (p (i + gap)).cachedClients = some cached := by
  induction gap with
  | zero => exact set
  | succ gap ih =>
    rw [← Nat.add_assoc, (run.step (i + gap) (by omega)).2]
    exact apply_cached_some (unmarked (i + gap) (by omega)) (ih (by omega))

/-- The generations that can be selected for TCP. -/
def eligibleTCP (p : ConnectionPool σ) : Multiset ConnRef :=
  p.clients.values.filter fun conn => isEligible (p.conns conn) .tcp

/-- A first call on an admission that has begun in the run. -/
structure FirstCall (p : Nat → ConnectionPool σ) (op : Nat → Op) (stop : Nat)
    (i : Nat) (ref : AdmissionRef) : Prop where
  before : i < stop
  calls : op i = .next ref
  late : (p 0).admissionCells.length ≤ ref
  first : ∃ admission, (p i).admissionCells[ref]? = some admission ∧
    admission.balanced = false
  faultless : (p i).accountingFaults = 0
  room : ∀ conn, (p i).isTCPCandidate conn = true →
    (p i).tcpCapacityErrorLocked conn = none

theorem isTCPCandidate_of_order {q : ConnectionPool σ}
    (reachable : (runs σ).Reachable p) (steady : p.Steady q)
    (iteration : p.IterationOrder order)
    (member : conn ∈ order.filter fun conn => isEligible (p.conns conn) .tcp) :
    q.isTCPCandidate conn = true := by
  obtain ⟨listed, eligible⟩ := List.mem_filter.mp member
  obtain ⟨id, found⟩ := mem_clients_of_order iteration listed
  have registered := registered_of_reachable reachable
  obtain ⟨named, nonempty, _⟩ := registered.clientOf id conn found
  rw [steady.isTCPCandidate]
  apply Bool.and_eq_true_iff.mpr
  refine ⟨?_, eligible⟩
  unfold isCurrentLocked
  change (p.conns conn).id = id at named
  rw [named]
  exact decide_eq_true ⟨nonempty, found⟩

/-- A first call leases the generation at the counter's position, and raises
the counter. -/
theorem FirstCall.leases {p : Nat → ConnectionPool UInt64}
    (run : Run p op stop) (balancer : (p 0).balancer = roundRobinBalancer)
    (unmarked : ∀ i, i < stop → ¬ (p i).Marks (op i))
    (call : FirstCall p op stop i ref)
    (set : (p i).cachedClients = some cached)
    (sliced : slice = cached.filter fun conn =>
      isEligible ((p 0).conns conn) .tcp) (nonempty : slice ≠ []) :
    (p (i + 1)).balancerState = (p i).balancerState + 1 ∧
      ∃ conn, (p i).leased ref = some conn ∧
        slice[((p i).balancerState + 1).toNat % slice.length]? = some conn := by
  obtain ⟨steady, slices⟩ := run.slices unmarked (Nat.le_of_lt call.before)
  obtain ⟨admission, found, unbalanced⟩ := call.first
  obtain ⟨again, setAgain, same⟩ := slices ref admission call.late found
    unbalanced
  rw [set] at setAgain
  cases setAgain
  rw [← sliced] at same
  subst same
  have reachable := run.reachable (Nat.le_of_lt call.before)
  have ordered : (p 0).IterationOrder cached := by
    have iteration := coherent_of_reachable reachable cached set
    unfold IterationOrder at iteration ⊢
    rw [iteration, steady.clients]
  have all : (p i).offered slice = slice := by
    apply List.filter_eq_self.mpr
    intro conn member
    rw [sliced] at member
    have candidate := isTCPCandidate_of_order run.start steady ordered member
    rw [candidate, call.room conn candidate]
    rfl
  have healthy : ∀ conn ∈ slice, ((p i).conns conn).healthy = true := by
    intro conn member
    rw [sliced] at member
    have candidate := isTCPCandidate_of_order run.start steady ordered member
    have eligible := (Bool.and_eq_true_iff.mp candidate).2
    exact (Bool.and_eq_true_iff.mp eligible).1
  obtain ⟨conn, position, selects⟩ :=
    roundRobin_select (p i).balancerState nonempty healthy
  have member : conn ∈ slice := List.mem_of_getElem? position
  obtain ⟨leases, state⟩ := leased_first found rfl rfl rfl call.faultless
    (by rw [all, run.balancer_eq (Nat.le_of_lt call.before), balancer]
        exact selects)
    (by rw [all]; exact member)
  refine ⟨?_, conn, leases, position⟩
  rw [(run.step i call.before).2, call.calls]
  exact state

/-- Whenever it is set the cache is a permutation of the clients, and it stays
as it is until a call publishes, retires or marks a generation.  In a run
without such a call the first calls of `n` consecutive admissions on `n`
eligible generations lease distinct ones. -/
theorem tcp_admission_fair {σ : Type*} :
    (∀ (p : ConnectionPool σ), (runs σ).Reachable p →
      ∀ cached, p.cachedClients = some cached →
        p.IterationOrder cached ∧ ∀ op : Op, ¬ p.Marks op →
          (p.apply op).cachedClients = some cached) ∧
    ∀ (p : Nat → ConnectionPool UInt64) (op : Nat → Op) (stop n : Nat)
      (time : Nat → Nat) (ref : Nat → AdmissionRef), Run p op stop →
      (p 0).balancer = roundRobinBalancer →
      (∀ i, i < stop → ¬ (p i).Marks (op i)) →
      n = (p 0).eligibleTCP.card → 0 < n → Consecutive p time n →
      (∀ k, k < n → FirstCall p op stop (time k) (ref k)) →
      (p (time 0)).balancerState.toNat + n < 2 ^ 64 →
      ∃ conn : Nat → ConnRef,
        (∀ k, k < n → (p (time k)).leased (ref k) = some (conn k)) ∧
        ∀ j, j < n → ∀ k, k < n → conn j = conn k → j = k := by
  constructor
  · intro p reachable cached set
    exact ⟨coherent_of_reachable reachable cached set,
      fun op unmarked => apply_cached_some unmarked set⟩
  intro p op stop n time ref run balancer unmarked count positive consecutive
    calls unwrapped
  -- The slice of the first admission is the slice of all of them.
  obtain ⟨steady, slices⟩ := run.slices unmarked
    (Nat.le_of_lt (calls 0 positive).before)
  obtain ⟨admission, found, unbalanced⟩ := (calls 0 positive).first
  obtain ⟨cached, set, _⟩ := slices (ref 0) admission (calls 0 positive).late
    found unbalanced
  have ordered : (p 0).IterationOrder cached := by
    have iteration := coherent_of_reachable
      (run.reachable (Nat.le_of_lt (calls 0 positive).before)) cached set
    unfold IterationOrder at iteration ⊢
    rw [iteration, steady.clients]
  generalize sliced : (cached.filter fun conn =>
    isEligible ((p 0).conns conn) .tcp) = slice
  have length : slice.length = n := by
    rw [count, ← sliced]
    unfold eligibleTCP
    rw [← show (cached : Multiset ConnRef) = (p 0).clients.values from ordered]
    simp
  have nonempty : slice ≠ [] := by
    apply List.ne_nil_of_length_pos
    omega
  have nodup : slice.Nodup := by
    rw [← sliced]
    exact (nodup_of_iterationOrder run.start ordered).filter _
  have each : ∀ k, k < n →
      (p (time k + 1)).balancerState = (p (time k)).balancerState + 1 ∧
      ∃ conn, (p (time k)).leased (ref k) = some conn ∧
        slice[((p (time k)).balancerState + 1).toNat % slice.length]? =
          some conn := by
    intro k small
    have later := consecutive.monotone (Nat.zero_le k) small
    have before := (calls k small).before
    have still := run.cached_stays unmarked set
      (show time 0 + (time k - time 0) ≤ stop by omega)
    rw [Nat.add_sub_cancel' later] at still
    exact (calls k small).leases run balancer unmarked still sliced.symm
      nonempty
  have counter := fun k (small : k < n) =>
    consecutive.counter (fun k small => (each k small).1) unwrapped small
  rw [← length] at counter each unwrapped ⊢
  exact rotation nodup (fun k small => (each k small).2) counter unwrapped

/-- Two clients, each with a TCP- and UDP-capable generation. -/
def pairPool : ConnectionPool UInt64 :=
  newWithLimits
    (fun conn => newClientConn (if conn = 0 then "edge" else "core")
      ["tcp", "udp"]) roundRobinBalancer 0 defaultLimits

def registerPair : List Op :=
  [.beginPending, .bind 0 0, .commit 0, .beginPending, .bind 1 1, .commit 1]

def registeredPair : ConnectionPool UInt64 := registerPair.foldl apply pairPool

theorem registeredPair_reachable : (runs UInt64).Reachable registeredPair := by
  have start : (runs UInt64).Reachable pairPool :=
    .start ⟨_, _, _, _, fun _ => ⟨_, _, rfl⟩, rfl⟩
  have allows : TransitionSystem.Allows Enabled apply pairPool
      registerPair := by
    decide +kernel
  exact start.schedule (fun p op enabled => Step.of_apply op enabled) allows

/-- The pair of clients under a sequence of operations. -/
def pairRun (op : Nat → Op) : Nat → ConnectionPool UInt64
  | 0 => registeredPair
  | i + 1 => (pairRun op i).apply (op i)

theorem pairRun_run (enabled : ∀ i, i < stop → (pairRun op i).Enabled (op i)) :
    Run (pairRun op) op stop where
  start := registeredPair_reachable
  step i before := ⟨enabled i before, rfl⟩

/-- Two admissions, each with its first call, and a publication that is
refused in between. -/
def pairAdmissions : Nat → Op
  | 0 => .beginTCPAdmission [0, 1]
  | 1 => .next 0
  | 2 => .commit 0
  | 3 => .beginTCPAdmission [1, 0]
  | _ => .next 1

theorem pairRun_room (time : i = 1 ∨ i = 4)
    (candidate : (pairRun pairAdmissions i).isTCPCandidate conn = true) :
    (pairRun pairAdmissions i).tcpCapacityErrorLocked conn = none := by
  have current := of_decide_eq_true (isTCPCandidate_current candidate)
  have listed : conn ∈ (pairRun pairAdmissions i).clients.values :=
    FiniteMap.mem_values_iff.mpr ⟨_, current.2⟩
  have room : ∀ conn ∈ (pairRun pairAdmissions i).clients.values,
      (pairRun pairAdmissions i).tcpCapacityErrorLocked conn = none := by
    rcases time with rfl | rfl
    all_goals decide +kernel
  exact room conn listed

theorem tcp_admission_fair_sample :
    (pairRun pairAdmissions 1).leased 0 ≠
      (pairRun pairAdmissions 4).leased 1 := by
  have run : Run (pairRun pairAdmissions) pairAdmissions 5 :=
    pairRun_run (by decide +kernel)
  have calls : ∀ k, k < 2 → FirstCall (pairRun pairAdmissions) pairAdmissions 5
      (3 * k + 1) k := by
    intro k small
    have cases_ : k = 0 ∨ k = 1 := by omega
    rcases cases_ with rfl | rfl
    · exact ⟨by decide, rfl, Nat.zero_le _, ⟨_, rfl, rfl⟩, by decide +kernel,
        fun _ => pairRun_room (.inl rfl)⟩
    · exact ⟨by decide, rfl, Nat.zero_le _, ⟨_, rfl, rfl⟩, by decide +kernel,
        fun _ => pairRun_room (.inr rfl)⟩
  have consecutive : Consecutive (pairRun pairAdmissions)
      (fun k => 3 * k + 1) 2 := by
    refine ⟨fun k _ => by omega, ?_⟩
    intro i first last _
    have times : i = 2 ∨ i = 3 := by omega
    rcases times with rfl | rfl
    · decide +kernel
    · rfl
  obtain ⟨conn, leases, distinct⟩ := (tcp_admission_fair (σ := Unit)).2
    _ pairAdmissions 5 2 (fun k => 3 * k + 1) (fun k => k) run rfl
    (by decide +kernel) (by decide +kernel) (by decide) consecutive calls
    (by decide +kernel)
  have first := leases 0 (by decide)
  have second := leases 1 (by decide)
  intro same
  have equal : conn 0 = conn 1 :=
    Option.some.inj (first.symm.trans (same.trans second))
  cases distinct 0 (by decide) 1 (by decide) equal

/-- A generation that is healthy is marked healthy again: nothing that
selection reads has changed, but the cache is dropped, and the next admission
selects the same generation as the one before. -/
theorem remark_drops_cache : ∃ p : ConnectionPool UInt64,
    (runs UInt64).Reachable p ∧ p.cachedClients = some [0, 1] ∧
    p.Steady (p.apply (.markHealthy 0)) ∧
    (p.apply (.markHealthy 0)).cachedClients = none ∧
    p.leased 0 = some 1 ∧
    (((p.apply (.next 0)).apply (.markHealthy 0)).apply
      (.beginTCPAdmission [1, 0])).leased 1 = some 1 := by
  refine ⟨registeredPair.apply (.beginTCPAdmission [0, 1]), ?_, ?_, ?_, ?_,
    ?_, ?_⟩
  · exact registeredPair_reachable.next
      (Step.of_apply _ (show registeredPair.IterationOrder [0, 1] by
        decide +kernel))
  · decide +kernel
  · have marked : (registeredPair.apply (.beginTCPAdmission [0, 1])).apply
        (.markHealthy 0) = { (registeredPair.apply
          (.beginTCPAdmission [0, 1])).updateConn 0 fun c =>
            { c with healthy := true } with cachedClients := none } := by
      change (markHealthy _ 0).2 = _
      unfold markHealthy
      rw [if_neg (by decide +kernel)]
    refine ⟨by rw [marked]; rfl, by rw [marked]; rfl, by rw [marked]; rfl, ?_⟩
    intro conn
    apply apply_view ClientConn.profile
    intro written writes
    cases writes
    decide +kernel
  all_goals decide +kernel

/-! ## UDP reservations -/

/-- A reservation among generations below their limit takes the one at the
counter's position, and raises the counter. -/
theorem reserveUDP_position {p : ConnectionPool UInt64}
    (balancer : p.balancer = roundRobinBalancer)
    (faultless : p.accountingFaults = 0) (iteration : p.IterationOrder order)
    (sliced : (order.filter fun conn => isEligible (p.conns conn) .udp) =
      slice) (nonempty : slice ≠ [])
    (room : ∀ conn ∈ slice, (p.conns conn).udpSessions <
      p.limits.maxUDPSessionsPerGeneration) :
    (p.reserveUDP order).2.balancerState = p.balancerState + 1 ∧
      ∃ conn, (p.reserveUDP order).1 = .ok conn ∧
        slice[(p.balancerState + 1).toNat % slice.length]? = some conn := by
  have positive : 0 < slice.length := List.length_pos_iff.mpr nonempty
  have clients : p.clients.size ≠ 0 := by
    rw [← FiniteMap.card_values, ← show (order : Multiset ConnRef) =
      p.clients.values from iteration, Multiset.coe_card]
    have shorter := List.length_filter_le
      (fun conn => isEligible (p.conns conn) .udp) order
    rw [sliced] at shorter
    omega
  have all : (slice.filter fun conn => (p.conns conn).udpSessions <
      p.limits.maxUDPSessionsPerGeneration) = slice := by
    apply List.filter_eq_self.mpr
    intro conn member
    exact decide_eq_true (room conn member)
  have healthy : ∀ conn ∈ slice, (p.conns conn).healthy = true := by
    intro conn member
    rw [← sliced] at member
    exact (Bool.and_eq_true_iff.mp (List.mem_filter.mp member).2).1
  obtain ⟨conn, position, selects⟩ :=
    roundRobin_select p.balancerState nonempty healthy
  have member : conn ∈ slice := List.mem_of_getElem? position
  unfold reserveUDP
  rw [if_neg (by simp [faultless]), if_neg clients]
  dsimp only
  rw [sliced, all, if_neg (by omega), if_neg (by omega), balancer, selects]
  dsimp only
  rw [if_neg (not_not.mpr member)]
  exact ⟨rfl, conn, rfl, position⟩

/-- Reservations that find the eligible generations in one order reserve
distinct ones, as many as there are. -/
theorem udp_reservation_fair {p : Nat → ConnectionPool UInt64}
    {op : Nat → Op} {stop n : Nat} (run : Run p op stop)
    (balancer : (p 0).balancer = roundRobinBalancer) (positive : 0 < n)
    {time : Nat → Nat} {order : Nat → List ConnRef}
    (consecutive : Consecutive p time n)
    (calls : ∀ k, k < n → time k < stop ∧ op (time k) = .reserveUDP (order k) ∧
      (p (time k)).accountingFaults = 0)
    {eligible : List ConnRef} (count : eligible.length = n)
    (ordered : ∀ k, k < n → ((order k).filter fun conn =>
      isEligible ((p (time k)).conns conn) .udp) = eligible)
    (room : ∀ k, k < n → ∀ conn ∈ eligible,
      ((p (time k)).conns conn).udpSessions <
        (p (time k)).limits.maxUDPSessionsPerGeneration)
    (unwrapped : (p (time 0)).balancerState.toNat + n < 2 ^ 64) :
    ∃ conn : Nat → ConnRef, (∀ k, k < n →
        ((p (time k)).reserveUDP (order k)).1 = .ok (conn k)) ∧
      ∀ j, j < n → ∀ k, k < n → conn j = conn k → j = k := by
  have iterates : ∀ k, k < n → (p (time k)).IterationOrder (order k) := by
    intro k small
    obtain ⟨before, call, _⟩ := calls k small
    have enabled := (run.step (time k) before).1
    rw [call] at enabled
    exact enabled
  have each : ∀ k, k < n →
      (p (time k + 1)).balancerState = (p (time k)).balancerState + 1 ∧
      ∃ conn, ((p (time k)).reserveUDP (order k)).1 = .ok conn ∧
        eligible[((p (time k)).balancerState + 1).toNat % eligible.length]? =
          some conn := by
    intro k small
    obtain ⟨before, call, faultless⟩ := calls k small
    have nonempty : eligible ≠ [] := by
      apply List.ne_nil_of_length_pos
      omega
    rw [(run.step (time k) before).2, call]
    exact reserveUDP_position
      ((run.balancer_eq (Nat.le_of_lt before)).trans balancer) faultless
      (iterates k small) (ordered k small) nonempty (room k small)
  have nodup : eligible.Nodup := by
    rw [← ordered 0 positive]
    exact (nodup_of_iterationOrder
      (run.reachable (Nat.le_of_lt (calls 0 positive).1))
      (iterates 0 positive)).filter _
  have counter := fun k (small : k < n) =>
    consecutive.counter (fun k small => (each k small).1) unwrapped small
  rw [← count] at counter each unwrapped ⊢
  exact rotation nodup (fun k small => (each k small).2) counter unwrapped

theorem udp_reservation_fair_sample :
    (registeredPair.reserveUDP [0, 1]).1 ≠
      ((registeredPair.reserveUDP [0, 1]).2.reserveUDP [0, 1]).1 := by
  have run : Run (pairRun fun _ => .reserveUDP [0, 1])
      (fun _ => .reserveUDP [0, 1]) 2 := pairRun_run (by decide +kernel)
  obtain ⟨conn, reserves, distinct⟩ := udp_reservation_fair run rfl
    (show 0 < 2 by decide) (show Consecutive _ id 2 from
      ⟨fun k before => Nat.lt_succ_self k, fun i first last _ => by
        simp at first last
        omega⟩)
    (show ∀ k, k < 2 → id k < 2 ∧ Op.reserveUDP [0, 1] =
      .reserveUDP ((fun _ => [0, 1]) k) ∧
      (pairRun (fun _ => .reserveUDP [0, 1]) (id k)).accountingFaults = 0 by
        decide +kernel)
    (show [0, 1].length = 2 from rfl) (by decide +kernel) (by decide +kernel)
    (by decide +kernel)
  have first := reserves 0 (by decide)
  have second := reserves 1 (by decide)
  intro same
  have equal : conn 0 = conn 1 :=
    Except.ok.inj (first.symm.trans (same.trans second))
  cases distinct 0 (by decide) 1 (by decide) equal

/-- Two reservations that see the clients in opposite orders take the same
generation, although both are eligible and unused. -/
theorem udp_reservation_repeats : ∃ p : ConnectionPool UInt64,
    (runs UInt64).Reachable p ∧ p.balancer = roundRobinBalancer ∧
    p.accountingFaults = 0 ∧ p.IterationOrder [0, 1] ∧
    (p.reserveUDP [0, 1]).2.IterationOrder [1, 0] ∧
    (∀ conn ∈ [0, 1], isEligible (p.conns conn) .udp = true ∧
      (p.conns conn).udpSessions = 0) ∧
    (p.reserveUDP [0, 1]).1 = .ok 1 ∧
    ((p.reserveUDP [0, 1]).2.reserveUDP [1, 0]).1 = .ok 1 := by
  refine ⟨registeredPair, registeredPair_reachable, rfl, ?_, ?_, ?_, ?_, ?_, ?_⟩
  · decide +kernel
  · decide +kernel
  · decide +kernel
  · decide +kernel
  · rfl
  · rfl

end ConnectionPool

end QMux.Pool
