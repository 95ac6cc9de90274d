import QMux.Pool.Membership

/-!
# The walk of an admission

One `TCPAdmission` from its snapshot on, while any other operations run on the
pool.  `next_spec` says what one call of `Next` does to the admission; the
history of all its calls is an induction over the run.
-/

namespace QMux.Pool

open Support

namespace ConnectionPool

variable {σ : Type*} {p : ConnectionPool σ}

/-! ## One walk -/

/-- The generation has as many TCP connections as it may have. -/
def AtConnectionLimit (p : ConnectionPool σ) (conn : ConnRef) : Prop :=
  p.limits.maxTCPConnectionsPerGeneration ≤
    (p.conns conn).tcpPending + (p.conns conn).tcpActive

/-- The generation has as many TCP setups as it may have. -/
def AtSetupLimit (p : ConnectionPool σ) (conn : ConnRef) : Prop :=
  p.limits.maxPendingTCPSetupsPerGeneration ≤ (p.conns conn).tcpPending

instance (conn : ConnRef) : Decidable (p.AtConnectionLimit conn) :=
  inferInstanceAs (Decidable (_ ≤ _))

instance (conn : ConnRef) : Decidable (p.AtSetupLimit conn) :=
  inferInstanceAs (Decidable (_ ≤ _))

theorem tcpCapacityErrorLocked_eq (conn : ConnRef) :
    p.tcpCapacityErrorLocked conn =
      if p.AtConnectionLimit conn then some .tcpGenerationConnectionCapacity
      else if p.AtSetupLimit conn then some .tcpGenerationSetupCapacity
      else none :=
  rfl

/-- The report of a walk that has passed over these generations. -/
def report (p : ConnectionPool σ) (passed : List ConnRef) :
    Except PoolError (Option LeaseRef) :=
  if ∃ conn ∈ passed, p.isTCPCandidate conn = true ∧
      p.AtConnectionLimit conn then
    .error .tcpGenerationConnectionCapacity
  else if ∃ conn ∈ passed, p.isTCPCandidate conn = true ∧
      p.AtSetupLimit conn then
    .error .tcpGenerationSetupCapacity
  else .ok none

variable {remaining : List ConnRef} {passed : Nat} {atConnection atSetup : Bool}
  {conn : ConnRef}

theorem walk_none
    (ends : (p.walk remaining passed atConnection atSetup).conn = none) :
    (p.walk remaining passed atConnection atSetup).passed =
        passed + remaining.length ∧
      ((p.walk remaining passed atConnection atSetup).atConnectionCapacity =
        true ↔ atConnection = true ∨ ∃ conn ∈ remaining,
          p.isTCPCandidate conn = true ∧ p.AtConnectionLimit conn) ∧
      ((p.walk remaining passed atConnection atSetup).atSetupCapacity =
        true ↔ atSetup = true ∨ ∃ conn ∈ remaining,
          p.isTCPCandidate conn = true ∧ ¬ p.AtConnectionLimit conn ∧
            p.AtSetupLimit conn) := by
  induction remaining generalizing passed atConnection atSetup with
  | nil => simp [walk]
  | cons head tail ih =>
    unfold walk at ends ⊢
    by_cases candidate : p.isTCPCandidate head = false
    · rw [if_pos candidate] at ends ⊢
      obtain ⟨all, connection, setup⟩ := ih ends
      refine ⟨by rw [all, List.length_cons]; omega, ?_, ?_⟩
      · rw [connection]
        simp [candidate]
      · rw [setup]
        simp [candidate]
    · rw [if_neg candidate] at ends ⊢
      rw [Bool.not_eq_false] at candidate
      rw [tcpCapacityErrorLocked_eq] at ends ⊢
      by_cases full : p.AtConnectionLimit head
      · rw [if_pos full] at ends ⊢
        obtain ⟨all, connection, setup⟩ := ih ends
        refine ⟨by rw [all, List.length_cons]; omega, ?_, ?_⟩
        · rw [connection]
          simp [candidate, full]
        · rw [setup]
          simp [full]
      · rw [if_neg full] at ends ⊢
        by_cases pending : p.AtSetupLimit head
        · rw [if_pos pending] at ends ⊢
          obtain ⟨all, connection, setup⟩ := ih ends
          refine ⟨by rw [all, List.length_cons]; omega, ?_, ?_⟩
          · rw [connection]
            simp [full]
          · rw [setup]
            simp [candidate, full, pending]
        · rw [if_neg pending] at ends
          cases ends

theorem walk_some
    (stops : (p.walk remaining passed atConnection atSetup).conn = some conn) :
    ∃ before after, remaining = before ++ conn :: after ∧
      (p.walk remaining passed atConnection atSetup).passed =
        passed + before.length + 1 := by
  induction remaining generalizing passed atConnection atSetup with
  | nil => cases stops
  | cons head tail ih =>
    have further : ∀ {atConnection atSetup : Bool},
        (p.walk tail (passed + 1) atConnection atSetup).conn = some conn →
        ∃ before after, head :: tail = before ++ conn :: after ∧
          (p.walk tail (passed + 1) atConnection atSetup).passed =
            passed + before.length + 1 := by
      intro atConnection atSetup later
      obtain ⟨before, after, rfl, all⟩ := ih later
      refine ⟨head :: before, after, rfl, ?_⟩
      rw [all, List.length_cons]
      omega
    unfold walk at stops ⊢
    split at stops
    · rename_i candidate
      rw [if_pos candidate]
      exact further stops
    rename_i candidate
    rw [if_neg candidate]
    split at stops
    · exact further stops
    · exact further stops
    · obtain rfl := Option.some.inj stops
      exact ⟨[], tail, rfl, rfl⟩

/-! ## The choice of the balancer -/

theorem swapFirst_cases (candidates : List ConnRef) (index : Nat) :
    (∃ first before selected after,
      candidates = first :: (before ++ selected :: after) ∧
      swapFirst candidates index = selected :: (before ++ first :: after)) ∨
    swapFirst candidates index = candidates := by
  cases candidates with
  | nil => exact .inr (by simp [swapFirst])
  | cons first tail =>
    cases index with
    | zero => exact .inr (by simp [swapFirst])
    | succ index =>
      cases found : tail[index]? with
      | none => exact .inr (by simp [swapFirst, found])
      | some selected =>
        obtain ⟨inside, value⟩ := List.getElem?_eq_some_iff.mp found
        refine .inl ⟨first, tail.take index, selected,
          tail.drop (index + 1), ?_, ?_⟩
        · rw [← value, ← List.drop_eq_getElem_cons inside,
            List.take_append_drop]
        · simp [swapFirst, List.set_eq_take_append_cons_drop, inside, value]

theorem swapFirst_perm (candidates : List ConnRef) (index : Nat) :
    (swapFirst candidates index).Perm candidates := by
  rcases swapFirst_cases candidates index with
    ⟨first, before, selected, after, whole, swapped⟩ | same
  · rw [swapped, whole]
    calc selected :: (before ++ first :: after)
      _ |>.Perm (selected :: first :: (before ++ after)) :=
        List.perm_middle.cons selected
      _ |>.Perm (first :: selected :: (before ++ after)) :=
        .swap first selected _
      _ |>.Perm (first :: (before ++ selected :: after)) :=
        (List.perm_middle.symm).cons first
  · rw [same]

theorem swapFirst_head {candidates : List ConnRef}
    (member : conn ∈ candidates) :
    ∃ rest, swapFirst candidates (candidates.idxOf conn) = conn :: rest := by
  cases candidates with
  | nil => cases member
  | cons first tail =>
    have found : (first :: tail)[(first :: tail).idxOf conn]? = some conn :=
      List.getElem?_idxOf member
    generalize (first :: tail).idxOf conn = index at found
    unfold swapFirst
    rw [found]
    cases index with
    | zero =>
      obtain rfl : first = conn := Option.some.inj found
      exact ⟨tail, by simp⟩
    | succ index => exact ⟨tail.set index first, by simp⟩

/-- The balancer may fail with its own errors, but not with the errors by
which the pool reports capacity. -/
def Honest (balancer : LoadBalancer σ) : Prop :=
  ∀ state conns clients,
    (balancer.select state conns clients).1 ≠
        .error .tcpGenerationConnectionCapacity ∧
      (balancer.select state conns clients).1 ≠
        .error .tcpGenerationSetupCapacity

end ConnectionPool

/-- An admission between two calls: nothing is passed before the balancer has
chosen, and its error is not one of the pool's capacity errors. -/
structure TCPAdmission.Sound (admission : TCPAdmission) : Prop where
  pristine : admission.balanced = false → admission.next = 0
  within : admission.next ≤ admission.candidates.length
  clean : ∀ failure, admission.balanceErr = some failure →
    failure ≠ .tcpGenerationConnectionCapacity ∧
      failure ≠ .tcpGenerationSetupCapacity

/-- What a step leaves of an admission. -/
structure TCPAdmission.Continues (before after : TCPAdmission) : Prop where
  perm : after.candidates.Perm before.candidates
  fixed : before.balanced = true → after.candidates = before.candidates
  advances : before.next ≤ after.next
  sound : after.Sound

theorem TCPAdmission.Continues.trans {first middle last : TCPAdmission}
    (before : first.Continues middle) (after : middle.Continues last)
    (balanced : middle.balanced = true ∨ middle = first) :
    first.Continues last where
  perm := after.perm.trans before.perm
  fixed := by
    intro started
    have still : middle.balanced = true := by
      rcases balanced with balanced | same
      · exact balanced
      · rw [same]
        exact started
    exact (after.fixed still).trans (before.fixed started)
  advances := Nat.le_trans before.advances after.advances
  sound := after.sound

namespace ConnectionPool

variable {σ : Type*} {p : ConnectionPool σ} {admission : TCPAdmission}

theorem balance_continues (honest : Honest p.balancer)
    (sound : admission.Sound) :
    admission.Continues (p.balance admission).1 ∧
      (p.balance admission).1.next = admission.next ∧
      (p.balance admission).1.balanced = true := by
  unfold balance
  split
  · rename_i balanced
    exact ⟨⟨.refl _, fun _ => rfl, Nat.le_refl _, sound⟩, rfl, balanced⟩
  rename_i unbalanced
  rw [Bool.not_eq_true] at unbalanced
  have chosen : ∀ {candidates : List ConnRef} {failed : Option PoolError},
      candidates.Perm admission.candidates →
      (∀ failure, failed = some failure →
        failure ≠ .tcpGenerationConnectionCapacity ∧
          failure ≠ .tcpGenerationSetupCapacity) →
      admission.Continues { admission with
        candidates := candidates, balanced := true
        balanceErr := failed } := by
    intro candidates failed perm clean
    refine ⟨perm, ?_, Nat.le_refl _, ?_, ?_, clean⟩
    · intro balanced
      rw [unbalanced] at balanced
      cases balanced
    · intro balanced
      cases balanced
    · rw [perm.length_eq]
      exact sound.within
  dsimp only
  split
  · exact ⟨chosen (.refl _) sound.clean, rfl, rfl⟩
  split
  · rename_i failure balancerState failed
    refine ⟨chosen (.refl _) ?_, rfl, rfl⟩
    intro other same
    cases same
    have truthful := honest p.balancerState p.conns
      (admission.candidates.filter fun conn =>
        p.isTCPCandidate conn && (p.tcpCapacityErrorLocked conn).isNone)
    rw [failed] at truthful
    simpa using truthful
  · split
    · refine ⟨chosen (.refl _) ?_, rfl, rfl⟩
      intro other same
      cases same
      simp
    · exact ⟨chosen (swapFirst_perm _ _) sound.clean, rfl, rfl⟩

/-- The generation a call of `Next` leases. -/
def leased (p : ConnectionPool σ) (ref : AdmissionRef) : Option ConnRef :=
  match (p.next ref).1 with
  | .ok (some lease) =>
    ((p.next ref).2.leaseCells[lease]?).map TCPLease.conn
  | _ => none

/-- The call leases a generation, or reports that one is at a limit. -/
def Yields : Except PoolError (Option LeaseRef) → Prop
  | .ok (some _) => True
  | .error .tcpGenerationConnectionCapacity => True
  | .error .tcpGenerationSetupCapacity => True
  | _ => False

/-- The call ends the walk. -/
def Exhausts : Except PoolError (Option LeaseRef) → Prop
  | .ok none => True
  | .error .tcpGenerationConnectionCapacity => True
  | .error .tcpGenerationSetupCapacity => True
  | _ => False

instance (result : Except PoolError (Option LeaseRef)) :
    Decidable (Yields result) := by
  unfold Yields
  split <;> infer_instance

/-- One call of `Next` on an admission. -/
structure Called (p : ConnectionPool σ) (ref : AdmissionRef)
    (before after : TCPAdmission) : Prop where
  continues : before.Continues after
  balanced : after.balanced = true ∨ after = before
  leases : ∀ conn, p.leased ref = some conn →
    (p.isTCPCandidate conn = true ∧ p.tcpCapacityErrorLocked conn = none) ∧
      ∃ passed rest, after.candidates.drop before.next =
        passed ++ conn :: rest ∧
        after.next = before.next + passed.length + 1
  yields : Yields (p.next ref).1 → before.next < after.next
  exhausts : Exhausts (p.next ref).1 → after.next = after.candidates.length ∧
      (p.next ref).1 = p.report (after.candidates.drop before.next)

variable {ref : AdmissionRef} {op : Op}

theorem next_eq (found : p.admissionCells[ref]? = some admission) :
    (p.accountingFaults ≠ 0 ∧ p.next ref = (.error .accountingFault, p)) ∨
    (∃ failure, (p.balance admission).1.balanceErr = some failure ∧
      (p.next ref).1 = .error failure ∧
      (p.next ref).2.admissionCells =
        p.admissionCells.set ref (p.balance admission).1) ∨
    p.accountingFaults = 0 ∧ (p.balance admission).1.balanceErr = none ∧
      (p.next ref).2.admissionCells = p.admissionCells.set ref
        { (p.balance admission).1 with
          next := (p.balance admission).1.next +
            (p.walk ((p.balance admission).1.candidates.drop
              (p.balance admission).1.next) 0 false false).passed } ∧
      ((∃ conn, (p.walk ((p.balance admission).1.candidates.drop
            (p.balance admission).1.next) 0 false false).conn = some conn ∧
          (p.next ref).1 = .ok (some p.leaseCells.length) ∧
          (p.next ref).2.leaseCells = p.leaseCells ++ [⟨conn, .pending⟩]) ∨
        ((p.walk ((p.balance admission).1.candidates.drop
            (p.balance admission).1.next) 0 false false).conn = none ∧
          (p.next ref).1 = p.report ((p.balance admission).1.candidates.drop
            (p.balance admission).1.next))) := by
  by_cases fault : p.accountingFaults ≠ 0
  · refine .inl ⟨fault, ?_⟩
    unfold next
    rw [found]
    exact if_pos fault
  right
  cases failed : (p.balance admission).1.balanceErr with
  | some failure =>
    refine .inl ⟨failure, rfl, ?_⟩
    unfold next
    rw [found]
    dsimp only
    rw [if_neg fault, failed]
    exact ⟨rfl, rfl⟩
  | none =>
    refine .inr ⟨not_not.mp fault, rfl, ?_⟩
    generalize walked : p.walk ((p.balance admission).1.candidates.drop
      (p.balance admission).1.next) 0 false false = walk
    unfold next
    rw [found]
    dsimp only
    rw [if_neg fault, failed, walked]
    cases stops : walk.conn with
    | some conn => exact ⟨rfl, .inl ⟨conn, rfl, rfl, rfl⟩⟩
    | none =>
      obtain ⟨_, connection, setup⟩ := p.walk_none
        (by rw [walked]; exact stops)
      rw [walked] at connection setup
      simp only [Bool.false_eq_true, false_or] at connection setup
      dsimp only
      unfold report
      by_cases full : walk.atConnectionCapacity = true
      · rw [if_pos full, if_pos (connection.mp full)]
        exact ⟨rfl, .inr ⟨rfl, rfl⟩⟩
      rw [if_neg full, if_neg (fun full_ => full (connection.mpr full_))]
      by_cases pending : walk.atSetupCapacity = true
      · obtain ⟨conn, member, candidate, _, limit⟩ := setup.mp pending
        rw [if_pos pending, if_pos ⟨conn, member, candidate, limit⟩]
        exact ⟨rfl, .inr ⟨rfl, rfl⟩⟩
      · rw [if_neg pending, if_neg]
        · exact ⟨rfl, .inr ⟨rfl, rfl⟩⟩
        · rintro ⟨conn, member, candidate, limit⟩
          refine pending (setup.mpr ⟨conn, member, candidate, ?_, limit⟩)
          intro connectionLimit
          exact full (connection.mpr ⟨conn, member, candidate, connectionLimit⟩)

theorem leased_none (refuses : ∀ lease, (p.next ref).1 ≠ .ok (some lease)) :
    p.leased ref = none := by
  unfold leased
  split
  · rename_i lease result
    exact absurd result (refuses lease)
  · rfl

theorem report_cases (passed : List ConnRef) :
    p.report passed = .ok none ∨
      p.report passed = .error .tcpGenerationConnectionCapacity ∨
      p.report passed = .error .tcpGenerationSetupCapacity := by
  unfold report
  split
  · exact .inr (.inl rfl)
  · split
    · exact .inr (.inr rfl)
    · exact .inl rfl

theorem next_called (honest : Honest p.balancer)
    (found : p.admissionCells[ref]? = some admission)
    (sound : admission.Sound) :
    ∃ after, (p.next ref).2.admissionCells[ref]? = some after ∧
      p.Called ref admission after := by
  have inside : ref < p.admissionCells.length :=
    (List.getElem?_eq_some_iff.mp found).1
  obtain ⟨balances, next, balanced⟩ := p.balance_continues honest sound
  rcases p.next_eq found with ⟨_, outcome⟩ | ⟨failure, failed, outcome, cells⟩ |
    ⟨_, clean, cells, ⟨conn, stops, outcome, leases⟩ | ⟨ends, outcome⟩⟩
  · refine ⟨admission, by rw [outcome]; exact found, ?_⟩
    refine ⟨⟨.refl _, fun _ => rfl, Nat.le_refl _, sound⟩, .inr rfl, ?_, ?_, ?_⟩
    · simp [leased, outcome]
    · simp [outcome, Yields]
    · simp [outcome, Exhausts]
  · obtain ⟨notConnection, notSetup⟩ := balances.sound.clean failure failed
    refine ⟨(p.balance admission).1, ?_, balances, .inl balanced, ?_, ?_, ?_⟩
    · rw [cells]
      exact List.getElem?_set_self inside
    · rw [leased_none (by simp [outcome])]
      simp
    · rw [outcome]
      intro yields
      unfold Yields at yields
      split at yields <;> simp_all
    · rw [outcome]
      intro exhausts
      unfold Exhausts at exhausts
      split at exhausts <;> simp_all
  · obtain ⟨passed, rest, remaining, count⟩ := walk_some stops
    obtain ⟨_, candidate, room⟩ := walk_conn stops
    have bound : (p.balance admission).1.next + (passed.length + 1) ≤
        (p.balance admission).1.candidates.length := by
      have length := congrArg List.length remaining
      simp only [List.length_drop, List.length_append, List.length_cons]
        at length
      omega
    refine ⟨_, by rw [cells]; exact List.getElem?_set_self inside, ?_⟩
    refine ⟨⟨balances.perm, balances.fixed, ?_, ?_⟩, .inl balanced, ?_, ?_, ?_⟩
    · dsimp only
      omega
    · refine ⟨fun unbalanced => ?_, ?_, balances.sound.clean⟩
      · cases balanced.symm.trans unbalanced
      · dsimp only
        omega
    · intro other leasedOther
      unfold leased at leasedOther
      rw [outcome] at leasedOther
      dsimp only at leasedOther
      rw [leases] at leasedOther
      simp only [List.getElem?_concat_length, Option.map_some,
        Option.some.injEq] at leasedOther
      subst leasedOther
      refine ⟨⟨candidate, room⟩, passed, rest, ?_, ?_⟩
      · rw [← next]
        exact remaining
      · dsimp only
        omega
    · intro _
      dsimp only
      omega
    · rw [outcome]
      intro exhausts
      exact exhausts.elim
  · obtain ⟨count, _⟩ := walk_none ends
    have all : (p.walk ((p.balance admission).1.candidates.drop
        (p.balance admission).1.next) 0 false false).passed =
        (p.balance admission).1.candidates.length -
          (p.balance admission).1.next := by
      rw [count, List.length_drop]
      omega
    have bound := balances.sound.within
    have within := sound.within
    refine ⟨_, by rw [cells]; exact List.getElem?_set_self inside, ?_⟩
    refine ⟨⟨balances.perm, balances.fixed, ?_, ?_⟩, .inl balanced, ?_, ?_, ?_⟩
    · dsimp only
      omega
    · refine ⟨fun unbalanced => ?_, ?_, balances.sound.clean⟩
      · cases balanced.symm.trans unbalanced
      · dsimp only
        omega
    · rw [leased_none]
      · simp
      · rw [outcome]
        rcases p.report_cases ((p.balance admission).1.candidates.drop
          (p.balance admission).1.next) with none | connection | setup
        · simp [none]
        · simp [connection]
        · simp [setup]
    · rw [outcome]
      intro yields
      dsimp only
      by_contra stuck
      have nothing : (p.balance admission).1.candidates.drop
          (p.balance admission).1.next = [] := by
        apply List.drop_eq_nil_of_le
        omega
      rw [nothing] at yields
      simp [report, Yields] at yields
    · intro _
      refine ⟨?_, ?_⟩
      · dsimp only
        omega
      · rw [outcome, next]

/-! ## All calls of an admission -/

theorem admission_other (found : p.admissionCells[ref]? = some admission)
    (other : op ≠ .next ref) :
    (p.apply op).admissionCells[ref]? = some admission := by
  by_cases begins : ∃ order, op = .beginTCPAdmission order
  · obtain ⟨order, rfl⟩ := begins
    rcases p.beginTCPAdmission_cases order with ⟨same, _⟩ | ⟨_, _, _, _, added⟩
    · change (p.beginTCPAdmission order).2.admissionCells[ref]? = _
      rw [same]
      exact found
    · change (p.beginTCPAdmission order).2.admissionCells[ref]? = _
      rw [added, List.getElem?_append_left
        (List.getElem?_eq_some_iff.mp found).1]
      exact found
  by_cases nexts : ∃ target, op = .next target
  · obtain ⟨target, rfl⟩ := nexts
    have different : target ≠ ref := by
      rintro rfl
      exact other rfl
    change (p.next target).2.admissionCells[ref]? = _
    cases there : p.admissionCells[target]? with
    | none =>
      have same : (p.next target).2 = p := by
        unfold next
        rw [there]
      rw [same]
      exact found
    | some held =>
      rcases p.next_eq there with ⟨_, outcome⟩ | ⟨_, _, _, cells⟩ |
        ⟨_, _, cells, _⟩
      · rw [outcome]
        exact found
      all_goals
        rw [cells, List.getElem?_set_ne different]
        exact found
  · push Not at begins nexts
    rw [(p.apply_frame op).admissions begins nexts]
    exact found

/-- The pools on which `Next` is called on the admission, in order. -/
def nextCalls (ref : AdmissionRef) :
    ConnectionPool σ → List Op → List (ConnectionPool σ)
  | _, [] => []
  | p, op :: rest =>
    if op = .next ref then p :: nextCalls ref (p.apply op) rest
    else nextCalls ref (p.apply op) rest

/-- What a whole run does with an admission. -/
structure History (p : ConnectionPool σ) (ref : AdmissionRef)
    (first : TCPAdmission) (ops : List Op) (last : TCPAdmission) : Prop where
  found : (ops.foldl apply p).admissionCells[ref]? = some last
  continues : first.Continues last
  leased : ((nextCalls ref p ops).filterMap fun q => q.leased ref).Sublist
    (last.candidates.drop first.next)
  yields : first.next + (nextCalls ref p ops).countP
    (fun q => decide (Yields (q.next ref).1)) ≤ last.next
  calls : ∀ q ∈ nextCalls ref p ops, ∃ before after,
    q.admissionCells[ref]? = some before ∧
      (q.next ref).2.admissionCells[ref]? = some after ∧
      after.candidates.Perm first.candidates ∧ q.Called ref before after

theorem Called.leased_sublist {rest : List Op} {after last : TCPAdmission}
    (called : p.Called ref admission after)
    (history : (p.apply op).History ref after rest last) :
    ((p :: nextCalls ref (p.apply op) rest).filterMap
      fun q => q.leased ref).Sublist (last.candidates.drop admission.next) := by
  have later := history.leased
  cases leases : p.leased ref with
  | none =>
    rw [List.filterMap_cons, leases]
    exact later.trans (List.drop_sublist_drop_left _ called.continues.advances)
  | some conn =>
    rw [List.filterMap_cons, leases]
    obtain ⟨_, passed, behind, remaining, next⟩ := called.leases conn leases
    have moved : after ≠ admission := by
      rintro rfl
      omega
    have balanced : after.balanced = true := called.balanced.resolve_right moved
    have same := history.continues.fixed balanced
    have rest : behind = last.candidates.drop after.next := by
      have dropped := congrArg (List.drop (passed.length + 1)) remaining
      rw [List.drop_drop] at dropped
      rw [same, next, Nat.add_assoc, dropped]
      simp
    rw [same, remaining, rest]
    exact (later.cons_cons conn).trans (List.sublist_append_right _ _)

theorem history (honest : Honest p.balancer)
    (found : p.admissionCells[ref]? = some admission)
    (sound : admission.Sound) (ops : List Op) :
    ∃ last, p.History ref admission ops last := by
  induction ops generalizing p admission with
  | nil =>
    exact ⟨admission, found,
      ⟨.refl _, fun _ => rfl, Nat.le_refl _, sound⟩, by simp [nextCalls],
      by simp [nextCalls], by simp [nextCalls]⟩
  | cons op rest ih =>
    have honestLater : Honest (p.apply op).balancer := by
      rw [(p.apply_frame op).balancer]
      exact honest
    by_cases own : op = .next ref
    · obtain ⟨after, foundAfter, called⟩ := next_called honest found sound
      obtain ⟨last, history⟩ := ih honestLater
        (by rw [own]; exact foundAfter) called.continues.sound
      have calls : nextCalls ref p (op :: rest) =
          p :: nextCalls ref (p.apply op) rest := if_pos own
      refine ⟨last, history.found,
        called.continues.trans history.continues called.balanced,
        ?_, ?_, ?_⟩
      · rw [calls]
        exact called.leased_sublist history
      · have later := history.yields
        have advances := called.continues.advances
        rw [calls, List.countP_cons]
        split
        · rename_i yields
          have further := called.yields (of_decide_eq_true yields)
          omega
        · omega
      · rw [calls]
        intro q member
        rcases List.mem_cons.mp member with rfl | later
        · exact ⟨admission, after, found, foundAfter,
            called.continues.perm, called⟩
        · obtain ⟨before, next, foundQ, foundNext, perm, calledQ⟩ :=
            history.calls q later
          exact ⟨before, next, foundQ, foundNext,
            perm.trans called.continues.perm, calledQ⟩
    · obtain ⟨last, history⟩ := ih honestLater (admission_other found own) sound
      have calls : nextCalls ref p (op :: rest) =
          nextCalls ref (p.apply op) rest := if_neg own
      refine ⟨last, history.found, history.continues, ?_, ?_, ?_⟩
      · rw [calls]
        exact history.leased
      · rw [calls]
        exact history.yields
      · rw [calls]
        exact history.calls

theorem roundRobinScan_honest {conns : ConnRef → ClientConn}
    {clients : List ConnRef} {index : Nat} {fallback : Option ConnRef}
    {failure : PoolError}
    (fails : roundRobinScan conns clients index fallback = .error failure) :
    failure = .noHealthyClients := by
  induction clients generalizing index fallback with
  | nil =>
    cases fallback with
    | none =>
      cases fails
      rfl
    | some client => cases fails
  | cons client rest ih =>
    unfold roundRobinScan at fails
    split at fails
    · exact ih fails
    · split at fails
      · cases fails
      · exact ih fails

theorem roundRobinBalancer_honest : Honest roundRobinBalancer := by
  intro counter conns clients
  have failures : ∀ failure,
      (roundRobinBalancer.select counter conns clients).1 = .error failure →
      failure = .noClientsAvailable ∨ failure = .noHealthyClients := by
    intro failure
    unfold roundRobinBalancer
    dsimp only
    split
    · intro same
      cases same
      exact .inl rfl
    · split
      · intro same
        cases same
        exact .inr rfl
      · split
        · split
          · intro same
            cases same
          · intro same
            cases same
            exact .inr rfl
        · intro same
          exact .inr (roundRobinScan_honest same)
  constructor
  all_goals
    intro same
    rcases failures _ same with other | other <;> cases other

/-- In every run after an admission has begun, its candidates stay a
permutation of the snapshot; a generation is leased at most once, and only
while it is current, healthy, TCP-capable and below both limits; a call that
returns neither a lease nor another error exhausts the walk and reports the
limits it met; and at most as many calls as there are candidates lease or
report. -/
theorem admission_walk (reachable : (runs σ).Reachable p)
    (honest : Honest p.balancer) {order : List ConnRef}
    (iteration : p.IterationOrder order) {ref : AdmissionRef}
    {started : ConnectionPool σ}
    (begins : p.beginTCPAdmission order = (.ok ref, started))
    (ops : List Op) :
    ∃ snapshot, started.admissionCells[ref]? = some snapshot ∧
      (∃ last, (ops.foldl apply started).admissionCells[ref]? = some last ∧
        last.candidates.Perm snapshot.candidates) ∧
      ((nextCalls ref started ops).filterMap fun q => q.leased ref).Nodup ∧
      (∀ q ∈ nextCalls ref started ops, ∀ conn, q.leased ref = some conn →
        conn ∈ snapshot.candidates ∧ q.isCurrentLocked conn = true ∧
          (q.conns conn).healthy = true ∧
          "tcp" ∈ (q.conns conn).capabilities ∧
          ¬ q.AtConnectionLimit conn ∧ ¬ q.AtSetupLimit conn) ∧
      (∀ q ∈ nextCalls ref started ops, Exhausts (q.next ref).1 →
        ∃ before after, q.admissionCells[ref]? = some before ∧
          (q.next ref).2.admissionCells[ref]? = some after ∧
          after.next = after.candidates.length ∧
          (q.next ref).1 = q.report (after.candidates.drop before.next)) ∧
      (nextCalls ref started ops).countP
        (fun q => decide (Yields (q.next ref).1)) ≤
          snapshot.candidates.length := by
  rcases p.beginTCPAdmission_cases order with ⟨_, never⟩ |
    ⟨accepted, cached, _, source, added⟩
  · rw [begins] at never
    exact absurd rfl (never ref)
  have ordered : p.IterationOrder cached := by
    rcases source with set | ⟨_, rfl⟩
    · exact coherent_of_reachable reachable cached set
    · exact iteration
  have steady := p.beginTCPAdmission_steady order
  rw [begins] at accepted added steady
  obtain rfl : ref = p.admissionCells.length := Except.ok.inj accepted
  have found : started.admissionCells[p.admissionCells.length]? = some
      ⟨cached.filter fun conn => isEligible (p.conns conn) .tcp,
        0, false, none⟩ := by
    change started.admissionCells = _ at added
    rw [added]
    exact List.getElem?_concat_length
  have honestStarted : Honest started.balancer := by
    rw [show started.balancer = p.balancer from steady.balancer]
    exact honest
  obtain ⟨last, history⟩ := history honestStarted found
    ⟨fun _ => rfl, Nat.zero_le _, fun _ failed => by cases failed⟩ ops
  have nodup : (cached.filter fun conn =>
      isEligible (p.conns conn) .tcp).Nodup :=
    (nodup_of_iterationOrder reachable ordered).filter _
  refine ⟨_, found, ⟨last, history.found, history.continues.perm⟩, ?_, ?_,
    ?_, ?_⟩
  · exact (history.continues.perm.nodup_iff.mpr nodup).sublist
      (history.leased.trans (List.drop_sublist _ _))
  · intro q member conn leases
    obtain ⟨before, after, _, _, perm, called⟩ := history.calls q member
    obtain ⟨⟨candidate, room⟩, passed, rest, remaining, _⟩ :=
      called.leases conn leases
    have listed : conn ∈ after.candidates := by
      apply List.mem_of_mem_drop
      rw [remaining]
      simp
    obtain ⟨current, eligible⟩ := Bool.and_eq_true_iff.mp candidate
    obtain ⟨healthy, capable⟩ := Bool.and_eq_true_iff.mp eligible
    obtain ⟨connections, setups⟩ := tcpCapacityErrorLocked_none room
    exact ⟨perm.mem_iff.mp listed, current, healthy,
      List.contains_iff_mem.mp capable, Int.not_le.mpr connections,
      Int.not_le.mpr setups⟩
  · intro q member exhausts
    obtain ⟨before, after, foundBefore, foundAfter, _, called⟩ :=
      history.calls q member
    obtain ⟨ends, reported⟩ := called.exhausts exhausts
    exact ⟨before, after, foundBefore, foundAfter, ends, reported⟩
  · have yields := history.yields
    have within := history.continues.sound.within
    rw [history.continues.perm.length_eq] at within
    omega

/-- Limits that allow one TCP connection a generation. -/
def tightLimits : Limits :=
  { defaultLimits with
    maxTCPConnectionsPerGeneration := 1
    tcpConnectionsPositive := by decide }

def tightPool : ConnectionPool UInt64 :=
  newWithLimits (fun _ => newClientConn "edge" ["tcp"]) roundRobinBalancer 0
    tightLimits

/-- The pool with one generation and an admission that has begun. -/
def tightAdmission : ConnectionPool UInt64 :=
  [Op.beginPending, .bind 0 0, .commit 0].foldl apply tightPool

theorem tightPool_schedule {balancer : LoadBalancer UInt64} {ops : List Op}
    (allows : TransitionSystem.Allows Enabled apply
      { tightPool with balancer := balancer } ops) :
    (runs UInt64).Reachable
      (ops.foldl apply { tightPool with balancer := balancer }) := by
  have start : (runs UInt64).Reachable
      { tightPool with balancer := balancer } :=
    .start ⟨_, _, _, _, fun _ => ⟨_, _, rfl⟩, rfl⟩
  exact start.schedule (fun p op enabled => Step.of_apply op enabled) allows

theorem admission_walk_sample :
    ((tightAdmission.beginTCPAdmission [0]).2.leased 0 = some 0 ∧
      (nextCalls 0 (tightAdmission.beginTCPAdmission [0]).2
        [.next 0, .next 0]).countP
          (fun q => decide (Yields (q.next 0).1)) ≤ 1) := by
  have reachable : (runs UInt64).Reachable tightAdmission :=
    tightPool_schedule (by decide +kernel)
  obtain ⟨snapshot, found, _, _, _, _, bounded⟩ :=
    admission_walk reachable roundRobinBalancer_honest
      (show tightAdmission.IterationOrder [0] by decide +kernel)
      (show tightAdmission.beginTCPAdmission [0] =
        (.ok 0, (tightAdmission.beginTCPAdmission [0]).2) from rfl)
      [.next 0, .next 0]
  refine ⟨by decide +kernel, ?_⟩
  cases found
  exact bounded

/-- A generation is registered, offered to two admissions, leased by the
second one and retired. -/
def retireFull : List Op :=
  [.beginPending, .bind 0 0, .commit 0, .beginTCPAdmission [0],
    .beginTCPAdmission [0], .next 1, .beginRetire 0]

/-- A walk does not report the limit of a generation that is no longer
current. -/
theorem retired_limit_unreported : ∃ p : ConnectionPool UInt64,
    (runs UInt64).Reachable p ∧ ∃ admission,
      p.admissionCells[0]? = some admission ∧
        0 ∈ admission.candidates.drop admission.next ∧
        p.AtConnectionLimit 0 ∧ (p.next 0).1 = .ok none := by
  have reachable : (runs UInt64).Reachable (retireFull.foldl apply tightPool) :=
    tightPool_schedule (by decide +kernel)
  refine ⟨_, reachable, _, rfl, ?_, ?_, ?_⟩
  · decide +kernel
  · decide +kernel
  · rfl

/-- A balancer that answers with one of the pool's capacity errors. -/
def reportingBalancer : LoadBalancer UInt64 where
  select state _ _ := (.error .tcpGenerationConnectionCapacity, state)

theorem reporting_balancer_stops : ∃ p : ConnectionPool UInt64,
    (runs UInt64).Reachable p ∧ ¬ Honest p.balancer ∧
      Exhausts (p.next 0).1 ∧ ∃ after,
        (p.next 0).2.admissionCells[0]? = some after ∧
          after.next < after.candidates.length := by
  have allows : TransitionSystem.Allows Enabled apply
      { tightPool with balancer := reportingBalancer }
      [.beginPending, .bind 0 0, .commit 0, .beginTCPAdmission [0]] := by
    decide +kernel
  refine ⟨_, tightPool_schedule allows, ?_, trivial, _, rfl, ?_⟩
  · intro honest
    exact (honest 0 (fun _ => newClientConn "edge" ["tcp"]) []).1 rfl
  · decide +kernel

end ConnectionPool

end QMux.Pool
