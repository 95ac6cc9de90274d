import QMux.Mesh.AdmissionLedger

/-!
# What a setup lease admits

A setup is claimed by the one lease that is acknowledged with it.  Once it is
claimed or released it stays so, and no operation reserves or acknowledges a
generation lease with it; probes carry no setup.
-/

namespace QMux.Mesh

open Support Admission

namespace Admission

variable {a : Admission}

/-- No lease was reserved or acknowledged with the setup between the states,
and the setup is still claimed or released. -/
structure Barred (l : Nat) (before after : Admission) : Prop where
  released : setupReleased after.setupLeases l = true
  leases : ∀ (i : Nat) (lease : GenerationLease),
    after.leases[i]? = some lease → lease.uses l = true →
    ∃ old, before.leases[i]? = some old ∧ old.uses l = true ∧
      lease.acknowledged = old.acknowledged

namespace Barred

variable {l i : Nat} {after : Admission}

theorem same (released : setupReleased after.setupLeases l = true)
    (leases : after.leases = a.leases) : Barred l a after := by
  refine ⟨released, ?_⟩
  intro i lease found used
  rw [leases] at found
  exact ⟨lease, found, used, rfl⟩

theorem append (released : setupReleased after.setupLeases l = true)
    {new : GenerationLease} (leases : after.leases = a.leases ++ [new])
    (other : new.uses l = false) : Barred l a after := by
  refine ⟨released, ?_⟩
  intro i lease found used
  rw [leases, getElem?_append_singleton] at found
  split at found
  · cases found
    rw [other] at used
    cases used
  · exact ⟨lease, found, used, rfl⟩

theorem set (released : setupReleased after.setupLeases l = true)
    {old : GenerationLease} (at_ : a.leases[i]? = some old)
    (new : GenerationLease)
    (leases : after.leases = a.leases.set i new)
    (uses : new.uses l = old.uses l)
    (acknowledged : new.uses l = true →
      new.acknowledged = old.acknowledged) : Barred l a after := by
  refine ⟨released, ?_⟩
  intro j lease found used
  rw [leases, getElem?_set_eq at_] at found
  split at found
  · rename_i here
    cases found
    refine ⟨old, ?_, ?_, acknowledged used⟩
    · rw [here]
      exact at_
    · rw [← uses]
      exact used
  · exact ⟨lease, found, used, rfl⟩

theorem orSame (released : setupReleased a.setupLeases l = true)
    {result : Except AdmissionError Admission}
    (kept : ∀ after, result = .ok after → Barred l a after) :
    Barred l a (a.orSame result) := by
  cases result with
  | ok after => exact kept after rfl
  | error _ => exact same released rfl

theorem withSource (released : setupReleased a.setupLeases l = true)
    {leases : List SourceLease}
    {operate : SourceLease → TCPSource → Admission}
    (kept : ∀ lease source, leases[i]? = some lease →
      Barred l a (operate lease source)) :
    Barred l a (a.withSource leases i operate) := by
  unfold Admission.withSource
  split
  · exact same released rfl
  split
  · exact same released rfl
  rename_i lease at_ _ source _
  exact kept lease source at_

theorem withGeneration (released : setupReleased a.setupLeases l = true)
    {operate : GenerationLease → TrafficGeneration → Admission}
    (kept : ∀ lease generation, a.leases[i]? = some lease →
      Barred l a (operate lease generation)) :
    Barred l a (a.withGeneration i operate) := by
  unfold Admission.withGeneration
  split
  · exact same released rfl
  split
  · exact same released rfl
  rename_i lease at_ _ generation _
  exact kept lease generation at_

end Barred

variable {g s l i : Nat} {setup : Option Nat}
  {terminal probe failOpen readsClosed : Bool} {after : Admission}
  {lease : GenerationLease}

theorem not_released_of_usable (usable : a.setupUsable s (some l) = true) :
    setupReleased a.setupLeases l = false := by
  unfold setupUsable at usable
  unfold setupReleased
  dsimp only at usable
  split at usable
  · cases usable
  · rename_i setup found
    rw [Bool.and_eq_true, Bool.not_eq_true'] at usable
    rw [found]
    exact usable.2

theorem Barred.reserve (released : setupReleased a.setupLeases l = true)
    (reserved : a.reserveLocked g s setup terminal probe failOpen
      readsClosed = .ok after) : Barred l a after := by
  obtain ⟨⟨generations, rfl⟩, usable⟩ := reserveLocked_adds reserved
  refine append ?_ rfl ?_
  · exact released
  · cases probing : probe with
    | true => simp [GenerationLease.uses]
    | false =>
      have different : setup ≠ some l := by
        intro own
        rw [own] at usable
        rw [not_released_of_usable (usable probing)] at released
        cases released
      simp [GenerationLease.uses, different]

theorem barred_acknowledge (generation : TrafficGeneration)
    (released : setupReleased a.setupLeases l = true)
    (at_ : a.leases[i]? = some lease) :
    Barred l a (a.acknowledge i lease generation).1 := by
  unfold acknowledge
  split
  · exact .same released rfl
  rename_i own used
  split
  · exact .same released rfl
  rename_i setup known
  split
  · exact .same released rfl
  split
  · exact .same released rfl
  split
  · exact .same released rfl
  rename_i held
  refine Barred.set ?_ at_
    { lease with state := .active, acknowledged := true } rfl rfl ?_
  · dsimp only
    rw [setupReleased_set known, released, Bool.or_true]
  · -- the setup of this lease was live, so it is another one
    intro uses
    exfalso
    have same : own = l := by
      simpa [GenerationLease.uses, used] using (Bool.and_eq_true_iff.mp uses).2
    subst same
    unfold setupReleased at released
    rw [known] at released
    exact held released

/-- The setup of a lease that is acknowledged was neither claimed nor
released. -/
theorem acknowledge_claims {generation : TrafficGeneration}
    (used : lease.setup = some l)
    (acknowledged : (a.acknowledge i lease generation).2 = true) :
    setupReleased a.setupLeases l = false := by
  unfold acknowledge at acknowledged
  rw [used] at acknowledged
  dsimp only at acknowledged
  split at acknowledged
  · cases acknowledged
  rename_i setup known
  split at acknowledged
  · cases acknowledged
  split at acknowledged
  · cases acknowledged
  split at acknowledged
  · cases acknowledged
  · rename_i held
    unfold setupReleased
    rw [known]
    exact Bool.not_eq_true _ ▸ held

/-- An operation reserves and acknowledges nothing with a setup that is
claimed or released. -/
theorem barred_apply (released : setupReleased a.setupLeases l = true)
    (op : Op) : Barred l a (a.apply op) := by
  cases op with
  | newSource | newGeneration | closeRegistry | beginClientSelection =>
    exact .same released rfl
  | closeSource | setGeneration =>
    simp only [apply]
    split <;> exact .same released rfl
  | beginFlow s =>
    simp only [apply]
    split
    · exact .same released rfl
    apply Barred.orSame released
    intro after begun
    unfold beginFlow at begun
    split at begun
    · cases begun
    split at begun
    · cases begun
    cases begun
    exact .same released rfl
  | releaseFlow f =>
    apply Barred.withSource released
    intro lease source _
    unfold releaseFlow
    split <;> exact .same released rfl
  | beginSetup f =>
    apply Barred.withSource released
    intro lease source _
    apply Barred.orSame released
    intro after begun
    unfold beginSetup at begun
    split at begun
    · cases begun
    split at begun
    · cases begun
    split at begun
    · cases begun
    cases begun
    exact .same (setupReleased_append _ released) rfl
  | releaseSetup k =>
    apply Barred.withSource released
    intro lease source at_
    unfold releaseSetup
    split
    · exact .same released rfl
    · refine Barred.same ?_ rfl
      dsimp only
      rw [setupReleased_set at_, released, Bool.or_true]
  | beginRequest f =>
    apply Barred.withSource released
    intro lease source _
    apply Barred.orSame released
    intro after begun
    unfold beginRequest at begun
    split at begun
    · cases begun
    split at begun
    · cases begun
    split at begun
    · cases begun
    split at begun
    · cases begun
    cases begun
    exact .same released rfl
  | releaseRequest k =>
    apply Barred.withSource released
    intro lease source _
    unfold releaseRequest
    split <;> exact .same released rfl
  | next k readsClosed =>
    simp only [apply]
    split
    · exact .same released rfl
    rename_i selection _
    have kept : Barred l a (a.orSame (a.next selection readsClosed).1) := by
      apply Barred.orSame released
      intro after reserved
      obtain ⟨g, s, failedOnly, reserved⟩ := next_reserves reserved
      exact .reserve released reserved
    exact { kept with }
  | reserveNextHop g k readsClosed =>
    apply Barred.orSame released
    intro after reserved
    obtain ⟨s, reserved⟩ := reserveNextHop_reserves reserved
    exact .reserve released reserved
  | reserveProbe g s readsClosed =>
    apply Barred.orSame released
    intro after reserved
    exact .reserve released reserved
  | acknowledge i =>
    apply Barred.withGeneration released
    intro lease generation at_
    exact barred_acknowledge generation released at_
  | settle k =>
    simp only [apply]
    split
    · apply Barred.withSource released
      intro lease source _
      exact .same released rfl
    · exact .same released rfl
  | acknowledgeProbe i =>
    apply Barred.withGeneration released
    intro lease generation at_
    unfold acknowledgeProbe
    split
    · exact .same released rfl
    split
    · exact .same released rfl
    · exact .set released at_ _ rfl rfl fun _ => rfl
  | releaseLease i =>
    apply Barred.withGeneration released
    intro lease generation at_
    unfold releaseLease
    split
    · exact .same released rfl
    · exact .set released at_ _ rfl rfl fun _ => rfl

/-- What the gauges of a source and of a generation say. -/
structure Accounted (a : Admission) : Prop where
  flows : ∀ (s : Nat) (source : TCPSource), a.sources[s]? = some source →
    source.flows = heldLeases a.flowLeases s ∧ 0 ≤ source.flows ∧
      source.flows ≤ source.capacity.maxTCPConnections
  setups : ∀ (s : Nat) (source : TCPSource), a.sources[s]? = some source →
    source.setups = openSetups a.setupLeases a.settling s ∧ 0 ≤ source.setups ∧
      source.setups ≤ source.capacity.maxPendingTCPSetups
  requests : ∀ (s : Nat) (source : TCPSource), a.sources[s]? = some source →
    source.requests = heldLeases a.requestLeases s ∧ 0 ≤ source.requests ∧
      source.requests ≤ source.requestLimit
  traffic : ∀ (g : Nat) (generation : TrafficGeneration) (s : Nat)
    (source : TCPSource), a.generations[g]? = some generation →
    a.sources[s]? = some source →
    (generation.traffic s).pending = outstanding a.leases g s .pending ∧
      (generation.traffic s).active = outstanding a.leases g s .active ∧
      (generation.traffic s).pending + (generation.traffic s).active ≤
        source.capacity.maxTCPConnectionsPerGeneration ∧
      (generation.traffic s).pending ≤
        source.capacity.maxPendingTCPSetupsPerGeneration
  inflight : ∀ (g : Nat) (generation : TrafficGeneration),
    a.generations[g]? = some generation →
    generation.inflight = a.leases.countP (GenerationLease.inflight g)
  claims : ∀ l, a.leases.countP (GenerationLease.claims l) ≤ 1 ∧
    (0 < a.leases.countP (GenerationLease.claims l) →
      setupReleased a.setupLeases l = true)

theorem Sound.accounted (sound : a.Sound) : a.Accounted := by
  constructor
  · intro s source found
    have equal := sound.flows.equal s source found
    exact ⟨equal, equal ▸ Int.natCast_nonneg _,
      sound.flows.within s source found⟩
  · intro s source found
    have equal := sound.setups.equal s source found
    exact ⟨equal, equal ▸ Int.natCast_nonneg _,
      sound.setups.within s source found⟩
  · intro s source found
    have equal := sound.requests.equal s source found
    exact ⟨equal, equal ▸ Int.natCast_nonneg _,
      sound.requests.within s source found⟩
  · intro g generation s source found known
    have limited : (a.sources.map TCPSource.capacity)[s]? =
        some source.capacity := by
      rw [List.getElem?_map, known]
      rfl
    exact ⟨sound.traffic.pending g generation s found,
      sound.traffic.active g generation s found,
      sound.traffic.within g generation s source.capacity found limited⟩
  · exact sound.traffic.inflight
  · intro l
    have bound := sound.claims l
    cases released : setupReleased a.setupLeases l with
    | true =>
      rw [released] at bound
      exact ⟨bound, fun _ => rfl⟩
    | false =>
      rw [released] at bound
      change _ ≤ 0 at bound
      exact ⟨by omega, by omega⟩

/-- In every state of every run the gauges are exact and within their
limits, the leases they count are those that the calls left outstanding, a
setup acknowledges one lease at most and only while it is live, and
afterwards it admits nothing. -/
theorem admission_accounted {ledger : Ledger}
    (reachable : recorded.Reachable (a, ledger)) :
    a.Accounted ∧ a.ledger = ledger ∧
      (∀ i lease generation l, a.leases[i]? = some lease →
        lease.setup = some l →
        (a.acknowledge i lease generation).2 = true →
        setupReleased a.setupLeases l = false) ∧
      ∀ op l, setupReleased a.setupLeases l = true →
        Barred l a (a.apply op) := by
  obtain ⟨sound, same⟩ := recorded_sound reachable
  refine ⟨sound.accounted, same, ?_, ?_⟩
  · intro i lease generation l _ used acknowledged
    exact acknowledge_claims used acknowledged
  · intro op l released
    exact barred_apply released op

/-- One flow of two, a setup, the request and a probe are given back; one
setup is claimed and settled, while a second reservation with it is refused,
and one is claimed and not yet settled. -/
def sampleSchedule : List Op :=
  [.newSource ⟨2, 2, 2, 2⟩ 1, .beginFlow 0, .beginFlow 0, .beginSetup 0,
    .beginSetup 0, .beginRequest 0, .newGeneration true,
    .setGeneration 0 true .healthy, .reserveNextHop 0 0 false,
    .acknowledge 0, .reserveNextHop 0 0 false, .settle 0, .releaseSetup 1,
    .releaseRequest 0, .reserveProbe 0 0 false, .acknowledgeProbe 1,
    .releaseLease 1, .releaseFlow 0, .releaseFlow 0, .beginSetup 1,
    .reserveNextHop 0 2 false, .acknowledge 2]

theorem admission_accounted_sample :
    ∃ (a : Admission) (ledger : Ledger), recorded.Reachable (a, ledger) ∧
      ledger = ⟨[true, false], [true, true, true], [true],
        [.active, .released, .active], [2]⟩ ∧
      a.sources.map (fun source =>
        (source.flows, source.setups, source.requests)) = [(1, 1, 0)] ∧
      a.Accounted ∧ a.ledger = ledger ∧
      Barred 0 a (a.apply (.reserveNextHop 0 0 false)) := by
  have steps : ∀ (state : Admission × Ledger) (op : Op),
    True → recorded.step state (record state op) := fun _ op _ => ⟨op, rfl⟩
  have allows : TransitionSystem.Allows (fun _ _ => True) record start
      sampleSchedule := by
    simp [TransitionSystem.Allows, sampleSchedule]
  have begun : recorded.Reachable start := .start rfl
  have reachable := begun.schedule steps allows
  have accounted := admission_accounted reachable
  refine ⟨_, _, reachable, ?_, ?_, accounted.1, accounted.2.1,
    accounted.2.2.2 _ _ ?_⟩
  all_goals decide +kernel

end Admission

end QMux.Mesh
