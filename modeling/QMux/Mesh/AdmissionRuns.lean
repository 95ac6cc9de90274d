import QMux.Mesh.AdmissionAccounts

/-!
# Mesh admission over whole runs

The accounts hold in every state, also between the two sections of an
`acknowledge` call, where the setup is claimed and not yet settled.  A setup
that is claimed or released reserves and acknowledges nothing any more.
-/

namespace QMux.Mesh

open Support GenerationLease TCPSource

/-- The setup is claimed or released. -/
def setupReleased (setups : List SourceLease) (l : Nat) : Bool :=
  setups[l]?.any SourceLease.released

/-- The lease was acknowledged with the setup. -/
def GenerationLease.claims (l : Nat) (lease : GenerationLease) : Bool :=
  lease.acknowledged && decide (lease.setup = some l)

/-- The lease was reserved with the setup. -/
def GenerationLease.uses (l : Nat) (lease : GenerationLease) : Bool :=
  !lease.probe && decide (lease.setup = some l)

/-- The settlement of the setup is owed to the source. -/
def owedTo (setups : List SourceLease) (s l : Nat) : Bool :=
  setups[l]?.any fun setup => decide (setup.source = s)

namespace Admission

variable {a : Admission}

/-- Setup leases of a source that are not yet released or settled. -/
def openSetups (setups : List SourceLease) (settling : List Nat) (s : Nat) :
    Nat :=
  heldLeases setups s + settling.countP (owedTo setups s)

/-- The invariant of all runs. -/
structure Sound (a : Admission) : Prop where
  flows : Gauged a.sources flows
    (fun source => source.capacity.maxTCPConnections)
    a.flowLeases (heldLeases a.flowLeases)
  setups : Gauged a.sources setups
    (fun source => source.capacity.maxPendingTCPSetups)
    a.setupLeases (openSetups a.setupLeases a.settling)
  requests : Gauged a.sources requests
    (fun source => source.requestLimit)
    a.requestLeases (heldLeases a.requestLeases)
  traffic : Traffic (a.sources.map capacity) a.generations a.leases
  settling : ∀ l ∈ a.settling, setupReleased a.setupLeases l = true
  distinct : a.settling.Nodup
  claims : ∀ l, a.leases.countP (claims l) ≤
    (setupReleased a.setupLeases l).toNat

theorem sound_empty : empty.Sound := by
  refine
    { flows := ⟨?_, ?_, ?_⟩, setups := ⟨?_, ?_, ?_⟩,
      requests := ⟨?_, ?_, ?_⟩, traffic := ⟨?_, ?_, ?_, ?_, ?_⟩,
      settling := ?_, distinct := List.nodup_nil,
      claims := fun _ => Nat.zero_le _ }
  all_goals
    intros
    simp_all [empty]

variable {s l : Nat} {old new : TCPSource}
  {leases setups : List SourceLease} {setup : SourceLease}

theorem map_capacity_set {sources : List TCPSource}
    (found : sources[s]? = some old) (same : new.capacity = old.capacity) :
    (sources.set s new).map capacity = sources.map capacity := by
  rw [List.map_set, same]
  apply set_eq_self
  rw [List.getElem?_map, found]
  rfl

theorem Sound.update (sound : a.Sound) (found : a.sources[s]? = some old)
    (capacity : new.capacity = old.capacity)
    {flowLeases setupLeases requestLeases : List SourceLease}
    {settling : List Nat}
    (flows : Gauged (a.sources.set s new) TCPSource.flows
      (fun source => source.capacity.maxTCPConnections)
      flowLeases (heldLeases flowLeases))
    (setups : Gauged (a.sources.set s new) TCPSource.setups
      (fun source => source.capacity.maxPendingTCPSetups)
      setupLeases (openSetups setupLeases settling))
    (requests : Gauged (a.sources.set s new) TCPSource.requests
      (fun source => source.requestLimit)
      requestLeases (heldLeases requestLeases))
    (settled : ∀ l ∈ settling, setupReleased setupLeases l = true)
    (distinct : settling.Nodup)
    (claims : ∀ l, a.leases.countP (GenerationLease.claims l) ≤
      (setupReleased setupLeases l).toNat) :
    Sound { a with
      sources := a.sources.set s new
      flowLeases := flowLeases
      setupLeases := setupLeases
      requestLeases := requestLeases
      settling := settling } := by
  refine
    { flows := flows, setups := setups, requests := requests,
      traffic := ?_, settling := settled, distinct := distinct,
      claims := claims }
  dsimp only
  rw [map_capacity_set found capacity]
  exact sound.traffic

theorem setupReleased_append (setup : SourceLease)
    (released : setupReleased setups l = true) :
    setupReleased (setups ++ [setup]) l = true := by
  unfold setupReleased at released ⊢
  rw [Option.any_eq_true] at released ⊢
  obtain ⟨lease, found, truth⟩ := released
  refine ⟨lease, ?_, truth⟩
  rw [List.getElem?_append_left (List.getElem?_eq_some_iff.mp found).1]
  exact found

theorem setupReleased_set (found : setups[l]? = some setup) (other : Nat) :
    setupReleased (setups.set l { setup with released := true }) other =
      (decide (other = l) || setupReleased setups other) := by
  unfold setupReleased
  rw [getElem?_set_eq found]
  by_cases same : other = l <;> simp [same]

theorem Sound.owedTo_append (sound : a.Sound) (setup : SourceLease)
    (s : Nat) :
    a.settling.countP (owedTo (a.setupLeases ++ [setup]) s) =
      a.settling.countP (owedTo a.setupLeases s) := by
  apply List.countP_congr
  intro l among
  have released := sound.settling l among
  unfold setupReleased at released
  rw [Option.any_eq_true] at released
  obtain ⟨setup, found, _⟩ := released
  unfold owedTo
  rw [List.getElem?_append_left (List.getElem?_eq_some_iff.mp found).1]

theorem owedTo_set (found : setups[l]? = some setup) (s : Nat) :
    owedTo (setups.set l { setup with released := true }) s =
      owedTo setups s := by
  funext other
  unfold owedTo
  rw [getElem?_set_eq found]
  by_cases same : other = l
  · rw [if_pos same, same, found]
    rfl
  · rw [if_neg same]

theorem owedTo_eq (found : setups[l]? = some setup) (s : Nat) :
    owedTo setups s l = decide (setup.source = s) := by
  simp [owedTo, found]

section Sources

variable {l s : Nat} {lease : SourceLease} {source : TCPSource}

variable (sound : a.Sound)

include sound

theorem Sound.beginFlow (found : a.sources[s]? = some source) :
    (a.orSame (a.beginFlow s source)).Sound := by
  unfold Admission.beginFlow
  split
  · exact sound
  split
  · exact sound
  rename_i room
  apply sound.update found
  · rfl
  · apply sound.flows.begin (fun _ => 0) (fun _ => rfl) found rfl
    · dsimp only
      omega
    · exact fun _ => rfl
  · exact sound.setups.keep found rfl rfl
  · exact sound.requests.keep found rfl rfl
  · exact sound.settling
  · exact sound.distinct
  · exact sound.claims

theorem Sound.releaseFlow (at_ : a.flowLeases[l]? = some lease)
    (found : a.sources[lease.source]? = some source) :
    (a.releaseFlow l lease source).1.Sound := by
  unfold Admission.releaseFlow
  split
  · exact sound
  rename_i held
  rw [Bool.not_eq_true] at held
  apply sound.update found
  · rfl
  · exact sound.flows.release (fun _ => 0) (fun _ => rfl) at_ held found
      rfl rfl fun _ => rfl
  · exact sound.setups.keep found rfl rfl
  · exact sound.requests.keep found rfl rfl
  · exact sound.settling
  · exact sound.distinct
  · exact sound.claims

theorem Sound.beginRequest (found : a.sources[lease.source]? = some source) :
    (a.orSame (a.beginRequest lease source)).Sound := by
  unfold Admission.beginRequest
  split
  · exact sound
  split
  · exact sound
  split
  · exact sound
  split
  · exact sound
  rename_i room
  apply sound.update found
  · rfl
  · exact sound.flows.keep found rfl rfl
  · exact sound.setups.keep found rfl rfl
  · apply sound.requests.begin (fun _ => 0) (fun _ => rfl) found rfl
    · dsimp only
      omega
    · exact fun _ => rfl
  · exact sound.settling
  · exact sound.distinct
  · exact sound.claims

theorem Sound.releaseRequest (at_ : a.requestLeases[l]? = some lease)
    (found : a.sources[lease.source]? = some source) :
    (a.releaseRequest l lease source).1.Sound := by
  unfold Admission.releaseRequest
  split
  · exact sound
  rename_i held
  rw [Bool.not_eq_true] at held
  apply sound.update found
  · rfl
  · exact sound.flows.keep found rfl rfl
  · exact sound.setups.keep found rfl rfl
  · exact sound.requests.release (fun _ => 0) (fun _ => rfl) at_ held found
      rfl rfl fun _ => rfl
  · exact sound.settling
  · exact sound.distinct
  · exact sound.claims

theorem Sound.beginSetup (found : a.sources[lease.source]? = some source) :
    (a.orSame (a.beginSetup lease source)).Sound := by
  unfold Admission.beginSetup
  split
  · exact sound
  split
  · exact sound
  split
  · exact sound
  rename_i room
  apply sound.update found
  · rfl
  · exact sound.flows.keep found rfl rfl
  · apply sound.setups.begin _ (fun _ => rfl) found rfl
    · dsimp only
      omega
    · intro s
      rw [← sound.owedTo_append ⟨lease.source, false⟩ s]
      rfl
  · exact sound.requests.keep found rfl rfl
  · intro other among
    exact setupReleased_append _ (sound.settling other among)
  · exact sound.distinct
  · intro other
    refine (sound.claims other).trans ?_
    cases released : setupReleased a.setupLeases other with
    | false => exact Nat.zero_le _
    | true =>
      rw [setupReleased_append _ released]

theorem Sound.releaseSetup (at_ : a.setupLeases[l]? = some lease)
    (found : a.sources[lease.source]? = some source) :
    (a.releaseSetup l lease source).1.Sound := by
  unfold Admission.releaseSetup
  split
  · exact sound
  rename_i held
  rw [Bool.not_eq_true] at held
  apply sound.update found
  · rfl
  · exact sound.flows.keep found rfl rfl
  · refine sound.setups.release _ (fun _ => rfl) at_ held found rfl rfl ?_
    intro s
    unfold openSetups
    rw [owedTo_set at_]
  · exact sound.requests.keep found rfl rfl
  · intro other among
    rw [setupReleased_set at_, sound.settling other among, Bool.or_true]
  · exact sound.distinct
  · intro other
    refine (sound.claims other).trans ?_
    rw [setupReleased_set at_]
    cases setupReleased a.setupLeases other with
    | false => exact Nat.zero_le _
    | true =>
      rw [Bool.or_true]

theorem Sound.settle (owed : l ∈ a.settling)
    (at_ : a.setupLeases[l]? = some lease)
    (found : a.sources[lease.source]? = some source) :
    (a.settle l lease source).Sound := by
  have count := sound.setups.equal _ source found
  have limit := sound.setups.within _ source found
  have erased : ∀ s, openSetups a.setupLeases a.settling s =
      openSetups a.setupLeases (a.settling.erase l) s +
        (decide (lease.source = s)).toNat := by
    intro s
    have perm := (List.perm_cons_erase owed).countP_eq (owedTo a.setupLeases s)
    unfold openSetups
    rw [perm, List.countP_cons, owedTo_eq at_]
    by_cases own : lease.source = s <;> simp [own]
    rfl
  have own := erased lease.source
  rw [decide_eq_true rfl, Bool.toNat_true] at own
  apply sound.update found
  · rfl
  · exact sound.flows.keep found rfl rfl
  · apply sound.setups.set found
    · dsimp only
      omega
    · dsimp only
      omega
    · intro other different
      rw [erased other, decide_eq_false different.symm]
      rfl
    · exact sound.setups.owned
  · exact sound.requests.keep found rfl rfl
  · intro other among
    exact sound.settling other (List.mem_of_mem_erase among)
  · exact sound.distinct.erase l
  · exact sound.claims

end Sources

section Generations

variable {g i : Nat} {lease : GenerationLease}
  {generation : TrafficGeneration}

theorem claims_append (leases : List GenerationLease) (l : Nat)
    (acknowledged : lease.acknowledged = false) :
    (leases ++ [lease]).countP (claims l) = leases.countP (claims l) := by
  rw [countP_append_singleton]
  simp [claims, acknowledged]

variable {l s : Nat} {readsClosed : Bool} {selection : ClientSelection}
  {after : Admission}

theorem claims_set {leases : List GenerationLease}
    (at_ : leases[i]? = some lease) {after : GenerationLease}
    (same : after.claims l = lease.claims l) :
    (leases.set i after).countP (claims l) = leases.countP (claims l) := by
  have moved := countP_set_eq (claims l) at_ after
  rw [same] at moved
  omega

section

variable (sound : a.Sound)

include sound

theorem Sound.transfer (generations : List TrafficGeneration)
    (leases : List GenerationLease)
    (traffic : Traffic (a.sources.map capacity) generations leases)
    (claims : ∀ l, leases.countP (GenerationLease.claims l) =
      a.leases.countP (GenerationLease.claims l)) :
    Sound { a with generations := generations, leases := leases } := by
  refine { sound with traffic := traffic, claims := ?_ }
  intro l
  dsimp only
  rw [claims]
  exact sound.claims l

theorem Sound.newSource (capacity : MeshTCPCapacity) (requestLimit : Nat) :
    Sound { a with
      sources := a.sources ++ [newTCPSource capacity requestLimit] } := by
  have unowed : a.settling.countP (owedTo a.setupLeases a.sources.length) =
      0 := by
    apply List.countP_eq_zero.mpr
    intro l _ owed
    unfold owedTo at owed
    rw [Option.any_eq_true] at owed
    obtain ⟨setup, found, own⟩ := owed
    have bound := sound.setups.owned setup (List.mem_of_getElem? found)
    rw [decide_eq_true_iff] at own
    omega
  refine
    { flows := sound.flows.append rfl (Int.natCast_nonneg _)
        (heldLeases_beyond sound.flows.owned),
      setups := sound.setups.append rfl (Int.natCast_nonneg _) ?_,
      requests := sound.requests.append rfl (Int.natCast_nonneg _)
        (heldLeases_beyond sound.requests.owned),
      traffic := ?_, settling := sound.settling, distinct := sound.distinct,
      claims := sound.claims }
  · unfold openSetups
    rw [heldLeases_beyond sound.setups.owned, unowed]
  · have traffic := sound.traffic
    dsimp only
    rw [List.map_append]
    refine { traffic with within := ?_, owned := ?_ }
    · intro g generation s limits at_ limited
      by_cases inside : s < (a.sources.map TCPSource.capacity).length
      · rw [List.getElem?_append_left inside] at limited
        exact traffic.within g generation s limits at_ limited
      -- no lease is of the new source
      have none : ∀ state, outstanding a.leases g s state = 0 := by
        intro state
        apply List.countP_eq_zero.mpr
        intro lease among counted
        have bound := (traffic.owned lease among).2
        simp only [counts, Bool.and_eq_true, decide_eq_true_iff] at counted
        omega
      rw [traffic.pending g generation s at_,
        traffic.active g generation s at_, none, none]
      omega
    · intro lease among
      obtain ⟨first, second⟩ := traffic.owned lease among
      rw [List.length_append]
      omega

theorem Sound.closeSource {source : TCPSource}
    (found : a.sources[s]? = some source) :
    Sound { a with
      sources := a.sources.set s { source with closed := true } } := by
  apply sound.update found
  · rfl
  · exact sound.flows.keep found rfl rfl
  · exact sound.setups.keep found rfl rfl
  · exact sound.requests.keep found rfl rfl
  · exact sound.settling
  · exact sound.distinct
  · exact sound.claims

theorem Sound.newGeneration (fresh : ∀ s, generation.traffic s = ⟨0, 0, 0, 0⟩)
    (idle : generation.inflight = 0) :
    Sound { a with generations := a.generations ++ [generation] } := by
  have traffic := sound.traffic
  have none : ∀ s state,
      outstanding a.leases a.generations.length s state = 0 := by
    intro s state
    apply List.countP_eq_zero.mpr
    intro lease among counted
    have bound := (traffic.owned lease among).1
    simp only [counts, Bool.and_eq_true, decide_eq_true_iff] at counted
    omega
  have flight : a.leases.countP
      (GenerationLease.inflight a.generations.length) = 0 := by
    apply List.countP_eq_zero.mpr
    intro lease among counted
    have bound := (traffic.owned lease among).1
    simp only [GenerationLease.inflight, Bool.and_eq_true,
      decide_eq_true_iff] at counted
    omega
  apply sound.transfer _ a.leases
  · constructor
    · intro g other s at_
      rcases cases_append at_ with ⟨last, rfl⟩ | at_
      · rw [fresh, last, none]
        rfl
      · exact traffic.pending g other s at_
    · intro g other s at_
      rcases cases_append at_ with ⟨last, rfl⟩ | at_
      · rw [fresh, last, none]
        rfl
      · exact traffic.active g other s at_
    · intro g other s capacity at_ limited
      rcases cases_append at_ with ⟨_, rfl⟩ | at_
      · rw [fresh]
        dsimp only
        omega
      · exact traffic.within g other s capacity at_ limited
    · intro g other at_
      rcases cases_append at_ with ⟨last, rfl⟩ | at_
      · rw [idle, last, flight]
        rfl
      · exact traffic.inflight g other at_
    · intro lease among
      obtain ⟨first, second⟩ := traffic.owned lease among
      rw [List.length_append]
      omega
  · intro l
    rfl

theorem Sound.setGeneration (found : a.generations[g]? = some generation)
    (ready : Bool) (l7Health : InstanceL7Health) :
    Sound { a with
      generations := a.generations.set g { generation with
        ready := ready, l7Health := l7Health } } := by
  have traffic := sound.traffic
  apply sound.transfer _ a.leases
  · apply traffic.set found
    · intro s
      exact traffic.pending g generation s found
    · intro s
      exact traffic.active g generation s found
    · intro s capacity limited
      exact traffic.within g generation s capacity found limited
    · exact traffic.inflight g generation found
    · intro other _
      exact ⟨fun _ _ => rfl, rfl⟩
    · exact traffic.owned
  · intro l
    rfl

theorem Sound.reserveLocked {setup : Option Nat}
    {terminal probe failOpen : Bool} {next : Admission}
    (reserved : a.reserveLocked g s setup terminal probe failOpen
      readsClosed = .ok next) : next.Sound := by
  unfold Admission.reserveLocked at reserved
  split at reserved
  · rename_i source generation known found
    split at reserved
    · cases reserved
    split at reserved
    · cases reserved
    split at reserved
    · cases reserved
    dsimp only at reserved
    split at reserved
    · cases reserved
    rename_i room
    split at reserved
    · cases reserved
    rename_i setupRoom
    cases reserved
    have limited : (a.sources.map capacity)[s]? = some source.capacity := by
      rw [List.getElem?_map, known]
      rfl
    apply sound.transfer
    · refine sound.traffic.reserve
        ⟨g, s, setup, probe, terminal, failOpen, .pending, false⟩ found rfl
        limited ⟨_, _, _, _⟩ rfl rfl ?_
      dsimp only
      omega
    · intro l
      exact claims_append _ _ rfl
  · cases reserved
  · cases reserved

end

theorem nextLoop_reserves {failedOnly : Bool} {fuel : Nat}
    {connectionFull setupFull : Bool}
    (reserved : (a.nextLoop failedOnly readsClosed s fuel selection
      connectionFull setupFull).1 = .ok after) :
    ∃ g, a.reserveLocked g s selection.setup true false failedOnly
      readsClosed = .ok after := by
  induction fuel generalizing selection connectionFull setupFull with
  | zero => cases reserved
  | succ fuel ih =>
    unfold nextLoop at reserved
    split at reserved
    · cases reserved
    rename_i g _
    dsimp only at reserved
    split at reserved
    · rename_i next found
      cases reserved
      exact ⟨g, found⟩
    · cases reserved
    · cases reserved
    · obtain ⟨other, found⟩ := ih reserved
      exact ⟨other, found⟩

theorem next_reserves
    (reserved : (a.next selection readsClosed).1 = .ok after) :
    ∃ g s failedOnly, a.reserveLocked g s selection.setup true false
      failedOnly readsClosed = .ok after := by
  unfold Admission.next at reserved
  split at reserved
  · cases reserved
  split at reserved
  · cases reserved
  split at reserved
  · cases reserved
  rename_i setup _
  split at reserved
  · cases reserved
  split at reserved
  · cases reserved
  dsimp only at reserved
  obtain ⟨g, found⟩ := nextLoop_reserves reserved
  exact ⟨g, setup.source, _, found⟩

theorem reserveNextHop_reserves
    (reserved : a.reserveNextHop g l readsClosed = .ok after) :
    ∃ s, a.reserveLocked g s (some l) false false false readsClosed =
      .ok after := by
  unfold Admission.reserveNextHop at reserved
  split at reserved
  · rename_i setup _ _ _
    split at reserved
    · cases reserved
    split at reserved
    · cases reserved
    exact ⟨setup.source, reserved⟩
  · cases reserved
  · cases reserved

variable (sound : a.Sound)

include sound

theorem Sound.orSame {result : Except AdmissionError Admission}
    (kept : ∀ after, result = .ok after → after.Sound) :
    (a.orSame result).Sound := by
  cases result with
  | ok after => exact kept after rfl
  | error _ => exact sound

variable (at_ : a.leases[i]? = some lease)

include at_

theorem Sound.activate
    (found : a.generations[lease.generation]? = some generation)
    (pending : lease.state = .pending) (acknowledged : Bool) :
    Traffic (a.sources.map capacity)
      (a.activateLocked i lease generation acknowledged).generations
      (a.activateLocked i lease generation acknowledged).leases := by
  refine sound.traffic.move at_
    { lease with state := .active, acknowledged := acknowledged } rfl rfl
    found ⟨_, _, _, _⟩ generation.inflight ?_ ?_ ?_ ?_
  · rw [pending]
    simp [Traffic.one]
  · rw [pending]
    simp [Traffic.one]
  · dsimp only
    omega
  · simp [GenerationLease.inflight, pending]

theorem Sound.acknowledgeProbe
    (found : a.generations[lease.generation]? = some generation) :
    (a.acknowledgeProbe i lease generation).1.Sound := by
  unfold Admission.acknowledgeProbe
  split
  · exact sound
  split
  · exact sound
  rename_i pending
  rw [not_not] at pending
  apply sound.transfer
  · exact sound.activate at_ found pending lease.acknowledged
  · intro l
    exact claims_set at_ rfl

theorem Sound.releaseLease
    (found : a.generations[lease.generation]? = some generation) :
    (a.releaseLease i lease generation).1.Sound := by
  unfold Admission.releaseLease
  split
  · exact sound
  rename_i held
  apply sound.transfer
  · refine sound.traffic.move at_ { lease with state := .released } rfl rfl
      found _ _ ?_ ?_ ?_ ?_
    · cases state : lease.state <;> simp [Traffic.one, state] at held ⊢
    · cases state : lease.state <;> simp [Traffic.one, state] at held ⊢
    · split <;> dsimp only <;> omega
    · cases terminal : lease.terminal <;>
        simp [GenerationLease.inflight, terminal, held]
  · intro l
    exact claims_set at_ rfl

theorem Sound.acknowledge
    (found : a.generations[lease.generation]? = some generation) :
    (a.acknowledge i lease generation).1.Sound := by
  unfold Admission.acknowledge
  split
  · exact sound
  rename_i l used
  split
  · exact sound
  rename_i setup known
  split
  · exact sound
  split
  · exact sound
  rename_i pending
  rw [not_not] at pending
  split
  · exact sound
  rename_i held
  rw [Bool.not_eq_true] at held
  have unreleased : setupReleased a.setupLeases l = false := by
    simp [setupReleased, known, held]
  -- the setup moves from the held leases to those being settled
  have moves : ∀ s, openSetups
      (a.setupLeases.set l { setup with released := true })
      (a.settling ++ [l]) s = openSetups a.setupLeases a.settling s := by
    intro s
    have fewer := heldLeases_release known held s
    unfold openSetups
    rw [countP_append_singleton, owedTo_set known, owedTo_eq known]
    omega
  refine
    { flows := sound.flows, setups := ?_, requests := sound.requests,
      traffic := sound.activate at_ found pending true,
      settling := ?_, distinct := ?_, claims := ?_ }
  · constructor
    · intro s source at_
      dsimp only
      rw [moves]
      exact sound.setups.equal s source at_
    · exact sound.setups.within
    · intro other among
      rcases List.mem_or_eq_of_mem_set among with old | rfl
      · exact sound.setups.owned other old
      · exact sound.setups.owned setup (List.mem_of_getElem? known)
  · intro other among
    dsimp only
    rw [setupReleased_set known]
    rcases List.mem_append.mp among with old | new
    · rw [sound.settling other old, Bool.or_true]
    · simp [List.mem_singleton.mp new]
  · apply List.Nodup.append sound.distinct (List.nodup_singleton l)
    intro other old new
    cases List.mem_singleton.mp new
    have released := sound.settling l old
    rw [unreleased] at released
    cases released
  · intro other
    dsimp only [activateLocked]
    rw [setupReleased_set known]
    have before := sound.claims other
    have moved := countP_set_eq (GenerationLease.claims other) at_
      { lease with state := .active, acknowledged := true }
    by_cases own : other = l
    · subst own
      rw [unreleased] at before
      have claimed : (decide (other = other) ||
          setupReleased a.setupLeases other) = true := by simp
      rw [claimed, Bool.toNat_true]
      have bound := Bool.toNat_le (GenerationLease.claims other
        { lease with state := .active, acknowledged := true })
      rw [Bool.toNat_false] at before
      omega
    · have none : GenerationLease.claims other
          { lease with state := .active, acknowledged := true } = false := by
        simp [GenerationLease.claims, used, Ne.symm own]
      rw [none, Bool.toNat_false] at moved
      rw [decide_eq_false own, Bool.false_or]
      omega

end Generations

theorem Sound.withSource (sound : a.Sound)
    {operate : SourceLease → TCPSource → Admission}
    (kept : ∀ lease source, leases[l]? = some lease →
      a.sources[lease.source]? = some source →
      (operate lease source).Sound) :
    (a.withSource leases l operate).Sound := by
  unfold Admission.withSource
  split
  · exact sound
  split
  · exact sound
  rename_i lease at_ _ source found
  exact kept lease source at_ found

theorem Sound.withGeneration (sound : a.Sound) {i : Nat}
    {operate : GenerationLease → TrafficGeneration → Admission}
    (kept : ∀ lease generation, a.leases[i]? = some lease →
      a.generations[lease.generation]? = some generation →
      (operate lease generation).Sound) :
    (a.withGeneration i operate).Sound := by
  unfold Admission.withGeneration
  split
  · exact sound
  split
  · exact sound
  rename_i lease at_ _ generation found
  exact kept lease generation at_ found

theorem Sound.apply (sound : a.Sound) (op : Op) : (a.apply op).Sound := by
  cases op with
  | newSource capacity requestLimit =>
    exact sound.newSource capacity requestLimit
  | closeSource s =>
    simp only [Admission.apply]
    split
    · exact sound
    · rename_i source found
      exact sound.closeSource found
  | beginFlow s =>
    simp only [Admission.apply]
    split
    · exact sound
    · rename_i source found
      exact sound.beginFlow found
  | releaseFlow f =>
    exact sound.withSource fun _ _ at_ found => sound.releaseFlow at_ found
  | beginSetup f =>
    exact sound.withSource fun _ _ _ found => sound.beginSetup found
  | releaseSetup l =>
    exact sound.withSource fun _ _ at_ found => sound.releaseSetup at_ found
  | beginRequest f =>
    exact sound.withSource fun _ _ _ found => sound.beginRequest found
  | releaseRequest l =>
    exact sound.withSource fun _ _ at_ found => sound.releaseRequest at_ found
  | newGeneration peer =>
    exact sound.newGeneration (fun _ => rfl) rfl
  | setGeneration g ready l7Health =>
    simp only [Admission.apply]
    split
    · exact sound
    · rename_i generation found
      exact sound.setGeneration found ready l7Health
  | closeRegistry => exact { sound with }
  | beginClientSelection setup roundRobin candidates start =>
    exact { sound with }
  | next k readsClosed =>
    simp only [Admission.apply]
    split
    · exact sound
    rename_i selection _
    have kept : (a.orSame (a.next selection readsClosed).1).Sound := by
      apply sound.orSame
      intro after reserved
      obtain ⟨g, s, failedOnly, reserved⟩ := next_reserves reserved
      exact sound.reserveLocked reserved
    exact { kept with }
  | reserveNextHop g l readsClosed =>
    apply sound.orSame
    intro after reserved
    obtain ⟨s, reserved⟩ := reserveNextHop_reserves reserved
    exact sound.reserveLocked reserved
  | reserveProbe g s readsClosed =>
    apply sound.orSame
    intro after reserved
    exact sound.reserveLocked reserved
  | acknowledge i =>
    exact sound.withGeneration fun _ _ at_ found => sound.acknowledge at_ found
  | settle l =>
    simp only [Admission.apply]
    split
    · rename_i owed
      exact sound.withSource fun _ _ at_ found => sound.settle owed at_ found
    · exact sound
  | acknowledgeProbe i =>
    exact sound.withGeneration fun _ _ at_ found =>
      sound.acknowledgeProbe at_ found
  | releaseLease i =>
    exact sound.withGeneration fun _ _ at_ found => sound.releaseLease at_ found

end Admission

end QMux.Mesh
