import QMux.Mesh.Admission

/-!
# The accounts of mesh admission

The gauges of a source count its leases, those of a generation count the
generation leases of each source, and a setup is claimed by one lease at
most.  Each is a property of a gauge and a list of leases of its own, so each
operation is looked at once for each of them.
-/

namespace QMux.Mesh

open Function Support GenerationLease

/-! ## Gauges of a source -/

/-- The lease is held from the source. -/
def SourceLease.heldFrom (s : Nat) (lease : SourceLease) : Bool :=
  decide (lease.source = s) && !lease.released

/-- The leases held from a source. -/
def heldLeases (leases : List SourceLease) (s : Nat) : Nat :=
  leases.countP (SourceLease.heldFrom s)

section Held

variable {leases : List SourceLease} {l s : Nat} {lease : SourceLease}

theorem heldLeases_append (leases : List SourceLease) (s other : Nat) :
    heldLeases (leases ++ [⟨s, false⟩]) other =
      heldLeases leases other + (decide (s = other)).toNat := by
  unfold heldLeases
  rw [countP_append_singleton]
  simp [SourceLease.heldFrom]

theorem heldLeases_release (found : leases[l]? = some lease)
    (held : lease.released = false) (other : Nat) :
    heldLeases (leases.set l { lease with released := true }) other +
        (decide (lease.source = other)).toNat =
      heldLeases leases other := by
  have moved := countP_set_eq (SourceLease.heldFrom other) found
    { lease with released := true }
  simpa [heldLeases, SourceLease.heldFrom, held] using moved

theorem heldLeases_beyond
    (owned : ∀ lease ∈ leases, lease.source < s) :
    heldLeases leases s = 0 := by
  apply List.countP_eq_zero.mpr
  intro lease among held
  have bound := owned lease among
  unfold SourceLease.heldFrom at held
  rw [Bool.and_eq_true, decide_eq_true_iff] at held
  omega

end Held

/-- A gauge of every source equals a count of its leases and keeps its
limit. -/
structure Gauged (sources : List TCPSource) (gauge limit : TCPSource → Int)
    (leases : List SourceLease) (count : Nat → Nat) : Prop where
  equal : ∀ (s : Nat) (source : TCPSource), sources[s]? = some source →
    gauge source = count s
  within : ∀ (s : Nat) (source : TCPSource), sources[s]? = some source →
    gauge source ≤ limit source
  owned : ∀ lease ∈ leases, lease.source < sources.length

namespace Gauged

variable {sources : List TCPSource} {gauge limit : TCPSource → Int}
  {leases later : List SourceLease} {count after : Nat → Nat} {l s : Nat}
  {lease : SourceLease} {old new : TCPSource}

theorem set (gauged : Gauged sources gauge limit leases count)
    (found : sources[s]? = some old) (own : gauge new = after s)
    (limited : gauge new ≤ limit new)
    (others : ∀ other, other ≠ s → after other = count other)
    (owned : ∀ lease ∈ later, lease.source < sources.length) :
    Gauged (sources.set s new) gauge limit later after := by
  constructor
  · intro other source at_
    rcases cases_set found at_ with ⟨rfl, rfl⟩ | ⟨different, before⟩
    · exact own
    · rw [others other different]
      exact gauged.equal other source before
  · intro other source at_
    rcases cases_set found at_ with ⟨rfl, rfl⟩ | ⟨_, before⟩
    · exact limited
    · exact gauged.within other source before
  · rw [List.length_set]
    exact owned

theorem keep (gauged : Gauged sources gauge limit leases count)
    (found : sources[s]? = some old) (same : gauge new = gauge old)
    (limits : limit new = limit old) :
    Gauged (sources.set s new) gauge limit leases count := by
  apply gauged.set found
  · rw [same]
    exact gauged.equal s old found
  · rw [same, limits]
    exact gauged.within s old found
  · intro other _
    rfl
  · exact gauged.owned

theorem append (gauged : Gauged sources gauge limit leases count)
    (zero : gauge new = 0) (limited : 0 ≤ limit new)
    (none : count sources.length = 0) :
    Gauged (sources ++ [new]) gauge limit leases count := by
  constructor
  · intro other source at_
    rcases cases_append at_ with ⟨rfl, rfl⟩ | before
    · rw [zero, none]
      rfl
    · exact gauged.equal other source before
  · intro other source at_
    rcases cases_append at_ with ⟨_, rfl⟩ | before
    · rw [zero]
      exact limited
    · exact gauged.within other source before
  · intro lease among
    have bound := gauged.owned lease among
    rw [List.length_append]
    omega

theorem begin (gauged : Gauged sources gauge limit leases count)
    (rest : Nat → Nat) (before : ∀ s, count s = heldLeases leases s + rest s)
    (found : sources[s]? = some old) (raised : gauge new = gauge old + 1)
    (room : gauge new ≤ limit new)
    (counted : ∀ other, after other =
      heldLeases (leases ++ [⟨s, false⟩]) other + rest other) :
    Gauged (sources.set s new) gauge limit (leases ++ [⟨s, false⟩])
      after := by
  have more : ∀ other,
      after other = count other + (decide (s = other)).toNat := by
    intro other
    rw [counted, heldLeases_append, before]
    omega
  apply gauged.set found
  · rw [raised, gauged.equal s old found, more, decide_eq_true rfl]
    rfl
  · exact room
  · intro other different
    rw [more, decide_eq_false different.symm]
    rfl
  · intro lease among
    rcases List.mem_append.mp among with old | new
    · exact gauged.owned lease old
    · cases List.mem_singleton.mp new
      exact (List.getElem?_eq_some_iff.mp found).1

theorem release (gauged : Gauged sources gauge limit leases count)
    (rest : Nat → Nat) (before : ∀ s, count s = heldLeases leases s + rest s)
    (at_ : leases[l]? = some lease) (held : lease.released = false)
    (found : sources[lease.source]? = some old)
    (lowered : gauge new = gauge old - 1) (limits : limit new = limit old)
    (counted : ∀ other, after other = heldLeases
      (leases.set l { lease with released := true }) other + rest other) :
    Gauged (sources.set lease.source new) gauge limit
      (leases.set l { lease with released := true }) after := by
  have fewer : ∀ other,
      after other + (decide (lease.source = other)).toNat = count other := by
    intro other
    rw [counted, before, ← heldLeases_release at_ held]
    omega
  have own := fewer lease.source
  have equal := gauged.equal _ old found
  have within := gauged.within _ old found
  rw [decide_eq_true rfl, Bool.toNat_true] at own
  apply gauged.set found
  · omega
  · omega
  · intro other different
    have same := fewer other
    rw [decide_eq_false different.symm] at same
    exact same
  · intro other among
    rcases List.mem_or_eq_of_mem_set among with old | rfl
    · exact gauged.owned other old
    · exact gauged.owned lease (List.mem_of_getElem? at_)

end Gauged

/-! ## Gauges of a generation -/

/-- The lease is of the generation and source and in the state. -/
def GenerationLease.counts (g s : Nat) (state : GenerationLeaseState)
    (lease : GenerationLease) : Bool :=
  decide (lease.generation = g) && decide (lease.source = s) &&
    decide (lease.state = state)

/-- The lease is a terminal one of the generation and not released. -/
def GenerationLease.inflight (g : Nat) (lease : GenerationLease) : Bool :=
  decide (lease.generation = g) && lease.terminal &&
    !decide (lease.state = .released)

/-- Generation leases outstanding in a state. -/
def outstanding (leases : List GenerationLease) (g s : Nat)
    (state : GenerationLeaseState) : Nat :=
  leases.countP (counts g s state)

/-- The gauges of the generations count their leases. -/
structure Traffic (capacities : List MeshTCPCapacity)
    (generations : List TrafficGeneration)
    (leases : List GenerationLease) : Prop where
  pending : ∀ (g : Nat) (generation : TrafficGeneration) (s : Nat),
    generations[g]? = some generation →
    (generation.traffic s).pending = outstanding leases g s .pending
  active : ∀ (g : Nat) (generation : TrafficGeneration) (s : Nat),
    generations[g]? = some generation →
    (generation.traffic s).active = outstanding leases g s .active
  within : ∀ (g : Nat) (generation : TrafficGeneration) (s : Nat)
    (capacity : MeshTCPCapacity), generations[g]? = some generation →
    capacities[s]? = some capacity →
    (generation.traffic s).pending + (generation.traffic s).active ≤
        capacity.maxTCPConnectionsPerGeneration ∧
      (generation.traffic s).pending ≤ capacity.maxPendingTCPSetupsPerGeneration
  inflight : ∀ (g : Nat) (generation : TrafficGeneration),
    generations[g]? = some generation →
    generation.inflight = leases.countP (inflight g)
  owned : ∀ lease ∈ leases, lease.generation < generations.length ∧
    lease.source < capacities.length

namespace Traffic

variable {capacities : List MeshTCPCapacity}
  {generations : List TrafficGeneration} {leases : List GenerationLease}
  {g i : Nat} {old new : TrafficGeneration}

theorem set {after : List GenerationLease}
    (traffic : Traffic capacities generations leases)
    (found : generations[g]? = some old)
    (pending : ∀ s, (new.traffic s).pending = outstanding after g s .pending)
    (active : ∀ s, (new.traffic s).active = outstanding after g s .active)
    (within : ∀ (s : Nat) (capacity : MeshTCPCapacity),
      capacities[s]? = some capacity →
      (new.traffic s).pending + (new.traffic s).active ≤
          capacity.maxTCPConnectionsPerGeneration ∧
        (new.traffic s).pending ≤ capacity.maxPendingTCPSetupsPerGeneration)
    (inflight : new.inflight = after.countP (GenerationLease.inflight g))
    (others : ∀ other, other ≠ g → (∀ s state, outstanding after other s state =
        outstanding leases other s state) ∧
      after.countP (GenerationLease.inflight other) =
        leases.countP (GenerationLease.inflight other))
    (owned : ∀ lease ∈ after, lease.generation < generations.length ∧
      lease.source < capacities.length) :
    Traffic capacities (generations.set g new) after := by
  constructor
  · intro other generation s at_
    rcases cases_set found at_ with ⟨rfl, rfl⟩ | ⟨different, before⟩
    · exact pending s
    · rw [(others other different).1]
      exact traffic.pending other generation s before
  · intro other generation s at_
    rcases cases_set found at_ with ⟨rfl, rfl⟩ | ⟨different, before⟩
    · exact active s
    · rw [(others other different).1]
      exact traffic.active other generation s before
  · intro other generation s capacity at_ limited
    rcases cases_set found at_ with ⟨rfl, rfl⟩ | ⟨different, before⟩
    · exact within s capacity limited
    · exact traffic.within other generation s capacity before limited
  · intro other generation at_
    rcases cases_set found at_ with ⟨rfl, rfl⟩ | ⟨different, before⟩
    · exact inflight
    · rw [(others other different).2]
      exact traffic.inflight other generation before
  · intro lease among
    rw [List.length_set]
    exact owned lease among

variable {lease : GenerationLease}

theorem outstanding_append (leases : List GenerationLease)
    (lease : GenerationLease) (g s : Nat) (state : GenerationLeaseState) :
    outstanding (leases ++ [lease]) g s state =
      outstanding leases g s state + (lease.counts g s state).toNat :=
  countP_append_singleton _ _ _

theorem reserve (traffic : Traffic capacities generations leases)
    (lease : GenerationLease)
    (found : generations[lease.generation]? = some old)
    (fresh : lease.state = .pending) {capacity : MeshTCPCapacity}
    (limited : capacities[lease.source]? = some capacity)
    (usage : GenerationTraffic)
    (raised : usage.pending = (old.traffic lease.source).pending + 1)
    (same : usage.active = (old.traffic lease.source).active)
    (room : usage.pending + usage.active ≤
        capacity.maxTCPConnectionsPerGeneration ∧
      usage.pending ≤ capacity.maxPendingTCPSetupsPerGeneration) :
    Traffic capacities
      (generations.set lease.generation { old with
        traffic := Function.update old.traffic lease.source usage
        inflight := if lease.terminal then old.inflight + 1
          else old.inflight })
      (leases ++ [lease]) := by
  apply traffic.set found
  · intro s
    have before := traffic.pending _ old s found
    rw [outstanding_append]
    dsimp only
    by_cases here : s = lease.source
    · subst here
      rw [update_self]
      simp only [counts, fresh, decide_true, Bool.and_true, Bool.toNat_true]
      omega
    · rw [update_of_ne here]
      have none : lease.counts lease.generation s .pending = false := by
        simp [counts, Ne.symm here]
      rw [none]
      exact before
  · intro s
    have before := traffic.active _ old s found
    have none : lease.counts lease.generation s .active = false := by
      simp [counts, fresh]
    rw [outstanding_append, none]
    dsimp only
    by_cases here : s = lease.source
    · subst here
      rw [update_self, same]
      exact before
    · rw [update_of_ne here]
      exact before
  · intro s other among
    dsimp only
    by_cases here : s = lease.source
    · subst here
      cases limited.symm.trans among
      rw [update_self]
      exact room
    · rw [update_of_ne here]
      exact traffic.within _ old s other found among
  · have before := traffic.inflight _ old found
    rw [countP_append_singleton]
    dsimp only
    cases terminal : lease.terminal with
    | true =>
      simp only [GenerationLease.inflight, fresh, terminal, if_true,
        decide_true]
      simp
      omega
    | false =>
      simp only [GenerationLease.inflight, fresh, terminal]
      simp
      exact before
  · intro other different
    constructor
    · intro s state
      have none : lease.counts other s state = false := by
        simp [GenerationLease.counts, different.symm]
      rw [outstanding_append, none]
      rfl
    · rw [countP_append_singleton]
      simp [GenerationLease.inflight, different.symm]
  · intro other among
    rcases List.mem_append.mp among with old | new
    · exact traffic.owned other old
    · cases List.mem_singleton.mp new
      exact ⟨(List.getElem?_eq_some_iff.mp found).1,
        (List.getElem?_eq_some_iff.mp limited).1⟩

/-- One if the state is the given one. -/
def one (state other : GenerationLeaseState) : Int :=
  if state = other then 1 else 0

variable {after : GenerationLease}

theorem outstanding_set (at_ : leases[i]? = some lease)
    (generation : after.generation = lease.generation)
    (source : after.source = lease.source) (state : GenerationLeaseState) :
    (outstanding (leases.set i after) lease.generation lease.source state :
      Int) = outstanding leases lease.generation lease.source state -
        one lease.state state + one after.state state := by
  have moved := countP_set_eq
    (counts lease.generation lease.source state) at_ after
  unfold outstanding one
  simp only [counts, generation, source, decide_true, Bool.true_and] at moved ⊢
  by_cases before : lease.state = state <;>
    by_cases later : after.state = state <;>
    simp [before, later] at moved ⊢ <;> omega

theorem outstanding_set_other (at_ : leases[i]? = some lease)
    (generation : after.generation = lease.generation)
    (source : after.source = lease.source) {s : Nat}
    (different : g ≠ lease.generation ∨ s ≠ lease.source)
    (state : GenerationLeaseState) :
    outstanding (leases.set i after) g s state =
      outstanding leases g s state := by
  have moved := countP_set_eq (counts g s state) at_ after
  have none : lease.counts g s state = false ∧
      after.counts g s state = false := by
    unfold counts
    rw [generation, source]
    rcases different with other | other <;> simp [Ne.symm other]
  rw [none.1, none.2] at moved
  exact moved

theorem move (traffic : Traffic capacities generations leases)
    (at_ : leases[i]? = some lease) (after : GenerationLease)
    (generation : after.generation = lease.generation)
    (source : after.source = lease.source)
    (found : generations[lease.generation]? = some old)
    (usage : GenerationTraffic) (inflight : Int)
    (pending : usage.pending = (old.traffic lease.source).pending -
      one lease.state .pending + one after.state .pending)
    (active : usage.active = (old.traffic lease.source).active -
      one lease.state .active + one after.state .active)
    (lower : usage.pending + usage.active ≤ (old.traffic lease.source).pending +
          (old.traffic lease.source).active ∧
      usage.pending ≤ (old.traffic lease.source).pending)
    (flight : inflight = old.inflight -
      (lease.inflight lease.generation).toNat +
      (after.inflight lease.generation).toNat) :
    Traffic capacities
      (generations.set lease.generation { old with
        traffic := Function.update old.traffic lease.source usage
        inflight := inflight })
      (leases.set i after) := by
  have among : lease ∈ leases := List.mem_of_getElem? at_
  apply traffic.set found
  · intro s
    dsimp only
    by_cases here : s = lease.source
    · subst here
      rw [update_self, outstanding_set at_ generation source,
        pending, traffic.pending _ old _ found]
    · rw [update_of_ne here,
        outstanding_set_other at_ generation source (.inr here)]
      exact traffic.pending _ old s found
  · intro s
    dsimp only
    by_cases here : s = lease.source
    · subst here
      rw [update_self, outstanding_set at_ generation source,
        active, traffic.active _ old _ found]
    · rw [update_of_ne here,
        outstanding_set_other at_ generation source (.inr here)]
      exact traffic.active _ old s found
  · intro s capacity limited
    have before := traffic.within _ old s capacity found limited
    dsimp only
    by_cases here : s = lease.source
    · subst here
      rw [update_self]
      omega
    · rw [update_of_ne here]
      exact before
  · have moved := countP_set_eq (GenerationLease.inflight lease.generation)
      at_ after
    have before := traffic.inflight _ old found
    dsimp only
    omega
  · intro other different
    constructor
    · intro s state
      exact outstanding_set_other at_ generation source (.inl different) state
    · have moved := countP_set_eq (GenerationLease.inflight other) at_ after
      have none : lease.inflight other = false ∧
          after.inflight other = false := by
        unfold GenerationLease.inflight
        rw [generation]
        simp [different.symm]
      rw [none.1, none.2] at moved
      exact moved
  · intro other member
    rcases List.mem_or_eq_of_mem_set member with old | rfl
    · exact traffic.owned other old
    · rw [generation, source]
      exact traffic.owned lease among

end Traffic

end QMux.Mesh
