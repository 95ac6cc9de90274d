import QMux.Mesh.AdmissionRuns

/-!
# The leases as their holders see them

A ledger is written from the calls and their results alone: which leases were
handed out, which were given back or acknowledged since, and which setups are
claimed by an `acknowledge` call that has not settled them.  The flags that
the admission state keeps are those of the ledger.
-/

namespace QMux.Mesh

open Support

namespace Admission

/-- What the holders of leases know: whether a lease was given back, or the
setup claimed, and the state of a generation lease. -/
structure Ledger where
  flows : List Bool
  setups : List Bool
  requests : List Bool
  leases : List GenerationLeaseState
  settling : List Nat
deriving DecidableEq

/-- The same, as the admission state has it. -/
def ledger (a : Admission) : Ledger where
  flows := a.flowLeases.map SourceLease.released
  setups := a.setupLeases.map SourceLease.released
  requests := a.requestLeases.map SourceLease.released
  leases := a.leases.map GenerationLease.state
  settling := a.settling

variable (a : Admission)

def onSource (leases : List SourceLease) (l : Nat)
    (result : SourceLease → TCPSource → Bool) : Bool :=
  leases[l]?.any fun lease => a.sources[lease.source]?.any (result lease)

def onGeneration (i : Nat)
    (result : GenerationLease → TrafficGeneration → Bool) : Bool :=
  a.leases[i]?.any fun lease =>
    a.generations[lease.generation]?.any (result lease)

/-- The call hands out a lease or acknowledges one.  A release always
counts. -/
def succeeds : Op → Bool
  | .beginFlow s => a.sources[s]?.any fun source =>
    (a.beginFlow s source).isOk
  | .beginSetup f => a.onSource a.flowLeases f fun flow source =>
    (a.beginSetup flow source).isOk
  | .beginRequest f => a.onSource a.flowLeases f fun flow source =>
    (a.beginRequest flow source).isOk
  | .next k readsClosed => a.selections[k]?.any fun selection =>
    (a.next selection readsClosed).1.isOk
  | .reserveNextHop g l readsClosed =>
    (a.reserveNextHop g l readsClosed).isOk
  | .reserveProbe g s readsClosed => (a.reserveProbe g s readsClosed).isOk
  | .acknowledge i => a.onGeneration i fun lease generation =>
    (a.acknowledge i lease generation).2
  | .acknowledgeProbe i => a.onGeneration i fun lease generation =>
    (a.acknowledgeProbe i lease generation).2
  | _ => true

/-- What a call that succeeds writes; `setup` is the one that the lease it
acknowledges was reserved with. -/
def Ledger.write (ledger : Ledger) (setup : Option Nat) : Op → Ledger
  | .beginFlow _ => { ledger with flows := ledger.flows ++ [false] }
  | .releaseFlow f => { ledger with flows := ledger.flows.set f true }
  | .beginSetup _ => { ledger with setups := ledger.setups ++ [false] }
  | .releaseSetup l => { ledger with setups := ledger.setups.set l true }
  | .beginRequest _ => { ledger with requests := ledger.requests ++ [false] }
  | .releaseRequest l =>
    { ledger with requests := ledger.requests.set l true }
  | .next _ _ | .reserveNextHop _ _ _ | .reserveProbe _ _ _ =>
    { ledger with leases := ledger.leases ++ [.pending] }
  | .acknowledge i =>
    { ledger with
      leases := ledger.leases.set i .active
      setups := setup.elim ledger.setups fun l => ledger.setups.set l true
      settling := ledger.settling ++ setup.toList }
  | .settle l => { ledger with settling := ledger.settling.erase l }
  | .acknowledgeProbe i =>
    { ledger with leases := ledger.leases.set i .active }
  | .releaseLease i => { ledger with leases := ledger.leases.set i .released }
  | _ => ledger

/-- The ledger after a call. -/
def Ledger.after (ledger : Ledger) (a : Admission) (op : Op) : Ledger :=
  bif a.succeeds op then
    ledger.write (match op with
      | .acknowledge i => a.leases[i]?.bind GenerationLease.setup
      | _ => none) op
  else ledger

/-- One call, and what it writes to the ledger. -/
def record (state : Admission × Ledger) (op : Op) : Admission × Ledger :=
  (state.1.apply op, state.2.after state.1 op)

def start : Admission × Ledger := (empty, ⟨[], [], [], [], []⟩)

/-- The runs of the admission state, any operation at any time, with the
ledger beside it. -/
def recorded : TransitionSystem (Admission × Ledger) where
  initial state := state = start
  step before after := ∃ op, after = record before op

/-! ## What a call does to the flags -/

variable {a}

theorem ledger_orSame {result : Except AdmissionError Admission}
    {entry : Ledger}
    (ok : ∀ after, result = .ok after → after.ledger = entry) :
    (a.orSame result).ledger = bif result.isOk then entry else a.ledger := by
  cases result with
  | error _ => rfl
  | ok after => exact ok after rfl

variable {g s : Nat} {setup : Option Nat}
  {terminal probe failOpen readsClosed : Bool} {after : Admission}

theorem reserveLocked_adds
    (reserved : a.reserveLocked g s setup terminal probe failOpen
      readsClosed = .ok after) :
    (∃ generations, after = { a with
        generations := generations
        leases := a.leases ++ [⟨g, s, setup, probe, terminal, failOpen,
          .pending, false⟩] }) ∧
      (probe = false → a.setupUsable s setup = true) := by
  unfold Admission.reserveLocked at reserved
  split at reserved
  · split at reserved
    · cases reserved
    split at reserved
    · cases reserved
    rename_i usable
    split at reserved
    · cases reserved
    dsimp only at reserved
    split at reserved
    · cases reserved
    split at reserved
    · cases reserved
    cases reserved
    refine ⟨⟨_, rfl⟩, ?_⟩
    intro real
    simpa [real] using usable
  · cases reserved
  · cases reserved

theorem reserveLocked_ledger
    (reserved : a.reserveLocked g s setup terminal probe failOpen
      readsClosed = .ok after) :
    after.ledger =
      { a.ledger with leases := a.ledger.leases ++ [.pending] } := by
  obtain ⟨⟨generations, rfl⟩, _⟩ := reserveLocked_adds reserved
  simp [ledger]

section Leases

variable {leases : List SourceLease} {l i : Nat} {expected : Ledger}

theorem ledger_withSource
    (owned : ∀ lease ∈ leases, lease.source < a.sources.length)
    {operate : SourceLease → TCPSource → Admission}
    (missing : leases[l]? = none → a.ledger = expected)
    (kept : ∀ lease source, leases[l]? = some lease →
      a.sources[lease.source]? = some source →
      (operate lease source).ledger = expected) :
    (a.withSource leases l operate).ledger = expected := by
  unfold Admission.withSource
  split
  · rename_i absent
    exact missing absent
  rename_i lease at_
  have found := List.getElem?_eq_getElem
    (owned lease (List.mem_of_getElem? at_))
  rw [found]
  exact kept lease _ at_ found

theorem ledger_withGeneration (sound : a.Sound)
    {operate : GenerationLease → TrafficGeneration → Admission}
    (missing : a.leases[i]? = none → a.ledger = expected)
    (kept : ∀ lease generation, a.leases[i]? = some lease →
      a.generations[lease.generation]? = some generation →
      (operate lease generation).ledger = expected) :
    (a.withGeneration i operate).ledger = expected := by
  unfold Admission.withGeneration
  split
  · rename_i absent
    exact missing absent
  rename_i lease at_
  have found := List.getElem?_eq_getElem
    (sound.traffic.owned lease (List.mem_of_getElem? at_)).1
  rw [found]
  exact kept lease _ at_ found

end Leases

theorem Sound.ledger_apply (sound : a.Sound) (op : Op) :
    (a.apply op).ledger = a.ledger.after a op := by
  cases op with
  | newSource | newGeneration | closeRegistry | beginClientSelection => rfl
  | closeSource | setGeneration =>
    simp only [Admission.apply]
    split <;> rfl
  | beginFlow s =>
    simp only [Admission.apply, Ledger.after, succeeds]
    split
    · rename_i absent
      rw [absent]
      rfl
    rename_i source found
    rw [found, Option.any_some]
    apply ledger_orSame
    intro after begun
    unfold Admission.beginFlow at begun
    split_ifs at begun
    cases begun
    simp [ledger, Ledger.write]
  | releaseFlow f =>
    apply ledger_withSource sound.flows.owned
    · intro absent
      simp [Ledger.after, succeeds, Ledger.write, ledger, absent,
        set_map_eq_map]
    · intro lease source at_ found
      unfold Admission.releaseFlow
      split
      · rename_i again
        simp [Ledger.after, succeeds, Ledger.write, ledger, at_,
          set_map_eq_map, again]
      · simp [Ledger.after, succeeds, Ledger.write, ledger]
  | beginSetup f =>
    apply ledger_withSource sound.flows.owned
    · intro absent
      simp [Ledger.after, succeeds, onSource, absent]
    · intro lease source at_ found
      simp only [Ledger.after, succeeds, onSource, at_, found, Option.any_some]
      apply ledger_orSame
      intro after begun
      unfold Admission.beginSetup at begun
      split_ifs at begun
      cases begun
      simp [ledger, Ledger.write]
  | releaseSetup l =>
    apply ledger_withSource sound.setups.owned
    · intro absent
      simp [Ledger.after, succeeds, Ledger.write, ledger, absent,
        set_map_eq_map]
    · intro lease source at_ found
      unfold Admission.releaseSetup
      split
      · rename_i again
        simp [Ledger.after, succeeds, Ledger.write, ledger, at_,
          set_map_eq_map, again]
      · simp [Ledger.after, succeeds, Ledger.write, ledger]
  | beginRequest f =>
    apply ledger_withSource sound.flows.owned
    · intro absent
      simp [Ledger.after, succeeds, onSource, absent]
    · intro lease source at_ found
      simp only [Ledger.after, succeeds, onSource, at_, found, Option.any_some]
      apply ledger_orSame
      intro after begun
      unfold Admission.beginRequest at begun
      split_ifs at begun
      cases begun
      simp [ledger, Ledger.write]
  | releaseRequest l =>
    apply ledger_withSource sound.requests.owned
    · intro absent
      simp [Ledger.after, succeeds, Ledger.write, ledger, absent,
        set_map_eq_map]
    · intro lease source at_ found
      unfold Admission.releaseRequest
      split
      · rename_i again
        simp [Ledger.after, succeeds, Ledger.write, ledger, at_,
          set_map_eq_map, again]
      · simp [Ledger.after, succeeds, Ledger.write, ledger]
  | next k readsClosed =>
    simp only [Admission.apply, Ledger.after, succeeds]
    split
    · rename_i absent
      rw [absent]
      rfl
    rename_i selection found
    rw [found, Option.any_some]
    apply ledger_orSame
    intro after reserved
    obtain ⟨g, s, failedOnly, reserved⟩ := next_reserves reserved
    exact reserveLocked_ledger reserved
  | reserveNextHop g l readsClosed =>
    apply ledger_orSame
    intro after reserved
    obtain ⟨s, reserved⟩ := reserveNextHop_reserves reserved
    exact reserveLocked_ledger reserved
  | reserveProbe g s readsClosed =>
    apply ledger_orSame
    intro after reserved
    exact reserveLocked_ledger reserved
  | acknowledge i =>
    apply ledger_withGeneration sound
    · intro absent
      simp [Ledger.after, succeeds, onGeneration, absent]
    · intro lease generation at_ found
      simp only [Ledger.after, succeeds, onGeneration, at_, found,
        Option.any_some, Option.bind_some]
      unfold Admission.acknowledge
      split
      · rfl
      rename_i l used
      split
      · rfl
      rename_i setup known
      split_ifs
      · rfl
      · rfl
      · rfl
      · simp [ledger, Ledger.write, activateLocked, used]
  | settle l =>
    simp only [Admission.apply]
    split
    · rename_i owed
      apply ledger_withSource sound.setups.owned
      · intro absent
        have known := sound.settling l owed
        simp [setupReleased, absent] at known
      · intro lease source at_ found
        rfl
    · rename_i settled
      simp [Ledger.after, succeeds, Ledger.write, ledger,
        List.erase_of_not_mem settled]
  | acknowledgeProbe i =>
    apply ledger_withGeneration sound
    · intro absent
      simp [Ledger.after, succeeds, onGeneration, absent]
    · intro lease generation at_ found
      simp only [Ledger.after, succeeds, onGeneration, at_, found,
        Option.any_some]
      unfold Admission.acknowledgeProbe
      split_ifs
      · rfl
      · rfl
      · simp [ledger, Ledger.write, activateLocked]
  | releaseLease i =>
    apply ledger_withGeneration sound
    · intro absent
      simp [Ledger.after, succeeds, Ledger.write, ledger, absent,
        set_map_eq_map]
    · intro lease generation at_ found
      unfold Admission.releaseLease
      split
      · rename_i again
        simp [Ledger.after, succeeds, Ledger.write, ledger, at_,
          set_map_eq_map, again]
      · simp [Ledger.after, succeeds, Ledger.write, ledger]

/-- In every run the state is sound and its flags are those of the ledger. -/
theorem recorded_sound {state : Admission × Ledger}
    (reachable : recorded.Reachable state) :
    state.1.Sound ∧ state.1.ledger = state.2 := by
  apply reachable.invariant
  · intro state initial
    rw [initial]
    exact ⟨sound_empty, rfl⟩
  · intro before after _ kept step
    obtain ⟨op, rfl⟩ := step
    obtain ⟨sound, same⟩ := kept
    refine ⟨sound.apply op, ?_⟩
    unfold record
    rw [← same]
    exact sound.ledger_apply op

end Admission

end QMux.Mesh
