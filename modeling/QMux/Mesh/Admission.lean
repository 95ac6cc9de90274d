import QMux.Support.Cells
import QMux.Support.Transition

/-!
# Mesh TCP admission

Embedding of `mesh/admission.go` and of the leases of `mesh/selection.go`.
Sources, leases and generations are cells of lists; a pointer is a position
in its list.  A section under a source's mutex or under the registry's mutex
is one action.  `acknowledge` has two of them, with the claim of the setup in
the first and its settlement in the second.  A section under the registry's
mutex reads two atomics that this mutex does not guard: the flag of a setup,
and the action stands where that read was made, and the closed flag of a
source, whose value is therefore a parameter.

Whether a generation is ready for forwarding, its health and the candidates
of a selection are decided by the registry; here they may be anything at any
time.  `clientSelection.open` is a sequence of `next` calls and releases.
-/

namespace QMux.Mesh

open Support

inductive AdmissionError where
  | sourceClosed
  | sourceFlowCapacity
  | sourceSetupCapacity
  | sourceSetupReleased
  | sourceRequestCapacity
  | notHTTPSource
  | flowReleased
  | noMeshCandidate
  | generationConnectionCapacity
  | generationSetupCapacity
  | registryStopped
deriving DecidableEq

/-- `config.MeshTCPCapacity`; its validation rejects negative limits. -/
structure MeshTCPCapacity where
  maxTCPConnections : Nat
  maxPendingTCPSetups : Nat
  maxTCPConnectionsPerGeneration : Nat
  maxPendingTCPSetupsPerGeneration : Nat
deriving DecidableEq

structure TCPSource where
  capacity : MeshTCPCapacity
  requestLimit : Nat
  closed : Bool
  flows : Int
  setups : Int
  requests : Int
  flowHigh : Int
  setupHigh : Int
  requestHigh : Int
deriving DecidableEq

def newTCPSource (capacity : MeshTCPCapacity) (requestLimit : Nat) :
    TCPSource :=
  { capacity := capacity
    requestLimit := requestLimit
    closed := false
    flows := 0
    setups := 0
    requests := 0
    flowHigh := 0
    setupHigh := 0
    requestHigh := 0 }

/-- `flowLease`, `setupLease` and `requestLease`: a source and a flag. -/
structure SourceLease where
  source : Nat
  released : Bool
deriving DecidableEq

structure GenerationTraffic where
  pending : Int
  active : Int
  high : Int
  setupHigh : Int
deriving DecidableEq

inductive InstanceL7Health where
  | unknown
  | healthy
  | failed
deriving DecidableEq

/-- The part of a `Generation` that leases read and write. -/
structure TrafficGeneration where
  peer : Bool
  ready : Bool
  l7Health : InstanceL7Health
  traffic : Nat → GenerationTraffic
  inflight : Int

inductive GenerationLeaseState where
  | pending
  | active
  | released
deriving DecidableEq

/-- `generationLease`; `acknowledged` records that `acknowledge` returned
true for it. -/
structure GenerationLease where
  generation : Nat
  source : Nat
  setup : Option Nat
  probe : Bool
  terminal : Bool
  failOpen : Bool
  state : GenerationLeaseState
  acknowledged : Bool
deriving DecidableEq

structure ClientSelection where
  setup : Option Nat
  roundRobin : Bool
  candidates : List Nat
  tried : List Nat
  start : Nat
deriving DecidableEq

structure Admission where
  registryClosed : Bool
  sources : List TCPSource
  flowLeases : List SourceLease
  setupLeases : List SourceLease
  requestLeases : List SourceLease
  generations : List TrafficGeneration
  leases : List GenerationLease
  selections : List ClientSelection
  /-- Setups claimed by an `acknowledge` call that has yet to settle them. -/
  settling : List Nat

namespace Admission

def empty : Admission :=
  { registryClosed := false
    sources := []
    flowLeases := []
    setupLeases := []
    requestLeases := []
    generations := []
    leases := []
    selections := []
    settling := [] }

variable (a : Admission)

/-! ## Sources -/

def beginFlow (s : Nat) (source : TCPSource) :
    Except AdmissionError Admission :=
  if source.closed then .error .sourceClosed
  else if source.flows ≥ source.capacity.maxTCPConnections then
    .error .sourceFlowCapacity
  else
    .ok { a with
      sources := a.sources.set s { source with
        flows := source.flows + 1
        flowHigh := max source.flowHigh (source.flows + 1) }
      flowLeases := a.flowLeases ++ [⟨s, false⟩] }

def beginSetup (flow : SourceLease) (source : TCPSource) :
    Except AdmissionError Admission :=
  if source.closed then .error .sourceClosed
  else if flow.released then .error .flowReleased
  else if source.setups ≥ source.capacity.maxPendingTCPSetups then
    .error .sourceSetupCapacity
  else
    .ok { a with
      sources := a.sources.set flow.source { source with
        setups := source.setups + 1
        setupHigh := max source.setupHigh (source.setups + 1) }
      setupLeases := a.setupLeases ++ [⟨flow.source, false⟩] }

def beginRequest (flow : SourceLease) (source : TCPSource) :
    Except AdmissionError Admission :=
  if source.closed then .error .sourceClosed
  else if flow.released then .error .flowReleased
  else if source.requestLimit = 0 then .error .notHTTPSource
  else if source.requests ≥ source.requestLimit then
    .error .sourceRequestCapacity
  else
    .ok { a with
      sources := a.sources.set flow.source { source with
        requests := source.requests + 1
        requestHigh := max source.requestHigh (source.requests + 1) }
      requestLeases := a.requestLeases ++ [⟨flow.source, false⟩] }

/-- `flowLease.release`, with its result. -/
def releaseFlow (f : Nat) (flow : SourceLease) (source : TCPSource) :
    Admission × Bool :=
  if flow.released then (a, false)
  else
    ({ a with
       sources := a.sources.set flow.source
         { source with flows := source.flows - 1 }
       flowLeases := a.flowLeases.set f { flow with released := true } },
      true)

def releaseSetup (l : Nat) (setup : SourceLease) (source : TCPSource) :
    Admission × Bool :=
  if setup.released then (a, false)
  else
    ({ a with
       sources := a.sources.set setup.source
         { source with setups := source.setups - 1 }
       setupLeases := a.setupLeases.set l { setup with released := true } },
      true)

def releaseRequest (l : Nat) (request : SourceLease) (source : TCPSource) :
    Admission × Bool :=
  if request.released then (a, false)
  else
    ({ a with
       sources := a.sources.set request.source
         { source with requests := source.requests - 1 }
       requestLeases := a.requestLeases.set l
         { request with released := true } }, true)

/-- `setupLease.settle` of a setup that was claimed. -/
def settle (l : Nat) (setup : SourceLease) (source : TCPSource) :
    Admission :=
  { a with
    sources := a.sources.set setup.source
      { source with setups := source.setups - 1 }
    settling := a.settling.erase l }

/-! ## Generation leases -/

/-- The setup is given, belongs to the source and is live. -/
def setupUsable (s : Nat) (setup : Option Nat) : Bool :=
  match setup with
  | none => false
  | some l =>
    match a.setupLeases[l]? with
    | none => false
    | some lease => decide (lease.source = s) && !lease.released

/-- `reserveLocked`.  `readsClosed` is what it read from the source's closed
flag, which is not under the registry's mutex. -/
def reserveLocked (g s : Nat) (setup : Option Nat)
    (terminal probe failOpen readsClosed : Bool) :
    Except AdmissionError Admission :=
  match a.sources[s]?, a.generations[g]? with
  | some source, some generation =>
    if readsClosed then .error .sourceClosed
    else if !probe && !a.setupUsable s setup then
      .error .sourceSetupReleased
    else if !generation.ready then .error .noMeshCandidate
    else
      let usage := generation.traffic s
      if usage.pending + usage.active ≥
          source.capacity.maxTCPConnectionsPerGeneration then
        .error .generationConnectionCapacity
      else if usage.pending ≥
          source.capacity.maxPendingTCPSetupsPerGeneration then
        .error .generationSetupCapacity
      else
        .ok { a with
          generations := a.generations.set g { generation with
            traffic := Function.update generation.traffic s
              { usage with
                pending := usage.pending + 1
                setupHigh := max usage.setupHigh (usage.pending + 1)
                high := max usage.high
                  (usage.pending + 1 + usage.active) }
            inflight := if terminal then generation.inflight + 1
              else generation.inflight }
          leases := a.leases ++
            [{ generation := g
               source := s
               setup := setup
               probe := probe
               terminal := terminal
               failOpen := failOpen
               state := .pending
               acknowledged := false }] }
  | none, _ => .error .sourceClosed
  | _, none => .error .noMeshCandidate

def reserveNextHop (g l : Nat) (readsClosed : Bool) :
    Except AdmissionError Admission :=
  match a.setupLeases[l]?, a.generations[g]? with
  | some setup, some generation =>
    if setup.released then .error .sourceSetupReleased
    else if !generation.peer then .error .noMeshCandidate
    else a.reserveLocked g setup.source (some l) false false false
      readsClosed
  | none, _ => .error .sourceSetupReleased
  | _, none => .error .noMeshCandidate

def reserveProbe (g s : Nat) (readsClosed : Bool) :
    Except AdmissionError Admission :=
  a.reserveLocked g s none false true false readsClosed

def ready (g : Nat) : Bool :=
  match a.generations[g]? with
  | none => false
  | some generation => generation.ready

def l7Failed (g : Nat) : Bool :=
  match a.generations[g]? with
  | none => false
  | some generation => decide (generation.l7Health = .failed)

def inflight (g : Nat) : Int :=
  match a.generations[g]? with
  | none => 0
  | some generation => generation.inflight

/-- The candidate one round of `next` picks: in round robin the first that is
eligible from `start` on, otherwise the first with the fewest requests. -/
def select (selection : ClientSelection) (failedOnly : Bool) : Option Nat :=
  let rotated := selection.candidates.rotate selection.start
  let eligible := rotated.filter fun g =>
    !(decide (g ∈ selection.tried)) && a.ready g &&
      (failedOnly || !a.l7Failed g)
  if selection.roundRobin then eligible.head?
  else
    eligible.foldl (fun selected g =>
      match selected with
      | none => some g
      | some best =>
        if a.inflight g < a.inflight best then some g else some best) none

/-- The rounds of `next`, and the selection with the candidates it tried. -/
def nextLoop (failedOnly readsClosed : Bool) (s : Nat) :
    Nat → ClientSelection → Bool → Bool →
      Except AdmissionError Admission × ClientSelection
  | 0, selection, connectionFull, setupFull =>
    (.error (if connectionFull then .generationConnectionCapacity
      else if setupFull then .generationSetupCapacity
      else .noMeshCandidate), selection)
  | fuel + 1, selection, connectionFull, setupFull =>
    match a.select selection failedOnly with
    | none =>
      (.error (if connectionFull then .generationConnectionCapacity
        else if setupFull then .generationSetupCapacity
        else .noMeshCandidate), selection)
    | some g =>
      let tried := { selection with tried := g :: selection.tried }
      match a.reserveLocked g s selection.setup true false failedOnly
          readsClosed with
      | .ok next => (.ok next, tried)
      | .error .sourceClosed => (.error .sourceClosed, tried)
      | .error .sourceSetupReleased =>
        (.error .sourceSetupReleased, tried)
      | .error failure =>
        nextLoop failedOnly readsClosed s fuel tried
          (connectionFull ||
            decide (failure = .generationConnectionCapacity))
          (setupFull || decide (failure = .generationSetupCapacity))

/-- `clientSelection.next`: the lease it reserves is the last of the list. -/
def next (selection : ClientSelection) (readsClosed : Bool) :
    Except AdmissionError Admission × ClientSelection :=
  if a.registryClosed then (.error .registryStopped, selection)
  else
    match selection.setup with
    | none => (.error .sourceSetupReleased, selection)
    | some l =>
      match a.setupLeases[l]? with
      | none => (.error .sourceSetupReleased, selection)
      | some setup =>
        if setup.released then (.error .sourceSetupReleased, selection)
        else if readsClosed then (.error .sourceClosed, selection)
        else
          let failedOnly := selection.candidates.all fun g =>
            !(a.ready g && !a.l7Failed g)
          a.nextLoop failedOnly readsClosed setup.source
            selection.candidates.length selection false false

/-- `activateLocked`. -/
def activateLocked (i : Nat) (lease : GenerationLease)
    (generation : TrafficGeneration) (acknowledged : Bool) : Admission :=
  let usage := generation.traffic lease.source
  { a with
    generations := a.generations.set lease.generation { generation with
      traffic := Function.update generation.traffic lease.source
        { usage with
          pending := usage.pending - 1
          active := usage.active + 1 } }
    leases := a.leases.set i { lease with
      state := .active, acknowledged := acknowledged } }

/-- The section of `acknowledge` under the registry's mutex, with its
result. -/
def acknowledge (i : Nat) (lease : GenerationLease)
    (generation : TrafficGeneration) : Admission × Bool :=
  match lease.setup with
  | none => (a, false)
  | some l =>
    match a.setupLeases[l]? with
    | none => (a, false)
    | some setup =>
      if lease.probe then (a, false)
      else if lease.state ≠ .pending then (a, false)
      else if setup.released then (a, false)
      else
        let active := a.activateLocked i lease generation true
        ({ active with
           setupLeases := a.setupLeases.set l
             { setup with released := true }
           settling := a.settling ++ [l] }, true)

def acknowledgeProbe (i : Nat) (lease : GenerationLease)
    (generation : TrafficGeneration) : Admission × Bool :=
  if !lease.probe then (a, false)
  else if lease.state ≠ .pending then (a, false)
  else (a.activateLocked i lease generation lease.acknowledged, true)

/-- `generationLease.release`. -/
def releaseLease (i : Nat) (lease : GenerationLease)
    (generation : TrafficGeneration) : Admission × Bool :=
  if lease.state = .released then (a, false)
  else
    let usage := generation.traffic lease.source
    let lowered : GenerationTraffic := if lease.state = .pending then
        { usage with pending := usage.pending - 1 }
      else { usage with active := usage.active - 1 }
    ({ a with
       generations := a.generations.set lease.generation { generation with
         traffic := Function.update generation.traffic lease.source lowered
         inflight := if lease.terminal then generation.inflight - 1
           else generation.inflight }
       leases := a.leases.set i { lease with state := .released } }, true)

/-! ## Runs -/

inductive Op where
  | newSource (capacity : MeshTCPCapacity) (requestLimit : Nat)
  | closeSource (s : Nat)
  | beginFlow (s : Nat)
  | releaseFlow (f : Nat)
  | beginSetup (f : Nat)
  | releaseSetup (l : Nat)
  | beginRequest (f : Nat)
  | releaseRequest (l : Nat)
  /-- What the registry decides about generations. -/
  | newGeneration (peer : Bool)
  | setGeneration (g : Nat) (ready : Bool) (l7Health : InstanceL7Health)
  | closeRegistry
  | beginClientSelection (setup : Option Nat) (roundRobin : Bool)
      (candidates : List Nat) (start : Nat)
  | next (k : Nat) (readsClosed : Bool)
  | reserveNextHop (g l : Nat) (readsClosed : Bool)
  | reserveProbe (g s : Nat) (readsClosed : Bool)
  | acknowledge (i : Nat)
  | settle (l : Nat)
  | acknowledgeProbe (i : Nat)
  | releaseLease (i : Nat)

/-- A call that fails changes nothing. -/
def orSame : Except AdmissionError Admission → Admission
  | .ok next => next
  | .error _ => a

/-- An operation on a lease of a source. -/
def withSource (leases : List SourceLease) (l : Nat)
    (operate : SourceLease → TCPSource → Admission) : Admission :=
  match leases[l]? with
  | none => a
  | some lease =>
    match a.sources[lease.source]? with
    | none => a
    | some source => operate lease source

/-- An operation on a generation lease. -/
def withGeneration (i : Nat)
    (operate : GenerationLease → TrafficGeneration → Admission) :
    Admission :=
  match a.leases[i]? with
  | none => a
  | some lease =>
    match a.generations[lease.generation]? with
    | none => a
    | some generation => operate lease generation

def apply : Op → Admission
  | .newSource capacity requestLimit =>
    { a with sources := a.sources ++ [newTCPSource capacity requestLimit] }
  | .closeSource s =>
    match a.sources[s]? with
    | none => a
    | some source =>
      { a with sources := a.sources.set s { source with closed := true } }
  | .beginFlow s =>
    match a.sources[s]? with
    | none => a
    | some source => a.orSame (a.beginFlow s source)
  | .releaseFlow f => a.withSource a.flowLeases f fun flow source =>
    (a.releaseFlow f flow source).1
  | .beginSetup f => a.withSource a.flowLeases f fun flow source =>
    a.orSame (a.beginSetup flow source)
  | .releaseSetup l => a.withSource a.setupLeases l fun setup source =>
    (a.releaseSetup l setup source).1
  | .beginRequest f => a.withSource a.flowLeases f fun flow source =>
    a.orSame (a.beginRequest flow source)
  | .releaseRequest l => a.withSource a.requestLeases l
      fun request source => (a.releaseRequest l request source).1
  | .newGeneration peer =>
    { a with
      generations := a.generations ++
        [{ peer := peer
           ready := false
           l7Health := .unknown
           traffic := fun _ => ⟨0, 0, 0, 0⟩
           inflight := 0 }] }
  | .setGeneration g ready l7Health =>
    match a.generations[g]? with
    | none => a
    | some generation =>
      { a with
        generations := a.generations.set g { generation with
          ready := ready, l7Health := l7Health } }
  | .closeRegistry => { a with registryClosed := true }
  | .beginClientSelection setup roundRobin candidates start =>
    { a with
      selections := a.selections ++
        [{ setup, roundRobin, candidates, tried := [], start }] }
  | .next k readsClosed =>
    match a.selections[k]? with
    | none => a
    | some selection =>
      let after := a.orSame (a.next selection readsClosed).1
      { after with
        selections := after.selections.set k
          (a.next selection readsClosed).2 }
  | .reserveNextHop g l readsClosed =>
    a.orSame (a.reserveNextHop g l readsClosed)
  | .reserveProbe g s readsClosed =>
    a.orSame (a.reserveProbe g s readsClosed)
  | .acknowledge i => a.withGeneration i fun lease generation =>
    (a.acknowledge i lease generation).1
  | .settle l =>
    if l ∈ a.settling then
      a.withSource a.setupLeases l fun setup source =>
        a.settle l setup source
    else a
  | .acknowledgeProbe i => a.withGeneration i fun lease generation =>
    (a.acknowledgeProbe i lease generation).1
  | .releaseLease i => a.withGeneration i fun lease generation =>
    (a.releaseLease i lease generation).1

/-! ## Selections -/

variable (selection : ClientSelection) (failedOnly : Bool) (g : Nat)

/-- A candidate that a round of `next` may pick. -/
def Admissible : Prop :=
  g ∈ selection.candidates ∧ g ∉ selection.tried ∧ a.ready g = true ∧
    (failedOnly = true ∨ a.l7Failed g = false)

/-- Other than in round robin, the pick has the fewest requests. -/
def Picks : Prop :=
  a.Admissible selection failedOnly g ∧ (selection.roundRobin = false →
    ∀ other, a.Admissible selection failedOnly other →
      a.inflight g ≤ a.inflight other)

variable {a selection failedOnly g}

theorem select_picks (picked : a.select selection failedOnly = some g) :
    a.Picks selection failedOnly g := by
  have eligible : ∀ other, other ∈ (selection.candidates.rotate
      selection.start).filter (fun g => !(decide (g ∈ selection.tried)) &&
        a.ready g && (failedOnly || !a.l7Failed g)) ↔
      a.Admissible selection failedOnly other := by
    simp [Admissible, and_assoc]
  have fewest : (fun selected g => match selected with
      | none => some g
      | some best =>
        if a.inflight g < a.inflight best then some g else some best) =
      List.argAux fun g best => a.inflight g < a.inflight best := by
    funext selected g
    cases selected <;> rfl
  simp only [select, fewest] at picked
  simp only [Picks, ← eligible]
  split at picked
  · exact ⟨List.mem_of_mem_head? picked, by simp_all⟩
  · obtain ⟨member, least, _⟩ := List.mem_argmin_iff.mp picked
    exact ⟨member, fun _ => least⟩

/-- Only candidates were tried, none twice. -/
def TriedOnce (candidates : List Nat) (selection : ClientSelection) : Prop :=
  selection.candidates = candidates ∧ selection.tried.Nodup ∧
    selection.tried ⊆ candidates

theorem TriedOnce.nextLoop {candidates : List Nat} {s fuel : Nat}
    {readsClosed connectionFull setupFull : Bool}
    (once : TriedOnce candidates selection) :
    TriedOnce candidates (a.nextLoop failedOnly readsClosed s fuel selection
      connectionFull setupFull).2 := by
  induction fuel generalizing selection connectionFull setupFull with
  | zero => exact once
  | succ fuel ih =>
    unfold Admission.nextLoop
    split
    · exact once
    rename_i g picked
    obtain ⟨⟨listed, untried, _⟩, _⟩ := select_picks picked
    obtain ⟨rfl, nodup, within⟩ := once
    have tried : TriedOnce selection.candidates
        { selection with tried := g :: selection.tried } :=
      ⟨rfl, List.nodup_cons.mpr ⟨untried, nodup⟩,
        List.cons_subset.mpr ⟨listed, within⟩⟩
    dsimp only
    split
    · exact tried
    · exact tried
    · exact tried
    · exact ih tried

end Admission

end QMux.Mesh
