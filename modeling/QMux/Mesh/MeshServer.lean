import QMux.Mesh.ControlState
import QMux.Mesh.RegistryCommit

/-!
# Group rules of a mesh server

The registry with what its generations need to carry traffic: the rule of each
group, the rule version each client registered with, and the facts published
about each generation.  `commitClientGroup` publishes a client and its
declaration together, under the mutex of the control state and that of the
registry.
-/

namespace QMux.Mesh

open Support Protocol Registry

structure GroupRule where
  version : Nat
  policy : String
deriving DecidableEq

structure ForwardingEligibility where
  sessionReady : Bool
  declarationReady : Bool
  l4Healthy : Bool
deriving DecidableEq

/-- `MeshOutdatedClientPolicyApplyLatestRules` -/
def applyLatestRules : String := "apply_latest_rules"
/-- `MeshOutdatedClientPolicyPauseNewTraffic` -/
def pauseNewTraffic : String := "pause_new_traffic"

namespace Registry

def isCurrentLocked (r : Registry) (g : GenRef) : Bool :=
  if r.closed ∨ g ∉ r.all ∨ (r.gens g).phase ≠ .current then false
  else
    match (r.gens g).key with
    | none => false
    | some key =>
      match r.entries.get key with
      | none => false
      | some entry => entry.current = some g

/-- Every registry that calls on any tokens can make. -/
def calls : TransitionSystem Registry where
  initial r := ∃ maxPending maxClients maxPeers,
    r = newRegistry maxPending maxClients maxPeers
  step r next := ∃ op, next = r.run op

theorem calls_ordered {r : Registry} (reachable : calls.Reachable r) :
    r.Ordered := by
  refine reachable.invariant ?_ ?_
  · rintro _ ⟨maxPending, maxClients, maxPeers, rfl⟩
    exact newRegistry_ordered maxPending maxClients maxPeers
  · rintro before _ _ ordered ⟨op, rfl⟩
    exact ordered_keptBy.run ordered (within_all op)

end Registry

structure MeshServer where
  registry : Registry
  groupRules : FiniteMap String GroupRule
  ruleVersion : GenRef → Nat
  forwarding : GenRef → ForwardingEligibility
  control : ControlState

/-- What `commitClientGroup` reports and does; the retained reference is the
published state's own, and the given up one is released afterwards. -/
structure CommitOutcome where
  committed : Bool
  stop : Bool
  server : MeshServer
  retained : Option RecordRef
  released : Option RecordRef

inductive LeaseError where
  /-- `ErrSourceClosed` -/
  | sourceClosed
  /-- `ErrSourceSetupReleased` -/
  | setupReleased
  /-- "no eligible mesh next hop" -/
  | noCandidate
  /-- "mesh generation connection capacity reached" -/
  | connectionCapacity
  /-- "mesh generation setup capacity reached" -/
  | setupCapacity
deriving DecidableEq

/-- Who asks for a lease: its source, its setup and how much the generation
already carries for the source. -/
structure LeaseRequest where
  sourceClosed : Bool
  probe : Bool
  setupLive : Bool
  pending : Nat
  active : Nat
  maxConnections : Nat
  maxPendingSetups : Nat
deriving DecidableEq

namespace MeshServer

def new (registry : Registry) (limits : MeshLimits) : MeshServer where
  registry := registry
  groupRules := ∅
  ruleVersion := fun _ => 0
  forwarding := fun _ => ⟨false, false, false⟩
  control := newControlState limits

def isForwardingReadyLocked (s : MeshServer) (g : GenRef) : Bool :=
  let e := s.forwarding g
  if s.registry.isCurrentLocked g = false then false
  else if e.sessionReady = false ∨ e.declarationReady = false ∨
      e.l4Healthy = false then false
  else if (s.registry.gens g).role ≠ .client then true
  else
    match s.groupRules.get (s.registry.gens g).groupID with
    | none => false
    | some rule =>
      decide (s.ruleVersion g ≠ 0) &&
        (decide (rule.version ≤ s.ruleVersion g) ||
          decide (rule.policy = applyLatestRules))

/-- The decision of `reserveLocked`, through which every lease is granted. -/
def reserveLocked (s : MeshServer) (g : GenRef) (request : LeaseRequest) :
    Except LeaseError Unit :=
  if request.sourceClosed then .error .sourceClosed
  else if request.probe = false ∧ request.setupLive = false then
    .error .setupReleased
  else if s.isForwardingReadyLocked g = false then .error .noCandidate
  else if request.maxConnections ≤ request.pending + request.active then
    .error .connectionCapacity
  else if request.maxPendingSetups ≤ request.pending then
    .error .setupCapacity
  else .ok ()

def publishForwarding (s : MeshServer) (g : GenRef)
    (eligibility : ForwardingEligibility) : MeshServer :=
  if s.registry.isCurrentLocked g then
    { s with forwarding := Function.update s.forwarding g eligibility }
  else s

def publishL4Healthy (s : MeshServer) (g : GenRef) : MeshServer :=
  if s.registry.isCurrentLocked g = true ∧
      (s.registry.gens g).role = .client then
    { s with
      forwarding := Function.update s.forwarding g
        { s.forwarding g with l4Healthy := true } }
  else s

/-- Tell the links about a new declaration.  If its frames cannot be made the
links are closed instead. -/
def announce (json : MeshJSON) (hash : Bytes → Bytes) (control : ControlState)
    (bytes : Bytes) : ControlState :=
  match declarationFrames json hash control.revision bytes with
  | .error _ => control
  | .ok frames => control.broadcastLocked frames

/-- The published record of the group is older, or there is none. -/
def outdated (l : DeclarationLedger) (s : MeshServer) (record : GroupRecord) :
    Bool :=
  match s.control.groups.get record.key.id with
  | none => true
  | some previous => (l.record previous).key.version < record.key.version

/-- The generation carries the version of its own declaration. -/
def enroll (s : MeshServer) (registry : Registry) (g : GenRef)
    (version : Nat) : MeshServer :=
  { s with
    registry := registry
    ruleVersion := Function.update s.ruleVersion g version
    forwarding := Function.update s.forwarding g ⟨true, true, false⟩ }

/-- Publish a declaration and its rule. -/
def publishRule (json : MeshJSON) (hash : Bytes → Bytes) (s : MeshServer)
    (ref : RecordRef) (record : GroupRecord) : MeshServer :=
  { s with
    groupRules := s.groupRules.put record.key.id
      ⟨record.key.version, record.policy⟩
    control := announce json hash
      (s.control.installGroup record.key.id ref) record.bytes }

def commitClientGroup (json : MeshJSON) (hash : Bytes → Bytes)
    (l : DeclarationLedger) (s : MeshServer) (g : GenRef) (ref : RecordRef) :
    CommitOutcome :=
  let r := s.registry
  let record := l.record ref
  if r.isExactLocked g .client .prepared = false ∨
      (r.publishLocked g).1 = false then
    ⟨false, r.closed, s, none, none⟩
  else
    let admitted := s.enroll (r.publishLocked g).2 g record.key.version
    if s.outdated l record then
      ⟨true, r.closed, admitted.publishRule json hash ref record, some ref,
        s.control.groups.get record.key.id⟩
    else ⟨true, r.closed, admitted, none, none⟩

variable {json : MeshJSON} {hash : Bytes → Bytes} {l : DeclarationLedger}
  {s : MeshServer} {g : GenRef}

/-- A client generation that waits is committed with its declaration. -/
theorem commitClientGroup_of_waits {served : Prop} {instanceID : String}
    (keeps : s.registry.Keeps served (.client instanceID) g)
    (waits : s.registry.Waits (.client instanceID) g) (ref : RecordRef) :
    (commitClientGroup json hash l s g ref).committed = true ∧
      (commitClientGroup json hash l s g ref).stop = s.registry.closed ∧
      (commitClientGroup json hash l s g ref).server.registry.Serves
        (.client instanceID) g := by
  have role : (s.registry.gens g).role = .client := by
    have named := keeps.named
    unfold Generation.key at named
    split at named
    · cases named
    · assumption
    · cases named
  have exactly := keeps.exact waits
  rw [role] at exactly
  have published := publishLocked_of_waits keeps.named waits
  unfold commitClientGroup
  dsimp only
  rw [if_neg (by simp [exactly, published])]
  have serves := serves_of_published keeps.named published
  split <;> exact ⟨rfl, rfl, serves⟩

end MeshServer

namespace Registry

variable {r next : Registry} {g : GenRef} {key : EntryKey}
  {ops : List RegistryOp}

/-- After its preparation a generation waits until an operation commits it,
whatever else is called. -/
theorem Keeps.committed_or_waits (keeps : next.Keeps False key g)
    (spared : TransitionSystem.Allows (fun r op => op.Spares g r)
      Registry.run next ops) :
    (∃ before op after, ops = before ++ op :: after ∧
      op.Commits g (before.foldl Registry.run next) ∧
      ((before.foldl Registry.run next).run op).Serves key g) ∨
    (ops.foldl Registry.run next).Keeps False key g := by
  induction ops generalizing next with
  | nil => exact .inr keeps
  | cons op rest ih =>
    obtain ⟨spares, later⟩ := spared
    rcases keeps.commits_or_waits spares with commits | waits
    · exact .inl ⟨[], op, rest, rfl, commits,
        serves_of_commits keeps.named commits⟩
    rcases ih waits later with ⟨before, other, after, same, commits⟩ | done
    · refine .inl ⟨op :: before, other, after, ?_, commits⟩
      rw [same]
      rfl
    · exact .inr done

theorem Keeps.foldl_run (keeps : next.Keeps True key g)
    (spared : TransitionSystem.Allows (fun r op => op.Spares g r)
      Registry.run next ops) :
    (ops.foldl Registry.run next).Keeps True key g := by
  induction ops generalizing next with
  | nil => exact keeps
  | cons op rest ih => exact ih (keeps.run spared.1) spared.2

/-- A generation returned prepared is committed and then current, by
`CommitReceiver` or, for a client, by `commitClientGroup`, after any calls that
do not remove it, also if the registry was stopped meanwhile; and no outbound
generation takes its place. -/
theorem commit_after_ack_infallible (reachable : calls.Reachable r)
    (prepares : r.Prepares g key next)
    (spared : TransitionSystem.Allows (fun r op => op.Spares g r)
      run next ops) :
    ((∃ before op after, ops = before ++ op :: after ∧
        op.Commits g (before.foldl run next) ∧
        ((before.foldl run next).run op).Serves key g) ∨
      (((ops.foldl run next).commitReceiver g).1 =
          (true, (ops.foldl run next).closed) ∧
        ((ops.foldl run next).commitReceiver g).2.Serves key g ∧
        ∀ instanceID, key = .client instanceID →
          ∀ (json : MeshJSON) (hash : Bytes → Bytes) (l : DeclarationLedger)
            (s : MeshServer) (ref : RecordRef),
            s.registry = ops.foldl run next →
            (s.commitClientGroup json hash l g ref).committed = true ∧
              (s.commitClientGroup json hash l g ref).stop =
                (ops.foldl run next).closed ∧
              (s.commitClientGroup json hash l g ref).server.registry.Serves
                key g)) ∧
    (∀ other, other ≠ g → ((ops.foldl run next).gens other).key = some key →
      (ops.foldl run next).commitOutboundPeer other =
        (false, ops.foldl run next)) ∧
    ∀ (at_ : Registry) (peerID : String) (arb : ArbRef),
      calls.Reachable at_ → at_.arbitrations.get peerID = some arb →
      at_.commitOutboundPeer (at_.arbs arb).loser = (false, at_) := by
  have keeps := keeps_of_prepares (calls_ordered reachable) prepares
  refine ⟨?_, ?_, ?_⟩
  · rcases keeps.committed_or_waits spared with committed | waiting
    · exact .inl committed
    · obtain ⟨result, serves⟩ := commitReceiver_of_waits waiting waiting.waits
      refine .inr ⟨result, serves, ?_⟩
      intro instanceID same json hash l s ref registry
      subst same
      rw [← registry] at waiting ⊢
      exact MeshServer.commitClientGroup_of_waits waiting waiting.waits ref
  · intro other different named
    exact (keeps.true.foldl_run spared).commitOutboundPeer different named
  · intro at_ peerID arb reachableAt live
    exact commitOutboundPeer_of_loser (calls_ordered reachableAt) live

theorem commit_after_ack_infallible_sample :
    ∃ r next : Registry, calls.Reachable r ∧
      r.Prepares 0 (.client "edge") next ∧
      (([.beginInbound, .prepareClient 1 "edge" "api", .stopBegin [0, 1]].foldl
        run next).commitReceiver 0).1 = (true, true) ∧
      (([.beginInbound, .prepareClient 1 "edge" "api", .stopBegin [0, 1]].foldl
        run next).commitReceiver 0).2.Serves (.client "edge") 0 := by
  have reachable : calls.Reachable ((newRegistry 2 2 2).run .beginInbound) :=
    .next (.start ⟨2, 2, 2, rfl⟩) ⟨.beginInbound, rfl⟩
  have prepares : ((newRegistry 2 2 2).run .beginInbound).Prepares 0
      (.client "edge") (((newRegistry 2 2 2).run .beginInbound).prepareClient 0
        "edge" "api").2 := by
    apply Prepares.client
    exact Prod.ext (by decide +kernel) rfl
  have spared : TransitionSystem.Allows (fun r op => op.Spares 0 r)
      run (((newRegistry 2 2 2).run .beginInbound).prepareClient 0
        "edge" "api").2
      [.beginInbound, .prepareClient 1 "edge" "api", .stopBegin [0, 1]] := by
    decide +kernel
  refine ⟨_, _, reachable, prepares, ?_⟩
  rcases (commit_after_ack_infallible reachable prepares spared).1 with
    ⟨before, op, after, same, commits, -⟩ | ⟨committed, serves, -⟩
  · exfalso
    have member : op ∈ [RegistryOp.beginInbound,
        .prepareClient 1 "edge" "api", .stopBegin [0, 1]] := by
      rw [same]
      simp
    simp only [List.mem_cons, List.not_mem_nil, or_false] at member
    rcases member with rfl | rfl | rfl <;> exact commits
  · exact ⟨committed, serves⟩

end Registry

end QMux.Mesh
