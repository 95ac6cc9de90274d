import QMux.Mesh.GroupExact

/-!
# Group availability over whole runs

Each operation keeps the cached availability exact, announces what it
changes, and leaves a stopped registry silent.
-/

namespace QMux.Mesh

open Function Support Protocol GroupRegistry

namespace GroupRegistry

variable {s next : GroupRegistry} {g : GenRef} {group : String}

/-! ## Publications -/

section

variable (exact_ : s.Exact)

include exact_

theorem Exact.commitClientGroup (json : MeshJSON) (hash : Bytes → Bytes)
    (l : DeclarationLedger) (g : GenRef) (ref : RecordRef)
    (own : (l.record ref).key.id = (s.server.registry.gens g).groupID) :
    (s.commitClientGroup json hash l g ref).Exact := by
  unfold GroupRegistry.commitClientGroup MeshServer.commitClientGroup
  dsimp only
  split
  · rw [if_neg (by simp)]
    exact exact_
  rename_i commits
  simp only [not_or, Bool.not_eq_false] at commits
  obtain ⟨exactly, publishes⟩ := commits
  rcases Registry.publishLocked_cases s.server.registry g with
    same | ⟨key, entry, named, found, prepared, vacant, published⟩
  · rw [same] at publishes
    cases publishes
  have after : (s.server.registry.publishLocked g).2 =
      s.server.registry.published g key entry := congrArg Prod.snd published
  have owned := (Registry.exact_iff.mp exactly).1
  have sound : (s.server.registry.publishLocked g).2.Sound := by
    rw [after]
    exact exact_.sound.published owned named found prepared vacant
  have closed : (s.server.registry.publishLocked g).2.closed =
      s.server.registry.closed := by
    rw [after]
    rfl
  have written : (s.server.registry.publishLocked g).2.gens g =
      { s.server.registry.gens g with phase := .current } := by
    rw [after]
    exact Registry.published_gens _ g key entry
  -- the declaration is of the group of `g`, the only one that changes
  have clean : ∀ rules : FiniteMap String GroupRule,
      (∀ other, other ≠ (l.record ref).key.id →
        rules.get other = s.server.groupRules.get other) →
      ∀ control, ExactBut (· = (l.record ref).key.id)
        { s with server :=
          { s.server.enroll (s.server.registry.publishLocked g).2 g
              (l.record ref).key.version with
            groupRules := rules, control := control } } := by
    intro rules others control
    apply ExactBut.step exact_ _ sound closed
      (show Registry.Traced (fun _ => False) (fun _ => False) _ _ from
        (Registry.publishLocked_change owned).traced exact_.sound)
    · intro _ _ _ impossible
      exact impossible.elim
    · intro _ impossible
      exact impossible.elim
    · intro other uncommitted
      have different : other ≠ g := by
        rintro rfl
        rcases uncommitted with beyond | waiting
        · have bound := sound.slotted.fresh other (by rw [after]; exact owned)
          exact absurd beyond (not_le.mpr bound)
        · change ((s.server.registry.publishLocked other).2.gens
            other).phase ∈ _ at waiting
          rw [written] at waiting
          simp at waiting
      exact update_of_ne different _ _
    · intro other group current clean
      have different : other ≠ g := by
        rintro rfl
        apply clean
        have same := current.1.2.2
        change ((s.server.registry.publishLocked other).2.gens
          other).groupID = group at same
        rw [written] at same
        rw [← same, own]
      exact MeshServer.eligible_congr (update_of_ne different _ _)
        (update_of_ne different _ _) (others group clean)
  split
  · rw [if_pos rfl]
    apply ExactBut.refresh
    apply clean
    intro other different
    exact FiniteMap.get_put_of_ne _ _ different
  · rw [if_pos rfl]
    apply ExactBut.refresh
    exact clean s.server.groupRules (fun _ _ => rfl) s.server.control

theorem Exact.publish (current : s.server.registry.isCurrentLocked g = true)
    (eligibility : ForwardingEligibility) {dirty : String → Prop}
    (own : ∀ group, s.server.registry.Client group g → dirty group) :
    ExactBut dirty { s with server := { s.server with
      forwarding := Function.update s.server.forwarding g eligibility } } := by
  obtain ⟨_, owned, phase⟩ := of_isCurrentLocked current
  apply ExactBut.step exact_
    { s.server with
      forwarding := Function.update s.server.forwarding g eligibility }
    exact_.sound rfl
    (show Registry.Traced (fun _ => False) (fun _ => False) _ _ from
      .refl s.server.registry)
  · intro _ _ _ impossible
    exact impossible.elim
  · intro _ impossible
    exact impossible.elim
  · intro other uncommitted
    have different : other ≠ g := by
      rintro rfl
      rcases uncommitted with beyond | waiting
      · have bound := exact_.sound.slotted.fresh other owned
        exact absurd beyond (not_le.mpr bound)
      · rw [show (s.server.registry.gens other).phase = .current from phase]
          at waiting
        simp at waiting
    exact update_of_ne different _ _
  · intro other group client clean
    have different : other ≠ g := by
      rintro rfl
      exact clean (own group client.1)
    exact MeshServer.eligible_congr (update_of_ne different _ _) rfl rfl

theorem Exact.publishForwarding (g : GenRef)
    (eligibility : ForwardingEligibility) :
    (s.publishForwarding g eligibility).Exact := by
  unfold GroupRegistry.publishForwarding
  dsimp only
  split
  · exact exact_
  rename_i current
  rw [Bool.not_eq_false] at current
  split
  · exact exact_
  have same : s.server.publishForwarding g eligibility = { s.server with
        forwarding := Function.update s.server.forwarding g eligibility } := by
    unfold MeshServer.publishForwarding
    rw [if_pos current]
  rw [same]
  split
  · apply ExactBut.refresh
    apply exact_.publish current
    intro group client
    exact client.2.2.symm
  · rename_i other
    apply exact_.publish current
    intro group client
    exact other client.2.1

theorem Exact.publishL4Healthy (g : GenRef) : (s.publishL4Healthy g).Exact := by
  unfold GroupRegistry.publishL4Healthy
  dsimp only
  split
  · exact exact_
  rename_i current
  simp only [not_or, Bool.not_eq_false, not_not] at current
  split
  · exact exact_
  have same : s.server.publishL4Healthy g = { s.server with
        forwarding := Function.update s.server.forwarding g
          { s.server.forwarding g with l4Healthy := true } } := by
    unfold MeshServer.publishL4Healthy
    rw [if_pos current]
  rw [same]
  apply ExactBut.refresh
  apply exact_.publish current.1
  intro group client
  exact client.2.2.symm

theorem Exact.publishInstanceL7Health (g : GenRef) (health : InstanceL7Health) :
    (s.publishInstanceL7Health g health).Exact := by
  unfold GroupRegistry.publishInstanceL7Health
  dsimp only
  split
  · exact exact_
  · exact { exact_ with }

theorem Exact.beginClientSelection (group : String) (setup : Nat)
    (roundRobin : Bool) :
    (s.beginClientSelection group setup roundRobin).2.Exact := by
  unfold GroupRegistry.beginClientSelection
  dsimp only
  split
  · rename_i turns
    refine { exact_ with turns := ?_ }
    intro opened other clean present
    by_cases own : other = group
    · subst own
      -- the candidates are generations of entries of the group
      obtain ⟨g, among⟩ := List.exists_mem_of_ne_nil _ turns.1
      unfold candidates at among
      rw [List.mem_filterMap] at among
      obtain ⟨instanceID, listed, _⟩ := among
      rw [Multiset.mem_sort, Multiset.mem_map] at listed
      obtain ⟨item, listed, _⟩ := listed
      apply (retained_iff exact_.sound.slotted).mp
      intro none
      rw [none] at listed
      exact absurd listed (Multiset.notMem_zero _)
    · apply exact_.turns opened other clean
      unfold FiniteMap.has at present ⊢
      dsimp only at present
      rw [FiniteMap.get_put_of_ne _ _ own] at present
      exact present
  · exact exact_

/-! ## All operations -/

theorem Exact.registry {op : RegistryOp} (enabled : s.registryRun.Enabled op)
    (named : ∀ group, op.Names group → group ≠ "") (plain : ∀ g, ¬ op.Ends g)
    (running : ∀ generations, op ≠ .stopBegin generations ∧
      op ≠ .stopFinish generations) :
    (s.withRegistry (s.server.registry.run op)).Exact := by
  have effect := exact_.effect enabled
  apply exact_.withRegistry (effect.sound exact_.sound)
    (effect.closed_eq fun generations => (running generations).1)
    (effect.traced exact_.sound)
  · intro g _ _ ends
    exact plain g ends
  · exact named

end

variable {op : Op}

theorem Exact.apply (exact_ : s.Exact) (enabled : s.Enabled op) :
    (s.apply op).Exact := by
  obtain ⟨calls, named⟩ := enabled
  cases op with
  | registry op =>
    have calls : s.registryRun.Enabled op := calls
    cases op with
    | beginRetire g => exact exact_.beginRetire g
    | release g => exact exact_.release g
    | stopBegin generations => exact exact_.stopBegin generations calls.1
    | stopFinish generations => exact exact_.stopFinish calls
    | prepareClient pending instanceID groupID =>
      apply exact_.registry calls
      · rintro group rfl
        exact named
      · intro g ends
        exact ends
      · simp
    | _ =>
      apply exact_.registry calls
      · intro group impossible
        exact impossible.elim
      · intro g ends
        exact ends
      · simp
  | commitClientGroup json hash l g ref =>
    exact exact_.commitClientGroup json hash l g ref calls
  | publishForwarding g eligibility =>
    exact exact_.publishForwarding g eligibility
  | publishL4Healthy g => exact exact_.publishL4Healthy g
  | publishInstanceL7Health g health =>
    exact exact_.publishInstanceL7Health g health
  | beginClientSelection group setup roundRobin =>
    exact exact_.beginClientSelection group setup roundRobin

theorem reachable_exact (reachable : (runs Enabled).Reachable s) :
    s.Exact := by
  apply reachable.invariant
  · rintro _ ⟨maxPending, maxClients, maxPeers, limits, rfl⟩
    exact new_exact maxPending maxClients maxPeers limits
  · rintro before after _ exact_ ⟨op, enabled, rfl⟩
    exact exact_.apply enabled

/-- An operation other than `Stop` announces what it changes. -/
theorem announced_apply (s : GroupRegistry) (op : Op)
    (running : ∀ generations, op ≠ .registry (.stopBegin generations)) :
    Announced s (s.apply op) := by
  cases op with
  | registry op =>
    cases op with
    | beginRetire g =>
      simp only [apply, beginRetire]
      split
      · exact announced_refresh s _ _
      · exact .same rfl rfl rfl
    | release g =>
      simp only [apply, release]
      split
      · exact announced_refresh s _ _
      · exact .same rfl rfl rfl
    | stopBegin generations => exact absurd rfl (running generations)
    | _ => exact .same rfl rfl rfl
  | commitClientGroup json hash l g ref =>
    simp only [apply, commitClientGroup]
    split
    · exact announced_refresh s _ _
    · exact .same rfl rfl rfl
  | publishForwarding g eligibility =>
    simp only [apply, publishForwarding]
    split
    · exact .same rfl rfl rfl
    split
    · exact .same rfl rfl rfl
    split
    · exact announced_refresh s _ _
    · exact .same rfl rfl rfl
  | publishL4Healthy g =>
    simp only [apply, publishL4Healthy]
    split
    · exact .same rfl rfl rfl
    split
    · exact .same rfl rfl rfl
    · exact announced_refresh s _ _
  | publishInstanceL7Health g health =>
    simp only [apply, publishInstanceL7Health]
    split <;> exact .same rfl rfl rfl
  | beginClientSelection group setup roundRobin =>
    simp only [apply, beginClientSelection]
    split <;> exact .same rfl rfl rfl

theorem server_refreshGroupLocked (s : GroupRegistry) (group : String) :
    (s.refreshGroupLocked group).server = s.server :=
  (refreshGroupLocked_refreshed s group).server

theorem commitClientGroup_closed (json : MeshJSON) (hash : Bytes → Bytes)
    (l : DeclarationLedger) (s : MeshServer) (g : GenRef) (ref : RecordRef) :
    (s.commitClientGroup json hash l g ref).server.registry.closed =
      s.registry.closed := by
  have published : (s.registry.publishLocked g).2.closed =
      s.registry.closed := by
    rcases Registry.publishLocked_cases s.registry g with
      same | ⟨key, entry, _, _, _, _, published⟩
    · rw [same]
    · rw [published]
      rfl
  unfold MeshServer.commitClientGroup
  dsimp only
  split
  · rfl
  · split <;> exact published

theorem publishForwarding_registry (s : MeshServer) (g : GenRef)
    (eligibility : ForwardingEligibility) :
    (s.publishForwarding g eligibility).registry = s.registry := by
  unfold MeshServer.publishForwarding
  split <;> rfl

theorem publishL4Healthy_registry (s : MeshServer) (g : GenRef) :
    (s.publishL4Healthy g).registry = s.registry := by
  unfold MeshServer.publishL4Healthy
  split <;> rfl

theorem Exact.stays_closed (exact_ : s.Exact)
    (closed : s.server.registry.closed = true) (enabled : s.Enabled op) :
    (s.apply op).server.registry.closed = true := by
  cases op with
  | registry op =>
    have later := (exact_.effect enabled.1).closed closed
    cases op with
    | beginRetire g =>
      simp only [GroupRegistry.apply, GroupRegistry.beginRetire]
      split
      · rw [server_refreshGroupLocked]
        exact later
      · exact later
    | release g =>
      simp only [GroupRegistry.apply, GroupRegistry.release]
      split
      · rw [server_refreshGroupLocked]
        exact later
      · exact later
    | _ => exact later
  | commitClientGroup json hash l g ref =>
    have later := commitClientGroup_closed json hash l s.server g ref
    rw [closed] at later
    simp only [GroupRegistry.apply, GroupRegistry.commitClientGroup]
    split
    · rw [server_refreshGroupLocked]
      exact later
    · exact later
  | publishForwarding g eligibility =>
    have same := publishForwarding_registry s.server g eligibility
    simp only [GroupRegistry.apply, GroupRegistry.publishForwarding]
    split
    · exact closed
    split
    · exact closed
    split
    · rw [server_refreshGroupLocked, same]
      exact closed
    · rw [same]
      exact closed
  | publishL4Healthy g =>
    simp only [GroupRegistry.apply, GroupRegistry.publishL4Healthy]
    split
    · exact closed
    split
    · exact closed
    · rw [server_refreshGroupLocked, publishL4Healthy_registry]
      exact closed
  | publishInstanceL7Health g health =>
    simp only [GroupRegistry.apply, GroupRegistry.publishInstanceL7Health]
    split <;> exact closed
  | beginClientSelection group setup roundRobin =>
    simp only [GroupRegistry.apply, GroupRegistry.beginClientSelection]
    split <;> exact closed

/-- After `Stop` no operation announces anything. -/
theorem Exact.silent (exact_ : s.Exact)
    (closed : s.server.registry.closed = true) (enabled : s.Enabled op) :
    (s.apply op).groupAvailable = ∅ ∧
      (s.apply op).groupChanged = s.groupChanged ∧
      (s.apply op).closedChannels = s.closedChannels := by
  have running : ∀ generations, op ≠ .registry (.stopBegin generations) := by
    rintro generations rfl
    have opened : s.server.registry.closed = false := enabled.1.1
    rw [closed] at opened
    cases opened
  have nothing := exact_.stopped closed
  have stays := exact_.stays_closed closed enabled
  rcases announced_apply s op running with
    ⟨same, channel, closes⟩ | ⟨flips, _, _⟩
  · exact ⟨same.trans nothing, channel, closes⟩
  · exact absurd ((exact_.apply enabled).stopped stays) (nothing ▸ flips)

/-- In every run with named groups the cached availability is exact until
`Stop`, the channel is closed and replaced exactly by the operations that
change it, `Stop` closes it once and for all, and the round robin has turns
only for groups with a client entry. -/
theorem group_availability_exact (reachable : (runs Enabled).Reachable s) :
    (s.server.registry.closed = false → ∀ group,
      group ∈ s.groupAvailable ↔ s.Qualified group) ∧
    (∀ op, s.Enabled op →
      (∀ generations, op ≠ .registry (.stopBegin generations)) →
      Announced s (s.apply op)) ∧
    (∀ generations, (s.stopBegin generations).groupAvailable = ∅ ∧
        (s.stopBegin generations).groupChanged = s.groupChanged ∧
        (s.stopBegin generations).closedChannels =
          s.closedChannels ++ [s.groupChanged]) ∧
    (s.server.registry.closed = true → s.groupAvailable = ∅ ∧
      ∀ op, s.Enabled op → (s.apply op).groupAvailable = ∅ ∧
        (s.apply op).groupChanged = s.groupChanged ∧
        (s.apply op).closedChannels = s.closedChannels) ∧
    s.closedChannels.Nodup ∧
    (s.server.registry.closed = false → ∀ group,
      s.roundRobin.has group = true → ∃ instanceID entry,
        s.server.registry.entries.get (.client instanceID) = some entry ∧
          entry.groupID = group) := by
  have exact_ := reachable_exact reachable
  have slotted := exact_.sound.slotted
  refine ⟨?_, ?_, ?_, ?_, exact_.distinct, ?_⟩
  · intro opened group
    rw [qualified_iff slotted]
    exact exact_.available opened group not_false
  · intro op _ running
    exact announced_apply s op running
  · intro generations
    exact ⟨rfl, rfl, rfl⟩
  · intro closed
    exact ⟨exact_.stopped closed, fun op enabled =>
      exact_.silent closed enabled⟩
  · intro opened group present
    obtain ⟨g, client⟩ := exact_.turns opened group not_false present
    obtain ⟨instanceID, entry, _, found, same, _⟩ :=
      sits_of_client slotted client
    exact ⟨instanceID, entry, found, same⟩

/-- A ledger with one declaration of a group. -/
def sampleLedger (group : String) : DeclarationLedger :=
  { newDeclarationLedger ⟨1, 8, 8⟩ with
    recordCells := [⟨⟨group, 1⟩, applyLatestRules, [7], [7], 1⟩] }

def sampleCommit (group : String) (g : GenRef) : Op :=
  .commitClientGroup ⟨fun _ => none, fun _ _ => none⟩ id
    (sampleLedger group) g 0

def sampleStart : GroupRegistry := new 2 2 2 ⟨1, 8, 8, 1, 1, 1, 1, 1⟩

theorem sample_reachable {allowed : GroupRegistry → Op → Prop}
    {schedule : List Op}
    (allows : TransitionSystem.Allows allowed apply
      sampleStart schedule) :
    (runs allowed).Reachable
      (schedule.foldl apply sampleStart) := by
  have start : (runs allowed).Reachable sampleStart := .start ⟨2, 2, 2, _, rfl⟩
  have steps : ∀ (s : GroupRegistry) (op : Op), allowed s op →
    (runs allowed).step s (s.apply op) := fun _ op allowed => ⟨op, allowed, rfl⟩
  exact start.schedule steps allows

/-- One client of the group commits its declaration and becomes healthy. -/
def sampleSchedule : List Op :=
  [.registry .beginInbound, .registry (.prepareClient 0 "edge" "api"),
    sampleCommit "api" 0, .publishL4Healthy 0]

theorem group_availability_exact_sample :
    ∃ s : GroupRegistry, (runs Enabled).Reachable s ∧
      s.groupAvailable = {"api"} ∧ s.groupChanged = 1 ∧
      s.closedChannels = [0] ∧ s.Qualified "api" := by
  have allows : TransitionSystem.Allows Enabled apply
      sampleStart sampleSchedule := by
    decide +kernel
  have reachable := sample_reachable allows
  have available : (sampleSchedule.foldl apply
      sampleStart).groupAvailable = {"api"} := by
    decide +kernel
  refine ⟨_, reachable, available, ?_, ?_, ?_⟩
  · decide +kernel
  · decide +kernel
  · apply ((group_availability_exact reachable).1 ?_ "api").mp
    · rw [available]
      exact Finset.mem_singleton_self _
    · decide +kernel

/-- Availability as it would be if every client had a rule version. -/
def Published (s : GroupRegistry) (group : String) : Prop :=
  ∃ instanceID entry g,
    s.server.registry.entries.get (.client instanceID) = some entry ∧
      entry.groupID = group ∧ entry.current = some g ∧
      s.server.forwarding g = ⟨true, true, true⟩ ∧
      ∃ rule, s.server.groupRules.get group = some rule ∧
        (rule.version ≤ s.server.ruleVersion g ∨ rule.policy = applyLatestRules)

/-- A second client is committed without a declaration, and everything is
published about it. -/
def undeclaredSchedule : List Op :=
  [.registry .beginInbound, .registry .beginInbound,
    .registry (.prepareClient 0 "edge" "api"),
    .registry (.prepareClient 1 "core" "api"), sampleCommit "api" 0,
    .registry (.commitReceiver 1), .publishForwarding 1 ⟨true, true, true⟩]

/-- A client without a declaration does not make its group available, even
under a policy that applies the latest rules to outdated clients. -/
theorem undeclared_client_unavailable :
    ∃ s : GroupRegistry, (runs Calls).Reachable s ∧
      s.server.registry.closed = false ∧ s.Published "api" ∧
      "api" ∉ s.groupAvailable := by
  have allows : TransitionSystem.Allows Calls apply
      sampleStart undeclaredSchedule := by
    decide +kernel
  refine ⟨_, sample_reachable allows, ?_, ?_, ?_⟩
  · decide +kernel
  · refine ⟨"core", ⟨"api", none, some 1, ∅⟩, 1, ?_, rfl, rfl, ?_,
      ⟨1, applyLatestRules⟩, ?_, .inr rfl⟩
    all_goals decide +kernel
  · decide +kernel

theorem not_qualified (empty : groupEntries s.server.registry group = 0) :
    ¬ s.Qualified group := by
  rintro ⟨instanceID, entry, g, found, same, _⟩
  have among := mem_groupEntries.mpr ⟨found, same⟩
  rw [empty] at among
  exact Multiset.notMem_zero _ among

theorem unnamed_group_stays_available :
    ∃ s : GroupRegistry, (runs Calls).Reachable s ∧
      s.server.registry.closed = false ∧ "" ∈ s.groupAvailable ∧
      ¬ s.Qualified "" := by
  have allows : TransitionSystem.Allows Calls apply
      sampleStart [.registry .beginInbound,
        .registry (.prepareClient 0 "edge" ""), sampleCommit "" 0,
        .publishL4Healthy 0, .registry (.release 0)] := by
    decide +kernel
  refine ⟨_, sample_reachable allows, ?_, ?_, not_qualified ?_⟩
  all_goals decide +kernel

def Op.preparesClient : Op → Bool
  | .registry (.prepareClient _ _ _) => true
  | _ => false

/-- The inbound side of a live arbitration may not be prepared as a client:
an aborting `CancelArbitration` removes it and refreshes no group. -/
theorem arbitrated_client_stays_available :
    ∃ s : GroupRegistry, (runs fun s op =>
        s.Enabled op ∨ op.preparesClient = true).Reachable s ∧
      s.server.registry.closed = false ∧ "api" ∈ s.groupAvailable ∧
      ¬ s.Qualified "api" := by
  have allows : TransitionSystem.Allows (fun s op =>
      s.Enabled op ∨ op.preparesClient = true) apply
      sampleStart [.registry (.beginOutboundPeer "west"),
        .registry .beginInbound, .registry (.preparePeer 1 "west" true),
        .registry (.prepareClient 1 "edge" "api"), sampleCommit "api" 1,
        .publishL4Healthy 1, .registry (.cancelArbitration 0 true)] := by
    decide +kernel
  refine ⟨_, sample_reachable allows, ?_, ?_, not_qualified ?_⟩
  all_goals decide +kernel

end GroupRegistry

end QMux.Mesh
