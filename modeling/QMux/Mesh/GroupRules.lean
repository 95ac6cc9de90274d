import QMux.Mesh.HostHoldings

/-!
# One declaration per group version, and monotone rules

Two facts carry the rules of a group.  The ledger has one live record for each
group and version, so registrations, sessions and the published state agree on
what a version says.  And `commitClientGroup` publishes a declaration together
with the registry's rule, and only if it is newer than the published one.
-/

namespace QMux.Mesh

open Function Support Protocol MeshServer DeclarationRun Registry

namespace Registry

/-- A client generation whose preparation is over. -/
structure Enrolled (g : GenRef) (groupID : String) (r : Registry) : Prop where
  issued : g < r.nextID
  role : (r.gens g).role = .client
  group : (r.gens g).groupID = groupID
  phase : (r.gens g).phase ≠ .prepared

variable {r next : Registry} {g ref : GenRef} {groupID : String}

section

variable (enrolled : r.Enrolled g groupID)

include enrolled

theorem Enrolled.move (nextID : r.nextID ≤ next.nextID)
    (gens : next.gens g = r.gens g ∨ ∃ phase, phase ≠ .prepared ∧
      next.gens g = { r.gens g with phase := phase }) :
    next.Enrolled g groupID := by
  have issued := Nat.lt_of_lt_of_le enrolled.issued nextID
  rcases gens with same | ⟨phase, active, moved⟩
  · exact ⟨issued, by rw [same]; exact enrolled.role,
      by rw [same]; exact enrolled.group, by rw [same]; exact enrolled.phase⟩
  · exact ⟨issued, by rw [moved]; exact enrolled.role,
      by rw [moved]; exact enrolled.group, by rw [moved]; exact active⟩

theorem Enrolled.other {generation : Generation}
    (nextID : r.nextID ≤ next.nextID)
    (gens : next.gens = Function.update r.gens ref generation)
    (different : g ≠ ref) : next.Enrolled g groupID := by
  apply enrolled.move nextID
  left
  rw [gens, update_of_ne different]

theorem Enrolled.ne_of_unknown (unknown : (r.gens ref).role = .unknown) :
    g ≠ ref := by
  rintro rfl
  rw [enrolled.role] at unknown
  cases unknown

theorem Enrolled.phased {phase : Phase} (nextID : r.nextID ≤ next.nextID)
    (active : phase ≠ .prepared)
    (gens : next.gens = Function.update r.gens ref
      { r.gens ref with phase := phase }) : next.Enrolled g groupID := by
  by_cases same : g = ref
  · subst same
    apply enrolled.move nextID
    right
    exact ⟨phase, active, by rw [gens, update_self]⟩
  · exact enrolled.other nextID gens same

end

theorem enrolled_keptBy (g : GenRef) (groupID : String) :
    KeptBy .all (Enrolled g groupID) where
  counters := fun enrolled _ _ _ => enrolled.move (le_refl _) (.inl rfl)
  enter := fun enrolled => enrolled.other (Nat.le_succ _) rfl
    (ne_of_lt enrolled.issued)
  dial := by
    intro r enrolled peerID _ free
    have entered : (r.newGenerationLocked (outboundPeer peerID)).Enrolled g
        groupID :=
      enrolled.other (Nat.le_succ _) rfl (ne_of_lt enrolled.issued)
    exact entered.other (le_refl _) rfl (ne_of_lt enrolled.issued)
  client := fun enrolled ref instanceID groupID owned unknown free =>
    enrolled.other (le_refl _) rfl (enrolled.ne_of_unknown unknown)
  join := fun enrolled ref peerID preferred _ owned unknown free =>
    enrolled.other (le_refl _) rfl (enrolled.ne_of_unknown unknown)
  arbitrate := fun enrolled _ _ _ _ _ _ _ _ _ _ =>
    enrolled.move (le_refl _) (.inl rfl)
  complete := by
    intro r ended before enrolled pruned arb live owned unknown free
    refine enrolled.other (le_refl _) rfl (enrolled.ne_of_unknown ?_)
    rw [pruned.role]
    exact unknown
  publish := fun enrolled ref key entry _ _ _ _ _ _ =>
    enrolled.phased (le_refl _) (by simp) rfl
  retire := by
    intro r enrolled ref _
    obtain ⟨entries, frame⟩ := retireLocked_frame r ref
    rw [frame]
    exact enrolled.phased (le_refl _) (by simp) rfl
  drop := by
    intro r enrolled ref _
    obtain ⟨entries, frame⟩ := dropLocked_frame r ref
    rw [frame]
    exact enrolled.phased (le_refl _) (by simp) rfl
  loser := fun _ _ _ _ => trivial
  released := fun enrolled _ _ _ => enrolled.move (le_refl _) (.inl rfl)
  ended := fun enrolled _ => enrolled.move (le_refl _) (.inl rfl)
  stop := fun enrolled => enrolled.move (le_refl _) (.inl rfl)

end Registry

namespace MeshHost

variable {json : MeshJSON} {hash : Bytes → Bytes}
  {validates : Bytes → Except String Declared → Prop} {s next : MeshHost}
  {ref : RecordRef}

/-- The rule a record stands for. -/
def ruleOf (record : GroupRecord) : GroupRule :=
  ⟨record.key.version, record.policy⟩

/-- The published rules are those of the newest committed declarations. -/
structure Ruled (s : MeshHost) : Prop where
  staged : ∀ stage ∈ s.stages, stage.groupID ≠ "" →
    ∀ ref ∈ stage.records, (s.record ref).key.id = stage.groupID
  rules : ∀ groupID, s.server.groupRules.get groupID =
    (s.published groupID).map fun ref => ruleOf (s.record ref)
  newest : ∀ commit ∈ s.commits, ∃ ref, s.published commit.groupID = some ref ∧
      commit.version ≤ (s.record ref).key.version
  committed : ∀ groupID ref, s.published groupID = some ref →
    ∃ commit ∈ s.commits, commit.groupID = groupID ∧
      commit.version = (s.record ref).key.version

/-- Records that are tied keep their contents. -/
def Stable (s next : MeshHost) : Prop :=
  ∀ ref, 0 < s.tied ref →
    (next.record ref).contents = (s.record ref).contents

theorem Stable.of_run (same : next.run = s.run) : s.Stable next := by
  intro ref _
  unfold record
  rw [same]

theorem Hosted.stable (hosted : s.Hosted hash validates)
    (reaches : Relation.ReflTransGen
      (DeclarationRun.Step hash validates) s.run next.run) :
    s.Stable next := by
  intro ref tied
  exact (grows_of_reaches reaches).contents (hosted.known_of_tied tied)

theorem Stable.key (stable : s.Stable next) (tied : 0 < s.tied ref) :
    (next.record ref).key = (s.record ref).key :=
  congrArg Prod.fst (stable ref tied)

theorem Stable.ruleOf (stable : s.Stable next) (tied : 0 < s.tied ref) :
    ruleOf (next.record ref) = MeshHost.ruleOf (s.record ref) := by
  have policy : (next.record ref).policy = (s.record ref).policy :=
    congrArg (fun contents => contents.2.1) (stable ref tied)
  unfold MeshHost.ruleOf
  rw [stable.key tied, policy]

theorem Ruled.keep (ruled : s.Ruled) (stable : s.Stable next)
    (stages : ∀ stage ∈ next.stages, ∀ ref ∈ stage.records, stage.groupID ≠ "" →
      (∃ old ∈ s.stages, old.groupID = stage.groupID ∧ ref ∈ old.records) ∨
        (next.record ref).key.id = stage.groupID)
    (groups : next.server.control.groups = s.server.control.groups)
    (rules : next.server.groupRules = s.server.groupRules)
    (commits : next.commits = s.commits) : next.Ruled where
  staged := by
    intro stage member client ref holds
    rcases stages stage member ref holds client with
      ⟨old, oldMember, same, oldHolds⟩ | fresh
    · rw [stable.key (tied_pos_of_stage oldMember oldHolds), ← same]
      exact ruled.staged old oldMember (same ▸ client) ref oldHolds
    · exact fresh
  rules := by
    intro groupID
    have published : next.published groupID = s.published groupID :=
      congrArg (·.get groupID) groups
    rw [rules, ruled.rules groupID, published]
    cases found : s.published groupID with
    | none => rfl
    | some ref =>
      exact congrArg some (stable.ruleOf (tied_pos_of_published found)).symm
  newest := by
    intro commit member
    rw [commits] at member
    obtain ⟨ref, found, older⟩ := ruled.newest commit member
    refine ⟨ref, (congrArg (·.get commit.groupID) groups).trans found, ?_⟩
    rw [stable.key (tied_pos_of_published found)]
    exact older
  committed := by
    intro groupID ref found
    have before : s.published groupID = some ref :=
      (congrArg (·.get groupID) groups).symm.trans found
    obtain ⟨commit, member, same, version⟩ := ruled.committed groupID ref before
    refine ⟨commit, by rw [commits]; exact member, same, ?_⟩
    rw [stable.key (tied_pos_of_published before)]
    exact version

theorem Ruled.same (ruled : s.Ruled) (stable : s.Stable next)
    (stages : next.stages = s.stages)
    (groups : next.server.control.groups = s.server.control.groups)
    (rules : next.server.groupRules = s.server.groupRules)
    (commits : next.commits = s.commits) : next.Ruled := by
  refine ruled.keep stable ?_ groups rules commits
  intro stage member ref holds _
  rw [stages] at member
  exact .inl ⟨stage, member, rfl, holds⟩

variable {stage : Stage} {commit : ClientCommit} {g : GenRef}

theorem Ruled.writeStage (ruled : s.Ruled) {index : Nat}
    (found : s.stages[index]? = some stage) {records : List RecordRef}
    (kept : ∀ ref ∈ records, stage.groupID ≠ "" →
      ref ∈ stage.records ∨ (s.record ref).key.id = stage.groupID) :
    (s.writeStage index { stage with records := records }).Ruled := by
  refine ruled.keep (.of_run rfl) ?_ rfl rfl rfl
  intro other member ref holds client
  obtain ⟨position, cell⟩ := List.mem_iff_getElem?.mp member
  have cell := (getElem?_set_eq found _ position).symm.trans cell
  split at cell
  · cases cell
    rcases kept ref holds client with old | fresh
    · exact .inl ⟨stage, List.mem_of_getElem? found, rfl, old⟩
    · exact .inr fresh
  · exact .inl ⟨other, List.mem_of_getElem? cell, rfl, holds⟩

theorem start_ruled (registry : Registry) (limits : MeshLimits) :
    (start registry limits).Ruled where
  staged := by
    intro stage member
    cases member
  rules := by
    intro groupID
    show (∅ : FiniteMap String GroupRule).get groupID =
      ((∅ : FiniteMap String RecordRef).get groupID).map _
    rw [FiniteMap.get_empty, FiniteMap.get_empty]
    rfl
  newest := by
    intro commit member
    cases member
  committed := by
    intro groupID ref found
    change (∅ : FiniteMap String RecordRef).get groupID = some ref at found
    rw [FiniteMap.get_empty] at found
    cases found

private theorem Ruled.publish (ruled : s.Ruled) (stable : s.Stable next)
    (tied : 0 < s.tied ref) (group : commit.groupID = (s.record ref).key.id)
    (version : commit.version = (s.record ref).key.version)
    (newer : ∀ previous, s.published (s.record ref).key.id = some previous →
      (s.record previous).key.version < (s.record ref).key.version)
    (stages : next.stages = s.stages)
    (groups : next.server.control.groups =
      s.server.control.groups.put (s.record ref).key.id ref)
    (rules : next.server.groupRules = s.server.groupRules.put
      (s.record ref).key.id (ruleOf (s.record ref)))
    (commits : next.commits = s.commits ++ [commit]) : next.Ruled := by
  have published : ∀ groupID, next.published groupID =
      if groupID = (s.record ref).key.id then some ref
      else s.published groupID := by
    intro groupID
    unfold MeshHost.published
    rw [groups, FiniteMap.get_put]
  refine ⟨?_, ?_, ?_, ?_⟩
  · intro stage member client other holds
    rw [stages] at member
    rw [stable.key (tied_pos_of_stage member holds)]
    exact ruled.staged stage member client other holds
  · intro groupID
    rw [rules, FiniteMap.get_put, published groupID]
    split
    · exact congrArg some (stable.ruleOf tied).symm
    rw [ruled.rules groupID]
    cases found : s.published groupID with
    | none => rfl
    | some other =>
      exact congrArg some (stable.ruleOf (tied_pos_of_published found)).symm
  · intro each member
    rw [commits, List.mem_append, List.mem_singleton] at member
    rw [published each.groupID]
    rcases member with old | rfl
    · obtain ⟨other, found, older⟩ := ruled.newest each old
      split
      · rename_i here
        refine ⟨ref, rfl, ?_⟩
        rw [here] at found
        rw [stable.key tied]
        exact Nat.le_trans older (Nat.le_of_lt (newer other found))
      · refine ⟨other, found, ?_⟩
        rw [stable.key (tied_pos_of_published found)]
        exact older
    · rw [if_pos group]
      refine ⟨ref, rfl, ?_⟩
      rw [stable.key tied, version]
  · intro groupID other found
    rw [published groupID] at found
    split at found
    · rename_i here
      cases found
      refine ⟨commit, ?_, group.trans here.symm, ?_⟩
      · rw [commits]
        exact List.mem_append_right _ (List.mem_singleton.mpr rfl)
      · rw [stable.key tied, version]
    · obtain ⟨each, member, same, version⟩ :=
        ruled.committed groupID other found
      refine ⟨each, ?_, same, ?_⟩
      · rw [commits]
        exact List.mem_append_left _ member
      · rw [stable.key (tied_pos_of_published found)]
        exact version

private theorem Ruled.join (ruled : s.Ruled)
    (group : commit.groupID = (s.record ref).key.id)
    (version : commit.version = (s.record ref).key.version)
    (current : ∃ previous, s.published (s.record ref).key.id = some previous ∧
      (s.record ref).key.version ≤ (s.record previous).key.version)
    (run : next.run = s.run) (stages : next.stages = s.stages)
    (groups : next.server.control.groups = s.server.control.groups)
    (rules : next.server.groupRules = s.server.groupRules)
    (commits : next.commits = s.commits ++ [commit]) : next.Ruled := by
  have kept : Ruled { next with commits := s.commits } :=
    ruled.same (.of_run run) stages groups rules rfl
  refine ⟨kept.staged, kept.rules, ?_, ?_⟩
  · intro each member
    rw [commits, List.mem_append, List.mem_singleton] at member
    rcases member with old | rfl
    · exact kept.newest each old
    obtain ⟨previous, found, older⟩ := current
    refine ⟨previous, ?_, ?_⟩
    · rw [group]
      exact (congrArg (·.get (s.record ref).key.id) groups).trans found
    · have same : next.record previous = s.record previous := by
        unfold record
        rw [run]
      rw [same, version]
      exact older
  · intro groupID other found
    obtain ⟨each, member, rest⟩ := kept.committed groupID other found
    refine ⟨each, ?_, rest⟩
    rw [commits]
    exact List.mem_append_left _ member

theorem Ruled.commitClient (ruled : s.Ruled)
    (hosted : s.Hosted hash validates) (g : GenRef)
    (member : stage ∈ s.stages) (holds : ref ∈ stage.records)
    (client : stage.groupID ≠ "") :
    (s.commitClient json hash g stage.groupID ref).Ruled := by
  have tied := tied_pos_of_stage member holds
  have group := ruled.staged stage member client ref holds
  have change : CommitChange s ref
      (s.server.commitClientGroup json hash s.run.ledger g ref) :=
    commitClientGroup_change s g ref
  have run : ∀ retained, (s.server.commitClientGroup json hash s.run.ledger g
      ref).retained = retained →
      (s.commitClient json hash g stage.groupID ref).run =
        retainPublished s.run retained := by
    rintro _ rfl
    rfl
  have commits : ∀ committed, (s.server.commitClientGroup json hash
      s.run.ledger g ref).committed = committed →
      (s.commitClient json hash g stage.groupID ref).commits = if committed then
          s.commits ++ [⟨g, stage.groupID, (s.record ref).key.version⟩]
        else s.commits := by
    rintro _ rfl
    rfl
  cases change with
  | refused committed server retained =>
    exact ruled.same (.of_run (run none retained)) rfl
      (congrArg (·.control.groups) server)
      (congrArg groupRules server) (commits false committed)
  | kept committed current control rules retained =>
    exact ruled.join group.symm rfl current (run none retained) rfl
      (congrArg ControlState.groups control) rules (commits true committed)
  | published committed newer groups revision rules retained =>
    have step : DeclarationRun.Step hash validates s.run
        (s.run.retainRef ref) :=
      retainRef_step (hosted.held_of_tied tied)
    have stable : s.Stable (s.commitClient json hash g stage.groupID ref) := by
      apply hosted.stable
      rw [run (some ref) retained]
      exact .single step
    exact ruled.publish stable tied group.symm rfl newer rfl groups rules
      (commits true committed)

theorem Ruled.step (ruled : s.Ruled) (hosted : s.Hosted hash validates)
    (step : Step json hash validates s next) : next.Ruled := by
  cases step with
  | ledger step spared =>
    exact ruled.same (hosted.stable (.single step)) rfl rfl rfl rfl
  | openStage groupID =>
    refine ruled.keep (.of_run rfl) ?_ rfl rfl rfl
    intro stage member ref holds _
    rcases List.mem_append.mp member with old | new
    · exact .inl ⟨stage, old, rfl, holds⟩
    · cases List.mem_singleton.mp new
      cases holds
  | adopt index ref found spare expected =>
    apply ruled.writeStage found
    intro other holds client
    rcases List.mem_append.mp holds with old | new
    · exact .inl old
    · cases List.mem_singleton.mp new
      exact .inr (expected.resolve_left client)
  | drop index ref found member =>
    apply ruled.writeStage found
    intro other holds _
    exact .inl (List.mem_of_mem_erase holds)
  | registry | unsubscribe => exact ruled.same (.of_run rfl) rfl rfl rfl rfl
  | commitClient g index found first client group =>
    apply ruled.commitClient hosted g (List.mem_of_getElem? found) _ client
    rw [first]
    exact List.mem_cons_self
  | publishForwarding g eligibility =>
    refine ruled.same (.of_run rfl) rfl ?_ ?_ rfl <;>
    · dsimp only [publishForwarding]
      split <;> rfl
  | publishL4Healthy g =>
    refine ruled.same (.of_run rfl) rfl ?_ ?_ rfl <;>
    · dsimp only [publishL4Healthy]
      split <;> rfl
  | subscribe =>
    refine ruled.same (hosted.stable ?_) rfl rfl rfl rfl
    apply foldl_retainRef_reaches
    intro ref member
    obtain ⟨groupID, -, found⟩ := List.mem_filterMap.mp member
    exact hosted.held_of_tied (tied_pos_of_published found)
  | releaseSnapshot index found =>
    exact ruled.same (.of_run rfl) rfl (groups_releaseSnapshot _ _) rfl rfl

/-! ## Registered versions -/

/-- Committed clients carry the version of their declaration. -/
structure Enrolled (s : MeshHost) : Prop where
  ordered : s.server.registry.Ordered
  clients : ∀ commit ∈ s.commits,
    s.server.registry.Enrolled commit.generation commit.groupID ∧
      s.server.ruleVersion commit.generation = commit.version

theorem Enrolled.same (enrolled : s.Enrolled)
    (registry : next.server.registry = s.server.registry)
    (versions : next.server.ruleVersion = s.server.ruleVersion)
    (commits : next.commits = s.commits) : next.Enrolled where
  ordered := by
    rw [registry]
    exact enrolled.ordered
  clients := by
    rw [registry, versions, commits]
    exact enrolled.clients

theorem commitClientGroup_admits
    (committed : (s.server.commitClientGroup json hash s.run.ledger g
      ref).committed = true) :
    s.server.registry.isExactLocked g .client .prepared = true ∧
    (s.server.registry.publishLocked g).1 = true ∧
    (s.server.commitClientGroup json hash s.run.ledger g
      ref).server.registry = (s.server.registry.publishLocked g).2 ∧
    (s.server.commitClientGroup json hash s.run.ledger g
      ref).server.ruleVersion = Function.update s.server.ruleVersion g
        (s.record ref).key.version := by
  unfold commitClientGroup at committed ⊢
  dsimp only at committed ⊢
  split at committed
  · cases committed
  rename_i allowed
  rw [not_or, Bool.not_eq_false, Bool.not_eq_false] at allowed
  obtain ⟨exactly, published⟩ := allowed
  rw [if_neg (by simp [exactly, published])]
  split <;> exact ⟨exactly, published, rfl, rfl⟩

theorem commitClientGroup_refuses
    (committed : (s.server.commitClientGroup json hash s.run.ledger g
      ref).committed = false) :
    (s.server.commitClientGroup json hash s.run.ledger g ref).server =
      s.server := by
  unfold commitClientGroup at committed ⊢
  dsimp only at committed ⊢
  split
  · rfl
  · rename_i allowed
    rw [if_neg allowed] at committed
    split at committed <;> cases committed

theorem Enrolled.commitClient (enrolled : s.Enrolled) {groupID : String}
    (group : (s.server.registry.gens g).groupID = groupID) :
    (s.commitClient json hash g groupID ref).Enrolled := by
  cases committed : (s.server.commitClientGroup json hash s.run.ledger g
      ref).committed with
  | false =>
    have server := commitClientGroup_refuses committed
    refine enrolled.same (congrArg registry server)
      (congrArg ruleVersion server) ?_
    unfold MeshHost.commitClient
    dsimp only
    rw [committed]
    rfl
  | true =>
    obtain ⟨exactly, published, registry, versions⟩ :=
      commitClientGroup_admits committed
    obtain ⟨owned, role, prepared⟩ := exact_iff.mp exactly
    have commits : (s.commitClient json hash g groupID ref).commits =
        s.commits ++ [⟨g, groupID, (s.record ref).key.version⟩] := by
      unfold MeshHost.commitClient
      dsimp only
      rw [committed]
      rfl
    have permitted : ∀ P, Registry.KeptBy .all P → P s.server.registry →
        P (s.server.registry.publishLocked g).2 := by
      intro P kept holds
      rcases publishLocked_cases s.server.registry g with
        same | ⟨key, entry, named, found, waiting, vacant, publishes⟩
      · rw [same]
        exact holds
      · rw [publishes]
        exact kept.publish holds g key entry trivial owned named found
          waiting vacant
    have ordered : (s.server.registry.publishLocked g).2.Ordered :=
      permitted _ ordered_keptBy enrolled.ordered
    have here : (s.server.registry.publishLocked g).2.Enrolled g groupID := by
      rcases publishLocked_cases s.server.registry g with
        same | ⟨key, entry, named, found, waiting, vacant, publishes⟩
      · rw [same] at published
        cases published
      have gens : (s.server.registry.publishLocked g).2.gens g =
          { s.server.registry.gens g with phase := .current } := by
        rw [publishes]
        exact published_gens _ _ _ _
      refine ⟨ordered.fresh g (.inl ?_), ?_, ?_, ?_⟩
      · rw [publishes]
        exact owned
      · rw [gens]
        exact role
      · rw [gens]
        exact group
      · rw [gens]
        simp
    refine ⟨?_, ?_⟩
    · show (s.server.commitClientGroup json hash s.run.ledger g
        ref).server.registry.Ordered
      rw [registry]
      exact ordered
    · intro commit member
      rw [commits, List.mem_append, List.mem_singleton] at member
      show (s.server.commitClientGroup json hash s.run.ledger g
        ref).server.registry.Enrolled _ _ ∧
        (s.server.commitClientGroup json hash s.run.ledger g
          ref).server.ruleVersion _ = _
      rw [registry, versions]
      rcases member with old | rfl
      · obtain ⟨before, version⟩ := enrolled.clients commit old
        have different : commit.generation ≠ g := by
          intro same
          rw [same] at before
          exact before.phase prepared
        rw [update_of_ne different]
        exact ⟨permitted _ (enrolled_keptBy _ _) before, version⟩
      · rw [update_self]
        exact ⟨here, rfl⟩

theorem Enrolled.step (enrolled : s.Enrolled)
    (step : Step json hash validates s next) : next.Enrolled := by
  cases step with
  | registry op =>
    refine ⟨ordered_keptBy.run enrolled.ordered (within_all op), ?_⟩
    intro commit member
    obtain ⟨before, version⟩ := enrolled.clients commit member
    exact ⟨(enrolled_keptBy _ _).run before (within_all op), version⟩
  | commitClient g index found first client group =>
    exact enrolled.commitClient group
  | publishForwarding g eligibility =>
    refine enrolled.same ?_ ?_ rfl <;>
    · dsimp only [publishForwarding]
      split <;> rfl
  | publishL4Healthy g =>
    refine enrolled.same ?_ ?_ rfl <;>
    · dsimp only [publishL4Healthy]
      split <;> rfl
  | _ => exact enrolled.same rfl rfl rfl

theorem reserveLocked_of_paused {server : MeshServer} {rule : GroupRule}
    (role : (server.registry.gens g).role = .client)
    (ruled : server.groupRules.get (server.registry.gens g).groupID =
      some rule) (older : server.ruleVersion g < rule.version)
    (paused : rule.policy = pauseNewTraffic) (request : LeaseRequest) :
    server.reserveLocked g request ≠ .ok () := by
  have unready : server.isForwardingReadyLocked g = false := by
    have policy : rule.policy ≠ applyLatestRules := by
      rw [paused]
      decide
    unfold isForwardingReadyLocked
    dsimp only
    split
    · rfl
    · split
      · rfl
      · rw [if_neg (not_not_intro role), ruled]
        simp [policy, Nat.not_le.mpr older]
  unfold reserveLocked
  rw [unready]
  repeat' split
  all_goals simp_all

/-! ## The result -/

/-- What holds in every state of a server. -/
structure Exact (hash : Bytes → Bytes)
    (parse : Bytes → Except String Declared) (s : MeshHost) : Prop where
  /-- Stages, sessions, snapshots and the published state hold references the
  ledger counts. -/
  holders : ∀ ref, 0 < s.tied ref → 0 < s.run.owed ref
  /-- References to declarations of one group and version are the same. -/
  unique : ∀ left right, 0 < s.run.owed left → 0 < s.run.owed right →
    (s.record left).key = (s.record right).key → left = right
  /-- Other bytes for the same group and version are refused. -/
  conflict : ∀ (index : Nat) (cell : ClaimCell) (call : FinishCall)
    (declared : Declared) (ref : RecordRef),
    s.run.claims[index]? = some cell → cell.stage = .checked call declared →
    0 < s.run.owed ref → (s.record ref).key = declared.key →
    (s.record ref).bytes ≠ call.input →
    (s.run.ledger.finishLocked hash cell.claim call.input call.capacity
      declared).1 = .error .conflict
  /-- The published version is the greatest of the committed ones. -/
  newest : ∀ groupID ref, s.published groupID = some ref →
    (s.record ref).key.id = groupID ∧
    (∃ commit ∈ s.commits, commit.groupID = groupID ∧
      commit.version = (s.record ref).key.version) ∧
    ∀ commit ∈ s.commits, commit.groupID = groupID →
      commit.version ≤ (s.record ref).key.version
  committed : ∀ commit ∈ s.commits, s.published commit.groupID ≠ none
  /-- The registry's rule is that of the published record. -/
  rules : ∀ groupID, s.server.groupRules.get groupID =
    (s.published groupID).map fun ref => ruleOf (s.record ref)
  /-- A client committed with an older version than a published one that
  pauses new traffic gets no lease. -/
  paused : ∀ commit ∈ s.commits, ∀ ref, s.published commit.groupID = some ref →
    commit.version < (s.record ref).key.version →
    (s.record ref).policy = pauseNewTraffic → ∀ request,
    s.server.reserveLocked commit.generation request ≠ .ok ()

/-- What every step does to the published records. -/
structure Advances (s next : MeshHost) : Prop where
  monotone : ∀ groupID ref, s.published groupID = some ref →
    ∃ later, next.published groupID = some later ∧
      (s.record ref).key.version ≤ (next.record later).key.version
  /-- The revision counts the changes of published records. -/
  revision :
    (next.server.control.revision = s.server.control.revision ∧
      ∀ groupID, next.published groupID = s.published groupID) ∨
    (next.server.control.revision = s.server.control.revision + 1 ∧
      ∃ groupID, next.published groupID ≠ s.published groupID ∧
        ∀ other, other ≠ groupID → next.published other = s.published other)

variable {parse : Bytes → Except String Declared}

theorem start_enrolled (maxPending maxClients maxPeers : Nat)
    (limits : MeshLimits) :
    (start (newRegistry maxPending maxClients maxPeers)
      limits).Enrolled where
  ordered := newRegistry_ordered maxPending maxClients maxPeers
  clients := by
    intro commit member
    cases member

/-- The invariants of a server. -/
structure Governed (hash : Bytes → Bytes)
    (validates : Bytes → Except String Declared → Prop) (s : MeshHost) :
    Prop where
  hosted : s.Hosted hash validates
  ruled : s.Ruled
  enrolled : s.Enrolled

theorem reachable_governed (reachable : (runs json hash parse).Reachable s) :
    s.Governed hash fun input outcome => parse input = outcome := by
  refine reachable.invariant ?_ ?_
  · rintro _ ⟨maxPending, maxClients, maxPeers, limits, rfl⟩
    exact ⟨start_hosted _ limits, start_ruled _ limits,
      start_enrolled maxPending maxClients maxPeers limits⟩
  · intro before after _ governed step
    exact ⟨governed.hosted.step step, governed.ruled.step governed.hosted step,
      governed.enrolled.step step⟩

theorem Hosted.owed_live (hosted : s.Hosted hash validates)
    (owed : 0 < s.run.owed ref) :
    s.run.ledger.recordCells[ref]? = some (s.record ref) ∧
      0 < (s.record ref).refs := by
  obtain ⟨record, cell, live⟩ := hosted.settled.accounts.found owed
  have same : s.record ref = record := DeclarationLedger.record_eq cell
  rw [same]
  exact ⟨cell, live⟩

theorem Governed.exact
    (governed : s.Governed hash fun input outcome => parse input = outcome) :
    s.Exact hash parse where
  holders := by
    intro ref tied
    exact owed_pos_of_held (governed.hosted.held_of_tied tied)
  unique := by
    intro left right leftOwed rightOwed same
    obtain ⟨leftCell, leftLive⟩ := governed.hosted.owed_live leftOwed
    obtain ⟨rightCell, rightLive⟩ := governed.hosted.owed_live rightOwed
    exact governed.hosted.settled.accounts.unique leftCell rightCell leftLive
      rightLive same
  conflict := by
    intro index cell call declared ref found stage owed same other
    obtain ⟨recordCell, live⟩ := governed.hosted.owed_live owed
    have vouched := governed.hosted.vouched.cells index cell found
    exact governed.hosted.settled.accounts.conflict
      governed.hosted.vouched.truthful (governed.hosted.settled.owed_candidate
      found) (vouched.checked call declared stage) recordCell live same other
  newest := by
    intro groupID ref found
    refine ⟨governed.hosted.keyed groupID ref found,
      governed.ruled.committed groupID ref found, ?_⟩
    intro commit member same
    obtain ⟨other, foundOther, older⟩ := governed.ruled.newest commit member
    rw [same, found] at foundOther
    cases foundOther
    exact older
  committed := by
    intro commit member
    obtain ⟨ref, found, -⟩ := governed.ruled.newest commit member
    rw [found]
    simp
  rules := governed.ruled.rules
  paused := by
    intro commit member ref found older policy request
    obtain ⟨client, version⟩ := governed.enrolled.clients commit member
    have ruled : s.server.groupRules.get
        (s.server.registry.gens commit.generation).groupID =
        some (ruleOf (s.record ref)) := by
      rw [client.group, governed.ruled.rules, found]
      rfl
    refine reserveLocked_of_paused client.role ruled ?_ policy request
    rw [version]
    exact older

/-! ### Steps -/

theorem Advances.of_groups (stable : s.Stable next)
    (groups : next.server.control.groups = s.server.control.groups)
    (revision : next.server.control.revision = s.server.control.revision) :
    s.Advances next := by
  have published : ∀ groupID, next.published groupID = s.published groupID :=
    fun groupID => congrArg (·.get groupID) groups
  refine ⟨?_, .inl ⟨revision, published⟩⟩
  intro groupID ref found
  refine ⟨ref, (published groupID).trans found, ?_⟩
  rw [stable.key (tied_pos_of_published found)]

theorem Advances.of_publish (stable : s.Stable next) (tied : 0 < s.tied ref)
    (newer : ∀ previous, s.published (s.record ref).key.id = some previous →
      (s.record previous).key.version < (s.record ref).key.version)
    (groups : next.server.control.groups =
      s.server.control.groups.put (s.record ref).key.id ref)
    (revision : next.server.control.revision =
      s.server.control.revision + 1) : s.Advances next := by
  have published : ∀ groupID, next.published groupID =
      if groupID = (s.record ref).key.id then some ref
      else s.published groupID := by
    intro groupID
    unfold MeshHost.published
    rw [groups, FiniteMap.get_put]
  refine ⟨?_, .inr ⟨revision, (s.record ref).key.id, ?_, ?_⟩⟩
  · intro groupID previous found
    rw [published groupID]
    split
    · rename_i here
      refine ⟨ref, rfl, ?_⟩
      rw [here] at found
      rw [stable.key tied]
      exact Nat.le_of_lt (newer previous found)
    · refine ⟨previous, found, ?_⟩
      rw [stable.key (tied_pos_of_published found)]
  · rw [published, if_pos rfl]
    intro same
    exact lt_irrefl _ (newer ref same.symm)
  · intro other different
    rw [published, if_neg different]

theorem revision_releaseSnapshot (control : ControlState)
    (snapshot : PeerSnapshot) :
    (control.releaseSnapshot snapshot).revision = control.revision := by
  unfold ControlState.releaseSnapshot
  induction snapshot.paths generalizing control with
  | nil => rfl
  | cons path rest ih =>
    rw [List.foldl_cons, ih]
    unfold ControlState.releasePathLocked
    dsimp only
    split <;> rfl

theorem Advances.of_commitClient (hosted : s.Hosted hash validates)
    (g : GenRef) (groupID : String) (tied : 0 < s.tied ref) :
    s.Advances (s.commitClient json hash g groupID ref) := by
  have change : CommitChange s ref
      (s.server.commitClientGroup json hash s.run.ledger g ref) :=
    commitClientGroup_change s g ref
  have run : ∀ retained, (s.server.commitClientGroup json hash s.run.ledger g
      ref).retained = retained →
      (s.commitClient json hash g groupID ref).run =
        retainPublished s.run retained := by
    rintro _ rfl
    rfl
  cases change with
  | refused committed server retained =>
    exact .of_groups (.of_run (run none retained))
      (congrArg (·.control.groups) server)
      (congrArg (·.control.revision) server)
  | kept committed current control rules retained =>
    exact .of_groups (.of_run (run none retained))
      (congrArg ControlState.groups control)
      (congrArg ControlState.revision control)
  | published committed newer groups revision rules retained =>
    have stable : s.Stable (s.commitClient json hash g groupID ref) := by
      apply hosted.stable
      rw [run (some ref) retained]
      exact .single (retainRef_step (hosted.held_of_tied tied))
    exact .of_publish stable tied newer groups revision

theorem Advances.of_step (hosted : s.Hosted hash validates)
    (step : Step json hash validates s next) : s.Advances next := by
  cases step with
  | ledger step spared =>
    exact .of_groups (hosted.stable (.single step)) rfl rfl
  | commitClient g index found first client group =>
    apply Advances.of_commitClient hosted
    apply tied_pos_of_stage (List.mem_of_getElem? found)
    rw [first]
    exact List.mem_cons_self
  | publishForwarding g eligibility =>
    refine .of_groups (.of_run rfl) ?_ ?_ <;>
    · dsimp only [publishForwarding]
      split <;> rfl
  | publishL4Healthy g =>
    refine .of_groups (.of_run rfl) ?_ ?_ <;>
    · dsimp only [publishL4Healthy]
      split <;> rfl
  | subscribe =>
    refine .of_groups (hosted.stable ?_) rfl rfl
    apply foldl_retainRef_reaches
    intro ref member
    obtain ⟨groupID, -, found⟩ := List.mem_filterMap.mp member
    exact hosted.held_of_tied (tied_pos_of_published found)
  | releaseSnapshot index found =>
    exact .of_groups (.of_run rfl) (groups_releaseSnapshot _ _)
      (revision_releaseSnapshot _ _)
  | _ => exact .of_groups (.of_run rfl) rfl rfl

/-- In every run of a server, holders of one group version hold one record,
and the rules follow the newest committed declaration. -/
theorem group_rules_exact (reachable : (runs json hash parse).Reachable s) :
    s.Exact hash parse ∧
      ∀ next, (runs json hash parse).step s next → s.Advances next := by
  have governed := reachable_governed reachable
  refine ⟨governed.exact, ?_⟩
  intro next step
  exact .of_step governed.hosted step

theorem reachable_of_ledger (maxPending maxClients maxPeers : Nat)
    (limits : MeshLimits) {run : DeclarationRun}
    (reaches : Relation.ReflTransGen
      (DeclarationRun.Step hash fun input outcome => parse input = outcome)
      (DeclarationRun.start limits.ledger) run) :
    (runs json hash parse).Reachable
      { start (newRegistry maxPending maxClients maxPeers) limits with
        run := run } := by
  induction reaches with
  | refl => exact .start ⟨maxPending, maxClients, maxPeers, limits, rfl⟩
  | tail earlier step ih =>
    have settled := (start_settled (Int.natCast_nonneg _)
      (Int.natCast_nonneg _)).reaches (earlier.tail step)
    exact .next ih (.ledger step settled.held)

theorem group_rules_exact_sample :
    ∃ s : MeshHost, (runs ⟨fun _ => none, fun _ _ => none⟩ (fun input => input)
        (fun input => .ok ⟨"api", input.length, pauseNewTraffic⟩)).Reachable s ∧
      (s.published "api" = some 1 ∧ (s.record 1).key.version = 2 ∧
        s.commits = [⟨0, "api", 1⟩, ⟨1, "api", 2⟩]) ∧
      ∀ request, s.server.reserveLocked 0 request ≠ .ok () := by
  have run : ∃ s : MeshHost,
      (runs ⟨fun _ => none, fun _ _ => none⟩ (fun input => input)
        (fun input => .ok ⟨"api", input.length, pauseNewTraffic⟩)).Reachable s ∧
      s.published "api" = some 1 ∧ (s.record 1).key.version = 2 ∧
        (s.record 1).policy = pauseNewTraffic ∧
        s.commits = [⟨0, "api", 1⟩, ⟨1, "api", 2⟩] :=
    ⟨_, .next (.next (.next (.next (.next (.next (.next (.next (.next (.next
      (reachable_of_ledger 2 2 2 ⟨2, 4, 8, 1, 1, 1, 1, 1⟩
        (.tail (.tail (.tail (.tail (.tail (.tail (.tail
        (.tail (.tail (.tail (.tail (.tail (.tail (.tail .refl
          (.begin 1 [] (by decide) rfl))
          (.finish 0 ⟨[7], 1, "api"⟩ rfl rfl rfl rfl (by decide)))
          (.enter 0 rfl rfl rfl))
          (.validate 0 rfl rfl))
          (.validated 0 _ 0 rfl rfl rfl))
          (.check 0 false rfl rfl))
          (.settle 0 rfl rfl))
          (.begin 2 [] (by decide) rfl))
          (.finish 1 ⟨[7, 7], 2, "api"⟩ rfl rfl rfl rfl (by decide)))
          (.enter 1 rfl rfl rfl))
          (.validate 1 rfl rfl))
          (.validated 1 _ 0 rfl rfl rfl))
          (.check 1 false rfl rfl))
          (.settle 1 rfl rfl)))
      (.registry .beginInbound)) (.registry .beginInbound))
      (.registry (.prepareClient 0 "edge" "api")))
      (.registry (.prepareClient 1 "core" "api")))
      (.openStage "api")) (.openStage "api"))
      (.adopt 0 0 rfl (by decide +kernel) (.inr rfl)))
      (.adopt 1 1 rfl (by decide +kernel) (.inr rfl)))
      (.commitClient 0 0 rfl rfl (by decide) rfl))
      (.commitClient 1 1 rfl rfl (by decide) rfl),
      rfl, rfl, rfl, rfl⟩
  obtain ⟨s, reachable, published, version, policy, commits⟩ := run
  refine ⟨s, reachable, ⟨published, version, commits⟩, ?_⟩
  apply (group_rules_exact reachable).1.paused ⟨0, "api", 1⟩ _ 1 published _
    policy
  · rw [commits]
    exact List.mem_cons_self
  · rw [version]
    decide

end MeshHost

end QMux.Mesh
