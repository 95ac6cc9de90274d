import QMux.Mesh.MeshHost

/-!
# Holdings

Every reference that a stage, the published state or a snapshot holds is one
the ledger has handed out.  Hence the records behind them are live, and what
they say does not change.  There is one lemma for each way references move.
-/

namespace QMux.Mesh

open Support Protocol MeshServer

namespace DeclarationLedger

variable {l next : DeclarationLedger} {ref : RecordRef}

theorem record_eq {record : GroupRecord}
    (cell : l.recordCells[ref]? = some record) : l.record ref = record := by
  unfold DeclarationLedger.record
  rw [cell]
  rfl

theorem Extends.contents (grows : l.Extends next)
    (known : l.recordCells[ref]? ≠ none) :
    (next.record ref).contents = (l.record ref).contents := by
  obtain ⟨record, cell⟩ := Option.ne_none_iff_exists'.mp known
  obtain ⟨refs, cellNext⟩ := grows.cells ref record cell
  rw [record_eq cell, record_eq cellNext]
  rfl

end DeclarationLedger

namespace DeclarationRun

variable {hash : Bytes → Bytes}
  {validates : Bytes → Except String Declared → Prop} {run : DeclarationRun}
  {ref : RecordRef}

theorem retainRef_step (held : 0 < run.held ref) :
    Step hash validates run (run.retainRef ref) :=
  .retain ref held

theorem foldl_retainRef_reaches (refs : List RecordRef)
    (held : ∀ ref ∈ refs, 0 < run.held ref) :
    Relation.ReflTransGen (Step hash validates) run
      (refs.foldl retainRef run) := by
  induction refs generalizing run with
  | nil => exact .refl
  | cons ref rest ih =>
    have first : Step hash validates run (run.retainRef ref) :=
      retainRef_step (held ref List.mem_cons_self)
    refine .head first (ih ?_)
    intro other member
    have before := held other (List.mem_cons_of_mem ref member)
    have more := one_nonneg (some ref) other
    show 0 < run.held other + one (some ref) other
    omega

theorem held_foldl_retainRef (refs : List RecordRef) (run : DeclarationRun)
    (ref : RecordRef) :
    (refs.foldl retainRef run).held ref = run.held ref + refs.count ref := by
  induction refs generalizing run with
  | nil => simp
  | cons head rest ih =>
    rw [List.foldl_cons, ih, List.count_cons]
    show run.held ref + one (some head) ref + _ = _
    by_cases same : head = ref
    · subst same
      simp
      omega
    · rw [one_of_ne (Ne.symm same)]
      simp [same]

theorem Settled.live (settled : run.Settled) (held : 0 < run.held ref) :
    ∃ record, run.ledger.recordCells[ref]? = some record ∧ 0 < record.refs :=
  settled.accounts.found (owed_pos_of_held held)

variable {next : DeclarationRun}

theorem Settled.reaches (settled : run.Settled)
    (reaches : Relation.ReflTransGen (Step hash validates) run next) :
    next.Settled := by
  induction reaches with
  | refl => exact settled
  | tail _ step ih => exact ih.step step

theorem Vouched.reaches (vouched : run.Vouched hash validates)
    (settled : run.Settled)
    (reaches : Relation.ReflTransGen (Step hash validates) run next) :
    next.Vouched hash validates := by
  induction reaches with
  | refl => exact vouched
  | tail earlier step ih => exact ih.step (settled.reaches earlier) step

theorem grows_of_reaches
    (reaches : Relation.ReflTransGen (Step hash validates) run next) :
    run.ledger.Extends next.ledger := by
  induction reaches with
  | refl => exact (DeclarationLedger.Keeps.refl _).grows
  | tail _ step ih => exact ih.trans step.grows

end DeclarationRun

namespace MeshHost

variable {json : MeshJSON} {hash : Bytes → Bytes}
  {validates : Bytes → Except String Declared → Prop} {s next : MeshHost}
  {ref : RecordRef}

/-- Everything held is handed out by the ledger, and published under the id
it declares. -/
structure Hosted (hash : Bytes → Bytes)
    (validates : Bytes → Except String Declared → Prop) (s : MeshHost) :
    Prop where
  settled : s.run.Settled
  vouched : s.run.Vouched hash validates
  tied : ∀ ref, s.tied ref ≤ s.run.held ref
  keyed : ∀ groupID ref, s.published groupID = some ref →
    (s.record ref).key.id = groupID

private theorem sum_count_nonneg {α : Type*} (lists : List α)
    (held : α → List RecordRef) (ref : RecordRef) :
    0 ≤ (lists.map fun each => ((held each).count ref : Int)).sum := by
  apply List.sum_nonneg
  intro count member
  obtain ⟨each, -, rfl⟩ := List.mem_map.mp member
  exact Int.natCast_nonneg _

private theorem sum_count_pos {α : Type*} {lists : List α}
    {held : α → List RecordRef} {each : α} (member : each ∈ lists)
    (holds : ref ∈ held each) :
    0 < (lists.map fun each => ((held each).count ref : Int)).sum := by
  have counted : ((held each).count ref : Int) ≤
      (lists.map fun each => ((held each).count ref : Int)).sum := by
    apply List.single_le_sum
    · intro count among
      obtain ⟨other, -, rfl⟩ := List.mem_map.mp among
      exact Int.natCast_nonneg _
    · exact List.mem_map_of_mem member
  have positive := List.count_pos_iff.mpr holds
  omega

theorem tied_pos_of_published {groupID : String}
    (published : s.published groupID = some ref) : 0 < s.tied ref := by
  have stages := sum_count_nonneg s.stages Stage.records ref
  have snapshots := sum_count_nonneg s.snapshots PeerSnapshot.groups ref
  have counted : 0 < s.server.control.groups.values.count ref :=
    Multiset.count_pos.mpr (FiniteMap.mem_values_iff.mpr ⟨_, published⟩)
  unfold tied
  omega

variable {stage : Stage} {run : DeclarationRun} {index : Nat}

theorem tied_pos_of_stage (member : stage ∈ s.stages)
    (holds : ref ∈ stage.records) : 0 < s.tied ref := by
  have stages := sum_count_pos member holds
  have snapshots := sum_count_nonneg s.snapshots PeerSnapshot.groups ref
  unfold tied
  omega

section

variable (hosted : s.Hosted hash validates)

include hosted

theorem Hosted.held_of_tied (tied : 0 < s.tied ref) : 0 < s.run.held ref :=
  lt_of_lt_of_le tied (hosted.tied ref)

theorem Hosted.known_of_tied (tied : 0 < s.tied ref) :
    s.run.ledger.recordCells[ref]? ≠ none := by
  obtain ⟨record, cell, -⟩ := hosted.settled.live (hosted.held_of_tied tied)
  rw [cell]
  simp

theorem Hosted.move
    (reaches : Relation.ReflTransGen
      (DeclarationRun.Step hash validates) s.run run) (same : next.run = run)
    (tied : ∀ ref, next.tied ref ≤ run.held ref)
    (published : ∀ groupID ref, next.published groupID = some ref →
      s.published groupID = some ref ∨ (s.run.ledger.recordCells[ref]? ≠ none ∧
          (s.record ref).key.id = groupID)) : next.Hosted hash validates where
  settled := by
    rw [same]
    exact hosted.settled.reaches reaches
  vouched := by
    rw [same]
    exact hosted.vouched.reaches hosted.settled reaches
  tied := by
    rw [same]
    exact tied
  keyed := by
    intro groupID ref found
    have grows := DeclarationRun.grows_of_reaches reaches
    have known : s.run.ledger.recordCells[ref]? ≠ none ∧
        (s.record ref).key.id = groupID := by
      rcases published groupID ref found with before | new
      · exact ⟨hosted.known_of_tied (tied_pos_of_published before),
          hosted.keyed groupID ref before⟩
      · exact new
    have contents := grows.contents known.1
    have key : (run.ledger.record ref).key = (s.record ref).key :=
      congrArg Prod.fst contents
    unfold MeshHost.record
    rw [same, key]
    exact known.2

theorem Hosted.keep (run : next.run = s.run)
    (groups : next.server.control.groups = s.server.control.groups)
    (tied : ∀ ref, next.tied ref ≤ s.run.held ref) :
    next.Hosted hash validates := by
  apply hosted.move .refl run tied
  intro groupID ref found
  left
  unfold published at found ⊢
  rw [← groups]
  exact found

end

theorem tied_congr (stages : next.stages = s.stages)
    (groups : next.server.control.groups = s.server.control.groups)
    (snapshots : next.snapshots = s.snapshots) : next.tied = s.tied := by
  funext ref
  unfold tied
  rw [stages, groups, snapshots]

theorem start_hosted (registry : Registry) (limits : MeshLimits) :
    (start registry limits).Hosted hash validates where
  settled := DeclarationRun.start_settled (Int.natCast_nonneg _)
    (Int.natCast_nonneg _)
  vouched := DeclarationRun.start_vouched _
  tied := by
    intro ref
    exact Int.le_refl 0
  keyed := by
    intro groupID ref found
    unfold published at found
    change (∅ : FiniteMap String RecordRef).get groupID = some ref at found
    rw [FiniteMap.get_empty] at found
    cases found

/-! ## Moves -/

theorem tied_writeStage (found : s.stages[index]? = some stage)
    (records : List RecordRef) (ref : RecordRef) :
    (s.writeStage index { stage with records := records }).tied ref =
      s.tied ref - stage.records.count ref + records.count ref := by
  have moved := sum_map_set_eq
    (fun stage : Stage => (stage.records.count ref : Int)) found
    { stage with records := records }
  unfold tied
  show ((s.stages.set index { stage with records := records }).map
    fun stage => (stage.records.count ref : Int)).sum + _ + _ = _
  dsimp only at moved
  rw [moved]
  show _ + (s.server.control.groups.values.count ref : Nat) +
    (s.snapshots.map fun snapshot =>
      (snapshot.groups.count ref : Int)).sum = _
  omega

section

variable (hosted : s.Hosted hash validates)

include hosted

theorem Hosted.ledger (step : DeclarationRun.Step hash validates s.run run)
    (spared : ∀ ref, s.tied ref ≤ run.held ref) :
    Hosted hash validates { s with run := run } := by
  refine hosted.move (.single step) rfl spared ?_
  intro groupID ref found
  exact .inl found

theorem Hosted.openStage (groupID : String) :
    Hosted hash validates
      { s with stages := s.stages ++ [⟨groupID, []⟩] } := by
  refine hosted.keep rfl rfl ?_
  intro ref
  have before := hosted.tied ref
  unfold MeshHost.tied at before ⊢
  simpa using before

theorem Hosted.adopt (found : s.stages[index]? = some stage)
    (spare : s.tied ref < s.run.held ref) :
    (s.writeStage index
      { stage with records := stage.records ++ [ref] }).Hosted hash
        validates := by
  refine hosted.keep rfl rfl ?_
  intro other
  have before := hosted.tied other
  rw [tied_writeStage found, List.count_append, List.count_singleton]
  by_cases same : other = ref
  · subst same
    simp
    omega
  · simp [Ne.symm same]
    exact before

theorem Hosted.drop (found : s.stages[index]? = some stage) :
    (s.writeStage index
      { stage with records := stage.records.erase ref }).Hosted hash
        validates := by
  refine hosted.keep rfl rfl ?_
  intro other
  have before := hosted.tied other
  have fewer : (stage.records.erase ref).count other ≤
      stage.records.count other :=
    List.Sublist.count_le other (List.erase_sublist)
  rw [tied_writeStage found]
  omega

theorem Hosted.same (run : next.run = s.run) (stages : next.stages = s.stages)
    (groups : next.server.control.groups = s.server.control.groups)
    (snapshots : next.snapshots = s.snapshots) :
    next.Hosted hash validates := by
  apply hosted.keep run groups
  rw [tied_congr stages groups snapshots]
  exact hosted.tied

/-- A record takes the place of the published one of its group, with a
reference of its own or one that its holder hands over. -/
theorem Hosted.install
    (reaches : Relation.ReflTransGen
      (DeclarationRun.Step hash validates) s.run run)
    (known : s.run.ledger.recordCells[ref]? ≠ none)
    (spare : ∀ other, s.tied other + one (some ref) other ≤ run.held other)
    (same : next.run = run) (stages : next.stages = s.stages)
    (snapshots : next.snapshots = s.snapshots)
    (groups : next.server.control.groups =
      s.server.control.groups.put (s.record ref).key.id ref) :
    next.Hosted hash validates := by
  refine hosted.move reaches same ?_ ?_
  · intro other
    have traded := FiniteMap.count_values_put s.server.control.groups
      (s.record ref).key.id ref other
    have bound := spare other
    have more : (if ref = other then 1 else 0 : Nat) =
        one (some ref) other := by
      unfold one
      by_cases here : ref = other <;> simp [here]
    unfold MeshHost.tied at bound ⊢
    rw [stages, groups, snapshots]
    omega
  · intro groupID other found
    unfold published at found ⊢
    rw [groups, FiniteMap.get_put] at found
    split at found
    · rename_i here
      cases found
      exact .inr ⟨known, here.symm⟩
    · exact .inl found

end

theorem groups_announce (control : ControlState) (bytes : Bytes) :
    (announce json hash control bytes).groups = control.groups := by
  unfold announce
  split <;> rfl

theorem groups_releasePathLocked (control : ControlState) (path : PathRef) :
    (control.releasePathLocked path).groups = control.groups := by
  unfold ControlState.releasePathLocked
  dsimp only
  split <;> rfl

theorem groups_releaseSnapshot (control : ControlState)
    (snapshot : PeerSnapshot) :
    (control.releaseSnapshot snapshot).groups = control.groups := by
  unfold ControlState.releaseSnapshot
  induction snapshot.paths generalizing control with
  | nil => rfl
  | cons path rest ih =>
    rw [List.foldl_cons, ih, groups_releasePathLocked]

/-- What `commitClientGroup` does to the groups and the ledger. -/
inductive CommitChange (s : MeshHost) (ref : RecordRef)
    (outcome : CommitOutcome) : Prop
  | refused (committed : outcome.committed = false)
      (server : outcome.server = s.server) (retained : outcome.retained = none)
  | kept (committed : outcome.committed = true)
      (current : ∃ previous, s.published (s.record ref).key.id = some previous ∧
        (s.record ref).key.version ≤ (s.record previous).key.version)
      (control : outcome.server.control = s.server.control)
      (rules : outcome.server.groupRules = s.server.groupRules)
      (retained : outcome.retained = none)
  | published (committed : outcome.committed = true)
      (newer : ∀ previous, s.published (s.record ref).key.id = some previous →
        (s.record previous).key.version < (s.record ref).key.version)
      (groups : outcome.server.control.groups =
        s.server.control.groups.put (s.record ref).key.id ref)
      (revision : outcome.server.control.revision =
        s.server.control.revision + 1)
      (rules : outcome.server.groupRules = s.server.groupRules.put
        (s.record ref).key.id
        ⟨(s.record ref).key.version, (s.record ref).policy⟩)
      (retained : outcome.retained = some ref)

theorem revision_announce (control : ControlState) (bytes : Bytes) :
    (announce json hash control bytes).revision = control.revision := by
  unfold announce
  split <;> rfl

theorem commitClientGroup_change (s : MeshHost) (g : GenRef)
    (ref : RecordRef) :
    CommitChange s ref
      (s.server.commitClientGroup json hash s.run.ledger g ref) := by
  unfold commitClientGroup
  dsimp only
  split
  · exact .refused rfl rfl rfl
  split
  · rename_i older
    refine .published rfl ?_ ?_ ?_ rfl rfl
    · intro previous found
      unfold outdated at older
      unfold published at found
      rw [show s.server.control.groups.get
        (s.run.ledger.record ref).key.id = some previous from found] at older
      exact of_decide_eq_true older
    · exact groups_announce _ _
    · exact revision_announce _ _
  · rename_i current
    refine .kept rfl ?_ rfl rfl rfl
    unfold outdated at current
    unfold published
    cases found : s.server.control.groups.get (s.record ref).key.id with
    | none =>
      rw [show s.server.control.groups.get
        (s.run.ledger.record ref).key.id = none from found] at current
      exact absurd rfl current
    | some previous =>
      refine ⟨previous, rfl, ?_⟩
      rw [show s.server.control.groups.get (s.run.ledger.record ref).key.id =
        some previous from found] at current
      exact Nat.le_of_not_lt fun newer => current (decide_eq_true newer)

variable (hosted : s.Hosted hash validates)

include hosted

theorem Hosted.commitClient (g : GenRef) (groupID : String)
    (tied : 0 < s.tied ref) :
    (s.commitClient json hash g groupID ref).Hosted hash validates := by
  have held := hosted.held_of_tied tied
  have run : ∀ retained, (s.server.commitClientGroup json hash s.run.ledger g
      ref).retained = retained →
      (s.commitClient json hash g groupID ref).run =
        retainPublished s.run retained := by
    rintro _ rfl
    rfl
  have change : CommitChange s ref
      (s.server.commitClientGroup json hash s.run.ledger g ref) :=
    commitClientGroup_change s g ref
  cases change with
  | refused committed server retained =>
    exact hosted.same (run none retained) rfl
      (congrArg (·.control.groups) server) rfl
  | kept committed current control rules retained =>
    exact hosted.same (run none retained) rfl
      (congrArg ControlState.groups control) rfl
  | published committed newer groups revision rules retained =>
    have step : DeclarationRun.Step hash validates s.run
        (s.run.retainRef ref) := DeclarationRun.retainRef_step held
    refine hosted.install (.single step) (hosted.known_of_tied tied) ?_
      (run (some ref) retained) rfl rfl groups
    intro other
    have before := hosted.tied other
    show _ ≤ s.run.held other + one (some ref) other
    omega

theorem Hosted.subscribe : s.subscribePeer.Hosted hash validates := by
  have members : ∀ ref ∈ s.server.control.subscribe.1.groups,
      ∃ groupID, s.published groupID = some ref := by
    intro ref member
    obtain ⟨groupID, -, found⟩ := List.mem_filterMap.mp member
    exact ⟨groupID, found⟩
  have held : ∀ ref ∈ s.server.control.subscribe.1.groups,
      0 < s.run.held ref := by
    intro ref member
    obtain ⟨groupID, found⟩ := members ref member
    exact hosted.held_of_tied (tied_pos_of_published found)
  refine hosted.move (DeclarationRun.foldl_retainRef_reaches _ held) rfl ?_ ?_
  · intro ref
    have before := hosted.tied ref
    rw [DeclarationRun.held_foldl_retainRef]
    have snapshots : (s.subscribePeer.snapshots.map fun snapshot =>
        (snapshot.groups.count ref : Int)).sum =
        (s.snapshots.map fun snapshot =>
          (snapshot.groups.count ref : Int)).sum +
        (s.server.control.subscribe.1.groups.count ref : Int) :=
      sum_map_append_singleton _ _ _
    unfold MeshHost.tied at before ⊢
    rw [snapshots]
    have groups : s.subscribePeer.server.control.groups =
        s.server.control.groups := rfl
    have stages : s.subscribePeer.stages = s.stages := rfl
    rw [groups, stages]
    omega
  · intro groupID ref found
    exact .inl found

theorem Hosted.releaseSnapshot {snapshot : PeerSnapshot}
    (found : s.snapshots[index]? = some snapshot) :
    (s.releasePeerSnapshot index snapshot).Hosted hash validates := by
  have groups : (s.releasePeerSnapshot index snapshot).server.control.groups =
      s.server.control.groups := groups_releaseSnapshot _ _
  refine hosted.keep rfl groups ?_
  intro ref
  have before := hosted.tied ref
  have moved := sum_map_set_eq
    (fun snapshot : PeerSnapshot => (snapshot.groups.count ref : Int)) found
    { snapshot with groups := [], paths := [] }
  have snapshots : ((s.releasePeerSnapshot index snapshot).snapshots.map
      fun snapshot => (snapshot.groups.count ref : Int)).sum =
      (s.snapshots.map fun snapshot =>
        (snapshot.groups.count ref : Int)).sum -
        (snapshot.groups.count ref : Int) := by
    refine moved.trans ?_
    simp
  have stages : (s.releasePeerSnapshot index snapshot).stages = s.stages := rfl
  unfold MeshHost.tied at before ⊢
  rw [snapshots, groups, stages]
  omega

theorem Hosted.step (step : Step json hash validates s next) :
    next.Hosted hash validates := by
  cases step with
  | ledger step spared => exact hosted.ledger step spared
  | openStage groupID => exact hosted.openStage groupID
  | adopt index ref found spare expected => exact hosted.adopt found spare
  | drop index ref found member => exact hosted.drop found
  | registry | unsubscribe => exact hosted.same rfl rfl rfl rfl
  | commitClient g index found first client group =>
    apply hosted.commitClient
    apply tied_pos_of_stage (List.mem_of_getElem? found)
    rw [first]
    exact List.mem_cons_self
  | publishForwarding g eligibility =>
    refine hosted.same rfl rfl ?_ rfl
    show (s.server.publishForwarding g eligibility).control.groups = _
    unfold publishForwarding
    split <;> rfl
  | publishL4Healthy g =>
    refine hosted.same rfl rfl ?_ rfl
    show (s.server.publishL4Healthy g).control.groups = _
    unfold publishL4Healthy
    split <;> rfl
  | subscribe => exact hosted.subscribe
  | releaseSnapshot index found => exact hosted.releaseSnapshot found

end MeshHost

end QMux.Mesh
