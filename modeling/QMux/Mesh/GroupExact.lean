import QMux.Mesh.ClientTraces
import QMux.Mesh.GroupAvailability

/-!
# Availability is exact

The cached availability of a group is what its entries say, in every run up
to `Stop`.  An operation spoils the cache of at most one group, which it then
refreshes; `ExactBut` is the invariant without the groups still to be
refreshed.
-/

namespace QMux.Mesh

open Support Protocol Registry

/-- The generation may take traffic of the group if it is current. -/
structure MeshServer.Eligible (s : MeshServer) (group : String)
    (g : GenRef) : Prop where
  sessionReady : (s.forwarding g).sessionReady = true
  declarationReady : (s.forwarding g).declarationReady = true
  l4Healthy : (s.forwarding g).l4Healthy = true
  versioned : s.ruleVersion g ≠ 0
  rule : ∃ rule, s.groupRules.get group = some rule ∧
    (rule.version ≤ s.ruleVersion g ∨ rule.policy = applyLatestRules)

theorem MeshServer.eligible_congr {s after : MeshServer} {group : String}
    {g : GenRef} (forwarding : after.forwarding g = s.forwarding g)
    (versions : after.ruleVersion g = s.ruleVersion g)
    (rules : after.groupRules.get group = s.groupRules.get group) :
    after.Eligible group g ↔ s.Eligible group g := by
  constructor
  · rintro ⟨session, declaration, healthy, versioned, covered⟩
    rw [forwarding] at session declaration healthy
    rw [versions] at versioned
    rw [versions, rules] at covered
    exact ⟨session, declaration, healthy, versioned, covered⟩
  · rintro ⟨session, declaration, healthy, versioned, covered⟩
    rw [← forwarding] at session declaration healthy
    rw [← versions] at versioned
    rw [← versions, ← rules] at covered
    exact ⟨session, declaration, healthy, versioned, covered⟩

namespace GroupRegistry

variable {s next : GroupRegistry} {g : GenRef} {group : String}
  {dirty : String → Prop}

/-- Some client instance of the group has a current generation that is
eligible. -/
def Qualified (s : GroupRegistry) (group : String) : Prop :=
  ∃ instanceID entry g,
    s.server.registry.entries.get (.client instanceID) = some entry ∧
      entry.groupID = group ∧ entry.current = some g ∧
      s.server.Eligible group g

/-! ## Entries and generations -/

variable {r after : Registry} {instanceID : String} {entry : Entry}
  {gone : GenRef → Prop} {names : String → Prop}

theorem client_of_sits (slotted : r.Slotted) {phase : Phase}
    (found : r.entries.get (.client instanceID) = some entry)
    (holds : entry.Holds phase g) :
    r.Client entry.groupID g ∧ (r.gens g).phase = phase := by
  obtain ⟨owned, named, phased⟩ := (slotted.slots _ phase g).mp
    ⟨entry, found, holds⟩
  have role : (r.gens g).role = .client := by
    unfold Generation.key at named
    split at named
    · cases named
    · assumption
    · cases named
  exact ⟨⟨owned, role, slotted.bound g owned instanceID entry named found⟩,
    phased⟩

theorem sits_of_client (slotted : r.Slotted) (client : r.Client group g) :
    ∃ instanceID entry, (r.gens g).key = some (.client instanceID) ∧
      r.entries.get (.client instanceID) = some entry ∧
      entry.groupID = group ∧ entry.Holds (r.gens g).phase g := by
  obtain ⟨owned, role, same⟩ := client
  have named : (r.gens g).key = some (.client (r.gens g).instanceID) := by
    unfold Generation.key
    rw [role]
  obtain ⟨entry, found, holds⟩ := (slotted.slots _ _ g).mpr ⟨owned, named, rfl⟩
  refine ⟨_, entry, named, found, ?_, holds⟩
  rw [← slotted.bound g owned _ entry named found, same]

theorem qualified_iff (slotted : s.server.registry.Slotted) :
    s.Qualified group ↔ ∃ g, s.server.registry.CurrentClient group g ∧
      s.server.Eligible group g := by
  constructor
  · rintro ⟨instanceID, entry, g, found, rfl, current, eligible⟩
    exact ⟨g, client_of_sits slotted found
      (show entry.Holds .current g from current), eligible⟩
  · rintro ⟨g, ⟨client, phase⟩, eligible⟩
    obtain ⟨instanceID, entry, _, found, same, holds⟩ :=
      sits_of_client slotted client
    rw [phase] at holds
    exact ⟨instanceID, entry, g, found, same, holds, eligible⟩

theorem isCurrentLocked_of_currentClient (slotted : r.Slotted)
    (opened : r.closed = false) (current : r.CurrentClient group g) :
    r.isCurrentLocked g = true := by
  obtain ⟨instanceID, entry, named, found, _, holds⟩ :=
    sits_of_client slotted current.1
  rw [current.2] at holds
  unfold isCurrentLocked
  rw [if_neg (by simp [opened, current.1.1, current.2]), named]
  dsimp only
  rw [found]
  exact decide_eq_true holds

theorem of_isCurrentLocked (current : r.isCurrentLocked g = true) :
    r.closed = false ∧ g ∈ r.all ∧ (r.gens g).phase = .current := by
  unfold isCurrentLocked at current
  split at current
  · cases current
  · rename_i open_
    simp only [not_or, Bool.not_eq_true, not_not] at open_
    exact open_

theorem ready_iff_eligible (slotted : s.server.registry.Slotted)
    (opened : s.server.registry.closed = false)
    (current : s.server.registry.CurrentClient group g) :
    s.server.isForwardingReadyLocked g = true ↔ s.server.Eligible group g := by
  have isCurrent := isCurrentLocked_of_currentClient slotted opened current
  obtain ⟨_, role, same⟩ := current.1
  unfold MeshServer.isForwardingReadyLocked
  dsimp only
  rw [if_neg (by simp [isCurrent])]
  split
  · rename_i missing
    constructor
    · intro impossible
      cases impossible
    · intro eligible
      simp [eligible.sessionReady, eligible.declarationReady,
        eligible.l4Healthy] at missing
  · rename_i flags
    simp only [not_or, Bool.not_eq_false] at flags
    rw [if_neg (by simp [role]), same]
    split
    · rename_i none
      constructor
      · intro impossible
        cases impossible
      · intro eligible
        obtain ⟨rule, found, _⟩ := eligible.rule
        rw [none] at found
        cases found
    · rename_i rule found
      rw [Bool.and_eq_true, Bool.or_eq_true, decide_eq_true_iff,
        decide_eq_true_iff, decide_eq_true_iff]
      constructor
      · rintro ⟨versioned, covered⟩
        exact ⟨flags.1, flags.2.1, flags.2.2, versioned, rule, found, covered⟩
      · intro eligible
        obtain ⟨other, foundOther, covered⟩ := eligible.rule
        cases found.symm.trans foundOther
        exact ⟨eligible.versioned, covered⟩

theorem mem_groupEntries :
    (instanceID, entry) ∈ groupEntries r group ↔
      r.entries.get (.client instanceID) = some entry ∧
        entry.groupID = group := by
  unfold groupEntries
  rw [Multiset.mem_filterMap]
  constructor
  · rintro ⟨⟨key, found⟩, among, chosen⟩
    dsimp only at chosen
    split at chosen
    · split at chosen
      · rename_i same
        cases chosen
        exact ⟨FiniteMap.mem_entries_iff.mp among, same⟩
      · cases chosen
    · cases chosen
  · rintro ⟨found, same⟩
    refine ⟨(.client instanceID, entry), FiniteMap.mem_entries_iff.mpr found,
      ?_⟩
    dsimp only
    rw [if_pos same]

theorem retained_iff (slotted : s.server.registry.Slotted) :
    groupEntries s.server.registry group ≠ 0 ↔
      ∃ g, s.server.registry.Client group g := by
  constructor
  · intro retained
    obtain ⟨⟨instanceID, entry⟩, among⟩ :=
      Multiset.exists_mem_of_ne_zero retained
    obtain ⟨found, rfl⟩ := mem_groupEntries.mp among
    have filled := slotted.filled _ entry found
    by_contra nobody
    have empty : entry.isEmpty = true := by
      apply Entry.isEmpty_iff.mpr
      intro phase g holds
      exact nobody ⟨g, (client_of_sits slotted found holds).1⟩
    rw [empty] at filled
    cases filled
  · rintro ⟨g, client⟩ none
    obtain ⟨instanceID, entry, _, found, same, _⟩ :=
      sits_of_client slotted client
    have among := mem_groupEntries.mpr ⟨found, same⟩
    rw [none] at among
    exact absurd among (Multiset.notMem_zero _)

/-- What a refresh finds. -/
def Found (s : GroupRegistry) (group : String) : Prop :=
  true ∈ (groupEntries s.server.registry group).map fun item =>
    s.entryReady item.2

theorem found_iff (slotted : s.server.registry.Slotted)
    (opened : s.server.registry.closed = false) :
    s.Found group ↔ ∃ g, s.server.registry.CurrentClient group g ∧
      s.server.Eligible group g := by
  unfold Found
  rw [Multiset.mem_map]
  constructor
  · rintro ⟨⟨instanceID, entry⟩, among, ready⟩
    obtain ⟨found, rfl⟩ := mem_groupEntries.mp among
    unfold entryReady at ready
    dsimp only at ready
    split at ready
    · cases ready
    · rename_i g current
      have client := client_of_sits slotted found
        (show entry.Holds .current g from current)
      exact ⟨g, client, (ready_iff_eligible slotted opened client).mp ready⟩
  · rintro ⟨g, current, eligible⟩
    obtain ⟨instanceID, entry, _, found, same, holds⟩ :=
      sits_of_client slotted current.1
    rw [current.2] at holds
    refine ⟨(instanceID, entry), mem_groupEntries.mpr ⟨found, same⟩, ?_⟩
    unfold entryReady
    dsimp only
    rw [show entry.current = some g from holds]
    exact (ready_iff_eligible slotted opened current).mpr eligible

theorem not_found_of_closed (closed : s.server.registry.closed = true) :
    ¬ s.Found group := by
  unfold Found
  rw [Multiset.mem_map]
  rintro ⟨⟨instanceID, entry⟩, _, ready⟩
  unfold entryReady at ready
  dsimp only at ready
  split at ready
  · cases ready
  unfold MeshServer.isForwardingReadyLocked at ready
  have stopped : ∀ g, s.server.registry.isCurrentLocked g = false := by
    intro g
    simp [isCurrentLocked, closed]
  dsimp only at ready
  rw [stopped, if_pos rfl] at ready
  cases ready

/-! ## Refreshing a group -/

/-- The channel is closed and replaced exactly if some group changed. -/
def Announced (s next : GroupRegistry) : Prop :=
  (next.groupAvailable = s.groupAvailable ∧ next.groupChanged = s.groupChanged ∧
      next.closedChannels = s.closedChannels) ∨
    (next.groupAvailable ≠ s.groupAvailable ∧
      next.groupChanged = s.groupChanged + 1 ∧
      next.closedChannels = s.closedChannels ++ [s.groupChanged])

/-- What `refreshGroupLocked` does. -/
structure Refreshed (s next : GroupRegistry) (group : String) : Prop where
  server : next.server = s.server
  stopping : next.stopping = s.stopping
  other : ∀ other, other ≠ group →
    (other ∈ next.groupAvailable ↔ other ∈ s.groupAvailable)
  own : group ∈ next.groupAvailable ↔ s.Found group
  announced : Announced s next
  turns : ∀ other, next.roundRobin.has other = true →
    s.roundRobin.has other = true ∧
      (other = group → groupEntries s.server.registry group ≠ 0)

theorem setAvailable_cases (s : GroupRegistry) (group : String)
    (available : Bool) :
    (decide (group ∈ s.groupAvailable) = available ∧
      s.setAvailable group available = s) ∨
    (decide (group ∈ s.groupAvailable) ≠ available ∧
      s.setAvailable group available = { s.replaceChannel with
        groupAvailable :=
          if available then insert group s.groupAvailable
          else s.groupAvailable.erase group }) := by
  unfold setAvailable
  split
  · rename_i flips
    exact .inr ⟨flips, rfl⟩
  · rename_i same
    exact .inl ⟨not_not.mp same, rfl⟩

theorem setAvailable_refreshed (s : GroupRegistry) (group : String)
    {available : Bool} (computed : available = true ↔ s.Found group)
    {roundRobin : FiniteMap String Nat}
    (turns : ∀ other, roundRobin.has other = true →
      s.roundRobin.has other = true ∧
        (other = group → groupEntries s.server.registry group ≠ 0)) :
    Refreshed s { s.setAvailable group available with
      roundRobin := roundRobin } group := by
  rcases setAvailable_cases s group available with
    ⟨cached, same⟩ | ⟨flips, flipped⟩
  · rw [same]
    refine ⟨rfl, rfl, fun _ _ => Iff.rfl, ?_, .inl ⟨rfl, rfl, rfl⟩, turns⟩
    rw [← computed, ← cached, decide_eq_true_iff]
  rw [flipped]
  cases available with
  | true =>
    have absent : group ∉ s.groupAvailable := by simpa using flips
    refine ⟨rfl, rfl, ?_, ?_, .inr ⟨?_, rfl, rfl⟩, turns⟩
    · intro other different
      simp [different]
    · rw [← computed]
      simp
    · intro same
      apply absent
      rw [← same]
      simp
  | false =>
    have present : group ∈ s.groupAvailable := by simpa using flips
    refine ⟨rfl, rfl, ?_, ?_, .inr ⟨?_, rfl, rfl⟩, turns⟩
    · intro other different
      simp [different]
    · rw [← computed]
      simp
    · intro same
      rw [← same] at present
      simp at present

theorem refreshGroupLocked_refreshed (s : GroupRegistry) (group : String) :
    Refreshed s (s.refreshGroupLocked group) group := by
  have computed : decide (true ∈ (groupEntries s.server.registry group).map
      fun item => s.entryReady item.2) = true ↔ s.Found group :=
    decide_eq_true_iff
  have rounds : ∀ available, (s.setAvailable group available).roundRobin =
      s.roundRobin := by
    intro available
    rcases setAvailable_cases s group available with ⟨_, same⟩ | ⟨_, flipped⟩
    · rw [same]
    · rw [flipped]
      rfl
  unfold refreshGroupLocked
  dsimp only
  split
  · rename_i retained
    have refreshed := setAvailable_refreshed s group computed
      (fun other present => ⟨present, fun _ => of_decide_eq_true retained⟩)
    rw [← rounds] at refreshed
    exact refreshed
  · apply setAvailable_refreshed s group computed
    rw [rounds]
    intro other present
    unfold FiniteMap.has at present ⊢
    rw [FiniteMap.get_delete] at present
    split at present
    · cases present
    · rename_i different
      exact ⟨present, fun same => absurd same different⟩

/-! ## The invariant -/

/-- What holds between operations; the availability and the round robin of
`dirty` groups are still to be refreshed. -/
structure ExactBut (dirty : String → Prop) (s : GroupRegistry) : Prop where
  sound : s.server.registry.Sound
  stopping : s.stopping ≠ none → s.server.registry.closed = true
  inert : ∀ g, s.server.registry.Uncommitted g →
    s.server.forwarding g = ⟨false, false, false⟩
  named : ∀ g group, s.server.registry.Client group g → group ≠ ""
  available : s.server.registry.closed = false → ∀ group, ¬ dirty group →
    (group ∈ s.groupAvailable ↔ ∃ g, s.server.registry.CurrentClient group g ∧
        s.server.Eligible group g)
  stopped : s.server.registry.closed = true → s.groupAvailable = ∅
  distinct : s.closedChannels.Nodup
  earlier : ∀ channel ∈ s.closedChannels, channel < s.groupChanged ∨
    (channel = s.groupChanged ∧ s.server.registry.closed = true)
  turns : s.server.registry.closed = false → ∀ group, ¬ dirty group →
    s.roundRobin.has group = true → ∃ g, s.server.registry.Client group g

def Exact (s : GroupRegistry) : Prop := s.ExactBut fun _ => False

theorem new_exact (maxPending maxClients maxPeers : Nat) (limits : MeshLimits) :
    (new maxPending maxClients maxPeers limits).Exact where
  sound := newRegistry_sound maxPending maxClients maxPeers
  stopping := fun stopping => absurd rfl stopping
  inert := fun _ _ => rfl
  named := fun _ _ client => absurd client.1 (Finset.notMem_empty _)
  available := by
    intro _ group _
    constructor
    · intro impossible
      exact absurd impossible (Finset.notMem_empty _)
    · rintro ⟨g, current, _⟩
      exact absurd current.1.1 (Finset.notMem_empty _)
  stopped := fun _ => rfl
  distinct := List.nodup_nil
  earlier := fun _ impossible => absurd impossible List.not_mem_nil
  turns := by
    intro _ group _ present
    simp [FiniteMap.has, new] at present

theorem ExactBut.refresh (but : s.ExactBut (· = group)) :
    (s.refreshGroupLocked group).Exact := by
  have refreshed := refreshGroupLocked_refreshed s group
  have slotted := but.sound.slotted
  have stopped : s.server.registry.closed = true →
      (s.refreshGroupLocked group).groupAvailable = ∅ := by
    intro closed
    apply Finset.eq_empty_of_forall_notMem
    intro other among
    by_cases own : other = group
    · subst own
      exact not_found_of_closed closed (refreshed.own.mp among)
    · rw [refreshed.other other own, but.stopped closed] at among
      exact absurd among (Finset.notMem_empty _)
  have still : s.server.registry.closed = true →
      (s.refreshGroupLocked group).groupAvailable = s.groupAvailable := by
    intro closed
    rw [stopped closed, but.stopped closed]
  refine
    { sound := ?_, stopping := ?_, inert := ?_, named := ?_,
      available := ?_, stopped := ?_, distinct := ?_, earlier := ?_,
      turns := ?_ }
  · rw [refreshed.server]
    exact but.sound
  · rw [refreshed.server, refreshed.stopping]
    exact but.stopping
  · rw [refreshed.server]
    exact but.inert
  · rw [refreshed.server]
    exact but.named
  · rw [refreshed.server]
    intro opened other _
    by_cases own : other = group
    · subst own
      rw [refreshed.own, found_iff slotted opened]
    · rw [refreshed.other other own]
      exact but.available opened other own
  · rw [refreshed.server]
    exact stopped
  · rcases refreshed.announced with ⟨_, _, same⟩ | ⟨flips, _, closes⟩
    · rw [same]
      exact but.distinct
    · rw [closes]
      apply List.Nodup.append but.distinct (List.nodup_singleton _)
      intro channel old new
      cases List.mem_singleton.mp new
      rcases but.earlier _ old with before | ⟨_, closed⟩
      · exact absurd before (lt_irrefl _)
      · exact flips (still closed)
  · rw [refreshed.server]
    rcases refreshed.announced with ⟨_, channel, same⟩ | ⟨_, channel, closes⟩
    · rw [same, channel]
      exact but.earlier
    rw [closes, channel]
    intro each among
    left
    rcases List.mem_append.mp among with old | new
    · rcases but.earlier each old with before | ⟨here, _⟩ <;> omega
    · rw [List.mem_singleton.mp new]
      exact Nat.lt_succ_self _
  · rw [refreshed.server]
    intro opened other _ present
    obtain ⟨before, retained⟩ := refreshed.turns other present
    by_cases own : other = group
    · subst own
      exact (retained_iff slotted).mp (retained rfl)
    · exact but.turns opened other own before

theorem ExactBut.step (exact_ : s.Exact) (after : MeshServer)
    (sound : after.registry.Sound)
    (closed : after.registry.closed = s.server.registry.closed)
    (traced : Registry.Traced gone names s.server.registry after.registry)
    (lost : ∀ g group, s.server.registry.Client group g → gone g →
      dirty group) (new : ∀ group, names group → group ≠ "")
    (inert : ∀ g, after.registry.Uncommitted g →
      after.forwarding g = s.server.forwarding g)
    (eligible : ∀ g group, after.registry.CurrentClient group g →
      ¬ dirty group →
      (after.Eligible group g ↔ s.server.Eligible group g)) :
    ExactBut dirty { s with server := after } := by
  refine
    { sound := sound, stopping := ?_, inert := ?_, named := ?_,
      available := ?_, stopped := ?_, distinct := exact_.distinct,
      earlier := ?_, turns := ?_ }
  · dsimp only
    rw [closed]
    exact exact_.stopping
  · intro g uncommitted
    dsimp only
    rw [inert g uncommitted]
    exact exact_.inert g ((traced g).uncommitted uncommitted)
  · intro g group client
    rcases (traced g).named group client with before | named
    · exact exact_.named g group before
    · exact new group named
  · dsimp only
    rw [closed]
    intro opened group clean
    rw [exact_.available opened group not_false]
    constructor
    · rintro ⟨g, current, able⟩
      have stays : ¬ gone g := fun ends => clean (lost g group current.1 ends)
      have later := (traced g).current group current stays
      exact ⟨g, later, (eligible g group later clean).mpr able⟩
    · rintro ⟨g, current, able⟩
      have before := (eligible g group current clean).mp able
      rcases (traced g).committed group current with already | waiting
      · exact ⟨g, already, before⟩
      · -- nothing was published about a generation before its commit
        have ready := before.sessionReady
        rw [exact_.inert g waiting] at ready
        cases ready
  · dsimp only
    rw [closed]
    exact exact_.stopped
  · dsimp only
    rw [closed]
    exact exact_.earlier
  · dsimp only
    rw [closed]
    intro opened group clean present
    obtain ⟨g, client⟩ := exact_.turns opened group not_false present
    have stays : ¬ gone g := fun ends => clean (lost g group client ends)
    exact ⟨g, (traced g).kept group client stays⟩

/-! ## Operations -/

theorem Announced.same (available : next.groupAvailable = s.groupAvailable)
    (channel : next.groupChanged = s.groupChanged)
    (closes : next.closedChannels = s.closedChannels) : Announced s next :=
  .inl ⟨available, channel, closes⟩

theorem announced_refresh (s : GroupRegistry) (server : MeshServer)
    (group : String) :
    Announced s ({ s with server := server }.refreshGroupLocked group) :=
  (refreshGroupLocked_refreshed { s with server := server } group).announced

variable (exact_ : s.Exact)

include exact_

theorem Exact.effect {op : RegistryOp} (enabled : s.registryRun.Enabled op) :
    s.server.registry.Effect op (s.server.registry.run op) :=
  RegistryRun.run_effect
    (⟨exact_.sound, exact_.stopping⟩ : s.registryRun.Consistent) enabled

theorem Exact.withRegistry (sound : after.Sound)
    (closed : after.closed = s.server.registry.closed)
    (traced : Registry.Traced gone names s.server.registry after)
    (lost : ∀ g group, s.server.registry.Client group g → gone g →
      dirty group) (new : ∀ group, names group → group ≠ "") :
    (s.withRegistry after).ExactBut dirty := by
  apply ExactBut.step exact_ _ sound closed traced lost new
  · intro g _
    rfl
  · intro g group _ _
    exact MeshServer.eligible_congr rfl rfl rfl

theorem Exact.spared (sound : after.Sound)
    (closed : after.closed = s.server.registry.closed)
    (traced : Registry.Traced (fun _ => False) (fun _ => False)
      s.server.registry after) : (s.withRegistry after).Exact :=
  exact_.withRegistry sound closed traced
    (fun _ _ _ impossible => impossible)
    (fun _ impossible => impossible.elim)

theorem Exact.lost (sound : after.Sound)
    (closed : after.closed = s.server.registry.closed)
    (traced : Registry.Traced (· = g) (fun _ => False)
      s.server.registry after) :
    ((s.withRegistry after).refreshGroupLocked
      (s.server.registry.gens g).groupID).Exact := by
  apply ExactBut.refresh
  apply exact_.withRegistry sound closed traced
  · rintro _ group client rfl
    exact client.2.2.symm
  · intro group impossible
    exact impossible.elim

theorem Exact.beginRetire (g : GenRef) : (s.beginRetire g).Exact := by
  have effect := exact_.effect (show s.registryRun.Enabled (.beginRetire g)
    from trivial)
  have sound : (s.server.registry.beginRetire g).2.Sound :=
    effect.sound exact_.sound
  have closed : (s.server.registry.beginRetire g).2.closed =
      s.server.registry.closed := effect.closed_eq (by simp)
  unfold GroupRegistry.beginRetire
  dsimp only
  split
  · exact exact_.lost sound closed
      (Registry.Change.traced exact_.sound
        (beginRetire_change _ g fun _ => rfl))
  rename_i other
  apply exact_.spared sound closed
  by_cases client : (s.server.registry.gens g).role = .client
  · have unchanged : (s.server.registry.beginRetire g).2 =
        s.server.registry := by
      unfold Registry.beginRetire
      split
      · rfl
      · rename_i owned
        simp only [not_not] at owned
        split <;> first | rfl | simp_all
    rw [unchanged]
    exact .refl _
  · exact (beginRetire_change _ g fun isClient =>
      absurd isClient client).traced exact_.sound

theorem Exact.release (g : GenRef) : (s.release g).Exact := by
  have effect := exact_.effect (show s.registryRun.Enabled (.release g)
    from trivial)
  have sound : (s.server.registry.release g).2.Sound :=
    effect.sound exact_.sound
  have closed : (s.server.registry.release g).2.closed =
      s.server.registry.closed := effect.closed_eq (by simp)
  unfold GroupRegistry.release
  dsimp only
  split
  · rename_i removed
    have client : (s.server.registry.gens g).role = .client := by
      by_contra other
      apply removed.2.2
      unfold clientGroup
      rw [if_neg other]
    have own : clientGroup s.server.registry g =
        (s.server.registry.gens g).groupID := if_pos client
    rw [own]
    exact exact_.lost sound closed
      (Registry.Change.traced exact_.sound
        (release_change exact_.sound g fun _ => rfl))
  · rename_i kept
    apply exact_.spared sound closed
    by_cases owned : g ∈ s.server.registry.all
    · apply (release_change exact_.sound g _).traced exact_.sound
      intro client
      have group : clientGroup s.server.registry g ≠ "" := by
        rw [show clientGroup s.server.registry g =
          (s.server.registry.gens g).groupID from if_pos client]
        exact exact_.named g _ ⟨owned, client, rfl⟩
      -- the loser of an arbitration is a peer
      have loses : GroupRegistry.lost s.server.registry g ≠ false :=
        fun notLost => kept ⟨owned, notLost, group⟩
      unfold GroupRegistry.lost at loses
      split at loses
      · exact absurd rfl loses
      rename_i arb live
      simp only [ne_eq, decide_eq_false_iff_not, not_not] at loses
      have peer := role_of_peer (exact_.sound.arbitrated.loser _ arb live).2
      rw [loses] at peer
      exact absurd client peer
    · have unchanged : (s.server.registry.release g).2 = s.server.registry := by
        unfold Registry.release
        rw [if_pos owned]
      rw [unchanged]
      exact .refl _

theorem Exact.stopBegin (generations : List GenRef)
    (opened : s.server.registry.closed = false) :
    (s.stopBegin generations).Exact where
  sound := exact_.sound.stopBegin
  stopping := fun _ => rfl
  inert := exact_.inert
  named := exact_.named
  available := by
    intro impossible
    cases impossible
  stopped := fun _ => rfl
  distinct := by
    apply List.Nodup.append exact_.distinct (List.nodup_singleton _)
    intro channel old new
    cases List.mem_singleton.mp new
    rcases exact_.earlier _ old with before | ⟨_, closed⟩
    · exact absurd before (lt_irrefl _)
    · rw [opened] at closed
      cases closed
  earlier := by
    intro channel among
    rcases List.mem_append.mp among with old | new
    · rcases exact_.earlier channel old with before | ⟨here, _⟩
      · exact .inl before
      · exact .inr ⟨here, rfl⟩
    · exact .inr ⟨List.mem_singleton.mp new, rfl⟩
  turns := by
    intro impossible
    cases impossible

theorem Exact.stopFinish {generations : List GenRef}
    (enabled : s.registryRun.Enabled (.stopFinish generations)) :
    (s.stopFinish generations).Exact := by
  have effect := exact_.effect enabled
  have closed : s.server.registry.closed = true := by
    apply exact_.stopping
    rw [show s.stopping = some generations from enabled]
    simp
  have but : (s.withRegistry (s.server.registry.stopFinish generations)
      ).ExactBut fun _ => True :=
    exact_.withRegistry (effect.sound exact_.sound)
      (effect.closed_eq (by simp))
      (show Registry.Traced _ (fun _ => False) _ _ from
        (Registry.Change.shrink (shrinks_stopFinish exact_.sound
          closed generations)).traced exact_.sound)
      (fun _ _ _ _ => trivial) (fun _ impossible => impossible.elim)
  have stopped : (s.server.registry.stopFinish generations).closed = true :=
    effect.closed closed
  exact
    { but with
      stopping := fun stopping => absurd rfl stopping
      available := by
        intro opened
        rw [show (s.stopFinish generations).server.registry.closed = true
          from stopped] at opened
        cases opened
      turns := by
        intro opened
        rw [show (s.stopFinish generations).server.registry.closed = true
          from stopped] at opened
        cases opened }

end GroupRegistry

end QMux.Mesh
