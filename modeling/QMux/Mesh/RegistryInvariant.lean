import QMux.Mesh.RegistryRuns

/-!
# The slot invariant

In every run the entries of the registry and its generations agree.
-/

namespace QMux.Mesh

open Support

namespace Registry

variable {r : Registry}

/-- Every generation is in the slot its role, identity and phase name and in
no other, and an entry is there for the generations in it. -/
structure SlotInvariant (r : Registry) : Prop where
  owned : ∀ ref ∈ r.all,
    ((r.gens ref).phase = .pending ∧ ∀ key slot, ¬ r.Sits key slot ref) ∨
    ∃ key, (r.gens ref).key = some key ∧
      (r.gens ref).phase ∈ [Phase.prepared, .current, .retiring] ∧
      ∀ target slot, r.Sits target slot ref ↔
        target = key ∧ slot = (r.gens ref).phase
  foreign : ∀ ref, ref ∉ r.all → ∀ key slot, ¬ r.Sits key slot ref
  single : ∀ key slot ref other, slot ∈ [Phase.prepared, .current] →
    r.Seated key slot ref → r.Seated key slot other → ref = other
  group : ∀ instanceID, ∀ ref ∈ r.all, ∀ other ∈ r.all,
    (r.gens ref).key = some (.client instanceID) →
    (r.gens other).key = some (.client instanceID) →
    (r.gens ref).groupID = (r.gens other).groupID
  entries : ∀ key, (∃ entry, r.entries.get key = some entry) ↔
    ∃ slot ref, r.Sits key slot ref

variable {ref : GenRef}

theorem Slotted.single (slotted : r.Slotted) {key : EntryKey} {slot : Phase}
    {other : GenRef} (oneSlot : slot ∈ [Phase.prepared, .current])
    (first : r.Seated key slot ref) (second : r.Seated key slot other) :
    ref = other := by
  obtain ⟨entry, found, holds⟩ := (slotted.slots key slot ref).mpr first
  obtain ⟨same, foundSame, holds'⟩ := (slotted.slots key slot other).mpr second
  cases Option.some.inj (found.symm.trans foundSame)
  simp only [List.mem_cons, List.not_mem_nil, or_false] at oneSlot
  rcases oneSlot with rfl | rfl
  all_goals exact Option.some.inj (holds.symm.trans holds')

theorem Slotted.group (slotted : r.Slotted) {instanceID : String}
    (owned : ref ∈ r.all)
    (named : (r.gens ref).key = some (.client instanceID)) :
    ∃ entry, r.entries.get (.client instanceID) = some entry ∧
      (r.gens ref).groupID = entry.groupID := by
  obtain ⟨entry, found, _⟩ := (slotted.slots _ _ ref).mpr ⟨owned, named, rfl⟩
  exact ⟨entry, found, slotted.bound ref owned instanceID entry named found⟩

theorem Slotted.slotInvariant (slotted : r.Slotted) : r.SlotInvariant where
  owned := by
    intro ref owned
    rcases slotted.phased ref owned with ⟨unknown, pending⟩ | ⟨known, inSlot⟩
    · left
      refine ⟨pending, ?_⟩
      intro key slot
      exact slotted.not_sits_of_unknown unknown
    · right
      obtain ⟨key, named⟩ := Generation.key_of_known known
      exact ⟨key, named, inSlot, slotted.sits_iff owned named⟩
  foreign := fun ref absent key slot => slotted.not_sits_of_not_mem absent
  single := fun key slot ref other oneSlot first second =>
    slotted.single oneSlot first second
  group := by
    intro instanceID ref owned other ownedOther named namedOther
    obtain ⟨entry, found, group⟩ := slotted.group owned named
    obtain ⟨same, foundSame, group'⟩ := slotted.group ownedOther namedOther
    cases Option.some.inj (found.symm.trans foundSame)
    rw [group, group']
  entries := by
    intro key
    constructor
    · rintro ⟨entry, found⟩
      have filled := slotted.filled key entry found
      by_contra nothing
      have empty : entry.isEmpty = true := by
        apply Entry.isEmpty_iff.mpr
        intro slot ref holds
        exact nothing ⟨slot, ref, entry, found, holds⟩
      rw [empty] at filled
      cases filled
    · rintro ⟨slot, ref, entry, found, _⟩
      exact ⟨entry, found⟩

end Registry

namespace RegistryRun

variable {state next : RegistryRun} {instanceID : String}
  {maxPending maxClients maxPeers : Nat}

/-- The registry owns the generation for the client instance. -/
def OfInstance (state : RegistryRun) (instanceID : String) (ref : GenRef) :
    Prop :=
  ref ∈ state.registry.all ∧
    (state.registry.gens ref).key = some (.client instanceID)

/-- A run in which the client instance never loses its last generation. -/
def StaysWith (instanceID : String) : RegistryRun → RegistryRun → Prop :=
  Relation.ReflTransGen fun before after =>
    Step before after ∧ ∃ ref, after.OfInstance instanceID ref

variable {ref other : GenRef}

theorem group_of_step
    (reachable : (system maxPending maxClients maxPeers).Reachable state)
    (step : Step state next) (before : state.OfInstance instanceID ref)
    (after : next.OfInstance instanceID other) :
    (next.registry.gens other).groupID = (state.registry.gens ref).groupID := by
  have consistent := consistent_of_reachable reachable
  obtain ⟨op, enabled, rfl⟩ := step
  have sound := (consistent.apply enabled).sound
  obtain ⟨entry, found, group⟩ :=
    consistent.sound.slotted.group before.1 before.2
  obtain ⟨later, foundLater, groupLater⟩ := sound.slotted.group after.1 after.2
  rw [group, groupLater]
  exact (run_effect consistent enabled).group found foundLater

/-- As long as an instance has a generation its group does not change. -/
theorem group_of_staysWith
    (reachable : (system maxPending maxClients maxPeers).Reachable state)
    (stays : StaysWith instanceID state next)
    (before : state.OfInstance instanceID ref)
    (after : next.OfInstance instanceID other) :
    (next.registry.gens other).groupID = (state.registry.gens ref).groupID := by
  have both : (system maxPending maxClients maxPeers).Reachable next ∧ ∀ other,
      next.OfInstance instanceID other → (next.registry.gens other).groupID =
      (state.registry.gens ref).groupID := by
    clear after
    induction stays with
    | refl =>
      refine ⟨reachable, ?_⟩
      intro other after
      have slots := (consistent_of_reachable reachable).sound.slotted
      exact slots.slotInvariant.group instanceID other after.1 ref
        before.1 after.2 before.2
    | tail earlier last ih =>
      obtain ⟨reached, same⟩ := ih
      refine ⟨reached.next last.1, ?_⟩
      intro other after
      -- the state before the last step has a generation of the instance
      rcases Relation.ReflTransGen.cases_tail earlier with
        start | ⟨_, _, lastBut⟩
      · subst start
        rw [group_of_step reached last.1 before after]
      · obtain ⟨held, ofInstance⟩ := lastBut.2
        rw [group_of_step reached last.1 ofInstance after]
        exact same held ofInstance
  exact both.2 other after

/-- In every state of every run, with calls on arbitrary tokens, each
generation is in the one slot it names, and a client instance keeps its group
while it has a generation. -/
theorem registry_slot_invariant
    (reachable : (system maxPending maxClients maxPeers).Reachable state) :
    state.registry.SlotInvariant ∧
      ∀ instanceID later, StaysWith instanceID state later →
        ∀ ref other, state.OfInstance instanceID ref →
          later.OfInstance instanceID other →
          (later.registry.gens other).groupID =
            (state.registry.gens ref).groupID := by
  refine ⟨(consistent_of_reachable reachable).sound.slotted.slotInvariant, ?_⟩
  intro instanceID later stays ref other before after
  exact group_of_staysWith reachable stays before after

/-- A peer's inbound generation takes over from its outbound one while a
client instance registers, retires and registers again. -/
def sampleCalls : List RegistryOp :=
  [.beginInbound, .beginOutboundPeer "east", .preparePeer 0 "east" true,
    .beginInbound, .prepareClient 2 "laptop" "web", .commitReceiver 2,
    .release 1, .completeArbitration 0, .commitReceiver 0,
    .beginRetire 2, .beginInbound, .prepareClient 3 "laptop" "web"]

def sampleRun : RegistryRun := sampleCalls.foldl apply (start 2 2 1)

theorem scheduled_reachable {calls : List RegistryOp}
    (allows : TransitionSystem.Allows Enabled apply (start 2 2 1) calls) :
    (system 2 2 1).Reachable (calls.foldl apply (start 2 2 1)) := by
  apply TransitionSystem.Reachable.schedule _ (.start rfl) allows
  intro state op enabled
  exact ⟨op, enabled, rfl⟩

theorem sampleRun_reachable : (system 2 2 1).Reachable sampleRun :=
  scheduled_reachable (by decide +kernel)

theorem registry_slot_invariant_sample :
    sampleRun.registry.all = {0, 2, 3} ∧
      sampleRun.registry.Seated (.peer "east") .current 0 ∧
      sampleRun.registry.SlotInvariant :=
  ⟨by decide +kernel, by unfold Registry.Seated; decide +kernel,
    (registry_slot_invariant sampleRun_reachable).1⟩

end RegistryRun

end QMux.Mesh
