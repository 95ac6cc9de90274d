import QMux.Mesh.RegistryTokens

/-!
# What the operations do to clients

For each operation on the registry: which client generations stay in it,
which of them stay current, and where a new current one comes from.  Only
`BeginRetire` and `Release` end a client, and only the one they are given; a
generation becomes current from the prepared slot.
-/

namespace QMux.Mesh

open Function Support

namespace Registry

variable {r middle next : Registry} {ref g : GenRef} {arb : ArbRef}
  {peerID : String} {gone : GenRef → Prop} {names : String → Prop}

/-- The registry owns the generation as a client of the group. -/
def Client (r : Registry) (group : String) (g : GenRef) : Prop :=
  g ∈ r.all ∧ (r.gens g).role = .client ∧ (r.gens g).groupID = group

def CurrentClient (r : Registry) (group : String) (g : GenRef) : Prop :=
  r.Client group g ∧ (r.gens g).phase = .current

/-- The generation was not committed so far. -/
def Uncommitted (r : Registry) (g : GenRef) : Prop :=
  r.nextID ≤ g ∨ (r.gens g).phase ∈ [Phase.pending, .prepared]

/-- What may have happened to one generation: nothing but a commit ends its
preparation, and as a client it is lost only if it is among those `gone` and
new only for a group among the `names`. -/
structure TracedAt (gone : GenRef → Prop) (names : String → Prop)
    (r next : Registry) (g : GenRef) : Prop where
  uncommitted : next.Uncommitted g → r.Uncommitted g
  kept : ∀ group, r.Client group g → ¬ gone g → next.Client group g
  named : ∀ group, next.Client group g → r.Client group g ∨ names group
  current : ∀ group, r.CurrentClient group g → ¬ gone g →
    next.CurrentClient group g
  committed : ∀ group, next.CurrentClient group g →
    r.CurrentClient group g ∨ r.Uncommitted g

/-- What an operation does to all generations. -/
def Traced (gone : GenRef → Prop) (names : String → Prop)
    (r next : Registry) : Prop :=
  ∀ g, TracedAt gone names r next g

namespace TracedAt

theorem same (gens : next.gens g = r.gens g)
    (all : g ∈ next.all ↔ g ∈ r.all) (nextID : r.nextID ≤ next.nextID) :
    TracedAt gone names r next g := by
  have client : ∀ group, next.Client group g ↔ r.Client group g := by
    intro group
    unfold Client
    rw [gens, all]
  have current : ∀ group, next.CurrentClient group g ↔
      r.CurrentClient group g := by
    intro group
    unfold CurrentClient
    rw [client, gens]
  refine ⟨?_, ?_, ?_, ?_, ?_⟩
  · unfold Uncommitted
    rw [gens]
    rintro (beyond | waiting)
    · exact .inl (nextID.trans beyond)
    · exact .inr waiting
  · intro group before _
    exact (client group).mpr before
  · intro group after
    exact .inl ((client group).mp after)
  · intro group before _
    exact (current group).mpr before
  · intro group after
    exact .inl ((current group).mp after)

theorem apart (before : ∀ group, ¬ r.Client group g)
    (after : ∀ group, ¬ next.Client group g)
    (uncommitted : next.Uncommitted g → r.Uncommitted g) :
    TracedAt gone names r next g := by
  refine ⟨uncommitted, ?_, ?_, ?_, ?_⟩
  · intro group client
    exact absurd client (before group)
  · intro group client
    exact absurd client (after group)
  · intro group client
    exact absurd client.1 (before group)
  · intro group client
    exact absurd client.1 (after group)

theorem trans (first : TracedAt gone names r middle g)
    (second : TracedAt gone names middle next g) :
    TracedAt gone names r next g := by
  refine ⟨first.uncommitted ∘ second.uncommitted, ?_, ?_, ?_, ?_⟩
  · intro group before stays
    exact second.kept group (first.kept group before stays) stays
  · intro group after
    rcases second.named group after with between | new
    · exact first.named group between
    · exact .inr new
  · intro group before stays
    exact second.current group (first.current group before stays) stays
  · intro group after
    rcases second.committed group after with between | waiting
    · exact first.committed group between
    · exact .inr (first.uncommitted waiting)

end TracedAt

namespace Traced

theorem refl (r : Registry) : Traced gone names r r :=
  fun _ => .same rfl Iff.rfl le_rfl

theorem trans (first : Traced gone names r middle)
    (second : Traced gone names middle next) : Traced gone names r next :=
  fun g => (first g).trans (second g)

theorem of_moved (moved : Moved r next ref)
    (here : TracedAt gone names r next ref) : Traced gone names r next := by
  intro g
  by_cases same : g = ref
  · rw [same]
    exact here
  · exact .same (moved.gens g same) (moved.all g same) moved.nextID

theorem of_same (gens : next.gens = r.gens) (all : next.all = r.all)
    (nextID : next.nextID = r.nextID) : Traced gone names r next :=
  fun g => .same (congrFun gens g) (by rw [all]) (le_of_eq nextID.symm)

end Traced

theorem not_client_of_role (role : (r.gens g).role ≠ .client) (group : String) :
    ¬ r.Client group g :=
  fun client => role client.2.1

theorem not_client_of_absent (absent : g ∉ r.all) (group : String) :
    ¬ r.Client group g :=
  fun client => absent client.1

theorem role_of_peer (named : (r.gens g).key = some (.peer peerID)) :
    (r.gens g).role ≠ .client := by
  rw [(Generation.peer_of_key named).1]
  simp

theorem Slotted.uncommitted (slotted : r.Slotted) (owned : g ∈ r.all)
    (unknown : (r.gens g).role = .unknown) : r.Uncommitted g := by
  right
  rcases slotted.phased g owned with ⟨_, pending⟩ | ⟨known, _⟩
  · rw [pending]
    simp
  · exact absurd unknown known

/-! ## Edits -/

theorem traced_newGeneration (slotted : r.Slotted) (generation : Generation)
    (role : generation.role ≠ .client) :
    Traced gone names r (r.newGenerationLocked generation) := by
  apply Traced.of_moved (moved_newGenerationLocked r generation)
  apply TracedAt.apart
  · exact not_client_of_absent slotted.nextID_not_mem
  · apply not_client_of_role
    rw [show (r.newGenerationLocked generation).gens r.nextID = generation from
      update_self _ _ _]
    exact role
  · intro _
    exact .inl le_rfl

variable {key : EntryKey}

theorem traced_prepare {groupID : String} {generation : Generation}
    (slotted : r.Slotted) (owned : ref ∈ r.all)
    (unknown : (r.gens ref).role = .unknown)
    (vacant : ∀ entry, r.entries.get key = some entry → entry.prepared = none)
    (prepared : generation.phase = .prepared)
    (new : generation.role = .client → names generation.groupID) :
    Traced gone names r (r.prepareLocked ref key groupID generation) := by
  have written : (r.prepareLocked ref key groupID generation).gens ref =
      generation := update_self _ _ _
  have before : ∀ group, ¬ r.Client group ref :=
    not_client_of_role (by simp [unknown])
  apply Traced.of_moved (moved_prepareLocked vacant)
  refine ⟨fun _ => slotted.uncommitted owned unknown, ?_, ?_, ?_, ?_⟩
  · intro group client
    exact absurd client (before group)
  · intro group client
    right
    obtain ⟨_, role, same⟩ := client
    rw [written] at role same
    rw [← same]
    exact new role
  · intro group client
    exact absurd client.1 (before group)
  · intro group client
    have phase := client.2
    rw [written, prepared] at phase
    cases phase

theorem traced_updateRoleHighWater (r : Registry) (role : Role) :
    Traced gone names r (r.updateRoleHighWaterLocked role) := by
  obtain ⟨clientHigh, peerHigh, frame⟩ := updateRoleHighWaterLocked_frame r role
  rw [frame]
  exact .of_same rfl rfl rfl

theorem traced_transferPendingToPeer (slotted : r.Slotted)
    (owned : ref ∈ r.all) (unknown : (r.gens ref).role = .unknown)
    (vacant : ∀ entry, r.entries.get (.peer peerID) = some entry →
      entry.prepared = none) :
    Traced gone names r (r.transferPendingToPeerLocked ref peerID) := by
  apply Traced.trans _ (traced_updateRoleHighWater _ .peer)
  apply traced_prepare slotted owned unknown vacant rfl
  intro client
  cases client

theorem traced_published {entry : Entry} (slotted : r.Slotted)
    (found : r.entries.get key = some entry)
    (prepared : entry.prepared = some ref) (vacant : entry.current = none) :
    Traced gone names r (r.published ref key entry) := by
  have written := published_gens r ref key entry
  have waiting : r.Uncommitted ref := by
    right
    have seated := (slotted.slots key .prepared ref).mp ⟨entry, found, prepared⟩
    rw [seated.2.2]
    simp
  have client : ∀ group, (r.published ref key entry).Client group ref ↔
      r.Client group ref := by
    intro group
    unfold Client
    rw [written]
    rfl
  apply Traced.of_moved (moved_published found prepared vacant)
  refine ⟨fun _ => waiting, ?_, ?_, ?_, ?_⟩
  · intro group before _
    exact (client group).mpr before
  · intro group after
    exact .inl ((client group).mp after)
  · intro group before _
    refine ⟨(client group).mpr before.1, ?_⟩
    rw [written]
  · intro group _
    exact .inr waiting

theorem tracedAt_ended {phase : Phase}
    (written : next.gens ref = { r.gens ref with phase := phase })
    (phased : phase ∉ [Phase.pending, .prepared, .current])
    (owned : ref ∈ next.all → ref ∈ r.all) (nextID : next.nextID = r.nextID)
    (ends : (r.gens ref).role = .client → gone ref) :
    TracedAt gone names r next ref := by
  refine ⟨?_, ?_, ?_, ?_, ?_⟩
  · unfold Uncommitted
    rw [written, nextID]
    rintro (beyond | waiting)
    · exact .inl beyond
    · exfalso
      apply phased
      simp only [List.mem_cons, List.not_mem_nil, or_false] at waiting ⊢
      tauto
  · intro group client stays
    exact absurd (ends client.2.1) stays
  · intro group client
    left
    obtain ⟨among, role, same⟩ := client
    rw [written] at role same
    exact ⟨owned among, role, same⟩
  · intro group client stays
    exact absurd (ends client.1.2.1) stays
  · intro group client
    have current := client.2
    rw [written] at current
    change phase = .current at current
    rw [current] at phased
    simp at phased

theorem traced_retire (ends : (r.gens ref).role = .client → gone ref) :
    Traced gone names r (r.retireLocked ref) := by
  apply Traced.of_moved (moved_retireLocked r ref)
  obtain ⟨entries, frame⟩ := retireLocked_frame r ref
  apply tracedAt_ended _ _ _ _ ends
  · exact Phase.retiring
  · rw [frame]
    exact update_self _ _ _
  · simp
  · rw [frame]
    exact id
  · rw [frame]

theorem traced_drop (ends : (r.gens ref).role = .client → gone ref) :
    Traced gone names r (r.dropLocked ref) := by
  apply Traced.of_moved (moved_dropLocked r ref)
  obtain ⟨entries, frame⟩ := dropLocked_frame r ref
  apply tracedAt_ended _ _ _ _ ends
  · exact Phase.done
  · rw [frame]
    exact update_self _ _ _
  · simp
  · rw [frame]
    exact Finset.mem_of_mem_erase
  · rw [frame]

theorem traced_ended (r : Registry) (arb : ArbRef) :
    Traced gone names r (r.ended arb) :=
  .of_same rfl rfl rfl

section

variable (sound : r.Sound)

include sound

theorem traced_finished (live : r.arbitrations.get peerID = some arb) :
    Traced gone names r (r.finished arb) := by
  have peer := role_of_peer (sound.arbitrated.loser peerID arb live).2
  unfold finished
  split
  · apply (traced_ended r arb).trans
    apply traced_drop
    intro client
    exact absurd client peer
  · exact traced_ended r arb

/-! ## Operations -/

theorem Advance.traced (advance : Advance gone names r next) :
    Traced gone names r next := by
  cases advance with
  | stay => exact .refl r
  | clientPrepared ref instanceID groupID opened pending free room named =>
    apply Traced.trans _ (traced_updateRoleHighWater _ .client)
    apply traced_prepare sound.slotted pending.owned pending.unknown _ rfl
    · intro _
      exact named
    · intro entry present
      exact (clientTaken_none free entry present).2.2
  | peerPrepared ref peerID opened pending unsuppressed free room =>
    apply traced_transferPendingToPeer sound.slotted pending.owned
      pending.unknown
    intro entry found
    exact (peerTaken_none free entry found).2
  | arbitrated | loserReleased => exact .of_same rfl rfl rfl
  | published ref key entry owned named found prepared vacant =>
    exact traced_published sound.slotted found prepared vacant
  | retired ref owned active ends => exact traced_retire ends
  | loserRetired peerID arb live active =>
    have peer := role_of_peer (sound.arbitrated.loser peerID arb live).2
    have retired : Traced gone names r (r.retireLocked (r.arbs arb).loser) :=
      traced_retire fun client => absurd client peer
    exact retired.trans (.of_same rfl rfl rfl)

theorem Shrink.traced (shrink : Shrink gone r next) :
    Traced gone names r next := by
  cases shrink with
  | finished peerID arb live => exact traced_finished sound live
  | dropped ref owned notInbound notLoser ends => exact traced_drop ends

theorem Change.traced (change : Change gone names r next) :
    Traced gone names r next := by
  cases change with
  | advance advance => exact advance.traced sound
  | shrink shrinks =>
    induction shrinks with
    | refl => exact .refl r
    | tail earlier last ih =>
      exact ih.trans (last.traced (shrinks_sound sound earlier))
  | complete peerID arb live opened released free =>
    have pending := finished_pending sound live
    apply (traced_finished sound live).trans
    apply traced_transferPendingToPeer (sound.finished live).slotted
      pending.owned pending.unknown
    apply finished_vacant
    intro entry found
    exact (peerTaken_none free entry found).2

theorem Effect.traced {op : RegistryOp} (effect : r.Effect op next) :
    Traced op.Ends op.Names r next := by
  cases effect with
  | change op change => exact change.traced sound
  | inbound room =>
    apply Traced.trans (traced_newGeneration sound.slotted inboundPending
      (by simp [inboundPending]))
    exact .of_same rfl rfl rfl
  | outbound peerID unsuppressed free room =>
    intro g
    by_cases new : g = r.nextID
    · subst new
      apply TracedAt.apart
      · exact not_client_of_absent sound.slotted.nextID_not_mem
      · apply not_client_of_role
        rw [dialed_gens]
        simp [outboundPeer]
      · intro _
        exact .inl le_rfl
    · have moved := moved_newGenerationLocked r (outboundPeer peerID)
      apply TracedAt.same
      · exact (update_of_ne new _ _).trans (moved.gens g new)
      · exact moved.all g new
      · exact moved.nextID
  | stop generations => exact .of_same rfl rfl rfl

end

end Registry

variable {r : Registry}

theorem Registry.Effect.closed_eq {next : Registry} {op : RegistryOp}
    (effect : r.Effect op next)
    (running : ∀ generations, op ≠ .stopBegin generations) :
    next.closed = r.closed := by
  cases effect with
  | change op change => exact change.stays.closed
  | inbound | outbound => rfl
  | stop generations => exact absurd rfl (running generations)

end QMux.Mesh
