import QMux.Mesh.RegistrySlots

/-!
# Edits of the registry keep the slots

A generation enters, is prepared, published, retired and dropped.  Each edit
moves that one generation and keeps the slot invariant.
-/

namespace QMux.Mesh

open Function Support Entry

namespace Registry

variable {r next : Registry} {ref other : GenRef} {key : EntryKey}
  {phase : Phase}

/-! ### Entering -/

theorem Slotted.not_sits_of_not_mem (slotted : r.Slotted)
    (absent : ref ∉ r.all) : ¬ r.Sits key phase ref := by
  intro sits
  exact absent ((slotted.slots key phase ref).mp sits).1

theorem Slotted.not_sits_of_unknown (slotted : r.Slotted)
    (unknown : (r.gens ref).role = .unknown) : ¬ r.Sits key phase ref := by
  intro sits
  have named := ((slotted.slots key phase ref).mp sits).2.1
  simp [Generation.key, unknown] at named

theorem Slotted.nextID_not_mem (slotted : r.Slotted) : r.nextID ∉ r.all := by
  intro owned
  exact lt_irrefl _ (slotted.fresh _ owned)

theorem moved_newGenerationLocked (r : Registry) (generation : Generation) :
    Moved r (r.newGenerationLocked generation) r.nextID where
  gens := fun other different => update_of_ne different _ _
  all := fun other different => by
    simp [newGenerationLocked, different]
  nextID := Nat.le_succ _
  sits := fun key phase other _ => sits_of_entries rfl
  groups := by
    intro key entry after before found
    cases Option.some.inj (before.symm.trans found)
    rfl
  filled := fun key entry found => .inl found

variable {generation : Generation} {groupID : String}

theorem Slotted.newGenerationLocked (slotted : r.Slotted)
    (unknown : generation.role = .unknown)
    (pending : generation.phase = .pending) :
    (r.newGenerationLocked generation).Slotted := by
  have written : (r.newGenerationLocked generation).gens r.nextID =
    generation := update_self _ _ _
  apply slotted.moved (moved_newGenerationLocked r generation)
  constructor
  · intro _
    exact Nat.lt_succ_self _
  · intro _
    rw [written]
    exact .inl ⟨unknown, pending⟩
  · intro key phase
    constructor
    · intro sits
      exact absurd ((sits_of_entries rfl).mp sits)
        (slotted.not_sits_of_not_mem slotted.nextID_not_mem)
    · rintro ⟨_, named, _⟩
      rw [written] at named
      simp [Generation.key, unknown] at named
  · intro _ instanceID entry named
    rw [written] at named
    simp [Generation.key, unknown] at named

theorem prepareLocked_get (r : Registry) (ref : GenRef) (key : EntryKey)
    (groupID : String) (generation : Generation) (target : EntryKey) :
    (r.prepareLocked ref key groupID generation).entries.get target =
      if target = key
      then some (((r.entries.get key).getD (.new groupID)).prepare ref)
      else r.entries.get target :=
  FiniteMap.get_put _ _ _ _

theorem sits_prepareLocked {target : EntryKey}
    (vacant : ∀ entry, r.entries.get key = some entry → entry.prepared = none) :
    (r.prepareLocked ref key groupID generation).Sits target phase other ↔
      r.Sits target phase other ∨
        (target = key ∧ phase = .prepared ∧ other = ref) := by
  unfold Sits
  rw [prepareLocked_get]
  by_cases same : target = key
  · subst same
    cases found : r.entries.get target with
    | none =>
      have vacantNew : (new groupID).prepared = none := rfl
      simp [holds_prepare vacantNew]
    | some entry =>
      simp [holds_prepare (vacant entry found)]
  · simp [same]

theorem moved_prepareLocked
    (vacant : ∀ entry, r.entries.get key = some entry → entry.prepared = none) :
    Moved r (r.prepareLocked ref key groupID generation) ref where
  gens := fun other different => update_of_ne different _ _
  all := fun other _ => Iff.rfl
  nextID := le_refl _
  sits := by
    intro target phase other different
    rw [sits_prepareLocked vacant]
    simp [different]
  groups := by
    intro target entry after before found
    rw [prepareLocked_get] at found
    split at found
    · rename_i same
      subst same
      rw [before] at found
      cases found
      rfl
    · cases Option.some.inj (before.symm.trans found)
      rfl
  filled := by
    intro target entry found
    rw [prepareLocked_get] at found
    split at found
    · cases found
      right
      simp [isEmpty, prepare]
    · exact .inl found

theorem placed_prepareLocked
    (vacant : ∀ entry, r.entries.get key = some entry → entry.prepared = none)
    (seatless : ∀ key phase, ¬ r.Sits key phase ref) (owned : ref ∈ r.all)
    (fresh : ref < r.nextID) (named : generation.key = some key)
    (prepared : generation.phase = .prepared)
    (bound : ∀ instanceID, key = .client instanceID → generation.groupID =
        ((r.entries.get key).getD (.new groupID)).groupID) :
    (r.prepareLocked ref key groupID generation).Placed ref := by
  have written : (r.prepareLocked ref key groupID generation).gens ref =
    generation := update_self _ _ _
  constructor
  · intro _
    exact fresh
  · intro _
    rw [written]
    right
    refine ⟨?_, ?_⟩
    · intro unknown
      simp [Generation.key, unknown] at named
    · simp [prepared]
  · intro target phase
    rw [sits_prepareLocked vacant]
    unfold Seated
    rw [written, named, prepared]
    simp only [seatless, false_or, and_true, Option.some.injEq]
    constructor
    · rintro ⟨rfl, rfl⟩
      exact ⟨owned, rfl, rfl⟩
    · rintro ⟨_, rfl, rfl⟩
      exact ⟨rfl, rfl⟩
  · intro _ instanceID entry client found
    rw [written] at client ⊢
    rw [named] at client
    cases client
    rw [prepareLocked_get, if_pos rfl] at found
    cases found
    exact bound instanceID rfl

theorem placed_of_phase {phase : Phase} (slotted : r.Slotted)
    (owned : ref ∈ r.all) (named : (r.gens ref).key = some key)
    (moved : Moved r next ref) (all : next.all = r.all)
    (written : next.gens ref = { r.gens ref with phase := phase })
    (inSlot : phase ∈ [Phase.prepared, .current, .retiring])
    (sits : ∀ target slot, next.Sits target slot ref ↔
      target = key ∧ slot = phase) :
    next.Placed ref := by
  have sameKey : (next.gens ref).key = (r.gens ref).key := by
    rw [written]
    rfl
  constructor
  · intro _
    exact lt_of_lt_of_le (slotted.fresh ref owned) moved.nextID
  · intro _
    right
    refine ⟨?_, ?_⟩
    · intro unknown
      rw [← sameKey] at named
      simp [Generation.key, unknown] at named
    · rw [written]
      exact inSlot
  · intro target slot
    rw [sits]
    unfold Seated
    rw [sameKey, named, all, written]
    constructor
    · rintro ⟨rfl, rfl⟩
      exact ⟨owned, rfl, rfl⟩
    · rintro ⟨_, same, rfl⟩
      exact ⟨(Option.some.inj same).symm, rfl⟩
  · intro _ instanceID entry client found
    rw [sameKey] at client
    obtain ⟨before, foundBefore, _⟩ := (slotted.slots _ _ ref).mpr
      ⟨owned, client, rfl⟩
    rw [moved.groups _ before entry foundBefore found, written]
    exact slotted.bound ref owned instanceID before client foundBefore

theorem Slotted.sits_iff (slotted : r.Slotted) (owned : ref ∈ r.all)
    (named : (r.gens ref).key = some key) (target : EntryKey)
    (slot : Phase) :
    r.Sits target slot ref ↔ target = key ∧ slot = (r.gens ref).phase := by
  rw [slotted.slots]
  unfold Seated
  rw [named, Option.some.injEq]
  constructor
  · rintro ⟨_, same, phase⟩
    exact ⟨same.symm, phase.symm⟩
  · rintro ⟨same, phase⟩
    exact ⟨owned, same.symm, phase.symm⟩

/-! ### Publishing -/

/-- What `publishLocked` does when it publishes. -/
def published (r : Registry) (ref : GenRef) (key : EntryKey)
    (entry : Entry) : Registry :=
  { r.writeGen ref { r.gens ref with phase := .current } with
    entries := r.entries.put key (entry.publish ref) }

theorem publishLocked_cases (r : Registry) (ref : GenRef) :
    r.publishLocked ref = (false, r) ∨
      ∃ key entry, (r.gens ref).key = some key ∧
        r.entries.get key = some entry ∧ entry.prepared = some ref ∧
        entry.current = none ∧
        r.publishLocked ref = (true, r.published ref key entry) := by
  unfold publishLocked
  split
  · exact .inl rfl
  rename_i key named
  split
  · exact .inl rfl
  rename_i entry found
  split
  · exact .inl rfl
  · rename_i free
    simp only [ne_eq, not_or, not_not] at free
    exact .inr ⟨key, entry, named, found, free.1, free.2, rfl⟩

section Published

variable {entry : Entry}

theorem sits_published (found : r.entries.get key = some entry)
    (vacant : entry.current = none)
    (target : EntryKey) (slot : Phase) (other : GenRef) :
    (r.published ref key entry).Sits target slot other ↔ if target = key
      then (r.Sits target slot other ∧ slot ≠ .prepared) ∨
        (slot = .current ∧ other = ref)
      else r.Sits target slot other := by
  unfold Sits published
  dsimp only
  rw [FiniteMap.get_put]
  by_cases same : target = key
  · subst same
    simp [found, holds_publish vacant]
  · simp [same]

theorem moved_published (found : r.entries.get key = some entry)
    (prepared : entry.prepared = some ref) (vacant : entry.current = none) :
    Moved r (r.published ref key entry) ref where
  gens := fun other different => update_of_ne different _ _
  all := fun other _ => Iff.rfl
  nextID := le_refl _
  sits := by
    intro target slot other different
    rw [sits_published found vacant]
    split
    · rename_i same
      subst same
      simp only [different, and_false, or_false, and_iff_left_iff_imp]
      rintro ⟨held, heldAt, holds⟩ rfl
      cases Option.some.inj (heldAt.symm.trans found)
      exact different (Option.some.inj (holds.symm.trans prepared))
    · rfl
  groups := by
    intro target before after foundBefore foundAfter
    unfold published at foundAfter
    dsimp only at foundAfter
    rw [FiniteMap.get_put] at foundAfter
    split at foundAfter
    · rename_i same
      subst same
      cases foundAfter
      cases Option.some.inj (foundBefore.symm.trans found)
      rfl
    · cases Option.some.inj (foundBefore.symm.trans foundAfter)
      rfl
  filled := by
    intro target after foundAfter
    unfold published at foundAfter
    dsimp only at foundAfter
    rw [FiniteMap.get_put] at foundAfter
    split at foundAfter
    · cases foundAfter
      right
      simp [isEmpty, publish]
    · exact .inl foundAfter

theorem Slotted.published (slotted : r.Slotted) (owned : ref ∈ r.all)
    (named : (r.gens ref).key = some key)
    (found : r.entries.get key = some entry)
    (prepared : entry.prepared = some ref) (vacant : entry.current = none) :
    (r.published ref key entry).Slotted := by
  have moved := moved_published found prepared vacant
  have phase : (r.gens ref).phase = .prepared := by
    have sits : r.Sits key .prepared ref := ⟨entry, found, prepared⟩
    exact ((slotted.slots _ _ _).mp sits).2.2
  apply slotted.moved moved
  apply placed_of_phase slotted owned named moved rfl
    (update_self _ _ _) (by simp)
  intro target slot
  rw [sits_published found vacant, slotted.sits_iff owned named, phase]
  by_cases same : target = key
  · simp [same]
  · simp [same]

end Published

/-! ### Retiring -/

theorem retireLocked_get (r : Registry) (ref : GenRef) (target : EntryKey) :
    (r.retireLocked ref).entries.get target = if (r.gens ref).key = some target
      then (r.entries.get target).map fun entry =>
        (entry.unlink ref).retire ref
      else r.entries.get target := by
  unfold retireLocked addRetiringLocked unlinkActiveLocked writeGen
  dsimp only
  rw [editEntry_get]
  dsimp only
  rw [editEntry_get, update_self]
  unfold Generation.key
  dsimp only
  split
  · rw [Option.map_map]
    rfl
  · rfl

theorem editEntry_frame (r : Registry) (target : Option EntryKey)
    (edit : Entry → Entry) :
    ∃ entries, r.editEntry target edit = { r with entries := entries } := by
  unfold editEntry
  split
  · exact ⟨_, rfl⟩
  · split
    all_goals exact ⟨_, rfl⟩

theorem collectEntry_frame (r : Registry) (target : Option EntryKey) :
    ∃ entries, r.collectEntry target = { r with entries := entries } := by
  unfold collectEntry
  split
  · exact ⟨_, rfl⟩
  · split
    · exact ⟨_, rfl⟩
    · split
      all_goals exact ⟨_, rfl⟩

theorem retireLocked_frame (r : Registry) (ref : GenRef) :
    ∃ entries, r.retireLocked ref = { r with
        gens := Function.update r.gens ref
          { r.gens ref with phase := .retiring }
        entries := entries } := by
  unfold retireLocked addRetiringLocked unlinkActiveLocked
  dsimp only
  obtain ⟨unlinked, first⟩ := editEntry_frame r (r.gens ref).key
    fun entry => entry.unlink ref
  rw [first]
  obtain ⟨retired, second⟩ := editEntry_frame
    ({ r with entries := unlinked }.writeGen ref
      { r.gens ref with phase := .retiring }) _
    fun entry => entry.retire ref
  rw [second]
  exact ⟨retired, rfl⟩

theorem dropLocked_frame (r : Registry) (ref : GenRef) :
    ∃ entries, r.dropLocked ref = { r with
        gens := Function.update r.gens ref
          { r.gens ref with phase := .done }
        all := r.all.erase ref
        entries := entries } := by
  unfold dropLocked unlinkActiveLocked
  dsimp only
  obtain ⟨unlinked, first⟩ := editEntry_frame r (r.gens ref).key
    fun entry => entry.unlink ref
  rw [first]
  obtain ⟨dropped, second⟩ := editEntry_frame
    { r with entries := unlinked } (r.gens ref).key
    fun entry => entry.dropRetiring ref
  rw [second]
  obtain ⟨collected, third⟩ := collectEntry_frame
    { r with entries := dropped } (r.gens ref).key
  rw [third]
  exact ⟨collected, rfl⟩

theorem dropLocked_get (r : Registry) (ref : GenRef) (target : EntryKey) :
    (r.dropLocked ref).entries.get target = if (r.gens ref).key = some target
      then ((r.entries.get target).map fun entry =>
        (entry.unlink ref).dropRetiring ref).filter
          fun entry => !entry.isEmpty
      else r.entries.get target := by
  unfold dropLocked unlinkActiveLocked writeGen
  dsimp only
  rw [collectEntry_get, editEntry_get, editEntry_get]
  split
  · rw [Option.map_map]
    rfl
  · rfl

theorem moved_retireLocked (r : Registry) (ref : GenRef) :
    Moved r (r.retireLocked ref) ref := by
  have get := retireLocked_get r ref
  obtain ⟨entries, frame⟩ := retireLocked_frame r ref
  constructor
  · intro other different
    rw [frame]
    exact update_of_ne different _ _
  · intro other _
    rw [frame]
  · rw [frame]
  · intro target slot other different
    rw [sits_iff_of_get (get target)]
    split
    · cases found : r.entries.get target with
      | none => simp [Sits, found]
      | some entry =>
        simp [Sits, found, holds_retire, holds_unlink, different]
    · rfl
  · intro target entry after before found
    rw [get] at found
    split at found
    · rw [before] at found
      cases found
      rfl
    · cases Option.some.inj (before.symm.trans found)
      rfl
  · intro target entry found
    rw [get] at found
    split at found
    · right
      obtain ⟨before, _, rfl⟩ := Option.map_eq_some_iff.mp found
      simp [isEmpty, retire]
    · exact .inl found

theorem Slotted.key_of_active (slotted : r.Slotted) (owned : ref ∈ r.all)
    (active : (r.gens ref).phase ∈ [Phase.prepared, .current]) :
    ∃ key, (r.gens ref).key = some key := by
  rcases slotted.phased ref owned with ⟨_, pending⟩ | ⟨known, _⟩
  · simp [pending] at active
  · exact Generation.key_of_known known

theorem Slotted.retireLocked (slotted : r.Slotted) (owned : ref ∈ r.all)
    (active : (r.gens ref).phase ∈ [Phase.prepared, .current]) :
    (r.retireLocked ref).Slotted := by
  have moved := moved_retireLocked r ref
  have get := retireLocked_get r ref
  obtain ⟨entries, frame⟩ := retireLocked_frame r ref
  obtain ⟨key, named⟩ := slotted.key_of_active owned active
  apply slotted.moved moved
  apply placed_of_phase slotted owned named moved
  · rw [frame]
  · rw [frame]
    exact update_self _ _ _
  · simp
  · intro target slot
    rw [sits_iff_of_get (get target)]
    simp only [named, Option.some.injEq]
    by_cases same : key = target
    · subst same
      obtain ⟨entry, found, _⟩ := (slotted.slots _ _ ref).mpr
        ⟨owned, named, rfl⟩
      have notRetiring : ¬ entry.Holds .retiring ref := by
        intro holds
        have seated := (slotted.slots _ _ ref).mp ⟨entry, found, holds⟩
        rw [seated.2.2] at active
        simp at active
      simp only [found, Option.map_some, Option.some.injEq, exists_eq_left',
        holds_retire, holds_unlink, if_true, true_and]
      constructor
      · rintro (⟨holds, retiring⟩ | ⟨retiring, _⟩)
        · have slotRetiring : slot = .retiring := by simpa using retiring
          subst slotRetiring
          exact absurd holds notRetiring
        · exact retiring
      · intro retiring
        exact .inr ⟨retiring, trivial⟩
    · rw [if_neg same, slotted.sits_iff owned named]
      simp [Ne.symm same]

/-! ### Dropping -/

theorem moved_dropLocked (r : Registry) (ref : GenRef) :
    Moved r (r.dropLocked ref) ref := by
  have get := dropLocked_get r ref
  obtain ⟨entries, frame⟩ := dropLocked_frame r ref
  constructor
  · intro other different
    rw [frame]
    exact update_of_ne different _ _
  · intro other different
    rw [frame]
    simp [different]
  · rw [frame]
  · intro target slot other different
    rw [sits_iff_of_get (get target)]
    split
    · unfold Sits
      cases found : r.entries.get target with
      | none => simp
      | some entry =>
        simp only [Option.map_some, Option.filter_some, Option.some.injEq,
          exists_eq_left']
        have kept : ((entry.unlink ref).dropRetiring ref).Holds slot other ↔
            entry.Holds slot other := by
          simp [holds_dropRetiring, holds_unlink, different]
        cases empty : ((entry.unlink ref).dropRetiring ref).isEmpty with
        | true =>
          have nothing := isEmpty_iff.mp empty slot other
          simp [← kept, nothing]
        | false => simp [kept]
    · rfl
  · intro target entry after before found
    rw [get] at found
    split at found
    · rw [before, Option.map_some, Option.filter_eq_some_iff] at found
      cases found.1
      rfl
    · cases Option.some.inj (before.symm.trans found)
      rfl
  · intro target entry found
    rw [get] at found
    split at found
    · right
      have kept := (Option.filter_eq_some_iff.mp found).2
      simpa using kept
    · exact .inl found

theorem Slotted.dropLocked (slotted : r.Slotted) (ref : GenRef) :
    (r.dropLocked ref).Slotted := by
  have get := dropLocked_get r ref
  have absent : ref ∉ (r.dropLocked ref).all := by
    obtain ⟨entries, frame⟩ := dropLocked_frame r ref
    rw [frame]
    simp
  apply slotted.moved (moved_dropLocked r ref)
  constructor
  · exact fun inside => absurd inside absent
  · exact fun inside => absurd inside absent
  · intro target slot
    constructor
    · rw [sits_iff_of_get (get target)]
      split
      · rintro ⟨entry, found, holds⟩
        obtain ⟨mapped, _⟩ := Option.filter_eq_some_iff.mp found
        obtain ⟨before, _, rfl⟩ := Option.map_eq_some_iff.mp mapped
        rw [holds_dropRetiring, holds_unlink] at holds
        simp only [ne_eq, not_true_eq_false, false_or] at holds
        exact absurd holds.1.2 holds.2
      · rename_i elsewhere
        intro sits
        exact absurd ((slotted.slots _ _ _).mp sits).2.1 elsewhere
    · exact fun seated => absurd seated.1 absent
  · exact fun inside => absurd inside absent

end Registry

end QMux.Mesh
