import QMux.Mesh.Registry

/-!
# Slots of the registry

What the entries are for: they list, by identity and phase, the generations
the registry owns.  `Seated` says it from the generations, `Sits` from the
entries; the slot invariant says that both agree, that no entry is empty, and
that a client instance has one group.  Each lemma below says what one edit of
the entries does to the slots.
-/

namespace QMux.Mesh

open Support

/-! ## Entries -/

namespace Entry

variable {entry : Entry} {ref other : GenRef} {phase : Phase}

/-- The generation is in the slot for the phase. -/
def Holds (entry : Entry) : Phase → GenRef → Prop
  | .prepared, ref => entry.prepared = some ref
  | .current, ref => entry.current = some ref
  | .retiring, ref => ref ∈ entry.retiring
  | .pending, _ => False
  | .done, _ => False

@[simp] theorem holds_new (groupID : String) :
    ¬ (Entry.new groupID).Holds phase ref := by
  cases phase <;> simp [Holds, new]

private theorem cleared_iff {slot : Option GenRef} :
    (if slot = some ref then none else slot) = some other ↔
      slot = some other ∧ other ≠ ref := by
  split
  · rename_i here
    simp only [reduceCtorEq, here, Option.some.injEq, false_iff, not_and,
      not_not]
    exact Eq.symm
  rename_i elsewhere
  constructor
  · intro found
    refine ⟨found, ?_⟩
    intro same
    apply elsewhere
    rw [found, same]
  · exact And.left

theorem holds_unlink :
    (entry.unlink ref).Holds phase other ↔
      entry.Holds phase other ∧ (other ≠ ref ∨ phase = .retiring) := by
  cases phase <;> simp only [Holds, unlink, cleared_iff] <;> simp

theorem holds_retire :
    (entry.retire ref).Holds phase other ↔
      entry.Holds phase other ∨ (phase = .retiring ∧ other = ref) := by
  cases phase <;> simp [Holds, retire, or_comm]

theorem holds_dropRetiring :
    (entry.dropRetiring ref).Holds phase other ↔
      entry.Holds phase other ∧ (other ≠ ref ∨ phase ≠ .retiring) := by
  cases phase <;> simp [Holds, dropRetiring, and_comm]

theorem holds_prepare (vacant : entry.prepared = none) :
    (entry.prepare ref).Holds phase other ↔
      entry.Holds phase other ∨ (phase = .prepared ∧ other = ref) := by
  cases phase <;> simp [Holds, prepare, vacant, eq_comm]

theorem holds_publish (vacant : entry.current = none) :
    (entry.publish ref).Holds phase other ↔
      (entry.Holds phase other ∧ phase ≠ .prepared) ∨
        (phase = .current ∧ other = ref) := by
  cases phase <;> simp [Holds, publish, vacant, eq_comm]

theorem isEmpty_iff :
    entry.isEmpty = true ↔ ∀ phase ref, ¬ entry.Holds phase ref := by
  unfold isEmpty
  rw [decide_eq_true_iff]
  constructor
  · rintro ⟨noPrepared, noCurrent, noRetiring⟩ phase ref
    cases phase <;> simp [Holds, noPrepared, noCurrent, noRetiring]
  · intro none
    refine ⟨?_, ?_, ?_⟩
    · apply Option.eq_none_iff_forall_not_mem.mpr
      intro ref
      exact none .prepared ref
    · apply Option.eq_none_iff_forall_not_mem.mpr
      intro ref
      exact none .current ref
    · apply Finset.eq_empty_iff_forall_notMem.mpr
      intro ref
      exact none .retiring ref

end Entry

/-- A generation without a role is pending, one with a role is in a slot. -/
def Generation.Phased (generation : Generation) : Prop :=
  (generation.role = .unknown ∧ generation.phase = .pending) ∨
    (generation.role ≠ .unknown ∧
      generation.phase ∈ [Phase.prepared, .current, .retiring])

variable {generation : Generation}

theorem Generation.key_of_known (known : generation.role ≠ .unknown) :
    ∃ key, generation.key = some key := by
  unfold Generation.key
  cases role : generation.role with
  | unknown => exact absurd role known
  | client | peer => exact ⟨_, rfl⟩

theorem Generation.peer_of_key {peerID : String}
    (named : generation.key = some (.peer peerID)) :
    generation.role = .peer ∧ generation.peerID = peerID := by
  unfold Generation.key at named
  split at named
  · cases named
  · cases named
  · rename_i peer
    cases named
    exact ⟨peer, rfl⟩

/-! ## Slots -/

namespace Registry

variable {r next : Registry} {ref other : GenRef} {key : EntryKey}
  {phase : Phase}

/-- The generation is in a slot of the entry at `key`. -/
def Sits (r : Registry) (key : EntryKey) (phase : Phase) (ref : GenRef) :
    Prop :=
  ∃ entry, r.entries.get key = some entry ∧ entry.Holds phase ref

/-- The registry owns the generation, which names the slot itself. -/
def Seated (r : Registry) (key : EntryKey) (phase : Phase) (ref : GenRef) :
    Prop :=
  ref ∈ r.all ∧ (r.gens ref).key = some key ∧ (r.gens ref).phase = phase

theorem sits_of_entries (same : next.entries = r.entries) :
    next.Sits key phase ref ↔ r.Sits key phase ref := by
  unfold Sits
  rw [same]

theorem sits_iff_of_get {edited : Option Entry} {target : Option EntryKey}
    (get : next.entries.get key = if target = some key
      then edited else r.entries.get key) :
    next.Sits key phase ref ↔ if target = some key
      then ∃ entry, edited = some entry ∧ entry.Holds phase ref
      else r.Sits key phase ref := by
  unfold Sits
  rw [get]
  split <;> rfl

theorem editEntry_get (r : Registry) (target : Option EntryKey)
    (edit : Entry → Entry) (key : EntryKey) :
    (r.editEntry target edit).entries.get key = if target = some key
      then (r.entries.get key).map edit else r.entries.get key := by
  unfold editEntry
  split
  · simp
  rename_i edited
  split
  · rename_i absent
    split
    · rename_i same
      rw [← Option.some.inj same, absent]
      rfl
    · rfl
  · rename_i entry found
    dsimp only
    rw [FiniteMap.get_put]
    by_cases same : key = edited
    · subst same
      simp [found]
    · have different : some edited ≠ some key :=
        fun equal => same (Option.some.inj equal).symm
      simp [same, different]

theorem collectEntry_get (r : Registry) (target : Option EntryKey)
    (key : EntryKey) :
    (r.collectEntry target).entries.get key = if target = some key
      then (r.entries.get key).filter (fun entry => !entry.isEmpty)
      else r.entries.get key := by
  unfold collectEntry
  split
  · simp
  rename_i collected
  split
  · rename_i absent
    split
    · rename_i same
      rw [← Option.some.inj same, absent]
      rfl
    · rfl
  · rename_i entry found
    by_cases same : collected = key
    · subst same
      cases empty : entry.isEmpty with
      | true | false => simp [found, empty, Option.filter_some]
    have different : some collected ≠ some key :=
      fun equal => same (Option.some.inj equal)
    rw [if_neg different]
    split
    · exact FiniteMap.get_delete_of_ne _ (Ne.symm same)
    · rfl

/-! ## The invariant -/

/-- The slots of the entries are exactly those the generations name. -/
structure Slotted (r : Registry) : Prop where
  fresh : ∀ ref ∈ r.all, ref < r.nextID
  phased : ∀ ref ∈ r.all, (r.gens ref).Phased
  slots : ∀ key phase ref, r.Sits key phase ref ↔ r.Seated key phase ref
  filled : ∀ key entry, r.entries.get key = some entry → entry.isEmpty = false
  bound : ∀ ref ∈ r.all, ∀ instanceID entry,
    (r.gens ref).key = some (.client instanceID) →
    r.entries.get (.client instanceID) = some entry →
    (r.gens ref).groupID = entry.groupID

/-- Only `ref` and its slots differ between the two registries, and an entry
keeps its group. -/
structure Moved (r next : Registry) (ref : GenRef) : Prop where
  gens : ∀ other, other ≠ ref → next.gens other = r.gens other
  all : ∀ other, other ≠ ref → (other ∈ next.all ↔ other ∈ r.all)
  nextID : r.nextID ≤ next.nextID
  sits : ∀ key phase other, other ≠ ref →
    (next.Sits key phase other ↔ r.Sits key phase other)
  groups : ∀ key entry after, r.entries.get key = some entry →
    next.entries.get key = some after → after.groupID = entry.groupID
  filled : ∀ key entry, next.entries.get key = some entry →
    r.entries.get key = some entry ∨ entry.isEmpty = false

/-- What is left to check about the generation that moved. -/
structure Placed (r : Registry) (ref : GenRef) : Prop where
  fresh : ref ∈ r.all → ref < r.nextID
  phased : ref ∈ r.all → (r.gens ref).Phased
  slots : ∀ key phase, r.Sits key phase ref ↔ r.Seated key phase ref
  bound : ref ∈ r.all → ∀ instanceID entry,
    (r.gens ref).key = some (.client instanceID) →
    r.entries.get (.client instanceID) = some entry →
    (r.gens ref).groupID = entry.groupID

theorem Slotted.moved (slotted : r.Slotted) (moved : Moved r next ref)
    (placed : next.Placed ref) : next.Slotted where
  fresh := by
    intro other owned
    by_cases same : other = ref
    · subst same
      exact placed.fresh owned
    · have before := slotted.fresh other ((moved.all other same).mp owned)
      exact lt_of_lt_of_le before moved.nextID
  phased := by
    intro other owned
    by_cases same : other = ref
    · subst same
      exact placed.phased owned
    · rw [moved.gens other same]
      exact slotted.phased other ((moved.all other same).mp owned)
  slots := by
    intro key phase other
    by_cases same : other = ref
    · subst same
      exact placed.slots key phase
    · rw [moved.sits key phase other same, slotted.slots]
      unfold Seated
      rw [moved.gens other same, moved.all other same]
  filled := by
    intro key entry found
    rcases moved.filled key entry found with before | nonempty
    · exact slotted.filled key entry before
    · exact nonempty
  bound := by
    intro other owned instanceID entry named found
    by_cases same : other = ref
    · subst same
      exact placed.bound owned instanceID entry named found
    rw [moved.gens other same] at named ⊢
    have ownedBefore := (moved.all other same).mp owned
    obtain ⟨before, foundBefore, _⟩ := (slotted.slots _ _ other).mpr
      ⟨ownedBefore, named, rfl⟩
    rw [moved.groups _ before entry foundBefore found]
    exact slotted.bound other ownedBefore instanceID before named foundBefore

theorem Slotted.congr (slotted : r.Slotted) (gens : next.gens = r.gens)
    (nextID : next.nextID = r.nextID) (all : next.all = r.all)
    (entries : next.entries = r.entries) : next.Slotted where
  fresh := by
    rw [all, nextID]
    exact slotted.fresh
  phased := by
    rw [all, gens]
    exact slotted.phased
  slots := by
    intro key phase ref
    rw [sits_of_entries entries, slotted.slots]
    unfold Seated
    rw [all, gens]
  filled := by
    rw [entries]
    exact slotted.filled
  bound := by
    rw [all, gens, entries]
    exact slotted.bound

theorem Moved.trans {middle : Registry} (first : Moved r middle ref)
    (second : Moved middle next ref)
    (present : ∀ key entry, r.entries.get key = some entry →
      ∃ between, middle.entries.get key = some between) :
    Moved r next ref where
  gens := fun other different => by
    rw [second.gens other different, first.gens other different]
  all := fun other different => by
    rw [second.all other different, first.all other different]
  nextID := le_trans first.nextID second.nextID
  sits := fun key phase other different => by
    rw [second.sits key phase other different,
      first.sits key phase other different]
  groups := by
    intro key entry after before found
    obtain ⟨between, there⟩ := present key entry before
    rw [second.groups key between after there found]
    exact first.groups key entry between before there
  filled := by
    intro key entry found
    rcases second.filled key entry found with between | nonempty
    · exact first.filled key entry between
    · exact .inr nonempty

end Registry

end QMux.Mesh
