import QMux.Protocol.UDPFragmentRoundTrip

/-!
# Fragment groups under arbitrary input

What `AddFragment` does to the groups when nothing is known about the
fragments it is given.  A predicate `Seen` stands for the fragments accepted
so far: every slot of a group holds one of them, a joined packet is made of
them in order, and no call touches a group other than the one it addresses.
-/

namespace QMux.Protocol

namespace FragmentGroup

variable {Seen : UInt8 → Nat → Bytes → Prop} {group : FragmentGroup}

/-- A group that is still incomplete.  `Seen total index payload` holds for
the fragments in its slots. -/
structure Collects (Seen : UInt8 → Nat → Bytes → Prop)
    (group : FragmentGroup) : Prop where
  slots : group.data.length = group.total.toNat
  counted : group.received.toNat = group.data.countP Option.isSome
  incomplete : group.received.toNat < group.total.toNat
  seen : ∀ index payload, group.data[index]? = some (some payload) →
    Seen group.total index payload

variable {More : UInt8 → Nat → Bytes → Prop} {total : UInt8}

theorem Collects.mono (collects : group.Collects Seen)
    (more : ∀ index payload, Seen group.total index payload →
      More group.total index payload) : group.Collects More := by
  refine { collects with seen := ?_ }
  intro index payload held
  exact more index payload (collects.seen index payload held)

/-- `data` is the concatenation of `total` fragments, in order. -/
def Joins (Seen : UInt8 → Nat → Bytes → Prop) (total : UInt8)
    (data : Bytes) : Prop :=
  ∃ parts : List Bytes, parts.length = total.toNat ∧ data = parts.flatten ∧
    ∀ index part, parts[index]? = some part → Seen total index part

theorem Joins.mono {data : Bytes} (joins : Joins Seen total data)
    (more : ∀ index payload, Seen total index payload →
      More total index payload) : Joins More total data := by
  obtain ⟨parts, length, flat, seen⟩ := joins
  refine ⟨parts, length, flat, ?_⟩
  intro index part at_
  exact more index part (seen index part at_)

theorem collects_empty (positive : 0 < total.toNat)
    (createdAt retainedBytes : Int) :
    Collects Seen
      { total := total
        received := 0
        data := List.replicate total.toNat none
        createdAt := createdAt
        retainedBytes := retainedBytes } := by
  constructor
  · exact List.length_replicate
  · change 0 = _
    rw [List.countP_replicate]
    simp
  · exact positive
  · intro index payload held
    have member := List.mem_of_getElem? held
    cases List.eq_of_mem_replicate member

section Write

variable {index : Nat} {payload : Bytes} {retainedBytes : Int}

/-- The group with one more fragment in a slot that was empty. -/
def write (group : FragmentGroup) (index : Nat) (payload : Bytes)
    (retainedBytes : Int) : FragmentGroup :=
  { group with
    retainedBytes := retainedBytes
    data := group.data.set index (some payload)
    received := group.received + 1 }

variable (collects : group.Collects Seen)

include collects

theorem Collects.write_received (index : Nat) (payload : Bytes)
    (retainedBytes : Int) :
    (group.write index payload retainedBytes).received.toNat =
      group.received.toNat + 1 := by
  have incomplete := collects.incomplete
  have byte := group.total.toNat_lt
  change (group.received + 1).toNat = _
  rw [UInt8.toNat_add]
  exact Nat.mod_eq_of_lt (by
    change group.received.toNat + 1 < 2 ^ 8
    omega)

theorem Collects.write_seen (new : Seen group.total index payload)
    (slot : Nat) (part : Bytes)
    (held : (group.data.set index (some payload))[slot]? = some (some part)) :
    Seen group.total slot part := by
  rw [List.getElem?_set] at held
  split at held
  · rename_i same
    subst same
    split at held
    · cases held
      exact new
    · cases held
  · exact collects.seen slot part held

theorem Collects.write_counted (inside : index < group.data.length)
    (vacant : group.data[index]?.join = none) (payload : Bytes)
    (retainedBytes : Int) :
    (group.write index payload retainedBytes).received.toNat =
      (group.data.set index (some payload)).countP Option.isSome := by
  have none : group.data[index] = none := by
    rw [List.getElem?_eq_getElem inside] at vacant
    exact vacant
  rw [collects.write_received, collects.counted, List.countP_set inside, none]
  simp

theorem Collects.write (inside : index < group.data.length)
    (vacant : group.data[index]?.join = none)
    (new : Seen group.total index payload)
    (partly : (group.write index payload retainedBytes).received ≠
      group.total) :
    (group.write index payload retainedBytes).Collects Seen := by
  constructor
  · change (group.data.set index (some payload)).length = _
    rw [List.length_set]
    exact collects.slots
  · exact collects.write_counted inside vacant _ _
  · have grown := collects.write_received index payload retainedBytes
    have differs : (group.write index payload retainedBytes).received.toNat ≠
        group.total.toNat := by
      intro same
      exact partly (UInt8.toNat_inj.mp same)
    have before := collects.incomplete
    change (group.write index payload retainedBytes).received.toNat <
      group.total.toNat
    omega
  · exact collects.write_seen new

theorem Collects.join (inside : index < group.data.length)
    (vacant : group.data[index]?.join = none)
    (new : Seen group.total index payload)
    (full : (group.write index payload retainedBytes).received = group.total) :
    Joins Seen group.total
      (joinFragmentGroup (group.write index payload retainedBytes)) := by
  have count := collects.write_counted inside vacant payload retainedBytes
  rw [full, ← collects.slots, ← List.length_set] at count
  have filled := List.countP_eq_length.mp count.symm
  refine ⟨(group.data.set index (some payload)).map fun part =>
    part.getD [], ?_, ?_, ?_⟩
  · rw [List.length_map, List.length_set]
    exact collects.slots
  · exact (List.flatMap_def ..)
  · intro slot part at_
    rw [List.getElem?_map, Option.map_eq_some_iff] at at_
    obtain ⟨held, found, same⟩ := at_
    obtain ⟨data, rfl⟩ := Option.isSome_iff_exists.mp
      (filled held (List.mem_of_getElem? found))
    rw [← same]
    exact collects.write_seen new slot data found

end Write

end FragmentGroup

namespace ShardedFragmentAssembler

open FragmentGroup

variable {Seen : UInt8 → Nat → Bytes → Prop} {sfa : ShardedFragmentAssembler}

/-- What one `AddFragment` call may do. -/
structure Adds (Seen : UInt8 → Nat → Bytes → Prop)
    (sfa : ShardedFragmentAssembler) (key : FragmentKey) (total : UInt8)
    (outcome : Except FragmentError (Option Bytes) ×
      ShardedFragmentAssembler) : Prop where
  frame : ∀ other, other ≠ key → outcome.2.lookup other = sfa.lookup other
  held : ∀ group, outcome.2.lookup key = some group → group.Collects Seen
  joined : ∀ data, outcome.1 = .ok (some data) → Joins Seen total data

variable {total : UInt8}

theorem Adds.unchanged {key : FragmentKey}
    {outcome : Except FragmentError (Option Bytes) × ShardedFragmentAssembler}
    (held : ∀ group, sfa.lookup key = some group → group.Collects Seen)
    (same : ∀ other, outcome.2.lookup other = sfa.lookup other)
    (nothing : ∀ data, outcome.1 ≠ .ok (some data)) :
    Adds Seen sfa key total outcome := by
  constructor
  · intro other _
    exact same other
  · intro group found
    rw [same] at found
    exact held group found
  · intro data ok
    exact absurd ok (nothing data)

theorem retainFragment_adds (now : Int) (key : FragmentKey)
    {existing : Option FragmentGroup} {index : UInt8} {payload : Bytes}
    (found : sfa.lookup key = existing)
    (held : ∀ group, existing = some group → group.Collects Seen ∧
      group.total = total ∧ group.data[index.toNat]?.join = none)
    (inside : index < total) (new : Seen total index.toNat payload) :
    Adds Seen sfa key total
      (sfa.retainFragment now key existing index total payload) := by
  have slot : index.toNat < total.toNat := inside
  have kept : ∀ group, sfa.lookup key = some group → group.Collects Seen := by
    intro group at_
    exact (held group (found.symm.trans at_)).1
  -- The group found, or the empty group created in its place.
  have base : ∀ group, group = existing.getD
      { total := total
        received := 0
        data := List.replicate total.toNat none
        createdAt := now
        retainedBytes := 0 } →
      group.Collects Seen ∧ group.total = total ∧
        group.data[index.toNat]?.join = none := by
    rintro group rfl
    cases existing with
    | some group => exact held group rfl
    | none =>
      refine ⟨collects_empty (Nat.zero_lt_of_lt slot) _ _, rfl, ?_⟩
      rw [Option.getD_none, List.getElem?_replicate, if_pos slot]
      rfl
  unfold retainFragment
  extract_lets groups
  cases groups with
  | none => exact .unchanged kept (fun _ => rfl) (by intro data; simp)
  | some retainedGroups =>
    dsimp only
    split
    · exact .unchanged kept (fun _ => rfl) (by intro data; simp)
    obtain ⟨collects, sameTotal, vacant⟩ := base _ rfl
    have room := collects.slots
    rw [sameTotal] at room
    have bound := Nat.lt_of_lt_of_eq slot room.symm
    have fragment := new
    rw [← sameTotal] at fragment
    split
    · rename_i full
      constructor
      · intro other different
        rw [lookup_discard, if_neg different]
        rfl
      · intro group at_
        rw [lookup_discard, if_pos rfl] at at_
        cases at_
      · intro data ok
        cases ok
        have joins := collects.join bound vacant fragment full
        rw [sameTotal] at joins
        exact joins
    · rename_i partly
      constructor
      · intro other different
        rw [lookup_store, if_neg different]
        rfl
      · intro group at_
        rw [lookup_store, if_pos rfl] at at_
        cases at_
        exact collects.write bound vacant fragment partly
      · intro data ok
        cases ok

theorem addFragment_adds (now : Int) (sessionID : UInt32) (fragID : UInt64)
    (index total : UInt8) (payload : Bytes)
    (held : ∀ group, sfa.lookup ⟨sessionID, fragID⟩ = some group →
      group.Collects Seen)
    (new : Seen total index.toNat payload) :
    Adds Seen sfa ⟨sessionID, fragID⟩ total
      (sfa.addFragment now sessionID fragID index total payload) := by
  unfold addFragment
  split
  · exact .unchanged held (fun _ => rfl) (by intro data; simp)
  rename_i valid
  have inside : index < total := by
    unfold validateFragmentInput at valid
    split at valid
    · cases valid
    · split at valid
      · cases valid
      · rename_i less
        exact UInt8.not_le.mp less
  split
  · exact .unchanged held (fun _ => rfl) (by intro data; simp)
  extract_lets key
  split
  · rename_i group found
    split
    · -- A total that differs drops the group that is addressed.
      constructor
      · intro other different
        rw [lookup_discard, if_neg different]
      · intro other at_
        rw [lookup_discard, if_pos rfl] at at_
        cases at_
      · intro data ok
        cases ok
    · exact .unchanged held (fun _ => rfl) (by intro data; simp)
    · rename_i accepted
      have sameTotal : group.total = total := by
        unfold validateFragmentGroup at accepted
        split at accepted
        · cases accepted
        · rename_i same
          exact not_not.mp same
      split
      · exact .unchanged held (fun _ => rfl) (by intro data; simp)
      rename_i vacant
      apply retainFragment_adds now key found _ inside new
      intro other same
      cases same
      exact ⟨held group found, sameTotal,
        Option.not_isSome_iff_eq_none.mp vacant⟩
  · rename_i absent
    apply retainFragment_adds now key absent _ inside new
    intro other same
    cases same

end ShardedFragmentAssembler

end QMux.Protocol
