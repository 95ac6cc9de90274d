import QMux.Protocol.UDPFragmentCodec
import Mathlib.Algebra.BigOperators.Group.Finset.Basic
import Mathlib.Data.Finset.Card
import Mathlib.Data.Finset.Range

/-!
# Reassembly of interleaved packets

The datagrams of any number of packets reach one assembler in any order,
fragments may be repeated while their packet is incomplete, and the incomplete
packets stay within the limits on groups and bytes.  The assembler then holds,
for each incomplete packet, exactly the slots of the fragments seen so far,
and it reports every packet once, when its last missing fragment arrives.
-/

namespace QMux.Protocol

open Function Support

/-! ## One fragment -/

namespace ShardedFragmentAssembler

variable {sfa : ShardedFragmentAssembler} {key other : FragmentKey}
  {group : FragmentGroup}

theorem lookup_store :
    (sfa.store key group).lookup other =
      if other = key then some group else sfa.lookup other := by
  by_cases sameShard : sfa.shardIndex other = sfa.shardIndex key
  · change (Function.update sfa.shards _ _ (sfa.shardIndex other)).get other = _
    rw [sameShard, update_self, FiniteMap.get_put, lookup, sameShard]
  · have different : other ≠ key := by
      rintro rfl
      exact sameShard rfl
    change (Function.update sfa.shards _ _ (sfa.shardIndex other)).get other = _
    rw [update_of_ne sameShard, if_neg different]
    rfl

theorem lookup_discard :
    (sfa.discard key group).lookup other =
      if other = key then none else sfa.lookup other := by
  by_cases sameShard : sfa.shardIndex other = sfa.shardIndex key
  · change (Function.update sfa.shards _ _ (sfa.shardIndex other)).get other = _
    rw [sameShard, update_self, FiniteMap.get_delete, lookup, sameShard]
  · have different : other ≠ key := by
      rintro rfl
      exact sameShard rfl
    change (Function.update sfa.shards _ _ (sfa.shardIndex other)).get other = _
    rw [update_of_ne sameShard, if_neg different]
    rfl

end ShardedFragmentAssembler

/-- The group holds exactly the fragments of `data` whose index is in
`seen`. -/
structure FragmentGroup.Holds (data : Bytes) (seen : Finset Nat)
    (group : FragmentGroup) : Prop where
  total : group.total = UInt8.ofNat (fragmentCount data)
  received : group.received = UInt8.ofNat seen.card
  slots : group.data =
    Support.slots (chunk maxFragPayload data) (fragmentCount data) seen
  retained : group.retainedBytes = seen.card * fragmentBufferSize

/-- What the assembler holds for a packet: nothing before its first fragment
and after its last one, and a group with the fragments seen in between. -/
structure ShardedFragmentAssembler.Tracks (sfa : ShardedFragmentAssembler)
    (key : FragmentKey) (data : Bytes) (seen : Finset Nat) : Prop where
  absent : seen = ∅ ∨ seen = Finset.range (fragmentCount data) →
    sfa.lookup key = none
  present : seen ≠ ∅ → seen ≠ Finset.range (fragmentCount data) →
    ∃ group, sfa.lookup key = some group ∧ group.Holds data seen

/-- A packet that is split into fragments. -/
structure Fragmentable (data : Bytes) : Prop where
  large : maxUDPPayload < data.length
  fits : data.length ≤ 255 * maxFragPayload

namespace Fragmentable

variable {data : Bytes}

theorem few (fragmentable : Fragmentable data) : fragmentCount data ≤ 255 :=
  (chunkCount_le_iff maxFragPayload_pos).mpr fragmentable.fits

theorem several (fragmentable : Fragmentable data) : 2 ≤ fragmentCount data :=
  two_le_fragmentCount fragmentable.large

theorem validateFragmentInput_ok (fragmentable : Fragmentable data)
    {index : Nat} (inside : index < fragmentCount data) :
    validateFragmentInput (UInt8.ofNat index)
      (UInt8.ofNat (fragmentCount data)) = .ok () := by
  have few := fragmentable.few
  have several := fragmentable.several
  rw [validateFragmentInput, if_neg, if_neg]
  · rw [ge_iff_le, UInt8.le_iff_toNat_le, toNat_ofNat_of_le few,
      toNat_ofNat_of_le (by omega)]
    omega
  · rw [UInt8.lt_iff_toNat_lt, toNat_ofNat_of_le few]
    change ¬ fragmentCount data < 2
    omega

theorem card_eq_total_iff (fragmentable : Fragmentable data)
    {seen : Finset Nat} (known : seen ⊆ Finset.range (fragmentCount data)) :
    UInt8.ofNat seen.card = UInt8.ofNat (fragmentCount data) ↔
      seen = Finset.range (fragmentCount data) := by
  have few := fragmentable.few
  have bounded : seen.card ≤ fragmentCount data := by
    simpa using Finset.card_le_card known
  constructor
  · intro same
    have cards := congrArg UInt8.toNat same
    rw [toNat_ofNat_of_le (by omega), toNat_ofNat_of_le few] at cards
    exact Finset.eq_of_subset_of_card_le known (by simp [cards])
  · rintro rfl
    rw [Finset.card_range]

end Fragmentable

variable {data : Bytes} {group : FragmentGroup}

theorem FragmentGroup.Holds.join_eq
    (holds : group.Holds data (Finset.range (fragmentCount data))) :
    joinFragmentGroup group = data := by
  rw [joinFragmentGroup, holds.slots,
    flatMap_slots_of_full _ (fun _ inside => Finset.mem_range.mpr inside)]
  exact flatMap_chunk_range (le_chunkCount_mul maxFragPayload_pos _)

theorem FragmentGroup.Holds.complete_iff {seen : Finset Nat}
    (holds : group.Holds data seen) (fragmentable : Fragmentable data)
    (known : seen ⊆ Finset.range (fragmentCount data)) :
    group.received = group.total ↔
      seen = Finset.range (fragmentCount data) := by
  rw [holds.received, holds.total]
  exact fragmentable.card_eq_total_iff known

private theorem FragmentGroup.Holds.write {seen : Finset Nat}
    (holds : group.Holds data seen) {index : Nat}
    (inside : index < fragmentCount data) (fresh : index ∉ seen)
    (few : fragmentCount data ≤ 255) :
    FragmentGroup.Holds data (insert index seen)
      { group with
        retainedBytes := group.retainedBytes + fragmentBufferSize
        data := group.data.set (UInt8.ofNat index).toNat
          (some (chunk maxFragPayload data index))
        received := group.received + 1 } := by
  have card := Finset.card_insert_of_notMem fresh
  refine ⟨holds.total, ?_, ?_, ?_⟩
  · change group.received + 1 = _
    rw [holds.received, card, UInt8.ofNat_add]
    rfl
  · change group.data.set _ _ = _
    rw [toNat_ofNat_of_le (by omega), holds.slots, set_slots _ inside]
  · change group.retainedBytes + _ = _
    rw [holds.retained, card]
    push_cast
    ring

namespace ShardedFragmentAssembler

variable {data : Bytes} {seen : Finset Nat} {index : Nat}

/-- The outcome of one delivered fragment: the packet when it completes, the
packet's own entry updated, every other entry as it was, and the counters
moved by what is retained and released. -/
structure Delivered (sfa : ShardedFragmentAssembler) (key : FragmentKey)
    (data : Bytes) (seen : Finset Nat) (index : Nat)
    (outcome : Except FragmentError (Option Bytes) × ShardedFragmentAssembler) :
    Prop where
  result : outcome.1 = .ok
    (if insert index seen = Finset.range (fragmentCount data) then some data
      else none)
  tracks : outcome.2.Tracks key data (insert index seen)
  frame : ∀ other, other ≠ key → outcome.2.lookup other = sfa.lookup other
  closed : outcome.2.closed = sfa.closed
  limits : outcome.2.maxGroups = sfa.maxGroups ∧
    outcome.2.maxBytes = sfa.maxBytes
  groups : outcome.2.retainedGroups = sfa.retainedGroups +
    (if seen = ∅ then 1 else 0) -
      if insert index seen = Finset.range (fragmentCount data) then 1 else 0
  bytes : outcome.2.retainedBytes = sfa.retainedBytes +
    (if index ∈ seen then 0 else (fragmentBufferSize : Int)) -
      if insert index seen = Finset.range (fragmentCount data) then
        ((insert index seen).card * fragmentBufferSize : Int)
      else 0

theorem reserveFragmentCapacity_of_le {current amount limit : Int}
    (room : current + amount ≤ limit) :
    reserveFragmentCapacity current amount limit = some (current + amount) :=
  if_neg (by omega)

theorem retainFragment_delivered (sfa : ShardedFragmentAssembler) (now : Int)
    (key : FragmentKey) (fragmentable : Fragmentable data)
    (known : seen ⊆ Finset.range (fragmentCount data))
    (inside : index < fragmentCount data) (fresh : index ∉ seen)
    {existing : Option FragmentGroup}
    (start : existing = none ↔ seen = ∅)
    (holds : ∀ group, existing = some group → group.Holds data seen)
    (groupRoom : sfa.retainedGroups + (if seen = ∅ then 1 else 0) ≤
      fragmentGroupLimit sfa.maxGroups)
    (byteRoom : sfa.retainedBytes + fragmentBufferSize ≤
      fragmentByteLimit sfa.maxBytes) :
    Delivered sfa key data seen index
      (sfa.retainFragment now key existing (UInt8.ofNat index)
        (UInt8.ofNat (fragmentCount data))
        (chunk maxFragPayload data index)) := by
  have grown : insert index seen ⊆ Finset.range (fragmentCount data) :=
    Finset.insert_subset (Finset.mem_range.mpr inside) known
  -- Both the group found and the group created hold the fragments seen.
  have base : FragmentGroup.Holds data seen (existing.getD
      { total := UInt8.ofNat (fragmentCount data)
        received := 0
        data := List.replicate (UInt8.ofNat (fragmentCount data)).toNat none
        createdAt := now
        retainedBytes := 0 }) := by
    cases existing with
    | none =>
      obtain rfl := start.mp rfl
      refine ⟨rfl, rfl, ?_, rfl⟩
      rw [slots_empty, Option.getD_none, toNat_ofNat_of_le fragmentable.few]
    | some group => exact holds group rfl
  have stored := base.write inside fresh fragmentable.few
  have completes := stored.complete_iff fragmentable grown
  unfold retainFragment
  extract_lets +onlyGivenNames groups
  have reserved : groups =
      some (sfa.retainedGroups + if seen = ∅ then 1 else 0) := by
    cases existing with
    | none =>
      rw [if_pos (start.mp rfl)] at groupRoom ⊢
      exact reserveFragmentCapacity_of_le groupRoom
    | some group =>
      rw [if_neg (mt start.mpr nofun), add_zero]
  have size : (chunk maxFragPayload data index).length ≤ fragmentBufferSize :=
    length_chunk_le maxFragPayload data index
  rw [reserved]
  dsimp only
  rw [if_pos size, reserveFragmentCapacity_of_le byteRoom]
  dsimp only
  by_cases full : insert index seen = Finset.range (fragmentCount data)
  · rw [if_pos (completes.mpr full)]
    refine ⟨?_, ⟨?_, ?_⟩, ?_, rfl, ⟨rfl, rfl⟩, ?_, ?_⟩
    · rw [if_pos full]
      have joined := stored
      rw [full] at joined
      rw [joined.join_eq]
    · intro _
      rw [lookup_discard, if_pos rfl]
    · intro _ partly
      exact absurd full partly
    · intro other different
      rw [lookup_discard, if_neg different]
      rfl
    · rw [if_pos full]
      rfl
    · rw [if_neg fresh, if_pos full, ← stored.retained]
      rfl
  · rw [if_neg (mt completes.mp full)]
    refine ⟨?_, ⟨?_, ?_⟩, ?_, rfl, ⟨rfl, rfl⟩, ?_, ?_⟩
    · rw [if_neg full]
    · rintro (empty | complete)
      · exact absurd empty (Finset.insert_ne_empty _ _)
      · exact absurd complete full
    · intro _ _
      exact ⟨_, by rw [lookup_store, if_pos rfl], stored⟩
    · intro other different
      rw [lookup_store, if_neg different]
      rfl
    · rw [if_neg full, sub_zero]
      rfl
    · rw [if_neg fresh, if_neg full, sub_zero]
      rfl

theorem addFragment_delivered (sfa : ShardedFragmentAssembler) (now : Int)
    (key : FragmentKey) (fragmentable : Fragmentable data)
    (isOpen : sfa.closed = false)
    (known : seen ⊆ Finset.range (fragmentCount data))
    (incomplete : seen ≠ Finset.range (fragmentCount data))
    (inside : index < fragmentCount data)
    (tracks : sfa.Tracks key data seen)
    (groupRoom : sfa.retainedGroups + (if seen = ∅ then 1 else 0) ≤
      fragmentGroupLimit sfa.maxGroups)
    (byteRoom : index ∉ seen → sfa.retainedBytes + fragmentBufferSize ≤
      fragmentByteLimit sfa.maxBytes) :
    Delivered sfa key data seen index
      (sfa.addFragment now key.sessionID key.fragID (UInt8.ofNat index)
        (UInt8.ofNat (fragmentCount data))
        (chunk maxFragPayload data index)) := by
  have accepted := fragmentable.validateFragmentInput_ok inside
  have byteIndex : (UInt8.ofNat index).toNat = index := toNat_ofNat_of_le (by
      have few := fragmentable.few
      omega)
  rw [addFragment]
  simp only [accepted, isOpen, Bool.false_eq_true, if_false]
  by_cases first : seen = ∅
  · have missing := tracks.absent (.inl first)
    have fresh : index ∉ seen := by simp [first]
    simp only [missing]
    exact retainFragment_delivered sfa now key fragmentable known inside
      fresh (iff_of_true rfl first) (by simp) groupRoom (byteRoom fresh)
  · obtain ⟨group, found, holds⟩ := tracks.present first incomplete
    have valid : validateFragmentGroup group (UInt8.ofNat index)
        (UInt8.ofNat (fragmentCount data)) = .ok () := by
      rw [validateFragmentGroup, if_neg (by simp [holds.total]), if_neg]
      rw [holds.slots, length_slots, byteIndex]
      omega
    have slot : group.data[(UInt8.ofNat index).toNat]?.join =
        if index ∈ seen then some (chunk maxFragPayload data index)
        else none := by
      rw [byteIndex, holds.slots, getElem?_slots _ inside]
      rfl
    simp only [found, valid, slot]
    by_cases duplicate : index ∈ seen
    · -- A repeated fragment changes nothing and completes nothing.
      simp only [if_pos duplicate, Option.isSome_some, if_true]
      have same := Finset.insert_eq_of_mem duplicate
      refine ⟨?_, ?_, fun _ _ => rfl, rfl, ⟨rfl, rfl⟩, ?_, ?_⟩
      · rw [same, if_neg incomplete]
      · rw [same]
        exact tracks
      · rw [same, if_neg first, if_neg incomplete, add_zero, sub_zero]
      · rw [same, if_pos duplicate, if_neg incomplete, add_zero, sub_zero]
    · simp only [if_neg duplicate, Option.isSome_none, Bool.false_eq_true,
        if_false]
      exact retainFragment_delivered sfa now key fragmentable known inside
        duplicate (iff_of_false nofun first) (by
          rintro _ ⟨⟩
          exact holds) groupRoom (byteRoom duplicate)

end ShardedFragmentAssembler

/-! ## Runs of one assembler -/

/-- One call of `FragmentUDPPooled` with fragmentation enabled, on a payload
the encoder accepts. -/
structure Packet where
  sessionID : UInt32
  epoch : UInt32
  fragmentSequence : UInt32
  data : Bytes
  fits : data.length ≤ 255 * maxFragPayload

namespace Packet

def datagrams (packet : Packet) : List Bytes :=
  match (fragmentUDPPooled packet.sessionID packet.epoch packet.data
      packet.fragmentSequence true).1 with
  | .ok datagrams => datagrams
  | .error _ => []

/-- The key under which the fragments of a packet are assembled. -/
def key (packet : Packet) : FragmentKey :=
  ⟨packet.sessionID,
    fragmentIdentity packet.epoch (packet.fragmentSequence + 1)⟩

def Fragmented (packet : Packet) : Prop := maxUDPPayload < packet.data.length

instance (packet : Packet) : Decidable packet.Fragmented :=
  inferInstanceAs (Decidable (_ < _))

variable {packet : Packet}

theorem Fragmented.fragmentable (fragmented : packet.Fragmented) :
    Fragmentable packet.data :=
  ⟨fragmented, packet.fits⟩

theorem datagrams_of_small (small : ¬ packet.Fragmented) :
    packet.datagrams = [writeUDPHeader packet.sessionID ++ packet.data] := by
  rw [datagrams, fragmentUDPPooled_small (Nat.le_of_not_lt small)]

theorem datagrams_of_fragmented (fragmented : packet.Fragmented) :
    packet.datagrams = (List.range (fragmentCount packet.data)).map
      (fragmentDatagram packet.sessionID packet.key.fragID
        (fragmentCount packet.data) packet.data) := by
  rw [datagrams, fragmentUDPPooled_fragments fragmented packet.fits]
  rfl

theorem length_datagrams_of_fragmented (fragmented : packet.Fragmented) :
    packet.datagrams.length = fragmentCount packet.data := by
  rw [datagrams_of_fragmented fragmented, List.length_map, List.length_range]

/-- The encoder accepts every packet and produces at least one datagram. -/
theorem produces (packet : Packet) :
    (fragmentUDPPooled packet.sessionID packet.epoch packet.data
        packet.fragmentSequence true).1 = .ok packet.datagrams ∧
      packet.datagrams ≠ [] := by
  by_cases fragmented : packet.Fragmented
  · refine ⟨?_, ?_⟩
    · rw [datagrams_of_fragmented fragmented,
        fragmentUDPPooled_fragments fragmented packet.fits]
      rfl
    · apply List.ne_nil_of_length_pos
      have several := fragmented.fragmentable.several
      rw [length_datagrams_of_fragmented fragmented]
      omega
  · rw [datagrams_of_small fragmented,
      fragmentUDPPooled_small (Nat.le_of_not_lt fragmented)]
    exact ⟨rfl, by simp⟩

end Packet

/-- Datagram `index` of packet `packet` arrives at time `now`. -/
structure Arrival (ι : Type*) where
  packet : ι
  index : Nat
  now : Int

section Runs

variable {ι : Type*} [DecidableEq ι] (packets : ι → Packet)

/-- The datagrams of one packet that have arrived. -/
def arrived (arrivals : List (Arrival ι)) (packet : ι) : Finset Nat :=
  (Finset.range (packets packet).datagrams.length).filter fun index =>
    ∃ arrival ∈ arrivals, arrival.packet = packet ∧ arrival.index = index

/-- All datagrams of one packet have arrived. -/
def Complete (arrivals : List (Arrival ι)) (packet : ι) : Prop :=
  ∀ index < (packets packet).datagrams.length,
    ∃ arrival ∈ arrivals, arrival.packet = packet ∧ arrival.index = index

instance (arrivals : List (Arrival ι)) (packet : ι) :
    Decidable (Complete packets arrivals packet) :=
  inferInstanceAs (Decidable (∀ _ < _, _))

/-- Datagrams of the packets in any order; none of a packet that is already
complete. -/
def Interleaving (arrivals : List (Arrival ι)) : Prop :=
  ∀ position arrival, arrivals[position]? = some arrival →
    arrival.index < (packets arrival.packet).datagrams.length ∧
    ¬ Complete packets (arrivals.take position) arrival.packet

/-- The fragmented packets of which some, but not all, datagrams have
arrived. -/
def pending (arrivals : List (Arrival ι)) : Finset ι :=
  (arrivals.map Arrival.packet).toFinset.filter fun packet =>
    arrived packets arrivals packet ≠ ∅ ∧ (packets packet).Fragmented ∧
      ¬ Complete packets arrivals packet

/-- The fragments of pending packets that have arrived. -/
def pendingFragments (arrivals : List (Arrival ι)) : Nat :=
  ∑ packet ∈ pending packets arrivals, (arrived packets arrivals packet).card

/-- The pending packets with the one that arrives, and the buffers of their
fragments, are within the limits. -/
structure Fits (maxGroups maxBackingBytes : Int) (before : List (Arrival ι))
    (arrival : Arrival ι) : Prop where
  groups : ((insert arrival.packet (pending packets before)).card : Int) ≤
    fragmentGroupLimit maxGroups
  bytes : ((∑ packet ∈ insert arrival.packet (pending packets before),
      (arrived packets (before ++ [arrival]) packet).card : Nat) : Int) *
    fragmentBufferSize ≤ fragmentByteLimit maxBackingBytes

/-- The limits of the assembler are never reached. -/
def WithinLimits (maxGroups maxBackingBytes : Int)
    (arrivals : List (Arrival ι)) : Prop :=
  ∀ position arrival, arrivals[position]? = some arrival →
    (packets arrival.packet).Fragmented →
    Fits packets maxGroups maxBackingBytes (arrivals.take position) arrival

def Arrival.datagram (arrival : Arrival ι) : Bytes :=
  (packets arrival.packet).datagrams[arrival.index]?.getD []

/-- Feed datagrams to one assembler in order and collect what
`DecodeAndAssembleUDPDatagram` returns for each. -/
def receiveDatagrams :
    Option ShardedFragmentAssembler → List (Bytes × Int) →
      List (Except FragmentError Assembled)
  | _, [] => []
  | assembler, (dgram, now) :: rest =>
    let outcome := decodeAndAssembleUDPDatagram dgram now assembler
    outcome.1 :: receiveDatagrams outcome.2 rest

/-- The results for a sequence of arrivals. -/
def deliver (sfa : ShardedFragmentAssembler) (arrivals : List (Arrival ι)) :
    List (Except FragmentError Assembled) :=
  receiveDatagrams (some sfa)
    (arrivals.map fun arrival => (arrival.datagram packets, arrival.now))

/-- What the receiver should report for an arrival, given everything that has
arrived up to and including it. -/
def report (arrivals : List (Arrival ι)) (packet : ι) : Assembled :=
  { sessionID := (packets packet).sessionID
    payload :=
      if Complete packets arrivals packet then some (packets packet).data
      else none
    complete := decide (Complete packets arrivals packet) }

/-- The `position`-th datagram belongs to `packet`, and its result reports the
packet complete. -/
def CompletesAt (arrivals : List (Arrival ι))
    (results : List (Except FragmentError Assembled)) (packet : ι)
    (position : Nat) : Prop :=
  (∃ arrival, arrivals[position]? = some arrival ∧ arrival.packet = packet) ∧
    ∃ assembled, results[position]? = some (.ok assembled) ∧
      assembled.complete = true

/-- Fragmented packets are assembled under pairwise different keys. -/
def DistinctKeys : Prop :=
  ∀ left right, (packets left).Fragmented → (packets right).Fragmented →
    (packets left).key = (packets right).key → left = right

variable {packets}

variable {arrivals : List (Arrival ι)} {packet : ι} {arrival : Arrival ι}

theorem complete_iff_arrived :
    Complete packets arrivals packet ↔ arrived packets arrivals packet =
        Finset.range (packets packet).datagrams.length := by
  simp only [arrived, Finset.filter_eq_self, Finset.mem_range]
  rfl

omit [DecidableEq ι] in
theorem Complete.mono {earlier later : List (Arrival ι)}
    (subset : ∀ arrival ∈ earlier, arrival ∈ later)
    (complete : Complete packets earlier packet) :
    Complete packets later packet := by
  intro index inside
  obtain ⟨arrival, member, matching⟩ := complete index inside
  exact ⟨arrival, subset arrival member, matching⟩

omit [DecidableEq ι] in
theorem not_complete_nil (packet : ι) :
    ¬ Complete packets ([] : List (Arrival ι)) packet := by
  intro complete
  have positive := List.length_pos_iff.mpr (packets packet).produces.2
  obtain ⟨_, member, _⟩ := complete 0 positive
  cases member

theorem arrived_append_self
    (inside : arrival.index < (packets arrival.packet).datagrams.length) :
    arrived packets (arrivals ++ [arrival]) arrival.packet =
      insert arrival.index (arrived packets arrivals arrival.packet) := by
  ext index
  simp only [arrived, Finset.mem_filter, Finset.mem_range, Finset.mem_insert,
    List.mem_append, List.mem_singleton]
  constructor
  · rintro ⟨indexInside, other, old | rfl, matching, rfl⟩
    · exact .inr ⟨indexInside, other, old, matching, rfl⟩
    · exact .inl rfl
  · rintro (rfl | ⟨indexInside, other, old, matching⟩)
    · exact ⟨inside, arrival, .inr rfl, rfl, rfl⟩
    · exact ⟨indexInside, other, .inl old, matching⟩

theorem arrived_append_of_ne (different : arrival.packet ≠ packet) :
    arrived packets (arrivals ++ [arrival]) packet =
      arrived packets arrivals packet := by
  ext index
  simp only [arrived, Finset.mem_filter, List.mem_append, List.mem_singleton]
  constructor
  · rintro ⟨inside, other, old | rfl, matching⟩
    · exact ⟨inside, other, old, matching⟩
    · exact absurd matching.1 different
  · rintro ⟨inside, other, old, matching⟩
    exact ⟨inside, other, .inl old, matching⟩

theorem mem_pending :
    packet ∈ pending packets arrivals ↔
      arrived packets arrivals packet ≠ ∅ ∧ (packets packet).Fragmented ∧
        ¬ Complete packets arrivals packet := by
  unfold pending
  rw [Finset.mem_filter, and_iff_right_iff_imp]
  rintro ⟨nonempty, _⟩
  obtain ⟨index, member⟩ := Finset.nonempty_iff_ne_empty.mpr nonempty
  obtain ⟨arrival, listed, same, _⟩ := (Finset.mem_filter.mp member).2
  exact List.mem_toFinset.mpr (List.mem_map.mpr ⟨arrival, listed, same⟩)

theorem pending_append
    (inside : arrival.index < (packets arrival.packet).datagrams.length)
    (fragmented : (packets arrival.packet).Fragmented) :
    pending packets (arrivals ++ [arrival]) =
      if Complete packets (arrivals ++ [arrival]) arrival.packet then
        (insert arrival.packet (pending packets arrivals)).erase arrival.packet
      else insert arrival.packet (pending packets arrivals) := by
  ext packet
  by_cases same : packet = arrival.packet
  · subst same
    split
    · rename_i complete
      simp [mem_pending, complete]
    · rename_i incomplete
      simp [mem_pending, incomplete, fragmented, arrived_append_self inside]
  · have kept : packet ∈ pending packets (arrivals ++ [arrival]) ↔
        packet ∈ pending packets arrivals := by
      rw [mem_pending, mem_pending, complete_iff_arrived,
        complete_iff_arrived, arrived_append_of_ne (Ne.symm same)]
    split
    · simp [kept, same]
    · simp [kept, same]

theorem card_insert_pending
    (fragmented : (packets packet).Fragmented)
    (incomplete : ¬ Complete packets arrivals packet) :
    ((insert packet (pending packets arrivals)).card : Int) =
      (pending packets arrivals).card +
        if arrived packets arrivals packet = ∅ then 1 else 0 := by
  by_cases first : arrived packets arrivals packet = ∅
  · have absent : packet ∉ pending packets arrivals :=
      fun member => (mem_pending.mp member).1 first
    rw [if_pos first, Finset.card_insert_of_notMem absent]
    rfl
  · have member := mem_pending.mpr ⟨first, fragmented, incomplete⟩
    rw [if_neg first, Finset.insert_eq_of_mem member, add_zero]

theorem sum_arrived_append
    (inside : arrival.index < (packets arrival.packet).datagrams.length)
    (fragmented : (packets arrival.packet).Fragmented)
    (incomplete : ¬ Complete packets arrivals arrival.packet) :
    ((∑ packet ∈ insert arrival.packet (pending packets arrivals),
        (arrived packets (arrivals ++ [arrival]) packet).card : Nat) : Int) =
      pendingFragments packets arrivals +
        if arrival.index ∈ arrived packets arrivals arrival.packet then 0
        else 1 := by
  have others : ∑ packet ∈ (pending packets arrivals).erase arrival.packet,
        (arrived packets (arrivals ++ [arrival]) packet).card =
      ∑ packet ∈ (pending packets arrivals).erase arrival.packet,
        (arrived packets arrivals packet).card := by
    apply Finset.sum_congr rfl
    intro packet member
    rw [arrived_append_of_ne (Finset.ne_of_mem_erase member).symm]
  have before : pendingFragments packets arrivals =
      (arrived packets arrivals arrival.packet).card +
        ∑ packet ∈ (pending packets arrivals).erase arrival.packet,
          (arrived packets arrivals packet).card := by
    unfold pendingFragments
    by_cases member : arrival.packet ∈ pending packets arrivals
    · exact (Finset.add_sum_erase _ _ member).symm
    · have none : arrived packets arrivals arrival.packet = ∅ := by
        by_contra some_
        exact member (mem_pending.mpr ⟨some_, fragmented, incomplete⟩)
      rw [Finset.erase_eq_of_notMem member, none, Finset.card_empty, zero_add]
  rw [← Finset.add_sum_erase _ _ (Finset.mem_insert_self _ _),
    Finset.erase_insert_eq_erase, others, before, arrived_append_self inside]
  split
  · rename_i duplicate
    rw [Finset.insert_eq_of_mem duplicate, add_zero]
  · rename_i fresh
    rw [Finset.card_insert_of_notMem fresh]
    push_cast
    ring

variable (packets) in
/-- The assembler holds exactly what the arrivals so far left incomplete. -/
structure Represents (maxGroups maxBackingBytes : Int)
    (arrivals : List (Arrival ι)) (sfa : ShardedFragmentAssembler) :
    Prop where
  isOpen : sfa.closed = false
  limits : sfa.maxGroups = maxGroups ∧ sfa.maxBytes = maxBackingBytes
  groups : sfa.retainedGroups = (pending packets arrivals).card
  bytes : sfa.retainedBytes =
    pendingFragments packets arrivals * fragmentBufferSize
  tracks : ∀ packet, (packets packet).Fragmented →
    sfa.Tracks (packets packet).key (packets packet).data
      (arrived packets arrivals packet)

variable {maxGroups maxBackingBytes : Int}

theorem represents_new (hash : FragmentKey → Nat) (shardCount : Int) :
    Represents packets maxGroups maxBackingBytes []
      (ShardedFragmentAssembler.new hash shardCount maxGroups
        maxBackingBytes) := by
  refine ⟨rfl, ⟨rfl, rfl⟩, rfl, ?_, fun packet _ => ⟨fun _ => rfl,
    fun nonempty => ?_⟩⟩
  · exact (zero_mul _).symm
  · exact absurd (by simp [arrived]) nonempty

private theorem decodeAndAssemble_fragment {dgram : Bytes}
    {parsed : UDPDatagram} (now : Int) (sfa : ShardedFragmentAssembler)
    (decoded : decodeUDPDatagram dgram = .ok parsed)
    (fragmented : parsed.isFragmented = true) :
    decodeAndAssembleUDPDatagram dgram now (some sfa) =
      let outcome := sfa.addFragment now parsed.sessionID parsed.fragmentID
        parsed.fragmentIndex parsed.fragmentTotal parsed.payload
      (outcome.1.map fun payload =>
        ⟨parsed.sessionID, payload, payload.isSome⟩, some outcome.2) := by
  simp only [decodeAndAssembleUDPDatagram, decoded, fragmented,
    Bool.true_eq_false, if_false]
  split <;> rename_i outcomeEq <;> rw [outcomeEq] <;> rfl

variable {before : List (Arrival ι)} {sfa : ShardedFragmentAssembler}

/-- One fragment of a packet that is still incomplete: the receiver reports
the packet exactly if it is complete now, and the representation moves on. -/
private theorem decodeAndAssemble_fragmented_step
    (distinct : DistinctKeys packets)
    (represents : Represents packets maxGroups maxBackingBytes before sfa)
    (arrival : Arrival ι)
    (fragmented : (packets arrival.packet).Fragmented)
    (inside : arrival.index < (packets arrival.packet).datagrams.length)
    (incomplete : ¬ Complete packets before arrival.packet)
    (fits : Fits packets maxGroups maxBackingBytes before arrival) :
    ∃ next, decodeAndAssembleUDPDatagram (arrival.datagram packets) arrival.now
          (some sfa) =
        (.ok (report packets (before ++ [arrival]) arrival.packet), some next) ∧
      Represents packets maxGroups maxBackingBytes (before ++ [arrival])
        next := by
  have count := Packet.length_datagrams_of_fragmented fragmented
  have indexInside : arrival.index <
      fragmentCount (packets arrival.packet).data := by
    rwa [← count]
  have payload : arrival.datagram packets =
      fragmentDatagram (packets arrival.packet).sessionID
        (packets arrival.packet).key.fragID
        (fragmentCount (packets arrival.packet).data)
        (packets arrival.packet).data arrival.index := by
    rw [Arrival.datagram, Packet.datagrams_of_fragmented fragmented]
    simp [indexInside]
  have parsed := decodeUDPDatagram_fragmentDatagram
    (packets arrival.packet).sessionID (packets arrival.packet).key.fragID
    fragmented (packets arrival.packet).fits indexInside
  rw [payload, decodeAndAssemble_fragment arrival.now sfa parsed rfl]
  have groups := card_insert_pending fragmented incomplete
  have fragments := sum_arrived_append inside fragmented incomplete
  have delivered := sfa.addFragment_delivered arrival.now
    (packets arrival.packet).key fragmented.fragmentable represents.isOpen
    (by
      rw [arrived, ← count]
      exact Finset.filter_subset _ _)
    (by rwa [← count, Ne, ← complete_iff_arrived])
    indexInside (represents.tracks arrival.packet fragmented)
    (by
      rw [represents.groups, represents.limits.1, ← groups]
      exact fits.groups)
    (by
      intro fresh
      have room := fits.bytes
      rw [fragments, if_neg fresh, add_mul, one_mul] at room
      rw [represents.bytes, represents.limits.2]
      exact room)
  have completeIff : Complete packets (before ++ [arrival]) arrival.packet ↔
      insert arrival.index (arrived packets before arrival.packet) =
        Finset.range (fragmentCount (packets arrival.packet).data) := by
    rw [complete_iff_arrived, arrived_append_self inside, count]
  have becomes : pending packets (before ++ [arrival]) = _ :=
    pending_append inside fragmented
  have member := Finset.mem_insert_self arrival.packet (pending packets before)
  refine ⟨_, Prod.ext ?_ rfl, ?_, ?_, ?_, ?_, ?_⟩
  · refine (congrArg (Except.map _) delivered.result).trans ?_
    by_cases complete : Complete packets (before ++ [arrival]) arrival.packet
    · simp [report, complete, completeIff.mp complete, Except.map]
    · simp [report, complete, mt completeIff.mpr complete, Except.map]
  · exact delivered.closed.trans represents.isOpen
  · exact ⟨delivered.limits.1.trans represents.limits.1,
      delivered.limits.2.trans represents.limits.2⟩
  · refine delivered.groups.trans ?_
    rw [represents.groups, ← groups, becomes]
    by_cases complete : Complete packets (before ++ [arrival]) arrival.packet
    · have released := Finset.card_erase_add_one member
      rw [if_pos (completeIff.mp complete), if_pos complete]
      omega
    · rw [if_neg (mt completeIff.mpr complete), if_neg complete, sub_zero]
  · refine delivered.bytes.trans ?_
    have held : (pendingFragments packets before * fragmentBufferSize +
        if arrival.index ∈ arrived packets before arrival.packet then 0
        else (fragmentBufferSize : Int)) = (pendingFragments packets before +
          if arrival.index ∈ arrived packets before arrival.packet then 0
          else 1) * (fragmentBufferSize : Int) := by
      split <;> ring
    rw [represents.bytes, held, ← fragments]
    have after : pendingFragments packets (before ++ [arrival]) =
      ∑ packet ∈ pending packets (before ++ [arrival]), _ := rfl
    rw [after, becomes]
    by_cases complete : Complete packets (before ++ [arrival]) arrival.packet
    · rw [if_pos (completeIff.mp complete), if_pos complete,
        ← arrived_append_self inside, ← Finset.add_sum_erase _ _ member]
      push_cast
      ring
    · rw [if_neg (mt completeIff.mpr complete), if_neg complete, sub_zero]
  · intro packet packetFragmented
    by_cases same : arrival.packet = packet
    · subst same
      rw [arrived_append_self inside]
      exact delivered.tracks
    -- Another packet's entry is looked up under another key.
    have otherKey : (packets packet).key ≠ (packets arrival.packet).key := by
      intro keys
      exact same (distinct _ _ packetFragmented fragmented keys).symm
    have unchanged := delivered.frame _ otherKey
    have tracks := represents.tracks packet packetFragmented
    rw [arrived_append_of_ne same]
    refine ⟨fun none => ?_, fun nonempty partly => ?_⟩
    · exact unchanged.trans (tracks.absent none)
    · obtain ⟨group, found, holds⟩ := tracks.present nonempty partly
      exact ⟨group, unchanged.trans found, holds⟩

private theorem decodeAndAssemble_small_step
    (represents : Represents packets maxGroups maxBackingBytes before sfa)
    (arrival : Arrival ι)
    (small : ¬ (packets arrival.packet).Fragmented)
    (inside : arrival.index < (packets arrival.packet).datagrams.length) :
    decodeAndAssembleUDPDatagram (arrival.datagram packets) arrival.now
        (some sfa) =
      (.ok (report packets (before ++ [arrival]) arrival.packet), some sfa) ∧
      Represents packets maxGroups maxBackingBytes (before ++ [arrival])
        sfa := by
  have single := Packet.datagrams_of_small small
  have first : arrival.index = 0 := by
    rw [single] at inside
    simpa using inside
  have payload : arrival.datagram packets =
      writeUDPHeader (packets arrival.packet).sessionID ++
        (packets arrival.packet).data := by
    rw [Arrival.datagram, single, first]
    rfl
  have complete : Complete packets (before ++ [arrival]) arrival.packet := by
    intro index indexInside
    rw [single] at indexInside
    have zero : index = 0 := by simpa using indexInside
    exact ⟨arrival, by simp, rfl, first.trans zero.symm⟩
  have kept : ∀ packet, (packets packet).Fragmented →
      arrived packets (before ++ [arrival]) packet =
        arrived packets before packet := by
    intro packet packetFragmented
    apply arrived_append_of_ne
    rintro rfl
    exact small packetFragmented
  have same : pending packets (before ++ [arrival]) =
      pending packets before := by
    ext packet
    simp only [mem_pending, complete_iff_arrived]
    constructor
    · rintro ⟨nonempty, packetFragmented, partly⟩
      rw [kept packet packetFragmented] at nonempty partly
      exact ⟨nonempty, packetFragmented, partly⟩
    · rintro ⟨nonempty, packetFragmented, partly⟩
      rw [← kept packet packetFragmented] at nonempty partly
      exact ⟨nonempty, packetFragmented, partly⟩
  refine ⟨?_, represents.isOpen, represents.limits, ?_, ?_, ?_⟩
  · rw [payload, decodeAndAssembleUDPDatagram, decodeUDPDatagram_normal _
      (Nat.le_of_not_lt small)]
    simp [report, complete]
  · rw [same]
    exact represents.groups
  · have fragments : pendingFragments packets (before ++ [arrival]) =
        pendingFragments packets before := by
      unfold pendingFragments
      rw [same]
      apply Finset.sum_congr rfl
      intro packet member
      rw [kept packet (mem_pending.mp member).2.1]
    rw [fragments]
    exact represents.bytes
  · intro packet packetFragmented
    rw [kept packet packetFragmented]
    exact represents.tracks packet packetFragmented

theorem decodeAndAssemble_step (distinct : DistinctKeys packets)
    (represents : Represents packets maxGroups maxBackingBytes before sfa)
    (arrival : Arrival ι)
    (inside : arrival.index < (packets arrival.packet).datagrams.length)
    (incomplete : ¬ Complete packets before arrival.packet)
    (fits : (packets arrival.packet).Fragmented →
      Fits packets maxGroups maxBackingBytes before arrival) :
    ∃ next, decodeAndAssembleUDPDatagram (arrival.datagram packets) arrival.now
          (some sfa) =
        (.ok (report packets (before ++ [arrival]) arrival.packet), some next) ∧
      Represents packets maxGroups maxBackingBytes (before ++ [arrival])
        next := by
  by_cases fragmented : (packets arrival.packet).Fragmented
  · exact decodeAndAssemble_fragmented_step distinct represents arrival
      fragmented inside incomplete (fits fragmented)
  · exact ⟨sfa, decodeAndAssemble_small_step represents arrival fragmented
      inside⟩

/-- The results of a whole run, one report for each arrival. -/
theorem deliver_reports (distinct : DistinctKeys packets)
    (before : List (Arrival ι))
    (represents : Represents packets maxGroups maxBackingBytes before sfa)
    (arrivals : List (Arrival ι))
    (interleaving : ∀ position arrival, arrivals[position]? = some arrival →
      arrival.index < (packets arrival.packet).datagrams.length ∧
      ¬ Complete packets (before ++ arrivals.take position) arrival.packet)
    (within : ∀ position arrival, arrivals[position]? = some arrival →
      (packets arrival.packet).Fragmented →
      Fits packets maxGroups maxBackingBytes
        (before ++ arrivals.take position) arrival) :
    ∀ (position : Nat) (arrival : Arrival ι),
      arrivals[position]? = some arrival →
      (deliver packets sfa arrivals)[position]? = some (.ok (report packets
          (before ++ arrivals.take (position + 1)) arrival.packet)) := by
  induction arrivals generalizing before sfa with
  | nil => simp
  | cons head tail ih =>
    obtain ⟨inside, incomplete⟩ := interleaving 0 head rfl
    obtain ⟨next, outcome, nextRepresents⟩ :=
      decodeAndAssemble_step distinct represents head inside
        (by simpa using incomplete)
        (by simpa using within 0 head rfl)
    have unfolded : deliver packets sfa (head :: tail) =
        .ok (report packets (before ++ [head]) head.packet) ::
          deliver packets next tail := by
      simp only [deliver, List.map_cons, receiveDatagrams, outcome]
    rw [unfolded]
    intro position arrival found
    cases position with
    | zero =>
      obtain rfl : head = arrival := by simpa using found
      simp
    | succ position =>
      have rest := ih (before ++ [head]) nextRepresents
        (by
          intro later laterArrival laterFound
          simpa using interleaving (later + 1) laterArrival
            (by simpa using laterFound))
        (by
          intro later laterArrival laterFound
          simpa using within (later + 1) laterArrival
            (by simpa using laterFound))
        position arrival (by simpa using found)
      simpa using rest

/-- A packet all of whose datagrams arrive has one arrival that makes it
complete. -/
theorem exists_completing_arrival
    (complete : Complete packets arrivals packet) :
    ∃ position arrival, arrivals[position]? = some arrival ∧
      arrival.packet = packet ∧
      Complete packets (arrivals.take (position + 1)) packet := by
  induction arrivals using List.reverseRecOn with
  | nil => exact absurd complete (not_complete_nil packet)
  | append_singleton arrivals last ih =>
    by_cases earlier : Complete packets arrivals packet
    · obtain ⟨position, arrival, found, same, done⟩ := ih earlier
      have inside : position < arrivals.length :=
        (List.getElem?_eq_some_iff.mp found).1
      refine ⟨position, arrival, ?_, same, ?_⟩
      · rw [List.getElem?_append_left inside, found]
      · rwa [List.take_append_of_le_length inside]
    · refine ⟨arrivals.length, last, by simp, ?_, ?_⟩
      · by_contra different
        rw [complete_iff_arrived, arrived_append_of_ne different,
          ← complete_iff_arrived] at complete
        exact earlier complete
      · rwa [List.take_of_length_le (by simp)]

omit [DecidableEq ι] in
theorem length_receiveDatagrams (assembler : Option ShardedFragmentAssembler)
    (datagrams : List (Bytes × Int)) :
    (receiveDatagrams assembler datagrams).length = datagrams.length := by
  induction datagrams generalizing assembler with
  | nil => rfl
  | cons head tail ih => simp [receiveDatagrams, ih]

/-- Fragmentation round trip.  In every interleaving of the datagrams of any
packets, in which fragments of incomplete packets may repeat and the limits of
the assembler are not reached, each arrival is answered with its packet if that
packet has just become complete and with no payload otherwise; a packet whose
datagrams all arrive is reported at exactly one of them.  Everything the encoder
produces fits a datagram and is accepted by the decoder, and what it refuses
leaves the fragment counter alone. -/
theorem fragment_round_trip (packets : ι → Packet)
    (distinct : DistinctKeys packets) (hash : FragmentKey → Nat)
    (shardCount maxGroups maxBackingBytes : Int)
    (arrivals : List (Arrival ι))
    (interleaving : Interleaving packets arrivals)
    (within : WithinLimits packets maxGroups maxBackingBytes arrivals) :
    let results :=
      deliver packets (.new hash shardCount maxGroups maxBackingBytes) arrivals
    (∀ packet,
      (fragmentUDPPooled (packets packet).sessionID (packets packet).epoch
          (packets packet).data (packets packet).fragmentSequence true).1 =
        .ok (packets packet).datagrams ∧ (packets packet).datagrams ≠ []) ∧
    results.length = arrivals.length ∧
    (∀ (position : Nat) (arrival : Arrival ι),
      arrivals[position]? = some arrival →
      results[position]? = some (.ok (report packets
        (arrivals.take (position + 1)) arrival.packet))) ∧
    (∀ packet, Complete packets arrivals packet →
      ∃! position, CompletesAt arrivals results packet position) ∧
    (∀ (sessionID epoch : UInt32) (data : Bytes) (fragmentSequence : UInt32)
        (enableFragmentation : Bool) (datagrams : List Bytes),
      (fragmentUDPPooled sessionID epoch data fragmentSequence
        enableFragmentation).1 = .ok datagrams →
      ∀ dgram ∈ datagrams, dgram.length ≤ maxDatagramSize ∧
        ∃ parsed, decodeUDPDatagram dgram = .ok parsed) ∧
    (∀ (sessionID epoch : UInt32) (data : Bytes) (fragmentSequence : UInt32),
      (255 * maxFragPayload < data.length →
        fragmentUDPPooled sessionID epoch data fragmentSequence true =
          (.error .packetTooLarge, fragmentSequence)) ∧
      (maxUDPPayload < data.length →
        fragmentUDPPooled sessionID epoch data fragmentSequence false =
          (.error .fragmentationDisabled, fragmentSequence))) := by
  intro results
  have reports := deliver_reports distinct []
    (represents_new hash shardCount) arrivals interleaving within
  have completesAt_iff : ∀ packet position,
      CompletesAt arrivals results packet position ↔
        (∃ arrival, arrivals[position]? = some arrival ∧
          arrival.packet = packet) ∧
        Complete packets (arrivals.take (position + 1)) packet := by
    intro packet position
    constructor
    · rintro ⟨⟨arrival, found, rfl⟩, assembled, result, complete⟩
      rw [reports position arrival found] at result
      cases result
      exact ⟨⟨arrival, found, rfl⟩, of_decide_eq_true complete⟩
    · rintro ⟨⟨arrival, found, rfl⟩, complete⟩
      exact ⟨⟨arrival, found, rfl⟩, _, reports position arrival found,
        decide_eq_true complete⟩
  refine ⟨fun packet => (packets packet).produces, ?_, reports, ?_,
    fun _ _ _ _ _ _ => fragmentUDPPooled_wellFormed,
    fun _ _ _ _ => ⟨fragmentUDPPooled_tooLarge, fragmentUDPPooled_disabled⟩⟩
  · simp [results, deliver, length_receiveDatagrams]
  · intro packet complete
    obtain ⟨position, arrival, found, same, done⟩ :=
      exists_completing_arrival complete
    refine ⟨position, (completesAt_iff _ _).mpr ⟨⟨arrival, found, same⟩, done⟩,
      ?_⟩
    intro other otherCompletes
    obtain ⟨⟨otherArrival, otherFound, otherSame⟩, otherDone⟩ :=
      (completesAt_iff _ _).mp otherCompletes
    -- A later completing arrival would come after the packet was complete.
    rcases Nat.lt_trichotomy other position with before | equal | after
    · exact absurd (otherDone.mono fun _ member =>
        List.take_subset_take_left arrivals before member)
        (same ▸ (interleaving position arrival found).2)
    · exact equal
    · exact absurd (done.mono fun _ member =>
        List.take_subset_take_left arrivals after member)
        (otherSame ▸ (interleaving other otherArrival otherFound).2)

end Runs

/-- A packet of two fragments and a packet of one datagram. -/
def samplePackets : Bool → Packet
  | true => ⟨7, 1, 0, List.replicate 1196 0xab, by
      rw [List.length_replicate]
      decide⟩
  | false => ⟨7, 1, 0, [1, 2, 3], by decide⟩

def sampleArrivals : List (Arrival Bool) :=
  [⟨true, 1, 0⟩, ⟨false, 0, 1⟩, ⟨true, 1, 2⟩, ⟨true, 0, 3⟩]

theorem fragment_round_trip_sample :
    Interleaving samplePackets sampleArrivals ∧
    WithinLimits samplePackets 1 2400 sampleArrivals ∧
    ∃! position, CompletesAt sampleArrivals
      (deliver samplePackets (.new (fun _ => 0) 4 1 2400) sampleArrivals)
      true position := by
  have interleaving : Interleaving samplePackets sampleArrivals := by
    intro position arrival found
    rcases position with _ | _ | _ | _ | position
    all_goals cases found
    all_goals decide +kernel
  have within : WithinLimits samplePackets 1 2400 sampleArrivals := by
    intro position arrival found fragmented
    rcases position with _ | _ | _ | _ | position
    all_goals cases found
    · exact ⟨by decide +kernel, by decide +kernel⟩
    · exact absurd fragmented (by decide +kernel)
    · exact ⟨by decide +kernel, by decide +kernel⟩
    · exact ⟨by decide +kernel, by decide +kernel⟩
  have distinct : DistinctKeys samplePackets := by
    intro left right leftFragmented rightFragmented _
    revert left right
    decide +kernel
  refine ⟨interleaving, within, ?_⟩
  exact (fragment_round_trip samplePackets distinct (fun _ => 0) 4 1 2400
    sampleArrivals interleaving within).2.2.2.1 true (by decide +kernel)

end QMux.Protocol
