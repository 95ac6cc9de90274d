import QMux.Protocol.UDPAssembler
import QMux.Protocol.UDPFragmentGroups
import QMux.Support.Cells

/-!
# What one action of a call does

The groups an assembler holds are weighed shard by shard.  A call owes what
it has reserved and not yet put into a group, or taken out of a group and
not yet given back.  Each action of a call keeps counter, held weight and
debt in balance, touches no key but its own, and keeps the group of its key
made of the first fragment offered for each index.
-/

namespace QMux.Protocol

open Function Support ShardedFragmentAssembler

/-! ## The weight of the held groups -/

namespace ShardedFragmentAssembler

variable {sfa : ShardedFragmentAssembler} {key other : FragmentKey}
  {group old : FragmentGroup}

/-- The groups of all shards, each counted with its weight. -/
def held (weight : FragmentGroup → Int) (sfa : ShardedFragmentAssembler) :
    Int :=
  ∑ shard ∈ Finset.range sfa.shardCount,
    ((sfa.shards shard).values.map weight).sum

/-- The number of groups held. -/
def heldGroups (sfa : ShardedFragmentAssembler) : Int :=
  ∑ shard ∈ Finset.range sfa.shardCount, ((sfa.shards shard).size : Int)

/-- The sum of the retained sizes of the groups held. -/
def heldBytes (sfa : ShardedFragmentAssembler) : Int :=
  sfa.held FragmentGroup.retainedBytes

theorem size_eq_sum (shard : FiniteMap FragmentKey FragmentGroup) :
    (shard.size : Int) = (shard.values.map fun _ => (1 : Int)).sum := by
  rw [Multiset.map_const', Multiset.sum_replicate, FiniteMap.card_values]
  simp

theorem heldGroups_eq : sfa.heldGroups = sfa.held fun _ => 1 := by
  unfold heldGroups held
  simp only [size_eq_sum]

theorem lookup_remove : (sfa.remove key).lookup other =
    if other = key then none else sfa.lookup other :=
  @lookup_discard sfa key other (newFragmentGroup 0 0)

variable (weight : FragmentGroup → Int)

variable (positive : 0 < sfa.shardCount)

include positive

theorem held_update (key : FragmentKey)
    (shard : FiniteMap FragmentKey FragmentGroup) :
    held weight { sfa with
        shards := Function.update sfa.shards (sfa.shardIndex key) shard } =
      sfa.held weight -
        ((sfa.shards (sfa.shardIndex key)).values.map weight).sum +
        (shard.values.map weight).sum :=
  sum_range_update (fun shard : FiniteMap FragmentKey FragmentGroup =>
    (shard.values.map weight).sum) sfa.shards
    (Nat.mod_lt (sfa.hash key) positive) shard

theorem held_remove (found : sfa.lookup key = some group) :
    (sfa.remove key).held weight = sfa.held weight - weight group := by
  have split := FiniteMap.values_of_present found
  unfold remove
  rw [held_update weight positive, split, Multiset.map_cons, Multiset.sum_cons]
  omega

theorem held_store_absent (absent : sfa.lookup key = none) :
    (sfa.store key group).held weight = sfa.held weight + weight group := by
  unfold store
  rw [held_update weight positive, FiniteMap.values_put_of_absent group absent,
    Multiset.map_cons, Multiset.sum_cons]
  omega

theorem held_store_present (found : sfa.lookup key = some old) :
    (sfa.store key group).held weight =
      sfa.held weight - weight old + weight group := by
  have split := FiniteMap.values_of_present found
  have absent : ((sfa.shards (sfa.shardIndex key)).delete key).get key =
      none := FiniteMap.get_delete_self _ _
  have overwritten : (sfa.shards (sfa.shardIndex key)).put key group =
      ((sfa.shards (sfa.shardIndex key)).delete key).put key group := by
    ext1 other
    rw [FiniteMap.get_put, FiniteMap.get_put, FiniteMap.get_delete]
    split <;> rfl
  unfold store
  rw [held_update weight positive, overwritten,
    FiniteMap.values_put_of_absent group absent, split, Multiset.map_cons,
    Multiset.map_cons, Multiset.sum_cons, Multiset.sum_cons]
  omega

end ShardedFragmentAssembler

/-! ## Groups and the fragments offered for them -/

/-- The payload first offered for an index. -/
def firstOffer (offers : List (Nat × Bytes)) (index : Nat) : Option Bytes :=
  (offers.find? fun offer => offer.1 = index).map Prod.snd

theorem firstOffer_append (offers : List (Nat × Bytes))
    (offer : Nat × Bytes) (index : Nat) :
    firstOffer (offers ++ [offer]) index = (firstOffer offers index).or
        (if offer.1 = index then some offer.2 else none) := by
  unfold firstOffer
  rw [List.find?_append]
  cases offers.find? fun offer => offer.1 = index with
  | some found => rfl
  | none => by_cases same : offer.1 = index <;> simp [same]

theorem firstOffer_append_of_some {offers : List (Nat × Bytes)}
    {index : Nat} {payload : Bytes}
    (first : firstOffer offers index = some payload)
    (offer : Nat × Bytes) :
    firstOffer (offers ++ [offer]) index = some payload := by
  rw [firstOffer_append, first]
  rfl

namespace FragmentGroup

variable {group : FragmentGroup} {offers : List (Nat × Bytes)}

/-- `payload` is the first fragment offered for `index`. -/
def IsFirst (offers : List (Nat × Bytes)) (_total : UInt8) (index : Nat)
    (payload : Bytes) : Prop :=
  firstOffer offers index = some payload

/-- An incomplete group made of the first fragment offered for each index. -/
structure Gathers (offers : List (Nat × Bytes)) (group : FragmentGroup) :
    Prop where
  collects : group.Collects (IsFirst offers)
  vacant : ∀ index, index < group.total.toNat →
    group.data[index]?.join = none → firstOffer offers index = none
  retains : 0 ≤ group.retainedBytes

theorem Gathers.duplicate (gathers : group.Gathers offers)
    {offer : Nat × Bytes} (held : (group.data[offer.1]?.join).isSome) :
    group.Gathers (offers ++ [offer]) := by
  refine ⟨?_, ?_, gathers.retains⟩
  · apply gathers.collects.mono
    intro index payload first
    exact firstOffer_append_of_some first offer
  · intro index inside empty
    rw [firstOffer_append, gathers.vacant index inside empty]
    have different : offer.1 ≠ index := by
      intro same
      rw [same, empty] at held
      cases held
    rw [if_neg different]
    rfl

end FragmentGroup

namespace AddCall

variable {call : AddCall} {existing : Option FragmentGroup} {now : Int}
  {offers : List (Nat × Bytes)}

theorem fragmentRetainedBytes_nonneg (payload : Bytes) :
    0 ≤ fragmentRetainedBytes payload := by
  unfold fragmentRetainedBytes
  split <;> omega

/-- What a call knows of the group it found when it comes to store. -/
structure Fits (call : AddCall) (existing : Option FragmentGroup) : Prop where
  inside : call.index < call.total
  several : 2 ≤ call.total.toNat
  same : ∀ group, existing = some group → group.total = call.total
  vacant : ∀ group, existing = some group →
    group.data[call.index.toNat]?.join = none

variable (fits : call.Fits existing)

include fits

variable (gathers : ∀ group, existing = some group → group.Gathers offers)

include gathers

theorem Fits.base (fresh : existing = none → offers = []) (now : Int) :
    (existing.getD (newFragmentGroup call.total now)).Gathers offers ∧
      (existing.getD (newFragmentGroup call.total now)).total = call.total ∧
      (existing.getD (newFragmentGroup call.total now)).data[
        call.index.toNat]?.join = none := by
  have inside : call.index.toNat < call.total.toNat := fits.inside
  cases existing with
  | some group =>
    exact ⟨gathers group rfl, fits.same group rfl, fits.vacant group rfl⟩
  | none =>
    rw [fresh rfl]
    refine ⟨⟨?_, fun _ _ _ => rfl, Int.le_refl 0⟩, rfl, ?_⟩
    · exact FragmentGroup.collects_empty (Nat.zero_lt_of_lt inside) _ _
    · change (List.replicate call.total.toNat none)[_]?.join = none
      rw [List.getElem?_replicate, if_pos inside]
      rfl

theorem Fits.first (fresh : existing = none → offers = []) :
    firstOffer (offers ++ [call.offer]) call.index.toNat =
      some call.payload := by
  obtain ⟨group, total, vacant⟩ := fits.base gathers fresh 0
  have inside : call.index.toNat < call.total.toNat := fits.inside
  have none := group.vacant call.index.toNat
    (Nat.lt_of_lt_of_eq inside (congrArg UInt8.toNat total).symm) vacant
  rw [firstOffer_append, none]
  exact if_pos rfl

theorem Fits.still (fresh : existing = none → offers = []) (now : Int) :
    (existing.getD (newFragmentGroup call.total now)).Collects
      (FragmentGroup.IsFirst (offers ++ [call.offer])) := by
  obtain ⟨group, _, _⟩ := fits.base gathers fresh now
  apply group.collects.mono
  intro index payload first
  exact firstOffer_append_of_some first call.offer

theorem Fits.extended_gathers (fresh : existing = none → offers = [])
    (incomplete : (call.extended now existing).received ≠
      (call.extended now existing).total) :
    (call.extended now existing).Gathers (offers ++ [call.offer]) := by
  obtain ⟨group, total, vacant⟩ := fits.base gathers fresh now
  have inside : call.index.toNat <
      (existing.getD (newFragmentGroup call.total now)).data.length := by
    rw [group.collects.slots, total]
    exact fits.inside
  refine ⟨?_, ?_, ?_⟩
  · exact (fits.still gathers fresh now).write inside vacant
      (fits.first gathers fresh) incomplete
  · intro index bound empty
    change ((existing.getD _).data.set call.index.toNat
      (some call.payload))[index]?.join = none at empty
    rw [List.getElem?_set] at empty
    by_cases same : call.index.toNat = index
    · rw [if_pos same, if_pos inside] at empty
      cases empty
    · rw [if_neg same] at empty
      rw [firstOffer_append, group.vacant index bound empty]
      exact if_neg same
  · have old := group.retains
    have added := fragmentRetainedBytes_nonneg call.payload
    change 0 ≤ _ + fragmentRetainedBytes call.payload
    omega

theorem Fits.extended_joins (fresh : existing = none → offers = [])
    (complete : (call.extended now existing).received =
      (call.extended now existing).total) :
    FragmentGroup.Joins (FragmentGroup.IsFirst (offers ++ [call.offer]))
      call.total (joinFragmentGroup (call.extended now existing)) := by
  obtain ⟨group, total, vacant⟩ := fits.base gathers fresh now
  have inside : call.index.toNat <
      (existing.getD (newFragmentGroup call.total now)).data.length := by
    rw [group.collects.slots, total]
    exact fits.inside
  have joins := (fits.still gathers fresh now).join inside vacant
    (fits.first gathers fresh) complete
  rw [total] at joins
  exact joins

end AddCall

/-! ## Debts -/

namespace CallPhase

/-- Groups counted for a call beyond those held. -/
def owedGroups : CallPhase → Int
  | .groupReserved none | .bytesReserved none | .refundGroup
  | .owing _ _ => 1
  | _ => 0

/-- Bytes counted for a call beyond those held. -/
def owedBytes (payload : Bytes) : CallPhase → Int
  | .bytesReserved _ => fragmentRetainedBytes payload
  | .owing _ group => group.retainedBytes
  | .owingBytes _ bytes => bytes
  | _ => 0

end CallPhase

/-- The phase of a call fits the groups. -/
def AddCall.Ready (store : AssemblerStore) (call : AddCall) : Prop :=
  match call.phase with
  | .begun | .refundGroup | .returned _ => True
  | .validated | .entered =>
    call.index < call.total ∧ 2 ≤ call.total.toNat
  | .locked existing | .groupReserved existing | .bytesReserved existing =>
    call.Fits existing ∧ store.sfa.lookup call.key = existing
  | .owing _ group => 0 ≤ group.retainedBytes
  | .owingBytes _ bytes => 0 ≤ bytes

theorem AddCall.Ready.congr {before after : AssemblerStore} {call : AddCall}
    (ready : call.Ready before)
    (same : call.phase.holdsShard = true →
      after.sfa.lookup call.key = before.sfa.lookup call.key) :
    call.Ready after := by
  unfold AddCall.Ready at ready ⊢
  cases phase : call.phase <;> rw [phase] at ready same
  case locked | groupReserved | bytesReserved =>
      exact ⟨ready.1, (same rfl).trans ready.2⟩
  all_goals exact ready

/-- The groups of a key fit the fragments offered for it. -/
structure AssemblerStore.Gathered (store : AssemblerStore)
    (key : FragmentKey) : Prop where
  gathers : ∀ group, store.sfa.lookup key = some group →
    group.Gathers (store.offers key)
  fresh : store.sfa.lookup key = none → store.offers key = []

/-- Only shards, counters and drop counts differ. -/
structure ShardedFragmentAssembler.SameSetup
    (before after : ShardedFragmentAssembler) : Prop where
  hash : after.hash = before.hash
  shardCount : after.shardCount = before.shardCount
  maxGroups : after.maxGroups = before.maxGroups
  maxBytes : after.maxBytes = before.maxBytes
  closed : after.closed = before.closed

theorem ShardedFragmentAssembler.SameSetup.refl
    (sfa : ShardedFragmentAssembler) : sfa.SameSetup sfa :=
  ⟨rfl, rfl, rfl, rfl, rfl⟩

/-- The counters are within their limits. -/
structure ShardedFragmentAssembler.Within (sfa : ShardedFragmentAssembler) :
    Prop where
  groups : sfa.retainedGroups ≤ fragmentGroupLimit sfa.maxGroups
  bytes : sfa.retainedBytes ≤ fragmentByteLimit sfa.maxBytes

section

variable {store : AssemblerStore} (within : store.sfa.Within)

include within

theorem ShardedFragmentAssembler.Within.lowerGroups {groups : Int}
    (owed : 0 ≤ groups) :
    (AssemblerRun.lowerGroups store groups).sfa.Within := by
  refine ⟨?_, within.bytes⟩
  have limit := within.groups
  change store.sfa.retainedGroups - groups ≤
    fragmentGroupLimit store.sfa.maxGroups
  omega

theorem ShardedFragmentAssembler.Within.lowerBytes {bytes : Int}
    (owed : 0 ≤ bytes) :
    (AssemblerRun.lowerBytes store bytes).sfa.Within := by
  refine ⟨within.groups, ?_⟩
  have limit := within.bytes
  change store.sfa.retainedBytes - bytes ≤ fragmentByteLimit store.sfa.maxBytes
  omega

end

/-- What one action of a call does to the groups and counters. -/
structure AddCall.Advances (store : AssemblerStore) (call : AddCall)
    (result : AssemblerStore × CallPhase) : Prop where
  setup : store.sfa.SameSetup result.1.sfa
  frame : ∀ other, other ≠ call.key →
    result.1.sfa.lookup other = store.sfa.lookup other ∧
      result.1.offers other = store.offers other
  placed : ∀ shard other group,
    (result.1.sfa.shards shard).get other = some group →
      (other = call.key ∧ store.sfa.shardIndex other = shard) ∨
        (store.sfa.shards shard).get other = some group
  gathered : result.1.Gathered call.key
  ready : { call with phase := result.2 }.Ready result.1
  groups : result.1.sfa.retainedGroups - result.1.sfa.heldGroups -
      result.2.owedGroups =
    store.sfa.retainedGroups - store.sfa.heldGroups - call.phase.owedGroups
  bytes : result.1.sfa.retainedBytes - result.1.sfa.heldBytes -
      result.2.owedBytes call.payload =
    store.sfa.retainedBytes - store.sfa.heldBytes -
      call.phase.owedBytes call.payload
  within : store.sfa.Within → result.1.sfa.Within

namespace AddCall

variable {store : AssemblerStore} {call : AddCall} {now : Int}
  {existing : Option FragmentGroup}

variable {phase : CallPhase}

theorem Advances.counters {sfa : ShardedFragmentAssembler}
    (setup : store.sfa.SameSetup sfa) (shards : sfa.shards = store.sfa.shards)
    (gathered : store.Gathered call.key)
    (ready : { call with phase := phase }.Ready store)
    (groups : sfa.retainedGroups - phase.owedGroups =
      store.sfa.retainedGroups - call.phase.owedGroups)
    (bytes : sfa.retainedBytes - phase.owedBytes call.payload =
      store.sfa.retainedBytes - call.phase.owedBytes call.payload)
    (within : store.sfa.Within → sfa.Within) :
    call.Advances store ({ store with sfa := sfa }, phase) := by
  have same : ∀ key, sfa.lookup key = store.sfa.lookup key := by
    intro key
    unfold lookup shardIndex
    rw [shards, setup.hash, setup.shardCount]
  have weighs : ∀ weight, sfa.held weight = store.sfa.held weight := by
    intro weight
    unfold held
    rw [shards, setup.shardCount]
  constructor
  · exact setup
  · intro other _
    exact ⟨same other, rfl⟩
  · intro shard other group found
    exact .inr (shards ▸ found)
  · refine ⟨?_, ?_⟩
    · intro group found
      exact gathered.gathers group ((same call.key).symm.trans found)
    · intro absent
      exact gathered.fresh ((same call.key).symm.trans absent)
  · exact ready.congr fun _ => same call.key
  · have held := weighs fun _ => 1
    rw [heldGroups_eq, heldGroups_eq, held]
    dsimp only
    omega
  · have held := weighs FragmentGroup.retainedBytes
    unfold heldBytes
    rw [held]
    dsimp only
    omega
  · exact within

theorem Advances.idle (gathered : store.Gathered call.key)
    (ready : { call with phase := phase }.Ready store)
    (groups : phase.owedGroups = call.phase.owedGroups)
    (bytes : phase.owedBytes call.payload = call.phase.owedBytes call.payload) :
    call.Advances store (store, phase) := by
  refine Advances.counters (.refl _) rfl gathered ready ?_ ?_ fun h => h
  · rw [groups]
  · rw [bytes]

theorem Advances.remove {group owed : FragmentGroup} {result : FragmentResult}
    (positive : 0 < store.sfa.shardCount)
    (found : store.sfa.lookup call.key = some group)
    (owes : 0 ≤ owed.retainedBytes)
    (groups : call.phase.owedGroups = 0)
    (bytes : owed.retainedBytes =
      group.retainedBytes + call.phase.owedBytes call.payload) :
    call.Advances store
      ({ sfa := store.sfa.remove call.key
         offers := Function.update store.offers call.key [] },
        .owing result owed) := by
  constructor
  · exact ⟨rfl, rfl, rfl, rfl, rfl⟩
  · intro other different
    refine ⟨?_, update_of_ne different _ _⟩
    rw [lookup_remove, if_neg different]
  · intro shard other left at_
    refine .inr ?_
    change (Function.update store.sfa.shards _ _ shard).get other = _ at at_
    by_cases same : shard = store.sfa.shardIndex call.key
    · subst same
      rw [update_self] at at_
      exact FiniteMap.get_of_get_delete at_
    · rw [update_of_ne same] at at_
      exact at_
  · refine ⟨?_, fun _ => update_self ..⟩
    intro left at_
    rw [lookup_remove, if_pos rfl] at at_
    cases at_
  · exact owes
  · rw [heldGroups_eq, heldGroups_eq, held_remove _ positive found, groups]
    change store.sfa.retainedGroups - _ - 1 = _
    omega
  · unfold heldBytes
    rw [held_remove _ positive found]
    change store.sfa.retainedBytes - _ - owed.retainedBytes = _
    omega
  · intro within
    exact ⟨within.groups, within.bytes⟩

theorem inspect_advances (positive : 0 < store.sfa.shardCount)
    (gathered : store.Gathered call.key) (entered : call.phase = .entered)
    (inside : call.index < call.total) (several : 2 ≤ call.total.toNat) :
    call.Advances store (call.inspect store) := by
  have noGroups : call.phase.owedGroups = 0 := by
    rw [entered]
    rfl
  have noBytes : call.phase.owedBytes call.payload = 0 := by
    rw [entered]
    rfl
  unfold inspect
  split
  · rename_i absent
    refine .idle gathered ⟨⟨inside, several, ?_, ?_⟩, absent⟩ noGroups.symm
      noBytes.symm
    all_goals
      intro group found
      cases found
  · rename_i group found
    have gathers := gathered.gathers group found
    split
    · refine .remove positive found gathers.retains noGroups ?_
      omega
    · exact .idle gathered trivial noGroups.symm noBytes.symm
    · rename_i accepted
      have sameTotal : group.total = call.total := by
        unfold validateFragmentGroup at accepted
        split at accepted
        · cases accepted
        · rename_i same
          exact not_not.mp same
      split
      · rename_i held
        constructor
        · exact .refl _
        · intro other different
          exact ⟨rfl, update_of_ne different _ _⟩
        · intro shard other left at_
          exact .inr at_
        · refine ⟨?_, ?_⟩
          · intro other same
            cases found.symm.trans same
            dsimp only
            rw [update_self]
            exact gathers.duplicate held
          · intro absent
            cases found.symm.trans absent
        · trivial
        · rw [noGroups]
          rfl
        · rw [noBytes]
          rfl
        · intro within
          exact within
      · rename_i vacant
        refine .idle gathered ⟨⟨inside, several, ?_, ?_⟩, found⟩ noGroups.symm
          noBytes.symm
        · intro other same
          cases same
          exact sameTotal
        · intro other same
          cases same
          exact Option.not_isSome_iff_eq_none.mp vacant

theorem reserveFragmentCapacity_some {current amount limit next : Int}
    (reserved : reserveFragmentCapacity current amount limit = some next) :
    next = current + amount ∧ next ≤ limit := by
  unfold reserveFragmentCapacity at reserved
  split at reserved
  · cases reserved
  · cases reserved
    exact ⟨rfl, by omega⟩

theorem reserveGroup_advances (gathered : store.Gathered call.key)
    (locked : call.phase = .locked existing)
    (fits : call.Fits existing)
    (found : store.sfa.lookup call.key = existing) :
    call.Advances store (reserveGroup store existing) := by
  have noGroups : call.phase.owedGroups = 0 := by
    rw [locked]
    rfl
  have noBytes : call.phase.owedBytes call.payload = 0 := by
    rw [locked]
    rfl
  have ready : { call with phase := .groupReserved existing }.Ready store :=
    ⟨⟨fits.inside, fits.several, fits.same, fits.vacant⟩, found⟩
  unfold reserveGroup
  cases existing with
  | some group => exact .idle gathered ready noGroups.symm noBytes.symm
  | none =>
    dsimp only
    split
    · refine .counters ⟨rfl, rfl, rfl, rfl, rfl⟩ rfl gathered trivial ?_ ?_
        fun within => ⟨within.groups, within.bytes⟩
      · rw [noGroups]
        rfl
      · rw [noBytes]
        rfl
    · rename_i retainedGroups reserved
      obtain ⟨raised, bounded⟩ := reserveFragmentCapacity_some reserved
      refine .counters ⟨rfl, rfl, rfl, rfl, rfl⟩ rfl gathered ready ?_ ?_
        fun within => ⟨bounded, within.bytes⟩
      · rw [noGroups]
        change retainedGroups - 1 = _
        omega
      · rw [noBytes]
        rfl

theorem reserveBytes_advances (gathered : store.Gathered call.key)
    (reserved : call.phase = .groupReserved existing)
    (fits : call.Fits existing)
    (found : store.sfa.lookup call.key = existing) :
    call.Advances store (call.reserveBytes store existing) := by
  have noBytes : call.phase.owedBytes call.payload = 0 := by
    rw [reserved]
    rfl
  unfold reserveBytes
  split
  · refine .counters ⟨rfl, rfl, rfl, rfl, rfl⟩ rfl gathered ?_ ?_ ?_
      fun within => ⟨within.groups, within.bytes⟩
    · cases existing <;> trivial
    · rw [reserved]
      cases existing <;> rfl
    · rw [noBytes]
      cases existing <;> rfl
  · rename_i retainedBytes taken
    obtain ⟨raised, bounded⟩ := reserveFragmentCapacity_some taken
    refine .counters ⟨rfl, rfl, rfl, rfl, rfl⟩ rfl gathered
      ⟨⟨fits.inside, fits.several, fits.same, fits.vacant⟩, found⟩ ?_ ?_
      fun within => ⟨within.groups, bounded⟩
    · rw [reserved]
      cases existing <;> rfl
    · rw [noBytes]
      change retainedBytes - fragmentRetainedBytes call.payload = _
      omega

theorem store_advances (positive : 0 < store.sfa.shardCount)
    (gathered : store.Gathered call.key)
    (reserved : call.phase = .bytesReserved existing)
    (fits : call.Fits existing)
    (found : store.sfa.lookup call.key = existing)
    (incomplete : (call.extended now existing).received ≠
      (call.extended now existing).total) :
    call.Advances store
      ({ sfa := store.sfa.store call.key (call.extended now existing)
         offers := Function.update store.offers call.key
           (store.offers call.key ++ [call.offer]) },
        .returned (.ok none)) := by
  have weighs : ∀ weight : FragmentGroup → Int,
      (store.sfa.store call.key (call.extended now existing)).held weight =
        store.sfa.held weight - (existing.map weight).getD 0 +
          weight (call.extended now existing) := by
    intro weight
    cases existing with
    | none =>
      rw [held_store_absent _ positive found]
      simp
    | some group =>
      rw [held_store_present _ positive found]
      rfl
  constructor
  · exact ⟨rfl, rfl, rfl, rfl, rfl⟩
  · intro other different
    refine ⟨?_, update_of_ne different _ _⟩
    rw [lookup_store, if_neg different]
  · intro shard other left at_
    change (Function.update store.sfa.shards _ _ shard).get other = _ at at_
    by_cases same : shard = store.sfa.shardIndex call.key
    · subst same
      rw [update_self, FiniteMap.get_put] at at_
      split at at_
      · rename_i own
        exact .inl ⟨own, own ▸ rfl⟩
      · exact .inr at_
    · rw [update_of_ne same] at at_
      exact .inr at_
  · refine ⟨?_, ?_⟩
    · intro group at_
      rw [lookup_store, if_pos rfl] at at_
      cases at_
      dsimp only
      rw [update_self]
      apply fits.extended_gathers _ _ incomplete
      · intro group same
        exact gathered.gathers group (found.trans same)
      · intro absent
        exact gathered.fresh (found.trans absent)
    · intro absent
      rw [lookup_store, if_pos rfl] at absent
      cases absent
  · trivial
  · rw [heldGroups_eq, heldGroups_eq, weighs, reserved]
    cases existing with
    | none =>
      change store.sfa.retainedGroups - (_ - 0 + 1) - 0 =
        store.sfa.retainedGroups - _ - 1
      omega
    | some group =>
      change store.sfa.retainedGroups - (_ - 1 + 1) - 0 =
        store.sfa.retainedGroups - _ - 0
      omega
  · unfold heldBytes
    rw [weighs, reserved]
    cases existing with
    | none =>
      change store.sfa.retainedBytes -
          (_ - 0 + (0 + fragmentRetainedBytes call.payload)) - 0 =
        store.sfa.retainedBytes - _ - fragmentRetainedBytes call.payload
      omega
    | some group =>
      change store.sfa.retainedBytes - (_ - group.retainedBytes +
          (group.retainedBytes + fragmentRetainedBytes call.payload)) - 0 =
        store.sfa.retainedBytes - _ - fragmentRetainedBytes call.payload
      omega
  · intro within
    exact ⟨within.groups, within.bytes⟩

theorem Fits.existing_of_complete (fits : call.Fits existing)
    (complete : (call.extended now existing).received =
      (call.extended now existing).total) :
    ∃ group, existing = some group := by
  cases existing with
  | some group => exact ⟨group, rfl⟩
  | none =>
    have one : (0 + 1 : UInt8) = call.total := complete
    have several := fits.several
    rw [← one] at several
    exact absurd several (by decide)

theorem storeFragment_advances (positive : 0 < store.sfa.shardCount)
    (gathered : store.Gathered call.key)
    (reserved : call.phase = .bytesReserved existing)
    (fits : call.Fits existing)
    (found : store.sfa.lookup call.key = existing) :
    call.Advances store (call.storeFragment store now existing) := by
  unfold storeFragment
  extract_lets stored
  split
  · rename_i complete
    obtain ⟨group, rfl⟩ := fits.existing_of_complete complete
    have retains := (gathered.gathers group found).retains
    have added := fragmentRetainedBytes_nonneg call.payload
    apply Advances.remove positive found
    · change 0 ≤ group.retainedBytes + fragmentRetainedBytes call.payload
      omega
    · rw [reserved]
      rfl
    · rw [reserved]
      rfl
  · rename_i incomplete
    exact store_advances positive gathered reserved fits found incomplete

theorem validateFragmentInput_ok {index total : UInt8}
    (valid : validateFragmentInput index total = .ok ()) :
    index < total ∧ 2 ≤ total.toNat := by
  unfold validateFragmentInput at valid
  split at valid
  · cases valid
  rename_i several
  split at valid
  · cases valid
  · rename_i inside
    exact ⟨UInt8.not_le.mp inside, UInt8.le_iff_toNat_le.mp
      (UInt8.not_lt.mp several)⟩

theorem advance_advances (positive : 0 < store.sfa.shardCount)
    (gathered : store.Gathered call.key) (ready : call.Ready store)
    (now : Int) : call.Advances store (call.advance store now) := by
  unfold Ready at ready
  unfold advance
  cases phase : call.phase with
  | begun =>
    dsimp only
    split
    · exact .idle gathered trivial (by rw [phase]; rfl) (by rw [phase]; rfl)
    · rename_i valid
      exact .idle gathered (validateFragmentInput_ok valid)
        (by rw [phase]; rfl) (by rw [phase]; rfl)
  | validated =>
    rw [phase] at ready
    dsimp only
    split
    · exact .idle gathered trivial (by rw [phase]; rfl) (by rw [phase]; rfl)
    · exact .idle gathered ready (by rw [phase]; rfl) (by rw [phase]; rfl)
  | entered =>
    rw [phase] at ready
    exact inspect_advances positive gathered phase ready.1 ready.2
  | locked existing =>
    rw [phase] at ready
    exact reserveGroup_advances gathered phase ready.1 ready.2
  | groupReserved existing =>
    rw [phase] at ready
    exact reserveBytes_advances gathered phase ready.1 ready.2
  | bytesReserved existing =>
    rw [phase] at ready
    exact storeFragment_advances positive gathered phase ready.1 ready.2
  | refundGroup =>
    refine .counters ⟨rfl, rfl, rfl, rfl, rfl⟩ rfl gathered trivial ?_ ?_ ?_
    · rw [phase]
      change store.sfa.retainedGroups - 1 - 0 = store.sfa.retainedGroups - 1
      omega
    · rw [phase]
      rfl
    · exact fun within => within.lowerGroups Int.one_nonneg
  | owing result group =>
    rw [phase] at ready
    refine .counters ⟨rfl, rfl, rfl, rfl, rfl⟩ rfl gathered ready ?_ ?_ ?_
    · rw [phase]
      change store.sfa.retainedGroups - 1 - 0 = store.sfa.retainedGroups - 1
      omega
    · rw [phase]
      rfl
    · exact fun within => within.lowerGroups Int.one_nonneg
  | owingBytes result bytes =>
    rw [phase] at ready
    dsimp only at ready
    refine .counters ⟨rfl, rfl, rfl, rfl, rfl⟩ rfl gathered trivial ?_ ?_ ?_
    · rw [phase]
      rfl
    · rw [phase]
      change store.sfa.retainedBytes - bytes - 0 =
        store.sfa.retainedBytes - bytes
      omega
    · exact fun within => within.lowerBytes ready
  | returned result =>
    exact .idle gathered trivial (by rw [phase]) (by rw [phase])

end AddCall

end QMux.Protocol
