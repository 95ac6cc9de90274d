import QMux.Protocol.UDPAssemblerCalls

/-!
# The accounts of the assembler over whole runs

In every state of every run the two counters equal what the groups retain
plus what calls, the sweep and `Close` still owe, and stay within their
limits.  The mutex of a shard has one holder, so a call finds the group it
looked up still in place when it stores its fragment.
-/

namespace QMux.Protocol

open Function Support ShardedFragmentAssembler AssemblerStore

/-! ## Releasing the groups of a shard -/

namespace AssemblerStore

variable {store : AssemblerStore} {shard : Nat}
  {dropped : FragmentGroup → Bool}

theorem lookup_release (key : FragmentKey) :
    (store.release shard dropped).sfa.lookup key =
      if store.sfa.shardIndex key = shard then
        (store.sfa.lookup key).filter fun group => !dropped group
      else store.sfa.lookup key := by
  by_cases same : store.sfa.shardIndex key = shard
  · rw [if_pos same]
    change (Function.update store.sfa.shards shard _
      (store.sfa.shardIndex key)).get key = _
    rw [same, update_self, FiniteMap.get_filter]
    unfold lookup
    rw [same]
  · rw [if_neg same]
    change (Function.update store.sfa.shards shard _
      (store.sfa.shardIndex key)).get key = _
    rw [update_of_ne same]
    rfl

theorem held_release (weight : FragmentGroup → Int)
    (inside : shard < store.sfa.shardCount) :
    (store.release shard dropped).sfa.held weight = store.sfa.held weight -
        (((store.sfa.shards shard).filter dropped).values.map weight).sum := by
  have parts : ((store.sfa.shards shard).values.map weight).sum =
      (((store.sfa.shards shard).filter dropped).values.map weight).sum +
        (((store.sfa.shards shard).filter fun group =>
          !dropped group).values.map weight).sum := by
    have others : (store.sfa.shards shard).values.filter
        (fun group => (!dropped group) = true) =
      (store.sfa.shards shard).values.filter
        (fun group => ¬dropped group = true) := by
      apply Multiset.filter_congr
      intro group _
      simp
    rw [FiniteMap.values_filter, FiniteMap.values_filter, others,
      ← Multiset.sum_add, ← Multiset.map_add, Multiset.filter_add_not]
  have moved := sum_range_update
    (fun shard : FiniteMap FragmentKey FragmentGroup =>
      (shard.values.map weight).sum) store.sfa.shards inside
    ((store.sfa.shards shard).filter fun group => !dropped group)
  change ∑ other ∈ Finset.range store.sfa.shardCount, _ = _
  unfold held
  refine moved.trans ?_
  omega

theorem gathered_release (shard : Nat) (dropped : FragmentGroup → Bool)
    {key : FragmentKey} (gathered : store.Gathered key) :
    (store.release shard dropped).Gathered key := by
  by_cases gone : store.sfa.shardIndex key = shard ∧
      (store.sfa.lookup key).any dropped = true
  · have none : (store.release shard dropped).sfa.lookup key = none := by
      rw [lookup_release, if_pos gone.1]
      cases found : store.sfa.lookup key with
      | none => rfl
      | some group =>
        rw [found] at gone
        have drop : dropped group = true := gone.2
        simp [Option.filter, drop]
    refine ⟨?_, fun _ => if_pos gone⟩
    intro group found
    cases none.symm.trans found
  · have offers : (store.release shard dropped).offers key =
        store.offers key := if_neg gone
    have same : (store.release shard dropped).sfa.lookup key =
        store.sfa.lookup key := by
      rw [lookup_release]
      split
      · rename_i inside
        cases found : store.sfa.lookup key with
        | none => rfl
        | some group =>
          have keep : dropped group = false := by
            rw [← Bool.not_eq_true]
            intro drop
            apply gone
            rw [found]
            exact ⟨inside, drop⟩
          simp [Option.filter, keep]
      · rfl
    refine ⟨?_, ?_⟩
    · rw [same, offers]
      exact gathered.gathers
    · rw [same, offers]
      exact gathered.fresh

theorem releasedBytes_nonneg
    (gathered : ∀ key, store.Gathered key)
    (own : ∀ key group, (store.sfa.shards shard).get key = some group →
      store.sfa.shardIndex key = shard) :
    0 ≤ store.releasedBytes shard dropped := by
  apply Multiset.sum_nonneg
  intro bytes member
  obtain ⟨group, among, rfl⟩ := Multiset.mem_map.mp member
  obtain ⟨key, found⟩ := FiniteMap.mem_values_iff.mp among
  rw [FiniteMap.get_filter, Option.filter_eq_some_iff] at found
  have held : store.sfa.lookup key = some group := by
    unfold lookup
    rw [own key group found.1]
    exact found.1
  exact ((gathered key).gathers group held).retains

theorem releasedGroups_eq :
    store.releasedGroups shard dropped =
      (((store.sfa.shards shard).filter dropped).values.map
        fun _ => (1 : Int)).sum :=
  size_eq_sum _

end AssemblerStore

/-! ## The invariant -/

namespace CleanupPhase

def owedGroups : CleanupPhase → Int
  | .owing _ _ groups _ => groups
  | _ => 0

def owedBytes : CleanupPhase → Int
  | .owing _ _ _ bytes => bytes
  | .owingBytes _ _ bytes => bytes
  | _ => 0

end CleanupPhase

namespace ClosePhase

def owedGroups : ClosePhase → Int
  | .owing _ groups _ => groups
  | _ => 0

def owedBytes : ClosePhase → Int
  | .owing _ _ bytes => bytes
  | .owingBytes _ bytes => bytes
  | _ => 0

/-- The shard has been emptied by `Close`. -/
def Cleared (shard : Nat) : ClosePhase → Prop
  | .opened => False
  | .visiting next => shard < next
  | .owing next _ _ => shard ≤ next
  | .owingBytes next _ => shard ≤ next
  | .done => True

end ClosePhase

namespace AssemblerRun

/-- What the calls owe together. -/
def callsOweGroups (run : AssemblerRun) : Int :=
  (run.calls.map fun call => call.phase.owedGroups).sum

def callsOweBytes (run : AssemblerRun) : Int :=
  (run.calls.map fun call => call.phase.owedBytes call.payload).sum

/-- The invariant of all runs. -/
structure Sound (run : AssemblerRun) : Prop where
  positive : 0 < run.store.sfa.shardCount
  gathered : ∀ key, run.store.Gathered key
  own : ∀ shard key group, (run.store.sfa.shards shard).get key =
    some group → run.store.sfa.shardIndex key = shard
  ready : ∀ call ∈ run.calls, call.Ready run.store
  exclusive : ∀ (left right : Nat) (leftCall rightCall : AddCall),
    run.calls[left]? = some leftCall → run.calls[right]? = some rightCall →
    leftCall.phase.holdsShard = true → rightCall.phase.holdsShard = true →
    run.store.sfa.shardIndex leftCall.key =
      run.store.sfa.shardIndex rightCall.key → left = right
  swept : ∀ call ∈ run.calls, call.phase.holdsShard = true →
    run.cleanup.shard? ≠ some (run.store.sfa.shardIndex call.key)
  groups : run.store.sfa.retainedGroups = run.store.sfa.heldGroups +
    run.callsOweGroups + run.cleanup.owedGroups + run.closing.owedGroups
  bytes : run.store.sfa.retainedBytes = run.store.sfa.heldBytes +
    run.callsOweBytes + run.cleanup.owedBytes + run.closing.owedBytes
  within : run.store.sfa.Within
  cleanupOwes : 0 ≤ run.cleanup.owedGroups ∧ 0 ≤ run.cleanup.owedBytes
  closingOwes : 0 ≤ run.closing.owedGroups ∧ 0 ≤ run.closing.owedBytes
  closed : run.store.sfa.closed = true ↔ run.closing ≠ .opened
  left : run.closing ≠ .opened → ∀ call ∈ run.calls, call.phase.inside = false
  excluded : run.closing.lockFree = false → run.cleanup = .waiting
  cleared : ∀ shard, shard < run.store.sfa.shardCount →
    run.closing.Cleared shard → run.store.sfa.shards shard = ∅
  spent : run.closing = .done →
    run.cleanup.owedGroups = 0 ∧ run.cleanup.owedBytes = 0

theorem sound_new (hash : FragmentKey → Nat)
    (shardCount maxGroups maxBackingBytes : Int) :
    (new hash shardCount maxGroups maxBackingBytes).Sound := by
  have absent : ∀ key, (new hash shardCount maxGroups
      maxBackingBytes).store.sfa.lookup key = none := by
    intro key
    exact FiniteMap.get_empty key
  constructor
  · change 0 < if shardCount ≤ 0 then defaultShardCount else shardCount.toNat
    split
    · decide
    · omega
  · intro key
    refine ⟨?_, fun _ => rfl⟩
    intro group found
    cases (absent key).symm.trans found
  · intro shard key group found
    cases (FiniteMap.get_empty key).symm.trans found
  · intro call member
    cases member
  · intro left right leftCall rightCall found
    cases found
  · intro call member
    cases member
  · change 0 = (∑ shard ∈ Finset.range _, ((∅ : FiniteMap FragmentKey
      FragmentGroup).size : Int)) + 0 + 0 + 0
    simp
  · change 0 = (∑ shard ∈ Finset.range _, ((∅ : FiniteMap FragmentKey
      FragmentGroup).values.map FragmentGroup.retainedBytes).sum) + 0 + 0 + 0
    simp
  · constructor
    · change 0 ≤ fragmentGroupLimit maxGroups
      unfold fragmentGroupLimit
      split
      · omega
      · decide
    · change 0 ≤ fragmentByteLimit maxBackingBytes
      unfold fragmentByteLimit
      split
      · omega
      · decide
  · exact ⟨Int.le_refl 0, Int.le_refl 0⟩
  · exact ⟨Int.le_refl 0, Int.le_refl 0⟩
  · simp [new, ShardedFragmentAssembler.new]
  · intro opened
    exact absurd rfl opened
  · intro busy
    cases busy
  · intro shard _ clear
    cases clear
  · intro done
    cases done

/-! ## A call -/

theorem holdsShard_advance (store : AssemblerStore) (call : AddCall)
    (now : Int) (holds : (call.advance store now).2.holdsShard = true) :
    call.phase.holdsShard = true ∨ call.phase = .entered := by
  cases phase : call.phase with
  | begun | validated =>
    unfold AddCall.advance at holds
    rw [phase] at holds
    dsimp only at holds
    split at holds <;> cases holds
  | entered => exact .inr rfl
  | returned result =>
    unfold AddCall.advance at holds
    rw [phase] at holds
    cases holds
  | locked | groupReserved | bytesReserved | refundGroup | owing
  | owingBytes => exact .inl rfl

theorem inside_advance (store : AssemblerStore) (call : AddCall)
    (now : Int) (inside : (call.advance store now).2.inside = true) :
    call.phase.inside = true ∨ store.sfa.closed = false := by
  cases phase : call.phase with
  | begun =>
    unfold AddCall.advance at inside
    rw [phase] at inside
    dsimp only at inside
    split at inside <;> cases inside
  | validated =>
    unfold AddCall.advance at inside
    rw [phase] at inside
    dsimp only at inside
    split at inside
    · cases inside
    · rename_i opened
      exact .inr (Bool.not_eq_true _ ▸ opened)
  | returned result =>
    unfold AddCall.advance at inside
    rw [phase] at inside
    cases inside
  | entered | locked | groupReserved | bytesReserved | refundGroup | owing
  | owingBytes => exact .inl rfl

/-- A call that has not entered leaves everything. -/
theorem advance_outside (store : AssemblerStore) (call : AddCall) (now : Int)
    (outside : call.phase.inside = false) :
    (call.advance store now).1 = store := by
  unfold AddCall.advance
  cases phase : call.phase with
  | begun | validated =>
    dsimp only
    split <;> rfl
  | returned result => rfl
  | entered | locked | groupReserved | bytesReserved | refundGroup | owing
  | owingBytes =>
    rw [phase] at outside
    cases outside

variable {run : AssemblerRun} {index : Nat} {call : AddCall} {now : Int}

theorem shardFree_iff {shard : Nat} :
    run.shardFree shard = true ↔
      (∀ call ∈ run.calls, call.phase.holdsShard = true →
        run.store.sfa.shardIndex call.key ≠ shard) ∧
      run.cleanup.shard? ≠ some shard := by
  unfold shardFree
  rw [Bool.and_eq_true, List.all_eq_true, decide_eq_true_iff]
  refine and_congr ?_ Iff.rfl
  refine forall_congr' fun call => forall_congr' fun _ => ?_
  cases call.phase.holdsShard <;> simp

theorem Sound.begin_ (sound : run.Sound) (sessionID : UInt32)
    (fragID : UInt64) (index total : UInt8) (payload : Bytes) :
    (run.apply (.begin_ sessionID fragID index total payload)).Sound := by
  have member : ∀ {call}, call ∈ (run.apply (.begin_ sessionID fragID index
      total payload)).calls → call ∈ run.calls ∨ call.phase = .begun := by
    intro call among
    rcases List.mem_append.mp among with old | new
    · exact .inl old
    · cases List.mem_singleton.mp new
      exact .inr rfl
  have cell : ∀ {position : Nat} {call : AddCall},
      (run.apply (.begin_ sessionID fragID index total payload)
        ).calls[position]? = some call →
      call.phase.holdsShard = true → run.calls[position]? = some call := by
    intro position call found holds
    rcases cases_append found with ⟨_, rfl⟩ | found
    · cases holds
    · exact found
  refine { sound with
    ready := ?_, exclusive := ?_, swept := ?_, groups := ?_, bytes := ?_,
    left := ?_ }
  · intro call among
    rcases member among with old | begun
    · exact sound.ready call old
    · unfold AddCall.Ready
      rw [begun]
      trivial
  · intro left right leftCall rightCall leftAt rightAt leftHolds rightHolds
    exact sound.exclusive left right leftCall rightCall
      (cell leftAt leftHolds) (cell rightAt rightHolds) leftHolds rightHolds
  · intro call among holds
    rcases member among with old | begun
    · exact sound.swept call old holds
    · rw [begun] at holds
      cases holds
  · have same : (run.apply (.begin_ sessionID fragID index total
        payload)).callsOweGroups = run.callsOweGroups := by
      unfold callsOweGroups
      change ((run.calls ++ [_]).map _).sum = _
      rw [sum_map_append_singleton]
      exact Int.add_zero _
    rw [same]
    exact sound.groups
  · have same : (run.apply (.begin_ sessionID fragID index total
        payload)).callsOweBytes = run.callsOweBytes := by
      unfold callsOweBytes
      change ((run.calls ++ [_]).map _).sum = _
      rw [sum_map_append_singleton]
      exact Int.add_zero _
    rw [same]
    exact sound.bytes
  · intro started call among
    rcases member among with old | begun
    · exact sound.left started call old
    · rw [begun]
      rfl

theorem apply_advance (found : run.calls[index]? = some call) (now : Int) :
    run.apply (.advance index now) = { run with
        store := (call.advance run.store now).1
        calls := run.calls.set index
          { call with phase := (call.advance run.store now).2 } } := by
  unfold apply
  dsimp only
  rw [found]

theorem free_of_enabled (found : run.calls[index]? = some call)
    (enabled : run.Enabled (.advance index now))
    (entered : call.phase = .entered) :
    run.shardFree (run.store.sfa.shardIndex call.key) = true := by
  unfold Enabled at enabled
  dsimp only at enabled
  rw [found] at enabled
  dsimp only at enabled
  rw [entered] at enabled
  exact enabled

theorem exists_call_of_enabled (enabled : run.Enabled (.advance index now)) :
    ∃ call, run.calls[index]? = some call := by
  unfold Enabled at enabled
  dsimp only at enabled
  cases found : run.calls[index]? with
  | none =>
    rw [found] at enabled
    exact enabled.elim
  | some call => exact ⟨call, rfl⟩

theorem Sound.advance (sound : run.Sound)
    (enabled : run.Enabled (.advance index now)) :
    (run.apply (.advance index now)).Sound := by
  obtain ⟨call, found⟩ := exists_call_of_enabled enabled
  have among : call ∈ run.calls := List.mem_of_getElem? found
  have advances := AddCall.advance_advances sound.positive
    (sound.gathered call.key) (sound.ready call among) now
  have setup := advances.setup
  have sameShard : ∀ key, (call.advance run.store now).1.sfa.shardIndex key =
      run.store.sfa.shardIndex key := by
    intro key
    unfold shardIndex
    rw [setup.hash, setup.shardCount]
  have acquires : (call.advance run.store now).2.holdsShard = true →
      call.phase.holdsShard = true ∨
        run.shardFree (run.store.sfa.shardIndex call.key) = true := by
    intro holds
    rcases holdsShard_advance run.store call now holds with held | entered
    · exact .inl held
    · exact .inr (free_of_enabled found enabled entered)
  -- A call that holds a shard shares it with no other call.
  have alone : ∀ other otherCall, run.calls[other]? =
      some otherCall → other ≠ index → otherCall.phase.holdsShard =
      true → call.phase.inside = true → otherCall.key ≠ call.key := by
    intro other otherCall at_ different holds inside same
    cases held : call.phase.holdsShard with
    | true =>
      exact different (sound.exclusive other index otherCall call at_ found
        holds held (by rw [same]))
    | false =>
      have entered : call.phase = .entered := by
        unfold CallPhase.inside at inside
        rw [held, Bool.false_or, decide_eq_true_iff] at inside
        exact inside
      exact (shardFree_iff.mp (free_of_enabled found enabled entered)).1
        otherCall (List.mem_of_getElem? at_) holds (by rw [same])
  have keeps : ∀ other otherCall, run.calls[other]? = some otherCall →
      other ≠ index → otherCall.phase.holdsShard = true →
      (call.advance run.store now).1.sfa.lookup otherCall.key =
        run.store.sfa.lookup otherCall.key := by
    intro other otherCall at_ different holds
    cases inside : call.phase.inside with
    | true =>
      exact (advances.frame otherCall.key
        (alone other otherCall at_ different holds inside)).1
    | false => rw [advance_outside run.store call now inside]
  rw [apply_advance found now]
  refine { sound with
    positive := ?_, gathered := ?_, own := ?_, ready := ?_, exclusive := ?_,
    swept := ?_, groups := ?_, bytes := ?_, within := ?_, closed := ?_,
    left := ?_, cleared := ?_ }
  · dsimp only
    rw [setup.shardCount]
    exact sound.positive
  · intro key
    by_cases same : key = call.key
    · rw [same]
      exact advances.gathered
    obtain ⟨lookup, offers⟩ := advances.frame key same
    refine ⟨?_, ?_⟩
    · dsimp only
      rw [lookup, offers]
      exact (sound.gathered key).gathers
    · dsimp only
      rw [lookup, offers]
      exact (sound.gathered key).fresh
  · intro shard key group held
    dsimp only at held ⊢
    rw [sameShard]
    rcases advances.placed shard key group held with ⟨_, here⟩ | old
    · exact here
    · exact sound.own shard key group old
  · intro otherCall among
    obtain ⟨other, at_⟩ := List.getElem?_of_mem among
    rcases cases_set found at_ with ⟨_, rfl⟩ | ⟨different, before⟩
    · exact advances.ready
    · exact (sound.ready otherCall (List.mem_of_getElem? before)).congr
        (keeps other otherCall before different)
  · intro left right leftCall rightCall leftAt rightAt leftHolds rightHolds same
    dsimp only at same
    rw [sameShard, sameShard] at same
    -- The call that moved against one that did not.
    have moved : ∀ other otherCall, run.calls[other]? = some otherCall →
        other ≠ index → otherCall.phase.holdsShard = true →
        (call.advance run.store now).2.holdsShard = true →
        run.store.sfa.shardIndex otherCall.key ≠
          run.store.sfa.shardIndex call.key := by
      intro other otherCall before different holds moves shared
      rcases acquires moves with held | free
      · exact different (sound.exclusive other index otherCall call before
          found holds held shared)
      · exact (shardFree_iff.mp free).1 otherCall
          (List.mem_of_getElem? before) holds shared
    rcases cases_set found leftAt with ⟨rfl, rfl⟩ | ⟨leftNe, leftBefore⟩ <;>
      rcases cases_set found rightAt with
        ⟨rightEq, rfl⟩ | ⟨rightNe, rightBefore⟩
    · exact rightEq.symm
    · exact absurd same.symm
        (moved right rightCall rightBefore rightNe rightHolds leftHolds)
    · exact absurd same
        (moved left leftCall leftBefore leftNe leftHolds rightHolds)
    · exact sound.exclusive left right leftCall rightCall leftBefore
        rightBefore leftHolds rightHolds same
  · intro otherCall among holds
    dsimp only
    rw [sameShard]
    obtain ⟨other, at_⟩ := List.getElem?_of_mem among
    rcases cases_set found at_ with ⟨_, rfl⟩ | ⟨_, before⟩
    · rcases acquires holds with held | free
      · exact sound.swept call (List.mem_of_getElem? found) held
      · exact (shardFree_iff.mp free).2
    · exact sound.swept otherCall (List.mem_of_getElem? before) holds
  · have moved := sum_map_set_eq (fun call : AddCall => call.phase.owedGroups)
      found { call with phase := (call.advance run.store now).2 }
    have balance := advances.groups
    have before := sound.groups
    unfold callsOweGroups at before ⊢
    dsimp only at moved ⊢
    omega
  · have moved := sum_map_set_eq
      (fun call : AddCall => call.phase.owedBytes call.payload)
      found { call with phase := (call.advance run.store now).2 }
    have balance := advances.bytes
    have before := sound.bytes
    unfold callsOweBytes at before ⊢
    dsimp only at moved ⊢
    omega
  · exact advances.within sound.within
  · dsimp only
    rw [setup.closed]
    exact sound.closed
  · intro started otherCall among
    have closed := sound.closed.mpr started
    obtain ⟨other, at_⟩ := List.getElem?_of_mem among
    rcases cases_set found at_ with ⟨_, rfl⟩ | ⟨_, before⟩
    · rw [← Bool.not_eq_true]
      intro inside
      rcases inside_advance run.store call now inside with was | opened
      · rw [sound.left started call (List.mem_of_getElem? found)] at was
        cases was
      · cases opened.symm.trans closed
    · exact sound.left started otherCall (List.mem_of_getElem? before)
  · intro shard bound clear
    have started : run.closing ≠ .opened := by
      intro opened
      dsimp only at clear
      rw [opened] at clear
      exact clear
    have outside := sound.left started call (List.mem_of_getElem? found)
    dsimp only at bound ⊢
    rw [advance_outside run.store call now outside] at bound ⊢
    exact sound.cleared shard bound clear

/-! ## The sweep and `Close` -/

variable {run : AssemblerRun} {shard : Nat} {dropped : FragmentGroup → Bool}

theorem Sound.own_release (sound : run.Sound) (other : Nat)
    (key : FragmentKey) (group : FragmentGroup)
    (held : ((run.store.release shard dropped).sfa.shards other).get key =
      some group) : run.store.sfa.shardIndex key = other := by
  apply sound.own other key group
  change (Function.update run.store.sfa.shards shard _ other).get key = _
    at held
  by_cases same : other = shard
  · subst same
    rw [update_self, FiniteMap.get_filter, Option.filter_eq_some_iff] at held
    exact held.1
  · rw [update_of_ne same] at held
    exact held

theorem Sound.ready_release (sound : run.Sound)
    (free : ∀ call ∈ run.calls, call.phase.holdsShard = true →
      run.store.sfa.shardIndex call.key ≠ shard)
    (call : AddCall) (among : call ∈ run.calls) :
    call.Ready (run.store.release shard dropped) := by
  apply (sound.ready call among).congr
  intro holds
  rw [lookup_release, if_neg (free call among holds)]

theorem heldGroups_release (dropped : FragmentGroup → Bool)
    (inside : shard < run.store.sfa.shardCount) :
    (run.store.release shard dropped).sfa.heldGroups =
      run.store.sfa.heldGroups - run.store.releasedGroups shard dropped := by
  rw [heldGroups_eq, heldGroups_eq, held_release _ inside, releasedGroups_eq]

theorem heldBytes_release (dropped : FragmentGroup → Bool)
    (inside : shard < run.store.sfa.shardCount) :
    (run.store.release shard dropped).sfa.heldBytes =
      run.store.sfa.heldBytes - run.store.releasedBytes shard dropped :=
  held_release _ inside

theorem shards_release_of_empty {other : Nat}
    (empty : run.store.sfa.shards other = ∅) :
    (run.store.release shard dropped).sfa.shards other = ∅ := by
  change Function.update run.store.sfa.shards shard _ other = ∅
  by_cases same : other = shard
  · subst same
    rw [update_self, empty, FiniteMap.filter_empty]
  · rw [update_of_ne same]
    exact empty

theorem released_of_empty (empty : run.store.sfa.shards shard = ∅) :
    run.store.releasedGroups shard dropped = 0 ∧
      run.store.releasedBytes shard dropped = 0 := by
  unfold releasedGroups releasedBytes
  rw [empty, FiniteMap.filter_empty]
  exact ⟨rfl, rfl⟩

theorem Sound.releasedBytes_nonneg (sound : run.Sound) :
    0 ≤ run.store.releasedBytes shard dropped :=
  AssemblerStore.releasedBytes_nonneg sound.gathered
    (sound.own shard)

variable {next : Nat}

theorem Sound.sweepShard (sound : run.Sound)
    (phase : run.cleanup = .visiting now next)
    (inside : next < run.store.sfa.shardCount)
    (free : run.shardFree next = true) (expired : Nat) :
    Sound { run with
      store := { run.store.release next (FragmentGroup.expired now) with
        sfa := { (run.store.release next (FragmentGroup.expired now)).sfa with
          expiredGroups := expired } }
      cleanup := .owing now next
        (run.store.releasedGroups next (FragmentGroup.expired now))
        (run.store.releasedBytes next (FragmentGroup.expired now)) } := by
  obtain ⟨others, _⟩ := shardFree_iff.mp free
  have groups := sound.groups
  have bytes := sound.bytes
  rw [phase] at groups bytes
  refine { sound with
    gathered := ?_, own := sound.own_release,
    ready := ?_, swept := ?_, groups := ?_,
    bytes := ?_, within := ⟨sound.within.groups, sound.within.bytes⟩,
    cleanupOwes := ?_, excluded := ?_, cleared := ?_, spent := ?_ }
  · intro key
    have kept := gathered_release next
      (FragmentGroup.expired now) (sound.gathered key)
    exact ⟨kept.gathers, kept.fresh⟩
  · intro call among
    exact (sound.ready_release others call among).congr fun _ => rfl
  · intro call among holds shared
    exact others call among holds (Option.some.inj shared).symm
  · have held := heldGroups_release (FragmentGroup.expired now) inside
    change run.store.sfa.retainedGroups =
      (run.store.release next _).sfa.heldGroups + run.callsOweGroups +
        run.store.releasedGroups next _ + run.closing.owedGroups
    change _ = _ + 0 + _ at groups
    omega
  · have held := heldBytes_release (FragmentGroup.expired now) inside
    change run.store.sfa.retainedBytes =
      (run.store.release next _).sfa.heldBytes + run.callsOweBytes +
        run.store.releasedBytes next _ + run.closing.owedBytes
    change _ = _ + 0 + _ at bytes
    omega
  · exact ⟨Int.natCast_nonneg _, sound.releasedBytes_nonneg⟩
  · intro busy
    cases phase.symm.trans (sound.excluded busy)
  · intro shard bound clear
    exact shards_release_of_empty (sound.cleared shard bound clear)
  · intro done
    apply released_of_empty
    apply sound.cleared next inside
    rw [done]
    trivial

variable {store : AssemblerStore}

theorem Sound.gathered_of_same (sound : run.Sound)
    (lookup : store.sfa.lookup = run.store.sfa.lookup)
    (offers : store.offers = run.store.offers) (key : FragmentKey) :
    store.Gathered key := by
  obtain ⟨gathers, fresh⟩ := sound.gathered key
  rw [← lookup, ← offers] at gathers fresh
  exact ⟨gathers, fresh⟩

theorem Sound.ready_of_same (sound : run.Sound)
    (lookup : store.sfa.lookup = run.store.sfa.lookup) (call : AddCall)
    (among : call ∈ run.calls) : call.Ready store :=
  (sound.ready call among).congr fun _ => congrFun lookup call.key

theorem Sound.sweep (sound : run.Sound) (enabled : run.Enabled (.sweep now)) :
    (run.sweep now).Sound := by
  unfold Enabled at enabled
  dsimp only at enabled
  unfold AssemblerRun.sweep
  have groups := sound.groups
  have bytes := sound.bytes
  have owes := sound.cleanupOwes
  have spent := sound.spent
  have idle : run.cleanup ≠ .waiting → run.closing.lockFree = false →
      False := by
    intro busy locked
    exact busy (sound.excluded locked)
  cases phase : run.cleanup with
  | waiting =>
    rw [phase] at enabled groups bytes
    dsimp only
    refine { sound with
      swept := ?_, groups := groups, bytes := bytes, cleanupOwes := ?_,
      excluded := ?_, spent := ?_ }
    · intro call among holds shared
      cases shared
    · exact ⟨Int.le_refl 0, Int.le_refl 0⟩
    · intro busy
      cases busy.symm.trans enabled
    · intro _
      exact ⟨rfl, rfl⟩
  | visiting started next =>
    rw [phase] at enabled groups bytes
    dsimp only
    split
    · rename_i inside
      exact sound.sweepShard phase inside (enabled inside) _
    refine { sound with
      swept := ?_, groups := groups, bytes := bytes, cleanupOwes := ?_,
      excluded := fun _ => rfl, spent := ?_ }
    · intro call among holds shared
      cases shared
    · exact ⟨Int.le_refl 0, Int.le_refl 0⟩
    · intro _
      exact ⟨rfl, rfl⟩
  | owing started next releasedGroups releasedBytes =>
    have swept := sound.swept
    rw [phase] at groups bytes owes swept spent
    dsimp only
    refine { sound with
      gathered := sound.gathered_of_same rfl rfl,
      ready := sound.ready_of_same rfl, swept := swept, groups := ?_,
      bytes := bytes, within := sound.within.lowerGroups owes.1,
      cleanupOwes := ?_, excluded := ?_, spent := ?_ }
    · change run.store.sfa.retainedGroups - releasedGroups =
        run.store.sfa.heldGroups + run.callsOweGroups + 0 +
          run.closing.owedGroups
      change _ = _ + releasedGroups + _ at groups
      omega
    · exact ⟨Int.le_refl 0, owes.2⟩
    · intro busy
      exact (idle (by rw [phase]; simp) busy).elim
    · intro done
      exact ⟨rfl, (spent done).2⟩
  | owingBytes started next releasedBytes =>
    rw [phase] at groups bytes owes spent
    dsimp only
    refine { sound with
      gathered := sound.gathered_of_same rfl rfl,
      ready := sound.ready_of_same rfl, swept := ?_, groups := groups,
      bytes := ?_, within := sound.within.lowerBytes owes.2,
      cleanupOwes := ?_, excluded := ?_, spent := ?_ }
    · intro call among holds shared
      cases shared
    · change run.store.sfa.retainedBytes - releasedBytes =
        run.store.sfa.heldBytes + run.callsOweBytes + 0 + run.closing.owedBytes
      change _ = _ + releasedBytes + _ at bytes
      omega
    · exact ⟨Int.le_refl 0, Int.le_refl 0⟩
    · intro busy
      exact (idle (by rw [phase]; simp) busy).elim
    · intro _
      exact ⟨rfl, rfl⟩

theorem Sound.closeShard (sound : run.Sound)
    (phase : run.closing = .visiting next)
    (inside : next < run.store.sfa.shardCount) :
    Sound { run with
      store := run.store.release next fun _ => true
      closing := .owing next
        (run.store.releasedGroups next fun _ => true)
        (run.store.releasedBytes next fun _ => true) } := by
  have started : run.closing ≠ .opened := by
    rw [phase]
    simp
  have others : ∀ call ∈ run.calls, call.phase.holdsShard = true →
      run.store.sfa.shardIndex call.key ≠ next := by
    intro call among holds
    have outside := sound.left started call among
    unfold CallPhase.inside at outside
    rw [holds] at outside
    cases outside
  have groups := sound.groups
  have bytes := sound.bytes
  have cleared := sound.cleared
  rw [phase] at groups bytes cleared
  refine { sound with
    gathered := ?_, own := sound.own_release,
    ready := sound.ready_release others, groups := ?_, bytes := ?_,
    within := ⟨sound.within.groups, sound.within.bytes⟩,
    closingOwes := ?_, closed := ?_, left := ?_, excluded := ?_,
    cleared := ?_, spent := ?_ }
  · intro key
    exact gathered_release _ _ (sound.gathered key)
  · have held := heldGroups_release (fun _ => true) inside
    change run.store.sfa.retainedGroups =
      (run.store.release next _).sfa.heldGroups + run.callsOweGroups +
        run.cleanup.owedGroups + run.store.releasedGroups next _
    change _ = _ + 0 at groups
    omega
  · have held := heldBytes_release (fun _ => true) inside
    change run.store.sfa.retainedBytes =
      (run.store.release next _).sfa.heldBytes + run.callsOweBytes +
        run.cleanup.owedBytes + run.store.releasedBytes next _
    change _ = _ + 0 at bytes
    omega
  · exact ⟨Int.natCast_nonneg _, sound.releasedBytes_nonneg⟩
  · refine ⟨fun _ => by simp, fun _ => sound.closed.mpr started⟩
  · intro _
    exact sound.left started
  · intro _
    apply sound.excluded
    rw [phase]
    rfl
  · intro shard bound clear
    by_cases same : shard = next
    · subst same
      change Function.update run.store.sfa.shards shard _ shard = ∅
      rw [update_self]
      apply FiniteMap.filter_eq_empty
      intro key group _
      rfl
    · apply shards_release_of_empty
      apply cleared shard bound
      have below : shard ≤ next := clear
      change shard < next
      omega
  · intro done
    cases done

theorem Sound.close (sound : run.Sound) (enabled : run.Enabled .close) :
    run.close.Sound := by
  unfold Enabled at enabled
  dsimp only at enabled
  unfold AssemblerRun.close
  have groups := sound.groups
  have bytes := sound.bytes
  have owes := sound.closingOwes
  have closed := sound.closed
  have left := sound.left
  have excluded := sound.excluded
  have cleared := sound.cleared
  cases phase : run.closing with
  | opened =>
    rw [phase] at enabled groups bytes
    obtain ⟨outside, waiting⟩ :
        (∀ call ∈ run.calls, call.phase.inside = false) ∧
          run.cleanup = .waiting := by
      dsimp only at enabled
      unfold readersGone at enabled
      rw [Bool.and_eq_true, List.all_eq_true, decide_eq_true_iff] at enabled
      refine ⟨?_, enabled.2⟩
      intro call among
      simpa using enabled.1 call among
    dsimp only
    refine { sound with
      gathered := sound.gathered_of_same rfl rfl,
      ready := sound.ready_of_same rfl, groups := groups, bytes := bytes,
      within := ⟨sound.within.groups, sound.within.bytes⟩,
      closingOwes := ?_, closed := ?_, left := fun _ => outside,
      excluded := fun _ => waiting, cleared := ?_, spent := ?_ }
    · exact ⟨Int.le_refl 0, Int.le_refl 0⟩
    · exact ⟨fun _ => by simp, fun _ => rfl⟩
    · intro shard _ clear
      exact (Nat.not_lt_zero shard clear).elim
    · intro done
      cases done
  | visiting next =>
    dsimp only
    split
    · rename_i inside
      exact sound.closeShard phase inside
    rename_i outside
    rw [phase] at groups bytes closed left excluded cleared
    have waiting : run.cleanup = .waiting := excluded rfl
    refine { sound with
      groups := groups, bytes := bytes, closingOwes := ?_, closed := ?_,
      left := fun _ => left (by simp), excluded := fun _ => waiting,
      cleared := ?_, spent := ?_ }
    · exact ⟨Int.le_refl 0, Int.le_refl 0⟩
    · exact ⟨fun _ => by simp, fun _ => closed.mpr (by simp)⟩
    · intro shard bound _
      apply cleared shard bound
      have inRange : shard < run.store.sfa.shardCount := bound
      change shard < next
      omega
    · intro _
      dsimp only
      rw [waiting]
      exact ⟨rfl, rfl⟩
  | owing next releasedGroups releasedBytes =>
    rw [phase] at groups bytes owes closed left excluded cleared
    dsimp only
    refine { sound with
      gathered := sound.gathered_of_same rfl rfl,
      ready := sound.ready_of_same rfl, groups := ?_,
      bytes := bytes, within := sound.within.lowerGroups owes.1,
      closingOwes := ?_, closed := ?_, left := fun _ => left (by simp),
      excluded := excluded, cleared := cleared, spent := ?_ }
    · change run.store.sfa.retainedGroups - releasedGroups =
        run.store.sfa.heldGroups + run.callsOweGroups +
          run.cleanup.owedGroups + 0
      change _ = _ + releasedGroups at groups
      omega
    · exact ⟨Int.le_refl 0, owes.2⟩
    · exact ⟨fun _ => by simp, fun _ => closed.mpr (by simp)⟩
    · intro done
      cases done
  | owingBytes next releasedBytes =>
    rw [phase] at groups bytes owes closed left excluded cleared
    dsimp only
    refine { sound with
      gathered := sound.gathered_of_same rfl rfl,
      ready := sound.ready_of_same rfl, groups := groups,
      bytes := ?_, within := sound.within.lowerBytes owes.2,
      closingOwes := ?_, closed := ?_, left := fun _ => left (by simp),
      excluded := excluded, cleared := ?_, spent := ?_ }
    · change run.store.sfa.retainedBytes - releasedBytes =
        run.store.sfa.heldBytes + run.callsOweBytes + run.cleanup.owedBytes + 0
      change _ = _ + releasedBytes at bytes
      omega
    · exact ⟨Int.le_refl 0, Int.le_refl 0⟩
    · exact ⟨fun _ => by simp, fun _ => closed.mpr (by simp)⟩
    · intro shard bound clear
      apply cleared shard bound
      have below : shard < next + 1 := clear
      change shard ≤ next
      omega
    · intro done
      cases done
  | done =>
    rw [phase] at enabled
    exact enabled.elim

theorem Sound.apply (sound : run.Sound) {op : Op} (enabled : run.Enabled op) :
    (run.apply op).Sound := by
  cases op with
  | begin_ sessionID fragID index total payload =>
    exact sound.begin_ sessionID fragID index total payload
  | advance index now => exact sound.advance enabled
  | sweep now => exact sound.sweep enabled
  | close => exact sound.close enabled

variable {hash : FragmentKey → Nat} {shardCount maxGroups maxBytes : Int}
  {events : List Event}

theorem Runs.sound (runs : Runs hash shardCount maxGroups maxBytes events run) :
    run.Sound := by
  induction runs with
  | start => exact sound_new hash shardCount maxGroups maxBytes
  | next runs enabled ih => exact ih.apply enabled

end AssemblerRun

end QMux.Protocol
