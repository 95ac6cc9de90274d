import QMux.Protocol.UDPAssemblerAccounts
import QMux.Support.Transition

/-!
# What each call of a run has done

The actions of a run are kept in a list, so that one can ask what the
actions of one call changed while everything else went on around them.  A
call that fails has moved neither counter and no group; only a total that
differs from the group's takes that one group away.
-/

namespace QMux.Protocol

open Support ShardedFragmentAssembler

namespace AssemblerRun

/-- The action is one of the given call. -/
def Event.byCall (caller : Nat) (event : Event) : Bool :=
  match event.op with
  | .advance index _ => decide (index = caller)
  | _ => false

/-- By how much the actions of a call changed the group counter. -/
def movedGroups (caller : Nat) (events : List Event) : Int :=
  ((events.filter (Event.byCall caller)).map fun event =>
    event.after.store.sfa.retainedGroups -
      event.before.store.sfa.retainedGroups).sum

/-- By how much the actions of a call changed the byte counter. -/
def movedBytes (caller : Nat) (events : List Event) : Int :=
  ((events.filter (Event.byCall caller)).map fun event =>
    event.after.store.sfa.retainedBytes -
      event.before.store.sfa.retainedBytes).sum

/-- The action leaves every group as it is. -/
def Event.LeavesGroups (event : Event) : Prop :=
  ∀ key, event.after.store.sfa.lookup key = event.before.store.sfa.lookup key

/-- No action of the call changed a group. -/
def Untouched (caller : Nat) (events : List Event) : Prop :=
  ∀ event ∈ events, event.byCall caller = true → event.LeavesGroups

/-- The action removes the group of one key, whose total is another one. -/
structure Event.Removes (event : Event) (key : FragmentKey) (total : UInt8)
    (group : FragmentGroup) : Prop where
  found : event.before.store.sfa.lookup key = some group
  differs : group.total ≠ total
  gone : event.after.store.sfa.lookup key = none
  others : ∀ other, other ≠ key →
    event.after.store.sfa.lookup other = event.before.store.sfa.lookup other

/-- One action of the call removed the group, the others left all groups. -/
def Removed (caller : Nat) (key : FragmentKey) (total : UInt8)
    (group : FragmentGroup) (events : List Event) : Prop :=
  ∃ earlier event later, events = earlier ++ event :: later ∧
    event.byCall caller = true ∧ event.Removes key total group ∧
    Untouched caller earlier ∧ Untouched caller later

/-- The call joined a packet from the first fragment accepted for each index
since the group was created, its own fragment the last of them. -/
def Completed (caller : Nat) (call : AddCall) (data : Bytes)
    (events : List Event) : Prop :=
  ∃ event ∈ events, event.byCall caller = true ∧
    FragmentGroup.Joins (FragmentGroup.IsFirst
      (event.before.store.offers call.key ++ [call.offer])) call.total data

/-- The call moved the counters by the given amounts. -/
def Moved (caller : Nat) (groups bytes : Int) (events : List Event) : Prop :=
  movedGroups caller events = groups ∧ movedBytes caller events = bytes

/-- What the actions of a call amount to at each phase. -/
def Trail (caller : Nat) (call : AddCall) (events : List Event) : Prop :=
  match call.phase with
  | .begun | .validated | .entered | .locked _ | .groupReserved (some _) =>
    Moved caller 0 0 events ∧ Untouched caller events
  | .groupReserved none | .refundGroup =>
    Moved caller 1 0 events ∧ Untouched caller events
  | .bytesReserved _ => True
  | .owing (.error failure) group =>
    failure = .fragmentTotalMismatch ∧ Moved caller 0 0 events ∧
      Removed caller call.key call.total group events
  | .owingBytes (.error failure) bytes =>
    failure = .fragmentTotalMismatch ∧ ∃ group,
      bytes = group.retainedBytes ∧ Moved caller (-1) 0 events ∧
      Removed caller call.key call.total group events
  | .returned (.error failure) =>
    if failure = .fragmentTotalMismatch then
      ∃ group, Moved caller (-1) (-group.retainedBytes) events ∧
        Removed caller call.key call.total group events
    else Moved caller 0 0 events ∧ Untouched caller events
  | .owing (.ok (some data)) _ | .owingBytes (.ok (some data)) _
  | .returned (.ok (some data)) => Completed caller call data events
  | .owing (.ok none) _ | .owingBytes (.ok none) _ | .returned (.ok none) =>
    True

section Append

variable {caller : Nat} {events : List Event} {event : Event}
  {groups bytes : Int} {key : FragmentKey} {total : UInt8}
  {group : FragmentGroup} {call : AddCall} {data : Bytes}

theorem Moved.append_other (moved : Moved caller groups bytes events)
    (other : event.byCall caller = false) :
    Moved caller groups bytes (events ++ [event]) := by
  unfold Moved movedGroups movedBytes at moved ⊢
  rw [List.filter_append, List.filter_singleton, other]
  simpa using moved

theorem Moved.append (moved : Moved caller groups bytes events)
    (own : event.byCall caller = true) {groupsBy bytesBy : Int}
    (groupsMove : event.after.store.sfa.retainedGroups =
      event.before.store.sfa.retainedGroups + groupsBy)
    (bytesMove : event.after.store.sfa.retainedBytes =
      event.before.store.sfa.retainedBytes + bytesBy) :
    Moved caller (groups + groupsBy) (bytes + bytesBy)
      (events ++ [event]) := by
  obtain ⟨groupsSum, bytesSum⟩ := moved
  unfold movedGroups at groupsSum
  unfold movedBytes at bytesSum
  constructor
  · unfold movedGroups
    rw [List.filter_append, List.filter_singleton, own]
    simp only [cond_true, List.map_append, List.sum_append, List.map_cons,
      List.map_nil, List.sum_cons, List.sum_nil]
    omega
  · unfold movedBytes
    rw [List.filter_append, List.filter_singleton, own]
    simp only [cond_true, List.map_append, List.sum_append, List.map_cons,
      List.map_nil, List.sum_cons, List.sum_nil]
    omega

theorem Untouched.append (untouched : Untouched caller events)
    (leaves : event.byCall caller = true → event.LeavesGroups) :
    Untouched caller (events ++ [event]) := by
  intro other among own
  rcases List.mem_append.mp among with old | new
  · exact untouched other old own
  · cases List.mem_singleton.mp new
    exact leaves own

theorem Removed.append (removed : Removed caller key total group events)
    (leaves : event.byCall caller = true → event.LeavesGroups) :
    Removed caller key total group (events ++ [event]) := by
  obtain ⟨earlier, removal, later, rfl, own, removes, before, after⟩ := removed
  refine ⟨earlier, removal, later ++ [event], ?_, own, removes, before,
    after.append leaves⟩
  simp

theorem Completed.append (completed : Completed caller call data events) :
    Completed caller call data (events ++ [event]) := by
  obtain ⟨joining, among, rest⟩ := completed
  exact ⟨joining, List.mem_append_left _ among, rest⟩

theorem Trail.append_other (trail : Trail caller call events)
    (other : event.byCall caller = false) :
    Trail caller call (events ++ [event]) := by
  have leaves : event.byCall caller = true → event.LeavesGroups := by
    intro own
    cases other.symm.trans own
  unfold Trail at trail ⊢
  split at trail
  all_goals first
    | trivial
    | exact Completed.append trail
    | exact ⟨trail.1.append_other other, trail.2.append leaves⟩
    | skip
  · exact ⟨trail.1, trail.2.1.append_other other, trail.2.2.append leaves⟩
  · obtain ⟨mismatch, group, same, moved, removed⟩ := trail
    exact ⟨mismatch, group, same, moved.append_other other,
      removed.append leaves⟩
  · split at trail
    · rename_i mismatch
      rw [if_pos mismatch]
      obtain ⟨group, moved, removed⟩ := trail
      exact ⟨group, moved.append_other other, removed.append leaves⟩
    · rename_i differs
      rw [if_neg differs]
      exact ⟨trail.1.append_other other, trail.2.append leaves⟩

end Append

section Advance

variable {run : AssemblerRun} {caller : Nat} {call : AddCall}
  {events : List Event} {now : Int} {phase : CallPhase}
  {store : AssemblerStore}

section

variable (found : run.calls[caller]? = some call)
  (advance : (call.advance run.store now).1 = store)

include found advance

theorem same_store :
    (Event.after ⟨run, .advance caller now⟩).store = store := by
  unfold Event.after
  rw [apply_advance found now]
  exact advance

theorem leaves_own
    (same : ∀ key, store.sfa.lookup key = run.store.sfa.lookup key) :
    Event.LeavesGroups ⟨run, .advance caller now⟩ := by
  intro key
  rw [same_store found advance]
  exact same key

omit found advance in
private theorem own_event :
    Event.byCall caller ⟨run, .advance caller now⟩ = true :=
  decide_eq_true rfl

variable {groups bytes groupsAfter bytesAfter : Int}
  (moved : Moved caller groups bytes events)

include moved

theorem Moved.own (groupsBy bytesBy : Int)
    (groupsMove : store.sfa.retainedGroups =
      run.store.sfa.retainedGroups + groupsBy)
    (bytesMove : store.sfa.retainedBytes =
      run.store.sfa.retainedBytes + bytesBy)
    (groupsSum : groups + groupsBy = groupsAfter)
    (bytesSum : bytes + bytesBy = bytesAfter) :
    Moved caller groupsAfter bytesAfter
      (events ++ [⟨run, .advance caller now⟩]) := by
  rw [← groupsSum, ← bytesSum]
  apply moved.append own_event
  · rw [same_store found advance]
    exact groupsMove
  · rw [same_store found advance]
    exact bytesMove

end

/-- An action that leaves the store as it is. -/
theorem Moved.idle {groups bytes : Int}
    (moved : Moved caller groups bytes events)
    (untouched : Untouched caller events)
    (found : run.calls[caller]? = some call)
    (advance : (call.advance run.store now).1 = run.store) :
    Moved caller groups bytes (events ++ [⟨run, .advance caller now⟩]) ∧
      Untouched caller (events ++ [⟨run, .advance caller now⟩]) :=
  ⟨.own found advance moved 0 0 (Int.add_zero _).symm (Int.add_zero _).symm
      (Int.add_zero _) (Int.add_zero _),
    untouched.append fun _ => leaves_own found advance fun _ => rfl⟩

theorem validateFragmentGroup_error {group : FragmentGroup}
    {index total : UInt8} {failure : FragmentError}
    (refused : validateFragmentGroup group index total = .error failure) :
    (failure = .fragmentTotalMismatch ∧ group.total ≠ total) ∨
      failure = .invalidFragIndex := by
  unfold validateFragmentGroup at refused
  split at refused
  · rename_i differs
    cases refused
    exact .inl ⟨rfl, differs⟩
  · split at refused
    · cases refused
      exact .inr rfl
    · cases refused

theorem Trail.inspect (found : run.calls[caller]? = some call)
    (entered : call.phase = .entered)
    (moved : Moved caller 0 0 events) (untouched : Untouched caller events) :
    Trail caller { call with phase := (call.advance run.store now).2 }
      (events ++ [⟨run, .advance caller now⟩]) := by
  have advance : call.advance run.store now = call.inspect run.store := by
    unfold AddCall.advance
    rw [entered]
  have idle : (call.advance run.store now).1 = run.store → _ :=
    moved.idle untouched found
  rw [advance] at idle ⊢
  unfold AddCall.inspect at idle ⊢
  cases held : run.store.sfa.lookup call.key with
  | none =>
    rw [held] at idle
    exact idle rfl
  | some group =>
    rw [held] at idle
    dsimp only at idle ⊢
    cases valid : validateFragmentGroup group call.index call.total with
    | ok value =>
      dsimp only
      split
      · trivial
      · rename_i vacant
        rw [valid] at idle
        dsimp only at idle
        rw [if_neg vacant] at idle
        exact idle rfl
    | error failure =>
      rw [valid] at idle
      rcases validateFragmentGroup_error valid with ⟨rfl, differs⟩ | rfl
      · have removes := congrArg Prod.fst advance
        unfold AddCall.inspect at removes
        rw [held] at removes
        dsimp only at removes
        rw [valid] at removes
        refine ⟨rfl, moved.own found removes 0 0 (Int.add_zero _).symm
          (Int.add_zero _).symm (Int.add_zero 0) (Int.add_zero 0), events, _,
          [], rfl, own_event, ⟨held, differs, ?_, ?_⟩, untouched, ?_⟩
        · rw [same_store found removes, lookup_remove]
          exact if_pos rfl
        · intro other different
          rw [same_store found removes, lookup_remove]
          exact if_neg different
        · intro event among
          cases among
      · exact idle rfl

variable {existing : Option FragmentGroup}

theorem Trail.reserveGroup (found : run.calls[caller]? = some call)
    (locked : call.phase = .locked existing) (moved : Moved caller 0 0 events)
    (untouched : Untouched caller events) :
    Trail caller { call with phase := (call.advance run.store now).2 }
      (events ++ [⟨run, .advance caller now⟩]) := by
  have advance : call.advance run.store now =
      AddCall.reserveGroup run.store existing := by
    unfold AddCall.advance
    rw [locked]
  have leaves : Untouched caller (events ++ [⟨run, .advance caller now⟩]) := by
    refine untouched.append fun _ => leaves_own found rfl ?_
    intro key
    rw [advance]
    unfold AddCall.reserveGroup
    cases existing with
    | some group => rfl
    | none =>
      dsimp only
      split <;> rfl
  have amounts : ∀ {groupsBy : Int},
      (call.advance run.store now).1.sfa.retainedGroups =
        run.store.sfa.retainedGroups + groupsBy →
      (call.advance run.store now).1.sfa.retainedBytes =
        run.store.sfa.retainedBytes →
      Moved caller groupsBy 0 (events ++ [⟨run, .advance caller now⟩]) := by
    intro groupsBy groupsMove bytesSame
    exact moved.own found rfl groupsBy 0 groupsMove
      (bytesSame.trans (Int.add_zero _).symm) (Int.zero_add _) (Int.add_zero 0)
  rw [advance] at amounts ⊢
  unfold AddCall.reserveGroup at amounts ⊢
  cases existing with
  | some group => exact ⟨amounts (Int.add_zero _).symm rfl, leaves⟩
  | none =>
    dsimp only at amounts ⊢
    cases reserved : reserveFragmentCapacity run.store.sfa.retainedGroups 1
        (fragmentGroupLimit run.store.sfa.maxGroups) with
    | none =>
      rw [reserved] at amounts
      exact ⟨amounts (Int.add_zero _).symm rfl, leaves⟩
    | some retainedGroups =>
      rw [reserved] at amounts
      obtain ⟨raised, _⟩ := AddCall.reserveFragmentCapacity_some reserved
      exact ⟨amounts raised rfl, leaves⟩

theorem Trail.reserveBytes (found : run.calls[caller]? = some call)
    (reserved : call.phase = .groupReserved existing)
    (moved : Moved caller (if existing.isNone then 1 else 0) 0 events)
    (untouched : Untouched caller events) :
    Trail caller { call with phase := (call.advance run.store now).2 }
      (events ++ [⟨run, .advance caller now⟩]) := by
  have advance : call.advance run.store now =
      call.reserveBytes run.store existing := by
    unfold AddCall.advance
    rw [reserved]
  rw [advance]
  unfold AddCall.reserveBytes
  cases taken : reserveFragmentCapacity run.store.sfa.retainedBytes
      (fragmentRetainedBytes call.payload)
      (fragmentByteLimit run.store.sfa.maxBytes) with
  | some retainedBytes => trivial
  | none =>
    have store : (call.advance run.store now).1 = { run.store with
          sfa := { run.store.sfa with
            byteDrops := run.store.sfa.byteDrops + 1 } } := by
      rw [advance]
      unfold AddCall.reserveBytes
      rw [taken]
    have leaves := untouched.append fun _ =>
      leaves_own found store fun _ => rfl
    have amounts := moved.own found store 0 0 (Int.add_zero _).symm
      (Int.add_zero _).symm (Int.add_zero _) (Int.add_zero 0)
    cases existing with
    | none | some => exact ⟨amounts, leaves⟩

theorem Trail.storeFragment (sound : run.Sound)
    (found : run.calls[caller]? = some call)
    (reserved : call.phase = .bytesReserved existing) :
    Trail caller { call with phase := (call.advance run.store now).2 }
      (events ++ [⟨run, .advance caller now⟩]) := by
  have ready := sound.ready call (List.mem_of_getElem? found)
  unfold AddCall.Ready at ready
  rw [reserved] at ready
  obtain ⟨fits, held⟩ := ready
  have gathered := sound.gathered call.key
  have advance : call.advance run.store now =
      call.storeFragment run.store now existing := by
    unfold AddCall.advance
    rw [reserved]
  rw [advance]
  unfold AddCall.storeFragment
  extract_lets stored
  split
  · rename_i complete
    refine ⟨⟨run, .advance caller now⟩,
      List.mem_append_right _ (List.mem_singleton_self _), own_event, ?_⟩
    apply fits.extended_joins _ _ complete
    · intro group same
      exact gathered.gathers group (held.trans same)
    · intro absent
      exact gathered.fresh (held.trans absent)
  · trivial

theorem Trail.advance (sound : run.Sound)
    (found : run.calls[caller]? = some call)
    (trail : Trail caller call events)
    (enabled : run.Enabled (.advance caller now)) :
    Trail caller { call with phase := (call.advance run.store now).2 }
      (events ++ [⟨run, .advance caller now⟩]) := by
  unfold Trail at trail
  cases phase : call.phase with
  | begun =>
    rw [phase] at trail
    have all := trail.1.idle trail.2 found
      (advance_outside _ _ now (by rw [phase]; rfl))
    unfold AddCall.advance
    rw [phase]
    dsimp only
    unfold validateFragmentInput
    split
    · rename_i refused
      split at refused
      · cases refused
        exact all
      · split at refused
        · cases refused
          exact all
        · cases refused
    · exact all
  | validated =>
    rw [phase] at trail
    have all := trail.1.idle trail.2 found
      (advance_outside _ _ now (by rw [phase]; rfl))
    unfold AddCall.advance
    rw [phase]
    dsimp only
    split
    · exact all
    · exact all
  | entered =>
    rw [phase] at trail
    exact .inspect found phase trail.1 trail.2
  | locked existing =>
    rw [phase] at trail
    exact .reserveGroup found phase trail.1 trail.2
  | groupReserved existing =>
    rw [phase] at trail
    cases existing with
    | none | some => exact .reserveBytes found phase trail.1 trail.2
  | bytesReserved existing => exact .storeFragment sound found phase
  | refundGroup =>
    rw [phase] at trail
    have step : call.advance run.store now = (lowerGroups run.store 1,
          .returned (.error .fragmentAssemblerFull)) := by
      unfold AddCall.advance
      rw [phase]
      rfl
    have lowers := congrArg Prod.fst step
    rw [step]
    exact ⟨trail.1.own found lowers (-1) 0 rfl (Int.add_zero _).symm rfl
        (Int.add_zero 0),
      trail.2.append fun _ => leaves_own found lowers fun _ => rfl⟩
  | owing result group =>
    rw [phase] at trail
    have step : call.advance run.store now =
        (lowerGroups run.store 1, .owingBytes result group.retainedBytes) := by
      unfold AddCall.advance
      rw [phase]
      rfl
    have lowers := congrArg Prod.fst step
    rw [step]
    cases result with
    | ok joined =>
      cases joined with
      | none => trivial
      | some data => exact Completed.append trail
    | error failure =>
      obtain ⟨mismatch, moved, removed⟩ := trail
      exact ⟨mismatch, group, rfl, moved.own found lowers (-1) 0 rfl
          (Int.add_zero _).symm rfl (Int.add_zero 0),
        removed.append fun _ => leaves_own found lowers fun _ => rfl⟩
  | owingBytes result bytes =>
    rw [phase] at trail
    have step : call.advance run.store now =
        (lowerBytes run.store bytes, .returned result) := by
      unfold AddCall.advance
      rw [phase]
      rfl
    have lowers := congrArg Prod.fst step
    rw [step]
    cases result with
    | ok joined =>
      cases joined with
      | none => trivial
      | some data => exact Completed.append trail
    | error failure =>
      obtain ⟨mismatch, group, same, moved, removed⟩ := trail
      change if failure = _ then _ else _
      rw [if_pos mismatch]
      rw [same] at lowers
      exact ⟨group, moved.own found lowers 0 _ (Int.add_zero _).symm rfl
          (Int.add_zero _) (Int.zero_add _),
        removed.append fun _ => leaves_own found lowers fun _ => rfl⟩
  | returned result =>
    unfold Enabled at enabled
    dsimp only at enabled
    rw [found] at enabled
    dsimp only at enabled
    rw [phase] at enabled
    exact enabled.elim

end Advance

/-! ## Whole runs -/

section Runs

variable {hash : FragmentKey → Nat} {shardCount maxGroups maxBytes : Int}
  {events : List Event} {run : AssemblerRun}

/-- The sweep and `Close` concern neither calls nor limits. -/
theorem sweep_keeps (run : AssemblerRun) (now : Int) :
    (run.sweep now).calls = run.calls ∧
      (run.sweep now).store.sfa.maxGroups = run.store.sfa.maxGroups ∧
      (run.sweep now).store.sfa.maxBytes = run.store.sfa.maxBytes := by
  unfold sweep
  repeat' split
  all_goals exact ⟨rfl, rfl, rfl⟩

theorem close_keeps (run : AssemblerRun) :
    run.close.calls = run.calls ∧
      run.close.store.sfa.maxGroups = run.store.sfa.maxGroups ∧
      run.close.store.sfa.maxBytes = run.store.sfa.maxBytes := by
  unfold close
  repeat' split
  all_goals exact ⟨rfl, rfl, rfl⟩

theorem length_calls_apply (run : AssemblerRun) (op : Op) :
    run.calls.length ≤ (run.apply op).calls.length := by
  cases op with
  | begin_ =>
    change _ ≤ (run.calls ++ [_]).length
    rw [List.length_append]
    exact Nat.le_add_right _ _
  | advance index now =>
    unfold apply
    dsimp only
    split
    · exact Nat.le_refl _
    · exact (List.length_set ..).symm.le
  | sweep now =>
    change _ ≤ (run.sweep now).calls.length
    rw [(run.sweep_keeps now).1]
  | close =>
    change _ ≤ run.close.calls.length
    rw [run.close_keeps.1]

theorem Runs.begun (runs : Runs hash shardCount maxGroups maxBytes events run)
    {caller : Nat} {event : Event} (among : event ∈ events)
    (own : event.byCall caller = true) : caller < run.calls.length := by
  induction runs with
  | start => cases among
  | next runs enabled ih =>
    rename_i earlier before op
    rcases List.mem_append.mp among with old | new
    · exact Nat.lt_of_lt_of_le (ih old) (length_calls_apply before op)
    cases List.mem_singleton.mp new
    unfold Event.byCall at own
    dsimp only at own
    split at own
    · rename_i index now
      cases of_decide_eq_true own
      obtain ⟨call, found⟩ := exists_call_of_enabled enabled
      exact Nat.lt_of_lt_of_le (List.getElem?_eq_some_iff.mp found).1
        (length_calls_apply before _)
    · cases own

/-- Every call of a run has done what its phase tells. -/
theorem Runs.trail (runs : Runs hash shardCount maxGroups maxBytes events run) :
    ∀ (caller : Nat) (call : AddCall), run.calls[caller]? = some call →
      Trail caller call events := by
  induction runs with
  | start =>
    intro caller call found
    cases found
  | @next earlier before op runs enabled ih =>
    intro caller call found
    cases op with
    | begin_ sessionID fragID index total payload =>
      rcases cases_append found with ⟨new, rfl⟩ | found
      · -- The new call has not acted.
        have none : ∀ event ∈ earlier ++
            [⟨before, .begin_ sessionID fragID index total payload⟩],
            event.byCall caller = false := by
          intro event among
          rcases List.mem_append.mp among with old | last
          · rw [← Bool.not_eq_true]
            intro own
            have bound := runs.begun old own
            omega
          · cases List.mem_singleton.mp last
            rfl
        have noEvents : List.filter (Event.byCall caller) (earlier ++
            [⟨before, .begin_ sessionID fragID index total
              payload⟩]) = [] := by
          apply List.filter_eq_nil_iff.mpr
          intro event among
          rw [none event among]
          exact Bool.false_ne_true
        refine ⟨⟨?_, ?_⟩, ?_⟩
        · unfold movedGroups
          rw [noEvents]
          rfl
        · unfold movedBytes
          rw [noEvents]
          rfl
        · intro event among own
          cases (none event among).symm.trans own
      · exact (ih caller call found).append_other rfl
    | advance index now =>
      obtain ⟨moving, at_⟩ := exists_call_of_enabled enabled
      rw [apply_advance at_ now] at found
      rcases cases_set at_ found with ⟨rfl, rfl⟩ | ⟨different, found⟩
      · exact (ih caller moving at_).advance runs.sound at_ enabled
      · apply (ih caller call found).append_other
        exact decide_eq_false (Ne.symm different)
    | sweep now =>
      change (before.sweep now).calls[caller]? = _ at found
      rw [(before.sweep_keeps now).1] at found
      exact (ih caller call found).append_other rfl
    | close =>
      change before.close.calls[caller]? = _ at found
      rw [before.close_keeps.1] at found
      exact (ih caller call found).append_other rfl

/-- The limits are those the assembler was made with. -/
theorem Runs.setup (runs : Runs hash shardCount maxGroups maxBytes events run) :
    run.store.sfa.maxGroups = maxGroups ∧
      run.store.sfa.maxBytes = maxBytes := by
  induction runs with
  | start => exact ⟨rfl, rfl⟩
  | @next earlier before op runs enabled ih =>
    cases op with
    | begin_ => exact ih
    | sweep now =>
      obtain ⟨_, groups, bytes⟩ := before.sweep_keeps now
      exact ⟨groups.trans ih.1, bytes.trans ih.2⟩
    | close =>
      obtain ⟨_, groups, bytes⟩ := before.close_keeps
      exact ⟨groups.trans ih.1, bytes.trans ih.2⟩
    | advance index now =>
      cases found : before.calls[index]? with
      | none =>
        unfold apply
        dsimp only
        rw [found]
        exact ih
      | some call =>
        have setup := (AddCall.advance_advances runs.sound.positive
          (runs.sound.gathered call.key)
          (runs.sound.ready call (List.mem_of_getElem? found))
          now).setup
        rw [apply_advance found now]
        exact ⟨setup.maxGroups.trans ih.1, setup.maxBytes.trans ih.2⟩

end Runs

section Accounting

variable {run : AssemblerRun} {events : List Event}

theorem owes_nothing {phase : CallPhase} (payload : Bytes)
    (outside : phase.inside = false) :
    phase.owedGroups = 0 ∧ phase.owedBytes payload = 0 := by
  cases phase with
  | begun | validated | returned => exact ⟨rfl, rfl⟩
  | entered | locked | groupReserved | bytesReserved | refundGroup | owing
  | owingBytes => cases outside

theorem calls_owe_nothing
    (outside : ∀ call ∈ run.calls, call.phase.inside = false) :
    run.callsOweGroups = 0 ∧ run.callsOweBytes = 0 := by
  constructor
  · apply List.sum_eq_zero
    intro owed among
    obtain ⟨call, member, rfl⟩ := List.mem_map.mp among
    exact (owes_nothing call.payload (outside call member)).1
  · apply List.sum_eq_zero
    intro owed among
    obtain ⟨call, member, rfl⟩ := List.mem_map.mp among
    exact (owes_nothing call.payload (outside call member)).2

/-- Where nothing is in progress the counters are exact. -/
theorem Sound.exact (sound : run.Sound) (quiescent : run.Quiescent) :
    run.store.sfa.retainedGroups = run.store.sfa.heldGroups ∧
      run.store.sfa.retainedBytes = run.store.sfa.heldBytes := by
  obtain ⟨outside, waiting, free⟩ := quiescent
  obtain ⟨groups, bytes⟩ := calls_owe_nothing outside
  have groupBalance := sound.groups
  have byteBalance := sound.bytes
  have closing : run.closing.owedGroups = 0 ∧ run.closing.owedBytes = 0 := by
    cases phase : run.closing with
    | opened | done => exact ⟨rfl, rfl⟩
    | visiting | owing | owingBytes =>
      rw [phase] at free
      cases free
  rw [waiting] at groupBalance byteBalance
  change _ = _ + 0 + _ at groupBalance
  change _ = _ + 0 + _ at byteBalance
  omega

/-- Nothing is held and nothing is counted. -/
structure Empty (run : AssemblerRun) : Prop where
  retainedGroups : run.store.sfa.retainedGroups = 0
  retainedBytes : run.store.sfa.retainedBytes = 0
  heldGroups : run.store.sfa.heldGroups = 0
  heldBytes : run.store.sfa.heldBytes = 0
  groups : ∀ key, run.store.sfa.lookup key = none

theorem Sound.empty (sound : run.Sound) (done : run.closing = .done) :
    run.Empty := by
  have started : run.closing ≠ .opened := by
    rw [done]
    simp
  have shards : ∀ shard, shard < run.store.sfa.shardCount →
      run.store.sfa.shards shard = ∅ := by
    intro shard bound
    apply sound.cleared shard bound
    rw [done]
    trivial
  have groups : run.store.sfa.heldGroups = 0 := by
    apply Finset.sum_eq_zero
    intro shard bound
    rw [shards shard (Finset.mem_range.mp bound)]
    rfl
  have bytes : run.store.sfa.heldBytes = 0 := by
    unfold heldBytes held
    apply Finset.sum_eq_zero
    intro shard bound
    rw [shards shard (Finset.mem_range.mp bound)]
    rfl
  obtain ⟨callGroups, callBytes⟩ := calls_owe_nothing (sound.left started)
  obtain ⟨sweepGroups, sweepBytes⟩ := sound.spent done
  have groupBalance := sound.groups
  have byteBalance := sound.bytes
  rw [done] at groupBalance byteBalance
  change _ = _ + 0 at groupBalance
  change _ = _ + 0 at byteBalance
  refine ⟨by omega, by omega, groups, bytes, ?_⟩
  intro key
  have own := shards (run.store.sfa.shardIndex key)
    (Nat.mod_lt _ sound.positive)
  unfold lookup
  rw [own, FiniteMap.get_empty]

theorem closing_apply {op : Op} (enabled : run.Enabled op)
    (done : run.closing = .done) : (run.apply op).closing = .done := by
  cases op with
  | begin_ => exact done
  | advance index now =>
    unfold apply
    dsimp only
    split <;> exact done
  | sweep now =>
    change (run.sweep now).closing = _
    unfold sweep
    repeat' split
    all_goals exact done
  | close =>
    unfold Enabled at enabled
    dsimp only at enabled
    rw [done] at enabled
    exact enabled.elim

/-- The accounts of a run, with what each of its calls has done. -/
structure Accounted (maxGroups maxBytes : Int) (events : List Event)
    (run : AssemblerRun) : Prop where
  quiescent : run.Quiescent →
    run.store.sfa.retainedGroups = run.store.sfa.heldGroups ∧
      run.store.sfa.retainedBytes = run.store.sfa.heldBytes
  groupLimit : run.store.sfa.retainedGroups ≤ fragmentGroupLimit maxGroups
  byteLimit : run.store.sfa.retainedBytes ≤ fragmentByteLimit maxBytes
  held : ∀ key group, run.store.sfa.lookup key = some group →
    group.received < group.total ∧
      group.received.toNat = group.data.countP Option.isSome ∧
      group.data.length = group.total.toNat
  failed : ∀ (caller : Nat) (call : AddCall) (failure : FragmentError),
    run.calls[caller]? = some call →
    call.phase = .returned (.error failure) →
    failure ≠ .fragmentTotalMismatch →
    Moved caller 0 0 events ∧ Untouched caller events
  mismatched : ∀ (caller : Nat) (call : AddCall),
    run.calls[caller]? = some call →
    call.phase = .returned (.error .fragmentTotalMismatch) →
    ∃ group, Moved caller (-1) (-group.retainedBytes) events ∧
      Removed caller call.key call.total group events
  completed : ∀ (caller : Nat) (call : AddCall) (data : Bytes),
    run.calls[caller]? = some call →
    call.phase = .returned (.ok (some data)) →
    Completed caller call data events
  history : ∀ key, run.store.sfa.lookup key = none → run.store.offers key = []
  closed : run.closing = .done → run.Empty ∧
    (∀ op, run.Enabled op → (run.apply op).closing = .done ∧
      (run.apply op).Empty) ∧
    ∀ caller now, (run.apply (.advance caller now)).store = run.store

/-- Every run of an assembler, whatever its calls are given and however they
interleave with sweeps and `Close`, keeps its accounts. -/
theorem assembler_accounted (hash : FragmentKey → Nat)
    (shardCount maxGroups maxBackingBytes : Int) (events : List Event)
    (run : AssemblerRun)
    (runs : Runs hash shardCount maxGroups maxBackingBytes events run) :
    Accounted maxGroups maxBackingBytes events run := by
  have sound := runs.sound
  obtain ⟨groupSetup, byteSetup⟩ := runs.setup
  refine ⟨sound.exact, ?_, ?_, ?_, ?_, ?_, ?_, ?_, ?_⟩
  · rw [← groupSetup]
    exact sound.within.groups
  · rw [← byteSetup]
    exact sound.within.bytes
  · intro key group found
    have collects := ((sound.gathered key).gathers group found).collects
    exact ⟨collects.incomplete, collects.counted, collects.slots⟩
  · intro caller call failure found returned differs
    have trail := runs.trail caller call found
    unfold Trail at trail
    rw [returned] at trail
    dsimp only at trail
    rw [if_neg differs] at trail
    exact trail
  · intro caller call found returned
    have trail := runs.trail caller call found
    unfold Trail at trail
    rw [returned] at trail
    dsimp only at trail
    rw [if_pos rfl] at trail
    exact trail
  · intro caller call data found returned
    have trail := runs.trail caller call found
    unfold Trail at trail
    rw [returned] at trail
    exact trail
  · intro key absent
    exact (sound.gathered key).fresh absent
  · intro done
    refine ⟨sound.empty done, ?_, ?_⟩
    · intro op enabled
      have stays := closing_apply enabled done
      exact ⟨stays, (sound.apply enabled).empty stays⟩
    · intro caller now
      have started : run.closing ≠ .opened := by
        rw [done]
        simp
      cases found : run.calls[caller]? with
      | none =>
        unfold apply
        dsimp only
        rw [found]
      | some call =>
        rw [apply_advance found now]
        exact advance_outside run.store call now
          (sound.left started call (List.mem_of_getElem? found))

/-- The actions of a schedule with the states they find. -/
def eventsOf : AssemblerRun → List Op → List Event
  | _, [] => []
  | run, op :: rest => ⟨run, op⟩ :: eventsOf (run.apply op) rest

theorem Runs.schedule {hash : FragmentKey → Nat}
    {shardCount maxGroups maxBytes : Int}
    (runs : Runs hash shardCount maxGroups maxBytes events run)
    {schedule : List Op}
    (allows : TransitionSystem.Allows Enabled apply run schedule) :
    Runs hash shardCount maxGroups maxBytes
      (events ++ eventsOf run schedule) (schedule.foldl apply run) := by
  induction schedule generalizing events run with
  | nil =>
    rw [eventsOf, List.append_nil]
    exact runs
  | cons op rest ih =>
    have later := ih (runs.next allows.1) allows.2
    rw [List.append_assoc] at later
    exact later

/-- Two fragments that join while a third call with another total interrupts
a group of its own, and a `Close` at the end. -/
def sampleSchedule : List Op :=
  [.begin_ 1 7 1 2 [4], .begin_ 1 7 0 2 [3], .begin_ 2 7 0 3 [5],
    .begin_ 2 7 0 2 [6],
    .advance 0 0, .advance 1 0, .advance 2 0, .advance 0 0, .advance 2 0,
    .advance 0 0, .advance 0 0, .advance 0 0, .advance 0 0, .advance 1 0,
    .advance 1 0, .advance 1 0, .advance 1 0, .advance 1 0, .advance 1 0,
    .advance 1 0, .advance 2 0, .advance 2 0, .advance 2 0, .advance 2 0,
    .advance 3 0, .advance 3 0, .advance 3 0, .sweep 1, .advance 3 0,
    .advance 3 0, .sweep 1, .sweep 1, .sweep 1, .sweep 1, .close, .close,
    .close, .close, .close]

theorem assembler_accounted_sample :
    ∃ events run, Runs (fun _ => 0) 1 0 0 events run ∧
      run.calls.map (fun call => call.phase) =
        [.returned (.ok none), .returned (.ok (some [3, 4])),
          .returned (.ok none),
          .returned (.error .fragmentTotalMismatch)] ∧
      run.closing = .done ∧ Accounted 0 0 events run := by
  have allows : TransitionSystem.Allows Enabled apply
      (new (fun _ => 0) 1 0 0) sampleSchedule := by
    decide +kernel
  have runs := Runs.schedule Runs.start allows
  refine ⟨_, _, runs, ?_, ?_, ?_⟩
  · decide +kernel
  · decide +kernel
  · exact assembler_accounted _ _ _ _ _ _ runs

end Accounting

end AssemblerRun

end QMux.Protocol
