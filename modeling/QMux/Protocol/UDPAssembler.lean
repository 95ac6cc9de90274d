import Mathlib.Algebra.BigOperators.Group.Finset.Basic
import QMux.Protocol.UDPFragmentRoundTrip

/-!
# The fragment assembler under concurrent calls

`AddFragment`, the cleanup loop and `Close` at the granularity of their
atomic actions.  A call validates its input, takes the lifecycle lock for
reading, locks the shard of its key, and then reserves a group, reserves
bytes, stores the fragment and gives back what it no longer needs, one
counter access at a time.  Other calls, a sweep and `Close` run between any
two of these actions as far as the two locks let them.

`offers` is a history variable: the fragments accepted for a key since its
group was created, in the order of acceptance.  Nothing reads it.
-/

namespace QMux.Protocol

open Support

/-- What a fragment adds to the retained bytes: the capacity of the pooled
buffer it is copied to, or its own length when it does not fit one. -/
def fragmentRetainedBytes (payload : Bytes) : Int :=
  if payload.length ≤ fragmentBufferSize then fragmentBufferSize
  else payload.length

/-- A group before its first fragment is stored. -/
def newFragmentGroup (total : UInt8) (now : Int) : FragmentGroup :=
  { total := total
    received := 0
    data := List.replicate total.toNat none
    createdAt := now
    retainedBytes := 0 }

/-- The group is dropped by a sweep at `now`. -/
def FragmentGroup.expired (now : Int) (group : FragmentGroup) : Bool :=
  decide (now - group.createdAt > fragmentTimeout)

abbrev FragmentResult := Except FragmentError (Option Bytes)

/-- How far a call of `AddFragment` has come.  From `locked` on it holds its
shard's mutex, and from `entered` on the lifecycle lock for reading. -/
inductive CallPhase where
  | begun
  | validated
  | entered
  | locked (existing : Option FragmentGroup)
  | groupReserved (existing : Option FragmentGroup)
  | bytesReserved (existing : Option FragmentGroup)
  | refundGroup
  | owing (result : FragmentResult) (group : FragmentGroup)
  | owingBytes (result : FragmentResult) (bytes : Int)
  | returned (result : FragmentResult)
deriving DecidableEq

structure AddCall where
  sessionID : UInt32
  fragID : UInt64
  index : UInt8
  total : UInt8
  payload : Bytes
  phase : CallPhase

def AddCall.key (call : AddCall) : FragmentKey := ⟨call.sessionID, call.fragID⟩

def AddCall.offer (call : AddCall) : Nat × Bytes :=
  (call.index.toNat, call.payload)

/-- The groups with their history. -/
structure AssemblerStore where
  sfa : ShardedFragmentAssembler
  offers : FragmentKey → List (Nat × Bytes)

namespace ShardedFragmentAssembler

/-- Delete a group from its key's shard. -/
def remove (sfa : ShardedFragmentAssembler) (key : FragmentKey) :
    ShardedFragmentAssembler :=
  { sfa with
    shards := Function.update sfa.shards (sfa.shardIndex key)
      ((sfa.shards (sfa.shardIndex key)).delete key) }

end ShardedFragmentAssembler

namespace AddCall

/-- Lock the shard and look at the group of the key. -/
def inspect (store : AssemblerStore) (call : AddCall) :
    AssemblerStore × CallPhase :=
  match store.sfa.lookup call.key with
  | none => (store, .locked none)
  | some group =>
    match validateFragmentGroup group call.index call.total with
    | .error .fragmentTotalMismatch =>
      ({ sfa := store.sfa.remove call.key
         offers := Function.update store.offers call.key [] },
        .owing (.error .fragmentTotalMismatch) group)
    | .error failure => (store, .returned (.error failure))
    | .ok () =>
      if (group.data[call.index.toNat]?.join).isSome then
        ({ store with
           offers := Function.update store.offers call.key
             (store.offers call.key ++ [call.offer]) },
          .returned (.ok none))
      else (store, .locked (some group))

/-- Reserve a group for a key that has none. -/
def reserveGroup (store : AssemblerStore) (existing : Option FragmentGroup) :
    AssemblerStore × CallPhase :=
  match existing with
  | some group => (store, .groupReserved (some group))
  | none =>
    match reserveFragmentCapacity store.sfa.retainedGroups 1
        (fragmentGroupLimit store.sfa.maxGroups) with
    | none =>
      ({ store with
         sfa := { store.sfa with groupDrops := store.sfa.groupDrops + 1 } },
        .returned (.error .fragmentAssemblerFull))
    | some retainedGroups =>
      ({ store with
         sfa := { store.sfa with retainedGroups := retainedGroups } },
        .groupReserved none)

/-- Reserve the bytes of the fragment. -/
def reserveBytes (store : AssemblerStore) (call : AddCall)
    (existing : Option FragmentGroup) : AssemblerStore × CallPhase :=
  match reserveFragmentCapacity store.sfa.retainedBytes
      (fragmentRetainedBytes call.payload)
      (fragmentByteLimit store.sfa.maxBytes) with
  | none =>
    ({ store with
       sfa := { store.sfa with byteDrops := store.sfa.byteDrops + 1 } },
      match existing with
      | none => .refundGroup
      | some _ => .returned (.error .fragmentAssemblerFull))
  | some retainedBytes =>
    ({ store with
       sfa := { store.sfa with retainedBytes := retainedBytes } },
      .bytesReserved existing)

/-- The group with the call's fragment in its slot. -/
def extended (call : AddCall) (now : Int) (existing : Option FragmentGroup) :
    FragmentGroup :=
  let group := existing.getD (newFragmentGroup call.total now)
  { group with
    retainedBytes := group.retainedBytes + fragmentRetainedBytes call.payload
    data := group.data.set call.index.toNat (some call.payload)
    received := group.received + 1 }

/-- Store the fragment, and join the group when it is complete. -/
def storeFragment (store : AssemblerStore) (call : AddCall) (now : Int)
    (existing : Option FragmentGroup) : AssemblerStore × CallPhase :=
  let stored := call.extended now existing
  if stored.received = stored.total then
    ({ sfa := store.sfa.remove call.key
       offers := Function.update store.offers call.key [] },
      .owing (.ok (some (joinFragmentGroup stored))) stored)
  else
    ({ sfa := store.sfa.store call.key stored
       offers := Function.update store.offers call.key
         (store.offers call.key ++ [call.offer]) },
      .returned (.ok none))

/-- The next action of a call. -/
def advance (store : AssemblerStore) (call : AddCall) (now : Int) :
    AssemblerStore × CallPhase :=
  match call.phase with
  | .begun =>
    match validateFragmentInput call.index call.total with
    | .error failure => (store, .returned (.error failure))
    | .ok () => (store, .validated)
  | .validated =>
    if store.sfa.closed then
      (store, .returned (.error .fragmentAssemblerClosed))
    else (store, .entered)
  | .entered => call.inspect store
  | .locked existing => reserveGroup store existing
  | .groupReserved existing => call.reserveBytes store existing
  | .bytesReserved existing => call.storeFragment store now existing
  | .refundGroup =>
    ({ store with
       sfa := { store.sfa with
         retainedGroups := store.sfa.retainedGroups - 1 } },
      .returned (.error .fragmentAssemblerFull))
  | .owing result group =>
    ({ store with
       sfa := { store.sfa with
         retainedGroups := store.sfa.retainedGroups - 1 } },
      .owingBytes result group.retainedBytes)
  | .owingBytes result bytes =>
    ({ store with
       sfa := { store.sfa with
         retainedBytes := store.sfa.retainedBytes - bytes } },
      .returned result)
  | .returned result => (store, .returned result)

end AddCall

namespace CallPhase

/-- The call holds the mutex of its shard. -/
def holdsShard : CallPhase → Bool
  | .locked _ | .groupReserved _ | .bytesReserved _ | .refundGroup
  | .owing _ _ | .owingBytes _ _ => true
  | .begun | .validated | .entered | .returned _ => false

/-- The call holds the lifecycle lock. -/
def inside (phase : CallPhase) : Bool :=
  phase.holdsShard || decide (phase = .entered)

end CallPhase

/-- The cleanup goroutine: waiting for the ticker, on its way to shard
`next`, or with shard `next` locked and counters still to be lowered. -/
inductive CleanupPhase where
  | waiting
  | visiting (now : Int) (next : Nat)
  | owing (now : Int) (next : Nat) (groups bytes : Int)
  | owingBytes (now : Int) (next : Nat) (bytes : Int)
deriving DecidableEq

/-- `Close`, which holds the lifecycle lock until it is done. -/
inductive ClosePhase where
  | opened
  | visiting (next : Nat)
  | owing (next : Nat) (groups bytes : Int)
  | owingBytes (next : Nat) (bytes : Int)
  | done
deriving DecidableEq

/-- The lifecycle lock is not held for writing. -/
def ClosePhase.lockFree : ClosePhase → Bool
  | .opened | .done => true
  | .visiting _ | .owing .. | .owingBytes .. => false

namespace CleanupPhase

/-- The shard whose mutex the sweep holds. -/
def shard? : CleanupPhase → Option Nat
  | .waiting | .visiting _ _ => none
  | .owing _ next _ _ => some next
  | .owingBytes _ next _ => some next

end CleanupPhase

/-- Everything the run of an assembler consists of. -/
structure AssemblerRun where
  store : AssemblerStore
  calls : List AddCall
  cleanup : CleanupPhase
  closing : ClosePhase

namespace AssemblerStore

/-- `cleanupExpiredFragmentGroups` and `releaseAllFragmentGroups` on one
shard: the groups a test selects go. -/
def release (store : AssemblerStore) (shard : Nat)
    (dropped : FragmentGroup → Bool) : AssemblerStore :=
  { sfa := { store.sfa with
      shards := Function.update store.sfa.shards shard
        ((store.sfa.shards shard).filter fun group => !dropped group) }
    offers := fun key =>
      if store.sfa.shardIndex key = shard ∧
          (store.sfa.lookup key).any dropped then []
      else store.offers key }

/-- Number of groups the test selects in one shard. -/
def releasedGroups (store : AssemblerStore) (shard : Nat)
    (dropped : FragmentGroup → Bool) : Int :=
  ((store.sfa.shards shard).filter dropped).size

/-- What the selected groups retain. -/
def releasedBytes (store : AssemblerStore) (shard : Nat)
    (dropped : FragmentGroup → Bool) : Int :=
  (((store.sfa.shards shard).filter dropped).values.map
    FragmentGroup.retainedBytes).sum

end AssemblerStore

namespace AssemblerRun

def new (hash : FragmentKey → Nat) (shardCount maxGroups : Int)
    (maxBackingBytes : Int) : AssemblerRun :=
  { store :=
      { sfa := .new hash shardCount maxGroups maxBackingBytes
        offers := fun _ => [] }
    calls := []
    cleanup := .waiting
    closing := .opened }

/-- Lower the group counter. -/
def lowerGroups (store : AssemblerStore) (groups : Int) : AssemblerStore :=
  { store with
    sfa := { store.sfa with
      retainedGroups := store.sfa.retainedGroups - groups } }

/-- Lower the byte counter. -/
def lowerBytes (store : AssemblerStore) (bytes : Int) : AssemblerStore :=
  { store with
    sfa := { store.sfa with
      retainedBytes := store.sfa.retainedBytes - bytes } }

/-- The next action of the cleanup goroutine; `now` is read when the ticker
fires. -/
def sweep (run : AssemblerRun) (now : Int) : AssemblerRun :=
  match run.cleanup with
  | .waiting => { run with cleanup := .visiting now 0 }
  | .visiting now next =>
    if next < run.store.sfa.shardCount then
      let groups := run.store.releasedGroups next (FragmentGroup.expired now)
      let released := run.store.release next (FragmentGroup.expired now)
      { run with
        store := { released with
          sfa := { released.sfa with
            expiredGroups := released.sfa.expiredGroups + groups.toNat } }
        cleanup := .owing now next groups
          (run.store.releasedBytes next (FragmentGroup.expired now)) }
    else { run with cleanup := .waiting }
  | .owing now next groups bytes =>
    { run with
      store := lowerGroups run.store groups
      cleanup := .owingBytes now next bytes }
  | .owingBytes now next bytes =>
    { run with
      store := lowerBytes run.store bytes
      cleanup := .visiting now (next + 1) }

/-- The next action of `Close`. -/
def close (run : AssemblerRun) : AssemblerRun :=
  match run.closing with
  | .opened =>
    { run with
      store := { run.store with
        sfa := { run.store.sfa with closed := true } }
      closing := .visiting 0 }
  | .visiting next =>
    if next < run.store.sfa.shardCount then
      { run with
        store := run.store.release next fun _ => true
        closing := .owing next
          (run.store.releasedGroups next fun _ => true)
          (run.store.releasedBytes next fun _ => true) }
    else { run with closing := .done }
  | .owing next groups bytes =>
    { run with
      store := lowerGroups run.store groups
      closing := .owingBytes next bytes }
  | .owingBytes next bytes =>
    { run with
      store := lowerBytes run.store bytes
      closing := .visiting (next + 1) }
  | .done => run

/-- The atomic actions of all parties. -/
inductive Op where
  | begin_ (sessionID : UInt32) (fragID : UInt64) (index total : UInt8)
      (payload : Bytes)
  | advance (index : Nat) (now : Int)
  | sweep (now : Int)
  | close

/-- No call and no sweep holds the mutex of the shard. -/
def shardFree (run : AssemblerRun) (shard : Nat) : Bool :=
  (run.calls.all fun call =>
    !(call.phase.holdsShard &&
      decide (run.store.sfa.shardIndex call.key = shard))) &&
  decide (run.cleanup.shard? ≠ some shard)

/-- No call and no sweep holds the lifecycle lock. -/
def readersGone (run : AssemblerRun) : Bool :=
  (run.calls.all fun call => !call.phase.inside) &&
  decide (run.cleanup = .waiting)

/-- The locks let the action happen. -/
def Enabled (run : AssemblerRun) : Op → Prop
  | .begin_ .. => True
  | .advance index _ =>
    match run.calls[index]? with
    | none => False
    | some call =>
      match call.phase with
      | .validated => run.closing.lockFree = true
      | .entered =>
        run.shardFree (run.store.sfa.shardIndex call.key) = true
      | .returned _ => False
      | _ => True
  | .sweep _ =>
    match run.cleanup with
    | .waiting => run.closing.lockFree = true
    | .visiting _ next =>
      next < run.store.sfa.shardCount → run.shardFree next = true
    | _ => True
  | .close =>
    match run.closing with
    | .opened => run.readersGone = true
    | .done => False
    | _ => True

instance (run : AssemblerRun) (op : Op) : Decidable (run.Enabled op) := by
  cases op <;> unfold Enabled <;> (try dsimp only) <;> repeat' split
  all_goals infer_instance

def apply (run : AssemblerRun) : Op → AssemblerRun
  | .begin_ sessionID fragID index total payload =>
    { run with
      calls := run.calls ++
        [{ sessionID, fragID, index, total, payload, phase := .begun }] }
  | .advance index now =>
    match run.calls[index]? with
    | none => run
    | some call =>
      { run with
        store := (call.advance run.store now).1
        calls := run.calls.set index
          { call with phase := (call.advance run.store now).2 } }
  | .sweep now => run.sweep now
  | .close => run.close

/-- One action of a run, with the state it found. -/
structure Event where
  before : AssemblerRun
  op : Op

def Event.after (event : Event) : AssemblerRun := event.before.apply event.op

/-- The runs from a new assembler, with every action taken. -/
inductive Runs (hash : FragmentKey → Nat)
    (shardCount maxGroups maxBackingBytes : Int) :
    List Event → AssemblerRun → Prop where
  | start : Runs hash shardCount maxGroups maxBackingBytes []
      (new hash shardCount maxGroups maxBackingBytes)
  | next {events : List Event} {run : AssemblerRun} {op : Op}
      (runs : Runs hash shardCount maxGroups maxBackingBytes events run)
      (enabled : run.Enabled op) :
      Runs hash shardCount maxGroups maxBackingBytes
        (events ++ [⟨run, op⟩]) (run.apply op)

/-- No call, no sweep and no `Close` is at work on the groups. -/
def Quiescent (run : AssemblerRun) : Prop :=
  (∀ call ∈ run.calls, call.phase.inside = false) ∧
  run.cleanup = .waiting ∧ run.closing.lockFree = true

end AssemblerRun

/-! ## One call on its own -/

namespace AddCall

variable {now : Int} {call : AddCall} {store : AssemblerStore}

/-- The actions of a call that nothing interrupts. -/
def alone (now : Int) :
    Nat → AssemblerStore → AddCall → AssemblerStore × CallPhase
  | 0, store, call => (store, call.phase)
  | fuel + 1, store, call =>
    alone now fuel (call.advance store now).1
      { call with phase := (call.advance store now).2 }

/-- Left alone, the call ends as the given outcome of `AddFragment`. -/
def Ends (now : Int) (fuel : Nat) (store : AssemblerStore) (call : AddCall)
    (outcome : FragmentResult × ShardedFragmentAssembler) : Prop :=
  (alone now fuel store call).1.sfa = outcome.2 ∧
    (alone now fuel store call).2 = .returned outcome.1

theorem ends_of_returned {result : FragmentResult}
    (returned : call.phase = .returned result) (fuel : Nat) :
    Ends now fuel store call (result, store.sfa) := by
  induction fuel with
  | zero => exact ⟨rfl, returned⟩
  | succ fuel ih =>
    have still : call.advance store now = (store, call.phase) := by
      unfold advance
      rw [returned]
    unfold Ends at ih ⊢
    rw [alone, still]
    exact ih

variable {outcome : FragmentResult × ShardedFragmentAssembler}
  {existing : Option FragmentGroup}

theorem ends_of_advance {fuel : Nat}
    (ends : Ends now fuel (call.advance store now).1
      { call with phase := (call.advance store now).2 } outcome) :
    Ends now (fuel + 1) store call outcome :=
  ends

theorem ends_of_bytesReserved
    (reserved : call.phase = .bytesReserved existing) :
    Ends now 3 store call
      (if (call.extended now existing).received =
          (call.extended now existing).total then
        (.ok (some (joinFragmentGroup (call.extended now existing))),
          store.sfa.discard call.key (call.extended now existing))
      else (.ok none, store.sfa.store call.key
        (call.extended now existing))) := by
  by_cases complete : (call.extended now existing).received =
      (call.extended now existing).total
  · rw [if_pos complete]
    simp [Ends, alone, advance, reserved, storeFragment, complete,
      ShardedFragmentAssembler.remove, ShardedFragmentAssembler.discard]
  · rw [if_neg complete]
    simp [Ends, alone, advance, reserved, storeFragment, complete]

theorem ends_of_groupReserved (retainedBytes : Int)
    (reserved : call.phase = .groupReserved existing)
    (bytes : reserveFragmentCapacity store.sfa.retainedBytes
      (fragmentRetainedBytes call.payload)
      (fragmentByteLimit store.sfa.maxBytes) = some retainedBytes)
    (stored : Ends now 3
      { store with sfa := { store.sfa with retainedBytes := retainedBytes } }
      { call with phase := .bytesReserved existing } outcome) :
    Ends now 4 store call outcome := by
  apply ends_of_advance
  have step : call.advance store now =
      ({ store with sfa := { store.sfa with retainedBytes := retainedBytes } },
        .bytesReserved existing) := by
    unfold advance reserveBytes
    rw [reserved]
    dsimp only
    rw [bytes]
  rw [step]
  exact stored

theorem ends_of_locked (locked : call.phase = .locked existing) :
    Ends now 5 store call
      (store.sfa.retainFragment now call.key existing call.index call.total
        call.payload) := by
  have size : (if call.payload.length ≤ fragmentBufferSize then
      (fragmentBufferSize : Int) else call.payload.length) =
        fragmentRetainedBytes call.payload := rfl
  unfold ShardedFragmentAssembler.retainFragment
  rw [size]
  cases existing with
  | none =>
    dsimp only
    cases groups : reserveFragmentCapacity store.sfa.retainedGroups 1
        (fragmentGroupLimit store.sfa.maxGroups) with
    | none => simp [Ends, alone, advance, locked, reserveGroup, groups]
    | some retainedGroups =>
      have raised : retainedGroups - 1 = store.sfa.retainedGroups := by
        unfold reserveFragmentCapacity at groups
        split at groups
        · cases groups
        · cases groups
          omega
      have step : call.advance store now = ({ store with sfa :=
              { store.sfa with retainedGroups := retainedGroups } },
            .groupReserved none) := by
        simp [advance, locked, reserveGroup, groups]
      dsimp only
      cases bytes : reserveFragmentCapacity store.sfa.retainedBytes
          (fragmentRetainedBytes call.payload)
          (fragmentByteLimit store.sfa.maxBytes) with
      | none =>
        simp [Ends, alone, advance, locked, reserveGroup, groups,
          reserveBytes, bytes, raised]
      | some retainedBytes =>
        apply ends_of_advance
        rw [step]
        refine ends_of_groupReserved retainedBytes rfl ?_ ?_
        · exact bytes
        · exact ends_of_bytesReserved rfl
  | some group =>
    have step : call.advance store now =
        (store, .groupReserved (some group)) := by
      simp [advance, locked, reserveGroup]
    dsimp only
    cases bytes : reserveFragmentCapacity store.sfa.retainedBytes
        (fragmentRetainedBytes call.payload)
        (fragmentByteLimit store.sfa.maxBytes) with
    | none =>
      simp [Ends, alone, advance, locked, reserveGroup, reserveBytes, bytes]
    | some retainedBytes =>
      apply ends_of_advance
      rw [step]
      refine ends_of_groupReserved retainedBytes rfl ?_ ?_
      · exact bytes
      · exact ends_of_bytesReserved rfl

/-- A call that nothing interrupts is `AddFragment` as one action. -/
theorem alone_eq_addFragment (begun : call.phase = .begun) :
    Ends now 8 store call
      (store.sfa.addFragment now call.sessionID call.fragID call.index
        call.total call.payload) := by
  unfold ShardedFragmentAssembler.addFragment
  cases valid : validateFragmentInput call.index call.total with
  | error failure =>
    apply ends_of_advance
    have step : call.advance store now =
        (store, .returned (.error failure)) := by
      simp [advance, begun, valid]
    rw [step]
    exact ends_of_returned rfl 7
  | ok value =>
    apply ends_of_advance
    have step : call.advance store now = (store, .validated) := by
      simp [advance, begun, valid]
    rw [step]
    apply ends_of_advance
    dsimp only
    cases closed : store.sfa.closed with
    | true =>
      simp only [advance, closed, if_true]
      exact ends_of_returned rfl 6
    | false =>
      simp only [advance, closed, Bool.false_eq_true, if_false]
      apply ends_of_advance
      change Ends now 5 (call.inspect store).1
        { call with phase := (call.inspect store).2 }
        (match store.sfa.lookup call.key with
          | some group =>
            match validateFragmentGroup group call.index call.total with
            | .error .fragmentTotalMismatch =>
              (.error .fragmentTotalMismatch, store.sfa.discard call.key group)
            | .error failure => (.error failure, store.sfa)
            | .ok () =>
              if (group.data[call.index.toNat]?.join).isSome then
                (.ok none, store.sfa)
              else
                store.sfa.retainFragment now call.key (some group)
                  call.index call.total call.payload
          | none =>
            store.sfa.retainFragment now call.key none call.index
              call.total call.payload)
      unfold inspect
      cases held : store.sfa.lookup call.key with
      | none => exact ends_of_locked rfl
      | some group =>
        dsimp only
        split
        · simp [Ends, alone, advance, ShardedFragmentAssembler.remove,
            ShardedFragmentAssembler.discard]
        · exact ends_of_returned rfl 5
        · split
          · exact ends_of_returned rfl 5
          · exact ends_of_locked rfl

theorem alone_eq_addFragment_sample :
    (alone 0 8 (AssemblerRun.new (fun _ => 0) 1 1 9000).store
      ⟨1, 2, 0, 2, [7], .begun⟩).2 = .returned (.ok none) :=
  (alone_eq_addFragment rfl).2.trans (by decide +kernel)

end AddCall

end QMux.Protocol
