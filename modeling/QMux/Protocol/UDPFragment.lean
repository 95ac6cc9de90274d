import QMux.Support.Bytes
import QMux.Support.Chunks
import QMux.Support.FiniteMap

/-!
# UDP wire v2 fragmentation

Embedding of `protocol/udp_fragment.go`: the datagram encoder, the strict
decoder and the sharded fragment assembler.  Datagrams are byte lists; the
pooled buffers behind them are always large enough and are not represented.
Sequence numbers, identifiers and header bytes keep their machine widths.
-/

namespace QMux.Protocol

open Support

abbrev Bytes := List UInt8

def udpDatagramTypeNormal : UInt8 := 0x20
def udpDatagramTypeFragment : UInt8 := 0x22
def udpHeaderSize : Nat := 5
def udpFragHeaderSize : Nat := 15
def maxDatagramSize : Nat := 1200
def maxUDPPayload : Nat := maxDatagramSize - udpHeaderSize
def maxFragPayload : Nat := maxDatagramSize - udpFragHeaderSize
/-- Five seconds, in nanoseconds. -/
def fragmentTimeout : Int := 5000000000
def defaultShardCount : Nat := 64
def maxRetainedFragmentGroups : Int := 4096
def maxRetainedFragmentBytes : Int := 64 * 2 ^ 20
/-- Length and capacity of every buffer handed out by the fragment pool. -/
def fragmentBufferSize : Nat := maxFragPayload

inductive FragmentError where
  | packetTooLarge
  | invalidFragIndex
  | fragmentTotalMismatch
  | datagramTooShort
  | datagramTooLarge
  | unknownDatagramType
  | invalidFragTotal
  | emptyFragmentPayload
  | fragmentAssemblerNil
  | fragmentAssemblerClosed
  | fragmentAssemblerFull
  | fragmentationDisabled
deriving DecidableEq

structure UDPDatagram where
  type : UInt8
  sessionID : UInt32
  isFragmented : Bool
  fragmentID : UInt64
  fragmentIndex : UInt8
  fragmentTotal : UInt8
  payload : Bytes
deriving DecidableEq

/-! ## Encoding -/

def writeUDPHeader (sessionID : UInt32) : Bytes :=
  udpDatagramTypeNormal :: putUint 4 sessionID.toNat

def writeUDPFragmentHeader (sessionID : UInt32) (fragID : UInt64)
    (index total : UInt8) : Bytes :=
  udpDatagramTypeFragment ::
    (putUint 4 sessionID.toNat ++ (putUint 8 fragID.toNat ++ [index, total]))

def fragmentIdentity (epoch sequence : UInt32) : UInt64 :=
  epoch.toUInt64 <<< 32 ||| sequence.toUInt64

/-- The body of the fragment loop: `remaining` more fragments, starting with
fragment `index` at byte `offset`. -/
def fragmentLoop (sessionID : UInt32) (fragID : UInt64) (numFragments : Nat)
    (data : Bytes) : (remaining index offset : Nat) → List Bytes
  | 0, _, _ => []
  | remaining + 1, index, offset =>
    let stop := min (offset + maxFragPayload) data.length
    (writeUDPFragmentHeader sessionID fragID (UInt8.ofNat index)
        (UInt8.ofNat numFragments) ++ slice data offset stop) ::
      fragmentLoop sessionID fragID numFragments data remaining (index + 1)
        stop

/-- The datagrams of one packet and the fragment counter afterwards. -/
def fragmentUDPPooled (sessionID epoch : UInt32) (data : Bytes)
    (fragmentSequence : UInt32) (enableFragmentation : Bool) :
    Except FragmentError (List Bytes) × UInt32 :=
  if data.length ≤ maxUDPPayload then
    (.ok [writeUDPHeader sessionID ++ data], fragmentSequence)
  else if enableFragmentation = false then
    (.error .fragmentationDisabled, fragmentSequence)
  else
    let numFragments := (data.length + maxFragPayload - 1) / maxFragPayload
    if numFragments > 255 then (.error .packetTooLarge, fragmentSequence)
    else
      let sequence := fragmentSequence + 1
      let fragID := fragmentIdentity epoch sequence
      (.ok (fragmentLoop sessionID fragID numFragments data numFragments 0 0),
        sequence)

/-! ## Decoding -/

def decodeUDPDatagram (dgram : Bytes) : Except FragmentError UDPDatagram :=
  if dgram.length < udpHeaderSize then .error .datagramTooShort
  else if dgram.length > maxDatagramSize then .error .datagramTooLarge
  else if dgram[0]? = some udpDatagramTypeNormal then
    .ok
      { type := udpDatagramTypeNormal
        sessionID := UInt32.ofNat (getUint (slice dgram 1 5))
        isFragmented := false
        fragmentID := 0
        fragmentIndex := 0
        fragmentTotal := 0
        payload := dgram.drop udpHeaderSize }
  else if dgram[0]? = some udpDatagramTypeFragment then
    if dgram.length < udpFragHeaderSize then .error .datagramTooShort
    else if dgram.length = udpFragHeaderSize then .error .emptyFragmentPayload
    else
      let total := dgram[14]?.getD 0
      if total < 2 then .error .invalidFragTotal
      else
        let index := dgram[13]?.getD 0
        if index ≥ total then .error .invalidFragIndex
        else
          .ok
            { type := udpDatagramTypeFragment
              sessionID := UInt32.ofNat (getUint (slice dgram 1 5))
              isFragmented := true
              fragmentID := UInt64.ofNat (getUint (slice dgram 5 13))
              fragmentIndex := index
              fragmentTotal := total
              payload := dgram.drop udpFragHeaderSize }
  else .error .unknownDatagramType

/-! ## Assembly -/

structure FragmentKey where
  sessionID : UInt32
  fragID : UInt64
deriving DecidableEq

/-- One partially received packet.  A missing fragment is `none`. -/
structure FragmentGroup where
  total : UInt8
  received : UInt8
  data : List (Option Bytes)
  createdAt : Int
  retainedBytes : Int
deriving DecidableEq

/-- The assembler state.  `hash` stands for the seeded hash of a key. -/
structure ShardedFragmentAssembler where
  hash : FragmentKey → Nat
  shardCount : Nat
  shards : Nat → FiniteMap FragmentKey FragmentGroup
  retainedGroups : Int
  retainedBytes : Int
  groupDrops : Nat
  byteDrops : Nat
  expiredGroups : Nat
  maxGroups : Int
  maxBytes : Int
  closed : Bool

def validateFragmentInput (index total : UInt8) : Except FragmentError Unit :=
  if total < 2 then .error .invalidFragTotal
  else if index ≥ total then .error .invalidFragIndex
  else .ok ()

def fragmentGroupLimit (limit : Int) : Int :=
  if limit > 0 then limit else maxRetainedFragmentGroups

def fragmentByteLimit (limit : Int) : Int :=
  if limit > 0 then limit else maxRetainedFragmentBytes

def validateFragmentGroup (group : FragmentGroup) (index total : UInt8) :
    Except FragmentError Unit :=
  if group.total ≠ total then .error .fragmentTotalMismatch
  else if index.toNat ≥ group.data.length then .error .invalidFragIndex
  else .ok ()

def joinFragmentGroup (group : FragmentGroup) : Bytes :=
  group.data.flatMap fun fragment => fragment.getD []

/-- `reserveFragmentCapacity` on one counter: the counter it leaves, or
nothing when the amount does not fit. -/
def reserveFragmentCapacity (current amount limit : Int) : Option Int :=
  if amount > limit - current then none else some (current + amount)

namespace ShardedFragmentAssembler

def new (hash : FragmentKey → Nat) (shardCount maxGroups : Int)
    (maxBackingBytes : Int) : ShardedFragmentAssembler :=
  { hash := hash
    shardCount :=
      if shardCount ≤ 0 then defaultShardCount else shardCount.toNat
    shards := fun _ => ∅
    retainedGroups := 0
    retainedBytes := 0
    groupDrops := 0
    byteDrops := 0
    expiredGroups := 0
    maxGroups := maxGroups
    maxBytes := maxBackingBytes
    closed := false }

def shardIndex (sfa : ShardedFragmentAssembler) (key : FragmentKey) : Nat :=
  sfa.hash key % sfa.shardCount

/-- The group held for a key, looked up in the key's own shard. -/
def lookup (sfa : ShardedFragmentAssembler) (key : FragmentKey) :
    Option FragmentGroup :=
  (sfa.shards (sfa.shardIndex key)).get key

/-- Write a group into its key's shard. -/
def store (sfa : ShardedFragmentAssembler) (key : FragmentKey)
    (group : FragmentGroup) : ShardedFragmentAssembler :=
  { sfa with
    shards := Function.update sfa.shards (sfa.shardIndex key)
      ((sfa.shards (sfa.shardIndex key)).put key group) }

/-- Delete a group from its key's shard and return what it retained. -/
def discard (sfa : ShardedFragmentAssembler) (key : FragmentKey)
    (group : FragmentGroup) : ShardedFragmentAssembler :=
  { sfa with
    shards := Function.update sfa.shards (sfa.shardIndex key)
      ((sfa.shards (sfa.shardIndex key)).delete key)
    retainedGroups := sfa.retainedGroups - 1
    retainedBytes := sfa.retainedBytes - group.retainedBytes }

/-- The second half of `AddFragment`, reached for a fragment that is not yet
held: reserve capacity, store the fragment, and join a complete group. -/
def retainFragment (sfa : ShardedFragmentAssembler) (now : Int)
    (key : FragmentKey) (existing : Option FragmentGroup) (index total : UInt8)
    (payload : Bytes) :
    Except FragmentError (Option Bytes) × ShardedFragmentAssembler :=
  let groups := match existing with
    | some _ => some sfa.retainedGroups
    | none =>
      reserveFragmentCapacity sfa.retainedGroups 1
        (fragmentGroupLimit sfa.maxGroups)
  match groups with
  | none =>
    (.error .fragmentAssemblerFull,
      { sfa with groupDrops := sfa.groupDrops + 1 })
  | some retainedGroups =>
    let retained : Int :=
      if payload.length ≤ fragmentBufferSize then fragmentBufferSize
      else payload.length
    match reserveFragmentCapacity sfa.retainedBytes retained
        (fragmentByteLimit sfa.maxBytes) with
    | none =>
      (.error .fragmentAssemblerFull,
        { sfa with byteDrops := sfa.byteDrops + 1 })
    | some retainedBytes =>
      let group := existing.getD
        { total := total
          received := 0
          data := List.replicate total.toNat none
          createdAt := now
          retainedBytes := 0 }
      let stored := { group with
          retainedBytes := group.retainedBytes + retained
          data := group.data.set index.toNat (some payload)
          received := group.received + 1 }
      let next := { sfa with
        retainedGroups := retainedGroups
        retainedBytes := retainedBytes }
      if stored.received = stored.total then
        (.ok (some (joinFragmentGroup stored)), next.discard key stored)
      else (.ok none, next.store key stored)

def addFragment (sfa : ShardedFragmentAssembler) (now : Int)
    (sessionID : UInt32) (fragID : UInt64) (index total : UInt8)
    (payload : Bytes) :
    Except FragmentError (Option Bytes) × ShardedFragmentAssembler :=
  match validateFragmentInput index total with
  | .error failure => (.error failure, sfa)
  | .ok () =>
    if sfa.closed then (.error .fragmentAssemblerClosed, sfa)
    else
      let key : FragmentKey := ⟨sessionID, fragID⟩
      match sfa.lookup key with
      | some group =>
        match validateFragmentGroup group index total with
        | .error .fragmentTotalMismatch =>
          (.error .fragmentTotalMismatch, sfa.discard key group)
        | .error failure => (.error failure, sfa)
        | .ok () =>
          if (group.data[index.toNat]?.join).isSome then (.ok none, sfa)
          else
            sfa.retainFragment now key (some group) index total payload
      | none => sfa.retainFragment now key none index total payload

end ShardedFragmentAssembler

/-- What `DecodeAndAssembleUDPDatagram` returns beside its error. -/
structure Assembled where
  sessionID : UInt32
  payload : Option Bytes
  complete : Bool
deriving DecidableEq

def decodeAndAssembleUDPDatagram (dgram : Bytes) (now : Int)
    (assembler : Option ShardedFragmentAssembler) :
    Except FragmentError Assembled × Option ShardedFragmentAssembler :=
  match decodeUDPDatagram dgram with
  | .error failure => (.error failure, assembler)
  | .ok parsed =>
    if parsed.isFragmented = false then
      (.ok ⟨parsed.sessionID, some parsed.payload, true⟩, assembler)
    else
      match assembler with
      | none => (.error .fragmentAssemblerNil, none)
      | some sfa =>
        match sfa.addFragment now parsed.sessionID parsed.fragmentID
            parsed.fragmentIndex parsed.fragmentTotal parsed.payload with
        | (.error failure, next) => (.error failure, some next)
        | (.ok payload, next) =>
          (.ok ⟨parsed.sessionID, payload, payload.isSome⟩, some next)

end QMux.Protocol
