import QMux.Protocol.UDPFragment

/-!
# What the encoder produces and the decoder accepts

The fragment loop writes one header before each 1185-byte chunk of the
packet.  Every datagram it produces is parsed by the strict decoder into the
fields it was written from.
-/

namespace QMux.Protocol

open Support

/-- The datagram that carries fragment `index` of a packet. -/
def fragmentDatagram (sessionID : UInt32) (fragID : UInt64)
    (numFragments : Nat) (data : Bytes) (index : Nat) : Bytes :=
  writeUDPFragmentHeader sessionID fragID (UInt8.ofNat index)
    (UInt8.ofNat numFragments) ++ chunk maxFragPayload data index

/-- The loop's running offset is the next multiple of the payload size, cut
off at the end of the packet. -/
theorem fragmentLoop_eq (sessionID : UInt32) (fragID : UInt64)
    (numFragments : Nat) (data : Bytes) (remaining index : Nat) :
    fragmentLoop sessionID fragID numFragments data remaining index
        (min (index * maxFragPayload) data.length) =
      (List.range' index remaining).map
        (fragmentDatagram sessionID fragID numFragments data) := by
  induction remaining generalizing index with
  | zero => rfl
  | succ remaining ih =>
    have advance :
        min (min (index * maxFragPayload) data.length + maxFragPayload)
            data.length =
          min ((index + 1) * maxFragPayload) data.length := by
      rw [Nat.succ_mul]
      omega
    rw [fragmentLoop, slice_eq_chunk, advance, ih, List.range'_succ,
      List.map_cons]
    rfl

/-- The number of fragments of a packet that needs fragmentation. -/
abbrev fragmentCount (data : Bytes) : Nat :=
  chunkCount maxFragPayload data.length

theorem maxFragPayload_pos : 0 < maxFragPayload := by decide

variable {sessionID epoch fragmentSequence : UInt32} {data : Bytes}
  {enableFragmentation : Bool}

theorem fragmentUDPPooled_small (small : data.length ≤ maxUDPPayload) :
    fragmentUDPPooled sessionID epoch data fragmentSequence
        enableFragmentation =
      (.ok [writeUDPHeader sessionID ++ data], fragmentSequence) := by
  rw [fragmentUDPPooled, if_pos small]

theorem fragmentUDPPooled_disabled (large : maxUDPPayload < data.length) :
    fragmentUDPPooled sessionID epoch data fragmentSequence false =
      (.error .fragmentationDisabled, fragmentSequence) := by
  rw [fragmentUDPPooled, if_neg (Nat.not_le.mpr large), if_pos rfl]

theorem fragmentUDPPooled_tooLarge
    (large : 255 * maxFragPayload < data.length) :
    fragmentUDPPooled sessionID epoch data fragmentSequence true =
      (.error .packetTooLarge, fragmentSequence) := by
  have notSmall : ¬ data.length ≤ maxUDPPayload := by
    simp only [maxFragPayload, maxUDPPayload, maxDatagramSize, udpHeaderSize,
      udpFragHeaderSize] at large ⊢
    omega
  have tooMany : ¬ fragmentCount data ≤ 255 := by
    rw [chunkCount_le_iff maxFragPayload_pos]
    omega
  rw [fragmentUDPPooled, if_neg notSmall, if_neg (by decide)]
  exact if_pos (Nat.lt_of_not_le tooMany)

theorem fragmentUDPPooled_fragments (large : maxUDPPayload < data.length)
    (fits : data.length ≤ 255 * maxFragPayload) :
    fragmentUDPPooled sessionID epoch data fragmentSequence true =
      (.ok ((List.range (fragmentCount data)).map
        (fragmentDatagram sessionID
          (fragmentIdentity epoch (fragmentSequence + 1))
          (fragmentCount data) data)),
        fragmentSequence + 1) := by
  have few : fragmentCount data ≤ 255 :=
    (chunkCount_le_iff maxFragPayload_pos).mpr fits
  have loop := fragmentLoop_eq sessionID
    (fragmentIdentity epoch (fragmentSequence + 1)) (fragmentCount data) data
    (fragmentCount data) 0
  rw [Nat.zero_mul, Nat.zero_min, ← List.range_eq_range'] at loop
  rw [fragmentUDPPooled, if_neg (Nat.not_le.mpr large), if_neg (by decide),
    ← loop]
  exact if_neg (Nat.not_lt.mpr few)

theorem two_le_fragmentCount (large : maxUDPPayload < data.length) :
    2 ≤ fragmentCount data := by
  by_contra few
  have one : fragmentCount data ≤ 1 := by omega
  rw [chunkCount_le_iff maxFragPayload_pos] at one
  simp only [maxUDPPayload, maxFragPayload, maxDatagramSize, udpHeaderSize,
    udpFragHeaderSize] at large one
  omega

/-! ## Header layout -/

theorem length_writeUDPHeader (sessionID : UInt32) :
    (writeUDPHeader sessionID).length = udpHeaderSize := by
  simp [writeUDPHeader, udpHeaderSize]

theorem length_writeUDPFragmentHeader (sessionID : UInt32) (fragID : UInt64)
    (index total : UInt8) :
    (writeUDPFragmentHeader sessionID fragID index total).length =
      udpFragHeaderSize := by
  simp [writeUDPFragmentHeader, udpFragHeaderSize]

private theorem slice_after {front middle back : Bytes} {start stop : Nat}
    (startEq : front.length = start)
    (stopEq : front.length + middle.length = stop) :
    slice (front ++ (middle ++ back)) start stop = middle := by
  subst startEq stopEq
  simp [slice]

private theorem getUint_sessionID (sessionID : UInt32) :
    UInt32.ofNat (getUint (putUint 4 sessionID.toNat)) = sessionID := by
  have small : sessionID.toNat < 256 ^ 4 := sessionID.toNat_lt
  rw [getUint_putUint, Nat.mod_eq_of_lt small, UInt32.ofNat_toNat]

private theorem getUint_fragID (fragID : UInt64) :
    UInt64.ofNat (getUint (putUint 8 fragID.toNat)) = fragID := by
  have small : fragID.toNat < 256 ^ 8 := fragID.toNat_lt
  rw [getUint_putUint, Nat.mod_eq_of_lt small, UInt64.ofNat_toNat]

theorem decodeUDPDatagram_normal (sessionID : UInt32)
    (small : data.length ≤ maxUDPPayload) :
    decodeUDPDatagram (writeUDPHeader sessionID ++ data) = .ok
        { type := udpDatagramTypeNormal
          sessionID := sessionID
          isFragmented := false
          fragmentID := 0
          fragmentIndex := 0
          fragmentTotal := 0
          payload := data } := by
  have length : (writeUDPHeader sessionID ++ data).length =
      udpHeaderSize + data.length := by
    rw [List.length_append, length_writeUDPHeader]
  have session : slice (writeUDPHeader sessionID ++ data) 1 5 =
      putUint 4 sessionID.toNat := by
    change slice ([udpDatagramTypeNormal] ++ (putUint 4 sessionID.toNat ++
      data)) 1 5 = _
    exact slice_after rfl (by simp)
  have body : (writeUDPHeader sessionID ++ data).drop udpHeaderSize = data := by
    rw [← length_writeUDPHeader sessionID, List.drop_left]
  have shortEnough : ¬ udpHeaderSize + data.length > maxDatagramSize := by
    simp only [maxUDPPayload, maxDatagramSize, udpHeaderSize] at small ⊢
    omega
  rw [decodeUDPDatagram, if_neg (by omega), if_neg (by rwa [length]),
    if_pos (by rfl), session, body, getUint_sessionID]

theorem decodeUDPDatagram_fragment (sessionID : UInt32) (fragID : UInt64)
    {index total : UInt8} {payload : Bytes} (several : ¬ total < 2)
    (inside : ¬ index ≥ total) (nonempty : payload ≠ [])
    (short : payload.length ≤ maxFragPayload) :
    decodeUDPDatagram
        (writeUDPFragmentHeader sessionID fragID index total ++ payload) =
      .ok
        { type := udpDatagramTypeFragment
          sessionID := sessionID
          isFragmented := true
          fragmentID := fragID
          fragmentIndex := index
          fragmentTotal := total
          payload := payload } := by
  have positive : 0 < payload.length := List.length_pos_iff.mpr nonempty
  have length :
      (writeUDPFragmentHeader sessionID fragID index total ++ payload).length =
        udpFragHeaderSize + payload.length := by
    rw [List.length_append, length_writeUDPFragmentHeader]
  have session :
      slice (writeUDPFragmentHeader sessionID fragID index total ++ payload)
        1 5 = putUint 4 sessionID.toNat := by
    have layout :
        writeUDPFragmentHeader sessionID fragID index total ++ payload =
          [udpDatagramTypeFragment] ++ (putUint 4 sessionID.toNat ++
            (putUint 8 fragID.toNat ++ ([index, total] ++ payload))) := by
      simp [writeUDPFragmentHeader]
    rw [layout]
    exact slice_after rfl (by simp)
  have identity :
      slice (writeUDPFragmentHeader sessionID fragID index total ++ payload)
        5 13 = putUint 8 fragID.toNat := by
    have layout : writeUDPFragmentHeader sessionID fragID index total ++
        payload = (udpDatagramTypeFragment :: putUint 4 sessionID.toNat) ++
        (putUint 8 fragID.toNat ++ ([index, total] ++ payload)) := by
      simp [writeUDPFragmentHeader]
    rw [layout]
    exact slice_after (by simp) (by simp)
  have body :
      (writeUDPFragmentHeader sessionID fragID index total ++ payload).drop
        udpFragHeaderSize = payload := by
    rw [← length_writeUDPFragmentHeader sessionID fragID index total,
      List.drop_left]
  have tooLong : ¬ udpFragHeaderSize + payload.length > maxDatagramSize := by
    simp only [maxFragPayload, maxDatagramSize, udpFragHeaderSize] at short ⊢
    omega
  have tooShort : ¬ udpFragHeaderSize + payload.length < udpHeaderSize := by
    simp only [udpFragHeaderSize, udpHeaderSize]
    omega
  have totalByte :
      (writeUDPFragmentHeader sessionID fragID index total ++
        payload)[14]?.getD 0 = total := by
    simp [writeUDPFragmentHeader, putUint]
  have indexByte :
      (writeUDPFragmentHeader sessionID fragID index total ++
        payload)[13]?.getD 0 = index := by
    simp [writeUDPFragmentHeader, putUint]
  have tag :
      (writeUDPFragmentHeader sessionID fragID index total ++ payload)[0]? =
        some udpDatagramTypeFragment := rfl
  simp only [decodeUDPDatagram, length, session, identity, body, totalByte,
    indexByte, tag, getUint_sessionID, getUint_fragID]
  rw [if_neg tooShort, if_neg tooLong, if_neg (by decide), if_pos trivial,
    if_neg (by omega), if_neg (by omega), if_neg several, if_neg inside]

/-! ## Every produced datagram -/

section Fragment

variable {data : Bytes} {index : Nat}

theorem chunk_ne_nil (inside : index < fragmentCount data) :
    chunk maxFragPayload data index ≠ [] := by
  have past := mul_lt_of_lt_chunkCount inside
  have positive := maxFragPayload_pos
  apply List.ne_nil_of_length_pos
  rw [length_chunk]
  omega

theorem toNat_ofNat_of_le {value : Nat} (small : value ≤ 255) :
    (UInt8.ofNat value).toNat = value :=
  UInt8.toNat_ofNat_of_lt (by
    change value < 256
    omega)

theorem decodeUDPDatagram_fragmentDatagram (sessionID : UInt32)
    (fragID : UInt64) (large : maxUDPPayload < data.length)
    (fits : data.length ≤ 255 * maxFragPayload)
    (inside : index < fragmentCount data) :
    decodeUDPDatagram (fragmentDatagram sessionID fragID (fragmentCount data)
        data index) =
      .ok
        { type := udpDatagramTypeFragment
          sessionID := sessionID
          isFragmented := true
          fragmentID := fragID
          fragmentIndex := UInt8.ofNat index
          fragmentTotal := UInt8.ofNat (fragmentCount data)
          payload := chunk maxFragPayload data index } := by
  have few : fragmentCount data ≤ 255 :=
    (chunkCount_le_iff maxFragPayload_pos).mpr fits
  have several := two_le_fragmentCount large
  apply decodeUDPDatagram_fragment
  · rw [UInt8.lt_iff_toNat_lt, toNat_ofNat_of_le few]
    change ¬ fragmentCount data < 2
    omega
  · rw [ge_iff_le, UInt8.le_iff_toNat_le, toNat_ofNat_of_le few,
      toNat_ofNat_of_le (by omega)]
    omega
  · exact chunk_ne_nil inside
  · exact length_chunk_le _ _ _

end Fragment

/-- Whatever the arguments, a produced datagram fits one QUIC datagram and
passes the strict decoder. -/
theorem fragmentUDPPooled_wellFormed {datagrams : List Bytes}
    (produced : (fragmentUDPPooled sessionID epoch data fragmentSequence
      enableFragmentation).1 = .ok datagrams) :
    ∀ dgram ∈ datagrams, dgram.length ≤ maxDatagramSize ∧
      ∃ parsed, decodeUDPDatagram dgram = .ok parsed := by
  intro dgram member
  by_cases small : data.length ≤ maxUDPPayload
  · rw [fragmentUDPPooled_small small] at produced
    cases produced
    obtain rfl := List.mem_singleton.mp member
    refine ⟨?_, _, decodeUDPDatagram_normal sessionID small⟩
    rw [List.length_append, length_writeUDPHeader]
    simp only [maxUDPPayload, maxDatagramSize, udpHeaderSize] at small ⊢
    omega
  · have large := Nat.lt_of_not_le small
    cases enableFragmentation with
    | false =>
      rw [fragmentUDPPooled_disabled large] at produced
      cases produced
    | true =>
      by_cases fits : data.length ≤ 255 * maxFragPayload
      · rw [fragmentUDPPooled_fragments large fits] at produced
        cases produced
        obtain ⟨index, inside, rfl⟩ := List.mem_map.mp member
        refine ⟨?_, _, decodeUDPDatagram_fragmentDatagram sessionID _ large
          fits (List.mem_range.mp inside)⟩
        rw [fragmentDatagram, List.length_append, length_writeUDPFragmentHeader]
        have short := length_chunk_le maxFragPayload data index
        simp only [maxFragPayload, maxDatagramSize,
          udpFragHeaderSize] at short ⊢
        omega
      · rw [fragmentUDPPooled_tooLarge (Nat.lt_of_not_le fits)] at produced
        cases produced

end QMux.Protocol
