import QMux.Protocol.MeshControl

/-!
# Control framing

Embedding of `protocol/codec.go`.  A message is a type byte, a four byte
length and a payload.  `io.ReadFull` asks its reader again until the buffer is
full, so a reader is the list of what its successive calls have to give; the
pieces may be cut anywhere and may be empty.  A read also reports how many
bytes it allocates for the payload.
-/

namespace QMux.Protocol

open Support

inductive ReadFault where
  /-- `io.EOF` -/
  | eof
  /-- `io.ErrUnexpectedEOF` -/
  | unexpectedEOF
deriving DecidableEq

/-- `io.ReadFull` into a buffer of `size` bytes: the bytes or the error, and
what the reader still has. -/
def readFull : List Bytes → Nat → Except ReadFault Bytes × List Bytes
  | pieces, 0 => (.ok [], pieces)
  | [], _ + 1 => (.error .eof, [])
  | piece :: rest, size + 1 =>
    if size + 1 ≤ piece.length then
      (.ok (piece.take (size + 1)), piece.drop (size + 1) :: rest)
    else
      match readFull rest (size + 1 - piece.length) with
      | (.ok more, left) => (.ok (piece ++ more), left)
      | (.error fault, left) =>
        (.error (if piece = [] then fault else .unexpectedEOF), left)

/-- A type byte and a payload. -/
abbrev WireMessage := UInt8 × Bytes

inductive MessageError where
  /-- "read header: %w" -/
  | header (fault : ReadFault)
  /-- "payload too large: %d bytes (maximum %d)" -/
  | payloadTooLarge (size maximum : Nat)
  /-- "read payload: %w" -/
  | payload (fault : ReadFault)
deriving DecidableEq

/-- What `ReadMessageLimited` returns, the size of the payload buffer it
makes, and the reader it leaves. -/
structure MessageRead where
  result : Except MessageError WireMessage
  allocated : Nat
  reader : List Bytes

/-- `writeEncodedMessage`: header and payload in a single write. -/
def writeEncodedMessage (message : WireMessage) : Bytes :=
  message.1 :: putUint 4 message.2.length ++ message.2

/-- Messages written one after another. -/
def wire (messages : List WireMessage) : Bytes :=
  messages.flatMap writeEncodedMessage

/-- `ReadMessageLimited` -/
def readLimited (maxPayloadSize : Nat) (reader : List Bytes) : MessageRead :=
  match readFull reader 5 with
  | (.error fault, reader) => ⟨.error (.header fault), 0, reader⟩
  | (.ok header, reader) =>
    let length := getUint (header.drop 1)
    if maxPayloadSize < length then
      ⟨.error (.payloadTooLarge length maxPayloadSize), 0, reader⟩
    else
      match readFull reader length with
      | (.error fault, reader) => ⟨.error (.payload fault), length, reader⟩
      | (.ok payload, reader) => ⟨.ok (header.headD 0, payload), length, reader⟩

/-- Read messages until there are `count` or one fails. -/
def readMessages (maxPayloadSize : Nat) :
    Nat → List Bytes → List WireMessage × Option MessageError × List Bytes
  | 0, reader => ([], none, reader)
  | count + 1, reader =>
    match readLimited maxPayloadSize reader with
    | ⟨.error failure, _, reader⟩ => ([], some failure, reader)
    | ⟨.ok message, _, reader⟩ =>
      let (messages, failure, reader) :=
        readMessages maxPayloadSize count reader
      (message :: messages, failure, reader)

/-! ## Reading through pieces -/

variable {pieces : List Bytes} {size : Nat}

theorem readFull_of_le (enough : size ≤ pieces.flatten.length) :
    ∃ left, readFull pieces size = (.ok (pieces.flatten.take size), left) ∧
      left.flatten = pieces.flatten.drop size := by
  induction pieces generalizing size with
  | nil =>
    cases size with
    | zero => exact ⟨_, rfl, rfl⟩
    | succ size => cases enough
  | cons piece rest ih =>
    cases size with
    | zero => exact ⟨_, rfl, rfl⟩
    | succ size =>
      rw [List.flatten_cons, List.length_append] at enough
      unfold readFull
      split
      · rename_i full
        rw [List.flatten_cons, List.take_append_of_le_length full,
          List.drop_append_of_le_length full]
        exact ⟨_, rfl, rfl⟩
      rename_i short
      obtain ⟨after, read, left⟩ := ih
        (show size + 1 - piece.length ≤ rest.flatten.length by omega)
      have reached : piece.length ≤ size + 1 := by omega
      rw [List.flatten_cons, List.take_append, List.drop_append,
        List.take_of_length_le reached, List.drop_of_length_le reached, ← left,
        read]
      exact ⟨after, rfl, rfl⟩

theorem readFull_of_lt (short : pieces.flatten.length < size) :
    ∃ fault left, readFull pieces size = (.error fault, left) := by
  induction pieces generalizing size with
  | nil =>
    cases size with
    | zero => cases short
    | succ size => exact ⟨.eof, _, rfl⟩
  | cons piece rest ih =>
    cases size with
    | zero => cases short
    | succ size =>
      rw [List.flatten_cons, List.length_append] at short
      unfold readFull
      rw [if_neg (by omega)]
      obtain ⟨fault, left, failed⟩ :=
        ih (show rest.flatten.length < size + 1 - piece.length by omega)
      rw [failed]
      exact ⟨_, left, rfl⟩

variable {limit : Nat} {reader : List Bytes}

theorem length_writeEncodedMessage (message : WireMessage) :
    (writeEncodedMessage message).length = 5 + message.2.length := by
  have header : (putUint 4 message.2.length).length = 4 := length_putUint _ _
  unfold writeEncodedMessage
  rw [List.cons_append, List.length_cons, List.length_append, header]
  omega

theorem take_header (message : WireMessage) (rest : Bytes) :
    (writeEncodedMessage message ++ rest).take 5 =
        message.1 :: putUint 4 message.2.length ∧
      (writeEncodedMessage message ++ rest).drop 5 = message.2 ++ rest := by
  have header : (message.1 :: putUint 4 message.2.length).length = 5 := by
    rw [List.length_cons, length_putUint]
  unfold writeEncodedMessage
  rw [List.append_assoc]
  exact ⟨List.take_left' header, List.drop_left' header⟩

variable {message : WireMessage}

theorem getUint_header (bounded : limit < 2 ^ 32)
    (fits : message.2.length ≤ limit) :
    getUint (putUint 4 message.2.length) = message.2.length := by
  rw [getUint_putUint]
  apply Nat.mod_eq_of_lt
  have range : (256 : Nat) ^ 4 = 2 ^ 32 := by decide
  omega

variable {rest : Bytes}

theorem readLimited_message (bounded : limit < 2 ^ 32)
    (fits : message.2.length ≤ limit)
    (bytes : reader.flatten = writeEncodedMessage message ++ rest) :
    ∃ left, readLimited limit reader = ⟨.ok message, message.2.length, left⟩ ∧
      left.flatten = rest := by
  have long : 5 ≤ reader.flatten.length := by
    rw [bytes, List.length_append, length_writeEncodedMessage]
    omega
  obtain ⟨middle, header, after⟩ := readFull_of_le long
  rw [bytes, (take_header message rest).1] at header
  rw [bytes, (take_header message rest).2] at after
  have whole : message.2.length ≤ middle.flatten.length := by
    rw [after, List.length_append]
    omega
  obtain ⟨left, payload, rest_⟩ := readFull_of_le whole
  rw [after, List.take_left' rfl] at payload
  rw [after, List.drop_left' rfl] at rest_
  refine ⟨left, ?_, rest_⟩
  unfold readLimited
  rw [header]
  dsimp only
  rw [List.drop_succ_cons, List.drop_zero, getUint_header bounded fits,
    if_neg (Nat.not_lt.mpr fits), payload]
  rfl

theorem readLimited_cut (bounded : limit < 2 ^ 32)
    (fits : message.2.length ≤ limit)
    (bytes : reader.flatten ++ rest = writeEncodedMessage message)
    (cut : rest ≠ []) :
    ∃ failure allocated left,
      readLimited limit reader = ⟨.error failure, allocated, left⟩ := by
  have total := congrArg List.length bytes
  have missing := List.length_pos_iff.mpr cut
  rw [List.length_append, length_writeEncodedMessage] at total
  by_cases short : reader.flatten.length < 5
  · obtain ⟨fault, middle, failed⟩ := readFull_of_lt short
    unfold readLimited
    rw [failed]
    exact ⟨_, _, _, rfl⟩
  · have long : 5 ≤ reader.flatten.length := Nat.le_of_not_lt short
    obtain ⟨middle, header, after⟩ := readFull_of_le long
    have front : reader.flatten.take 5 =
        message.1 :: putUint 4 message.2.length := by
      have whole := (take_header message []).1
      rw [List.append_nil, ← bytes, List.take_append_of_le_length long] at whole
      exact whole
    have few : middle.flatten.length < message.2.length := by
      rw [after, List.length_drop]
      omega
    obtain ⟨fault, left, failed⟩ := readFull_of_lt few
    unfold readLimited
    rw [header, front]
    dsimp only
    rw [List.drop_succ_cons, List.drop_zero, getUint_header bounded fits,
      if_neg (Nat.not_lt.mpr fits), failed]
    exact ⟨_, _, _, rfl⟩

/-- A header that announces too much is refused before anything else is read
or allocated. -/
theorem readLimited_tooLarge (long : 5 ≤ reader.flatten.length)
    (large : limit < getUint ((reader.flatten.take 5).drop 1)) :
    (readLimited limit reader).result = .error (.payloadTooLarge
        (getUint ((reader.flatten.take 5).drop 1)) limit) ∧
      (readLimited limit reader).allocated = 0 ∧
      (readLimited limit reader).reader.flatten = reader.flatten.drop 5 := by
  obtain ⟨middle, header, after⟩ := readFull_of_le long
  unfold readLimited
  rw [header]
  dsimp only
  rw [if_pos large]
  exact ⟨rfl, rfl, after⟩

/-! ## Sequences of messages -/

theorem wire_cons (message : WireMessage) (messages : List WireMessage) :
    wire (message :: messages) = writeEncodedMessage message ++ wire messages :=
  List.flatMap_cons

variable {messages : List WireMessage}

/-- What was written is read back, and the bytes behind it are left. -/
theorem readMessages_wire (bounded : limit < 2 ^ 32)
    (fit : ∀ message ∈ messages, message.2.length ≤ limit)
    (bytes : reader.flatten = wire messages ++ rest) :
    ∃ left, readMessages limit messages.length reader =
      (messages, none, left) ∧ left.flatten = rest := by
  induction messages generalizing reader with
  | nil => exact ⟨reader, rfl, bytes⟩
  | cons message messages ih =>
    rw [wire_cons, List.append_assoc] at bytes
    obtain ⟨middle, first, left⟩ := readLimited_message bounded
      (fit message List.mem_cons_self) bytes
    obtain ⟨final, read, after⟩ := ih
      (fun each member => fit each (List.mem_cons_of_mem message member)) left
    refine ⟨final, ?_, after⟩
    rw [List.length_cons]
    unfold readMessages
    rw [first]
    dsimp only
    rw [read]

/-- A stream that ends early gives the messages it has in full and then an
error. -/
theorem readMessages_cut (bounded : limit < 2 ^ 32)
    (fit : ∀ message ∈ messages, message.2.length ≤ limit)
    (bytes : reader.flatten ++ rest = wire messages) (cut : rest ≠ []) :
    ∃ whole, whole < messages.length ∧
      (wire (messages.take whole)).length ≤ reader.flatten.length ∧
      reader.flatten.length < (wire (messages.take (whole + 1))).length ∧
      ∀ count, whole < count → ∃ failure left, readMessages limit count reader =
          (messages.take whole, some failure, left) := by
  induction messages generalizing reader with
  | nil =>
    exfalso
    exact cut (List.append_eq_nil_iff.mp bytes).2
  | cons message messages ih =>
    have fits := fit message List.mem_cons_self
    rw [wire_cons] at bytes
    by_cases part : reader.flatten.length < (writeEncodedMessage message).length
    · -- The stream ends within the first message.
      obtain ⟨missing, same, -⟩ : ∃ missing, reader.flatten ++ missing =
          writeEncodedMessage message ∧ rest = missing ++ wire messages := by
        rcases List.append_eq_append_iff.mp bytes with
          ⟨missing, same, later⟩ | ⟨extra, same, later⟩
        · exact ⟨missing, same.symm, later⟩
        · rw [same, List.length_append] at part
          omega
      have missed : missing ≠ [] := by
        rintro rfl
        rw [← same, List.append_nil] at part
        omega
      obtain ⟨failure, allocated, middle, failed⟩ :=
        readLimited_cut bounded fits same missed
      refine ⟨0, by simp, by simp [wire], ?_, ?_⟩
      · simpa [wire] using part
      · intro count more
        obtain ⟨count, rfl⟩ := Nat.exists_eq_succ_of_ne_zero (Nat.ne_of_gt more)
        unfold readMessages
        rw [failed]
        exact ⟨failure, middle, rfl⟩
    · obtain ⟨tail, front, later⟩ : ∃ tail,
          reader.flatten = writeEncodedMessage message ++ tail ∧
            tail ++ rest = wire messages := by
        rcases List.append_eq_append_iff.mp bytes with
          ⟨missing, same, later⟩ | ⟨extra, same, later⟩
        · have full : missing = [] := by
            have total := congrArg List.length same
            rw [List.length_append] at total
            exact List.length_eq_zero_iff.mp (by omega)
          subst full
          rw [List.append_nil] at same
          exact ⟨[], by rw [List.append_nil, same], later⟩
        · exact ⟨extra, same, later.symm⟩
      obtain ⟨middle, first, left⟩ := readLimited_message bounded fits front
      rw [← left] at later
      obtain ⟨whole, inside, enough, short, reads⟩ := ih
        (fun each member => fit each (List.mem_cons_of_mem message member))
        later
      have size : reader.flatten.length = (writeEncodedMessage message).length +
          middle.flatten.length := by
        rw [left, front, List.length_append]
      refine ⟨whole + 1, Nat.succ_lt_succ inside, ?_, ?_, ?_⟩
      · rw [List.take_succ_cons, wire_cons, List.length_append]
        omega
      · rw [List.take_succ_cons, wire_cons, List.length_append]
        omega
      · intro count more
        obtain ⟨count, rfl⟩ := Nat.exists_eq_succ_of_ne_zero
          (Nat.ne_of_gt (Nat.lt_of_le_of_lt (Nat.zero_le _) more))
        obtain ⟨failure, final, read⟩ :=
          reads count (Nat.lt_of_succ_lt_succ more)
        refine ⟨failure, final, ?_⟩
        unfold readMessages
        rw [first]
        dsimp only
        rw [read]
        rfl

/-! ## Mesh control messages -/

/-- `ReadMeshControl` -/
def readMeshControlFrom (json : MeshJSON) (reader : List Bytes) :
    Except (MessageError ⊕ MeshControlError) MeshControl :=
  match (readLimited maxControlPayloadSize reader).result with
  | .error failure => .error (.inl failure)
  | .ok (kind, payload) =>
    match decodeMeshControl json kind payload with
    | .error failure => .error (.inr failure)
    | .ok message => .ok message

/-- The shape rules of the control messages. -/
def MeshControl.Shaped : MeshControl → Prop
  | .begin _ => True
  | .chunk value => 0 < value.data.length ∧
      value.data.length ≤ maxMeshChunkDataSize ∧ value.offset < value.total ∧
      value.offset + value.data.length ≤ value.total ∧
      (value.offset = 0 → value.digest.length = 32) ∧
      (value.offset ≠ 0 → value.digest = [])
  | .path value => value.pathID ≠ "" ∧ value.groupID ≠ "" ∧
      value.ruleVersion ≠ 0 ∧ value.terminalServerID ≠ "" ∧ value.servers ≠ []
  | .withdraw value => value.pathID ≠ ""
  | .end _ => True
  | .ready value => value.state = "staged" ∨ value.state = "accepted"

theorem MeshControl.shaped_of_check {message : MeshControl}
    (checked : message.check = .ok ()) : message.Shaped := by
  cases message with
  | begin | «end» => trivial
  | chunk value =>
    have formed : value.wellFormed = true := by
      by_contra malformed
      simp [MeshControl.check, malformed] at checked
    simp only [MeshChunk.wellFormed, Bool.not_eq_true', Bool.or_eq_false_iff,
      Bool.and_eq_false_iff, decide_eq_false_iff_not] at formed
    obtain ⟨⟨⟨⟨⟨⟨some, short⟩, positive⟩, before⟩, inside⟩, first⟩, later⟩ :=
      formed
    refine ⟨by omega, by omega, by omega, by omega, ?_, ?_⟩
    · intro start
      rcases first with wrong | right
      · exact absurd start wrong
      · exact not_not.mp right
    · intro started
      rcases later with wrong | right
      · exact absurd started wrong
      · exact List.length_eq_zero_iff.mp (not_not.mp right)
  | path value =>
    have formed : value.wellFormed = true := by
      by_contra malformed
      simp [MeshControl.check, malformed] at checked
    simp only [MeshPath.wellFormed, Bool.not_eq_true', Bool.or_eq_false_iff,
      decide_eq_false_iff_not] at formed
    obtain ⟨⟨⟨⟨path, group⟩, version⟩, terminal⟩, servers⟩ := formed
    exact ⟨path, group, version, terminal,
      fun none => servers (by rw [none]; rfl)⟩
  | withdraw value =>
    intro blank
    simp [MeshControl.check, MeshWithdraw.wellFormed, blank] at checked
  | ready value =>
    by_contra other
    have unknown := not_or.mp other
    simp [MeshControl.check, MeshReady.wellFormed, unknown.1, unknown.2]
      at checked

variable {json : MeshJSON}

/-- A decoded message is one that can be encoded. -/
theorem decodeMeshControl_ok {kind : UInt8} {payload : Bytes}
    {message : MeshControl}
    (decoded : decodeMeshControl json kind payload = .ok message) :
    ∃ frame, marshalMeshControlFrame json message = .ok frame := by
  unfold decodeMeshControl at decoded
  split at decoded
  · cases decoded
  split at decoded
  · cases decoded
  split at decoded
  · cases decoded
  · rename_i frame encoded
    cases decoded
    exact ⟨frame, encoded⟩

/-- A frame is read back however the reader cuts it. -/
theorem readMeshControlFrom_frame {message : MeshControl} {frame : Bytes}
    (inverts : json.Inverts)
    (encoded : marshalMeshControlFrame json message = .ok frame)
    (bytes : reader.flatten = frame ++ rest) :
    readMeshControlFrom json reader = .ok message := by
  obtain ⟨payload, -, marshalled, fits, rfl⟩ :=
    marshalMeshControlFrame_ok encoded
  have written : reader.flatten =
      writeEncodedMessage (message.kind, payload) ++ rest := bytes
  obtain ⟨left, read, _⟩ := readLimited_message
    (show maxControlPayloadSize < 2 ^ 32 by decide) fits written
  unfold readMeshControlFrom
  rw [read]
  simp only [decodeMeshControl_marshalled inverts encoded marshalled]

/-- Control messages survive framing, whatever the reader's pieces are; what
is cut or too large is an error; and what is decoded has the shape that the
encoder demands. -/
theorem control_framing :
    (∀ (limit : Nat) (messages : List WireMessage) (reader : List Bytes),
      limit < 2 ^ 32 → (∀ message ∈ messages, message.2.length ≤ limit) →
      (∀ rest, reader.flatten = wire messages ++ rest →
        ∃ left, readMessages limit messages.length reader =
          (messages, none, left) ∧ left.flatten = rest) ∧
      ∀ rest, rest ≠ [] → reader.flatten ++ rest = wire messages →
        ∃ whole, whole < messages.length ∧
          (wire (messages.take whole)).length ≤ reader.flatten.length ∧
          reader.flatten.length < (wire (messages.take (whole + 1))).length ∧
          ∀ count, whole < count → ∃ failure left,
            readMessages limit count reader =
              (messages.take whole, some failure, left)) ∧
    (∀ (limit : Nat) (reader : List Bytes), 5 ≤ reader.flatten.length →
      limit < getUint ((reader.flatten.take 5).drop 1) →
      (readLimited limit reader).result = .error (.payloadTooLarge
          (getUint ((reader.flatten.take 5).drop 1)) limit) ∧
        (readLimited limit reader).allocated = 0 ∧
        (readLimited limit reader).reader.flatten = reader.flatten.drop 5) ∧
    ∀ json : MeshJSON, (json.Inverts → ∀ message frame,
        marshalMeshControlFrame json message = .ok frame →
        ∀ reader : List Bytes, reader.flatten = frame →
          readMeshControlFrom json reader = .ok message) ∧
      ∀ kind payload message,
        decodeMeshControl json kind payload = .ok message →
        (∃ frame, marshalMeshControlFrame json message = .ok frame) ∧
          message.Shaped := by
  refine ⟨?_, ?_, ?_⟩
  · intro limit messages reader bounded fit
    refine ⟨?_, ?_⟩
    · intro rest bytes
      exact readMessages_wire bounded fit bytes
    · intro rest cut bytes
      exact readMessages_cut bounded fit bytes cut
  · intro limit reader long large
    exact readLimited_tooLarge long large
  · intro json
    refine ⟨?_, ?_⟩
    · intro inverts message frame encoded reader bytes
      apply readMeshControlFrom_frame inverts encoded
      rw [List.append_nil]
      exact bytes
    · intro kind payload message decoded
      obtain ⟨frame, encoded⟩ := decodeMeshControl_ok decoded
      obtain ⟨_, checked, _⟩ := marshalMeshControlFrame_ok encoded
      exact ⟨⟨frame, encoded⟩, MeshControl.shaped_of_check checked⟩

/-- The JSON text of a ready message: `{"State":"staged"}`. -/
def stagedJSON : Bytes :=
  [0x7b, 0x22, 0x53, 0x74, 0x61, 0x74, 0x65, 0x22, 0x3a, 0x22, 0x73, 0x74,
    0x61, 0x67, 0x65, 0x64, 0x22, 0x7d]

/-- The JSON functions on that message and that text. -/
def stagedMeshJSON : MeshJSON where
  marshal message :=
    if message = .ready ⟨"staged"⟩ then some stagedJSON else none
  unmarshal kind payload :=
    if kind = 0x10 ∧ payload = stagedJSON then some (.ready ⟨"staged"⟩)
    else none

/-- Two messages in three pieces; a frame cut short; a payload that is too
large; and a ready message. -/
theorem control_framing_sample :
    (∃ left, readMessages 2 2 [[7, 0], [0, 0, 2, 1, 2, 8, 0], [0, 0, 0]] =
      ([(7, [1, 2]), (8, [])], none, left) ∧ left.flatten = []) ∧
    (∃ whole, whole < 1 ∧ ∀ count, whole < count → ∃ failure left,
      readMessages 2 count [[7, 0], [0, 0, 2, 1]] =
        ([((7 : UInt8), ([1, 2] : Bytes))].take whole, some failure, left)) ∧
    (readLimited 2 [[7, 0, 0], [0, 3, 1, 2, 3]]).allocated = 0 ∧
    readMeshControlFrom stagedMeshJSON [[0x10, 0, 0], [0, 0x12], stagedJSON] =
      .ok (.ready ⟨"staged"⟩) ∧
    (MeshControl.ready ⟨"staged"⟩).Shaped := by
  refine ⟨?_, ?_, ?_, ?_, ?_⟩
  · exact (control_framing.1 2 [(7, [1, 2]), (8, [])] _ (by decide)
      (by decide)).1 [] rfl
  · obtain ⟨whole, inside, -, -, reads⟩ :=
      (control_framing.1 2 [(7, [1, 2])] [[7, 0], [0, 0, 2, 1]] (by decide)
        (by decide)).2 [2] (by decide) rfl
    exact ⟨whole, inside, reads⟩
  · exact (control_framing.2.1 2 _ (by decide) (by decide)).2.1
  · refine (control_framing.2.2 stagedMeshJSON).1 ?_ (.ready ⟨"staged"⟩) _ rfl
      _ rfl
    intro message payload marshalled
    unfold stagedMeshJSON at marshalled ⊢
    dsimp only at marshalled ⊢
    split at marshalled
    · rename_i same
      cases marshalled
      rw [same]
      rfl
    · cases marshalled
  · exact ((control_framing.2.2 stagedMeshJSON).2 0x10 stagedJSON _ rfl).2

end QMux.Protocol
