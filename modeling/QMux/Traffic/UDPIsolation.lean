import QMux.Traffic.UDPReceiver
import QMux.Traffic.UDPQuiescence

/-!
# Isolation between tunnel clients

A client can write only to the public addresses of its own sessions, with
what it sent itself, and cannot touch the fragment groups of another client's
sessions.  The owner test comes before the fragment is kept; since session
identifiers are not reused, a group's key names one session for good, so all
fragments of a group came over the connection of that session.
-/

namespace QMux.Traffic

open Support Pool Protocol FragmentGroup

/-- A fragment for `key` that was received on the connection. -/
def Fragment (received : List (QuicConn × Bytes)) (quicConn : QuicConn)
    (key : FragmentKey) (total : UInt8) (index : Nat) (payload : Bytes) :
    Prop :=
  ∃ dgram parsed, (quicConn, dgram) ∈ received ∧
    decodeUDPDatagram dgram = .ok parsed ∧ parsed.isFragmented = true ∧
    parsed.sessionID = key.sessionID ∧ parsed.fragmentID = key.fragID ∧
    parsed.fragmentTotal = total ∧ parsed.fragmentIndex.toNat = index ∧
    parsed.payload = payload

/-- What a datagram gives rise to: its own payload, or a packet joined from
fragments that were received on the same connection for the same session. -/
def Delivers (received : List (QuicConn × Bytes)) (quicConn : QuicConn)
    (parsed : UDPDatagram) (payload : Bytes) : Prop :=
  (parsed.isFragmented = false ∧ payload = parsed.payload) ∨
    (parsed.isFragmented = true ∧ Joins (Fragment received quicConn
        ⟨parsed.sessionID, parsed.fragmentID⟩) parsed.fragmentTotal payload)

variable {received more : List (QuicConn × Bytes)} {quicConn : QuicConn}
  {payload : Bytes}

theorem Fragment.mono (subset : received ⊆ more) {key : FragmentKey}
    {total : UInt8} {index : Nat}
    (fragment : Fragment received quicConn key total index payload) :
    Fragment more quicConn key total index payload := by
  obtain ⟨dgram, parsed, member, rest⟩ := fragment
  exact ⟨dgram, parsed, subset member, rest⟩

theorem Delivers.mono (subset : received ⊆ more) {parsed : UDPDatagram}
    (delivers : Delivers received quicConn parsed payload) :
    Delivers more quicConn parsed payload := by
  obtain whole | ⟨fragmented, joins⟩ := delivers
  · exact .inl whole
  · exact .inr ⟨fragmented, joins.mono fun _ _ => Fragment.mono subset⟩

namespace Receiving

variable {σ : Type*} {h next : Receiving σ}

/-- The session has this identifier and was created for a generation whose
connection is `quicConn`. -/
structure OwnedBy (h : Receiving σ) (session : SessionRef)
    (quicConn : QuicConn) (sessionID : UInt32) : Prop where
  created : session < h.handler.book.nextSession
  conn : h.conn (h.handler.session session).client = some quicConn
  id : (h.handler.session session).id = sessionID.toNat

/-- A datagram from the connection is on its way to a session of this
connection. -/
structure Accepts (h : Receiving σ) (quicConn : QuicConn) (dgram : Bytes)
    (parsed : UDPDatagram) (session : SessionRef) : Prop where
  received : (quicConn, dgram) ∈ h.received
  decoded : decodeUDPDatagram dgram = .ok parsed
  owned : h.OwnedBy session quicConn parsed.sessionID

/-- What is known of a loop. -/
def Follows (h : Receiving σ) (loop : ReceiveLoop) : Prop :=
  match loop.phase with
  | .waiting => True
  | .load dgram parsed =>
    (loop.quicConn, dgram) ∈ h.received ∧ decodeUDPDatagram dgram = .ok parsed
  | .addFragment dgram parsed session =>
    h.Accepts loop.quicConn dgram parsed session ∧ parsed.isFragmented = true
  | .write dgram parsed session payload =>
    h.Accepts loop.quicConn dgram parsed session ∧
      Delivers h.received loop.quicConn parsed payload

/-- The fragments of a group belong to one session of one connection. -/
def Traced (h : Receiving σ) (key : FragmentKey) (group : FragmentGroup) :
    Prop :=
  ∃ session quicConn, h.OwnedBy session quicConn key.sessionID ∧
    group.Collects (Fragment h.received quicConn key)

/-- A public write goes to the address of a session of the connection that
caused it, with a payload that came over that connection. -/
structure Explained (h : Receiving σ) (write : PublicWrite) : Prop where
  addr : write.addr = (h.handler.session write.session).clientAddr
  delivered : ∃ parsed,
    h.Accepts write.quicConn write.dgram parsed write.session ∧
      Delivers h.received write.quicConn parsed write.payload

/-- What holds in every run. -/
structure Separated (h : Receiving σ) : Prop where
  issued : Issued h.handler.book h.handler.reader
  loops : ∀ loop ∈ h.receivers, h.Follows loop
  groups : ∀ key group, h.group key = some group → h.Traced key group
  writes : ∀ write ∈ h.writes, h.Explained write

/-! ## What is known stays known -/

/-- Nothing that was known of sessions and datagrams is lost. -/
structure Extends (h next : Receiving σ) : Prop where
  conn : next.conn = h.conn
  book : h.handler.book.Grows next.handler.book
  received : h.received ⊆ next.received

theorem Extends.of_same (conn : next.conn = h.conn)
    (handler : next.handler = h.handler)
    (received : h.received ⊆ next.received) : h.Extends next := by
  refine ⟨conn, .of_same ?_ ?_, received⟩
  · rw [handler]
  · rw [handler]

section Extends

variable (extends_ : h.Extends next)
include extends_

variable {session : SessionRef} {quicConn : QuicConn}

theorem OwnedBy.extend {sessionID : UInt32}
    (owned : h.OwnedBy session quicConn sessionID) :
    next.OwnedBy session quicConn sessionID := by
  have same : next.handler.session session = h.handler.session session :=
    extends_.book.session session owned.created
  constructor
  · exact Nat.lt_of_lt_of_le owned.created extends_.book.nextSession
  · rw [same, extends_.conn]
    exact owned.conn
  · rw [same]
    exact owned.id

theorem Accepts.extend {dgram : Bytes} {parsed : UDPDatagram}
    (accepts : h.Accepts quicConn dgram parsed session) :
    next.Accepts quicConn dgram parsed session :=
  ⟨extends_.received accepts.received, accepts.decoded,
    accepts.owned.extend extends_⟩

theorem Follows.extend {loop : ReceiveLoop} (follows : h.Follows loop) :
    next.Follows loop := by
  obtain ⟨quicConn, phase⟩ := loop
  cases phase with
  | waiting => trivial
  | load dgram parsed =>
    exact ⟨extends_.received follows.1, follows.2⟩
  | addFragment dgram parsed session =>
    exact ⟨follows.1.extend extends_, follows.2⟩
  | write dgram parsed session payload =>
    exact ⟨follows.1.extend extends_, follows.2.mono extends_.received⟩

theorem Traced.extend {key : FragmentKey} {group : FragmentGroup}
    (traced : h.Traced key group) : next.Traced key group := by
  obtain ⟨session, quicConn, owned, collects⟩ := traced
  refine ⟨session, quicConn, owned.extend extends_, ?_⟩
  exact collects.mono fun _ _ => Fragment.mono extends_.received

theorem Explained.extend {write : PublicWrite}
    (explained : h.Explained write) : next.Explained write := by
  obtain ⟨parsed, accepts, delivers⟩ := explained.delivered
  constructor
  · rw [explained.addr]
    exact congrArg UDPSession.clientAddr
      (extends_.book.session _ accepts.owned.created).symm
  · exact ⟨parsed, accepts.extend extends_, delivers.mono extends_.received⟩

theorem Separated.extend (separated : h.Separated)
    (issued : Issued next.handler.book next.handler.reader)
    (loops : ∀ loop ∈ next.receivers, loop ∈ h.receivers ∨ next.Follows loop)
    (groups : ∀ key group, next.group key = some group →
      h.group key = some group ∨ next.Traced key group)
    (writes : ∀ write ∈ next.writes, write ∈ h.writes ∨
      next.Explained write) : next.Separated := by
  refine ⟨issued, ?_, ?_, ?_⟩
  · intro loop member
    obtain old | new := loops loop member
    · exact (separated.loops loop old).extend extends_
    · exact new
  · intro key group held
    obtain old | new := groups key group held
    · exact (separated.groups key group old).extend extends_
    · exact new
  · intro write member
    obtain old | new := writes write member
    · exact (separated.writes write old).extend extends_
    · exact new

end Extends

variable {unknownSession decodeDrops : Nat} {ref : ReceiverRef} {dgram : Bytes}
  {parsed : UDPDatagram} {sfa : ShardedFragmentAssembler} {session : SessionRef}
  {quicConn : QuicConn} {key : FragmentKey} {group : FragmentGroup}
  {op : ReceiveOp}

theorem Separated.loop (separated : h.Separated)
    {receivers : List ReceiveLoop} {received : List (QuicConn × Bytes)}
    (subset : h.received ⊆ received)
    (loops : ∀ loop ∈ receivers, loop ∈ h.receivers ∨
      { h with received := received }.Follows loop) :
    { h with
      receivers := receivers
      received := received
      unknownSession := unknownSession
      decodeDrops := decodeDrops }.Separated := by
  refine Separated.extend ?_ separated separated.issued ?_ ?_ ?_
  · exact .of_same rfl rfl subset
  · intro loop member
    refine (loops loop member).imp_right (Follows.extend ?_)
    exact .of_same rfl rfl (List.Subset.refl _)
  · intro key group held
    exact .inl held
  · intro write member
    exact .inl member

/-! ## The steps -/

theorem recordDecodeError_eq (failure : FragmentError) :
    ∃ drops, h.recordDecodeError failure = { h with decodeDrops := drops } := by
  unfold recordDecodeError
  split
  · exact ⟨_, rfl⟩
  · exact ⟨h.decodeDrops, rfl⟩

theorem separated_receiveDatagram (separated : h.Separated)
    (ref : ReceiverRef) (loop : ReceiveLoop) (dgram : Bytes) :
    (h.receiveDatagram ref loop dgram).Separated := by
  unfold receiveDatagram
  dsimp only
  split
  · rename_i failure _
    obtain ⟨drops, same⟩ := recordDecodeError_eq
      (h := { h with received := (loop.quicConn, dgram) :: h.received })
      failure
    rw [same]
    apply separated.loop (List.subset_cons_self _ _)
    intro other member
    exact .inl member
  · rename_i parsed decoded
    apply separated.loop (List.subset_cons_self _ _)
    intro other member
    obtain old | rfl := List.mem_or_eq_of_mem_set member
    · exact .inl old
    · exact .inr ⟨List.mem_cons_self, decoded⟩

theorem Separated.moves (separated : h.Separated) {loop : ReceiveLoop}
    {phase : ReceivePhase} (follows : h.Follows { loop with phase := phase }) :
    { h with
      receivers := h.receivers.set ref { loop with phase := phase }
      unknownSession := unknownSession
      decodeDrops := decodeDrops }.Separated := by
  apply separated.loop (List.Subset.refl _)
  intro other member
  obtain old | rfl := List.mem_or_eq_of_mem_set member
  · exact .inl old
  · exact .inr follows

theorem separated_loadSession (separated : h.Separated) {loop : ReceiveLoop}
    (received : (loop.quicConn, dgram) ∈ h.received)
    (decoded : decodeUDPDatagram dgram = .ok parsed) :
    (h.loadSession ref loop dgram parsed).Separated := by
  unfold loadSession
  dsimp only
  split
  · exact separated.moves trivial
  rename_i session found
  split
  · exact separated.moves trivial
  rename_i owner
  obtain ⟨created, id⟩ := separated.issued.indexed _ session found
  have accepts : h.Accepts loop.quicConn dgram parsed session :=
    ⟨received, decoded, created, not_not.mp owner, id⟩
  split
  · rename_i fragmented
    exact separated.moves ⟨accepts, fragmented⟩
  · rename_i whole
    exact separated.moves
      ⟨accepts, .inl ⟨Bool.eq_false_of_not_eq_true whole, rfl⟩⟩

theorem addFragmentAmid_adds {Seen : UInt8 → Nat → Bytes → Prop}
    (now groups bytes : Int) (parsed : UDPDatagram)
    (held : ∀ group,
      sfa.lookup ⟨parsed.sessionID, parsed.fragmentID⟩ = some group →
        group.Collects Seen)
    (new : Seen parsed.fragmentTotal parsed.fragmentIndex.toNat
      parsed.payload) :
    ShardedFragmentAssembler.Adds Seen sfa
      ⟨parsed.sessionID, parsed.fragmentID⟩ parsed.fragmentTotal
      (addFragmentAmid sfa now groups bytes parsed) := by
  let amid : ShardedFragmentAssembler := { sfa with
    retainedGroups := sfa.retainedGroups + groups
    retainedBytes := sfa.retainedBytes + bytes }
  have adds : ShardedFragmentAssembler.Adds Seen amid _ _ _ :=
    ShardedFragmentAssembler.addFragment_adds now parsed.sessionID
      parsed.fragmentID parsed.fragmentIndex parsed.fragmentTotal
      parsed.payload held new
  exact ⟨adds.frame, adds.held, adds.joined⟩

section

variable (separated : h.Separated)

include separated

theorem Separated.collects (assembler : h.fragmentAssembler = some sfa)
    (owned : h.OwnedBy session quicConn key.sessionID)
    (held : sfa.lookup key = some group) :
    group.Collects (Fragment h.received quicConn key) := by
  have found : h.group key = some group := by
    unfold Receiving.group
    rw [assembler]
    exact held
  obtain ⟨other, origin, ownedOther, collects⟩ :=
    separated.groups key group found
  -- Identifiers are not reused, so the two sessions are one.
  have same : other = session := separated.issued.id_injective
    ownedOther.created owned.created (ownedOther.id.trans owned.id.symm)
  subst same
  have conn : origin = quicConn :=
    Option.some.inj (ownedOther.conn.symm.trans owned.conn)
  rw [conn] at collects
  exact collects

theorem Separated.adds (assembler : h.fragmentAssembler = some sfa)
    (now groups bytes : Int)
    (accepts : h.Accepts quicConn dgram parsed session)
    (fragmented : parsed.isFragmented = true) :
    ShardedFragmentAssembler.Adds
      (Fragment h.received quicConn ⟨parsed.sessionID, parsed.fragmentID⟩)
      sfa ⟨parsed.sessionID, parsed.fragmentID⟩ parsed.fragmentTotal
      (addFragmentAmid sfa now groups bytes parsed) := by
  apply addFragmentAmid_adds
  · intro group held
    exact separated.collects assembler accepts.owned held
  · exact ⟨dgram, parsed, accepts.received, accepts.decoded, fragmented, rfl,
      rfl, rfl, rfl, rfl⟩

theorem separated_addFragment {loop : ReceiveLoop} (now groups bytes : Int)
    (accepts : h.Accepts loop.quicConn dgram parsed session)
    (fragmented : parsed.isFragmented = true) :
    (h.addFragment ref loop now groups bytes dgram parsed
      session).Separated := by
  unfold addFragment
  split
  · obtain ⟨drops, same⟩ := recordDecodeError_eq (h := h) .fragmentAssemblerNil
    rw [same]
    exact separated.moves trivial
  · rename_i sfa assembler
    have adds := separated.adds assembler now groups bytes accepts fragmented
    -- Every outcome leaves traced groups; the loop's phase is what differs.
    have outcome : ∀ phase drops,
        ((∃ payload, (addFragmentAmid sfa now groups bytes parsed).1 =
          .ok (some payload) ∧ phase = .write dgram parsed session payload) ∨
          phase = .waiting) →
        ({ h with
          fragmentAssembler :=
            some (addFragmentAmid sfa now groups bytes parsed).2
          decodeDrops := drops }.setPhase ref loop phase).Separated := by
      intro phase drops known
      have extends_ : h.Extends ({ h with
          fragmentAssembler :=
            some (addFragmentAmid sfa now groups bytes parsed).2
          decodeDrops := drops }.setPhase ref loop phase) :=
        .of_same rfl rfl (List.Subset.refl _)
      apply separated.extend extends_ separated.issued
      · intro other member
        obtain old | rfl := List.mem_or_eq_of_mem_set member
        · exact .inl old
        · obtain ⟨payload, ok, rfl⟩ | rfl := known
          · exact .inr ⟨accepts.extend extends_,
              Or.inr ⟨fragmented, adds.joined payload ok⟩⟩
          · exact .inr trivial
      · intro key group held
        by_cases same : key = ⟨parsed.sessionID, parsed.fragmentID⟩
        · subst same
          exact .inr ⟨session, loop.quicConn,
            accepts.owned.extend extends_, adds.held group held⟩
        refine .inl ?_
        change (addFragmentAmid sfa now groups bytes parsed).2.lookup key =
          some group at held
        rw [adds.frame key same] at held
        unfold Receiving.group
        rw [assembler]
        exact held
      · intro write member
        exact .inl member
    revert outcome
    rcases addFragmentAmid sfa now groups bytes parsed with ⟨result, rest⟩
    intro outcome
    match result with
    | .error failure =>
      obtain ⟨drops, same⟩ := recordDecodeError_eq
        (h := { h with fragmentAssembler := some rest }) failure
      dsimp only
      rw [same]
      exact outcome .waiting drops (.inr rfl)
    | .ok none => exact outcome .waiting h.decodeDrops (.inr rfl)
    | .ok (some payload) =>
      exact outcome (.write dgram parsed session payload) h.decodeDrops
        (.inl ⟨payload, rfl, rfl⟩)

theorem separated_writePublic {loop : ReceiveLoop} {payload : Bytes}
    (accepts : h.Accepts loop.quicConn dgram parsed session)
    (delivers : Delivers h.received loop.quicConn parsed payload) :
    (h.writePublic ref loop dgram session payload).Separated := by
  have extends_ : h.Extends (h.writePublic ref loop dgram session payload) :=
    .of_same rfl rfl (List.Subset.refl _)
  apply separated.extend extends_ separated.issued
  · intro other member
    obtain old | rfl := List.mem_or_eq_of_mem_set member
    · exact .inl old
    · exact .inr trivial
  · intro key group held
    exact .inl held
  · intro write member
    obtain rfl | old := List.mem_cons.mp member
    · exact .inr ⟨rfl, parsed, accepts.extend extends_, delivers⟩
    · exact .inl old

theorem separated_receiverStep (ref : ReceiverRef) (dgram : Bytes)
    (now groups bytes : Int) :
    (h.receiverStep ref dgram now groups bytes).Separated := by
  unfold receiverStep
  split
  · exact separated
  rename_i loop found
  have follows := separated.loops loop (List.mem_of_getElem? found)
  unfold Follows at follows
  split
  · exact separated_receiveDatagram separated ref loop dgram
  · rename_i at_
    rw [at_] at follows
    exact separated_loadSession separated follows.1 follows.2
  · rename_i at_
    rw [at_] at follows
    exact separated_addFragment separated now groups bytes follows.1 follows.2
  · rename_i at_
    rw [at_] at follows
    exact separated_writePublic separated follows.1 follows.2

end

theorem group_removeGroup {other : FragmentKey}
    (held : (h.removeGroup key).group other = some group) :
    h.group other = some group := by
  unfold removeGroup at held
  split at held
  · exact held
  rename_i sfa assembler
  split at held
  · exact held
  change (sfa.discard key _).lookup other = some group at held
  rw [ShardedFragmentAssembler.lookup_discard] at held
  split at held
  · cases held
  · unfold Receiving.group
    rw [assembler]
    exact held

theorem separated_removeGroup (separated : h.Separated) (key : FragmentKey) :
    (h.removeGroup key).Separated := by
  have frame : (h.removeGroup key).conn = h.conn ∧
      (h.removeGroup key).handler = h.handler ∧
      (h.removeGroup key).received = h.received ∧
      (h.removeGroup key).receivers = h.receivers ∧
      (h.removeGroup key).writes = h.writes := by
    unfold removeGroup
    split
    · exact ⟨rfl, rfl, rfl, rfl, rfl⟩
    · split <;> exact ⟨rfl, rfl, rfl, rfl, rfl⟩
  obtain ⟨conn, handler, received, receivers, writes⟩ := frame
  apply separated.extend
    (.of_same conn handler (by rw [received]; exact List.Subset.refl _))
  · rw [handler]
    exact separated.issued
  · rw [receivers]
    intro loop member
    exact .inl member
  · intro other group held
    exact .inl (group_removeGroup held)
  · rw [writes]
    intro write member
    exact .inl member

theorem separated_apply (separated : h.Separated) (enabled : h.Enabled op) :
    (h.apply op).Separated := by
  cases op with dsimp only [Receiving.apply]
  | handler op =>
    have advances := UDPHandler.advances_apply separated.issued enabled
    refine Separated.extend ?_ separated advances.issued ?_ ?_ ?_
    · exact ⟨rfl, advances.grows, List.Subset.refl _⟩
    · intro loop member
      exact .inl member
    · intro key group held
      exact .inl held
    · intro write member
      exact .inl member
  | start quicConn =>
    apply separated.loop (List.Subset.refl _)
    intro loop member
    obtain old | new := List.mem_append.mp member
    · exact .inl old
    · obtain rfl := List.mem_singleton.mp new
      exact .inr trivial
  | receiver ref dgram now groups bytes =>
    exact separated_receiverStep separated ref dgram now groups bytes
  | remove now key => exact separated_removeGroup separated key
  | closeAssembler =>
    refine Separated.extend ?_ separated separated.issued ?_ ?_ ?_
    · exact .of_same rfl rfl (List.Subset.refl _)
    · intro loop member
      exact .inl member
    · intro key group held
      refine .inl ?_
      unfold Receiving.group at held ⊢
      cases assembler : h.fragmentAssembler with
      | none =>
        rw [assembler] at held
        cases held
      | some sfa =>
        rw [assembler] at held
        exact held
    · intro write member
      exact .inl member

theorem separated_of_initial (initial : Initial h) : h.Separated := by
  obtain ⟨handler, assembler, receivers, received, writes⟩ := initial
  refine ⟨UDPHandler.issued_of_initial handler, ?_, ?_, ?_⟩
  · rw [receivers]
    intro loop member
    cases member
  · intro key group held
    unfold Receiving.group at held
    cases new : h.fragmentAssembler with
    | none =>
      rw [new] at held
      cases held
    | some sfa =>
      rw [new] at held
      obtain ⟨hash, shardCount, maxGroups, maxBackingBytes, rfl⟩ :=
        assembler sfa new
      cases (FiniteMap.get_empty key).symm.trans held
  · rw [writes]
    intro write member
    cases member

theorem separated_of_reachable (reachable : (runs σ).Reachable h) :
    h.Separated := by
  apply reachable.invariant
  · intro state initial
    exact separated_of_initial initial
  · rintro before after _ separated ⟨op, enabled, rfl⟩
    exact separated_apply separated enabled

/-! ## Groups of other connections -/

theorem group_receiverStep (separated : h.Separated) {loop : ReceiveLoop}
    (found : h.receivers[ref]? = some loop) (dgram : Bytes)
    (now groups bytes : Int) (key : FragmentKey)
    (foreign : ∀ session, ¬ h.OwnedBy session loop.quicConn key.sessionID) :
    (h.receiverStep ref dgram now groups bytes).group key = h.group key := by
  have follows := separated.loops loop (List.mem_of_getElem? found)
  obtain ⟨quicConn, phase⟩ := loop
  unfold receiverStep
  rw [found]
  cases phase with dsimp only
  | waiting =>
    unfold receiveDatagram
    dsimp only
    split
    · unfold recordDecodeError
      split <;> rfl
    · rfl
  | load dgram parsed =>
    unfold loadSession
    dsimp only
    split
    · rfl
    · split
      · rfl
      · split <;> rfl
  | write dgram parsed session payload => rfl
  | addFragment dgram parsed session =>
    obtain ⟨accepts, fragmented⟩ := follows
    unfold addFragment
    split
    · unfold recordDecodeError
      split <;> rfl
    · rename_i sfa assembler
      have different : key ≠ ⟨parsed.sessionID, parsed.fragmentID⟩ := by
        intro same
        apply foreign session
        rw [same]
        exact accepts.owned
      have frame := (separated.adds assembler now groups bytes accepts
        fragmented).frame key different
      have before : h.group key = sfa.lookup key := by
        unfold Receiving.group
        rw [assembler]
        rfl
      rw [before, ← frame]
      rcases addFragmentAmid sfa now groups bytes parsed with ⟨result, rest⟩
      match result with
      | .error failure =>
        dsimp only
        unfold recordDecodeError
        split <;> rfl
      | .ok none => rfl
      | .ok (some payload) => rfl

/-! ## All runs -/

theorem handler_receiverStep (ref : ReceiverRef) (dgram : Bytes)
    (now groups bytes : Int) :
    (h.receiverStep ref dgram now groups bytes).handler = h.handler := by
  have decoding : ∀ (state : Receiving σ) failure,
      (state.recordDecodeError failure).handler = state.handler := by
    intro state failure
    unfold recordDecodeError
    split <;> rfl
  unfold receiverStep
  split
  · rfl
  split
  · unfold receiveDatagram
    dsimp only
    split
    · exact decoding _ _
    · rfl
  · unfold loadSession
    dsimp only
    split
    · rfl
    · split
      · rfl
      · split <;> rfl
  · unfold addFragment
    split
    · exact decoding _ _
    · split
      · exact decoding _ _
      · rfl
      · rfl
  · rfl

/-- Sessions are never changed and never forgotten. -/
theorem grows_apply (separated : h.Separated) (enabled : h.Enabled op) :
    h.handler.book.Grows (h.apply op).handler.book := by
  have same : ∀ {next : Receiving σ}, next.handler = h.handler →
      h.handler.book.Grows next.handler.book := by
    intro next handler
    rw [handler]
    exact .of_same rfl rfl
  cases op with
  | handler op =>
    exact (UDPHandler.advances_apply separated.issued enabled).grows
  | start | closeAssembler => exact same rfl
  | receiver ref dgram now groups bytes =>
    exact same (handler_receiverStep ref dgram now groups bytes)
  | remove now key =>
    apply same
    dsimp only [Receiving.apply]
    unfold removeGroup
    split
    · rfl
    · split <;> rfl

/-- No session is created once all identifiers are used. -/
theorem nextSession_of_exhausted (separated : h.Separated)
    (exhausted : h.handler.book.nextSession = 2 ^ 32 - 1)
    (enabled : h.Enabled op) :
    (h.apply op).handler.book.nextSession = h.handler.book.nextSession := by
  apply Nat.le_antisymm
  · rw [exhausted]
    exact (separated_apply separated enabled).issued.nextSession_le
  · exact (grows_apply separated enabled).nextSession

/-- `createSession` fails once all identifiers are used. -/
theorem createEpoch_of_exhausted (separated : h.Separated)
    (exhausted : h.handler.book.nextSession = 2 ^ 32 - 1) (addr : AddrPort)
    (client : ConnRef) :
    h.handler.createEpoch addr client =
      h.handler.goto (.giveBack client .slot none) := by
  have least : 2 ^ 32 - 1 ≤ h.handler.book.epochAllocator := by
    rw [separated.issued.epochs, exhausted]
    exact Nat.le_add_right _ _
  unfold UDPHandler.createEpoch
  rw [if_pos (Nat.le_antisymm separated.issued.epochBound least)]

/-- What a client can do to the others. -/
structure Isolated (h : Receiving σ) : Prop where
  writes : ∀ write ∈ h.writes, h.Explained write
  held : ∀ key group, h.group key = some group → h.Traced key group
  groups : ∀ ref loop, h.receivers[ref]? = some loop →
    ∀ session < h.handler.book.nextSession,
      h.conn (h.handler.session session).client ≠ some loop.quicConn →
      ∀ key : FragmentKey,
        key.sessionID.toNat = (h.handler.session session).id →
        ∀ dgram now groups bytes,
          (h.apply (.receiver ref dgram now groups bytes)).group key =
            h.group key
  distinct : ∀ first < h.handler.book.nextSession,
    ∀ second < h.handler.book.nextSession,
      (h.handler.session first).id = (h.handler.session second).id →
        first = second
  kept : ∀ op, h.Enabled op → h.handler.book.Grows (h.apply op).handler.book
  bounded : h.handler.book.nextSession ≤ 2 ^ 32 - 1
  refused : h.handler.book.nextSession = 2 ^ 32 - 1 →
    (∀ op, h.Enabled op → (h.apply op).handler.book.nextSession =
      h.handler.book.nextSession) ∧
    ∀ addr client, h.handler.createEpoch addr client =
      h.handler.goto (.giveBack client .slot none)

/-- In every run, whatever the clients send: public writes go to sessions of
the connection that caused them and carry what came over it, fragment groups
of other connections are not touched, and identifiers are not reused. -/
theorem session_isolation (reachable : (runs σ).Reachable h) :
    h.Isolated := by
  have separated := separated_of_reachable reachable
  refine ⟨separated.writes, separated.groups, ?_, ?_, ?_, ?_, ?_⟩
  · intro ref loop found session created other key named dgram now groups bytes
    apply group_receiverStep separated found
    intro owner owned
    have same : owner = session := separated.issued.id_injective
      owned.created created (owned.id.trans named)
    subst same
    exact other owned.conn
  · intro first left second right same
    exact separated.issued.id_injective left right same
  · intro op enabled
    exact grows_apply separated enabled
  · exact separated.issued.nextSession_le
  · intro exhausted
    refine ⟨?_, createEpoch_of_exhausted separated exhausted⟩
    intro op enabled
    exact nextSession_of_exhausted separated exhausted enabled

/-- The session of `UDPHandler.sampleSchedule` belongs to connection 5.  That
connection and another one send a datagram for it. -/
def sampleReceiveSchedule : List ReceiveOp :=
  UDPHandler.sampleSchedule.map .handler ++ [.start 5, .start 6] ++
    List.replicate 3 (.receiver 0 [0x20, 0, 0, 0, 1, 7] 0 0 0) ++
    List.replicate 2 (.receiver 1 [0x20, 0, 0, 0, 1, 9] 0 0 0)

def sampleReceiving : Receiving UInt64 :=
  { handler := UDPHandler.sampleHandler
    conn := fun client => some (client + 5)
    fragmentAssembler := none
    receivers := []
    unknownSession := 0
    decodeDrops := 0
    received := []
    writes := [] }

theorem sampleReceiving_initial : Initial sampleReceiving := by
  refine ⟨UDPHandler.sampleHandler_initial, ?_, rfl, rfl, rfl⟩
  intro sfa present
  cases present

theorem session_isolation_sample :
    (sampleReceiveSchedule.foldl apply sampleReceiving).unknownSession = 1 ∧
      (sampleReceiveSchedule.foldl apply sampleReceiving).Explained
        ⟨5, [0x20, 0, 0, 0, 1, 7], 0, ⟨1, 1⟩, [7]⟩ := by
  have allowed : TransitionSystem.Allows Enabled apply sampleReceiving
      sampleReceiveSchedule := by
    decide +kernel
  have reachable : (runs UInt64).Reachable
      (sampleReceiveSchedule.foldl apply sampleReceiving) := by
    apply TransitionSystem.Reachable.schedule _
      (.start sampleReceiving_initial) allowed
    intro h op enabled
    exact ⟨op, enabled, rfl⟩
  have written : ⟨5, [0x20, 0, 0, 0, 1, 7], 0, ⟨1, 1⟩, [7]⟩ ∈
      (sampleReceiveSchedule.foldl apply sampleReceiving).writes := by
    decide +kernel
  exact ⟨by decide +kernel, (session_isolation reachable).writes _ written⟩

end Receiving

end QMux.Traffic
