import Mathlib.Algebra.BigOperators.Ring.Finset
import QMux.Pool.Registration
import QMux.Traffic.UDPAccounting

/-!
# Quiescent listeners

When no `createSession` and no `closeSession` is in progress, nothing is
counted in advance and nothing has yet to be taken off, so after an orderly
run the counters are the numbers of sessions in the map.

Without that order a `closeSession` call can overtake `createSession`: the
last part of the file is a run in which it does.
-/

namespace QMux.Traffic

open Support Pool ConnectionPool.Step

namespace Account

private theorem sum_ite_eq_countP {α : Type*} (chosen : α → Prop)
    [DecidablePred chosen] (values : Multiset α) :
    (values.map fun value => if chosen value then (1 : Int) else 0).sum =
      values.countP chosen := by
  induction values using Multiset.induction with
  | empty => rfl
  | cons value rest ih =>
    rw [Multiset.map_cons, Multiset.sum_cons, ih, Multiset.countP_cons]
    split
    · rw [Nat.cast_add, Nat.cast_one, Int.add_comm]
    · rw [Int.zero_add, Nat.add_zero]

variable {book : Book}

theorem listed_eq_size {account : Account}
    (everyone : ∀ client, account.weigh client = 1) :
    account.listed book = book.sessions.size := by
  unfold listed
  simp [everyone, FiniteMap.card_values]

theorem listed_active (client : ConnRef) :
    (active client).listed book = book.sessions.values.countP fun session =>
      client = (book.session session).client :=
  sum_ite_eq_countP _ _

theorem listed_udp (client : ConnRef) :
    (udp client).listed book = book.sessions.values.countP fun session =>
      client = (book.session session).client :=
  sum_ite_eq_countP _ _

/-- The generations of the sessions in the map. -/
def generations (book : Book) : Finset ConnRef :=
  (book.sessions.values.map fun session =>
    (book.session session).client).toFinset

theorem listed_udp_of_notMem {client : ConnRef}
    (outside : client ∉ generations book) : (udp client).listed book = 0 := by
  rw [listed_udp]
  simp only [Nat.cast_eq_zero, Multiset.countP_eq_zero]
  intro session member same
  apply outside
  rw [same]
  exact Multiset.mem_toFinset.mpr (Multiset.mem_map_of_mem _ member)

theorem sum_listed_udp :
    ∑ client ∈ generations book, (udp client).listed book =
      book.sessions.size := by
  have counts : ∀ client, (udp client).listed book =
      ((book.sessions.values.map fun session =>
        (book.session session).client).count client : Nat) := by
    intro client
    rw [listed_udp, Multiset.count_map, Multiset.countP_eq_card_filter]
  simp only [counts]
  rw [← Nat.cast_sum, generations, Multiset.toFinset_sum_count_eq,
    Multiset.card_map, FiniteMap.card_values]

end Account

namespace UDPHandler

variable {σ : Type*} {h : UDPHandler σ}

/-! ## The pool of a listener -/

theorem visit_pool (owner : Owner) (addr : AddrPort)
    (chosen : UDPSession → Bool) :
    (h.visit owner addr chosen).pool = h.pool := by
  unfold visit
  split
  · rfl
  · split <;> rfl

theorem senderLeaves_pool (ref : SenderRef) :
    (h.senderLeaves ref).pool = h.pool := by
  unfold senderLeaves
  dsimp only
  split <;> rfl

theorem processPacket_pool (addr : AddrPort) :
    (h.processPacket addr).pool = h.pool := by
  unfold processPacket
  split
  · rfl
  · split <;> rfl

theorem closeStep_pool (ref : CallRef) :
    (ConnectionPool.runs σ).Reaches h.pool (h.closeStep ref).pool := by
  unfold closeStep
  split
  · exact .refl
  rename_i call _
  split
  · unfold closeRemove
    dsimp only
    split <;> exact .refl
  · unfold closeUnindex
    dsimp only
    split <;> exact .refl
  · exact .refl
  · exact .single (of_apply
      (.addActiveConns (h.session call.session).client (-1)) trivial)
  · exact .single (of_apply
      (.addActiveConns (h.session call.session).client 1) trivial)
  · exact .refl
  · unfold closeReleaseSlot
    split <;> exact .refl
  · exact .single (of_apply
      (.releaseUDP (h.session call.session).client) trivial)
  · exact .refl
  · exact .refl

theorem readerStep_pool {order : List ConnRef} (result : SendResult)
    (ready : h.readerReady order = true) :
    (ConnectionPool.runs σ).Reaches h.pool
      (h.readerStep order result).pool := by
  unfold readerStep
  cases at_ : h.reader with
  | reserve addr =>
    unfold readerReady at ready
    rw [at_] at ready
    have reserves :
      (ConnectionPool.runs σ).Reaches h.pool (h.pool.reserveUDP order).2 :=
      .single (of_apply (.reserveUDP order) (of_decide_eq_true ready))
    unfold createReserve
    dsimp only
    split <;> rename_i reserved <;> rw [reserved] at reserves <;>
      exact reserves
  | activate session =>
    exact .single (of_apply
      (.addActiveConns (h.session session).client 1) trivial)
  | total session =>
    exact .single (of_apply (.addTotalConns (h.session session).client) trivial)
  | giveBack client stage existing =>
    cases stage with
    | udp =>
      exact .single (of_apply (.releaseUDP client) trivial)
    | slot | fault => exact .refl
  | load addr client =>
    unfold createLoad
    dsimp only
    split <;> exact .refl
  | epoch addr client =>
    unfold createEpoch
    dsimp only
    split <;> exact .refl
  | store session =>
    unfold createStore
    dsimp only
    repeat' split
    all_goals exact .refl
  | verify session =>
    unfold createVerify
    dsimp only
    split <;> exact .refl
  | sending session =>
    unfold sendStart
    dsimp only
    repeat' split
    all_goals exact .refl
  | enqueue session sender =>
    unfold sendFinish
    dsimp only
    repeat' split
    all_goals exact .refl
  | _ => exact .refl

theorem step_pool {op : UDPOp} (enabled : h.Enabled op) :
    (ConnectionPool.runs σ).Reaches h.pool (h.apply op).pool := by
  cases op with dsimp only [UDPHandler.apply]
  | pool op => exact .single (of_apply op enabled.2)
  | packet addr =>
    rw [processPacket_pool]
    exact .refl
  | reader order result => exact readerStep_pool result enabled
  | close ref => exact closeStep_pool ref
  | senderVisits ref terminal visited addr =>
    unfold senderVisits
    rw [visit_pool]
    exact .refl
  | senderLeaves ref =>
    rw [senderLeaves_pool]
    exact .refl
  | cleanupVisits visited addr expired =>
    rw [visit_pool]
    exact .refl
  | shutdownVisitsSender ref visited addr =>
    rw [visit_pool]
    exact .refl
  | shutdownVisits visited addr =>
    rw [visit_pool]
    exact .refl
  | _ => exact .refl

theorem pool_reachable (reachable : (orderlyRuns σ).Reachable h) :
    (ConnectionPool.runs σ).Reachable h.pool := by
  apply reachable.project
  · rintro state ⟨pool, sessionLimit, fresh, rfl⟩
    exact fresh
  · rintro before after _ ⟨op, enabled, _, rfl⟩
    exact step_pool enabled

theorem tcpActive_nonneg (reachable : (orderlyRuns σ).Reachable h)
    (conn : ConnRef) : 0 ≤ (h.pool.conns conn).tcpActive := by
  have counted := ConnectionPool.counted_of_reachable (pool_reachable reachable)
  have leases := counted.activeLeases conn
  change (h.pool.conns conn).tcpActive = _ at leases
  omega

/-! ## Orderly runs -/

private theorem balanced_of_initial (initial : Initial h) : h.Balanced := by
  obtain ⟨pool, sessionLimit, fresh, rfl⟩ := initial
  obtain ⟨conns, balancer, balancerState, limits, unused, rfl⟩ := fresh
  have zero : ∀ conn, (conns conn).ownActive = 0 ∧
      (conns conn).udpSessions = 0 := by
    intro conn
    obtain ⟨id, capabilities, same⟩ := unused conn
    rw [same]
    exact ⟨rfl, rfl⟩
  have absent : ∀ (key : AddrPort) (session : SessionRef),
      (∅ : FiniteMap AddrPort SessionRef).get key ≠ some session := by
    intro key session found
    rw [FiniteMap.get_empty] at found
    cases found
  constructor
  · constructor
    case listed =>
      intro addr session found
      exact absurd found (absent addr session)
    case called =>
      intro ref call found
      cases found
    case reading =>
      intro session reads
      cases reads
    case unstored =>
      intro session stores
      cases stores
    case removed =>
      rintro session ⟨ref, call, found, _⟩
      cases found
    case once =>
      intro first second left right found
      cases found
    case released =>
      intro session member
      cases member
    case indexing =>
      intro session indexes
      cases indexes
    case publishing =>
      intro session publishes
      cases publishes
    case indexed =>
      intro id session
      constructor
      · intro found
        cases (FiniteMap.get_empty id).symm.trans found
      · rintro ⟨before, _⟩
        cases before
    case ids =>
      intro session before
      cases before
    case numbered => rfl
    case epochs => rfl
    case epochBound => exact Nat.zero_le _
  · intro account
    cases account with
    | current | slots => rfl
    | active client => exact (zero client).1
    | udp client => exact (zero client).2
  · rfl
  · rfl
  · rfl
  · intro ref call found
    cases found
  · rfl

theorem balanced_of_reachable (reachable : (orderlyRuns σ).Reachable h) :
    h.Balanced := by
  apply reachable.invariant
  · intro state initial
    exact balanced_of_initial initial
  · rintro before after earlier balanced ⟨op, enabled, orderly, rfl⟩
    exact balanced.step (tcpActive_nonneg earlier) enabled orderly

/-- Nothing in progress: the sessions in the map are all that is due. -/
theorem due_of_quiescent (quiescent : h.Quiescent) (account : Account) :
    account.due h.book h.reader h.calls = account.listed h.book := by
  have noShare : account.share h.book.session h.reader = 0 := by
    have outside := quiescent.1
    cases at_ : h.reader with
    | idle | sending | enqueue => cases account <;> rfl
    | _ =>
      rw [at_] at outside
      cases outside
  have noLeaving : account.leaving h.book.session h.calls = 0 := by
    apply List.sum_eq_zero
    intro weight member
    obtain ⟨call, inside, rfl⟩ := List.mem_map.mp member
    unfold Account.charge
    rw [quiescent.2 call inside]
    cases account <;> rfl
  unfold Account.due
  rw [noShare, noLeaving]
  omega

/-- Both indexes hold the same sessions. -/
theorem indexed_of_quiescent (balanced : h.Balanced)
    (quiescent : h.Quiescent) (id : Nat) (session : SessionRef) :
    h.book.sessionsByID.get id = some session ↔
      (∃ addr, h.book.sessions.get addr = some session) ∧
        (h.session session).id = id := by
  have notIndex : h.reader ≠ .index session := by
    intro indexes
    have outside := quiescent.1
    rw [indexes] at outside
    cases outside
  have notClosing : ¬ Closing h.calls session fun stage =>
      stage = .unindex := by
    rintro ⟨ref, call, found, _, at_⟩
    rw [quiescent.2 call (List.mem_of_getElem? found)] at at_
    cases at_
  rw [balanced.tables.indexed]
  constructor
  · rintro ⟨_, named, _, listed | closing⟩
    · exact ⟨⟨_, listed⟩, named⟩
    · exact absurd closing notClosing
  · rintro ⟨⟨addr, found⟩, named⟩
    obtain ⟨before, addressed⟩ := balanced.tables.listed addr session found
    refine ⟨before, named, notIndex, .inl ?_⟩
    unfold Book.Listed
    rw [addressed]
    exact found

/-- In orderly runs no accounting fault is raised.  When nothing is in
progress both indexes hold the same sessions, and the published sessions, the
connections of each generation, the slots and the reservations of all
generations are counted exactly. -/
theorem session_accounting (reachable : (orderlyRuns σ).Reachable h) :
    h.stats.accountingFaults = 0 ∧ h.pool.accountingFaults = 0 ∧
    (h.Quiescent → (∀ id session, h.book.sessionsByID.get id = some session ↔
        (∃ addr, h.book.sessions.get addr = some session) ∧
          (h.session session).id = id) ∧
      h.stats.current = h.book.sessions.size ∧
      (∀ client, (h.pool.conns client).activeConns =
        h.pool.leaseCells.countP (TCPLease.isOn client .active) +
          h.book.sessions.values.countP fun session =>
            client = (h.session session).client) ∧
      h.stats.held = h.book.sessions.size ∧
      h.stats.slots = h.book.sessions.size ∧
      ∃ generations : Finset ConnRef, (∀ client, client ∉ generations →
          (h.pool.conns client).udpSessions = 0) ∧
        ∑ client ∈ generations, (h.pool.conns client).udpSessions =
          h.book.sessions.size) := by
  have balanced := balanced_of_reachable reachable
  refine ⟨balanced.noFault, balanced.noPoolFault, ?_⟩
  intro quiescent
  have counts : ∀ account : Account,
      h.counter account = account.listed h.book := by
    intro account
    rw [balanced.balance account, due_of_quiescent quiescent]
  have held : h.stats.held = h.book.sessions.size :=
    (counts .slots).trans (Account.listed_eq_size fun _ => rfl)
  have slots := balanced.slots
  refine ⟨indexed_of_quiescent balanced quiescent, ?_, ?_, held, by omega,
    Account.generations h.book, ?_, ?_⟩
  · exact (counts .current).trans (Account.listed_eq_size fun _ => rfl)
  · intro client
    have leases := (ConnectionPool.counted_of_reachable
      (pool_reachable reachable)).activeLeases client
    have own := (counts (.active client)).trans (Account.listed_active client)
    simp only [counter, ClientConn.ownActive] at own
    change (h.pool.conns client).tcpActive =
      (h.pool.leaseCells.countP (TCPLease.isOn client .active) : Int) at leases
    unfold session
    omega
  · intro client outside
    exact (counts (.udp client)).trans (Account.listed_udp_of_notMem outside)
  · rw [← Account.sum_listed_udp]
    apply Finset.sum_congr rfl
    intro client _
    exact counts (.udp client)

/-! ## Runs of a small listener -/

/-- The first generation is published, a packet creates a session, and its
datagrams are queued. -/
def sampleSchedule : List UDPOp :=
  [.pool .beginPending, .pool (.bind 0 0), .pool (.commit 0),
    .packet ⟨1, 1⟩] ++ List.replicate 14 (.reader [0] .enqueued)

def sampleHandler : UDPHandler UInt64 :=
  newUDPHandler ConnectionPool.samplePool 4

theorem sampleHandler_initial : Initial sampleHandler :=
  ⟨_, _, ⟨_, _, _, _, fun _ => ⟨_, _, rfl⟩, rfl⟩, rfl⟩

theorem session_accounting_sample :
    (sampleSchedule.foldl apply sampleHandler).stats.current = 1 ∧
      ((sampleSchedule.foldl apply sampleHandler).pool.conns 0
        ).activeConns = 1 := by
  have allowed : TransitionSystem.Allows
      (fun h op => Enabled h op ∧ Orderly h op) apply sampleHandler
      sampleSchedule := by
    decide +kernel
  have reachable : (orderlyRuns UInt64).Reachable
      (sampleSchedule.foldl apply sampleHandler) := by
    apply TransitionSystem.Reachable.schedule _
      (.start sampleHandler_initial) allowed
    rintro h op ⟨enabled, orderly⟩
    exact ⟨op, enabled, orderly, rfl⟩
  have accounted := (session_accounting reachable).2.2 (by decide +kernel)
  have size : (sampleSchedule.foldl apply sampleHandler).book.sessions.size =
      1 := by
    decide +kernel
  have leases : (sampleSchedule.foldl apply sampleHandler
      ).pool.leaseCells.countP (TCPLease.isOn 0 .active) = 0 := by
    decide +kernel
  have sessions : ((sampleSchedule.foldl apply sampleHandler
      ).book.sessions.values.countP fun session =>
        0 = ((sampleSchedule.foldl apply sampleHandler).session session
          ).client) = 1 := by
    decide +kernel
  refine ⟨accounted.2.1.trans (by rw [size]; rfl), ?_⟩
  rw [accounted.2.2.1 0, leases, sessions]
  rfl

/-- The session expires, the next packet creates another one, and while the
reader has stored it in `sessions` only, the connection closes and its sender
closes the session before the reader goes on. -/
def overtakenSchedule : List UDPOp :=
  sampleSchedule ++
    [.cleanupStarts, .cleanupVisits [] ⟨1, 1⟩ true] ++
    List.replicate 7 (.close 0) ++ [.cleanupEnds, .packet ⟨1, 1⟩] ++
    List.replicate 6 (.reader [0] .enqueued) ++
    [.closeConn 0, .senderFails 0 false, .senderVisits 0 false [] ⟨1, 1⟩] ++
    List.replicate 8 (.close 1) ++
    List.replicate 6 (.reader [0] .enqueued) ++ [.close 2]

/-- A run in which a fault is raised.  In its last, quiescent state a session
that is no longer in `sessions` is still in `sessionsByID` and still counted
for its generation. -/
theorem session_accounting_overtaken :
    ∃ h : UDPHandler UInt64, (runs UInt64).Reachable h ∧ h.Quiescent ∧
      h.stats.accountingFaults = 1 ∧ h.book.sessions.size = 0 ∧
      h.book.sessionsByID.get 2 = some 1 ∧
      (h.pool.conns 0).activeConns = 1 ∧
      h.pool.leaseCells.countP (TCPLease.isOn 0 .active) = 0 := by
  have allowed : TransitionSystem.Allows Enabled apply sampleHandler
      overtakenSchedule := by
    decide +kernel
  refine ⟨overtakenSchedule.foldl apply sampleHandler, ?_, ?_⟩
  · apply TransitionSystem.Reachable.schedule _
      (.start sampleHandler_initial) allowed
    intro h op enabled
    exact ⟨op, enabled, rfl⟩
  · decide +kernel

end UDPHandler

end QMux.Traffic
