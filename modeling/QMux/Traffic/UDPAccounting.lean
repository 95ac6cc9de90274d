import QMux.Traffic.UDPAccounts

/-!
# Session accounting of a listener

In orderly runs every counter is what the sessions, the reader and the calls
make it, so no release finds an empty counter and no accounting fault is
raised.
-/

namespace QMux.Traffic

open Support Pool Account

/-- Not a stage that follows a fault. -/
def CloseStage.regular : CloseStage → Bool
  | .reactivate => false
  | .fault => false
  | .udpFault => false
  | _ => true

/-- The reader is not about to report a fault. -/
def Reader.regular : Reader → Bool
  | .giveBack _ .fault _ => false
  | _ => true

namespace UDPHandler

variable {σ : Type*} {h : UDPHandler σ}

/-- The counter that belongs to an account. -/
def counter (h : UDPHandler σ) : Account → Int
  | .current => h.stats.current
  | .active client => (h.pool.conns client).ownActive
  | .slots => h.stats.held
  | .udp client => (h.pool.conns client).udpSessions

/-- The tables agree, the counters are what they should be, and no fault has
been raised or is about to be. -/
structure Balanced (h : UDPHandler σ) : Prop where
  tables : Tables h.book h.reader h.calls
  balance : ∀ account : Account,
    h.counter account = account.due h.book h.reader h.calls
  slots : (h.stats.slots : Int) = h.stats.held
  noFault : h.stats.accountingFaults = 0
  noPoolFault : h.pool.accountingFaults = 0
  regularCalls : ∀ (ref : CallRef) (call : CloseCall),
    h.calls[ref]? = some call → call.stage.regular = true
  regularReader : h.reader.regular = true

/-! ## Rules -/

theorem Balanced.of_workers (balanced : h.Balanced) (workers : Workers) :
    Balanced { h with workers := workers } :=
  { balanced with }

variable {next : UDPHandler σ}

section

variable (balanced : h.Balanced)

include balanced

theorem Balanced.reads (sameBook : next.book = h.book)
    (sameCalls : next.calls = h.calls)
    (tables : Tables h.book next.reader h.calls)
    (moves : ∀ account : Account, next.counter account =
      h.counter account - account.share h.book.session h.reader +
        account.share h.book.session next.reader)
    (slots : (next.stats.slots : Int) = next.stats.held)
    (noFault : next.stats.accountingFaults = 0)
    (noPoolFault : next.pool.accountingFaults = 0)
    (regular : next.reader.regular = true) : next.Balanced := by
  refine ⟨?_, ?_, slots, noFault, noPoolFault, ?_, regular⟩
  · rw [sameBook, sameCalls]
    exact tables
  · intro account
    rw [moves account, balanced.balance account, sameBook, sameCalls,
      ← due_goto]
  · rw [sameCalls]
    exact balanced.regularCalls

theorem Balanced.goto {next : Reader} (tables : Tables h.book next h.calls)
    (sameShare : ∀ account : Account, account.share h.book.session next =
      account.share h.book.session h.reader) (regular : next.regular = true) :
    (h.goto next).Balanced := by
  refine balanced.reads rfl rfl tables ?_ balanced.slots balanced.noFault
    balanced.noPoolFault regular
  intro account
  change h.counter account = _ - _ + account.share h.book.session next
  rw [sameShare account]
  omega

theorem Balanced.goto_settled {before next : Reader} (at_ : h.reader = before)
    (settled : before.settled = true) (after : next.settled = true)
    (reading : ∀ session, next.session = some session →
      session < h.book.nextSession)
    (sameShare : ∀ account : Account, account.share h.book.session next =
      account.share h.book.session before) (regular : next.regular = true) :
    (h.goto next).Balanced := by
  subst at_
  exact balanced.goto
    (balanced.tables.settle_settled settled after reading) sameShare regular

theorem Balanced.callClose (owner : Owner) {session : SessionRef}
    (older : session < h.book.nextSession)
    (stored : h.reader ≠ .store session) :
    (h.callClose owner session).Balanced := by
  refine { balanced with tables := ?_, balance := ?_, regularCalls := ?_ }
  · exact balanced.tables.callClose owner older stored
  · intro account
    exact (balanced.balance account).trans (due_callClose owner session).symm
  · intro ref call found
    rcases cases_append found with ⟨_, rfl⟩ | found
    · rfl
    · exact balanced.regularCalls ref call found

theorem Balanced.closes {ref : CallRef} {call : CloseCall}
    {stage : CloseStage} (found : h.calls[ref]? = some call)
    (calls : next.calls = h.calls.set ref { call with stage := stage })
    (sameReader : next.reader = h.reader)
    (tables : Tables next.book h.reader
      (h.calls.set ref { call with stage := stage }))
    (moves : ∀ account : Account,
      next.counter account + account.charge h.book.session call +
          account.listed h.book =
        h.counter account +
          account.charge h.book.session { call with stage := stage } +
          account.listed next.book)
    (sameSession : next.book.session = h.book.session)
    (slots : (next.stats.slots : Int) = next.stats.held)
    (noFault : next.stats.accountingFaults = 0)
    (noPoolFault : next.pool.accountingFaults = 0)
    (regular : stage.regular = true) : next.Balanced := by
  refine ⟨?_, ?_, slots, noFault, noPoolFault, ?_, ?_⟩
  · rw [calls, sameReader]
    exact tables
  · intro account
    have moved := moves account
    have before := balanced.balance account
    have staged : account.due h.book h.reader
        (h.calls.set ref { call with stage := stage }) = _ :=
      due_setStage found stage
    rw [calls, sameReader]
    unfold due at before staged ⊢
    rw [sameSession]
    omega
  · intro other held there
    rw [calls, getElem?_set_eq found] at there
    split at there
    · cases there
      exact regular
    · exact balanced.regularCalls other held there
  · rw [sameReader]
    exact balanced.regularReader

end

-- Below the account and the stage are known and the counters compute.
attribute [simp] counter goto setStage share charge
  closing CloseStage.admitted CloseStage.counted
  ConnectionPool.addActiveConns_udpSessions
  ConnectionPool.addTotalConns_udpSessions

/-! ## `closeSession` -/

section Close

variable {ref : CallRef} {call : CloseCall}

section

variable (balanced : h.Balanced)

include balanced

theorem Balanced.closeRemove (found : h.calls[ref]? = some call)
    (at_ : call.stage = .remove) : (h.closeRemove ref call).Balanced := by
  unfold UDPHandler.closeRemove
  dsimp only
  split
  · rename_i present
    refine balanced.closes found rfl rfl
      (balanced.tables.remove found at_ present) ?_ rfl balanced.slots
      balanced.noFault balanced.noPoolFault rfl
    intro account
    have taken : account.listed { h.book with
        sessions := h.book.sessions.delete
          (h.session call.session).clientAddr } = _ :=
      listed_delete present
    have charged : account.charge h.book.session
        { call with stage := .unindex } =
          account.weigh (h.book.session call.session).client := by
      cases account <;> rfl
    have uncharged : account.charge h.book.session call = 0 := by
      cases account <;> simp [at_]
    change h.counter account + _ + _ = h.counter account + _ +
      account.listed { h.book with sessions := h.book.sessions.delete _ }
    rw [charged, uncharged]
    simp only [session] at taken ⊢
    omega
  · refine balanced.closes found rfl rfl ?_ ?_ rfl balanced.slots
      balanced.noFault balanced.noPoolFault rfl
    · apply balanced.tables.stage found <;>
        simp [at_, CloseStage.holds]
    · intro account
      cases account <;> simp [at_]

theorem Balanced.closeUnindex (found : h.calls[ref]? = some call)
    (at_ : call.stage = .unindex) (orderly : h.reader ≠ .index call.session) :
    (h.closeUnindex ref call).Balanced := by
  have present := balanced.tables.indexed_of_unindex found at_ orderly
  unfold UDPHandler.closeUnindex
  dsimp only [session]
  rw [if_pos present]
  refine balanced.closes found rfl rfl
    (balanced.tables.unindex found at_ orderly) ?_ rfl balanced.slots
    balanced.noFault balanced.noPoolFault rfl
  intro account
  cases account <;> simp [at_, listed]

theorem Balanced.closeUnpublish (found : h.calls[ref]? = some call)
    (at_ : call.stage = .unpublish) : (h.closeUnpublish ref call).Balanced := by
  refine balanced.closes found rfl rfl ?_ ?_ rfl balanced.slots
    balanced.noFault balanced.noPoolFault rfl
  · apply balanced.tables.stage found <;>
      simp [at_, CloseStage.holds]
  · intro account
    cases account <;> simp [UDPHandler.closeUnpublish, SessionStats.unpublish,
      at_, weigh]

theorem Balanced.closeDeactivate
    (leases : ∀ conn, 0 ≤ (h.pool.conns conn).tcpActive)
    (found : h.calls[ref]? = some call) (at_ : call.stage = .deactivate)
    (orderly : h.reader.publishes call.session = false) :
    (h.closeDeactivate ref call).Balanced := by
  have tables : Tables h.book h.reader
      (h.calls.set ref { call with stage := .releaseSlot }) := by
    apply balanced.tables.stage found <;>
      simp [at_, CloseStage.holds, orderly]
  have positive : ¬ (h.pool.conns (h.session call.session).client
      ).activeConns - 1 < 0 := by
    have remaining := due_active_nonneg tables (h.session call.session).client
    have before := balanced.balance (.active (h.session call.session).client)
    have leased := leases (h.session call.session).client
    rw [due_setStage found] at remaining
    simp only [counter, ClientConn.ownActive] at before
    simp only [charge, closing, at_, CloseStage.counted, weigh, session,
      if_true, Bool.false_eq_true, if_false] at remaining before leased ⊢
    omega
  unfold UDPHandler.closeDeactivate
  dsimp only
  rw [if_neg positive]
  refine balanced.closes found rfl rfl tables ?_ rfl balanced.slots
    balanced.noFault balanced.noPoolFault rfl
  intro account
  cases account with
  | active counted =>
    simp only [setStage, counter, ConnectionPool.addActiveConns_ownActive,
      charge, closing, at_, CloseStage.counted,
      weigh, session, if_true, Bool.false_eq_true, if_false]
    split <;> omega
  | udp counted =>
    simp [at_]
  | _ => simp [at_]

end

theorem releaseSessionSlot_eq {stats : SessionStats}
    (same : (stats.slots : Int) = stats.held) (held : 1 ≤ stats.held) :
    stats.releaseSessionSlot =
      { stats with slots := stats.slots - 1, held := stats.held - 1 } := by
  have some : stats.slots ≠ 0 := by omega
  have enough : ¬ stats.held - 1 < 0 := by omega
  unfold SessionStats.releaseSessionSlot
  rw [if_neg some, if_neg enough]

theorem Balanced.closeReleaseSlot (balanced : h.Balanced)
    (found : h.calls[ref]? = some call) (at_ : call.stage = .releaseSlot) :
    (h.closeReleaseSlot ref call).Balanced := by
  have unreleased : call.session ∉ h.book.released := by
    intro released
    apply (balanced.tables.released _ released).2.2
    refine ⟨ref, call, found, rfl, ?_⟩
    rw [at_]
    rfl
  have held : 1 ≤ h.stats.held := by
    have sharing : 0 ≤ Account.slots.share h.book.session h.reader :=
      Account.share_slots_nonneg h.book.session
    have charged := charge_le_due sharing found
    have before := balanced.balance .slots
    simp only [charge, closing, at_, CloseStage.admitted,
      weigh, if_true, counter] at charged before
    omega
  have released := releaseSessionSlot_eq balanced.slots held
  have slots := balanced.slots
  unfold UDPHandler.closeReleaseSlot
  rw [if_neg unreleased, released]
  refine balanced.closes found rfl rfl (balanced.tables.release found at_) ?_
    rfl ?_ balanced.noFault balanced.noPoolFault rfl
  · intro account
    change _ + _ + account.listed h.book = _ + _ + account.listed h.book
    cases account <;> simp [at_, weigh]
  · change ((h.stats.slots - 1 : Nat) : Int) = h.stats.held - 1
    omega

theorem releaseUDP_held (p : ConnectionPool σ) {client : ConnRef}
    (held : 1 ≤ (p.conns client).udpSessions) :
    (p.releaseUDP client).1 = true ∧
      (p.releaseUDP client).2.accountingFaults = p.accountingFaults ∧
      ∀ conn, ((p.releaseUDP client).2.conns conn).udpSessions =
        (p.conns conn).udpSessions + if conn = client then -1 else 0 := by
  have result : (p.releaseUDP client).1 = true := by
    unfold ConnectionPool.releaseUDP
    rw [if_neg (by omega)]
  rcases p.releaseUDP_refines client with ⟨none, _⟩ | ⟨_, moved⟩
  · omega
  · exact ⟨result, moved.accountingFaults (by simp), moved.udpSessions⟩

theorem Balanced.closeReleaseUDP (balanced : h.Balanced)
    (found : h.calls[ref]? = some call) (at_ : call.stage = .releaseUDP) :
    (h.closeReleaseUDP ref call).Balanced := by
  have held : 1 ≤ (h.pool.conns (h.session call.session).client
      ).udpSessions := by
    have sharing : 0 ≤ (udp (h.session call.session).client).share
        h.book.session h.reader := share_udp_nonneg h.book.session _
    have charged := charge_le_due sharing found
    have before := balanced.balance (.udp (h.session call.session).client)
    simp only [charge, closing, at_, CloseStage.admitted, weigh,
      session, counter, decide_true, Bool.or_true, if_true] at charged before ⊢
    omega
  obtain ⟨result, noFault, sessions⟩ := releaseUDP_held h.pool held
  unfold UDPHandler.closeReleaseUDP
  dsimp only
  rw [result, if_pos rfl]
  refine balanced.closes found rfl rfl ?_ ?_ rfl balanced.slots
    balanced.noFault (noFault.trans balanced.noPoolFault) rfl
  · apply balanced.tables.stage found <;>
      simp [at_, CloseStage.holds]
  · intro account
    cases account with
    | active counted =>
      have kept := h.pool.releaseUDP_keepsOwn
        (h.session call.session).client counted
      simp [kept, at_]
    | udp counted =>
      have moved : ((h.pool.releaseUDP
          (h.book.session call.session).client).2.conns counted
          ).udpSessions = (h.pool.conns counted).udpSessions +
            if counted = (h.book.session call.session).client then -1
            else 0 := sessions counted
      simp only [setStage, counter, moved, charge, closing, at_,
        CloseStage.admitted, weigh, session, decide_true, Bool.or_true, if_true,
        reduceCtorEq, decide_false, Bool.or_false, Bool.false_eq_true, if_false]
      split <;> omega
    | _ => simp [at_]

theorem Balanced.closeStep (balanced : h.Balanced)
    (leases : ∀ conn, 0 ≤ (h.pool.conns conn).tcpActive)
    (orderly : h.Orderly (.close ref)) : (h.closeStep ref).Balanced := by
  unfold UDPHandler.closeStep
  cases found : h.calls[ref]? with
  | none => exact balanced
  | some call =>
    have regular := balanced.regularCalls ref call found
    obtain ⟨indexed, counted⟩ := orderly call found
    dsimp only
    cases at_ : call.stage with
    | remove => exact balanced.closeRemove found at_
    | unindex => exact balanced.closeUnindex found at_ (indexed at_)
    | unpublish => exact balanced.closeUnpublish found at_
    | deactivate =>
      exact balanced.closeDeactivate leases found at_ (counted at_)
    | releaseSlot => exact balanced.closeReleaseSlot found at_
    | releaseUDP => exact balanced.closeReleaseUDP found at_
    | returned => exact balanced
    | reactivate | fault | udpFault =>
      rw [at_] at regular
      cases regular

end Close

/-! ## `createSession` -/

section Create

variable {addr : AddrPort} {session : SessionRef} {order : List ConnRef}
  {client : ConnRef} {before : Reader}

private theorem reading_found (balanced : h.Balanced)
    (found : h.book.sessions.get addr = some session) (other : SessionRef)
    (reads : some session = some other) : other < h.book.nextSession := by
  cases reads
  exact (balanced.tables.listed addr session found).1

private theorem reading_none (other : SessionRef)
    (reads : (none : Option SessionRef) = some other) :
    other < h.book.nextSession := by
  cases reads

section

variable (balanced : h.Balanced)

include balanced

theorem Balanced.processPacket (addr : AddrPort) (at_ : h.reader = .idle) :
    (h.processPacket addr).Balanced := by
  unfold UDPHandler.processPacket
  split
  · exact balanced
  split
  · rename_i session found
    refine balanced.goto_settled at_ rfl rfl
      (reading_found balanced found) ?_ rfl
    intro account
    cases account <;> rfl
  · refine balanced.goto_settled at_ rfl rfl reading_none ?_ rfl
    intro account
    cases account <;> rfl

theorem Balanced.createAcquire (at_ : h.reader = .acquire addr) :
    (h.createAcquire addr).Balanced := by
  have slots := balanced.slots
  have noFault := balanced.noFault
  have settled : h.reader.settled = true := by
    rw [at_]
    rfl
  unfold UDPHandler.createAcquire SessionStats.acquireSessionSlot
  rw [if_neg (by simp [noFault])]
  by_cases room : h.stats.slots < h.sessionLimit
  · rw [if_pos room]
    refine balanced.reads rfl rfl
      (balanced.tables.settle_settled settled rfl reading_none) ?_ ?_
      balanced.noFault balanced.noPoolFault rfl
    · intro account
      cases account <;> simp [at_]
    · change ((h.stats.slots + 1 : Nat) : Int) = h.stats.held + 1
      omega
  · rw [if_neg room]
    refine balanced.reads rfl rfl
      (balanced.tables.settle_settled settled rfl reading_none) ?_ slots
      balanced.noFault balanced.noPoolFault rfl
    intro account
    cases account <;> simp [at_]

theorem Balanced.createReserve (at_ : h.reader = .reserve addr)
    (iteration : h.pool.IterationOrder order) :
    (h.createReserve addr order).Balanced := by
  have settled : h.reader.settled = true := by
    rw [at_]
    rfl
  have kept := h.pool.reserveUDP_keepsOwn order
  unfold UDPHandler.createReserve
  rcases ConnectionPool.reserveUDP_refines iteration with
    ⟨selected, result, moved⟩ | ⟨⟨failure, result⟩, same⟩
  · have sessions := moved.udpSessions
    have noFault : (h.pool.reserveUDP order).2.accountingFaults = 0 :=
      (moved.accountingFaults (by simp)).trans balanced.noPoolFault
    split
    · rename_i client pool reserved
      rw [reserved] at result sessions noFault kept
      cases result
      refine balanced.reads rfl rfl
        (balanced.tables.settle_settled settled rfl reading_none) ?_
        balanced.slots balanced.noFault noFault rfl
      intro account
      cases account with
      | active counted =>
        simp [at_, kept counted]
      | udp counted =>
        have counts : (pool.conns counted).udpSessions =
            (h.pool.conns counted).udpSessions +
              if counted = selected then 1 else 0 := sessions counted
        simp [at_, counts, weigh]
      | _ => simp [at_]
    · rename_i failure pool reserved
      rw [reserved] at result
      cases result
  · have sessions : ∀ conn, ((h.pool.reserveUDP order).2.conns conn
        ).udpSessions = (h.pool.conns conn).udpSessions := by
      intro conn
      exact congrArg (fun ledger : Ledger =>
        (ledger.conns conn).udpSessions) same
    have noFault : (h.pool.reserveUDP order).2.accountingFaults = 0 :=
      (congrArg Ledger.accountingFaults same).trans balanced.noPoolFault
    split
    · rename_i client pool reserved
      rw [reserved] at result
      cases result
    rename_i failure pool reserved
    rw [reserved] at sessions noFault kept
    refine balanced.reads rfl rfl
      (balanced.tables.settle_settled settled rfl reading_none) ?_
      balanced.slots balanced.noFault noFault rfl
    intro account
    cases account with
    | active counted =>
      simp [at_, kept counted]
    | udp counted =>
      have counts : (pool.conns counted).udpSessions =
          (h.pool.conns counted).udpSessions := sessions counted
      simp [at_, counts]
    | _ => simp [at_]

theorem Balanced.held_of_share
    (holds : Account.slots.share h.book.session h.reader = 1) :
    1 ≤ h.stats.held := by
  have before := balanced.balance .slots
  have shared : Account.slots.share h.book.session h.reader ≤
      Account.slots.due h.book h.reader h.calls := Account.share_le_due
  simp only [counter] at before
  omega

theorem Balanced.createRefused {capacity : Bool}
    (at_ : h.reader = .refused capacity) :
    (h.createRefused capacity).Balanced := by
  have settled : h.reader.settled = true := by
    rw [at_]
    rfl
  have slots := balanced.slots
  have held : 1 ≤ h.stats.held := by
    apply balanced.held_of_share
    rw [at_]
    rfl
  have released := releaseSessionSlot_eq slots held
  unfold UDPHandler.createRefused
  rw [released]
  cases capacity with
  | true | false =>
    refine balanced.reads rfl rfl
      (balanced.tables.settle_settled settled rfl reading_none) ?_ ?_
      balanced.noFault balanced.noPoolFault rfl
    · intro account
      cases account <;> simp [at_]
    · change ((h.stats.slots - 1 : Nat) : Int) = h.stats.held - 1
      omega

theorem Balanced.createCapacityDrop (at_ : h.reader = .capacityDrop) :
    h.createCapacityDrop.Balanced := by
  have settled : h.reader.settled = true := by
    rw [at_]
    rfl
  refine balanced.reads rfl rfl
    (balanced.tables.settle_settled settled rfl reading_none) ?_
    balanced.slots balanced.noFault balanced.noPoolFault rfl
  intro account
  cases account <;> simp [UDPHandler.createCapacityDrop,
    SessionStats.generationCapacityDrop, at_]

theorem Balanced.createLoad (at_ : h.reader = .load addr client) :
    (h.createLoad addr client).Balanced := by
  unfold UDPHandler.createLoad
  split
  · rename_i session found
    refine balanced.goto_settled at_ rfl rfl
      (reading_found balanced found) ?_ rfl
    intro account
    cases account <;> rfl
  · refine balanced.goto_settled at_ rfl rfl reading_none ?_ rfl
    intro account
    cases account <;> rfl

theorem Balanced.createEpoch (at_ : h.reader = .epoch addr client) :
    (h.createEpoch addr client).Balanced := by
  unfold UDPHandler.createEpoch
  split
  · refine balanced.goto_settled at_ rfl rfl reading_none ?_ rfl
    intro account
    cases account <;> rfl
  · rename_i room
    have settled : h.reader.settled = true := by
      rw [at_]
      rfl
    refine { balanced with
      tables := balanced.tables.allocateEpoch settled room
      balance := ?_
      regularReader := rfl }
    intro account
    have before := balanced.balance account
    rw [at_] at before
    refine before.trans ?_
    cases account <;> rfl

theorem Balanced.createSessionID {epoch : Nat}
    (at_ : h.reader = .sessionID addr client epoch) :
    (h.createSessionID addr client epoch).Balanced := by
  have tables := balanced.tables
  rw [at_] at tables
  refine { balanced with
    tables := tables.allocateSession rfl
    balance := ?_
    regularReader := rfl }
  intro account
  refine (balanced.balance account).trans ?_
  rw [at_]
  refine Eq.trans ?_ (due_allocated tables _ _ (.store h.book.nextSession)).symm
  cases account with
  | udp counted =>
    simp only [share, Tables.allocated, Function.update_self]
    omega
  | _ =>
    simp only [share]
    omega

theorem Balanced.createStore (at_ : h.reader = .store session) :
    (h.createStore session).Balanced := by
  have tables := balanced.tables
  rw [at_] at tables
  have giveBack : ∀ existing : Option SessionRef,
      (∀ other, existing = some other → other < h.book.nextSession) →
      (h.goto (.giveBack (h.session session).client .slot existing)
        ).Balanced := by
    intro existing reading
    refine balanced.goto ?_ ?_ rfl
    · refine tables.settle rfl ?_ rfl reading
      intro other indexes
      cases indexes
    · intro account
      rw [at_]
      cases account <;> rfl
  unfold UDPHandler.createStore
  dsimp only
  split
  · exact giveBack none reading_none
  split
  · rename_i actual found
    exact giveBack (some actual) (reading_found balanced found)
  rename_i vacant
  refine { balanced with
    tables := tables.store vacant
    balance := ?_
    regularReader := rfl }
  intro account
  have before := balanced.balance account
  have added : account.listed { h.book with
      sessions := h.book.sessions.put
        (h.session session).clientAddr session } = _ :=
    listed_put vacant
  refine before.trans ?_
  rw [at_]
  change _ = account.listed { h.book with
    sessions := h.book.sessions.put (h.session session).clientAddr
      session } + account.share h.book.session (.index session) +
    account.leaving h.book.session h.calls
  rw [added]
  unfold due
  cases account <;> simp only [share, weigh] <;> omega

theorem Balanced.createIndex (at_ : h.reader = .index session) :
    (h.createIndex session).Balanced := by
  have tables := balanced.tables
  rw [at_] at tables
  refine { balanced with
    tables := tables.index, balance := ?_, regularReader := rfl }
  intro account
  have before := balanced.balance account
  rw [at_] at before
  refine before.trans ?_
  cases account <;> rfl

theorem Balanced.createPublish (at_ : h.reader = .publish session) :
    (h.createPublish session).Balanced := by
  have tables := balanced.tables
  rw [at_] at tables
  refine balanced.reads rfl rfl tables.publish ?_ balanced.slots
    balanced.noFault balanced.noPoolFault rfl
  intro account
  cases account <;> simp [UDPHandler.createPublish, SessionStats.publish, at_]

end

private theorem tables_published {next : Reader}
    (tables : Tables h.book (.activate session) h.calls)
    (settled : next.settled = true) (reads : next.session = some session) :
    Tables h.book next h.calls := by
  apply tables.settle rfl _ settled
  · intro other same
    rw [reads] at same
    cases same
    exact tables.reading session rfl
  · intro other indexes
    cases indexes

variable (balanced : h.Balanced)

include balanced

theorem Balanced.createActivate (at_ : h.reader = .activate session) :
    (h.createActivate session).Balanced := by
  have tables := balanced.tables
  rw [at_] at tables
  refine balanced.reads rfl rfl (tables_published tables rfl rfl) ?_
    balanced.slots balanced.noFault balanced.noPoolFault rfl
  intro account
  cases account with
  | active counted =>
    simp only [UDPHandler.createActivate, UDPHandler.goto, counter, at_,
      ConnectionPool.addActiveConns_ownActive, share, weigh, UDPHandler.session]
    omega
  | udp counted =>
    simp [UDPHandler.createActivate, at_]
  | _ => simp [UDPHandler.createActivate, at_]

private theorem reading_same (at_ : h.reader = before)
    (reads : before.session = some session) (other : SessionRef)
    (same : some session = some other) : other < h.book.nextSession := by
  cases same
  exact balanced.tables.reading session (by rw [at_, reads])

theorem Balanced.createTotal (at_ : h.reader = .total session) :
    (h.createTotal session).Balanced := by
  have settled : h.reader.settled = true := by
    rw [at_]
    rfl
  have kept : h.pool.KeepsOwn (h.pool.addTotalConns
      (h.session session).client) :=
    show h.pool.KeepsOwn (h.pool.apply (.addTotalConns _)) from
      ConnectionPool.apply_keepsOwn (by simp)
  refine balanced.reads rfl rfl (balanced.tables.settle_settled settled rfl
    (reading_same balanced at_ rfl)) ?_ balanced.slots balanced.noFault
    balanced.noPoolFault rfl
  intro account
  cases account with
  | active counted =>
    simp [UDPHandler.createTotal, at_, kept counted]
  | udp counted =>
    simp [UDPHandler.createTotal, at_]
  | _ => simp [UDPHandler.createTotal, at_]

theorem Balanced.abandon (at_ : h.reader = before)
    (settled : before.settled = true) (reads : before.session = some session)
    (noShare : ∀ account : Account, account.share h.book.session before = 0) :
    ((h.callClose .reader session).goto .idle).Balanced := by
  have older := reading_same balanced at_ reads session rfl
  have stored : h.reader ≠ .store session := by
    intro stores
    rw [← at_, stores] at settled
    cases settled
  have called := balanced.callClose .reader older stored
  refine called.goto_settled at_ settled rfl reading_none ?_ rfl
  intro account
  refine Eq.trans ?_ (noShare account).symm
  cases account <;> rfl

theorem Balanced.createVerify (at_ : h.reader = .verify session) :
    (h.createVerify session).Balanced := by
  unfold UDPHandler.createVerify
  dsimp only
  split
  · apply balanced.abandon at_ rfl rfl
    intro account
    cases account <;> rfl
  · refine balanced.goto_settled at_ rfl rfl (reading_same balanced at_ rfl)
      ?_ rfl
    intro account
    cases account <;> rfl

theorem Balanced.createGiveBack {stage : GiveBack}
    {existing : Option SessionRef}
    (at_ : h.reader = .giveBack client stage existing) :
    (h.createGiveBack client stage existing).Balanced := by
  have settled : h.reader.settled = true := by
    rw [at_]
    rfl
  have reading : ∀ session, existing = some session →
      session < h.book.nextSession := by
    intro session same
    apply balanced.tables.reading session
    rw [at_]
    exact same
  cases stage with
  | slot =>
    have slots := balanced.slots
    have held : 1 ≤ h.stats.held := by
      apply balanced.held_of_share
      rw [at_]
      rfl
    have released := releaseSessionSlot_eq slots held
    unfold UDPHandler.createGiveBack
    dsimp only
    rw [released]
    refine balanced.reads rfl rfl
      (balanced.tables.settle_settled settled rfl reading) ?_ ?_
      balanced.noFault balanced.noPoolFault rfl
    · intro account
      cases account <;> simp [at_]
    · change ((h.stats.slots - 1 : Nat) : Int) = h.stats.held - 1
      omega
  | udp =>
    have held : 1 ≤ (h.pool.conns client).udpSessions := by
      have before := balanced.balance (.udp client)
      have shared : (udp client).share h.book.session h.reader ≤
        (udp client).due h.book h.reader h.calls := share_le_due
      rw [← before, at_] at shared
      simpa [weigh] using shared
    obtain ⟨result, noFault, sessions⟩ := releaseUDP_held h.pool held
    have kept := h.pool.releaseUDP_keepsOwn client
    have after :
        (afterCreate existing).settled = true ∧ (afterCreate existing).session =
        existing ∧ (afterCreate existing).regular = true ∧ ∀ account :
        Account, account.share h.book.session (afterCreate existing) = 0 := by
      cases existing <;> refine ⟨rfl, rfl, rfl, ?_⟩ <;> intro account <;>
        cases account <;> rfl
    obtain ⟨afterSettled, afterSession, regular, noShare⟩ := after
    unfold UDPHandler.createGiveBack
    dsimp only
    rw [result, if_pos rfl]
    refine balanced.reads rfl rfl
      (balanced.tables.settle_settled settled afterSettled ?_) ?_
      balanced.slots balanced.noFault
      (noFault.trans balanced.noPoolFault) regular
    · intro session same
      exact reading session (afterSession.symm.trans same)
    · intro account
      change _ = _ + account.share h.book.session (afterCreate existing)
      rw [noShare account]
      cases account with
      | active counted =>
        simp [at_, kept counted]
      | udp counted =>
        have counts := sessions counted
        simp only [UDPHandler.goto, counter, at_, counts, share, weigh]
        split <;> omega
      | _ => simp [at_]
  | fault =>
    have regular := balanced.regularReader
    rw [at_] at regular
    cases regular

theorem Balanced.sendStart (at_ : h.reader = .sending session) :
    (h.sendStart session).Balanced := by
  have moves : ∀ (workers : Workers) (sender : SenderRef),
      ({ h with workers := workers }.goto (.enqueue session sender)
        ).Balanced := by
    intro workers sender
    have kept := balanced.of_workers workers
    refine kept.goto_settled at_ rfl rfl (reading_same kept at_ rfl) ?_ rfl
    intro account
    cases account <;> rfl
  unfold UDPHandler.sendStart
  dsimp only
  split
  · refine balanced.goto_settled at_ rfl rfl reading_none ?_ rfl
    intro account
    cases account <;> rfl
  · split
    · exact moves h.workers _
    · split
      · apply balanced.abandon at_ rfl rfl
        intro account
        cases account <;> rfl
      · split
        · exact moves h.workers _
        · exact moves _ _

theorem Balanced.sendFinish {sender : SenderRef}
    (at_ : h.reader = .enqueue session sender) (result : SendResult) :
    (h.sendFinish session sender result).Balanced := by
  have noShare : ∀ account : Account,
      account.share h.book.session (.enqueue session sender) = 0 := by
    intro account
    cases account <;> rfl
  have done : ∀ workers : Workers,
      ({ h with workers := workers }.goto .idle).Balanced := by
    intro workers
    refine (balanced.of_workers workers).goto_settled at_ rfl rfl
      reading_none ?_ rfl
    intro account
    cases account <;> rfl
  unfold UDPHandler.sendFinish
  split
  · exact balanced.abandon at_ rfl rfl noShare
  · cases result with
    | enqueued => exact done _
    | queueFull => exact done h.workers
    | fragmentFailed => exact balanced.abandon at_ rfl rfl noShare

theorem Balanced.readerStep (result : SendResult)
    (ready : h.readerReady order = true) :
    (h.readerStep order result).Balanced := by
  unfold UDPHandler.readerStep
  cases at_ : h.reader with
  | idle => exact balanced
  | acquire addr => exact balanced.createAcquire at_
  | reserve addr =>
    unfold readerReady at ready
    rw [at_] at ready
    exact balanced.createReserve at_ (of_decide_eq_true ready)
  | refused capacity => exact balanced.createRefused at_
  | capacityDrop => exact balanced.createCapacityDrop at_
  | load addr client => exact balanced.createLoad at_
  | epoch addr client => exact balanced.createEpoch at_
  | sessionID addr client epoch => exact balanced.createSessionID at_
  | store session => exact balanced.createStore at_
  | index session => exact balanced.createIndex at_
  | publish session => exact balanced.createPublish at_
  | activate session => exact balanced.createActivate at_
  | total session => exact balanced.createTotal at_
  | register session =>
    refine balanced.goto_settled at_ rfl rfl
      (reading_same balanced at_ rfl) ?_ rfl
    intro account
    cases account <;> rfl
  | verify session => exact balanced.createVerify at_
  | giveBack client stage existing => exact balanced.createGiveBack at_
  | sending session => exact balanced.sendStart at_
  | enqueue session sender => exact balanced.sendFinish at_ result

end Create

/-! ## Whole runs -/

theorem Balanced.visit (balanced : h.Balanced) (owner : Owner)
    (addr : AddrPort) (chosen : UDPSession → Bool) :
    (h.visit owner addr chosen).Balanced := by
  unfold UDPHandler.visit
  split
  · exact balanced
  rename_i session found
  split
  · have present : h.book.Listed session := by
      have addressed := (balanced.tables.listed addr session found).2
      unfold Book.Listed
      rw [addressed]
      exact found
    apply balanced.callClose owner
    · exact (balanced.tables.listed addr session found).1
    · intro stores
      exact (balanced.tables.unstored session stores).1 present
  · exact balanced

theorem Balanced.foreign (balanced : h.Balanced) {op : Pool.Op}
    (foreign : Foreign op) : Balanced { h with pool := h.pool.apply op } := by
  have plain : op.Plain := by
    cases op <;> trivial
  have kept := ConnectionPool.foreign_keepsOwn (p := h.pool) foreign
  have same : (∀ conn, ((h.pool.apply op).conns conn).udpSessions =
      (h.pool.conns conn).udpSessions) ∧
      (h.pool.apply op).accountingFaults = h.pool.accountingFaults := by
    rcases h.pool.plain_refines plain with same | moved
    · refine ⟨?_, congrArg Ledger.accountingFaults same⟩
      intro conn
      exact congrArg (fun ledger : Ledger =>
        (ledger.conns conn).udpSessions) same
    · refine ⟨?_, moved.accountingFaults (by simp)⟩
      intro conn
      have sessions := moved.udpSessions conn
      rw [Ledger.Action.udpDelta, Int.add_zero] at sessions
      exact sessions
  refine { balanced with
    balance := ?_
    noPoolFault := same.2.trans balanced.noPoolFault }
  intro account
  have before := balanced.balance account
  cases account with
  | active counted => exact (kept counted).trans before
  | udp counted => exact (same.1 counted).trans before
  | _ => exact before

theorem Balanced.step (balanced : h.Balanced)
    (leases : ∀ conn, 0 ≤ (h.pool.conns conn).tcpActive) {op : UDPOp}
    (enabled : h.Enabled op) (orderly : h.Orderly op) :
    (h.apply op).Balanced := by
  cases op with dsimp only [UDPHandler.apply]
  | pool op => exact balanced.foreign enabled.1
  | packet addr => exact balanced.processPacket addr enabled.1
  | reader order result => exact balanced.readerStep result enabled
  | close ref => exact balanced.closeStep leases orderly
  | senderVisits ref terminal visited addr =>
    unfold UDPHandler.senderVisits
    apply Balanced.visit
    exact balanced.of_workers _
  | cleanupVisits visited addr expired =>
    apply Balanced.visit
    exact balanced.of_workers _
  | shutdownVisitsSender ref visited addr =>
    apply Balanced.visit
    exact balanced.of_workers _
  | shutdownVisits visited addr =>
    apply Balanced.visit
    exact balanced.of_workers _
  | senderLeaves ref =>
    unfold UDPHandler.senderLeaves
    dsimp only
    split
    all_goals exact balanced.of_workers _
  | _ => exact balanced.of_workers _

end UDPHandler

end QMux.Traffic
