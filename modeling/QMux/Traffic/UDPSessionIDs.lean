import QMux.Traffic.UDPTables

/-!
# Session identifiers

Each session object takes an epoch before its identifier.  Epochs do not
wrap, so the 32-bit identifier counter does not wrap either, and identifiers
are not reused.  This holds in every run, also when a `closeSession` call
overtakes `createSession`.
-/

namespace QMux.Traffic

open Function Support Pool

/-- What is known of the sessions created so far. -/
structure Issued (book : Book) (reader : Reader) : Prop where
  ids : ∀ session < book.nextSession, (book.session session).id = session + 1
  numbered : book.nextSessionID = book.nextSession
  epochs : book.epochAllocator = book.nextSession + reader.pendingEpochs
  epochBound : book.epochAllocator ≤ 2 ^ 32 - 1
  listed : ∀ addr session, book.sessions.get addr = some session →
    session < book.nextSession
  indexed : ∀ id session, book.sessionsByID.get id = some session →
    session < book.nextSession ∧ (book.session session).id = id
  reading : ∀ session, reader.session = some session →
    session < book.nextSession

namespace Book

variable {book : Book}

/-- Entries of the two tables may be gone; everything else is the same. -/
structure Trims (book next : Book) : Prop where
  session : next.session = book.session
  nextSession : next.nextSession = book.nextSession
  nextSessionID : next.nextSessionID = book.nextSessionID
  epochAllocator : next.epochAllocator = book.epochAllocator
  sessions : ∀ addr session, next.sessions.get addr = some session →
    book.sessions.get addr = some session
  sessionsByID : ∀ id session, next.sessionsByID.get id = some session →
    book.sessionsByID.get id = some session

theorem Trims.refl : book.Trims book :=
  ⟨rfl, rfl, rfl, rfl, fun _ _ => id, fun _ _ => id⟩

/-- Sessions are added and never changed. -/
structure Grows (book next : Book) : Prop where
  nextSession : book.nextSession ≤ next.nextSession
  session : ∀ session < book.nextSession,
    next.session session = book.session session

variable {next : Book}

theorem Grows.of_same (session : next.session = book.session)
    (nextSession : next.nextSession = book.nextSession) : book.Grows next where
  nextSession := Nat.le_of_eq nextSession.symm
  session other _ := by rw [session]

theorem Trims.grows (trims : book.Trims next) : book.Grows next :=
  .of_same trims.session trims.nextSession

end Book

namespace Issued

variable {book : Book} {reader : Reader}

theorem trim (issued : Issued book reader) {next : Book}
    (trims : book.Trims next) : Issued next reader := by
  constructor
  · rw [trims.nextSession, trims.session]
    exact issued.ids
  · rw [trims.nextSession, trims.nextSessionID]
    exact issued.numbered
  · rw [trims.nextSession, trims.epochAllocator]
    exact issued.epochs
  · rw [trims.epochAllocator]
    exact issued.epochBound
  · rw [trims.nextSession]
    intro addr session found
    exact issued.listed addr session (trims.sessions addr session found)
  · rw [trims.nextSession, trims.session]
    intro id session found
    exact issued.indexed id session (trims.sessionsByID id session found)
  · rw [trims.nextSession]
    exact issued.reading

variable {next : Reader} {addr : AddrPort} {session : SessionRef}
  {client : ConnRef} {epoch : Nat}

section

variable (issued : Issued book reader)

include issued

theorem goto (before : reader.pendingEpochs = 0)
    (after : next.pendingEpochs = 0)
    (reading : ∀ session, next.session = some session →
      session < book.nextSession) : Issued book next := by
  refine { issued with epochs := ?_, reading := reading }
  rw [after, issued.epochs, before]

theorem proceed (before : reader.pendingEpochs = 0)
    (after : next.pendingEpochs = 0) (same : next.session = reader.session) :
    Issued book next := by
  apply issued.goto before after
  rw [same]
  exact issued.reading

theorem forget (before : reader.pendingEpochs = 0)
    (after : next.pendingEpochs = 0) (none : next.session = none) :
    Issued book next := by
  apply issued.goto before after
  rw [none]
  intro session reads
  cases reads

theorem lookup (found : book.sessions.get addr = some session)
    (before : reader.pendingEpochs = 0) (after : next.pendingEpochs = 0)
    (same : next.session = some session) : Issued book next := by
  apply issued.goto before after
  rw [same]
  intro other reads
  cases reads
  exact issued.listed addr session found

theorem allocateEpoch (before : reader.pendingEpochs = 0)
    (room : book.epochAllocator ≠ 2 ^ 32 - 1) :
    Issued { book with epochAllocator := book.epochAllocator + 1 }
      (.sessionID addr client epoch) := by
  have bound := issued.epochBound
  have epochs := issued.epochs
  refine { issued with epochs := ?_, epochBound := ?_, reading := ?_ }
  · change book.epochAllocator + 1 = book.nextSession + 1
    omega
  · change book.epochAllocator + 1 ≤ 2 ^ 32 - 1
    omega
  · intro session reads
    cases reads

end

theorem allocateSession {object : UDPSession}
    (issued : Issued book (.sessionID addr client epoch))
    (id : object.id = (book.nextSessionID + 1) % 2 ^ 32) :
    Issued (Tables.allocated book object.id object)
      (.store book.nextSession) := by
  have epochs := issued.epochs
  have bound := issued.epochBound
  simp only [Reader.pendingEpochs] at epochs
  have number : object.id = book.nextSession + 1 := by
    rw [id, issued.numbered]
    exact Nat.mod_eq_of_lt (by omega)
  have older : ∀ session < book.nextSession,
      (Tables.allocated book object.id object).session session =
        book.session session := by
    intro session before
    exact update_of_ne (Nat.ne_of_lt before) _ _
  constructor
  · intro session before
    by_cases same : session = book.nextSession
    · subst same
      rw [← number]
      exact congrArg UDPSession.id (update_self _ _ _)
    · have earlier : session < book.nextSession :=
        lt_of_le_of_ne (Nat.lt_succ_iff.mp before) same
      rw [older session earlier]
      exact issued.ids session earlier
  · exact number
  · change book.epochAllocator = book.nextSession + 1 + 0
    omega
  · exact bound
  · intro target session found
    exact Nat.lt_succ_of_lt (issued.listed target session found)
  · intro target session found
    obtain ⟨before, named⟩ := issued.indexed target session found
    refine ⟨Nat.lt_succ_of_lt before, ?_⟩
    rw [older session before]
    exact named
  · intro session reads
    cases reads
    exact Nat.lt_succ_self _

theorem store (issued : Issued book (.store session)) (addr : AddrPort) :
    Issued { book with sessions := book.sessions.put addr session }
      (.index session) := by
  refine { issued with listed := ?_ }
  intro target other found
  change (book.sessions.put addr session).get target = some other at found
  rw [FiniteMap.get_put] at found
  split at found
  · cases found
    exact issued.reading session rfl
  · exact issued.listed target other found

theorem index (issued : Issued book (.index session)) :
    Issued { book with
      sessionsByID :=
        book.sessionsByID.put (book.session session).id session }
      (.publish session) := by
  refine { issued with indexed := ?_ }
  intro id other found
  change (book.sessionsByID.put _ session).get id = some other at found
  rw [FiniteMap.get_put] at found
  split at found
  · rename_i same
    cases found
    exact ⟨issued.reading session rfl, same.symm⟩
  · exact issued.indexed id other found

/-- Identifiers are not reused. -/
theorem id_injective (issued : Issued book reader)
    {first second : SessionRef} (left : first < book.nextSession)
    (right : second < book.nextSession)
    (same : (book.session first).id = (book.session second).id) :
    first = second := by
  rw [issued.ids first left, issued.ids second right] at same
  exact Nat.succ_injective same

theorem nextSession_le (issued : Issued book reader) :
    book.nextSession ≤ 2 ^ 32 - 1 := by
  calc book.nextSession
    _ ≤ book.nextSession + reader.pendingEpochs := Nat.le_add_right _ _
    _ = book.epochAllocator := issued.epochs.symm
    _ ≤ 2 ^ 32 - 1 := issued.epochBound

end Issued

namespace UDPHandler

variable {σ : Type*} {h : UDPHandler σ}

/-- A step of the handler: sessions are added and never changed. -/
structure Advances (h next : UDPHandler σ) : Prop where
  issued : Issued next.book next.reader
  grows : h.book.Grows next.book

variable {next : UDPHandler σ} {addr : AddrPort} {client : ConnRef}
  {session : SessionRef}

theorem Advances.of_book (issued : Issued next.book next.reader)
    (book : next.book = h.book) : h.Advances next :=
  ⟨issued, .of_same (by rw [book]) (by rw [book])⟩

section

variable (issued : Issued h.book h.reader)

include issued

theorem Advances.of_trims (trims : h.book.Trims next.book)
    (reader : next.reader = h.reader) : h.Advances next := by
  refine ⟨?_, trims.grows⟩
  rw [reader]
  exact issued.trim trims

theorem advances_closeStep (ref : CallRef) : h.Advances (h.closeStep ref) := by
  have same : ∀ {next : UDPHandler σ}, next.book = h.book →
      next.reader = h.reader → h.Advances next := by
    intro next book reader
    apply Advances.of_trims issued _ reader
    rw [book]
    exact .refl
  unfold closeStep
  split
  · exact same rfl rfl
  rename_i call _
  split
  · unfold closeRemove
    dsimp only
    split
    · exact .of_trims issued ⟨rfl, rfl, rfl, rfl,
        fun _ _ found => FiniteMap.get_of_get_delete found, fun _ _ => id⟩ rfl
    · exact same rfl rfl
  · unfold closeUnindex
    dsimp only
    split
    · exact .of_trims issued ⟨rfl, rfl, rfl, rfl, fun _ _ => id,
        fun _ _ found => FiniteMap.get_of_get_delete found⟩ rfl
    · exact same rfl rfl
  · exact same rfl rfl
  · exact same rfl rfl
  · exact same rfl rfl
  · exact same rfl rfl
  · unfold closeReleaseSlot
    split
    · exact same rfl rfl
    · exact .of_trims issued ⟨rfl, rfl, rfl, rfl, fun _ _ => id,
        fun _ _ => id⟩ rfl
  all_goals exact same rfl rfl

theorem advances_processPacket (addr : AddrPort) (at_ : h.reader = .idle) :
    h.Advances (h.processPacket addr) := by
  have none : h.reader.pendingEpochs = 0 := by
    rw [at_]
    rfl
  unfold processPacket
  split
  · exact .of_book issued rfl
  · split
    · rename_i session found
      exact .of_book (issued.lookup found none rfl rfl) rfl
    · exact .of_book (issued.forget none rfl rfl) rfl

private theorem advances_idle (none : h.reader.pendingEpochs = 0)
    (book : next.book = h.book) (idle : next.reader = .idle) :
    h.Advances next := by
  apply Advances.of_book _ book
  rw [book, idle]
  exact issued.forget none rfl rfl

private theorem advances_same (none : h.reader.pendingEpochs = 0)
    (book : next.book = h.book) (pending : next.reader.pendingEpochs = 0)
    (session : next.reader.session = h.reader.session) : h.Advances next := by
  apply Advances.of_book _ book
  rw [book]
  exact issued.proceed none pending session

theorem advances_createReserve (order : List ConnRef)
    (at_ : h.reader = .reserve addr) :
    h.Advances (h.createReserve addr order) := by
  have none : h.reader.pendingEpochs = 0 := by
    rw [at_]
    rfl
  unfold createReserve
  split
  all_goals exact .of_book (issued.forget none rfl rfl) rfl

theorem advances_createEpoch (at_ : h.reader = .epoch addr client) :
    h.Advances (h.createEpoch addr client) := by
  have none : h.reader.pendingEpochs = 0 := by
    rw [at_]
    rfl
  unfold createEpoch
  split
  · exact .of_book (issued.forget none rfl rfl) rfl
  · rename_i room
    exact ⟨issued.allocateEpoch none room, .of_same rfl rfl⟩

theorem advances_createSessionID {epoch : Nat}
    (at_ : h.reader = .sessionID addr client epoch) :
    h.Advances (h.createSessionID addr client epoch) := by
  rw [at_] at issued
  refine ⟨issued.allocateSession rfl, Nat.le_succ _, ?_⟩
  intro session before
  exact update_of_ne (Nat.ne_of_lt before) _ _

theorem advances_createStore (at_ : h.reader = .store session) :
    h.Advances (h.createStore session) := by
  have none : h.reader.pendingEpochs = 0 := by
    rw [at_]
    rfl
  unfold createStore
  dsimp only
  split
  · exact .of_book (issued.forget none rfl rfl) rfl
  split
  · rename_i actual found
    exact .of_book (issued.lookup found none rfl rfl) rfl
  · rw [at_] at issued
    exact ⟨issued.store _, .of_same rfl rfl⟩

theorem advances_createGiveBack {stage : GiveBack}
    {existing : Option SessionRef}
    (at_ : h.reader = .giveBack client stage existing) :
    h.Advances (h.createGiveBack client stage existing) := by
  have none : h.reader.pendingEpochs = 0 := by
    rw [at_]
    rfl
  have session : h.reader.session = existing := by
    rw [at_]
    rfl
  have after : (afterCreate existing).pendingEpochs = 0 ∧
      (afterCreate existing).session = existing := by
    cases existing <;> exact ⟨rfl, rfl⟩
  cases stage with
  | slot => exact advances_same issued none rfl rfl session.symm
  | fault =>
    exact advances_same issued none rfl after.1 (after.2.trans session.symm)
  | udp =>
    unfold createGiveBack
    dsimp only
    split
    · exact advances_same issued none rfl after.1 (after.2.trans session.symm)
    · exact advances_same issued none rfl rfl session.symm

theorem advances_send (at_ : h.reader = .sending session) :
    h.Advances (h.sendStart session) := by
  have none : h.reader.pendingEpochs = 0 := by
    rw [at_]
    rfl
  have same : h.reader.session = some session := by
    rw [at_]
    rfl
  unfold sendStart
  dsimp only
  split
  · exact advances_idle issued none rfl rfl
  split
  · exact advances_same issued none rfl rfl same.symm
  · split
    · exact advances_idle issued none rfl rfl
    · split
      all_goals exact advances_same issued none rfl rfl same.symm

theorem advances_readerStep (order : List ConnRef) (result : SendResult) :
    h.Advances (h.readerStep order result) := by
  have none : ∀ {reader : Reader}, h.reader = reader →
      reader.pendingEpochs = 0 → h.reader.pendingEpochs = 0 := by
    rintro reader rfl same
    exact same
  unfold readerStep
  cases at_ : h.reader with
  | idle => exact .of_book issued rfl
  | acquire addr =>
    dsimp only
    unfold createAcquire
    dsimp only
    split
    all_goals exact .of_book (issued.forget (none at_ rfl) rfl rfl) rfl
  | reserve addr => exact advances_createReserve issued order at_
  | refused capacity =>
    cases capacity
    all_goals exact .of_book (issued.forget (none at_ rfl) rfl rfl) rfl
  | capacityDrop =>
    exact .of_book (issued.forget (none at_ rfl) rfl rfl) rfl
  | load addr client =>
    dsimp only
    unfold createLoad
    split
    · rename_i session found
      exact .of_book (issued.lookup found (none at_ rfl) rfl rfl) rfl
    · exact .of_book (issued.forget (none at_ rfl) rfl rfl) rfl
  | epoch addr client => exact advances_createEpoch issued at_
  | sessionID addr client epoch => exact advances_createSessionID issued at_
  | store session => exact advances_createStore issued at_
  | index session =>
    rw [at_] at issued
    exact ⟨issued.index, .of_same rfl rfl⟩
  | publish | activate | total | register =>
    exact advances_same issued (none at_ rfl) rfl rfl (by rw [at_]; rfl)
  | verify session =>
    dsimp only
    unfold createVerify
    dsimp only
    split
    · exact advances_idle issued (none at_ rfl) rfl rfl
    · exact advances_same issued (none at_ rfl) rfl rfl (by rw [at_]; rfl)
  | giveBack client stage existing =>
    exact advances_createGiveBack issued at_
  | sending session => exact advances_send issued at_
  | enqueue session sender =>
    dsimp only
    unfold sendFinish
    split
    · exact advances_idle issued (none at_ rfl) rfl rfl
    · split <;> exact advances_idle issued (none at_ rfl) rfl rfl

theorem advances_visit (book : next.book = h.book)
    (reader : next.reader = h.reader) (owner : Owner) (addr : AddrPort)
    (chosen : UDPSession → Bool) :
    h.Advances (next.visit owner addr chosen) := by
  have trims : h.book.Trims next.book := by
    rw [book]
    exact .refl
  unfold visit
  split
  · exact .of_trims issued trims reader
  · split
    all_goals exact .of_trims issued trims reader

theorem advances_apply {op : UDPOp} (enabled : h.Enabled op) :
    h.Advances (h.apply op) := by
  have same : ∀ {next : UDPHandler σ}, next.book = h.book →
      next.reader = h.reader → h.Advances next := by
    intro next book reader
    apply Advances.of_book _ book
    rw [book, reader]
    exact issued
  cases op with dsimp only [UDPHandler.apply]
  | packet addr => exact advances_processPacket issued addr enabled.1
  | reader order result => exact advances_readerStep issued order result
  | close ref => exact advances_closeStep issued ref
  | senderVisits ref terminal visited addr =>
    unfold UDPHandler.senderVisits
    apply advances_visit issued <;> rfl
  | cleanupVisits visited addr expired =>
    apply advances_visit issued <;> rfl
  | shutdownVisitsSender ref visited addr =>
    apply advances_visit issued <;> rfl
  | shutdownVisits visited addr =>
    apply advances_visit issued <;> rfl
  | senderLeaves ref =>
    unfold UDPHandler.senderLeaves
    dsimp only
    split <;> exact same rfl rfl
  | _ => exact same rfl rfl

end

theorem issued_of_initial (initial : Initial h) :
    Issued h.book h.reader := by
  obtain ⟨pool, sessionLimit, fresh, rfl⟩ := initial
  constructor
  case ids =>
    intro session before
    cases before
  case numbered => rfl
  case epochs => rfl
  case epochBound => exact Nat.zero_le _
  case listed =>
    intro addr session found
    cases (FiniteMap.get_empty addr).symm.trans found
  case indexed =>
    intro id session found
    cases (FiniteMap.get_empty id).symm.trans found
  case reading =>
    intro session reads
    cases reads

end UDPHandler

end QMux.Traffic
