import QMux.Traffic.UDPHandler

/-!
# The session tables

What the two maps of sessions hold, in terms of where the reader and the
`closeSession` calls are.  A session is taken out of `sessions` by one call,
which then owns its teardown.  In orderly runs a session is in `sessionsByID`
from the moment the reader stores it there until that call deletes it.
-/

namespace QMux.Traffic

open Support Pool

/-- The call has removed its session and is tearing it down. -/
def CloseStage.holds : CloseStage → Bool
  | .remove => false
  | .returned => false
  | _ => true

/-- The call has yet to take its session off the generation. -/
def CloseStage.counted : CloseStage → Bool
  | .unindex => true
  | .unpublish => true
  | .deactivate => true
  | _ => false

/-- The call has yet to give back the admission of its session. -/
def CloseStage.admitted : CloseStage → Bool
  | .unindex => true
  | .unpublish => true
  | .deactivate => true
  | .reactivate => true
  | .fault => true
  | .releaseSlot => true
  | _ => false

namespace Reader

/-- The session the reader works on. -/
def session : Reader → Option SessionRef
  | .store session => some session
  | .index session => some session
  | .publish session => some session
  | .activate session => some session
  | .total session => some session
  | .register session => some session
  | .verify session => some session
  | .giveBack _ _ existing => existing
  | .sending session => some session
  | .enqueue session _ => some session
  | _ => none

/-- The number of epochs without a session object. -/
def pendingEpochs : Reader → Nat
  | .sessionID _ _ _ => 1
  | _ => 0

/-- Nothing the reader is doing is visible in the tables. -/
def settled : Reader → Bool
  | .sessionID _ _ _ => false
  | .store _ => false
  | .index _ => false
  | .publish _ => false
  | .activate _ => false
  | _ => true

end Reader

namespace Book

/-- The session is in `sessions`. -/
def Listed (book : Book) (session : SessionRef) : Prop :=
  book.sessions.get (book.session session).clientAddr = some session

end Book

/-- A `closeSession` call on the session is at a stage with the property. -/
def Closing (calls : List CloseCall) (session : SessionRef)
    (stage : CloseStage → Prop) : Prop :=
  ∃ (ref : CallRef) (call : CloseCall), calls[ref]? = some call ∧
    call.session = session ∧ stage call.stage

/-- The tables, the reader and the calls agree. -/
structure Tables (book : Book) (reader : Reader) (calls : List CloseCall) :
    Prop where
  listed : ∀ addr session, book.sessions.get addr = some session →
    session < book.nextSession ∧ (book.session session).clientAddr = addr
  called : ∀ (ref : CallRef) (call : CloseCall), calls[ref]? = some call →
    call.session < book.nextSession
  reading : ∀ session, reader.session = some session →
    session < book.nextSession
  unstored : ∀ session, reader = .store session →
    ¬ book.Listed session ∧ ¬ Closing calls session (fun _ => True) ∧
      session ∉ book.released
  removed : ∀ session, Closing calls session (fun stage => stage.holds) →
    ¬ book.Listed session
  once : ∀ (first second : CallRef) (left right : CloseCall),
    calls[first]? = some left → calls[second]? = some right →
    left.stage.holds = true → right.stage.holds = true →
    left.session = right.session → first = second
  released : ∀ session ∈ book.released, session < book.nextSession ∧
    ¬ book.Listed session ∧
      ¬ Closing calls session (fun stage => stage.admitted)
  indexing : ∀ session, reader = .index session →
    book.Listed session ∨ Closing calls session (fun stage => stage = .unindex)
  publishing : ∀ session, reader.publishes session = true →
    book.Listed session ∨ Closing calls session (fun stage => stage.counted)
  indexed : ∀ id session, book.sessionsByID.get id = some session ↔
    session < book.nextSession ∧ (book.session session).id = id ∧
      reader ≠ .index session ∧
      (book.Listed session ∨
        Closing calls session fun stage => stage = .unindex)
  ids : ∀ session < book.nextSession, (book.session session).id = session + 1
  numbered : book.nextSessionID = book.nextSession
  epochs : book.epochAllocator = book.nextSession + reader.pendingEpochs
  epochBound : book.epochAllocator ≤ 2 ^ 32 - 1

section Calls

variable {calls : List CloseCall} {ref : CallRef} {call : CloseCall}
  {session : SessionRef} {stage : CloseStage → Prop}

theorem closing_append {owner : Owner} {closed : SessionRef}
    (started : ¬ stage .remove) :
    Closing (calls ++ [⟨owner, closed, .remove⟩]) session stage ↔
      Closing calls session stage := by
  constructor
  · rintro ⟨ref, call, found, on, at_⟩
    rcases cases_append found with ⟨_, rfl⟩ | found
    · exact absurd at_ started
    · exact ⟨ref, call, found, on, at_⟩
  · rintro ⟨ref, call, found, on, at_⟩
    refine ⟨ref, call, ?_, on, at_⟩
    rw [getElem?_append_singleton, if_neg, found]
    intro same
    rw [same, getElem?_length_eq_none] at found
    cases found

theorem closing_set {next : CloseStage} (found : calls[ref]? = some call) :
    Closing (calls.set ref { call with stage := next }) session stage ↔
      (call.session = session ∧ stage next) ∨
        ∃ (other : CallRef) (held : CloseCall), other ≠ ref ∧
          calls[other]? = some held ∧ held.session = session ∧
          stage held.stage := by
  constructor
  · rintro ⟨other, held, there, on, at_⟩
    rcases cases_set found there with ⟨_, rfl⟩ | ⟨different, there⟩
    · exact .inl ⟨on, at_⟩
    · exact .inr ⟨other, held, different, there, on, at_⟩
  · rintro (⟨on, at_⟩ | ⟨other, held, different, there, on, at_⟩)
    · refine ⟨ref, { call with stage := next }, ?_, on, at_⟩
      rw [getElem?_set_eq found, if_pos rfl]
    · refine ⟨other, held, ?_, on, at_⟩
      rw [getElem?_set_eq found, if_neg different]
      exact there

end Calls

namespace Tables

variable {book : Book} {reader next : Reader} {calls : List CloseCall}
  {ref : CallRef} {call : CloseCall} {session : SessionRef}

/-! ## The reader -/

theorem settle (tables : Tables book reader calls)
    (noEpoch : reader.pendingEpochs = 0)
    (noIndex : ∀ session, reader ≠ .index session)
    (settled : next.settled = true)
    (reading : ∀ session, next.session = some session →
      session < book.nextSession) : Tables book next calls := by
  have notIndex : ∀ session, next ≠ .index session := by
    rintro session rfl
    cases settled
  refine { tables with
    reading := reading, unstored := ?_, indexing := ?_, publishing := ?_,
    indexed := ?_, epochs := ?_ }
  · rintro session rfl
    cases settled
  · rintro session rfl
    cases settled
  · intro session publishes
    simp only [Reader.publishes, decide_eq_true_eq] at publishes
    rcases publishes with rfl | rfl | rfl <;> cases settled
  · intro id session
    rw [tables.indexed]
    simp only [noIndex, notIndex, ne_eq, not_false_eq_true, true_and]
  · have none : next.pendingEpochs = 0 := by
      cases next <;> first | rfl | cases settled
    rw [none, tables.epochs, noEpoch]

theorem settle_settled (tables : Tables book reader calls)
    (before : reader.settled = true) (after : next.settled = true)
    (reading : ∀ session, next.session = some session →
      session < book.nextSession) : Tables book next calls := by
  apply tables.settle _ _ after reading
  · cases reader <;> first | rfl | cases before
  · rintro session rfl
    cases before

variable {addr : AddrPort} {client : ConnRef} {epoch : Nat} {after : CloseStage}

theorem allocateEpoch (tables : Tables book reader calls)
    (settled : reader.settled = true)
    (room : book.epochAllocator ≠ 2 ^ 32 - 1) :
    Tables { book with epochAllocator := book.epochAllocator + 1 }
      (.sessionID addr client epoch) calls := by
  have none : reader.pendingEpochs = 0 := by
    cases reader <;> first | rfl | cases settled
  have notIndex : ∀ session, reader ≠ .index session := by
    rintro session rfl
    cases settled
  have bound := tables.epochBound
  refine { tables with
    reading := ?_, unstored := ?_, indexing := ?_, publishing := ?_,
    indexed := ?_, epochs := ?_, epochBound := ?_ }
  · intro session reads
    cases reads
  · intro session stores
    cases stores
  · intro session indexes
    cases indexes
  · intro session publishes
    simp [Reader.publishes] at publishes
  · intro id session
    rw [tables.indexed]
    simp only [ne_eq, notIndex, not_false_eq_true, true_and, reduceCtorEq,
      Book.Listed]
  · have epochs := tables.epochs
    rw [none] at epochs
    change book.epochAllocator + 1 = book.nextSession + 1
    omega
  · change book.epochAllocator + 1 ≤ 2 ^ 32 - 1
    omega

theorem not_listed_nextSession (tables : Tables book reader calls) :
    ¬ book.Listed book.nextSession := by
  intro listed
  exact lt_irrefl _ (tables.listed _ _ listed).1

theorem not_closing_nextSession (tables : Tables book reader calls)
    (stage : CloseStage → Prop) :
    ¬ Closing calls book.nextSession stage := by
  rintro ⟨ref, call, found, on, _⟩
  have older := tables.called ref call found
  rw [on] at older
  exact lt_irrefl _ older

/-- The tables with a new session object. -/
def allocated (book : Book) (id : Nat) (object : UDPSession) : Book :=
  { book with
    nextSessionID := id
    session := Function.update book.session book.nextSession object
    nextSession := book.nextSession + 1 }

theorem listed_allocated (tables : Tables book reader calls) (id : Nat)
    (object : UDPSession) (session : SessionRef) :
    (allocated book id object).Listed session ↔ book.Listed session := by
  by_cases same : session = book.nextSession
  · subst same
    constructor
    · intro listed
      exact absurd (tables.listed _ _ listed).1 (lt_irrefl _)
    · intro listed
      exact absurd listed tables.not_listed_nextSession
  · unfold Book.Listed allocated
    dsimp only
    rw [Function.update_of_ne same]

theorem allocateSession {object : UDPSession}
    (tables : Tables book (.sessionID addr client epoch) calls)
    (id : object.id = (book.nextSessionID + 1) % 2 ^ 32) :
    Tables (allocated book object.id object) (.store book.nextSession)
      calls := by
  have epochs := tables.epochs
  have bound := tables.epochBound
  simp only [Reader.pendingEpochs] at epochs
  have number : object.id = book.nextSession + 1 := by
    rw [id, tables.numbered]
    exact Nat.mod_eq_of_lt (by omega)
  have older : ∀ session < book.nextSession,
      (allocated book object.id object).session session =
        book.session session := by
    intro session before
    exact Function.update_of_ne (Nat.ne_of_lt before) _ _
  have listed := tables.listed_allocated object.id object
  constructor
  · intro target session found
    obtain ⟨before, addressed⟩ := tables.listed target session found
    refine ⟨Nat.lt_succ_of_lt before, ?_⟩
    rw [older session before]
    exact addressed
  · intro ref call found
    exact Nat.lt_succ_of_lt (tables.called ref call found)
  · intro session reads
    cases reads
    exact Nat.lt_succ_self _
  · intro session stores
    cases stores
    refine ⟨?_, tables.not_closing_nextSession _, ?_⟩
    · rw [listed]
      exact tables.not_listed_nextSession
    · intro released
      exact lt_irrefl _ (tables.released _ released).1
  · intro session closing
    rw [listed]
    exact tables.removed session closing
  · exact tables.once
  · intro session released
    obtain ⟨before, notListed, notClosing⟩ := tables.released session released
    refine ⟨Nat.lt_succ_of_lt before, ?_, notClosing⟩
    rw [listed]
    exact notListed
  · intro session indexes
    cases indexes
  · intro session publishes
    simp [Reader.publishes] at publishes
  · intro target session
    refine (tables.indexed target session).trans ?_
    rw [listed]
    constructor
    · rintro ⟨before, named, _, present⟩
      refine ⟨Nat.lt_succ_of_lt before, ?_, by simp, present⟩
      rw [older session before]
      exact named
    · rintro ⟨before, named, _, present⟩
      have different : session ≠ book.nextSession := by
        rintro rfl
        rcases present with inMap | closing
        · exact tables.not_listed_nextSession inMap
        · exact tables.not_closing_nextSession _ closing
      have earlier : session < book.nextSession :=
        lt_of_le_of_ne (Nat.lt_succ_iff.mp before) different
      refine ⟨earlier, ?_, by simp, present⟩
      rw [← older session earlier]
      exact named
  · intro session before
    by_cases same : session = book.nextSession
    · subst same
      rw [← number]
      exact congrArg UDPSession.id (Function.update_self _ _ _)
    · have earlier : session < book.nextSession :=
        lt_of_le_of_ne (Nat.lt_succ_iff.mp before) same
      rw [older session earlier]
      exact tables.ids session earlier
  · exact number
  · change book.epochAllocator = book.nextSession + 1 + 0
    omega
  · exact bound

theorem store (tables : Tables book (.store session) calls)
    (vacant : book.sessions.get (book.session session).clientAddr = none) :
    Tables { book with
      sessions := book.sessions.put (book.session session).clientAddr session }
      (.index session) calls := by
  obtain ⟨notListed, notClosing, notReleased⟩ := tables.unstored session rfl
  have get : ∀ addr, ({ book with
      sessions := book.sessions.put (book.session session).clientAddr
        session } : Book).sessions.get addr =
      if addr = (book.session session).clientAddr then some session
      else book.sessions.get addr := fun addr => FiniteMap.get_put _ _ _ _
  have listed : ∀ other, ({ book with
      sessions := book.sessions.put (book.session session).clientAddr
        session } : Book).Listed other ↔
      other = session ∨ book.Listed other := by
    intro other
    unfold Book.Listed
    rw [get]
    split
    · rename_i same
      constructor
      · intro found
        exact .inl (Option.some.inj found).symm
      · rintro (rfl | found)
        · rfl
        · dsimp only at same
          rw [same, vacant] at found
          cases found
    · rename_i different
      constructor
      · exact .inr
      · rintro (rfl | found)
        · exact absurd rfl different
        · exact found
  have apart : ∀ {other stage}, Closing calls other stage →
      other ≠ session := by
    rintro other stage ⟨ref, call, found, on, _⟩ rfl
    exact notClosing ⟨ref, call, found, on, trivial⟩
  refine { tables with
    listed := ?_, reading := ?_, unstored := ?_, removed := ?_,
    released := ?_, indexing := ?_, publishing := ?_, indexed := ?_ }
  · intro addr other found
    rw [get] at found
    split at found
    · rename_i same
      cases found
      exact ⟨tables.reading session rfl, same.symm⟩
    · exact tables.listed addr other found
  · intro other reads
    cases reads
    exact tables.reading session rfl
  · intro other stores
    cases stores
  · intro other closing inMap
    rcases (listed other).mp inMap with same | before
    · exact apart closing same
    · exact tables.removed other closing before
  · intro other isReleased
    obtain ⟨before, outside, notAdmitted⟩ := tables.released other isReleased
    refine ⟨before, ?_, notAdmitted⟩
    intro inMap
    rcases (listed other).mp inMap with rfl | inside
    · exact notReleased isReleased
    · exact outside inside
  · intro other indexes
    cases indexes
    exact .inl ((listed session).mpr (.inl rfl))
  · intro other publishes
    simp only [Reader.publishes, decide_eq_true_eq, reduceCtorEq, or_false,
      Reader.index.injEq] at publishes
    exact .inl ((listed other).mpr (.inl publishes.symm))
  · intro id other
    refine (tables.indexed id other).trans ?_
    rw [listed]
    constructor
    · rintro ⟨before, named, _, present⟩
      have different : other ≠ session := by
        rintro rfl
        rcases present with inMap | closing
        · exact notListed inMap
        · exact apart closing rfl
      refine ⟨before, named, ?_, ?_⟩
      · intro same
        cases same
        exact different rfl
      · rcases present with inMap | closing
        · exact .inl (.inr inMap)
        · exact .inr closing
    · rintro ⟨before, named, notIndex, present⟩
      refine ⟨before, named, by simp, ?_⟩
      rcases present with (rfl | inMap) | closing
      · exact absurd rfl notIndex
      · exact .inl inMap
      · exact .inr closing

theorem index (tables : Tables book (.index session) calls) :
    Tables { book with
      sessionsByID :=
        book.sessionsByID.put (book.session session).id session }
      (.publish session) calls := by
  have inside := tables.reading session rfl
  refine { tables with
    reading := ?_, unstored := ?_, indexing := ?_, publishing := ?_,
    indexed := ?_ }
  · intro other reads
    cases reads
    exact inside
  · intro other stores
    cases stores
  · intro other indexes
    cases indexes
  · intro other publishes
    apply tables.publishing other
    simp only [Reader.publishes, decide_eq_true_eq, reduceCtorEq, false_or,
      or_false, Reader.publish.injEq] at publishes
    simp [Reader.publishes, publishes]
  · intro id other
    dsimp only
    rw [FiniteMap.get_put]
    split
    · rename_i same
      subst same
      constructor
      · intro found
        cases found
        refine ⟨inside, rfl, by simp, ?_⟩
        exact tables.indexing session rfl
      · rintro ⟨before, named, _, _⟩
        rw [tables.ids other before, tables.ids session inside] at named
        rw [Nat.succ_injective named]
    · rename_i different
      refine (tables.indexed id other).trans ?_
      constructor
      · rintro ⟨before, named, _, present⟩
        exact ⟨before, named, by simp, present⟩
      · rintro ⟨before, named, _, present⟩
        refine ⟨before, named, ?_, present⟩
        intro same
        cases same
        exact different named.symm

theorem publish (tables : Tables book (.publish session) calls) :
    Tables book (.activate session) calls := by
  refine { tables with
    reading := ?_, unstored := ?_, indexing := ?_, publishing := ?_,
    indexed := ?_ }
  · intro other reads
    cases reads
    exact tables.reading session rfl
  · intro other stores
    cases stores
  · intro other indexes
    cases indexes
  · intro other publishes
    apply tables.publishing other
    simp only [Reader.publishes, decide_eq_true_eq, reduceCtorEq, false_or,
      Reader.activate.injEq] at publishes
    simp [Reader.publishes, publishes]
  · intro id other
    rw [tables.indexed]
    simp

/-! ## `closeSession` calls -/

theorem callClose (tables : Tables book reader calls) (owner : Owner)
    (older : session < book.nextSession) (stored : reader ≠ .store session) :
    Tables book reader (calls ++ [⟨owner, session, .remove⟩]) := by
  refine { tables with
    called := ?_, unstored := ?_, removed := ?_, once := ?_, released := ?_,
    indexing := ?_, publishing := ?_, indexed := ?_ }
  · intro ref call found
    rcases cases_append found with ⟨_, rfl⟩ | found
    · exact older
    · exact tables.called ref call found
  · intro other stores
    obtain ⟨notListed, notClosing, notReleased⟩ := tables.unstored other stores
    refine ⟨notListed, ?_, notReleased⟩
    rintro ⟨ref, call, found, on, _⟩
    rcases cases_append found with ⟨_, rfl⟩ | found
    · cases on
      exact stored stores
    · exact notClosing ⟨ref, call, found, on, trivial⟩
  · intro other closing
    exact tables.removed other ((closing_append (by simp [CloseStage.holds])
      ).mp closing)
  · intro first second left right foundLeft foundRight holdsLeft holdsRight
    rw [getElem?_append_singleton] at foundLeft foundRight
    split at foundLeft
    · cases foundLeft
      cases holdsLeft
    split at foundRight
    · cases foundRight
      cases holdsRight
    · exact tables.once first second left right foundLeft foundRight
        holdsLeft holdsRight
  · intro other isReleased
    obtain ⟨before, outside, notAdmitted⟩ := tables.released other isReleased
    refine ⟨before, outside, ?_⟩
    rw [closing_append (by simp [CloseStage.admitted])]
    exact notAdmitted
  · intro other indexes
    rw [closing_append (by simp)]
    exact tables.indexing other indexes
  · intro other publishes
    rw [closing_append (by simp [CloseStage.counted])]
    exact tables.publishing other publishes
  · intro id other
    rw [closing_append (by simp)]
    exact tables.indexed id other

private theorem closing_set_of {stage : CloseStage → Prop}
    (found : calls[ref]? = some call)
    (enters : stage after → stage call.stage)
    (closing : Closing (calls.set ref { call with stage := after }) session
      stage) : Closing calls session stage := by
  rcases (closing_set found).mp closing with
    ⟨on, at_⟩ | ⟨other, held, _, there, on, at_⟩
  · exact ⟨ref, call, found, on, enters at_⟩
  · exact ⟨other, held, there, on, at_⟩

private theorem closing_of_set {stage : CloseStage → Prop}
    (found : calls[ref]? = some call)
    (leaves : call.session = session → stage call.stage → stage after)
    (closing : Closing calls session stage) :
    Closing (calls.set ref { call with stage := after }) session stage := by
  obtain ⟨other, held, there, on, at_⟩ := closing
  rw [closing_set found]
  by_cases same : other = ref
  · subst same
    cases Option.some.inj (found.symm.trans there)
    exact .inl ⟨on, leaves on at_⟩
  · exact .inr ⟨other, held, same, there, on, at_⟩

variable (tables : Tables book reader calls)

include tables

variable (found : calls[ref]? = some call)

include found

theorem called_set (other : CallRef) (held : CloseCall)
    (there : (calls.set ref { call with stage := after })[other]? = some held) :
    held.session < book.nextSession := by
  rcases cases_set found there with ⟨_, rfl⟩ | ⟨_, there⟩
  · exact tables.called ref call found
  · exact tables.called other held there

theorem unstored_set (stores : reader = .store session) :
    ¬ Closing (calls.set ref { call with stage := after }) session
      (fun _ => True) := by
  intro closing
  exact (tables.unstored session stores).2.1
    (closing_set_of found (fun _ => trivial) closing)

theorem once_set (holds : after.holds = true → call.stage.holds = true)
    (first second : CallRef) (left right : CloseCall)
    (foundLeft : (calls.set ref { call with stage := after })[first]? =
      some left)
    (foundRight : (calls.set ref { call with stage := after })[second]? =
      some right) (holdsLeft : left.stage.holds = true)
    (holdsRight : right.stage.holds = true)
    (same : left.session = right.session) : first = second := by
  have before : ∀ {index : CallRef} {held : CloseCall},
      (calls.set ref { call with stage := after })[index]? = some held →
      held.stage.holds = true → ∃ old, calls[index]? = some old ∧
        old.stage.holds = true ∧ old.session = held.session := by
    intro index held there holdsHeld
    rcases cases_set found there with ⟨here, rfl⟩ | ⟨_, there⟩
    · subst here
      exact ⟨call, found, holds holdsHeld, rfl⟩
    · exact ⟨held, there, holdsHeld, rfl⟩
  obtain ⟨oldLeft, thereLeft, holdsOldLeft, onLeft⟩ :=
    before foundLeft holdsLeft
  obtain ⟨oldRight, thereRight, holdsOldRight, onRight⟩ :=
    before foundRight holdsRight
  apply tables.once first second oldLeft oldRight thereLeft thereRight
    holdsOldLeft holdsOldRight
  rw [onLeft, onRight, same]

/-- A call goes on without touching the tables.  It does not come to hold a
session, and does not leave a stage that the reader relies on. -/
theorem stage (holds : after.holds = true → call.stage.holds = true)
    (admitted : after.admitted = true → call.stage.admitted = true)
    (notUnindex : call.stage ≠ .unindex) (notAfter : after ≠ .unindex)
    (counted : reader.publishes call.session = true →
      call.stage.counted = true → after.counted = true) :
    Tables book reader (calls.set ref { call with stage := after }) := by
  have unindexing : ∀ session,
      Closing (calls.set ref { call with stage := after }) session
        (fun stage => stage = .unindex) ↔
      Closing calls session fun stage => stage = .unindex := by
    intro session
    constructor
    · exact closing_set_of found fun at_ => absurd at_ notAfter
    · exact closing_of_set found fun _ at_ => absurd at_ notUnindex
  refine { tables with
    called := tables.called_set found, unstored := ?_, removed := ?_,
    once := tables.once_set found holds, released := ?_, indexing := ?_,
    publishing := ?_, indexed := ?_ }
  · intro other stores
    obtain ⟨notListed, _, notReleased⟩ := tables.unstored other stores
    exact ⟨notListed, tables.unstored_set found stores, notReleased⟩
  · intro other closing
    exact tables.removed other (closing_set_of found holds closing)
  · intro other isReleased
    obtain ⟨before, outside, notAdmitted⟩ := tables.released other isReleased
    refine ⟨before, outside, ?_⟩
    intro closing
    exact notAdmitted (closing_set_of found admitted closing)
  · intro other indexes
    rw [unindexing]
    exact tables.indexing other indexes
  · intro other publishes
    rcases tables.publishing other publishes with listed | closing
    · exact .inl listed
    · right
      apply closing_of_set found _ closing
      rintro rfl
      exact counted publishes
  · intro id other
    rw [unindexing]
    exact tables.indexed id other

theorem remove (removes : call.stage = .remove)
    (listed : book.Listed call.session) :
    Tables { book with
      sessions := book.sessions.delete
        (book.session call.session).clientAddr } reader
      (calls.set ref { call with stage := .unindex }) := by
  have listedAfter : ∀ other, ({ book with
      sessions := book.sessions.delete
        (book.session call.session).clientAddr } : Book).Listed other ↔
      other ≠ call.session ∧ book.Listed other := by
    intro other
    unfold Book.Listed
    dsimp only
    rw [FiniteMap.get_delete]
    split
    · rename_i same
      constructor
      · intro none
        cases none
      · rintro ⟨different, there⟩
        rw [same] at there
        exact absurd (Option.some.inj (there.symm.trans listed)) different
    · rename_i different
      constructor
      · intro there
        refine ⟨?_, there⟩
        rintro rfl
        exact different rfl
      · exact And.right
  have unheld : ∀ {other : CallRef} {held : CloseCall}, calls[other]? =
      some held → held.stage.holds = true → held.session ≠ call.session := by
    intro other held there holds same
    apply tables.removed held.session ⟨other, held, there, rfl, holds⟩
    rw [same]
    exact listed
  -- where the session was in the map, the call now stands for it
  have present : ∀ {other : SessionRef} {stage : CloseStage → Prop},
      stage .unindex → ¬ stage .remove →
      book.Listed other ∨ Closing calls other stage →
      (other ≠ call.session ∧ book.Listed other) ∨
        Closing (calls.set ref { call with stage := .unindex }) other
          stage := by
    intro other stage enters starts present
    rw [closing_set found]
    rcases present with inMap | ⟨index, held, there, on, at_⟩
    · by_cases same : other = call.session
      · exact .inr (.inl ⟨same.symm, enters⟩)
      · exact .inl ⟨same, inMap⟩
    · refine .inr (.inr ⟨index, held, ?_, there, on, at_⟩)
      rintro rfl
      cases Option.some.inj (found.symm.trans there)
      rw [removes] at at_
      exact starts at_
  refine { tables with
    listed := ?_, called := tables.called_set found, unstored := ?_,
    removed := ?_, once := ?_, released := ?_, indexing := ?_,
    publishing := ?_, indexed := ?_ }
  · intro addr other there
    exact tables.listed addr other (FiniteMap.get_of_get_delete there)
  · intro other stores
    obtain ⟨notListed, _, notReleased⟩ := tables.unstored other stores
    refine ⟨?_, tables.unstored_set found stores, notReleased⟩
    intro inMap
    exact notListed ((listedAfter other).mp inMap).2
  · intro other closing inMap
    obtain ⟨different, inside⟩ := (listedAfter other).mp inMap
    rcases (closing_set found).mp closing with
      ⟨on, _⟩ | ⟨index, held, _, there, on, holds⟩
    · exact different on.symm
    · exact tables.removed other ⟨index, held, there, on, holds⟩ inside
  · intro first second left right foundLeft foundRight holdsLeft holdsRight same
    rw [getElem?_set_eq found] at foundLeft foundRight
    split at foundLeft
    · split at foundRight
      · rename_i isFirst isSecond
        rw [isFirst, isSecond]
      · cases foundLeft
        exact absurd same.symm (unheld foundRight holdsRight)
    · split at foundRight
      · cases foundRight
        exact absurd same (unheld foundLeft holdsLeft)
      · exact tables.once first second left right foundLeft foundRight
          holdsLeft holdsRight same
  · intro other isReleased
    obtain ⟨before, outside, notAdmitted⟩ := tables.released other isReleased
    refine ⟨before, ?_, ?_⟩
    · intro inMap
      exact outside ((listedAfter other).mp inMap).2
    · intro closing
      rcases (closing_set found).mp closing with
        ⟨rfl, _⟩ | ⟨index, held, _, there, on, admitted⟩
      · exact outside listed
      · exact notAdmitted ⟨index, held, there, on, admitted⟩
  · intro other indexes
    rw [listedAfter]
    exact present rfl (by simp) (tables.indexing other indexes)
  · intro other publishes
    rw [listedAfter]
    exact present rfl (by simp [CloseStage.counted])
      (tables.publishing other publishes)
  · intro id other
    refine (tables.indexed id other).trans ?_
    rw [listedAfter]
    constructor
    · rintro ⟨before, named, notIndex, there⟩
      exact ⟨before, named, notIndex, present rfl (by simp) there⟩
    · rintro ⟨before, named, notIndex, there⟩
      refine ⟨before, named, notIndex, ?_⟩
      rcases there with ⟨_, inMap⟩ | closing
      · exact .inl inMap
      · rcases (closing_set found).mp closing with
          ⟨rfl, _⟩ | ⟨index, held, _, there, on, at_⟩
        · exact .inl listed
        · exact .inr ⟨index, held, there, on, at_⟩

theorem indexed_of_unindex (removed : call.stage = .unindex)
    (orderly : reader ≠ .index call.session) :
    book.sessionsByID.get (book.session call.session).id =
      some call.session := by
  apply (tables.indexed _ _).mpr
  refine ⟨tables.called ref call found, rfl, orderly, ?_⟩
  exact .inr ⟨ref, call, found, rfl, removed⟩

theorem unindex (removed : call.stage = .unindex)
    (orderly : reader ≠ .index call.session) :
    Tables { book with
      sessionsByID := book.sessionsByID.delete
        (book.session call.session).id } reader
      (calls.set ref { call with stage := .unpublish }) := by
  have holds : call.stage.holds = true := by
    rw [removed]
    rfl
  have inside := tables.called ref call found
  refine { tables with
    called := tables.called_set found, unstored := ?_, removed := ?_,
    once := tables.once_set found fun _ => holds, released := ?_,
    indexing := ?_, publishing := ?_, indexed := ?_ }
  · intro other stores
    obtain ⟨notListed, _, notReleased⟩ := tables.unstored other stores
    exact ⟨notListed, tables.unstored_set found stores, notReleased⟩
  · intro other closing
    exact tables.removed other (closing_set_of found (fun _ => holds) closing)
  · intro other isReleased
    obtain ⟨before, outside, notAdmitted⟩ := tables.released other isReleased
    refine ⟨before, outside, ?_⟩
    intro closing
    refine notAdmitted (closing_set_of found (fun _ => ?_) closing)
    rw [removed]
    rfl
  · intro other indexes
    rcases tables.indexing other indexes with inMap | closing
    · exact .inl inMap
    · right
      apply closing_of_set found _ closing
      rintro rfl
      exact absurd indexes orderly
  · intro other publishes
    rcases tables.publishing other publishes with inMap | closing
    · exact .inl inMap
    · right
      exact closing_of_set found (fun _ _ => rfl) closing
  · intro id other
    dsimp only
    rw [FiniteMap.get_delete]
    by_cases same : other = call.session
    · subst same
      constructor
      · intro there
        split at there
        · cases there
        · rename_i different
          exact absurd ((tables.indexed _ _).mp there).2.1.symm different
      · rintro ⟨_, _, _, present⟩
        exfalso
        rcases present with inMap | closing
        · exact tables.removed call.session ⟨ref, call, found, rfl, holds⟩ inMap
        rcases (closing_set found).mp closing with
          ⟨_, at_⟩ | ⟨index, held, different, there, on, at_⟩
        · cases at_
        · apply different
          apply tables.once index ref held call there found _ holds on
          rw [at_]
          rfl
    · have present : Closing (calls.set ref
          { call with stage := .unpublish }) other
            (fun stage => stage = .unindex) ↔
          Closing calls other fun stage => stage = .unindex := by
        constructor
        · exact closing_set_of found fun at_ => by cases at_
        · apply closing_of_set found
          intro on
          exact absurd on.symm same
      rw [present]
      split
      · rename_i here
        constructor
        · intro there
          cases there
        · rintro ⟨before, named, _⟩
          rw [here, tables.ids other before, tables.ids _ inside] at named
          exact absurd (Nat.succ_injective named) same
      · exact tables.indexed id other

theorem release (releases : call.stage = .releaseSlot) :
    Tables { book with released := insert call.session book.released } reader
      (calls.set ref { call with stage := .releaseUDP }) := by
  have holds : call.stage.holds = true := by
    rw [releases]
    rfl
  have moved : Tables book reader
      (calls.set ref { call with stage := .releaseUDP }) := by
    apply tables.stage found
    · intro _
      exact holds
    · intro admitted
      cases admitted
    · rw [releases]
      simp
    · simp
    · intro _ counted
      rw [releases] at counted
      cases counted
  refine { moved with unstored := ?_, released := ?_ }
  · intro other stores
    obtain ⟨notListed, notClosing, notReleased⟩ := moved.unstored other stores
    refine ⟨notListed, notClosing, ?_⟩
    intro isReleased
    rcases Finset.mem_insert.mp isReleased with rfl | before
    · exact (tables.unstored _ stores).2.1 ⟨ref, call, found, rfl, trivial⟩
    · exact notReleased before
  · intro other isReleased
    rcases Finset.mem_insert.mp isReleased with rfl | before
    · refine ⟨tables.called ref call found, ?_, ?_⟩
      · exact tables.removed _ ⟨ref, call, found, rfl, holds⟩
      · intro closing
        rcases (closing_set found).mp closing with
          ⟨_, at_⟩ | ⟨index, held, different, there, on, at_⟩
        · cases at_
        · apply different
          apply tables.once index ref held call there found _ holds on
          cases stage : held.stage <;> rw [stage] at at_ <;>
            first | rfl | cases at_
    · exact moved.released other before

end Tables

end QMux.Traffic
