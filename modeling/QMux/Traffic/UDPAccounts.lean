import Mathlib.Algebra.Order.BigOperators.Group.Multiset
import QMux.Pool.DrainSignal
import QMux.Pool.LeaseAccounting
import QMux.Traffic.UDPTables

/-!
# What the session counters should be

Four counters follow the sessions of a listener: the published sessions, the
sessions a generation counts among its connections, the admission slots, and
the reservations of a generation.  For each of them the sessions in the map,
the reader and the `closeSession` calls in progress determine a value: every
session counts, the reader has counted some of its work in advance or not
yet, and a call has yet to take off what it removed.
-/

namespace QMux.Pool

/-- The part of `ActiveConns` that is not TCP leases. -/
def ClientConn.ownActive (c : ClientConn) : Int := c.activeConns - c.tcpActive

namespace ConnectionPool

variable {σ : Type*} {p : ConnectionPool σ}

/-- Every write leaves that part of `ActiveConns` alone. -/
def KeepsOwn (p next : ConnectionPool σ) : Prop :=
  ∀ conn, (next.conns conn).ownActive = (p.conns conn).ownActive

variable {op : Op}

theorem apply_keepsOwn
    (other : ∀ target delta, op ≠ .addActiveConns target delta) :
    p.KeepsOwn (p.apply op) := by
  intro conn
  apply apply_view ClientConn.ownActive
  intro written writes
  cases writes with
  | commitLease | releaseActive =>
    simp only [ClientConn.ownActive]
    omega
  | addActiveConns => exact absurd rfl (other _ _)
  | _ => rfl

theorem reserveUDP_keepsOwn (order : List ConnRef) :
    p.KeepsOwn (p.reserveUDP order).2 :=
  show p.KeepsOwn (p.apply (.reserveUDP order)) from apply_keepsOwn (by simp)

theorem releaseUDP_keepsOwn (target : ConnRef) :
    p.KeepsOwn (p.releaseUDP target).2 :=
  show p.KeepsOwn (p.apply (.releaseUDP target)) from apply_keepsOwn (by simp)

theorem addActiveConns_ownActive (target conn : ConnRef) (delta : Int) :
    ((p.addActiveConns target delta).conns conn).ownActive =
      (p.conns conn).ownActive + if conn = target then delta else 0 := by
  change (Function.update p.conns target _ conn).ownActive = _
  by_cases here : conn = target
  · rw [here, Function.update_self, if_pos rfl]
    simp only [ClientConn.ownActive]
    omega
  · rw [Function.update_of_ne here, if_neg here, Int.add_zero]

theorem addActiveConns_udpSessions (target conn : ConnRef) (delta : Int) :
    ((p.addActiveConns target delta).conns conn).udpSessions =
      (p.conns conn).udpSessions := by
  change ((p.apply (.addActiveConns target delta)).conns conn).udpSessions = _
  apply apply_view ClientConn.udpSessions
  intro written writes
  cases writes
  rfl

theorem addTotalConns_udpSessions (target conn : ConnRef) :
    ((p.addTotalConns target).conns conn).udpSessions =
      (p.conns conn).udpSessions := by
  change ((p.apply (.addTotalConns target)).conns conn).udpSessions = _
  apply apply_view ClientConn.udpSessions
  intro written writes
  cases writes
  rfl

theorem foreign_keepsOwn (foreign : Traffic.UDPHandler.Foreign op) :
    p.KeepsOwn (p.apply op) := by
  apply apply_keepsOwn
  intro target delta same
  rw [same] at foreign
  exact foreign

end ConnectionPool

end QMux.Pool

namespace QMux.Traffic

open Support Pool

/-- The counters that follow the sessions. -/
inductive Account where
  | current
  | active (client : ConnRef)
  | slots
  | udp (client : ConnRef)

namespace Account

/-- What a session of the generation counts. -/
def weigh : Account → ConnRef → Int
  | .current, _ => 1
  | .active counted, client => if counted = client then 1 else 0
  | .slots, _ => 1
  | .udp counted, client => if counted = client then 1 else 0

/-- A call at the stage has yet to take its session off the counter. -/
def closing : Account → CloseStage → Bool
  | .current, stage => decide (stage = .unindex ∨ stage = .unpublish)
  | .active _, stage => stage.counted
  | .slots, stage => stage.admitted
  | .udp _, stage => stage.admitted || decide (stage = .releaseUDP)

/-- What the reader counted for a session that is not yet in the map, less
what it has yet to count for one that is. -/
def share (session : SessionRef → UDPSession) : Account → Reader → Int
  | .current, .index _ => -1
  | .current, .publish _ => -1
  | .current, _ => 0
  | .active counted, .index ref => -weigh (.active counted) (session ref).client
  | .active counted, .publish ref =>
    -weigh (.active counted) (session ref).client
  | .active counted, .activate ref =>
    -weigh (.active counted) (session ref).client
  | .active _, _ => 0
  | .slots, .reserve _ => 1
  | .slots, .refused _ => 1
  | .slots, .load _ _ => 1
  | .slots, .epoch _ _ => 1
  | .slots, .sessionID _ _ _ => 1
  | .slots, .store _ => 1
  | .slots, .giveBack _ .slot _ => 1
  | .slots, _ => 0
  | .udp counted, .load _ client => weigh (.udp counted) client
  | .udp counted, .epoch _ client => weigh (.udp counted) client
  | .udp counted, .sessionID _ client _ => weigh (.udp counted) client
  | .udp counted, .store ref => weigh (.udp counted) (session ref).client
  | .udp counted, .giveBack client .slot _ => weigh (.udp counted) client
  | .udp counted, .giveBack client .udp _ => weigh (.udp counted) client
  | .udp _, _ => 0

variable {account : Account} {book : Book} {reader : Reader}
  {calls : List CloseCall} {ref : CallRef} {call : CloseCall}

/-- What a call has yet to take off the counter. -/
def charge (account : Account) (session : SessionRef → UDPSession)
    (call : CloseCall) : Int :=
  if account.closing call.stage then
    account.weigh (session call.session).client
  else 0

/-- What the sessions in the map count. -/
def listed (account : Account) (book : Book) : Int :=
  (book.sessions.values.map fun ref =>
    account.weigh (book.session ref).client).sum

/-- What the calls have yet to take off. -/
def leaving (account : Account) (session : SessionRef → UDPSession)
    (calls : List CloseCall) : Int :=
  (calls.map (account.charge session)).sum

/-- What the counter should be. -/
def due (account : Account) (book : Book) (reader : Reader)
    (calls : List CloseCall) : Int :=
  account.listed book + account.share book.session reader +
    account.leaving book.session calls

theorem weigh_nonneg (client : ConnRef) : 0 ≤ account.weigh client := by
  cases account with
  | current | slots => exact Int.one_nonneg
  | active | udp =>
    simp only [weigh]
    split <;> decide

theorem charge_nonneg (session : SessionRef → UDPSession) :
    0 ≤ account.charge session call := by
  unfold charge
  split
  · exact weigh_nonneg _
  · exact Int.le_refl 0

theorem listed_nonneg : 0 ≤ account.listed book := by
  apply Multiset.sum_nonneg
  intro weight member
  obtain ⟨ref, _, rfl⟩ := Multiset.mem_map.mp member
  exact weigh_nonneg _

theorem leaving_nonneg (session : SessionRef → UDPSession) :
    0 ≤ account.leaving session calls := by
  apply List.sum_nonneg
  intro weight member
  obtain ⟨call, _, rfl⟩ := List.mem_map.mp member
  exact charge_nonneg session

variable {addr : AddrPort} {session : SessionRef}

theorem weigh_le_listed (found : book.sessions.get addr = some session) :
    account.weigh (book.session session).client ≤ account.listed book := by
  apply Multiset.single_le_sum
  · intro weight member
    obtain ⟨ref, _, rfl⟩ := Multiset.mem_map.mp member
    exact weigh_nonneg _
  · exact Multiset.mem_map_of_mem _ (FiniteMap.mem_values_iff.mpr ⟨_, found⟩)

theorem charge_le_leaving (session : SessionRef → UDPSession)
    (found : calls[ref]? = some call) :
    account.charge session call ≤ account.leaving session calls := by
  apply List.single_le_sum
  · intro weight member
    obtain ⟨other, _, rfl⟩ := List.mem_map.mp member
    exact charge_nonneg session
  · exact List.mem_map_of_mem (List.mem_of_getElem? found)

/-! ## How the amount due changes -/

theorem due_callClose (owner : Owner) (session : SessionRef) :
    account.due book reader (calls ++ [⟨owner, session, .remove⟩]) =
      account.due book reader calls := by
  have none : account.charge book.session ⟨owner, session, .remove⟩ = 0 := by
    cases account <;> rfl
  unfold due leaving
  rw [sum_map_append_singleton, none, Int.add_zero]

theorem due_setStage (found : calls[ref]? = some call)
    (stage : CloseStage) :
    account.due book reader (calls.set ref { call with stage := stage }) =
      account.due book reader calls - account.charge book.session call +
        account.charge book.session { call with stage := stage } := by
  unfold due leaving
  rw [sum_map_set_eq _ found]
  omega

theorem due_goto (next : Reader) :
    account.due book next calls =
      account.due book reader calls - account.share book.session reader +
        account.share book.session next := by
  unfold due
  omega

theorem listed_put (vacant : book.sessions.get addr = none) :
    account.listed { book with
      sessions := book.sessions.put addr session } =
      account.listed book + account.weigh (book.session session).client := by
  unfold listed
  rw [FiniteMap.values_put_of_absent session vacant, Multiset.map_cons,
    Multiset.sum_cons, Int.add_comm]

theorem listed_delete (present : book.sessions.get addr = some session) :
    account.listed { book with sessions := book.sessions.delete addr } =
      account.listed book - account.weigh (book.session session).client := by
  unfold listed
  rw [FiniteMap.values_of_present present, Multiset.map_cons, Multiset.sum_cons]
  exact (add_sub_cancel_left _ _).symm

theorem due_allocated (tables : Tables book reader calls) (id : Nat)
    (object : UDPSession) (next : Reader) :
    account.due (Tables.allocated book id object) next calls =
      account.due book reader calls - account.share book.session reader +
        account.share (Tables.allocated book id object).session next := by
  have older : ∀ session < book.nextSession,
      (Tables.allocated book id object).session session =
        book.session session := by
    intro session before
    exact Function.update_of_ne (Nat.ne_of_lt before) _ _
  have sameListed : account.listed (Tables.allocated book id object) =
      account.listed book := by
    apply congrArg Multiset.sum
    apply Multiset.map_congr rfl
    intro session member
    obtain ⟨addr, found⟩ := FiniteMap.mem_values_iff.mp member
    rw [older session (tables.listed addr session found).1]
  have sameLeaving :
      account.leaving (Tables.allocated book id object).session calls =
        account.leaving book.session calls := by
    apply congrArg List.sum
    apply List.map_congr_left
    intro call member
    obtain ⟨ref, found⟩ := List.mem_iff_getElem?.mp member
    unfold charge
    rw [older call.session (tables.called ref call found)]
  unfold due
  rw [sameListed, sameLeaving]
  omega

/-! ## Lower bounds -/

theorem share_slots_nonneg (session : SessionRef → UDPSession) :
    0 ≤ slots.share session reader := by
  unfold share
  split <;> first | contradiction | decide

theorem share_udp_nonneg (session : SessionRef → UDPSession)
    (counted : ConnRef) : 0 ≤ (udp counted).share session reader := by
  unfold share
  split <;> first | contradiction | decide | exact weigh_nonneg _

theorem share_le_due :
    account.share book.session reader ≤ account.due book reader calls := by
  have inMap : 0 ≤ account.listed book := listed_nonneg
  have calling : 0 ≤ account.leaving book.session calls :=
    leaving_nonneg book.session
  unfold due
  omega

theorem charge_le_due (nonneg : 0 ≤ account.share book.session reader)
    (found : calls[ref]? = some call) :
    account.charge book.session call ≤ account.due book reader calls := by
  have inMap : 0 ≤ account.listed book := listed_nonneg
  have counts : account.charge book.session call ≤
    account.leaving book.session calls := charge_le_leaving book.session found
  unfold due
  omega

theorem due_active_nonneg (tables : Tables book reader calls)
    (counted : ConnRef) : 0 ≤ (active counted).due book reader calls := by
  have inMap : 0 ≤ listed (active counted) book := listed_nonneg
  have calling : 0 ≤ leaving (active counted) book.session calls :=
    leaving_nonneg book.session
  have publishing : ∀ session, reader.publishes session = true →
      weigh (active counted) (book.session session).client ≤
        listed (active counted) book +
          leaving (active counted) book.session calls := by
    intro session publishes
    rcases tables.publishing session publishes with present | closing
    · have counts : weigh (active counted) (book.session session).client ≤
          listed (active counted) book := weigh_le_listed present
      omega
    · obtain ⟨ref, call, found, rfl, isCounted⟩ := closing
      have counts : charge (active counted) book.session call ≤
          leaving (active counted) book.session calls :=
        charge_le_leaving book.session found
      unfold charge at counts
      rw [if_pos (by exact isCounted)] at counts
      omega
  unfold due
  cases reader with
  | index session | publish session | activate session =>
    have bound := publishing session (by simp [Reader.publishes])
    simp only [share]
    omega
  | _ =>
    simp only [share]
    omega

end Account

end QMux.Traffic
