import QMux.Traffic.TCPListener

/-!
# The admission gauges count sockets

Every action on a socket moves the gauges by what the socket counted before
and after it.  So the gauges are totals over all sockets in every reachable
state, and their order follows from the order of one socket's stages: it
leaves the setup slot and the active gauge before it leaves the map.
-/

namespace QMux.Traffic

open Support TCPSocket SocketPhase

namespace SocketPhase

/-- The flow of the socket is in the map. -/
def inMap : SocketPhase → Bool
  | .added | .overCapacity | .overCounted | .overClosed | .handling _ => true
  | .accepted | .refused | .removed => false

/-- The socket occupies a setup slot. -/
def holdsSlot : SocketPhase → Bool
  | .handling handler => !handler.permitUsed
  | _ => false

/-- The socket is counted as active. -/
def countsActive : SocketPhase → Bool
  | .handling handler => handler.active &&
      decide (handler.stage ∈
        [HandlerStage.activated, .relaying, .unwinding])
  | _ => false

/-- What the map and the gauges count of a socket in the phase. -/
def counts (phase : SocketPhase) : Bool × Bool × Bool :=
  (phase.inMap, phase.holdsSlot, phase.countsActive)

end SocketPhase

namespace TCPHandler

/-- What a handler's variables are at each stage. -/
def Consistent (handler : TCPHandler) : Prop :=
  match handler.stage with
  | .setup => handler.permitUsed = false ∧ handler.active = false ∧
      handler.finished = false
  | .activated => handler.permitUsed = true ∧ handler.active = true ∧
      handler.finished = false
  | .relaying => handler.permitUsed = true ∧ handler.active = true ∧
      handler.finished = true
  | .unwinding | .closing | .releasing =>
    handler.permitUsed = handler.active ∧ handler.finished = handler.active
  | .finishing => handler.permitUsed = true ∧ handler.finished = handler.active
  | .removing => handler.permitUsed = true ∧ handler.finished = true

/-- The connection has been closed by the deferred call. -/
def pastClose (handler : TCPHandler) : Bool :=
  decide (handler.stage ∈ [HandlerStage.releasing, .finishing, .removing])

end TCPHandler

namespace TCPSocket

/-- What is known of a socket from its phase. -/
structure Good (socket : TCPSocket) : Prop where
  aborts : socket.aborted = true → socket.connClosed = true
  fresh : socket.phase = .accepted → socket.results = []
  refused : socket.phase = .refused → socket.connClosed = true ∧
    socket.results.length ≤ 1
  added : socket.phase = .added ∨ socket.phase = .overCapacity →
    socket.results = []
  overdrawn : socket.phase = .overCounted ∨ socket.phase = .overClosed →
    socket.results.length = 1
  overClosed : socket.phase = .overClosed → socket.connClosed = true
  handler : ∀ handler, socket.phase = .handling handler →
    handler.Consistent ∧ socket.results.length = handler.finished.toNat ∧
      (handler.pastClose = true → socket.connClosed = true)
  removed : socket.phase = .removed → socket.connClosed = true ∧
    socket.results.length = 1

def flowWeight (socket : TCPSocket) : Int := if socket.phase.inMap then 1 else 0

def setupWeight (socket : TCPSocket) : Int :=
  if socket.phase.holdsSlot then 1 else 0

def activeWeight (socket : TCPSocket) : Int :=
  if socket.phase.countsActive then 1 else 0

theorem Good.weights (socket : TCPSocket) (good : socket.Good) :
    socket.setupWeight + socket.activeWeight ≤ socket.flowWeight := by
  unfold setupWeight activeWeight flowWeight
  cases phase : socket.phase with
  | handling handler =>
    have consistent := (good.handler handler phase).1
    unfold TCPHandler.Consistent at consistent
    cases stage : handler.stage <;> rw [stage] at consistent <;>
      simp_all [holdsSlot, countsActive, inMap]
    all_goals cases handler.active <;> simp
  | accepted | refused | added | overCapacity | overCounted | overClosed
  | removed =>
    simp [holdsSlot, countsActive, inMap]

@[simp] theorem phase_abort (socket : TCPSocket) :
    socket.abort.phase = socket.phase := by
  unfold abort
  split <;> rfl

@[simp] theorem results_abort (socket : TCPSocket) :
    socket.abort.results = socket.results := by
  unfold abort
  split <;> rfl

@[simp] theorem aborted_abort (socket : TCPSocket) :
    socket.abort.aborted = true := by
  unfold abort
  split
  · rename_i aborted
    exact aborted
  · rfl

variable {socket : TCPSocket}

theorem Good.connClosed_abort (good : socket.Good) :
    socket.abort.connClosed = true := by
  unfold abort
  split
  · rename_i aborted
    exact good.aborts aborted
  · rfl

theorem Good.abort (good : socket.Good) : socket.abort.Good := by
  have closed := good.connClosed_abort
  refine
    { aborts := fun _ => closed, overClosed := fun _ => closed
      fresh := ?_, refused := ?_, added := ?_, overdrawn := ?_
      handler := ?_, removed := ?_ }
  · simpa using good.fresh
  · simpa [closed] using fun phase => (good.refused phase).2
  · simpa using good.added
  · simpa using good.overdrawn
  · intro handler phase
    simp only [phase_abort] at phase
    obtain ⟨consistent, counted, _⟩ := good.handler handler phase
    exact ⟨consistent, by simpa using counted, fun _ => closed⟩
  · simpa [closed] using fun phase => (good.removed phase).2

end TCPSocket

namespace TCPListener

variable {l after : TCPListener} {index : Nat} {old new : TCPSocket}

/-- The invariant. -/
structure Sound (l : TCPListener) : Prop where
  good : ∀ (index : Nat) (socket : TCPSocket),
    l.sockets[index]? = some socket → socket.Good
  mapped : ∀ (index : Nat) (socket : TCPSocket),
    l.sockets[index]? = some socket →
      (index ∈ l.flows ↔ socket.phase.inMap = true)
  bounded : ∀ index ∈ l.flows, index < l.sockets.length
  card : l.tcpAdmission.flowCurrent = l.flows.card
  flow : l.tcpAdmission.flowCurrent = (l.sockets.map flowWeight).sum
  flowLimit : l.tcpAdmission.flowCurrent ≤ l.tcpFlowLimit
  setup : l.tcpAdmission.setupCurrent = (l.sockets.map setupWeight).sum
  slots : l.tcpAdmission.setupCurrent = l.tcpSetupSlots
  setupLimit : l.tcpSetupSlots ≤ l.tcpSetupLimit
  active : l.tcpAdmission.activeCurrent = (l.sockets.map activeWeight).sum
  terminals : ∀ result, (l.tcpAdmission.terminals result : Int) =
    (l.sockets.map fun socket => (socket.results.count result : Int)).sum
  marked : l.flowsClosing = true ↔ l.close ≠ .opened ∧ l.close ≠ .unbound
  aborts : ∀ (index : Nat) (socket : TCPSocket),
    l.sockets[index]? = some socket → index ∈ l.flows →
    l.flowsClosing = true → socket.aborted = true ∨
      ∃ todo, l.close = .aborting todo ∧ index ∈ todo

theorem sound_new (flowLimit setupLimit : Nat) :
    (TCPListener.new flowLimit setupLimit).Sound := by
  refine
    { good := ?_, mapped := ?_, bounded := ?_, card := rfl, flow := rfl,
      flowLimit := Int.natCast_nonneg _, setup := rfl, slots := rfl,
      setupLimit := Nat.zero_le _, active := rfl, terminals := fun _ => rfl,
      marked := ?_, aborts := ?_ }
  · intro index socket found
    cases found
  · intro index socket found
    cases found
  · intro index among
    cases among
  · simp [TCPListener.new]
  · intro index socket found
    cases found

/-- An action on one socket, and what it does to the counters. -/
structure Updates (l : TCPListener) (index : Nat) (old new : TCPSocket)
    (after : TCPListener) : Prop where
  sockets : after.sockets = l.sockets.set index new
  flowLimit : after.tcpFlowLimit = l.tcpFlowLimit
  setupLimit : after.tcpSetupLimit = l.tcpSetupLimit
  flowsClosing : after.flowsClosing = l.flowsClosing
  close : after.close = l.close
  flow : after.tcpAdmission.flowCurrent =
    l.tcpAdmission.flowCurrent - old.flowWeight + new.flowWeight
  setup : after.tcpAdmission.setupCurrent =
    l.tcpAdmission.setupCurrent - old.setupWeight + new.setupWeight
  slots : (after.tcpSetupSlots : Int) =
    l.tcpSetupSlots - old.setupWeight + new.setupWeight
  active : after.tcpAdmission.activeCurrent =
    l.tcpAdmission.activeCurrent - old.activeWeight + new.activeWeight
  terminals : ∀ result, (after.tcpAdmission.terminals result : Int) =
    l.tcpAdmission.terminals result - old.results.count result +
      new.results.count result
  flows : (after.flows = l.flows ∧ new.phase.inMap = old.phase.inMap) ∨
    (after.flows = insert index l.flows ∧ old.phase.inMap = false ∧
      new.phase.inMap = true ∧ l.flows.card < l.tcpFlowLimit ∧
      l.flowsClosing = false) ∨
    (after.flows = l.flows.erase index ∧ old.phase.inMap = true ∧
      new.phase.inMap = false)
  slot : new.phase.holdsSlot = true → old.phase.holdsSlot = true ∨
    l.tcpSetupSlots < l.tcpSetupLimit
  good : new.Good
  aborted : old.aborted = true → new.aborted = true

theorem Sound.slot_taken (sound : l.Sound)
    (found : l.sockets[index]? = some old)
    (holds : old.phase.holdsSlot = true) : 0 < l.tcpSetupSlots := by
  have moved := sum_map_set_eq setupWeight found
    { old with phase := .removed }
  have others : 0 ≤ ((l.sockets.set index
      { old with phase := .removed }).map setupWeight).sum := by
    apply List.sum_nonneg
    intro weight among
    obtain ⟨socket, _, rfl⟩ := List.mem_map.mp among
    unfold setupWeight
    split <;> omega
  have counted := sound.setup
  have slots := sound.slots
  have one : old.setupWeight = 1 := by simp [setupWeight, holds]
  have none : setupWeight { old with phase := .removed } = 0 := rfl
  omega

theorem Sound.update (sound : l.Sound)
    (found : l.sockets[index]? = some old)
    (updates : l.Updates index old new after) : after.Sound := by
  have cell : ∀ {other : Nat} {socket : TCPSocket},
      after.sockets[other]? = some socket → (other = index ∧ socket = new) ∨
      (other ≠ index ∧ l.sockets[other]? = some socket) := by
    intro other socket at_
    rw [updates.sockets] at at_
    exact cases_set found at_
  have inside : index < l.sockets.length :=
    (List.getElem?_eq_some_iff.mp found).1
  have length : after.sockets.length = l.sockets.length := by
    rw [updates.sockets, List.length_set]
  have member := sound.mapped index old found
  have others : ∀ other, other ≠ index →
      (other ∈ after.flows ↔ other ∈ l.flows) := by
    intro other different
    rcases updates.flows with ⟨same, _⟩ | ⟨added, _⟩ | ⟨erased, _⟩
    · rw [same]
    · rw [added, Finset.mem_insert]
      simp [different]
    · rw [erased, Finset.mem_erase]
      simp [different]
  have own : index ∈ after.flows ↔ new.phase.inMap = true := by
    rcases updates.flows with ⟨same, kept⟩ | ⟨added, _, into, _⟩ |
      ⟨erased, _, out⟩
    · rw [same, kept]
      exact member
    · rw [added, into]
      simp
    · rw [erased, out]
      simp
  constructor
  · intro other socket at_
    rcases cell at_ with ⟨_, rfl⟩ | ⟨_, before⟩
    · exact updates.good
    · exact sound.good other socket before
  · intro other socket at_
    rcases cell at_ with ⟨rfl, rfl⟩ | ⟨different, before⟩
    · exact own
    · rw [others other different]
      exact sound.mapped other socket before
  · intro other among
    rw [length]
    by_cases same : other = index
    · rw [same]
      exact inside
    · exact sound.bounded other ((others other same).mp among)
  · rw [updates.flow, sound.card]
    rcases updates.flows with ⟨same, kept⟩ | ⟨added, out, into, _⟩ |
      ⟨erased, into, out⟩
    · simp [same, flowWeight, kept]
    · have absent : index ∉ l.flows := by
        simp [member, out]
      simp [added, Finset.card_insert_of_notMem absent, flowWeight, out, into]
    · have present : index ∈ l.flows := member.mpr into
      have smaller := Finset.card_erase_add_one present
      simp only [erased, flowWeight, into, out, if_true,
        Bool.false_eq_true, if_false]
      omega
  · rw [updates.flow, sound.flow, updates.sockets,
      sum_map_set_eq flowWeight found]
  · have before := sound.flowLimit
    have counted := sound.card
    rw [updates.flow, updates.flowLimit]
    rcases updates.flows with ⟨same, kept⟩ | ⟨added, out, into, room, _⟩ |
      ⟨erased, into, out⟩
    · simpa [flowWeight, kept] using before
    all_goals
      simp [flowWeight, out, into]
      omega
  · rw [updates.setup, sound.setup, updates.sockets,
      sum_map_set_eq setupWeight found]
  · rw [updates.setup, updates.slots, sound.slots]
  · have counted := updates.slots
    have before := sound.setupLimit
    rw [updates.setupLimit]
    unfold setupWeight at counted
    by_cases holds : new.phase.holdsSlot = true
    · rcases updates.slot holds with held | room
      · rw [if_pos holds, if_pos held] at counted
        omega
      · rw [if_pos holds] at counted
        split at counted <;> omega
    · rw [if_neg holds] at counted
      split at counted <;> omega
  · rw [updates.active, sound.active, updates.sockets,
      sum_map_set_eq activeWeight found]
  · intro result
    rw [updates.terminals, sound.terminals, updates.sockets,
      sum_map_set_eq (fun socket : TCPSocket =>
        (socket.results.count result : Int)) found]
  · rw [updates.flowsClosing, updates.close]
    exact sound.marked
  · intro other socket at_ among closing
    rw [updates.flowsClosing] at closing
    rw [updates.close]
    rcases cell at_ with ⟨rfl, rfl⟩ | ⟨different, before⟩
    · have was : other ∈ l.flows := by
        rcases updates.flows with ⟨same, _⟩ | ⟨_, _, _, _, opened⟩ | ⟨erased, _⟩
        · rw [same] at among
          exact among
        · cases opened.symm.trans closing
        · rw [erased] at among
          exact Finset.mem_of_mem_erase among
      rcases sound.aborts other old found was closing with aborted | todo
      · exact .inl (updates.aborted aborted)
      · exact .inr todo
    · exact sound.aborts other socket before
        ((others other different).mp among) closing

/-! ## The actions -/

variable {stats : TCPAdmissionStats}

theorem Updates.recount {slots : Nat}
    (inMap : new.phase.inMap = old.phase.inMap)
    (flow : stats.flowCurrent = l.tcpAdmission.flowCurrent)
    (setup : stats.setupCurrent =
      l.tcpAdmission.setupCurrent - old.setupWeight + new.setupWeight)
    (taken : (slots : Int) =
      l.tcpSetupSlots - old.setupWeight + new.setupWeight)
    (active : stats.activeCurrent =
      l.tcpAdmission.activeCurrent - old.activeWeight + new.activeWeight)
    (terminals : ∀ result, (stats.terminals result : Int) =
      l.tcpAdmission.terminals result - old.results.count result +
        new.results.count result)
    (slot : new.phase.holdsSlot = true → old.phase.holdsSlot = true ∨
      l.tcpSetupSlots < l.tcpSetupLimit) (good : new.Good)
    (aborted : old.aborted = true → new.aborted = true) :
    l.Updates index old new
      { l with
        tcpSetupSlots := slots
        tcpAdmission := stats
        sockets := l.sockets.set index new } where
  sockets := rfl
  flowLimit := rfl
  setupLimit := rfl
  flowsClosing := rfl
  close := rfl
  flow := by
    simp only [flow, flowWeight, inMap]
    omega
  setup := setup
  slots := taken
  active := active
  terminals := terminals
  flows := .inl ⟨rfl, inMap⟩
  slot := slot
  good := good
  aborted := aborted

theorem Updates.move (counts : new.phase.counts = old.phase.counts)
    (flow : stats.flowCurrent = l.tcpAdmission.flowCurrent)
    (setup : stats.setupCurrent = l.tcpAdmission.setupCurrent)
    (active : stats.activeCurrent = l.tcpAdmission.activeCurrent)
    (terminals : ∀ result, (stats.terminals result : Int) =
      l.tcpAdmission.terminals result - old.results.count result +
        new.results.count result) (good : new.Good)
    (aborted : old.aborted = true → new.aborted = true) :
    l.Updates index old new
      { l with
        tcpAdmission := stats
        sockets := l.sockets.set index new } := by
  simp only [SocketPhase.counts, Prod.mk.injEq] at counts
  obtain ⟨inMap, holds, counted⟩ := counts
  apply Updates.recount inMap flow _ _ _ terminals _ good aborted
  · simp [setup, setupWeight, holds]
  · simp [setupWeight, holds]
  · simp [active, activeWeight, counted]
  · intro held
    exact .inl (holds ▸ held)

theorem Updates.put (counts : new.phase.counts = old.phase.counts)
    (results : new.results = old.results) (good : new.Good)
    (aborted : old.aborted = true → new.aborted = true) :
    l.Updates index old new (l.put index new) := by
  apply Updates.move counts rfl rfl rfl _ good aborted
  intro result
  simp [results]

theorem Updates.finish {result : TCPTerminalResult}
    (counts : new.phase.counts = old.phase.counts)
    (results : new.results = old.results)
    (good : { new with results := new.results ++ [result] }.Good)
    (aborted : old.aborted = true → new.aborted = true) :
    l.Updates index old { new with results := new.results ++ [result] }
      (l.finish index new result) := by
  refine .move (show SocketPhase.counts new.phase = _ from counts) rfl rfl rfl
    ?_ good aborted
  intro other
  simp only [TCPAdmissionStats.finish, results, List.count_append]
  by_cases same : other = result
  · subst same
    rw [Function.update_self, List.count_singleton_self]
    omega
  · have none : List.count other [result] = 0 :=
      List.count_eq_zero.mpr (by simpa using same)
    rw [Function.update_of_ne same, none]
    omega

theorem removeTCPFlow_updates (sound : l.Sound)
    (found : l.sockets[index]? = some old)
    (counts : old.phase.counts = (true, false, false))
    (closed : old.connClosed = true) (counted : old.results.length = 1) :
    ∃ new, l.Updates index old new (l.removeTCPFlow index old) := by
  simp only [SocketPhase.counts, Prod.mk.injEq] at counts
  obtain ⟨inMap, slot, active⟩ := counts
  have among : index ∈ l.flows := (sound.mapped index old found).mpr inMap
  unfold removeTCPFlow
  rw [if_pos among]
  refine ⟨{ old with phase := .removed },
    { sockets := rfl, flowLimit := rfl, setupLimit := rfl,
      flowsClosing := rfl, close := rfl, flow := ?_, setup := ?_,
      slots := ?_, active := ?_, terminals := ?_,
      flows := .inr (.inr ⟨rfl, inMap, rfl⟩), slot := ?_,
      good := ?_, aborted := fun aborted => aborted }⟩
  · have now : old.flowWeight = 1 := by simp [flowWeight, inMap]
    rw [now]
    exact (Int.add_zero _).symm
  · have now : old.setupWeight = 0 := by simp [setupWeight, slot]
    rw [now]
    exact (Int.sub_add_cancel _ _).symm
  · have now : old.setupWeight = 0 := by simp [setupWeight, slot]
    rw [now]
    exact (Int.sub_add_cancel _ _).symm
  · have now : old.activeWeight = 0 := by
      simp [activeWeight, active]
    rw [now]
    exact (Int.sub_add_cancel _ _).symm
  · simp
  · intro holds
    cases holds
  · constructor <;> simp [closed, counted]

-- From here on the phases are known and the counters compute.
attribute [simp] inMap holdsSlot
  countsActive counts TCPHandler.pastClose
  flowWeight setupWeight activeWeight

theorem addTCPFlow_updates (good : old.Good)
    (accepted : old.phase = .accepted) :
    ∃ new, l.Updates index old new (l.addTCPFlow index old) := by
  have noResults := good.fresh accepted
  have closed := good.connClosed_abort
  have refused : ∀ results : List TCPTerminalResult, results.length ≤ 1 →
      TCPSocket.Good { old.abort with
        phase := .refused, results := results } := by
    intro results counted
    constructor <;> simp [closed, counted]
  have same : counts .refused = old.phase.counts := by
    rw [accepted]
    rfl
  unfold addTCPFlow
  split
  · refine ⟨_, .put same old.results_abort (refused _ ?_)
      fun _ => old.aborted_abort⟩
    simp [noResults]
  · split
    · refine ⟨_, .finish same old.results_abort (refused _ ?_)
        fun _ => old.aborted_abort⟩
      simp [noResults]
    · rename_i opened room
      refine ⟨{ old with phase := .added },
        { sockets := rfl, flowLimit := rfl, setupLimit := rfl,
          flowsClosing := rfl, close := rfl, flow := ?_, setup := ?_,
          slots := ?_, active := ?_, terminals := ?_,
          flows := .inr (.inl ⟨rfl, ?_, rfl, ?_, ?_⟩), slot := ?_,
          good := ?_, aborted := fun aborted => aborted }⟩
      · simp [accepted]
      · simp [accepted]
      · simp [accepted]
      · simp [accepted]
      · simp
      · simp [accepted]
      · exact Nat.lt_of_not_le room
      · exact Bool.not_eq_true _ ▸ opened
      · intro holds
        cases holds
      · constructor <;> simp [noResults]
        exact good.aborts

theorem acquireTCPSetup_updates (good : old.Good)
    (added : old.phase = .added) :
    ∃ new, l.Updates index old new (l.acquireTCPSetup index old) := by
  have noResults := good.added (.inl added)
  unfold acquireTCPSetup
  split
  · rename_i room
    refine ⟨_, .recount ?_ rfl ?_ ?_ ?_ ?_ (fun _ => .inr room) ?_
      fun aborted => aborted⟩
    · simp [added]
    · simp [added]
    · simp [added]
    · simp [added]
    · simp
    · constructor <;> simp [noResults, TCPHandler.Consistent]
      exact good.aborts
  · refine ⟨_, .put ?_ rfl ?_ fun aborted => aborted⟩
    · rw [added]
      rfl
    · constructor <;> simp [noResults]
      exact good.aborts

section Handler

variable {handler : TCPHandler}

theorem good_handling {socket : TCPSocket}
    (phase : socket.phase = .handling handler)
    (aborts : socket.aborted = true → socket.connClosed = true)
    (consistent : handler.Consistent)
    (counted : socket.results.length = handler.finished.toNat)
    (closed : handler.pastClose = true → socket.connClosed = true) :
    socket.Good := by
  refine ⟨aborts, ?_, ?_, ?_, ?_, ?_, ?_, ?_⟩
  case refine_6 =>
      intro other same
      cases phase.symm.trans same
      exact ⟨consistent, counted, closed⟩
  all_goals simp [phase]

theorem release_updates (sound : l.Sound)
    (found : l.sockets[index]? = some old)
    (phase : old.phase = .handling handler)
    (stage : handler.stage = .releasing) :
    ∃ new, l.Updates index old new (l.release index old handler) := by
  have good := sound.good index old found
  obtain ⟨consistent, counted, closed⟩ := good.handler handler phase
  simp only [TCPHandler.Consistent, stage] at consistent
  have isClosed : old.connClosed = true := by
    apply closed
    simp [stage]
  have next : TCPSocket.Good { old with
      phase := .handling { handler with
        stage := .finishing, permitUsed := true } } :=
    good_handling rfl good.aborts ⟨rfl, consistent.2⟩ counted
      fun _ => isClosed
  unfold release
  dsimp only
  split
  · rename_i used
    refine ⟨_, .put ?_ rfl next fun aborted => aborted⟩
    simp [phase, used, stage]
  rename_i unused
  have holds : old.phase.holdsSlot = true := by
    simpa [phase] using unused
  have taken := sound.slot_taken found holds
  refine ⟨_, .recount ?_ rfl ?_ ?_ ?_ ?_ ?_ next fun aborted => aborted⟩
  · simp [phase]
  · simp [phase, unused]
  · simp [phase, unused]
    omega
  · simp [phase, stage]
  · simp
  · intro held
    cases held

theorem activate_updates (sound : l.Sound)
    (found : l.sockets[index]? = some old)
    (phase : old.phase = .handling handler)
    (stage : handler.stage = .setup) :
    ∃ new, l.Updates index old new (l.activate index old handler) := by
  have good := sound.good index old found
  obtain ⟨consistent, counted, _⟩ := good.handler handler phase
  simp only [TCPHandler.Consistent, stage] at consistent
  obtain ⟨unused, inactive, unfinished⟩ := consistent
  have holds : old.phase.holdsSlot = true := by
    simpa [phase] using unused
  have taken := sound.slot_taken found holds
  unfold activate
  dsimp only
  rw [unused]
  refine ⟨_, .recount ?_ rfl ?_ ?_ ?_ ?_ ?_ ?_ fun aborted => aborted⟩
  · simp [phase]
  · simp [phase, unused]
  · simp [phase, unused]
    omega
  · simp [phase, inactive]
  · simp
  · intro held
    cases held
  · refine good_handling rfl good.aborts ⟨rfl, rfl, unfinished⟩ counted ?_
    simp

theorem finishTerminal_updates {stage : HandlerStage} (good : old.Good)
    (phase : old.phase = .handling handler)
    (active : countsActive (.handling { handler with
        stage := stage, finished := true }) =
      countsActive (.handling handler))
    (consistent : TCPHandler.Consistent { handler with
      stage := stage, finished := true })
    (closed : TCPHandler.pastClose { handler with
      stage := stage, finished := true } = true → old.connClosed = true) :
    ∃ new, l.Updates index old new
      (l.finishTerminal index old handler stage) := by
  obtain ⟨_, counted, _⟩ := good.handler handler phase
  have counts : counts (.handling { handler with
      stage := stage, finished := true }) = old.phase.counts := by
    simp only [counts, active, phase]
    rfl
  unfold finishTerminal
  dsimp only
  split
  · rename_i finished
    refine ⟨_, .put counts rfl ?_ fun aborted => aborted⟩
    refine good_handling rfl good.aborts consistent ?_ closed
    simpa [finished] using counted
  · rename_i unfinished
    refine ⟨_, .finish counts rfl ?_ fun aborted => aborted⟩
    refine good_handling rfl good.aborts consistent ?_ closed
    simpa [unfinished] using counted

theorem leave_updates (good : old.Good)
    (phase : old.phase = .handling handler)
    (stage : handler.stage = .unwinding) :
    ∃ new, l.Updates index old new (l.leave index old handler) := by
  obtain ⟨consistent, counted, _⟩ := good.handler handler phase
  simp only [TCPHandler.Consistent, stage] at consistent
  have next : TCPSocket.Good { old with
      phase := .handling { handler with stage := .closing } } := by
    refine good_handling rfl good.aborts consistent counted ?_
    simp
  unfold leave
  dsimp only
  split
  · rename_i active
    refine ⟨_, .recount ?_ rfl ?_ ?_ ?_ ?_ ?_ next fun aborted => aborted⟩
    · simp [phase]
    · simp [phase, TCPAdmissionStats.finishActive]
    · simp [phase]
    · simp [phase, active, stage, TCPAdmissionStats.finishActive]
    · simp [TCPAdmissionStats.finishActive]
    · intro held
      rw [phase]
      exact .inl held
  · rename_i inactive
    refine ⟨_, .put ?_ rfl next fun aborted => aborted⟩
    simp [phase, inactive]

theorem handler_updates (sound : l.Sound)
    (found : l.sockets[index]? = some old)
    (phase : old.phase = .handling handler)
    (returns : Option TCPTerminalResult) :
    ∃ new, l.Updates index old new (l.advance index old returns) := by
  have good := sound.good index old found
  obtain ⟨consistent, counted, closed⟩ := good.handler handler phase
  unfold TCPHandler.Consistent at consistent
  unfold advance
  rw [phase]
  dsimp only
  cases stage : handler.stage with
  | setup =>
    rw [stage] at consistent
    obtain ⟨unused, inactive, unfinished⟩ := consistent
    dsimp only
    split
    · refine ⟨_, .put ?_ rfl ?_ fun aborted => aborted⟩
      · simp [phase, inactive]
      · refine good_handling rfl good.aborts ?_ counted ?_
        · simp [TCPHandler.Consistent, unused, inactive, unfinished]
        · simp
    · exact activate_updates sound found phase stage
  | activated =>
    rw [stage] at consistent
    obtain ⟨used, active, _⟩ := consistent
    refine finishTerminal_updates good phase ?_ ⟨used, active, rfl⟩ ?_
    · simp [stage]
    · simp
  | relaying =>
    rw [stage] at consistent
    obtain ⟨used, active, finished⟩ := consistent
    refine ⟨_, .put ?_ rfl ?_ fun aborted => aborted⟩
    · simp [phase, stage]
    · refine good_handling rfl good.aborts ?_ counted ?_
      · simp [TCPHandler.Consistent, used, active, finished]
      · simp
  | unwinding => exact leave_updates good phase stage
  | closing =>
    rw [stage] at consistent
    refine ⟨_, .put ?_ rfl ?_ fun aborted => aborted⟩
    · simp [phase, stage]
    · exact good_handling rfl (fun _ => rfl) consistent counted fun _ => rfl
  | releasing => exact release_updates sound found phase stage
  | finishing =>
    rw [stage] at consistent
    have isClosed : old.connClosed = true := by
      apply closed
      simp [stage]
    refine finishTerminal_updates good phase ?_
      ⟨consistent.1, rfl⟩ fun _ => isClosed
    simp [stage]
  | removing =>
    rw [stage] at consistent
    have isClosed : old.connClosed = true := by
      apply closed
      simp [stage]
    apply removeTCPFlow_updates sound found _ isClosed
    · simp [counted, consistent.2]
    · simp [phase, stage, consistent.1]

theorem advance_updates (sound : l.Sound)
    (found : l.sockets[index]? = some old)
    (returns : Option TCPTerminalResult)
    (goesOn : old.phase ≠ .refused ∧ old.phase ≠ .removed) :
    ∃ new, l.Updates index old new (l.advance index old returns) := by
  have good := sound.good index old found
  cases phase : old.phase with
  | handling handler => exact handler_updates sound found phase returns
  | refused => exact absurd phase goesOn.1
  | removed => exact absurd phase goesOn.2
  | accepted =>
    simp only [advance, phase]
    exact addTCPFlow_updates good phase
  | added =>
    simp only [advance, phase]
    exact acquireTCPSetup_updates good phase
  | overCapacity =>
    have noResults := good.added (.inr phase)
    simp only [advance, phase]
    refine ⟨_, .finish ?_ rfl ?_ fun aborted => aborted⟩
    · rw [phase]
      rfl
    · constructor <;> simp [noResults]
      exact good.aborts
  | overCounted =>
    have counted := good.overdrawn (.inl phase)
    simp only [advance, phase]
    refine ⟨_, .put ?_ rfl ?_ fun aborted => aborted⟩
    · rw [phase]
      rfl
    · constructor <;> simp [counted]
  | overClosed =>
    simp only [advance, phase]
    apply removeTCPFlow_updates sound found _ (good.overClosed phase)
      (good.overdrawn (.inr phase))
    rw [phase]
    rfl

end Handler

/-! ## Runs -/

section Runs

variable {returns : Option TCPTerminalResult}

theorem goesOn_of_enabled (enabled : l.Enabled (.advance index returns)) :
    ∃ socket, l.sockets[index]? = some socket ∧
      socket.phase ≠ .refused ∧ socket.phase ≠ .removed := by
  unfold Enabled at enabled
  dsimp only at enabled
  split at enabled
  · exact enabled.elim
  rename_i socket found
  refine ⟨socket, found, ?_, ?_⟩
  · intro refused
    rw [refused] at enabled
    exact enabled
  · intro removed
    rw [removed] at enabled
    exact enabled

theorem abort_updates (good : old.Good) :
    l.Updates index old old.abort (l.put index old.abort) := by
  refine .put ?_ old.results_abort good.abort fun _ => old.aborted_abort
  rw [phase_abort]

theorem Sound.accept (sound : l.Sound) : (l.apply .accept).Sound := by
  have cell : ∀ {other : Nat} {socket : TCPSocket},
      (l.apply .accept).sockets[other]? = some socket →
      (other = l.sockets.length ∧ socket =
        { phase := .accepted, connClosed := false, aborted := false
          results := [] }) ∨ l.sockets[other]? = some socket := by
    intro other socket at_
    exact cases_append at_
  have outside : l.sockets.length ∉ l.flows := by
    intro among
    exact Nat.lt_irrefl _ (sound.bounded _ among)
  have longer : ∀ other, other < l.sockets.length →
      other < (l.apply .accept).sockets.length := by
    intro other bound
    change other < (l.sockets ++ [_]).length
    rw [List.length_append]
    exact Nat.lt_add_right _ bound
  have total : ∀ weight : TCPSocket → Int,
      weight { phase := .accepted, connClosed := false, aborted := false
               results := [] } = 0 →
      ((l.apply .accept).sockets.map weight).sum =
        (l.sockets.map weight).sum := by
    intro weight nothing
    change ((l.sockets ++ [_]).map weight).sum = _
    rw [sum_map_append_singleton, nothing, Int.add_zero]
  refine
    { good := ?_, mapped := ?_, bounded := ?_, card := sound.card,
      flow := ?_, flowLimit := sound.flowLimit, setup := ?_,
      slots := sound.slots, setupLimit := sound.setupLimit, active := ?_,
      terminals := ?_, marked := sound.marked, aborts := ?_ }
  · intro other socket at_
    rcases cell at_ with ⟨_, rfl⟩ | before
    · constructor <;> simp
    · exact sound.good other socket before
  · intro other socket at_
    rcases cell at_ with ⟨rfl, rfl⟩ | before
    · exact ⟨fun among => absurd among outside, fun into => by cases into⟩
    · exact sound.mapped other socket before
  · intro other among
    exact longer other (sound.bounded other among)
  · rw [total _ rfl]
    exact sound.flow
  · rw [total _ rfl]
    exact sound.setup
  · rw [total _ rfl]
    exact sound.active
  · intro result
    rw [total _ rfl]
    exact sound.terminals result
  · intro other socket at_ among closing
    rcases cell at_ with ⟨rfl, _⟩ | before
    · exact absurd among outside
    · exact sound.aborts other socket before among closing

theorem Sound.closeAbort (sound : l.Sound) {todo : Finset Nat}
    (aborting : l.close = .aborting todo)
    (found : l.sockets[index]? = some old) :
    Sound { l with
      close := .aborting (todo.erase index)
      sockets := l.sockets.set index old.abort } := by
  have good := sound.good index old found
  have moved := sound.update found (abort_updates good)
  have marked : l.flowsClosing = true := by
    rw [sound.marked, aborting]
    simp
  refine { moved with marked := ?_, aborts := ?_ }
  · simp [marked]
  · intro other socket at_ among closing
    rcases moved.aborts other socket at_ among closing with done | pending
    · exact .inl done
    obtain ⟨pendingTodo, same, listed⟩ := pending
    cases aborting.symm.trans same
    by_cases own : other = index
    · subst own
      change (l.sockets.set other old.abort)[other]? = _ at at_
      rw [getElem?_set_eq found, if_pos rfl] at at_
      cases at_
      exact .inl (aborted_abort old)
    · exact .inr ⟨_, rfl, Finset.mem_erase.mpr ⟨own, listed⟩⟩

theorem Sound.closeStep (sound : l.Sound) (index : Nat) :
    (l.closeStep index).Sound := by
  unfold TCPListener.closeStep
  have marked := sound.marked
  cases phase : l.close with
  | opened =>
    rw [phase] at marked
    refine { sound with marked := ?_, aborts := ?_ }
    · simpa using marked
    · intro other socket at_ among closing
      have marks := marked.mp closing
      simp at marks
  | unbound =>
    refine { sound with marked := ?_, aborts := ?_ }
    · simp
    · intro other socket at_ among _
      exact .inr ⟨l.flows, rfl, among⟩
  | aborting todo =>
    dsimp only
    split
    · rename_i empty
      rw [phase] at marked
      refine { sound with marked := ?_, aborts := ?_ }
      · simpa using marked
      · intro other socket at_ among closing
        rcases sound.aborts other socket at_ among closing with
          done | ⟨pending, same, listed⟩
        · exact .inl done
        · cases phase.symm.trans same
          rw [empty] at listed
          cases listed
    · split
      · exact sound
      · rename_i socket found
        exact sound.closeAbort phase found
  | done => exact sound

theorem Sound.updates_of_enabled (sound : l.Sound)
    {returns : Option TCPTerminalResult}
    (enabled : l.Enabled (.advance index returns)) :
    ∃ socket next, l.sockets[index]? = some socket ∧
      l.Updates index socket next (l.apply (.advance index returns)) := by
  obtain ⟨socket, found, goesOn⟩ := goesOn_of_enabled enabled
  obtain ⟨next, updates⟩ := advance_updates sound found returns goesOn
  refine ⟨socket, next, found, ?_⟩
  unfold TCPListener.apply
  dsimp only
  rw [found]
  exact updates

theorem Sound.apply (sound : l.Sound) {op : Op} (enabled : l.Enabled op) :
    (l.apply op).Sound := by
  cases op with
  | accept => exact sound.accept
  | advance index returns =>
    obtain ⟨socket, next, found, updates⟩ :=
      sound.updates_of_enabled enabled
    exact sound.update found updates
  | abort index =>
    unfold TCPListener.apply
    dsimp only
    split
    · exact sound
    · rename_i socket found
      exact sound.update found (abort_updates (sound.good index socket found))
  | close index => exact sound.closeStep index

theorem reachable_sound {flowLimit setupLimit : Nat}
    (reachable : (system flowLimit setupLimit).Reachable l) : l.Sound := by
  apply reachable.invariant
  · intro state initial
    rw [initial]
    exact sound_new flowLimit setupLimit
  · intro before after _ sound step
    obtain ⟨op, enabled, rfl⟩ := step
    exact sound.apply enabled

end Runs

end TCPListener

end QMux.Traffic
