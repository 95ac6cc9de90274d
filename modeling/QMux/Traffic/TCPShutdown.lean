import QMux.Traffic.TCPAdmissionCounts

/-!
# Shutdown of a TCP listener

`close` marks the listener and copies the map under one lock; a socket whose
`addTCPFlow` came before is in the copy, and one whose `addTCPFlow` comes
after is aborted there.  Nothing enters the map after the mark, so when
`close` is done every socket that went through `addTCPFlow` is closed.
-/

namespace QMux.Traffic

open Support TCPListener

namespace TCPListener

variable {l after : TCPListener} {index : Nat} {old new : TCPSocket}
  {flows : Finset Nat}

/-- A listener marked closing with `flows` in its map. -/
structure Marked (flows : Finset Nat) (l : TCPListener) : Prop where
  closing : l.flowsClosing = true
  fewer : l.flows ⊆ flows
  aborts : ∀ index ∈ flows,
    (∃ socket, l.sockets[index]? = some socket ∧ socket.aborted = true) ∨
      ∃ todo, l.close = .aborting todo ∧ index ∈ todo

theorem Marked.update (marked : l.Marked flows)
    (found : l.sockets[index]? = some old)
    (updates : l.Updates index old new after) : after.Marked flows := by
  refine ⟨?_, ?_, ?_⟩
  · rw [updates.flowsClosing]
    exact marked.closing
  · rcases updates.flows with ⟨same, _⟩ | ⟨_, _, _, _, opened⟩ | ⟨erased, _⟩
    · rw [same]
      exact marked.fewer
    · cases opened.symm.trans marked.closing
    · rw [erased]
      exact (Finset.erase_subset _ _).trans marked.fewer
  · intro other among
    rw [updates.sockets, updates.close]
    rcases marked.aborts other among with ⟨socket, at_, aborted⟩ | todo
    · refine .inl ?_
      rw [getElem?_set_eq found]
      split
      · rename_i same
        rw [same] at at_
        cases found.symm.trans at_
        exact ⟨new, rfl, updates.aborted aborted⟩
      · exact ⟨socket, at_, aborted⟩
    · exact .inr todo

section

variable (sound : l.Sound)

include sound

theorem Marked.closeStep (marked : l.Marked flows) (index : Nat) :
    (l.closeStep index).Marked flows := by
  have started := sound.marked.mp marked.closing
  unfold TCPListener.closeStep
  cases phase : l.close with
  | opened => exact absurd phase started.1
  | unbound => exact absurd phase started.2
  | done => exact marked
  | aborting todo =>
    dsimp only
    split
    · rename_i empty
      refine ⟨marked.closing, marked.fewer, ?_⟩
      intro other among
      rcases marked.aborts other among with aborted | ⟨left, same, listed⟩
      · exact .inl aborted
      · cases phase.symm.trans same
        rw [empty] at listed
        cases listed
    · split
      · exact marked
      · rename_i socket found
        have updates : l.Updates index socket socket.abort
            (l.put index socket.abort) :=
          abort_updates (sound.good index socket found)
        have moved := marked.update found updates
        refine ⟨moved.closing, moved.fewer, ?_⟩
        intro other among
        rcases moved.aborts other among with aborted | ⟨left, same, listed⟩
        · exact .inl aborted
        cases phase.symm.trans same
        by_cases own : other = index
        · refine .inl ⟨socket.abort, ?_, TCPSocket.aborted_abort socket⟩
          dsimp only
          rw [getElem?_set_eq found, if_pos own]
        · exact .inr ⟨_, rfl, Finset.mem_erase.mpr ⟨own, listed⟩⟩

theorem Marked.apply (marked : l.Marked flows) {op : Op}
    (enabled : l.Enabled op) : (l.apply op).Marked flows := by
  cases op with
  | accept =>
    refine ⟨marked.closing, marked.fewer, ?_⟩
    intro other among
    rcases marked.aborts other among with ⟨socket, at_, aborted⟩ | todo
    · refine .inl ⟨socket, ?_, aborted⟩
      have bound := (List.getElem?_eq_some_iff.mp at_).1
      change (l.sockets ++ [_])[other]? = _
      rw [List.getElem?_append_left bound]
      exact at_
    · exact .inr todo
  | advance index returns =>
    obtain ⟨socket, next, found, updates⟩ :=
      sound.updates_of_enabled enabled
    exact marked.update found updates
  | abort index =>
    unfold TCPListener.apply
    dsimp only
    split
    · exact marked
    · rename_i socket found
      exact marked.update found (abort_updates (sound.good index socket found))
  | close index => exact marked.closeStep sound index

/-- A socket that went through `addTCPFlow` is closed once `close` is done. -/
theorem Sound.closed_of_done (done : l.close = .done)
    (found : l.sockets[index]? = some old) :
    old.phase = .accepted ∨ old.connClosed = true := by
  have good := sound.good index old found
  have closing : l.flowsClosing = true := by
    rw [sound.marked, done]
    simp
  cases inside : old.phase.inMap with
  | true =>
    have among := (sound.mapped index old found).mpr inside
    rcases sound.aborts index old found among closing with
      aborted | ⟨todo, same, _⟩
    · exact .inr (good.aborts aborted)
    · cases done.symm.trans same
  | false =>
    cases phase : old.phase with
    | accepted => exact .inl rfl
    | refused => exact .inr (good.refused phase).1
    | removed => exact .inr (good.removed phase).1
    | added | overCapacity | overCounted | overClosed | handling =>
      rw [phase] at inside
      cases inside

/-- A socket that comes to `addTCPFlow` after the mark is closed there. -/
theorem Sound.closed_of_late (closing : l.flowsClosing = true)
    (found : l.sockets[index]? = some old) (accepted : old.phase = .accepted)
    (returns : Option TCPTerminalResult) :
    ∃ socket, (l.apply (.advance index returns)).sockets[index]? =
      some socket ∧ socket.phase = .refused ∧ socket.connClosed = true := by
  refine ⟨{ old.abort with phase := .refused }, ?_, rfl,
    (sound.good index old found).connClosed_abort⟩
  unfold TCPListener.apply
  dsimp only
  rw [found]
  dsimp only
  unfold advance
  rw [accepted]
  dsimp only
  unfold addTCPFlow
  rw [if_pos closing]
  dsimp only [put]
  rw [getElem?_set_eq found, if_pos rfl]

theorem limits_apply {op : Op} (enabled : l.Enabled op) :
    (l.apply op).tcpFlowLimit = l.tcpFlowLimit ∧
      (l.apply op).tcpSetupLimit = l.tcpSetupLimit := by
  cases op with
  | accept => exact ⟨rfl, rfl⟩
  | advance index returns =>
    obtain ⟨socket, next, found, updates⟩ :=
      sound.updates_of_enabled enabled
    exact ⟨updates.flowLimit, updates.setupLimit⟩
  | abort index =>
    unfold apply
    dsimp only
    split <;> exact ⟨rfl, rfl⟩
  | close index =>
    change (l.closeStep index).tcpFlowLimit = _ ∧
      (l.closeStep index).tcpSetupLimit = _
    unfold closeStep
    repeat' split
    all_goals exact ⟨rfl, rfl⟩

end

theorem reachable_limits {flowLimit setupLimit : Nat}
    (reachable : (system flowLimit setupLimit).Reachable l) :
    l.tcpFlowLimit = flowLimit ∧ l.tcpSetupLimit = setupLimit := by
  apply reachable.invariant
  · intro state initial
    rw [initial]
    exact ⟨rfl, rfl⟩
  · intro before after earlier same step
    obtain ⟨op, enabled, rfl⟩ := step
    obtain ⟨flow, setup⟩ := limits_apply (reachable_sound earlier) enabled
    exact ⟨flow.trans same.1, setup.trans same.2⟩

/-- Setup and active sockets are in the map. -/
theorem Sound.ordered (sound : l.Sound) :
    l.tcpAdmission.setupCurrent + l.tcpAdmission.activeCurrent ≤
      l.tcpAdmission.flowCurrent := by
  have each : ∀ socket ∈ l.sockets,
      socket.setupWeight + socket.activeWeight ≤ socket.flowWeight := by
    intro socket among
    obtain ⟨index, found⟩ := List.getElem?_of_mem among
    exact (sound.good index socket found).weights
  rw [sound.setup, sound.active, sound.flow, ← List.sum_map_add]
  exact List.sum_le_sum each

/-- The receive of a handler's permit does not block. -/
theorem Sound.not_blocks (sound : l.Sound) {handler : TCPHandler}
    (found : l.sockets[index]? = some old)
    (phase : old.phase = .handling handler)
    (returns : Option TCPTerminalResult) : ¬l.Blocks handler returns := by
  rintro ⟨unused, empty, _⟩
  have holds : old.phase.holdsSlot = true := by
    rw [phase]
    simpa [SocketPhase.holdsSlot] using unused
  have taken := sound.slot_taken found holds
  omega

/-- The terminal results counted for a socket, by its phase. -/
theorem Sound.results (sound : l.Sound)
    (found : l.sockets[index]? = some old) :
    old.results.length ≤ 1 ∧
      (old.phase = .removed → old.results.length = 1) := by
  have good := sound.good index old found
  refine ⟨?_, fun removed => (good.removed removed).2⟩
  cases phase : old.phase with
  | accepted => simp [good.fresh phase]
  | refused => exact (good.refused phase).2
  | added => simp [good.added (.inl phase)]
  | overCapacity => simp [good.added (.inr phase)]
  | overCounted => exact (good.overdrawn (.inl phase)).le
  | overClosed => exact (good.overdrawn (.inr phase)).le
  | removed => exact (good.removed phase).2.le
  | handling handler =>
    rw [(good.handler handler phase).2.1]
    cases handler.finished <;> decide

/-- The admission state of a listener in a run. -/
structure Admission (flowLimit setupLimit : Nat) (l : TCPListener) :
    Prop where
  flow : l.tcpAdmission.flowCurrent = l.flows.card ∧
    l.tcpAdmission.flowCurrent ≤ flowLimit
  setup : l.tcpAdmission.setupCurrent = l.tcpSetupSlots ∧
    l.tcpAdmission.setupCurrent ≤ setupLimit
  ordered : l.tcpAdmission.setupCurrent + l.tcpAdmission.activeCurrent ≤
    l.tcpAdmission.flowCurrent
  unblocked : ∀ (index : Nat) (socket : TCPSocket) (handler : TCPHandler)
    (returns : Option TCPTerminalResult),
    l.sockets[index]? = some socket → socket.phase = .handling handler →
    ¬l.Blocks handler returns
  counted : ∀ result, (l.tcpAdmission.terminals result : Int) =
    (l.sockets.map fun socket => (socket.results.count result : Int)).sum
  once : ∀ (index : Nat) (socket : TCPSocket),
    l.sockets[index]? = some socket → socket.results.length ≤ 1 ∧
      (socket.phase = .removed → socket.results.length = 1)
  closed : l.close = .done → ∀ (index : Nat) (socket : TCPSocket),
    l.sockets[index]? = some socket →
    socket.phase = .accepted ∨ socket.connClosed = true
  late : l.flowsClosing = true → ∀ (index : Nat) (socket : TCPSocket)
    (returns : Option TCPTerminalResult),
    l.sockets[index]? = some socket → socket.phase = .accepted →
    ∃ after, (l.apply (.advance index returns)).sockets[index]? =
      some after ∧ after.phase = .refused ∧ after.connClosed = true
  /-- What `close` finds in the map when it marks the listener. -/
  marks : l.close = .unbound → ∀ index later,
    (system flowLimit setupLimit).Reaches (l.apply (.close index)) later →
    later.flows ⊆ l.flows ∧ (later.close = .done → ∀ flow ∈ l.flows, ∃ socket,
        later.sockets[flow]? = some socket ∧ socket.aborted = true ∧
          socket.connClosed = true)

/-- Every reachable state of a listener keeps its admission counters, and a
shutdown closes every socket. -/
theorem listener_admission (flowLimit setupLimit : Nat) (l : TCPListener)
    (reachable : (system flowLimit setupLimit).Reachable l) :
    Admission flowLimit setupLimit l := by
  have sound := reachable_sound reachable
  obtain ⟨flowLimits, setupLimits⟩ := reachable_limits reachable
  refine ⟨⟨sound.card, ?_⟩, ⟨sound.slots, ?_⟩, sound.ordered, ?_,
    sound.terminals, ?_, ?_, ?_, ?_⟩
  · rw [← flowLimits]
    exact sound.flowLimit
  · have limit := sound.setupLimit
    rw [sound.slots, ← setupLimits]
    omega
  · intro index socket handler returns found phase
    exact sound.not_blocks found phase returns
  · intro index socket found
    exact sound.results found
  · intro done index socket found
    exact sound.closed_of_done done found
  · intro closing index socket returns found accepted
    exact sound.closed_of_late closing found accepted returns
  · intro unbound index later reaches
    have step : l.apply (.close index) =
        { l with flowsClosing := true, close := .aborting l.flows } := by
      change l.closeStep index = _
      unfold closeStep
      rw [unbound]
    have enabled : l.Enabled (.close index) := by
      unfold Enabled
      dsimp only
      rw [unbound]
      trivial
    have next : (system flowLimit setupLimit).Reachable
        (l.apply (.close index)) := reachable.next ⟨_, enabled, rfl⟩
    have start : (l.apply (.close index)).Marked l.flows := by
      rw [step]
      refine ⟨rfl, Finset.Subset.refl _, ?_⟩
      intro flow among
      exact .inr ⟨l.flows, rfl, among⟩
    have marked : later.Marked l.flows := by
      apply reaches.invariant (Marked l.flows) _ next start
      intro before after earlier marked move
      obtain ⟨op, can, rfl⟩ := move
      exact marked.apply (reachable_sound earlier) can
    refine ⟨marked.fewer, ?_⟩
    intro done flow among
    rcases marked.aborts flow among with ⟨socket, found, aborted⟩ |
      ⟨todo, same, _⟩
    · have good := (reachable_sound (next.trans reaches)).good flow socket found
      exact ⟨socket, found, aborted, good.aborts aborted⟩
    · cases done.symm.trans same

/-- Three sockets at a listener for two flows and one setup: one is relayed
and closed by the shutdown, one finds no setup slot, one no place in the
map. -/
def sampleSchedule : List Op :=
  [.accept, .advance 0 none, .advance 0 none, .accept, .advance 1 none,
    .accept, .advance 2 none, .advance 1 none, .advance 1 none,
    .advance 1 none, .advance 1 none, .advance 0 none, .advance 0 none,
    .close 0, .close 0, .close 0, .close 0, .advance 0 none,
    .advance 0 none, .advance 0 none, .advance 0 none, .advance 0 none,
    .advance 0 none, .accept, .advance 3 none]

theorem listener_admission_sample :
    ∃ l, (system 2 1).Reachable l ∧
      l.sockets.map (fun socket => (socket.phase, socket.results)) =
        [(.removed, [.committed]), (.removed, [.listenerCapacity]),
          (.refused, [.flowCapacity]), (.refused, [])] ∧
      l.close = .done ∧ Admission 2 1 l := by
  have allows : TransitionSystem.Allows Enabled apply
      (new 2 1) sampleSchedule := by
    decide +kernel
  have start : (system 2 1).Reachable (new 2 1) := .start rfl
  have steps : ∀ state op, Enabled state op →
      (system 2 1).step state (apply state op) := by
    intro state op enabled
    exact ⟨op, enabled, rfl⟩
  have reachable := start.schedule steps allows
  refine ⟨_, reachable, ?_, ?_, ?_⟩
  · decide +kernel
  · decide +kernel
  · exact listener_admission 2 1 _ reachable

end TCPListener

end QMux.Traffic
