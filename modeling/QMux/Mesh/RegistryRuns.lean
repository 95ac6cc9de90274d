import QMux.Mesh.RegistryChanges
import QMux.Support.Transition

/-!
# Runs of the registry

The operations as changes, and the slots of the registry in every run.
-/

namespace QMux.Mesh

open Support

namespace Registry

variable {r next : Registry} {ref : GenRef} {arb : ArbRef} {peerID : String}
  {gone : GenRef → Prop} {names : String → Prop}

/-! ## Operations -/

theorem change_stay (r : Registry) : Change gone names r r := .advance .stay

theorem pending_of_exact (exact_ : r.isExactLocked ref .unknown .pending = true)
    (free : ¬ r.IsInbound ref) : r.Pending ref := by
  unfold isExactLocked at exact_
  rw [decide_eq_true_iff] at exact_
  exact ⟨exact_.1, exact_.2.1, free⟩

theorem beginInbound_cases (r : Registry) :
    (∃ failure, r.beginInbound = (.error failure, r)) ∨
      (r.countPhaseLocked .unknown .pending < r.maxPending ∧
        r.beginInbound = (.ok r.nextID, r.begun)) := by
  unfold beginInbound
  split
  · exact .inl ⟨_, rfl⟩
  · split
    · exact .inl ⟨_, rfl⟩
    · rename_i room
      exact .inr ⟨not_le.mp room, rfl⟩

theorem has_eq_false_iff {arbitrations : FiniteMap String ArbRef} :
    ¬ arbitrations.has peerID = true ↔ arbitrations.get peerID = none := by
  unfold FiniteMap.has
  simp

theorem beginOutboundPeer_cases (r : Registry) (peerID : String) :
    (∃ failure, r.beginOutboundPeer peerID = (.error failure, r)) ∨
      (r.arbitrations.get peerID = none ∧ r.peerTaken peerID = none ∧
        r.countRoleLocked .peer < r.maxPeers ∧
        r.beginOutboundPeer peerID = (.ok r.nextID, r.dialed peerID)) := by
  unfold beginOutboundPeer
  split
  · exact .inl ⟨_, rfl⟩
  split
  · exact .inl ⟨_, rfl⟩
  rename_i unsuppressed
  split
  · exact .inl ⟨_, rfl⟩
  rename_i free
  split
  · exact .inl ⟨_, rfl⟩
  · rename_i room
    exact .inr ⟨has_eq_false_iff.mp unsuppressed, free, not_le.mp room, rfl⟩

theorem prepareClient_change (instanceID groupID : String)
    (free : ¬ r.IsInbound ref) (named : names groupID) :
    Change gone names r (r.prepareClient ref instanceID groupID).2 := by
  unfold prepareClient
  split
  · exact change_stay r
  rename_i opened
  split
  · exact change_stay r
  rename_i found
  have pending := pending_of_exact (eq_true_of_ne_false found) free
  split
  · exact change_stay r
  rename_i vacant
  split
  · exact change_stay r
  · rename_i room
    exact .advance (.clientPrepared ref instanceID groupID
      (eq_false_of_ne_true opened) pending vacant (not_le.mp room) named)

theorem preparePeer_change (peerID : String) (preferredInbound : Bool)
    (free : ¬ r.IsInbound ref) :
    Change gone names r (r.preparePeer ref peerID preferredInbound).2 := by
  unfold preparePeer
  split
  · exact change_stay r
  rename_i opened
  have isOpen := eq_false_of_ne_true opened
  split
  · exact change_stay r
  rename_i found
  have pending := pending_of_exact (eq_true_of_ne_false found) free
  split
  · exact change_stay r
  rename_i suppressed
  have unsuppressed := has_eq_false_iff.mp suppressed
  have vacant : r.peerTaken peerID = none →
      Change gone names r (if r.countRoleLocked .peer ≥ r.maxPeers
        then (Except.error RegistryError.peerCapacity, r)
        else (Except.ok (Prepared.generation ref),
          r.transferPendingToPeerLocked ref peerID)).2 := by
    intro none
    split
    · exact change_stay r
    · rename_i room
      exact .advance (.peerPrepared ref peerID isOpen pending
        unsuppressed none (not_le.mp room))
  dsimp only
  split
  · rename_i absent
    apply vacant
    unfold peerTaken
    rw [absent]
  rename_i entry present
  split
  · exact change_stay r
  rename_i noCurrent
  split
  · rename_i noPrepared
    apply vacant
    unfold peerTaken
    rw [present]
    simp [not_not.mp noCurrent, noPrepared]
  · rename_i loser prepared
    split
    · exact .advance (.arbitrated ref peerID entry loser isOpen
        pending unsuppressed present (not_not.mp noCurrent)
        prepared)
    · exact change_stay r

theorem finish_change (sound : r.Sound)
    (live : r.arbitrations.get peerID = some arb) :
    Change gone names r (r.finishArbitrationLocked arb) := by
  rw [finishArbitrationLocked_eq sound live]
  exact .shrink (.single (.finished peerID arb live))

theorem completeArbitration_change (sound : r.Sound) (arb : ArbRef) :
    Change gone names r (r.completeArbitration arb).2 := by
  unfold completeArbitration
  dsimp only
  split
  · exact change_stay r
  rename_i found
  have live : r.arbitrations.get (r.arbs arb).peerID = some arb := by
    have matched := eq_true_of_ne_false found
    unfold isExactArbitrationLocked at matched
    exact of_decide_eq_true matched
  have finish : Change gone names r _ := finish_change sound live
  split
  · exact finish
  rename_i opened
  split
  · exact finish
  rename_i ready
  simp only [not_or, Bool.not_eq_false] at ready
  split
  · exact finish
  rename_i free
  split
  · exact finish
  · rw [finishArbitrationLocked_eq sound live]
    exact .complete _ arb live (eq_false_of_ne_true opened)
      ready.2.1 (by simpa using free)

theorem shrinks_removeLocked (sound : r.Sound) (notLoser : ¬ r.IsLoser ref)
    (ends : (r.gens ref).role = .client → gone ref) :
    Relation.ReflTransGen (Shrink gone) r (r.removeLocked ref) := by
  rcases removeLocked_cases sound ref with ⟨_, same⟩ |
    ⟨owned, notInbound, dropped⟩ | ⟨peerID, arb, _, live, side, dropped⟩
  · rw [same]
  · rw [dropped]
    exact .single (.dropped ref owned notInbound notLoser ends)
  · subst side
    rw [dropped]
    obtain ⟨noInbound, noLoser⟩ := finished_inbound_apart sound live
    obtain ⟨owned, same⟩ := finished_inbound sound live
    exact .tail (.single (.finished peerID arb live))
      (.dropped _ owned noInbound noLoser (by rw [same]; exact ends))

theorem cancelArbitration_change (sound : r.Sound) (arb : ArbRef)
    (abortInbound : Bool) :
    Change gone names r (r.cancelArbitration arb abortInbound).2 := by
  unfold cancelArbitration
  split
  · exact change_stay r
  rename_i found
  have live : r.arbitrations.get (r.arbs arb).peerID = some arb := by
    have matched := eq_true_of_ne_false found
    unfold isExactArbitrationLocked at matched
    exact of_decide_eq_true matched
  dsimp only
  split
  · rw [finishArbitrationLocked_eq sound live]
    have noLoser := (finished_inbound_apart sound live).2
    refine .shrink (.trans (.single (.finished _ arb live))
      (shrinks_removeLocked (sound.finished live) noLoser ?_))
    intro client
    rw [(finished_inbound sound live).2,
      (sound.arbitrated.inbound _ ⟨_, arb, live, rfl⟩).2] at client
    cases client
  · exact finish_change sound live

theorem publishLocked_change (owned : ref ∈ r.all) :
    Change gone names r (r.publishLocked ref).2 := by
  rcases publishLocked_cases r ref with
    same | ⟨key, entry, named, found, prepared, vacant, published⟩
  · rw [same]
    exact change_stay r
  · rw [published]
    exact .advance (.published ref key entry owned named found prepared vacant)

theorem commitReceiver_change (r : Registry) (ref : GenRef) :
    Change gone names r (r.commitReceiver ref).2 := by
  unfold commitReceiver
  split
  · exact change_stay r
  · rename_i found
    unfold isExactLocked at found
    simp only [Bool.not_eq_false, decide_eq_true_eq] at found
    exact publishLocked_change found.1

theorem commitOutboundPeer_change (r : Registry) (ref : GenRef) :
    Change gone names r (r.commitOutboundPeer ref).2 := by
  unfold commitOutboundPeer
  split
  · exact change_stay r
  rename_i found
  unfold isExactLocked at found
  simp only [not_or, Bool.not_eq_false, decide_eq_true_eq] at found
  have published : Change gone names r _ := publishLocked_change found.2.1
  split
  · split
    · exact change_stay r
    · exact published
  · exact published

theorem beginRetire_change (r : Registry) (ref : GenRef)
    (ends : (r.gens ref).role = .client → gone ref) :
    Change gone names r (r.beginRetire ref).2 := by
  unfold beginRetire
  split
  · exact change_stay r
  rename_i absent
  have owned := not_not.mp absent
  split
  · rename_i phase
    exact .advance (.retired ref owned (by simp [phase]) ends)
  · rename_i phase
    exact .advance (.retired ref owned (by simp [phase]) ends)
  all_goals exact change_stay r

theorem Slotted.active (slotted : r.Slotted) (owned : ref ∈ r.all)
    {key : EntryKey} (named : (r.gens ref).key = some key)
    (notRetiring : (r.gens ref).phase ≠ .retiring) :
    (r.gens ref).phase ∈ [Phase.prepared, .current] := by
  rcases slotted.phased ref owned with ⟨unknown, _⟩ | ⟨_, inSlot⟩
  · simp [Generation.key, unknown] at named
  simp only [List.mem_cons, List.not_mem_nil, or_false] at inSlot ⊢
  rcases inSlot with prepared | current | retiring
  · exact .inl prepared
  · exact .inr current
  · exact absurd retiring notRetiring

theorem releaseLoser_change (sound : r.Sound)
    (live : r.arbitrations.get peerID = some arb) :
    Change gone names r (r.releaseLoser arb).2 := by
  unfold releaseLoser
  dsimp only
  split
  · exact change_stay r
  split
  · rename_i notRetiring
    obtain ⟨owned, named⟩ := sound.arbitrated.loser peerID arb live
    have active := sound.slotted.active owned named notRetiring
    have advance : Advance gone names r _ :=
      .loserRetired peerID arb live active
    unfold loserReleased at advance
    rw [retireLocked_arbs] at advance
    exact .advance advance
  · rename_i retiring
    exact .advance (.loserReleased peerID arb live (not_not.mp retiring))

theorem release_change (sound : r.Sound) (ref : GenRef)
    (ends : (r.gens ref).role = .client → gone ref) :
    Change gone names r (r.release ref).2 := by
  unfold release
  split
  · exact change_stay r
  split
  · rename_i arb live
    split
    · exact releaseLoser_change sound live
    rename_i notLost
    apply Change.shrink (shrinks_removeLocked sound ?_ ends)
    intro loser
    obtain ⟨arb', live', lost⟩ := sound.arbitrated.loser_iff.mp loser
    cases Option.some.inj (live.symm.trans live')
    exact notLost lost
  · rename_i none
    apply Change.shrink (shrinks_removeLocked sound ?_ ends)
    intro loser
    obtain ⟨arb', live', _⟩ := sound.arbitrated.loser_iff.mp loser
    cases none.symm.trans live'

/-- What changes leave: `Stop`, the numbers given out, and no new
generation. -/
structure Stays (r next : Registry) : Prop where
  closed : next.closed = r.closed
  nextID : next.nextID = r.nextID
  all : next.all ⊆ r.all

theorem Stays.trans {later : Registry} (first : r.Stays next)
    (second : next.Stays later) : r.Stays later :=
  ⟨second.closed.trans first.closed, second.nextID.trans first.nextID,
    second.all.trans first.all⟩

theorem stays_retireLocked (r : Registry) (ref : GenRef) :
    r.Stays (r.retireLocked ref) := by
  obtain ⟨entries, frame⟩ := retireLocked_frame r ref
  rw [frame]
  exact ⟨rfl, rfl, Finset.Subset.refl _⟩

theorem stays_dropLocked (r : Registry) (ref : GenRef) :
    r.Stays (r.dropLocked ref) := by
  obtain ⟨entries, frame⟩ := dropLocked_frame r ref
  rw [frame]
  exact ⟨rfl, rfl, Finset.erase_subset _ _⟩

theorem stays_finished (r : Registry) (arb : ArbRef) :
    r.Stays (r.finished arb) := by
  have ended : r.Stays (r.ended arb) := ⟨rfl, rfl, Finset.Subset.refl _⟩
  unfold finished
  split
  · exact ended.trans (stays_dropLocked _ _)
  · exact ended

theorem Shrink.stays (shrink : Shrink gone r next) : r.Stays next := by
  cases shrink with
  | finished peerID arb live => exact stays_finished r arb
  | dropped ref owned notInbound notLoser _ => exact stays_dropLocked r ref

theorem shrinks_stay (shrinks : Relation.ReflTransGen (Shrink gone) r next) :
    r.Stays next := by
  induction shrinks with
  | refl => exact ⟨rfl, rfl, Finset.Subset.refl _⟩
  | tail _ last ih => exact ih.trans last.stays

theorem shrinks_sound (sound : r.Sound)
    (shrinks : Relation.ReflTransGen (Shrink gone) r next) : next.Sound := by
  induction shrinks with
  | refl => exact sound
  | tail _ last ih => exact ih.shrink last

theorem stop_removeLocked (sound : r.Sound) (closed : r.closed = true)
    (ref : GenRef) :
    Relation.ReflTransGen (Shrink fun _ => True) r (r.removeLocked ref) := by
  apply shrinks_removeLocked sound _ fun _ => trivial
  rintro ⟨peerID, arb, live, _⟩
  rw [sound.arbitrated.closed closed, FiniteMap.get_empty] at live
  cases live

theorem shrinks_stopFinish (sound : r.Sound) (closed : r.closed = true)
    (generations : List GenRef) :
    Relation.ReflTransGen (Shrink fun _ => True) r
      (r.stopFinish generations) := by
  unfold stopFinish
  induction generations generalizing r with
  | nil => exact .refl
  | cons head tail ih =>
    have removed := stop_removeLocked sound closed head
    apply removed.trans
    apply ih (shrinks_sound sound removed)
    rw [(shrinks_stay removed).closed]
    exact closed

end Registry

namespace Registry

variable {r next : Registry} {gone : GenRef → Prop} {names : String → Prop}

theorem Advance.stays (advance : Advance gone names r next) :
    r.Stays next := by
  cases advance with
  | retired ref owned active _ => exact stays_retireLocked r ref
  | loserRetired peerID arb live active =>
    have retired := stays_retireLocked r (r.arbs arb).loser
    exact ⟨retired.closed, retired.nextID, retired.all⟩
  | _ => exact ⟨rfl, rfl, Finset.Subset.refl _⟩

theorem Change.stays (change : Change gone names r next) : r.Stays next := by
  cases change with
  | advance advance => exact advance.stays
  | shrink shrinks => exact shrinks_stay shrinks
  | complete peerID arb live opened released free =>
    have finished := stays_finished r arb
    exact ⟨finished.closed, finished.nextID, finished.all⟩

theorem newRegistry_sound (maxPending maxClients maxPeers : Nat) :
    (newRegistry maxPending maxClients maxPeers).Sound := by
  have noEntry : ∀ key, (newRegistry maxPending maxClients maxPeers
      ).entries.get key = none := FiniteMap.get_empty
  have noArbitration : ∀ peerID, (newRegistry maxPending maxClients maxPeers
      ).arbitrations.get peerID = none := FiniteMap.get_empty
  refine ⟨?_, ?_⟩
  · constructor
    · intro ref owned
      cases owned
    · intro ref owned
      cases owned
    · intro key phase ref
      constructor
      · rintro ⟨entry, found, _⟩
        rw [noEntry] at found
        cases found
      · rintro ⟨owned, _⟩
        cases owned
    · intro key entry found
      rw [noEntry] at found
      cases found
    · intro ref owned
      cases owned
  · exact .of_none noArbitration

end Registry

/-! ## Runs -/

/-- Calls on one registry; `Stop` is its two sections, each with the snapshot
of the first. -/
inductive RegistryOp where
  | beginInbound
  | beginOutboundPeer (peerID : String)
  | prepareClient (pending : GenRef) (instanceID groupID : String)
  | preparePeer (pending : GenRef) (peerID : String)
      (preferredInbound : Bool)
  | completeArbitration (arb : ArbRef)
  | cancelArbitration (arb : ArbRef) (abortInbound : Bool)
  | commitReceiver (ref : GenRef)
  | commitOutboundPeer (ref : GenRef)
  | beginRetire (ref : GenRef)
  | release (ref : GenRef)
  | stopBegin (generations : List GenRef)
  | stopFinish (generations : List GenRef)

/-- The clients an operation ends. -/
def RegistryOp.Ends : RegistryOp → GenRef → Prop
  | .beginRetire ref, g => g = ref
  | .release ref, g => g = ref
  | .stopFinish _, _ => True
  | _, _ => False

/-- The group an operation prepares a client for. -/
def RegistryOp.Names : RegistryOp → String → Prop
  | .prepareClient _ _ groupID, group => group = groupID
  | _, _ => False

def Registry.run (r : Registry) : RegistryOp → Registry
  | .beginInbound => r.beginInbound.2
  | .beginOutboundPeer peerID => (r.beginOutboundPeer peerID).2
  | .prepareClient pending instanceID groupID =>
    (r.prepareClient pending instanceID groupID).2
  | .preparePeer pending peerID preferredInbound =>
    (r.preparePeer pending peerID preferredInbound).2
  | .completeArbitration arb => (r.completeArbitration arb).2
  | .cancelArbitration arb abortInbound =>
    (r.cancelArbitration arb abortInbound).2
  | .commitReceiver ref => (r.commitReceiver ref).2
  | .commitOutboundPeer ref => (r.commitOutboundPeer ref).2
  | .beginRetire ref => (r.beginRetire ref).2
  | .release ref => (r.release ref).2
  | .stopBegin _ => r.stopBegin
  | .stopFinish generations => r.stopFinish generations

namespace Registry

variable {r next : Registry} {op : RegistryOp}

/-- What an operation does to the registry. -/
inductive Effect (r : Registry) : RegistryOp → Registry → Prop where
  | change (op : RegistryOp) {after : Registry}
      (change : Change op.Ends op.Names r after) : Effect r op after
  | inbound
      (room : r.countPhaseLocked .unknown .pending < r.maxPending) :
      Effect r .beginInbound r.begun
  | outbound (peerID : String)
      (unsuppressed : r.arbitrations.get peerID = none)
      (free : r.peerTaken peerID = none)
      (room : r.countRoleLocked .peer < r.maxPeers) :
      Effect r (.beginOutboundPeer peerID) (r.dialed peerID)
  | stop (generations : List GenRef) :
      Effect r (.stopBegin generations) r.stopBegin

theorem Effect.sound (effect : r.Effect op next) (sound : r.Sound) :
    next.Sound := by
  cases effect with
  | change op change => exact sound.change change
  | inbound room => exact sound.begun
  | outbound peerID unsuppressed free room =>
    exact sound.dialed unsuppressed free
  | stop generations => exact sound.stopBegin

theorem Effect.closed (effect : r.Effect op next) (closed : r.closed = true) :
    next.closed = true := by
  cases effect with
  | change op change => exact change.stays.closed.trans closed
  | inbound | outbound => exact closed
  | stop generations => rfl

theorem Effect.group {instanceID : String} {entry after : Entry}
    (effect : r.Effect op next)
    (before : r.entries.get (.client instanceID) = some entry)
    (found : next.entries.get (.client instanceID) = some after) :
    after.groupID = entry.groupID := by
  have unchanged : r.entries.get (.client instanceID) = some after →
      after.groupID = entry.groupID := by
    intro same
    cases Option.some.inj (before.symm.trans same)
    rfl
  cases effect with
  | change op change => exact change.group before found
  | inbound | stop => exact unchanged found
  | outbound peerID unsuppressed free room => exact dialed_group before found

end Registry

/-- A registry in use: the snapshot of a `Stop` between its sections, the
generations that were returned, those of them that were released since, and
the largest counts so far. -/
structure RegistryRun where
  registry : Registry
  stopping : Option (List GenRef)
  returned : Finset GenRef
  released : Finset GenRef
  pendingPeak : Nat
  clientPeak : Nat
  peerPeak : Nat

namespace RegistryRun

def start (maxPending maxClients maxPeers : Nat) : RegistryRun :=
  ⟨.newRegistry maxPending maxClients maxPeers, none, ∅, ∅, 0, 0, 0⟩

/-- The inbound side of a live arbitration is not prepared a second time,
and only the first `Stop` goes on; a later one waits for it. -/
def Enabled (state : RegistryRun) : RegistryOp → Prop
  | .prepareClient pending _ _ =>
    state.registry.arbitrationForInboundLocked pending = none
  | .preparePeer pending _ _ =>
    state.registry.arbitrationForInboundLocked pending = none
  | .stopBegin generations =>
    state.registry.closed = false ∧ generations.Nodup ∧
      generations.toFinset = state.registry.all
  | .stopFinish generations => state.stopping = some generations
  | _ => True

instance (state : RegistryRun) (op : RegistryOp) :
    Decidable (state.Enabled op) := by
  cases op <;> dsimp only [Enabled] <;> infer_instance

def nextStopping (stopping : Option (List GenRef)) :
    RegistryOp → Option (List GenRef)
  | .stopBegin generations => some generations
  | .stopFinish _ => none
  | _ => stopping

def withReturned (returned : Finset GenRef) :
    Except RegistryError GenRef → Finset GenRef
  | .ok ref => insert ref returned
  | .error _ => returned

def nextReturned (r : Registry) (returned : Finset GenRef) :
    RegistryOp → Finset GenRef
  | .beginInbound => withReturned returned r.beginInbound.1
  | .beginOutboundPeer peerID =>
    withReturned returned (r.beginOutboundPeer peerID).1
  | _ => returned

def nextReleased (returned released : Finset GenRef) :
    RegistryOp → Finset GenRef
  | .release ref => if ref ∈ returned then insert ref released else released
  | _ => released

def apply (state : RegistryRun) (op : RegistryOp) : RegistryRun :=
  let after := state.registry.run op
  { registry := after
    stopping := nextStopping state.stopping op
    returned := nextReturned state.registry state.returned op
    released := nextReleased state.returned state.released op
    pendingPeak := max state.pendingPeak
      (after.countPhaseLocked .unknown .pending)
    clientPeak := max state.clientPeak (after.countRoleLocked .client)
    peerPeak := max state.peerPeak (after.countRoleLocked .peer) }

def Step (state next : RegistryRun) : Prop :=
  ∃ op, state.Enabled op ∧ next = state.apply op

/-- All runs of a registry with the given limits. -/
def system (maxPending maxClients maxPeers : Nat) :
    TransitionSystem RegistryRun where
  initial state := state = start maxPending maxClients maxPeers
  step := Step

variable {state next : RegistryRun} {op : RegistryOp}
  {maxPending maxClients maxPeers : Nat}

/-- What holds of a registry in every run. -/
structure Consistent (state : RegistryRun) : Prop where
  sound : state.registry.Sound
  stopping : state.stopping ≠ none → state.registry.closed = true

theorem run_effect (consistent : state.Consistent)
    (enabled : state.Enabled op) :
    state.registry.Effect op (state.registry.run op) := by
  have sound := consistent.sound
  have notInbound : ∀ {ref}, state.registry.arbitrationForInboundLocked ref =
    none → ¬ state.registry.IsInbound ref :=
    sound.arbitrated.arbitrationForInbound_none.mp
  cases op with
  | beginInbound =>
    rcases Registry.beginInbound_cases state.registry with
      ⟨failure, refused⟩ | ⟨room, begun⟩
    · rw [show state.registry.run .beginInbound = state.registry from
        congrArg Prod.snd refused]
      exact .change _ (Registry.change_stay _)
    · rw [show state.registry.run .beginInbound = state.registry.begun from
        congrArg Prod.snd begun]
      exact .inbound room
  | beginOutboundPeer peerID =>
    rcases Registry.beginOutboundPeer_cases state.registry peerID with
      ⟨failure, refused⟩ | ⟨unsuppressed, free, room, dialed⟩
    · rw [show state.registry.run (.beginOutboundPeer peerID) =
        state.registry from congrArg Prod.snd refused]
      exact .change _ (Registry.change_stay _)
    · rw [show state.registry.run (.beginOutboundPeer peerID) =
        state.registry.dialed peerID from congrArg Prod.snd dialed]
      exact .outbound peerID unsuppressed free room
  | prepareClient pending instanceID groupID =>
    exact .change _ (Registry.prepareClient_change _ _ (notInbound enabled) rfl)
  | preparePeer pending peerID preferredInbound =>
    exact .change _ (Registry.preparePeer_change _ _ (notInbound enabled))
  | completeArbitration arb =>
    exact .change _ (Registry.completeArbitration_change sound arb)
  | cancelArbitration arb abortInbound =>
    exact .change _ (Registry.cancelArbitration_change sound arb abortInbound)
  | commitReceiver ref =>
    exact .change _ (Registry.commitReceiver_change _ ref)
  | commitOutboundPeer ref =>
    exact .change _ (Registry.commitOutboundPeer_change _ ref)
  | beginRetire ref =>
    exact .change _ (Registry.beginRetire_change _ ref fun _ => rfl)
  | release ref =>
    exact .change _ (Registry.release_change sound ref fun _ => rfl)
  | stopBegin generations => exact .stop generations
  | stopFinish generations =>
    have closed : state.registry.closed = true := by
      apply consistent.stopping
      rw [show state.stopping = some generations from enabled]
      simp
    exact .change _ (.shrink
      (Registry.shrinks_stopFinish sound closed generations))

theorem Consistent.apply (consistent : state.Consistent)
    (enabled : state.Enabled op) : (state.apply op).Consistent := by
  have effect := run_effect consistent enabled
  refine ⟨effect.sound consistent.sound, ?_⟩
  intro stopping
  cases op with
  | stopBegin generations => rfl
  | stopFinish generations => exact absurd rfl stopping
  | _ => exact effect.closed (consistent.stopping stopping)

theorem consistent_of_reachable
    (reachable : (system maxPending maxClients maxPeers).Reachable state) :
    state.Consistent := by
  apply reachable.invariant
  · rintro _ rfl
    exact ⟨Registry.newRegistry_sound _ _ _, fun stopping =>
      absurd rfl stopping⟩
  · rintro before after _ consistent ⟨op, enabled, rfl⟩
    exact consistent.apply enabled

end RegistryRun

end QMux.Mesh
