import QMux.Mesh.RegistryCounts
import QMux.Mesh.RegistryInvariant

/-!
# Capacity and leak freedom of the registry

The counts stay within their limits and the high-water marks are exact.  A
released generation leaves the registry, unless it waits as the loser of an
arbitration, and then it leaves with the arbitration.
-/

namespace QMux.Mesh

open Support Registry

namespace Registry

variable {r next : Registry} {ref : GenRef} {arb : ArbRef} {peerID : String}
  {gone : GenRef → Prop} {names : String → Prop}

/-! ## Released generations leave -/

/-- A released loser waits for the end of its arbitration. -/
def Waiting (r : Registry) (ref : GenRef) : Prop :=
  ∃ peerID arb, r.arbitrations.get peerID = some arb ∧
    (r.arbs arb).loser = ref ∧ (r.arbs arb).loserReleased = true

theorem SameArbitrations.waiting (same : SameArbitrations r next)
    (waiting : r.Waiting ref) : next.Waiting ref := by
  unfold Waiting
  rw [same.arbs, same.arbitrations]
  exact waiting

theorem finished_waiting (sound : r.Sound)
    (live : r.arbitrations.get peerID = some arb)
    (waiting : r.Waiting ref) (owned : ref ∈ (r.finished arb).all) :
    (r.finished arb).Waiting ref := by
  obtain ⟨other, arb', live', lost, released⟩ := waiting
  by_cases same : other = peerID
  · subst same
    cases Option.some.inj (live.symm.trans live')
    unfold finished at owned
    rw [if_pos released, lost, dropLocked_all] at owned
    exact absurd rfl (Finset.ne_of_mem_erase owned)
  · refine ⟨other, arb', ?_, ?_, ?_⟩
    · rw [finished_get sound live, if_neg same]
      exact live'
    · rw [finished_arbs]
      exact lost
    · rw [finished_arbs]
      exact released

theorem Shrink.waiting (sound : r.Sound) (shrink : Shrink gone r next)
    (waiting : r.Waiting ref) (owned : ref ∈ next.all) :
    next.Waiting ref := by
  cases shrink with
  | finished peerID arb live => exact finished_waiting sound live waiting owned
  | dropped ref owned notInbound notLoser _ =>
    exact (dropLocked_sameArbitrations _ _).waiting waiting

theorem shrinks_waiting (sound : r.Sound)
    (shrinks : Relation.ReflTransGen (Shrink gone) r next)
    (waiting : r.Waiting ref) (owned : ref ∈ next.all) :
    next.Waiting ref := by
  induction shrinks with
  | refl => exact waiting
  | tail earlier last ih =>
    exact last.waiting (shrinks_sound sound earlier)
      (ih (last.stays.all owned)) owned

theorem loserReleased_waiting (arb : ArbRef) (waiting : r.Waiting ref) :
    (r.loserReleased arb).Waiting ref := by
  obtain ⟨peerID, target, live, lost, released⟩ := waiting
  refine ⟨peerID, target, live, ?_, ?_⟩
  · by_cases same : target = arb
    · subst same
      simp [loserReleased, lost]
    · simp [loserReleased, same, lost]
  · by_cases same : target = arb
    · subst same
      simp [loserReleased]
    · simp [loserReleased, same, released]

theorem Advance.waiting (sound : r.Sound)
    (advance : Advance gone names r next) (waiting : r.Waiting ref) :
    next.Waiting ref := by
  cases advance with
  | stay => exact waiting
  | clientPrepared | peerPrepared =>
    exact waiting
  | arbitrated inbound peerID entry loser opened pending unsuppressed found
      vacant prepared =>
      obtain ⟨other, arb, live, lost, released⟩ := waiting
      have different : other ≠ peerID := by
        rintro rfl
        cases unsuppressed.symm.trans live
      have older := Nat.ne_of_lt (sound.arbitrated.issued other arb live)
      refine ⟨other, arb, ?_, ?_, ?_⟩
      · exact (FiniteMap.get_put_of_ne _ _ different).trans live
      · simp [beginArbitration, older, lost]
      · simp [beginArbitration, older, released]
  | published ref key entry owned named found prepared vacant =>
    exact waiting
  | retired ref owned active _ =>
    exact (retireLocked_sameArbitrations _ _).waiting waiting
  | loserReleased peerID arb live retiring =>
    exact loserReleased_waiting arb waiting
  | loserRetired peerID arb live active =>
    exact loserReleased_waiting arb
      ((retireLocked_sameArbitrations _ _).waiting waiting)

theorem Change.waiting (sound : r.Sound) (change : Change gone names r next)
    (waiting : r.Waiting ref) (owned : ref ∈ next.all) : next.Waiting ref := by
  cases change with
  | advance advance => exact advance.waiting sound waiting
  | shrink shrinks => exact shrinks_waiting sound shrinks waiting owned
  | complete peerID arb live opened released free =>
    have still : (r.finished arb).Waiting ref :=
      finished_waiting sound live waiting owned
    exact still

theorem begun_sameArbitrations (r : Registry) :
    SameArbitrations r r.begun :=
  ⟨rfl, rfl, rfl, rfl⟩

theorem dialed_sameArbitrations (r : Registry) (peerID : String) :
    SameArbitrations r (r.dialed peerID) := by
  unfold dialed
  obtain ⟨clientHigh, peerHigh, frame⟩ := updateRoleHighWaterLocked_frame
    ((r.newGenerationLocked (outboundPeer peerID)).prepareLocked r.nextID
      (.peer peerID) "" (outboundPeer peerID)) .peer
  rw [frame]
  exact ⟨rfl, rfl, rfl, rfl⟩

theorem removeLocked_not_mem (sound : r.Sound) (ref : GenRef) :
    ref ∉ (r.removeLocked ref).all := by
  rcases removeLocked_cases sound ref with
    ⟨absent, same⟩ | ⟨_, _, dropped⟩ | ⟨peerID, arb, _, _, _, dropped⟩
  · rw [same]
    exact absent
  all_goals
    rw [dropped, dropLocked_all]
    exact Finset.notMem_erase _ _

theorem release_leaves (sound : r.Sound)
    (owned : ref ∈ (r.release ref).2.all) : (r.release ref).2.Waiting ref := by
  by_cases here : ref ∈ r.all
  · have removed := removeLocked_not_mem sound ref
    unfold release at owned ⊢
    rw [if_neg (not_not.mpr here)] at owned ⊢
    cases found : r.arbitrations.get (r.gens ref).peerID with
    | none =>
      rw [found] at owned
      exact absurd owned removed
    | some arb =>
      rw [found] at owned
      dsimp only at owned ⊢
      by_cases lost : (r.arbs arb).loser = ref
      · rw [if_pos lost]
        unfold releaseLoser
        dsimp only
        split
        · rename_i released
          exact ⟨_, arb, found, lost, released⟩
        split
        · have same := retireLocked_sameArbitrations r (r.arbs arb).loser
          refine ⟨_, arb, same.arbitrations ▸ found, ?_, ?_⟩
          · simp [lost]
          · simp
        · refine ⟨_, arb, found, ?_, ?_⟩
          · simp [lost]
          · simp
      · rw [if_neg lost] at owned
        exact absurd owned removed
  · have same : r.release ref = (false, r) := by
      unfold release
      rw [if_pos here]
    rw [same] at owned
    exact absurd owned here

theorem stopFinish_not_mem (sound : r.Sound) (closed : r.closed = true)
    {generations : List GenRef} (listed : ref ∈ generations) :
    ref ∉ (r.stopFinish generations).all := by
  induction generations generalizing r with
  | nil => cases listed
  | cons head tail ih =>
    have removed := stop_removeLocked sound closed head
    have soundTail := shrinks_sound sound removed
    have closedTail := (shrinks_stay removed).closed.trans closed
    rcases List.mem_cons.mp listed with rfl | inTail
    · intro owned
      have rest := shrinks_stopFinish soundTail closedTail tail
      exact removeLocked_not_mem sound ref ((shrinks_stay rest).all owned)
    · exact ih soundTail closedTail inTail

end Registry

/-! ## Runs -/

namespace RegistryRun

variable {state next : RegistryRun} {op : RegistryOp}
  {maxPending maxClients maxPeers : Nat}

def peak (state : RegistryRun) : Gauge → Nat
  | .pending => state.pendingPeak
  | .client => state.clientPeak
  | .peer => state.peerPeak

/-- The counts, their limits and their high-water marks. -/
structure Gauged (state : RegistryRun) (gauge : Gauge) : Prop where
  limit : state.registry.count gauge ≤ state.registry.limit gauge
  high : state.registry.count gauge ≤ state.registry.high gauge
  peak : state.registry.high gauge = state.peak gauge

theorem apply_peak (state : RegistryRun) (op : RegistryOp) (gauge : Gauge) :
    (state.apply op).peak gauge =
      max (state.peak gauge) ((state.registry.run op).count gauge) := by
  cases gauge <;> rfl

variable {gauge : Gauge}

theorem Gauged.falls (gauged : state.Gauged gauge)
    (falls : Registry.Falls state.registry (state.registry.run op) gauge) :
    (state.apply op).Gauged gauge := by
  have level := le_trans falls.count gauged.high
  refine ⟨?_, ?_, ?_⟩
  · exact le_trans falls.count (le_trans gauged.limit (le_of_eq
      falls.limit.symm))
  · exact le_trans level (le_of_eq falls.high.symm)
  · rw [gauged.peak] at level
    rw [apply_peak, max_eq_left level]
    exact falls.high.trans gauged.peak

theorem Gauged.rises (gauged : state.Gauged gauge)
    (rises : Registry.Rises state.registry (state.registry.run op) gauge) :
    (state.apply op).Gauged gauge := by
  refine ⟨?_, ?_, ?_⟩
  · exact le_trans rises.count (le_of_eq rises.limit.symm)
  · exact le_trans (le_max_right _ _) (le_of_eq rises.high.symm)
  · rw [apply_peak, ← gauged.peak]
    exact rises.high

theorem Gauged.apply (consistent : state.Consistent)
    (gauged : ∀ gauge, state.Gauged gauge) (enabled : state.Enabled op)
    (gauge : Gauge) : (state.apply op).Gauged gauge := by
  have within := fun gauge => (gauged gauge).limit
  rcases (run_effect consistent enabled).falls_or_rises consistent.sound
    within gauge with falls | rises
  · exact (gauged gauge).falls falls
  · exact (gauged gauge).rises rises

theorem gauged_of_reachable
    (reachable : (system maxPending maxClients maxPeers).Reachable state)
    (gauge : Gauge) : state.Gauged gauge := by
  revert gauge
  apply reachable.invariant
  · rintro _ rfl gauge
    cases gauge <;> exact ⟨Nat.zero_le _, le_refl _, rfl⟩
  · rintro before after reached gauged ⟨op, enabled, rfl⟩ gauge
    exact Gauged.apply (consistent_of_reachable reached) gauged enabled gauge

theorem limit_of_reachable
    (reachable : (system maxPending maxClients maxPeers).Reachable state)
    (gauge : Gauge) : state.registry.limit gauge =
      (newRegistry maxPending maxClients maxPeers).limit gauge := by
  apply reachable.invariant
  · rintro _ rfl
    rfl
  · rintro before after reached same ⟨op, enabled, rfl⟩
    have consistent := consistent_of_reachable reached
    have within := fun gauge => (gauged_of_reachable reached gauge).limit
    rcases (run_effect consistent enabled).falls_or_rises consistent.sound
      within gauge with falls | rises
    · exact falls.limit.trans same
    · exact rises.limit.trans same

/-! ### Leaks -/

/-- The registry owns only generations it has returned, and a released one
is on its way out. -/
structure Leaving (state : RegistryRun) : Prop where
  owned : state.registry.all ⊆ state.returned
  known : ∀ ref ∈ state.returned, ref < state.registry.nextID
  released : state.released ⊆ state.returned
  leaving : ∀ ref ∈ state.released, ref ∈ state.registry.all →
    state.registry.Waiting ref ∨
      ∃ generations, state.stopping = some generations ∧ ref ∈ generations

section Leaving

variable {gone : GenRef → Prop} {names : String → Prop}

theorem Leaving.change {fresh : Finset GenRef} (leaving : state.Leaving)
    (sound : state.registry.Sound)
    (change : Registry.Change gone names state.registry next.registry)
    (returned : next.returned = state.returned)
    (released : next.released = fresh ∪ state.released)
    (known : fresh ⊆ state.returned)
    (leaves : ∀ ref ∈ fresh, ref ∈ next.registry.all →
      next.registry.Waiting ref)
    (stopping : ∀ generations, state.stopping = some generations →
      ∀ ref ∈ generations, ref ∈ next.registry.all →
      next.stopping = some generations) : next.Leaving where
  owned := by
    rw [returned]
    exact change.stays.all.trans leaving.owned
  known := by
    rw [returned, change.stays.nextID]
    exact leaving.known
  released := by
    rw [returned, released]
    exact Finset.union_subset known leaving.released
  leaving := by
    intro ref inside owned
    rw [released] at inside
    rcases Finset.mem_union.mp inside with isFresh | before
    · exact .inl (leaves ref isFresh owned)
    rcases leaving.leaving ref before (change.stays.all owned) with
      waiting | ⟨generations, inProgress, listed⟩
    · exact .inl (change.waiting sound waiting owned)
    · exact .inr ⟨generations,
        stopping generations inProgress ref listed owned, listed⟩

theorem Leaving.enter (leaving : state.Leaving)
    (returned : next.returned = insert state.registry.nextID state.returned)
    (all : next.registry.all = insert state.registry.nextID state.registry.all)
    (nextID : next.registry.nextID = state.registry.nextID + 1)
    (same : Registry.SameArbitrations state.registry next.registry)
    (stopping : next.stopping = state.stopping)
    (released : next.released = state.released) : next.Leaving where
  owned := by
    rw [all, returned]
    exact Finset.insert_subset_insert _ leaving.owned
  known := by
    intro ref inside
    rw [nextID]
    rw [returned] at inside
    rcases Finset.mem_insert.mp inside with rfl | before
    · exact Nat.lt_succ_self _
    · exact Nat.lt_succ_of_lt (leaving.known ref before)
  released := by
    rw [returned, released]
    exact leaving.released.trans (Finset.subset_insert _ _)
  leaving := by
    intro ref inside owned
    rw [released] at inside
    rw [all] at owned
    rcases Finset.mem_insert.mp owned with rfl | before
    · exact absurd (leaving.known _ (leaving.released inside)) (lt_irrefl _)
    · rw [stopping]
      rcases leaving.leaving ref inside before with waiting | inSnapshot
      · exact .inl (same.waiting waiting)
      · exact .inr inSnapshot

end Leaving

section

variable (leaving : state.Leaving)

include leaving

theorem Leaving.of_same (registry : next.registry = state.registry)
    (returned : next.returned = state.returned)
    (stopping : next.stopping = state.stopping)
    (released : next.released = state.released) : next.Leaving where
  owned := by
    rw [registry, returned]
    exact leaving.owned
  known := by
    rw [registry, returned]
    exact leaving.known
  released := by
    rw [returned, released]
    exact leaving.released
  leaving := by
    rw [registry, stopping, released]
    exact leaving.leaving

theorem Leaving.beginInbound : (state.apply .beginInbound).Leaving := by
  have registry : (state.apply .beginInbound).registry =
      state.registry.beginInbound.2 := rfl
  have returned : (state.apply .beginInbound).returned =
      withReturned state.returned state.registry.beginInbound.1 := rfl
  rcases beginInbound_cases state.registry with ⟨failure, refused⟩ | ⟨_, begun⟩
  · rw [refused] at registry returned
    apply leaving.of_same registry returned
    · rfl
    · rfl
  rw [begun] at registry returned
  apply leaving.enter returned
  · rw [registry]
    rfl
  · rw [registry]
    rfl
  · rw [registry]
    exact begun_sameArbitrations _
  · rfl
  · rfl

theorem Leaving.beginOutboundPeer (peerID : String) :
    (state.apply (.beginOutboundPeer peerID)).Leaving := by
  have registry : (state.apply (.beginOutboundPeer peerID)).registry =
      (state.registry.beginOutboundPeer peerID).2 := rfl
  have returned : (state.apply (.beginOutboundPeer peerID)).returned =
      withReturned state.returned
        (state.registry.beginOutboundPeer peerID).1 := rfl
  rcases beginOutboundPeer_cases state.registry peerID with
    ⟨failure, refused⟩ | ⟨_, _, _, dialed⟩
  · rw [refused] at registry returned
    apply leaving.of_same registry returned
    · rfl
    · rfl
  rw [dialed] at registry returned
  apply leaving.enter returned
  · rw [registry]
    rfl
  · rw [registry]
    rfl
  · rw [registry]
    exact dialed_sameArbitrations _ peerID
  · rfl
  · rfl

theorem Leaving.stopFinish {generations : List GenRef}
    (consistent : state.Consistent)
    (enabled : state.Enabled (.stopFinish generations)) :
    (state.apply (.stopFinish generations)).Leaving := by
  have sound := consistent.sound
  have stopping : state.stopping = some generations := enabled
  have closed : state.registry.closed = true := by
    apply consistent.stopping
    rw [stopping]
    simp
  have shrinks := shrinks_stopFinish sound closed generations
  have change : Registry.Change _ (fun _ => True) _ _ := .shrink shrinks
  apply leaving.change sound
  · exact change
  · rfl
  · exact (Finset.empty_union _).symm
  · exact Finset.empty_subset _
  · intro ref inside
    cases inside
  · intro snapshot inProgress ref listed owned
    cases Option.some.inj (inProgress.symm.trans stopping)
    exact absurd owned (stopFinish_not_mem sound closed listed)

theorem Leaving.release (consistent : state.Consistent) (ref : GenRef) :
    (state.apply (.release ref)).Leaving := by
  have change : Registry.Change (fun _ => True) (fun _ => True) _ _ :=
    release_change consistent.sound ref fun _ => trivial
  have released : (state.apply (.release ref)).released =
      (if ref ∈ state.returned then {ref} else ∅) ∪ state.released := by
    unfold RegistryRun.apply nextReleased
    dsimp only
    split
    · rfl
    · rw [Finset.empty_union]
  apply Leaving.change leaving consistent.sound
  · exact change
  · rfl
  · exact released
  · split
    · rename_i returned
      exact Finset.singleton_subset_iff.mpr returned
    · exact Finset.empty_subset _
  · intro target inside owned
    split at inside
    · rw [Finset.mem_singleton] at inside
      subst inside
      exact release_leaves consistent.sound owned
    · cases inside
  · intro generations inProgress _ _ _
    exact inProgress

theorem Leaving.apply (consistent : state.Consistent)
    (enabled : state.Enabled op) : (state.apply op).Leaving := by
  have effect := run_effect consistent enabled
  cases op with
  | beginInbound => exact leaving.beginInbound
  | beginOutboundPeer peerID => exact leaving.beginOutboundPeer peerID
  | stopBegin generations =>
    refine ⟨leaving.owned, leaving.known, leaving.released, ?_⟩
    intro ref _ owned
    refine .inr ⟨generations, rfl, ?_⟩
    rw [← List.mem_toFinset, enabled.2.2]
    exact owned
  | stopFinish generations => exact leaving.stopFinish consistent enabled
  | release ref => exact leaving.release consistent ref
  | _ =>
    cases effect with
    | change _ change =>
      apply Leaving.change leaving consistent.sound
      · exact change
      · rfl
      · exact (Finset.empty_union _).symm
      · exact Finset.empty_subset _
      · intro ref inside
        cases inside
      · intro generations inProgress _ _ _
        exact inProgress

end

theorem leaving_of_reachable
    (reachable : (system maxPending maxClients maxPeers).Reachable state) :
    state.Leaving := by
  apply reachable.invariant
  · rintro _ rfl
    refine ⟨Finset.Subset.refl _, ?_, Finset.Subset.refl _, ?_⟩
    all_goals
      intro ref inside
      cases inside
  · rintro before after reached leaving ⟨op, enabled, rfl⟩
    exact leaving.apply (consistent_of_reachable reached) enabled

/-- Without generations there is nothing left. -/
theorem empty_of_all_released
    (reachable : (system maxPending maxClients maxPeers).Reachable state)
    (idle : state.stopping = none)
    (released : state.returned ⊆ state.released) :
    state.registry.all = ∅ ∧ state.registry.entries = ∅ ∧
      state.registry.arbitrations = ∅ := by
  have sound := (consistent_of_reachable reachable).sound
  have leaving := leaving_of_reachable reachable
  have waiting : ∀ ref ∈ state.registry.all, state.registry.Waiting ref := by
    intro ref owned
    rcases leaving.leaving ref (released (leaving.owned owned)) owned with
      waiting | ⟨generations, inProgress, _⟩
    · exact waiting
    · rw [idle] at inProgress
      cases inProgress
  -- a waiting loser has an inbound side, which would wait as well
  have none : ∀ peerID, state.registry.arbitrations.get peerID = none := by
    intro peerID
    cases live : state.registry.arbitrations.get peerID with
    | none => rfl
    | some arb =>
      have inbound : state.registry.IsInbound
          (state.registry.arbs arb).inbound := ⟨peerID, arb, live, rfl⟩
      obtain ⟨other, arb', live', lost, _⟩ :=
        waiting _ (sound.arbitrated.inbound _ inbound).1
      exact absurd inbound (sound.arbitrated.not_isInbound_of_isLoser
        ⟨other, arb', live', lost⟩)
  have all : state.registry.all = ∅ := by
    apply Finset.eq_empty_of_forall_notMem
    intro ref owned
    obtain ⟨peerID, arb, live, _⟩ := waiting ref owned
    rw [none] at live
    cases live
  refine ⟨all, ?_, FiniteMap.eq_empty_of_get_none none⟩
  apply FiniteMap.eq_empty_of_get_none
  intro key
  cases found : state.registry.entries.get key with
  | none => rfl
  | some entry =>
    obtain ⟨slot, ref, sits⟩ :=
      (sound.slotted.slotInvariant.entries key).mp ⟨entry, found⟩
    have owned := ((sound.slotted.slots key slot ref).mp sits).1
    rw [all] at owned
    cases owned

/-- The inbound generation an arbitration ends with is prepared. -/
theorem sits_transferPendingToPeerLocked (r : Registry) (ref : GenRef)
    (peerID : String) :
    (r.transferPendingToPeerLocked ref peerID).Sits (.peer peerID)
      .prepared ref := by
  unfold transferPendingToPeerLocked
  refine (sits_of_entries (updateRoleHighWaterLocked_entries _ _)).mpr ?_
  refine ⟨_, (prepareLocked_get _ _ _ _ _ _).trans (if_pos rfl), ?_⟩
  rfl

/-- In every state of every run the three counts are within their limits and
the high-water marks are their maxima; a live arbitration whose loser is
released and whose inbound side is pending completes; and nothing is left
when every generation has been released. -/
theorem registry_capacity
    (reachable : (system maxPending maxClients maxPeers).Reachable state) :
    (state.registry.countPhaseLocked .unknown .pending ≤ maxPending ∧
      state.registry.countRoleLocked .client ≤ maxClients ∧
      state.registry.countRoleLocked .peer ≤ maxPeers) ∧
    (state.registry.pendingHigh = state.pendingPeak ∧
      state.registry.clientHigh = state.clientPeak ∧
      state.registry.peerHigh = state.peerPeak) ∧
    (∀ arb, state.registry.isExactArbitrationLocked arb = true →
      state.registry.closed = false →
      (state.registry.arbs arb).loserReleased = true →
      state.registry.isExactLocked (state.registry.arbs arb).inbound
        .unknown .pending = true →
      ∃ after, state.registry.completeArbitration arb =
          (.ok (state.registry.arbs arb).inbound, after) ∧
        after.Seated (.peer (state.registry.arbs arb).peerID) .prepared
          (state.registry.arbs arb).inbound ∧
        after.Sits (.peer (state.registry.arbs arb).peerID) .prepared
          (state.registry.arbs arb).inbound) ∧
    (state.stopping = none → state.returned ⊆ state.released →
      state.registry.all = ∅ ∧ state.registry.entries = ∅ ∧
        state.registry.arbitrations = ∅) := by
  have sound := (consistent_of_reachable reachable).sound
  have gauged := gauged_of_reachable reachable
  have limits := limit_of_reachable reachable
  refine ⟨⟨?_, ?_, ?_⟩, ⟨?_, ?_, ?_⟩, ?_, ?_⟩
  · exact le_trans (gauged .pending).limit (le_of_eq (limits .pending))
  · exact le_trans (gauged .client).limit (le_of_eq (limits .client))
  · exact le_trans (gauged .peer).limit (le_of_eq (limits .peer))
  · exact (gauged .pending).peak
  · exact (gauged .client).peak
  · exact (gauged .peer).peak
  · intro arb live opened released pending
    have completed := completeArbitration_ok sound
      (gauged .peer).limit live opened released pending
    have change : Registry.Change (fun _ => True) (fun _ => True) _ _ :=
      completeArbitration_change sound arb
    have after := sound.change change
    rw [completed] at after
    refine ⟨_, completed, ?_, ?_⟩
    · apply (after.slotted.slots _ _ _).mp
      exact sits_transferPendingToPeerLocked _ _ _
    · exact sits_transferPendingToPeerLocked _ _ _
  · exact empty_of_all_released reachable

/-- The sample run when the loser of its arbitration has been released. -/
def arbitratingRun : RegistryRun :=
  (sampleCalls.take 7).foldl apply (start 2 2 1)

/-- The sample run after every generation has been released. -/
def emptiedRun : RegistryRun :=
  (sampleCalls ++ [RegistryOp.release 3, .release 0, .release 2]).foldl
    apply (start 2 2 1)

theorem registry_capacity_sample :
    (arbitratingRun.registry.countRoleLocked .peer = 1 ∧
      ∃ after, arbitratingRun.registry.completeArbitration 0 = (.ok 0, after)) ∧
    (emptiedRun.returned = {0, 1, 2, 3} ∧ emptiedRun.registry.all = ∅) := by
  have arbitrating : (system 2 2 1).Reachable arbitratingRun :=
    scheduled_reachable (by decide +kernel)
  have emptied : (system 2 2 1).Reachable emptiedRun :=
    scheduled_reachable (by decide +kernel)
  refine ⟨⟨by decide +kernel, ?_⟩, by decide +kernel, ?_⟩
  · obtain ⟨after, completed, _⟩ := (registry_capacity arbitrating).2.2.1 0
      (by decide +kernel) (by decide +kernel) (by decide +kernel)
      (by decide +kernel)
    exact ⟨after, completed⟩
  · exact ((registry_capacity emptied).2.2.2 (by decide +kernel)
      (by decide +kernel)).1

end RegistryRun

end QMux.Mesh
