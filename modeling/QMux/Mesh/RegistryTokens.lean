import QMux.Mesh.RegistryRuns

/-!
# Calls with arbitrary tokens

The runs of `RegistryRun` use the inbound side of an arbitration once.  Some
properties hold even without that, for any calls on any tokens in any order.
Such a property is shown for the edits an operation is made of; the rule
below lifts it to the operations.  A `Permit` says which dials, peers,
publications and removals occur.  The first such property is that identities
and directions are never mixed up: a generation without a role is inbound,
the loser of an arbitration is an outbound generation of that peer.
-/

namespace QMux.Mesh

open Function Support

/-- What the calls of a run may do: dial a peer, prepare a generation for a
peer, publish a generation, each in a given registry, and retire or remove
one. -/
structure Permit where
  dials : Registry → String → Prop
  joins : Registry → GenRef → String → Bool → Prop
  publishes : Registry → GenRef → Prop
  ends : GenRef → Prop

namespace Permit

/-- Everything may happen. -/
def all : Permit :=
  ⟨fun _ _ => True, fun _ _ _ _ => True, fun _ _ => True, fun _ => True⟩

end Permit

/-- The operation stays within the permit. -/
def RegistryOp.Within (permit : Permit) (r : Registry) : RegistryOp → Prop
  | .beginOutboundPeer peerID => permit.dials r peerID
  | .preparePeer pending peerID preferredInbound =>
    permit.joins r pending peerID preferredInbound
  | .cancelArbitration arb abortInbound =>
    abortInbound = true → r.isExactArbitrationLocked arb = true →
      permit.ends (r.arbs arb).inbound
  | .commitReceiver ref => permit.publishes r ref
  | .commitOutboundPeer ref => permit.publishes r ref
  | .beginRetire ref => permit.ends ref
  | .release ref => permit.ends ref
  | .stopFinish generations => ∀ ref ∈ generations, permit.ends ref
  | _ => True

namespace Registry

variable {permit : Permit} {P : Registry → Prop} {r next : Registry}
  {ref : GenRef} {arb : ArbRef}

/-- What removals leave: identities and directions, and all arbitrations
that were made. -/
structure Pruned (r next : Registry) : Prop where
  nextID : next.nextID = r.nextID
  arbs : next.arbs = r.arbs
  gens : ∀ ref, next.gens ref = r.gens ref ∨
    next.gens ref = { r.gens ref with phase := .done }
  sits : ∀ key slot ref, next.Sits key slot ref → r.Sits key slot ref

theorem prepareLocked_gens (r : Registry) (ref : GenRef) (key : EntryKey)
    (groupID : String) (generation : Generation) :
    (r.prepareLocked ref key groupID generation).gens ref = generation :=
  update_self _ _ _

theorem dialed_gens (r : Registry) (peerID : String) :
    (r.dialed peerID).gens r.nextID = outboundPeer peerID :=
  update_self _ _ _

theorem begun_gens (r : Registry) : r.begun.gens r.nextID = inboundPending :=
  update_self _ _ _

theorem retireLocked_gens (r : Registry) (ref : GenRef) :
    (r.retireLocked ref).gens ref = { r.gens ref with phase := .retiring } := by
  obtain ⟨entries, frame⟩ := retireLocked_frame r ref
  rw [frame]
  exact update_self _ _ _

theorem dropLocked_gens (r : Registry) (ref : GenRef) :
    (r.dropLocked ref).gens ref = { r.gens ref with phase := .done } := by
  obtain ⟨entries, frame⟩ := dropLocked_frame r ref
  rw [frame]
  exact update_self _ _ _

theorem published_gens (r : Registry) (ref : GenRef) (key : EntryKey)
    (entry : Entry) : (r.published ref key entry).gens ref =
      { r.gens ref with phase := .current } :=
  update_self _ _ _

theorem Pruned.refl (r : Registry) : r.Pruned r :=
  ⟨rfl, rfl, fun _ => .inl rfl, fun _ _ _ => id⟩

theorem Pruned.role (pruned : r.Pruned next) (ref : GenRef) :
    (next.gens ref).role = (r.gens ref).role := by
  rcases pruned.gens ref with same | done
  · rw [same]
  · rw [done]

theorem Pruned.direction (pruned : r.Pruned next) (ref : GenRef) :
    (next.gens ref).direction = (r.gens ref).direction := by
  rcases pruned.gens ref with same | done
  · rw [same]
  · rw [done]

variable {key : EntryKey} {slot : Phase} {other : GenRef} {peerID : String}

theorem sits_of_sits_dropLocked
    (sits : (r.dropLocked ref).Sits key slot other) :
    r.Sits key slot other := by
  rw [sits_iff_of_get (dropLocked_get r ref key)] at sits
  split at sits
  · obtain ⟨entry, found, holds⟩ := sits
    obtain ⟨before, foundBefore, rfl⟩ := Option.map_eq_some_iff.mp
      (Option.filter_eq_some_iff.mp found).1
    rw [Entry.holds_dropRetiring, Entry.holds_unlink] at holds
    exact ⟨before, foundBefore, holds.1.1⟩
  · exact sits

theorem sits_of_sits_retireLocked (active : slot ≠ .retiring)
    (sits : (r.retireLocked ref).Sits key slot other) :
    r.Sits key slot other := by
  rw [sits_iff_of_get (retireLocked_get r ref key)] at sits
  split at sits
  · obtain ⟨entry, found, holds⟩ := sits
    obtain ⟨before, foundBefore, rfl⟩ := Option.map_eq_some_iff.mp found
    rw [Entry.holds_retire, Entry.holds_unlink] at holds
    rcases holds with kept | retiring
    · exact ⟨before, foundBefore, kept.1⟩
    · exact absurd retiring.1 active
  · exact sits

theorem Pruned.dropLocked (pruned : r.Pruned next) (ref : GenRef) :
    r.Pruned (next.dropLocked ref) := by
  obtain ⟨entries, frame⟩ := dropLocked_frame next ref
  rw [frame]
  refine ⟨pruned.nextID, pruned.arbs, ?_, ?_⟩
  rotate_left
  · intro key slot other sits
    rw [← frame] at sits
    exact pruned.sits key slot other (sits_of_sits_dropLocked sits)
  intro other
  by_cases same : other = ref
  · subst same
    right
    dsimp only
    rw [update_self]
    rcases pruned.gens other with before | done
    · rw [before]
    · rw [done]
  · dsimp only
    rw [update_of_ne same]
    exact pruned.gens other

theorem Pruned.ended (pruned : r.Pruned next) (arb : ArbRef) :
    r.Pruned (next.ended arb) :=
  ⟨pruned.nextID, pruned.arbs, pruned.gens, pruned.sits⟩

/-- The edits keep a property.  The losers of live arbitrations are among
the generations that may be removed. -/
structure KeptBy (permit : Permit) (P : Registry → Prop) : Prop where
  counters : ∀ {r}, P r → ∀ pendingHigh clientHigh peerHigh, P { r with
    pendingHigh := pendingHigh
    clientHigh := clientHigh
    peerHigh := peerHigh }
  enter : ∀ {r}, P r → P (r.newGenerationLocked inboundPending)
  dial : ∀ {r}, P r → ∀ peerID, permit.dials r peerID →
    r.peerTaken peerID = none →
    P ((r.newGenerationLocked (outboundPeer peerID)).prepareLocked r.nextID
      (.peer peerID) "" (outboundPeer peerID))
  client : ∀ {r}, P r → ∀ ref instanceID groupID, ref ∈ r.all →
    (r.gens ref).role = .unknown → r.clientTaken instanceID groupID = none →
    P (r.prepareLocked ref (.client instanceID) groupID
      { r.gens ref with
        role := .client
        phase := .prepared
        instanceID := instanceID
        groupID := groupID })
  join : ∀ {r}, P r → ∀ ref peerID preferred,
    permit.joins r ref peerID preferred → ref ∈ r.all →
    (r.gens ref).role = .unknown → r.peerTaken peerID = none →
    P (r.prepareLocked ref (.peer peerID) ""
      { r.gens ref with
        role := .peer, phase := .prepared, peerID := peerID })
  arbitrate : ∀ {r}, P r → ∀ ref peerID entry loser,
    permit.joins r ref peerID true → ref ∈ r.all →
    (r.gens ref).role = .unknown →
    r.entries.get (.peer peerID) = some entry →
    entry.prepared = some loser → (r.gens loser).direction = .outbound →
    P (r.beginArbitration ref loser peerID)
  /-- The arbitration ends and its inbound side is prepared; the loser may
  have been removed in between. -/
  complete : ∀ {r ended}, P r → P ended → r.Pruned ended → ∀ arb,
    r.arbitrations.get (r.arbs arb).peerID = some arb →
    (r.arbs arb).inbound ∈ r.all →
    (r.gens (r.arbs arb).inbound).role = .unknown →
    r.peerTaken (r.arbs arb).peerID = none →
    P (ended.prepareLocked (r.arbs arb).inbound (.peer (r.arbs arb).peerID) ""
      { ended.gens (r.arbs arb).inbound with
        role := .peer, phase := .prepared, peerID := (r.arbs arb).peerID })
  publish : ∀ {r}, P r → ∀ ref key entry, permit.publishes r ref →
    ref ∈ r.all → (r.gens ref).key = some key → r.entries.get key = some entry →
    entry.prepared = some ref → entry.current = none →
    P (r.published ref key entry)
  retire : ∀ {r}, P r → ∀ ref, permit.ends ref → P (r.retireLocked ref)
  drop : ∀ {r}, P r → ∀ ref, permit.ends ref → P (r.dropLocked ref)
  loser : ∀ {r}, P r → ∀ peerID arb, r.arbitrations.get peerID = some arb →
    permit.ends (r.arbs arb).loser
  released : ∀ {r}, P r → ∀ peerID arb,
    r.arbitrations.get peerID = some arb → P (r.loserReleased arb)
  ended : ∀ {r}, P r → ∀ arb, P (r.ended arb)
  stop : ∀ {r}, P r → P r.stopBegin

/-! ## Removal -/

theorem live_of_exact (found : r.isExactArbitrationLocked arb = true) :
    r.arbitrations.get (r.arbs arb).peerID = some arb :=
  of_decide_eq_true found

theorem live_of_arbitrationForInbound
    (found : r.arbitrationForInboundLocked ref = some arb) :
    r.arbitrations.get (r.arbs arb).peerID = some arb := by
  have matched := List.find?_some found
  exact live_of_exact (of_decide_eq_true matched).1

theorem removeWithin_keeps (permit : Permit)
    (drop : ∀ {r}, P r → ∀ ref, permit.ends ref → P (r.dropLocked ref))
    (loser : ∀ {r}, P r → ∀ peerID arb,
      r.arbitrations.get peerID = some arb → permit.ends (r.arbs arb).loser)
    (ended : ∀ {r}, P r → ∀ arb, P (r.ended arb)) (depth : Nat)
    (holds : P r) (ends : permit.ends ref) : P (removeWithin depth r ref) := by
  induction depth generalizing r ref with
  | zero => exact holds
  | succ depth ih =>
    unfold removeWithin
    split
    · exact holds
    apply drop _ ref ends
    split
    · exact holds
    rename_i arb found
    have live := live_of_arbitrationForInbound found
    unfold finishArbitrationWith
    dsimp only
    split
    · exact ih (ended holds arb) (loser holds _ arb live)
    · exact ended holds arb

theorem KeptBy.removeLocked (kept : KeptBy permit P) (holds : P r)
    (ends : permit.ends ref) : P (r.removeLocked ref) :=
  removeWithin_keeps permit kept.drop kept.loser kept.ended _ holds ends

theorem KeptBy.finishArbitrationLocked (kept : KeptBy permit P) (holds : P r)
    (live : r.arbitrations.get (r.arbs arb).peerID = some arb) :
    P (r.finishArbitrationLocked arb) := by
  unfold Registry.finishArbitrationLocked finishArbitrationWith
  dsimp only
  split
  · exact kept.removeLocked (kept.ended holds arb) (kept.loser holds _ arb live)
  · exact kept.ended holds arb

theorem Pruned.finishArbitrationLocked (r : Registry) (arb : ArbRef) :
    r.Pruned (r.finishArbitrationLocked arb) := by
  unfold Registry.finishArbitrationLocked finishArbitrationWith
  dsimp only
  split
  · exact removeWithin_keeps
      .all (fun pruned ref _ => pruned.dropLocked ref) (fun _ _ _ _ => trivial)
      (fun pruned arb => pruned.ended arb) _ ((Pruned.refl r).ended arb) trivial
  · exact (Pruned.refl r).ended arb

/-! ## The operations -/

theorem KeptBy.updateRoleHighWaterLocked (kept : KeptBy permit P)
    (holds : P r) (role : Role) : P (r.updateRoleHighWaterLocked role) := by
  obtain ⟨clientHigh, peerHigh, frame⟩ := updateRoleHighWaterLocked_frame r role
  rw [frame]
  exact kept.counters holds r.pendingHigh clientHigh peerHigh

theorem exact_iff {role : Role} {phase : Phase} :
    r.isExactLocked ref role phase = true ↔ ref ∈ r.all ∧
      (r.gens ref).role = role ∧ (r.gens ref).phase = phase :=
  decide_eq_true_iff

section

variable (kept : KeptBy permit P)

include kept

variable (holds : P r)

include holds

theorem KeptBy.beginInbound : P r.beginInbound.2 := by
  rcases beginInbound_cases r with ⟨failure, refused⟩ | ⟨_, begun⟩
  · rw [refused]
    exact holds
  · rw [begun]
    exact kept.counters (kept.enter holds) _ _ _

theorem KeptBy.beginOutboundPeer (dials : permit.dials r peerID) :
    P (r.beginOutboundPeer peerID).2 := by
  rcases beginOutboundPeer_cases r peerID with
    ⟨failure, refused⟩ | ⟨_, free, _, dialed⟩
  · rw [refused]
    exact holds
  · rw [dialed]
    exact kept.updateRoleHighWaterLocked
      (kept.dial holds peerID dials free) .peer

theorem KeptBy.prepareClient (instanceID groupID : String) :
    P (r.prepareClient ref instanceID groupID).2 := by
  unfold Registry.prepareClient
  split
  · exact holds
  split
  · exact holds
  rename_i found
  obtain ⟨owned, unknown, _⟩ := exact_iff.mp (eq_true_of_ne_false found)
  split
  · exact holds
  rename_i free
  split
  · exact holds
  · exact kept.updateRoleHighWaterLocked
      (kept.client holds ref instanceID groupID owned unknown free) .client

theorem KeptBy.preparePeer {preferredInbound : Bool}
    (joins : permit.joins r ref peerID preferredInbound) :
    P (r.preparePeer ref peerID preferredInbound).2 := by
  unfold Registry.preparePeer
  split
  · exact holds
  split
  · exact holds
  rename_i found
  obtain ⟨owned, unknown, _⟩ := exact_iff.mp (eq_true_of_ne_false found)
  split
  · exact holds
  have vacant : r.peerTaken peerID = none →
      P (if r.countRoleLocked .peer ≥ r.maxPeers
        then (Except.error RegistryError.peerCapacity, r)
        else (Except.ok (Prepared.generation ref),
          r.transferPendingToPeerLocked ref peerID)).2 := by
    intro free
    split
    · exact holds
    · exact kept.updateRoleHighWaterLocked (kept.join holds ref peerID
        preferredInbound joins owned unknown free) .peer
  dsimp only
  split
  · rename_i absent
    apply vacant
    unfold peerTaken
    rw [absent]
  rename_i entry present
  split
  · exact holds
  rename_i noCurrent
  split
  · rename_i noPrepared
    apply vacant
    unfold peerTaken
    rw [present]
    simp [not_not.mp noCurrent, noPrepared]
  · rename_i loser prepared
    split
    · rename_i wins
      rw [wins.1] at joins
      exact kept.arbitrate holds ref peerID entry loser joins owned
        unknown present prepared wins.2
    · exact holds

theorem KeptBy.completeArbitration (arb : ArbRef) :
    P (r.completeArbitration arb).2 := by
  unfold Registry.completeArbitration
  dsimp only
  split
  · exact holds
  rename_i found
  have live := live_of_exact (eq_true_of_ne_false found)
  have finish := kept.finishArbitrationLocked holds live
  split
  · exact finish
  split
  · exact finish
  rename_i ready
  simp only [not_or, Bool.not_eq_false] at ready
  obtain ⟨owned, unknown, _⟩ := exact_iff.mp ready.1
  split
  · exact finish
  rename_i free
  split
  · exact finish
  have vacant : r.peerTaken (r.arbs arb).peerID = none := by
    simpa using free
  exact kept.updateRoleHighWaterLocked (kept.complete holds finish
    (.finishArbitrationLocked r arb) arb live owned unknown vacant)
    .peer

theorem KeptBy.cancelArbitration {abortInbound : Bool}
    (ends : abortInbound = true → r.isExactArbitrationLocked arb = true →
      permit.ends (r.arbs arb).inbound) :
    P (r.cancelArbitration arb abortInbound).2 := by
  unfold Registry.cancelArbitration
  split
  · exact holds
  rename_i found
  have exactly := eq_true_of_ne_false found
  have finish := kept.finishArbitrationLocked holds (live_of_exact exactly)
  dsimp only
  split
  · rename_i abort
    exact kept.removeLocked finish (ends abort exactly)
  · exact finish

theorem KeptBy.publishLocked (publishes : permit.publishes r ref)
    (owned : ref ∈ r.all) : P (r.publishLocked ref).2 := by
  rcases publishLocked_cases r ref with
    same | ⟨key, entry, named, found, prepared, vacant, published⟩
  · rw [same]
    exact holds
  · rw [published]
    exact kept.publish holds ref key entry publishes owned named found
      prepared vacant

theorem KeptBy.commitReceiver (publishes : permit.publishes r ref) :
    P (r.commitReceiver ref).2 := by
  unfold Registry.commitReceiver
  split
  · exact holds
  · rename_i found
    exact kept.publishLocked holds publishes
      (exact_iff.mp (eq_true_of_ne_false found)).1

theorem KeptBy.commitOutboundPeer (publishes : permit.publishes r ref) :
    P (r.commitOutboundPeer ref).2 := by
  unfold Registry.commitOutboundPeer
  split
  · exact holds
  rename_i found
  rw [not_or] at found
  have published := kept.publishLocked holds publishes
    (exact_iff.mp (eq_true_of_ne_false found.2)).1
  split
  · split
    · exact holds
    · exact published
  · exact published

theorem KeptBy.beginRetire (ends : permit.ends ref) :
    P (r.beginRetire ref).2 := by
  unfold Registry.beginRetire
  split
  · exact holds
  · split
    · exact kept.retire holds ref ends
    · exact kept.retire holds ref ends
    all_goals exact holds

theorem KeptBy.releaseLoser (live : r.arbitrations.get peerID = some arb) :
    P (r.releaseLoser arb).2 := by
  unfold Registry.releaseLoser
  dsimp only
  split
  · exact holds
  split
  · have retired := kept.retire holds _ (kept.loser holds peerID arb live)
    obtain ⟨entries, frame⟩ := retireLocked_frame r (r.arbs arb).loser
    have stays : (r.retireLocked (r.arbs arb).loser).arbitrations.get peerID =
        some arb := by
      rw [frame]
      exact live
    have released := kept.released retired peerID arb stays
    unfold loserReleased at released
    rw [retireLocked_arbs] at released
    exact released
  · exact kept.released holds peerID arb live

theorem KeptBy.release (ends : permit.ends ref) : P (r.release ref).2 := by
  unfold Registry.release
  split
  · exact holds
  split
  · rename_i arb live
    split
    · exact kept.releaseLoser holds live
    · exact kept.removeLocked holds ends
  · exact kept.removeLocked holds ends

theorem KeptBy.stopFinish {generations : List GenRef}
    (ends : ∀ ref ∈ generations, permit.ends ref) :
    P (r.stopFinish generations) := by
  unfold Registry.stopFinish
  induction generations generalizing r with
  | nil => exact holds
  | cons head tail ih =>
    apply ih (kept.removeLocked holds (ends head List.mem_cons_self))
    intro ref member
    exact ends ref (List.mem_cons_of_mem head member)

theorem KeptBy.run {op : RegistryOp} (within : op.Within permit r) :
    P (r.run op) := by
  cases op with
  | beginInbound => exact kept.beginInbound holds
  | beginOutboundPeer peerID => exact kept.beginOutboundPeer holds within
  | prepareClient pending instanceID groupID =>
    exact kept.prepareClient holds instanceID groupID
  | preparePeer pending peerID preferredInbound =>
    exact kept.preparePeer holds within
  | completeArbitration arb => exact kept.completeArbitration holds arb
  | cancelArbitration arb abortInbound =>
    exact kept.cancelArbitration holds within
  | commitReceiver ref => exact kept.commitReceiver holds within
  | commitOutboundPeer ref => exact kept.commitOutboundPeer holds within
  | beginRetire ref => exact kept.beginRetire holds within
  | release ref => exact kept.release holds within
  | stopBegin generations => exact kept.stop holds
  | stopFinish generations => exact kept.stopFinish holds within

end

section Ordered

variable {key : EntryKey} {peerID : String}

/-! ## Identities and directions -/

/-- What is known of the registry after any calls. -/
structure Ordered (r : Registry) : Prop where
  fresh : ∀ ref, ref ∈ r.all ∨ (r.gens ref).key ≠ none → ref < r.nextID
  unknown : ∀ ref ∈ r.all, (r.gens ref).role = .unknown →
    (r.gens ref).direction = .inbound
  slots : ∀ key ref, r.Sits key .prepared ref → (r.gens ref).key = some key
  issued : ∀ peerID arb, r.arbitrations.get peerID = some arb →
    arb < r.nextArbID
  named : ∀ peerID arb, r.arbitrations.get peerID = some arb →
    (r.arbs arb).peerID = peerID
  loser : ∀ peerID arb, r.arbitrations.get peerID = some arb →
    (r.gens (r.arbs arb).loser).direction = .outbound ∧
      (r.gens (r.arbs arb).loser).key = some (.peer peerID)

theorem newRegistry_ordered (maxPending maxClients maxPeers : Nat) :
    (newRegistry maxPending maxClients maxPeers).Ordered := by
  have noArbitration : ∀ peerID, (newRegistry maxPending maxClients maxPeers
      ).arbitrations.get peerID = none := FiniteMap.get_empty
  constructor
  · rintro ref (owned | known)
    · cases owned
    · exact absurd rfl known
  · intro ref owned
    cases owned
  · rintro key ref ⟨entry, found, _⟩
    cases (FiniteMap.get_empty key).symm.trans found
  all_goals
    intro peerID arb live
    cases (noArbitration peerID).symm.trans live

theorem Ordered.moved (ordered : r.Ordered) (moved : Moved r next ref)
    (same : SameArbitrations r next)
    (fresh : ref ∈ next.all ∨ (next.gens ref).key ≠ none → ref < next.nextID)
    (unknown : ref ∈ next.all → (next.gens ref).role = .unknown →
      (next.gens ref).direction = .inbound)
    (slots : ∀ key, next.Sits key .prepared ref →
      (next.gens ref).key = some key)
    (loser : ∀ peerID arb, r.arbitrations.get peerID = some arb →
      (r.arbs arb).loser = ref → (next.gens ref).direction = .outbound ∧
        (next.gens ref).key = some (.peer peerID)) : next.Ordered := by
  constructor
  · intro other known
    by_cases here : other = ref
    · subst here
      exact fresh known
    · rw [moved.all other here, moved.gens other here] at known
      exact lt_of_lt_of_le (ordered.fresh other known) moved.nextID
  · intro other owned
    by_cases here : other = ref
    · subst here
      exact unknown owned
    · rw [moved.gens other here]
      exact ordered.unknown other ((moved.all other here).mp owned)
  · intro key other sits
    by_cases here : other = ref
    · subst here
      exact slots key sits
    · rw [moved.gens other here]
      exact ordered.slots key other ((moved.sits key _ other here).mp sits)
  · rw [same.arbitrations, same.nextArbID]
    exact ordered.issued
  · rw [same.arbitrations, same.arbs]
    exact ordered.named
  · rw [same.arbitrations, same.arbs]
    intro peerID arb live
    by_cases here : (r.arbs arb).loser = ref
    · rw [here]
      exact loser peerID arb live here
    · rw [moved.gens _ here]
      exact ordered.loser peerID arb live

theorem Ordered.rephased {phase : Phase} (ordered : r.Ordered)
    (moved : Moved r next ref) (same : SameArbitrations r next)
    (gens : next.gens ref = { r.gens ref with phase := phase })
    (all : ref ∈ next.all → ref ∈ r.all)
    (sits : ∀ key, next.Sits key .prepared ref → r.Sits key .prepared ref) :
    next.Ordered := by
  have named : (next.gens ref).key = (r.gens ref).key := by
    rw [gens]
    rfl
  apply ordered.moved moved same
  · rw [named]
    intro known
    exact lt_of_lt_of_le (ordered.fresh ref (known.imp_left all)) moved.nextID
  · rw [gens]
    intro owned
    exact ordered.unknown ref (all owned)
  · rw [named]
    intro key held
    exact ordered.slots key ref (sits key held)
  · intro peerID arb live lost
    rw [named, gens]
    rw [← lost]
    exact ordered.loser peerID arb live

variable {groupID : String} {generation : Generation} {loser : GenRef}

theorem Ordered.prepareFrom {base : Registry} (ordered : r.Ordered)
    (moved : Moved r base ref) (entries : base.entries = r.entries)
    (same : SameArbitrations r base) (fresh : ref < base.nextID)
    (keyless : (r.gens ref).key = none)
    (vacant : ∀ entry, r.entries.get key = some entry → entry.prepared = none)
    (named : generation.key = some key) :
    (base.prepareLocked ref key groupID generation).Ordered := by
  have written : (base.prepareLocked ref key groupID generation).gens ref =
    generation := update_self _ _ _
  have baseVacant : ∀ entry, base.entries.get key = some entry →
      entry.prepared = none := by
    rw [entries]
    exact vacant
  have moves : Moved r (base.prepareLocked ref key groupID generation) ref := by
    apply moved.trans (moved_prepareLocked baseVacant)
    intro target entry found
    rw [entries]
    exact ⟨entry, found⟩
  apply ordered.moved moves
    ⟨same.closed, same.arbs, same.nextArbID, same.arbitrations⟩
  · intro _
    exact fresh
  · rw [written]
    intro _ none
    exact absurd none (role_of_key named)
  · rw [written]
    intro target sits
    rw [sits_prepareLocked baseVacant, sits_of_entries entries] at sits
    rcases sits with before | ⟨rfl, _⟩
    · rw [ordered.slots target ref before] at keyless
      cases keyless
    · exact named
  · intro peerID arb live lost
    have peer := (ordered.loser peerID arb live).2
    rw [lost, keyless] at peer
    cases peer

theorem key_of_unknown (unknown : generation.role = .unknown) :
    generation.key = none := by
  simp [Generation.key, unknown]

theorem Ordered.prepareLocked (ordered : r.Ordered) (owned : ref < r.nextID)
    (unknown : (r.gens ref).role = .unknown)
    (vacant : ∀ entry, r.entries.get key = some entry → entry.prepared = none)
    (named : generation.key = some key) :
    (r.prepareLocked ref key groupID generation).Ordered :=
  ordered.prepareFrom (.refl r ref) rfl ⟨rfl, rfl, rfl, rfl⟩ owned
    (key_of_unknown unknown) vacant named

theorem Ordered.nextID_key (ordered : r.Ordered) :
    (r.gens r.nextID).key = none := by
  by_contra known
  exact lt_irrefl _ (ordered.fresh r.nextID (.inr known))

theorem Ordered.entered (ordered : r.Ordered) :
    (r.newGenerationLocked inboundPending).Ordered := by
  have written : (r.newGenerationLocked inboundPending).gens r.nextID =
      inboundPending := update_self _ _ _
  have absent := ordered.nextID_key
  apply ordered.moved (moved_newGenerationLocked r inboundPending)
    ⟨rfl, rfl, rfl, rfl⟩
  · intro _
    exact Nat.lt_succ_self _
  · rw [written]
    intro _ _
    rfl
  · intro key sits
    rw [ordered.slots key _ ((sits_of_entries rfl).mp sits)] at absent
    cases absent
  · intro peerID arb live lost
    have peer := (ordered.loser peerID arb live).2
    rw [lost, absent] at peer
    cases peer

theorem Ordered.congr (ordered : r.Ordered) (gens : next.gens = r.gens)
    (nextID : next.nextID = r.nextID) (all : next.all = r.all)
    (entries : next.entries = r.entries)
    (nextArbID : r.nextArbID ≤ next.nextArbID)
    (live : ∀ peerID arb, next.arbitrations.get peerID = some arb →
      (r.arbitrations.get peerID = some arb ∧
        (next.arbs arb).peerID = (r.arbs arb).peerID ∧
        (next.arbs arb).loser = (r.arbs arb).loser) ∨
      (arb < next.nextArbID ∧ (next.arbs arb).peerID = peerID ∧
        (r.gens (next.arbs arb).loser).direction = .outbound ∧
        (r.gens (next.arbs arb).loser).key = some (.peer peerID))) :
    next.Ordered := by
  constructor
  · rw [gens, nextID, all]
    exact ordered.fresh
  · rw [gens, all]
    exact ordered.unknown
  · rw [gens]
    intro key ref sits
    exact ordered.slots key ref ((sits_of_entries entries).mp sits)
  · intro peerID arb found
    rcases live peerID arb found with ⟨before, _⟩ | new
    · exact lt_of_lt_of_le (ordered.issued peerID arb before) nextArbID
    · exact new.1
  · intro peerID arb found
    rcases live peerID arb found with ⟨before, name, _⟩ | new
    · rw [name]
      exact ordered.named peerID arb before
    · exact new.2.1
  · rw [gens]
    intro peerID arb found
    rcases live peerID arb found with ⟨before, _, lost⟩ | new
    · rw [lost]
      exact ordered.loser peerID arb before
    · exact new.2.2

theorem vacant_of_peerTaken (free : r.peerTaken peerID = none) :
    ∀ entry, r.entries.get (.peer peerID) = some entry →
      entry.prepared = none := fun entry found =>
  (peerTaken_none free entry found).2

theorem Pruned.vacant (pruned : r.Pruned next)
    (free : r.peerTaken peerID = none) (entry : Entry)
    (found : next.entries.get (.peer peerID) = some entry) :
    entry.prepared = none := by
  apply Option.eq_none_iff_forall_not_mem.mpr
  intro ref held
  obtain ⟨before, foundBefore, holds⟩ :=
    pruned.sits (.peer peerID) .prepared ref ⟨entry, found, held⟩
  have empty := (peerTaken_none free before foundBefore).2
  cases empty.symm.trans holds

section

variable (ordered : r.Ordered)

include ordered

theorem Ordered.owned_lt (owned : ref ∈ r.all) : ref < r.nextID :=
  ordered.fresh ref (.inl owned)

theorem Ordered.beginArbitration_live {other : String}
    (live : (r.beginArbitration ref loser peerID).arbitrations.get other =
      some arb) :
    (other = peerID ∧ arb = r.nextArbID ∧
      (r.beginArbitration ref loser peerID).arbs arb =
        ⟨peerID, ref, loser, false⟩) ∨
    (r.arbitrations.get other = some arb ∧
      (r.beginArbitration ref loser peerID).arbs arb = r.arbs arb) := by
  change (r.arbitrations.put peerID r.nextArbID).get other = some arb at live
  rw [FiniteMap.get_put] at live
  split at live
  · rename_i here
    cases live
    exact .inl ⟨here, rfl, update_self _ _ _⟩
  · have earlier := ordered.issued other arb live
    exact .inr ⟨live, update_of_ne (ne_of_lt earlier) _ _⟩

theorem Ordered.beginArbitration
    (sits : r.Sits (.peer peerID) .prepared loser)
    (outbound : (r.gens loser).direction = .outbound) :
    (r.beginArbitration ref loser peerID).Ordered := by
  refine ordered.congr rfl rfl rfl rfl (Nat.le_succ _) ?_
  intro other arb live
  rcases ordered.beginArbitration_live live with
    ⟨rfl, rfl, written⟩ | ⟨before, same⟩
  · right
    rw [written]
    exact ⟨Nat.lt_succ_self _, rfl, outbound, ordered.slots _ loser sits⟩
  · left
    rw [same]
    exact ⟨before, rfl, rfl⟩

theorem Ordered.published {entry : Entry}
    (found : r.entries.get key = some entry)
    (prepared : entry.prepared = some ref) (vacant : entry.current = none) :
    (r.published ref key entry).Ordered := by
  apply ordered.rephased (moved_published found prepared vacant)
    ⟨rfl, rfl, rfl, rfl⟩ (update_self _ _ _) id
  intro target sits
  rw [sits_published found vacant] at sits
  split at sits
  · rcases sits with ⟨_, wrong⟩ | ⟨wrong, _⟩
    · exact absurd rfl wrong
    · cases wrong
  · exact sits

theorem Ordered.retireLocked (ref : GenRef) : (r.retireLocked ref).Ordered := by
  obtain ⟨entries, frame⟩ := retireLocked_frame r ref
  apply ordered.rephased (moved_retireLocked r ref)
    (retireLocked_sameArbitrations r ref)
  · rw [frame]
    exact update_self _ _ _
  · rw [frame]
    exact id
  · intro key sits
    exact sits_of_sits_retireLocked (by simp) sits

theorem Ordered.dropLocked (ref : GenRef) : (r.dropLocked ref).Ordered := by
  obtain ⟨entries, frame⟩ := dropLocked_frame r ref
  apply ordered.rephased (moved_dropLocked r ref)
    (dropLocked_sameArbitrations r ref)
  · rw [frame]
    exact update_self _ _ _
  · rw [dropLocked_all]
    exact Finset.mem_of_mem_erase
  · intro key sits
    exact sits_of_sits_dropLocked sits

theorem Ordered.loserReleased (arb : ArbRef) :
    (r.loserReleased arb).Ordered := by
  refine ordered.congr rfl rfl rfl rfl (le_refl _) ?_
  intro peerID other live
  left
  refine ⟨live, ?_⟩
  change (Function.update r.arbs arb _ other).peerID = _ ∧
    (Function.update r.arbs arb _ other).loser = _
  by_cases here : other = arb
  · subst here
    rw [update_self]
    exact ⟨rfl, rfl⟩
  · rw [update_of_ne here]
    exact ⟨rfl, rfl⟩

theorem Ordered.fewer {arbitrations : FiniteMap String ArbRef}
    (fewer : ∀ peerID arb, arbitrations.get peerID = some arb →
      r.arbitrations.get peerID = some arb) (closed : Bool) :
    { r with arbitrations := arbitrations, closed := closed }.Ordered := by
  refine ordered.congr rfl rfl rfl rfl (le_refl _) ?_
  intro peerID arb live
  exact .inl ⟨fewer peerID arb live, rfl, rfl⟩

theorem Ordered.ended (arb : ArbRef) : (r.ended arb).Ordered :=
  ordered.fewer (fun _ _ => FiniteMap.get_of_get_delete) r.closed

theorem Ordered.stopBegin : r.stopBegin.Ordered := by
  apply ordered.fewer _ true
  intro peerID arb live
  cases (FiniteMap.get_empty peerID).symm.trans live

end

theorem ordered_keptBy : KeptBy .all Ordered where
  counters := fun ordered _ _ _ => ordered.congr rfl rfl rfl rfl (le_refl _)
    fun _ _ live => .inl ⟨live, rfl, rfl⟩
  enter := Ordered.entered
  dial := fun {r} ordered peerID _ free => ordered.prepareFrom
    (moved_newGenerationLocked r _) rfl ⟨rfl, rfl, rfl, rfl⟩
    (Nat.lt_succ_self _) ordered.nextID_key (vacant_of_peerTaken free) rfl
  client := fun ordered _ _ _ owned unknown free => ordered.prepareLocked
    (ordered.owned_lt owned) unknown
    (fun entry found => (clientTaken_none free entry found).2.2) rfl
  join := fun ordered _ _ _ _ owned unknown free => ordered.prepareLocked
    (ordered.owned_lt owned) unknown (vacant_of_peerTaken free) rfl
  arbitrate := fun ordered _ _ entry _ _ _ _ found prepared outbound =>
    ordered.beginArbitration ⟨entry, found, prepared⟩ outbound
  complete := by
    intro r ended before ordered pruned arb _ owned unknown free
    apply ordered.prepareLocked _ _ (pruned.vacant free) rfl
    · rw [pruned.nextID]
      exact before.owned_lt owned
    · rw [pruned.role]
      exact unknown
  publish := fun ordered _ _ _ _ _ _ found prepared vacant =>
    ordered.published found prepared vacant
  retire := fun ordered ref _ => ordered.retireLocked ref
  drop := fun ordered ref _ => ordered.dropLocked ref
  loser := fun _ _ _ _ => trivial
  released := fun ordered _ arb _ => ordered.loserReleased arb
  ended := fun ordered arb => ordered.ended arb
  stop := Ordered.stopBegin

theorem within_all (op : RegistryOp) : op.Within .all r := by
  cases op <;> simp [RegistryOp.Within, Permit.all]

end Ordered

end Registry

end QMux.Mesh
