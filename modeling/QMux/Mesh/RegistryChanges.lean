import QMux.Mesh.RegistryArbitration
import Mathlib.Logic.Relation

/-!
# What an operation of the registry changes

`Advance` lists the ways a generation or an arbitration comes forward, and
`Shrink` the ways one goes away.  An operation advances once, shrinks any
number of times, or hands the slot of a loser to the inbound generation.
Apart from these changes, a generation enters (`begun`, `dialed`), and `Stop`
clears all arbitrations at once.
-/

namespace QMux.Mesh

open Function Support

namespace Registry

variable {r next : Registry} {ref : GenRef} {arb : ArbRef} {peerID : String}

/-- An inbound generation without a role. -/
structure Pending (r : Registry) (ref : GenRef) : Prop where
  owned : ref ∈ r.all
  unknown : (r.gens ref).role = .unknown
  free : ¬ r.IsInbound ref

def inboundPending : Generation := ⟨.unknown, .inbound, .pending, "", "", ""⟩

def begun (r : Registry) : Registry :=
  let entered := r.newGenerationLocked inboundPending
  { entered with
    pendingHigh := max r.pendingHigh
      (entered.countPhaseLocked .unknown .pending) }

def outboundPeer (peerID : String) : Generation :=
  ⟨.peer, .outbound, .prepared, "", "", peerID⟩

def dialed (r : Registry) (peerID : String) : Registry :=
  ((r.newGenerationLocked (outboundPeer peerID)).prepareLocked r.nextID
    (.peer peerID) "" (outboundPeer peerID)).updateRoleHighWaterLocked .peer

def clientPrepared (r : Registry) (pending : GenRef)
    (instanceID groupID : String) : Registry :=
  (r.prepareLocked pending (.client instanceID) groupID
    { r.gens pending with
      role := .client
      phase := .prepared
      instanceID := instanceID
      groupID := groupID }).updateRoleHighWaterLocked .client

def loserReleased (r : Registry) (arb : ArbRef) : Registry :=
  { r with
    arbs := Function.update r.arbs arb
      { r.arbs arb with loserReleased := true } }

section

variable (gone : GenRef → Prop) (names : String → Prop)

/-- A generation or an arbitration comes forward.  A client that ends is
among those `gone`, and one is new only for a group among the `names`. -/
inductive Advance (r : Registry) : Registry → Prop where
  | stay : Advance r r
  | clientPrepared (ref : GenRef) (instanceID groupID : String)
      (opened : r.closed = false)
      (pending : r.Pending ref)
      (free : r.clientTaken instanceID groupID = none)
      (room : r.countRoleLocked .client < r.maxClients)
      (named : names groupID) :
      Advance r (r.clientPrepared ref instanceID groupID)
  | peerPrepared (ref : GenRef) (peerID : String)
      (opened : r.closed = false)
      (pending : r.Pending ref)
      (unsuppressed : r.arbitrations.get peerID = none)
      (free : r.peerTaken peerID = none)
      (room : r.countRoleLocked .peer < r.maxPeers) :
      Advance r (r.transferPendingToPeerLocked ref peerID)
  | arbitrated (ref : GenRef) (peerID : String) (entry : Entry)
      (loser : GenRef)
      (opened : r.closed = false)
      (pending : r.Pending ref)
      (unsuppressed : r.arbitrations.get peerID = none)
      (found : r.entries.get (.peer peerID) = some entry)
      (vacant : entry.current = none)
      (prepared : entry.prepared = some loser) :
      Advance r (r.beginArbitration ref loser peerID)
  | published (ref : GenRef) (key : EntryKey) (entry : Entry)
      (owned : ref ∈ r.all)
      (named : (r.gens ref).key = some key)
      (found : r.entries.get key = some entry)
      (prepared : entry.prepared = some ref)
      (vacant : entry.current = none) :
      Advance r (r.published ref key entry)
  | retired (ref : GenRef)
      (owned : ref ∈ r.all)
      (active : (r.gens ref).phase ∈ [Phase.prepared, .current])
      (ends : (r.gens ref).role = .client → gone ref) :
      Advance r (r.retireLocked ref)
  | loserReleased (peerID : String) (arb : ArbRef)
      (live : r.arbitrations.get peerID = some arb)
      (retiring : (r.gens (r.arbs arb).loser).phase = .retiring) :
      Advance r (r.loserReleased arb)
  | loserRetired (peerID : String) (arb : ArbRef)
      (live : r.arbitrations.get peerID = some arb)
      (active : (r.gens (r.arbs arb).loser).phase ∈
        [Phase.prepared, .current]) :
      Advance r ((r.retireLocked (r.arbs arb).loser).loserReleased arb)

/-- A generation or an arbitration goes away. -/
inductive Shrink (r : Registry) : Registry → Prop where
  | finished (peerID : String) (arb : ArbRef)
      (live : r.arbitrations.get peerID = some arb) :
      Shrink r (r.finished arb)
  | dropped (ref : GenRef)
      (owned : ref ∈ r.all)
      (notInbound : ¬ r.IsInbound ref)
      (notLoser : ¬ r.IsLoser ref)
      (ends : (r.gens ref).role = .client → gone ref) :
      Shrink r (r.dropLocked ref)

/-- What one operation does. -/
inductive Change (r : Registry) : Registry → Prop where
  | advance {after : Registry} (advance : Advance gone names r after) :
      Change r after
  | shrink {after : Registry}
      (shrinks : Relation.ReflTransGen (Shrink gone) r after) :
      Change r after
  | complete (peerID : String) (arb : ArbRef)
      (live : r.arbitrations.get peerID = some arb)
      (opened : r.closed = false)
      (released : (r.arbs arb).loserReleased = true)
      (free : r.peerTaken peerID = none) :
      Change r ((r.finished arb).transferPendingToPeerLocked
        (r.arbs arb).inbound peerID)

end

variable {gone : GenRef → Prop} {names : String → Prop}

/-! ## Changes keep both invariants -/

theorem Moved.refl (r : Registry) (ref : GenRef) : Moved r r ref where
  gens := fun _ _ => rfl
  all := fun _ _ => Iff.rfl
  nextID := le_refl _
  sits := fun _ _ _ _ => Iff.rfl
  groups := by
    intro key entry after before found
    cases Option.some.inj (before.symm.trans found)
    rfl
  filled := fun key entry found => .inl found

theorem updateRoleHighWaterLocked_frame (r : Registry) (role : Role) :
    ∃ clientHigh peerHigh, r.updateRoleHighWaterLocked role =
      { r with clientHigh := clientHigh, peerHigh := peerHigh } := by
  cases role
  all_goals exact ⟨_, _, rfl⟩

theorem Sound.updateRoleHighWaterLocked (sound : r.Sound) (role : Role) :
    (r.updateRoleHighWaterLocked role).Sound := by
  obtain ⟨clientHigh, peerHigh, frame⟩ := updateRoleHighWaterLocked_frame r role
  rw [frame]
  exact sound.congr rfl rfl rfl rfl ⟨rfl, rfl, rfl, rfl⟩

variable {key : EntryKey} {groupID instanceID : String}
  {generation : Generation} {entry after : Entry}

theorem Sound.prepareLocked {base : Registry} (sound : r.Sound)
    (moved : Moved r base ref) (entries : base.entries = r.entries)
    (same : SameArbitrations r base) (owned : ref ∈ base.all)
    (fresh : ref < base.nextID)
    (seatless : ∀ key phase, ¬ r.Sits key phase ref)
    (notInbound : ¬ r.IsInbound ref) (notLoser : ¬ r.IsLoser ref)
    (vacant : ∀ entry, r.entries.get key = some entry → entry.prepared = none)
    (named : generation.key = some key)
    (prepared : generation.phase = .prepared)
    (bound : ∀ instanceID, key = .client instanceID → generation.groupID =
        ((r.entries.get key).getD (.new groupID)).groupID)
    (unsuppressed : ∀ peerID, key = .peer peerID →
      r.arbitrations.get peerID = none) :
    (base.prepareLocked ref key groupID generation).Sound := by
  have baseVacant : ∀ entry, base.entries.get key = some entry →
      entry.prepared = none := by
    rw [entries]
    exact vacant
  have moves : Moved r (base.prepareLocked ref key groupID generation) ref := by
    apply moved.trans (moved_prepareLocked baseVacant)
    intro target entry found
    rw [entries]
    exact ⟨entry, found⟩
  refine ⟨sound.slotted.moved moves ?_, ?_⟩
  · apply placed_prepareLocked baseVacant ?_ owned fresh named prepared
    · rw [entries]
      exact bound
    · intro target phase sits
      exact seatless target phase ((sits_of_entries entries).mp sits)
  · apply sound.arbitrated.apart _ moves notInbound notLoser
    · intro peerID arb live _ peer
      have written : (base.prepareLocked ref key groupID generation).gens ref =
          generation := update_self _ _ _
      rw [written, named] at peer
      cases peer
      rw [unsuppressed peerID rfl] at live
      cases live
    · exact ⟨same.closed, same.arbs, same.nextArbID, same.arbitrations⟩

theorem Sound.preparePending (sound : r.Sound) (pending : r.Pending ref)
    (vacant : ∀ entry, r.entries.get key = some entry → entry.prepared = none)
    (named : generation.key = some key)
    (prepared : generation.phase = .prepared)
    (bound : ∀ instanceID, key = .client instanceID → generation.groupID =
        ((r.entries.get key).getD (.new groupID)).groupID)
    (unsuppressed : ∀ peerID, key = .peer peerID →
      r.arbitrations.get peerID = none) :
    (r.prepareLocked ref key groupID generation).Sound := by
  apply sound.prepareLocked (Moved.refl r ref) rfl ⟨rfl, rfl, rfl, rfl⟩
    pending.owned (sound.slotted.fresh ref pending.owned) _ pending.free
    (sound.arbitrated.not_isLoser_of_unknown pending.unknown) vacant named
    prepared bound unsuppressed
  intro key phase
  exact sound.slotted.not_sits_of_unknown pending.unknown

theorem peerTaken_none (free : r.peerTaken peerID = none) (entry : Entry)
    (found : r.entries.get (.peer peerID) = some entry) :
    entry.current = none ∧ entry.prepared = none := by
  unfold peerTaken at free
  rw [found] at free
  dsimp only at free
  split at free
  · cases free
  rename_i noCurrent
  split at free
  · cases free
  · rename_i noPrepared
    exact ⟨not_not.mp noCurrent, not_not.mp noPrepared⟩

theorem clientTaken_none (free : r.clientTaken instanceID groupID = none)
    (entry : Entry) (found : r.entries.get (.client instanceID) = some entry) :
    entry.groupID = groupID ∧ entry.current = none ∧ entry.prepared = none := by
  unfold clientTaken at free
  rw [found] at free
  dsimp only at free
  split at free
  · cases free
  rename_i sameGroup
  split at free
  · cases free
  rename_i noCurrent
  split at free
  · cases free
  · rename_i noPrepared
    exact ⟨not_not.mp sameGroup, not_not.mp noCurrent, not_not.mp noPrepared⟩

section

variable (sound : r.Sound)

include sound

theorem Sound.transferPendingToPeerLocked (pending : r.Pending ref)
    (unsuppressed : r.arbitrations.get peerID = none)
    (vacant : ∀ entry, r.entries.get (.peer peerID) = some entry →
      entry.prepared = none) :
    (r.transferPendingToPeerLocked ref peerID).Sound := by
  apply Sound.updateRoleHighWaterLocked
  apply sound.preparePending pending vacant rfl rfl
  · intro instanceID client
    cases client
  · intro other peer
    cases peer
    exact unsuppressed

theorem Sound.nextID_apart : ¬ r.IsInbound r.nextID ∧ ¬ r.IsLoser r.nextID := by
  refine ⟨?_, ?_⟩
  · intro inbound
    exact sound.slotted.nextID_not_mem (sound.arbitrated.inbound _ inbound).1
  · rintro ⟨peerID, arb, live, lost⟩
    have owned := (sound.arbitrated.loser peerID arb live).1
    rw [lost] at owned
    exact sound.slotted.nextID_not_mem owned

theorem Sound.begun : r.begun.Sound := by
  have entered : (r.newGenerationLocked inboundPending).Sound := by
    refine ⟨sound.slotted.newGenerationLocked rfl rfl, ?_⟩
    have same : SameArbitrations r (r.newGenerationLocked inboundPending) :=
      ⟨rfl, rfl, rfl, rfl⟩
    apply sound.arbitrated.apart same (moved_newGenerationLocked r _)
      sound.nextID_apart.1 sound.nextID_apart.2
    intro peerID arb live _ named
    have written : (r.newGenerationLocked inboundPending).gens r.nextID =
        inboundPending := update_self _ _ _
    rw [written] at named
    cases named
  exact entered.congr rfl rfl rfl rfl ⟨rfl, rfl, rfl, rfl⟩

theorem Sound.dialed (unsuppressed : r.arbitrations.get peerID = none)
    (free : r.peerTaken peerID = none) : (r.dialed peerID).Sound := by
  apply Sound.updateRoleHighWaterLocked
  apply sound.prepareLocked (moved_newGenerationLocked r _) rfl
    ⟨rfl, rfl, rfl, rfl⟩ (Finset.mem_insert_self _ _) (Nat.lt_succ_self _) _
    sound.nextID_apart.1 sound.nextID_apart.2 _ rfl rfl
  · intro instanceID client
    cases client
  · intro other peer
    cases peer
    exact unsuppressed
  · intro key phase
    exact sound.slotted.not_sits_of_not_mem sound.slotted.nextID_not_mem
  · intro entry found
    exact (peerTaken_none free entry found).2

theorem Sound.clientPrepared (pending : r.Pending ref)
    (free : r.clientTaken instanceID groupID = none) :
    (r.clientPrepared ref instanceID groupID).Sound := by
  apply Sound.updateRoleHighWaterLocked
  apply sound.preparePending pending _ rfl rfl
  · intro other client
    cases client
    cases found : r.entries.get (.client instanceID) with
    | none => rfl
    | some entry => exact (clientTaken_none free entry found).1.symm
  · intro peerID peer
    cases peer
  · intro entry found
    exact (clientTaken_none free entry found).2.2

theorem Sound.beginArbitration {loser : GenRef} (opened : r.closed = false)
    (pending : r.Pending ref)
    (unsuppressed : r.arbitrations.get peerID = none)
    (found : r.entries.get (.peer peerID) = some entry)
    (vacant : entry.current = none) (prepared : entry.prepared = some loser) :
    (r.beginArbitration ref loser peerID).Sound := by
  have seated := (sound.slotted.slots (.peer peerID) .prepared loser).mp
    ⟨entry, found, prepared⟩
  have cases : ∀ {other arb}, (r.beginArbitration ref loser peerID
      ).arbitrations.get other = some arb →
      (other = peerID ∧ arb = r.nextArbID ∧
        (r.beginArbitration ref loser peerID).arbs arb =
          ⟨peerID, ref, loser, false⟩) ∨
      (other ≠ peerID ∧ r.arbitrations.get other = some arb ∧
        (r.beginArbitration ref loser peerID).arbs arb = r.arbs arb) := by
    intro other arb live
    unfold Registry.beginArbitration at live ⊢
    dsimp only at live ⊢
    rw [FiniteMap.get_put] at live
    split at live
    · rename_i same
      cases live
      exact .inl ⟨same, rfl, update_self _ _ _⟩
    · rename_i different
      have older := sound.arbitrated.issued other arb live
      exact .inr ⟨different, live, update_of_ne (Nat.ne_of_lt older) _ _⟩
  refine ⟨sound.slotted.congr rfl rfl rfl rfl, ?_⟩
  constructor
  · intro other arb live
    rcases cases live with ⟨rfl, _, written⟩ | ⟨_, before, written⟩
    · rw [written]
    · rw [written]
      exact sound.arbitrated.named other arb before
  · intro other arb live
    rcases cases live with ⟨_, rfl, _⟩ | ⟨_, before, _⟩
    · exact Nat.lt_succ_self _
    · exact Nat.lt_succ_of_lt (sound.arbitrated.issued other arb before)
  · rintro side ⟨other, arb, live, rfl⟩
    rcases cases live with ⟨_, _, written⟩ | ⟨_, before, written⟩
    · rw [written]
      exact ⟨pending.owned, pending.unknown⟩
    · rw [written]
      exact sound.arbitrated.inbound _ ⟨other, arb, before, rfl⟩
  · intro first arb second arb' live live' side
    rcases cases live with ⟨rfl, _, written⟩ | ⟨_, before, written⟩
    · rcases cases live' with ⟨rfl, _, _⟩ | ⟨_, before', written'⟩
      · rfl
      · rw [written, written'] at side
        exact absurd ⟨second, arb', before', side.symm⟩ pending.free
    · rcases cases live' with ⟨rfl, _, written'⟩ | ⟨_, before', written'⟩
      · rw [written, written'] at side
        exact absurd ⟨first, arb, before, side⟩ pending.free
      · rw [written, written'] at side
        exact sound.arbitrated.inboundOnce first arb second arb' before
          before' side
  · intro other arb live
    rcases cases live with ⟨rfl, _, written⟩ | ⟨_, before, written⟩
    · rw [written]
      exact ⟨seated.1, seated.2.1⟩
    · rw [written]
      exact sound.arbitrated.loser other arb before
  · intro other arb live released
    rcases cases live with ⟨rfl, _, written⟩ | ⟨_, before, written⟩
    · rw [written] at released
      cases released
    · rw [written] at released ⊢
      exact sound.arbitrated.released other arb before released
  · intro other arb live side owned named active
    rcases cases live with ⟨rfl, _, written⟩ | ⟨_, before, written⟩
    · rw [written]
      -- the generation sits in the prepared slot, where the loser is
      obtain ⟨held, heldAt, holds⟩ := (sound.slotted.slots _ _ side).mpr
        ⟨owned, named, rfl⟩
      cases Option.some.inj (heldAt.symm.trans found)
      change entry.Holds (r.gens side).phase side at holds
      change (r.gens side).phase ≠ .retiring at active
      cases phase : (r.gens side).phase with
      | prepared =>
        rw [phase] at holds
        exact Option.some.inj (holds.symm.trans prepared)
      | current =>
        rw [phase] at holds
        cases holds.symm.trans vacant
      | retiring => exact absurd phase active
      | pending | done =>
        rw [phase] at holds
        cases holds
    · rw [written]
      exact sound.arbitrated.sole other arb before side owned named active
  · intro closed
    rw [show (r.beginArbitration ref loser peerID).closed = false from
      opened] at closed
    cases closed

theorem Sound.published (owned : ref ∈ r.all)
    (named : (r.gens ref).key = some key)
    (found : r.entries.get key = some entry)
    (prepared : entry.prepared = some ref) (vacant : entry.current = none) :
    (r.published ref key entry).Sound where
  slotted := sound.slotted.published owned named found prepared vacant
  arbitrated := by
    have same : SameArbitrations r (r.published ref key entry) :=
      ⟨rfl, rfl, rfl, rfl⟩
    apply sound.arbitrated.phase same rfl rfl
    intro retiring
    have seated := (sound.slotted.slots key .prepared ref).mp
      ⟨entry, found, prepared⟩
    rw [seated.2.2] at retiring
    cases retiring

theorem Sound.retireLocked (owned : ref ∈ r.all)
    (active : (r.gens ref).phase ∈ [Phase.prepared, .current]) :
    (r.retireLocked ref).Sound := by
  refine ⟨sound.slotted.retireLocked owned active, ?_⟩
  obtain ⟨entries, frame⟩ := retireLocked_frame r ref
  have same : SameArbitrations r (r.retireLocked ref) := by
    rw [frame]
    exact ⟨rfl, rfl, rfl, rfl⟩
  apply sound.arbitrated.phase same
  · rw [frame]
  · rw [frame]
  · intro _
    rfl

theorem Sound.loserReleased
    (retiring : (r.gens (r.arbs arb).loser).phase = .retiring) :
    (r.loserReleased arb).Sound := by
  have kept : ∀ {α : Type} (view : Arbitration → α),
      (∀ held, view { held with loserReleased := true } = view held) →
      ∀ other, view ((r.loserReleased arb).arbs other) =
        view (r.arbs other) := by
    intro α view same other
    dsimp only [Registry.loserReleased]
    rw [Function.update_apply]
    split
    · rename_i here
      rw [here, same]
    · rfl
  have peer := kept Arbitration.peerID fun _ => rfl
  have inbound := kept Arbitration.inbound fun _ => rfl
  have loser := kept Arbitration.loser fun _ => rfl
  refine ⟨sound.slotted.congr rfl rfl rfl rfl, ?_⟩
  constructor
  · intro other target live
    rw [peer]
    exact sound.arbitrated.named other target live
  · exact sound.arbitrated.issued
  · rintro side ⟨other, target, live, sideOf⟩
    rw [inbound] at sideOf
    exact sound.arbitrated.inbound side ⟨other, target, live, sideOf⟩
  · intro first target second target' live live' side
    rw [inbound, inbound] at side
    exact sound.arbitrated.inboundOnce first target second target' live
      live' side
  · intro other target live
    rw [loser]
    exact sound.arbitrated.loser other target live
  · intro other target live released
    rw [loser]
    by_cases same : target = arb
    · subst same
      exact retiring
    · apply sound.arbitrated.released other target live
      simpa [Registry.loserReleased, same] using released
  · intro other target live
    rw [loser]
    exact sound.arbitrated.sole other target live
  · exact sound.arbitrated.closed

end

theorem Arbitrated.of_none
    (none : ∀ peerID, r.arbitrations.get peerID = none) :
    r.Arbitrated where
  named := by simp [none]
  issued := by simp [none]
  inbound := by simp [IsInbound, none]
  inboundOnce := by simp [none]
  loser := by simp [none]
  released := by simp [none]
  sole := by simp [none]
  closed := by
    intro _
    apply FiniteMap.ext
    intro peerID
    rw [none, FiniteMap.get_empty]

theorem Sound.stopBegin (sound : r.Sound) : r.stopBegin.Sound where
  slotted := sound.slotted.congr rfl rfl rfl rfl
  arbitrated := .of_none fun peerID => FiniteMap.get_empty peerID

theorem retireLocked_arbs (r : Registry) (ref : GenRef) :
    (r.retireLocked ref).arbs = r.arbs := by
  obtain ⟨entries, frame⟩ := retireLocked_frame r ref
  rw [frame]

theorem retireLocked_phase (r : Registry) (ref : GenRef) :
    ((r.retireLocked ref).gens ref).phase = .retiring := by
  obtain ⟨entries, frame⟩ := retireLocked_frame r ref
  rw [frame]
  simp

theorem Sound.advance (sound : r.Sound) (advance : Advance gone names r next) :
    next.Sound := by
  cases advance with
  | stay => exact sound
  | clientPrepared ref instanceID groupID opened pending free room _ =>
    exact sound.clientPrepared pending free
  | peerPrepared ref peerID opened pending unsuppressed free room =>
    apply sound.transferPendingToPeerLocked pending unsuppressed
    intro entry found
    exact (peerTaken_none free entry found).2
  | arbitrated ref peerID entry loser opened pending unsuppressed found
      vacant prepared =>
      exact sound.beginArbitration opened pending unsuppressed found vacant
        prepared
  | published ref key entry owned named found prepared vacant =>
    exact sound.published owned named found prepared vacant
  | retired ref owned active _ => exact sound.retireLocked owned active
  | loserReleased peerID arb live retiring =>
    exact sound.loserReleased retiring
  | loserRetired peerID arb live active =>
    have owned := (sound.arbitrated.loser peerID arb live).1
    apply (sound.retireLocked owned active).loserReleased
    rw [retireLocked_arbs]
    exact retireLocked_phase r _

theorem Sound.shrink (sound : r.Sound) (shrink : Shrink gone r next) :
    next.Sound := by
  cases shrink with
  | finished peerID arb live => exact sound.finished live
  | dropped ref owned notInbound notLoser _ =>
    exact sound.dropLocked notInbound notLoser

theorem dropLocked_vacant
    (vacant : ∀ entry, r.entries.get key = some entry → entry.prepared = none)
    (entry : Entry) (found : (r.dropLocked ref).entries.get key = some entry) :
    entry.prepared = none := by
  rw [dropLocked_get] at found
  split at found
  · obtain ⟨mapped, _⟩ := Option.filter_eq_some_iff.mp found
    obtain ⟨before, foundBefore, rfl⟩ := Option.map_eq_some_iff.mp mapped
    simp [Entry.dropRetiring, Entry.unlink, vacant before foundBefore]
  · exact vacant entry found

theorem finished_vacant
    (vacant : ∀ entry, r.entries.get key = some entry → entry.prepared = none)
    (entry : Entry) (found : (r.finished arb).entries.get key = some entry) :
    entry.prepared = none := by
  unfold finished at found
  split at found
  · have endedVacant : ∀ entry, (r.ended arb).entries.get key = some entry →
        entry.prepared = none := vacant
    exact dropLocked_vacant endedVacant entry found
  · exact vacant entry found

theorem finished_pending (sound : r.Sound)
    (live : r.arbitrations.get peerID = some arb) :
    (r.finished arb).Pending (r.arbs arb).inbound where
  owned := (finished_inbound sound live).1
  unknown := by
    rw [(finished_inbound sound live).2]
    exact (sound.arbitrated.inbound _ ⟨peerID, arb, live, rfl⟩).2
  free := (finished_inbound_apart sound live).1

theorem Sound.change (sound : r.Sound) (change : Change gone names r next) :
    next.Sound := by
  cases change with
  | advance advance => exact sound.advance advance
  | shrink shrinks =>
    induction shrinks with
    | refl => exact sound
    | tail _ last ih => exact ih.shrink last
  | complete peerID arb live opened released free =>
    apply (sound.finished live).transferPendingToPeerLocked
      (finished_pending sound live)
    · rw [finished_get sound live, if_pos rfl]
    · apply finished_vacant
      intro entry found
      exact (peerTaken_none free entry found).2

/-! ## Groups -/

theorem dropLocked_group
    (found : (r.dropLocked ref).entries.get key = some after) :
    ∃ entry, r.entries.get key = some entry ∧
      after.groupID = entry.groupID := by
  rw [dropLocked_get] at found
  split at found
  · obtain ⟨mapped, _⟩ := Option.filter_eq_some_iff.mp found
    obtain ⟨before, foundBefore, rfl⟩ := Option.map_eq_some_iff.mp mapped
    exact ⟨before, foundBefore, rfl⟩
  · exact ⟨after, found, rfl⟩

theorem finished_group (found : (r.finished arb).entries.get key = some after) :
    ∃ entry, r.entries.get key = some entry ∧
      after.groupID = entry.groupID := by
  unfold finished at found
  split at found
  · obtain ⟨entry, there, same⟩ := dropLocked_group found
    exact ⟨entry, there, same⟩
  · exact ⟨after, found, rfl⟩

theorem Shrink.group (shrink : Shrink gone r next)
    (found : next.entries.get key = some after) :
    ∃ entry, r.entries.get key = some entry ∧
      after.groupID = entry.groupID := by
  cases shrink with
  | finished peerID arb live => exact finished_group found
  | dropped ref owned notInbound notLoser _ => exact dropLocked_group found

theorem updateRoleHighWaterLocked_entries (r : Registry) (role : Role) :
    (r.updateRoleHighWaterLocked role).entries = r.entries := by
  cases role <;> rfl

theorem prepareLocked_group {target : EntryKey}
    (before : r.entries.get target = some entry)
    (found : (r.prepareLocked ref key groupID generation).entries.get
      target = some after) : after.groupID = entry.groupID := by
  rw [prepareLocked_get] at found
  split at found
  · rename_i same
    subst same
    rw [before] at found
    cases found
    rfl
  · cases Option.some.inj (before.symm.trans found)
    rfl

theorem dialed_group (before : r.entries.get key = some entry)
    (found : (r.dialed peerID).entries.get key = some after) :
    after.groupID = entry.groupID := by
  unfold dialed at found
  rw [updateRoleHighWaterLocked_entries] at found
  have present : (r.newGenerationLocked (outboundPeer peerID)).entries.get
      key = some entry := before
  exact prepareLocked_group present found

theorem Advance.group (advance : Advance gone names r next)
    (before : r.entries.get key = some entry)
    (found : next.entries.get key = some after) :
    after.groupID = entry.groupID := by
  have unchanged : r.entries.get key = some after →
      after.groupID = entry.groupID := by
    intro same
    cases Option.some.inj (before.symm.trans same)
    rfl
  cases advance with
  | stay => exact unchanged found
  | clientPrepared ref instanceID groupID opened pending free room _ =>
    unfold Registry.clientPrepared at found
    rw [updateRoleHighWaterLocked_entries] at found
    exact prepareLocked_group before found
  | peerPrepared ref peerID opened pending unsuppressed free room =>
    unfold transferPendingToPeerLocked at found
    rw [updateRoleHighWaterLocked_entries] at found
    exact prepareLocked_group before found
  | arbitrated ref peerID entry loser opened pending unsuppressed there
      vacant prepared => exact unchanged found
  | published ref target held owned named there prepared vacant =>
    exact (moved_published there prepared vacant).groups key entry after
      before found
  | retired ref owned active _ =>
    exact (moved_retireLocked r ref).groups key entry after before found
  | loserReleased peerID arb live retiring => exact unchanged found
  | loserRetired peerID arb live active =>
    exact (moved_retireLocked r _).groups key entry after before found

theorem Change.group (change : Change gone names r next)
    (before : r.entries.get (.client instanceID) = some entry)
    (found : next.entries.get (.client instanceID) = some after) :
    after.groupID = entry.groupID := by
  cases change with
  | advance advance => exact advance.group before found
  | shrink shrinks =>
    induction shrinks generalizing after with
    | refl =>
      cases Option.some.inj (before.symm.trans found)
      rfl
    | tail _ last ih =>
      obtain ⟨between, there, same⟩ := last.group found
      rw [same]
      exact ih there
  | complete peerID arb live opened released free =>
    unfold transferPendingToPeerLocked at found
    rw [updateRoleHighWaterLocked_entries, prepareLocked_get,
      if_neg (by simp)] at found
    obtain ⟨held, there, same⟩ := finished_group found
    cases Option.some.inj (before.symm.trans there)
    exact same

end Registry

end QMux.Mesh
