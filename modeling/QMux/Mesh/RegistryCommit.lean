import QMux.Mesh.RegistryTokens

/-!
# Commits after the acknowledgment

A success acknowledgment is written between the preparation of an inbound
generation and its commit.  Nothing in between takes the prepared slot away:
the operations find the slot taken, and an arbitration removes only its
outbound side.  This holds for calls on any tokens.
-/

namespace QMux.Mesh

open Support

namespace Registry

variable {r next : Registry} {ref g : GenRef} {arb : ArbRef} {key : EntryKey}
  {peerID : String}

/-! ## The prepared slot -/

/-- The generation is prepared and its entry has no current one. -/
structure Waits (r : Registry) (key : EntryKey) (g : GenRef) : Prop where
  phase : (r.gens g).phase = .prepared
  slot : r.Sits key .prepared g
  vacant : ∀ other, ¬ r.Sits key .current other

/-- The generation is the current one of its entry. -/
structure Serves (r : Registry) (key : EntryKey) (g : GenRef) : Prop where
  phase : (r.gens g).phase = .current
  slot : r.Sits key .current g

/-- An inbound generation that waits for its commit or, if `served`, has been
committed. -/
structure Keeps (served : Prop) (key : EntryKey) (g : GenRef) (r : Registry) :
    Prop where
  ordered : r.Ordered
  owned : g ∈ r.all
  named : (r.gens g).key = some key
  inbound : (r.gens g).direction = .inbound
  place : r.Waits key g ∨ (served ∧ r.Serves key g)

/-- Anything but the removal of `g`; and not its commit, unless `served`. -/
def sparing (served : Prop) (g : GenRef) : Permit :=
  ⟨fun _ _ => True, fun _ _ _ _ => True, fun _ ref => ref = g → served,
    fun ref => ref ≠ g⟩

section Keeps

variable {served : Prop}

theorem Keeps.waits (keeps : r.Keeps False key g) : r.Waits key g := by
  rcases keeps.place with waits | ⟨impossible, _⟩
  · exact waits
  · exact impossible.elim

theorem Keeps.moved (keeps : r.Keeps served key g) (ordered : next.Ordered)
    (moved : Moved r next ref) (different : g ≠ ref)
    (current : next.Sits key .current ref → r.Sits key .current ref) :
    next.Keeps served key g := by
  have gens := moved.gens g different
  refine ⟨ordered, (moved.all g different).mpr keeps.owned, ?_, ?_, ?_⟩
  · rw [gens]
    exact keeps.named
  · rw [gens]
    exact keeps.inbound
  · rcases keeps.place with waits | ⟨allowed, serves⟩
    · left
      refine ⟨?_, (moved.sits key _ g different).mpr waits.slot, ?_⟩
      · rw [gens]
        exact waits.phase
      · intro other sits
        apply waits.vacant other
        by_cases here : other = ref
        · subst here
          exact current sits
        · exact (moved.sits key _ other here).mp sits
    · right
      refine ⟨allowed, ?_, (moved.sits key _ g different).mpr serves.slot⟩
      rw [gens]
      exact serves.phase

theorem Keeps.congr (keeps : r.Keeps served key g) (ordered : next.Ordered)
    (gens : next.gens = r.gens) (all : next.all = r.all)
    (entries : next.entries = r.entries) : next.Keeps served key g := by
  have sits : ∀ slot other, next.Sits key slot other ↔
      r.Sits key slot other := fun _ _ => sits_of_entries entries
  refine ⟨ordered, ?_, ?_, ?_, ?_⟩
  · rw [all]
    exact keeps.owned
  · rw [gens]
    exact keeps.named
  · rw [gens]
    exact keeps.inbound
  · rcases keeps.place with waits | ⟨allowed, serves⟩
    · left
      refine ⟨?_, (sits _ g).mpr waits.slot, ?_⟩
      · rw [gens]
        exact waits.phase
      · intro other current
        exact waits.vacant other ((sits _ other).mp current)
    · right
      refine ⟨allowed, ?_, (sits _ g).mpr serves.slot⟩
      rw [gens]
      exact serves.phase

theorem Keeps.ne_of_unknown (keeps : r.Keeps served key g)
    (unknown : (r.gens ref).role = .unknown) : g ≠ ref := by
  rintro rfl
  exact role_of_key keeps.named unknown

variable {target : EntryKey}

theorem Keeps.prepareLocked {groupID : String} {generation : Generation}
    (keeps : r.Keeps served key g)
    (ordered : (r.prepareLocked ref target groupID generation).Ordered)
    (vacant : ∀ entry, r.entries.get target = some entry →
      entry.prepared = none) (different : g ≠ ref) :
    (r.prepareLocked ref target groupID generation).Keeps served key g := by
  apply keeps.moved ordered (moved_prepareLocked vacant) different
  intro sits
  rw [sits_prepareLocked vacant] at sits
  rcases sits with before | ⟨_, wrong, _⟩
  · exact before
  · cases wrong

theorem Keeps.entered (keeps : r.Keeps served key g)
    (generation : Generation)
    (ordered : (r.newGenerationLocked generation).Ordered) :
    (r.newGenerationLocked generation).Keeps served key g := by
  have different : g ≠ r.nextID := ne_of_lt (keeps.ordered.owned_lt keeps.owned)
  apply keeps.moved ordered (moved_newGenerationLocked r generation) different
  exact (sits_of_entries rfl).mp

theorem Keeps.published {entry : Entry} (keeps : r.Keeps served key g)
    (allowed : ref = g → served) (named : (r.gens ref).key = some target)
    (found : r.entries.get target = some entry)
    (prepared : entry.prepared = some ref) (vacant : entry.current = none) :
    (r.published ref target entry).Keeps served key g := by
  have ordered := keeps.ordered.published found prepared vacant
  have moved := moved_published found prepared vacant
  by_cases same : ref = g
  · subst same
    have here : target = key := Option.some.inj (named.symm.trans keeps.named)
    subst here
    have written : (r.published ref target entry).gens ref =
        { r.gens ref with phase := .current } := Function.update_self _ _ _
    refine ⟨ordered, keeps.owned, ?_, ?_, .inr ⟨allowed rfl, ?_, ?_⟩⟩
    · rw [written]
      exact keeps.named
    · rw [written]
      exact keeps.inbound
    · rw [written]
    · rw [sits_published found vacant, if_pos rfl]
      exact .inr ⟨rfl, rfl⟩
  · have elsewhere : key ≠ target := by
      rintro rfl
      rcases keeps.place with waits | ⟨_, serves⟩
      · obtain ⟨slot, foundSlot, holds⟩ := waits.slot
        cases Option.some.inj (found.symm.trans foundSlot)
        exact same (Option.some.inj (prepared.symm.trans holds))
      · obtain ⟨slot, foundSlot, holds⟩ := serves.slot
        cases Option.some.inj (found.symm.trans foundSlot)
        cases vacant.symm.trans holds
    apply keeps.moved ordered moved (Ne.symm same)
    intro sits
    rw [sits_published found vacant, if_neg elsewhere] at sits
    exact sits

theorem keeps_keptBy (served : Prop) (key : EntryKey) (g : GenRef) :
    KeptBy (sparing served g) (Keeps served key g) where
  counters := fun keeps _ _ _ => keeps.congr
    (ordered_keptBy.counters keeps.ordered _ _ _) rfl rfl rfl
  enter := fun keeps => keeps.entered inboundPending keeps.ordered.entered
  dial := by
    intro r keeps peerID _ free
    have ordered := ordered_keptBy.dial keeps.ordered peerID trivial free
    have vacant := vacant_of_peerTaken free
    have different : g ≠ r.nextID :=
      ne_of_lt (keeps.ordered.owned_lt keeps.owned)
    refine Keeps.moved keeps ordered ?_ different ?_
    · apply (moved_newGenerationLocked r _).trans (moved_prepareLocked vacant)
      intro target entry found
      exact ⟨entry, found⟩
    · intro sits
      rcases (sits_prepareLocked (r := r.newGenerationLocked _)
        vacant).mp sits with before | ⟨_, wrong, _⟩
      · exact (sits_of_entries rfl).mp before
      · cases wrong
  client := fun keeps ref instanceID groupID owned unknown free =>
    keeps.prepareLocked (ordered_keptBy.client keeps.ordered ref instanceID
      groupID owned unknown free)
      (fun entry found => (clientTaken_none free entry found).2.2)
      (keeps.ne_of_unknown unknown)
  join := fun keeps ref peerID preferred _ owned unknown free =>
    keeps.prepareLocked (ordered_keptBy.join keeps.ordered ref peerID
      preferred trivial owned unknown free) (vacant_of_peerTaken free)
      (keeps.ne_of_unknown unknown)
  arbitrate := fun keeps ref peerID entry loser _ _ _ found prepared
      outbound => keeps.congr (keeps.ordered.beginArbitration
        ⟨entry, found, prepared⟩ outbound) rfl rfl rfl
  complete := by
    intro r ended before keeps pruned arb live owned unknown free
    apply keeps.prepareLocked (ordered_keptBy.complete before.ordered
      keeps.ordered pruned arb live owned unknown free) (pruned.vacant free)
    apply keeps.ne_of_unknown
    rw [pruned.role]
    exact unknown
  publish := fun keeps _ _ _ allowed _ named found prepared vacant =>
    keeps.published allowed named found prepared vacant
  retire := fun {r} keeps ref ends => keeps.moved
    (keeps.ordered.retireLocked ref) (moved_retireLocked r ref) (Ne.symm ends)
    (sits_of_sits_retireLocked (by simp))
  drop := fun {r} keeps ref ends => keeps.moved
    (keeps.ordered.dropLocked ref) (moved_dropLocked r ref) (Ne.symm ends)
    sits_of_sits_dropLocked
  loser := by
    intro r keeps peerID arb live same
    have outbound := (keeps.ordered.loser peerID arb live).1
    rw [same, keeps.inbound] at outbound
    cases outbound
  released := fun keeps _ arb _ =>
    keeps.congr (keeps.ordered.loserReleased arb) rfl rfl rfl
  ended := fun keeps arb => keeps.congr (keeps.ordered.ended arb) rfl rfl rfl
  stop := fun keeps => keeps.congr keeps.ordered.stopBegin rfl rfl rfl

end Keeps

/-! ## Preparation -/

/-- A call that returns the inbound generation `g` prepared. -/
inductive Prepares (r : Registry) (g : GenRef) : EntryKey → Registry → Prop
    where
  | client {pending : GenRef} {instanceID groupID : String} {next : Registry}
      (returned : r.prepareClient pending instanceID groupID = (.ok g, next)) :
      Prepares r g (.client instanceID) next
  | peer {pending : GenRef} {peerID : String} {preferredInbound : Bool}
      {next : Registry}
      (returned : r.preparePeer pending peerID preferredInbound =
        (.ok (.generation g), next)) : Prepares r g (.peer peerID) next
  | arbitration {arb : ArbRef} {next : Registry}
      (returned : r.completeArbitration arb = (.ok g, next)) :
      Prepares r g (.peer (r.arbs arb).peerID) next

variable {groupID : String} {served : Prop} {pending : GenRef}

theorem keeps_prepareLocked {generation : Generation}
    (ordered : (r.prepareLocked g key groupID generation).Ordered)
    (owned : g ∈ r.all) (named : generation.key = some key)
    (inbound : generation.direction = .inbound)
    (prepared : generation.phase = .prepared)
    (vacant : ∀ entry, r.entries.get key = some entry → entry.prepared = none)
    (free : ∀ other, ¬ r.Sits key .current other) :
    (r.prepareLocked g key groupID generation).Keeps False key g := by
  have written : (r.prepareLocked g key groupID generation).gens g =
    generation := Function.update_self _ _ _
  refine ⟨ordered, owned, ?_, ?_, .inl ⟨?_, ?_, ?_⟩⟩
  · rw [written]
    exact named
  · rw [written]
    exact inbound
  · rw [written]
    exact prepared
  · exact (sits_prepareLocked vacant).mpr (.inr ⟨rfl, rfl, rfl⟩)
  · intro other sits
    rcases (sits_prepareLocked vacant).mp sits with before | ⟨_, wrong, _⟩
    · exact free other before
    · cases wrong

theorem Keeps.updateRoleHighWaterLocked (keeps : r.Keeps served key g)
    (role : Role) : (r.updateRoleHighWaterLocked role).Keeps served key g :=
  (keeps_keptBy served key g).updateRoleHighWaterLocked keeps role

private theorem free_of_peerTaken (free : r.peerTaken peerID = none)
    (other : GenRef) : ¬ r.Sits (.peer peerID) .current other := by
  rintro ⟨entry, found, holds⟩
  cases (peerTaken_none free entry found).1.symm.trans holds

section

variable (ordered : r.Ordered)

include ordered

theorem keeps_of_prepareClient {instanceID : String}
    (returned : r.prepareClient pending instanceID groupID = (.ok g, next)) :
    next.Keeps False (.client instanceID) g := by
  unfold Registry.prepareClient at returned
  split at returned
  · cases returned
  split at returned
  · cases returned
  rename_i found
  obtain ⟨owned, unknown, _⟩ := exact_iff.mp (eq_true_of_ne_false found)
  split at returned
  · cases returned
  rename_i free
  split at returned
  · cases returned
  cases returned
  apply Keeps.updateRoleHighWaterLocked
  apply keeps_prepareLocked (ordered_keptBy.client ordered _ _ _ owned
    unknown free) owned rfl (ordered.unknown _ owned unknown) rfl
  · intro entry present
    exact (clientTaken_none free entry present).2.2
  · rintro other ⟨entry, present, holds⟩
    cases (clientTaken_none free entry present).2.1.symm.trans holds

theorem keeps_of_preparePeer {preferredInbound : Bool}
    (returned : r.preparePeer pending peerID preferredInbound =
      (.ok (.generation g), next)) : next.Keeps False (.peer peerID) g := by
  unfold Registry.preparePeer at returned
  split at returned
  · cases returned
  split at returned
  · cases returned
  rename_i found
  obtain ⟨owned, unknown, _⟩ := exact_iff.mp (eq_true_of_ne_false found)
  split at returned
  · cases returned
  have vacant : r.peerTaken peerID = none →
      (if r.countRoleLocked .peer ≥ r.maxPeers
        then (Except.error RegistryError.peerCapacity, r)
        else (Except.ok (Prepared.generation pending),
          r.transferPendingToPeerLocked pending peerID)) =
        (.ok (.generation g), next) →
      next.Keeps False (.peer peerID) g := by
    intro free returns
    split at returns
    · cases returns
    cases returns
    apply Keeps.updateRoleHighWaterLocked
    exact keeps_prepareLocked (ordered_keptBy.join ordered g peerID true
      trivial owned unknown free) owned rfl (ordered.unknown g owned unknown)
      rfl (vacant_of_peerTaken free) (free_of_peerTaken free)
  dsimp only at returned
  split at returned
  · rename_i absent
    apply vacant _ returned
    unfold peerTaken
    rw [absent]
  rename_i entry present
  split at returned
  · cases returned
  rename_i noCurrent
  split at returned
  · rename_i noPrepared
    apply vacant _ returned
    unfold peerTaken
    rw [present]
    simp [not_not.mp noCurrent, noPrepared]
  · split at returned
    all_goals cases returned

theorem inbound_finishArbitrationLocked
    (live : r.arbitrations.get (r.arbs arb).peerID = some arb)
    (owned : ref ∈ r.all) (inbound : (r.gens ref).direction = .inbound) :
    (r.finishArbitrationLocked arb).Ordered ∧
      ref ∈ (r.finishArbitrationLocked arb).all ∧
      ((r.finishArbitrationLocked arb).gens ref).direction = .inbound := by
  have loser : ∀ {s : Registry}, s.Ordered ∧ ref ∈ s.all ∧
      (s.gens ref).direction = .inbound → ∀ peerID arb,
      s.arbitrations.get peerID = some arb → (s.arbs arb).loser ≠ ref := by
    rintro s ⟨ordered, _, inbound⟩ peerID arb live same
    have outbound := (ordered.loser peerID arb live).1
    rw [same, inbound] at outbound
    cases outbound
  unfold Registry.finishArbitrationLocked finishArbitrationWith
  dsimp only
  split
  · refine removeWithin_keeps (sparing True ref) (P := fun s => s.Ordered ∧
      ref ∈ s.all ∧ (s.gens ref).direction = .inbound) ?_ loser ?_ _
      ⟨ordered.ended arb, owned, inbound⟩
      (loser ⟨ordered, owned, inbound⟩ _ arb live)
    · rintro s ⟨ordered, owned, inbound⟩ other different
      have moved := moved_dropLocked s other
      refine ⟨ordered.dropLocked other,
        (moved.all ref (Ne.symm different)).mpr owned, ?_⟩
      rw [moved.gens ref (Ne.symm different)]
      exact inbound
    · rintro s ⟨ordered, owned, inbound⟩ arb
      exact ⟨ordered.ended arb, owned, inbound⟩
  · exact ⟨ordered.ended arb, owned, inbound⟩

theorem keeps_of_completeArbitration
    (returned : r.completeArbitration arb = (.ok g, next)) :
    next.Keeps False (.peer (r.arbs arb).peerID) g := by
  unfold Registry.completeArbitration at returned
  dsimp only at returned
  split at returned
  · cases returned
  rename_i found
  have live := live_of_exact (eq_true_of_ne_false found)
  split at returned
  · cases returned
  split at returned
  · cases returned
  rename_i ready
  simp only [not_or, Bool.not_eq_false] at ready
  obtain ⟨owned, unknown, _⟩ := exact_iff.mp ready.1
  split at returned
  · cases returned
  rename_i notTaken
  have free : r.peerTaken (r.arbs arb).peerID = none := by
    simpa using notTaken
  split at returned
  · cases returned
  cases returned
  have pruned := Pruned.finishArbitrationLocked r arb
  obtain ⟨finished, stays, inbound⟩ :=
    inbound_finishArbitrationLocked ordered live owned
      (ordered.unknown _ owned unknown)
  apply Keeps.updateRoleHighWaterLocked
  apply keeps_prepareLocked (ordered_keptBy.complete ordered
    finished pruned arb live owned unknown free) stays rfl inbound
    rfl (pruned.vacant free)
  intro other sits
  exact free_of_peerTaken free other (pruned.sits _ _ other sits)

theorem keeps_of_prepares (prepares : r.Prepares g key next) :
    next.Keeps False key g := by
  cases prepares with
  | client returned => exact keeps_of_prepareClient ordered returned
  | peer returned => exact keeps_of_preparePeer ordered returned
  | arbitration returned =>
    exact keeps_of_completeArbitration ordered returned

end

/-! ## Commit -/

theorem publishLocked_of_waits (named : (r.gens g).key = some key)
    (waits : r.Waits key g) : (r.publishLocked g).1 = true := by
  obtain ⟨entry, found, prepared⟩ := waits.slot
  have vacant : entry.current = none := by
    apply Option.eq_none_iff_forall_not_mem.mpr
    intro other current
    exact waits.vacant other ⟨entry, found, current⟩
  have holds : entry.prepared = some g := prepared
  unfold publishLocked
  rw [named]
  dsimp only
  rw [found]
  dsimp only
  rw [if_neg (by simp [holds, vacant])]

theorem serves_of_published (named : (r.gens g).key = some key)
    (published : (r.publishLocked g).1 = true) :
    (r.publishLocked g).2.Serves key g := by
  rcases publishLocked_cases r g with
    refused | ⟨target, entry, at_, _, _, _, published⟩
  · rw [refused] at published
    cases published
  cases named.symm.trans at_
  rw [published]
  constructor
  · simp [Registry.published, writeGen]
  · exact ⟨entry.publish g, FiniteMap.get_put_self _ _ _, rfl⟩

theorem Keeps.exact (keeps : r.Keeps served key g) (waits : r.Waits key g) :
    r.isExactLocked g (r.gens g).role .prepared = true :=
  exact_iff.mpr ⟨keeps.owned, rfl, waits.phase⟩

/-- The commit of a generation that waits succeeds; it reports whether the
registry was stopped meanwhile. -/
theorem commitReceiver_of_waits (keeps : r.Keeps served key g)
    (waits : r.Waits key g) :
    (r.commitReceiver g).1 = (true, r.closed) ∧
      (r.commitReceiver g).2.Serves key g := by
  have published := publishLocked_of_waits keeps.named waits
  unfold Registry.commitReceiver
  rw [if_neg (by simp [keeps.exact waits])]
  dsimp only
  rw [published]
  exact ⟨rfl, serves_of_published keeps.named published⟩

/-- The loser of a live arbitration is not committed. -/
theorem commitOutboundPeer_of_loser (ordered : r.Ordered)
    (live : r.arbitrations.get peerID = some arb) :
    r.commitOutboundPeer (r.arbs arb).loser = (false, r) := by
  obtain ⟨role, named⟩ :=
    Generation.peer_of_key (ordered.loser peerID arb live).2
  unfold Registry.commitOutboundPeer
  split
  · rfl
  · rw [named, live]
    dsimp only
    rw [if_pos rfl]

theorem commitOutboundPeer_cases (r : Registry) (ref : GenRef) :
    r.commitOutboundPeer ref = (false, r) ∨
      r.commitOutboundPeer ref = r.publishLocked ref := by
  unfold Registry.commitOutboundPeer
  split
  · exact .inl rfl
  split
  · split
    · exact .inl rfl
    · exact .inr rfl
  · exact .inr rfl

theorem commitOutboundPeer_of_false {ref : GenRef}
    (result : (r.commitOutboundPeer ref).1 = false) :
    (r.commitOutboundPeer ref).2 = r := by
  rcases commitOutboundPeer_cases r ref with same | publishes
  · rw [same]
  rw [publishes] at result ⊢
  rcases publishLocked_cases r ref with
    same | ⟨key, entry, _, _, _, _, published⟩
  · rw [same]
  · rw [published] at result
    cases result

/-- No other generation is committed in the place of one that waits or
serves. -/
theorem Keeps.commitOutboundPeer {other : GenRef}
    (keeps : r.Keeps served key g) (different : other ≠ g)
    (named : (r.gens other).key = some key) :
    r.commitOutboundPeer other = (false, r) := by
  have refused : r.publishLocked other = (false, r) := by
    rcases publishLocked_cases r other with
      same | ⟨target, entry, at_, found, prepared, vacant, _⟩
    · exact same
    exfalso
    have here : target = key := Option.some.inj (at_.symm.trans named)
    subst here
    rcases keeps.place with waits | ⟨_, serves⟩
    · obtain ⟨slot, foundSlot, holds⟩ := waits.slot
      cases Option.some.inj (found.symm.trans foundSlot)
      exact different (Option.some.inj (prepared.symm.trans holds))
    · obtain ⟨slot, foundSlot, holds⟩ := serves.slot
      cases Option.some.inj (found.symm.trans foundSlot)
      cases vacant.symm.trans holds
  rcases commitOutboundPeer_cases r other with same | publishes
  · exact same
  · exact publishes.trans refused

end Registry

/-! ## Later calls -/

/-- The operation does not retire, release or remove the generation. -/
def RegistryOp.Spares (g : GenRef) (r : Registry) : RegistryOp → Prop
  | .beginRetire ref => ref ≠ g
  | .release ref => ref ≠ g
  | .cancelArbitration arb abortInbound =>
    abortInbound = true → r.isExactArbitrationLocked arb = true →
      (r.arbs arb).inbound ≠ g
  | .stopFinish generations => g ∉ generations
  | _ => True

instance (g : GenRef) (r : Registry) (op : RegistryOp) :
    Decidable (op.Spares g r) := by
  apply @RegistryOp.casesOn (fun op => Decidable (op.Spares g r)) op <;>
    dsimp only [RegistryOp.Spares] <;> infer_instance

/-- The operation reports that it committed the generation. -/
def RegistryOp.Commits (g : GenRef) (r : Registry) : RegistryOp → Prop
  | .commitReceiver ref => ref = g ∧ (r.commitReceiver g).1.1 = true
  | .commitOutboundPeer ref => ref = g ∧ (r.commitOutboundPeer g).1 = true
  | _ => False

namespace Registry

variable {r next : Registry} {g : GenRef} {key : EntryKey}

variable {op : RegistryOp}

theorem serves_of_commits (named : (r.gens g).key = some key)
    (commits : op.Commits g r) : (r.run op).Serves key g := by
  cases op with
  | commitReceiver ref =>
    obtain ⟨rfl, committed⟩ := commits
    change (r.commitReceiver ref).2.Serves key ref
    unfold Registry.commitReceiver at committed ⊢
    split
    · rename_i refused
      rw [if_pos refused] at committed
      cases committed
    · rename_i found
      rw [if_neg found] at committed
      exact serves_of_published named committed
  | commitOutboundPeer ref =>
    obtain ⟨rfl, committed⟩ := commits
    change (r.commitOutboundPeer ref).2.Serves key ref
    rcases commitOutboundPeer_cases r ref with refused | publishes
    · rw [refused] at committed
      cases committed
    · rw [publishes] at committed ⊢
      exact serves_of_published named committed
  | _ => exact commits.elim

theorem Keeps.run (keeps : r.Keeps True key g) (spares : op.Spares g r) :
    (r.run op).Keeps True key g := by
  apply (keeps_keptBy True key g).run keeps
  cases op with
  | stopFinish generations =>
    intro ref member same
    exact spares (same ▸ member)
  | _ => first
      | exact spares
      | trivial
      | exact fun _ => trivial

theorem Keeps.true (keeps : r.Keeps False key g) : r.Keeps True key g :=
  { keeps with place := Or.inl keeps.waits }

theorem Keeps.commits_or_waits (keeps : r.Keeps False key g)
    (spares : op.Spares g r) :
    op.Commits g r ∨ (r.run op).Keeps False key g := by
  have within : (∀ ref, op = .commitReceiver ref → ref ≠ g) →
      (∀ ref, op = .commitOutboundPeer ref → ref ≠ g) →
      (r.run op).Keeps False key g := by
    intro receiver outbound
    apply (keeps_keptBy False key g).run keeps
    cases op with
    | commitReceiver ref => exact receiver ref rfl
    | commitOutboundPeer ref => exact outbound ref rfl
    | stopFinish generations =>
      intro ref member same
      exact spares (same ▸ member)
    | _ => exact spares
  cases op with
  | commitReceiver ref =>
    by_cases same : ref = g
    · subst same
      left
      exact ⟨rfl, congrArg Prod.fst
        (commitReceiver_of_waits keeps keeps.waits).1⟩
    right
    apply within
    · rintro _ ⟨⟩
      exact same
    · intro _ wrong
      cases wrong
  | commitOutboundPeer ref =>
    by_cases same : ref = g
    · subst same
      cases result : (r.commitOutboundPeer ref).1 with
      | true => exact .inl ⟨rfl, result⟩
      | false =>
        right
        change Keeps False key ref (r.commitOutboundPeer ref).2
        rw [commitOutboundPeer_of_false result]
        exact keeps
    · right
      apply within
      · intro _ wrong
        cases wrong
      · rintro _ ⟨⟩
        exact same
  | _ =>
    right
    apply within
    all_goals
      intro _ wrong
      cases wrong

end Registry

end QMux.Mesh
