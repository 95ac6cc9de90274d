import QMux.Mesh.RegistryEdits

/-!
# Live arbitrations

An arbitration holds back a pending inbound generation until the outbound
generation it beats is gone.  The invariant below says what the two sides of
a live arbitration are.  It makes the recursion between `removeLocked` and
`finishArbitrationLocked` stop after one round: the loser of an arbitration
has a role and is never the inbound side of another.
-/

namespace QMux.Mesh

open Function Support

namespace Registry

variable {r next : Registry} {ref : GenRef} {arb : ArbRef} {peerID : String}

/-- The generation is the inbound side of a live arbitration. -/
def IsInbound (r : Registry) (ref : GenRef) : Prop :=
  ∃ peerID arb, r.arbitrations.get peerID = some arb ∧
    (r.arbs arb).inbound = ref

/-- The generation is the losing side of a live arbitration. -/
def IsLoser (r : Registry) (ref : GenRef) : Prop :=
  ∃ peerID arb, r.arbitrations.get peerID = some arb ∧ (r.arbs arb).loser = ref

/-- The sides of every live arbitration. -/
structure Arbitrated (r : Registry) : Prop where
  named : ∀ peerID arb, r.arbitrations.get peerID = some arb →
    (r.arbs arb).peerID = peerID
  issued : ∀ peerID arb, r.arbitrations.get peerID = some arb →
    arb < r.nextArbID
  inbound : ∀ ref, r.IsInbound ref → ref ∈ r.all ∧ (r.gens ref).role = .unknown
  inboundOnce : ∀ peerID arb peerID' arb',
    r.arbitrations.get peerID = some arb →
    r.arbitrations.get peerID' = some arb' →
    (r.arbs arb).inbound = (r.arbs arb').inbound → peerID = peerID'
  loser : ∀ peerID arb, r.arbitrations.get peerID = some arb →
    (r.arbs arb).loser ∈ r.all ∧
      (r.gens (r.arbs arb).loser).key = some (.peer peerID)
  released : ∀ peerID arb, r.arbitrations.get peerID = some arb →
    (r.arbs arb).loserReleased = true →
    (r.gens (r.arbs arb).loser).phase = .retiring
  sole : ∀ peerID arb, r.arbitrations.get peerID = some arb →
    ∀ ref ∈ r.all, (r.gens ref).key = some (.peer peerID) →
    (r.gens ref).phase ≠ .retiring → ref = (r.arbs arb).loser
  closed : r.closed = true → r.arbitrations = ∅

variable {key : EntryKey}

theorem role_of_key {generation : Generation}
    (named : generation.key = some key) : generation.role ≠ .unknown := by
  intro unknown
  simp [Generation.key, unknown] at named

section

variable (arbitrated : r.Arbitrated)

include arbitrated

theorem Arbitrated.not_isInbound_of_isLoser (loser : r.IsLoser ref) :
    ¬ r.IsInbound ref := by
  obtain ⟨peerID, arb, live, rfl⟩ := loser
  intro inbound
  exact role_of_key (arbitrated.loser peerID arb live).2
    (arbitrated.inbound _ inbound).2

theorem Arbitrated.not_isInbound_of_key (named : (r.gens ref).key = some key) :
    ¬ r.IsInbound ref := by
  intro inbound
  have unknown := (arbitrated.inbound ref inbound).2
  simp [Generation.key, unknown] at named

theorem Arbitrated.not_isLoser_of_unknown
    (unknown : (r.gens ref).role = .unknown) : ¬ r.IsLoser ref := by
  rintro ⟨peerID, arb, live, rfl⟩
  exact role_of_key (arbitrated.loser peerID arb live).2 unknown

theorem Arbitrated.loser_iff :
    r.IsLoser ref ↔ ∃ arb, r.arbitrations.get (r.gens ref).peerID = some arb ∧
        (r.arbs arb).loser = ref := by
  constructor
  · rintro ⟨peerID, arb, live, rfl⟩
    have named := (arbitrated.loser peerID arb live).2
    have same := (Generation.peer_of_key named).2
    exact ⟨arb, by rw [same]; exact live, rfl⟩
  · rintro ⟨arb, live, rfl⟩
    exact ⟨_, arb, live, rfl⟩

theorem Arbitrated.exact_iff :
    r.isExactArbitrationLocked arb = true ↔
      ∃ peerID, r.arbitrations.get peerID = some arb := by
  unfold isExactArbitrationLocked
  rw [decide_eq_true_iff]
  constructor
  · intro live
    exact ⟨_, live⟩
  · rintro ⟨peerID, live⟩
    rw [arbitrated.named peerID arb live]
    exact live

theorem Arbitrated.arbitrationForInbound_some
    (found : r.arbitrationForInboundLocked ref = some arb) :
    r.arbitrations.get (r.arbs arb).peerID = some arb ∧
      (r.arbs arb).inbound = ref := by
  have matched := List.find?_some found
  simp only [Bool.decide_and, Bool.decide_eq_true, Bool.and_eq_true,
    decide_eq_true_eq] at matched
  obtain ⟨peerID, live⟩ := arbitrated.exact_iff.mp matched.1
  rw [arbitrated.named peerID arb live]
  exact ⟨live, matched.2⟩

theorem Arbitrated.arbitrationForInbound_none :
    r.arbitrationForInboundLocked ref = none ↔ ¬ r.IsInbound ref := by
  unfold arbitrationForInboundLocked
  rw [List.find?_eq_none]
  constructor
  · rintro none ⟨peerID, arb, live, side⟩
    apply none arb (List.mem_range.mpr (arbitrated.issued peerID arb live))
    simp [arbitrated.exact_iff.mpr ⟨peerID, live⟩, side]
  · intro notInbound arb _ matched
    simp only [Bool.decide_and, Bool.decide_eq_true, Bool.and_eq_true,
      decide_eq_true_eq] at matched
    obtain ⟨peerID, live⟩ := arbitrated.exact_iff.mp matched.1
    exact notInbound ⟨peerID, arb, live, matched.2⟩

end

/-! ## Edits of generations -/

/-- The two registries have the same arbitrations. -/
structure SameArbitrations (r next : Registry) : Prop where
  closed : next.closed = r.closed
  arbs : next.arbs = r.arbs
  nextArbID : next.nextArbID = r.nextArbID
  arbitrations : next.arbitrations = r.arbitrations

theorem SameArbitrations.isInbound (same : SameArbitrations r next) :
    next.IsInbound ref ↔ r.IsInbound ref := by
  unfold IsInbound
  rw [same.arbs, same.arbitrations]

section

variable (arbitrated : r.Arbitrated)

include arbitrated

/-- A generation moves that is on neither side of an arbitration; it does not
come between the sides of one either. -/
theorem Arbitrated.apart (same : SameArbitrations r next)
    (moved : Moved r next ref) (notInbound : ¬ r.IsInbound ref)
    (notLoser : ¬ r.IsLoser ref)
    (sole : ∀ peerID arb, r.arbitrations.get peerID = some arb →
      ref ∈ next.all → (next.gens ref).key = some (.peer peerID) →
      (next.gens ref).phase = .retiring) : next.Arbitrated := by
  have loserNe : ∀ peerID arb, r.arbitrations.get peerID = some arb →
      (r.arbs arb).loser ≠ ref := by
    intro peerID arb live lost
    exact notLoser ⟨peerID, arb, live, lost⟩
  constructor
  · rw [same.arbitrations, same.arbs]
    exact arbitrated.named
  · rw [same.arbitrations, same.nextArbID]
    exact arbitrated.issued
  · intro other inbound
    rw [same.isInbound] at inbound
    have different : other ≠ ref := by
      rintro rfl
      exact notInbound inbound
    rw [moved.all other different, moved.gens other different]
    exact arbitrated.inbound other inbound
  · rw [same.arbitrations, same.arbs]
    exact arbitrated.inboundOnce
  · rw [same.arbitrations, same.arbs]
    intro peerID arb live
    have different := loserNe peerID arb live
    rw [moved.all _ different, moved.gens _ different]
    exact arbitrated.loser peerID arb live
  · rw [same.arbitrations, same.arbs]
    intro peerID arb live released
    rw [moved.gens _ (loserNe peerID arb live)]
    exact arbitrated.released peerID arb live released
  · rw [same.arbitrations, same.arbs]
    intro peerID arb live other owned named active
    by_cases here : other = ref
    · subst here
      exact absurd (sole peerID arb live owned named) active
    · rw [moved.gens other here] at named active
      exact arbitrated.sole peerID arb live other
        ((moved.all other here).mp owned) named active
  · rw [same.closed, same.arbitrations]
    exact arbitrated.closed

theorem Arbitrated.phase {phase : Phase} (same : SameArbitrations r next)
    (all : next.all = r.all)
    (gens : next.gens = Function.update r.gens ref
      { r.gens ref with phase := phase })
    (forward : (r.gens ref).phase = .retiring → phase = .retiring) :
    next.Arbitrated := by
  have role : ∀ other, (next.gens other).role = (r.gens other).role := by
    intro other
    rw [gens]
    by_cases here : other = ref
    · subst here
      rw [update_self]
    · rw [update_of_ne here]
  have key : ∀ other, (next.gens other).key = (r.gens other).key := by
    intro other
    rw [gens]
    by_cases here : other = ref
    · subst here
      rw [update_self]
      rfl
    · rw [update_of_ne here]
  have retiring : ∀ other, (r.gens other).phase = .retiring →
      (next.gens other).phase = .retiring := by
    intro other before
    rw [gens]
    by_cases here : other = ref
    · subst here
      rw [update_self]
      exact forward before
    · rw [update_of_ne here]
      exact before
  constructor
  · rw [same.arbitrations, same.arbs]
    exact arbitrated.named
  · rw [same.arbitrations, same.nextArbID]
    exact arbitrated.issued
  · intro other inbound
    rw [same.isInbound] at inbound
    rw [all, role]
    exact arbitrated.inbound other inbound
  · rw [same.arbitrations, same.arbs]
    exact arbitrated.inboundOnce
  · rw [same.arbitrations, same.arbs, all]
    intro peerID arb live
    rw [key]
    exact arbitrated.loser peerID arb live
  · rw [same.arbitrations, same.arbs]
    intro peerID arb live released
    exact retiring _ (arbitrated.released peerID arb live released)
  · rw [same.arbitrations, same.arbs, all]
    intro peerID arb live other owned named active
    rw [key] at named
    apply arbitrated.sole peerID arb live other owned named
    intro before
    exact active (retiring other before)
  · rw [same.closed, same.arbitrations]
    exact arbitrated.closed

theorem Arbitrated.congr (same : SameArbitrations r next)
    (all : next.all = r.all) (gens : next.gens = r.gens) : next.Arbitrated := by
  have unchanged : next.gens = Function.update r.gens 0
      { r.gens 0 with phase := (r.gens 0).phase } := by
    rw [gens]
    exact (update_eq_self 0 r.gens).symm
  exact arbitrated.phase same all unchanged fun before => before

theorem Arbitrated.delete (peerID : String) :
    { r with arbitrations := r.arbitrations.delete peerID }.Arbitrated where
  named := fun target arb live =>
    arbitrated.named target arb (FiniteMap.get_of_get_delete live)
  issued := fun target arb live =>
    arbitrated.issued target arb (FiniteMap.get_of_get_delete live)
  inbound := by
    rintro other ⟨target, arb, live, side⟩
    exact arbitrated.inbound other
      ⟨target, arb, FiniteMap.get_of_get_delete live, side⟩
  inboundOnce := fun first arb second arb' live live' =>
    arbitrated.inboundOnce first arb second arb'
      (FiniteMap.get_of_get_delete live) (FiniteMap.get_of_get_delete live')
  loser := fun target arb live =>
    arbitrated.loser target arb (FiniteMap.get_of_get_delete live)
  released := fun target arb live =>
    arbitrated.released target arb (FiniteMap.get_of_get_delete live)
  sole := fun target arb live =>
    arbitrated.sole target arb (FiniteMap.get_of_get_delete live)
  closed := by
    intro closed
    dsimp only
    rw [arbitrated.closed closed]
    apply FiniteMap.ext
    intro key
    simp [FiniteMap.get_delete]

end

/-! ## Both invariants -/

/-- The slots and the arbitrations of a registry. -/
structure Sound (r : Registry) : Prop where
  slotted : r.Slotted
  arbitrated : r.Arbitrated

theorem Sound.congr (sound : r.Sound) (gens : next.gens = r.gens)
    (nextID : next.nextID = r.nextID) (all : next.all = r.all)
    (entries : next.entries = r.entries)
    (same : SameArbitrations r next) : next.Sound where
  slotted := sound.slotted.congr gens nextID all entries
  arbitrated := sound.arbitrated.congr same all gens

theorem retireLocked_sameArbitrations (r : Registry) (ref : GenRef) :
    SameArbitrations r (r.retireLocked ref) := by
  obtain ⟨entries, frame⟩ := retireLocked_frame r ref
  rw [frame]
  exact ⟨rfl, rfl, rfl, rfl⟩

theorem dropLocked_sameArbitrations (r : Registry) (ref : GenRef) :
    SameArbitrations r (r.dropLocked ref) := by
  obtain ⟨entries, frame⟩ := dropLocked_frame r ref
  rw [frame]
  exact ⟨rfl, rfl, rfl, rfl⟩

theorem dropLocked_all (r : Registry) (ref : GenRef) :
    (r.dropLocked ref).all = r.all.erase ref := by
  obtain ⟨entries, frame⟩ := dropLocked_frame r ref
  rw [frame]

theorem Sound.dropLocked (sound : r.Sound) (notInbound : ¬ r.IsInbound ref)
    (notLoser : ¬ r.IsLoser ref) : (r.dropLocked ref).Sound where
  slotted := sound.slotted.dropLocked ref
  arbitrated := by
    apply sound.arbitrated.apart (dropLocked_sameArbitrations r ref)
      (moved_dropLocked r ref) notInbound notLoser
    intro peerID arb live owned
    rw [dropLocked_all] at owned
    exact absurd rfl (Finset.ne_of_mem_erase owned)

/-! ## Removal -/

/-- The registry without an arbitration. -/
def ended (r : Registry) (arb : ArbRef) : Registry :=
  { r with arbitrations := r.arbitrations.delete (r.arbs arb).peerID }

/-- What `finishArbitrationLocked` does. -/
def finished (r : Registry) (arb : ArbRef) : Registry :=
  if (r.arbs arb).loserReleased
  then (r.ended arb).dropLocked (r.arbs arb).loser
  else r.ended arb

theorem finished_arbs (r : Registry) (arb : ArbRef) :
    (r.finished arb).arbs = r.arbs := by
  unfold finished
  split
  · rw [(dropLocked_sameArbitrations _ _).arbs]
    rfl
  · rfl

theorem Sound.ended (sound : r.Sound) (arb : ArbRef) :
    (r.ended arb).Sound where
  slotted := sound.slotted.congr rfl rfl rfl rfl
  arbitrated := sound.arbitrated.delete _

theorem ended_get (arbitrated : r.Arbitrated)
    (live : r.arbitrations.get peerID = some arb) (other : String) :
    (r.ended arb).arbitrations.get other =
      if other = peerID then none else r.arbitrations.get other := by
  unfold ended
  dsimp only
  rw [FiniteMap.get_delete, arbitrated.named peerID arb live]

section Finished

variable (sound : r.Sound) (live : r.arbitrations.get peerID = some arb)
include sound live

theorem ended_loser_apart :
    ¬ (r.ended arb).IsInbound (r.arbs arb).loser ∧
      ¬ (r.ended arb).IsLoser (r.arbs arb).loser := by
  have named := (sound.arbitrated.loser peerID arb live).2
  refine ⟨?_, ?_⟩
  · exact (sound.ended arb).arbitrated.not_isInbound_of_key named
  · rintro ⟨other, arb', live', lost⟩
    rw [ended_get sound.arbitrated live] at live'
    split at live'
    · cases live'
    rename_i different
    have named' := (sound.arbitrated.loser other arb' live').2
    rw [show (r.arbs arb').loser = (r.arbs arb).loser from lost,
      named] at named'
    cases named'
    exact different rfl

theorem Sound.finished : (r.finished arb).Sound := by
  unfold Registry.finished
  split
  · obtain ⟨notInbound, notLoser⟩ := ended_loser_apart sound live
    exact (sound.ended arb).dropLocked notInbound notLoser
  · exact sound.ended arb

theorem finished_get (other : String) :
    (r.finished arb).arbitrations.get other =
      if other = peerID then none else r.arbitrations.get other := by
  unfold Registry.finished
  split
  · rw [(dropLocked_sameArbitrations _ _).arbitrations]
    exact ended_get sound.arbitrated live other
  · exact ended_get sound.arbitrated live other

theorem finished_inbound :
    (r.arbs arb).inbound ∈ (r.finished arb).all ∧
      (r.finished arb).gens (r.arbs arb).inbound =
        r.gens (r.arbs arb).inbound := by
  obtain ⟨owned, unknown⟩ := sound.arbitrated.inbound _ ⟨peerID, arb, live, rfl⟩
  have different : (r.arbs arb).inbound ≠ (r.arbs arb).loser := by
    intro same
    have named := (sound.arbitrated.loser peerID arb live).2
    rw [← same] at named
    exact role_of_key named unknown
  unfold Registry.finished
  split
  · have moved := moved_dropLocked (r.ended arb) (r.arbs arb).loser
    rw [moved.all _ different, moved.gens _ different]
    exact ⟨owned, rfl⟩
  · exact ⟨owned, rfl⟩

theorem finished_inbound_apart :
    ¬ (r.finished arb).IsInbound (r.arbs arb).inbound ∧
      ¬ (r.finished arb).IsLoser (r.arbs arb).inbound := by
  have unknown := (sound.arbitrated.inbound _ ⟨peerID, arb, live, rfl⟩).2
  refine ⟨?_, ?_⟩
  · rintro ⟨other, arb', live', side⟩
    rw [finished_get sound live] at live'
    rw [finished_arbs] at side
    split at live'
    · cases live'
    · rename_i different
      exact different (sound.arbitrated.inboundOnce other arb' peerID arb
        live' live side)
  · apply (sound.finished live).arbitrated.not_isLoser_of_unknown
    rw [(finished_inbound sound live).2]
    exact unknown

end Finished

theorem removeWithin_of_not_isInbound (arbitrated : r.Arbitrated)
    (notInbound : ¬ r.IsInbound ref) (owned : ref ∈ r.all) (depth : Nat) :
    removeWithin (depth + 1) r ref = r.dropLocked ref := by
  unfold removeWithin
  rw [if_neg (not_not.mpr owned),
    arbitrated.arbitrationForInbound_none.mpr notInbound]

theorem finishArbitrationWith_eq
    {remove : Registry → GenRef → Registry}
    (removes : remove (r.ended arb) (r.arbs arb).loser =
      (r.ended arb).dropLocked (r.arbs arb).loser) :
    r.finishArbitrationWith remove arb = r.finished arb := by
  unfold finishArbitrationWith finished
  dsimp only
  split
  · exact removes
  · rfl

theorem finishArbitrationLocked_eq (sound : r.Sound)
    (live : r.arbitrations.get peerID = some arb) :
    r.finishArbitrationLocked arb = r.finished arb := by
  apply finishArbitrationWith_eq
  exact removeWithin_of_not_isInbound (sound.ended arb).arbitrated
    (ended_loser_apart sound live).1
    (sound.arbitrated.loser peerID arb live).1 _

/-- A removed generation takes its arbitration along, and with it a loser
that was only waiting for the end of the arbitration. -/
theorem removeLocked_cases (sound : r.Sound) (ref : GenRef) :
    (ref ∉ r.all ∧ r.removeLocked ref = r) ∨
    (ref ∈ r.all ∧ ¬ r.IsInbound ref ∧ r.removeLocked ref = r.dropLocked ref) ∨
    (∃ peerID arb, ref ∈ r.all ∧ r.arbitrations.get peerID = some arb ∧
      (r.arbs arb).inbound = ref ∧
      r.removeLocked ref = (r.finished arb).dropLocked ref) := by
  by_cases owned : ref ∈ r.all
  · right
    cases found : r.arbitrationForInboundLocked ref with
    | none =>
      left
      have notInbound := sound.arbitrated.arbitrationForInbound_none.mp found
      exact ⟨owned, notInbound, removeWithin_of_not_isInbound
        sound.arbitrated notInbound owned _⟩
    | some arb =>
      right
      obtain ⟨live, side⟩ := sound.arbitrated.arbitrationForInbound_some found
      refine ⟨_, arb, owned, live, side, ?_⟩
      -- the recursive removal has the fuel of this arbitration left
      obtain ⟨depth, size⟩ : ∃ depth, r.arbitrations.size = depth + 1 := by
        apply Nat.exists_eq_add_one.mpr
        have smaller := FiniteMap.size_delete_of_present live
        omega
      unfold removeLocked
      rw [size, removeWithin, if_neg (not_not.mpr owned), found]
      dsimp only
      rw [finishArbitrationWith_eq]
      exact removeWithin_of_not_isInbound (sound.ended arb).arbitrated
        (ended_loser_apart sound live).1 (sound.arbitrated.loser _ arb live).1 _
  · left
    refine ⟨owned, ?_⟩
    unfold removeLocked removeWithin
    rw [if_pos owned]

end Registry

end QMux.Mesh
