import QMux.Mesh.RegistryRuns

/-!
# Counts of the registry

Three counts of generations have a limit and a high-water mark.  An operation
lowers a count, or raises one of them by a generation for which there was
room.
-/

namespace QMux.Mesh

open Function Support

/-- The counts of the registry. -/
inductive Gauge where
  | pending
  | client
  | peer
deriving DecidableEq

namespace Gauge

def Counts : Gauge → Generation → Prop
  | .pending, generation =>
    generation.role = .unknown ∧ generation.phase = .pending
  | .client, generation => generation.role = .client
  | .peer, generation => generation.role = .peer

instance (gauge : Gauge) (generation : Generation) :
    Decidable (gauge.Counts generation) := by
  cases gauge <;> dsimp only [Counts] <;> infer_instance

end Gauge

namespace Registry

variable {r base next : Registry} {ref : GenRef} {arb : ArbRef}
  {peerID : String} {gauge target : Gauge}

def count (r : Registry) (gauge : Gauge) : Nat :=
  (r.all.filter fun ref => gauge.Counts (r.gens ref)).card

def limit (r : Registry) : Gauge → Nat
  | .pending => r.maxPending
  | .client => r.maxClients
  | .peer => r.maxPeers

def high (r : Registry) : Gauge → Nat
  | .pending => r.pendingHigh
  | .client => r.clientHigh
  | .peer => r.peerHigh

/-! ## One generation moves -/

section

variable (moved : Moved r next ref)

include moved

private theorem mem_counted_of_ne {other : GenRef} (different : other ≠ ref) :
    other ∈ next.all.filter (fun ref => gauge.Counts (next.gens ref)) ↔
      other ∈ r.all.filter fun ref => gauge.Counts (r.gens ref) := by
  rw [Finset.mem_filter, Finset.mem_filter, moved.all other different,
    moved.gens other different]

theorem count_le_of_moved
    (counted : ref ∈ next.all → gauge.Counts (next.gens ref) →
      ref ∈ r.all ∧ gauge.Counts (r.gens ref)) :
    next.count gauge ≤ r.count gauge := by
  apply Finset.card_le_card
  intro other inside
  by_cases same : other = ref
  · subst same
    rw [Finset.mem_filter] at inside ⊢
    exact counted inside.1 inside.2
  · exact (mem_counted_of_ne moved same).mp inside

theorem count_le_succ_of_moved : next.count gauge ≤ r.count gauge + 1 := by
  have subset :
      next.all.filter (fun ref => gauge.Counts (next.gens ref)) ⊆
        insert ref (r.all.filter fun ref => gauge.Counts (r.gens ref)) := by
    intro other inside
    by_cases same : other = ref
    · exact Finset.mem_insert.mpr (.inl same)
    · exact Finset.mem_insert.mpr
        (.inr ((mem_counted_of_ne moved same).mp inside))
  exact le_trans (Finset.card_le_card subset) (Finset.card_insert_le _ _)

theorem count_lt_of_moved (before : ref ∈ r.all ∧ gauge.Counts (r.gens ref))
    (gone : ref ∉ next.all) : next.count gauge < r.count gauge := by
  apply Finset.card_lt_card
  refine Finset.ssubset_iff_of_subset ?_ |>.mpr ⟨ref, ?_, ?_⟩
  · intro other inside
    have different : other ≠ ref := by
      rintro rfl
      exact gone (Finset.mem_filter.mp inside).1
    exact (mem_counted_of_ne moved different).mp inside
  · exact Finset.mem_filter.mpr before
  · intro inside
    exact gone (Finset.mem_filter.mp inside).1

end

/-! ## Changes of a count -/

/-- The count does not grow. -/
structure Falls (r next : Registry) (gauge : Gauge) : Prop where
  limit : next.limit gauge = r.limit gauge
  high : next.high gauge = r.high gauge
  count : next.count gauge ≤ r.count gauge

/-- The count grows to at most the limit, and is noted. -/
structure Rises (r next : Registry) (gauge : Gauge) : Prop where
  limit : next.limit gauge = r.limit gauge
  high : next.high gauge = max (r.high gauge) (next.count gauge)
  count : next.count gauge ≤ r.limit gauge

variable {middle : Registry} {key : EntryKey} {gone : GenRef → Prop}
  {names : String → Prop}

theorem Falls.trans (first : Falls r middle gauge)
    (second : Falls middle next gauge) : Falls r next gauge where
  limit := second.limit.trans first.limit
  high := second.high.trans first.high
  count := le_trans second.count first.count

theorem Falls.rises (first : Falls r middle gauge)
    (second : Rises middle next gauge) : Rises r next gauge where
  limit := second.limit.trans first.limit
  high := by
    rw [second.high, first.high]
  count := by
    rw [← first.limit]
    exact second.count

theorem Falls.refl (r : Registry) (gauge : Gauge) : Falls r r gauge :=
  ⟨rfl, rfl, le_refl _⟩

theorem falls_of_same (gens : next.gens = r.gens) (all : next.all = r.all)
    (limit : next.limit gauge = r.limit gauge)
    (high : next.high gauge = r.high gauge) : Falls r next gauge := by
  refine ⟨limit, high, ?_⟩
  unfold count
  rw [gens, all]

theorem falls_or_rises (moved : Moved r next ref)
    (limits : ∀ gauge, next.limit gauge = r.limit gauge)
    (highs : ∀ gauge, next.high gauge = if gauge = target
      then max (r.high gauge) (next.count gauge) else r.high gauge)
    (only : ∀ gauge, gauge ≠ target → ¬ gauge.Counts (next.gens ref))
    (room : r.count target < r.limit target) (gauge : Gauge) :
    Falls r next gauge ∨ Rises r next gauge := by
  by_cases same : gauge = target
  · subst same
    right
    refine ⟨limits gauge, ?_, ?_⟩
    · rw [highs, if_pos rfl]
    · exact le_trans (count_le_succ_of_moved moved) room
  · left
    refine ⟨limits gauge, ?_, ?_⟩
    · rw [highs, if_neg same]
    · apply count_le_of_moved moved
      intro _ counted
      exact absurd counted (only gauge same)

theorem falls_dropLocked (r : Registry) (ref : GenRef) (gauge : Gauge) :
    Falls r (r.dropLocked ref) gauge := by
  have all := dropLocked_all r ref
  have moved := moved_dropLocked r ref
  obtain ⟨entries, frame⟩ := dropLocked_frame r ref
  refine ⟨?_, ?_, ?_⟩
  · rw [frame]
    cases gauge <;> rfl
  · rw [frame]
    cases gauge <;> rfl
  · apply count_le_of_moved moved
    intro owned
    rw [all] at owned
    exact absurd rfl (Finset.ne_of_mem_erase owned)

theorem falls_ended (r : Registry) (arb : ArbRef) (gauge : Gauge) :
    Falls r (r.ended arb) gauge := by
  apply falls_of_same <;> cases gauge <;> rfl

theorem falls_finished (r : Registry) (arb : ArbRef) (gauge : Gauge) :
    Falls r (r.finished arb) gauge := by
  unfold finished
  split
  · exact (falls_ended r arb gauge).trans (falls_dropLocked _ _ gauge)
  · exact falls_ended r arb gauge

theorem Shrink.falls (shrink : Shrink gone r next) (gauge : Gauge) :
    Falls r next gauge := by
  cases shrink with
  | finished peerID arb live => exact falls_finished r arb gauge
  | dropped ref owned notInbound notLoser _ =>
    exact falls_dropLocked r ref gauge

theorem falls_of_phase {phase : Phase} (named : (r.gens ref).key = some key)
    (moved : Moved r next ref) (all : next.all = r.all)
    (written : next.gens ref = { r.gens ref with phase := phase })
    (limit : next.limit gauge = r.limit gauge)
    (high : next.high gauge = r.high gauge) : Falls r next gauge := by
  refine ⟨limit, high, ?_⟩
  apply count_le_of_moved moved
  intro owned counted
  rw [all] at owned
  refine ⟨owned, ?_⟩
  rw [written] at counted
  cases gauge with
  | pending =>
    have unknown : (r.gens ref).role = .unknown := counted.1
    simp [Generation.key, unknown] at named
  | client | peer => exact counted

theorem falls_retireLocked (sound : r.Sound) (owned : ref ∈ r.all)
    (active : (r.gens ref).phase ∈ [Phase.prepared, .current])
    (gauge : Gauge) : Falls r (r.retireLocked ref) gauge := by
  have moved := moved_retireLocked r ref
  obtain ⟨entries, frame⟩ := retireLocked_frame r ref
  obtain ⟨key, named⟩ := sound.slotted.key_of_active owned active
  apply falls_of_phase named moved
  · rw [frame]
  · rw [frame]
    exact update_self _ _ _
  all_goals
    rw [frame]
    cases gauge <;> rfl

/-- The count of a role. -/
def roleGauge : Role → Option Gauge
  | .unknown => none
  | .client => some .client
  | .peer => some .peer

theorem Moved.updateRoleHighWaterLocked (moved : Moved r next ref)
    (role : Role) : Moved r (next.updateRoleHighWaterLocked role) ref := by
  obtain ⟨clientHigh, peerHigh, frame⟩ :=
    updateRoleHighWaterLocked_frame next role
  rw [frame]
  exact ⟨moved.gens, moved.all, moved.nextID, moved.sits, moved.groups,
    moved.filled⟩

theorem updateRoleHighWaterLocked_gens (r : Registry) (role : Role) :
    (r.updateRoleHighWaterLocked role).gens = r.gens := by
  cases role <;> rfl

theorem updateRoleHighWaterLocked_high (r : Registry) (role : Role)
    (gauge : Gauge) : (r.updateRoleHighWaterLocked role).high gauge =
      if roleGauge role = some gauge
      then max (r.high gauge) (r.count gauge) else r.high gauge := by
  cases role <;> cases gauge <;> rfl

theorem updateRoleHighWaterLocked_limit (r : Registry) (role : Role)
    (gauge : Gauge) :
    (r.updateRoleHighWaterLocked role).limit gauge = r.limit gauge := by
  cases role <;> cases gauge <;> rfl

theorem updateRoleHighWaterLocked_count (r : Registry) (role : Role)
    (gauge : Gauge) :
    (r.updateRoleHighWaterLocked role).count gauge = r.count gauge := by
  cases role <;> rfl

theorem prepareLocked_high (r : Registry) (ref : GenRef) (key : EntryKey)
    (groupID : String) (generation : Generation) (gauge : Gauge) :
    (r.prepareLocked ref key groupID generation).high gauge = r.high gauge := by
  cases gauge <;> rfl

theorem prepareLocked_limit (r : Registry) (ref : GenRef) (key : EntryKey)
    (groupID : String) (generation : Generation) (gauge : Gauge) :
    (r.prepareLocked ref key groupID generation).limit gauge =
      r.limit gauge := by
  cases gauge <;> rfl

/-- A generation is prepared for a role that has room; `base` is `r`, with
the generation in `all` if it is new. -/
theorem prepared_falls_or_rises {groupID : String} {generation : Generation}
    (entered : Moved r base ref) (entries : base.entries = r.entries)
    (limits : ∀ gauge, base.limit gauge = r.limit gauge)
    (highs : ∀ gauge, base.high gauge = r.high gauge)
    (vacant : ∀ entry, r.entries.get key = some entry → entry.prepared = none)
    (role : roleGauge generation.role = some target)
    (room : r.count target < r.limit target) (gauge : Gauge) :
    Falls r ((base.prepareLocked ref key groupID
        generation).updateRoleHighWaterLocked generation.role) gauge ∨
      Rises r ((base.prepareLocked ref key groupID
        generation).updateRoleHighWaterLocked generation.role) gauge := by
  have moved : Moved r (base.prepareLocked ref key groupID generation) ref := by
    apply entered.trans (moved_prepareLocked (by rw [entries]; exact vacant))
    intro target entry found
    rw [entries]
    exact ⟨entry, found⟩
  have written : (base.prepareLocked ref key groupID generation).gens ref =
      generation := update_self _ _ _
  apply falls_or_rises (moved.updateRoleHighWaterLocked generation.role) _ _ _
    room
  · intro gauge
    rw [updateRoleHighWaterLocked_limit, prepareLocked_limit, limits]
  · intro gauge
    rw [updateRoleHighWaterLocked_high, updateRoleHighWaterLocked_count,
      prepareLocked_high, highs, role]
    simp only [Option.some.injEq, eq_comm]
  · intro gauge different
    rw [updateRoleHighWaterLocked_gens, written]
    intro counted
    revert role different counted
    cases gauge <;> cases kind : generation.role <;>
      simp [roleGauge, Gauge.Counts, kind, eq_comm]

theorem transfer_falls_or_rises
    (vacant : ∀ entry, r.entries.get (.peer peerID) = some entry →
      entry.prepared = none)
    (room : r.count .peer < r.limit .peer) (gauge : Gauge) :
    Falls r (r.transferPendingToPeerLocked ref peerID) gauge ∨
      Rises r (r.transferPendingToPeerLocked ref peerID) gauge :=
  prepared_falls_or_rises (Moved.refl r ref) rfl (fun _ => rfl)
    (fun _ => rfl) vacant rfl room gauge

theorem begun_falls_or_rises
    (room : r.countPhaseLocked .unknown .pending < r.maxPending)
    (gauge : Gauge) : Falls r r.begun gauge ∨ Rises r r.begun gauge := by
  have moved : Moved r r.begun r.nextID := by
    have entered := moved_newGenerationLocked r inboundPending
    exact ⟨entered.gens, entered.all, entered.nextID, entered.sits,
      entered.groups, entered.filled⟩
  have written : r.begun.gens r.nextID = inboundPending := update_self _ _ _
  have fits : r.count .pending < r.limit .pending := room
  apply falls_or_rises moved _ _ _ fits
  · intro gauge
    cases gauge <;> rfl
  · intro gauge
    cases gauge <;> rfl
  · intro gauge different
    rw [written]
    cases gauge with
    | pending => exact absurd rfl different
    | client | peer => simp [Gauge.Counts, inboundPending]

theorem dialed_falls_or_rises (free : r.peerTaken peerID = none)
    (room : r.countRoleLocked .peer < r.maxPeers) (gauge : Gauge) :
    Falls r (r.dialed peerID) gauge ∨ Rises r (r.dialed peerID) gauge := by
  have fits : r.count .peer < r.limit .peer := room
  apply prepared_falls_or_rises (moved_newGenerationLocked r _) rfl _ _ _
    rfl fits
  · intro gauge
    cases gauge <;> rfl
  · intro gauge
    cases gauge <;> rfl
  · intro entry found
    exact (peerTaken_none free entry found).2

variable (sound : r.Sound)

include sound

theorem Advance.falls_or_rises (advance : Advance gone names r next)
    (gauge : Gauge) : Falls r next gauge ∨ Rises r next gauge := by
  cases advance with
  | stay => exact .inl (.refl r gauge)
  | clientPrepared ref instanceID groupID opened pending free room _ =>
    have fits : r.count .client < r.limit .client := room
    apply prepared_falls_or_rises (Moved.refl r ref) rfl (fun _ => rfl)
      (fun _ => rfl) _ rfl fits
    intro entry found
    exact (clientTaken_none free entry found).2.2
  | peerPrepared ref peerID opened pending unsuppressed free room =>
    apply transfer_falls_or_rises _ room
    intro entry found
    exact (peerTaken_none free entry found).2
  | arbitrated ref peerID entry loser opened pending unsuppressed found
      vacant prepared =>
      left
      apply falls_of_same <;> cases gauge <;> rfl
  | published ref key entry owned named found prepared vacant =>
    left
    apply falls_of_phase named
      (moved_published found prepared vacant) rfl
      (update_self _ _ _) <;> cases gauge <;> rfl
  | retired ref owned active _ =>
    exact .inl (falls_retireLocked sound owned active gauge)
  | loserReleased peerID arb live retiring =>
    left
    apply falls_of_same <;> cases gauge <;> rfl
  | loserRetired peerID arb live active =>
    have owned := (sound.arbitrated.loser peerID arb live).1
    left
    apply (falls_retireLocked sound owned active gauge).trans
    apply falls_of_same <;> cases gauge <;> rfl

theorem finished_room (live : r.arbitrations.get peerID = some arb)
    (released : (r.arbs arb).loserReleased = true) :
    (r.finished arb).count .peer < r.count .peer := by
  obtain ⟨owned, named⟩ := sound.arbitrated.loser peerID arb live
  have peer := (Generation.peer_of_key named).1
  have gone : (r.arbs arb).loser ∉
      ((r.ended arb).dropLocked (r.arbs arb).loser).all := by
    rw [dropLocked_all]
    exact Finset.notMem_erase _ _
  unfold finished
  rw [if_pos released]
  have fewer : ((r.ended arb).dropLocked (r.arbs arb).loser).count .peer <
      (r.ended arb).count .peer :=
    count_lt_of_moved (moved_dropLocked _ _) ⟨owned, peer⟩ gone
  exact fewer

theorem Change.falls_or_rises
    (within : ∀ gauge, r.count gauge ≤ r.limit gauge)
    (change : Change gone names r next) (gauge : Gauge) :
    Falls r next gauge ∨ Rises r next gauge := by
  cases change with
  | advance advance => exact advance.falls_or_rises sound gauge
  | shrink shrinks =>
    left
    induction shrinks with
    | refl => exact .refl r gauge
    | tail _ last ih => exact ih.trans (last.falls gauge)
  | complete peerID arb live opened released free =>
    have fell := falls_finished r arb
    have room : (r.finished arb).count .peer <
        (r.finished arb).limit .peer := by
      rw [(fell .peer).limit]
      exact lt_of_lt_of_le (finished_room sound live released) (within .peer)
    have vacant : ∀ entry, (r.finished arb).entries.get (.peer peerID) =
        some entry → entry.prepared = none := by
      apply finished_vacant
      intro entry found
      exact (peerTaken_none free entry found).2
    rcases transfer_falls_or_rises vacant room gauge with falls | rises
    · exact .inl ((fell gauge).trans falls)
    · exact .inr ((fell gauge).rises rises)

theorem Effect.falls_or_rises {op : RegistryOp}
    (within : ∀ gauge, r.count gauge ≤ r.limit gauge)
    (effect : r.Effect op next) (gauge : Gauge) :
    Falls r next gauge ∨ Rises r next gauge := by
  cases effect with
  | change op change => exact change.falls_or_rises sound within gauge
  | inbound room => exact begun_falls_or_rises room gauge
  | outbound peerID unsuppressed free room =>
    exact dialed_falls_or_rises free room gauge
  | stop generations =>
    left
    apply falls_of_same <;> cases gauge <;> rfl

/-! ## Arbitration always completes -/

theorem Sound.peerTaken_of_released
    (live : r.arbitrations.get peerID = some arb)
    (released : (r.arbs arb).loserReleased = true) :
    r.peerTaken peerID = none := by
  have retiring := sound.arbitrated.released peerID arb live released
  have inactive : ∀ {entry slot ref}, slot ≠ Phase.retiring →
      r.entries.get (.peer peerID) = some entry → ¬ entry.Holds slot ref := by
    intro entry slot ref active found holds
    obtain ⟨owned, named, phase⟩ := (sound.slotted.slots _ slot ref).mp
      ⟨entry, found, holds⟩
    have notRetiring : (r.gens ref).phase ≠ .retiring := by
      rw [phase]
      exact active
    have lost := sound.arbitrated.sole peerID arb live ref owned named
      notRetiring
    rw [lost] at notRetiring
    exact notRetiring retiring
  unfold peerTaken
  cases found : r.entries.get (.peer peerID) with
  | none => rfl
  | some entry =>
    have noCurrent : entry.current = none := by
      apply Option.eq_none_iff_forall_not_mem.mpr
      intro ref current
      have free : ¬ entry.Holds .current ref := inactive (by simp) found
      exact free current
    have noPrepared : entry.prepared = none := by
      apply Option.eq_none_iff_forall_not_mem.mpr
      intro ref prepared
      have free : ¬ entry.Holds .prepared ref := inactive (by simp) found
      exact free prepared
    simp [noCurrent, noPrepared]

/-- A live arbitration whose loser is released hands its slot over. -/
theorem completeArbitration_ok (within : r.count .peer ≤ r.limit .peer)
    (live : r.isExactArbitrationLocked arb = true) (opened : r.closed = false)
    (released : (r.arbs arb).loserReleased = true)
    (pending : r.isExactLocked (r.arbs arb).inbound .unknown .pending = true) :
    r.completeArbitration arb = (.ok (r.arbs arb).inbound,
      (r.finishArbitrationLocked arb).transferPendingToPeerLocked
        (r.arbs arb).inbound (r.arbs arb).peerID) := by
  have found : r.arbitrations.get (r.arbs arb).peerID = some arb := by
    unfold isExactArbitrationLocked at live
    exact of_decide_eq_true live
  obtain ⟨owned, named⟩ := sound.arbitrated.loser _ arb found
  have loser : r.isExactLocked (r.arbs arb).loser .peer .retiring = true := by
    have retiring := sound.arbitrated.released _ arb found released
    have peer := (Generation.peer_of_key named).1
    simp [isExactLocked, owned, peer, retiring]
  have free := sound.peerTaken_of_released found released
  have room : ¬ r.countRoleLocked .peer > r.maxPeers := not_lt.mpr within
  unfold completeArbitration
  simp [live, opened, released, pending, loser, free, room]

end Registry

end QMux.Mesh
