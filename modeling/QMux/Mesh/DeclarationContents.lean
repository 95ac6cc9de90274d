import QMux.Mesh.DeclarationRuns

/-!
# What the records of the ledger say

Records never change except for their reference count, and every record says
what validation said about its bytes.  With a deterministic parser this makes
the declaration of a group version unique for as long as anyone refers to it:
there is one record of each key, and other bytes for the key are refused.
-/

namespace QMux.Mesh

open Support DeclarationLedger

/-- All of a record but its count. -/
def GroupRecord.contents (record : GroupRecord) :
    GroupKey × String × Bytes × Bytes :=
  (record.key, record.policy, record.digest, record.bytes)

namespace DeclarationLedger

/-- The records are the same up to their counts, and none is new. -/
structure Keeps (l next : DeclarationLedger) : Prop where
  cells : ∀ ref : RecordRef, (next.recordCells[ref]?).map GroupRecord.contents =
      (l.recordCells[ref]?).map GroupRecord.contents
  maxGroups : next.maxGroups = l.maxGroups
  maxBytes : next.maxBytes = l.maxBytes
  maxSingle : next.maxSingle = l.maxSingle

/-- Later ledgers have the records of earlier ones, with other counts. -/
structure Extends (l next : DeclarationLedger) : Prop where
  cells : ∀ (ref : RecordRef) (record : GroupRecord),
    l.recordCells[ref]? = some record → ∃ refs,
      next.recordCells[ref]? = some { record with refs := refs }
  maxGroups : next.maxGroups = l.maxGroups
  maxBytes : next.maxBytes = l.maxBytes
  maxSingle : next.maxSingle = l.maxSingle

variable {l next last : DeclarationLedger}

namespace Keeps

theorem of_cells (cells : next.recordCells = l.recordCells)
    (maxGroups : next.maxGroups = l.maxGroups)
    (maxBytes : next.maxBytes = l.maxBytes)
    (maxSingle : next.maxSingle = l.maxSingle) : l.Keeps next where
  cells := by
    intro ref
    rw [cells]
  maxGroups := maxGroups
  maxBytes := maxBytes
  maxSingle := maxSingle

theorem refl (l : DeclarationLedger) : l.Keeps l := .of_cells rfl rfl rfl rfl

theorem trans (first : l.Keeps next) (second : next.Keeps last) :
    l.Keeps last where
  cells ref := (second.cells ref).trans (first.cells ref)
  maxGroups := second.maxGroups.trans first.maxGroups
  maxBytes := second.maxBytes.trans first.maxBytes
  maxSingle := second.maxSingle.trans first.maxSingle

theorem found (keeps : l.Keeps next) {ref : RecordRef} {record : GroupRecord}
    (cell : next.recordCells[ref]? = some record) :
    ∃ refs, l.recordCells[ref]? = some { record with refs := refs } := by
  have same := keeps.cells ref
  rw [cell] at same
  cases before : l.recordCells[ref]? with
  | none =>
    rw [before] at same
    cases same
  | some old =>
    rw [before] at same
    simp only [Option.map_some, Option.some.injEq, GroupRecord.contents,
      Prod.mk.injEq] at same
    obtain ⟨key, policy, digest, bytes⟩ := same
    cases record
    cases old
    dsimp only at key policy digest bytes
    subst key policy digest bytes
    exact ⟨_, rfl⟩

theorem symm (keeps : l.Keeps next) : next.Keeps l where
  cells ref := (keeps.cells ref).symm
  maxGroups := keeps.maxGroups.symm
  maxBytes := keeps.maxBytes.symm
  maxSingle := keeps.maxSingle.symm

theorem grows (keeps : l.Keeps next) : l.Extends next where
  cells _ _ cell := keeps.symm.found cell
  maxGroups := keeps.maxGroups
  maxBytes := keeps.maxBytes
  maxSingle := keeps.maxSingle

end Keeps

theorem Extends.trans (first : l.Extends next) (second : next.Extends last) :
    l.Extends last where
  cells := by
    intro ref record found
    obtain ⟨refs, foundNext⟩ := first.cells ref record found
    obtain ⟨more, foundLast⟩ := second.cells ref _ foundNext
    exact ⟨more, foundLast⟩
  maxGroups := second.maxGroups.trans first.maxGroups
  maxBytes := second.maxBytes.trans first.maxBytes
  maxSingle := second.maxSingle.trans first.maxSingle

variable {ref : RecordRef} {record : GroupRecord}

theorem writeRefs_keeps (found : l.recordCells[ref]? = some record)
    (refs : Int) : l.Keeps (l.writeRefs ref record refs) := by
  refine ⟨?_, rfl, rfl, rfl⟩
  intro other
  have cell : (l.writeRefs ref record refs).recordCells[other]? =
      if other = ref then some { record with refs := refs }
      else l.recordCells[other]? := getElem?_set_eq found _ other
  rw [cell]
  split
  · rename_i same
    rw [same, found]
    rfl
  · rfl

theorem retain_keeps (l : DeclarationLedger) (ref : RecordRef) :
    l.Keeps (l.retain ref) := by
  unfold retain
  split
  · exact .refl l
  · rename_i record found
    exact writeRefs_keeps found _

theorem releaseLocked_keeps (l : DeclarationLedger)
    (target : Option RecordRef) : l.Keeps (l.releaseLocked target) := by
  cases target with
  | none => exact .refl l
  | some ref =>
    unfold releaseLocked
    dsimp only
    split
    · exact .refl l
    rename_i record found
    have written := writeRefs_keeps found (record.refs - 1)
    split
    · exact written.trans (.of_cells rfl rfl rfl rfl)
    · exact written

theorem unreserve_keeps (l : DeclarationLedger) (claim : DeclarationClaim) :
    l.Keeps (l.unreserve claim) := by
  unfold unreserve
  split
  · exact .of_cells rfl rfl rfl rfl
  · exact .refl l

theorem begin_keeps {size : Nat} {digest : Bytes} {claim : DeclarationClaim}
    (began : l.begin size digest = .ok (claim, next)) : l.Keeps next := by
  unfold begin at began
  repeat' split at began
  all_goals cases began
  · exact retain_keeps l _
  · exact .of_cells rfl rfl rfl rfl
  · exact .refl l

theorem close_keeps (l : DeclarationLedger) (claim : DeclarationClaim) :
    l.Keeps (l.close claim).2 := by
  have returned : (l.releaseLocked claim.candidate).Keeps
      ((l.releaseLocked claim.candidate).returnWork claim.workSize) :=
    .of_cells rfl rfl rfl rfl
  exact ((releaseLocked_keeps l claim.candidate).trans returned).trans
    (unreserve_keeps _ claim)

variable {hash : Bytes → Bytes} {claim : DeclarationClaim} {input : Bytes}
  {capacity : Nat} {declared : Declared}

private theorem normalize_unreserve_keeps :
    l.Keeps ((l.unreserve claim).normalize input capacity) := by
  apply (unreserve_keeps l claim).trans
  unfold normalize
  split
  · exact .refl _
  · exact .of_cells rfl rfl rfl rfl

/-- `finish` keeps the records or appends the one it made. -/
inductive Adds (hash : Bytes → Bytes) (l : DeclarationLedger)
    (input : Bytes) (declared : Declared) (next : DeclarationLedger) : Prop
  | kept (keeps : l.Keeps next)
  | record (middle : DeclarationLedger) (keeps : l.Keeps middle)
      (cells : next.recordCells = middle.recordCells ++
        [⟨declared.key, declared.policy, hash input, input, 1⟩])
      (maxGroups : next.maxGroups = l.maxGroups)
      (maxBytes : next.maxBytes = l.maxBytes)
      (maxSingle : next.maxSingle = l.maxSingle)

theorem Adds.of_keeps (keeps : l.Keeps next)
    (adds : next.Adds hash input declared last) :
    l.Adds hash input declared last := by
  cases adds with
  | kept later => exact .kept (keeps.trans later)
  | record middle later cells maxGroups maxBytes maxSingle =>
    exact .record middle (keeps.trans later) cells
      (maxGroups.trans keeps.maxGroups) (maxBytes.trans keeps.maxBytes)
      (maxSingle.trans keeps.maxSingle)

theorem Adds.grows (adds : l.Adds hash input declared next) :
    l.Extends next := by
  cases adds with
  | kept keeps => exact keeps.grows
  | record middle keeps cells maxGroups maxBytes maxSingle =>
    refine ⟨?_, maxGroups, maxBytes, maxSingle⟩
    intro ref record found
    obtain ⟨refs, foundMiddle⟩ := keeps.grows.cells ref record found
    refine ⟨refs, ?_⟩
    have inside : ref < middle.recordCells.length :=
      (List.getElem?_eq_some_iff.mp foundMiddle).1
    rw [cells, List.getElem?_append_left inside, foundMiddle]

theorem finishNew_adds :
    l.Adds hash input declared
      (l.finishNew hash claim input capacity declared).2.2 := by
  have keeps : l.Keeps ((l.unreserve claim).normalize input capacity) :=
    normalize_unreserve_keeps
  unfold finishNew
  dsimp only
  split
  · exact .record _ keeps rfl keeps.maxGroups keeps.maxBytes keeps.maxSingle
  · exact .kept (keeps.trans (.of_cells rfl rfl rfl rfl))

theorem finishLocked_adds :
    l.Adds hash input declared
      (l.finishLocked hash claim input capacity declared).2.2 := by
  have released := releaseLocked_keeps l claim.candidate
  unfold finishLocked
  dsimp only
  repeat' split
  · exact .kept (.of_cells rfl rfl rfl rfl)
  · exact .kept released
  · exact .of_keeps released finishNew_adds
  · exact .kept ((released.trans (retain_keeps _ _)).trans
      (.of_cells rfl rfl rfl rfl))
  · exact .kept released

/-- A record says what validation said about its bytes. -/
structure Declares (hash : Bytes → Bytes)
    (validates : Bytes → Except String Declared → Prop) (maxSingle : Int)
    (record : GroupRecord) : Prop where
  valid : validates record.bytes
    (.ok ⟨record.key.id, record.key.version, record.policy⟩)
  digest : record.digest = hash record.bytes
  positive : 0 < record.bytes.length
  short : (record.bytes.length : Int) ≤ maxSingle
  wide : record.bytes.length < 2 ^ 32

/-- All records do. -/
def Truthful (hash : Bytes → Bytes)
    (validates : Bytes → Except String Declared → Prop)
    (l : DeclarationLedger) : Prop :=
  ∀ (ref : RecordRef) (record : GroupRecord),
    l.recordCells[ref]? = some record →
      Declares hash validates l.maxSingle record

variable {validates : Bytes → Except String Declared → Prop}

theorem Truthful.keeps (truthful : l.Truthful hash validates)
    (keeps : l.Keeps next) : next.Truthful hash validates := by
  intro ref record cell
  obtain ⟨refs, before⟩ := keeps.found cell
  have declares := truthful ref _ before
  rw [keeps.maxSingle]
  exact ⟨declares.valid, declares.digest, declares.positive, declares.short,
    declares.wide⟩

theorem Truthful.adds (truthful : l.Truthful hash validates)
    (adds : l.Adds hash input declared next)
    (valid : validates input (.ok declared)) (positive : 0 < input.length)
    (short : (input.length : Int) ≤ l.maxSingle)
    (wide : input.length < 2 ^ 32) : next.Truthful hash validates := by
  cases adds with
  | kept keeps => exact truthful.keeps keeps
  | record middle keeps cells maxGroups maxBytes maxSingle =>
    intro ref record cell
    rw [cells, getElem?_append_singleton] at cell
    rw [maxSingle]
    split at cell
    · cases cell
      exact ⟨valid, rfl, positive, short, wide⟩
    · have before := (truthful.keeps keeps) ref record cell
      rw [keeps.maxSingle] at before
      exact before

variable {owed : RecordRef → Int} {reserved reservedSize work : Int}

theorem Accounts.unique
    (accounts : l.Accounts owed reserved reservedSize work)
    {left right : RecordRef} {leftRecord rightRecord : GroupRecord}
    (leftCell : l.recordCells[left]? = some leftRecord)
    (rightCell : l.recordCells[right]? = some rightRecord)
    (leftLive : 0 < leftRecord.refs) (rightLive : 0 < rightRecord.refs)
    (same : leftRecord.key = rightRecord.key) : left = right := by
  have leftIndexed : l.records.get leftRecord.key = some left :=
    (accounts.indexed _ _).mpr ⟨leftRecord, leftCell, rfl, leftLive⟩
  have rightIndexed : l.records.get leftRecord.key = some right :=
    (accounts.indexed _ _).mpr ⟨rightRecord, rightCell, same.symm, rightLive⟩
  rw [leftIndexed] at rightIndexed
  exact Option.some.inj rightIndexed

theorem Accounts.conflict {parse : Bytes → Except String Declared}
    (accounts : l.Accounts owed reserved reservedSize work)
    (truthful : l.Truthful hash fun input outcome => parse input = outcome)
    (held : ∀ ref ∈ claim.candidate, 0 < owed ref)
    (parsed : parse input = .ok declared)
    (cell : l.recordCells[ref]? = some record) (live : 0 < record.refs)
    (same : record.key = declared.key) (other : record.bytes ≠ input) :
    (l.finishLocked hash claim input capacity declared).1 =
      .error .conflict := by
  have released := accounts.releaseLocked held
  -- A candidate with the bytes of the input would be a second live record.
  have unusable : l.reusable claim input = none := by
    cases reuse : l.reusable claim input with
    | none => rfl
    | some candidate =>
      exfalso
      obtain ⟨isCandidate, found, foundCell, bytes⟩ :=
        Accounts.reusable_eq_some reuse
      have foundLive : 0 < found.refs := by
        rw [accounts.refs candidate found foundCell]
        exact held candidate isCandidate
      have valid := (truthful candidate found foundCell).valid
      rw [bytes, parsed] at valid
      have key : found.key = declared.key := by
        cases valid
        rfl
      have again := accounts.unique foundCell cell foundLive live
        (key.trans same.symm)
      subst again
      rw [cell] at foundCell
      cases foundCell
      exact other bytes
  unfold DeclarationLedger.finishLocked
  rw [unusable]
  dsimp only
  split
  · rfl
  rename_i different
  have spared : claim.candidate ≠ some ref := by
    intro candidate
    apply different
    simp [candidateHasKey, candidate, cell, same]
  have owedStill : one claim.candidate ref = 0 := if_neg spared
  obtain ⟨refs, cellAfter⟩ :=
    (releaseLocked_keeps l claim.candidate).grows.cells ref record cell
  have liveAfter : 0 < refs := by
    have counted : refs = owed ref - one claim.candidate ref :=
      released.refs ref _ cellAfter
    have before := accounts.refs ref record cell
    omega
  have indexed : (l.releaseLocked claim.candidate).records.get declared.key =
    some ref := (released.indexed _ _).mpr ⟨_, cellAfter, same, liveAfter⟩
  rw [indexed]
  dsimp only
  rw [cellAfter, if_neg]
  simpa using other

end DeclarationLedger

/-- What a claim in progress vouches for. -/
structure ClaimCell.Vouched
    (validates : Bytes → Except String Declared → Prop) (maxSingle : Int)
    (cell : ClaimCell) : Prop where
  positive : 0 < cell.claim.size
  short : (cell.claim.size : Int) ≤ maxSingle
  wide : cell.claim.size < 2 ^ 32
  validated : ∀ call outcome peak, cell.stage = .validated call outcome peak →
    validates call.input outcome
  checked : ∀ call declared, cell.stage = .checked call declared →
    validates call.input (.ok declared)

namespace DeclarationRun

variable {hash : Bytes → Bytes}
  {validates : Bytes → Except String Declared → Prop}
  {s next : DeclarationRun}

/-- The records and the claims in progress tell the truth. -/
structure Vouched (hash : Bytes → Bytes)
    (validates : Bytes → Except String Declared → Prop)
    (s : DeclarationRun) : Prop where
  truthful : s.ledger.Truthful hash validates
  cells : ∀ (index : Nat) (cell : ClaimCell),
    s.claims[index]? = some cell → cell.Vouched validates s.ledger.maxSingle

theorem start_vouched (limits : LedgerLimits) :
    (start limits).Vouched hash validates where
  truthful := by
    intro ref record cell
    cases cell
  cells := by
    intro index cell found
    cases found

variable {l ledger : DeclarationLedger} {claim : DeclarationClaim} {index : Nat}
  {cell after : ClaimCell} {held : RecordRef → Int} {slot : Option Nat}

theorem size_of_begin {size : Nat} {digest : Bytes}
    (began : l.begin size digest = .ok (claim, ledger)) :
    claim.size = size ∧ 0 < size ∧ (size : Int) ≤ l.maxSingle := by
  unfold begin at began
  split at began
  · cases began
  rename_i allowed
  rw [not_or] at allowed
  have bounds : 0 < size ∧ (size : Int) ≤ l.maxSingle := by omega
  repeat' split at began
  all_goals cases began
  all_goals exact ⟨rfl, bounds⟩

private theorem size_of_compare {after : DeclarationClaim} {offset : Nat}
    {data : Bytes} (compared : l.compare claim offset data = some after) :
    after.size = claim.size := by
  unfold DeclarationLedger.compare at compared
  repeat' split at compared
  all_goals cases compared
  all_goals rfl

private theorem size_of_finishLocked {input : Bytes} {capacity : Nat}
    {declared : Declared} :
    (l.finishLocked hash claim input capacity declared).2.1.size =
      claim.size := by
  unfold finishLocked finishNew
  dsimp only
  repeat' split
  all_goals rfl

private theorem Vouched.update (vouched : s.Vouched hash validates)
    (found : s.claims[index]? = some cell)
    (truthful : ledger.Truthful hash validates)
    (maxSingle : ledger.maxSingle = s.ledger.maxSingle)
    (vouches : after.Vouched validates s.ledger.maxSingle) :
    Vouched hash validates
      ⟨ledger, s.claims.set index after, held, slot⟩ where
  truthful := truthful
  cells := by
    intro other written cellAt
    rw [getElem?_set_eq found] at cellAt
    show written.Vouched validates ledger.maxSingle
    rw [maxSingle]
    split at cellAt
    · cases cellAt
      exact vouches
    · exact vouched.cells other written cellAt

private theorem vouched_stage {maxSingle : Int}
    (vouches : cell.Vouched validates maxSingle)
    (size : after.claim.size = cell.claim.size)
    (validated : ∀ call outcome peak,
      after.stage = .validated call outcome peak → validates call.input outcome)
    (checked : ∀ call declared, after.stage = .checked call declared →
      validates call.input (.ok declared)) :
    after.Vouched validates maxSingle where
  positive := by
    rw [size]
    exact vouches.positive
  short := by
    rw [size]
    exact vouches.short
  wide := by
    rw [size]
    exact vouches.wide
  validated := validated
  checked := checked

private theorem Vouched.silent (vouched : s.Vouched hash validates)
    (found : s.claims[index]? = some cell) (keeps : s.ledger.Keeps ledger)
    (size : after.claim.size = cell.claim.size)
    (unvalidated : ∀ call outcome peak,
      after.stage ≠ .validated call outcome peak)
    (unchecked : ∀ call declared, after.stage ≠ .checked call declared) :
    Vouched hash validates
      ⟨ledger, s.claims.set index after, held, slot⟩ := by
  apply vouched.update found (vouched.truthful.keeps keeps) keeps.maxSingle
  apply vouched_stage (vouched.cells _ _ found) size
  · intro call outcome peak same
    exact absurd same (unvalidated call outcome peak)
  · intro call declared same
    exact absurd same (unchecked call declared)

private theorem vouched_stageAfterCheck {call : FinishCall} {cancelled : Bool}
    {outcome : Except String Declared}
    (valid : validates call.input outcome) :
    (∀ other later peak,
      stageAfterCheck call cancelled outcome ≠ .validated other later peak) ∧
    ∀ other declared,
      stageAfterCheck call cancelled outcome = .checked other declared →
        validates other.input (.ok declared) := by
  unfold stageAfterCheck
  split
  · simp
  rename_i declared passed
  refine ⟨by simp, ?_⟩
  intro other again same
  cases same
  unfold checkDeclared at passed
  repeat' split at passed
  all_goals cases passed
  exact valid

theorem Vouched.step (vouched : s.Vouched hash validates) (settled : s.Settled)
    (step : Step hash validates s next) : next.Vouched hash validates := by
  have truthful := vouched.truthful
  cases step with
  | begin size digest wide began =>
    obtain ⟨same, positive, short⟩ := size_of_begin began
    have keeps := begin_keeps began
    refine ⟨truthful.keeps keeps, ?_⟩
    intro index cell found
    rw [getElem?_append_singleton] at found
    dsimp only
    rw [keeps.maxSingle]
    split at found
    · cases found
      exact ⟨same ▸ positive, same ▸ short, same ▸ wide, by simp, by simp⟩
    · exact vouched.cells index cell found
  | compare index offset data found stage isOpen compared =>
    refine vouched.silent found (.refl _) (size_of_compare compared) ?_ ?_
    all_goals simp [stage]
  | trackInput index size found stage isOpen untracked =>
    refine vouched.silent found (.of_cells rfl rfl rfl rfl) rfl ?_ ?_
    all_goals simp [stage]
  | finish index call found stage isOpen sized capacity
  | cancelWaiting index found stage | enter index found stage free
  | cancelEntered index found stage | validate index found stage =>
    refine vouched.silent found (.refl _) rfl ?_ ?_
    all_goals simp
  | changeWork index size found stage =>
    refine vouched.silent found (.of_cells rfl rfl rfl rfl) rfl ?_ ?_
    all_goals simp
  | validated index outcome peak found stage valid =>
    refine vouched.update found truthful rfl ?_
    refine vouched_stage (vouched.cells _ _ found) rfl ?_ ?_
    · rintro call again other ⟨⟩
      exact valid
    · simp
  | check index cancelled found stage =>
    have vouches := vouched.cells _ _ found
    obtain ⟨never, checked⟩ := vouched_stageAfterCheck
      (vouches.validated _ _ _ stage)
    refine vouched.update found
      (truthful.keeps (.of_cells rfl rfl rfl rfl)) rfl ?_
    refine vouched_stage vouches rfl ?_ ?_
    · intro call outcome peak same
      exact absurd same (never call outcome peak)
    · exact checked
  | settle index found stage =>
    rename_i cell call declared
    have vouches := vouched.cells _ _ found
    have sized : call.input.length = cell.claim.size :=
      (settled.fits _ _ found).sized call (by rw [stage]; rfl)
    have adds : s.ledger.Adds hash call.input declared
        (s.ledger.finishLocked hash cell.claim call.input call.capacity
          declared).2.2 := finishLocked_adds
    refine vouched.update found ?_ adds.grows.maxSingle ?_
    · apply truthful.adds adds (vouches.checked call declared stage)
      · rw [sized]
        exact vouches.positive
      · rw [sized]
        exact vouches.short
      · rw [sized]
        exact vouches.wide
    · refine vouched_stage vouches size_of_finishLocked ?_ ?_
      all_goals simp
  | close index found idle =>
    rename_i cell
    have keeps := close_keeps s.ledger cell.claim
    refine vouched.silent found keeps rfl ?_ ?_
    · intro call outcome peak same
      have busy : cell.stage.call = some call := congrArg ClaimStage.call same
      rw [idle] at busy
      cases busy
    · intro call declared same
      have busy : cell.stage.call = some call := congrArg ClaimStage.call same
      rw [idle] at busy
      cases busy
  | retain ref held =>
    have keeps := retain_keeps s.ledger ref
    refine ⟨truthful.keeps keeps, ?_⟩
    intro index cell found
    dsimp only
    rw [keeps.maxSingle]
    exact vouched.cells index cell found
  | release ref held =>
    have keeps := releaseLocked_keeps s.ledger (some ref)
    refine ⟨truthful.keeps keeps, ?_⟩
    intro index cell found
    show cell.Vouched validates
      (s.ledger.releaseLocked (some ref)).maxSingle
    rw [keeps.maxSingle]
    exact vouched.cells index cell found

theorem Step.grows (step : Step hash validates s next) :
    s.ledger.Extends next.ledger := by
  cases step with
  | begin size digest wide began =>
    exact (begin_keeps began).grows
  | settle index found stage =>
    exact DeclarationLedger.Adds.grows finishLocked_adds
  | close index found idle =>
    exact (close_keeps _ _).grows
  | retain ref held => exact (retain_keeps _ _).grows
  | release ref held =>
    exact (releaseLocked_keeps s.ledger (some ref)).grows
  | _ => exact DeclarationLedger.Keeps.grows (.of_cells rfl rfl rfl rfl)

end DeclarationRun

end QMux.Mesh
