import QMux.Mesh.Declaration
import QMux.Support.Cells

/-!
# What the counters of the ledger mean

Whoever uses the ledger owes it something: references to records, reservations
and work bytes.  `Accounts` says that the ledger's counters and indexes are
determined by its records and by what is owed, and that what is counted and
promised fits its limits.  There is one lemma for each edit of the ledger; the
critical sections are compositions of edits.
-/

namespace QMux.Mesh

open Support GroupRecord

namespace GroupRecord

def live (record : GroupRecord) : Bool := decide (0 < record.refs)

/-- The bytes a record is charged with. -/
def charged (record : GroupRecord) : Int :=
  if 0 < record.refs then record.bytes.length else 0

end GroupRecord

/-- One reference to `target`. -/
def one (target : Option RecordRef) (ref : RecordRef) : Int :=
  if target = some ref then 1 else 0

@[simp] theorem one_none (ref : RecordRef) : one none ref = 0 :=
  if_neg (by simp)

@[simp] theorem one_self (ref : RecordRef) : one (some ref) ref = 1 :=
  if_pos rfl

theorem one_of_ne {target ref : RecordRef} (different : ref ≠ target) :
    one (some target) ref = 0 :=
  if_neg (by simpa using Ne.symm different)

theorem one_nonneg (target : Option RecordRef) (ref : RecordRef) :
    0 ≤ one target ref := by
  unfold one
  split <;> decide

namespace DeclarationClaim

/-- The reservations of a claim. -/
@[simp] def promise (claim : DeclarationClaim) : Int :=
  if claim.reserved then 1 else 0

@[simp] def promisedSize (claim : DeclarationClaim) : Int :=
  if claim.reserved then claim.size else 0

end DeclarationClaim

namespace DeclarationLedger

/-- A record that someone refers to, indexed under its own digest. -/
def Filed (l : DeclarationLedger) (digest : Bytes) (ref : RecordRef) : Prop :=
  ∃ record, l.recordCells[ref]? = some record ∧ record.digest = digest ∧
    0 < record.refs

/-- The ledger agrees with what is owed to it. -/
structure Accounts (l : DeclarationLedger) (owed : RecordRef → Int)
    (reserved reservedSize work : Int) : Prop where
  refs : ∀ ref record, l.recordCells[ref]? = some record →
    record.refs = owed ref
  vacant : ∀ ref, l.recordCells[ref]? = none → owed ref = 0
  nonneg : ∀ ref, 0 ≤ owed ref
  indexed : ∀ key ref, l.records.get key = some ref ↔
    ∃ record, l.recordCells[ref]? = some record ∧ record.key = key ∧
      0 < record.refs
  filed : ∀ digest ref, l.Filed digest ref → (l.bucket digest).count ref = 1
  unfiled : ∀ digest ref, ¬ l.Filed digest ref → ref ∉ l.bucket digest
  filled : ∀ digest, l.byDigest.get digest ≠ some []
  groups : l.groups = (l.recordCells.countP live : Nat)
  bytes : l.bytes = (l.recordCells.map charged).sum
  reservations : l.reserved = reserved
  reservedSizes : l.reservedSize = reservedSize
  workBytes : l.workBytes = work
  room : l.groups + l.reserved ≤ l.maxGroups
  roomBytes : l.bytes + l.reservedSize ≤ l.maxBytes

variable {l : DeclarationLedger} {owed : RecordRef → Int}
  {reserved reservedSize work : Int} {ref : RecordRef} {record : GroupRecord}

theorem newDeclarationLedger_accounts {limits : LedgerLimits}
    (groups : 0 ≤ limits.maxGroups)
    (bytes : 0 ≤ limits.maxTotalGroupDeclarationBytes) :
    (newDeclarationLedger limits).Accounts (fun _ => 0) 0 0 0 where
  refs := by
    intro ref record found
    cases found
  vacant _ _ := rfl
  nonneg _ := Int.le_refl 0
  indexed := by
    intro key ref
    simp [newDeclarationLedger]
  filed := by
    rintro digest ref ⟨record, found, -⟩
    cases found
  unfiled := by
    intro digest ref _
    simp [bucket, newDeclarationLedger]
  filled := by
    intro digest
    simp [newDeclarationLedger]
  groups := rfl
  bytes := rfl
  reservations := rfl
  reservedSizes := rfl
  workBytes := rfl
  room := by simpa [newDeclarationLedger] using groups
  roomBytes := by simpa [newDeclarationLedger] using bytes

namespace Accounts

theorem found (accounts : l.Accounts owed reserved reservedSize work)
    (held : 0 < owed ref) :
    ∃ record, l.recordCells[ref]? = some record ∧ 0 < record.refs := by
  cases cell : l.recordCells[ref]? with
  | none =>
    have nothing := accounts.vacant ref cell
    omega
  | some record =>
    have counted := accounts.refs ref record cell
    exact ⟨record, rfl, by omega⟩

variable {next : DeclarationLedger} {size : Nat} {digest : Bytes}
  {claim : DeclarationClaim}

section

variable (accounts : l.Accounts owed reserved reservedSize work)

include accounts

theorem recount {promised promisedSize pending : Int}
    (cells : next.recordCells = l.recordCells)
    (records : next.records = l.records)
    (byDigest : next.byDigest = l.byDigest) (groups : next.groups = l.groups)
    (bytes : next.bytes = l.bytes) (reservations : next.reserved = promised)
    (reservedSizes : next.reservedSize = promisedSize)
    (workBytes : next.workBytes = pending)
    (room : next.groups + next.reserved ≤ next.maxGroups)
    (roomBytes : next.bytes + next.reservedSize ≤ next.maxBytes) :
    next.Accounts owed promised promisedSize pending where
  refs := by
    rw [cells]
    exact accounts.refs
  vacant := by
    rw [cells]
    exact accounts.vacant
  nonneg := accounts.nonneg
  indexed := by
    rw [cells, records]
    exact accounts.indexed
  filed := by
    unfold bucket Filed
    rw [cells, byDigest]
    exact accounts.filed
  unfiled := by
    unfold bucket Filed
    rw [cells, byDigest]
    exact accounts.unfiled
  filled := by
    rw [byDigest]
    exact accounts.filled
  groups := by rw [groups, cells, accounts.groups]
  bytes := by rw [bytes, cells, accounts.bytes]
  reservations := reservations
  reservedSizes := reservedSizes
  workBytes := workBytes
  room := room
  roomBytes := roomBytes

theorem changeWork (size : Int) :
    (l.changeWork size).Accounts owed reserved reservedSize (work + size) := by
  apply accounts.recount <;> try rfl
  · exact accounts.reservations
  · exact accounts.reservedSizes
  · exact congrArg (· + size) accounts.workBytes
  · exact accounts.room
  · exact accounts.roomBytes

theorem returnWork (size : Int) :
    (l.returnWork size).Accounts owed reserved reservedSize (work - size) := by
  apply accounts.recount <;> try rfl
  · exact accounts.reservations
  · exact accounts.reservedSizes
  · exact congrArg (· - size) accounts.workBytes
  · exact accounts.room
  · exact accounts.roomBytes

theorem notePeak (peak : Int) :
    (l.notePeak peak).Accounts owed reserved reservedSize work := by
  apply accounts.recount <;> try rfl
  · exact accounts.reservations
  · exact accounts.reservedSizes
  · exact accounts.workBytes
  · exact accounts.room
  · exact accounts.roomBytes

theorem reserve {size : Int} (room : l.canReserveLocked size = true) :
    (l.reserve size).Accounts owed (reserved + 1) (reservedSize + size)
      work := by
  simp only [canReserveLocked, Bool.and_eq_true, decide_eq_true_eq] at room
  obtain ⟨groups, bytes⟩ := room
  apply accounts.recount <;> try rfl
  · exact congrArg (· + 1) accounts.reservations
  · exact congrArg (· + size) accounts.reservedSizes
  · exact accounts.workBytes
  · show l.groups + (l.reserved + 1) ≤ l.maxGroups
    omega
  · show l.bytes + (l.reservedSize + size) ≤ l.maxBytes
    omega

theorem unreserve (claim : DeclarationClaim) :
    (l.unreserve claim).Accounts owed (reserved - claim.promise)
      (reservedSize - claim.promisedSize) work := by
  unfold DeclarationLedger.unreserve DeclarationClaim.promise
    DeclarationClaim.promisedSize
  split
  · have room := accounts.room
    have roomBytes := accounts.roomBytes
    apply accounts.recount <;> try rfl
    · exact congrArg (· - 1) accounts.reservations
    · exact congrArg (· - (claim.size : Int)) accounts.reservedSizes
    · exact accounts.workBytes
    · show l.groups + (l.reserved - 1) ≤ l.maxGroups
      omega
    · show l.bytes + (l.reservedSize - claim.size) ≤ l.maxBytes
      omega
  · simpa using accounts

/-- What is owed once the references of one record are written. -/
private theorem owed_writeRefs (cell : l.recordCells[ref]? = some record)
    {change : Int} (rest : 0 ≤ record.refs + change) :
    (∀ other written, (l.writeRefs ref record
        (record.refs + change)).recordCells[other]? = some written →
      written.refs = owed other + change * one (some ref) other) ∧
    (∀ other, (l.writeRefs ref record
        (record.refs + change)).recordCells[other]? = none →
      owed other + change * one (some ref) other = 0) ∧
    ∀ other, 0 ≤ owed other + change * one (some ref) other := by
  refine ⟨?_, ?_, ?_⟩
  · intro other written found
    rcases cases_set cell found with ⟨rfl, rfl⟩ | ⟨different, found⟩
    · rw [one_self, ← accounts.refs other record cell]
      simp
    · rw [one_of_ne different, accounts.refs other written found]
      simp
  · intro other missing
    have missing := (getElem?_set_eq cell _ other).symm.trans missing
    by_cases here : other = ref
    · rw [if_pos here] at missing
      cases missing
    · rw [if_neg here] at missing
      rw [one_of_ne here, accounts.vacant other missing]
      simp
  · intro other
    by_cases here : other = ref
    · subst here
      rw [one_self, ← accounts.refs other record cell]
      omega
    · rw [one_of_ne here]
      simpa using accounts.nonneg other

private theorem writeRefs (cell : l.recordCells[ref]? = some record)
    (live : 0 < record.refs) (change : Int) (stays : 0 < record.refs + change) :
    (l.writeRefs ref record (record.refs + change)).Accounts
      (fun other => owed other + change * one (some ref) other)
      reserved reservedSize work := by
  have cells : ∀ other, (l.writeRefs ref record
      (record.refs + change)).recordCells[other]? =
        if other = ref then some { record with refs := record.refs + change }
        else l.recordCells[other]? :=
    getElem?_set_eq cell _
  -- The written record keeps its key, digest and bytes, and is live as before.
  have same : ∀ (property : GroupRecord → Prop) (other : RecordRef),
      (property { record with refs := record.refs + change } ↔
        property record) →
      ((∃ found, (l.writeRefs ref record
          (record.refs + change)).recordCells[other]? = some found ∧
          property found) ↔
        ∃ found, l.recordCells[other]? = some found ∧ property found) := by
    intro property other iff
    rw [cells other]
    by_cases here : other = ref
    · subst here
      simp [cell, iff]
    · rw [if_neg here]
  have filedIff : ∀ digest other,
      (l.writeRefs ref record (record.refs + change)).Filed digest other ↔
        l.Filed digest other := by
    intro digest other
    apply same
    simp [live, stays]
  obtain ⟨refs, vacant, nonneg⟩ := accounts.owed_writeRefs cell stays.le
  refine
    { refs := refs, vacant := vacant, nonneg := nonneg, indexed := ?_,
      filed := ?_, unfiled := ?_, filled := accounts.filled, groups := ?_,
      bytes := ?_,
      reservations := accounts.reservations,
      reservedSizes := accounts.reservedSizes, workBytes := accounts.workBytes,
      room := accounts.room, roomBytes := accounts.roomBytes }
  · intro key other
    rw [same (fun found => found.key = key ∧ 0 < found.refs) other
      (by simp [live, stays])]
    exact accounts.indexed key other
  · intro digest other filed
    exact accounts.filed digest other ((filedIff digest other).mp filed)
  · intro digest other unfiled
    exact accounts.unfiled digest other
      fun filed => unfiled ((filedIff digest other).mpr filed)
  · have counts := countP_set_eq GroupRecord.live cell
      { record with refs := record.refs + change }
    have before : record.live = true := decide_eq_true live
    have after : GroupRecord.live
        { record with refs := record.refs + change } = true :=
      decide_eq_true stays
    rw [before, after] at counts
    have groups := accounts.groups
    show l.groups = ((l.recordCells.set ref
      { record with refs := record.refs + change }).countP
        GroupRecord.live : Nat)
    omega
  · have sums := sum_map_set_eq charged cell
      { record with refs := record.refs + change }
    have before : record.charged = record.bytes.length := if_pos live
    have after : charged
        { record with refs := record.refs + change } = record.bytes.length :=
      if_pos stays
    rw [before, after, ← accounts.bytes] at sums
    show l.bytes = ((l.recordCells.set ref
      { record with refs := record.refs + change }).map
        charged).sum
    omega

theorem retain (held : 0 < owed ref) :
    (l.retain ref).Accounts (fun other => owed other + one (some ref) other)
      reserved reservedSize work := by
  obtain ⟨record, cell, live⟩ := accounts.found held
  have written := accounts.writeRefs cell live 1 (by omega)
  unfold DeclarationLedger.retain
  rw [cell]
  simpa using written

private theorem unindex (cell : l.recordCells[ref]? = some record)
    (last : record.refs + -1 = 0) :
    ((l.writeRefs ref record (record.refs + -1)).unindex ref record).Accounts
      (fun other => owed other + -1 * one (some ref) other)
      reserved reservedSize work := by
  obtain ⟨refs, vacant, nonneg⟩ := accounts.owed_writeRefs cell last.ge
  rw [last] at refs vacant ⊢
  have cells : ∀ other, (l.writeRefs ref record 0).recordCells[other]? =
      if other = ref then some { record with refs := 0 }
      else l.recordCells[other]? :=
    getElem?_set_eq cell _
  have live : 0 < record.refs := by omega
  have own : l.records.get record.key = some ref :=
    (accounts.indexed record.key ref).mpr ⟨record, cell, rfl, live⟩
  have ownFiled : l.Filed record.digest ref := ⟨record, cell, rfl, live⟩
  -- The record itself is dead now; the others are what they were.
  have others : ∀ (property : GroupRecord → Prop) (other : RecordRef),
      (∃ found, (l.writeRefs ref record 0).recordCells[other]? = some found ∧
          property found ∧ 0 < found.refs) ↔
        other ≠ ref ∧ ∃ found, l.recordCells[other]? = some found ∧
          property found ∧ 0 < found.refs := by
    intro property other
    rw [cells other]
    by_cases here : other = ref
    · subst here
      simp
    · simp [here]
  have bucketAt : ∀ digest,
      ((l.writeRefs ref record 0).unindex ref record).bucket digest =
        if digest = record.digest then (l.bucket digest).erase ref
        else l.bucket digest := by
    intro digest
    unfold DeclarationLedger.unindex
    dsimp only
    by_cases here : digest = record.digest
    · subst here
      rw [if_pos rfl]
      split
      · rename_i empty
        have gone : (l.bucket record.digest).erase ref = [] := empty
        rw [gone]
        simp [bucket]
      · simp [bucket, DeclarationLedger.writeRefs]
    · rw [if_neg here]
      split
      · simp [bucket, DeclarationLedger.writeRefs,
          FiniteMap.get_delete_of_ne _ here]
      · simp [bucket, DeclarationLedger.writeRefs,
          FiniteMap.get_put_of_ne _ _ here]
  refine
    { refs := refs, vacant := vacant, nonneg := nonneg, indexed := ?_,
      filed := ?_, unfiled := ?_, filled := ?_, groups := ?_, bytes := ?_,
      reservations := accounts.reservations,
      reservedSizes := accounts.reservedSizes, workBytes := accounts.workBytes,
      room := ?_, roomBytes := ?_ }
  · intro key other
    refine Iff.trans ?_ (others (fun found => found.key = key) other).symm
    rw [← accounts.indexed key other]
    show (l.records.delete record.key).get key = some other ↔ _
    rw [FiniteMap.get_delete]
    constructor
    · intro found
      split at found
      · cases found
      rename_i different
      refine ⟨?_, found⟩
      rintro rfl
      obtain ⟨again, cellAgain, keyAgain, -⟩ :=
        (accounts.indexed key other).mp found
      rw [cell] at cellAgain
      cases cellAgain
      exact different keyAgain.symm
    · rintro ⟨different, found⟩
      rw [if_neg]
      · exact found
      · rintro rfl
        rw [own] at found
        cases found
        exact different rfl
  · intro digest other filed
    obtain ⟨different, filedBefore⟩ :=
      (others (fun found => found.digest = digest) other).mp filed
    rw [bucketAt digest]
    split
    · rw [List.count_erase_of_ne different]
      exact accounts.filed digest other filedBefore
    · exact accounts.filed digest other filedBefore
  · intro digest other unfiled
    have before : other ≠ ref → ¬ l.Filed digest other := by
      intro different filed
      exact unfiled
        ((others (fun found => found.digest = digest) other).mpr
          ⟨different, filed⟩)
    rw [bucketAt digest]
    by_cases here : other = ref
    · subst here
      split
      · rename_i same
        subst same
        have once := accounts.filed record.digest other ownFiled
        rw [← List.count_eq_zero, List.count_erase_self, once]
      rename_i different
      apply accounts.unfiled digest other
      rintro ⟨again, cellAgain, digestAgain, -⟩
      rw [cell] at cellAgain
      cases cellAgain
      exact different digestAgain.symm
    · have missing := accounts.unfiled digest other (before here)
      split
      · exact fun member => missing (List.mem_of_mem_erase member)
      · exact missing
  · intro digest
    show FiniteMap.get (if _ then _ else _) digest ≠ some []
    by_cases here : digest = record.digest
    · subst here
      split
      · rw [FiniteMap.get_delete_self]
        simp
      · rename_i filled
        rw [FiniteMap.get_put_self]
        intro empty
        exact filled (Option.some.inj empty)
    · have before := accounts.filled digest
      split
      · rw [FiniteMap.get_delete_of_ne _ here]
        exact before
      · rw [FiniteMap.get_put_of_ne _ _ here]
        exact before
  · have counts := countP_set_eq GroupRecord.live cell
      { record with refs := 0 }
    have before : record.live = true := decide_eq_true live
    have after : GroupRecord.live { record with refs := 0 } = false := rfl
    rw [before, after] at counts
    have groups := accounts.groups
    show l.groups - 1 = ((l.recordCells.set ref
      { record with refs := 0 }).countP GroupRecord.live : Nat)
    simp only [Bool.toNat_true, Bool.toNat_false] at counts
    omega
  · have sums := sum_map_set_eq charged cell
      { record with refs := 0 }
    have before : record.charged = record.bytes.length := if_pos live
    have after : charged { record with refs := 0 } = 0 := rfl
    rw [before, after, ← accounts.bytes] at sums
    show l.bytes - record.bytes.length = ((l.recordCells.set ref
      { record with refs := 0 }).map charged).sum
    omega
  · have room := accounts.room
    show l.groups - 1 + l.reserved ≤ l.maxGroups
    omega
  · have room := accounts.roomBytes
    show l.bytes - record.bytes.length + l.reservedSize ≤ l.maxBytes
    omega

theorem releaseLocked {target : Option RecordRef}
    (held : ∀ ref ∈ target, 0 < owed ref) :
    (l.releaseLocked target).Accounts
      (fun other => owed other - one target other)
      reserved reservedSize work := by
  cases target with
  | none => simpa [DeclarationLedger.releaseLocked] using accounts
  | some ref =>
    obtain ⟨record, cell, live⟩ := accounts.found (held ref rfl)
    simp only [DeclarationLedger.releaseLocked, cell]
    have same : (fun other => owed other - one (some ref) other) =
        fun other => owed other + -1 * one (some ref) other := by
      funext other
      omega
    rw [same]
    split
    · rename_i last
      exact accounts.unindex cell last
    · exact accounts.writeRefs cell live (-1) (by omega)

theorem insert (record : GroupRecord)
    (absent : l.records.get record.key = none)
    (room : l.canReserveLocked record.bytes.length = true)
    (single : record.refs = 1) :
    (l.insert record).Accounts
      (fun other => owed other + one (some l.recordCells.length) other)
      reserved reservedSize work := by
  simp only [canReserveLocked, Bool.and_eq_true, decide_eq_true_eq] at room
  obtain ⟨roomGroups, roomBytes⟩ := room
  have cells : ∀ other, (l.insert record).recordCells[other]? =
      if other = l.recordCells.length then some record
      else l.recordCells[other]? :=
    getElem?_append_singleton l.recordCells record
  have fresh : l.recordCells[l.recordCells.length]? = none :=
    getElem?_length_eq_none _
  have unfiledNew : ∀ digest, l.recordCells.length ∉ l.bucket digest := by
    intro digest
    apply accounts.unfiled
    rintro ⟨found, cell, -⟩
    rw [fresh] at cell
    cases cell
  have live : 0 < record.refs := by omega
  have bucketAt : ∀ digest, (l.insert record).bucket digest =
      if digest = record.digest then
        l.bucket digest ++ [l.recordCells.length]
      else l.bucket digest := by
    intro digest
    unfold bucket DeclarationLedger.insert
    dsimp only
    rw [FiniteMap.get_put]
    split
    · rename_i same
      rw [same]
      rfl
    · rfl
  refine
    { refs := ?_, vacant := ?_, nonneg := ?_, indexed := ?_, filed := ?_,
      unfiled := ?_, filled := ?_, groups := ?_, bytes := ?_,
      reservations := accounts.reservations,
      reservedSizes := accounts.reservedSizes, workBytes := accounts.workBytes,
      room := ?_, roomBytes := ?_ }
  · intro other found cell
    rw [cells other] at cell
    by_cases here : other = l.recordCells.length
    · subst here
      rw [if_pos rfl] at cell
      cases cell
      rw [one_self, accounts.vacant _ fresh, single]
      rfl
    · rw [if_neg here] at cell
      rw [one_of_ne here, accounts.refs other found cell]
      simp
  · intro other missing
    rw [cells other] at missing
    by_cases here : other = l.recordCells.length
    · rw [if_pos here] at missing
      cases missing
    · rw [if_neg here] at missing
      rw [one_of_ne here, accounts.vacant other missing]
      rfl
  · intro other
    have before := accounts.nonneg other
    have more := one_nonneg (some l.recordCells.length) other
    omega
  · intro key other
    rw [cells other]
    show (l.records.put record.key l.recordCells.length).get key =
      some other ↔ _
    rw [FiniteMap.get_put]
    by_cases here : other = l.recordCells.length
    · subst here
      rw [if_pos rfl]
      constructor
      · intro found
        split at found
        · rename_i same
          exact ⟨record, rfl, same.symm, live⟩
        · obtain ⟨again, cell, -⟩ := (accounts.indexed key _).mp found
          rw [fresh] at cell
          cases cell
      · rintro ⟨again, cell, same, -⟩
        cases cell
        rw [if_pos same.symm]
    · rw [if_neg here, ← accounts.indexed key other]
      by_cases same : key = record.key
      · rw [if_pos same, same, absent]
        simp [Ne.symm here]
      · rw [if_neg same]
  · rintro digest other ⟨found, cell, digestOf, liveFound⟩
    rw [cells other] at cell
    rw [bucketAt digest]
    by_cases here : other = l.recordCells.length
    · subst here
      rw [if_pos rfl] at cell
      cases cell
      rw [if_pos digestOf.symm, List.count_append,
        List.count_eq_zero.mpr (unfiledNew digest)]
      simp
    · rw [if_neg here] at cell
      have before := accounts.filed digest other
        ⟨found, cell, digestOf, liveFound⟩
      split
      · rw [List.count_append, before, List.count_eq_zero.mpr]
        simpa using here
      · exact before
  · intro digest other unfiled member
    rw [bucketAt digest] at member
    by_cases here : other = l.recordCells.length
    · subst here
      split at member
      · rename_i same
        exact unfiled ⟨record, by rw [cells, if_pos rfl], same.symm, live⟩
      · exact unfiledNew digest member
    · have before : ¬ l.Filed digest other := by
        rintro ⟨found, cell, rest⟩
        exact unfiled ⟨found, by rw [cells, if_neg here, cell], rest⟩
      have missing := accounts.unfiled digest other before
      split at member
      · rcases List.mem_append.mp member with old | new
        · exact missing old
        · exact here (List.mem_singleton.mp new)
      · exact missing member
  · intro digest
    show (l.byDigest.put record.digest _).get digest ≠ some []
    rw [FiniteMap.get_put]
    split
    · simp
    · exact accounts.filled digest
  · have groups := accounts.groups
    have counts := countP_append_singleton GroupRecord.live l.recordCells record
    have after : record.live = true := decide_eq_true live
    rw [after] at counts
    show l.groups + 1 = ((l.recordCells ++ [record]).countP
      GroupRecord.live : Nat)
    simp only [Bool.toNat_true] at counts
    omega
  · have sums := sum_map_append_singleton charged l.recordCells record
    have after : record.charged = record.bytes.length := if_pos live
    rw [after, ← accounts.bytes] at sums
    exact sums.symm
  · show l.groups + 1 + l.reserved ≤ l.maxGroups
    omega
  · show l.bytes + record.bytes.length + l.reservedSize ≤ l.maxBytes
    omega

theorem held_of_findCandidate
    (candidate : l.findCandidate size digest = some ref) : 0 < owed ref := by
  unfold findCandidate at candidate
  split at candidate
  · have member : ref ∈ l.bucket digest := List.mem_of_find?_eq_some candidate
    by_contra unowed
    refine accounts.unfiled digest ref ?_ member
    rintro ⟨record, cell, -, live⟩
    have counted := accounts.refs ref record cell
    omega
  · cases candidate

theorem begin (began : l.begin size digest = .ok (claim, next)) :
    next.Accounts (fun other => owed other + one claim.candidate other)
      (reserved + claim.promise) (reservedSize + claim.promisedSize)
      (work + claim.workSize) := by
  unfold DeclarationLedger.begin at began
  split at began
  · cases began
  split at began
  · rename_i candidate
    cases began
    have retained := accounts.retain (accounts.held_of_findCandidate candidate)
    simpa using retained
  · split at began
    · rename_i room
      cases began
      have reserved := accounts.reserve room
      simpa using reserved
    · cases began
      simpa using accounts

theorem trackInput (claim : DeclarationClaim) (size : Nat) :
    (l.trackInput claim size).2.Accounts owed reserved reservedSize
      (work + (l.trackInput claim size).1.workSize) :=
  accounts.changeWork size

theorem close (held : ∀ ref ∈ claim.candidate, 0 < owed ref) :
    (l.close claim).2.Accounts
      (fun other => owed other - one claim.candidate other)
      (reserved - claim.promise) (reservedSize - claim.promisedSize)
      (work - claim.workSize) :=
  ((accounts.releaseLocked held).returnWork claim.workSize).unreserve claim

end

variable {hash : Bytes → Bytes} {claim : DeclarationClaim} {input : Bytes}
  {capacity : Nat} {declared : Declared}

theorem normalize (accounts : l.Accounts owed reserved reservedSize work)
    (input : Bytes) (capacity : Nat) :
    (l.normalize input capacity).Accounts owed reserved reservedSize
      (work + normalizedBytes input capacity) := by
  unfold DeclarationLedger.normalize
  split
  · rename_i exact
    simpa [normalizedBytes, exact] using accounts
  · exact accounts.changeWork _

private theorem records_normalize_unreserve :
    ((l.unreserve claim).normalize input capacity).records = l.records := by
  unfold DeclarationLedger.normalize DeclarationLedger.unreserve
    DeclarationLedger.changeWork
  repeat' split
  all_goals rfl

variable {result : Except DeclarationError RecordRef} {after : DeclarationClaim}

theorem finishNew (accounts : l.Accounts owed reserved reservedSize work)
    (absent : l.records.get declared.key = none)
    (finished : l.finishNew hash claim input capacity declared =
      (result, after, next)) :
    next.Accounts (fun other => owed other + one result.toOption other)
      (reserved - claim.promise + after.promise)
      (reservedSize - claim.promisedSize + after.promisedSize)
      (work - claim.workSize + after.workSize) := by
  have asked := (accounts.unreserve claim).normalize input capacity
  unfold DeclarationLedger.finishNew at finished
  dsimp only at finished
  split at finished
  · rename_i room
    cases finished
    have inserted := asked.insert
      ⟨declared.key, declared.policy, hash input, input, 1⟩
      (by rw [records_normalize_unreserve]; exact absent) room rfl
    have returned := (inserted.returnWork
      (normalizedBytes input capacity)).returnWork claim.workSize
    simpa [Except.toOption] using returned
  · cases finished
    have returned := asked.returnWork (normalizedBytes input capacity)
    simpa [Except.toOption] using returned

theorem finishNew_candidate :
    (l.finishNew hash claim input capacity declared).2.1.candidate =
      claim.candidate := by
  unfold DeclarationLedger.finishNew
  dsimp only
  split <;> rfl

theorem finishNew_of_reserved
    (accounts : l.Accounts owed reserved reservedSize work)
    (granted : claim.reserved = true) (sized : input.length = claim.size) :
    (l.finishNew hash claim input capacity declared).1 ≠ .error .capacity := by
  have room := accounts.room
  have roomBytes := accounts.roomBytes
  have free : ((l.unreserve claim).normalize input
      capacity).canReserveLocked input.length = true := by
    unfold DeclarationLedger.normalize DeclarationLedger.unreserve
      DeclarationLedger.changeWork canReserveLocked
    rw [if_pos granted]
    split <;>
    · simp only [Bool.and_eq_true, decide_eq_true_eq]
      constructor <;> omega
  unfold DeclarationLedger.finishNew
  dsimp only
  rw [if_pos free]
  simp

theorem reusable_eq_some (reuse : l.reusable claim input = some ref) :
    claim.candidate = some ref ∧
      ∃ record, l.recordCells[ref]? = some record ∧ record.bytes = input := by
  unfold reusable at reuse
  split at reuse
  · rename_i found _
    split at reuse
    · cases reuse
    rename_i record cell
    split at reuse
    · rename_i same
      cases reuse
      exact ⟨found, record, cell, same⟩
    · cases reuse
  · cases reuse

/-- What a claim owes after the last critical section of `finish`, and the
reference `finish` hands out. -/
theorem finishLocked (accounts : l.Accounts owed reserved reservedSize work)
    (held : ∀ ref ∈ claim.candidate, 0 < owed ref)
    (finished : l.finishLocked hash claim input capacity declared =
      (result, after, next)) :
    next.Accounts
      (fun other => owed other - one claim.candidate other +
        one result.toOption other)
      (reserved - claim.promise + after.promise)
      (reservedSize - claim.promisedSize + after.promisedSize)
      (work - claim.workSize + after.workSize) := by
  unfold DeclarationLedger.finishLocked at finished
  split at finished
  · rename_i reuse
    cases finished
    have returned := accounts.returnWork claim.workSize
    simpa [(reusable_eq_some reuse).1, Except.toOption] using returned
  have released := accounts.releaseLocked held
  dsimp only at finished
  split at finished
  · cases finished
    simpa [Except.toOption] using released
  split at finished
  · rename_i absent
    have settled := released.finishNew absent finished
    exact settled
  rename_i previous found
  split at finished
  · cases finished
    obtain ⟨record, cell, -, live⟩ := (released.indexed _ _).mp found
    have owedPrevious : 0 < owed previous - one claim.candidate previous := by
      rw [← released.refs previous record cell]
      exact live
    have retained := (released.retain owedPrevious).returnWork claim.workSize
    simpa [Except.toOption] using retained
  · cases finished
    simpa [Except.toOption] using released

theorem finishLocked_candidate :
    (l.finishLocked hash claim input capacity declared).2.1.candidate =
      none := by
  unfold DeclarationLedger.finishLocked
  dsimp only
  repeat' split
  all_goals first | rfl | exact finishNew_candidate

theorem finishNew_workSize :
    (l.finishNew hash claim input capacity declared).2.1.workSize =
      bif (l.finishNew hash claim input capacity
        declared).1.toOption.isSome then 0 else claim.workSize := by
  unfold DeclarationLedger.finishNew
  dsimp only
  split <;> rfl

theorem finishLocked_workSize :
    (l.finishLocked hash claim input capacity declared).2.1.workSize =
      bif (l.finishLocked hash claim input capacity
        declared).1.toOption.isSome then 0 else claim.workSize := by
  unfold DeclarationLedger.finishLocked
  dsimp only
  repeat' split
  all_goals first
    | rfl
    | exact finishNew_workSize

theorem finishLocked_of_reserved
    (accounts : l.Accounts owed reserved reservedSize work)
    (held : ∀ ref ∈ claim.candidate, 0 < owed ref)
    (granted : claim.reserved = true) (sized : input.length = claim.size) :
    (l.finishLocked hash claim input capacity declared).1 ≠
      .error .capacity := by
  have released := accounts.releaseLocked held
  unfold DeclarationLedger.finishLocked
  dsimp only
  repeat' split
  all_goals first
    | exact released.finishNew_of_reserved granted sized
    | simp

theorem empty (accounts : l.Accounts owed reserved reservedSize work)
    (unowed : ∀ ref, owed ref = 0) :
    l.groups = 0 ∧ l.bytes = 0 ∧ l.records = ∅ ∧ l.byDigest = ∅ := by
  have dead : ∀ (ref : RecordRef) (record : GroupRecord),
      l.recordCells[ref]? = some record → record.refs = 0 := by
    intro ref record cell
    rw [accounts.refs ref record cell, unowed ref]
  have member : ∀ record ∈ l.recordCells, record.refs = 0 := by
    intro record among
    obtain ⟨ref, cell⟩ := List.mem_iff_getElem?.mp among
    exact dead ref record cell
  refine ⟨?_, ?_, ?_, ?_⟩
  · rw [accounts.groups, List.countP_eq_zero.mpr]
    · rfl
    · intro record among
      simp [live, member record among]
  · rw [accounts.bytes]
    apply List.sum_eq_zero
    intro value among
    obtain ⟨record, inside, rfl⟩ := List.mem_map.mp among
    simp [charged, member record inside]
  · apply FiniteMap.eq_empty_of_get_none
    intro key
    cases found : l.records.get key with
    | none => rfl
    | some ref =>
      obtain ⟨record, cell, -, live⟩ := (accounts.indexed key ref).mp found
      rw [dead ref record cell] at live
      cases live
  · apply FiniteMap.eq_empty_of_get_none
    intro digest
    cases found : l.byDigest.get digest with
    | none => rfl
    | some bucket =>
      cases bucket with
      | nil => exact absurd found (accounts.filled digest)
      | cons ref rest =>
        have inside : ref ∈ l.bucket digest := by
          simp [DeclarationLedger.bucket, found]
        have unfiled : ¬ l.Filed digest ref := by
          rintro ⟨record, cell, -, live⟩
          rw [dead ref record cell] at live
          cases live
        exact absurd inside (accounts.unfiled digest ref unfiled)

end Accounts

end DeclarationLedger

end QMux.Mesh
