import QMux.Support.FiniteMap

/-!
# The declaration ledger

A server keeps one record for each group declaration it holds, whoever holds
it: a staged snapshot, the published state or a session.  A declaration is
received under a claim, which either holds a candidate record of the announced
digest and size or a reservation of one record and its bytes, if there was
room.  Every function below is one critical section of the ledger's mutex;
`finish` is cut at its critical sections, because validation runs in between.

The bytes of a record are a slice whose capacity equals its length: `finish`
copies any other input before it retains it.  Hence `cap(record.bytes)` is the
length of the list here, while the input of `finish` has a capacity of its own.
-/

namespace QMux.Mesh

open Support

abbrev Bytes := List UInt8

structure GroupKey where
  id : String
  version : Nat
deriving DecidableEq

structure GroupRecord where
  key : GroupKey
  policy : String
  digest : Bytes
  bytes : Bytes
  refs : Int
deriving DecidableEq

/-- Records are shared by reference: a position in the list of all records
ever made. -/
abbrev RecordRef := Nat

structure DeclarationLedger where
  maxGroups : Int
  maxBytes : Int
  maxSingle : Int
  groups : Int
  bytes : Int
  reserved : Int
  reservedSize : Int
  workBytes : Int
  workPeak : Int
  parsePeak : Int
  recordCells : List GroupRecord
  records : FiniteMap GroupKey RecordRef
  byDigest : FiniteMap Bytes (List RecordRef)

structure DeclarationClaim where
  candidate : Option RecordRef
  matched : Bool
  reserved : Bool
  size : Nat
  workSize : Int
deriving DecidableEq

/-- What canonical validation reads off a declaration. -/
structure Declared where
  groupID : String
  version : Nat
  policy : String
deriving DecidableEq

def Declared.key (declared : Declared) : GroupKey :=
  ⟨declared.groupID, declared.version⟩

inductive DeclarationError where
  /-- "mesh declaration length %d exceeds limit %d" -/
  | length (size : Nat) (limit : Int)
  /-- The cause of the cancelled context. -/
  | cancelled
  /-- The error of canonical validation. -/
  | invalid (reason : String)
  /-- "mesh declaration group_id %q does not match registration %q" -/
  | mismatch (groupID expected : String)
  /-- "mesh group rule version conflicts with retained declaration" -/
  | conflict
  /-- "mesh group declaration capacity reached" -/
  | capacity
deriving DecidableEq

/-- `sha256.Size` -/
def digestSize : Nat := 32

structure LedgerLimits where
  maxGroups : Int
  maxTotalGroupDeclarationBytes : Int
  maxGroupDeclarationBytes : Int
deriving DecidableEq

def newDeclarationLedger (limits : LedgerLimits) : DeclarationLedger where
  maxGroups := limits.maxGroups
  maxBytes := limits.maxTotalGroupDeclarationBytes
  maxSingle := limits.maxGroupDeclarationBytes
  groups := 0
  bytes := 0
  reserved := 0
  reservedSize := 0
  workBytes := 0
  workPeak := 0
  parsePeak := 0
  recordCells := []
  records := ∅
  byDigest := ∅

namespace DeclarationLedger

/-- The records indexed under a digest. -/
def bucket (l : DeclarationLedger) (digest : Bytes) : List RecordRef :=
  (l.byDigest.get digest).getD []

def canReserveLocked (l : DeclarationLedger) (size : Int) : Bool :=
  decide (l.groups + l.reserved < l.maxGroups) &&
    decide (size ≤ l.maxBytes - l.bytes - l.reservedSize)

def changeWork (l : DeclarationLedger) (size : Int) : DeclarationLedger :=
  { l with
    workBytes := l.workBytes + size
    workPeak := max l.workPeak (l.workBytes + size) }

/-- Take `size` off the work bytes; the peak stays. -/
def returnWork (l : DeclarationLedger) (size : Int) : DeclarationLedger :=
  { l with workBytes := l.workBytes - size }

def writeRefs (l : DeclarationLedger) (ref : RecordRef) (record : GroupRecord)
    (refs : Int) : DeclarationLedger :=
  { l with recordCells := l.recordCells.set ref { record with refs := refs } }

def retain (l : DeclarationLedger) (ref : RecordRef) : DeclarationLedger :=
  match l.recordCells[ref]? with
  | none => l
  | some record => l.writeRefs ref record (record.refs + 1)

/-- Take a record out of both indexes and the totals. -/
def unindex (l : DeclarationLedger) (ref : RecordRef) (record : GroupRecord) :
    DeclarationLedger :=
  let bucket := (l.bucket record.digest).erase ref
  { l with
    records := l.records.delete record.key
    byDigest :=
      if bucket = [] then l.byDigest.delete record.digest
      else l.byDigest.put record.digest bucket
    groups := l.groups - 1
    bytes := l.bytes - record.bytes.length }

def releaseLocked (l : DeclarationLedger) :
    Option RecordRef → DeclarationLedger
  | none => l
  | some ref =>
    match l.recordCells[ref]? with
    | none => l
    | some record =>
      let l := l.writeRefs ref record (record.refs - 1)
      if record.refs - 1 = 0 then l.unindex ref record else l

def release (l : DeclarationLedger) (ref : RecordRef) : DeclarationLedger :=
  l.releaseLocked (some ref)

/-- Take a reservation of one record of `size` bytes. -/
def reserve (l : DeclarationLedger) (size : Int) : DeclarationLedger :=
  { l with
    reserved := l.reserved + 1
    reservedSize := l.reservedSize + size }

/-- Give the claim's reservation back, if it has one. -/
def unreserve (l : DeclarationLedger) (claim : DeclarationClaim) :
    DeclarationLedger :=
  if claim.reserved then
    { l with
      reserved := l.reserved - 1
      reservedSize := l.reservedSize - claim.size }
  else l

/-- The first record of the announced digest and size. -/
def findCandidate (l : DeclarationLedger) (size : Nat) (digest : Bytes) :
    Option RecordRef :=
  if digest.length = digestSize then
    (l.bucket digest).find? fun ref =>
      match l.recordCells[ref]? with
      | none => false
      | some record => record.bytes.length = size
  else none

def begin (l : DeclarationLedger) (size : Nat) (digest : Bytes) :
    Except DeclarationError (DeclarationClaim × DeclarationLedger) :=
  if size = 0 ∨ l.maxSingle < size then .error (.length size l.maxSingle)
  else
    match l.findCandidate size digest with
    | some ref => .ok (⟨some ref, true, false, size, 0⟩, l.retain ref)
    | none =>
      if l.canReserveLocked size then
        .ok (⟨none, false, true, size, 0⟩, l.reserve size)
      else .ok (⟨none, false, false, size, 0⟩, l)

/-- `none` where the slice of the candidate's bytes is out of range. -/
def compare (l : DeclarationLedger) (claim : DeclarationClaim) (offset : Nat)
    (data : Bytes) : Option DeclarationClaim :=
  match claim.candidate, claim.matched with
  | some ref, true =>
    match l.recordCells[ref]? with
    | none => none
    | some record =>
      if offset + data.length ≤ record.bytes.length then
        if (record.bytes.drop offset).take data.length = data then
          some claim
        else some { claim with matched := false }
      else none
  | _, _ => some claim

/-- `size` is the capacity of the assembly buffer and the digest together. -/
def trackInput (l : DeclarationLedger) (claim : DeclarationClaim)
    (size : Nat) : DeclarationClaim × DeclarationLedger :=
  ({ claim with workSize := size }, l.changeWork size)

def close (l : DeclarationLedger) (claim : DeclarationClaim) :
    DeclarationClaim × DeclarationLedger :=
  ({ claim with candidate := none, workSize := 0, reserved := false },
    ((l.releaseLocked claim.candidate).returnWork claim.workSize).unreserve
      claim)

def notePeak (l : DeclarationLedger) (peak : Int) : DeclarationLedger :=
  { l with parsePeak := max l.parsePeak peak }

/-- The candidate, if it compared equal so far and its bytes are the input. -/
def reusable (l : DeclarationLedger) (claim : DeclarationClaim)
    (input : Bytes) : Option RecordRef :=
  match claim.candidate, claim.matched with
  | some ref, true =>
    match l.recordCells[ref]? with
    | none => none
    | some record => if record.bytes = input then some ref else none
  | _, _ => none

/-- The claim's candidate is a record of this key. -/
def candidateHasKey (l : DeclarationLedger) (claim : DeclarationClaim)
    (key : GroupKey) : Bool :=
  match claim.candidate with
  | none => false
  | some ref =>
    match l.recordCells[ref]? with
    | none => false
    | some record => record.key = key

/-- Index a new record that its maker holds. -/
def insert (l : DeclarationLedger) (record : GroupRecord) :
    DeclarationLedger :=
  let ref := l.recordCells.length
  { l with
    recordCells := l.recordCells ++ [record]
    records := l.records.put record.key ref
    byDigest := l.byDigest.put record.digest (l.bucket record.digest ++ [ref])
    groups := l.groups + 1
    bytes := l.bytes + record.bytes.length }

/-- The size of the copy `finish` makes of an input whose capacity exceeds its
length. -/
def normalizedBytes (input : Bytes) (capacity : Nat) : Int :=
  if capacity = input.length then 0 else input.length

/-- Count the copy, if one is made. -/
def normalize (l : DeclarationLedger) (input : Bytes) (capacity : Nat) :
    DeclarationLedger :=
  if capacity = input.length then l
  else l.changeWork (normalizedBytes input capacity)

/-- The end of `finish` for a key of which there is no record. -/
def finishNew (hash : Bytes → Bytes) (l : DeclarationLedger)
    (claim : DeclarationClaim) (input : Bytes) (capacity : Nat)
    (declared : Declared) :
    Except DeclarationError RecordRef × DeclarationClaim × DeclarationLedger :=
  let l := (l.unreserve claim).normalize input capacity
  let claim := { claim with reserved := false }
  if l.canReserveLocked input.length then
    let record : GroupRecord :=
      ⟨declared.key, declared.policy, hash input, input, 1⟩
    (.ok l.recordCells.length, { claim with workSize := 0 },
      ((l.insert record).returnWork (normalizedBytes input capacity)).returnWork
        claim.workSize)
  else
    (.error .capacity, claim, l.returnWork (normalizedBytes input capacity))

/-- The last critical section of `finish`, after validation. -/
def finishLocked (hash : Bytes → Bytes) (l : DeclarationLedger)
    (claim : DeclarationClaim) (input : Bytes) (capacity : Nat)
    (declared : Declared) :
    Except DeclarationError RecordRef × DeclarationClaim × DeclarationLedger :=
  match l.reusable claim input with
  | some ref =>
    (.ok ref, { claim with candidate := none, workSize := 0 },
      l.returnWork claim.workSize)
  | none =>
    let conflict := l.candidateHasKey claim declared.key
    let l := l.releaseLocked claim.candidate
    let claim := { claim with candidate := none }
    if conflict then (.error .conflict, claim, l)
    else
      match l.records.get declared.key with
      | none => finishNew hash l claim input capacity declared
      | some previous =>
        if (l.recordCells[previous]?).map GroupRecord.bytes = some input then
          (.ok previous, { claim with workSize := 0 },
            (l.retain previous).returnWork claim.workSize)
        else (.error .conflict, claim, l)

/-- `finish` between validation and its last critical section. -/
def checkDeclared (cancelled : Bool) (outcome : Except String Declared)
    (expectedGroup : String) : Except DeclarationError Declared :=
  if cancelled then .error .cancelled
  else
    match outcome with
    | .error reason => .error (.invalid reason)
    | .ok declared =>
      if expectedGroup ≠ "" ∧ declared.groupID ≠ expectedGroup then
        .error (.mismatch declared.groupID expectedGroup)
      else .ok declared

end DeclarationLedger

end QMux.Mesh
