import QMux.Support.Segments

/-!
# Mesh HTTP paths

`validateMeshHTTPPath` of `config/mesh.go` checks a route's path by searching
the whole string for forbidden substrings and then scanning it byte by byte
with a look-ahead for percent escapes.  Here it is compared with the grammar
of absolute paths: segments between slashes, each a sequence of path
characters and escapes.
-/

namespace QMux.Config

open Support

/-- The bytes of a Go string. -/
abbrev Bytes := List UInt8

/-- `maxMeshHTTPPathLength`. -/
def maxMeshHTTPPathLength : Nat := 1024

/-- `'/'` -/
def slash : UInt8 := 0x2f

/-- `'%'` -/
def percent : UInt8 := 0x25

/-- `'.'` -/
def dot : UInt8 := 0x2e

/-- The failures of `validateMeshHTTPPath`. -/
inductive HTTPPathError where
  /-- "must not exceed 1024 bytes" -/
  | tooLong
  /-- "must be an absolute path beginning with /" -/
  | relative
  /-- "must not contain //" -/
  | emptySegment
  /-- "must not contain a dot path segment" -/
  | dotSegment
  /-- "must not contain a parent path segment" -/
  | parentSegment
  /-- "contains an invalid percent escape" -/
  | invalidEscape
  /-- "must not contain an encoded slash" -/
  | encodedSlash
  /-- "contains invalid character %q" -/
  | invalidCharacter (character : UInt8)
  deriving DecidableEq, Repr

/-- The bytes of `"-._~!$&'()*+,;=:@"`. -/
def pcharPunctuation : Bytes :=
  [0x2d, 0x2e, 0x5f, 0x7e, 0x21, 0x24, 0x26, 0x27, 0x28, 0x29, 0x2a, 0x2b,
    0x2c, 0x3b, 0x3d, 0x3a, 0x40]

/-- `isRFC3986PChar`.  The byte is searched for as a rune; a byte above 0x7f
becomes a rune of the Latin-1 block, and the searched string is ASCII. -/
def isRFC3986PChar (character : UInt8) : Bool :=
  0x61 ≤ character && character ≤ 0x7a ||
    0x41 ≤ character && character ≤ 0x5a ||
    0x30 ≤ character && character ≤ 0x39 ||
    pcharPunctuation.contains character

/-- `isHex` -/
def isHex (character : UInt8) : Bool :=
  0x30 ≤ character && character ≤ 0x39 ||
    0x61 ≤ character && character ≤ 0x66 ||
    0x41 ≤ character && character ≤ 0x46

/-- The two digits after a percent sign spell a slash. -/
def isEncodedSlash (high low : UInt8) : Bool :=
  high == 0x32 && (low == 0x66 || low == 0x46)

/-- The loop of `validateMeshHTTPPath` from one index to the end. -/
def scanHTTPPath : Bytes → Except HTTPPathError Unit
  | [] => .ok ()
  | character :: rest =>
    if character = percent then
      match rest with
      | high :: low :: tail =>
        if !isHex high || !isHex low then .error .invalidEscape
        else if isEncodedSlash high low then .error .encodedSlash
        else scanHTTPPath tail
      | _ => .error .invalidEscape
    else if character = slash ∨ isRFC3986PChar character then
      scanHTTPPath rest
    else .error (.invalidCharacter character)

/-- `validateMeshHTTPPath` -/
def validateMeshHTTPPath (path : Bytes) : Except HTTPPathError Unit :=
  if path.length > maxMeshHTTPPathLength then .error .tooLong
  else if ¬ [slash] <+: path then .error .relative
  else if [slash, slash] <:+: path then .error .emptySegment
  else if [slash, dot, slash] <:+: path ∨ [slash, dot] <:+ path then
    .error .dotSegment
  else if [slash, dot, dot, slash] <:+: path ∨ [slash, dot, dot] <:+ path then
    .error .parentSegment
  else scanHTTPPath path

/-! ## The grammar -/

/-- RFC 3986 `unreserved`. -/
def Unreserved (character : UInt8) : Prop :=
  0x41 ≤ character ∧ character ≤ 0x5a ∨ 0x61 ≤ character ∧ character ≤ 0x7a ∨
    0x30 ≤ character ∧ character ≤ 0x39 ∨
    character ∈ [0x2d, 0x2e, 0x5f, 0x7e]

/-- RFC 3986 `sub-delims`. -/
def SubDelim (character : UInt8) : Prop :=
  character ∈ [0x21, 0x24, 0x26, 0x27, 0x28, 0x29, 0x2a, 0x2b, 0x2c, 0x3b, 0x3d]

/-- RFC 3986 `pchar` without its percent escapes. -/
def PChar (character : UInt8) : Prop :=
  Unreserved character ∨ SubDelim character ∨ character = 0x3a ∨
    character = 0x40

/-- RFC 3986 `HEXDIG`, in either case. -/
def HexDigit (character : UInt8) : Prop :=
  0x30 ≤ character ∧ character ≤ 0x39 ∨
    0x41 ≤ character ∧ character ≤ 0x46 ∨
    0x61 ≤ character ∧ character ≤ 0x66

/-- The body of a path segment: path characters and percent escapes other
than `%2F` and `%2f`. -/
inductive SegmentText : Bytes → Prop
  | nil : SegmentText []
  | char {character : UInt8} {rest : Bytes} (allowed : PChar character)
      (text : SegmentText rest) : SegmentText (character :: rest)
  | escape {high low : UInt8} {rest : Bytes} (highDigit : HexDigit high)
      (lowDigit : HexDigit low)
      (other : ¬ (high = 0x32 ∧ (low = 0x66 ∨ low = 0x46)))
      (text : SegmentText rest) :
      SegmentText (percent :: high :: low :: rest)

/-- An absolute path whose segments are all proper. -/
structure HTTPPath (path : Bytes) : Prop where
  bounded : path.length ≤ 1024
  absolute : ∃ rest, path = slash :: rest
  filled : ∀ segment ∈ (path.tail.splitOn slash).dropLast, segment ≠ []
  proper : ∀ segment ∈ path.tail.splitOn slash,
    segment ≠ [dot] ∧ segment ≠ [dot, dot] ∧ SegmentText segment

/-! ## Characters -/

theorem isRFC3986PChar_iff (character : UInt8) :
    isRFC3986PChar character = true ↔ PChar character := by
  simp only [isRFC3986PChar, PChar, Unreserved, SubDelim, pcharPunctuation,
    Bool.or_eq_true, Bool.and_eq_true, decide_eq_true_eq,
    List.contains_eq_mem, List.mem_cons, List.not_mem_nil, or_false]
  exact iff_of_eq (by ac_rfl)

theorem isHex_iff (character : UInt8) :
    isHex character = true ↔ HexDigit character := by
  simp only [isHex, HexDigit, Bool.or_eq_true, Bool.and_eq_true,
    decide_eq_true_eq]
  exact iff_of_eq (by ac_rfl)

theorem isEncodedSlash_iff (high low : UInt8) :
    isEncodedSlash high low = true ↔
      high = 0x32 ∧ (low = 0x66 ∨ low = 0x46) := by
  simp [isEncodedSlash]

theorem slash_not_hexDigit : ¬ HexDigit slash := by
  rw [← isHex_iff]
  decide

theorem percent_not_pchar : ¬ PChar percent := by
  rw [← isRFC3986PChar_iff]
  decide

/-! ## The scanner -/

section Scanner

variable {character high low : UInt8} {rest : Bytes}

theorem segmentText_cons (plain : character ≠ percent) :
    SegmentText (character :: rest) ↔ PChar character ∧ SegmentText rest := by
  constructor
  · intro text
    cases text with
    | char allowed text => exact ⟨allowed, text⟩
    | escape => exact absurd rfl plain
  · intro parts
    exact .char parts.1 parts.2

theorem segmentText_escape :
    SegmentText (percent :: high :: low :: rest) ↔
      (HexDigit high ∧ HexDigit low) ∧
        ¬ (high = 0x32 ∧ (low = 0x66 ∨ low = 0x46)) ∧ SegmentText rest := by
  constructor
  · intro text
    cases text with
    | char allowed => exact absurd allowed percent_not_pchar
    | escape highDigit lowDigit other text =>
      exact ⟨⟨highDigit, lowDigit⟩, other, text⟩
  · intro parts
    exact .escape parts.1.1 parts.1.2 parts.2.1 parts.2.2

theorem scanHTTPPath_cons (plain : character ≠ percent) :
    scanHTTPPath (character :: rest) = .ok () ↔
      (character = slash ∨ PChar character) ∧ scanHTTPPath rest = .ok () := by
  rw [scanHTTPPath.eq_def]
  by_cases allowed : character = slash ∨ isRFC3986PChar character
  all_goals simp [plain, allowed, ← isRFC3986PChar_iff]

theorem scanHTTPPath_escape :
    scanHTTPPath (percent :: high :: low :: rest) = .ok () ↔
      (HexDigit high ∧ HexDigit low) ∧
        ¬ (high = 0x32 ∧ (low = 0x66 ∨ low = 0x46)) ∧
        scanHTTPPath rest = .ok () := by
  rw [scanHTTPPath, if_pos rfl, ← isEncodedSlash_iff, ← isHex_iff, ← isHex_iff]
  cases isHex high <;> cases isHex low <;> cases isEncodedSlash high low <;>
    simp

end Scanner

theorem joinSegments_head (segments : List Bytes) :
    joinSegments slash segments = [] ∨
      ∃ rest, joinSegments slash segments = slash :: rest := by
  cases segments with
  | nil => exact .inl rfl
  | cons segment segments => exact .inr ⟨_, rfl⟩

theorem scanHTTPPath_cut (segments : List Bytes) (digits : Bytes)
    (short : digits.length < 2) :
    scanHTTPPath (percent :: (digits ++ joinSegments slash segments)) ≠
      .ok () := by
  intro accepted
  have ending := joinSegments_head segments
  match digits, short with
  | [], _ =>
    obtain empty | ⟨rest, more⟩ := ending
    · simp [empty, scanHTTPPath] at accepted
    cases rest with
    | nil => simp [more, scanHTTPPath] at accepted
    | cons next rest =>
      rw [more, List.nil_append, scanHTTPPath_escape] at accepted
      exact slash_not_hexDigit accepted.1.1
  | [high], _ =>
    obtain empty | ⟨rest, more⟩ := ending
    · simp [empty, scanHTTPPath] at accepted
    · rw [more, List.cons_append, List.nil_append,
        scanHTTPPath_escape] at accepted
      exact slash_not_hexDigit accepted.1.2

theorem segmentText_cut {digits : Bytes} (short : digits.length < 2) :
    ¬ SegmentText (percent :: digits) := by
  intro text
  cases text with
  | char allowed => exact percent_not_pchar allowed
  | escape =>
    simp only [List.length_cons] at short
    omega

theorem scanHTTPPath_segment (segments : List Bytes) (segment : Bytes)
    (plain : slash ∉ segment) :
    scanHTTPPath (segment ++ joinSegments slash segments) = .ok () ↔
      SegmentText segment ∧
        scanHTTPPath (joinSegments slash segments) = .ok () := by
  -- An escape takes three bytes at once, so the induction is on the length.
  induction size : segment.length using Nat.strong_induction_on
    generalizing segment with
  | _ size ih =>
    cases segment with
    | nil => simp [SegmentText.nil]
    | cons character rest =>
      simp only [List.mem_cons, not_or] at plain
      simp only [List.length_cons] at size
      by_cases escaped : character = percent
      · subst escaped
        have refused (digits : Bytes) (short : digits.length < 2) :
            scanHTTPPath (percent :: (digits ++ joinSegments slash segments)) =
                .ok () ↔
              SegmentText (percent :: digits) ∧
                scanHTTPPath (joinSegments slash segments) = .ok () :=
          iff_of_false (scanHTTPPath_cut segments digits short)
            (fun parts => segmentText_cut short parts.1)
        rcases rest with _ | ⟨high, _ | ⟨low, tail⟩⟩
        · exact refused [] (by simp)
        · exact refused [high] (by simp)
        · simp only [List.mem_cons, not_or] at plain
          have tailText := ih tail.length (by simp at size; omega) tail
            plain.2.2.2 rfl
          simp only [List.cons_append, scanHTTPPath_escape,
            segmentText_escape, tailText, and_assoc]
      · have restText := ih rest.length (by omega) rest plain.2 rfl
        have other : character ≠ slash := fun same => plain.1 same.symm
        simp only [List.cons_append, scanHTTPPath_cons escaped,
          segmentText_cons escaped, restText, other, false_or, and_assoc]

/-- The scanner accepts a path when every segment is proper text. -/
theorem scanHTTPPath_joinSegments (segments : List Bytes)
    (plain : ∀ segment ∈ segments, slash ∉ segment) :
    scanHTTPPath (joinSegments slash segments) = .ok () ↔
      ∀ segment ∈ segments, SegmentText segment := by
  induction segments with
  | nil => simp [scanHTTPPath]
  | cons segment segments ih =>
    obtain ⟨first, others⟩ := List.forall_mem_cons.mp plain
    rw [joinSegments_cons, scanHTTPPath_cons (by decide),
      scanHTTPPath_segment segments segment first, ih others,
      List.forall_mem_cons]
    simp

/-! ## The whole check -/

theorem validateMeshHTTPPath_passed (path : Bytes) :
    validateMeshHTTPPath path = .ok () ↔
      path.length ≤ maxMeshHTTPPathLength ∧ [slash] <+: path ∧
        ¬ [slash, slash] <:+: path ∧
        ¬ ([slash, dot, slash] <:+: path ∨ [slash, dot] <:+ path) ∧
        ¬ ([slash, dot, dot, slash] <:+: path ∨ [slash, dot, dot] <:+ path) ∧
        scanHTTPPath path = .ok () := by
  unfold validateMeshHTTPPath
  split_ifs with long absolute empty single parent
  · exact iff_of_false (by simp) fun passed => absurd passed.1 (by omega)
  · exact iff_of_false (by simp) fun passed => passed.2.2.1 empty
  · exact iff_of_false (by simp) fun passed => passed.2.2.2.1 single
  · exact iff_of_false (by simp) fun passed => passed.2.2.2.2.1 parent
  · constructor
    · intro scanned
      exact ⟨by omega, absolute, empty, single, parent, scanned⟩
    · intro passed
      exact passed.2.2.2.2.2
  · exact iff_of_false (by simp) fun passed => absolute passed.2.1

/-- The search for a segment of the source finds precisely that segment. -/
theorem segment_search {word : Bytes} (bare : slash ∉ word)
    (rest : Bytes) :
    slash :: (word ++ [slash]) <:+: slash :: rest ∨
        slash :: word <:+ slash :: rest ↔
      word ∈ rest.splitOn slash := by
  have plain := sep_notMem_splitOn slash rest
  rw [← joinSegments_splitOn rest, enclosed_infix_iff bare plain,
    separated_suffix_iff bare plain, ← mem_iff_dropLast_or_getLast?]

/-- The validator accepts precisely the absolute paths of the grammar. -/
theorem validateMeshHTTPPath_ok_iff (path : Bytes) :
    validateMeshHTTPPath path = .ok () ↔ HTTPPath path := by
  rw [validateMeshHTTPPath_passed]
  by_cases absolute : ∃ rest, path = slash :: rest
  · obtain ⟨rest, rfl⟩ := absolute
    have plain := sep_notMem_splitOn slash rest
    have empty : [slash, slash] <:+: slash :: rest ↔
        [] ∈ (rest.splitOn slash).dropLast := by
      rw [← joinSegments_splitOn rest]
      exact enclosed_infix_iff List.not_mem_nil plain
    have single : [slash, dot, slash] <:+: slash :: rest ∨
        [slash, dot] <:+ slash :: rest ↔ [dot] ∈ rest.splitOn slash :=
      segment_search (show slash ∉ [dot] by decide) rest
    have parent : [slash, dot, dot, slash] <:+: slash :: rest ∨
        [slash, dot, dot] <:+ slash :: rest ↔ [dot, dot] ∈ rest.splitOn slash :=
      segment_search (show slash ∉ [dot, dot] by decide) rest
    have text := scanHTTPPath_joinSegments _ plain
    rw [joinSegments_splitOn] at text
    rw [empty, single, parent, text]
    constructor
    · intro passed
      obtain ⟨bounded, _, noEmpty, noDot, noParent, texts⟩ := passed
      refine ⟨bounded, ⟨rest, rfl⟩, ?_, ?_⟩
      · intro segment member nothing
        exact noEmpty (nothing ▸ member)
      · intro segment member
        refine ⟨?_, ?_, texts segment member⟩
        · intro same
          exact noDot (same ▸ member)
        · intro same
          exact noParent (same ▸ member)
    · intro grammar
      refine ⟨grammar.bounded, by simp, ?_, ?_, ?_, ?_⟩
      · intro member
        exact grammar.filled [] member rfl
      · intro member
        exact (grammar.proper [dot] member).1 rfl
      · intro member
        exact (grammar.proper [dot, dot] member).2.1 rfl
      · intro segment member
        exact (grammar.proper segment member).2.2
  · refine iff_of_false ?_ (fun grammar => absolute grammar.absolute)
    intro passed
    obtain ⟨rest, same⟩ := passed.2.1
    exact absolute ⟨rest, same.symm⟩

end QMux.Config
