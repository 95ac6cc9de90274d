import Mathlib.Data.List.Basic
import Mathlib.Tactic.Ring

/-!
# Big-endian integers and prefix codes

Fixed-width integers are written most significant byte first.  A prefix code
is an encoder whose output can be read off the front of any longer byte
string, so that concatenated encodings decompose in only one way.  The rules
below close prefix codes under pairing, lists of known length, and length
prefixes.
-/

namespace QMux.Support

/-- Write the low `8 * width` bits of `value`, most significant byte first. -/
def putUint : (width value : Nat) → List UInt8
  | 0, _ => []
  | width + 1, value =>
    UInt8.ofNat (value / 256 ^ width) :: putUint width value

/-- Read a byte string as one unsigned big-endian integer. -/
def getUint (bytes : List UInt8) : Nat :=
  bytes.foldl (fun value byte => value * 256 + byte.toNat) 0

@[simp] theorem length_putUint (width value : Nat) :
    (putUint width value).length = width := by
  induction width with
  | zero => rfl
  | succ width ih => simp [putUint, ih]

private theorem foldl_putUint (width value start : Nat) :
    (putUint width value).foldl
        (fun value byte => value * 256 + byte.toNat) start =
      start * 256 ^ width + value % 256 ^ width := by
  induction width generalizing start with
  | zero => simp [putUint, Nat.mod_one]
  | succ width ih =>
    have digit : (UInt8.ofNat (value / 256 ^ width)).toNat =
        value / 256 ^ width % 256 := by
      simp
    rw [putUint, List.foldl_cons, ih, digit, Nat.pow_succ,
      Nat.mod_mul (x := value)]
    ring

@[simp] theorem getUint_putUint (width value : Nat) :
    getUint (putUint width value) = value % 256 ^ width := by
  simp [getUint, foldl_putUint]

theorem putUint_injective {width left right : Nat}
    (leftFits : left < 256 ^ width) (rightFits : right < 256 ^ width)
    (same : putUint width left = putUint width right) : left = right := by
  have values := congrArg getUint same
  simpa [Nat.mod_eq_of_lt leftFits, Nat.mod_eq_of_lt rightFits] using values

/-- Encodings of valid values can be stripped from the front of any input in
only one way. -/
def PrefixCode {α β : Type*} (valid : α → Prop) (encode : α → List β) : Prop :=
  ∀ ⦃left right : α⦄ ⦃leftRest rightRest : List β⦄, valid left → valid right →
    encode left ++ leftRest = encode right ++ rightRest →
    left = right ∧ leftRest = rightRest

namespace PrefixCode

variable {α β γ : Type*} {valid : α → Prop} {encode : α → List β}

theorem of_length_eq (width : Nat)
    (fixed : ∀ value, valid value → (encode value).length = width)
    (injective : ∀ left right, valid left → valid right →
      encode left = encode right → left = right) :
    PrefixCode valid encode := by
  intro left right leftRest rightRest leftValid rightValid same
  have sameLength : (encode left).length = (encode right).length := by
    rw [fixed left leftValid, fixed right rightValid]
  obtain ⟨heads, tails⟩ := List.append_inj same sameLength
  exact ⟨injective left right leftValid rightValid heads, tails⟩

theorem injective (code : PrefixCode valid encode) {left right : α}
    (leftValid : valid left) (rightValid : valid right)
    (same : encode left = encode right) : left = right := by
  have appended : encode left ++ [] = encode right ++ [] := by
    simpa using same
  exact (code leftValid rightValid appended).1

theorem flatMap (code : PrefixCode valid encode) (count : Nat) :
    PrefixCode
      (fun values : List α => values.length = count ∧
        ∀ value ∈ values, valid value)
      (fun values => values.flatMap encode) := by
  intro left
  induction left generalizing count with
  | nil =>
    intro right leftRest rightRest leftValid rightValid same
    have empty : right = [] := by
      apply List.eq_nil_of_length_eq_zero
      rw [rightValid.1, ← leftValid.1]
      rfl
    subst empty
    exact ⟨rfl, by simpa using same⟩
  | cons head tail ih =>
    intro right leftRest rightRest leftValid rightValid same
    cases right with
    | nil =>
      have impossible := leftValid.1.trans rightValid.1.symm
      simp at impossible
    | cons rightHead rightTail =>
      simp only [List.flatMap_cons, List.append_assoc] at same
      obtain ⟨heads, tails⟩ :=
        code (leftValid.2 head (by simp)) (rightValid.2 rightHead (by simp))
          same
      have leftTail : tail.length = tail.length ∧ ∀ value ∈ tail, valid value :=
        ⟨rfl, fun value member => leftValid.2 value (by simp [member])⟩
      have rightLength : rightTail.length = tail.length := by
        have lengths := leftValid.1.trans rightValid.1.symm
        simpa using lengths.symm
      have rightTailValid : rightTail.length = tail.length ∧
          ∀ value ∈ rightTail, valid value :=
        ⟨rightLength, fun value member => rightValid.2 value (by simp [member])⟩
      obtain ⟨rests, ends⟩ := ih tail.length leftTail rightTailValid tails
      exact ⟨by rw [heads, rests], ends⟩

end PrefixCode

theorem prefixCode_putUint (width : Nat) :
    PrefixCode (fun value => value < 256 ^ width) (putUint width) :=
  PrefixCode.of_length_eq width (fun _ _ => length_putUint width _)
    (fun _ _ leftFits rightFits same =>
      putUint_injective leftFits rightFits same)

theorem prefixCode_lengthPrefixed (width : Nat) :
    PrefixCode (fun value : List UInt8 => value.length < 256 ^ width)
      (fun value => putUint width value.length ++ value) := by
  intro left right leftRest rightRest leftFits rightFits same
  simp only [List.append_assoc] at same
  obtain ⟨lengths, bodies⟩ := prefixCode_putUint width leftFits rightFits same
  exact List.append_inj bodies lengths

end QMux.Support
