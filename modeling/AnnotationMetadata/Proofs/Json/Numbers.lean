import AnnotationMetadata.Proofs.Json.Scanning
import Mathlib.Data.List.TakeWhile
import Mathlib.Data.Option.Basic

set_option autoImplicit false

/-!
# Numbers in text

What is read as a number begins like one and consists of the characters of numbers, so it
is scanned as a whole. The text of an integer in the range of 64-bit words reads back.
-/

namespace AnnotationMetadata

namespace Literal

open Json

/-! ## Characters of literals -/

/-- The parts of a literal after its sign. -/
def unsigned? (negative : Bool) (chars : List Char) : Option Literal := do
  let whole := chars.takeWhile Char.isDigit
  let rest := chars.dropWhile Char.isDigit
  guard (!whole.isEmpty && (whole.length == 1 || whole.head? != some '0'))
  match rest with
  | '.' :: more =>
    let fraction := more.takeWhile Char.isDigit
    guard (!fraction.isEmpty)
    let exponent ← exponent? (more.dropWhile Char.isDigit)
    return ⟨negative, whole, some fraction, exponent⟩
  | _ =>
    let exponent ← exponent? rest
    return ⟨negative, whole, none, exponent⟩

theorem ofChars?_minus (rest : List Char) : ofChars? ('-' :: rest) = unsigned? true rest := rfl

theorem ofChars?_of_head?_ne {chars : List Char} (unsigned : chars.head? ≠ some '-') :
    ofChars? chars = unsigned? false chars := by
  unfold ofChars?
  split
  next negative rest signed =>
    split at signed
    · exact absurd rfl unsigned
    · cases signed
      rfl

private theorem isNumberChar_of_isDigit {c : Char} (digit : c.isDigit = true) :
    isNumberChar c = true := by
  simp [isNumberChar, digit]

theorem isNumberChar_of_digits {digits : List Char} (readable : digits.all Char.isDigit = true) :
    ∀ c ∈ digits, isNumberChar c = true :=
  fun c member => isNumberChar_of_isDigit (List.all_eq_true.mp readable c member)

theorem isNumberChar_of_exponent? {chars : List Char} {exponent : Option (Bool × List Char)}
    (found : exponent? chars = some exponent) : ∀ c ∈ chars, isNumberChar c = true := by
  unfold exponent? at found
  split at found
  · exact fun _ none => nomatch none
  · next mark rest =>
    split at found
    · next marked =>
      have markChar : isNumberChar mark = true := by
        rcases marked with rfl | rfl <;> rfl
      have all : ∀ (digits : List Char) (parts : Bool × List Char),
          (if (digits.isEmpty || !digits.all Char.isDigit) = true then none
            else some (some parts)) = some exponent → ∀ c ∈ digits, isNumberChar c = true := by
        intro digits parts read
        split at read
        · cases read
        · next readable =>
          rw [Bool.or_eq_true, not_or] at readable
          exact isNumberChar_of_digits (by simpa using readable.2)
      refine List.forall_mem_cons.mpr ⟨markChar, ?_⟩
      split at found
      next negative digits signed =>
        have read := all digits (negative, digits) found
        split at signed <;> cases signed
        · exact List.forall_mem_cons.mpr ⟨by decide, read⟩
        · exact List.forall_mem_cons.mpr ⟨by decide, read⟩
        · exact read
    · cases found

theorem isNumberChar_of_unsigned? {negative : Bool} {chars : List Char} {literal : Literal}
    (found : unsigned? negative chars = some literal) :
    (∃ c rest, chars = c :: rest ∧ c.isDigit = true) ∧ ∀ c ∈ chars, isNumberChar c = true := by
  have whole : ∀ chars : List Char, (∀ c ∈ chars.dropWhile Char.isDigit, isNumberChar c = true) →
      ∀ c ∈ chars, isNumberChar c = true := by
    intro chars rest c member
    rw [← List.takeWhile_append_dropWhile (p := Char.isDigit) (l := chars)] at member
    rcases List.mem_append.mp member with digit | other
    · exact isNumberChar_of_digits List.all_takeWhile c digit
    · exact rest c other
  simp only [unsigned?, Option.bind_eq_bind, Option.bind_eq_some_iff, guard] at found
  obtain ⟨_, checked, found⟩ := found
  constructor
  · cases chars with
    | nil => cases checked
    | cons c rest =>
      refine ⟨c, rest, rfl, Bool.of_not_eq_false fun other => ?_⟩
      rw [List.takeWhile_cons, other] at checked
      cases checked
  · apply whole
    split at found
    · next more rest =>
      rw [rest]
      obtain ⟨_, _, found⟩ := Option.bind_eq_some_iff.mp found
      obtain ⟨exponent, read, _⟩ := Option.bind_eq_some_iff.mp found
      exact List.forall_mem_cons.mpr ⟨by decide, whole _ (isNumberChar_of_exponent? read)⟩
    · obtain ⟨exponent, read, _⟩ := Option.bind_eq_some_iff.mp found
      exact isNumberChar_of_exponent? read

/-- What is read as a literal begins with a minus sign or a digit, and has no other
characters than numbers have. -/
private theorem isNumberChar_of_ofChars? {chars : List Char} {literal : Literal}
    (found : ofChars? chars = some literal) :
    (∃ c rest, chars = c :: rest ∧ (c = '-' ∨ c.isDigit = true)) ∧
      ∀ c ∈ chars, isNumberChar c = true := by
  by_cases signed : chars.head? = some '-'
  · obtain ⟨rest, rfl⟩ := List.head?_eq_some_iff.mp signed
    rw [ofChars?_minus] at found
    obtain ⟨_, characters⟩ := isNumberChar_of_unsigned? found
    exact ⟨⟨'-', rest, rfl, .inl rfl⟩, List.forall_mem_cons.mpr ⟨by decide, characters⟩⟩
  · rw [ofChars?_of_head?_ne signed] at found
    obtain ⟨⟨c, rest, same, digit⟩, characters⟩ := isNumberChar_of_unsigned? found
    exact ⟨⟨c, rest, same, .inr digit⟩, characters⟩

/-! ## Integers -/

theorem digitsValue_toDigits (n : Nat) : digitsValue (Nat.toDigits 10 n) = n := by
  have value : digitsValue (Nat.toDigits 10 n) = Nat.ofDigitChars 10 (Nat.toDigits 10 n) 0 := by
    simp only [digitsValue, digitValue, Nat.ofDigitChars_eq_foldl, Nat.mul_comm]
  rw [value, Nat.ofDigitChars_ten_toDigits]

theorem all_isDigit_toDigits (n : Nat) : (Nat.toDigits 10 n).all Char.isDigit = true :=
  List.all_eq_true.mpr fun _ member =>
    Nat.isDigit_of_mem_toDigits (by decide) (by decide) member

private theorem head?_toDigits_ne {n : Nat} (positive : 0 < n) :
    (Nat.toDigits 10 n).head? ≠ some '0' := by
  induction n using Nat.strongRecOn with
  | _ n ih =>
    by_cases small : n < 10
    · rw [Nat.toDigits_of_lt_base small]
      have leading : ∀ digit < 10, 0 < digit → [Nat.digitChar digit].head? ≠ some '0' := by
        decide
      exact leading n small positive
    · obtain ⟨c, rest, digits⟩ :=
        List.exists_cons_of_ne_nil (Nat.toDigits_ne_nil (n := n / 10) (b := 10))
      have above := ih (n / 10) (by omega) (by omega)
      rw [digits] at above
      rw [Nat.toDigits_of_base_le (by decide) (by omega), digits]
      exact above

/-- The digits of a number have no leading zero unless there are no others. -/
theorem unsigned?_toDigits (negative : Bool) (n : Nat) :
    unsigned? negative (Nat.toDigits 10 n) =
      some ⟨negative, Nat.toDigits 10 n, none, none⟩ := by
  have digits := List.all_eq_true.mp (all_isDigit_toDigits n)
  have whole : (Nat.toDigits 10 n).takeWhile Char.isDigit = Nat.toDigits 10 n :=
    List.takeWhile_eq_self_iff.mpr digits
  have rest : (Nat.toDigits 10 n).dropWhile Char.isDigit = [] :=
    List.dropWhile_eq_nil_iff.mpr digits
  have leading : (Nat.toDigits 10 n).length = 1 ∨ (Nat.toDigits 10 n).head? ≠ some '0' := by
    rcases Nat.eq_zero_or_pos n with rfl | positive
    · exact .inl rfl
    · exact .inr (head?_toDigits_ne positive)
  have checked : (!(Nat.toDigits 10 n).isEmpty && ((Nat.toDigits 10 n).length == 1 ||
      (Nat.toDigits 10 n).head? != some '0')) = true := by
    simpa [Nat.toDigits_ne_nil] using leading
  unfold unsigned?
  rw [whole, rest]
  simp only [checked, guard, if_true]
  rfl

private theorem numeral_of_negative {n : Nat} (positive : 0 < n) (bound : n ≤ Nat.pow 2 63) :
    Literal.numeral ⟨true, Nat.toDigits 10 n, none, none⟩ = .integer (-n) := by
  simp [Literal.numeral, isIntegral, digitsValue_toDigits, positive, bound]

private theorem numeral_of_natural {n : Nat} (bound : n < Nat.pow 2 64) :
    Literal.numeral ⟨false, Nat.toDigits 10 n, none, none⟩ = .integer n := by
  simp [Literal.numeral, isIntegral, digitsValue_toDigits, bound]

theorem ofNumber?_integerText {value : Int} (least : -(Nat.pow 2 63 : Nat) ≤ value)
    (most : value < (Nat.pow 2 64 : Nat)) :
    ofNumber? (integerText value).toList = some (.scalar (.integer value)) := by
  rw [integerText, String.toList_ofList]
  split
  · next negative =>
    have positive : 0 < value.natAbs := by omega
    have bound : value.natAbs ≤ Nat.pow 2 63 := by omega
    have restored : -(value.natAbs : Int) = value := by omega
    have numeral := numeral_of_negative positive bound
    rw [restored] at numeral
    rw [ofNumber?, ofChars?_minus, unsigned?_toDigits, Option.bind_eq_bind, Option.bind_some,
      numeral]
    rfl
  · next natural =>
    have bound : value.natAbs < Nat.pow 2 64 := by omega
    have restored : (value.natAbs : Int) = value := by omega
    have numeral := numeral_of_natural bound
    rw [restored] at numeral
    have unsigned : (Nat.toDigits 10 value.natAbs).head? ≠ some '-' := by
      intro signed
      have digit := List.all_eq_true.mp (all_isDigit_toDigits value.natAbs) _
        (List.mem_of_head? signed)
      cases digit
    rw [ofNumber?, ofChars?_of_head?_ne unsigned, unsigned?_toDigits, Option.bind_eq_bind,
      Option.bind_some, numeral]
    rfl

end Literal

namespace Json

/-! ## Scanning numbers -/

private theorem begin?_number {c : Char} (leads : c = '-' ∨ c.isDigit = true) :
    begin? c = some (.number [c], []) := by
  rcases leads with rfl | digit
  · rfl
  · have other : ∀ mark : Char, mark.isDigit = false → c ≠ mark := by
      rintro mark undigit rfl
      exact Bool.false_ne_true (undigit.symm.trans digit)
    have blank : ¬ isBlank c = true := by
      simp [isBlank, other ' ' rfl, other '\n' rfl, other '\t' rfl, other '\r' rfl]
    have lower : ¬ c.isLower = true := by
      intro letter
      obtain ⟨_, most⟩ := Char.isDigit_iff_toNat.mp digit
      obtain ⟨least, _⟩ := Bool.and_eq_true_iff.mp letter
      have least : 97 ≤ c.toNat := of_decide_eq_true least
      exact absurd (least.trans most) (by decide)
    unfold begin?
    rw [if_neg blank, if_neg (other '"' rfl), if_neg lower, if_pos (.inr digit)]

private theorem scans_number {chars : List Char} (characters : ∀ c ∈ chars, isNumberChar c = true)
    (reversed : List Char) :
    Scans (.number reversed) chars [] (.number (chars.reverse ++ reversed)) := by
  induction chars generalizing reversed with
  | nil => exact .nil _
  | cons c rest ih =>
    obtain ⟨first, others⟩ := List.forall_mem_cons.mp characters
    rw [List.reverse_cons, List.append_assoc]
    refine .silent ?_ (ih others (c :: reversed))
    rw [Scanning.step?, first]
    rfl

/-- What is read as a number is scanned as one token. -/
theorem spells_number {chars : List Char} {token : Token} (found : ofNumber? chars = some token) :
    Spells chars [token] := by
  obtain ⟨literal, read, _⟩ := Option.bind_eq_some_iff.mp found
  obtain ⟨⟨c, rest, rfl, leads⟩, characters⟩ := Literal.isNumberChar_of_ofChars? read
  have scanned : Scans .between (c :: rest) [] (.number (rest.reverse ++ [c])) :=
    .silent (begin?_number leads)
      (scans_number (fun other later => characters other (List.mem_cons_of_mem _ later)) [c])
  refine .intro scanned (settles_number ?_)
  rwa [List.reverse_append, List.reverse_reverse]

end Json

end AnnotationMetadata
