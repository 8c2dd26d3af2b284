import Esp32Source.Memory.StringCopy
import Mathlib.Algebra.Group.Nat.Defs

/-!
# Decimal numbers

`atoi` skips white space, takes a sign, and reads digits up to the first byte
that is none.  It reads the decimal form of an integer back, whatever follows
it, as long as that is no digit.
-/

namespace Esp32Source.Memory

open Machine

variable {size : Nat}

/-- The decimal form of an integer: a minus sign where it is negative, and
its digits. -/
def decimal (number : Int) : List UInt8 :=
  ascii (toString number)

/-- `isspace` -/
def isSpace (byte : UInt8) : Bool :=
  byte = 32 || (9 ≤ byte && byte ≤ 13)

/-- `isdigit` -/
def isDigit (byte : UInt8) : Bool :=
  48 ≤ byte && byte ≤ 57

def digitsValue (digits : List UInt8) : Nat :=
  digits.foldl (fun value digit => 10 * value + (digit.toNat - 48)) 0

/-- The number that a string starts with. -/
def parseNumber (text : List UInt8) : Int :=
  match text.dropWhile isSpace with
  | [] => 0
  | first :: rest =>
      if first = 45 then -(digitsValue (rest.takeWhile isDigit))
      else if first = 43 then digitsValue (rest.takeWhile isDigit)
      else digitsValue ((first :: rest).takeWhile isDigit)

/-- `atoi` of the string in the buffer -/
def atoi (buffer : Buffer size) : Except Fault Int := do
  return parseNumber (← readString buffer 0)

/-! ## Digits -/

/-- The bytes of the digits of a number. -/
def decimalDigits (number : Nat) : List UInt8 :=
  (Nat.toDigits 10 number).map fun digit => UInt8.ofNat digit.toNat

theorem decimal_natCast (number : Nat) :
    decimal number = decimalDigits number := by
  have sameDigits : Int.repr (number : Int) = number.repr := rfl
  rw [decimal, ascii, Int.toString_eq_repr, sameDigits, Nat.toList_repr,
    decimalDigits]

theorem decimal_negative {number : Nat} (positive : 0 < number) :
    decimal (-(number : Int)) = 45 :: decimalDigits number := by
  have sameDigits : Int.repr (-(number : Int)) = "-" ++ number.repr := by
    rw [Int.repr_eq_if, if_neg (by omega), Int.neg_neg, Int.toNat_natCast]
  rw [decimal, ascii, Int.toString_eq_repr, sameDigits, String.toList_append,
    Nat.toList_repr, decimalDigits]
  rfl

theorem decimal_cases (number : Int) :
    (∃ natural : Nat,
        number = natural ∧ decimal number = decimalDigits natural) ∨
      ∃ natural : Nat,
        number = -(natural : Int) ∧
          decimal number = 45 :: decimalDigits natural := by
  rcases Int.lt_or_le number 0 with isNegative | isNatural
  · obtain ⟨natural, isOpposite⟩ :=
      Int.eq_ofNat_of_zero_le (Int.neg_nonneg_of_nonpos
        (Int.le_of_lt isNegative))
    obtain rfl : number = -(natural : Int) := by
      rw [← isOpposite, Int.neg_neg]
    exact Or.inr ⟨natural, rfl, decimal_negative (by omega)⟩
  · obtain ⟨natural, rfl⟩ := Int.eq_ofNat_of_zero_le isNatural
    exact Or.inl ⟨natural, rfl, decimal_natCast natural⟩

theorem toNat_digit {digit : Char} (isDigit : digit.isDigit = true) :
    (UInt8.ofNat digit.toNat).toNat = digit.toNat := by
  obtain ⟨_, atMost⟩ := Char.isDigit_iff_toNat.mp isDigit
  have small : digit.toNat ≤ 57 := atMost
  rw [UInt8.toNat_ofNat', Nat.mod_eq_of_lt (by omega)]

theorem isDigit_of_mem_decimalDigits {number : Nat} {byte : UInt8}
    (member : byte ∈ decimalDigits number) : isDigit byte = true := by
  obtain ⟨digit, inDigits, rfl⟩ := List.mem_map.mp member
  have isDigitChar : digit.isDigit = true :=
    Nat.isDigit_of_mem_toDigits (by decide) (by decide) inDigits
  obtain ⟨atLeast, atMost⟩ := Char.isDigit_iff_toNat.mp isDigitChar
  simp only [isDigit, Bool.and_eq_true, decide_eq_true_eq,
    UInt8.le_iff_toNat_le, toNat_digit isDigitChar]
  exact ⟨atLeast, atMost⟩

theorem digitsValue_decimalDigits (number : Nat) :
    digitsValue (decimalDigits number) = number := by
  have sameFold : ∀ (digits : List Char) (value : Nat),
      (∀ digit, digit ∈ digits → digit.isDigit = true) →
      (digits.map fun digit => UInt8.ofNat digit.toNat).foldl
          (fun value digit => 10 * value + (digit.toNat - 48)) value =
        Nat.ofDigitChars 10 digits value := by
    intro digits
    induction digits with
    | nil =>
        intro value _
        rfl
    | cons digit digits inductionHypothesis =>
        intro value areDigits
        rw [List.forall_mem_cons] at areDigits
        rw [List.map_cons, List.foldl_cons, toNat_digit areDigits.1,
          inductionHypothesis _ areDigits.2, Nat.ofDigitChars_cons]
        rfl
  rw [digitsValue, decimalDigits, sameFold, Nat.ofDigitChars_ten_toDigits]
  intro digit member
  exact Nat.isDigit_of_mem_toDigits (by decide) (by decide) member

theorem decimalDigits_ne_nil (number : Nat) : decimalDigits number ≠ [] := by
  rw [decimalDigits, Ne, List.map_eq_nil_iff]
  exact Nat.toDigits_ne_nil

theorem length_decimalDigits_le {number count : Nat} (positive : 0 < count)
    (small : number < 10 ^ count) :
    (decimalDigits number).length ≤ count := by
  rw [decimalDigits, List.length_map]
  exact (Nat.length_toDigits_le_iff (by decide) positive).mpr small

theorem mem_decimal {number : Int} {byte : UInt8}
    (member : byte ∈ decimal number) : byte = 45 ∨ isDigit byte = true := by
  rcases decimal_cases number with
    ⟨natural, _, digits⟩ | ⟨natural, _, digits⟩
  · rw [digits] at member
    exact Or.inr (isDigit_of_mem_decimalDigits member)
  · rw [digits] at member
    rcases List.mem_cons.mp member with isMinus | inDigits
    · exact Or.inl isMinus
    · exact Or.inr (isDigit_of_mem_decimalDigits inDigits)

theorem length_decimal_le {number : Int} {count : Nat}
    (positive : 0 < count) (atLeast : -(10 ^ count : Nat) < number)
    (atMost : number < (10 ^ (count + 1) : Nat)) :
    (decimal number).length ≤ count + 1 := by
  rcases decimal_cases number with
    ⟨natural, rfl, digits⟩ | ⟨natural, rfl, digits⟩
  · rw [digits]
    exact length_decimalDigits_le (Nat.succ_pos count)
      (Int.ofNat_lt.mp atMost)
  · rw [digits, List.length_cons]
    have small : natural < 10 ^ count :=
      Int.ofNat_lt.mp (Int.lt_of_neg_lt_neg atLeast)
    exact Nat.succ_le_succ (length_decimalDigits_le positive small)

/-! ## Reading a number back -/

/-- What follows a number does not continue it. -/
def EndsNumber (rest : List UInt8) : Prop :=
  ∀ byte behind, rest = byte :: behind → isDigit byte = false

theorem takeWhile_digits {digits rest : List UInt8}
    (areDigits : ∀ byte, byte ∈ digits → isDigit byte = true)
    (ends : EndsNumber rest) :
    (digits ++ rest).takeWhile isDigit = digits := by
  rw [List.takeWhile_append_of_pos areDigits]
  cases rest with
  | nil =>
      simp
  | cons byte behind =>
      have stops := ends byte behind rfl
      rw [List.takeWhile_cons_of_neg (by rw [stops]; decide),
        List.append_nil]

theorem parseNumber_minus (rest : List UInt8) :
    parseNumber (45 :: rest) = -(digitsValue (rest.takeWhile isDigit)) := by
  rw [parseNumber, List.dropWhile_cons_of_neg (by decide)]
  exact if_pos rfl

/-- A number without sign is read from its first digit on. -/
theorem parseNumber_digit {first : UInt8}
    (firstDigit : isDigit first = true) (rest : List UInt8) :
    parseNumber (first :: rest) =
      digitsValue ((first :: rest).takeWhile isDigit) := by
  have noSpace : isSpace first = false := by
    simp only [isDigit, isSpace, Bool.and_eq_true, decide_eq_true_eq,
      Bool.or_eq_false_iff, Bool.and_eq_false_iff, decide_eq_false_iff_not,
      UInt8.le_iff_toNat_le, ← UInt8.toNat_inj, UInt8.reduceToNat]
      at firstDigit ⊢
    omega
  have noMinus : first ≠ 45 := by
    rintro rfl
    exact absurd firstDigit (by decide)
  have noPlus : first ≠ 43 := by
    rintro rfl
    exact absurd firstDigit (by decide)
  rw [parseNumber, List.dropWhile_cons_of_neg (by rw [noSpace]; decide)]
  dsimp only
  rw [if_neg noMinus, if_neg noPlus]

/-- `atoi` reads the decimal form of an integer back. -/
theorem parseNumber_decimal (number : Int) {rest : List UInt8}
    (ends : EndsNumber rest) :
    parseNumber (decimal number ++ rest) = number := by
  have readsDigits (natural : Nat) :
      digitsValue ((decimalDigits natural ++ rest).takeWhile isDigit) =
        natural := by
    rw [takeWhile_digits (fun _ => isDigit_of_mem_decimalDigits) ends,
      digitsValue_decimalDigits]
  rcases decimal_cases number with
    ⟨natural, isNatural, digits⟩ | ⟨natural, isNegative, digits⟩
  · have wholeValue := readsDigits natural
    obtain ⟨first, more, shape⟩ :=
      List.exists_cons_of_ne_nil (decimalDigits_ne_nil natural)
    have firstDigit : isDigit first = true :=
      isDigit_of_mem_decimalDigits (shape ▸ List.mem_cons_self)
    rw [shape, List.cons_append] at wholeValue
    rw [digits, shape, List.cons_append, parseNumber_digit firstDigit,
      wholeValue, isNatural]
  · rw [digits, List.cons_append, parseNumber_minus, readsDigits,
      isNegative]

end Esp32Source.Memory
