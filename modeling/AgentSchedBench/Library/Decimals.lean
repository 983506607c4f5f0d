import AgentSchedBench.Library.JsonText
import Mathlib.Tactic.Ring

/-!
# Numbers in decimal

A number is written with its digits, or with a comma after each three of them.
Reading the digits gives the number back.
-/

namespace Decimals

open JsonText

theorem dumpNat_ne_nil (value : Nat) : dumpNat value ≠ [] := by
  rw [dumpNat]
  split
  · exact List.cons_ne_nil _ _
  · next notZero =>
      rw [Ne, List.reverse_eq_nil_iff, List.map_eq_nil_iff]
      exact Nat.digits_ne_nil_iff_ne_zero.mpr notZero

theorem length_dumpNat {value count : Nat} (positive : 0 < count)
    (small : value < 10 ^ count) : (dumpNat value).length ≤ count := by
  rw [dumpNat]
  split
  · exact positive
  · rw [List.length_reverse, List.length_map]
    exact (Nat.digits_length_le_iff (by decide) value).mpr small

/-! ## Reading -/

/-- The digits of `int(text)`; between two there may be an underscore. -/
def readDigits : Nat → Bool → List Char → Option Nat
  | value, afterDigit, [] => if afterDigit then some value else none
  | value, afterDigit, char :: rest =>
      if char.isDigit then
        readDigits (value * 10 + (char.toNat - '0'.toNat)) true rest
      else if char = '_' ∧ afterDigit then readDigits value false rest
      else none

/-- `int(text)` -/
def parseInt : List Char → Option Int
  | '-' :: digits => (readDigits 0 false digits).map fun value => -value
  | '+' :: digits => (readDigits 0 false digits).map fun value => value
  | digits => (readDigits 0 false digits).map fun value => value

theorem decimalValue_cons (digit : Char) (digits : List Char) :
    decimalValue (digit :: digits) =
      (digit.toNat - '0'.toNat) * 10 ^ digits.length +
        decimalValue digits := by
  rw [decimalValue, List.map_cons, List.reverse_cons, Nat.ofDigits_append,
    Nat.ofDigits_singleton, List.length_reverse, List.length_map,
    decimalValue]
  ring

theorem readDigits_eq {digits : List Char}
    (isDigit : ∀ char ∈ digits, char.isDigit = true) (value : Nat) :
    readDigits value true digits =
      some (value * 10 ^ digits.length + decimalValue digits) := by
  induction digits generalizing value with
  | nil => simp [readDigits, decimalValue]
  | cons digit digits induction =>
      rw [List.forall_mem_cons] at isDigit
      rw [readDigits, if_pos isDigit.1, induction isDigit.2,
        decimalValue_cons, List.length_cons]
      congr 1
      ring

/-- Digits are read as the number that they are. -/
theorem readDigits_digits {digits : List Char} (some_digit : digits ≠ [])
    (isDigit : ∀ char ∈ digits, char.isDigit = true) :
    readDigits 0 false digits = some (decimalValue digits) := by
  cases digits with
  | nil => exact absurd rfl some_digit
  | cons digit digits =>
      rw [List.forall_mem_cons] at isDigit
      rw [readDigits, if_pos isDigit.1, readDigits_eq isDigit.2,
        decimalValue_cons, Nat.zero_mul, Nat.zero_add]

theorem parseInt_digits {digits : List Char} (some_digit : digits ≠ [])
    (isDigit : ∀ char ∈ digits, char.isDigit = true) :
    parseInt digits = some (decimalValue digits : Int) := by
  have noSign : ∀ sign ∈ ['-', '+'], digits.head? ≠ some sign := by
    intro sign isSign isHead
    have noDigit : ∀ sign ∈ ['-', '+'], sign.isDigit = false :=
      List.forall_mem_cons.mpr
        ⟨by decide, List.forall_mem_singleton.mpr (by decide)⟩
    have signDigit := isDigit sign (List.mem_of_mem_head? isHead)
    rw [noDigit sign isSign] at signDigit
    cases signDigit
  rw [parseInt.eq_def]
  split
  · exact absurd rfl (noSign '-' (by decide))
  · exact absurd rfl (noSign '+' (by decide))
  · rw [readDigits_digits some_digit isDigit]
    rfl

theorem parseInt_dumpNat (value : Nat) :
    parseInt (dumpNat value) = some (value : Int) := by
  rw [parseInt_digits (dumpNat_ne_nil value) (dumpNat_digits value).1,
    (dumpNat_digits value).2]

theorem parseInt_dumpInt (value : Int) :
    parseInt (dumpInt value) = some value := by
  cases value with
  | ofNat value => exact parseInt_dumpNat value
  | negSucc value =>
      rw [dumpInt, parseInt, readDigits_digits (dumpNat_ne_nil _)
        (dumpNat_digits _).1, (dumpNat_digits _).2]
      rfl

/-! ## Commas -/

/-- The digits of a number, the last first, with a comma after each three. -/
def groupDigits : Nat → List Char → List Char
  | _, [] => []
  | position, digit :: digits =>
      (if position ≠ 0 ∧ position % 3 = 0 then [',', digit] else [digit]) ++
        groupDigits (position + 1) digits

/-- `f"{value:,}"` -/
def withCommas (value : Nat) : List Char :=
  (groupDigits 0 (dumpNat value).reverse).reverse

example : withCommas 1234567 = "1,234,567".toList := by decide

theorem groupDigits_digits (position : Nat) {digits : List Char}
    (isDigit : ∀ char ∈ digits, char.isDigit = true) :
    (groupDigits position digits).filter (fun char => decide (char ≠ ',')) =
      digits := by
  induction digits generalizing position with
  | nil => rfl
  | cons digit digits induction =>
      rw [List.forall_mem_cons] at isDigit
      have noComma : digit ≠ ',' := by
        rintro rfl
        exact absurd isDigit.1 (by decide)
      rw [groupDigits, List.filter_append, induction _ isDigit.2]
      split <;> simp [noComma]

/-- A number is its digits when the commas are left out. -/
theorem withCommas_digits (value : Nat) :
    (withCommas value).filter (fun char => decide (char ≠ ',')) =
      dumpNat value := by
  rw [withCommas, List.filter_reverse, groupDigits_digits,
    List.reverse_reverse]
  intro char member
  exact (dumpNat_digits value).1 char (List.mem_reverse.mp member)

theorem withCommas_injective {value other : Nat}
    (same : withCommas value = withCommas other) : value = other := by
  have digits :=
    congrArg (List.filter fun char => decide (char ≠ ',')) same
  rw [withCommas_digits, withCommas_digits] at digits
  have values := congrArg decimalValue digits
  rwa [(dumpNat_digits value).2, (dumpNat_digits other).2] at values

end Decimals
