/-!
# Numerals

A numeral is an optional plus sign and at least one digit; its value fits into 32 bits. It is read
from left to right, so of two faults the first one counts.

- `readDigits_eq_ok_iff`: digits are accepted exactly if all of them are digits and their value fits.
-/

namespace PagedMemory

namespace Text

/-- Why a text is no numeral. -/
inductive NumeralFault
  | empty
  | invalidDigit
  | tooLarge
deriving DecidableEq, Repr

/-- The wording of the fault. -/
def NumeralFault.message : NumeralFault → String
  | .empty => "cannot parse integer from empty string"
  | .invalidDigit => "invalid digit found in string"
  | .tooLarge => "number too large to fit in target type"

/-- The value of a digit: decimal digits, then Latin letters of either case. -/
def digit? (radix : Nat) (c : Char) : Option Nat :=
  let value :=
    if '0' ≤ c ∧ c ≤ '9' then c.toNat - '0'.toNat
    else if 'a' ≤ c ∧ c ≤ 'z' then c.toNat - 'a'.toNat + 10
    else if 'A' ≤ c ∧ c ≤ 'Z' then c.toNat - 'A'.toNat + 10
    else radix
  if value < radix then some value else none

/-- Reads digits behind those whose value is `value`. -/
def readDigits (radix value : Nat) : List Char → Except NumeralFault Nat
  | [] => .ok value
  | c :: cs =>
    match digit? radix c with
    | none => .error .invalidDigit
    | some d =>
      if value * radix + d < UInt32.size then readDigits radix (value * radix + d) cs
      else .error .tooLarge

/-- The value of a numeral. -/
def numeral (radix : Nat) (cs : List Char) : Except NumeralFault UInt32 :=
  match cs with
  | [] => .error .empty
  | ['+'] => .error .invalidDigit
  | '+' :: ds => (readDigits radix 0 ds).map UInt32.ofNat
  | ds => (readDigits radix 0 ds).map UInt32.ofNat

/-- The value of a decimal numeral. -/
def decimal (s : String) : Except NumeralFault UInt32 := numeral 10 s.toList

/-- The value of an address: hexadecimal after `0x` or `0X`, decimal otherwise. -/
def readAddress (s : String) : Except NumeralFault UInt32 :=
  match s.toList with
  | '0' :: 'x' :: ds => numeral 16 ds
  | '0' :: 'X' :: ds => numeral 16 ds
  | ds => numeral 10 ds

/-! ## What is accepted -/

/-- The number that digits write behind those whose value is `value`. -/
def valueOf (radix value : Nat) (digits : List Nat) : Nat :=
  digits.foldl (fun v d => v * radix + d) value

theorem le_valueOf {radix : Nat} (h : 0 < radix) (value : Nat) (digits : List Nat) :
    value ≤ valueOf radix value digits := by
  induction digits generalizing value with
  | nil => exact Nat.le_refl _
  | cons d ds ih =>
    refine Nat.le_trans ?_ (ih _)
    exact Nat.le_trans (Nat.le_mul_of_pos_right value h) (Nat.le_add_right _ d)

/-- Digits are accepted exactly if all of them are digits and their value fits. -/
theorem readDigits_eq_ok_iff {radix value n : Nat} (h : 0 < radix) {cs : List Char}
    (hv : value < UInt32.size) :
    readDigits radix value cs = .ok n ↔
      ∃ ds, cs.map (digit? radix) = ds.map some ∧ valueOf radix value ds = n ∧ n < UInt32.size := by
  induction cs generalizing value with
  | nil =>
    constructor
    · intro h
      cases h
      exact ⟨[], rfl, rfl, hv⟩
    · rintro ⟨ds, hds, hn, _⟩
      cases ds with
      | nil => exact congrArg _ hn
      | cons d ds => cases hds
  | cons c cs ih =>
    rw [readDigits]
    cases hd : digit? radix c with
    | none =>
      constructor
      · intro h
        cases h
      · rintro ⟨ds, hds, _, _⟩
        cases ds with
        | nil => cases hds
        | cons d ds => simp [hd] at hds
    | some d =>
      by_cases hlt : value * radix + d < UInt32.size
      · simp only [hlt, if_true]
        rw [ih hlt]
        constructor
        · rintro ⟨ds, hds, hn, hn'⟩
          exact ⟨d :: ds, by simp [hd, hds], hn, hn'⟩
        · rintro ⟨ds, hds, hn, hn'⟩
          cases ds with
          | nil => cases hds
          | cons d' ds =>
            simp only [List.map_cons, hd, List.cons.injEq, Option.some.injEq] at hds
            obtain ⟨rfl, hds⟩ := hds
            exact ⟨ds, hds, hn, hn'⟩
      · simp only [hlt, if_false, reduceCtorEq, false_iff]
        rintro ⟨ds, hds, hn, hn'⟩
        cases ds with
        | nil => cases hds
        | cons d' ds =>
          simp only [List.map_cons, hd, List.cons.injEq, Option.some.injEq] at hds
          obtain ⟨rfl, _⟩ := hds
          have := le_valueOf h (value * radix + d) ds
          rw [valueOf, List.foldl_cons] at hn
          rw [valueOf] at this
          omega

end Text

end PagedMemory
