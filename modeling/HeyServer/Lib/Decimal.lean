import HeyServer.Lib.Json
import Mathlib.Data.List.TakeWhile

/-!
# Decimal integers

`strconv.FormatInt` and `strconv.ParseInt` in base ten for 64-bit integers.
-/

namespace HeyServer.Lib.Decimal
open List Json
open Json (isDigit)

def maxInt64 : Int := 9223372036854775807

def minInt64 : Int := -9223372036854775808

variable (i : Int)

/-- Two's complement reading of an integer in 64 bits. -/
def wrap64 : Int := (i - minInt64) % 18446744073709551616 + minInt64

def digit (n : Nat) : UInt8 := UInt8.ofNat (0x30 + n)

/-- The decimal digits of `n` in front of `acc`, for enough fuel. -/
def natDigits : Nat → Nat → Bytes → Bytes
  | 0, _, acc => acc
  | fuel + 1, n, acc =>
    if n / 10 = 0 then digit (n % 10) :: acc
    else natDigits fuel (n / 10) (digit (n % 10) :: acc)

def formatNat (n : Nat) : Bytes := natDigits (n.log2 + 1) n []

/-- `strconv.FormatInt(i, 10)` -/
def formatInt : Bytes :=
  if i < 0 then 0x2D :: formatNat i.natAbs else formatNat i.natAbs

def step (acc : Nat) (b : UInt8) : Nat := acc * 10 + (b.toNat - 0x30)

/-- The value of a nonempty string of digits. -/
def parseNat (s : Bytes) : Option Nat :=
  if s ≠ [] ∧ s.all isDigit then some (s.foldl step 0) else none

/-- The value of a number without fraction and exponent. -/
def integerLiteral : Bytes → Option Int
  | [] => none
  | b :: digits =>
    if b = 0x2D then (parseNat digits).map fun n : Nat => -(n : Int)
    else (parseNat (b :: digits)).map fun n : Nat => (n : Int)

/-- `strconv.ParseInt(s, 10, 64)` -/
def parseInt : Bytes → Option Int
  | [] => none
  | b :: rest =>
    let value := if b = 0x2D then (parseNat rest).map fun n => -(n : Int)
      else if b = 0x2B then (parseNat rest).map fun n => (n : Int)
      else (parseNat (b :: rest)).map fun n => (n : Int)
    value.filter fun i => minInt64 ≤ i && i ≤ maxInt64

example : parseInt (ascii "9223372036854775807") = some maxInt64 ∧
    parseInt (ascii "9223372036854775808") = none := by decide

/-- A number of a document, as an integer. -/
@[simp] def readInt : Json → Option Int
  | .num literal => parseInt literal
  | _ => none

/-- `strconv.ParseUint(s, 10, 64)` -/
def parseUint (s : Bytes) : Option Nat :=
  (parseNat s).filter fun n => n < 18446744073709551616

theorem digit_toNat {n : Nat} (h : n < 10) : (digit n).toNat = 0x30 + n := by
  rw [digit, UInt8.toNat_ofNat']
  omega

theorem isDigit_digit {n : Nat} (h : n < 10) : isDigit (digit n) = true := by
  simp [isDigit, digit_toNat h]
  omega

/-- A decimal numeral of `n`: digits with no leading zero. -/
structure Numeral (n : Nat) (s : Bytes) : Prop where
  nonempty : s ≠ []
  digits : s.all isDigit = true
  value : s.foldl step 0 = n
  zero : n = 0 → s = [0x30]
  leading : n ≠ 0 → ∀ b ∈ s.head?, b ≠ 0x30

theorem natDigits_numeral {fuel n : Nat} (hfuel : 0 < fuel) (hn : n < 2 ^ fuel) (acc : Bytes) :
    ∃ s, natDigits fuel n acc = s ++ acc ∧ Numeral n s := by
  induction fuel generalizing n acc with
  | zero => omega
  | succ fuel ih =>
    have hlt : n % 10 < 10 := Nat.mod_lt n (by decide)
    rw [natDigits]
    split_ifs with h
    · refine ⟨[digit (n % 10)], rfl, by simp, by simp [isDigit_digit hlt], ?_, ?_, ?_⟩
      · simp only [foldl_cons, foldl_nil, step, digit_toNat hlt]
        omega
      · rintro rfl
        rfl
      · intro hne b hb
        obtain rfl : digit (n % 10) = b := by simpa using hb
        intro h0
        have := congrArg UInt8.toNat h0
        rw [digit_toNat hlt] at this
        change _ = 0x30 at this
        omega
    · have hq : n / 10 < 2 ^ fuel := by
        omega
      have hpos : 0 < fuel := by
        rcases Nat.eq_zero_or_pos fuel with rfl | hpos
        · rw [pow_zero] at hq
          omega
        · exact hpos
      obtain ⟨s, hs, hnum⟩ := ih hpos hq (digit (n % 10) :: acc)
      refine ⟨s ++ [digit (n % 10)], by rw [hs, append_assoc]; rfl, by simp, ?_, ?_, ?_, ?_⟩
      · rw [all_append, hnum.digits, all_cons, isDigit_digit hlt]
        rfl
      · rw [foldl_append, hnum.value, foldl_cons, foldl_nil, step, digit_toNat hlt]
        omega
      · rintro rfl
        exact absurd rfl h
      · intro _ b hb
        rw [head?_append_of_ne_nil _ hnum.nonempty] at hb
        exact hnum.leading h b hb

variable (n : Nat)

theorem formatNat_numeral : Numeral n (formatNat n) := by
  obtain ⟨s, hs, hnum⟩ := natDigits_numeral (Nat.succ_pos n.log2) Nat.lt_log2_self []
  rw [append_nil] at hs
  rw [formatNat, hs]
  exact hnum

theorem natDigits_length_le (fuel n : Nat) (acc : Bytes) :
    (natDigits fuel n acc).length ≤ fuel + acc.length := by
  induction fuel generalizing n acc with
  | zero => simp [natDigits]
  | succ fuel ih =>
    rw [natDigits]
    split_ifs with h
    · simp only [length_cons]
      omega
    · have := ih (n / 10) (digit (n % 10) :: acc)
      rw [length_cons] at this
      omega

theorem parseNat_formatNat : parseNat (formatNat n) = some n := by
  have h := formatNat_numeral n
  rw [parseNat, if_pos ⟨h.nonempty, h.digits⟩, h.value]

theorem formatNat_cons : ∃ b t, formatNat n = b :: t ∧ isDigit b = true ∧ t.all isDigit = true := by
  have h := formatNat_numeral n
  obtain ⟨b, t, hbt⟩ := exists_cons_of_ne_nil h.nonempty
  have hall := h.digits
  rw [hbt, all_cons, Bool.and_eq_true] at hall
  exact ⟨b, t, hbt, hall⟩

theorem integerLiteral_formatInt : integerLiteral (formatInt i) = some i := by
  have hparse := parseNat_formatNat i.natAbs
  rw [formatInt]
  split_ifs with hneg
  · rw [integerLiteral, if_pos rfl, hparse, Option.map_some, Int.ofNat_natAbs_of_nonpos hneg.le,
      Int.neg_neg]
  · obtain ⟨b, digits, hdigits, hb, -⟩ := formatNat_cons i.natAbs
    have hminus : b ≠ 0x2D := by
      rintro rfl
      cases hb
    rw [hdigits] at hparse ⊢
    rw [integerLiteral, if_neg hminus, hparse, Option.map_some,
      Int.natAbs_of_nonneg (Int.not_lt.mp hneg)]

/-- Parsing a formatted 64-bit integer gives it back. -/
theorem parseInt_formatInt {i : Int} (hmin : minInt64 ≤ i) (hmax : i ≤ maxInt64) :
    parseInt (formatInt i) = some i := by
  have hrange : (minInt64 ≤ i && i ≤ maxInt64) = true := by simp [hmin, hmax]
  rw [formatInt]
  split_ifs with hneg
  · have hi : -(i.natAbs : Int) = i := by omega
    unfold parseInt
    dsimp only
    rw [if_pos rfl, parseNat_formatNat]
    show Option.filter _ (some (-(i.natAbs : Int))) = some i
    rw [hi, Option.filter_some, if_pos hrange]
  · have hi : (i.natAbs : Int) = i := by omega
    obtain ⟨b, t, hbt, hb, -⟩ := formatNat_cons i.natAbs
    have hminus : b ≠ 0x2D := by
      rintro rfl
      exact absurd hb (by decide)
    have hplus : b ≠ 0x2B := by
      rintro rfl
      exact absurd hb (by decide)
    have hparse := parseNat_formatNat i.natAbs
    rw [hbt] at hparse ⊢
    simp [parseInt, hminus, hplus, hparse, hi, hrange]

variable {s : Bytes}

theorem parseInt_range {i : Int} (h : parseInt s = some i) : minInt64 ≤ i ∧ i ≤ maxInt64 := by
  cases s with
  | nil => simp [parseInt] at h
  | cons b rest =>
    have hrange := (Option.filter_eq_some_iff.mp h).2
    simpa using hrange

theorem formatInt_length_le {i : Int} (hmin : 0 ≤ i) (hmax : i ≤ maxInt64) :
    (formatInt i).length ≤ 63 := by
  rw [formatInt, if_neg (Int.not_lt.mpr hmin), formatNat]
  have hlog : i.natAbs.log2 < 63 := by
    rw [maxInt64] at hmax
    by_cases h : i.natAbs = 0
    · simp [h]
    · rw [Nat.log2_lt h]
      omega
  have := natDigits_length_le (i.natAbs.log2 + 1) i.natAbs []
  rw [length_nil] at this
  omega

theorem formatInt_ascii : ∀ b ∈ formatInt i, b.toNat < 0x80 := by
  have hdigits : ∀ b ∈ formatNat i.natAbs, b.toNat < 0x80 := by
    intro b hb
    have h := all_eq_true.mp (formatNat_numeral i.natAbs).digits b hb
    simp only [isDigit, Bool.and_eq_true, decide_eq_true_eq] at h
    omega
  rw [formatInt]
  split_ifs with hneg
  · rw [forall_mem_cons]
    exact ⟨by decide, hdigits⟩
  · exact hdigits

theorem takeWhile_of_all (h : s.all isDigit = true) : s.takeWhile isDigit = s :=
  takeWhile_eq_self_iff.mpr fun b hb => all_eq_true.mp h b hb

theorem dropWhile_of_all (h : s.all isDigit = true) : s.dropWhile isDigit = [] :=
  dropWhile_eq_nil_iff.mpr fun b hb => all_eq_true.mp h b hb

theorem parseInteger_formatNat : Json.parseInteger (formatNat n) = some (formatNat n, []) := by
  have h := formatNat_numeral n
  rcases Nat.eq_zero_or_pos n with rfl | hpos
  · rw [h.zero rfl]
    rfl
  · obtain ⟨b, t, hbt, hdigit, hall⟩ := formatNat_cons n
    have hb := h.leading hpos.ne' b (by rw [hbt]; rfl)
    rw [hbt]
    simp [parseInteger, hb, hdigit, takeWhile_of_all hall, dropWhile_of_all hall]

/-- A formatted integer is a JSON number literal. -/
theorem isNumber_formatInt : Json.isNumber (formatInt i) = true := by
  have hint := parseInteger_formatNat i.natAbs
  rw [isNumber, decide_eq_true_eq, formatInt]
  split_ifs with hneg
  · simp [parseNumber, parseSign, hint, parseFraction, parseExponent, prepend]
  · obtain ⟨b, t, hbt, hb, -⟩ := formatNat_cons i.natAbs
    have hminus : b ≠ 0x2D := by
      rintro rfl
      exact absurd hb (by decide)
    rw [hbt] at hint ⊢
    simp [parseNumber, parseSign, hminus, hint, parseFraction, parseExponent, prepend]

end HeyServer.Lib.Decimal
