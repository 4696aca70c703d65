import Mathlib.Algebra.Group.Nat.Defs
import Mathlib.Algebra.Ring.Int.Defs
import TradingFleet.Basic.Json
import TradingFleet.Basic.Text

set_option autoImplicit false

/-! # Numbers written as text

`int(s)`, and the decimal number that `Decimal(s)` stands for and `float(s)` rounds. A decimal is
kept as a coefficient and a power of ten. A whole number is written by its digits, and read back
(`decimalOfText_intText`).
-/

namespace TradingFleet.Numeral

open JsonText

/-! ## Reading -/

/-- `coefficient * 10 ^ exponent`. -/
structure Decimal where
  coefficient : Int
  exponent : Int
deriving DecidableEq

/-- Digits that follow a digit; one underscore may stand between two. -/
def moreDigits : List Char → List Char × List Char
  | [] => ([], [])
  | '_' :: d :: cs =>
      if d.isDigit then (d :: (moreDigits cs).1, (moreDigits cs).2) else ([], '_' :: d :: cs)
  | d :: cs => if d.isDigit then (d :: (moreDigits cs).1, (moreDigits cs).2) else ([], d :: cs)

def takeDigits : List Char → List Char × List Char
  | [] => ([], [])
  | d :: cs => if d.isDigit then (d :: (moreDigits cs).1, (moreDigits cs).2) else ([], d :: cs)

def natOf (digits : List Char) : Nat := Nat.ofDigitChars 10 digits 0

/-- The sign, and what it stands before. -/
def takeSign : List Char → Int × List Char
  | '-' :: cs => (-1, cs)
  | '+' :: cs => (1, cs)
  | cs => (1, cs)

/-- `int(s)` of a text, `none` where it raises. -/
def intOfText (s : String) : Option Int :=
  let signed := takeSign (Text.strip s).toList
  let whole := takeDigits signed.2
  if whole.1 ≠ [] ∧ whole.2 = [] then some (signed.1 * natOf whole.1) else none

def takeFraction : List Char → List Char × List Char
  | '.' :: cs => takeDigits cs
  | cs => ([], cs)

def takeExponent : List Char → Option (Int × List Char)
  | 'e' :: cs | 'E' :: cs =>
      let signed := takeSign cs
      let digits := takeDigits signed.2
      if digits.1 ≠ [] then some (signed.1 * natOf digits.1, digits.2) else none
  | cs => some (0, cs)

/-- `Decimal(s)` of a text, `none` where it raises; `inf` and `nan` are left out. -/
def decimalOfText (s : String) : Option Decimal :=
  let signed := takeSign (Text.strip s).toList
  let whole := takeDigits signed.2
  let fraction := takeFraction whole.2
  match takeExponent fraction.2 with
  | some (e, []) =>
      if whole.1 ++ fraction.1 ≠ [] then
        some { coefficient := signed.1 * natOf (whole.1 ++ fraction.1)
               exponent := e - fraction.1.length }
      else none
  | _ => none

/-- `math.isfinite` of the nearest `float`. -/
def Decimal.isFinite (d : Decimal) : Bool :=
  d.coefficient.natAbs * 10 ^ d.exponent.toNat <
    (2 ^ 1024 - 2 ^ 970) * 10 ^ (-d.exponent).toNat

/-- Whether the nearest `float` lies above `0`. -/
def Decimal.isPositive (d : Decimal) : Bool :=
  0 < d.coefficient ∧
    10 ^ (-d.exponent).toNat < d.coefficient.natAbs * 10 ^ d.exponent.toNat * 2 ^ 1075

/-- The whole number towards `0`. -/
def Decimal.trunc (d : Decimal) : Int :=
  (d.coefficient * 10 ^ d.exponent.toNat).tdiv (10 ^ (-d.exponent).toNat)

def stripZeros : Nat → Decimal → Decimal
  | 0, d => d
  | n + 1, d =>
      if d.coefficient % 10 = 0 then
        stripZeros n { coefficient := d.coefficient / 10, exponent := d.exponent + 1 }
      else d

/-- `Decimal.normalize()`. -/
def Decimal.normalize (d : Decimal) : Decimal :=
  if d.coefficient = 0 then { coefficient := 0, exponent := 0 }
  else stripZeros d.coefficient.natAbs d

/-! ## Writing whole numbers -/

/-- The digits of a whole number. -/
def intText (z : Int) : List Char :=
  if z < 0 then '-' :: Nat.toDigits 10 z.natAbs else Nat.toDigits 10 z.natAbs

theorem toDigits_isDigit (n : Nat) : ∀ c ∈ Nat.toDigits 10 n, c.isDigit = true :=
  fun _ hc => Nat.isDigit_of_mem_toDigits (by decide) (by decide) hc

/-- A whole number is written without a leading zero. -/
theorem toDigits_head {n : Nat} (h : 10 ≤ n) : (Nat.toDigits 10 n).head? ≠ some '0' := by
  induction n using Nat.strongRecOn with
  | _ n ih =>
      rw [Nat.toDigits_of_base_le (by decide) h]
      by_cases hsmall : n / 10 < 10
      · rw [Nat.toDigits_of_lt_base hsmall]
        have hpos : 0 < n / 10 := by omega
        have hdigit : ∀ d, d < 10 → 0 < d → Nat.digitChar d ≠ '0' := by decide
        rw [List.singleton_append, List.head?_cons, ne_eq, Option.some.injEq]
        exact hdigit _ hsmall hpos
      · have hhead := ih (n / 10) (by omega) (by omega)
        rw [List.head?_append_of_ne_nil _ Nat.toDigits_ne_nil]
        exact hhead

theorem isWhole_toDigits (n : Nat) : isWhole (Nat.toDigits 10 n) = true := by
  unfold isWhole
  by_cases h : n < 10
  · simp [Nat.toDigits_of_lt_base h]
  · have hhead := toDigits_head (Nat.le_of_not_lt h)
    simp [hhead]

theorem takeWhile_digits {l : List Char} (h : ∀ c ∈ l, c.isDigit = true) :
    l.takeWhile Char.isDigit = l ∧ l.dropWhile Char.isDigit = [] := by
  have hsplit : (l ++ []).takeWhile Char.isDigit = l ∧ (l ++ []).dropWhile Char.isDigit = [] :=
    takeWhile_stops (List.all_eq_true.mpr h) (fun c hc => by cases hc)
  rwa [List.append_nil] at hsplit

theorem isUnsigned_toDigits (n : Nat) : isUnsigned (Nat.toDigits 10 n) = true := by
  obtain ⟨htake, hdrop⟩ := takeWhile_digits (toDigits_isDigit n)
  unfold isUnsigned
  rw [htake, hdrop, isWhole_toDigits]
  rfl

theorem toDigits_cons (n : Nat) : ∃ c cs, Nat.toDigits 10 n = c :: cs ∧ c.isDigit = true := by
  obtain ⟨c, cs, h⟩ := List.exists_cons_of_ne_nil (Nat.toDigits_ne_nil (n := n) (b := 10))
  exact ⟨c, cs, h, toDigits_isDigit n c (by rw [h]; exact List.mem_cons_self)⟩

theorem isNumber_unsigned {cs : List Char} (hchars : cs.all isNumChar = true)
    (hminus : cs.head? ≠ some '-') (h : isUnsigned cs = true) : isNumber cs = true := by
  unfold isNumber
  rw [hchars, Bool.true_and]
  split
  · rename_i cs'
    exact absurd rfl hminus
  · exact h

theorem isNumber_intText (z : Int) : isNumber (intText z) = true := by
  have hchars : (Nat.toDigits 10 z.natAbs).all isNumChar = true := by
    rw [List.all_eq_true]
    intro c hc
    unfold isNumChar
    simp [toDigits_isDigit _ c hc]
  unfold intText
  by_cases h : z < 0
  · rw [if_pos h]
    unfold isNumber
    rw [List.all_cons, hchars]
    exact isUnsigned_toDigits _
  · rw [if_neg h]
    refine isNumber_unsigned hchars ?_ (isUnsigned_toDigits _)
    obtain ⟨c, cs, htext, hc⟩ := toDigits_cons z.natAbs
    rw [htext, List.head?_cons, ne_eq, Option.some.injEq]
    rintro rfl
    cases hc

/-- A whole number as a JSON value. -/
def intValue (z : Int) : Value := .num ⟨intText z, isNumber_intText z⟩

/-! ## The round trip -/

theorem isDigit_ne {c d : Char} (h : c.isDigit = true) (hd : d.isDigit = false) : c ≠ d := by
  rintro rfl
  rw [h] at hd
  cases hd

theorem dropWhile_none {p : Char → Bool} {l : List Char} (h : ∀ c ∈ l, p c = false) :
    l.dropWhile p = l := by
  cases l with
  | nil => rfl
  | cons c l => exact List.dropWhile_cons_of_neg (by simp [h c List.mem_cons_self])

theorem strip_ofList {l : List Char} (h : ∀ c ∈ l, Text.isSpace c = false) :
    (Text.strip (String.ofList l)).toList = l := by
  unfold Text.strip Text.stripChars
  rw [String.toList_ofList, String.toList_ofList, dropWhile_none h, dropWhile_none, List.reverse_reverse]
  exact fun c hc => h c (List.mem_reverse.mp hc)

theorem moreDigits_all {l : List Char} (h : ∀ c ∈ l, c.isDigit = true) :
    moreDigits l = (l, []) := by
  induction l with
  | nil => rfl
  | cons c l ih =>
      have hc := h c List.mem_cons_self
      rw [moreDigits.eq_3 _ _ (fun _ _ heq => absurd heq (isDigit_ne hc (by decide))), if_pos hc,
        ih (fun c hc => h c (List.mem_cons_of_mem _ hc))]

theorem takeDigits_all {l : List Char} (h : ∀ c ∈ l, c.isDigit = true) :
    takeDigits l = (l, []) := by
  cases l with
  | nil => rfl
  | cons c l =>
      rw [takeDigits, if_pos (h c List.mem_cons_self), moreDigits_all (fun c hc => h c (List.mem_cons_of_mem _ hc))]

theorem takeSign_digits {l : List Char} (h : ∀ c ∈ l, c.isDigit = true) : takeSign l = (1, l) := by
  cases l with
  | nil => rfl
  | cons c l =>
      have hc := h c List.mem_cons_self
      unfold takeSign
      split
      · rename_i heq
        exact absurd (List.cons.inj heq).1 (isDigit_ne hc (by decide))
      · rename_i heq
        exact absurd (List.cons.inj heq).1 (isDigit_ne hc (by decide))
      · rfl

theorem natOf_toDigits (n : Nat) : natOf (Nat.toDigits 10 n) = n := Nat.ofDigitChars_ten_toDigits

theorem takeSign_intText (z : Int) :
    takeSign (intText z) = (if z < 0 then -1 else 1, Nat.toDigits 10 z.natAbs) := by
  unfold intText
  by_cases h : z < 0
  · rw [if_pos h, if_pos h]
    rfl
  · rw [if_neg h, if_neg h, takeSign_digits (toDigits_isDigit _)]

theorem intText_not_space (z : Int) : ∀ c ∈ intText z, Text.isSpace c = false := by
  intro c hc
  unfold intText at hc
  split at hc
  · rcases List.mem_cons.mp hc with rfl | hc
    · decide
    · exact Text.isDigit_not_space (toDigits_isDigit _ c hc)
  · exact Text.isDigit_not_space (toDigits_isDigit _ c hc)

theorem sign_mul_natAbs (z : Int) : (if z < 0 then -1 else 1) * (z.natAbs : Int) = z := by
  by_cases h : z < 0
  · rw [if_pos h]
    omega
  · rw [if_neg h]
    omega

/-- **A whole number that is written is read back.** -/
theorem decimalOfText_intText (z : Int) :
    decimalOfText (String.ofList (intText z)) = some { coefficient := z, exponent := 0 } := by
  unfold decimalOfText
  rw [strip_ofList (intText_not_space z), takeSign_intText]
  dsimp only
  rw [takeDigits_all (toDigits_isDigit _)]
  show (if Nat.toDigits 10 z.natAbs ++ [] ≠ [] then
    some (Decimal.mk ((if z < 0 then -1 else 1) * (natOf (Nat.toDigits 10 z.natAbs ++ []) : Int)) 0)
    else none) = _
  rw [List.append_nil, if_pos Nat.toDigits_ne_nil, natOf_toDigits, sign_mul_natAbs]

end TradingFleet.Numeral
