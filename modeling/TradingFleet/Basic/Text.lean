import Mathlib.Data.List.Basic

set_option autoImplicit false

/-! # Strings as the sources handle them

The programs modelled here keep reasons, states and identifiers as text and compare them
after `strip`, `lower` or `upper`. The functions below are those three, `startswith` and
the head of `split(":", 1)`, on the character list of a string, so that they reduce in the
kernel. White space is that of `str.isspace`, with the separators and blanks beyond ASCII. Case
mapping is exact where its result is ASCII, as the texts that the sources compare with are; a
letter whose counterpart lies beyond ASCII stays as it is.
-/

namespace TradingFleet.Text

/-- `c.isspace()`. -/
def isSpace (c : Char) : Bool :=
  let code := c.toNat
  (9 ≤ code && code ≤ 13) || (28 ≤ code && code ≤ 32) || code = 0x85 || code = 0xA0 ||
    code = 0x1680 || (0x2000 ≤ code && code ≤ 0x200A) || code = 0x2028 || code = 0x2029 ||
    code = 0x202F || code = 0x205F || code = 0x3000

/-- `str.strip()` on the characters of a text. -/
def stripChars (cs : List Char) : List Char :=
  ((cs.dropWhile isSpace).reverse.dropWhile isSpace).reverse

/-- `str.strip()`. -/
def strip (s : String) : String := String.ofList (stripChars s.toList)

/-- `c.lower()`; of the capitals beyond ASCII only the Kelvin sign becomes a letter of it. -/
def lowerChar (c : Char) : Char := if c.toNat = 0x212A then 'k' else c.toLower

/-- `str.lower()`. -/
def lower (s : String) : String := String.ofList (s.toList.map lowerChar)

/-- The letters and ligatures beyond ASCII whose capitals are ASCII. -/
def capitals : List (Nat × List Char) :=
  [(0xDF, ['S', 'S']), (0x131, ['I']), (0x17F, ['S']), (0xFB00, ['F', 'F']), (0xFB01, ['F', 'I']),
    (0xFB02, ['F', 'L']), (0xFB03, ['F', 'F', 'I']), (0xFB04, ['F', 'F', 'L']),
    (0xFB05, ['S', 'T']), (0xFB06, ['S', 'T'])]

/-- `c.upper()`. -/
def upperChar (c : Char) : List Char := (capitals.lookup c.toNat).getD [c.toUpper]

/-- `str.upper()`. -/
def upper (s : String) : String := String.ofList (s.toList.flatMap upperChar)

/-- `s.startswith(p)`. -/
def startsWith (s p : String) : Bool := p.toList.isPrefixOf s.toList

/-- `s.endswith(p)`. -/
def endsWith (s p : String) : Bool := p.toList.isSuffixOf s.toList

/-- `s.split(":", 1)[0]`. -/
def beforeColon (s : String) : String := String.ofList (s.toList.takeWhile (· ≠ ':'))

/-- `s[:n]`. -/
def firstChars (s : String) (n : Nat) : String := String.ofList (s.toList.take n)

/-- The truthiness of an optional string: neither `None` nor empty. -/
def truthy : Option String → Bool
  | none => false
  | some s => s ≠ ""

/-- `value or fallback` on an optional string. -/
def orElse (value : Option String) (fallback : String) : String :=
  match value with
  | some s => if s = "" then fallback else s
  | none => fallback

/-- A printable ASCII character is no white space. -/
theorem isSpace_eq_false {c : Char} (hlow : 33 ≤ c.toNat) (hhigh : c.toNat ≤ 126) :
    isSpace c = false := by
  unfold isSpace
  simp only [Bool.or_eq_false_iff, Bool.and_eq_false_iff, decide_eq_false_iff_not]
  omega

theorem isDigit_not_space {c : Char} (h : c.isDigit = true) : isSpace c = false := by
  simp only [Char.isDigit, Bool.and_eq_true, decide_eq_true_eq, ge_iff_le,
    UInt32.le_iff_toNat_le] at h
  have h0 : ('0' : Char).val.toNat = 48 := rfl
  have h9 : ('9' : Char).val.toNat = 57 := rfl
  have hcode : c.toNat = c.val.toNat := rfl
  exact isSpace_eq_false (by omega) (by omega)

/-- A capital of ASCII is mapped to itself. -/
theorem upperChar_capital {c : Char} (hlow : 65 ≤ c.toNat) (hhigh : c.toNat ≤ 90) :
    upperChar c = [c] := by
  have hbeyond : ∀ e ∈ capitals, 91 ≤ e.1 := by decide
  have hnone : capitals.lookup c.toNat = none := by
    refine List.lookup_eq_none_iff.mpr (fun e he => ?_)
    have hcode := hbeyond e he
    simp
    omega
  have hupper : c.toUpper = c := by
    unfold Char.toUpper
    refine dif_neg (fun h => ?_)
    simp only [UInt32.le_iff_toNat_le] at h
    have ha : ('a' : Char).val.toNat = 97 := rfl
    have hcode : c.toNat = c.val.toNat := rfl
    omega
  rw [upperChar, hnone, Option.getD_none, hupper]

theorem toUpper_cases (c : Char) :
    c.toUpper = c ∨ (65 ≤ c.toUpper.toNat ∧ c.toUpper.toNat ≤ 90) := by
  unfold Char.toUpper
  split
  · right
    rename_i h
    simp only [UInt32.le_iff_toNat_le] at h
    have ha : ('a' : Char).val.toNat = 97 := rfl
    have hz : ('z' : Char).val.toNat = 122 := rfl
    have hcode : c.toNat = c.val.toNat := rfl
    simp only [Char.toNat, UInt32.toNat_add]
    simp
    omega
  · exact Or.inl rfl

/-- What a letter is mapped to stays as it is. -/
theorem upperChar_of_mem {c d : Char} (h : d ∈ upperChar c) : upperChar d = [d] := by
  unfold upperChar at h
  cases hc : capitals.lookup c.toNat with
  | some letters =>
      have hcapital : capitals.all (fun e => e.2.all (fun d => 65 ≤ d.toNat && d.toNat ≤ 90)) =
          true := rfl
      rw [hc, Option.getD_some] at h
      obtain ⟨before, after, hmem, -⟩ := List.lookup_eq_some_iff.mp hc
      have hletters := List.all_eq_true.mp hcapital (c.toNat, letters) (by rw [hmem]; simp)
      have hd := List.all_eq_true.mp hletters d h
      rw [Bool.and_eq_true, decide_eq_true_eq, decide_eq_true_eq] at hd
      exact upperChar_capital hd.1 hd.2
  | none =>
      rw [hc, Option.getD_none, List.mem_singleton] at h
      rw [h]
      rcases toUpper_cases c with hsame | ⟨hlow, hhigh⟩
      · rw [hsame, upperChar, hc, Option.getD_none, hsame]
      · exact upperChar_capital hlow hhigh

theorem upper_empty : upper "" = "" := by decide

theorem upper_upper (s : String) : upper (upper s) = upper s := by
  unfold upper
  rw [String.toList_ofList, List.flatMap_assoc]
  congr 1
  refine List.flatMap_congr (fun c _ => ?_)
  rw [List.flatMap_congr (fun d hd => upperChar_of_mem hd), List.flatMap_singleton']

end TradingFleet.Text
