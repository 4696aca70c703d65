import Mathlib.Data.List.Basic

set_option autoImplicit false

/-! # JSON text

Values, the compact text of `json.dumps(value, separators=(",", ":"))` with its default ASCII
escapes, and the reader `json.loads`. A number is kept as it is written, so reading a text back
gives the value that was written (`loads_dumps`), and a text has no line break, so values can be
written one a line.

A string is written as UTF-16 units where it is not printable ASCII. A text with half a surrogate
pair is refused: no string of Lean holds one.
-/

namespace TradingFleet.JsonText

/-! ## Values -/

/-- The characters of a number. -/
def isNumChar (c : Char) : Bool :=
  c.isDigit || c = '-' || c = '+' || c = '.' || c = 'e' || c = 'E'

/-- Digits, without a leading zero. -/
def isWhole (ds : List Char) : Bool :=
  ds ≠ [] && (ds.length = 1 || ds.head? ≠ some '0')

def isExponent : List Char → Bool
  | [] => true
  | 'e' :: '-' :: ds | 'E' :: '-' :: ds | 'e' :: '+' :: ds | 'E' :: '+' :: ds
  | 'e' :: ds | 'E' :: ds => ds ≠ [] && ds.all Char.isDigit
  | _ => false

def isFraction : List Char → Bool
  | '.' :: cs => cs.takeWhile Char.isDigit ≠ [] && isExponent (cs.dropWhile Char.isDigit)
  | cs => isExponent cs

def isUnsigned (cs : List Char) : Bool :=
  isWhole (cs.takeWhile Char.isDigit) && isFraction (cs.dropWhile Char.isDigit)

/-- The grammar of a number. -/
def isNumber (cs : List Char) : Bool :=
  cs.all isNumChar && match cs with
    | '-' :: cs => isUnsigned cs
    | cs => isUnsigned cs

/-- A number as it is written. -/
structure Number where
  text : List Char
  ok : isNumber text = true
deriving DecidableEq

inductive Value where
  | null
  | bool (b : Bool)
  | num (n : Number)
  | str (s : String)
  | arr (items : List Value)
  | obj (fields : List (String × Value))

/-! ## Strings -/

/-- The UTF-16 units of a character. -/
def unitsOf (c : Char) : List Nat :=
  if c.toNat < 0x10000 then [c.toNat]
  else [0xd800 + (c.toNat - 0x10000) / 0x400, 0xdc00 + (c.toNat - 0x10000) % 0x400]

/-- The characters of UTF-16 units. -/
def charsOf : List Nat → Option (List Char)
  | [] => some []
  | u :: us =>
      if u < 0xd800 ∨ 0xe000 ≤ u then (charsOf us).map (Char.ofNat u :: ·)
      else match us with
        | v :: us =>
            if u < 0xdc00 ∧ 0xdc00 ≤ v ∧ v < 0xe000 then
              (charsOf us).map (Char.ofNat (0x10000 + (u - 0xd800) * 0x400 + (v - 0xdc00)) :: ·)
            else none
        | [] => none

theorem charsOf_unitsOf (c : Char) (us : List Nat) :
    charsOf (unitsOf c ++ us) = (charsOf us).map (c :: ·) := by
  have hvalid : c.toNat < 0xd800 ∨ 0xdfff < c.toNat ∧ c.toNat < 0x110000 := c.valid
  unfold unitsOf
  by_cases hsmall : c.toNat < 0x10000
  · rw [if_pos hsmall, List.singleton_append, charsOf.eq_def]
    dsimp only
    rw [if_pos (by omega), Char.ofNat_toNat]
  · rw [if_neg hsmall, List.cons_append, List.singleton_append, charsOf.eq_def]
    dsimp only
    rw [if_neg (by omega)]
    have hpair : 0x10000 + (0xd800 + (c.toNat - 0x10000) / 0x400 - 0xd800) * 0x400 +
        (0xdc00 + (c.toNat - 0x10000) % 0x400 - 0xdc00) = c.toNat := by
      omega
    rw [if_pos (by omega), hpair, Char.ofNat_toNat]

theorem charsOf_flatMap (cs : List Char) : charsOf (cs.flatMap unitsOf) = some cs := by
  induction cs with
  | nil => rfl
  | cons c cs ih => rw [List.flatMap_cons, charsOf_unitsOf, ih, Option.map_some]

def hexDigit (n : Nat) : Char := Nat.digitChar n

def hexValue (c : Char) : Option Nat :=
  if '0' ≤ c ∧ c ≤ '9' then some (c.toNat - '0'.toNat)
  else if 'a' ≤ c ∧ c ≤ 'f' then some (c.toNat - 'a'.toNat + 10)
  else if 'A' ≤ c ∧ c ≤ 'F' then some (c.toNat - 'A'.toNat + 10)
  else none

theorem hexValue_hexDigit : ∀ d, d < 16 → hexValue (hexDigit d) = some d := by decide

/-- `\\uXXXX`. -/
def escapeUnit (u : Nat) : List Char :=
  ['\\', 'u', hexDigit (u / 4096), hexDigit (u / 256 % 16), hexDigit (u / 16 % 16),
    hexDigit (u % 16)]

def unitValue (a b c d : Char) : Option Nat := do
  let a ← hexValue a
  let b ← hexValue b
  let c ← hexValue c
  let d ← hexValue d
  pure (a * 4096 + b * 256 + c * 16 + d)

theorem unitValue_hexDigit {u : Nat} (h : u < 0x10000) :
    unitValue (hexDigit (u / 4096)) (hexDigit (u / 256 % 16)) (hexDigit (u / 16 % 16))
      (hexDigit (u % 16)) = some u := by
  unfold unitValue
  rw [hexValue_hexDigit _ (by omega), hexValue_hexDigit _ (by omega),
    hexValue_hexDigit _ (by omega), hexValue_hexDigit _ (by omega)]
  show some _ = some u
  rw [Option.some.injEq]
  omega

/-- The characters with an escape of their own. -/
def shortEscapes : List (Char × Char) :=
  [('"', '"'), ('\\', '\\'), ('\n', 'n'), ('\r', 'r'), ('\t', 't'), ('\x0c', 'f'), ('\x08', 'b')]

def escapeChar (c : Char) : List Char :=
  match shortEscapes.lookup c with
  | some e => ['\\', e]
  | none => if ' ' ≤ c ∧ c ≤ '~' then [c] else (unitsOf c).flatMap escapeUnit

/-- What a short escape stands for. `\\/` is read, but never written. -/
def unescape (e : Char) : Option Char :=
  if e = '/' then some '/' else (shortEscapes.find? (fun p => p.2 = e)).map Prod.fst

/-- The units of a string up to its closing quote, and what comes after it. -/
def parseUnits : List Char → Option (List Nat × List Char)
  | [] => none
  | '"' :: cs => some ([], cs)
  | '\\' :: 'u' :: a :: b :: c :: d :: cs =>
      match unitValue a b c d with
      | none => none
      | some u => (parseUnits cs).map (fun r => (u :: r.1, r.2))
  | '\\' :: e :: cs =>
      match unescape e with
      | none => none
      | some c => (parseUnits cs).map (fun r => (c.toNat :: r.1, r.2))
  | c :: cs =>
      if c.toNat < 32 then none else (parseUnits cs).map (fun r => (unitsOf c ++ r.1, r.2))

def dumpsString (s : String) : List Char := '"' :: (s.toList.flatMap escapeChar ++ ['"'])

/-- A string after its opening quote. -/
def parseString (cs : List Char) : Option (String × List Char) := do
  let r ← parseUnits cs
  let chars ← charsOf r.1
  pure (String.ofList chars, r.2)

theorem parseUnits_escapeUnits (us : List Nat) (h : ∀ u ∈ us, u < 0x10000) (cs : List Char) :
    parseUnits (us.flatMap escapeUnit ++ cs) =
      (parseUnits cs).map (fun r => (us ++ r.1, r.2)) := by
  induction us with
  | nil => simp
  | cons u us ih =>
      have hu := unitValue_hexDigit (h u (by simp))
      have hus := ih (fun v hv => h v (by simp [hv]))
      rw [List.flatMap_cons, List.append_assoc]
      unfold escapeUnit
      simp only [List.cons_append, List.nil_append]
      rw [parseUnits, hu]
      dsimp only
      unfold escapeUnit at hus
      rw [hus]
      simp [Option.map_map, Function.comp_def]

theorem unitsOf_lt (c : Char) : ∀ u ∈ unitsOf c, u < 0x10000 := by
  have hvalid : c.toNat < 0xd800 ∨ 0xdfff < c.toNat ∧ c.toNat < 0x110000 := c.valid
  intro u hu
  unfold unitsOf at hu
  split at hu
  · simp at hu
    omega
  · simp at hu
    omega

theorem parseUnits_plain {c : Char} (hquote : c ≠ '"') (hslash : c ≠ '\\') (cs : List Char) :
    parseUnits (c :: cs) =
      if c.toNat < 32 then none else (parseUnits cs).map (fun r => (unitsOf c ++ r.1, r.2)) := by
  rw [parseUnits]
  · exact hquote
  · intro a b c d cs' h
    exact absurd h hslash
  · intro e cs' h
    exact absurd h hslash

theorem mem_shortEscapes {c e : Char} (h : shortEscapes.lookup c = some e) :
    (c, e) ∈ shortEscapes := by
  obtain ⟨l, l', hsplit, -⟩ := List.lookup_eq_some_iff.mp h
  rw [hsplit]
  simp

/-- What is escaped is read as the character it stands for. -/
theorem parseUnits_escapeChar (c : Char) (cs : List Char) :
    parseUnits (escapeChar c ++ cs) = (parseUnits cs).map (fun r => (unitsOf c ++ r.1, r.2)) := by
  unfold escapeChar
  cases hshort : shortEscapes.lookup c with
  | some e =>
      have hmem := mem_shortEscapes hshort
      simp only [shortEscapes, List.mem_cons, Prod.mk.injEq, List.not_mem_nil, or_false] at hmem
      rcases hmem with h | h | h | h | h | h | h <;> obtain ⟨rfl, rfl⟩ := h <;> rfl
  | none =>
      dsimp only
      split
      · rename_i hprintable
        have hquote : c ≠ '"' := by
          rintro rfl
          cases hshort
        have hslash : c ≠ '\\' := by
          rintro rfl
          cases hshort
        have hge : 32 ≤ c.toNat := hprintable.1
        rw [List.singleton_append, parseUnits_plain hquote hslash, if_neg (by omega)]
      · exact parseUnits_escapeUnits _ (unitsOf_lt c) cs

theorem parseString_dumps (s : String) (cs : List Char) :
    parseString (s.toList.flatMap escapeChar ++ '"' :: cs) = some (s, cs) := by
  have hunits : ∀ l : List Char, parseUnits (l.flatMap escapeChar ++ '"' :: cs) =
      some (l.flatMap unitsOf, cs) := by
    intro l
    induction l with
    | nil => rfl
    | cons c l ih =>
        rw [List.flatMap_cons, List.append_assoc, parseUnits_escapeChar, ih]
        rfl
  unfold parseString
  rw [hunits]
  show (do let chars ← charsOf (s.toList.flatMap unitsOf); pure (String.ofList chars, cs)) = _
  rw [charsOf_flatMap]
  show some (String.ofList s.toList, cs) = _
  rw [String.ofList_toList]

/-! ## Writing -/

mutual

/-- `json.dumps(value, separators=(",", ":"))`. -/
def dumps : Value → List Char
  | .null => ['n', 'u', 'l', 'l']
  | .bool true => ['t', 'r', 'u', 'e']
  | .bool false => ['f', 'a', 'l', 's', 'e']
  | .num n => n.text
  | .str s => dumpsString s
  | .arr [] => ['[', ']']
  | .arr (v :: vs) => '[' :: (dumps v ++ dumpsItems vs)
  | .obj [] => ['{', '}']
  | .obj (f :: fs) => '{' :: (dumpsField f ++ dumpsFields fs)

/-- The items after the first one. -/
def dumpsItems : List Value → List Char
  | [] => [']']
  | v :: vs => ',' :: (dumps v ++ dumpsItems vs)

def dumpsField : String × Value → List Char
  | (key, v) => dumpsString key ++ ':' :: dumps v

/-- The fields after the first one. -/
def dumpsFields : List (String × Value) → List Char
  | [] => ['}']
  | f :: fs => ',' :: (dumpsField f ++ dumpsFields fs)

end

/-! ## Reading -/

def isBlank (c : Char) : Bool := c = ' ' || c = '\t' || c = '\n' || c = '\r'

def skipBlanks (cs : List Char) : List Char := cs.dropWhile isBlank

def parseNumber (cs : List Char) : Option (Value × List Char) :=
  if h : isNumber (cs.takeWhile isNumChar) = true then
    some (.num ⟨cs.takeWhile isNumChar, h⟩, cs.dropWhile isNumChar)
  else none

def parseColon (cs : List Char) : Option (List Char) :=
  match skipBlanks cs with
  | ':' :: cs => some cs
  | _ => none

mutual

def parseValue : Nat → List Char → Option (Value × List Char)
  | 0, _ => none
  | n + 1, cs =>
      match skipBlanks cs with
      | 'n' :: 'u' :: 'l' :: 'l' :: cs => some (.null, cs)
      | 't' :: 'r' :: 'u' :: 'e' :: cs => some (.bool true, cs)
      | 'f' :: 'a' :: 'l' :: 's' :: 'e' :: cs => some (.bool false, cs)
      | '"' :: cs => (parseString cs).map (fun r => (.str r.1, r.2))
      | '[' :: cs =>
          match skipBlanks cs with
          | ']' :: cs => some (.arr [], cs)
          | cs => do
              let v ← parseValue n cs
              let vs ← parseItems n v.2
              pure (.arr (v.1 :: vs.1), vs.2)
      | '{' :: cs =>
          match skipBlanks cs with
          | '}' :: cs => some (.obj [], cs)
          | cs => do
              let f ← parseField n cs
              let fs ← parseFields n f.2
              pure (.obj (f.1 :: fs.1), fs.2)
      | cs => parseNumber cs

def parseItems : Nat → List Char → Option (List Value × List Char)
  | 0, _ => none
  | n + 1, cs =>
      match skipBlanks cs with
      | ']' :: cs => some ([], cs)
      | ',' :: cs => do
          let v ← parseValue n cs
          let vs ← parseItems n v.2
          pure (v.1 :: vs.1, vs.2)
      | _ => none

def parseField : Nat → List Char → Option ((String × Value) × List Char)
  | 0, _ => none
  | n + 1, cs =>
      match skipBlanks cs with
      | '"' :: cs => do
          let key ← parseString cs
          let cs ← parseColon key.2
          let v ← parseValue n cs
          pure ((key.1, v.1), v.2)
      | _ => none

def parseFields : Nat → List Char → Option (List (String × Value) × List Char)
  | 0, _ => none
  | n + 1, cs =>
      match skipBlanks cs with
      | '}' :: cs => some ([], cs)
      | ',' :: cs => do
          let f ← parseField n cs
          let fs ← parseFields n f.2
          pure (f.1 :: fs.1, fs.2)
      | _ => none

end

/-- `json.loads`. Each call reads a character or more. -/
def loads (cs : List Char) : Option Value := do
  let r ← parseValue (cs.length + 1) cs
  if skipBlanks r.2 = [] then pure r.1 else none

/-! ## The round trip -/

/-- What may come after a number. -/
def Stops (cs : List Char) : Prop := ∀ c ∈ cs.head?, isNumChar c = false

theorem skipBlanks_cons {c : Char} (h : isBlank c = false) (cs : List Char) :
    skipBlanks (c :: cs) = c :: cs := by
  unfold skipBlanks
  rw [List.dropWhile_cons, if_neg (by simp [h])]

theorem stops_cons {c : Char} (h : isNumChar c = false) (cs : List Char) : Stops (c :: cs) := by
  intro c' hc'
  rw [List.head?_cons, Option.mem_some_iff] at hc'
  rw [← hc']
  exact h

theorem takeWhile_stops {p : Char → Bool} {l cs : List Char} (hl : l.all p = true)
    (hcs : ∀ c ∈ cs.head?, p c = false) :
    (l ++ cs).takeWhile p = l ∧ (l ++ cs).dropWhile p = cs := by
  induction l with
  | nil =>
      cases cs with
      | nil => exact ⟨rfl, rfl⟩
      | cons c cs =>
          have hc := hcs c (by simp)
          exact ⟨List.takeWhile_cons_of_neg (by simp [hc]), List.dropWhile_cons_of_neg (by simp [hc])⟩
  | cons c l ih =>
      rw [List.all_cons, Bool.and_eq_true] at hl
      obtain ⟨h1, h2⟩ := ih hl.2
      rw [List.cons_append, List.takeWhile_cons, List.dropWhile_cons, if_pos hl.1, if_pos hl.1, h1,
        h2]
      exact ⟨rfl, rfl⟩

theorem parseNumber_text (n : Number) {cs : List Char} (h : Stops cs) :
    parseNumber (n.text ++ cs) = some (.num n, cs) := by
  have hall : n.text.all isNumChar = true := by
    have hok := n.ok
    unfold isNumber at hok
    rw [Bool.and_eq_true] at hok
    exact hok.1
  obtain ⟨htake, hdrop⟩ := takeWhile_stops hall h
  unfold parseNumber
  rw [htake, hdrop, dif_pos n.ok]

/-- A text that a value starts with. -/
structure Head (c : Char) : Prop where
  blank : isBlank c = false
  item : c ≠ ']'
  field : c ≠ '}'

theorem number_head (n : Number) :
    ∃ c cs, n.text = c :: cs ∧ isNumChar c = true := by
  have hok := n.ok
  unfold isNumber at hok
  rw [Bool.and_eq_true] at hok
  cases htext : n.text with
  | nil =>
      rw [htext] at hok
      exact absurd hok.2 (by decide)
  | cons c cs =>
      rw [htext, List.all_cons, Bool.and_eq_true] at hok
      exact ⟨c, cs, rfl, hok.1.1⟩

theorem head_of_num {c : Char} (h : isNumChar c = true) : Head c := by
  constructor
  · by_contra hblank
    rw [Bool.not_eq_false] at hblank
    unfold isBlank at hblank
    simp only [Bool.or_eq_true, decide_eq_true_eq] at hblank
    rcases hblank with ((rfl | rfl) | rfl) | rfl <;> cases h
  · rintro rfl
    cases h
  · rintro rfl
    cases h

theorem dumps_head (v : Value) : ∃ c cs, dumps v = c :: cs ∧ Head c := by
  cases v with
  | null => exact ⟨_, _, rfl, by constructor <;> decide⟩
  | bool b => cases b <;> exact ⟨_, _, rfl, by constructor <;> decide⟩
  | num n =>
      obtain ⟨c, cs, htext, hc⟩ := number_head n
      exact ⟨c, cs, htext, head_of_num hc⟩
  | str s => exact ⟨_, _, rfl, by constructor <;> decide⟩
  | arr items => cases items <;> exact ⟨_, _, rfl, by constructor <;> decide⟩
  | obj fields => cases fields <;> exact ⟨_, _, rfl, by constructor <;> decide⟩

theorem dumpsItems_stops (vs : List Value) (cs : List Char) : Stops (dumpsItems vs ++ cs) := by
  cases vs <;> exact stops_cons (by decide) _

theorem dumpsFields_stops (fs : List (String × Value)) (cs : List Char) :
    Stops (dumpsFields fs ++ cs) := by
  cases fs <;> exact stops_cons (by decide) _

theorem parseValue_number (n : Number) (fuel : Nat) {cs : List Char} (h : Stops cs) :
    parseValue (fuel + 1) (n.text ++ cs) = some (.num n, cs) := by
  have hparse := parseNumber_text n h
  obtain ⟨c, l, htext, hc⟩ := number_head n
  rw [htext, List.cons_append] at hparse ⊢
  rw [parseValue.eq_def]
  dsimp only
  rw [skipBlanks_cons (head_of_num hc).blank]
  split
  case _ heq =>
      obtain ⟨rfl, -⟩ := List.cons.inj heq
      cases hc
  case _ heq =>
      obtain ⟨rfl, -⟩ := List.cons.inj heq
      cases hc
  case _ heq =>
      obtain ⟨rfl, -⟩ := List.cons.inj heq
      cases hc
  case _ heq =>
      obtain ⟨rfl, -⟩ := List.cons.inj heq
      cases hc
  case _ heq =>
      obtain ⟨rfl, -⟩ := List.cons.inj heq
      cases hc
  case _ heq =>
      obtain ⟨rfl, -⟩ := List.cons.inj heq
      cases hc
  case _ => exact hparse

theorem parseValue_array {c : Char} (hc : Head c) (fuel : Nat) (cs : List Char) :
    parseValue (fuel + 1) ('[' :: c :: cs) = (do
      let v ← parseValue fuel (c :: cs)
      let vs ← parseItems fuel v.2
      pure (.arr (v.1 :: vs.1), vs.2)) := by
  have hskip := skipBlanks_cons hc.blank cs
  generalize hcs : c :: cs = l at hskip ⊢
  rw [parseValue.eq_def]
  simp only [skipBlanks_cons (show isBlank '[' = false by decide), hskip]
  split
  · rename_i l
    exact absurd (List.cons.inj hcs).1 hc.item
  · rfl

theorem parseValue_object (fuel : Nat) (cs : List Char) :
    parseValue (fuel + 1) ('{' :: '"' :: cs) = (do
      let f ← parseField fuel ('"' :: cs)
      let fs ← parseFields fuel f.2
      pure (.obj (f.1 :: fs.1), fs.2)) := rfl

theorem parseValue_string (fuel : Nat) (cs : List Char) :
    parseValue (fuel + 1) ('"' :: cs) = (parseString cs).map (fun r => (.str r.1, r.2)) := rfl

theorem parseItems_comma (fuel : Nat) (cs : List Char) :
    parseItems (fuel + 1) (',' :: cs) = (do
      let v ← parseValue fuel cs
      let vs ← parseItems fuel v.2
      pure (v.1 :: vs.1, vs.2)) := rfl

theorem parseField_quote (fuel : Nat) (cs : List Char) :
    parseField (fuel + 1) ('"' :: cs) = (do
      let key ← parseString cs
      let cs ← parseColon key.2
      let v ← parseValue fuel cs
      pure ((key.1, v.1), v.2)) := rfl

theorem parseFields_comma (fuel : Nat) (cs : List Char) :
    parseFields (fuel + 1) (',' :: cs) = (do
      let f ← parseField fuel cs
      let fs ← parseFields fuel f.2
      pure (f.1 :: fs.1, fs.2)) := rfl

theorem dumpsString_append (s : String) (cs : List Char) :
    dumpsString s ++ cs = '"' :: (s.toList.flatMap escapeChar ++ '"' :: cs) := by
  unfold dumpsString
  simp

mutual

theorem parseValue_dumps : ∀ (v : Value) (fuel : Nat) (cs : List Char),
    (dumps v).length < fuel → Stops cs → parseValue fuel (dumps v ++ cs) = some (v, cs)
  | v, 0, _, hfuel, _ => absurd hfuel (Nat.not_lt_zero _)
  | .null, _ + 1, _, _, _ => rfl
  | .bool true, _ + 1, _, _, _ => rfl
  | .bool false, _ + 1, _, _, _ => rfl
  | .num n, fuel + 1, cs, _, hcs => by
      rw [dumps]
      exact parseValue_number n fuel hcs
  | .str s, fuel + 1, cs, _, _ => by
      rw [dumps, dumpsString_append, parseValue_string, parseString_dumps]
      rfl
  | .arr [], _ + 1, _, _, _ => rfl
  | .arr (v :: vs), fuel + 1, cs, hfuel, hcs => by
      rw [dumps, List.length_cons, List.length_append] at hfuel
      have hv := parseValue_dumps v fuel (dumpsItems vs ++ cs) (by omega) (dumpsItems_stops vs cs)
      have hvs := parseItems_dumps vs fuel cs (by omega)
      obtain ⟨c, l, hhead, hc⟩ := dumps_head v
      rw [dumps, List.cons_append, List.append_assoc]
      rw [hhead, List.cons_append] at hv ⊢
      rw [parseValue_array hc, hv]
      show (do
        let vs ← parseItems fuel (dumpsItems vs ++ cs)
        pure (Value.arr (v :: vs.1), vs.2)) = _
      rw [hvs]
      rfl
  | .obj [], _ + 1, _, _, _ => rfl
  | .obj (f :: fs), fuel + 1, cs, hfuel, hcs => by
      rw [dumps, List.length_cons, List.length_append] at hfuel
      have hf := parseField_dumps f fuel (dumpsFields fs ++ cs) (by omega)
        (dumpsFields_stops fs cs)
      have hfs := parseFields_dumps fs fuel cs (by omega)
      obtain ⟨key, v⟩ := f
      rw [dumps, List.cons_append, List.append_assoc]
      rw [dumpsField, List.append_assoc, dumpsString_append] at hf ⊢
      rw [parseValue_object, hf]
      show (do
        let fs ← parseFields fuel (dumpsFields fs ++ cs)
        pure (Value.obj ((key, v) :: fs.1), fs.2)) = _
      rw [hfs]
      rfl

theorem parseItems_dumps : ∀ (vs : List Value) (fuel : Nat) (cs : List Char),
    (dumpsItems vs).length < fuel → parseItems fuel (dumpsItems vs ++ cs) = some (vs, cs)
  | vs, 0, _, hfuel => absurd hfuel (Nat.not_lt_zero _)
  | [], _ + 1, _, _ => rfl
  | v :: vs, fuel + 1, cs, hfuel => by
      rw [dumpsItems, List.length_cons, List.length_append] at hfuel
      have hv := parseValue_dumps v fuel (dumpsItems vs ++ cs) (by omega) (dumpsItems_stops vs cs)
      have hvs := parseItems_dumps vs fuel cs (by omega)
      rw [dumpsItems, List.cons_append, List.append_assoc, parseItems_comma, hv]
      show (do
        let vs ← parseItems fuel (dumpsItems vs ++ cs)
        pure (v :: vs.1, vs.2)) = _
      rw [hvs]
      rfl

theorem parseField_dumps : ∀ (f : String × Value) (fuel : Nat) (cs : List Char),
    (dumpsField f).length < fuel → Stops cs → parseField fuel (dumpsField f ++ cs) = some (f, cs)
  | f, 0, _, hfuel, _ => absurd hfuel (Nat.not_lt_zero _)
  | (key, v), fuel + 1, cs, hfuel, hcs => by
      rw [dumpsField, List.length_append, List.length_cons] at hfuel
      have hv := parseValue_dumps v fuel cs (by omega) hcs
      rw [dumpsField, List.append_assoc, dumpsString_append, List.cons_append, parseField_quote,
        parseString_dumps]
      show (do
        let v ← parseValue fuel (dumps v ++ cs)
        pure ((key, v.1), v.2)) = _
      rw [hv]
      rfl

theorem parseFields_dumps : ∀ (fs : List (String × Value)) (fuel : Nat) (cs : List Char),
    (dumpsFields fs).length < fuel → parseFields fuel (dumpsFields fs ++ cs) = some (fs, cs)
  | fs, 0, _, hfuel => absurd hfuel (Nat.not_lt_zero _)
  | [], _ + 1, _, _ => rfl
  | f :: fs, fuel + 1, cs, hfuel => by
      rw [dumpsFields, List.length_cons, List.length_append] at hfuel
      have hf := parseField_dumps f fuel (dumpsFields fs ++ cs) (by omega)
        (dumpsFields_stops fs cs)
      have hfs := parseFields_dumps fs fuel cs (by omega)
      rw [dumpsFields, List.cons_append, List.append_assoc, parseFields_comma, hf]
      show (do
        let fs ← parseFields fuel (dumpsFields fs ++ cs)
        pure (f :: fs.1, fs.2)) = _
      rw [hfs]
      rfl

end

/-- **What is written is read back.** -/
theorem loads_dumps (v : Value) : loads (dumps v) = some v := by
  have hparse := parseValue_dumps v ((dumps v).length + 1) [] (Nat.lt_succ_self _)
    (fun c hc => by cases hc)
  rw [List.append_nil] at hparse
  unfold loads
  rw [hparse]
  rfl

/-! ## One text, one line -/

/-- No control character, in particular no line break. -/
def Plain (cs : List Char) : Prop := ∀ c ∈ cs, 32 ≤ c.toNat

theorem Plain.append {cs cs' : List Char} (h : Plain cs) (h' : Plain cs') : Plain (cs ++ cs') := by
  intro c hc
  rcases List.mem_append.mp hc with hc | hc
  · exact h c hc
  · exact h' c hc

theorem Plain.cons {c : Char} {cs : List Char} (hc : 32 ≤ c.toNat) (h : Plain cs) :
    Plain (c :: cs) := by
  intro c' hc'
  rcases List.mem_cons.mp hc' with rfl | hc'
  · exact hc
  · exact h c' hc'

theorem plain_nil : Plain [] := fun _ h => by cases h

theorem plain_of_all {cs : List Char} (h : cs.all (fun c => 32 ≤ c.toNat) = true) : Plain cs :=
  fun c hc => of_decide_eq_true (List.all_eq_true.mp h c hc)

theorem hexDigit_plain : ∀ d, d < 16 → 32 ≤ (hexDigit d).toNat := by decide

theorem escapeUnit_plain {u : Nat} (h : u < 0x10000) : Plain (escapeUnit u) :=
  .cons (by decide) (.cons (by decide) (.cons (hexDigit_plain _ (by omega))
    (.cons (hexDigit_plain _ (by omega)) (.cons (hexDigit_plain _ (by omega))
      (.cons (hexDigit_plain _ (by omega)) plain_nil)))))

theorem escapeChar_plain (c : Char) : Plain (escapeChar c) := by
  unfold escapeChar
  cases hshort : shortEscapes.lookup c with
  | some e =>
      have hmem := mem_shortEscapes hshort
      simp only [shortEscapes, List.mem_cons, Prod.mk.injEq, List.not_mem_nil, or_false] at hmem
      rcases hmem with h | h | h | h | h | h | h <;> obtain ⟨rfl, rfl⟩ := h <;>
        exact .cons (by decide) (.cons (by decide) plain_nil)
  | none =>
      dsimp only
      split
      · rename_i hprintable
        exact .cons hprintable.1 plain_nil
      · intro c' hc'
        obtain ⟨u, hu, hmem⟩ := List.mem_flatMap.mp hc'
        exact escapeUnit_plain (unitsOf_lt c u hu) c' hmem

theorem dumpsString_plain (s : String) : Plain (dumpsString s) := by
  refine .cons (by decide) (.append ?_ (.cons (by decide) plain_nil))
  intro c hc
  obtain ⟨c', -, hmem⟩ := List.mem_flatMap.mp hc
  exact escapeChar_plain c' c hmem

theorem numChar_plain {c : Char} (h : isNumChar c = true) : 32 ≤ c.toNat := by
  unfold isNumChar at h
  simp only [Bool.or_eq_true, decide_eq_true_eq] at h
  rcases h with ((((h | rfl) | rfl) | rfl) | rfl) | rfl
  · have hge : 48 ≤ c.toNat := by
      unfold Char.isDigit at h
      simp only [Bool.and_eq_true, decide_eq_true_eq] at h
      exact h.1
    omega
  all_goals decide

theorem number_plain (n : Number) : Plain n.text := by
  have hok := n.ok
  unfold isNumber at hok
  rw [Bool.and_eq_true, List.all_eq_true] at hok
  exact fun c hc => numChar_plain (hok.1 c hc)

mutual

theorem dumps_plain : ∀ v : Value, Plain (dumps v)
  | .null => by rw [dumps]; exact plain_of_all rfl
  | .bool true => by rw [dumps]; exact plain_of_all rfl
  | .bool false => by rw [dumps]; exact plain_of_all rfl
  | .num n => by
      rw [dumps]
      exact number_plain n
  | .str s => by
      rw [dumps]
      exact dumpsString_plain s
  | .arr [] => by rw [dumps]; exact plain_of_all rfl
  | .arr (v :: vs) => by
      rw [dumps]
      exact .cons (by decide) (.append (dumps_plain v) (dumpsItems_plain vs))
  | .obj [] => by rw [dumps]; exact plain_of_all rfl
  | .obj (f :: fs) => by
      rw [dumps]
      exact .cons (by decide) (.append (dumpsField_plain f) (dumpsFields_plain fs))

theorem dumpsItems_plain : ∀ vs : List Value, Plain (dumpsItems vs)
  | [] => by rw [dumpsItems]; exact .cons (by decide) plain_nil
  | v :: vs => by
      rw [dumpsItems]
      exact .cons (by decide) (.append (dumps_plain v) (dumpsItems_plain vs))

theorem dumpsField_plain : ∀ f : String × Value, Plain (dumpsField f)
  | (key, v) => by
      rw [dumpsField]
      exact .append (dumpsString_plain key) (.cons (by decide) (dumps_plain v))

theorem dumpsFields_plain : ∀ fs : List (String × Value), Plain (dumpsFields fs)
  | [] => by rw [dumpsFields]; exact .cons (by decide) plain_nil
  | f :: fs => by
      rw [dumpsFields]
      exact .cons (by decide) (.append (dumpsField_plain f) (dumpsFields_plain fs))

end

end TradingFleet.JsonText
