import Mathlib.Data.List.TakeWhile
import Mathlib.Tactic.Common

/-!
# Scanning text by a format

`scan` runs the directives of a format over a text and returns what they assign,
up to the first that fails: a conversion takes the longest item of its kind, and
at most as many characters as its width.  The rules say what each directive makes
of a text that was printed for it.
-/

namespace Tns.Library

/-- A directive of a format. -/
inductive Directive where
  /-- White space: skips all white space. -/
  | space
  /-- Any other character: has to be the next one. -/
  | char (c : Char)
  /-- `%Ns`. -/
  | string (width : ℕ)
  /-- `%N[...]`. -/
  | scanset (width : ℕ) (accepts : Char → Bool)
  /-- `%d` or `%Nd`. -/
  | decimal (width : Option ℕ)

/-- What a conversion assigns. -/
inductive Assigned where
  | text (item : List Char)
  | number (n : ℤ)
  deriving DecidableEq, Repr

/-- The sign of an integer, and the text behind it. -/
def splitSign : List Char → List Char × List Char
  | '-' :: cs => (['-'], cs)
  | '+' :: cs => (['+'], cs)
  | cs => ([], cs)

def signedNumber (sign digits : List Char) : ℤ :=
  let n : ℤ := Nat.ofDigitChars 10 digits 0
  if sign = ['-'] then -n else n

/-- What the directives assign, up to the first that fails. -/
def scan (isSpace : Char → Bool) : List Directive → List Char → List Assigned
  | [], _ => []
  | .space :: ds, cs => scan isSpace ds (cs.dropWhile isSpace)
  | .char _ :: _, [] => []
  | .char c :: ds, c' :: cs => if c = c' then scan isSpace ds cs else []
  | .string width :: ds, cs =>
      let cs := cs.dropWhile isSpace
      let item := (cs.take width).takeWhile fun c ↦ !isSpace c
      if item = [] then [] else .text item :: scan isSpace ds (cs.drop item.length)
  | .scanset width accepts :: ds, cs =>
      let item := (cs.take width).takeWhile accepts
      if item = [] then [] else .text item :: scan isSpace ds (cs.drop item.length)
  | .decimal width :: ds, cs =>
      let cs := cs.dropWhile isSpace
      let (sign, unsigned) := splitSign (width.elim cs cs.take)
      let digits := unsigned.takeWhile Char.isDigit
      if digits = [] then []
      else .number (signedNumber sign digits) ::
        scan isSpace ds (cs.drop (sign.length + digits.length))

/-- The text of a literal. -/
def chars (s : String) : List Char := s.toList

/-- The characters of a literal, in a format. -/
def literal (s : String) : List Directive := (chars s).map .char

/-! ## What is read back -/

section Rules

variable {isSpace : Char → Bool} {ds : List Directive} {item rest blanks : List Char}
  {width : ℕ} {accepts : Char → Bool}

/-- The character that follows, if any, does not belong to the item. -/
def EndsBefore (accepts : Char → Bool) (rest : List Char) : Prop :=
  ∀ c ∈ rest.head?, accepts c = false

theorem endsBefore_cons {c : Char} (h : accepts c = false) (rest : List Char) :
    EndsBefore accepts (c :: rest) := by
  intro d hd
  obtain rfl := Option.some.inj hd
  exact h

theorem takeWhile_take_append (hitem : ∀ c ∈ item, accepts c = true)
    (hwidth : item.length ≤ width) (hrest : EndsBefore accepts rest) :
    ((item ++ rest).take width).takeWhile accepts = item := by
  obtain ⟨k, rfl⟩ := Nat.exists_eq_add_of_le hwidth
  rw [List.take_length_add_append, List.takeWhile_append_of_pos hitem]
  cases rest with
  | nil => simp
  | cons c rest =>
      cases k with
      | zero => simp
      | succ k =>
          have hc := hrest c rfl
          rw [List.take_succ_cons, List.takeWhile_cons_of_neg (by simp [hc]), List.append_nil]

theorem dropWhile_append_of_endsBefore (hblanks : ∀ c ∈ blanks, isSpace c = true)
    (hrest : EndsBefore isSpace rest) : (blanks ++ rest).dropWhile isSpace = rest := by
  rw [List.dropWhile_append_of_pos hblanks]
  cases rest with
  | nil => rfl
  | cons c rest => exact List.dropWhile_cons_of_neg (by simp [hrest c rfl])

theorem endsBefore_append (hne : item ≠ []) (hitem : ∀ c ∈ item, accepts c = false) :
    EndsBefore accepts (item ++ rest) := by
  cases item with
  | nil => exact absurd rfl hne
  | cons c item => exact endsBefore_cons (hitem c List.mem_cons_self) _

theorem scan_literal (s : String) (ds : List Directive) (rest : List Char) :
    scan isSpace (literal s ++ ds) (chars s ++ rest) = scan isSpace ds rest := by
  rw [literal]
  induction chars s with
  | nil => rfl
  | cons c s ih =>
      rw [List.map_cons, List.cons_append, List.cons_append, scan, if_pos rfl, ih]

theorem scan_char {c : Char} (rest : List Char) :
    scan isSpace (.char c :: ds) (c :: rest) = scan isSpace ds rest := if_pos rfl

theorem scan_space {c : Char} (hc : isSpace c = true) (hrest : EndsBefore isSpace rest) :
    scan isSpace (.space :: ds) (c :: rest) = scan isSpace ds rest := by
  have hblanks : ∀ c' ∈ [c], isSpace c' = true := List.forall_mem_singleton.mpr hc
  rw [scan, ← List.singleton_append, dropWhile_append_of_endsBefore hblanks hrest]

theorem scan_string (hne : item ≠ []) (hitem : ∀ c ∈ item, isSpace c = false)
    (hwidth : item.length ≤ width) (hrest : EndsBefore (fun c ↦ !isSpace c) rest) :
    scan isSpace (.string width :: ds) (item ++ rest) = .text item :: scan isSpace ds rest := by
  have hskip : (item ++ rest).dropWhile isSpace = item ++ rest :=
    dropWhile_append_of_endsBefore (List.forall_mem_nil _) (endsBefore_append hne hitem)
  have htake : ((item ++ rest).take width).takeWhile (fun c ↦ !isSpace c) = item :=
    takeWhile_take_append (fun c hc ↦ by simp [hitem c hc]) hwidth hrest
  simp only [scan, hskip, htake, if_neg hne, List.drop_left]

theorem scan_scanset (hne : item ≠ []) (hitem : ∀ c ∈ item, accepts c = true)
    (hwidth : item.length ≤ width) (hrest : EndsBefore accepts rest) :
    scan isSpace (.scanset width accepts :: ds) (item ++ rest) =
      .text item :: scan isSpace ds rest := by
  simp only [scan, takeWhile_take_append hitem hwidth hrest, if_neg hne, List.drop_left]

theorem splitSign_of_isDigit {c : Char} (h : c.isDigit = true) (cs : List Char) :
    splitSign (c :: cs) = ([], c :: cs) := by
  unfold splitSign
  split
  · rename_i heq
    obtain ⟨rfl, -⟩ := List.cons.inj heq
    cases h
  · rename_i heq
    obtain ⟨rfl, -⟩ := List.cons.inj heq
    cases h
  · rfl

theorem isDigit_of_mem_toDigits {n : ℕ} {c : Char} (hc : c ∈ Nat.toDigits 10 n) :
    c.isDigit = true :=
  Nat.isDigit_of_mem_toDigits (by decide) le_rfl hc

/-- A number that was printed is read back. -/
theorem scan_decimal {width : Option ℕ} (n : ℕ)
    (hspace : ∀ c : Char, c.isDigit = true → isSpace c = false)
    (hwidth : ∀ w ∈ width, (Nat.toDigits 10 n).length ≤ w)
    (hrest : EndsBefore Char.isDigit rest) :
    scan isSpace (.decimal width :: ds) (Nat.toDigits 10 n ++ rest) =
      .number n :: scan isSpace ds rest := by
  have hvalue : Nat.ofDigitChars 10 (Nat.toDigits 10 n) 0 = n :=
    Nat.ofDigitChars_toDigits (by decide) le_rfl
  have hdigits : ∀ c ∈ Nat.toDigits 10 n, c.isDigit = true := fun c ↦ isDigit_of_mem_toDigits
  have hne : Nat.toDigits 10 n ≠ [] := Nat.toDigits_ne_nil
  generalize Nat.toDigits 10 n = digits at hwidth hvalue hdigits hne ⊢
  have hskip : (digits ++ rest).dropWhile isSpace = digits ++ rest :=
    dropWhile_append_of_endsBefore (List.forall_mem_nil _)
      (endsBefore_append hne fun c hc ↦ hspace c (hdigits c hc))
  have hfield : (splitSign (width.elim (digits ++ rest) (digits ++ rest).take)) =
      ([], width.elim (digits ++ rest) (digits ++ rest).take) := by
    obtain ⟨c, cs, rfl⟩ := List.exists_cons_of_ne_nil hne
    have hc := hdigits c List.mem_cons_self
    cases width with
    | none => exact splitSign_of_isDigit hc _
    | some w =>
        obtain ⟨k, hk⟩ := Nat.exists_eq_add_of_le (hwidth w rfl)
        rw [List.length_cons] at hk
        have hw : w = cs.length + k + 1 := by omega
        subst hw
        exact splitSign_of_isDigit hc _
  have htake : (width.elim (digits ++ rest) (digits ++ rest).take).takeWhile Char.isDigit =
      digits := by
    cases width with
    | none =>
        have hall := takeWhile_take_append hdigits (Nat.le_add_right _ rest.length) hrest
        rwa [← List.length_append, List.take_length] at hall
    | some w => exact takeWhile_take_append hdigits (hwidth w rfl) hrest
  simp only [scan, hskip, hfield, htake, if_neg hne]
  rw [List.length_nil, Nat.zero_add, List.drop_left, signedNumber, hvalue]
  rfl

end Rules

/-! ## Lines -/

/-- What repeated calls of `fgets` return for a buffer of the size: each line up to its end, or as
much of it as fits before the terminating zero. -/
def fgetsLines (size : ℕ) : List Char → (buf : List Char := []) → List (List Char)
  | [], buf => if buf = [] then [] else [buf]
  | c :: cs, buf =>
      if c = '\n' ∨ buf.length + 2 = size then (buf ++ [c]) :: fgetsLines size cs
      else fgetsLines size cs (buf ++ [c])

/-- A line that fits into the buffer is returned whole. -/
theorem fgetsLines_line {size : ℕ} {line : List Char} (hline : '\n' ∉ line)
    (hfits : line.length + 2 ≤ size) (rest : List Char) :
    fgetsLines size (line ++ '\n' :: rest) = (line ++ ['\n']) :: fgetsLines size rest := by
  suffices hall : ∀ buf, buf.length + line.length + 2 ≤ size →
      fgetsLines size (line ++ '\n' :: rest) buf =
        (buf ++ line ++ ['\n']) :: fgetsLines size rest from
    hall [] (by simpa using hfits)
  clear hfits
  induction line with
  | nil =>
      intro buf _
      rw [List.nil_append, fgetsLines, if_pos (.inl rfl), List.append_nil]
  | cons c line ih =>
      intro buf hfits
      rw [List.mem_cons, not_or] at hline
      rw [List.length_cons] at hfits
      have hnot : ¬(c = '\n' ∨ buf.length + 2 = size) := by
        rintro (heq | hfull)
        · exact hline.1 heq.symm
        · omega
      rw [List.cons_append, fgetsLines, if_neg hnot, ih hline.2 (buf ++ [c])]
      · simp
      · rw [List.length_append, List.length_singleton]
        omega

/-- The lines of a text, if all of them fit. -/
theorem fgetsLines_flatMap {size : ℕ} {lines : List (List Char)}
    (hall : ∀ line ∈ lines, '\n' ∉ line ∧ line.length + 2 ≤ size) :
    fgetsLines size (lines.flatMap fun line ↦ line ++ ['\n']) =
      lines.map fun line ↦ line ++ ['\n'] := by
  induction lines with
  | nil => rfl
  | cons line lines ih =>
      obtain ⟨hline, hlines⟩ := List.forall_mem_cons.mp hall
      rw [List.flatMap_cons, List.append_assoc, List.singleton_append,
        fgetsLines_line hline.1 hline.2, ih hlines, List.map_cons]

end Tns.Library
