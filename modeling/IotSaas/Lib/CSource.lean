import Mathlib.Data.List.Basic
import Mathlib.Data.String.Basic

/-!
# `Lib/CSource.lean` — identifiers and string literals of C

What a generator of C source has to keep to: which words are identifiers, and what text stands
between the quotes of a string literal.
-/

set_option autoImplicit false

namespace IotSaas.Lib.CSource

/-! ## Characters -/

variable {c : Char}

theorem isLower_iff : c.isLower = true ↔ 97 ≤ c.toNat ∧ c.toNat ≤ 122 := by
  have hdef : c.isLower = (decide (c.val ≥ 'a'.val) && decide (c.val ≤ 'z'.val)) := rfl
  simp only [hdef, Bool.and_eq_true, decide_eq_true_eq, ge_iff_le, UInt32.le_iff_toNat_le]
  exact Iff.rfl

theorem isUpper_iff : c.isUpper = true ↔ 65 ≤ c.toNat ∧ c.toNat ≤ 90 := by
  have hdef : c.isUpper = decide (c.val ≥ 'A'.val ∧ c.val ≤ 'Z'.val) := rfl
  simp only [hdef, decide_eq_true_eq, ge_iff_le, UInt32.le_iff_toNat_le]
  exact Iff.rfl

theorem isDigit_iff : c.isDigit = true ↔ 48 ≤ c.toNat ∧ c.toNat ≤ 57 := by
  simp only [Char.isDigit, Bool.and_eq_true, decide_eq_true_eq, ge_iff_le, UInt32.le_iff_toNat_le]
  exact Iff.rfl

theorem toNat_toUpper (c : Char) :
    c.toUpper.toNat = if 97 ≤ c.toNat ∧ c.toNat ≤ 122 then c.toNat - 32 else c.toNat := by
  have hiff : ('a'.val ≤ c.val ∧ c.val ≤ 'z'.val) ↔ 97 ≤ c.toNat ∧ c.toNat ≤ 122 := by
    simp only [UInt32.le_iff_toNat_le]
    exact Iff.rfl
  unfold Char.toUpper
  by_cases h : 'a'.val ≤ c.val ∧ c.val ≤ 'z'.val
  · have hlower := hiff.mp h
    rw [dif_pos h, if_pos hlower]
    show (c.val + ('A'.val - 'a'.val)).toNat = c.val.toNat - 32
    have hc : c.toNat = c.val.toNat := rfl
    have hshift : ('A'.val - 'a'.val).toNat = 2 ^ 32 - 32 := by decide
    rw [UInt32.toNat_add]
    omega
  · rw [dif_neg h, if_neg fun hlower => h (hiff.mpr hlower)]

/-! ## Identifiers -/

/-- `[A-Za-z_]`. -/
def isNondigit (c : Char) : Bool := c.isAlpha || c = '_'

/-- `[A-Za-z0-9_]`. -/
def isWordChar (c : Char) : Bool := isNondigit c || c.isDigit

theorem isNondigit_iff : isNondigit c = true ↔
    65 ≤ c.toNat ∧ c.toNat ≤ 90 ∨ 97 ≤ c.toNat ∧ c.toNat ≤ 122 ∨ c.toNat = 95 := by
  have hunderscore : c = '_' ↔ c.toNat = 95 := by
    rw [← Char.toNat_inj]
    exact Iff.rfl
  have halpha : c.isAlpha = (c.isUpper || c.isLower) := rfl
  simp only [isNondigit, halpha, Bool.or_eq_true, decide_eq_true_eq, isLower_iff, isUpper_iff,
    hunderscore, or_assoc]

theorem isWordChar_iff : isWordChar c = true ↔
    65 ≤ c.toNat ∧ c.toNat ≤ 90 ∨ 97 ≤ c.toNat ∧ c.toNat ≤ 122 ∨ c.toNat = 95 ∨
      48 ≤ c.toNat ∧ c.toNat ≤ 57 := by
  rw [isWordChar, Bool.or_eq_true, isNondigit_iff, isDigit_iff]
  omega

theorem isWordChar_toUpper (h : isWordChar c = true) : isWordChar c.toUpper = true := by
  rw [isWordChar_iff] at h ⊢
  rw [toNat_toUpper]
  split <;> omega

theorem isNondigit_toUpper (h : isWordChar c = true) :
    isNondigit c.toUpper = true ↔ c.isDigit = false := by
  rw [isWordChar_iff] at h
  rw [isNondigit_iff, toNat_toUpper, ← Bool.not_eq_true, isDigit_iff]
  split <;> omega

theorem isLower_toUpper (c : Char) : c.toUpper.isLower = false := by
  rw [← Bool.not_eq_true, isLower_iff, toNat_toUpper]
  split <;> omega

/-- The keywords of C. -/
def keywords : List String :=
  ["auto", "break", "case", "char", "const", "continue", "default", "do", "double", "else", "enum",
    "extern", "float", "for", "goto", "if", "inline", "int", "long", "register", "restrict",
    "return", "short", "signed", "sizeof", "static", "struct", "switch", "typedef", "union",
    "unsigned", "void", "volatile", "while", "_Alignas", "_Alignof", "_Atomic", "_Bool", "_Complex",
    "_Generic", "_Imaginary", "_Noreturn", "_Static_assert", "_Thread_local"]

/-- A word that does not begin with a digit. -/
def isWord : List Char → Bool
  | [] => false
  | c :: rest => isNondigit c && rest.all isWordChar

def isIdentifier (name : String) : Bool := isWord name.toList && decide (name ∉ keywords)

theorem isWord_append {word rest : List Char} (hword : isWord word = true)
    (hrest : ∀ c ∈ rest, isWordChar c = true) : isWord (word ++ rest) = true := by
  cases word with
  | nil => cases hword
  | cons c word =>
    obtain ⟨hc, hword⟩ := Bool.and_eq_true_iff.mp hword
    rw [List.cons_append, isWord, hc, Bool.true_and, List.all_append, hword, Bool.true_and,
      List.all_eq_true]
    exact hrest

/-- Words whose ends agree, or whose beginnings do, are no keywords if no keyword is so. -/
theorem not_keyword_of_suffix {suffix name : String}
    (h : ∀ word ∈ keywords, ¬suffix.toList <:+ word.toList)
    (hname : suffix.toList <:+ name.toList) : name ∉ keywords := fun hmem => h name hmem hname

theorem not_keyword_of_prefix {start name : String}
    (h : ∀ word ∈ keywords, ¬start.toList <+: word.toList)
    (hname : start.toList <+: name.toList) : name ∉ keywords := fun hmem => h name hmem hname

/-! ## String literals -/

/-- The escapes of one character. -/
def escapeOf : Char → Option Char
  | '\\' => some '\\'
  | '"' => some '"'
  | '\'' => some '\''
  | '?' => some '?'
  | 'n' => some '\n'
  | 'r' => some '\r'
  | 't' => some '\t'
  | _ => none

/-- A line break in the source. -/
def isBreak (c : Char) : Bool := c = '\n' || c = '\r'

/-- The text of a literal, of what stands between its quotes. A quote or a line break ends it before
its time, and numbered escapes are not read here. -/
def readLiteral : List Char → Option (List Char)
  | [] => some []
  | '\\' :: [] => none
  | '\\' :: c :: rest => (escapeOf c).bind fun d => (readLiteral rest).map (d :: ·)
  | c :: rest => if c = '"' ∨ isBreak c = true then none else (readLiteral rest).map (c :: ·)

/-- A character that stands for itself. -/
def isPlain (c : Char) : Bool := !(c = '\\' || c = '"' || isBreak c)

theorem readLiteral_cons (h : c ≠ '\\') (rest : List Char) :
    readLiteral (c :: rest) =
      if c = '"' ∨ isBreak c = true then none else (readLiteral rest).map (c :: ·) := by
  rw [readLiteral]
  · exact fun hc => absurd hc h
  · exact fun _ _ hc => absurd hc h

theorem readLiteral_plain (h : isPlain c = true) (rest : List Char) :
    readLiteral (c :: rest) = (readLiteral rest).map (c :: ·) := by
  simp only [isPlain, Bool.not_eq_true', Bool.or_eq_false_iff, decide_eq_false_iff_not] at h
  rw [readLiteral_cons h.1.1, if_neg]
  rw [not_or, h.2]
  exact ⟨h.1.2, Bool.false_ne_true⟩

variable {chars : List Char}

theorem readLiteral_plain_append (h : ∀ c ∈ chars, isPlain c = true) (rest : List Char) :
    readLiteral (chars ++ rest) = (readLiteral rest).map (chars ++ ·) := by
  induction chars with
  | nil => simp
  | cons c chars ih =>
    rw [List.cons_append, readLiteral_plain (h c List.mem_cons_self),
      ih fun c hc => h c (List.mem_cons_of_mem _ hc), Option.map_map]
    rfl

/-- A literal with a line break in it, and no escapes before, is none. -/
theorem readLiteral_break (h : ∀ c ∈ chars, c ≠ '\\') (hbreak : ∃ c ∈ chars, isBreak c = true) :
    readLiteral chars = none := by
  induction chars with
  | nil =>
    obtain ⟨c, hc, -⟩ := hbreak
    cases hc
  | cons c chars ih =>
    rw [readLiteral_cons (h c List.mem_cons_self)]
    split
    · rfl
    · rename_i hgood
      rw [ih fun c hc => h c (List.mem_cons_of_mem _ hc), Option.map_none]
      obtain ⟨d, hd, hdbreak⟩ := hbreak
      rcases List.mem_cons.mp hd with rfl | hd
      · exact absurd (.inr hdbreak) hgood
      · exact ⟨d, hd, hdbreak⟩

/-! ### A text in one line -/

/-- Every run of line breaks becomes a space. -/
def spaceBreaks : List Char → List Char
  | [] => []
  | c :: rest =>
      if isBreak c then
        if rest.head?.any isBreak then spaceBreaks rest else ' ' :: spaceBreaks rest
      else c :: spaceBreaks rest

theorem spaceBreaks_of_forall (h : ∀ c ∈ chars, isBreak c = false) :
    spaceBreaks chars = chars := by
  induction chars with
  | nil => rfl
  | cons c chars ih =>
    rw [spaceBreaks, h c List.mem_cons_self, ih fun c hc => h c (List.mem_cons_of_mem _ hc)]
    rfl

theorem spaceBreaks_append (h : ∀ c ∈ chars, isBreak c = false) (rest : List Char) :
    spaceBreaks (chars ++ rest) = chars ++ spaceBreaks rest := by
  induction chars with
  | nil => rfl
  | cons c chars ih =>
    rw [List.cons_append, spaceBreaks, h c List.mem_cons_self,
      ih fun c hc => h c (List.mem_cons_of_mem _ hc)]
    rfl

/-- A text and, after it, one without line breaks. -/
theorem spaceBreaks_append_right {chars rest : List Char} (h : ∀ c ∈ rest, isBreak c = false) :
    spaceBreaks (chars ++ rest) = spaceBreaks chars ++ rest := by
  induction chars with
  | nil => exact spaceBreaks_of_forall h
  | cons c chars ih =>
    have hhead : (chars ++ rest).head?.any isBreak = chars.head?.any isBreak := by
      cases chars with
      | nil =>
        cases rest with
        | nil => rfl
        | cons d rest => exact h d List.mem_cons_self
      | cons d chars => rfl
    rw [List.cons_append, spaceBreaks, spaceBreaks, hhead, ih]
    split
    · split <;> rfl
    · rfl

/-- A backslash before every character that has one here. -/
def escaped (special : Char) (chars : List Char) : List Char :=
  chars.flatMap fun c => if c = special then ['\\', c] else [c]

/-- **A literal denotes its text**: with its backslashes escaped, then its quotes, then its line
breaks made spaces. -/
theorem readLiteral_escaped (chars after : List Char) :
    readLiteral (spaceBreaks (escaped '"' (escaped '\\' chars)) ++ after) =
      (readLiteral after).map (spaceBreaks chars ++ ·) := by
  induction chars with
  | nil => simp [escaped, spaceBreaks]
  | cons c chars ih =>
    -- Escaping leaves a line break at the head, and makes none.
    have hhead : (escaped '"' (escaped '\\' chars)).head?.any isBreak = chars.head?.any isBreak := by
      cases chars with
      | nil => rfl
      | cons d chars =>
        by_cases hback : d = '\\'
        · subst hback
          rfl
        · by_cases hquote : d = '"'
          · subst hquote
            rfl
          · simp [escaped, hback, hquote]
    by_cases hback : c = '\\'
    · subst hback
      have hcons : escaped '"' (escaped '\\' ('\\' :: chars)) =
          '\\' :: '\\' :: escaped '"' (escaped '\\' chars) := rfl
      have hspace : spaceBreaks ('\\' :: chars) = '\\' :: spaceBreaks chars := rfl
      rw [hcons, hspace]
      change readLiteral
        ('\\' :: '\\' :: (spaceBreaks (escaped '"' (escaped '\\' chars)) ++ after)) = _
      rw [readLiteral, ih, escapeOf, Option.bind_some, Option.map_map]
      rfl
    · by_cases hquote : c = '"'
      · subst hquote
        have hcons : escaped '"' (escaped '\\' ('"' :: chars)) =
            '\\' :: '"' :: escaped '"' (escaped '\\' chars) := rfl
        have hspace : spaceBreaks ('"' :: chars) = '"' :: spaceBreaks chars := rfl
        rw [hcons, hspace]
        change readLiteral
          ('\\' :: '"' :: (spaceBreaks (escaped '"' (escaped '\\' chars)) ++ after)) = _
        rw [readLiteral, ih, escapeOf, Option.bind_some, Option.map_map]
        rfl
      · have hcons : escaped '"' (escaped '\\' (c :: chars)) =
            c :: escaped '"' (escaped '\\' chars) := by
          simp [escaped, hback, hquote]
        rw [hcons, spaceBreaks, spaceBreaks, hhead]
        split
        · split
          · exact ih
          · rw [List.cons_append, readLiteral_plain (by decide), ih, Option.map_map]
            rfl
        · rename_i hbreak
          rw [List.cons_append, readLiteral_plain (by simp [isPlain, hback, hquote, hbreak]), ih,
            Option.map_map]
          rfl

end IotSaas.Lib.CSource
