import Mathlib.Data.List.Basic

/-!
# `Lib/Numeral.lean` — JSON's numerals

The longest numeral at the head of a text, read part by part: sign, whole part, fraction, exponent.
What each part finds in a text it also finds in front of anything that no numeral goes on with
(`Extends`), so a numeral is read as it is wherever it stands (`numeral_extends`).
-/

set_option autoImplicit false

namespace IotSaas.Lib.JsonText

/-- Reads the head of a text, and leaves its rest. -/
abbrev Reader (α : Type) := List Char → Option (α × List Char)

/-! ## Numerals -/

/-- A character that a numeral may go on with. -/
def inNumeral (c : Char) : Bool :=
  c.isDigit || c = '.' || c = 'e' || c = 'E' || c = '+' || c = '-'

/-- No numeral goes on here. -/
def Stops (rest : List Char) : Prop := ∀ c, rest.head? = some c → inNumeral c = false

theorem Stops.nil : Stops [] := nofun

theorem stops_cons {c : Char} {rest : List Char} : Stops (c :: rest) ↔ inNumeral c = false := by
  simp [Stops]

def minus : List Char → List Char × List Char
  | [] => ([], [])
  | c :: rest => if c = '-' then (['-'], rest) else ([], c :: rest)

def digits : Reader (List Char) := fun cs =>
  if cs.takeWhile Char.isDigit = [] then none
  else some (cs.takeWhile Char.isDigit, cs.dropWhile Char.isDigit)

/-- The digits before the point; no zero leads. -/
def integer : Reader (List Char)
  | [] => none
  | c :: rest => if c = '0' then some (['0'], rest) else digits (c :: rest)

def fraction : Reader (List Char)
  | [] => some ([], [])
  | c :: rest =>
      if c = '.' then (digits rest).map fun (ds, rest) => ('.' :: ds, rest)
      else some ([], c :: rest)

def exponentSign : List Char → List Char × List Char
  | [] => ([], [])
  | c :: rest => if c = '+' ∨ c = '-' then ([c], rest) else ([], c :: rest)

def exponent : Reader (List Char)
  | [] => some ([], [])
  | c :: rest =>
      if c = 'e' ∨ c = 'E' then
        (digits (exponentSign rest).2).map fun (ds, left) =>
          (c :: ((exponentSign rest).1 ++ ds), left)
      else some ([], c :: rest)

/-- The longest numeral at the head of a text. -/
def numeral : Reader (List Char) := fun cs => do
  let (i, cs₁) ← integer (minus cs).2
  let (f, cs₂) ← fraction cs₁
  let (e, cs₃) ← exponent cs₂
  some ((minus cs).1 ++ i ++ f ++ e, cs₃)

/-- A text that is a numeral from end to end. -/
structure Numeral where
  text : List Char
  whole : numeral text = some (text, [])

example : numeral "-12.50e+3".toList = some ("-12.50e+3".toList, []) := by decide

/-- What a reader finds in a text, it finds in front of anything that no numeral goes on with. -/
def Extends {α : Type} (p : Reader α) : Prop :=
  ∀ cs a left, p cs = some (a, left) → ∀ rest, Stops rest → p (cs ++ rest) = some (a, left ++ rest)

theorem not_digit_of_stops {rest : List Char} (h : Stops rest) :
    rest.takeWhile Char.isDigit = [] ∧ rest.dropWhile Char.isDigit = rest := by
  cases rest with
  | nil => exact ⟨rfl, rfl⟩
  | cons c rest =>
    have hdigit : c.isDigit = false := by
      have hc := stops_cons.mp h
      simp only [inNumeral, Bool.or_eq_false_iff] at hc
      exact hc.1.1.1.1.1
    simp [hdigit]

theorem digits_extends : Extends digits := by
  intro cs ds left h rest hrest
  obtain ⟨htake, hdrop⟩ := not_digit_of_stops hrest
  have hsplit : (cs ++ rest).takeWhile Char.isDigit = cs.takeWhile Char.isDigit ∧
      (cs ++ rest).dropWhile Char.isDigit = cs.dropWhile Char.isDigit ++ rest := by
    clear h
    induction cs with
    | nil => exact ⟨htake, hdrop⟩
    | cons c cs ih =>
      cases hc : c.isDigit with
      | true => simp [hc, ih]
      | false => simp [hc]
  unfold digits at h ⊢
  rw [hsplit.1, hsplit.2]
  split at h
  · cases h
  · rename_i hsome
    rw [if_neg hsome]
    cases h
    rfl

theorem minus_append {rest : List Char} (cs : List Char) (h : Stops rest) :
    minus (cs ++ rest) = ((minus cs).1, (minus cs).2 ++ rest) := by
  cases cs with
  | cons c cs =>
    by_cases hc : c = '-'
    · simp [minus, hc]
    · simp [minus, hc]
  | nil =>
    cases rest with
    | nil => rfl
    | cons c rest =>
      have hne : c ≠ '-' := by
        rintro rfl
        exact absurd (stops_cons.mp h) (by decide)
      simp [minus, hne]

theorem exponentSign_append {rest : List Char} (cs : List Char) (h : Stops rest) :
    exponentSign (cs ++ rest) = ((exponentSign cs).1, (exponentSign cs).2 ++ rest) := by
  cases cs with
  | cons c cs =>
    by_cases hc : c = '+' ∨ c = '-'
    · simp [exponentSign, hc]
    · simp [exponentSign, hc]
  | nil =>
    cases rest with
    | nil => rfl
    | cons c rest =>
      have hne : ¬(c = '+' ∨ c = '-') := by
        rintro (rfl | rfl)
        · exact absurd (stops_cons.mp h) (by decide)
        · exact absurd (stops_cons.mp h) (by decide)
      simp [exponentSign, hne]

theorem integer_extends : Extends integer := by
  intro cs ds left h rest hrest
  cases cs with
  | nil => cases h
  | cons c cs =>
    rw [List.cons_append]
    rw [integer] at h ⊢
    by_cases hc : c = '0'
    · rw [if_pos hc] at h ⊢
      cases h
      rfl
    · rw [if_neg hc] at h ⊢
      exact digits_extends (c :: cs) ds left h rest hrest

theorem fraction_extends : Extends fraction := by
  intro cs ds left h rest hrest
  cases cs with
  | nil =>
    cases h
    cases rest with
    | nil => rfl
    | cons c rest =>
      have hne : c ≠ '.' := by
        rintro rfl
        exact absurd (stops_cons.mp hrest) (by decide)
      simp [fraction, hne]
  | cons c cs =>
    rw [List.cons_append]
    rw [fraction] at h ⊢
    by_cases hc : c = '.'
    · rw [if_pos hc] at h ⊢
      obtain ⟨⟨ds', left'⟩, hdigits, heq⟩ := Option.map_eq_some_iff.mp h
      cases heq
      rw [digits_extends cs ds' left hdigits rest hrest]
      rfl
    · rw [if_neg hc] at h ⊢
      cases h
      rfl

theorem exponent_extends : Extends exponent := by
  intro cs ds left h rest hrest
  cases cs with
  | nil =>
    cases h
    cases rest with
    | nil => rfl
    | cons c rest =>
      have hne : ¬(c = 'e' ∨ c = 'E') := by
        rintro (rfl | rfl)
        · exact absurd (stops_cons.mp hrest) (by decide)
        · exact absurd (stops_cons.mp hrest) (by decide)
      simp [exponent, hne]
  | cons c cs =>
    rw [List.cons_append]
    rw [exponent] at h ⊢
    by_cases hc : c = 'e' ∨ c = 'E'
    · rw [if_pos hc] at h ⊢
      obtain ⟨⟨ds', left'⟩, hdigits, heq⟩ := Option.map_eq_some_iff.mp h
      cases heq
      rw [exponentSign_append cs hrest, digits_extends _ ds' left hdigits rest hrest]
      rfl
    · rw [if_neg hc] at h ⊢
      cases h
      rfl

theorem numeral_extends : Extends numeral := by
  intro cs text left h rest hrest
  unfold numeral at h ⊢
  obtain ⟨⟨i, cs₁⟩, hinteger, h⟩ := Option.bind_eq_some_iff.mp h
  obtain ⟨⟨f, cs₂⟩, hfraction, h⟩ := Option.bind_eq_some_iff.mp h
  obtain ⟨⟨e, cs₃⟩, hexponent, h⟩ := Option.bind_eq_some_iff.mp h
  cases h
  rw [minus_append cs hrest]
  simp only [integer_extends _ i cs₁ hinteger rest hrest,
    fraction_extends _ f cs₂ hfraction rest hrest, exponent_extends _ e left hexponent rest hrest,
    Option.bind_eq_bind, Option.bind_some]

/-- A numeral starts with a digit or with its sign. -/
theorem Numeral.head (n : Numeral) :
    ∃ c rest, n.text = c :: rest ∧ (c.isDigit = true ∨ c = '-') := by
  obtain ⟨text, hwhole⟩ := n
  unfold numeral at hwhole
  obtain ⟨⟨i, cs₁⟩, hinteger, -⟩ := Option.bind_eq_some_iff.mp hwhole
  cases text with
  | nil => cases hinteger
  | cons c rest =>
    refine ⟨c, rest, rfl, ?_⟩
    by_cases hminus : c = '-'
    · exact .inr hminus
    · left
      simp only [minus, if_neg hminus, integer] at hinteger
      by_cases hzero : c = '0'
      · rw [hzero]
        decide
      · rw [if_neg hzero] at hinteger
        unfold digits at hinteger
        split at hinteger
        · cases hinteger
        · rename_i hsome
          by_contra hdigit
          exact hsome (by simp [hdigit])

end IotSaas.Lib.JsonText
