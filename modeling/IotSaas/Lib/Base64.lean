import Mathlib.Data.List.Basic
import Mathlib.Data.List.DropRight

/-!
# `Lib/Base64.lean` — Python's `base64`, in the URL alphabet

Three bytes are four characters of six bits. The encoder pads its last group with `=`; the decoder
takes the characters one at a time and skips what is none of the alphabet's. An encoding without its
padding decodes once the padding is put back by its length (`decode_padded`).
-/

set_option autoImplicit false

namespace IotSaas.Lib.Base64

/-! ## Characters -/

/-- `A-Z`, `a-z`, `0-9`, `-`, `_`. -/
def alphabet : List Char :=
  "ABCDEFGHIJKLMNOPQRSTUVWXYZabcdefghijklmnopqrstuvwxyz0123456789-_".toList

/-- The character of six bits. -/
def digit (n : Nat) : Char := alphabet.getD n 'A'

/-- The six bits of a character. The decoder translates `-` and `_` and knows `+` and `/` as
well. -/
def value (c : Char) : Option Nat :=
  if c = '+' then some 62
  else if c = '/' then some 63
  else
    match alphabet.idxOf? c with
    | some n => some n
    | none => none

/-! ## Encoding -/

/-- `base64.urlsafe_b64encode`. -/
def encode : List UInt8 → List Char
  | a :: b :: c :: rest =>
      digit (a.toNat / 4) :: digit (a.toNat % 4 * 16 + b.toNat / 16) ::
        digit (b.toNat % 16 * 4 + c.toNat / 64) :: digit (c.toNat % 64) :: encode rest
  | [a, b] =>
      [digit (a.toNat / 4), digit (a.toNat % 4 * 16 + b.toNat / 16), digit (b.toNat % 16 * 4), '=']
  | [a] => [digit (a.toNat / 4), digit (a.toNat % 4 * 16), '=', '=']
  | [] => []

/-! ## Decoding -/

/-- Where the decoder stands in a group: how many characters it has had, with the bits that are
left of them, and how many `=` in a row. -/
structure Place where
  quad : Nat := 0
  left : Nat := 0
  pads : Nat := 0

/-- `binascii.a2b_base64`, not strict. -/
def decodeFrom : List Char → Place → Option (List UInt8)
  | [], place => if place.quad = 0 then some [] else none
  | c :: rest, place =>
      if c = '=' then
        -- enough of them end the text, whatever follows
        if 2 ≤ place.quad ∧ 4 ≤ place.quad + (place.pads + 1) then some []
        else
          decodeFrom rest
            { place with pads := if 2 ≤ place.quad then place.pads + 1 else place.pads }
      else
        match value c with
        | none => decodeFrom rest place
        | some n =>
            match place.quad with
            | 0 => decodeFrom rest { quad := 1, left := n }
            | 1 => (decodeFrom rest { quad := 2, left := n % 16 }).map
                (UInt8.ofNat (place.left * 4 + n / 16) :: ·)
            | 2 => (decodeFrom rest { quad := 3, left := n % 4 }).map
                (UInt8.ofNat (place.left * 16 + n / 4) :: ·)
            | _ => (decodeFrom rest {}).map (UInt8.ofNat (place.left * 64 + n) :: ·)

/-- `base64.urlsafe_b64decode`: a `ValueError` for what is not ASCII. -/
def decode (chars : List Char) : Option (List UInt8) :=
  if chars.all fun c => decide (c.toNat < 128) then decodeFrom chars {} else none

/-- `text.rstrip(b"=")`. -/
def unpadded (chars : List Char) : List Char := chars.rdropWhile fun c => c = '='

/-- `text + "=" * (-len(text) % 4)`. -/
def padded (chars : List Char) : List Char :=
  chars ++ List.replicate ((4 - chars.length % 4) % 4) '='

/-! ## Back again -/

theorem digit_spec {n : Nat} (h : n < 64) :
    value (digit n) = some n ∧ digit n ≠ '=' ∧ (digit n).toNat < 128 := by
  have hall : ∀ n : Fin 64, value (digit n) = some n.val ∧ digit n ≠ '=' ∧
      (digit n).toNat < 128 := by decide +kernel
  exact hall ⟨n, h⟩

/-- One character is read: the bits that are whole go out, the others wait. -/
theorem decodeFrom_digit {n : Nat} (h : n < 64) (rest : List Char) (left pads : Nat) :
    decodeFrom (digit n :: rest) ⟨0, left, pads⟩ = decodeFrom rest ⟨1, n, 0⟩ ∧
      decodeFrom (digit n :: rest) ⟨1, left, pads⟩ =
        (decodeFrom rest ⟨2, n % 16, 0⟩).map (UInt8.ofNat (left * 4 + n / 16) :: ·) ∧
      decodeFrom (digit n :: rest) ⟨2, left, pads⟩ =
        (decodeFrom rest ⟨3, n % 4, 0⟩).map (UInt8.ofNat (left * 16 + n / 4) :: ·) ∧
      decodeFrom (digit n :: rest) ⟨3, left, pads⟩ =
        (decodeFrom rest {}).map (UInt8.ofNat (left * 64 + n) :: ·) := by
  obtain ⟨hvalue, hpad, _⟩ := digit_spec h
  refine ⟨?_, ?_, ?_, ?_⟩
  all_goals
    rw [decodeFrom, if_neg hpad, hvalue]
    rfl

theorem first_byte (a : UInt8) (b : Nat) (hb : b < 16) :
    UInt8.ofNat (a.toNat / 4 * 4 + (a.toNat % 4 * 16 + b) / 16) = a := by
  have hsum : a.toNat / 4 * 4 + (a.toNat % 4 * 16 + b) / 16 = a.toNat := by omega
  rw [hsum, UInt8.ofNat_toNat]

theorem second_byte (a b : UInt8) (c : Nat) (hc : c < 4) :
    UInt8.ofNat ((a.toNat % 4 * 16 + b.toNat / 16) % 16 * 16 + (b.toNat % 16 * 4 + c) / 4) =
      b := by
  have hlt := b.toNat_lt
  have hsum : (a.toNat % 4 * 16 + b.toNat / 16) % 16 * 16 + (b.toNat % 16 * 4 + c) / 4 =
      b.toNat := by omega
  rw [hsum, UInt8.ofNat_toNat]

theorem third_byte (b c : UInt8) :
    UInt8.ofNat ((b.toNat % 16 * 4 + c.toNat / 64) % 4 * 64 + c.toNat % 64) = c := by
  have hlt := c.toNat_lt
  have hsum : (b.toNat % 16 * 4 + c.toNat / 64) % 4 * 64 + c.toNat % 64 = c.toNat := by omega
  rw [hsum, UInt8.ofNat_toNat]

theorem decodeFrom_encode : ∀ bytes : List UInt8, decodeFrom (encode bytes) {} = some bytes
  | a :: b :: c :: rest => by
      have ha := a.toNat_lt
      have hb := b.toNat_lt
      have hc := c.toNat_lt
      rw [encode, (decodeFrom_digit (by omega) _ _ _).1,
        (decodeFrom_digit (by omega) _ _ _).2.1, (decodeFrom_digit (by omega) _ _ _).2.2.1,
        (decodeFrom_digit (by omega) _ _ _).2.2.2, decodeFrom_encode rest,
        first_byte a _ (by omega), second_byte a b _ (by omega), third_byte b c]
      rfl
  | [a, b] => by
      have ha := a.toNat_lt
      have hb := b.toNat_lt
      rw [encode, (decodeFrom_digit (by omega) _ _ _).1,
        (decodeFrom_digit (by omega) _ _ _).2.1, (decodeFrom_digit (by omega) _ _ _).2.2.1,
        first_byte a _ (by omega), ← Nat.add_zero (b.toNat % 16 * 4),
        second_byte a b 0 (by omega)]
      simp [decodeFrom]
  | [a] => by
      have ha := a.toNat_lt
      rw [encode, (decodeFrom_digit (by omega) _ _ _).1,
        (decodeFrom_digit (by omega) _ _ _).2.1, ← Nat.add_zero (a.toNat % 4 * 16),
        first_byte a 0 (by omega)]
      simp [decodeFrom]
  | [] => by
      rw [encode]
      rfl

/-- An encoding is characters of the alphabet, and the padding that its length asks for. -/
theorem encode_parts : ∀ bytes : List UInt8, ∃ chars,
    encode bytes = chars ++ List.replicate ((4 - chars.length % 4) % 4) '=' ∧
      ∀ c ∈ chars, c ≠ '=' ∧ c.toNat < 128
  | a :: b :: c :: rest => by
      have ha := a.toNat_lt
      have hb := b.toNat_lt
      have hc := c.toNat_lt
      obtain ⟨chars, heq, hchars⟩ := encode_parts rest
      refine ⟨digit (a.toNat / 4) :: digit (a.toNat % 4 * 16 + b.toNat / 16) ::
        digit (b.toNat % 16 * 4 + c.toNat / 64) :: digit (c.toNat % 64) :: chars, ?_, ?_⟩
      · have hlength : (chars.length + 1 + 1 + 1 + 1) % 4 = chars.length % 4 := by omega
        rw [encode, heq]
        simp only [List.length_cons, hlength, List.cons_append]
      · simp only [List.forall_mem_cons]
        exact ⟨(digit_spec (by omega)).2, (digit_spec (by omega)).2, (digit_spec (by omega)).2,
          (digit_spec (by omega)).2, hchars⟩
  | [a, b] => by
      have ha := a.toNat_lt
      have hb := b.toNat_lt
      refine ⟨[digit (a.toNat / 4), digit (a.toNat % 4 * 16 + b.toNat / 16),
        digit (b.toNat % 16 * 4)], rfl, ?_⟩
      simp only [List.forall_mem_cons]
      exact ⟨(digit_spec (by omega)).2, (digit_spec (by omega)).2, (digit_spec (by omega)).2,
        by simp⟩
  | [a] => by
      have ha := a.toNat_lt
      refine ⟨[digit (a.toNat / 4), digit (a.toNat % 4 * 16)], rfl, ?_⟩
      simp only [List.forall_mem_cons]
      exact ⟨(digit_spec (by omega)).2, (digit_spec (by omega)).2, by simp⟩
  | [] => ⟨[], rfl, by simp⟩

/-- **The padding can be dropped and put back.** -/
theorem decode_padded (bytes : List UInt8) :
    decode (padded (unpadded (encode bytes))) = some bytes := by
  obtain ⟨chars, heq, hchars⟩ := encode_parts bytes
  have hdrop : unpadded (encode bytes) = chars := by
    have hpads : ∀ c ∈ List.replicate ((4 - chars.length % 4) % 4) '=',
        decide (c = '=') = true := by
      intro c hc
      simpa using List.eq_of_mem_replicate hc
    rw [heq, unpadded, List.rdropWhile, List.reverse_append, List.reverse_replicate,
      List.dropWhile_append_of_pos hpads]
    refine List.rdropWhile_eq_self_iff.mpr ?_
    intro hne
    simpa using (hchars _ (List.getLast_mem hne)).1
  rw [hdrop, padded, ← heq, decode, if_pos, decodeFrom_encode]
  rw [heq, List.all_eq_true]
  intro c hc
  rcases List.mem_append.mp hc with hc | hc
  · exact decide_eq_true (hchars c hc).2
  · rw [List.eq_of_mem_replicate hc]
    decide

end IotSaas.Lib.Base64
