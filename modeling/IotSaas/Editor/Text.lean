import IotSaas.Editor.Draft

/-!
# `Editor/Text.lean` — the editor's texts and the API's lengths

The editor asks whether a trimmed text is empty and the API how long it is; the editor counts UTF-16
units and the API code points; the editor splits recipients at its own spaces and the API looks for
Unicode's. This file is where the two meet. Their spaces differ in two characters: U+0085 is one to
the API only and U+FEFF to the editor only.
-/

set_option autoImplicit false

namespace IotSaas.Editor

open Lib Api

/-! ## Lengths -/

theorem length_pos_of_ne_empty {s : String} (h : s ≠ "") : 1 ≤ s.length := by
  rw [← String.length_toList]
  refine List.length_pos_iff.mpr fun hnil => h ?_
  rw [← String.toList_inj, hnil]
  rfl

theorem jsTrim_empty : jsTrim "" = "" := rfl

theorem ne_empty_of_jsTrim {s : String} (h : jsTrim s ≠ "") : s ≠ "" := by
  rintro rfl
  exact h jsTrim_empty

/-- A text that is there is accepted by a field that takes its length. -/
theorem lengthIn_iff {high : Nat} {s : String} (h : s ≠ "") :
    lengthIn 1 high s = true ↔ s.length ≤ high := by
  unfold lengthIn
  simp [length_pos_of_ne_empty h]

/-- A code point takes one unit or two. -/
theorem length_le_jsLength (s : String) : s.length ≤ jsLength s := by
  unfold jsLength
  rw [← String.length_toList]
  induction s.toList with
  | nil => simp
  | cons c rest ih =>
    rw [List.map_cons, List.sum_cons, List.length_cons]
    split <;> omega

/-! ## Recipients -/

theorem sep_of_mem_pieces {sep : Char → Bool} {s piece : String} (h : piece ∈ pieces sep s) :
    ∀ c ∈ piece.toList, sep c = false := by
  obtain ⟨chars, hchars, rfl⟩ := List.mem_map.mp (List.mem_filter.mp h).1
  rw [String.toList_ofList]
  exact forall_of_mem_splitOnP hchars

theorem isJsSpace_of_mem_recipient {recipients recipient : String}
    (h : recipient ∈ parseRecipients recipients) : ∀ c ∈ recipient.toList, isJsSpace c = false := by
  intro c hc
  have hsep := sep_of_mem_pieces h c hc
  simp only [Bool.or_eq_false_iff] at hsep
  exact hsep.2

/-- U+0085, a space to the API but not to JavaScript. -/
def nextLine : Char := Char.ofNat 0x85

theorem isWhiteSpace_iff {c : Char} (h : isJsSpace c = false) :
    isWhiteSpace c = true ↔ c = nextLine := by
  have hnext : c = nextLine ↔ c.toNat = 0x85 := by
    constructor
    · rintro rfl
      rfl
    · intro hc
      rw [← Char.ofNat_toNat c, hc]
      rfl
  rw [hnext]
  unfold isJsSpace at h
  unfold isWhiteSpace
  simp only [Bool.or_eq_false_iff, Bool.and_eq_false_iff, decide_eq_false_iff_not] at h
  simp only [Bool.or_eq_true, Bool.and_eq_true, decide_eq_true_eq]
  omega

/-- An address with the editor's shape has the API's unless there is a U+0085 in it. -/
theorem emailShape_isWhiteSpace {s : String} (hspace : ∀ c ∈ s.toList, isJsSpace c = false)
    (hshape : emailShape isJsSpace s = true) :
    emailShape isWhiteSpace s = true ↔ nextLine ∉ s.toList := by
  unfold emailShape at hshape ⊢
  rw [Bool.and_eq_true] at hshape ⊢
  rw [List.all_eq_true]
  constructor
  · rintro ⟨hall, -⟩ hmem
    have hnext := hall nextLine hmem
    simp [(isWhiteSpace_iff (hspace _ hmem)).mpr rfl] at hnext
  · intro hnot
    refine ⟨?_, hshape.2⟩
    intro c hc
    cases hw : isWhiteSpace c with
    | false => rfl
    | true => exact absurd ((isWhiteSpace_iff (hspace c hc)).mp hw ▸ hc) hnot

end IotSaas.Editor
