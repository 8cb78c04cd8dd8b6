import Mathlib.Data.List.Basic
import Mathlib.Data.List.DropRight

/-!
# `Lib/Text.lean` — trimming and splitting

Both over an arbitrary class of characters, on lists of them: every language has its own idea of
what a space is.
-/

set_option autoImplicit false

namespace IotSaas.Lib

/-- Drop from both ends while `p`. -/
def trim (p : Char → Bool) (chars : List Char) : List Char :=
  ((chars.dropWhile p).reverse.dropWhile p).reverse

variable {p : Char → Bool}

theorem mem_trim {chars : List Char} {c : Char} (h : c ∈ trim p chars) :
    c ∈ chars := by
  have hinner := (List.dropWhile_sublist p).subset (List.mem_reverse.mp h)
  exact (List.dropWhile_sublist p).subset (List.mem_reverse.mp hinner)

/-- Nothing to drop, nothing dropped. -/
theorem trim_of_forall {chars : List Char} (h : ∀ c ∈ chars, p c = false) :
    trim p chars = chars := by
  have hkeep : ∀ l : List Char, (∀ c ∈ l, p c = false) → l.dropWhile p = l := by
    intro l hl
    cases l with
    | nil => rfl
    | cons c rest => rw [List.dropWhile_cons, if_neg (by simp [hl c List.mem_cons_self])]
  unfold trim
  rw [hkeep chars h, hkeep _ fun c hc => h c (List.mem_reverse.mp hc), List.reverse_reverse]

theorem trim_append {before chars : List Char} (hbefore : ∀ c ∈ before, p c = true)
    (hchars : ∀ c ∈ chars, p c = false) :
    trim p (before ++ chars) = chars := by
  have hdrop : (before ++ chars).dropWhile p = chars.dropWhile p :=
    List.dropWhile_append_of_pos hbefore
  unfold trim
  rw [hdrop]
  exact trim_of_forall hchars

/-- What is trimmed begins with nothing to drop … -/
theorem dropWhile_trim (p : Char → Bool) (chars : List Char) :
    (trim p chars).dropWhile p = trim p chars := by
  have hprefix : trim p chars <+: chars.dropWhile p := List.rdropWhile_prefix p _
  cases htrim : trim p chars with
  | nil => rfl
  | cons c rest =>
    obtain ⟨after, hafter⟩ := hprefix
    rw [htrim] at hafter
    have hc := List.head_dropWhile_not p (l := chars) (by simp [← hafter])
    simp only [← hafter, List.cons_append, List.head_cons] at hc
    rw [List.dropWhile_cons, if_neg (by simp [hc])]

/-- … and so trimming once is enough. -/
theorem trim_trim (p : Char → Bool) (chars : List Char) :
    trim p (trim p chars) = trim p chars := by
  show ((trim p chars).dropWhile p).rdropWhile p = _
  rw [dropWhile_trim]
  exact List.rdropWhile_idempotent p _

/-! ## Joined and split -/

/-- What is split at is not in the pieces. -/
theorem forall_of_mem_splitOnP {chars piece : List Char} (h : piece ∈ chars.splitOnP p) :
    ∀ c ∈ piece, p c = false := by
  induction chars generalizing piece with
  | nil =>
    cases List.mem_singleton.mp h
    simp
  | cons c rest ih =>
    rw [List.splitOnP_cons_eq_if_modifyHead] at h
    by_cases hc : p c = true
    · rw [if_pos hc] at h
      rcases List.mem_cons.mp h with rfl | h
      · simp
      · exact ih h
    · rw [if_neg hc] at h
      -- the first piece of the rest grows by `c`, which is no separator
      cases hsplit : rest.splitOnP p with
      | nil => exact absurd hsplit (List.splitOnP_ne_nil p rest)
      | cons first others =>
        rw [hsplit, List.modifyHead_cons] at h
        rcases List.mem_cons.mp h with rfl | h
        · intro d hd
          rcases List.mem_cons.mp hd with rfl | hd
          · simpa using hc
          · exact ih (hsplit ▸ List.mem_cons_self) d hd
        · exact ih (hsplit ▸ List.mem_cons_of_mem _ h)

/-- Pieces joined by a separator and a space, split at the separator and trimmed. -/
theorem map_trim_splitOn {sep space : Char} (hspace : p space = true) (hne : space ≠ sep)
    {pieces : List (List Char)} (hpieces : pieces ≠ [])
    (h : ∀ piece ∈ pieces, ∀ c ∈ piece, c ≠ sep ∧ p c = false) :
    (([sep, space].intercalate pieces).splitOn sep).map (trim p) = pieces := by
  -- from the second piece on there is the space to trim as well
  suffices hbefore : ∀ before : List Char, (∀ c ∈ before, c ≠ sep ∧ p c = true) →
      ((before ++ [sep, space].intercalate pieces).splitOn sep).map (trim p) = pieces by
    exact hbefore [] (by simp)
  induction pieces with
  | nil => exact absurd rfl hpieces
  | cons piece rest ih =>
    intro before hbefore
    have hpiece := h piece List.mem_cons_self
    have htrim : trim p (before ++ piece) = piece :=
      trim_append (fun c hc => (hbefore c hc).2) fun c hc => (hpiece c hc).2
    have hclean : ∀ c ∈ before ++ piece, (c == sep) = false := by
      intro c hc
      rcases List.mem_append.mp hc with hc | hc
      · exact beq_false_of_ne (hbefore c hc).1
      · exact beq_false_of_ne (hpiece c hc).1
    rw [List.splitOn_eq_splitOnP]
    cases rest with
    | nil => simp [List.splitOnP_eq_singleton hclean, htrim]
    | cons next others =>
      have hrest := ih (by simp) (fun q hq => h q (List.mem_cons_of_mem _ hq)) [space]
        (by simpa using ⟨hne, hspace⟩)
      have hcons : before ++ [sep, space].intercalate (piece :: next :: others) =
          (before ++ piece) ++ sep :: ([space] ++ [sep, space].intercalate (next :: others)) := by
        simp
      rw [hcons, List.splitOnP_append_cons_of_forall_mem hclean sep (by simp), List.map_cons, htrim,
        ← List.splitOn_eq_splitOnP, hrest]

/-- Pieces joined by two separators, split at every one: between them lie only empty pieces. -/
theorem filter_splitOnP_intercalate {sep space : Char} (hsep : p sep = true)
    (hspace : p space = true) : ∀ {pieces : List (List Char)},
    (∀ piece ∈ pieces, piece ≠ [] ∧ ∀ c ∈ piece, p c = false) →
    (([sep, space].intercalate pieces).splitOnP p).filter (fun piece => !piece.isEmpty) = pieces
  | [], _ => rfl
  | [piece], h => by
      obtain ⟨hne, hclean⟩ := h piece List.mem_cons_self
      simp [List.splitOnP_eq_singleton hclean, hne]
  | piece :: next :: others, h => by
      obtain ⟨hne, hclean⟩ := h piece List.mem_cons_self
      have hrest : (([sep, space].intercalate (next :: others)).splitOnP p).filter
          (fun piece => !piece.isEmpty) = next :: others :=
        filter_splitOnP_intercalate hsep hspace fun q hq => h q (List.mem_cons_of_mem _ hq)
      have hcons : [sep, space].intercalate (piece :: next :: others) =
          piece ++ sep :: ([] ++ space :: [sep, space].intercalate (next :: others)) := by
        simp
      rw [hcons, List.splitOnP_append_cons_of_forall_mem hclean sep hsep,
        List.splitOnP_append_cons_of_forall_mem (by simp) space hspace]
      simpa [hne] using hrest

/-- Pieces joined by one separator are what lies between the separators. -/
theorem filter_splitOnP_joined {sep : Char} (hsep : p sep = true) :
    ∀ {pieces : List (List Char)}, (∀ piece ∈ pieces, ∀ c ∈ piece, p c = false) →
    (([sep].intercalate pieces).splitOnP p).filter (fun piece => !piece.isEmpty) =
      pieces.filter fun piece => !piece.isEmpty
  | [], _ => rfl
  | [piece], h => by
      simp [List.splitOnP_eq_singleton (h piece List.mem_cons_self)]
  | piece :: next :: others, h => by
      have hrest : (([sep].intercalate (next :: others)).splitOnP p).filter
          (fun piece => !piece.isEmpty) = (next :: others).filter fun piece => !piece.isEmpty :=
        filter_splitOnP_joined hsep fun q hq => h q (List.mem_cons_of_mem _ hq)
      have hcons : [sep].intercalate (piece :: next :: others) =
          piece ++ sep :: [sep].intercalate (next :: others) := by
        simp
      rw [hcons, List.splitOnP_append_cons_of_forall_mem (h piece List.mem_cons_self) sep hsep,
        List.filter_cons, hrest, List.filter_cons (x := piece)]

/-! ## Retyped -/

/-- There is something in a piece, and nothing to trim off it. -/
def isTrimmed (p : Char → Bool) (piece : List Char) : Bool :=
  !piece.isEmpty && trim p piece == piece

/-- A piece behind a space. -/
def isSpaced (p : Char → Bool) (space : Char) (piece : List Char) : Bool :=
  match piece with
  | [] => false
  | c :: rest => c == space && isTrimmed p rest

/-- What lies between the separators of a text that puts one space behind each of them and no other
space around a piece. -/
def isTidy (p : Char → Bool) (space : Char) (between : List (List Char)) : Bool :=
  match between with
  | [] => false
  | first :: others => isTrimmed p first && others.all (isSpaced p space)

/-- The pieces of a text, trimmed, less the empty ones. -/
def retyped (p : Char → Bool) (sep : Char) (chars : List Char) : List (List Char) :=
  ((chars.splitOn sep).map (trim p)).filter fun piece => !piece.isEmpty

section

variable {p : Char → Bool} {sep space : Char}

theorem isTrimmed_iff {piece : List Char} :
    isTrimmed p piece = true ↔ piece ≠ [] ∧ trim p piece = piece := by
  simp [isTrimmed]

theorem isSpaced_iff {piece : List Char} :
    isSpaced p space piece = true ↔ ∃ rest, piece = space :: rest ∧ isTrimmed p rest = true := by
  cases piece <;> simp [isSpaced]

theorem trim_cons_of_pos {c : Char} (hc : p c = true) (chars : List Char) :
    trim p (c :: chars) = trim p chars := by
  rw [trim, trim, List.dropWhile_cons_of_pos hc]

/-- A separator and a space between two pieces: a separator, and a space before the second. -/
theorem intercalate_spaced (first : List Char) (others : List (List Char)) :
    [sep, space].intercalate (first :: others) =
      [sep].intercalate (first :: others.map (space :: ·)) := by
  induction others generalizing first with
  | nil => simp
  | cons next rest ih =>
    have hrest : [sep].intercalate ((space :: next) :: rest.map (space :: ·)) =
        space :: [sep].intercalate (next :: rest.map (space :: ·)) := by
      cases rest <;> simp
    rw [List.map_cons, List.intercalate_cons_cons, List.intercalate_cons_cons, ih, hrest]
    simp

theorem mem_retyped {chars piece : List Char} (h : piece ∈ retyped p sep chars) :
    isTrimmed p piece = true ∧ sep ∉ piece := by
  obtain ⟨hmem, hne⟩ := List.mem_filter.mp h
  obtain ⟨raw, hraw, rfl⟩ := List.mem_map.mp hmem
  rw [List.splitOn_eq_splitOnP] at hraw
  refine ⟨isTrimmed_iff.mpr ⟨by simpa using hne, trim_trim p raw⟩, fun hsep => ?_⟩
  simpa using forall_of_mem_splitOnP hraw sep (mem_trim hsep)

/-- The pieces of a tidy text are what lies between its separators, less the spaces. -/
theorem retyped_of_tidy (hspace : p space = true) {chars : List Char}
    (h : isTidy p space (chars.splitOn sep) = true) :
    retyped p sep chars ≠ [] ∧ [sep, space].intercalate (retyped p sep chars) = chars := by
  have hjoined : [sep].intercalate (chars.splitOn sep) = chars := List.intercalate_splitOn sep
  unfold retyped
  cases hsplit : chars.splitOn sep with
  | nil => exact absurd hsplit (List.splitOn_ne_nil sep chars)
  | cons first others =>
    rw [hsplit] at h hjoined
    rw [isTidy, Bool.and_eq_true, List.all_eq_true] at h
    obtain ⟨hfirst, hothers⟩ := h
    obtain ⟨hne, htrim⟩ := isTrimmed_iff.mp hfirst
    -- take the space off every piece but the first
    obtain ⟨rests, rfl, hrests⟩ : ∃ rests : List (List Char), others = rests.map (space :: ·) ∧
        ∀ rest ∈ rests, isTrimmed p rest = true := by
      clear hsplit hjoined
      induction others with
      | nil => exact ⟨[], rfl, by simp⟩
      | cons other others ih =>
        obtain ⟨rest, rfl, hrest⟩ := isSpaced_iff.mp (hothers other List.mem_cons_self)
        obtain ⟨rests, rfl, hrests⟩ := ih fun o ho => hothers o (List.mem_cons_of_mem _ ho)
        exact ⟨rest :: rests, rfl, List.forall_mem_cons.mpr ⟨hrest, hrests⟩⟩
    have hpieces : (((first :: rests.map (space :: ·)).map (trim p)).filter fun piece =>
        !piece.isEmpty) = first :: rests := by
      have htrims : (rests.map (space :: ·)).map (trim p) = rests := by
        rw [List.map_map]
        refine (List.map_congr_left fun rest hrest => ?_).trans rests.map_id
        show trim p (space :: rest) = rest
        rw [trim_cons_of_pos hspace, (isTrimmed_iff.mp (hrests rest hrest)).2]
      rw [List.map_cons, htrim, htrims, List.filter_eq_self]
      intro piece hpiece
      rcases List.mem_cons.mp hpiece with rfl | hpiece
      · simpa using hne
      · simpa using (isTrimmed_iff.mp (hrests piece hpiece)).1
    rw [hpieces, intercalate_spaced]
    exact ⟨List.cons_ne_nil _ _, hjoined⟩

/-- **A text is what its pieces make again exactly if it is tidy.** -/
theorem retyped_iff (hspace : p space = true) (hne : space ≠ sep) {chars : List Char} :
    retyped p sep chars ≠ [] ∧ [sep, space].intercalate (retyped p sep chars) = chars ↔
      isTidy p space (chars.splitOn sep) = true := by
  constructor
  · rintro ⟨hpieces, hjoin⟩
    have hmem := fun piece (h : piece ∈ retyped p sep chars) => mem_retyped h
    rw [← hjoin]
    clear hjoin
    cases hretyped : retyped p sep chars with
    | nil => exact absurd hretyped hpieces
    | cons first others =>
      rw [hretyped] at hmem
      have hclean : ∀ piece ∈ first :: others.map (space :: ·), sep ∉ piece := by
        intro piece hpiece
        rcases List.mem_cons.mp hpiece with rfl | hpiece
        · exact (hmem _ List.mem_cons_self).2
        · obtain ⟨rest, hrest, rfl⟩ := List.mem_map.mp hpiece
          simpa [Ne.symm hne] using (hmem rest (List.mem_cons_of_mem _ hrest)).2
      rw [intercalate_spaced, List.splitOn_intercalate sep hclean (List.cons_ne_nil _ _), isTidy,
        Bool.and_eq_true, List.all_eq_true]
      refine ⟨(hmem first List.mem_cons_self).1, fun piece hpiece => ?_⟩
      obtain ⟨rest, hrest, rfl⟩ := List.mem_map.mp hpiece
      exact isSpaced_iff.mpr ⟨rest, rfl, (hmem rest (List.mem_cons_of_mem _ hrest)).1⟩
  · exact retyped_of_tidy hspace

theorem isTidy_append {before between : List (List Char)} (hbefore : before ≠ [])
    (hbetween : between ≠ []) :
    isTidy p space (before ++ between.modifyHead (space :: ·)) =
      (isTidy p space before && isTidy p space between) := by
  cases before with
  | nil => exact absurd rfl hbefore
  | cons first others =>
    cases between with
    | nil => exact absurd rfl hbetween
    | cons next rest => simp [isTidy, isSpaced, Bool.and_assoc]

/-- **Joined texts are tidy exactly if each of them is.** -/
theorem isTidy_joined (hne : space ≠ sep) {texts : List (List Char)} (htexts : texts ≠ []) :
    isTidy p space (([sep, space].intercalate texts).splitOn sep) =
      texts.all fun text => isTidy p space (text.splitOn sep) := by
  induction texts with
  | nil => exact absurd rfl htexts
  | cons text rest ih =>
    cases rest with
    | nil => simp
    | cons next others =>
      have hsplit : (space :: [sep, space].intercalate (next :: others)).splitOn sep =
          (([sep, space].intercalate (next :: others)).splitOn sep).modifyHead (space :: ·) := by
        rw [List.splitOn_cons_eq_if_modifyHead, if_neg (by simpa using hne)]
      have hcons : [sep, space].intercalate (text :: next :: others) =
          text ++ sep :: space :: [sep, space].intercalate (next :: others) := by
        simp
      rw [hcons, List.splitOn_append_cons_self, hsplit,
        isTidy_append (List.splitOn_ne_nil _ _) (List.splitOn_ne_nil _ _), ih (by simp)]
      simp

/-- A text with no separator and nothing to trim is tidy. -/
theorem isTidy_of_plain {text : List Char} (hne : text ≠ [])
    (h : ∀ c ∈ text, c ≠ sep ∧ p c = false) : isTidy p space (text.splitOn sep) = true := by
  rw [List.splitOn_eq_singleton fun hsep => (h sep hsep).1 rfl, isTidy, Bool.and_eq_true]
  exact ⟨isTrimmed_iff.mpr ⟨hne, trim_of_forall fun c hc => (h c hc).2⟩, by simp⟩

end

end IotSaas.Lib
