import IotSaas.Catalog.Keys
import IotSaas.Lib.Zipped

/-!
# `Catalog/KeyFormats.lean` — what a normalized list of metrics promises

`_normalize_metrics` keeps the list and its explicit keys, derives the others apart from them, and
lets no reserved key through. The format is checked last, by a pattern whose `$` also matches before
a final line feed: `temperature⏎` is accepted as a key. That is the only way past the check, and so
the promise as a whole holds exactly where no new key ends in one (`wellKeyed_iff`).
-/

set_option autoImplicit false

namespace IotSaas.Catalog

open Lib

/-! ## One topic segment -/

/-- `[A-Za-z0-9][A-Za-z0-9_-]{0,63}`, from end to end. -/
def isSegment (chars : List Char) : Bool :=
  match chars with
  | [] => false
  | head :: rest =>
      (isSlugAlnum head || between 'A' 'Z' head) && rest.all isKeyChar && decide (rest.length ≤ 63)

/-- A key the device contract allows: one segment of an MQTT topic. -/
def IsTopicKey (key : String) : Prop := isSegment key.toList = true

instance (key : String) : Decidable (IsTopicKey key) :=
  inferInstanceAs (Decidable (isSegment key.toList = true))

theorem isKeyChar_of_head {c : Char} (h : (isSlugAlnum c || between 'A' 'Z' c) = true) :
    isKeyChar c = true := by
  rcases Bool.or_eq_true_iff.mp h with h | h
  · simp [isKeyChar, isSlugChar, h]
  · simp [isKeyChar, h]

theorem isKeyChar_of_mem {chars : List Char} (h : isSegment chars = true) {c : Char}
    (hc : c ∈ chars) : isKeyChar c = true := by
  cases chars with
  | nil => cases hc
  | cons head rest =>
    simp only [isSegment, Bool.and_eq_true] at h
    rcases List.mem_cons.mp hc with rfl | hc
    · exact isKeyChar_of_head h.1.1
    · exact List.all_eq_true.mp h.1.2 c hc

/-- What the pattern looks at: the key, less one final line feed. -/
theorem matchesKeyPattern_eq (key : String) : matchesKeyPattern key =
    isSegment (if key.toList.getLast? = some '\n' then key.toList.dropLast else key.toList) := by
  unfold matchesKeyPattern isSegment
  rfl

/-- A segment ends in no line feed, so the pattern is right about every key that does not. -/
theorem isTopicKey_iff (key : String) :
    IsTopicKey key ↔ matchesKeyPattern key = true ∧ key.toList.getLast? ≠ some '\n' := by
  rw [matchesKeyPattern_eq]
  constructor
  · intro h
    have hlast : key.toList.getLast? ≠ some '\n' := by
      intro hlast
      have hfeed := isKeyChar_of_mem h (List.mem_of_getLast? hlast)
      exact absurd hfeed (by decide)
    exact ⟨by rw [if_neg hlast]; exact h, hlast⟩
  · rintro ⟨h, hlast⟩
    rw [if_neg hlast] at h
    exact h

/-! ## The promise -/

section

variable (folding : CaseFolding)

/-- What `_normalize_metrics` promises of its result. -/
structure WellKeyed (metrics out : List CatalogMetric) (existingKeys : List String) : Prop where
  /-- Item by item the list it was given, and an explicit key is kept. -/
  items : List.Forall₂ (fun item m => (hasKey item = true → m = item) ∧
    ∃ key, key ≠ "" ∧ m = { item with key := some key }) metrics out
  distinct : (out.map fun m => folding.lower (m.key.getD "")).Nodup
  unreserved : ∀ m ∈ out, ∀ key, m.key = some key → lowered folding key ∉ reservedMetricKeys
  segments : ∀ m ∈ out, ∀ key, m.key = some key → key ∉ existingKeys → IsTopicKey key

/-- No new key is given with a line feed at its end. -/
def NoFinalFeed (metrics : List CatalogMetric) (existingKeys : List String) : Prop :=
  ∀ item ∈ metrics, ∀ key, item.key = some key → key ∉ existingKeys →
    key.toList.getLast? ≠ some '\n'

variable {folding}

theorem hasKey_iff {item : CatalogMetric} :
    hasKey item = true ↔ ∃ key, key ≠ "" ∧ item.key = some key := by
  unfold hasKey
  cases item.key with
  | none => simp
  | some key => simp

theorem fillKeys_items {fallbackPrefix : String} (hstem : IsSlug fallbackPrefix)
    {items : List CatalogMetric} : ∀ (i : Nat) (used : List String),
    List.Forall₂ (fun item m => (hasKey item = true → m = item) ∧
        ∃ key, key ≠ "" ∧ m = { item with key := some key } ∧ (hasKey item = true ∨ IsSlug key))
      items (fillKeys folding fallbackPrefix items i used) := by
  induction items with
  | nil =>
    intro i used
    exact .nil
  | cons item rest ih =>
    intro i used
    rw [fillKeys]
    by_cases hk : hasKey item = true
    · rw [if_pos hk]
      obtain ⟨key, hne, hkey⟩ := hasKey_iff.mp hk
      refine .cons ⟨fun _ => rfl, key, hne, ?_, .inl hk⟩ (ih (i + 1) used)
      rw [← hkey]
    · rw [if_neg hk]
      obtain ⟨hslug, hne, -⟩ := derivedKey_spec folding hstem i used item
      exact .cons ⟨fun h => absurd h hk, _, hne, rfl, .inr hslug⟩ (ih (i + 1) _)

theorem firstRefused_eq_none {bad : String → Bool} {metrics : List CatalogMetric} :
    firstRefused bad metrics = none ↔ ∀ m ∈ metrics, ∀ key, m.key = some key → bad key = false := by
  unfold firstRefused
  rw [List.find?_eq_none]
  constructor
  · intro h m hm key hkey
    exact Bool.eq_false_iff.mpr (h key (List.mem_filterMap.mpr ⟨m, hm, hkey⟩))
  · intro h key hmem
    obtain ⟨m, hm, hkey⟩ := List.mem_filterMap.mp hmem
    exact Bool.eq_false_iff.mp (h m hm key hkey)

/-- What a successful normalization has been through. -/
theorem normalizeMetrics_ok {metrics out : List CatalogMetric} {existingKeys : List String}
    (h : normalizeMetrics folding metrics existingKeys = .ok out) : ∃ seen,
      explicitKeys folding metrics [] = .ok seen ∧ out = fillKeys folding "metric" metrics 0 seen ∧
      (∀ m ∈ out, ∀ key, m.key = some key → lowered folding key ∉ reservedMetricKeys) ∧
      ∀ m ∈ out, ∀ key, m.key = some key → key ∉ existingKeys → matchesKeyPattern key = true := by
  unfold normalizeMetrics normalizeKeyedItems at h
  cases hseen : explicitKeys folding metrics [] with
  | error e => rw [hseen] at h; cases h
  | ok seen =>
    rw [hseen] at h
    dsimp only at h
    split at h
    · cases h
    · rename_i hreserved
      split at h
      · cases h
      · rename_i hformat
        cases h
        refine ⟨seen, rfl, rfl, fun m hm key hkey => ?_, fun m hm key hkey hnew => ?_⟩
        · simpa using firstRefused_eq_none.mp hreserved m hm key hkey
        · have hgood := firstRefused_eq_none.mp hformat m hm key hkey
          simpa [hnew] using hgood

/-- Apart up to `strip().lower()`, apart up to case. -/
theorem lower_nodup (hstrip : ∀ s, strip (folding.lower s) = folding.lower (strip s))
    {metrics : List CatalogMetric} (h : (loweredKeys folding metrics).Nodup) :
    (metrics.map fun m => folding.lower (m.key.getD "")).Nodup := by
  have hmap : loweredKeys folding metrics =
      (metrics.map fun m => folding.lower (m.key.getD "")).map strip := by
    rw [loweredKeys, List.map_map]
    exact List.map_congr_left fun m _ => (hstrip _).symm
  rw [hmap] at h
  exact h.of_map strip

/-- **The promise of `_normalize_metrics` holds exactly without a line feed at the end of a new
key.** Whatever it returns, the list and the explicit keys are kept, the keys are apart up to case
and none is reserved; and every new key is one topic segment if and only if none of the explicit
ones among them ends in a line feed. -/
theorem wellKeyed_iff (hstrip : ∀ s, strip (folding.lower s) = folding.lower (strip s))
    {metrics out : List CatalogMetric} {existingKeys : List String}
    (h : normalizeMetrics folding metrics existingKeys = .ok out) :
    WellKeyed folding metrics out existingKeys ↔ NoFinalFeed metrics existingKeys := by
  obtain ⟨seen, hseen, rfl, hreserved, hformat⟩ := normalizeMetrics_ok h
  have hitems := @fillKeys_items folding "metric" isSlug_metric metrics 0 seen
  constructor
  · intro hkeyed item hitem key hkey hnew hlast
    by_cases hblank : key = ""
    · subst hblank
      simp at hlast
    · -- an explicit key is kept, and as a segment it would end in no line feed
      obtain ⟨m, hm, hkept, -⟩ := forall₂_mem hkeyed.items hitem
      have hsame := hkept (hasKey_iff.mpr ⟨key, hblank, hkey⟩)
      have hsegment := hkeyed.segments m hm key (hsame ▸ hkey) hnew
      exact ((isTopicKey_iff key).mp hsegment).2 hlast
  · intro hfeed
    obtain ⟨hsub, -, hnodup⟩ := explicitKeys_ok hseen
    obtain ⟨hn, -, -⟩ := fillKeys_spec isSlug_metric 0 (fun k hk => (hsub k hk).2) hnodup
    refine ⟨?_, lower_nodup hstrip hn, hreserved, fun m hm key hkey hnew => ?_⟩
    · exact hitems.imp fun item m hm => ⟨hm.1, hm.2.imp fun key hkey => ⟨hkey.1, hkey.2.1⟩⟩
    · rw [isTopicKey_iff]
      refine ⟨hformat m hm key hkey hnew, fun hlast => ?_⟩
      obtain ⟨item, hitem, hkept, key', -, hm', horigin⟩ := exists_of_forall₂ hitems hm
      rcases horigin with hk | hslug
      · have hsame := hkept hk
        exact hfeed item hitem key (hsame ▸ hkey) hnew hlast
      · -- a derived key is a slug
        have hkey' : key' = key := by
          rw [hm'] at hkey
          exact Option.some.inj hkey
        exact absurd (hslug '\n' (hkey' ▸ List.mem_of_getLast? hlast)) (by decide)

/-- Lower case, of texts that are in lower case. -/
def lowerCased : CaseFolding := ⟨id, lower_slug_id⟩

/-- An explicit key, and one derived beside it: the name's slug is taken further down. -/
theorem wellKeyed_iff_boiler :
    let metrics : List CatalogMetric :=
      [{ name := "boiler" }, { name := "flow temperature", key := some "boiler" }]
    let out : List CatalogMetric := [{ name := "boiler", key := some "boiler-2" },
      { name := "flow temperature", key := some "boiler" }]
    WellKeyed lowerCased metrics out [] ↔ NoFinalFeed metrics [] :=
  wellKeyed_iff (fun _ => rfl) (by rfl)

/-- `temperature⏎` becomes a key. -/
theorem feed_accepted :
    let metrics : List CatalogMetric := [{ name := "temperature", key := some "temperature\n" }]
    metrics.all CatalogMetric.accepted = true ∧
      normalizeMetrics lowerCased metrics [] = .ok metrics ∧
      ¬ WellKeyed lowerCased metrics metrics [] := by
  refine ⟨by decide, by rfl, fun h => ?_⟩
  have hsegment := h.segments _ List.mem_cons_self _ rfl (by decide)
  exact absurd hsegment (by decide)

end

end IotSaas.Catalog
