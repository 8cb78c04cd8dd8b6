import IotSaas.Lib.Fresh
import IotSaas.Lib.Text

/-!
# `Catalog/Keys.lean` — metric keys, given and derived

A template's metrics reach the wire by their `key`. `_normalize_keyed_items` fills in the keys an
author left blank and refuses two explicit ones that are the same up to case; `_normalize_metrics`
refuses reserved and malformed ones. What it returns has a key on every metric and no key twice
(`normalizeMetrics_keyed`), which is all the rest of the platform ever assumes about them.

`str.lower()` is a parameter, with the one fact about it that the suffix loop needs: a slug is lower
case already.
-/

set_option autoImplicit false

namespace IotSaas.Catalog

open Lib

/-! ## Slugs -/

/-- `str.isspace()`, of one character. -/
def isSpace (c : Char) : Bool :=
  let n := c.toNat
  (9 ≤ n && n ≤ 13) || (28 ≤ n && n ≤ 32) || n = 0x85 || n = 0xa0 || n = 0x1680 ||
    (0x2000 ≤ n && n ≤ 0x200a) || n = 0x2028 || n = 0x2029 || n = 0x202f || n = 0x205f ||
    n = 0x3000

/-- `str.strip()`. -/
def strip (s : String) : String := String.ofList (trim isSpace s.toList)

/-- A character class `[lo-hi]`. -/
def between (lo hi c : Char) : Bool := lo.toNat ≤ c.toNat && c.toNat ≤ hi.toNat

/-- `[a-z0-9]`. -/
def isSlugAlnum (c : Char) : Bool := between 'a' 'z' c || between '0' '9' c

def isSlugChar (c : Char) : Bool := isSlugAlnum c || c = '-'

/-- A string of slug characters only. -/
def IsSlug (s : String) : Prop := ∀ c ∈ s.toList, isSlugChar c = true

/-- `str.lower()`. -/
structure CaseFolding where
  lower : String → String
  lower_slug : ∀ s, IsSlug s → lower s = s

/-- Texts that are lower case already are folded by doing nothing. -/
theorem lower_slug_id (s : String) (_ : IsSlug s) : id s = s := rfl

/-- `re.sub(r"[^a-z0-9]+", "-", s)`: every run of other characters becomes one hyphen. -/
def hyphenate : List Char → List Char
  | [] => []
  | c :: rest =>
      if isSlugAlnum c then c :: hyphenate rest
      else
        match hyphenate rest with
        | '-' :: tail => '-' :: tail
        | tail => '-' :: tail

/-- `slugify`. -/
def slugify (folding : CaseFolding) (name fallback : String) : String :=
  let base := trim (· = '-') (hyphenate (folding.lower (strip name)).toList)
  if base = [] then fallback else String.ofList base

theorem isSlugChar_of_hyphenate {chars : List Char} :
    ∀ c ∈ hyphenate chars, isSlugChar c = true := by
  induction chars with
  | nil =>
    intro c hc
    cases hc
  | cons head rest ih =>
    intro c hc
    rw [hyphenate] at hc
    split at hc
    · rename_i halnum
      rcases List.mem_cons.mp hc with rfl | hc
      · simp [isSlugChar, halnum]
      · exact ih c hc
    · split at hc
      · rename_i tail htail
        rcases List.mem_cons.mp hc with rfl | hc
        · rfl
        · exact ih c (htail ▸ List.mem_cons_of_mem _ hc)
      · rcases List.mem_cons.mp hc with rfl | hc
        · rfl
        · exact ih c hc

theorem slugify_isSlug (folding : CaseFolding) (name : String) {fallback : String}
    (h : IsSlug fallback) : IsSlug (slugify folding name fallback) := by
  unfold slugify
  dsimp only
  split
  · exact h
  · intro c hc
    rw [String.toList_ofList] at hc
    exact isSlugChar_of_hyphenate c (mem_trim hc)

theorem isSlug_append {a b : String} (ha : IsSlug a) (hb : IsSlug b) : IsSlug (a ++ b) := by
  intro c hc
  rw [String.toList_append] at hc
  rcases List.mem_append.mp hc with hc | hc
  · exact ha c hc
  · exact hb c hc

theorem isSlug_repr (n : Nat) : IsSlug n.repr := by
  intro c hc
  have hdigit : c.isDigit = true := by
    rw [Nat.toList_repr] at hc
    exact Nat.isDigit_of_mem_toDigits (by decide) (by decide) hc
  simp only [Char.isDigit, Bool.and_eq_true, decide_eq_true_eq] at hdigit
  have hclass : between '0' '9' c = true := by
    rw [between, Bool.and_eq_true, decide_eq_true_eq, decide_eq_true_eq]
    exact ⟨UInt32.le_iff_toNat_le.mp hdigit.1, UInt32.le_iff_toNat_le.mp hdigit.2⟩
  simp [isSlugChar, isSlugAlnum, hclass]

/-- A slug has no white space at its ends. -/
theorem strip_slug {s : String} (h : IsSlug s) : strip s = s := by
  have hspace : ∀ c ∈ s.toList, isSpace c = false := by
    intro c hc
    have hslug := h c hc
    have hrange : c.toNat = 45 ∨ 48 ≤ c.toNat ∧ c.toNat ≤ 122 := by
      simp only [isSlugChar, isSlugAlnum, between, Bool.or_eq_true, Bool.and_eq_true,
        decide_eq_true_eq] at hslug
      rcases hslug with (⟨hlo, hhi⟩ | ⟨hlo, hhi⟩) | rfl
      · exact .inr ⟨Nat.le_trans (by decide) hlo, hhi⟩
      · exact .inr ⟨hlo, Nat.le_trans hhi (by decide)⟩
      · exact .inl rfl
    simp only [isSpace, Bool.or_eq_false_iff, Bool.and_eq_false_iff, decide_eq_false_iff_not]
    omega
  rw [strip, trim_of_forall hspace, String.ofList_toList]

/-! ## Metrics -/

/-- `PublishProfile`. -/
inductive PublishProfile where
  | periodic | onChange | streaming
  deriving DecidableEq

/-- `CatalogMetric`: what identifies it on the wire and how it is published. -/
structure CatalogMetric where
  name : String
  key : Option String := none
  publish : PublishProfile := .periodic
  publishIntervalSeconds : Option Int := none

/-- The field checks of the schema; an interval has a lower bound and no upper one. -/
def CatalogMetric.accepted (m : CatalogMetric) : Bool :=
  decide (1 ≤ m.name.length) && decide (m.name.length ≤ 100) &&
    (m.key.all fun key => decide (key.length ≤ 100)) &&
    (m.publishIntervalSeconds.all fun interval => decide (0 < interval))

theorem CatalogMetric.accepted_positive {m : CatalogMetric} (h : m.accepted = true) {i : Int}
    (hi : m.publishIntervalSeconds = some i) : 0 < i := by
  unfold CatalogMetric.accepted at h
  rw [hi] at h
  simpa using (Bool.and_eq_true_iff.mp h).2

inductive KeyError where
  | duplicate (key : String)
  | reserved (key : String)
  | invalid (key : String)
  deriving DecidableEq

/-- `RESERVED_METRIC_KEYS`. -/
def reservedMetricKeys : List String := ["status", "config"]

/-- `[A-Za-z0-9_-]`. -/
def isKeyChar (c : Char) : Bool :=
  isSlugChar c || between 'A' 'Z' c || c = '_'

/-- `KEY_PATTERN`, `^[A-Za-z0-9][A-Za-z0-9_-]{0,63}$`; Python's `$` also matches before a final
line feed. -/
def matchesKeyPattern (key : String) : Bool :=
  let chars := key.toList
  let body := if chars.getLast? = some '\n' then chars.dropLast else chars
  match body with
  | [] => false
  | head :: rest =>
      (isSlugAlnum head || between 'A' 'Z' head) && rest.all isKeyChar && decide (rest.length ≤ 63)

section

variable (folding : CaseFolding)

/-- What two keys must differ in: `key.strip().lower()`. -/
def lowered (key : String) : String := folding.lower (strip key)

/-- The first loop of `_normalize_keyed_items`: the explicit keys, or the first collision. -/
def explicitKeys : List CatalogMetric → List String → Except KeyError (List String)
  | [], seen => .ok seen
  | item :: rest, seen =>
      match item.key with
      | none => explicitKeys rest seen
      | some key =>
          if key = "" then explicitKeys rest seen
          else if lowered folding key ∈ seen then .error (.duplicate key)
          else explicitKeys rest (lowered folding key :: seen)

/-- `base`, `base-2`, `base-3`, … -/
def suffixed (base : String) : Nat → String
  | 0 => base
  | i + 1 => base ++ ("-" ++ (i + 2).repr)

/-- `item.get("key")`, blank or not. -/
def hasKey (item : CatalogMetric) : Bool :=
  match item.key with
  | none => false
  | some key => decide (key ≠ "")

/-- The slug of the name of the item at index `i`, cut at 60 characters. -/
def baseKey (fallbackPrefix : String) (i : Nat) (item : CatalogMetric) : String :=
  let fallback := fallbackPrefix ++ ("-" ++ (i + 1).repr)
  String.ofList ((slugify folding item.name fallback).toList.take 60)

/-- The key derived for the item at index `i`. -/
def derivedKey (fallbackPrefix : String) (i : Nat) (used : List String) (item : CatalogMetric) :
    String :=
  firstFree folding.lower (suffixed (baseKey folding fallbackPrefix i item)) used

/-- The second loop: blank keys filled in, none that is used. -/
def fillKeys (fallbackPrefix : String) : List CatalogMetric → Nat → List String →
    List CatalogMetric
  | [], _, _ => []
  | item :: rest, i, used =>
      if hasKey item then item :: fillKeys fallbackPrefix rest (i + 1) used
      else
        let key := derivedKey folding fallbackPrefix i used item
        { item with key := some key } ::
          fillKeys fallbackPrefix rest (i + 1) (folding.lower key :: used)

/-- `_normalize_keyed_items`. -/
def normalizeKeyedItems (fallbackPrefix : String) (items : List CatalogMetric) :
    Except KeyError (List CatalogMetric) :=
  match explicitKeys folding items [] with
  | .error e => .error e
  | .ok seen => .ok (fillKeys folding fallbackPrefix items 0 seen)

/-- The first key that `bad` refuses. -/
def firstRefused (bad : String → Bool) (metrics : List CatalogMetric) : Option String :=
  (metrics.filterMap CatalogMetric.key).find? bad

/-- `_normalize_metrics`. -/
def normalizeMetrics (metrics : List CatalogMetric) (existingKeys : List String) :
    Except KeyError (List CatalogMetric) :=
  match normalizeKeyedItems folding "metric" metrics with
  | .error e => .error e
  | .ok normalized =>
      match firstRefused (fun key => lowered folding key ∈ reservedMetricKeys) normalized with
      | some key => .error (.reserved key)
      | none =>
          match firstRefused (fun key => key ∉ existingKeys && !matchesKeyPattern key)
              normalized with
          | some key => .error (.invalid key)
          | none => .ok normalized

end

/-! ## What it returns -/

section

variable {folding : CaseFolding}

theorem lowered_slug {s : String} (h : IsSlug s) : lowered folding s = folding.lower s := by
  rw [lowered, strip_slug h]

theorem isSlug_hyphen : IsSlug "-" := by
  intro c hc
  obtain rfl : c = '-' := by simpa using hc
  rfl

theorem suffixed_isSlug {base : String} (h : IsSlug base) (i : Nat) : IsSlug (suffixed base i) := by
  cases i with
  | zero => exact h
  | succ i => exact isSlug_append h (isSlug_append isSlug_hyphen (isSlug_repr _))

theorem suffixed_injective (base : String) (i j : Nat) (h : suffixed base i = suffixed base j) :
    i = j := by
  have hne : ∀ k, base ≠ base ++ ("-" ++ (k + 2).repr) := by
    intro k hk
    have hlen := congrArg (fun s => s.toList.length) hk
    simp [String.toList_append] at hlen
  cases i with
  | zero =>
    cases j with
    | zero => rfl
    | succ j => exact absurd h (hne j)
  | succ i =>
    cases j with
    | zero => exact absurd h.symm (hne i)
    | succ j =>
      have hrepr := (String.append_right_inj "-").mp ((String.append_right_inj base).mp h)
      have hdigits := congrArg (fun s => Nat.ofDigitChars 10 s.toList 0) hrepr
      simp only [Nat.toList_repr, Nat.ofDigitChars_ten_toDigits] at hdigits
      omega

theorem isSlug_metric : IsSlug "metric" := by
  intro c hc
  have hall : "metric".toList.all isSlugChar = true := by decide
  exact List.all_eq_true.mp hall c hc

variable {fallbackPrefix : String}

theorem baseKey_spec (folding : CaseFolding) (hstem : IsSlug fallbackPrefix) (i : Nat)
    (item : CatalogMetric) :
    IsSlug (baseKey folding fallbackPrefix i item) ∧ baseKey folding fallbackPrefix i item ≠ "" := by
  have hfallback : IsSlug (fallbackPrefix ++ ("-" ++ (i + 1).repr)) :=
    isSlug_append hstem (isSlug_append isSlug_hyphen (isSlug_repr _))
  have hslug := slugify_isSlug folding item.name hfallback
  constructor
  · intro c hc
    rw [baseKey, String.toList_ofList] at hc
    exact hslug c (List.mem_of_mem_take hc)
  · intro hempty
    have hnil := congrArg String.toList hempty
    rw [baseKey, String.toList_ofList] at hnil
    have hchars : (slugify folding item.name (fallbackPrefix ++ ("-" ++ (i + 1).repr))).toList = [] := by
      simpa using hnil
    unfold slugify at hchars
    dsimp only at hchars
    split at hchars
    · simp [String.toList_append] at hchars
    · rename_i hne
      rw [String.toList_ofList] at hchars
      exact hne hchars

/-- What a derived key is: a slug, not empty, and free. -/
theorem derivedKey_spec (folding : CaseFolding) (hstem : IsSlug fallbackPrefix) (i : Nat)
    (used : List String) (item : CatalogMetric) :
    IsSlug (derivedKey folding fallbackPrefix i used item) ∧
    derivedKey folding fallbackPrefix i used item ≠ "" ∧
    folding.lower (derivedKey folding fallbackPrefix i used item) ∉ used := by
  obtain ⟨hbase, hnonempty⟩ := baseKey_spec folding hstem i item
  have hinj : ∀ m n, folding.lower (suffixed (baseKey folding fallbackPrefix i item) m) =
      folding.lower (suffixed (baseKey folding fallbackPrefix i item) n) → m = n := by
    intro m n hmn
    rw [folding.lower_slug _ (suffixed_isSlug hbase m),
      folding.lower_slug _ (suffixed_isSlug hbase n)] at hmn
    exact suffixed_injective _ m n hmn
  obtain ⟨n, hn⟩ := firstFree_eq folding.lower (suffixed (baseKey folding fallbackPrefix i item)) used
  refine ⟨?_, ?_, firstFree_not_mem hinj⟩
  · rw [derivedKey, hn]
    exact suffixed_isSlug hbase n
  · rw [derivedKey, hn]
    cases n with
    | zero => exact hnonempty
    | succ n =>
      intro hempty
      have hnil := congrArg String.toList hempty
      simp [suffixed, String.toList_append] at hnil

/-- The explicit keys of some items, lowered. -/
def explicitLowered (folding : CaseFolding) (items : List CatalogMetric) : List String :=
  ((items.filter hasKey).filterMap CatalogMetric.key).map (lowered folding)

theorem explicitKeys_ok {items : List CatalogMetric} :
    ∀ {seen out : List String}, explicitKeys folding items seen = .ok out →
      (∀ k ∈ explicitLowered folding items, k ∉ seen ∧ k ∈ out) ∧ seen ⊆ out ∧
        (explicitLowered folding items).Nodup := by
  induction items with
  | nil =>
    intro seen out h
    cases h
    exact ⟨fun k hk => (by cases hk), fun _ hs => hs, List.nodup_nil⟩
  | cons item rest ih =>
    intro seen out h
    rw [explicitKeys] at h
    cases hkey : item.key with
    | none =>
      rw [hkey] at h
      have hskip : explicitLowered folding (item :: rest) = explicitLowered folding rest := by
        simp [explicitLowered, hasKey, hkey]
      rw [hskip]
      exact ih h
    | some key =>
      rw [hkey] at h
      dsimp only at h
      split at h
      · rename_i hblank
        have hskip : explicitLowered folding (item :: rest) = explicitLowered folding rest := by
          simp [explicitLowered, hasKey, hkey, hblank]
        rw [hskip]
        exact ih h
      · rename_i hblank
        split at h
        · cases h
        · rename_i hfree
          have hcons : explicitLowered folding (item :: rest) =
              lowered folding key :: explicitLowered folding rest := by
            simp [explicitLowered, hasKey, hkey, hblank]
          obtain ⟨hrest, hsub, hnodup⟩ := ih h
          rw [hcons]
          refine ⟨fun k hk => ?_, fun k hk => hsub (List.mem_cons_of_mem _ hk),
            List.nodup_cons.mpr ⟨fun hk => ?_, hnodup⟩⟩
          · rcases List.mem_cons.mp hk with rfl | hk
            · exact ⟨hfree, hsub List.mem_cons_self⟩
            · exact ⟨fun hs => (hrest k hk).1 (List.mem_cons_of_mem _ hs), (hrest k hk).2⟩
          · exact (hrest _ hk).1 List.mem_cons_self

/-- Every metric has a key, and no key occurs twice. -/
structure Keyed (metrics : List CatalogMetric) : Prop where
  every : ∀ m ∈ metrics, ∃ key, key ≠ "" ∧ m.key = some key
  nodup : (metrics.map CatalogMetric.key).Nodup

/-- The keys of some metrics, lowered; a metric without one counts as blank. -/
def loweredKeys (folding : CaseFolding) (metrics : List CatalogMetric) : List String :=
  metrics.map fun m => lowered folding (m.key.getD "")

/-- **The second loop keeps lowered keys apart:** each is explicit, or free when it is derived. -/
theorem fillKeys_spec (hstem : IsSlug fallbackPrefix) {items : List CatalogMetric} :
    ∀ (i : Nat) {used : List String}, (∀ k ∈ explicitLowered folding items, k ∈ used) →
      (explicitLowered folding items).Nodup →
      (loweredKeys folding (fillKeys folding fallbackPrefix items i used)).Nodup ∧
      (∀ k ∈ loweredKeys folding (fillKeys folding fallbackPrefix items i used),
        k ∈ explicitLowered folding items ∨ k ∉ used) ∧
      ∀ m ∈ fillKeys folding fallbackPrefix items i used, (∃ key, key ≠ "" ∧ m.key = some key) ∧
        ∃ item ∈ items, m.publishIntervalSeconds = item.publishIntervalSeconds := by
  induction items with
  | nil =>
    intro i used _ _
    exact ⟨List.nodup_nil, fun _ hk => (by cases hk), fun _ hm => (by cases hm)⟩
  | cons item rest ih =>
    intro i used hused hnodup
    rw [fillKeys]
    by_cases hk : hasKey item = true
    · -- an explicit key stays
      obtain ⟨key, hkey, hne⟩ : ∃ key, item.key = some key ∧ key ≠ "" := by
        unfold hasKey at hk
        cases hkey : item.key with
        | none => rw [hkey] at hk; cases hk
        | some key => exact ⟨key, rfl, by simpa [hkey] using hk⟩
      have hcons : explicitLowered folding (item :: rest) =
          lowered folding key :: explicitLowered folding rest := by
        simp [explicitLowered, hk, hkey]
      rw [hcons] at hused hnodup ⊢
      obtain ⟨hfresh, hrestnodup⟩ := List.nodup_cons.mp hnodup
      obtain ⟨hn, hmem, hev⟩ := ih (i + 1)
        (fun k hk => hused k (List.mem_cons_of_mem _ hk)) hrestnodup
      rw [if_pos hk]
      refine ⟨?_, fun k hk' => ?_, fun m hm => ?_⟩
      · rw [loweredKeys, List.map_cons, hkey]
        refine List.nodup_cons.mpr ⟨fun hin => ?_, hn⟩
        rcases hmem _ hin with hex | hfree
        · exact hfresh hex
        · exact hfree (hused _ List.mem_cons_self)
      · rw [loweredKeys, List.map_cons, hkey] at hk'
        rcases List.mem_cons.mp hk' with rfl | hk'
        · exact .inl List.mem_cons_self
        · rcases hmem k hk' with hex | hfree
          · exact .inl (List.mem_cons_of_mem _ hex)
          · exact .inr hfree
      · rcases List.mem_cons.mp hm with rfl | hm
        · exact ⟨⟨key, hne, hkey⟩, m, List.mem_cons_self, rfl⟩
        · obtain ⟨hkeyed, item', hitem, heq⟩ := hev m hm
          exact ⟨hkeyed, item', List.mem_cons_of_mem _ hitem, heq⟩
    · -- a blank one is derived, and used from then on
      have hskip : explicitLowered folding (item :: rest) = explicitLowered folding rest := by
        simp [explicitLowered, hk]
      rw [hskip] at hused hnodup ⊢
      obtain ⟨hslug, hne, hfree⟩ := derivedKey_spec folding hstem i used item
      have hused' : ∀ k ∈ explicitLowered folding rest,
          k ∈ folding.lower (derivedKey folding fallbackPrefix i used item) :: used :=
        fun k hk => List.mem_cons_of_mem _ (hused k hk)
      obtain ⟨hn, hmem, hev⟩ := ih (i + 1) hused' hnodup
      rw [if_neg hk]
      dsimp only
      have hlow : lowered folding (derivedKey folding fallbackPrefix i used item) =
          folding.lower (derivedKey folding fallbackPrefix i used item) := lowered_slug hslug
      refine ⟨?_, fun k hk' => ?_, fun m hm => ?_⟩
      · rw [loweredKeys, List.map_cons, Option.getD_some, hlow]
        refine List.nodup_cons.mpr ⟨fun hin => ?_, hn⟩
        rcases hmem _ hin with hex | hnot
        · exact hfree (hused _ hex)
        · exact hnot List.mem_cons_self
      · rw [loweredKeys, List.map_cons, Option.getD_some, hlow] at hk'
        rcases List.mem_cons.mp hk' with rfl | hk'
        · exact .inr hfree
        · rcases hmem k hk' with hex | hnot
          · exact .inl hex
          · exact .inr fun hin => hnot (List.mem_cons_of_mem _ hin)
      · rcases List.mem_cons.mp hm with rfl | hm
        · exact ⟨⟨_, hne, rfl⟩, item, List.mem_cons_self, rfl⟩
        · obtain ⟨hkeyed, item', hitem, heq⟩ := hev m hm
          exact ⟨hkeyed, item', List.mem_cons_of_mem _ hitem, heq⟩

/-- The two loops leave every item keyed, and touch no interval. -/
theorem normalizeKeyedItems_keyed (hstem : IsSlug fallbackPrefix) {items out : List CatalogMetric}
    (h : normalizeKeyedItems folding fallbackPrefix items = .ok out) :
    Keyed out ∧
      ∀ m ∈ out, ∃ item ∈ items, m.publishIntervalSeconds = item.publishIntervalSeconds := by
  unfold normalizeKeyedItems at h
  cases hseen : explicitKeys folding items [] with
  | error e => rw [hseen] at h; cases h
  | ok seen =>
    rw [hseen] at h
    obtain rfl := Except.ok.inj h
    obtain ⟨hsub, _, hnodup⟩ := explicitKeys_ok hseen
    obtain ⟨hn, _, hev⟩ := fillKeys_spec hstem 0 (fun k hk => (hsub k hk).2) hnodup
    refine ⟨⟨fun m hm => (hev m hm).1, ?_⟩, fun m hm => (hev m hm).2⟩
    -- equal keys would be equal lowered
    have hmap : loweredKeys folding (fillKeys folding fallbackPrefix items 0 seen) =
        ((fillKeys folding fallbackPrefix items 0 seen).map CatalogMetric.key).map
          fun key => lowered folding (key.getD "") := by
      rw [loweredKeys, List.map_map]
      rfl
    rw [hmap] at hn
    exact hn.of_map _

/-- **What is stored is keyed**, and no interval has been touched. -/
theorem normalizeMetrics_keyed {metrics out : List CatalogMetric} {existingKeys : List String}
    (h : normalizeMetrics folding metrics existingKeys = .ok out) :
    Keyed out ∧
      ∀ m ∈ out, ∃ item ∈ metrics, m.publishIntervalSeconds = item.publishIntervalSeconds := by
  unfold normalizeMetrics at h
  cases hnormalized : normalizeKeyedItems folding "metric" metrics with
  | error e => rw [hnormalized] at h; cases h
  | ok normalized =>
    rw [hnormalized] at h
    dsimp only at h
    split at h
    · cases h
    · split at h
      · cases h
      · cases h
        exact normalizeKeyedItems_keyed isSlug_metric hnormalized

end

end IotSaas.Catalog
