import IotSaas.Lib.JsonText
import IotSaas.Worker.ConfigPublish

/-!
# `Realtime/Dumps.lean` — what Python prints, and what JavaScript reads of it

`json.dumps` writes a `float` that is not finite as `NaN` or `Infinity`, which JSON does not have.
So a printed document reads as itself, numeral for numeral, exactly when all its numbers are finite,
and otherwise it does not read at all (`parse_dumps`).
-/

set_option autoImplicit false

namespace IotSaas.Realtime

open Lib JsonText Worker.ConfigPublish

/-! ## `json.dumps` -/

/-- A number of Python: an `int` or a finite `float` prints as a numeral. -/
inductive PyNumber where
  | finite (numeral : Numeral)
  | nan
  | infinity
  | negInfinity

/-- What `json.dumps` prints of a number. -/
def PyNumber.text : PyNumber → List Char
  | .finite numeral => numeral.text
  | .nan => ['N', 'a', 'N']
  | .infinity => ['I', 'n', 'f', 'i', 'n', 'i', 't', 'y']
  | .negInfinity => ['-', 'I', 'n', 'f', 'i', 'n', 'i', 't', 'y']

/-- The numeral of a number that has one. -/
def PyNumber.numeral? : PyNumber → Option (List Char)
  | .finite numeral => some numeral.text
  | _ => none

mutual

/-- `json.dumps`, with its default separators. -/
def dumps : Json PyNumber → List Char
  | .null => ['n', 'u', 'l', 'l']
  | .bool true => ['t', 'r', 'u', 'e']
  | .bool false => ['f', 'a', 'l', 's', 'e']
  | .num n => n.text
  | .str s => (dumpsText s).toList
  | .arr items => '[' :: (join [',', ' '] (dumpsItems items) ++ [']'])
  | .obj members => '\x7b' :: (join [',', ' '] (dumpsMembers members) ++ ['\x7d'])

def dumpsItems : List (Json PyNumber) → List (List Char)
  | [] => []
  | item :: rest => dumps item :: dumpsItems rest

def dumpsMembers : List (String × Json PyNumber) → List (List Char)
  | [] => []
  | member :: rest => dumpsMember member :: dumpsMembers rest

def dumpsMember : String × Json PyNumber → List Char
  | (key, v) => (dumpsText key).toList ++ ':' :: ([' '] ++ dumps v)

end

mutual

/-- The document by its numerals; there is none with a number that has no numeral. -/
def numerals : Json PyNumber → Option (Json (List Char))
  | .null => some .null
  | .bool b => some (.bool b)
  | .num n => n.numeral?.map .num
  | .str s => some (.str s)
  | .arr items => (allOf (numeralsOfItems items)).map .arr
  | .obj members => (allOf (numeralsOfMembers members)).map .obj

def numeralsOfItems : List (Json PyNumber) → List (Option (Json (List Char)))
  | [] => []
  | item :: rest => numerals item :: numeralsOfItems rest

def numeralsOfMembers : List (String × Json PyNumber) → List (Option (String × Json (List Char)))
  | [] => []
  | member :: rest => numeralsOfMember member :: numeralsOfMembers rest

def numeralsOfMember : String × Json PyNumber → Option (String × Json (List Char))
  | (key, v) => (numerals v).map (Prod.mk key)

end

example : dumps (.obj [("a", .arr [.null, .bool true]), ("b", .num .nan)]) =
    "\x7b\"a\": [null, true], \"b\": NaN\x7d".toList := by decide +kernel

/-! ## Texts -/

theorem hexValue_hexDigit (n : Nat) (h : n < 16) : hexValue (hexDigit n) = some n := by
  have hall : ∀ n : Fin 16, hexValue (hexDigit n) = some n.val := by decide
  exact hall ⟨n, h⟩

theorem hex4_unicodeEscape {n : Nat} (h : n < 65536) (rest : List Char) :
    hex4 (hexDigit (n / 4096 % 16) :: hexDigit (n / 256 % 16) :: hexDigit (n / 16 % 16) ::
      hexDigit (n % 16) :: rest) = some (n, rest) := by
  have hsum : ((n / 4096 % 16 * 16 + n / 256 % 16) * 16 + n / 16 % 16) * 16 + n % 16 = n := by omega
  simp only [hex4, hexValue_hexDigit _ (Nat.mod_lt _ (by decide)), Option.bind_eq_bind,
    Option.bind_some, hsum]

/-- A character is no half of a surrogate pair. -/
theorem char_range (c : Char) :
    c.toNat < 0xD800 ∨ 0xDFFF < c.toNat ∧ c.toNat < 0x110000 := c.valid

theorem unicodeEscape_spells {c : Char} (h : c.toNat < 0x10000) :
    Spells (unicodeEscape c.toNat).toList c := by
  rw [unicodeEscape, String.toList_ofList]
  refine .escape fun rest => ?_
  have hrange : c.toNat < 0xD800 ∨ 0xDFFF < c.toNat := (char_range c).imp_right And.left
  simp only [escaped, List.cons_append, List.nil_append, if_true, unicode,
    hex4_unicodeEscape h, Option.bind_eq_bind, Option.bind_some, if_pos hrange, Char.ofNat_toNat]

theorem unicode_pair {cs left rest : List Char} {high low : Nat}
    (hhigh : hex4 cs = some (high, left)) (hlow : lowHalf left = some (low, rest))
    (hhalf : ¬(high < 0xD800 ∨ 0xDFFF < high))
    (hpair : high < 0xDC00 ∧ 0xDC00 ≤ low ∧ low < 0xE000) :
    unicode cs = some (Char.ofNat (0x10000 + (high - 0xD800) * 0x400 + (low - 0xDC00)), rest) := by
  unfold unicode
  rw [hhigh]
  simp only [Option.bind_eq_bind, Option.bind_some, if_neg hhalf, hlow, if_pos hpair]

theorem lowHalf_escape (cs : List Char) : lowHalf ('\\' :: 'u' :: cs) = hex4 cs := rfl

/-- Two halves of a surrogate pair. -/
theorem surrogates_spell {c : Char} {high low : Nat}
    (hhigh : high = 0xD800 + (c.toNat - 0x10000) / 0x400) (hlow : low = 0xDC00 + c.toNat % 0x400)
    (h : 0x10000 ≤ c.toNat) : Spells (unicodeEscape high ++ unicodeEscape low).toList c := by
  have hrange := char_range c
  have hhalf : ¬(high < 0xD800 ∨ 0xDFFF < high) := by omega
  have hpair : high < 0xDC00 ∧ 0xDC00 ≤ low ∧ low < 0xE000 := by omega
  have hwhole : 0x10000 + (high - 0xD800) * 0x400 + (low - 0xDC00) = c.toNat := by omega
  rw [String.toList_append, unicodeEscape, unicodeEscape, String.toList_ofList,
    String.toList_ofList]
  simp only [List.cons_append, List.nil_append]
  refine .escape fun rest => ?_
  have hhex : high < 65536 ∧ low < 65536 := by omega
  have hread := unicode_pair (hex4_unicodeEscape hhex.1 _)
    ((lowHalf_escape _).trans (hex4_unicodeEscape hhex.2 rest)) hhalf hpair
  rw [hwhole, Char.ofNat_toNat] at hread
  exact hread

theorem escapeChar_spells (c : Char) : Spells (escapeChar c).toList c := by
  have hshort : ∀ n : Nat, ∀ text, c.toNat = n →
      (∀ rest, escaped (text ++ rest) = some (Char.ofNat n, rest)) → Spells ('\\' :: text) c := by
    rintro n text rfl h
    rw [Char.ofNat_toNat] at h
    exact .escape h
  unfold escapeChar
  dsimp only
  by_cases hquote : c.toNat = 0x22
  · rw [if_pos hquote]
    exact hshort _ ['"'] hquote fun _ => rfl
  rw [if_neg hquote]
  by_cases hslash : c.toNat = 0x5C
  · rw [if_pos hslash]
    exact hshort _ ['\\'] hslash fun _ => rfl
  rw [if_neg hslash]
  by_cases hn : c.toNat = 0x0A
  · rw [if_pos hn]
    exact hshort _ ['n'] hn fun _ => rfl
  rw [if_neg hn]
  by_cases hr : c.toNat = 0x0D
  · rw [if_pos hr]
    exact hshort _ ['r'] hr fun _ => rfl
  rw [if_neg hr]
  by_cases ht : c.toNat = 0x09
  · rw [if_pos ht]
    exact hshort _ ['t'] ht fun _ => rfl
  rw [if_neg ht]
  by_cases hb : c.toNat = 0x08
  · rw [if_pos hb]
    exact hshort _ ['b'] hb fun _ => rfl
  rw [if_neg hb]
  by_cases hf : c.toNat = 0x0C
  · rw [if_pos hf]
    exact hshort _ ['f'] hf fun _ => rfl
  rw [if_neg hf]
  by_cases hplain : 0x20 ≤ c.toNat ∧ c.toNat < 0x7F
  · rw [if_pos hplain, String.toList_ofList]
    refine .plain ?_ ?_ hplain.1
    · rintro rfl
      exact hquote rfl
    · rintro rfl
      exact hslash rfl
  rw [if_neg hplain]
  by_cases hbmp : c.toNat < 0x10000
  · rw [if_pos hbmp]
    exact unicodeEscape_spells hbmp
  · rw [if_neg hbmp]
    exact surrogates_spell rfl rfl (Nat.not_lt.mp hbmp)

theorem dumpsText_quoted (s : String) : Quoted (dumpsText s).toList s := by
  have hspells : ∀ item ∈ s.toList.map fun c => ((escapeChar c).toList, c),
      Spells item.1 item.2 := by
    intro item hitem
    obtain ⟨c, -, rfl⟩ := List.mem_map.mp hitem
    exact escapeChar_spells c
  have hquoted := quoted_of_spells hspells
  have htext : (dumpsText s).toList =
      '"' :: ((s.toList.map fun c => ((escapeChar c).toList, c)).flatMap Prod.fst ++ ['"']) := by
    have hopen : "\"".toList = ['"'] := rfl
    simp only [dumpsText, String.toList_append, String.toList_join, hopen, List.flatMap_map,
      List.nil_append, List.cons_append]
  have hself : (s.toList.map fun c => ((escapeChar c).toList, c)).map Prod.snd = s.toList := by
    rw [List.map_map]
    exact List.map_id _
  rw [hself, String.ofList_toList] at hquoted
  rw [htext]
  exact hquoted

/-! ## Documents -/

theorem separates_dumps : Separates [',', ' '] := ⟨[' '], rfl, by simp [isBlank]⟩

theorem dumpsItems_eq (items : List (Json PyNumber)) : dumpsItems items = items.map dumps := by
  induction items with
  | nil => rfl
  | cons item rest ih => rw [dumpsItems, ih, List.map_cons]

theorem dumpsMembers_eq (members : List (String × Json PyNumber)) :
    dumpsMembers members = members.map fun member =>
      (dumpsText member.1).toList ++ ':' :: ([' '] ++ dumps member.2) := by
  induction members with
  | nil => rfl
  | cons member rest ih =>
    obtain ⟨key, v⟩ := member
    rw [dumpsMembers, dumpsMember, ih, List.map_cons]

theorem numeralsOfItems_eq (items : List (Json PyNumber)) :
    numeralsOfItems items = items.map numerals := by
  induction items with
  | nil => rfl
  | cons item rest ih => rw [numeralsOfItems, ih, List.map_cons]

theorem numeralsOfMembers_eq (members : List (String × Json PyNumber)) :
    numeralsOfMembers members = members.map fun member =>
      (numerals member.2).map (Prod.mk member.1) := by
  induction members with
  | nil => rfl
  | cons member rest ih =>
    obtain ⟨key, v⟩ := member
    rw [numeralsOfMembers, numeralsOfMember, ih, List.map_cons]

/-- A printed document: it reads as it should, or it is refused, and no blank or bracket starts
it. -/
structure Printed (text : List Char) (v : Option (Json (List Char))) : Prop where
  reads : ∀ w, v = some w → ∀ n, text.length < n → Reads (value n) text w
  fails : v = none → ∀ n, Fails (value n) text
  starts : Starts ']' text

theorem Printed.parse {text : List Char} {v : Option (Json (List Char))} (h : Printed text v) :
    parse text = v := by
  cases hv : v with
  | none => exact parse_of_fails (h.fails hv)
  | some w => exact parse_of_reads (h.reads w hv)

theorem Printed.within {text : List Char} {v : Option (Json (List Char))} (h : Printed text v)
    {w : Json (List Char)} (hw : v = some w) (n : Nat) : Within (value n) text w :=
  value_within (h.reads w hw) n

/-- A value that is read whatever the depth. -/
theorem printed_of_reads {text : List Char} {v : Json (List Char)} (hstarts : Starts ']' text)
    (h : ∀ n, Reads (value (n + 1)) text v) : Printed text (some v) where
  reads w hw n hn := by
    cases hw
    cases n with
    | zero => cases hn
    | succ n => exact h n
  fails hnone := by cases hnone
  starts := hstarts

theorem printed_string (s : String) : Printed (dumpsText s).toList (some (.str s)) := by
  have hquoted := dumpsText_quoted s
  obtain ⟨rest, hrest⟩ := hquoted.head
  exact printed_of_reads ⟨'"', rest, hrest, by decide, by decide⟩ (value_string hquoted)

theorem starts_numeral (n : Numeral) : Starts ']' n.text := by
  obtain ⟨c, rest, htext, hc⟩ := n.head
  refine ⟨c, rest, htext, ?_, ?_⟩
  · by_contra hblank
    simp only [Bool.not_eq_false, isBlank, Bool.or_eq_true, decide_eq_true_eq] at hblank
    rcases hblank with ((rfl | rfl) | rfl) | rfl <;> simp at hc
  · rintro rfl
    simp at hc

theorem printed_number (n : PyNumber) : Printed n.text (n.numeral?.map .num) := by
  have hword : ∀ {c : Char} {text : List Char}, c = '-' ∨ c = 'N' ∨ c = 'I' →
      Fails numeral (c :: text) → Printed (c :: text) none := by
    intro c text hc h
    refine ⟨nofun, fun _ => value_fails_of_numeral hc h, c, text, rfl, ?_, ?_⟩
    · rcases hc with rfl | rfl | rfl <;> decide
    · rcases hc with rfl | rfl | rfl <;> decide
  cases n with
  | finite numeral => exact printed_of_reads (starts_numeral numeral) (value_numeral numeral)
  | nan => exact hword (.inr (.inl rfl)) fun rest => by simp [numeral, minus, integer, digits]
  | infinity => exact hword (.inr (.inr rfl)) fun rest => by simp [numeral, minus, integer, digits]
  | negInfinity => exact hword (.inl rfl) fun rest => by simp [numeral, minus, integer, digits]

/-- **An array** of printed items, whatever blanks follow its commas. -/
theorem printed_array {separator : List Char} (hsep : Separates separator)
    {parts : List (List Char × Option (Json (List Char)))}
    (h : ∀ part ∈ parts, Printed part.1 part.2) :
    Printed ('[' :: (join separator (parts.map Prod.fst) ++ [']']))
      ((allOf (parts.map Prod.snd)).map .arr) := by
  have hlist : ∀ n, _ := fun n => list_printed closing_bracket (value_skips n) hsep parts
    (fun part hpart => (h part hpart).starts)
    (fun part hpart w hw => (h part hpart).within hw n)
    (fun part hpart hnone => (h part hpart).fails hnone n)
  refine ⟨fun w hw n hn => ?_, fun hnone n => ?_, '[', _, rfl, by decide, by decide⟩
  · obtain ⟨items, hitems, rfl⟩ := Option.map_eq_some_iff.mp hw
    cases n with
    | zero => cases hn
    | succ n =>
      refine value_array ((hlist n).1 items hitems fun part hpart w hw => ?_)
      have hlength := length_le_join separator
        (List.mem_map_of_mem (f := Prod.fst) hpart)
      simp only [List.length_cons, List.length_append] at hn
      exact (h part hpart).reads w hw n (by omega)
  · cases n with
    | zero => exact fun _ => rfl
    | succ n => exact value_array_fails ((hlist n).2 (Option.map_eq_none_iff.mp hnone))

/-- **An object** of printed members. -/
theorem printed_object {separator blanks : List Char} (hsep : Separates separator)
    (hblanks : ∀ c ∈ blanks, isBlank c = true)
    {parts : List ((List Char × String) × List Char × Option (Json (List Char)))}
    (h : ∀ part ∈ parts, Quoted part.1.1 part.1.2 ∧ Printed part.2.1 part.2.2) :
    Printed ('\x7b' :: (join separator
        (parts.map fun part => part.1.1 ++ ':' :: (blanks ++ part.2.1)) ++ ['\x7d']))
      ((allOf (parts.map fun part => part.2.2.map (Prod.mk part.1.2))).map .obj) := by
  have hlist : ∀ n, _ := fun n => list_printed closing_brace (member_skips (value n)) hsep
    (parts.map fun part =>
      (part.1.1 ++ ':' :: (blanks ++ part.2.1), part.2.2.map (Prod.mk part.1.2)))
    (List.forall_mem_map.mpr fun part hpart => by
      obtain ⟨rest, hrest⟩ := (h part hpart).1.head
      exact ⟨'"', _, by rw [hrest]; rfl, by decide, by decide⟩)
    (List.forall_mem_map.mpr fun part hpart w hw => by
      obtain ⟨v, hv, rfl⟩ := Option.map_eq_some_iff.mp hw
      exact member_within (h part hpart).1 (value_skips n) hblanks ((h part hpart).2.within hv n))
    (List.forall_mem_map.mpr fun part hpart hnone =>
      member_fails (h part hpart).1 (value_skips n) hblanks
        ((h part hpart).2.fails (Option.map_eq_none_iff.mp hnone) n))
  simp only [List.map_map, Function.comp_def] at hlist
  refine ⟨fun w hw n hn => ?_, fun hnone n => ?_, '\x7b', _, rfl, by decide, by decide⟩
  · obtain ⟨members, hmembers, rfl⟩ := Option.map_eq_some_iff.mp hw
    cases n with
    | zero => cases hn
    | succ n =>
      refine value_object ((hlist n).1 members hmembers
        (List.forall_mem_map.mpr fun part hpart w hw => ?_))
      obtain ⟨v, hv, rfl⟩ := Option.map_eq_some_iff.mp hw
      have hlength := length_le_join separator (List.mem_map_of_mem
        (f := fun part => part.1.1 ++ ':' :: (blanks ++ part.2.1)) hpart)
      simp only [List.length_cons, List.length_append] at hn hlength
      exact member_reads (h part hpart).1 (value_skips n) hblanks
        ((h part hpart).2.reads v hv n (by omega))
  · cases n with
    | zero => exact fun _ => rfl
    | succ n => exact value_object_fails ((hlist n).2 (Option.map_eq_none_iff.mp hnone))

theorem printed_arr {items : List (Json PyNumber)}
    (h : ∀ item ∈ items, Printed (dumps item) (numerals item)) :
    Printed (dumps (.arr items)) (numerals (.arr items)) := by
  let part (item : Json PyNumber) : List Char × Option (Json (List Char)) :=
    (dumps item, numerals item)
  have hpart : ∀ item ∈ items, Printed (part item).1 (part item).2 := h
  have hparts := printed_array separates_dumps (List.forall_mem_map.mpr hpart)
  rw [List.map_map, List.map_map] at hparts
  rw [dumps, numerals, dumpsItems_eq, numeralsOfItems_eq]
  exact hparts

theorem printed_obj {members : List (String × Json PyNumber)}
    (h : ∀ member ∈ members, Printed (dumps member.2) (numerals member.2)) :
    Printed (dumps (.obj members)) (numerals (.obj members)) := by
  have hblank : ∀ c ∈ [' '], isBlank c = true := by simp [isBlank]
  let part (member : String × Json PyNumber) :
      (List Char × String) × List Char × Option (Json (List Char)) :=
    (((dumpsText member.1).toList, member.1), dumps member.2, numerals member.2)
  have hpart : ∀ member ∈ members, Quoted (part member).1.1 (part member).1.2 ∧
      Printed (part member).2.1 (part member).2.2 :=
    fun member hmember => ⟨dumpsText_quoted member.1, h member hmember⟩
  have hparts := printed_object separates_dumps hblank (List.forall_mem_map.mpr hpart)
  rw [List.map_map, List.map_map] at hparts
  rw [dumps, numerals, dumpsMembers_eq, numeralsOfMembers_eq]
  exact hparts

mutual

/-- What `json.dumps` prints is read as the document by its numerals, or not at all. -/
theorem printed : (v : Json PyNumber) → Printed (dumps v) (numerals v)
  | .null => printed_of_reads ⟨'n', _, rfl, by decide, by decide⟩ value_null
  | .bool true => printed_of_reads ⟨'t', _, rfl, by decide, by decide⟩ value_true
  | .bool false => printed_of_reads ⟨'f', _, rfl, by decide, by decide⟩ value_false
  | .num n => printed_number n
  | .str s => printed_string s
  | .arr items => printed_arr (printed_items items)
  | .obj members => printed_obj (printed_members members)

theorem printed_items : (items : List (Json PyNumber)) →
    ∀ item ∈ items, Printed (dumps item) (numerals item)
  | [] => nofun
  | item :: rest => List.forall_mem_cons.mpr ⟨printed item, printed_items rest⟩

theorem printed_members : (members : List (String × Json PyNumber)) →
    ∀ member ∈ members, Printed (dumps member.2) (numerals member.2)
  | [] => nofun
  | (_, v) :: rest => List.forall_mem_cons.mpr ⟨printed v, printed_members rest⟩

end

/-- **`JSON.parse` of `json.dumps`**: the document by its numerals, if all its numbers have one. -/
theorem parse_dumps (v : Json PyNumber) : parse (dumps v) = numerals v := (printed v).parse

end IotSaas.Realtime
