import IotSaas.Lib.Json
import IotSaas.Lib.Numeral

/-!
# `Lib/JsonText.lean` — reading JSON

A reader of JSON texts, and rules for what it reads. A number stands for its numeral: how precise a
reader's numbers are is not looked at. Texts are sequences of characters, so an escaped half of a
surrogate pair is read with its other half or not at all.

The rules are about a text in its surroundings. `Reads p text a` says that `p` reads `text` as `a`
wherever it stands, as long as no numeral could go on behind it; `Fails p text` that `p` refuses
whatever starts with `text`. Lists and objects are put together from their parts in both ways:
all parts read, or one fails behind others that are read.
-/

set_option autoImplicit false

namespace IotSaas.Lib.JsonText

/-! ## Strings -/

def hexValue (c : Char) : Option Nat :=
  if 48 ≤ c.toNat ∧ c.toNat ≤ 57 then some (c.toNat - 48)
  else if 97 ≤ c.toNat ∧ c.toNat ≤ 102 then some (c.toNat - 87)
  else if 65 ≤ c.toNat ∧ c.toNat ≤ 70 then some (c.toNat - 55)
  else none

/-- Four hexadecimal digits. -/
def hex4 : Reader Nat
  | a :: b :: c :: d :: rest => do
      let a ← hexValue a
      let b ← hexValue b
      let c ← hexValue c
      let d ← hexValue d
      some (((a * 16 + b) * 16 + c) * 16 + d, rest)
  | _ => none

/-- A second half of a surrogate pair, with its `\u`. -/
def lowHalf : Reader Nat
  | c :: d :: rest => if c = '\\' ∧ d = 'u' then hex4 rest else none
  | _ => none

/-- What follows `\u`. -/
def unicode : Reader Char := fun cs => do
  let (high, rest) ← hex4 cs
  if high < 0xD800 ∨ 0xDFFF < high then some (Char.ofNat high, rest)
  else do
    let (low, rest) ← lowHalf rest
    if high < 0xDC00 ∧ 0xDC00 ≤ low ∧ low < 0xE000 then
      some (Char.ofNat (0x10000 + (high - 0xD800) * 0x400 + (low - 0xDC00)), rest)
    else none

def simpleEscape (c : Char) : Option Char :=
  if c = '"' then some '"'
  else if c = '\\' then some '\\'
  else if c = '/' then some '/'
  else if c = 'b' then some (Char.ofNat 8)
  else if c = 'f' then some (Char.ofNat 12)
  else if c = 'n' then some '\n'
  else if c = 'r' then some '\r'
  else if c = 't' then some '\t'
  else none

/-- What follows a backslash. -/
def escaped : Reader Char
  | [] => none
  | c :: rest =>
      if c = 'u' then unicode rest else (simpleEscape c).map fun character => (character, rest)

/-- The characters of a string, up to its closing quote. -/
def characters : Nat → Reader (List Char)
  | 0, _ => none
  | _ + 1, [] => none
  | n + 1, c :: rest =>
      if c = '"' then some ([], rest)
      else if c = '\\' then do
        let (character, rest) ← escaped rest
        let (characters, rest) ← characters n rest
        some (character :: characters, rest)
      else if c.toNat < 0x20 then none
      else do
        let (characters, rest) ← characters n rest
        some (c :: characters, rest)

def string : Reader String
  | [] => none
  | c :: rest =>
      if c = '"' then
        (characters rest.length rest).map fun (characters, rest) => (String.ofList characters, rest)
      else none

/-! ## Values -/

def isBlank (c : Char) : Bool := c = ' ' || c = '\t' || c = '\n' || c = '\r'

def skip (cs : List Char) : List Char := cs.dropWhile isBlank

section

variable {α : Type}

/-- Items behind commas, up to the closing bracket. -/
def more (item : Reader α) (close : Char) : Nat → Reader (List α)
  | 0, _ => none
  | n + 1, cs =>
      match skip cs with
      | [] => none
      | c :: rest =>
          if c = close then some ([], rest)
          else if c = ',' then do
            let (a, rest) ← item rest
            let (as, rest) ← more item close n rest
            some (a :: as, rest)
          else none

/-- Items up to the closing bracket. -/
def list (item : Reader α) (close : Char) : Reader (List α) := fun cs =>
  match skip cs with
  | [] => none
  | c :: rest =>
      if c = close then some ([], rest)
      else do
        let (a, rest) ← item (c :: rest)
        let (as, rest) ← more item close rest.length rest
        some (a :: as, rest)

/-- A key and its value. -/
def member (value : Reader α) : Reader (String × α) := fun cs => do
  let (key, rest) ← string (skip cs)
  match skip rest with
  | [] => none
  | c :: rest => if c = ':' then (value rest).map fun (a, rest) => ((key, a), rest) else none

end

/-- The rest of a word. -/
def word (letters : List Char) (cs : List Char) : Option (List Char) :=
  if letters.isPrefixOf cs then some (cs.drop letters.length) else none

/-- A value, of a depth below `n`. -/
def value : Nat → Reader (Json (List Char))
  | 0, _ => none
  | n + 1, cs =>
      match skip cs with
      | [] => none
      | c :: rest =>
          if c = '"' then (string (c :: rest)).map fun (s, rest) => (.str s, rest)
          else if c = '[' then (list (value n) ']' rest).map fun (items, rest) => (.arr items, rest)
          else if c = '\x7b' then
            (list (member (value n)) '\x7d' rest).map fun (members, rest) => (.obj members, rest)
          else if c = 't' then (word ['r', 'u', 'e'] rest).map fun rest => (.bool true, rest)
          else if c = 'f' then (word ['a', 'l', 's', 'e'] rest).map fun rest => (.bool false, rest)
          else if c = 'n' then (word ['u', 'l', 'l'] rest).map fun rest => (.null, rest)
          else (numeral (c :: rest)).map fun (text, rest) => (.num text, rest)

/-- `JSON.parse`. -/
def parse (text : List Char) : Option (Json (List Char)) := do
  let (v, rest) ← value (text.length + 1) text
  if skip rest = [] then some v else none

/-! ## What is read -/

section

variable {α β : Type}

/-- `p` reads `text` as `a`, wherever it stands. -/
def Reads (p : Reader α) (text : List Char) (a : α) : Prop :=
  ∀ rest, Stops rest → p (text ++ rest) = some (a, rest)

/-- `p` refuses what starts with `text`. -/
def Fails (p : Reader α) (text : List Char) : Prop := ∀ rest, p (text ++ rest) = none

/-- `p` reads `text` as `a`, or refuses it. -/
def Within (p : Reader α) (text : List Char) (a : α) : Prop :=
  ∀ rest, Stops rest → ∀ r, p (text ++ rest) = some r → r = (a, rest)

/-- Blanks in front make no difference. -/
def Skips (p : Reader α) : Prop := ∀ c cs, isBlank c = true → p (c :: cs) = p cs

/-- A text that starts with no blank, and not with this bracket. -/
def Starts (close : Char) (text : List Char) : Prop :=
  ∃ c rest, text = c :: rest ∧ isBlank c = false ∧ c ≠ close

theorem skip_blank {c : Char} (cs : List Char) (h : isBlank c = true) :
    skip (c :: cs) = skip cs := by
  simp [skip, h]

theorem skip_start {c : Char} (cs : List Char) (h : isBlank c = false) :
    skip (c :: cs) = c :: cs := by
  simp [skip, h]

theorem value_skips (n : Nat) : Skips (value n) := by
  intro c cs hc
  cases n with
  | zero => rfl
  | succ n => rw [value, value, skip_blank cs hc]

theorem member_skips (p : Reader α) : Skips (member p) := by
  intro c cs hc
  rw [member, member, skip_blank cs hc]

/-- A closing bracket: no blank, no comma, and nothing a numeral goes on with. -/
structure Closing (close : Char) : Prop where
  blank : isBlank close = false
  comma : close ≠ ','
  stops : inNumeral close = false

theorem closing_bracket : Closing ']' := ⟨by decide, by decide, by decide⟩
theorem closing_brace : Closing '\x7d' := ⟨by decide, by decide, by decide⟩

/-- What stands between two items: a comma, and blanks. -/
structure Separates (separator : List Char) : Prop where
  comma : ∃ blanks, separator = ',' :: blanks ∧ ∀ c ∈ blanks, isBlank c = true

/-- The items behind the first one, each behind its separator. -/
def tail (separator : List Char) (texts : List (List Char)) : List Char :=
  texts.flatMap fun text => separator ++ text

/-- `separator.join(texts)`. -/
def join (separator : List Char) : List (List Char) → List Char
  | [] => []
  | text :: rest => text ++ tail separator rest

@[simp] theorem tail_nil (separator : List Char) : tail separator [] = [] := rfl

@[simp] theorem tail_cons (separator text : List Char) (rest : List (List Char)) :
    tail separator (text :: rest) = separator ++ text ++ tail separator rest := by
  simp [tail]

theorem join_append {separator : List Char} {texts : List (List Char)} (others : List (List Char))
    (hne : texts ≠ []) : join separator (texts ++ others) =
      join separator texts ++ tail separator others := by
  cases texts with
  | nil => exact absurd rfl hne
  | cons text texts => simp [join, tail]

variable {p : Reader α} {close : Char} {separator : List Char}

theorem Skips.blanks (h : Skips p) {blanks : List Char} (hblanks : ∀ c ∈ blanks, isBlank c = true)
    (cs : List Char) : p (blanks ++ cs) = p cs := by
  induction blanks with
  | nil => rfl
  | cons c blanks ih =>
    rw [List.cons_append, h c _ (hblanks c List.mem_cons_self)]
    exact ih fun c' hc' => hblanks c' (List.mem_cons_of_mem c hc')

/-- Behind an item comes a comma or the closing bracket. -/
theorem stops_tail (hsep : Separates separator) (hclose : Closing close) (texts : List (List Char))
    (rest : List Char) : Stops (tail separator texts ++ close :: rest) := by
  cases texts with
  | nil => exact stops_cons.mpr hclose.stops
  | cons text texts =>
    obtain ⟨blanks, rfl, -⟩ := hsep.comma
    rw [tail_cons, List.append_assoc, List.append_assoc, List.cons_append]
    exact stops_cons.mpr (by decide)

theorem stops_before (hsep : Separates separator) (texts : List (List Char))
    (last rest : List Char) : Stops (tail separator (texts ++ [last]) ++ rest) := by
  obtain ⟨blanks, rfl, -⟩ := hsep.comma
  cases texts with
  | nil =>
    simp only [List.nil_append, tail_cons, List.append_assoc, List.cons_append]
    exact stops_cons.mpr (by decide)
  | cons _ _ =>
    simp only [List.cons_append, tail_cons, List.append_assoc]
    exact stops_cons.mpr (by decide)

/-- One item behind its separator. -/
theorem more_comma (hsep : Separates separator) (hclose : Closing close) (hp : Skips p) (n : Nat)
    (cs : List Char) :
    more p close (n + 1) (separator ++ cs) =
      (p cs).bind fun (a, rest) =>
        (more p close n rest).bind fun (as, rest) => some (a :: as, rest) := by
  obtain ⟨blanks, rfl, hblanks⟩ := hsep.comma
  rw [List.cons_append, more, skip_start _ (show isBlank ',' = false by decide)]
  simp only [if_neg hclose.comma.symm, if_true, hp.blanks hblanks]
  rfl

variable {items : List (List Char × α)}

/-- The items of a list, with their texts, are read one by one. -/
theorem more_reads (hsep : Separates separator) (hclose : Closing close) (hp : Skips p)
    (h : ∀ item ∈ items, Reads p item.1 item.2) :
    ∀ n, items.length < n → ∀ rest,
      more p close n (tail separator (items.map Prod.fst) ++ close :: rest) =
        some (items.map Prod.snd, rest) := by
  induction items with
  | nil =>
    intro n hn rest
    cases n with
    | zero => cases hn
    | succ n => simp [more, skip_start rest hclose.blank]
  | cons item items ih =>
    intro n hn rest
    cases n with
    | zero => cases hn
    | succ n =>
      have hitems := ih (fun item' hitem' => h item' (List.mem_cons_of_mem item hitem')) n
        (Nat.lt_of_succ_lt_succ hn) rest
      rw [List.map_cons, tail_cons, List.append_assoc, List.append_assoc,
        more_comma hsep hclose hp,
        h item List.mem_cons_self _ (stops_tail hsep hclose _ rest)]
      simp only [Option.bind_some, hitems, List.map_cons]

/-- A bad item behind others stops the list. -/
theorem more_fails (hsep : Separates separator) (hclose : Closing close) (hp : Skips p)
    (h : ∀ item ∈ items, Within p item.1 item.2) {bad : List Char} (hbad : Fails p bad) :
    ∀ n, Fails (more p close n) (tail separator (items.map Prod.fst ++ [bad])) := by
  induction items with
  | nil =>
    intro n rest
    cases n with
    | zero => rfl
    | succ n =>
      rw [List.map_nil, List.nil_append, tail_cons, tail_nil, List.append_nil, List.append_assoc,
        more_comma hsep hclose hp, hbad rest]
      rfl
  | cons item items ih =>
    intro n rest
    cases n with
    | zero => rfl
    | succ n =>
      have hstops := stops_before hsep (items.map Prod.fst) bad rest
      rw [List.map_cons, List.cons_append, tail_cons, List.append_assoc, List.append_assoc,
        more_comma hsep hclose hp]
      cases hitem : p (item.1 ++ (tail separator (items.map Prod.fst ++ [bad]) ++ rest)) with
      | none => rfl
      | some r =>
        obtain rfl := h item List.mem_cons_self _ hstops r hitem
        have hrest := ih (fun item' hitem' => h item' (List.mem_cons_of_mem item hitem')) n rest
        simp only [Option.bind_some, hrest]
        rfl

theorem length_le_tail (hsep : Separates separator) (texts : List (List Char)) :
    texts.length ≤ (tail separator texts).length := by
  obtain ⟨blanks, rfl, -⟩ := hsep.comma
  induction texts with
  | nil => exact Nat.le_refl 0
  | cons text texts ih =>
    simp only [tail_cons, List.length_cons, List.length_append]
    omega

/-- **A list** of items that are read. -/
theorem list_reads (hsep : Separates separator) (hclose : Closing close) (hp : Skips p)
    (hstart : ∀ item ∈ items, Starts close item.1) (h : ∀ item ∈ items, Reads p item.1 item.2)
    (rest : List Char) :
    list p close (join separator (items.map Prod.fst) ++ close :: rest) =
      some (items.map Prod.snd, rest) := by
  cases items with
  | nil => simp [list, join, skip_start rest hclose.blank]
  | cons item items =>
    have hhead := h item List.mem_cons_self
      (tail separator (items.map Prod.fst) ++ close :: rest) (stops_tail hsep hclose _ rest)
    have hfuel : items.length <
        (tail separator (items.map Prod.fst) ++ close :: rest).length := by
      have hle := length_le_tail hsep (items.map Prod.fst)
      rw [List.length_map] at hle
      rw [List.length_append, List.length_cons]
      omega
    have htail := more_reads hsep hclose hp
      (fun item' hitem' => h item' (List.mem_cons_of_mem item hitem')) _ hfuel rest
    obtain ⟨c, text, hc, hblank, hne⟩ := hstart item List.mem_cons_self
    rw [List.map_cons, join, List.append_assoc]
    rw [hc, List.cons_append] at hhead ⊢
    simp only [list, skip_start _ hblank, if_neg hne, hhead, Option.bind_eq_bind, Option.bind_some,
      htail, List.map_cons]

/-- **A list** with a bad item behind others. -/
theorem list_fails (hsep : Separates separator) (hclose : Closing close) (hp : Skips p)
    (hstart : ∀ item ∈ items, Starts close item.1) (h : ∀ item ∈ items, Within p item.1 item.2)
    {bad : List Char} (hbad : Fails p bad) (hbadstart : Starts close bad) :
    Fails (list p close) (join separator (items.map Prod.fst ++ [bad])) := by
  intro rest
  cases items with
  | nil =>
    obtain ⟨c, text, rfl, hblank, hne⟩ := hbadstart
    have hnone := hbad rest
    rw [List.cons_append] at hnone
    simp [list, join, skip_start _ hblank, hne, hnone]
  | cons item items =>
    obtain ⟨c, text, hc, hblank, hne⟩ := hstart item List.mem_cons_self
    have hstops := stops_before hsep (items.map Prod.fst) bad rest
    have hrest := more_fails hsep hclose hp
      (fun item' hitem' => h item' (List.mem_cons_of_mem item hitem')) hbad
    rw [List.map_cons, List.cons_append, join, List.append_assoc]
    have hwithin := h item List.mem_cons_self _ hstops
    rw [hc, List.cons_append] at hwithin ⊢
    simp only [list, skip_start _ hblank, if_neg hne]
    cases hitem : p (c :: (text ++ (tail separator (items.map Prod.fst ++ [bad]) ++ rest))) with
    | none => rfl
    | some r =>
      obtain rfl := hwithin r hitem
      simp only [Option.bind_eq_bind, Option.bind_some, hrest _ rest, Option.bind_none]

/-! ## Lists of parts that may fail -/

/-- All of them, or none. -/
def allOf {α : Type} : List (Option α) → Option (List α)
  | [] => some []
  | a :: rest => a.bind fun a => (allOf rest).map (List.cons a)

/-- Parts of a list: all of them have a value, or one of them is the first without. -/
theorem parts_cases {α : Type} (parts : List (List Char × Option α)) :
    (∃ items : List (List Char × α), parts = items.map fun item => (item.1, some item.2)) ∨
      ∃ (items : List (List Char × α)) (bad : List Char) (rest : List (List Char × Option α)),
        parts = (items.map fun item => (item.1, some item.2)) ++ (bad, none) :: rest := by
  induction parts with
  | nil => exact .inl ⟨[], rfl⟩
  | cons part parts ih =>
    obtain ⟨text, a⟩ := part
    cases a with
    | none => exact .inr ⟨[], text, parts, rfl⟩
    | some a =>
      rcases ih with ⟨items, rfl⟩ | ⟨items, bad, rest, rfl⟩
      · exact .inl ⟨(text, a) :: items, rfl⟩
      · exact .inr ⟨(text, a) :: items, bad, rest, rfl⟩

theorem allOf_some {α β : Type} (items : List (β × α)) :
    allOf (items.map fun item => some item.2) = some (items.map Prod.snd) := by
  induction items with
  | nil => rfl
  | cons item rest ih => simp [allOf, ih]

theorem allOf_none {α : Type} {parts : List (Option α)} (h : none ∈ parts) : allOf parts = none := by
  induction parts with
  | nil => cases h
  | cons part rest ih =>
    cases part with
    | none => rfl
    | some a =>
      have hrest : none ∈ rest := by simpa using h
      simp [allOf, ih hrest]

theorem allOf_of_isSome {α : Type} {parts : List (Option α)}
    (h : ∀ part ∈ parts, part.isSome = true) :
    ∃ items, allOf parts = some items ∧ items.map some = parts := by
  induction parts with
  | nil => exact ⟨[], rfl, rfl⟩
  | cons part rest ih =>
    obtain ⟨hpart, hrest⟩ := List.forall_mem_cons.mp h
    obtain ⟨a, rfl⟩ := Option.isSome_iff_exists.mp hpart
    obtain ⟨items, hitems, rfl⟩ := ih hrest
    exact ⟨a :: items, by rw [allOf, Option.bind_some, hitems, Option.map_some], rfl⟩

variable {text : List Char}

theorem length_le_join (separator : List Char) {texts : List (List Char)} (h : text ∈ texts) :
    text.length ≤ (join separator texts).length := by
  have htail : ∀ texts : List (List Char), text ∈ texts →
      text.length ≤ (tail separator texts).length := by
    intro texts
    induction texts with
    | nil => exact nofun
    | cons first texts ih =>
      intro hmem
      rw [tail_cons, List.length_append, List.length_append]
      rcases List.mem_cons.mp hmem with rfl | hmem
      · omega
      · have := ih hmem
        omega
  cases texts with
  | nil => cases h
  | cons first texts =>
    rw [join, List.length_append]
    rcases List.mem_cons.mp h with rfl | h
    · omega
    · have := htail texts h
      omega

/-- **A printed list** reads when all its parts do, and is refused when one is. -/
theorem list_printed {α : Type} {p : Reader α} {close : Char} (hclose : Closing close) (hp : Skips p)
    {separator : List Char} (hsep : Separates separator) (parts : List (List Char × Option α))
    (hstarts : ∀ part ∈ parts, Starts close part.1)
    (hwithin : ∀ part ∈ parts, ∀ a, part.2 = some a → Within p part.1 a)
    (hfails : ∀ part ∈ parts, part.2 = none → Fails p part.1) :
    (∀ as, allOf (parts.map Prod.snd) = some as →
      (∀ part ∈ parts, ∀ a, part.2 = some a → Reads p part.1 a) → ∀ rest,
        list p close (join separator (parts.map Prod.fst) ++ [close] ++ rest) = some (as, rest)) ∧
    (allOf (parts.map Prod.snd) = none →
      Fails (list p close) (join separator (parts.map Prod.fst) ++ [close])) := by
  rcases parts_cases parts with ⟨items, rfl⟩ | ⟨items, bad, others, rfl⟩
  · have hall : allOf ((items.map fun item => (item.1, some item.2)).map Prod.snd) =
        some (items.map Prod.snd) := by
      rw [List.map_map]
      exact allOf_some items
    have hfst : (items.map fun item => (item.1, some item.2)).map Prod.fst =
        items.map Prod.fst := by
      rw [List.map_map]
      rfl
    refine ⟨fun as has hreads rest => ?_, fun hnone => ?_⟩
    · rw [hall] at has
      cases has
      rw [hfst, List.append_assoc, List.singleton_append]
      refine list_reads hsep hclose hp (fun item hitem => ?_) (fun item hitem => ?_) rest
      · exact hstarts _ (List.mem_map_of_mem hitem)
      · exact hreads _ (List.mem_map_of_mem hitem) _ rfl
    · rw [hall] at hnone
      cases hnone
  · have hbad : ((bad, none) : List Char × Option α) ∈
        (items.map fun item => (item.1, some item.2)) ++ (bad, none) :: others := by simp
    have hnone : allOf (((items.map fun item => (item.1, some item.2)) ++
        (bad, none) :: others).map Prod.snd) = none :=
      allOf_none (List.mem_map.mpr ⟨_, hbad, rfl⟩)
    refine ⟨fun as has => ?_, fun _ rest => ?_⟩
    · rw [hnone] at has
      cases has
    · have hfst : ((items.map fun item => (item.1, some item.2)) ++
          (bad, (none : Option α)) :: others).map Prod.fst =
            items.map Prod.fst ++ [bad] ++ others.map Prod.fst := by
        simp [List.map_map, Function.comp_def]
      have hjoin : join separator (items.map Prod.fst ++ [bad] ++ others.map Prod.fst) =
          join separator (items.map Prod.fst ++ [bad]) ++
            tail separator (others.map Prod.fst) := join_append _ (by simp)
      rw [hfst, hjoin, List.append_assoc, List.append_assoc]
      refine list_fails hsep hclose hp (fun item hitem => ?_) (fun item hitem => ?_)
        (hfails _ hbad rfl) (hstarts _ hbad) _
      · exact hstarts _ (List.mem_append_left _ (List.mem_map_of_mem hitem))
      · exact hwithin _ (List.mem_append_left _ (List.mem_map_of_mem hitem)) _ rfl

/-! ## Strings that are read -/

/-- A text that stands for a character inside a string. -/
inductive Spells : List Char → Char → Prop where
  | plain {c : Char} (hquote : c ≠ '"') (hslash : c ≠ '\\') (hcontrol : 0x20 ≤ c.toNat) :
      Spells [c] c
  | escape {text : List Char} {c : Char} (h : ∀ rest, escaped (text ++ rest) = some (c, rest)) :
      Spells ('\\' :: text) c

theorem characters_read {spelt : List (List Char × Char)}
    (h : ∀ item ∈ spelt, Spells item.1 item.2) :
    ∀ n, spelt.length < n → ∀ rest,
      characters n (spelt.flatMap Prod.fst ++ '"' :: rest) = some (spelt.map Prod.snd, rest) := by
  induction spelt with
  | nil =>
    intro n hn rest
    cases n with
    | zero => cases hn
    | succ n => simp [characters]
  | cons item spelt ih =>
    intro n hn rest
    cases n with
    | zero => cases hn
    | succ n =>
      have hrest := ih (fun item' hitem' => h item' (List.mem_cons_of_mem item hitem')) n
        (Nat.lt_of_succ_lt_succ hn) rest
      obtain ⟨text, c⟩ := item
      have hitem : Spells text c := h (text, c) List.mem_cons_self
      cases hitem with
      | plain hquote hslash hcontrol =>
        simp [characters, hquote, hslash, Nat.not_lt.mpr hcontrol, hrest]
      | escape hescape =>
        simp [characters, hescape, hrest]

/-- A string with its quotes. -/
structure Quoted (text : List Char) (s : String) : Prop where
  head : ∃ rest, text = '"' :: rest
  reads : ∀ rest, string (text ++ rest) = some (s, rest)

theorem quoted_of_spells {spelt : List (List Char × Char)}
    (h : ∀ item ∈ spelt, Spells item.1 item.2) :
    Quoted ('"' :: (spelt.flatMap Prod.fst ++ ['"'])) (String.ofList (spelt.map Prod.snd)) := by
  refine ⟨⟨_, rfl⟩, fun rest => ?_⟩
  have hfuel : spelt.length < (spelt.flatMap Prod.fst ++ '"' :: rest).length := by
    have hle : spelt.length ≤ (spelt.flatMap Prod.fst).length := by
      clear rest
      induction spelt with
      | nil => exact Nat.le_refl 0
      | cons item spelt ih =>
        have hrest := ih fun item' hitem' => h item' (List.mem_cons_of_mem item hitem')
        have hitem : 1 ≤ item.1.length := by
          obtain ⟨text, c⟩ := item
          have hspells : Spells text c := h (text, c) List.mem_cons_self
          cases hspells <;> simp
        simp only [List.flatMap_cons, List.length_cons, List.length_append]
        omega
    rw [List.length_append, List.length_cons]
    omega
  have hread := characters_read h _ hfuel rest
  rw [List.cons_append, List.append_assoc, List.singleton_append]
  simp only [string, if_true, hread, Option.map_some]

/-- A key, a colon and a value. -/
theorem member_quoted {key : List Char} {k : String} (hkey : Quoted key k) (hp : Skips p)
    {blanks : List Char} (hblanks : ∀ c ∈ blanks, isBlank c = true) (text rest : List Char) :
    member p (key ++ ':' :: (blanks ++ text) ++ rest) =
      (p (text ++ rest)).map fun (a, rest) => ((k, a), rest) := by
  obtain ⟨t, ht⟩ := hkey.head
  have hskip : skip (key ++ ':' :: (blanks ++ text) ++ rest) =
      key ++ ':' :: (blanks ++ text) ++ rest := by
    rw [ht]
    exact skip_start _ (by decide)
  unfold member
  rw [hskip, List.append_assoc, hkey.reads]
  simp only [Option.bind_eq_bind, Option.bind_some, List.cons_append,
    skip_start _ (show isBlank ':' = false by decide), if_true, List.append_assoc,
    hp.blanks hblanks]

section

variable {key blanks text : List Char} {k : String} {a : α}

/-- **A member** is read as its value is. -/
theorem member_reads (hkey : Quoted key k) (hp : Skips p)
    (hblanks : ∀ c ∈ blanks, isBlank c = true) (h : Reads p text a) :
    Reads (member p) (key ++ ':' :: (blanks ++ text)) (k, a) := by
  intro rest hrest
  rw [member_quoted hkey hp hblanks, h rest hrest]
  rfl

theorem member_within (hkey : Quoted key k) (hp : Skips p)
    (hblanks : ∀ c ∈ blanks, isBlank c = true) (h : Within p text a) :
    Within (member p) (key ++ ':' :: (blanks ++ text)) (k, a) := by
  intro rest hrest r hr
  rw [member_quoted hkey hp hblanks] at hr
  obtain ⟨⟨b, left⟩, hvalue, rfl⟩ := Option.map_eq_some_iff.mp hr
  cases h rest hrest _ hvalue
  rfl

theorem member_fails (hkey : Quoted key k) (hp : Skips p)
    (hblanks : ∀ c ∈ blanks, isBlank c = true) (h : Fails p text) :
    Fails (member p) (key ++ ':' :: (blanks ++ text)) := by
  intro rest
  rw [member_quoted hkey hp hblanks, h rest]
  rfl

end

/-! ## Values that are read -/

theorem value_string {s : String} (h : Quoted text s) (n : Nat) :
    Reads (value (n + 1)) text (.str s) := by
  intro rest _
  obtain ⟨t, ht⟩ := h.head
  have hread := h.reads rest
  rw [ht, List.cons_append] at hread ⊢
  simp [value, skip_start _ (show isBlank '"' = false by decide), hread]

theorem value_array {n : Nat} {text : List Char} {items : List (Json (List Char))}
    (h : ∀ rest, list (value n) ']' (text ++ rest) = some (items, rest)) :
    Reads (value (n + 1)) ('[' :: text) (.arr items) := by
  intro rest _
  rw [List.cons_append]
  simp [value, skip_start _ (show isBlank '[' = false by decide), h rest]

theorem value_array_fails {n : Nat} {text : List Char} (h : Fails (list (value n) ']') text) :
    Fails (value (n + 1)) ('[' :: text) := by
  intro rest
  rw [List.cons_append]
  simp [value, skip_start _ (show isBlank '[' = false by decide), h rest]

theorem value_object {n : Nat} {members : List (String × Json (List Char))}
    (h : ∀ rest, list (member (value n)) '\x7d' (text ++ rest) = some (members, rest)) :
    Reads (value (n + 1)) ('\x7b' :: text) (.obj members) := by
  intro rest _
  rw [List.cons_append]
  simp [value, skip_start _ (show isBlank '\x7b' = false by decide), h rest]

theorem value_object_fails {n : Nat} (h : Fails (list (member (value n)) '\x7d') text) :
    Fails (value (n + 1)) ('\x7b' :: text) := by
  intro rest
  rw [List.cons_append]
  simp [value, skip_start _ (show isBlank '\x7b' = false by decide), h rest]

theorem value_true (n : Nat) : Reads (value (n + 1)) ['t', 'r', 'u', 'e'] (.bool true) := by
  intro rest _
  simp [value, skip_start _ (show isBlank 't' = false by decide), word]

theorem value_false (n : Nat) : Reads (value (n + 1)) ['f', 'a', 'l', 's', 'e'] (.bool false) := by
  intro rest _
  simp [value, skip_start _ (show isBlank 'f' = false by decide), word]

theorem value_null (n : Nat) : Reads (value (n + 1)) ['n', 'u', 'l', 'l'] .null := by
  intro rest _
  simp [value, skip_start _ (show isBlank 'n' = false by decide), word]

/-- What no other value starts with is read as a numeral. -/
theorem value_other {c : Char} (hc : c.isDigit = true ∨ c = '-' ∨ c = 'N' ∨ c = 'I') (n : Nat)
    (rest : List Char) :
    value (n + 1) (c :: rest) =
      (numeral (c :: rest)).map fun (text, rest) => (.num text, rest) := by
  have hne : ∀ other : Char, other.isDigit = false → other ≠ '-' → other ≠ 'N' → other ≠ 'I' →
      c ≠ other := by
    rintro other hdigit hminus hN hI rfl
    rcases hc with h | h | h | h
    · exact absurd (hdigit.symm.trans h) (by simp)
    · exact hminus h
    · exact hN h
    · exact hI h
  have hblank : isBlank c = false := by
    simp only [isBlank, Bool.or_eq_false_iff, decide_eq_false_iff_not]
    exact ⟨⟨⟨hne ' ' (by decide) (by decide) (by decide) (by decide),
      hne '\t' (by decide) (by decide) (by decide) (by decide)⟩,
      hne '\n' (by decide) (by decide) (by decide) (by decide)⟩,
      hne '\r' (by decide) (by decide) (by decide) (by decide)⟩
  simp only [value, skip_start _ hblank,
    if_neg (hne '"' (by decide) (by decide) (by decide) (by decide)),
    if_neg (hne '[' (by decide) (by decide) (by decide) (by decide)),
    if_neg (hne '\x7b' (by decide) (by decide) (by decide) (by decide)),
    if_neg (hne 't' (by decide) (by decide) (by decide) (by decide)),
    if_neg (hne 'f' (by decide) (by decide) (by decide) (by decide)),
    if_neg (hne 'n' (by decide) (by decide) (by decide) (by decide))]

theorem value_numeral (numeral : Numeral) (n : Nat) :
    Reads (value (n + 1)) numeral.text (.num numeral.text) := by
  intro rest hrest
  obtain ⟨c, text, htext, hc⟩ := numeral.head
  have hread := numeral_extends _ _ _ numeral.whole rest hrest
  rw [htext, List.nil_append, List.cons_append] at hread
  rw [htext, List.cons_append, value_other (hc.imp_right .inl), hread]
  rfl

/-- A text that starts like a number and is none. -/
theorem value_fails_of_numeral {c : Char} (hc : c = '-' ∨ c = 'N' ∨ c = 'I')
    (h : Fails numeral (c :: text)) (n : Nat) : Fails (value n) (c :: text) := by
  intro rest
  cases n with
  | zero => rfl
  | succ n =>
    have hnone := h rest
    rw [List.cons_append] at hnone ⊢
    rw [value_other (.inr hc), hnone]
    rfl

/-! ## Depth -/

theorem more_mono {q : Reader α} (h : ∀ cs r, p cs = some r → q cs = some r) :
    ∀ n cs r, more p close n cs = some r → more q close n cs = some r := by
  intro n
  induction n with
  | zero =>
    intro cs r hr
    cases hr
  | succ n ih =>
    intro cs r hr
    rw [more] at hr ⊢
    cases hskip : skip cs with
    | nil =>
      rw [hskip] at hr
      cases hr
    | cons c rest =>
      rw [hskip] at hr
      dsimp only at hr ⊢
      by_cases hend : c = close
      · rw [if_pos hend] at hr ⊢
        exact hr
      · rw [if_neg hend] at hr ⊢
        by_cases hcomma : c = ','
        · rw [if_pos hcomma] at hr ⊢
          obtain ⟨⟨a, rest₁⟩, hitem, hr⟩ := Option.bind_eq_some_iff.mp hr
          obtain ⟨⟨as, rest₂⟩, hmore, hr⟩ := Option.bind_eq_some_iff.mp hr
          refine Option.bind_eq_some_iff.mpr ⟨_, h _ _ hitem, ?_⟩
          exact Option.bind_eq_some_iff.mpr ⟨_, ih _ _ hmore, hr⟩
        · rw [if_neg hcomma] at hr
          cases hr

theorem list_mono {q : Reader α} (h : ∀ cs r, p cs = some r → q cs = some r) (cs : List Char)
    (r : List α × List Char) (hr : list p close cs = some r) : list q close cs = some r := by
  unfold list at hr ⊢
  cases hskip : skip cs with
  | nil =>
    rw [hskip] at hr
    cases hr
  | cons c rest =>
    rw [hskip] at hr
    dsimp only at hr ⊢
    by_cases hend : c = close
    · rw [if_pos hend] at hr ⊢
      exact hr
    · rw [if_neg hend] at hr ⊢
      obtain ⟨⟨a, rest₁⟩, hitem, hr⟩ := Option.bind_eq_some_iff.mp hr
      obtain ⟨⟨as, rest₂⟩, hmore, hr⟩ := Option.bind_eq_some_iff.mp hr
      refine Option.bind_eq_some_iff.mpr ⟨_, h _ _ hitem, ?_⟩
      exact Option.bind_eq_some_iff.mpr ⟨_, more_mono h _ _ _ hmore, hr⟩

theorem member_mono {q : Reader α} (h : ∀ cs r, p cs = some r → q cs = some r) (cs : List Char)
    (r : (String × α) × List Char) (hr : member p cs = some r) : member q cs = some r := by
  unfold member at hr ⊢
  obtain ⟨⟨key, rest⟩, hkey, hr⟩ := Option.bind_eq_some_iff.mp hr
  refine Option.bind_eq_some_iff.mpr ⟨(key, rest), hkey, ?_⟩
  dsimp only at hr ⊢
  cases hskip : skip rest with
  | nil =>
    rw [hskip] at hr
    cases hr
  | cons c rest' =>
    rw [hskip] at hr
    dsimp only at hr ⊢
    by_cases hcolon : c = ':'
    · rw [if_pos hcolon] at hr ⊢
      obtain ⟨⟨a, left⟩, hvalue, hr⟩ := Option.map_eq_some_iff.mp hr
      rw [h _ _ hvalue]
      exact congrArg some hr
    · rw [if_neg hcolon] at hr
      cases hr

/-- More depth reads the same. -/
theorem value_mono (n : Nat) : ∀ cs r, value n cs = some r → value (n + 1) cs = some r := by
  induction n with
  | zero =>
    intro cs r hr
    cases hr
  | succ n ih =>
    intro cs r hr
    rw [value] at hr ⊢
    cases hskip : skip cs with
    | nil =>
      rw [hskip] at hr
      cases hr
    | cons c rest =>
      rw [hskip] at hr
      dsimp only at hr ⊢
      by_cases hquote : c = '"'
      · rw [if_pos hquote] at hr ⊢
        exact hr
      · rw [if_neg hquote] at hr ⊢
        by_cases harray : c = '['
        · rw [if_pos harray] at hr ⊢
          obtain ⟨⟨items, left⟩, hitems, hr⟩ := Option.map_eq_some_iff.mp hr
          rw [list_mono ih _ _ hitems]
          exact congrArg some hr
        · rw [if_neg harray] at hr ⊢
          by_cases hobject : c = '\x7b'
          · rw [if_pos hobject] at hr ⊢
            obtain ⟨⟨members, left⟩, hmembers, hr⟩ := Option.map_eq_some_iff.mp hr
            rw [list_mono (member_mono ih) _ _ hmembers]
            exact congrArg some hr
          · rw [if_neg hobject] at hr ⊢
            exact hr

/-- A value that is read at some depth is read or refused at each. -/
theorem value_within {m : Nat} {v : Json (List Char)} (h : ∀ n, m < n → Reads (value n) text v)
    (n : Nat) : Within (value n) text v := by
  intro rest hrest r hr
  have hdeep : ∀ k, value (n + k) (text ++ rest) = some r := by
    intro k
    induction k with
    | zero => exact hr
    | succ k ih => exact value_mono _ _ _ ih
  have hread := h (n + (m + 1)) (by omega) rest hrest
  rw [hdeep (m + 1)] at hread
  exact Option.some.inj hread

/-! ## Whole texts -/

theorem parse_of_reads {v : Json (List Char)} (h : ∀ n, text.length < n → Reads (value n) text v) :
    parse text = some v := by
  have hread := h (text.length + 1) (Nat.lt_succ_self _) [] Stops.nil
  rw [List.append_nil] at hread
  unfold parse
  rw [hread]
  rfl

theorem parse_of_fails (h : ∀ n, Fails (value n) text) : parse text = none := by
  have hnone := h (text.length + 1) []
  rw [List.append_nil] at hnone
  unfold parse
  rw [hnone]
  rfl

end

end IotSaas.Lib.JsonText
