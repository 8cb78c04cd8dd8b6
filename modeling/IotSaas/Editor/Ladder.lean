import IotSaas.Editor.Tree
import Mathlib.Logic.Relation

/-!
# `Editor/Ladder.lean` — the ladder drawing is the condition

`lib/ladder-layout.ts`: the grid layout of one rung, and `normalize` on the tree it draws, element
ids included. An id is only handed on, so its type is a parameter.

The drawing is read as a circuit: a closed contact joins the two ends of its cell, a wire all the
grid points on it. If the tree is true there is a path along the true branches. If it is false
there is a **cut**: a column for each row, so that no closed contact lies across it and every wire
stays on one side (`Cut`). A series is cut where one of its children is, a parallel block by the
cuts of its branches, each in its own rows; this is where the buses must not leave their block.
-/

set_option autoImplicit false

namespace IotSaas.Editor

open Lib Rules

variable {ι : Type}

/-! ## The tree -/

/-- A node of the draft's tree as the ladder reads it: what it draws carries the id, and of a contact
it reads nothing else. -/
abbrev LadderNode (ι : Type) := Tree ι ι

/-- The ladder draws the normal form that is edited. -/
theorem drawn_normalize {C : Type} (node : TreeNode C) :
    normalize (Tree.map id Prod.fst node) = (normalize node).map (Tree.map id Prod.fst) :=
  normalize_map id Prod.fst node

mutual

/-- The AND/OR tree when exactly the `closed` contacts are true. -/
def holds (closed : ι → Bool) : LadderNode ι → Bool
  | .contact id => closed id
  | .group _ .and children => holdsAll closed children
  | .group _ .or children => holdsAny closed children

def holdsAll (closed : ι → Bool) : List (LadderNode ι) → Bool
  | [] => true
  | child :: rest => holds closed child && holdsAll closed rest

def holdsAny (closed : ι → Bool) : List (LadderNode ι) → Bool
  | [] => false
  | child :: rest => holds closed child || holdsAny closed rest

end

/-! ## The layout -/

structure LadderContact (ι : Type) where
  id : ι
  /-- Left column of the cell. -/
  x : Nat
  /-- Row of the cell. -/
  y : Nat

structure LadderBlock (ι : Type) where
  id : ι
  op : GroupOp
  x : Nat
  y : Nat
  width : Nat
  height : Nat

structure LadderWire where
  x1 : Nat
  y1 : Nat
  x2 : Nat
  y2 : Nat

structure LadderLayout (ι : Type) where
  width : Nat
  height : Nat
  contacts : List (LadderContact ι)
  /-- Group bounding boxes. -/
  blocks : List (LadderBlock ι)
  /-- Horizontal fillers and vertical buses between contacts. -/
  wires : List LadderWire

namespace LadderLayout

/-- One more block of a series: widths add, the tallest counts. -/
def beside (first rest : LadderLayout ι) : LadderLayout ι where
  width := first.width + rest.width
  height := max first.height rest.height
  contacts := first.contacts ++ rest.contacts
  blocks := first.blocks ++ rest.blocks
  wires := first.wires ++ rest.wires

/-- One more branch of a parallel block: heights add, the widest counts. -/
def above (first rest : LadderLayout ι) : LadderLayout ι where
  width := max first.width rest.width
  height := first.height + rest.height
  contacts := first.contacts ++ rest.contacts
  blocks := first.blocks ++ rest.blocks
  wires := first.wires ++ rest.wires

end LadderLayout

/-- What the OR loop notes of a branch. -/
structure Branch where
  row : Nat
  width : Nat

/-- The wires of the shorter branches to the right bus. -/
def fillers (x width : Nat) (branches : List Branch) : List LadderWire :=
  (branches.filter fun b => b.width < width).map fun b =>
    { x1 := x + b.width, y1 := b.row, x2 := x + width, y2 := b.row }

mutual

/-- `place`: what it adds to `out`, and the size it returns. `none` is the `TypeError` for the last
row of a parallel block without a branch. -/
def place : LadderNode ι → Nat → Nat → Option (LadderLayout ι)
  | .contact id, x, y =>
      some { width := 1, height := 1, contacts := [{ id, x, y }], blocks := [], wires := [] }
  | .group id .and children, x, y => do
      let out ← placeSeries children x y
      let block :=
        { id, op := GroupOp.and, x, y, width := out.width, height := out.height }
      some { out with blocks := out.blocks ++ [block] }
  | .group id .or children, x, y => do
      let (out, branches) ← placeBranches children x y
      let last ← branches.getLast?
      let buses : List LadderWire :=
        [{ x1 := x, y1 := y, x2 := x, y2 := last.row },
         { x1 := x + out.width, y1 := y, x2 := x + out.width, y2 := last.row }]
      let block := { id, op := GroupOp.or, x, y, width := out.width, height := out.height }
      some { out with
        blocks := out.blocks ++ [block]
        wires := out.wires ++ (fillers x out.width branches ++ buses) }

/-- The AND loop. -/
def placeSeries : List (LadderNode ι) → Nat → Nat → Option (LadderLayout ι)
  | [], _, _ => some { width := 0, height := 0, contacts := [], blocks := [], wires := [] }
  | child :: rest, x, y => do
      let first ← place child x y
      let out ← placeSeries rest (x + first.width) y
      some (first.beside out)

/-- The OR loop: every branch laid out first, to learn the width of the block. -/
def placeBranches : List (LadderNode ι) → Nat → Nat → Option (LadderLayout ι × List Branch)
  | [], _, _ => some ({ width := 0, height := 0, contacts := [], blocks := [], wires := [] }, [])
  | child :: rest, x, y => do
      let first ← place child x y
      let (out, branches) ← placeBranches rest x (y + first.height)
      some (first.above out, { row := y, width := first.width } :: branches)

end

/-- `layoutCondition`. -/
def layoutCondition (node : Option (LadderNode ι)) : Option (LadderLayout ι) :=
  match node with
  | none => some { width := 0, height := 1, contacts := [], blocks := [], wires := [] }
  | some node => place node 0 0

/-! ## The circuit -/

/-- A grid point: column and row. -/
abbrev Point := Nat × Nat

/-- `p` is on the wire, which is drawn to the right or down. -/
def LadderWire.Through (wire : LadderWire) (p : Point) : Prop :=
  wire.x1 ≤ p.1 ∧ p.1 ≤ wire.x2 ∧ wire.y1 ≤ p.2 ∧ p.2 ≤ wire.y2 ∧
    (wire.x2 - wire.x1) * (p.2 - wire.y1) = (wire.y2 - wire.y1) * (p.1 - wire.x1)

/-- One step of the current. -/
inductive Joins (closed : ι → Bool) (out : LadderLayout ι) : Point → Point → Prop where
  | contact {c : LadderContact ι} (mem : c ∈ out.contacts) (shut : closed c.id = true) :
      Joins closed out (c.x, c.y) (c.x + 1, c.y)
  | wire {wire : LadderWire} {p q : Point} (mem : wire ∈ out.wires) (start : wire.Through p)
      (stop : wire.Through q) : Joins closed out p q

/-- Two points are connected. -/
def Connected (closed : ι → Bool) (out : LadderLayout ι) : Point → Point → Prop :=
  Relation.EqvGen (Joins closed out)

variable {closed : ι → Bool} {out : LadderLayout ι}

theorem Connected.trans {p q r : Point} (first : Connected closed out p q)
    (second : Connected closed out q r) :
    Connected closed out p r :=
  Relation.EqvGen.trans _ _ _ first second

theorem Connected.of_wire {wire : LadderWire} {p q : Point} (mem : wire ∈ out.wires)
    (start : wire.Through p) (stop : wire.Through q) :
    Connected closed out p q :=
  .rel _ _ (.wire mem start stop)

/-- More contacts and wires only join more. -/
theorem Connected.mono {out more : LadderLayout ι}
    (contacts : ∀ c ∈ out.contacts, c ∈ more.contacts)
    (wires : ∀ wire ∈ out.wires, wire ∈ more.wires) {p q : Point} (h : Connected closed out p q) :
    Connected closed more p q := by
  refine Relation.EqvGen.mono ?_ _ _ h
  intro p q hjoins
  cases hjoins with
  | contact mem shut => exact .contact (contacts _ mem) shut
  | wire mem start stop => exact .wire (wires _ mem) start stop

/-- A vertical wire goes through the points of its column. -/
theorem LadderWire.through_vertical {x top bottom r : Nat} (htop : top ≤ r) (hbottom : r ≤ bottom) :
    LadderWire.Through { x1 := x, y1 := top, x2 := x, y2 := bottom } (x, r) := by
  simp [LadderWire.Through, htop, hbottom]

/-- A horizontal wire goes through the points of its row. -/
theorem LadderWire.through_horizontal {y left right c : Nat} (hleft : left ≤ c)
    (hright : c ≤ right) :
    LadderWire.Through { x1 := left, y1 := y, x2 := right, y2 := y } (c, y) := by
  simp [LadderWire.Through, hleft, hright]

/-! ## Cuts -/

/-- The column `t r` cuts row `r` between `x` and `x + width`: a point is left of the cut up to and
including that column. No closed contact lies across the cut, no wire crosses it. -/
structure Cut (closed : ι → Bool) (out : LadderLayout ι) (x width : Nat) (t : Nat → Nat) :
    Prop where
  left : ∀ r, x ≤ t r
  right : ∀ r, t r < x + width
  contacts : ∀ c ∈ out.contacts, closed c.id = true → t c.y ≠ c.x
  wires : ∀ wire ∈ out.wires,
    (∀ p, wire.Through p → p.1 ≤ t p.2) ∨ (∀ p, wire.Through p → t p.2 < p.1)

/-- **The current stays on its side of a cut.** -/
theorem Cut.separates {x width : Nat} {t : Nat → Nat} (cut : Cut closed out x width t) {p q : Point}
    (h : Connected closed out p q) :
    p.1 ≤ t p.2 ↔ q.1 ≤ t q.2 := by
  induction h with
  | rel p q hjoins =>
    cases hjoins with
    | @contact c mem shut =>
      have hne := cut.contacts c mem shut
      show c.x ≤ t c.y ↔ c.x + 1 ≤ t c.y
      omega
    | wire mem start stop =>
      rcases cut.wires _ mem with hleft | hright
      · exact ⟨fun _ => hleft _ stop, fun _ => hleft _ start⟩
      · have hp := hright _ start
        have hq := hright _ stop
        omega
  | refl p => rfl
  | symm p q _ ih => exact ih.symm
  | trans p q r _ _ first second => exact first.trans second

/-! ## What is drawn of a tree -/

/-- The cell of a contact. -/
def LadderContact.cell (c : LadderContact ι) : Point := (c.x, c.y)

/-- Everything stays in the box of rows and columns it was given. -/
structure Boxed (out : LadderLayout ι) (x y : Nat) : Prop where
  contacts : ∀ c ∈ out.contacts,
    (x ≤ c.x ∧ c.x < x + out.width) ∧ y ≤ c.y ∧ c.y < y + out.height
  wires : ∀ wire ∈ out.wires, ∀ p, wire.Through p →
    (x ≤ p.1 ∧ p.1 ≤ x + out.width) ∧ y ≤ p.2 ∧ p.2 < y + out.height
  /-- Every wire runs to the right or down. -/
  straight : ∀ wire ∈ out.wires,
    wire.x1 = wire.x2 ∧ wire.y1 ≤ wire.y2 ∨ wire.y1 = wire.y2 ∧ wire.x1 ≤ wire.x2
  cells : (out.contacts.map LadderContact.cell).Nodup

/-- Two boxes that share no cell. -/
theorem cells_append {first second : List (LadderContact ι)}
    (h₁ : (first.map LadderContact.cell).Nodup) (h₂ : (second.map LadderContact.cell).Nodup)
    (apart : ∀ c ∈ first, ∀ d ∈ second, c.cell ≠ d.cell) :
    ((first ++ second).map LadderContact.cell).Nodup := by
  rw [List.map_append, List.nodup_append]
  refine ⟨h₁, h₂, ?_⟩
  intro a ha b hb
  obtain ⟨c, hc, rfl⟩ := List.mem_map.mp ha
  obtain ⟨d, hd, rfl⟩ := List.mem_map.mp hb
  exact apart c hc d hd

variable {first rest : LadderLayout ι} {x y : Nat}

theorem Boxed.beside (h : Boxed first x y) (hrest : Boxed rest (x + first.width) y) :
    Boxed (first.beside rest) x y := by
  constructor
  · intro c hc
    show (x ≤ c.x ∧ c.x < x + (first.width + rest.width)) ∧
      y ≤ c.y ∧ c.y < y + max first.height rest.height
    rcases List.mem_append.mp hc with hc | hc
    · have hbox := h.contacts c hc
      omega
    · have hbox := hrest.contacts c hc
      omega
  · intro wire hwire p hp
    show (x ≤ p.1 ∧ p.1 ≤ x + (first.width + rest.width)) ∧
      y ≤ p.2 ∧ p.2 < y + max first.height rest.height
    rcases List.mem_append.mp hwire with hwire | hwire
    · have hbox := h.wires wire hwire p hp
      omega
    · have hbox := hrest.wires wire hwire p hp
      omega
  · intro wire hwire
    rcases List.mem_append.mp hwire with hwire | hwire
    · exact h.straight wire hwire
    · exact hrest.straight wire hwire
  · apply cells_append h.cells hrest.cells
    intro c hc d hd hcell
    have hx : c.x = d.x := congrArg Prod.fst hcell
    have hleft := (h.contacts c hc).1
    have hright := (hrest.contacts d hd).1
    omega

theorem Boxed.above (h : Boxed first x y) (hrest : Boxed rest x (y + first.height)) :
    Boxed (first.above rest) x y := by
  constructor
  · intro c hc
    show (x ≤ c.x ∧ c.x < x + max first.width rest.width) ∧
      y ≤ c.y ∧ c.y < y + (first.height + rest.height)
    rcases List.mem_append.mp hc with hc | hc
    · have hbox := h.contacts c hc
      omega
    · have hbox := hrest.contacts c hc
      omega
  · intro wire hwire p hp
    show (x ≤ p.1 ∧ p.1 ≤ x + max first.width rest.width) ∧
      y ≤ p.2 ∧ p.2 < y + (first.height + rest.height)
    rcases List.mem_append.mp hwire with hwire | hwire
    · have hbox := h.wires wire hwire p hp
      omega
    · have hbox := hrest.wires wire hwire p hp
      omega
  · intro wire hwire
    rcases List.mem_append.mp hwire with hwire | hwire
    · exact h.straight wire hwire
    · exact hrest.straight wire hwire
  · apply cells_append h.cells hrest.cells
    intro c hc d hd hcell
    have hy : c.y = d.y := congrArg Prod.snd hcell
    have htop := (h.contacts c hc).2
    have hbottom := (hrest.contacts d hd).2
    omega

/-- What a tree's drawing at `(x, y)` is: `ids` its contacts, `v` its value. -/
structure Drawn (closed : ι → Bool) (ids : List ι) (v : Bool) (out : LadderLayout ι) (x y : Nat) :
    Prop where
  ids : out.contacts.map LadderContact.id = ids
  boxed : Boxed out x y
  joins : v = true → Connected closed out (x, y) (x + out.width, y)
  cut : v = false → ∃ t, Cut closed out x out.width t

/-- **In series.** A path is put together of the paths; a cut of either is a cut of both, since
the other lies on one side of it. -/
theorem Drawn.beside {ids ids' : List ι} {v v' : Bool} (h : Drawn closed ids v first x y)
    (hrest : Drawn closed ids' v' rest (x + first.width) y) :
    Drawn closed (ids ++ ids') (v && v') (first.beside rest) x y where
  ids := by
    show (first.contacts ++ rest.contacts).map LadderContact.id = ids ++ ids'
    rw [List.map_append, h.ids, hrest.ids]
  boxed := h.boxed.beside hrest.boxed
  joins := by
    intro hv
    obtain ⟨hv, hv'⟩ := (Bool.and_eq_true v v').mp hv
    have hfirst : Connected closed (first.beside rest) (x, y) (x + first.width, y) :=
      (h.joins hv).mono (fun _ hc => List.mem_append_left _ hc)
        fun _ hw => List.mem_append_left _ hw
    have hsecond : Connected closed (first.beside rest) (x + first.width, y)
        (x + first.width + rest.width, y) :=
      (hrest.joins hv').mono (fun _ hc => List.mem_append_right _ hc)
        fun _ hw => List.mem_append_right _ hw
    rw [Nat.add_assoc] at hsecond
    exact hfirst.trans hsecond
  cut := by
    intro hv
    show ∃ t, Cut closed (first.beside rest) x (first.width + rest.width) t
    -- The cut of the half that does not conduct; all of the other half is on one side of it.
    rcases (Bool.and_eq_false_iff).mp hv with hv | hv'
    · obtain ⟨t, cut⟩ := h.cut hv
      refine ⟨t, cut.left, fun r => ?_, ?_, ?_⟩
      · have := cut.right r
        omega
      · intro c hc hshut
        rcases List.mem_append.mp hc with hc | hc
        · exact cut.contacts c hc hshut
        · have hbox := (hrest.boxed.contacts c hc).1
          have := cut.right c.y
          omega
      · intro wire hwire
        rcases List.mem_append.mp hwire with hwire | hwire
        · exact cut.wires wire hwire
        · right
          intro p hp
          have hbox := (hrest.boxed.wires wire hwire p hp).1
          have := cut.right p.2
          omega
    · obtain ⟨t, cut⟩ := hrest.cut hv'
      refine ⟨t, fun r => ?_, fun r => ?_, ?_, ?_⟩
      · have := cut.left r
        omega
      · have := cut.right r
        omega
      · intro c hc hshut
        rcases List.mem_append.mp hc with hc | hc
        · have hbox := (h.boxed.contacts c hc).1
          have := cut.left c.y
          omega
        · exact cut.contacts c hc hshut
      · intro wire hwire
        rcases List.mem_append.mp hwire with hwire | hwire
        · left
          intro p hp
          have hbox := (h.boxed.wires wire hwire p hp).1
          have := cut.left p.2
          omega
        · exact cut.wires wire hwire

/-- What the OR loop has after some of the branches, the buses not drawn yet. -/
structure Stacked (closed : ι → Bool) (ids : List ι) (v : Bool) (out : LadderLayout ι)
    (branches : List Branch) (x y : Nat) : Prop where
  ids : out.contacts.map LadderContact.id = ids
  boxed : Boxed out x y
  rows : ∀ b ∈ branches, (y ≤ b.row ∧ b.row < y + out.height) ∧ b.width ≤ out.width
  last : ∀ last, branches.getLast? = some last → ∀ b ∈ branches, b.row ≤ last.row
  joins : v = true → ∃ b ∈ branches, Connected closed out (x, b.row) (x + b.width, b.row)
  cut : v = false → ∃ t, Cut closed out x (max 1 out.width) t ∧
    ∀ b ∈ branches, t b.row < x + b.width

theorem stacked_nil (closed : ι → Bool) (x y : Nat) :
    Stacked closed [] false
      { width := 0, height := 0, contacts := [], blocks := [], wires := [] } [] x y where
  ids := rfl
  boxed :=
    { contacts := by simp
      wires := by simp
      straight := by simp
      cells := by simp }
  rows := by simp
  last := by simp
  joins := by simp
  cut := by
    intro _
    exact ⟨fun _ => x, ⟨by simp, by simp, by simp, by simp⟩, by simp⟩

/-- The cut of a branch in its rows, the cut of the others below. -/
def glue (row : Nat) (t below : Nat → Nat) (r : Nat) : Nat := if r < row then t r else below r

/-- **In parallel.** One path is enough; the cuts of the branches are one cut, each being used in
its own rows only. -/
theorem Stacked.cons {ids ids' : List ι} {v v' : Bool} {branches : List Branch}
    (h : Drawn closed ids v first x y) (tall : 1 ≤ first.height)
    (hrest : Stacked closed ids' v' rest branches x (y + first.height)) :
    Stacked closed (ids ++ ids') (v || v') (first.above rest)
      ({ row := y, width := first.width } :: branches) x y where
  ids := by
    show (first.contacts ++ rest.contacts).map LadderContact.id = ids ++ ids'
    rw [List.map_append, h.ids, hrest.ids]
  boxed := h.boxed.above hrest.boxed
  rows := by
    intro b hb
    show (y ≤ b.row ∧ b.row < y + (first.height + rest.height)) ∧
      b.width ≤ max first.width rest.width
    rcases List.mem_cons.mp hb with rfl | hb
    · dsimp only
      omega
    · have hrow := hrest.rows b hb
      omega
  last := by
    intro last hlast b hb
    cases hbranches : branches with
    | nil =>
      rw [hbranches] at hlast hb
      cases hlast
      cases List.mem_singleton.mp hb
      exact Nat.le_refl _
    | cons second more =>
      have hlast' : branches.getLast? = some last := by
        rw [hbranches] at hlast ⊢
        rwa [List.getLast?_cons_cons] at hlast
      rcases List.mem_cons.mp hb with rfl | hb
      · have hrow := (hrest.rows last (List.mem_of_getLast? hlast')).1
        show y ≤ last.row
        omega
      · exact hrest.last last hlast' b hb
  joins := by
    intro hv
    rcases (Bool.or_eq_true v v').mp hv with hv | hv'
    · exact ⟨_, List.mem_cons_self, (h.joins hv).mono (fun _ hc => List.mem_append_left _ hc)
        fun _ hw => List.mem_append_left _ hw⟩
    · obtain ⟨b, hb, hjoins⟩ := hrest.joins hv'
      exact ⟨b, List.mem_cons_of_mem _ hb, hjoins.mono (fun _ hc => List.mem_append_right _ hc)
        fun _ hw => List.mem_append_right _ hw⟩
  cut := by
    intro hv
    obtain ⟨hv, hv'⟩ := Bool.or_eq_false_iff.mp hv
    obtain ⟨t, cut⟩ := h.cut hv
    obtain ⟨below, cutBelow, hbelow⟩ := hrest.cut hv'
    -- Cut where the first is cut in its rows, and where the others are below them.
    have hup : ∀ r, r < y + first.height → glue (y + first.height) t below r = t r :=
      fun r hr => if_pos hr
    have hdown : ∀ r, y + first.height ≤ r → glue (y + first.height) t below r = below r :=
      fun r hr => if_neg (Nat.not_lt.mpr hr)
    refine ⟨glue (y + first.height) t below, ⟨fun r => ?_, fun r => ?_, ?_, ?_⟩, ?_⟩
    · unfold glue
      split
      · exact cut.left r
      · exact cutBelow.left r
    -- The block is as wide as its widest branch, and both cuts end before that.
    · show _ < x + max 1 (max first.width rest.width)
      have h₁ := cut.right r
      have h₂ := cutBelow.right r
      unfold glue
      split <;> omega
    · intro c hc hshut
      rcases List.mem_append.mp hc with hc | hc
      · rw [hup _ (h.boxed.contacts c hc).2.2]
        exact cut.contacts c hc hshut
      · rw [hdown _ (hrest.boxed.contacts c hc).2.1]
        exact cutBelow.contacts c hc hshut
    · intro wire hwire
      rcases List.mem_append.mp hwire with hwire | hwire
      · have hrows : ∀ p, wire.Through p → glue (y + first.height) t below p.2 = t p.2 :=
          fun p hp => hup _ (h.boxed.wires wire hwire p hp).2.2
        exact (cut.wires wire hwire).imp (fun hleft p hp => (hrows p hp).symm ▸ hleft p hp)
          fun hright p hp => (hrows p hp).symm ▸ hright p hp
      · have hrows : ∀ p, wire.Through p → glue (y + first.height) t below p.2 = below p.2 :=
          fun p hp => hdown _ (hrest.boxed.wires wire hwire p hp).2.1
        exact (cutBelow.wires wire hwire).imp (fun hleft p hp => (hrows p hp).symm ▸ hleft p hp)
          fun hright p hp => (hrows p hp).symm ▸ hright p hp
    · intro b hb
      rcases List.mem_cons.mp hb with rfl | hb
      · have hright := cut.right y
        rw [hup y (by omega)]
        exact hright
      · rw [hdown _ (hrest.rows b hb).1.1]
        exact hbelow b hb

/-- The OR block with its fillers and buses. -/
def wired (out : LadderLayout ι) (branches : List Branch) (last : Branch) (x y : Nat)
    (blocks : List (LadderBlock ι)) : LadderLayout ι :=
  { out with
    blocks := blocks
    wires := out.wires ++ (fillers x out.width branches ++
      [{ x1 := x, y1 := y, x2 := x, y2 := last.row },
       { x1 := x + out.width, y1 := y, x2 := x + out.width, y2 := last.row }]) }

/-- The wires of an OR block: those of the branches, the fillers, the left and the right bus. -/
theorem mem_wired {branches : List Branch} {last : Branch} {blocks : List (LadderBlock ι)}
    {wire : LadderWire} :
    wire ∈ (wired out branches last x y blocks).wires ↔ wire ∈ out.wires ∨
      (∃ b ∈ branches, b.width < out.width ∧
        wire = { x1 := x + b.width, y1 := b.row, x2 := x + out.width, y2 := b.row }) ∨
      wire = { x1 := x, y1 := y, x2 := x, y2 := last.row } ∨
      wire = { x1 := x + out.width, y1 := y, x2 := x + out.width, y2 := last.row } := by
  simp [wired, fillers, and_assoc, eq_comm]

theorem Stacked.drawn {ids : List ι} {v : Bool} {branches : List Branch}
    (h : Stacked closed ids v out branches x y) {last : Branch}
    (hlast : branches.getLast? = some last) (wide : 1 ≤ out.width) (blocks : List (LadderBlock ι)) :
    Drawn closed ids v (wired out branches last x y blocks) x y := by
  have hrow := (h.rows last (List.mem_of_getLast? hlast)).1
  constructor
  · exact h.ids
  · constructor
    · exact h.boxed.contacts
    · intro wire hwire p hp
      show (x ≤ p.1 ∧ p.1 ≤ x + out.width) ∧ y ≤ p.2 ∧ p.2 < y + out.height
      rcases mem_wired.mp hwire with hwire | ⟨b, hb, hshort, rfl⟩ | rfl | rfl
      · exact h.boxed.wires wire hwire p hp
      · have hb' := (h.rows b hb).1
        have hp' : (x + b.width ≤ p.1 ∧ p.1 ≤ x + out.width) ∧ b.row ≤ p.2 ∧ p.2 ≤ b.row :=
          ⟨⟨hp.1, hp.2.1⟩, hp.2.2.1, hp.2.2.2.1⟩
        omega
      · have hp' : (x ≤ p.1 ∧ p.1 ≤ x) ∧ y ≤ p.2 ∧ p.2 ≤ last.row :=
          ⟨⟨hp.1, hp.2.1⟩, hp.2.2.1, hp.2.2.2.1⟩
        omega
      · have hp' : (x + out.width ≤ p.1 ∧ p.1 ≤ x + out.width) ∧ y ≤ p.2 ∧ p.2 ≤ last.row :=
          ⟨⟨hp.1, hp.2.1⟩, hp.2.2.1, hp.2.2.2.1⟩
        omega
    · intro wire hwire
      rcases mem_wired.mp hwire with hwire | ⟨b, hb, hshort, rfl⟩ | rfl | rfl
      · exact h.boxed.straight wire hwire
      · right
        dsimp only
        omega
      · left
        dsimp only
        omega
      · left
        dsimp only
        omega
    · exact h.boxed.cells
  · -- down the left bus to a true branch, along it and its filler, up the right bus
    intro hv
    show Connected closed (wired out branches last x y blocks) (x, y) (x + out.width, y)
    obtain ⟨b, hb, hjoins⟩ := h.joins hv
    have hb' := h.rows b hb
    have hbus := h.last last hlast b hb
    have hleft : Connected closed (wired out branches last x y blocks) (x, y)
        (x, b.row) :=
      .of_wire (mem_wired.mpr (.inr (.inr (.inl rfl))))
        (LadderWire.through_vertical (Nat.le_refl y) hrow.1)
        (LadderWire.through_vertical hb'.1.1 hbus)
    have hbranch : Connected closed (wired out branches last x y blocks) (x, b.row)
        (x + b.width, b.row) := by
      refine Connected.mono ?_ ?_ hjoins
      · exact fun _ hc => hc
      · exact fun _ hw => mem_wired.mpr (.inl hw)
    have hfiller : Connected closed (wired out branches last x y blocks)
        (x + b.width, b.row) (x + out.width, b.row) := by
      by_cases hshort : b.width < out.width
      · exact .of_wire (mem_wired.mpr (.inr (.inl ⟨b, hb, hshort, rfl⟩)))
          (LadderWire.through_horizontal (Nat.le_refl _) (by omega))
          (LadderWire.through_horizontal (by omega) (Nat.le_refl _))
      · have hwidth : b.width = out.width := by omega
        rw [hwidth]
        exact .refl _
    have hright : Connected closed (wired out branches last x y blocks)
        (x + out.width, b.row) (x + out.width, y) :=
      .of_wire (mem_wired.mpr (.inr (.inr (.inr rfl))))
        (LadderWire.through_vertical hb'.1.1 hbus)
        (LadderWire.through_vertical (Nat.le_refl y) hrow.1)
    exact ((hleft.trans hbranch).trans hfiller).trans hright
  · intro hv
    show ∃ t, Cut closed (wired out branches last x y blocks) x out.width t
    obtain ⟨t, cut, hbranches⟩ := h.cut hv
    have hbound : ∀ r, t r < x + out.width := by
      intro r
      have hr := cut.right r
      omega
    refine ⟨t, cut.left, hbound, cut.contacts, ?_⟩
    intro wire hwire
    rcases mem_wired.mp hwire with hwire | ⟨b, hb, hshort, rfl⟩ | rfl | rfl
    · exact cut.wires wire hwire
    · right
      intro p hp
      have hrow : p.2 = b.row := Nat.le_antisymm hp.2.2.2.1 hp.2.2.1
      rw [hrow]
      exact Nat.lt_of_lt_of_le (hbranches b hb) hp.1
    · left
      intro p hp
      exact Nat.le_trans hp.2.1 (cut.left p.2)
    · right
      intro p hp
      exact Nat.lt_of_lt_of_le (hbound p.2) hp.1

theorem drawn_nil (closed : ι → Bool) (x y : Nat) :
    Drawn closed [] true
      { width := 0, height := 0, contacts := [], blocks := [], wires := [] } x y where
  ids := rfl
  boxed := (stacked_nil closed x y).boxed
  joins := by
    intro _
    exact .refl _
  cut := by simp

theorem drawn_contact (closed : ι → Bool) (id : ι) (x y : Nat) :
    Drawn closed [id] (closed id)
      { width := 1, height := 1, contacts := [{ id, x, y }], blocks := [], wires := [] } x y where
  ids := rfl
  boxed :=
    { contacts := by simp
      wires := by simp
      straight := by simp
      cells := by simp }
  joins := by
    intro hclosed
    exact .rel _ _ (.contact (c := { id, x, y }) List.mem_cons_self hclosed)
  cut := by
    intro hopen
    refine ⟨fun _ => x, by simp, by simp, ?_, by simp⟩
    intro c hc hshut
    cases List.mem_singleton.mp hc
    rw [hopen] at hshut
    cases hshut

/-- A bounding box is not part of the circuit. -/
theorem Drawn.outlined {ids : List ι} {v : Bool} (h : Drawn closed ids v out x y)
    (blocks : List (LadderBlock ι)) :
    Drawn closed ids v { out with blocks := blocks } x y where
  ids := h.ids
  boxed := ⟨h.boxed.contacts, h.boxed.wires, h.boxed.straight, h.boxed.cells⟩
  joins := by
    intro hv
    refine Connected.mono ?_ ?_ (h.joins hv)
    · exact fun _ hc => hc
    · exact fun _ hw => hw
  cut := by
    intro hv
    obtain ⟨t, cut⟩ := h.cut hv
    exact ⟨t, cut.left, cut.right, cut.contacts, cut.wires⟩

mutual

/-- **The drawing of a tree**, wherever it stands. -/
theorem place_drawn (closed : ι → Bool) : ∀ (node : LadderNode ι), Full node → ∀ (x y : Nat),
    ∃ out, place node x y = some out ∧
      Drawn closed (nodeContacts node) (holds closed node) out x y ∧
      1 ≤ out.width ∧ 1 ≤ out.height
  | .contact id, _, x, y =>
      ⟨_, by rw [place], drawn_contact closed id x y, Nat.le_refl 1, Nat.le_refl 1⟩
  | .group id .and children, .group hsome filled, x, y => by
      obtain ⟨out, hout, hdrawn, hsize⟩ := placeSeries_drawn closed children filled x y
      refine ⟨{ out with blocks := out.blocks ++
          [{ id, op := .and, x, y, width := out.width, height := out.height }] },
        by rw [place, hout]; rfl, ?_, hsize hsome⟩
      exact hdrawn.outlined _
  | .group id .or children, .group hsome filled, x, y => by
      obtain ⟨out, branches, hout, hstacked, hsize⟩ :=
        placeBranches_drawn closed children filled x y
      obtain ⟨hbranches, hwide, htall⟩ := hsize hsome
      obtain ⟨last, hlast⟩ := Option.ne_none_iff_exists'.mp
        (mt List.getLast?_eq_none_iff.mp hbranches)
      refine ⟨wired out branches last x y (out.blocks ++
          [{ id, op := .or, x, y, width := out.width, height := out.height }]),
        by rw [place, hout]; simp [hlast, wired], ?_, hwide, htall⟩
      exact hstacked.drawn hlast hwide _

theorem placeSeries_drawn (closed : ι → Bool) : ∀ (children : List (LadderNode ι)),
    (∀ child ∈ children, Full child) → ∀ (x y : Nat),
      ∃ out, placeSeries children x y = some out ∧
        Drawn closed (nodesContacts children) (holdsAll closed children) out x y ∧
        (children ≠ [] → 1 ≤ out.width ∧ 1 ≤ out.height)
  | [], _, x, y => ⟨_, by rw [placeSeries], drawn_nil closed x y, fun h => absurd rfl h⟩
  | child :: rest, filled, x, y => by
      obtain ⟨first, hfirst, hdrawn, hsize⟩ :=
        place_drawn closed child (filled child List.mem_cons_self) x y
      obtain ⟨out, hout, hrest, -⟩ := placeSeries_drawn closed rest
        (fun c hc => filled c (List.mem_cons_of_mem _ hc)) (x + first.width) y
      refine ⟨first.beside out, by simp [placeSeries, hfirst, hout], hdrawn.beside hrest, ?_⟩
      intro _
      show 1 ≤ first.width + out.width ∧ 1 ≤ max first.height out.height
      omega

theorem placeBranches_drawn (closed : ι → Bool) : ∀ (children : List (LadderNode ι)),
    (∀ child ∈ children, Full child) → ∀ (x y : Nat),
      ∃ out branches, placeBranches children x y = some (out, branches) ∧
        Stacked closed (nodesContacts children) (holdsAny closed children) out branches x y ∧
        (children ≠ [] → branches ≠ [] ∧ 1 ≤ out.width ∧ 1 ≤ out.height)
  | [], _, x, y =>
      ⟨_, _, by rw [placeBranches], stacked_nil closed x y, fun h => absurd rfl h⟩
  | child :: rest, filled, x, y => by
      obtain ⟨first, hfirst, hdrawn, hsize⟩ :=
        place_drawn closed child (filled child List.mem_cons_self) x y
      obtain ⟨out, branches, hout, hrest, -⟩ := placeBranches_drawn closed rest
        (fun c hc => filled c (List.mem_cons_of_mem _ hc)) x (y + first.height)
      refine ⟨first.above out, { row := y, width := first.width } :: branches,
        by simp [placeBranches, hfirst, hout], .cons hdrawn hsize.2 hrest, ?_⟩
      intro _
      show _ ≠ [] ∧ 1 ≤ max first.width out.width ∧ 1 ≤ first.height + out.height
      refine ⟨by simp, ?_, ?_⟩ <;> omega

end

/-- **The ladder drawing is electrically the condition.** In the drawing of a normalized tree the
rails are connected exactly if the tree is true of the closed contacts. It shows the contacts of
the tree in their order, each in a cell of its own in the `width` by `height` box. -/
theorem layoutCondition_conducts (closed : ι → Bool) (root tree : LadderNode ι)
    (h : normalize root = some tree) :
    ∃ layout, layoutCondition (some tree) = some layout ∧
      (Connected closed layout (0, 0) (layout.width, 0) ↔ holds closed tree = true) ∧
      layout.contacts.map LadderContact.id = nodeContacts tree ∧
      (layout.contacts.map LadderContact.cell).Nodup ∧
      ∀ c ∈ layout.contacts, c.x < layout.width ∧ c.y < layout.height := by
  obtain ⟨layout, hlayout, hdrawn, -, -⟩ :=
    place_drawn closed tree (normalize_normal root h).full 0 0
  refine ⟨layout, hlayout, ⟨?_, ?_⟩, hdrawn.ids, hdrawn.boxed.cells, ?_⟩
  · intro hconnected
    cases hv : holds closed tree with
    | true => rfl
    | false =>
      obtain ⟨t, cut⟩ := hdrawn.cut hv
      have hright : layout.width ≤ t 0 := (cut.separates hconnected).mp (Nat.zero_le (t 0))
      have hbound := cut.right 0
      omega
  · intro hv
    have hjoins := hdrawn.joins hv
    rwa [Nat.zero_add] at hjoins
  · intro c hc
    have hbox := hdrawn.boxed.contacts c hc
    omega

/-- A contact, then two branches of which the upper is shorter. -/
def threeDeep : LadderNode String :=
  .group "rung" .and [.contact "a", .group "fork" .or
    [.contact "b", .group "branch" .and [.contact "c", .contact "d"]]]

theorem threeDeep_normalized : normalize threeDeep = some threeDeep := by
  simp [threeDeep, normalize, normalizeAll, spliced, regroup]

/-- With the long branch closed the rung conducts. -/
theorem threeDeep_conducts :
    ∃ layout, layoutCondition (some threeDeep) = some layout ∧
      (Connected (fun id => id ≠ "b") layout (0, 0) (layout.width, 0) ↔
        holds (fun id => id ≠ "b") threeDeep = true) ∧
      layout.contacts.map LadderContact.id = nodeContacts threeDeep ∧
      (layout.contacts.map LadderContact.cell).Nodup ∧
      ∀ c ∈ layout.contacts, c.x < layout.width ∧ c.y < layout.height :=
  layoutCondition_conducts (fun id => id ≠ "b") threeDeep threeDeep threeDeep_normalized

end IotSaas.Editor
