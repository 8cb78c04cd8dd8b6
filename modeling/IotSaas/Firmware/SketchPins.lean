import IotSaas.Firmware.SketchKeys

/-!
# `Firmware/SketchPins.lean` — the GPIOs handed out to a sketch

`defaultPins` gives each row the next GPIO of its pool, and GPIO 0 when the pool is used up. No GPIO
is given twice exactly where no row is left over, or one is and nobody else has GPIO 0
(`defaultPins_injective_iff`); of two boards it is in the pool of the outputs.
-/

set_option autoImplicit false

namespace IotSaas.Firmware.Sketch

open Lib Lib.CSource Catalog Editor Wiring

namespace SketchOptions

/-! ## What is handed out -/

/-- The GPIOs that some rows get, one after the other. -/
def given (pool : List Int) (i n : Nat) : List Int :=
  (List.range' i n).map fun k => pool.getD k 0

theorem handOut_values (mark : String) (pool : List Int) (ids : List String) (i : Nat)
    (out : JsMap String Int) (hnodup : ids.Nodup)
    (hfresh : ∀ id ∈ ids, mark ++ id ∉ out.items.map Prod.fst) :
    (handOut mark pool ids i out).items.map Prod.fst =
        out.items.map Prod.fst ++ ids.map (mark ++ ·) ∧
      (handOut mark pool ids i out).items.map Prod.snd =
        out.items.map Prod.snd ++ given pool i ids.length := by
  induction ids generalizing i out with
  | nil => simp [handOut, given]
  | cons id ids ih =>
    obtain ⟨hid, hids⟩ := List.nodup_cons.mp hnodup
    have hitems := JsMap.items_set_of_fresh (pool.getD i 0) (hfresh id List.mem_cons_self)
    have hrest : ∀ id' ∈ ids,
        mark ++ id' ∉ (out.set (mark ++ id) (pool.getD i 0)).items.map Prod.fst := by
      intro id' hid' hmem
      rw [hitems, List.map_append, List.mem_append] at hmem
      rcases hmem with hmem | hmem
      · exact hfresh id' (List.mem_cons_of_mem _ hid') hmem
      · rw [List.map_singleton, List.mem_singleton, String.append_right_inj] at hmem
        exact hid (hmem ▸ hid')
    obtain ⟨hkeys, hvalues⟩ := ih (i + 1) _ hids hrest
    rw [handOut, hkeys, hvalues, hitems]
    constructor
    · simp
    · simp [given, List.range'_succ]

/-- They are the pool's, and 0 for those left over. -/
theorem given_eq (pool : List Int) (n : Nat) :
    given pool 0 n = pool.take n ++ List.replicate (n - pool.length) 0 := by
  induction n with
  | zero => simp [given]
  | succ n ih =>
    have hsucc : given pool 0 (n + 1) = given pool 0 n ++ [pool.getD n 0] := by
      simp [given, List.range'_concat]
    rw [hsucc, ih]
    rcases Nat.lt_or_ge n pool.length with hlt | hge
    · rw [List.take_succ_eq_append_getElem hlt, List.getD_eq_getElem?_getD,
        List.getElem?_eq_getElem hlt, Option.getD_some]
      have hzero : n - pool.length = 0 := by omega
      have hzero' : n + 1 - pool.length = 0 := by omega
      simp [hzero, hzero']
    · rw [List.take_of_length_le hge, List.take_of_length_le (Nat.le_succ_of_le hge),
        List.getD_eq_getElem?_getD, List.getElem?_eq_none hge, Option.getD_none]
      have hsub : n + 1 - pool.length = n - pool.length + 1 := by omega
      rw [hsub, List.replicate_succ', List.append_assoc]

/-- No GPIO is in two places of a board's pools, and 0 is not for inputs. -/
theorem pools_nodup (board : Chip) : ((pools board).inputs ++ (pools board).outputs).Nodup ∧
    (0 : Int) ∉ (pools board).inputs := by
  cases board <;> decide

variable (js : Js) (info : SketchOptions)

/-- The rows that are left over when the pools are used up. -/
def leftOver : Nat :=
  ((info.inputIds js).length - (pools info.board).inputs.length) +
    ((info.outputIds js).length - (pools info.board).outputs.length)

/-- There are pins enough: no row is left over, or one is, and GPIO 0 is not an output's already. -/
def EnoughPins : Prop :=
  info.leftOver js = 0 ∨ info.leftOver js = 1 ∧
    (0 : Int) ∉ (pools info.board).outputs.take (info.outputIds js).length

theorem given_nodup_iff {ins outs : List Int} (hnodup : (ins ++ outs).Nodup)
    (hzero : (0 : Int) ∉ ins) (m n : Nat) : (given ins 0 m ++ given outs 0 n).Nodup ↔
      m - ins.length + (n - outs.length) = 0 ∨
        m - ins.length + (n - outs.length) = 1 ∧ (0 : Int) ∉ outs.take n := by
  rw [given_eq, given_eq]
  generalize hx : m - ins.length = x
  generalize hy : n - outs.length = y
  have hperm : (ins.take m ++ List.replicate x (0 : Int) ++
      (outs.take n ++ List.replicate y 0)).Perm
      (ins.take m ++ outs.take n ++ List.replicate (x + y) 0) := by
    rw [← List.replicate_append_replicate, ← List.append_assoc, ← List.append_assoc]
    apply List.Perm.append_right
    rw [List.append_assoc, List.append_assoc]
    exact List.perm_append_comm.append_left _
  have htaken : (ins.take m ++ outs.take n).Nodup :=
    hnodup.sublist ((List.take_sublist m ins).append (List.take_sublist n outs))
  have hout : (0 : Int) ∈ ins.take m ++ outs.take n ↔ (0 : Int) ∈ outs.take n := by
    rw [List.mem_append, or_iff_right fun h => hzero (List.mem_of_mem_take h)]
  rw [hperm.nodup_iff, List.nodup_append, and_iff_right htaken, List.nodup_replicate]
  rcases Nat.eq_zero_or_pos (x + y) with hnone | hpos
  · simp [hnone]
  · constructor
    · intro ⟨hle, hapart⟩
      refine .inr ⟨by omega, fun hmem => ?_⟩
      exact hapart 0 (hout.mpr hmem) 0 (List.mem_replicate.mpr ⟨by omega, rfl⟩) rfl
    · intro h
      rcases h with h | ⟨h, hnot⟩
      · omega
      · refine ⟨by omega, ?_⟩
        intro a ha b hb heq
        rw [(List.mem_replicate.mp hb).2] at heq
        exact hnot (hout.mp (heq ▸ ha))

variable {js} {info}

theorem defaultPins_injective_iff (h : info.KeyedWell js) :
    (∀ key key' pin, (info.defaultPins js).get key = some pin →
      (info.defaultPins js).get key' = some pin → key = key') ↔ info.EnoughPins js := by
  obtain ⟨hkeys, hvalues⟩ := handOut_values "m:" (pools info.board).inputs (info.inputIds js) 0
    .empty h.inputs_nodup (by simp [JsMap.empty])
  -- A key of an input is none of an output.
  have hfresh : ∀ id ∈ info.outputIds js, "a:" ++ id ∉ (handOut "m:" (pools info.board).inputs
      (info.inputIds js) 0 .empty).items.map Prod.fst := by
    intro id _ hmem
    rw [hkeys] at hmem
    obtain ⟨id', -, heq⟩ := List.mem_map.mp (by simpa [JsMap.empty] using hmem)
    have hhead := congrArg (fun s : String => s.toList.head?) heq
    simp [String.toList_append] at hhead
  obtain ⟨-, hall⟩ := handOut_values "a:" (pools info.board).outputs (info.outputIds js) 0 _
    (h.actuators_nodup.sublist outputIds_sublist) hfresh
  have hpools := pools_nodup info.board
  rw [JsMap.injective_iff]
  unfold defaultPins
  rw [hall, hvalues, show (JsMap.empty : JsMap String Int).items = [] from rfl, List.map_nil,
    List.nil_append]
  exact given_nodup_iff hpools.1 hpools.2 _ _

end SketchOptions

end IotSaas.Firmware.Sketch
