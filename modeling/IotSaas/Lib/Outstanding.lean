import Mathlib.Data.List.Basic

/-!
# `Lib/Outstanding.lean` — writes decided on and not yet carried out

Several agents write to one store. Each write is decided on at one moment and carried out at a
later one, and in between the others go on. `writes` lists the outstanding ones in the order they
were decided on; an agent carries its own out oldest first, but two agents may overtake each
other. `settled` is what a key holds once everything outstanding has been carried out in the order
of the decisions, and `settled_carriedOut` says that carrying one write out leaves that value alone
unless it overtakes a different value for its own key.
-/

set_option autoImplicit false

namespace IotSaas.Lib

/-- A write of `value` under `key`, owed by `agent`. -/
structure Write (A K V : Type*) where
  agent : A
  key : K
  value : V
  deriving DecidableEq

namespace Outstanding

variable {A K V : Type*} [DecidableEq A] [DecidableEq K]

/-- What `key` holds in the end when it holds `v` now. -/
def settled : List (Write A K V) → K → V → V
  | [], _, v => v
  | w :: rest, key, v => settled rest key (if w.key = key then w.value else v)

omit [DecidableEq A] in
@[simp] theorem settled_nil (key : K) (v : V) :
    settled ([] : List (Write A K V)) key v = v := rfl

omit [DecidableEq A] in
theorem settled_append (writes later : List (Write A K V)) (key : K) :
    ∀ v, settled (writes ++ later) key v = settled later key (settled writes key v) := by
  induction writes with
  | nil =>
    intro v
    rfl
  | cons w rest ih =>
    intro v
    exact ih _

variable {writes : List (Write A K V)}

omit [DecidableEq A] in
/-- Writes of the value that is there already change nothing. -/
theorem settled_of_agree {key : K} {v : V} (h : ∀ w ∈ writes, w.key = key → w.value = v) :
    settled writes key v = v := by
  induction writes with
  | nil => rfl
  | cons w rest ih =>
    have hrest := ih fun o ho => h o (List.mem_cons_of_mem _ ho)
    show settled rest key (if w.key = key then w.value else v) = v
    by_cases hk : w.key = key
    · rw [if_pos hk, h w List.mem_cons_self hk]
      exact hrest
    · rw [if_neg hk]
      exact hrest

/-! ## Carrying one out -/

/-- The agent's oldest write. -/
def next (agent : A) (writes : List (Write A K V)) : Option (Write A K V) :=
  writes.find? fun w => w.agent = agent

/-- What is outstanding after it. -/
def rest (agent : A) (writes : List (Write A K V)) : List (Write A K V) :=
  writes.eraseP fun w => w.agent = agent

/-- Nothing older writes another value under the key of the agent's next write. -/
def InOrder (agent : A) (writes : List (Write A K V)) : Prop :=
  ∀ before w after, writes = before ++ w :: after → w.agent = agent →
    (∀ o ∈ before, o.agent ≠ agent) → ∀ o ∈ before, o.key = w.key → o.value = w.value

variable {agent : A}

omit [DecidableEq K] in
theorem next_split {w : Write A K V} (h : next agent writes = some w) :
    ∃ before after, writes = before ++ w :: after ∧ rest agent writes = before ++ after ∧
      w.agent = agent ∧ ∀ o ∈ before, o.agent ≠ agent := by
  unfold next at h
  obtain ⟨hw, before, after, rfl, hbefore⟩ := List.find?_eq_some_iff_append.mp h
  have hagent : w.agent = agent := by simpa using hw
  have hothers : ∀ o ∈ before, o.agent ≠ agent := by
    intro o ho
    simpa using hbefore o ho
  refine ⟨before, after, rfl, ?_, hagent, hothers⟩
  unfold rest
  rw [List.eraseP_append_right _ (by simpa using hothers), List.eraseP_cons_of_pos (by simpa)]

/-- **A write carried out in order** leaves what every key settles at. -/
theorem settled_carriedOut {w : Write A K V} (hnext : next agent writes = some w)
    (horder : InOrder agent writes) (key : K) (v : V) :
    settled (rest agent writes) key (if w.key = key then w.value else v) =
      settled writes key v := by
  obtain ⟨before, after, hsplit, hrest, hagent, hothers⟩ := next_split hnext
  rw [hrest, hsplit, settled_append, settled_append]
  show _ = settled after key (if w.key = key then w.value else settled before key v)
  congr 1
  by_cases hk : w.key = key
  · rw [if_pos hk, if_pos hk]
    apply settled_of_agree
    intro o ho hok
    exact horder before w after hsplit hagent hothers o ho (hok.trans hk.symm)
  · rw [if_neg hk, if_neg hk]

omit [DecidableEq K] in
theorem mem_of_mem_rest {o : Write A K V} (h : o ∈ rest agent writes) :
    o ∈ writes := List.mem_of_mem_eraseP h

omit [DecidableEq A] [DecidableEq K] in
/-- A write that is the only one overtakes none. -/
theorem inOrder_of_length_le_one (h : writes.length ≤ 1) : InOrder agent writes := by
  rintro before w after rfl - - o ho
  rw [List.length_append, List.length_cons] at h
  have hnil : before = [] := List.length_eq_zero_iff.mp (by omega)
  rw [hnil] at ho
  cases ho

/-! ## Agents that owe one write at most -/

/-- The agent owes at most one. -/
def AtMostOne (agent : A) (writes : List (Write A K V)) : Prop :=
  writes.countP (fun w => w.agent = agent) ≤ 1

omit [DecidableEq K] in
/-- Once its only write is carried out it owes none. -/
theorem AtMostOne.rest_none (h : AtMostOne agent writes) {o : Write A K V}
    (ho : o ∈ rest agent writes) :
    o.agent ≠ agent := by
  cases hnext : next agent writes with
  | none =>
    have hnone := List.find?_eq_none.mp hnext o (mem_of_mem_rest ho)
    simpa using hnone
  | some w =>
    obtain ⟨before, after, rfl, hrest, hagent, _⟩ := next_split hnext
    unfold AtMostOne at h
    rw [List.countP_append, List.countP_cons_of_pos (by simpa)] at h
    have hzero : (rest agent (before ++ w :: after)).countP (fun w => w.agent = agent) = 0 := by
      rw [hrest, List.countP_append]
      omega
    simpa using List.countP_eq_zero.mp hzero o ho

omit [DecidableEq K] in
theorem AtMostOne.rest (h : AtMostOne agent writes) (other : A) :
    AtMostOne agent (rest other writes) :=
  Nat.le_trans List.eraseP_sublist.countP_le h

omit [DecidableEq K] in
/-- An agent that owes nothing may decide on one. -/
theorem atMostOne_issue (w : Write A K V) (h : AtMostOne agent writes)
    (hfree : w.agent = agent → ∀ o ∈ writes, o.agent ≠ agent) :
    AtMostOne agent (writes ++ [w]) := by
  unfold AtMostOne at *
  rw [List.countP_append]
  by_cases hw : w.agent = agent
  · have hzero : writes.countP (fun w => w.agent = agent) = 0 :=
      List.countP_eq_zero.mpr (by simpa using hfree hw)
    rw [hzero, Nat.zero_add]
    exact List.countP_le_length
  · have hnone : [w].countP (fun w => w.agent = agent) = 0 :=
      List.countP_eq_zero.mpr (by simpa using hw)
    rw [hnone, Nat.add_zero]
    exact h

end Outstanding

end IotSaas.Lib
