import IotSaas.Worker.StreamWriter

/-!
# `Worker/WriterRun.lean` — one run of the writer, exactly once

What `stream_writer_loop` does with the entries it is given, from its start to its first exception.
The two lists of the loop, the rows and the ids to acknowledge, are filled together and emptied
together, but not at the same rate: a malformed entry has an id and no row. Between the commit and
the return of the `XACK` the rows are in the table and still in the buffer, so what the buffer
holds *for the table* is `waiting`, which is empty there.

`wellFormedIds` is the yardstick: the positions of the well-formed entries handed out since the run
began, in stream order. `Exact` says that the table's new rows and the waiting ones are those,
one for one. An entry whose timestamp overflows raises, where the model reads it as malformed and
goes on: that only gives it more runs than the loop has up to its first exception.
-/

set_option autoImplicit false

namespace IotSaas.Worker

open Lib Rules

variable {F : Type}

namespace StreamWriter

/-- Whether the entry at position `i` is one the writer can store. -/
def wellFormedAt (parsers : Parsers F) (stream : List Fields) (i : Nat) : Bool :=
  match stream[i]? with
  | some fields => (rowFromStreamEntry parsers 0 fields).isSome
  | none => false

/-- The positions from `a` up to `b` that hold a well-formed entry, in order. -/
def wellFormedIds (parsers : Parsers F) (stream : List Fields) (a b : Nat) : List Nat :=
  (List.range' a (b - a)).filter (wellFormedAt parsers stream)

/-- The buffered rows the table does not have yet. -/
def waiting (s : State F) : List (Nat × TelemetryRow F) :=
  if s.pc = .acking then [] else s.buffer

theorem waiting_of_ne {s : State F} (h : s.pc ≠ .acking) : waiting s = s.buffer := by
  rw [waiting, if_neg h]

theorem waiting_acking {s : State F} (h : s.pc = .acking) : waiting s = [] := by
  rw [waiting, if_pos h]

/-- `row` is the row of the entry at position `i`, made at some time of the clock. -/
def RowOf (parsers : Parsers F) (stream : List Fields) (p : Nat × TelemetryRow F) : Prop :=
  ∃ now fields, stream[p.1]? = some fields ∧ rowFromStreamEntry parsers now fields = some p.2

/-- The steps of a running writer before its first exception, and the producers'. -/
def InRun (_ : State F) : Event → Prop
  | .start | .flushFailure | .crash => False
  | _ => True

/-! ## The yardstick -/

theorem mem_wellFormedIds {parsers : Parsers F} {stream : List Fields} {a b i : Nat} :
    i ∈ wellFormedIds parsers stream a b ↔
      (a ≤ i ∧ i < b) ∧ wellFormedAt parsers stream i = true := by
  have hrange : i ∈ List.range' a (b - a) ↔ a ≤ i ∧ i < b := by
    rw [List.mem_range'_1]
    omega
  rw [wellFormedIds, List.mem_filter, hrange]

/-- Each once, in stream order. -/
theorem wellFormedIds_sorted (parsers : Parsers F) (stream : List Fields) (a b : Nat) :
    (wellFormedIds parsers stream a b).Pairwise (· < ·) :=
  List.Pairwise.filter _ List.pairwise_lt_range'

theorem wellFormedIds_self (parsers : Parsers F) (stream : List Fields) (a : Nat) :
    wellFormedIds parsers stream a a = [] := by
  simp [wellFormedIds]

theorem wellFormedIds_append (parsers : Parsers F) (stream : List Fields) {a b : Nat} (n : Nat)
    (hab : a ≤ b) :
    wellFormedIds parsers stream a b ++ wellFormedIds parsers stream b (b + n) =
      wellFormedIds parsers stream a (b + n) := by
  have hlen : b + n - a = (b - a) + n := by omega
  have hmid : a + 1 * (b - a) = b := by omega
  have hrest : b + n - b = n := by omega
  unfold wellFormedIds
  rw [← List.filter_append, hlen, hrest, ← List.range'_append, hmid]

/-- Entries added behind `b` do not change what is before it. -/
theorem wellFormedIds_xadd (parsers : Parsers F) {stream : List Fields} (fields : Fields)
    {a b : Nat} (hb : b ≤ stream.length) :
    wellFormedIds parsers (stream ++ [fields]) a b = wellFormedIds parsers stream a b := by
  unfold wellFormedIds
  apply List.filter_congr
  intro i hi
  have hlt : i < stream.length := by
    rw [List.mem_range'_1] at hi
    omega
  rw [wellFormedAt, wellFormedAt, List.getElem?_append_left hlt]

/-! ## What a read puts into the buffer -/

/-- The positions of a batch's rows are those of its well-formed entries. -/
theorem rowsFrom_ids (parsers : Parsers F) (now : Datetime) (stream : List Fields) (n : Nat) :
    ∀ d, d + n ≤ stream.length →
      (rowsFrom parsers now d ((stream.drop d).take n)).map Prod.fst =
        wellFormedIds parsers stream d (d + n) := by
  induction n with
  | zero =>
    intro d _
    simp [rowsFrom, wellFormedIds_self]
  | succ n ih =>
    intro d hd
    have hlt : d < stream.length := by omega
    have hrest := ih (d + 1) (by omega)
    have hhead : wellFormedIds parsers stream d (d + 1) =
        if (rowFromStreamEntry parsers now stream[d]).isSome then [d] else [] := by
      rw [rowFromStreamEntry_isSome parsers now 0]
      simp [wellFormedIds, wellFormedAt, List.getElem?_eq_getElem hlt, List.filter_cons]
    rw [List.drop_eq_getElem_cons hlt, List.take_succ_cons, rowsFrom]
    rw [show d + (n + 1) = d + 1 + n by omega,
      ← wellFormedIds_append parsers stream n (Nat.le_succ d), hhead, ← hrest]
    cases rowFromStreamEntry parsers now stream[d] with
    | none => simp
    | some row => simp

theorem rowsFrom_rowOf (parsers : Parsers F) (now : Datetime) (stream : List Fields) (n : Nat) :
    ∀ d, ∀ p ∈ rowsFrom parsers now d ((stream.drop d).take n), RowOf parsers stream p := by
  induction n with
  | zero =>
    intro d p hp
    simp [rowsFrom] at hp
  | succ n ih =>
    intro d p hp
    by_cases hlt : d < stream.length
    · rw [List.drop_eq_getElem_cons hlt, List.take_succ_cons, rowsFrom] at hp
      cases hrow : rowFromStreamEntry parsers now stream[d] with
      | none =>
        rw [hrow] at hp
        exact ih (d + 1) p hp
      | some row =>
        rw [hrow] at hp
        rcases List.mem_cons.mp hp with rfl | hp
        · exact ⟨now, stream[d], List.getElem?_eq_getElem hlt, hrow⟩
        · exact ih (d + 1) p hp
    · rw [List.drop_eq_nil_of_le (by omega)] at hp
      simp [rowsFrom] at hp

/-! ## The history before the run

Whatever came before, a stopped writer has nothing in memory, and the table holds rows of delivered
entries only. -/

structure Sane (s : State F) : Prop where
  delivered_le : s.delivered ≤ s.stream.length
  stored_lt : ∀ p ∈ s.telemetry, p.1 < s.delivered
  buffered_lt : ∀ p ∈ s.buffer, p.1 < s.delivered
  stopped : s.pc = .stopped → s.buffer = [] ∧ s.ackIds = []

theorem Sane.ended {s : State F} (h : Sane s) : Sane s.ended :=
  ⟨h.delivered_le, h.stored_lt, fun _ hp => (by cases hp), fun _ => ⟨rfl, rfl⟩⟩

theorem rowsFrom_lt (parsers : Parsers F) (now : Datetime) (messages : List Fields) :
    ∀ d, ∀ p ∈ rowsFrom parsers now d messages, p.1 < d + messages.length := by
  induction messages with
  | nil =>
    intro d p hp
    cases hp
  | cons fields rest ih =>
    intro d p hp
    have hrest : ∀ q ∈ rowsFrom parsers now (d + 1) rest, q.1 < d + (fields :: rest).length := by
      intro q hq
      have hlt := ih (d + 1) q hq
      rw [List.length_cons]
      omega
    rw [rowsFrom] at hp
    split at hp
    · rcases List.mem_cons.mp hp with rfl | hp
      · simp
      · exact hrest p hp
    · exact hrest p hp

theorem sane_step {parsers : Parsers F} {settings : Settings} {s s' : State F} {e : Event}
    (h : Sane s) (hs : step parsers settings s e = some s') : Sane s' := by
  cases e with
  | xadd fields =>
    cases hs
    refine ⟨?_, h.stored_lt, h.buffered_lt, h.stopped⟩
    show s.delivered ≤ (s.stream ++ [fields]).length
    rw [List.length_append]
    exact Nat.le_add_right_of_le h.delivered_le
  | start =>
    obtain ⟨-, hs⟩ := Option.ite_none_right_eq_some.mp hs
    cases hs
    exact ⟨h.delivered_le, h.stored_lt, h.buffered_lt, fun hpc => by cases hpc⟩
  | read n now age =>
    obtain ⟨hguard, hs⟩ := Option.ite_none_right_eq_some.mp hs
    obtain ⟨_, _, hlen⟩ := hguard
    cases hs
    refine ⟨hlen, fun p hp => ?_, fun p hp => ?_, fun hpc => by split at hpc <;> cases hpc⟩
    · exact Nat.lt_add_right n (h.stored_lt p hp)
    · rcases List.mem_append.mp hp with hp | hp
      · exact Nat.lt_add_right n (h.buffered_lt p hp)
      · have hlt := rowsFrom_lt parsers now _ s.delivered p hp
        rw [List.length_take] at hlt
        exact Nat.lt_of_lt_of_le hlt (Nat.add_le_add_left (Nat.min_le_left _ _) _)
  | commit =>
    obtain ⟨-, hs⟩ := Option.ite_none_right_eq_some.mp hs
    cases hs
    refine ⟨h.delivered_le, fun p hp => ?_, h.buffered_lt, fun hpc => by cases hpc⟩
    rcases List.mem_append.mp hp with hp | hp
    · exact h.stored_lt p hp
    · exact h.buffered_lt p hp
  | ack =>
    obtain ⟨-, hs⟩ := Option.ite_none_right_eq_some.mp hs
    cases hs
    exact ⟨h.delivered_le, h.stored_lt, fun _ hp => (by cases hp), fun hpc => by cases hpc⟩
  | flushFailure =>
    obtain ⟨-, hs⟩ := Option.ite_none_right_eq_some.mp hs
    cases hs
    exact h.ended
  | crash =>
    obtain ⟨-, hs⟩ := Option.ite_none_left_eq_some.mp hs
    cases hs
    exact h.ended

theorem sane_of_reaches {parsers : Parsers F} {settings : Settings} {s : State F}
    (h : Reaches (step parsers settings) Always {} s) : Sane s :=
  have hempty : Sane ({} : State F) :=
    ⟨Nat.le_refl 0, fun _ hp => (nomatch hp), fun _ hp => (nomatch hp), fun _ => ⟨rfl, rfl⟩⟩
  h.invariant hempty fun _ _ _ ih _ hs => sane_step ih hs

/-! ## The run -/

/-- What a run that began in `s₁` keeps. -/
structure Exact (parsers : Parsers F) (settings : Settings) (s₁ s : State F) : Prop where
  running : s.pc ≠ .stopped
  delivered_ge : s₁.delivered ≤ s.delivered
  delivered_le : s.delivered ≤ s.stream.length
  /-- The new rows of the table, then the waiting ones: the well-formed entries, in order. -/
  rows : ∃ new, s.telemetry = s₁.telemetry ++ new ∧
    (new ++ waiting s).map Prod.fst =
      wellFormedIds parsers s.stream s₁.delivered s.delivered ∧
    ∀ p ∈ new ++ waiting s, RowOf parsers s.stream p
  /-- Between the commit and the `XACK` the buffer is what the table ends with. -/
  committed : s.pc = .acking → ∃ before, s.telemetry = before ++ s.buffer
  acked : ∀ i, s₁.delivered ≤ i → i < s.delivered → i ∉ s.pending →
    Stored s i ∨ wellFormedAt parsers s.stream i = false
  /-- The ids to acknowledge are of this run, and pending. -/
  unacked : ∀ i ∈ s.ackIds, i ∈ s.pending
  room : s.pc = .reading → s.buffer.length < settings.batchSize

section

variable {parsers : Parsers F} {settings : Settings} {s₁ s s' : State F}

/-- **The step of the argument:** what is well formed and in the table or waiting. -/
theorem Exact.stored_or_waiting (h : Exact parsers settings s₁ s) {i : Nat}
    (hlo : s₁.delivered ≤ i) (hhi : i < s.delivered)
    (hw : wellFormedAt parsers s.stream i = true) :
    Stored s i ∨ ∃ row, (i, row) ∈ waiting s := by
  obtain ⟨new, htel, hids, _⟩ := h.rows
  have hmem : i ∈ (new ++ waiting s).map Prod.fst := by
    rw [hids]
    exact mem_wellFormedIds.mpr ⟨⟨hlo, hhi⟩, hw⟩
  obtain ⟨⟨_, row⟩, hp, rfl⟩ := List.mem_map.mp hmem
  rcases List.mem_append.mp hp with hp | hp
  · left
    refine ⟨row, ?_⟩
    rw [htel]
    exact List.mem_append_right _ hp
  · exact .inr ⟨row, hp⟩

theorem RowOf.xadd {stream : List Fields} {p : Nat × TelemetryRow F}
    (h : RowOf parsers stream p) (fields : Fields) : RowOf parsers (stream ++ [fields]) p := by
  obtain ⟨now, fields', hat, hrow⟩ := h
  refine ⟨now, fields', ?_, hrow⟩
  obtain ⟨hlt, _⟩ := List.getElem?_eq_some_iff.mp hat
  rw [List.getElem?_append_left hlt]
  exact hat

theorem exact_xadd (h : Exact parsers settings s₁ s) (fields : Fields) :
    Exact parsers settings s₁ { s with stream := s.stream ++ [fields] } := by
  obtain ⟨new, htel, hids, hrow⟩ := h.rows
  refine ⟨h.running, h.delivered_ge, ?_, ⟨new, htel, ?_, ?_⟩, h.committed, ?_, h.unacked, h.room⟩
  · show s.delivered ≤ (s.stream ++ [fields]).length
    rw [List.length_append]
    exact Nat.le_add_right_of_le h.delivered_le
  · show (new ++ waiting s).map Prod.fst = _
    rw [hids]
    exact (wellFormedIds_xadd parsers fields h.delivered_le).symm
  · intro p hp
    exact (hrow p hp).xadd fields
  · intro i hlo hhi hack
    have hlt : i < s.stream.length := Nat.lt_of_lt_of_le hhi h.delivered_le
    have hsame : wellFormedAt parsers (s.stream ++ [fields]) i =
        wellFormedAt parsers s.stream i := by
      rw [wellFormedAt, wellFormedAt, List.getElem?_append_left hlt]
    show Stored s i ∨ wellFormedAt parsers (s.stream ++ [fields]) i = false
    rw [hsame]
    exact h.acked i hlo hhi hack

/-- **A read keeps the two lists in step:** its rows go behind the waiting ones, its ids are
pending, and either the loop flushes or there is room for the next read. -/
theorem exact_read {n : Nat} {now : Datetime} {age : Int} (h : Exact parsers settings s₁ s)
    (hs : step parsers settings s (.read n now age) = some s') :
    Exact parsers settings s₁ s' := by
  obtain ⟨hguard, hs⟩ := Option.ite_none_right_eq_some.mp hs
  obtain ⟨hpc, _, hlen⟩ := hguard
  cases hs
  obtain ⟨new, htel, hids, hrow⟩ := h.rows
  rw [waiting_of_ne (by simp [hpc])] at hids hrow
  refine ⟨fun hq => (by split at hq <;> cases hq), Nat.le_add_right_of_le h.delivered_ge, hlen,
    ⟨new, htel, ?_, ?_⟩, fun hq => (by split at hq <;> cases hq), ?_, ?_, ?_⟩
  · rw [waiting_of_ne (by dsimp only; split <;> simp)]
    show (new ++ (s.buffer ++ _)).map Prod.fst = _
    rw [← List.append_assoc, List.map_append, hids, rowsFrom_ids parsers now s.stream n _ hlen]
    exact wellFormedIds_append parsers s.stream n h.delivered_ge
  · intro p hp
    rw [waiting_of_ne (by dsimp only; split <;> simp)] at hp
    dsimp only at hp
    rw [← List.append_assoc] at hp
    rcases List.mem_append.mp hp with hold | hnew
    · exact hrow p hold
    · exact rowsFrom_rowOf parsers now s.stream n s.delivered p hnew
  · intro i hlo hhi hack
    have hhi : i < s.delivered + n := hhi
    have hack : i ∉ s.pending ++ List.range' s.delivered n := hack
    rw [List.mem_append, List.mem_range'_1, not_or] at hack
    exact h.acked i hlo (by omega) hack.1
  · intro i hi
    rcases List.mem_append.mp hi with hi | hi
    · exact List.mem_append_left _ (h.unacked i hi)
    · exact List.mem_append_right _ hi
  · intro hq
    -- still reading: the flush was not due, so the buffer is not full
    show (s.buffer ++ _).length < settings.batchSize
    split at hq
    · cases hq
    · rename_i hflush
      simp only [shouldFlush, Bool.or_eq_true, decide_eq_true_eq, not_or] at hflush
      exact Nat.lt_of_not_le hflush.1

theorem exact_commit (h : Exact parsers settings s₁ s)
    (hs : step parsers settings s .commit = some s') : Exact parsers settings s₁ s' := by
  obtain ⟨hpc, hs⟩ := Option.ite_none_right_eq_some.mp hs
  cases hs
  obtain ⟨new, htel, hids, hrow⟩ := h.rows
  rw [waiting_of_ne (by simp [hpc])] at hids hrow
  refine ⟨fun hq => (by cases hq), h.delivered_ge, h.delivered_le, ⟨new ++ s.buffer, ?_, ?_, ?_⟩,
    fun _ => ⟨s.telemetry, rfl⟩, ?_, h.unacked, fun hq => (by cases hq)⟩
  · show s.telemetry ++ s.buffer = _
    rw [htel, List.append_assoc]
  · show ((new ++ s.buffer) ++ []).map Prod.fst = _
    rw [List.append_nil]
    exact hids
  · intro p hp
    have hp : p ∈ (new ++ s.buffer) ++ [] := hp
    rw [List.append_nil] at hp
    exact hrow p hp
  · intro i hlo hhi hack
    rcases h.acked i hlo hhi hack with ⟨row, hst⟩ | hw
    · exact .inl ⟨row, List.mem_append_left _ hst⟩
    · exact .inr hw

theorem exact_ack (hsize : 0 < settings.batchSize) (h : Exact parsers settings s₁ s)
    (hs : step parsers settings s .ack = some s') : Exact parsers settings s₁ s' := by
  obtain ⟨hpc, hs⟩ := Option.ite_none_right_eq_some.mp hs
  cases hs
  have hwait : waiting s = [] := waiting_acking hpc
  obtain ⟨new, htel, hids, hrow⟩ := h.rows
  rw [hwait] at hids hrow
  refine ⟨fun hq => (by cases hq), h.delivered_ge, h.delivered_le, ⟨new, htel, hids, hrow⟩,
    fun hq => (by cases hq), ?_, fun _ hi => (by cases hi), fun _ => hsize⟩
  -- nothing waits, so whatever is acknowledged here is in the table or malformed
  intro i hlo hhi _
  show Stored s i ∨ wellFormedAt parsers s.stream i = false
  cases hw : wellFormedAt parsers s.stream i with
  | false => exact .inr rfl
  | true =>
    rcases h.stored_or_waiting hlo hhi hw with hst | ⟨row, hrow⟩
    · exact .inl hst
    · rw [hwait] at hrow
      cases hrow

theorem exact_step {e : Event} (hsize : 0 < settings.batchSize)
    (h : Exact parsers settings s₁ s) (ok : InRun s e)
    (hs : step parsers settings s e = some s') : Exact parsers settings s₁ s' := by
  cases e with
  | xadd fields =>
    cases hs
    exact exact_xadd h fields
  | start => exact ok.elim
  | read n now age => exact exact_read h hs
  | commit => exact exact_commit h hs
  | ack => exact exact_ack hsize h hs
  | flushFailure => exact ok.elim
  | crash => exact ok.elim

/-- A run begins with nothing handed out and nothing waiting. -/
theorem exact_start {s₀ : State F} (hsize : 0 < settings.batchSize) (h₀ : Sane s₀)
    (hs : step parsers settings s₀ .start = some s₁) : Exact parsers settings s₁ s₁ := by
  obtain ⟨hpc, hs⟩ := Option.ite_none_right_eq_some.mp hs
  cases hs
  obtain ⟨hbuffer, hids⟩ := h₀.stopped hpc
  have hwait : waiting { s₀ with pc := .reading } = [] := by
    simp [waiting, hbuffer]
  refine ⟨fun hq => (by cases hq), Nat.le_refl _, h₀.delivered_le, ⟨[], ?_, ?_, ?_⟩,
    fun hq => (by cases hq), ?_, ?_, fun _ => ?_⟩
  · exact (List.append_nil _).symm
  · rw [hwait, wellFormedIds_self]
    rfl
  · rw [hwait]
    intro p hp
    cases hp
  · intro i hlo hhi
    exact absurd hlo (Nat.not_le_of_lt hhi)
  · intro i hi
    have hi : i ∈ s₀.ackIds := hi
    rw [hids] at hi
    cases hi
  · show s₀.buffer.length < settings.batchSize
    rw [hbuffer]
    exact hsize

/-- **A transaction that fails stores and acknowledges nothing of its batch.** -/
theorem Exact.failed_flush (h₁ : Sane s₁) (h : Exact parsers settings s₁ s)
    (hpc : s.pc = .flushing) (hs : step parsers settings s .flushFailure = some s') :
    (∀ p ∈ s.buffer, ¬ Stored s' p.1) ∧ ∀ i ∈ s.ackIds, i ∈ s'.pending := by
  obtain ⟨-, hs⟩ := Option.ite_none_right_eq_some.mp hs
  cases hs
  refine ⟨fun p hp hst => ?_, h.unacked⟩
  obtain ⟨row, hst⟩ := hst
  obtain ⟨new, htel, hids, _⟩ := h.rows
  rw [waiting_of_ne (by simp [hpc])] at hids
  have hsorted := wellFormedIds_sorted parsers s.stream s₁.delivered s.delivered
  have hst : (p.1, row) ∈ s.telemetry := hst
  rw [htel] at hst
  rcases List.mem_append.mp hst with hold | hnew
  · -- a row from before the run has a smaller position
    have hin : p.1 ∈ wellFormedIds parsers s.stream s₁.delivered s.delivered := by
      rw [← hids, List.map_append]
      exact List.mem_append_right _ (List.mem_map_of_mem hp)
    have hge := (mem_wellFormedIds.mp hin).1.1
    exact absurd (h₁.stored_lt _ hold) (Nat.not_lt_of_le hge)
  · -- and one of this run would be in the order twice
    rw [← hids, List.map_append, List.pairwise_append] at hsorted
    have hlt := hsorted.2.2 p.1 (List.mem_map.mpr ⟨_, hnew, rfl⟩) p.1 (List.mem_map_of_mem hp)
    exact absurd hlt (Nat.lt_irrefl _)

end

/-- **Exactly once within a run.** From any start of the writer, and for every interleaving of the
producers' `XADD`s with its reads, commits and acknowledgements: the table's new rows and the
waiting ones are the well-formed entries handed out, in order and each once; what is acknowledged is
stored or malformed; a failed transaction leaves its batch unstored and pending; and every read has
room. -/
theorem exactly_once (parsers : Parsers F) (settings : Settings) (hsize : 0 < settings.batchSize)
    {s₀ s₁ s : State F} (h₀ : Reaches (step parsers settings) Always {} s₀)
    (hstart : step parsers settings s₀ .start = some s₁)
    (h : Reaches (step parsers settings) InRun s₁ s) :
    (∃ new, s.telemetry = s₁.telemetry ++ new ∧
      (new ++ waiting s).map Prod.fst =
        wellFormedIds parsers s.stream s₁.delivered s.delivered ∧
      ∀ p ∈ new ++ waiting s, RowOf parsers s.stream p) ∧
    (s.pc = .acking → ∃ before, s.telemetry = before ++ s.buffer) ∧
    (∀ i, s₁.delivered ≤ i → i < s.delivered → i ∉ s.pending →
      Stored s i ∨ wellFormedAt parsers s.stream i = false) ∧
    (s.pc = .flushing → ∀ s', step parsers settings s .flushFailure = some s' →
      (∀ p ∈ s.buffer, ¬ Stored s' p.1) ∧ ∀ i ∈ s.ackIds, i ∈ s'.pending) ∧
    (s.pc = .reading → s.buffer.length < settings.batchSize) := by
  have hsane := sane_of_reaches h₀
  have hexact : Exact parsers settings s₁ s :=
    h.invariant (exact_start hsize hsane hstart) fun _ _ _ ih ok hs => exact_step hsize ih ok hs
  refine ⟨hexact.rows, hexact.committed, hexact.acked, fun hpc s' hs => ?_, hexact.room⟩
  exact hexact.failed_flush (sane_step hsane hstart) hpc hs

/-- One entry, read, committed and acknowledged. -/
theorem exactly_once_sample :
    ∃ new : List (Nat × TelemetryRow Int),
      [(0, ⟨1700000000000000, "tenant", "device", "temperature", 21⟩)] = [] ++ new ∧
      (new ++ []).map Prod.fst = wellFormedIds sampleParsers [sampleFields] 0 1 ∧
      ∀ p ∈ new ++ [], RowOf sampleParsers [sampleFields] p :=
  have hadded : Reaches (step sampleParsers sampleSettings) Always {}
      { stream := [sampleFields] } :=
    .next .start (e := .xadd sampleFields) trivial rfl
  have hstart : step sampleParsers sampleSettings { stream := [sampleFields] } .start =
      some { stream := [sampleFields], pc := .reading } := rfl
  (exactly_once sampleParsers sampleSettings (by decide) hadded hstart
    (.next (.next (.next .start (e := .read 1 0 1000000) trivial rfl) (e := .commit) trivial rfl)
      (e := .ack) trivial rfl)).1

/-- **Neither the buffer nor the batch size is unconditional.** While the `XACK` of a committed
batch is awaited its row is in the table and in the buffer, so the two together hold it twice; and
with a batch size of zero the first read already finds no room. -/
theorem committed_still_buffered :
    (¬ ∀ s : State Int,
      Reaches (step sampleParsers sampleSettings) InRun { stream := [sampleFields], pc := .reading }
        s →
      (s.telemetry ++ s.buffer).map Prod.fst = wellFormedIds sampleParsers s.stream 0 s.delivered) ∧
    ¬ ∀ s : State Int,
      Reaches (step sampleParsers { sampleSettings with batchSize := 0 }) InRun { pc := .reading }
        s →
      s.pc = .reading → s.buffer.length < 0 := by
  constructor
  · intro h
    have htwice := h _ (.next (.next .start (e := .read 1 0 1000000) trivial rfl) (e := .commit)
      trivial rfl)
    exact absurd htwice (by decide)
  · intro h
    exact absurd (h _ .start rfl) (Nat.lt_irrefl 0)

end StreamWriter

end IotSaas.Worker
