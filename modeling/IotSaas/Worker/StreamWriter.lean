import IotSaas.Lib.Reach
import IotSaas.Rules.Model

/-!
# `Worker/StreamWriter.lean` — from the stream to the table

`stream_writer_loop` and the consumer group it reads through. The group hands an entry out once: a
read with id `>` returns entries never delivered to the group, a delivered entry stays pending until
it is acknowledged, and nothing in the loop ever reads or claims a pending one. The steps are the
loop's own — read, the flush's commit, the `XACK` after it — and the ways it ends: a flush
that fails, and a crash. `run()` gathers the loops, so the end of this one is the end of the
process, and the buffer with it.

An entry is identified by its position in the stream. The code's buffer holds rows only; here each
carries its position along, so that one can say which entry a row in the table came from.
-/

set_option autoImplicit false

namespace IotSaas.Worker

open Lib Rules

variable {F : Type}

namespace StreamWriter

/-- The fields of a stream entry. -/
abbrev Fields := Dict String String

/-- What `_row_from_stream_entry` uses of the standard library. `none` is a `ValueError`; no
writer of the stream produces a timestamp that overflows instead. -/
structure Parsers (F : Type) where
  float : String → Option F
  uuid : String → Option Uuid
  truthy : F → Bool
  fromTimestamp : F → Option Datetime

/-- `_TelemetryRow`. -/
structure TelemetryRow (F : Type) where
  time : Datetime
  tenantId : Uuid
  deviceId : Uuid
  metric : String
  value : F

/-- The time of a row; a missing, empty or zero timestamp means now. -/
def rowTime (parsers : Parsers F) (now : Datetime) (fields : Fields) : Option Datetime :=
  match fields.get "timestamp" with
  | none => some now
  | some text =>
      if text = "" then some now
      else
        match parsers.float text with
        | none => none
        | some ts => if parsers.truthy ts then parsers.fromTimestamp ts else some now

/-- `_row_from_stream_entry`. -/
def rowFromStreamEntry (parsers : Parsers F) (now : Datetime) (fields : Fields) :
    Option (TelemetryRow F) :=
  (rowTime parsers now fields).bind fun time =>
  ((fields.get "tenant_id").bind parsers.uuid).bind fun tenantId =>
  ((fields.get "device_id").bind parsers.uuid).bind fun deviceId =>
  (fields.get "metric").bind fun metric =>
  ((fields.get "value").bind parsers.float).bind fun value =>
  some
    { time := time
      tenantId := tenantId
      deviceId := deviceId
      metric := metric
      value := value }

/-- Whether an entry gives a row does not depend on the clock. -/
theorem rowFromStreamEntry_isSome (parsers : Parsers F) (now now' : Datetime) (fields : Fields) :
    (rowFromStreamEntry parsers now fields).isSome =
      (rowFromStreamEntry parsers now' fields).isSome := by
  have htime : (rowTime parsers now fields).isSome = (rowTime parsers now' fields).isSome := by
    unfold rowTime
    repeat' split
    all_goals rfl
  unfold rowFromStreamEntry
  cases h : rowTime parsers now fields with
  | none =>
    cases h' : rowTime parsers now' fields with
    | none => rfl
    | some time' => rw [h, h'] at htime; cases htime
  | some time =>
    cases h' : rowTime parsers now' fields with
    | none => rw [h, h'] at htime; cases htime
    | some time' =>
      rw [Option.bind_some, Option.bind_some]
      cases (fields.get "tenant_id").bind parsers.uuid <;>
        cases (fields.get "device_id").bind parsers.uuid <;>
        cases fields.get "metric" <;>
        cases (fields.get "value").bind parsers.float <;> rfl

/-- An entry the writer can store. -/
def WellFormed (parsers : Parsers F) (fields : Fields) : Prop :=
  (rowFromStreamEntry parsers 0 fields).isSome = true

/-- `_should_flush`. -/
def shouldFlush (buffered : Nat) (oldestAge : Int) (batchSize : Nat) (interval : Int) : Bool :=
  decide (batchSize ≤ buffered) || (decide (0 < buffered) && decide (interval ≤ oldestAge))

/-! ## The machine -/

inductive Pc where
  /-- No writer is running. -/
  | stopped
  /-- At `xreadgroup`. -/
  | reading
  /-- In `flush()`, before the commit. -/
  | flushing
  /-- In `flush()`, between the commit and the `XACK`. -/
  | acking
  deriving DecidableEq

structure State (F : Type) where
  stream : List Fields := []
  /-- How many entries the group has handed out: its last-delivered id. -/
  delivered : Nat := 0
  /-- Handed out and not acknowledged. -/
  pending : List Nat := []
  telemetry : List (Nat × TelemetryRow F) := []
  pc : Pc := .stopped
  buffer : List (Nat × TelemetryRow F) := []
  ackIds : List Nat := []

structure Settings where
  batchSize : Nat
  flushInterval : Int

inductive Event where
  | xadd (fields : Fields)
  | start
  /-- `xreadgroup` returns `n` entries; `age` is that of the oldest buffered row afterwards. -/
  | read (n : Nat) (now : Datetime) (age : Int)
  | commit
  | ack
  | flushFailure
  | crash

/-- The rows of the entries at positions `from`, `from + 1`, …: the malformed ones give none. -/
def rowsFrom (parsers : Parsers F) (now : Datetime) : Nat → List Fields →
    List (Nat × TelemetryRow F)
  | _, [] => []
  | i, fields :: rest =>
      match rowFromStreamEntry parsers now fields with
      | some row => (i, row) :: rowsFrom parsers now (i + 1) rest
      | none => rowsFrom parsers now (i + 1) rest

/-- The process is gone, and its memory with it. -/
def State.ended (s : State F) : State F :=
  { s with pc := .stopped, buffer := [], ackIds := [] }

def step (parsers : Parsers F) (settings : Settings) (s : State F) : Event → Option (State F)
  | .xadd fields => some { s with stream := s.stream ++ [fields] }
  | .start => if s.pc = .stopped then some { s with pc := .reading } else none
  | .read n now age =>
      if s.pc = .reading ∧ n ≤ settings.batchSize - s.buffer.length ∧
          s.delivered + n ≤ s.stream.length then
        -- id `>`: what the group has never delivered, and nothing else
        let messages := (s.stream.drop s.delivered).take n
        let ids := List.range' s.delivered n
        let buffer := s.buffer ++ rowsFrom parsers now s.delivered messages
        some { s with
          delivered := s.delivered + n
          pending := s.pending ++ ids
          buffer := buffer
          ackIds := s.ackIds ++ ids
          pc := if shouldFlush buffer.length age settings.batchSize settings.flushInterval then
              .flushing else .reading }
      else none
  | .commit =>
      if s.pc = .flushing then some { s with telemetry := s.telemetry ++ s.buffer, pc := .acking }
      else none
  | .ack =>
      if s.pc = .acking then
        some { s with
          pending := s.pending.filter (· ∉ s.ackIds)
          buffer := []
          ackIds := []
          pc := .reading }
      else none
  | .flushFailure => if s.pc = .flushing ∨ s.pc = .acking then some s.ended else none
  | .crash => if s.pc = .stopped then none else some s.ended

/-! ## Where an entry is -/

/-- Entry `i` is a row of the table. -/
def Stored (s : State F) (i : Nat) : Prop := ∃ row, (i, row) ∈ s.telemetry

/-- Entry `i` is in the running writer's buffer. -/
def Buffered (s : State F) (i : Nat) : Prop := s.pc ≠ .stopped ∧ ∃ row, (i, row) ∈ s.buffer

/-- Every well-formed entry is stored, or buffered, or will be returned by a read: which, with id
`>`, means that it has not been delivered yet. -/
def NothingLost (parsers : Parsers F) (s : State F) : Prop :=
  ∀ (i : Nat) (fields : Fields), s.stream[i]? = some fields → WellFormed parsers fields →
    Stored s i ∨ Buffered s i ∨ s.delivered ≤ i

/-- The writer ends, by a failed flush or a crash, only with its buffer empty or stored. -/
def EndsFlushed (s : State F) : Event → Prop
  | .flushFailure | .crash => ∀ i row, (i, row) ∈ s.buffer → Stored s i
  | _ => True

variable {parsers : Parsers F}

theorem mem_rowsFrom (now : Datetime) (k : Nat) {messages : List Fields} {i : Nat} {fields : Fields}
    (hi : messages[i]? = some fields) (hw : WellFormed parsers fields) :
    ∃ row, (k + i, row) ∈ rowsFrom parsers now k messages := by
  induction messages generalizing k i with
  | nil => simp at hi
  | cons head rest ih =>
    cases i with
    | zero =>
      obtain rfl : head = fields := by simpa using hi
      rw [WellFormed, rowFromStreamEntry_isSome parsers 0 now] at hw
      obtain ⟨row, hrow⟩ := Option.isSome_iff_exists.mp hw
      refine ⟨row, ?_⟩
      rw [rowsFrom, hrow]
      exact List.mem_cons_self
    | succ i =>
      obtain ⟨row, hrow⟩ := ih (k := k + 1) (by simpa using hi)
      have hidx : k + 1 + i = k + (i + 1) := by omega
      rw [hidx] at hrow
      refine ⟨row, ?_⟩
      rw [rowsFrom]
      split
      · exact List.mem_cons_of_mem _ hrow
      · exact hrow

/-- What every step keeps: nothing is lost, the group is not ahead of the stream, and between the
commit and the `XACK` the buffer is in the table. -/
structure Kept (parsers : Parsers F) (s : State F) : Prop where
  nothingLost : NothingLost parsers s
  delivered_le : s.delivered ≤ s.stream.length
  committed : s.pc = .acking → ∀ i row, (i, row) ∈ s.buffer → Stored s i

/-- Ending with everything stored loses nothing. -/
theorem Kept.ended {s : State F} (h : Kept parsers s)
    (ok : ∀ i row, (i, row) ∈ s.buffer → Stored s i) : Kept parsers s.ended := by
  refine ⟨fun i fields hi hw => ?_, h.delivered_le, fun hpc => by cases hpc⟩
  rcases h.nothingLost i fields hi hw with hs | ⟨_, row, hb⟩ | hd
  · exact .inl hs
  · exact .inl (ok i row hb)
  · exact .inr (.inr hd)

/-- A new entry is behind everything delivered. -/
theorem Kept.xadd {s : State F} (h : Kept parsers s) (fields : Fields) :
    Kept parsers { s with stream := s.stream ++ [fields] } := by
  refine ⟨fun i fields' hi hw => ?_, ?_, h.committed⟩
  · by_cases hlt : i < s.stream.length
    · exact h.nothingLost i fields' (by rwa [List.getElem?_append_left hlt] at hi) hw
    · exact .inr (.inr (Nat.le_trans h.delivered_le (by omega)))
  · have hle := h.delivered_le
    simp only [List.length_append, List.length_cons, List.length_nil]
    omega

/-- **A read puts what it takes into the buffer:** every well-formed entry among the `n` it is
given. -/
theorem kept_read {settings : Settings} {s s' : State F} {n : Nat} {now : Datetime} {age : Int}
    (h : Kept parsers s) (hs : step parsers settings s (.read n now age) = some s') :
    Kept parsers s' := by
  obtain ⟨hguard, hs⟩ := Option.ite_none_right_eq_some.mp hs
  obtain ⟨hpc, -, hlen⟩ := hguard
  cases hs
  refine ⟨fun i fields hi hw => ?_, hlen, fun hq => by split at hq <;> cases hq⟩
  have hrunning : (if shouldFlush
      (s.buffer ++ rowsFrom parsers now s.delivered
        ((s.stream.drop s.delivered).take n)).length age settings.batchSize
      settings.flushInterval then Pc.flushing else Pc.reading) ≠ .stopped := by
    split <;> simp
  rcases h.nothingLost i fields hi hw with hst | ⟨_, row, hb⟩ | hd
  · exact .inl hst
  · exact .inr (.inl ⟨hrunning, row, List.mem_append_left _ hb⟩)
  · by_cases hnew : i < s.delivered + n
    · -- among the entries of this read
      have hidx : s.delivered + (i - s.delivered) = i := by omega
      have hat : ((s.stream.drop s.delivered).take n)[i - s.delivered]? = some fields := by
        rw [List.getElem?_take_of_lt (by omega), List.getElem?_drop, hidx]
        exact hi
      obtain ⟨row, hrow⟩ := mem_rowsFrom now s.delivered hat hw
      rw [hidx] at hrow
      exact .inr (.inl ⟨hrunning, row, List.mem_append_right _ hrow⟩)
    · exact .inr (.inr (by dsimp only; omega))

theorem kept_step {settings : Settings} {s s' : State F} {e : Event} (h : Kept parsers s)
    (ok : EndsFlushed s e) (hs : step parsers settings s e = some s') :
    Kept parsers s' := by
  cases e with
  | xadd fields =>
    cases hs
    exact h.xadd fields
  | start =>
    obtain ⟨hpc, hs⟩ := Option.ite_none_right_eq_some.mp hs
    cases hs
    refine ⟨fun i fields hi hw => ?_, h.delivered_le, fun hq => by cases hq⟩
    rcases h.nothingLost i fields hi hw with hst | ⟨hne, _⟩ | hd
    · exact .inl hst
    · exact absurd hpc hne
    · exact .inr (.inr hd)
  | read n now age => exact kept_read h hs
  | commit =>
    obtain ⟨hpc, hs⟩ := Option.ite_none_right_eq_some.mp hs
    cases hs
    refine ⟨fun i fields hi hw => ?_, h.delivered_le,
      fun _ i row hb => ⟨row, List.mem_append_right _ hb⟩⟩
    rcases h.nothingLost i fields hi hw with ⟨row, hst⟩ | ⟨_, row, hb⟩ | hd
    · exact .inl ⟨row, List.mem_append_left _ hst⟩
    · exact .inl ⟨row, List.mem_append_right _ hb⟩
    · exact .inr (.inr hd)
  | ack =>
    obtain ⟨hpc, hs⟩ := Option.ite_none_right_eq_some.mp hs
    cases hs
    refine ⟨fun i fields hi hw => ?_, h.delivered_le, fun hq => by cases hq⟩
    rcases h.nothingLost i fields hi hw with hst | ⟨_, row, hb⟩ | hd
    · exact .inl hst
    · exact .inl (h.committed hpc i row hb)
    · exact .inr (.inr hd)
  | flushFailure =>
    obtain ⟨-, hs⟩ := Option.ite_none_right_eq_some.mp hs
    cases hs
    exact h.ended ok
  | crash =>
    obtain ⟨-, hs⟩ := Option.ite_none_left_eq_some.mp hs
    cases hs
    exact h.ended ok

/-- **Nothing is lost across restarts that end flushed:** over any interleaving of `XADD`s with
the writer's reads, flushes, acknowledgements, failures and crashes. -/
theorem nothing_lost (parsers : Parsers F) (settings : Settings) {s : State F}
    (h : Reaches (step parsers settings) EndsFlushed {} s) : NothingLost parsers s :=
  have hstart : Kept parsers {} :=
    ⟨fun _ _ hi => by simp at hi, Nat.le_refl 0, fun hq => by cases hq⟩
  (h.invariant hstart fun _ _ _ ih ok hs => kept_step ih ok hs).nothingLost

/-! ## One entry, one crash -/

/-- The standard library on the entry below. -/
def sampleParsers : Parsers Int where
  float text :=
    if text = "21" then some 21 else if text = "1700000000" then some 1700000000 else none
  uuid text := some text
  truthy n := decide (n ≠ 0)
  fromTimestamp n := some (seconds n)

def sampleSettings : Settings := { batchSize := 500, flushInterval := 1000000 }

def sampleFields : Fields :=
  ((((Dict.empty.set "tenant_id" "tenant").set "device_id" "device").set "metric"
    "temperature").set "value" "21").set "timestamp" "1700000000"

/-- Read, flushed and acknowledged before the crash. -/
theorem nothing_lost_flushed :
    NothingLost sampleParsers
      { stream := [sampleFields]
        delivered := 1
        telemetry := [(0, ⟨1700000000000000, "tenant", "device", "temperature", 21⟩)] } :=
  nothing_lost sampleParsers sampleSettings
    (.next (.next (.next (.next (.next (.next .start
      (e := .xadd sampleFields) trivial rfl) (e := .start) trivial rfl)
      (e := .read 1 0 1000000) trivial rfl) (e := .commit) trivial rfl) (e := .ack) trivial rfl)
      (e := .crash) (fun i row hb => by cases hb) rfl)

/-- **A crash between the read and the flush strands the entry:** delivered, pending, and in no
buffer and no table, where no read of the loop returns it. -/
theorem crash_strands :
    ¬ ∀ s : State Int, Reaches (step sampleParsers sampleSettings) Always {} s →
      NothingLost sampleParsers s := by
  intro h
  have hrun : run (step sampleParsers sampleSettings) {}
      [.xadd sampleFields, .start, .read 1 0 0, .crash, .start] =
      some { stream := [sampleFields], delivered := 1, pending := [0], pc := .reading } := rfl
  rcases h _ (.of_run hrun) 0 sampleFields rfl rfl with ⟨row, hst⟩ | ⟨_, row, hb⟩ | hd
  · cases hst
  · cases hb
  · cases hd

end StreamWriter

end IotSaas.Worker
