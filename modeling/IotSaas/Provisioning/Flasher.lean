import Mathlib.Algebra.GroupWithZero.Nat
import Mathlib.Data.List.Forall2
import Mathlib.Data.List.Infix
import Mathlib.Data.List.Perm.Subperm

/-!
# `Provisioning/Flasher.lean` — installing the firmware from the browser

`lib/hardware/flasher.ts`: what is written, and the loop of `flashBoard`, which steps down a ladder
of speeds while the link drops. What the board does is given from outside, attempt by attempt
(`Attempt`): esptool erases whole sectors, and a write that fails may leave anything in the ones it
was to write, but nothing elsewhere (`Honest`).

Every call of `writeFlash` is logged with the chip that had answered. However many attempts it takes
and wherever they break off, all calls are on the chip that was picked, with the same verified files;
only the sectors of these are ever touched; and an install that succeeds has every file in its place,
if no two of them share a sector (`flashBoard_safe`). The last is up to the manifest: esptool erases
by the sector, so of two files in one the second blanks what the first has left there. A run never
takes more than four attempts from the top of the ladder, each slower than the last (`tried_slower`).
-/

set_option autoImplicit false

namespace IotSaas.Provisioning.Flasher

abbrev Bytes := List UInt8

/-- The board's flash. -/
abbrev Memory := Nat → UInt8

structure ManifestPart where
  path : String
  offset : Nat
  size : Nat
  sha256 : String

structure Area where
  offset : Nat
  size : Nat

/-- `manifest.boards[board]`, in what is read of it here. -/
structure Target where
  chip : String
  parts : List ManifestPart
  cfg : Area
  nvs : Option Area

inductive FlashStage where
  | connecting | downloading | writing | restarting | done
  deriving DecidableEq

inductive Mode where
  | full | config
  deriving DecidableEq

structure FlashFile where
  name : String
  data : Bytes
  address : Nat

/-- An `Error` that is no `FlashError`. -/
structure RawError where
  message : String
  name : String := "Error"

structure FlashError where
  message : String
  stage : FlashStage
  retryable : Bool

inductive Thrown where
  | raw (e : RawError)
  | flash (e : FlashError)

/-- What `fetch` comes back with. -/
inductive Response where
  | rejected (e : RawError)
  | status (code : Nat)
  | body (data : Bytes)

/-- `fetchPart`; `sha` is `crypto.subtle.digest`, in hex. -/
def fetchPart (sha : Bytes → String) (part : ManifestPart) : Response → Except RawError Bytes
  | .rejected e => .error e
  | .status code =>
      .error { message := "Couldn't download " ++ part.path ++ " (" ++ toString code ++ ")." }
  | .body data =>
      if sha data = part.sha256 then .ok data
      else .error
        { message := part.path ++ " is corrupt (checksum mismatch). Reload and try again." }

/-- The note of a release that is too old to erase the Wi-Fi. -/
def nvsUnknown : String :=
  "This firmware release doesn't say where the saved Wi-Fi is, so it was kept."

/-- `flashFiles`. -/
def flashFiles (target : Target) (mode : Mode) (parts : List FlashFile) (configBlob : Bytes)
    (eraseWifi : Bool) : List FlashFile × List String :=
  let firmware := if mode = .full then parts else []
  let blank : List FlashFile × List String :=
    if mode = .full ∧ eraseWifi = true then
      match target.nvs with
      | some nvs => ([⟨"saved Wi-Fi (erased)", List.replicate nvs.size 255, nvs.offset⟩], [])
      | none => ([], [nvsUnknown])
    else ([], [])
  (firmware ++ blank.1 ++ [⟨"device config", configBlob, target.cfg.offset⟩], blank.2)

/-! ## Failures -/

/-- A regular expression of words, `/…|…/i`. -/
def mentions (words : List String) (text : String) : Bool :=
  words.any fun word => decide (word.toList <:+: text.toList.map Char.toLower)

/-- `explainFlashError`. -/
def explainFlashError (err : Thrown) (stage : FlashStage) (synced : Bool) : FlashError :=
  match err with
  | .flash e => e
  | .raw e =>
      if mentions ["failed to open serial port", "port is already open"] e.message = true ∨
          e.name = "InvalidStateError" then
        ⟨"The board's COM port is busy. Close any serial monitor using it (Arduino IDE, PuTTY, " ++
          "pio device monitor), then try again. If none is open, unplug the board and plug it in " ++
          "again.", stage, false⟩
      else if mentions ["device has been lost", "disconnected"] e.message = true ∨
          e.name = "NetworkError" then
        ⟨"The board disconnected. Check the USB cable, plug the board in again, and try again.",
          stage, false⟩
      else if stage = .connecting ∧ synced = true then
        ⟨"The board answered, then stopped responding. Unplug anything wired to GPIO 0, 2, 12 or " ++
          "15, use a USB port on the computer itself (not a hub), and try again.", stage, false⟩
      else if stage = .connecting then
        ⟨"The board didn't answer. Hold its BOOT button while you click Install, and let go once " ++
          "the progress starts.", stage, false⟩
      else ⟨e.message, stage, decide (stage = .writing)⟩

/-- `BAUD_LADDER`. -/
def baudLadder : List Nat := [921600, 460800, 115200]

/-- `nextSlower`. -/
def nextSlower (baud : Nat) : Option Nat := baudLadder.find? fun b => decide (b < baud)

/-- `nextAttempt`. -/
def nextAttempt (stage : FlashStage) (synced retryable : Bool) (baud : Nat) : Option Nat :=
  if stage = .connecting ∧ synced = true ∨ stage = .writing ∧ retryable = true then nextSlower baud
  else none

/-! ## An attempt -/

/-- What an attempt meets. -/
structure Attempt where
  /-- `loader.main()`: the chip's name, or an error and whether the chip is known by then. -/
  main : Except (RawError × Bool) String
  response : ManifestPart → Response
  /-- What is in the flash once `writeFlash` is over, with or without an error. -/
  write : Memory → List FlashFile → Memory
  writeError : Option RawError
  /-- Progress was reported before the write failed. -/
  reported : Bool
  /-- `loader.after("hard_reset")`. -/
  resetError : Option RawError

structure FlashOptions where
  target : Target
  mode : Mode
  configBlob : Bytes
  eraseWifi : Bool
  baudrate : Option Nat
  sha : Bytes → String

/-- A call of `writeFlash`: the chip that has answered in this attempt, and what is to be written. -/
structure Write where
  chip : String
  files : List FlashFile

/-- The board's flash and the speed that last worked on its port; and the log of the speeds that were
tried and of the writes. -/
structure World where
  memory : Memory
  goodBaud : Option Nat := none
  tried : List Nat := []
  writes : List Write := []

structure FlashTimings where
  bytes : Nat
  baudrate : Nat
  wifiErased : Bool
  notes : List String

/-- The downloads of a full install; a config-only update has none. -/
def downloadParts (opts : FlashOptions) (x : Attempt) : Except RawError (List FlashFile) :=
  if opts.mode = .full then
    opts.target.parts.mapM fun part => do
      let data ← fetchPart opts.sha part (x.response part)
      pure ⟨part.path, data, part.offset⟩
  else .ok []

/-- `parts ??= …`. -/
def haveParts (opts : FlashOptions) (x : Attempt) :
    Option (List FlashFile) → Except RawError (List FlashFile)
  | some parts => .ok parts
  | none => downloadParts opts x

/-- The body of the loop: the files it has from now on, the world, and how it ended. A failure has
the stage it was at and `synced`. -/
def attempt (opts : FlashOptions) (x : Attempt) (parts : Option (List FlashFile)) (baud : Nat)
    (w : World) : Option (List FlashFile) × World ×
      Except (Thrown × FlashStage × Bool) FlashTimings :=
  let w := { w with tried := w.tried ++ [baud] }
  match x.main with
  | .error (e, known) => (parts, w, .error (.raw e, .connecting, known))
  | .ok chip =>
      if chip ≠ opts.target.chip then
        (parts, w, .error
          (.flash ⟨"This board is an " ++ chip ++ ", but you picked " ++ opts.target.chip ++
            ". Pick the matching board and try again.", .connecting, false⟩, .connecting, true))
      else
        match haveParts opts x parts with
        | .error e => (parts, w, .error (.raw e, .downloading, true))
        | .ok parts =>
            let plan := flashFiles opts.target opts.mode parts opts.configBlob opts.eraseWifi
            let w := { w with
              memory := x.write w.memory plan.1
              writes := w.writes ++ [⟨chip, plan.1⟩] }
            match x.writeError with
            | some e =>
                (some parts, w, .error
                  (.raw e, if x.reported = true then .writing else .downloading, true))
            | none =>
                match x.resetError with
                | some e => (some parts, w, .error (.raw e, .restarting, true))
                | none =>
                    (some parts, { w with goodBaud := some baud }, .ok
                      { bytes := (plan.1.map (·.data.length)).sum
                        baudrate := baud
                        wifiErased := opts.target.nvs.any fun nvs =>
                          plan.1.any fun f => f.address = nvs.offset
                        notes := plan.2 })

/-- The speed to go on with. -/
def goesOn (thrown : Thrown) (stage : FlashStage) (synced : Bool) (baud : Nat) : Option Nat :=
  match thrown with
  | .flash _ => none
  | .raw _ => nextAttempt stage synced (explainFlashError thrown stage synced).retryable baud

theorem nextSlower_lt {baud next : Nat} (h : nextSlower baud = some next) :
    next < baud ∧ next ∈ baudLadder := by
  refine ⟨?_, List.mem_of_find?_eq_some h⟩
  simpa using List.find?_some h

theorem goesOn_lt {thrown : Thrown} {stage : FlashStage} {synced : Bool} {baud next : Nat}
    (h : goesOn thrown stage synced baud = some next) : next < baud ∧ next ∈ baudLadder := by
  unfold goesOn nextAttempt at h
  split at h
  · cases h
  · split at h
    · exact nextSlower_lt h
    · cases h

/-- The loop of `flashBoard`. -/
def flashLoop (opts : FlashOptions) (attempts : Nat → Attempt) (n : Nat)
    (parts : Option (List FlashFile)) (baud : Nat) (w : World) :
    Except Thrown FlashTimings × World :=
  match attempt opts (attempts n) parts baud w with
  | (_, w, .ok timings) => (.ok timings, w)
  | (parts, w, .error (thrown, stage, synced)) =>
      match h : goesOn thrown stage synced baud with
      | none => (.error (.flash (explainFlashError thrown stage synced)), w)
      | some next => flashLoop opts attempts (n + 1) parts next w
termination_by baud
decreasing_by exact (goesOn_lt h).1

/-- `flashBoard`, for a board the manifest has a build for. -/
def flashBoard (opts : FlashOptions) (attempts : Nat → Attempt) (w : World) :
    Except Thrown FlashTimings × World :=
  if opts.target.cfg.size < opts.configBlob.length then
    (.error (.raw { message := "The device config is larger than the board's config area." }), w)
  else flashLoop opts attempts 0 none ((w.goodBaud.or opts.baudrate).getD 921600) w

/-! ## The loop -/

/-- The files of an install. -/
def filesOf (opts : FlashOptions) (parts : List FlashFile) : List FlashFile :=
  (flashFiles opts.target opts.mode parts opts.configBlob opts.eraseWifi).1

/-- How an attempt ends: before it has written anything, or after. -/
inductive Tries (opts : FlashOptions) (x : Attempt) (parts : Option (List FlashFile)) (baud : Nat)
    (w : World) : Option (List FlashFile) × World ×
      Except (Thrown × FlashStage × Bool) FlashTimings → Prop where
  | early (failure : Thrown × FlashStage × Bool) :
      Tries opts x parts baud w (parts, { w with tried := w.tried ++ [baud] }, .error failure)
  | late (loaded : List FlashFile)
      (hparts : haveParts opts x parts = .ok loaded) (failure : Thrown × FlashStage × Bool) :
      Tries opts x parts baud w (some loaded,
        { w with
          tried := w.tried ++ [baud]
          memory := x.write w.memory (filesOf opts loaded)
          writes := w.writes ++ [⟨opts.target.chip, filesOf opts loaded⟩] }, .error failure)
  | done (loaded : List FlashFile)
      (hparts : haveParts opts x parts = .ok loaded) (wrote : x.writeError = none)
      (timings : FlashTimings) (hbaud : timings.baudrate = baud) :
      Tries opts x parts baud w (some loaded,
        { w with
          tried := w.tried ++ [baud]
          memory := x.write w.memory (filesOf opts loaded)
          writes := w.writes ++ [⟨opts.target.chip, filesOf opts loaded⟩]
          goodBaud := some baud }, .ok timings)

theorem tries (opts : FlashOptions) (x : Attempt) (parts : Option (List FlashFile)) (baud : Nat)
    (w : World) : Tries opts x parts baud w (attempt opts x parts baud w) := by
  unfold attempt
  split
  · exact .early _
  · rename_i chip hmain
    split
    · exact .early _
    · rename_i hchip
      obtain rfl := not_not.mp hchip
      split
      · exact .early _
      · rename_i loaded hparts
        dsimp only
        split
        · exact .late loaded hparts _
        · rename_i hwrote
          split
          · exact .late loaded hparts _
          · exact .done loaded hparts hwrote _ rfl

/-- The rule of the loop: what an attempt leaves true for the next one, at a slower speed, and what
follows when there is none. -/
theorem flashLoop_elim {opts : FlashOptions} {attempts : Nat → Attempt}
    {J : Option (List FlashFile) → Nat → World → Prop}
    {Q : Except Thrown FlashTimings × World → Prop}
    (hstep : ∀ n parts baud w parts' w' failure, J parts baud w →
      Tries opts (attempts n) parts baud w (parts', w', .error failure) →
      (∀ e, Q (.error e, w')) ∧ ∀ next, next < baud → next ∈ baudLadder → J parts' next w')
    (hdone : ∀ n parts baud w parts' w' timings, J parts baud w →
      Tries opts (attempts n) parts baud w (parts', w', .ok timings) → Q (.ok timings, w'))
    {n : Nat} {parts : Option (List FlashFile)} {baud : Nat} {w : World} (h : J parts baud w) :
    Q (flashLoop opts attempts n parts baud w) := by
  induction baud using Nat.strong_induction_on generalizing n parts w with
  | _ baud ih =>
    have htries := tries opts (attempts n) parts baud w
    rw [flashLoop]
    split
    · rename_i heq
      rw [heq] at htries
      exact hdone n parts baud w _ _ _ h htries
    · rename_i heq
      rw [heq] at htries
      obtain ⟨hover, hnext⟩ := hstep n parts baud w _ _ _ h htries
      split
      · exact hover _
      · rename_i next hgoes
        obtain ⟨hlt, hmem⟩ := goesOn_lt hgoes
        exact ih next hlt (hnext next hlt hmem)

/-! ## What is in the flash -/

/-- A byte of the file is in the sector of the address. -/
def Touched (f : FlashFile) (address : Nat) : Prop :=
  ∃ i < f.data.length, (f.address + i) / 4096 = address / 4096

def Placed (memory : Memory) (f : FlashFile) : Prop :=
  ∀ i byte, f.data[i]? = some byte → memory (f.address + i) = byte

/-- No two files share a sector. -/
def Apart (files : List FlashFile) : Prop :=
  files.Pairwise fun f g => ∀ address, Touched f address → ¬ Touched g address

/-- What esptool promises of a write. -/
structure Attempt.Honest (x : Attempt) : Prop where
  spares : ∀ memory files address, (∀ f ∈ files, ¬ Touched f address) →
    x.write memory files address = memory address
  places : x.writeError = none → ∀ memory files, Apart files →
    ∀ f ∈ files, Placed (x.write memory files) f

/-- The parts are the manifest's, at its addresses and with its checksums. -/
def Verified (opts : FlashOptions) (parts : List FlashFile) : Prop :=
  if opts.mode = .full then
    List.Forall₂ (fun part f => f.name = part.path ∧ f.address = part.offset ∧
      opts.sha f.data = part.sha256) opts.target.parts parts
  else parts = []

section

variable {opts : FlashOptions} {x : Attempt}

theorem fetchPart_ok {part : ManifestPart} {response : Response} {data : Bytes}
    (h : fetchPart opts.sha part response = .ok data) : opts.sha data = part.sha256 := by
  unfold fetchPart at h
  split at h
  · cases h
  · cases h
  · split at h
    · rename_i hsha
      obtain rfl := Except.ok.inj h
      exact hsha
    · cases h

theorem verified_download {parts : List FlashFile} (h : downloadParts opts x = .ok parts) :
    Verified opts parts := by
  unfold downloadParts at h
  unfold Verified
  split
  · rename_i hfull
    rw [if_pos hfull] at h
    generalize opts.target.parts = wanted at h ⊢
    induction wanted generalizing parts with
    | nil =>
      obtain rfl := Except.ok.inj h
      exact .nil
    | cons part rest ih =>
      rw [List.mapM_cons] at h
      cases hfetch : fetchPart opts.sha part (x.response part) with
      | error e =>
        rw [hfetch] at h
        cases h
      | ok data =>
        rw [hfetch] at h
        cases hrest : rest.mapM (fun part => do
            let data ← fetchPart opts.sha part (x.response part)
            pure (⟨part.path, data, part.offset⟩ : FlashFile) : ManifestPart →
              Except RawError FlashFile) with
        | error e =>
          rw [hrest] at h
          cases h
        | ok files =>
          rw [hrest] at h
          obtain rfl := Except.ok.inj h
          exact .cons ⟨rfl, rfl, fetchPart_ok hfetch⟩ (ih hrest)
  · rename_i hconfig
    rw [if_neg hconfig] at h
    exact (Except.ok.inj h).symm

theorem verified_have {parts : Option (List FlashFile)} {loaded : List FlashFile}
    (hold : ∀ ps, parts = some ps → Verified opts ps)
    (h : haveParts opts x parts = .ok loaded) : Verified opts loaded := by
  cases parts with
  | none => exact verified_download h
  | some ps =>
    obtain rfl := Except.ok.inj h
    exact hold _ rfl

end

/-- The calls of an install: all on the chip that was picked, with the same files, and nothing
outside the sectors of these is changed. Where nothing is written this says that nothing changes. -/
structure Written (opts : FlashOptions) (parts : List FlashFile) (calls : List Write)
    (before after : Memory) : Prop where
  same : ∀ call ∈ calls, call = ⟨opts.target.chip, filesOf opts parts⟩
  verified : calls ≠ [] → Verified opts parts
  spared : ∀ address, (∀ call ∈ calls, ∀ f ∈ call.files, ¬ Touched f address) →
    after address = before address

/-- How an install may end. After a success there is a call, the last one, and every file is in
place, unless two of them share a sector. -/
def Safe (opts : FlashOptions) (before : World) (result : Except Thrown FlashTimings × World) : Prop :=
  ∃ parts calls, result.2.writes = before.writes ++ calls ∧
    Written opts parts calls before.memory result.2.memory ∧
    ∀ timings, result.1 = .ok timings → calls ≠ [] ∧
      (Apart (filesOf opts parts) → ∀ f ∈ filesOf opts parts, Placed result.2.memory f)

/-- What holds between two attempts: the downloads that are kept are what the calls have written. -/
structure Between (opts : FlashOptions) (before : World) (kept : Option (List FlashFile))
    (w : World) : Prop where
  verified : ∀ parts, kept = some parts → Verified opts parts
  written : ∃ parts calls, w.writes = before.writes ++ calls ∧
    Written opts parts calls before.memory w.memory ∧ (calls ≠ [] → kept = some parts)

/-- One more call. The downloads of the first one are kept, so its files are those of the calls
before. -/
theorem Between.write {opts : FlashOptions} {x : Attempt} {before w : World}
    {kept : Option (List FlashFile)} (h : Between opts before kept w) (honest : x.Honest)
    {loaded : List FlashFile} (hparts : haveParts opts x kept = .ok loaded) :
    ∃ calls, w.writes ++ [⟨opts.target.chip, filesOf opts loaded⟩] = before.writes ++ calls ∧
      Written opts loaded calls before.memory (x.write w.memory (filesOf opts loaded)) ∧
      calls ≠ [] := by
  obtain ⟨parts, calls, hwrites, hwritten, hkept⟩ := h.written
  have hverified : Verified opts loaded := verified_have h.verified hparts
  have hloaded : calls ≠ [] → loaded = parts := by
    intro hne
    rw [hkept hne] at hparts
    exact (Except.ok.inj hparts).symm
  refine ⟨calls ++ [⟨opts.target.chip, filesOf opts loaded⟩], by rw [hwrites, List.append_assoc],
    ⟨fun call hcall => ?_, fun _ => hverified, fun address hout => ?_⟩, by simp⟩
  · rcases List.mem_append.mp hcall with hold | hnew
    · rw [hwritten.same call hold, hloaded (List.ne_nil_of_mem hold)]
    · exact List.mem_singleton.mp hnew
  · rw [honest.spares _ _ _ (hout _ (List.mem_append_right _ (List.mem_singleton_self _)))]
    exact hwritten.spared address fun call hcall => hout call (List.mem_append_left _ hcall)

/-- **Whatever happens, only the sectors of the files are written, and only on the right chip**; and
an install that succeeds, after any number of attempts that broke off, has every file in place: the
firmware with the manifest's checksums, the blanked Wi-Fi, the config. -/
theorem flashBoard_safe {opts : FlashOptions} {attempts : Nat → Attempt}
    (honest : ∀ n, (attempts n).Honest) (w : World) : Safe opts w (flashBoard opts attempts w) := by
  have hnone : Written opts [] [] w.memory w.memory :=
    ⟨fun _ => nofun, fun hne => absurd rfl hne, fun _ _ => rfl⟩
  unfold flashBoard
  split
  · exact ⟨[], [], (List.append_nil _).symm, hnone, fun _ => nofun⟩
  · refine flashLoop_elim (J := fun kept _ w' => Between opts w kept w') (Q := Safe opts w)
      (fun n kept baud before kept' after failure hbetween htries => ?_)
      (fun n kept baud before kept' after timings hbetween htries => ?_)
      ⟨nofun, [], [], (List.append_nil _).symm, hnone, fun hne => absurd rfl hne⟩
    · cases htries with
      | early =>
        obtain ⟨parts, calls, hwrites, hwritten, -⟩ := hbetween.written
        exact ⟨fun e => ⟨parts, calls, hwrites, hwritten, fun _ => nofun⟩,
          fun _ _ _ => ⟨hbetween.verified, hbetween.written⟩⟩
      | late loaded hparts =>
        obtain ⟨calls, hwrites, hwritten, hne⟩ := hbetween.write (honest n) hparts
        refine ⟨fun e => ⟨loaded, calls, hwrites, hwritten, fun _ => nofun⟩,
          fun _ _ _ => ⟨fun parts hkept => ?_, loaded, calls, hwrites, hwritten, fun _ => rfl⟩⟩
        obtain rfl := Option.some.inj hkept
        exact hwritten.verified hne
    · cases htries with
      | done loaded hparts wrote =>
        obtain ⟨calls, hwrites, hwritten, hne⟩ := hbetween.write (honest n) hparts
        exact ⟨loaded, calls, hwrites, hwritten, fun _ _ => ⟨hne,
          fun hapart f hf => (honest n).places wrote _ _ hapart f hf⟩⟩

/-! ## A board to install on -/

def overlay (memory : Memory) (f : FlashFile) : Memory := fun address =>
  if f.address ≤ address then (f.data[address - f.address]?).getD (memory address)
  else memory address

theorem overlay_placed (memory : Memory) (f : FlashFile) : Placed (overlay memory f) f := by
  intro i byte hbyte
  rw [overlay, if_pos (Nat.le_add_right _ _), Nat.add_sub_cancel_left, hbyte, Option.getD_some]

theorem overlay_spares {memory : Memory} {f : FlashFile} {address : Nat}
    (h : ¬ Touched f address) : overlay memory f address = memory address := by
  unfold overlay
  split
  · rename_i hle
    have hout : f.data.length ≤ address - f.address := by
      by_contra hin
      exact h ⟨address - f.address, not_le.mp hin, by rw [Nat.add_sub_cancel' hle]⟩
    rw [List.getElem?_eq_none hout, Option.getD_none]
  · rfl

theorem foldl_spares {files : List FlashFile} {memory : Memory} {address : Nat}
    (h : ∀ f ∈ files, ¬ Touched f address) : files.foldl overlay memory address = memory address := by
  induction files generalizing memory with
  | nil => rfl
  | cons f rest ih =>
    rw [List.foldl_cons, ih fun g hg => h g (List.mem_cons_of_mem f hg)]
    exact overlay_spares (h f List.mem_cons_self)

theorem foldl_placed {files : List FlashFile} {memory : Memory} (hapart : Apart files)
    {f : FlashFile} (hf : f ∈ files) : Placed (files.foldl overlay memory) f := by
  induction files generalizing memory with
  | nil => cases hf
  | cons g rest ih =>
    obtain ⟨hfirst, hrest⟩ := List.pairwise_cons.mp hapart
    rw [List.foldl_cons]
    rcases List.mem_cons.mp hf with rfl | hmem
    · intro i byte hbyte
      have hlt : i < f.data.length := (List.getElem?_eq_some_iff.mp hbyte).1
      rw [foldl_spares fun other hother => hfirst other hother _ ⟨i, hlt, rfl⟩]
      exact overlay_placed memory f i byte hbyte
    · exact ih hrest hmem

/-- A board that does as it is told, but drops out of its first write halfway. -/
def dropsOnce (n : Nat) : Attempt where
  main := .ok "ESP32-C3"
  response := fun _ => .body [1, 2, 3]
  write := fun memory files => if n = 0 then (files.take 1).foldl overlay memory
    else files.foldl overlay memory
  writeError := if n = 0 then some { message := "Timed out waiting for packet content" } else none
  reported := true
  resetError := none

theorem dropsOnce_honest (n : Nat) : (dropsOnce n).Honest := by
  constructor
  · intro memory files address hout
    unfold dropsOnce
    dsimp only
    split
    · exact foldl_spares fun f hf => hout f (List.mem_of_mem_take hf)
    · exact foldl_spares hout
  · intro hwrote memory files hapart f hf
    unfold dropsOnce at hwrote ⊢
    dsimp only at hwrote ⊢
    split
    · rename_i hfirst
      rw [if_pos hfirst] at hwrote
      cases hwrote
    · exact foldl_placed hapart hf

def updateOpts : FlashOptions where
  target := ⟨"ESP32-C3", [⟨"app.bin", 65536, 3, "abc"⟩], ⟨32768, 8192⟩, none⟩
  mode := .full
  configBlob := [7, 7]
  eraseWifi := false
  baudrate := none
  sha := fun _ => "abc"

theorem flashBoard_safe_update : Safe updateOpts { memory := fun _ => 255 }
    (flashBoard updateOpts dropsOnce { memory := fun _ => 255 }) :=
  flashBoard_safe dropsOnce_honest { memory := fun _ => 255 }

/-! ## The speeds -/

/-- The speeds of one install: each slower than the last, and on the ladder but for the first. -/
structure Descends (speeds : List Nat) : Prop where
  slower : speeds.Pairwise fun a b => b < a
  ladder : ∀ baud ∈ speeds.tail, baud ∈ baudLadder

theorem Descends.snoc {speeds : List Nat} {baud next : Nat} (h : Descends (speeds ++ [baud]))
    (hlt : next < baud) (hmem : next ∈ baudLadder) : Descends (speeds ++ [baud] ++ [next]) := by
  constructor
  · refine List.pairwise_append.mpr ⟨h.slower, List.pairwise_singleton _ _, ?_⟩
    intro earlier hearlier last hlast
    rw [List.mem_singleton.mp hlast]
    rcases List.mem_append.mp hearlier with hold | hbaud
    · have hbefore := (List.pairwise_append.mp h.slower).2.2 earlier hold baud
        (List.mem_singleton_self baud)
      exact hlt.trans hbefore
    · exact List.mem_singleton.mp hbaud ▸ hlt
  · have hne : speeds ++ [baud] ≠ [] := List.append_ne_nil_of_right_ne_nil _ (List.cons_ne_nil _ _)
    rw [List.tail_append_of_ne_nil hne]
    intro other hother
    rcases List.mem_append.mp hother with hold | hnew
    · exact h.ladder other hold
    · exact List.mem_singleton.mp hnew ▸ hmem

theorem Descends.length_le {speeds : List Nat} (h : Descends speeds) : speeds.length ≤ 4 := by
  have hnodup : speeds.tail.Nodup :=
    (h.slower.imp fun hlt => (Nat.ne_of_lt hlt).symm).sublist (List.tail_sublist _)
  have hsub : speeds.tail ⊆ baudLadder := fun baud hmem => h.ladder baud hmem
  have htail := (List.subperm_of_subset hnodup hsub).length_le
  rw [List.length_tail] at htail
  change speeds.length - 1 ≤ 3 at htail
  omega

/-- The speeds an install has tried since `before`, from `start` on if it tries at all, four at most;
and the last is the one that is reported and remembered. -/
def TriedFrom (start : Option Nat) (before : List Nat)
    (result : Except Thrown FlashTimings × World) : Prop :=
  ∃ speeds, result.2.tried = before ++ speeds ∧ Descends speeds ∧ speeds.length ≤ 4 ∧
    speeds.head? = start ∧ ∀ timings, result.1 = .ok timings →
      speeds.getLast? = some timings.baudrate ∧ result.2.goodBaud = some timings.baudrate

/-- **An install takes four attempts at most, each slower than the last**, begins with the speed
that last worked on this port if there is one, and remembers the one it succeeded with. A config
that does not fit its area is refused before any. -/
theorem tried_slower (opts : FlashOptions) (attempts : Nat → Attempt) (w : World) :
    TriedFrom
      (if opts.target.cfg.size < opts.configBlob.length then none
        else some ((w.goodBaud.or opts.baudrate).getD 921600))
      w.tried (flashBoard opts attempts w) := by
  unfold flashBoard
  split
  · exact ⟨[], (List.append_nil _).symm, ⟨List.Pairwise.nil, by simp⟩, by simp, rfl, fun _ => nofun⟩
  · generalize (w.goodBaud.or opts.baudrate).getD 921600 = start
    refine flashLoop_elim (J := fun _ baud w' => ∃ before, w'.tried = w.tried ++ before ∧
        Descends (before ++ [baud]) ∧ (before ++ [baud]).head? = some start)
      (Q := TriedFrom (some start) w.tried)
      ?_ ?_ ⟨[], by simp, ⟨List.pairwise_singleton _ _, by simp⟩, rfl⟩
    · rintro n parts baud before parts' after failure ⟨speeds, htried, hdown, hstart⟩ htries
      have hafter : after.tried = w.tried ++ (speeds ++ [baud]) := by
        cases htries <;> dsimp only <;> rw [htried, List.append_assoc]
      refine ⟨fun e => ⟨_, hafter, hdown, hdown.length_le, hstart, fun _ => nofun⟩,
        fun next hlt hmem => ⟨_, hafter, hdown.snoc hlt hmem, ?_⟩⟩
      rw [List.head?_append, hstart]
      rfl
    · rintro n parts baud before parts' after timings ⟨speeds, htried, hdown, hstart⟩ htries
      cases htries with
      | done loaded hparts wrote timings hbaud =>
        refine ⟨speeds ++ [baud], ?_, hdown, hdown.length_le, hstart, fun t ht => ?_⟩
        · dsimp only
          rw [htried, List.append_assoc]
        · obtain rfl := Except.ok.inj ht
          dsimp only
          rw [hbaud]
          exact ⟨List.getLast?_concat, rfl⟩

end IotSaas.Provisioning.Flasher
