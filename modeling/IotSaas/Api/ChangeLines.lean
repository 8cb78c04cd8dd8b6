import IotSaas.Api.Schemas
import IotSaas.Catalog.Keys
import IotSaas.Lib.JsonEq

/-!
# `Api/ChangeLines.lean` — what has changed, in the words the editor uses

`change_lines` of `rules/versions.py`, with all its texts. It compares two snapshots field by field:
a field that is missing or empty stands for the empty one, a duration that is missing for zero, and
the rest is compared as Python compares documents, where `True` is `1`. So it has nothing to say
exactly where the snapshots are alike for Python (`changeLines_nil_iff`). That falls short of their
being the same where a boolean faces the number it counts as and nothing else is different
(`changeLines_exact_iff`).
-/

set_option autoImplicit false

namespace IotSaas.Api

open Lib Rules

variable {F : Type}

/-! ## Snapshots -/

/-- A `trigger` column. -/
inductive TriggerDoc where
  | empty
  | given (trigger : Trigger)
  deriving DecidableEq

/-- An `execution_policy` column: each of its fields may be missing. A reset condition that is
missing is `null`. -/
structure PolicyDoc (F : Type) where
  strategy : Option RuleStrategy := none
  forDuration : Option Nat := none
  cooldown : Option Nat := none
  resetCondition : Json F := .null
  clearForDuration : Option Nat := none

/-- `SNAPSHOT_FIELDS`. -/
structure Snapshot (F : Type) where
  name : String
  description : Option String
  enabled : Bool
  trigger : Option TriggerDoc
  condition : Json F
  executionPolicy : Option (PolicyDoc F)
  actions : List (Json F)
  clearActions : List (Json F)

/-- The policy that is compared. -/
def Snapshot.policy (snapshot : Snapshot F) : PolicyDoc F := snapshot.executionPolicy.getD {}

/-! ## Alike -/

/-- Two snapshots that are equal on every field, documents by `eq`: a duration that is missing is
zero, and a description, trigger or policy that is `null` is an empty one. -/
structure Snapshot.Alike (eq : Json F → Json F → Bool) (a b : Snapshot F) : Prop where
  name : a.name = b.name
  description : a.description.getD "" = b.description.getD ""
  enabled : a.enabled = b.enabled
  trigger : a.trigger.getD .empty = b.trigger.getD .empty
  condition : eq a.condition b.condition = true
  strategy : a.policy.strategy = b.policy.strategy
  forDuration : a.policy.forDuration.getD 0 = b.policy.forDuration.getD 0
  cooldown : a.policy.cooldown.getD 0 = b.policy.cooldown.getD 0
  clearForDuration : a.policy.clearForDuration.getD 0 = b.policy.clearForDuration.getD 0
  resetCondition : eq a.policy.resetCondition b.policy.resetCondition = true
  actions : eq (.arr a.actions) (.arr b.actions) = true
  clearActions : eq (.arr a.clearActions) (.arr b.clearActions) = true

section

variable {eq : Json F → Json F → Bool} {a b c : Snapshot F}

theorem Snapshot.Alike.refl (hrefl : ∀ x, eq x x = true) (a : Snapshot F) : a.Alike eq a where
  name := rfl
  description := rfl
  enabled := rfl
  trigger := rfl
  condition := hrefl _
  strategy := rfl
  forDuration := rfl
  cooldown := rfl
  clearForDuration := rfl
  resetCondition := hrefl _
  actions := hrefl _
  clearActions := hrefl _

theorem Snapshot.Alike.symm (hsymm : ∀ x y, eq x y = true → eq y x = true) (h : a.Alike eq b) :
    b.Alike eq a where
  name := h.name.symm
  description := h.description.symm
  enabled := h.enabled.symm
  trigger := h.trigger.symm
  condition := hsymm _ _ h.condition
  strategy := h.strategy.symm
  forDuration := h.forDuration.symm
  cooldown := h.cooldown.symm
  clearForDuration := h.clearForDuration.symm
  resetCondition := hsymm _ _ h.resetCondition
  actions := hsymm _ _ h.actions
  clearActions := hsymm _ _ h.clearActions

theorem Snapshot.Alike.trans (htrans : ∀ x y z, eq x y = true → eq y z = true → eq x z = true)
    (h : a.Alike eq b) (h' : b.Alike eq c) : a.Alike eq c where
  name := h.name.trans h'.name
  description := h.description.trans h'.description
  enabled := h.enabled.trans h'.enabled
  trigger := h.trigger.trans h'.trigger
  condition := htrans _ _ _ h.condition h'.condition
  strategy := h.strategy.trans h'.strategy
  forDuration := h.forDuration.trans h'.forDuration
  cooldown := h.cooldown.trans h'.cooldown
  clearForDuration := h.clearForDuration.trans h'.clearForDuration
  resetCondition := htrans _ _ _ h.resetCondition h'.resetCondition
  actions := htrans _ _ _ h.actions h'.actions
  clearActions := htrans _ _ _ h.clearActions h'.clearActions

theorem Snapshot.Alike.mono {eq' : Json F → Json F → Bool} (h : a.Alike eq b)
    (hdoc : ∀ x y, eq x y = true → eq' x y = true) : a.Alike eq' b where
  name := h.name
  description := h.description
  enabled := h.enabled
  trigger := h.trigger
  condition := hdoc _ _ h.condition
  strategy := h.strategy
  forDuration := h.forDuration
  cooldown := h.cooldown
  clearForDuration := h.clearForDuration
  resetCondition := hdoc _ _ h.resetCondition
  actions := hdoc _ _ h.actions
  clearActions := hdoc _ _ h.clearActions

end

/-! ## Texts -/

/-- The digits Unicode knows, as `str.isdigit` and `int` have them. -/
abbrev Digits := Char → Option Nat

/-- `_seconds`. -/
def seconds (duration : Option Nat) : String :=
  let n := duration.getD 0
  if n = 0 then "off"
  else if n % 3600 = 0 then toString (n / 3600) ++ " h"
  else if n % 60 = 0 then toString (n / 60) ++ " min"
  else toString n ++ " s"

/-- `_ordinal`. -/
def ordinal (n : Nat) : String :=
  toString n ++
    (if 10 ≤ n % 100 ∧ n % 100 ≤ 20 then "th"
    else if n % 10 = 1 then "st"
    else if n % 10 = 2 then "nd"
    else if n % 10 = 3 then "rd"
    else "th")

/-- `_DOW`. -/
def dow : List String := ["Sun", "Mon", "Tue", "Wed", "Thu", "Fri", "Sat"]

/-- `cron.split()`. -/
def cronParts (cron : String) : List String :=
  ((cron.toList.splitOnP Catalog.isSpace).filter fun part => !part.isEmpty).map String.ofList

/-- `int(text)`, where `text.isdigit()`. -/
def numberOf (digits : Digits) (text : List Char) : Option Nat :=
  if text.isEmpty then none
  else text.foldl (fun n c => n.bind fun n => (digits c).map fun d => 10 * n + d) (some 0)

/-- `02d`. -/
def twoDigits (n : Nat) : String := if n < 10 then "0" ++ toString n else toString n

/-- The days of a list, in the order of a week. -/
def dayNames (digits : Digits) (dows : String) : Option String :=
  let parts := dows.toList.splitOn ','
  let days := (parts.filterMap (numberOf digits)).map (· % 7)
  if days ≠ [] ∧ days.length = parts.length then
    some (", ".intercalate
      (([1, 2, 3, 4, 5, 6, 0].filter fun day => days.contains day).map fun day => dow.getD day ""))
  else none

/-- The schedules with a time of day. -/
def dailyText (digits : Digits) (minute hour : Nat) (dom dows : String) : Option String :=
  let time := twoDigits hour ++ ":" ++ twoDigits minute
  if dom = "*" then
    if dows = "*" then some ("every day at " ++ time)
    else if dows = "1-5" then some ("weekdays at " ++ time)
    else if dows = "0,6" ∨ dows = "6,0" then some ("weekends at " ++ time)
    else (dayNames digits dows).map fun days => days ++ " at " ++ time
  else if dows = "*" then
    (numberOf digits dom.toList).map fun day =>
      "on the " ++ ordinal day ++ " of each month at " ++ time
  else none

/-- What follows `*/`. -/
def everyPart (digits : Digits) (part : String) : Option String :=
  match part.toList with
  | '*' :: '/' :: rest => (numberOf digits rest).map fun _ => String.ofList rest
  | _ => none

/-- The schedules of every hour and every few minutes or hours. -/
def repeatedText (digits : Digits) (mi h : String) : Option String :=
  match everyPart digits mi with
  | some minutes => if h = "*" then some ("every " ++ minutes ++ " min") else none
  | none =>
      match numberOf digits mi.toList with
      | none => none
      | some minute =>
          if h = "*" then some ("every hour at :" ++ twoDigits minute)
          else
            (everyPart digits h).map fun hours =>
              "every " ++ hours ++ " hours at :" ++ twoDigits minute

/-- `cron_human`. -/
def cronHuman (digits : Digits) (cron : String) : String :=
  match cronParts cron with
  | [mi, h, dom, mon, dows] =>
      let daily :=
        match numberOf digits mi.toList, numberOf digits h.toList with
        | some minute, some hour =>
            if mon = "*" then dailyText digits minute hour dom dows else none
        | _, _ => none
      let repeated :=
        if dom = "*" ∧ mon = "*" ∧ dows = "*" then repeatedText digits mi h else none
      (daily.or repeated).getD cron
  | _ => cron

/-- `_trigger_text`. -/
def triggerText (digits : Digits) (trigger : TriggerDoc) : String :=
  match trigger with
  | .empty | .given .metric => "every reading"
  | .given (.schedule cron timezone) => cronHuman digits cron ++ " (" ++ timezone ++ ")"
  | .given .manual => "manual only"
  | .given (.deviceStatus _ .connected) => "device connected"
  | .given (.deviceStatus _ .disconnected) => "device disconnected"

/-- `_STRATEGY`, and how Python prints what it does not have. -/
def strategyText (strategy : Option RuleStrategy) : String :=
  match strategy with
  | none => "None"
  | some .edge => "Fire once per crossing"
  | some .continuous => "Fire while it holds"
  | some .resetCondition => "Fire, then wait for a reset condition"
  | some .latch => "Latch until reset"

/-- `_actions_line`. -/
def actionsLine (label : String) (a b : List (Json F)) : String :=
  if a.length ≠ b.length then
    label ++ ": " ++ toString a.length ++ " → " ++ toString b.length
  else label ++ " changed"

example : cronHuman (fun c => if c.isDigit then some (c.toNat - 48) else none) "30 7 * * 1,3" =
    "Mon, Wed at 07:30" := by decide +kernel

/-! ## `change_lines` -/

section

variable [JsonNumber F]

/-- The number a boolean is. -/
def boolNumber (b : Bool) : F := JsonNumber.ofNat (if b then 1 else 0)

/-- `==`, of documents. -/
def pyEq (a b : Json F) : Bool := Json.looseEq PyFloat.eq boolNumber a b

/-- A line where something has changed. -/
def lineIf (changed : Bool) (line : String) : List String := if changed then [line] else []

def durationLine (label : String) (before after : Option Nat) : List String :=
  lineIf (before.getD 0 != after.getD 0) (label ++ ": " ++ seconds before ++ " → " ++ seconds after)

/-- `change_lines`. -/
def changeLines (digits : Digits) (before : Option (Snapshot F)) (after : Snapshot F) :
    List String :=
  match before with
  | none => ["Created"]
  | some before =>
      let tb := before.trigger.getD .empty
      let ta := after.trigger.getD .empty
      let pb := before.policy
      let pa := after.policy
      lineIf (before.name != after.name)
          ("Renamed \"" ++ before.name ++ "\" → \"" ++ after.name ++ "\"") ++
        lineIf (before.enabled != after.enabled)
          (if after.enabled then "Enabled" else "Disabled") ++
        lineIf (before.description.getD "" != after.description.getD "") "Description changed" ++
        lineIf (tb != ta) ("When: " ++ triggerText digits tb ++ " → " ++ triggerText digits ta) ++
        lineIf (!pyEq before.condition after.condition) "Condition changed" ++
        lineIf (pb.strategy != pa.strategy)
          ("Behaviour: " ++ strategyText pb.strategy ++ " → " ++ strategyText pa.strategy) ++
        durationLine "Hold for" pb.forDuration pa.forDuration ++
        durationLine "Cooldown" pb.cooldown pa.cooldown ++
        durationLine "Clear after" pb.clearForDuration pa.clearForDuration ++
        lineIf (!pyEq pb.resetCondition pa.resetCondition) "Reset condition changed" ++
        lineIf (!pyEq (.arr before.actions) (.arr after.actions))
          (actionsLine "Actions" before.actions after.actions) ++
        lineIf (!pyEq (.arr before.clearActions) (.arr after.clearActions))
          (actionsLine "On-clear actions" before.clearActions after.clearActions)

/-- The numbers of a document compare as numbers do: none of them is NaN. -/
class LawfulNumber (F : Type) [JsonNumber F] : Prop where
  refl : ∀ n : F, PyFloat.eq n n = true
  symm : ∀ m n : F, PyFloat.eq m n = true → PyFloat.eq n m = true
  trans : ∀ l m n : F, PyFloat.eq l m = true → PyFloat.eq m n = true → PyFloat.eq l n = true
  apart : PyFloat.eq (JsonNumber.ofNat 0 : F) (JsonNumber.ofNat 1) = false

instance : LawfulNumber Int where
  refl n := by simp [PyFloat.eq]
  symm m n h := by simp_all [PyFloat.eq]
  trans l m n hlm hmn := by simp_all [PyFloat.eq]
  apart := by decide

/-! ## When there are none -/

theorem lineIf_eq_nil {changed : Bool} {line : String} :
    lineIf changed line = [] ↔ changed = false := by
  cases changed <;> simp [lineIf]

theorem durationLine_eq_nil {label : String} {before after : Option Nat} :
    durationLine label before after = [] ↔ before.getD 0 = after.getD 0 := by
  simp [durationLine, lineIf_eq_nil]

/-- **No line, nothing that Python takes to be different.** -/
theorem changeLines_nil_iff (digits : Digits) (a b : Snapshot F) :
    changeLines digits (some a) b = [] ↔ a.Alike pyEq b := by
  simp only [changeLines, List.append_eq_nil_iff, lineIf_eq_nil, durationLine_eq_nil,
    bne_eq_false_iff_eq, Bool.not_eq_false']
  constructor
  · rintro ⟨⟨⟨⟨⟨⟨⟨⟨⟨⟨⟨hname, henabled⟩, hdescription⟩, htrigger⟩, hcondition⟩, hstrategy⟩, hfor⟩,
      hcooldown⟩, hclear⟩, hreset⟩, hactions⟩, hclearActions⟩
    exact ⟨hname, hdescription, henabled, htrigger, hcondition, hstrategy, hfor, hcooldown, hclear,
      hreset, hactions, hclearActions⟩
  · intro h
    exact ⟨⟨⟨⟨⟨⟨⟨⟨⟨⟨⟨h.name, h.enabled⟩, h.description⟩, h.trigger⟩, h.condition⟩, h.strategy⟩,
      h.forDuration⟩, h.cooldown⟩, h.clearForDuration⟩, h.resetCondition⟩, h.actions⟩,
      h.clearActions⟩

/-! ## Booleans and numbers -/

/-- `==`, of documents in which a boolean is no number. -/
def docEq (a b : Json F) : Bool := Json.strictEq PyFloat.eq a b

/-- The document with `1` for `true` and `0` for `false`. -/
def counted (doc : Json F) : Json F := Json.counted boolNumber doc

/-- The snapshot with its documents so. -/
def Snapshot.counted (snapshot : Snapshot F) : Snapshot F :=
  { snapshot with
    condition := Api.counted snapshot.condition
    executionPolicy := snapshot.executionPolicy.map fun policy =>
      { policy with resetCondition := Api.counted policy.resetCondition }
    actions := snapshot.actions.map Api.counted
    clearActions := snapshot.clearActions.map Api.counted }

/-- **The same snapshot.** -/
def Snapshot.Same (a b : Snapshot F) : Prop := a.Alike docEq b

/-- Two snapshots that are not the same, and would be if their booleans were numbers. -/
def Snapshot.Blurs (a b : Snapshot F) : Prop := ¬ a.Same b ∧ a.counted.Same b.counted

theorem Snapshot.counted_policy (a : Snapshot F) :
    a.counted.policy = { a.policy with resetCondition := Api.counted a.policy.resetCondition } := by
  unfold Snapshot.policy
  cases hpolicy : a.executionPolicy with
  | none => simp [Snapshot.counted, hpolicy, Api.counted, Json.counted]
  | some policy => simp [Snapshot.counted, hpolicy]

theorem counted_arr (items : List (Json F)) :
    counted (.arr items) = .arr (items.map counted) := by
  simp [counted, Json.counted, Json.countedItems_eq]

section

variable [LawfulNumber F]

theorem boolNumber_counts : Json.Counts (F := F) PyFloat.eq boolNumber where
  refl := LawfulNumber.refl
  symm := LawfulNumber.symm
  trans := LawfulNumber.trans
  apart := LawfulNumber.apart

theorem pyEq_counted (a b : Json F) : pyEq a b = docEq (counted a) (counted b) :=
  Json.looseEq_counted boolNumber_counts a b

/-- Alike for Python is the same with numbers for booleans. -/
theorem Snapshot.alike_pyEq_iff (a b : Snapshot F) :
    a.Alike pyEq b ↔ a.counted.Same b.counted := by
  -- field by field, and the same both ways
  constructor
  all_goals
    intro h
    refine ⟨h.name, h.description, h.enabled, h.trigger, ?_, ?_, ?_, ?_, ?_, ?_, ?_, ?_⟩
    · exact pyEq_counted a.condition b.condition ▸ h.condition
    · simpa [Snapshot.counted_policy] using h.strategy
    · simpa [Snapshot.counted_policy] using h.forDuration
    · simpa [Snapshot.counted_policy] using h.cooldown
    · simpa [Snapshot.counted_policy] using h.clearForDuration
    · simpa [Snapshot.counted_policy, pyEq_counted] using h.resetCondition
    · simpa [Snapshot.counted, pyEq_counted, counted_arr] using h.actions
    · simpa [Snapshot.counted, pyEq_counted, counted_arr] using h.clearActions

/-- **When the lines are exact.** They are missing just where the snapshots are the same if and only
if the snapshots do not differ in booleans that face their own numbers alone. -/
theorem changeLines_exact_iff (digits : Digits) (a b : Snapshot F) :
    (changeLines digits (some a) b = [] ↔ a.Same b) ↔ ¬ a.Blurs b := by
  rw [changeLines_nil_iff, Snapshot.alike_pyEq_iff]
  have hsame : a.Same b → a.counted.Same b.counted := by
    intro h
    exact (Snapshot.alike_pyEq_iff a b).mp (h.mono fun _ _ => Json.looseEq_of_strictEq)
  unfold Snapshot.Blurs
  tauto

end

end

end IotSaas.Api
