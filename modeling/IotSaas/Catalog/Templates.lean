import IotSaas.Catalog.Hardware
import IotSaas.Catalog.KeyFormats
import IotSaas.Ingestion.Service
import IotSaas.Lib.Reach
import Mathlib.Data.List.Sort

/-!
# `Catalog/Templates.lean` — templates and devices, and what their wiring may name

A template (`DeviceCatalogEntry`) has keys and may have wiring; a device may have wiring of its own,
which names the keys of its template. Four routes write them. A request works on the database as its
session sees it, and `serve` is the session around it: what was done is kept when the request
succeeds and PostgreSQL takes it, and is rolled back otherwise.

`Consistent` says that wiring never dangles, and every route keeps it: an update of a template's keys
holds every device's wiring against the new ones (`checkDeviceHardware_ok`), and an update of a
device's holds it against the keys its template has then.
-/

set_option autoImplicit false

namespace IotSaas.Catalog

open Lib Rules Ingestion

/-! ## Rows -/

/-- `CatalogActuator`: what identifies it on the wire. -/
structure CatalogActuator where
  name : String
  key : Option String := none
  deriving DecidableEq

/-- The field checks of the schema. -/
def CatalogActuator.accepted (a : CatalogActuator) : Bool :=
  decide (1 ≤ a.name.length) && decide (a.name.length ≤ 100) &&
    (a.key.all fun key => decide (key.length ≤ 100))

inductive RunsOn where
  | genericFirmware | ownCode
  deriving DecidableEq

/-- `DeviceCatalogEntry`; its status has the same two values as a device's. -/
structure CatalogEntry (N : Type) where
  id : Uuid
  tenantId : Uuid
  name : String
  metrics : List CatalogMetric
  actuators : List CatalogActuator
  hardware : Option (HardwareConfig N)
  runsOn : RunsOn
  status : DeviceStatus := .active
  isLegacy : Bool := false

structure Device (N : Type) where
  id : Uuid
  tenantId : Uuid
  name : String
  catalogEntryId : Uuid
  zoneId : Option Uuid
  hardware : Option (HardwareConfig N) := none
  status : DeviceStatus := .active

/-- The tables, and the zones there are, each with its tenant. -/
structure Db (N : Type) where
  entries : List (CatalogEntry N) := []
  devices : List (Device N) := []
  zones : List (Uuid × Uuid) := []

/-! ## Requests and answers -/

structure CatalogEntryCreateRequest (N : Type) where
  name : String
  metrics : List CatalogMetric := []
  actuators : List CatalogActuator := []
  hardware : Option (HardwareConfig N) := none
  runsOn : Option RunsOn := none

/-- Wiring omitted is `none`, an explicit null is `some none`. -/
structure CatalogEntryUpdateRequest (N : Type) where
  name : Option String := none
  metrics : Option (List CatalogMetric) := none
  actuators : Option (List CatalogActuator) := none
  status : Option DeviceStatus := none
  hardware : Option (Option (HardwareConfig N)) := none
  runsOn : Option RunsOn := none

structure DeviceCreateRequest (N : Type) where
  name : String
  catalogEntryId : Option Uuid := none
  newTemplate : Option (CatalogEntryCreateRequest N) := none
  zoneId : Option Uuid := none

/-- Zone and wiring omitted are `none`, an explicit null is `some none`. -/
structure DeviceUpdateRequest (N : Type) where
  name : Option String := none
  status : Option DeviceStatus := none
  zoneId : Option (Option Uuid) := none
  hardware : Option (Option (HardwareConfig N)) := none

/-- Why a request is refused; `internal` is an error that no route answers, such as a flush or a
commit that PostgreSQL refuses. -/
inductive ApiError where
  | unprocessable
  | keyError (e : KeyError)
  | hardwareMapping (reason : String)
  | runsOnHardware
  | entryNotFound
  | entryDisabled
  | deviceNotFound
  | zoneNotFound
  | internal
  deriving DecidableEq

def nameAccepted (name : String) : Bool := decide (1 ≤ name.length) && decide (name.length ≤ 100)

variable {N : Type}

/-- The field checks of `CatalogEntryCreateRequest`. -/
def CatalogEntryCreateRequest.accepted (body : CatalogEntryCreateRequest N) : Bool :=
  nameAccepted body.name && body.metrics.all CatalogMetric.accepted &&
    body.actuators.all CatalogActuator.accepted && body.hardware.all HardwareConfig.accepted

/-- The field checks of `CatalogEntryUpdateRequest`. -/
def CatalogEntryUpdateRequest.accepted (body : CatalogEntryUpdateRequest N) : Bool :=
  body.name.all nameAccepted && (body.metrics.all fun ms => ms.all CatalogMetric.accepted) &&
    (body.actuators.all fun as => as.all CatalogActuator.accepted) &&
    (body.hardware.all fun h => h.all HardwareConfig.accepted)

/-- The field checks of `DeviceCreateRequest`, and `_one_template`. -/
def DeviceCreateRequest.accepted (body : DeviceCreateRequest N) : Bool :=
  nameAccepted body.name && body.newTemplate.all CatalogEntryCreateRequest.accepted &&
    decide (body.catalogEntryId.isNone ≠ body.newTemplate.isNone)

/-- The field checks of `DeviceUpdateRequest`. -/
def DeviceUpdateRequest.accepted (body : DeviceUpdateRequest N) : Bool :=
  body.name.all nameAccepted && (body.hardware.all fun h => h.all HardwareConfig.accepted)

/-! ## The services -/

section

variable (folding : CaseFolding)

/-- `_normalize_actuators`: keys are filled in as for metrics, and none is reserved. -/
def normalizeActuators (actuators : List CatalogActuator) (existingKeys : List String) :
    Except KeyError (List CatalogActuator) :=
  let items := actuators.map fun a => ({ name := a.name, key := a.key } : CatalogMetric)
  match normalizeKeyedItems folding "actuator" items with
  | .error e => .error e
  | .ok normalized =>
      match firstRefused (fun key => key ∉ existingKeys && !matchesKeyPattern key) normalized with
      | some key => .error (.invalid key)
      | none => .ok (normalized.map fun item => ⟨item.name, item.key⟩)

/-- `check_hardware`, of some metrics and actuators. -/
def checkKeys (hardware : Option (HardwareConfig N)) (metrics : List CatalogMetric)
    (actuators : List CatalogActuator) : Except String Unit :=
  checkHardware hardware (metrics.map CatalogMetric.key) (actuators.map CatalogActuator.key)

/-- `_check_runs_on` fails. -/
def runsOnConflict (runsOn : RunsOn) (hardware : Option (HardwareConfig N)) : Bool :=
  decide (runsOn = .ownCode) && hardware.isSome

/-- Omitted: our firmware when wiring is given, own code otherwise. -/
def runsOnOr (runsOn : Option RunsOn) (hardware : Option (HardwareConfig N)) : RunsOn :=
  runsOn.getD (if hardware.isSome then .genericFirmware else .ownCode)

/-- `create_catalog_entry`; the id is a fresh `uuid4`. -/
def createCatalogEntry (id tenantId : Uuid) (body : CatalogEntryCreateRequest N) (isLegacy : Bool)
    (db : Db N) : Except ApiError (CatalogEntry N) × Db N :=
  match normalizeMetrics folding body.metrics [] with
  | .error e => (.error (.keyError e), db)
  | .ok metrics =>
  match normalizeActuators folding body.actuators [] with
  | .error e => (.error (.keyError e), db)
  | .ok actuators =>
  match checkKeys body.hardware metrics actuators with
  | .error reason => (.error (.hardwareMapping reason), db)
  | .ok () =>
      let runsOn := runsOnOr body.runsOn body.hardware
      if runsOnConflict runsOn body.hardware then (.error .runsOnHardware, db)
      else if id ∈ db.entries.map (·.id) then (.error .internal, db)
      else
        let entry : CatalogEntry N :=
          { id := id, tenantId := tenantId, name := body.name, metrics := metrics,
            actuators := actuators, hardware := body.hardware, runsOn := runsOn,
            isLegacy := isLegacy }
        (.ok entry, { db with entries := db.entries ++ [entry] })

/-- `get_catalog_entry`. -/
def getCatalogEntry (tenantId entryId : Uuid) (db : Db N) : Option (CatalogEntry N) :=
  db.entries.find? fun e => e.tenantId = tenantId ∧ e.id = entryId

/-- `list_own_hardware_for_catalog_entry`, in the order the database gives names. -/
def listOwnHardware (collate : String → String → Bool) (tenantId entryId : Uuid) (db : Db N) :
    List (String × HardwareConfig N) :=
  let own := db.devices.filterMap fun d =>
    if d.tenantId = tenantId ∧ d.catalogEntryId = entryId then
      d.hardware.map fun hardware => (d.name, hardware)
    else none
  own.insertionSort fun a b => collate a.1 b.1 = true

/-- `_check_device_hardware`, over what is listed. -/
def checkDeviceHardware (metrics : List CatalogMetric) (actuators : List CatalogActuator) :
    List (String × HardwareConfig N) → Except String Unit
  | [] => .ok ()
  | (name, hardware) :: rest =>
      match checkKeys (some hardware) metrics actuators with
      | .error reason =>
          .error (name ++ " has its own wiring, and it no longer fits: " ++ reason ++ ". " ++
            "Fix that device's wiring or reset it to the template's first.")
      | .ok () => checkDeviceHardware metrics actuators rest

/-- `UPDATE device_catalog_entries … WHERE id = …`. -/
def Db.setEntry (db : Db N) (entry : CatalogEntry N) : Db N :=
  { db with entries := db.entries.map fun e => if e.id = entry.id then entry else e }

/-- `UPDATE devices … WHERE id = …`. -/
def Db.setDevice (db : Db N) (device : Device N) : Db N :=
  { db with devices := db.devices.map fun d => if d.id = device.id then device else d }

/-- `update_catalog_entry`. -/
def updateCatalogEntry (collate : String → String → Bool) (entry : CatalogEntry N)
    (body : CatalogEntryUpdateRequest N) (db : Db N) : Except ApiError (CatalogEntry N) × Db N :=
  let newMetrics :=
    match body.metrics with
    | some metrics => normalizeMetrics folding metrics (keysOf (entry.metrics.map CatalogMetric.key))
    | none => .ok entry.metrics
  match newMetrics with
  | .error e => (.error (.keyError e), db)
  | .ok newMetrics =>
  let newActuators :=
    match body.actuators with
    | some actuators =>
        normalizeActuators folding actuators (keysOf (entry.actuators.map CatalogActuator.key))
    | none => .ok entry.actuators
  match newActuators with
  | .error e => (.error (.keyError e), db)
  | .ok newActuators =>
  let newHardware := body.hardware.getD entry.hardware
  match checkKeys newHardware newMetrics newActuators with
  | .error reason => (.error (.hardwareMapping reason), db)
  | .ok () =>
  if runsOnConflict (body.runsOn.getD entry.runsOn) newHardware then (.error .runsOnHardware, db)
  else
  let devices :=
    if body.metrics.isSome || body.actuators.isSome then
      checkDeviceHardware newMetrics newActuators
        (listOwnHardware collate entry.tenantId entry.id db)
    else .ok ()
  match devices with
  | .error reason => (.error (.hardwareMapping reason), db)
  | .ok () =>
      let updated : CatalogEntry N :=
        { entry with
          name := body.name.getD entry.name
          metrics := newMetrics
          actuators := newActuators
          hardware := newHardware
          runsOn := body.runsOn.getD entry.runsOn
          status := body.status.getD entry.status }
      (.ok updated, db.setEntry updated)

/-- `get_zone` fails. -/
def zoneMissing (tenantId : Uuid) (zoneId : Option Uuid) (db : Db N) : Bool :=
  zoneId.any fun zone => (tenantId, zone) ∉ db.zones

/-- `create_device`; the id is a fresh `uuid4`. -/
def createDevice (id tenantId : Uuid) (name : String) (entryId : Uuid) (zoneId : Option Uuid)
    (db : Db N) : Except ApiError (Device N) × Db N :=
  match getCatalogEntry tenantId entryId db with
  | none => (.error .entryNotFound, db)
  | some entry =>
      if entry.status = .disabled then (.error .entryDisabled, db)
      else if zoneMissing tenantId zoneId db then (.error .zoneNotFound, db)
      else if id ∈ db.devices.map (·.id) then (.error .internal, db)
      else
        let device : Device N :=
          { id := id, tenantId := tenantId, name := name, catalogEntryId := entryId,
            zoneId := zoneId }
        (.ok device, { db with devices := db.devices ++ [device] })

/-- `create_device_with_template`. -/
def createDeviceWithTemplate (id entryId tenantId : Uuid) (name : String)
    (template : CatalogEntryCreateRequest N) (zoneId : Option Uuid) (db : Db N) :
    Except ApiError (Device N) × Db N :=
  match createCatalogEntry folding entryId tenantId template false db with
  | (.error e, db) => (.error e, db)
  | (.ok entry, db) => createDevice id tenantId name entry.id zoneId db

/-- `get_device`. -/
def getDevice (tenantId deviceId : Uuid) (db : Db N) : Option (Device N) :=
  db.devices.find? fun d => d.tenantId = tenantId ∧ d.id = deviceId

/-- The wiring given to a device, against the keys of its template. -/
def checkOwnHardware (tenantId entryId : Uuid) (hardware : Option (Option (HardwareConfig N)))
    (db : Db N) : Except ApiError Unit :=
  match hardware with
  | some (some h) =>
      match getCatalogEntry tenantId entryId db with
      | none => .error .internal
      | some entry =>
          match checkKeys (some h) entry.metrics entry.actuators with
          | .error reason => .error (.hardwareMapping reason)
          | .ok () => .ok ()
  | _ => .ok ()

/-- `update_device`: name and status are assigned before the zone is looked up. -/
def updateDevice (tenantId deviceId : Uuid) (body : DeviceUpdateRequest N) (db : Db N) :
    Except ApiError (Device N) × Db N :=
  match getDevice tenantId deviceId db with
  | none => (.error .deviceNotFound, db)
  | some device =>
  match checkOwnHardware tenantId device.catalogEntryId body.hardware db with
  | .error e => (.error e, db)
  | .ok () =>
      let named : Device N :=
        { device with
          name := body.name.getD device.name
          status := body.status.getD device.status }
      if body.zoneId.any fun zoneId => zoneMissing tenantId zoneId db then
        (.error .zoneNotFound, db.setDevice named)
      else
        let updated : Device N :=
          { named with
            zoneId := body.zoneId.getD named.zoneId
            hardware := body.hardware.getD named.hardware }
        (.ok updated, db.setDevice updated)

end

/-! ## The routes -/

inductive Request (N : Type) where
  | createCatalogEntry (id tenantId : Uuid) (body : CatalogEntryCreateRequest N) (isLegacy : Bool)
  | updateCatalogEntry (tenantId entryId : Uuid) (body : CatalogEntryUpdateRequest N)
  | createDevice (id entryId tenantId : Uuid) (body : DeviceCreateRequest N)
  | updateDevice (tenantId deviceId : Uuid) (body : DeviceUpdateRequest N)

/-- A route, up to the end of its handler: its answer, and what its session has done so far. -/
def handle (folding : CaseFolding) (collate : String → String → Bool) (db : Db N) :
    Request N → Except ApiError Unit × Db N
  | .createCatalogEntry id tenantId body isLegacy =>
      if body.accepted then
        let (result, db) := createCatalogEntry folding id tenantId body isLegacy db
        (result.map fun _ => (), db)
      else (.error .unprocessable, db)
  | .updateCatalogEntry tenantId entryId body =>
      if body.accepted then
        match getCatalogEntry tenantId entryId db with
        | none => (.error .entryNotFound, db)
        | some entry =>
            let (result, db) := updateCatalogEntry folding collate entry body db
            (result.map fun _ => (), db)
      else (.error .unprocessable, db)
  | .createDevice id entryId tenantId body =>
      if body.accepted then
        let (result, db) :=
          match body.newTemplate, body.catalogEntryId with
          | some template, _ =>
              createDeviceWithTemplate folding id entryId tenantId body.name template body.zoneId db
          | none, some existing => createDevice id tenantId body.name existing body.zoneId db
          | none, none => (.error .unprocessable, db)
        (result.map fun _ => (), db)
      else (.error .unprocessable, db)
  | .updateDevice tenantId deviceId body =>
      if body.accepted then
        let (result, db) := updateDevice tenantId deviceId body db
        (result.map fun _ => (), db)
      else (.error .unprocessable, db)

/-- `get_session` around a route: an error rolls back, and so does a commit that fails. -/
def serve (folding : CaseFolding) (collate : String → String → Bool) (commits : Bool) (db : Db N)
    (request : Request N) : Except ApiError Unit × Db N :=
  match handle folding collate db request with
  | (.error e, _) => (.error e, db)
  | (.ok (), db') => if commits then (.ok (), db') else (.error .internal, db)

/-- One request after another, each with or without the database's consent. -/
def step (folding : CaseFolding) (collate : String → String → Bool) (db : Db N)
    (event : Request N × Bool) : Option (Db N) :=
  some (serve folding collate event.2 db event.1).2

/-! ## Wiring never dangles -/

/-- Every wiring fits the keys it names. -/
structure Consistent (db : Db N) : Prop where
  entryIds : (db.entries.map (·.id)).Nodup
  templates : ∀ e ∈ db.entries, checkKeys e.hardware e.metrics e.actuators = .ok ()
  devices : ∀ d ∈ db.devices, ∃ e ∈ db.entries, e.id = d.catalogEntryId ∧
    e.tenantId = d.tenantId ∧ checkKeys d.hardware e.metrics e.actuators = .ok ()

theorem checkKeys_none (metrics : List CatalogMetric) (actuators : List CatalogActuator) :
    checkKeys (none : Option (HardwareConfig N)) metrics actuators = .ok () := rfl

theorem getCatalogEntry_spec {tenantId entryId : Uuid} {db : Db N} {entry : CatalogEntry N}
    (h : getCatalogEntry tenantId entryId db = some entry) :
    entry ∈ db.entries ∧ entry.tenantId = tenantId ∧ entry.id = entryId := by
  have hrow := List.find?_some h
  exact ⟨List.mem_of_find?_eq_some h, of_decide_eq_true hrow⟩

theorem getDevice_spec {tenantId deviceId : Uuid} {db : Db N} {device : Device N}
    (h : getDevice tenantId deviceId db = some device) :
    device ∈ db.devices ∧ device.tenantId = tenantId ∧ device.id = deviceId := by
  have hrow := List.find?_some h
  exact ⟨List.mem_of_find?_eq_some h, of_decide_eq_true hrow⟩

/-- What is listed passes if and only if each of it does. -/
theorem checkDeviceHardware_ok {metrics : List CatalogMetric} {actuators : List CatalogActuator}
    {own : List (String × HardwareConfig N)} :
    checkDeviceHardware metrics actuators own = .ok () ↔
      ∀ item ∈ own, checkKeys (some item.2) metrics actuators = .ok () := by
  induction own with
  | nil => simp [checkDeviceHardware]
  | cons item rest ih =>
    obtain ⟨name, hardware⟩ := item
    rw [checkDeviceHardware, List.forall_mem_cons]
    cases hcheck : checkKeys (some hardware) metrics actuators with
    | error reason => simp
    | ok u => simp [ih]

/-- And everything on the template is listed. -/
theorem mem_listOwnHardware {collate : String → String → Bool} {tenantId entryId : Uuid}
    {db : Db N} {d : Device N} {hardware : HardwareConfig N} (hd : d ∈ db.devices)
    (htenant : d.tenantId = tenantId) (hentry : d.catalogEntryId = entryId)
    (hhardware : d.hardware = some hardware) :
    (d.name, hardware) ∈ listOwnHardware collate tenantId entryId db := by
  refine (List.mem_insertionSort _).mpr (List.mem_filterMap.mpr ⟨d, hd, ?_⟩)
  rw [if_pos ⟨htenant, hentry⟩, hhardware, Option.map_some]

theorem isSlug_actuator : IsSlug "actuator" := by
  intro c hc
  have hall : "actuator".toList.all isSlugChar = true := by decide
  exact List.all_eq_true.mp hall c hc

/-- Every actuator of a new template has a key of the pattern, and no key occurs twice. -/
theorem normalizeActuators_keyed {folding : CaseFolding} {actuators out : List CatalogActuator}
    (h : normalizeActuators folding actuators [] = .ok out) :
    (∀ a ∈ out, ∃ key, a.key = some key ∧ matchesKeyPattern key = true) ∧
      (out.map CatalogActuator.key).Nodup := by
  unfold normalizeActuators at h
  dsimp only at h
  split at h
  · cases h
  · rename_i normalized hnormalized
    split at h
    · cases h
    · rename_i hformat
      obtain rfl := Except.ok.inj h
      obtain ⟨⟨hevery, hnodup⟩, -⟩ := normalizeKeyedItems_keyed isSlug_actuator hnormalized
      constructor
      · intro a ha
        obtain ⟨item, hitem, rfl⟩ := List.mem_map.mp ha
        obtain ⟨key, -, hkey⟩ := hevery item hitem
        have hgood := firstRefused_eq_none.mp hformat item hitem key hkey
        exact ⟨key, hkey, by simpa using hgood⟩
      · rw [List.map_map]
        exact hnodup

/-- A new template, when there is one. -/
theorem createCatalogEntry_spec {folding : CaseFolding} {id tenantId : Uuid}
    {body : CatalogEntryCreateRequest N} {isLegacy : Bool} {db db' : Db N} {entry : CatalogEntry N}
    (h : createCatalogEntry folding id tenantId body isLegacy db = (.ok entry, db')) :
    db' = { db with entries := db.entries ++ [entry] } ∧ entry.id = id ∧
      id ∉ db.entries.map (·.id) ∧ entry.tenantId = tenantId ∧
      checkKeys entry.hardware entry.metrics entry.actuators = .ok () := by
  unfold createCatalogEntry at h
  cases hmetrics : normalizeMetrics folding body.metrics [] with
  | error e => simp [hmetrics] at h
  | ok metrics =>
  cases hactuators : normalizeActuators folding body.actuators [] with
  | error e => simp [hmetrics, hactuators] at h
  | ok actuators =>
  cases hcheck : checkKeys body.hardware metrics actuators with
  | error reason => simp [hmetrics, hactuators, hcheck] at h
  | ok u =>
    simp only [hmetrics, hactuators, hcheck] at h
    split at h
    · cases h
    · split at h
      · cases h
      · rename_i hfresh
        cases h
        exact ⟨rfl, rfl, hfresh, rfl, hcheck⟩

/-- A template's update, when it is made: the entry keeps its place, and its wiring and that of its
devices fit what it has become. -/
theorem updateCatalogEntry_spec {folding : CaseFolding} {collate : String → String → Bool}
    {entry updated : CatalogEntry N} {body : CatalogEntryUpdateRequest N} {db db' : Db N}
    (h : updateCatalogEntry folding collate entry body db = (.ok updated, db')) :
    db' = db.setEntry updated ∧ updated.id = entry.id ∧ updated.tenantId = entry.tenantId ∧
      checkKeys updated.hardware updated.metrics updated.actuators = .ok () ∧
      ((updated.metrics = entry.metrics ∧ updated.actuators = entry.actuators) ∨
        ∀ item ∈ listOwnHardware collate entry.tenantId entry.id db,
          checkKeys (some item.2) updated.metrics updated.actuators = .ok ()) := by
  unfold updateCatalogEntry at h
  dsimp only at h
  split at h
  · cases h
  · rename_i newMetrics hmetrics
    split at h
    · cases h
    · rename_i newActuators hactuators
      split at h
      · cases h
      · rename_i hcheck
        split at h
        · cases h
        · split at h
          · cases h
          · rename_i hdevices
            cases h
            refine ⟨rfl, rfl, rfl, hcheck, ?_⟩
            split at hdevices
            · exact .inr (checkDeviceHardware_ok.mp hdevices)
            · rename_i hneither
              rw [Bool.not_eq_true, Bool.or_eq_false_iff] at hneither
              obtain ⟨hnoMetrics, hnoActuators⟩ := hneither
              rw [Option.isSome_eq_false_iff, Option.isNone_iff_eq_none] at hnoMetrics hnoActuators
              rw [hnoMetrics] at hmetrics
              rw [hnoActuators] at hactuators
              exact .inl ⟨(Except.ok.inj hmetrics).symm, (Except.ok.inj hactuators).symm⟩

/-- A new device has no wiring of its own, and a template of its tenant. -/
theorem createDevice_spec {id tenantId : Uuid} {name : String} {entryId : Uuid}
    {zoneId : Option Uuid} {db db' : Db N} {device : Device N}
    (h : createDevice id tenantId name entryId zoneId db = (.ok device, db')) :
    db' = { db with devices := db.devices ++ [device] } ∧ device.hardware = none ∧
      ∃ entry ∈ db.entries, entry.id = device.catalogEntryId ∧ entry.tenantId = device.tenantId := by
  unfold createDevice at h
  cases hentry : getCatalogEntry tenantId entryId db with
  | none => simp [hentry] at h
  | some entry =>
    simp only [hentry] at h
    split at h
    · cases h
    · split at h
      · cases h
      · split at h
        · cases h
        · cases h
          obtain ⟨hmem, htenant, hid⟩ := getCatalogEntry_spec hentry
          exact ⟨rfl, rfl, entry, hmem, hid, htenant⟩

/-- A device's update, when it is made: its template stays, and new wiring fits it. -/
theorem updateDevice_spec {tenantId deviceId : Uuid} {body : DeviceUpdateRequest N} {db db' : Db N}
    {updated : Device N} (h : updateDevice tenantId deviceId body db = (.ok updated, db')) :
    ∃ device ∈ db.devices, db' = db.setDevice updated ∧
      updated.catalogEntryId = device.catalogEntryId ∧ updated.tenantId = device.tenantId ∧
      (updated.hardware = device.hardware ∨ updated.hardware = none ∨
        ∃ entry ∈ db.entries, entry.id = device.catalogEntryId ∧
          checkKeys updated.hardware entry.metrics entry.actuators = .ok ()) := by
  unfold updateDevice at h
  cases hdevice : getDevice tenantId deviceId db with
  | none => simp [hdevice] at h
  | some device =>
  cases hown : checkOwnHardware tenantId device.catalogEntryId body.hardware db with
  | error e => simp [hdevice, hown] at h
  | ok u =>
    simp only [hdevice, hown] at h
    split at h
    · cases h
    · cases h
      obtain ⟨hmem, _, _⟩ := getDevice_spec hdevice
      refine ⟨device, hmem, rfl, rfl, rfl, ?_⟩
      unfold checkOwnHardware at hown
      cases hhardware : body.hardware with
      | none => exact .inl rfl
      | some given =>
      cases given with
      | none => exact .inr (.inl rfl)
      | some hardware =>
        rw [hhardware] at hown
        dsimp only at hown
        split at hown
        · cases hown
        · rename_i entry hentry
          split at hown
          · cases hown
          · rename_i hcheck
            obtain ⟨hin, _, hid⟩ := getCatalogEntry_spec hentry
            exact .inr (.inr ⟨entry, hin, hid, hcheck⟩)

namespace Consistent

variable {db : Db N}

theorem entry_eq (hc : Consistent db) {e e' : CatalogEntry N} (he : e ∈ db.entries)
    (he' : e' ∈ db.entries) (hid : e.id = e'.id) : e = e' :=
  List.inj_on_of_nodup_map hc.entryIds he he' hid

/-- A template is added. -/
theorem addEntry (hc : Consistent db) {entry : CatalogEntry N}
    (hfresh : entry.id ∉ db.entries.map (·.id))
    (hcheck : checkKeys entry.hardware entry.metrics entry.actuators = .ok ()) :
    Consistent { db with entries := db.entries ++ [entry] } where
  entryIds := by
    rw [List.map_append]
    refine List.nodup_append.mpr ⟨hc.entryIds, List.nodup_singleton _, ?_⟩
    intro id hid id' hid' heq
    obtain rfl := List.mem_singleton.mp hid'
    rw [heq] at hid
    exact hfresh hid
  templates := by
    intro e he
    rcases List.mem_append.mp he with he | he
    · exact hc.templates e he
    · obtain rfl := List.mem_singleton.mp he
      exact hcheck
  devices := by
    intro d hd
    obtain ⟨e, he, hfits⟩ := hc.devices d hd
    exact ⟨e, List.mem_append_left _ he, hfits⟩

/-- A template is changed, and what the devices on it have still fits. -/
theorem setEntry (hc : Consistent db) {entry updated : CatalogEntry N} (hentry : entry ∈ db.entries)
    (hid : updated.id = entry.id) (htenant : updated.tenantId = entry.tenantId)
    (hcheck : checkKeys updated.hardware updated.metrics updated.actuators = .ok ())
    (hdevices : ∀ d ∈ db.devices, d.tenantId = entry.tenantId → d.catalogEntryId = entry.id →
      checkKeys d.hardware updated.metrics updated.actuators = .ok ()) :
    Consistent (db.setEntry updated) where
  entryIds := by
    have hids : (db.setEntry updated).entries.map (·.id) = db.entries.map (·.id) := by
      unfold Db.setEntry
      rw [List.map_map]
      refine List.map_congr_left fun e _ => ?_
      show (if e.id = updated.id then updated else e).id = e.id
      split
      · rename_i heq
        exact heq.symm
      · rfl
    rw [hids]
    exact hc.entryIds
  templates := by
    intro e he
    obtain ⟨e', he', rfl⟩ := List.mem_map.mp he
    split
    · exact hcheck
    · exact hc.templates e' he'
  devices := by
    intro d hd
    obtain ⟨e, he, heid, hetenant, hfits⟩ := hc.devices d hd
    refine ⟨_, List.mem_map.mpr ⟨e, he, rfl⟩, ?_⟩
    by_cases hsame : e.id = updated.id
    · obtain rfl := hc.entry_eq he hentry (hsame.trans hid)
      rw [if_pos hsame]
      exact ⟨hsame ▸ heid, htenant.trans hetenant, hdevices d hd hetenant.symm heid.symm⟩
    · rw [if_neg hsame]
      exact ⟨heid, hetenant, hfits⟩

/-- A device is added, without wiring of its own. -/
theorem addDevice (hc : Consistent db) {device : Device N} (hnone : device.hardware = none)
    (hentry : ∃ entry ∈ db.entries, entry.id = device.catalogEntryId ∧
      entry.tenantId = device.tenantId) :
    Consistent { db with devices := db.devices ++ [device] } where
  entryIds := hc.entryIds
  templates := hc.templates
  devices := by
    intro d hd
    rcases List.mem_append.mp hd with hd | hd
    · exact hc.devices d hd
    · obtain rfl := List.mem_singleton.mp hd
      obtain ⟨entry, hin, hid, htenant⟩ := hentry
      exact ⟨entry, hin, hid, htenant, by rw [hnone]; exact checkKeys_none _ _⟩

/-- A device is changed, and its wiring is the old one, none, or one that fits. -/
theorem setDevice (hc : Consistent db) {device updated : Device N} (hdevice : device ∈ db.devices)
    (hentry : updated.catalogEntryId = device.catalogEntryId)
    (htenant : updated.tenantId = device.tenantId)
    (hfits : updated.hardware = device.hardware ∨ updated.hardware = none ∨
      ∃ entry ∈ db.entries, entry.id = device.catalogEntryId ∧
        checkKeys updated.hardware entry.metrics entry.actuators = .ok ()) :
    Consistent (db.setDevice updated) where
  entryIds := hc.entryIds
  templates := hc.templates
  devices := by
    intro d hd
    obtain ⟨d', hd', rfl⟩ := List.mem_map.mp hd
    split
    · obtain ⟨e, he, heid, hetenant, hold⟩ := hc.devices device hdevice
      refine ⟨e, he, heid.trans hentry.symm, hetenant.trans htenant.symm, ?_⟩
      rcases hfits with hsame | hnone | ⟨entry, hin, hid, hcheck⟩
      · rw [hsame]
        exact hold
      · rw [hnone]
        exact checkKeys_none _ _
      · obtain rfl := hc.entry_eq he hin (heid.trans hid.symm)
        exact hcheck
    · exact hc.devices d' hd'

end Consistent

theorem createCatalogEntry_consistent {folding : CaseFolding} {id tenantId : Uuid}
    {body : CatalogEntryCreateRequest N} {isLegacy : Bool} {db db' : Db N} {entry : CatalogEntry N}
    (hc : Consistent db)
    (h : createCatalogEntry folding id tenantId body isLegacy db = (.ok entry, db')) :
    Consistent db' := by
  obtain ⟨rfl, hid, hfresh, _, hcheck⟩ := createCatalogEntry_spec h
  exact hc.addEntry (hid ▸ hfresh) hcheck

theorem createDevice_consistent {id tenantId : Uuid} {name : String} {entryId : Uuid}
    {zoneId : Option Uuid} {db db' : Db N} {device : Device N} (hc : Consistent db)
    (h : createDevice id tenantId name entryId zoneId db = (.ok device, db')) :
    Consistent db' := by
  obtain ⟨rfl, hnone, hentry⟩ := createDevice_spec h
  exact hc.addDevice hnone hentry

/-- **A request that succeeds keeps wiring consistent**, one case for each route. -/
theorem handle_consistent {folding : CaseFolding} {collate : String → String → Bool}
    {db db' : Db N} {request : Request N} (hc : Consistent db)
    (h : handle folding collate db request = (.ok (), db')) : Consistent db' := by
  cases request with
  | createCatalogEntry id tenantId body isLegacy =>
    unfold handle at h
    dsimp only at h
    split at h
    · cases hresult : createCatalogEntry folding id tenantId body isLegacy db with
      | mk result db₁ =>
      cases result with
      | error e => simp [hresult, Except.map] at h
      | ok entry =>
        rw [hresult] at h
        cases h
        exact createCatalogEntry_consistent hc hresult
    · cases h
  | updateCatalogEntry tenantId entryId body =>
    unfold handle at h
    dsimp only at h
    split at h
    · cases hentry : getCatalogEntry tenantId entryId db with
      | none => simp [hentry] at h
      | some entry =>
      cases hresult : updateCatalogEntry folding collate entry body db with
      | mk result db₁ =>
      cases result with
      | error e => simp [hentry, hresult, Except.map] at h
      | ok updated =>
        simp only [hentry, hresult] at h
        cases h
        obtain ⟨hin, _, _⟩ := getCatalogEntry_spec hentry
        obtain ⟨rfl, hid, htenant, hcheck, hkeys⟩ := updateCatalogEntry_spec hresult
        refine hc.setEntry hin hid htenant hcheck fun d hd hdtenant hdentry => ?_
        rcases hkeys with ⟨hmetrics, hactuators⟩ | hlisted
        · -- the keys are the old ones
          obtain ⟨e, he, heid, _, hfits⟩ := hc.devices d hd
          obtain rfl := hc.entry_eq he hin (heid.trans hdentry)
          rw [hmetrics, hactuators]
          exact hfits
        · cases hhardware : d.hardware with
          | none => exact checkKeys_none _ _
          | some hardware =>
            exact hlisted _ (mem_listOwnHardware hd hdtenant hdentry hhardware)
    · cases h
  | createDevice id entryId tenantId body =>
    unfold handle at h
    dsimp only at h
    split at h
    · cases htemplate : body.newTemplate with
      | none =>
        cases hexisting : body.catalogEntryId with
        | none => simp [htemplate, hexisting, Except.map] at h
        | some existing =>
        cases hresult : createDevice id tenantId body.name existing body.zoneId db with
        | mk result db₁ =>
        cases result with
        | error e => simp [htemplate, hexisting, hresult, Except.map] at h
        | ok device =>
          simp only [htemplate, hexisting, hresult] at h
          cases h
          exact createDevice_consistent hc hresult
      | some template =>
        simp only [htemplate, createDeviceWithTemplate] at h
        cases hentry : createCatalogEntry folding entryId tenantId template false db with
        | mk result db₁ =>
        cases result with
        | error e => simp [hentry, Except.map] at h
        | ok entry =>
        simp only [hentry] at h
        cases hresult : createDevice id tenantId body.name entry.id body.zoneId db₁ with
        | mk result db₂ =>
        cases result with
        | error e => simp [hresult, Except.map] at h
        | ok device =>
          rw [hresult] at h
          cases h
          exact createDevice_consistent (createCatalogEntry_consistent hc hentry) hresult
    · cases h
  | updateDevice tenantId deviceId body =>
    unfold handle at h
    dsimp only at h
    split at h
    · cases hresult : updateDevice tenantId deviceId body db with
      | mk result db₁ =>
      cases result with
      | error e => simp [hresult, Except.map] at h
      | ok updated =>
        rw [hresult] at h
        cases h
        obtain ⟨device, hin, rfl, hentry, htenant, hfits⟩ := updateDevice_spec hresult
        exact hc.setDevice hin hentry htenant hfits
    · cases h

/-- A refused request leaves every row as it was, whatever its session had done. -/
theorem serve_refused {folding : CaseFolding} {collate : String → String → Bool} {commits : Bool}
    {db : Db N} {request : Request N} {e : ApiError}
    (h : (serve folding collate commits db request).1 = .error e) :
    (serve folding collate commits db request).2 = db := by
  unfold serve at h ⊢
  split
  · rfl
  · rename_i db' hhandle
    rw [hhandle] at h
    dsimp only at h
    split at h
    · cases h
    · rename_i hcommits
      rw [if_neg hcommits]

theorem serve_consistent {folding : CaseFolding} {collate : String → String → Bool}
    {commits : Bool} {db : Db N} {request : Request N} (hc : Consistent db) :
    Consistent (serve folding collate commits db request).2 := by
  unfold serve
  split
  · exact hc
  · rename_i db' hhandle
    split
    · exact handle_consistent hc hhandle
    · exact hc

/-- **Wiring never dangles.** From a database without templates and devices, whatever succeeds and
whatever is refused: every template's wiring fits its keys, every device's own wiring fits the keys
of its template, and a refused request changes nothing. -/
theorem hardware_never_dangles {folding : CaseFolding} {collate : String → String → Bool}
    {zones : List (Uuid × Uuid)} {db : Db N}
    (h : Reaches (step folding collate) Always { zones := zones } db) :
    (∀ e ∈ db.entries, checkKeys e.hardware e.metrics e.actuators = .ok ()) ∧
    (∀ d ∈ db.devices, ∃ e ∈ db.entries, e.id = d.catalogEntryId ∧
      ∀ e' ∈ db.entries, e'.id = d.catalogEntryId →
        checkKeys d.hardware e'.metrics e'.actuators = .ok ()) ∧
    ∀ request commits e, (serve folding collate commits db request).1 = .error e →
      (serve folding collate commits db request).2 = db := by
  have hstart : Consistent ({ zones := zones } : Db N) :=
    ⟨List.nodup_nil, fun _ h => (by cases h), fun _ h => (by cases h)⟩
  have hc : Consistent db := h.invariant hstart fun db event db' hc _ hstep => by
    cases hstep
    exact serve_consistent hc
  refine ⟨hc.templates, fun d hd => ?_, fun _ _ _ => serve_refused⟩
  obtain ⟨e, he, hid, _, hfits⟩ := hc.devices d hd
  refine ⟨e, he, hid, fun e' he' hid' => ?_⟩
  obtain rfl := hc.entry_eq he' he (hid'.trans hid.symm)
  exact hfits

/-! ## A boiler with wiring of its own -/

/-- Lower-case names only. -/
def lowerCase : CaseFolding := ⟨id, lower_slug_id⟩

def collateNames (a b : String) : Bool := decide (a ≤ b)

/-- A probe on pin 4. -/
def probe : HardwareConfig Int :=
  { inputs :=
      [{ driver := "ds18b20", pins := [("data", 4)], channels := [("temperature", "water")] }] }

def boilerRun : List (Request Int × Bool) :=
  [(.createCatalogEntry "boiler" "acme" { name := "boiler", metrics := [{ name := "water" }] } false,
      true),
    (.createDevice "cellar" "unused" "acme" { name := "cellar", catalogEntryId := some "boiler" },
      true),
    (.updateDevice "acme" "cellar" { hardware := some (some probe) }, true)]

/-- The key the probe feeds cannot be taken from the template. -/
theorem hardware_never_dangles_boiler :
    ∃ db, run (step lowerCase collateNames) {} boilerRun = some db ∧
      (serve lowerCase collateNames true db
        (.updateCatalogEntry "acme" "boiler" { metrics := some [] })).1 =
          .error (.hardwareMapping ("cellar has its own wiring, and it no longer fits: " ++
            "ds18b20.temperature feeds 'water', which isn't a metric of this template. " ++
            "Fix that device's wiring or reset it to the template's first.")) ∧
      (serve lowerCase collateNames true db
        (.updateCatalogEntry "acme" "boiler" { metrics := some [] })).2 = db := by
  obtain ⟨db, hdb⟩ : ∃ db, run (step lowerCase collateNames) {} boilerRun = some db := ⟨_, rfl⟩
  have hrefused : ((run (step lowerCase collateNames) {} boilerRun).map fun db =>
      (serve lowerCase collateNames true db
        (.updateCatalogEntry "acme" "boiler" { metrics := some [] })).1) =
      some (.error (.hardwareMapping ("cellar has its own wiring, and it no longer fits: " ++
        "ds18b20.temperature feeds 'water', which isn't a metric of this template. " ++
        "Fix that device's wiring or reset it to the template's first."))) := by
    decide +kernel
  rw [hdb] at hrefused
  have hanswer := Option.some.inj hrefused
  exact ⟨db, hdb, hanswer, (hardware_never_dangles (Reaches.of_run hdb)).2.2 _ _ _ hanswer⟩

end IotSaas.Catalog
