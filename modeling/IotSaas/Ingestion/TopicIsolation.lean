import IotSaas.Health.Staleness
import IotSaas.Lib.Mqtt
import IotSaas.Worker.HandleMessage

/-!
# `Ingestion/TopicIsolation.lean` — a device and its own subtree

Three string functions have to agree. `emqx_authorize` lets a device use every topic and filter that
starts with `{tenant}/{device}/`; the parsers of `handle_message` cut a topic into segments; and
`resolve_device_for_topic` looks the first two up, through a cache that lives five minutes.

They do, because a slug is made of letters, digits and hyphens: it has no `/`, so what the prefix
check compares are the first two levels (`levels_topic`), and it is no wildcard, so a filter that
begins with it matches topics that begin with it. The rest is uniqueness of slugs in their scope,
which a `Directory` carries (`addTenant`, `addDevice` keep it).
-/

set_option autoImplicit false

namespace IotSaas.Ingestion

open Lib Rules Catalog

/-! ## Tenants and devices -/

structure Tenant where
  id : Uuid
  slug : String

/-- A device row: what authorization and resolution read of it. -/
structure Device where
  id : Uuid
  tenantId : Uuid
  slug : String
  status : DeviceStatus := .active

/-- The row after `UPDATE devices SET status … WHERE id = …`. -/
def switched (id : Uuid) (status : DeviceStatus) (d : Device) : Device :=
  if d.id = id then { d with status := status } else d

@[simp] theorem switched_id (id : Uuid) (status : DeviceStatus) (d : Device) :
    (switched id status d).id = d.id := by
  unfold switched
  split <;> rfl

@[simp] theorem switched_tenantId (id : Uuid) (status : DeviceStatus) (d : Device) :
    (switched id status d).tenantId = d.tenantId := by
  unfold switched
  split <;> rfl

@[simp] theorem switched_slug (id : Uuid) (status : DeviceStatus) (d : Device) :
    (switched id status d).slug = d.slug := by
  unfold switched
  split <;> rfl

/-- `_unique_slug`, of either scope: the first of `base`, `base-2`, … that is not taken. -/
def uniqueSlug (folding : CaseFolding) (name fallback : String) (taken : List String) : String :=
  firstFree id (suffixed (slugify folding name fallback)) taken

/-- A slug that `_unique_slug` can have returned. -/
def Slugged (folding : CaseFolding) (fallback slug : String) : Prop :=
  ∃ name i, slug = suffixed (slugify folding name fallback) i

theorem uniqueSlug_slugged (folding : CaseFolding) (name fallback : String) (taken : List String) :
    Slugged folding fallback (uniqueSlug folding name fallback taken) := by
  obtain ⟨i, hi⟩ := firstFree_eq id (suffixed (slugify folding name fallback)) taken
  exact ⟨name, i, hi⟩

theorem uniqueSlug_free (folding : CaseFolding) (name fallback : String) (taken : List String) :
    uniqueSlug folding name fallback taken ∉ taken := by
  have hinj : ∀ i j, id (suffixed (slugify folding name fallback) i) =
      id (suffixed (slugify folding name fallback) j) → i = j :=
    fun i j h => suffixed_injective _ i j h
  exact firstFree_not_mem hinj

/-- The rows, with the slugs of each scope told apart. -/
structure Directory (folding : CaseFolding) where
  tenants : List Tenant := []
  devices : List Device := []
  tenant_slugged : ∀ t ∈ tenants, Slugged folding "tenant" t.slug
  device_slugged : ∀ d ∈ devices, Slugged folding "device" d.slug
  tenant_ids : (tenants.map (·.id)).Nodup
  tenant_slugs : (tenants.map (·.slug)).Nodup
  device_ids : (devices.map (·.id)).Nodup
  device_slugs : (devices.map fun d => (d.tenantId, d.slug)).Nodup
  tenant_of : ∀ d ∈ devices, ∃ t ∈ tenants, t.id = d.tenantId

namespace Directory

variable {folding : CaseFolding}

def empty : Directory folding where
  tenants := []
  devices := []
  tenant_slugged := fun _ h => (by cases h)
  device_slugged := fun _ h => (by cases h)
  tenant_ids := List.nodup_nil
  tenant_slugs := List.nodup_nil
  device_ids := List.nodup_nil
  device_slugs := List.nodup_nil
  tenant_of := fun _ h => (by cases h)

/-- `create_tenant_with_owner`, as far as the tenant's row; the id is a fresh `uuid4`. -/
def addTenant (dir : Directory folding) (id : Uuid) (name : String)
    (fresh : id ∉ dir.tenants.map (·.id)) : Directory folding :=
  let slug := uniqueSlug folding name "tenant" (dir.tenants.map (·.slug))
  { dir with
    tenants := dir.tenants ++ [⟨id, slug⟩]
    tenant_slugged := by
      intro t ht
      rcases List.mem_append.mp ht with ht | ht
      · exact dir.tenant_slugged t ht
      · obtain rfl := List.mem_singleton.mp ht
        exact uniqueSlug_slugged _ _ _ _
    tenant_ids := by
      rw [List.map_append]
      exact Health.nodup_snoc dir.tenant_ids fresh
    tenant_slugs := by
      rw [List.map_append]
      exact Health.nodup_snoc dir.tenant_slugs (uniqueSlug_free _ _ _ _)
    tenant_of := by
      intro d hd
      obtain ⟨t, ht, hid⟩ := dir.tenant_of d hd
      exact ⟨t, List.mem_append_left _ ht, hid⟩ }

/-- `create_device`, as far as topics go. -/
def addDevice (dir : Directory folding) (id : Uuid) (tenant : Tenant) (name : String)
    (ht : tenant ∈ dir.tenants) (fresh : id ∉ dir.devices.map (·.id)) : Directory folding :=
  let taken := (dir.devices.filter fun d => d.tenantId = tenant.id).map (·.slug)
  let slug := uniqueSlug folding name "device" taken
  { dir with
    devices := dir.devices ++ [{ id := id, tenantId := tenant.id, slug := slug }]
    device_slugged := by
      intro d hd
      rcases List.mem_append.mp hd with hd | hd
      · exact dir.device_slugged d hd
      · obtain rfl := List.mem_singleton.mp hd
        exact uniqueSlug_slugged _ _ _ _
    device_ids := by
      rw [List.map_append]
      exact Health.nodup_snoc dir.device_ids fresh
    device_slugs := by
      rw [List.map_append]
      refine Health.nodup_snoc dir.device_slugs fun hin => ?_
      obtain ⟨d, hd, heq⟩ := List.mem_map.mp hin
      obtain ⟨htenant, hslug⟩ := Prod.mk.inj heq
      apply uniqueSlug_free folding name "device" taken
      exact List.mem_map.mpr ⟨d, List.mem_filter.mpr ⟨hd, by simpa using htenant⟩, hslug⟩
    tenant_of := by
      intro d hd
      rcases List.mem_append.mp hd with hd | hd
      · exact dir.tenant_of d hd
      · obtain rfl := List.mem_singleton.mp hd
        exact ⟨tenant, ht, rfl⟩ }

/-- `UPDATE devices SET status`: ids, tenants and slugs never change. -/
def setStatus (dir : Directory folding) (id : Uuid) (status : DeviceStatus) : Directory folding :=
  { dir with
    devices := dir.devices.map (switched id status)
    device_slugged := by
      intro d hd
      obtain ⟨d', hd', rfl⟩ := List.mem_map.mp hd
      rw [switched_slug]
      exact dir.device_slugged d' hd'
    device_ids := by simpa [Function.comp_def] using dir.device_ids
    device_slugs := by simpa [Function.comp_def] using dir.device_slugs
    tenant_of := by
      intro d hd
      obtain ⟨d', hd', rfl⟩ := List.mem_map.mp hd
      rw [switched_tenantId]
      exact dir.tenant_of d' hd' }

/-- `devices d JOIN tenants t ON t.id = d.tenant_id`. -/
def joined (dir : Directory folding) : List (Device × Tenant) :=
  dir.devices.flatMap fun d => (dir.tenants.filter fun t => t.id = d.tenantId).map fun t => (d, t)

/-- A device and what its topics begin with. -/
structure Identity where
  deviceId : Uuid
  tenantId : Uuid
  tenantSlug : String
  deviceSlug : String

def identity (row : Device × Tenant) : Identity :=
  ⟨row.1.id, row.1.tenantId, row.2.slug, row.1.slug⟩

/-- The set of devices, whatever their status. -/
def identities (dir : Directory folding) : List Identity := dir.joined.map identity

@[simp] theorem identities_setStatus (dir : Directory folding) (id : Uuid)
    (status : DeviceStatus) : (dir.setStatus id status).identities = dir.identities := by
  simp [identities, joined, setStatus, identity, List.map_flatMap, List.flatMap_map,
    Function.comp_def]

theorem mem_joined {dir : Directory folding} {d : Device} {t : Tenant} :
    (d, t) ∈ dir.joined ↔ d ∈ dir.devices ∧ t ∈ dir.tenants ∧ t.id = d.tenantId := by
  simp [joined]

/-- One row of the join for each device id. -/
theorem joined_eq_of_id {dir : Directory folding} {row row' : Device × Tenant}
    (h : row ∈ dir.joined) (h' : row' ∈ dir.joined) (hid : row.1.id = row'.1.id) : row = row' := by
  obtain ⟨hd, ht, htenant⟩ := mem_joined.mp h
  obtain ⟨hd', ht', htenant'⟩ := mem_joined.mp h'
  have hdevice : row.1 = row'.1 := List.inj_on_of_nodup_map dir.device_ids hd hd' hid
  refine Prod.ext hdevice (List.inj_on_of_nodup_map dir.tenant_ids ht ht' ?_)
  rw [htenant, htenant', hdevice]

/-- And for each pair of slugs. -/
theorem joined_eq_of_slugs {dir : Directory folding} {row row' : Device × Tenant}
    (h : row ∈ dir.joined) (h' : row' ∈ dir.joined) (htenant : row.2.slug = row'.2.slug)
    (hdevice : row.1.slug = row'.1.slug) : row = row' := by
  obtain ⟨hd, ht, hid⟩ := mem_joined.mp h
  obtain ⟨hd', ht', hid'⟩ := mem_joined.mp h'
  have htenants : row.2 = row'.2 := List.inj_on_of_nodup_map dir.tenant_slugs ht ht' htenant
  refine Prod.ext (List.inj_on_of_nodup_map dir.device_slugs hd hd' (Prod.ext ?_ hdevice)) htenants
  show row.1.tenantId = row'.1.tenantId
  rw [← hid, ← hid', htenants]

end Directory

/-! ## The lookups -/

/-- `DeviceAuthRecord`, less the token's hash, which only authentication reads. -/
structure DeviceAuthRecord where
  tenantId : Uuid
  tenantSlug : String
  deviceSlug : String
  status : DeviceStatus

section

variable {folding : CaseFolding} (dir : Directory folding)

/-- `lookup_device_for_auth`. -/
def lookupDeviceForAuth (deviceId : Uuid) : Option DeviceAuthRecord :=
  (dir.joined.find? fun row => row.1.id = deviceId).map fun row =>
    ⟨row.1.tenantId, row.2.slug, row.1.slug, row.1.status⟩

/-- `lookup_device_by_slug`. -/
def lookupDeviceBySlug (tenantSlug deviceSlug : String) : Option DeviceDirectoryRecord :=
  (dir.joined.find? fun row => row.2.slug = tenantSlug ∧ row.1.slug = deviceSlug).map fun row =>
    ⟨row.1.tenantId, row.1.id, row.1.status⟩

variable {dir}

theorem find?_eq_of_unique {α : Type} {p : α → Bool} {l : List α} {a : α} (ha : a ∈ l)
    (hp : p a = true) (huniq : ∀ b ∈ l, p b = true → b = a) : l.find? p = some a := by
  cases hfind : l.find? p with
  | none => exact absurd hp (List.find?_eq_none.mp hfind a ha)
  | some b => rw [huniq b (List.mem_of_find?_eq_some hfind) (List.find?_some hfind)]

theorem lookupDeviceForAuth_eq {row : Device × Tenant} (h : row ∈ dir.joined) :
    lookupDeviceForAuth dir row.1.id =
      some ⟨row.1.tenantId, row.2.slug, row.1.slug, row.1.status⟩ := by
  have hfind := find?_eq_of_unique (p := fun r : Device × Tenant => decide (r.1.id = row.1.id)) h
    (by simp) fun r hr hid => dir.joined_eq_of_id hr h (by simpa using hid)
  rw [lookupDeviceForAuth, hfind, Option.map_some]

theorem lookupDeviceBySlug_eq {row : Device × Tenant} (h : row ∈ dir.joined) :
    lookupDeviceBySlug dir row.2.slug row.1.slug =
      some ⟨row.1.tenantId, row.1.id, row.1.status⟩ := by
  have hfind := find?_eq_of_unique
    (p := fun r : Device × Tenant => decide (r.2.slug = row.2.slug ∧ r.1.slug = row.1.slug)) h
    (by simp) fun r hr hslugs => by
      obtain ⟨htenant, hdevice⟩ := of_decide_eq_true hslugs
      exact dir.joined_eq_of_slugs hr h htenant hdevice
  rw [lookupDeviceBySlug, hfind, Option.map_some]

end

/-! ## Authorization -/

/-- `EmqxAuthorizeRequest`. -/
structure EmqxAuthorizeRequest where
  username : String
  topic : String
  action : String

inductive EmqxResult where
  | allow | deny
  deriving DecidableEq

/-- `topic.startswith(start)`. -/
def startsWith (topic start : String) : Bool := start.toList.isPrefixOf topic.toList

def telemetryTopicFilter : String := "+/+/+"

def ackTopicFilter : String := "+/+/ack/+"

/-- `_is_worker_publish_topic`. -/
def isWorkerPublishTopic (topic : String) : Bool :=
  let parts := topicParts topic
  if parts.all (· ≠ "") then
    match parts with
    | [_, _, kind, _] => kind ∈ ["cmd", "state"]
    | [_, _, kind] => kind = "config"
    | _ => false
  else false

/-- `{tenant_slug}/{device_slug}/`. -/
def ownSubtree (tenantSlug deviceSlug : String) : String :=
  tenantSlug ++ ("/" ++ (deviceSlug ++ "/"))

/-- What the API is configured with, and `uuid.UUID(username)`. -/
structure Settings where
  mqttWorkerUsername : String := "__worker__"
  parseUuid : String → Option Uuid

/-- `emqx_authorize`. -/
def emqxAuthorize {folding : CaseFolding} (settings : Settings) (dir : Directory folding)
    (body : EmqxAuthorizeRequest) : EmqxResult :=
  if body.username = settings.mqttWorkerUsername then
    let allowed :=
      if body.action = "subscribe" then body.topic ∈ [telemetryTopicFilter, ackTopicFilter]
      else if body.action = "publish" then isWorkerPublishTopic body.topic
      else false
    if allowed then .allow else .deny
  else
    match settings.parseUuid body.username with
    | none => .deny
    | some deviceId =>
        match lookupDeviceForAuth dir deviceId with
        | none => .deny
        | some record =>
            if record.status = .active then
              if startsWith body.topic (ownSubtree record.tenantSlug record.deviceSlug) then .allow
              else .deny
            else .deny

/-! ## Resolution -/

structure CacheEntry where
  tenantId : Uuid
  deviceId : Uuid
  status : DeviceStatus
  cachedAt : Datetime

/-- `_directory_cache`. -/
abbrev DirectoryCache := Dict (String × String) CacheEntry

def directoryCacheTtl : Datetime := seconds 300

/-- The query of `resolve_device_for_topic`, and what it leaves in the cache. -/
def lookUp {folding : CaseFolding} (dir : Directory folding) (now : Datetime)
    (tenantSlug deviceSlug : String) (cache : DirectoryCache) :
    Option DeviceDirectoryRecord × DirectoryCache :=
  let key := (tenantSlug, deviceSlug)
  match lookupDeviceBySlug dir tenantSlug deviceSlug with
  | none => (none, cache.erase key)
  | some record =>
      (some record, cache.set key ⟨record.tenantId, record.deviceId, record.status, now⟩)

/-- `resolve_device_for_topic`. -/
def resolveDeviceForTopic {folding : CaseFolding} (dir : Directory folding) (now : Datetime)
    (tenantSlug deviceSlug : String) (cache : DirectoryCache) :
    Option DeviceDirectoryRecord × DirectoryCache :=
  match cache.get (tenantSlug, deviceSlug) with
  | none => lookUp dir now tenantSlug deviceSlug cache
  | some cached =>
      if now - cached.cachedAt < directoryCacheTtl then
        (some ⟨cached.tenantId, cached.deviceId, cached.status⟩, cache)
      else lookUp dir now tenantSlug deviceSlug cache

/-- What `handle_message` resolves: the slugs its parsers find, the ack topic tried first. -/
def slugsOf (topic : String) : Option (String × String) :=
  match parseAckTopic topic with
  | some ack => some (ack.tenantSlug, ack.deviceSlug)
  | none => (parseTopic topic).map fun parsed => (parsed.tenantSlug, parsed.deviceSlug)

/-! ## The running worker -/

structure State (folding : CaseFolding) where
  directory : Directory folding
  cache : DirectoryCache := .empty

/-- Any message resolved at any time, and devices switched on and off. -/
inductive Event where
  | resolve (now : Datetime) (tenantSlug deviceSlug : String)
  | setStatus (id : Uuid) (status : DeviceStatus)

def step {folding : CaseFolding} (s : State folding) : Event → Option (State folding)
  | .resolve now tenantSlug deviceSlug =>
      some { s with
        cache := (resolveDeviceForTopic s.directory now tenantSlug deviceSlug s.cache).2 }
  | .setStatus id status => some { s with directory := s.directory.setStatus id status }

/-! ## Slugs in topics -/

theorem isSlug_fallback {fallback : String} (h : fallback = "tenant" ∨ fallback = "device") :
    IsSlug fallback := by
  have hall : fallback.toList.all isSlugChar = true := by
    rcases h with rfl | rfl <;> decide
  exact List.all_eq_true.mp hall

theorem Slugged.isSlug {folding : CaseFolding} {fallback slug : String}
    (hfallback : fallback = "tenant" ∨ fallback = "device") (h : Slugged folding fallback slug) :
    IsSlug slug := by
  obtain ⟨name, i, rfl⟩ := h
  exact suffixed_isSlug (slugify_isSlug folding name (isSlug_fallback hfallback)) i

theorem not_mem_of_isSlug {slug : String} (h : IsSlug slug) {c : Char}
    (hc : isSlugChar c = false) : c ∉ slug.toList := by
  intro hmem
  rw [h c hmem] at hc
  cases hc

theorem literal_of_isSlug {slug : String} (h : IsSlug slug) : Mqtt.Literal slug := by
  constructor
  · rintro rfl
    exact not_mem_of_isSlug h (c := '+') (by decide) (by decide)
  · rintro rfl
    exact not_mem_of_isSlug h (c := '#') (by decide) (by decide)

/-- **Two levels:** what the prefix check compares, when slugs are slugs. -/
theorem levels_topic {topic tenantSlug deviceSlug : String} (ht : IsSlug tenantSlug)
    (hd : IsSlug deviceSlug) (h : startsWith topic (ownSubtree tenantSlug deviceSlug) = true) :
    ∃ rest, Mqtt.levels topic = tenantSlug :: deviceSlug :: rest := by
  obtain ⟨tail, htail⟩ := List.isPrefixOf_iff_prefix.mp h
  have htopic : topic =
      tenantSlug ++ ("/" ++ (deviceSlug ++ ("/" ++ String.ofList tail))) := by
    apply String.toList_injective
    rw [← htail]
    simp [ownSubtree, String.toList_append]
  have hslash : isSlugChar '/' = false := by decide
  rw [htopic, Mqtt.levels_cons (not_mem_of_isSlug ht hslash),
    Mqtt.levels_cons (not_mem_of_isSlug hd hslash)]
  exact ⟨_, rfl⟩

/-- What the parsers call the slugs are the first two levels. -/
theorem levels_of_slugsOf {topic tenantSlug deviceSlug : String}
    (h : slugsOf topic = some (tenantSlug, deviceSlug)) :
    ∃ rest, Mqtt.levels topic = tenantSlug :: deviceSlug :: rest := by
  have hparts : Mqtt.levels topic = topicParts topic := rfl
  rw [hparts]
  unfold slugsOf parseAckTopic parseTopic at h
  generalize topicParts topic = parts at h ⊢
  rcases parts with _ | ⟨a, _ | ⟨b, _ | ⟨c, _ | ⟨e, _ | ⟨f, rest⟩⟩⟩⟩⟩
  · cases h
  · cases h
  · cases h
  · dsimp only at h
    split at h
    · cases h
      exact ⟨_, rfl⟩
    · cases h
  · dsimp only at h
    split at h
    · rename_i hack
      split at hack
      · cases hack
        cases h
        exact ⟨_, rfl⟩
      · cases hack
    · cases h
  · cases h

/-! ## Isolation and attribution -/

/-- The request of a device: the username is its id, and not the worker's name. -/
def OfDevice (settings : Settings) (body : EmqxAuthorizeRequest) (deviceId : Uuid) : Prop :=
  body.username ≠ settings.mqttWorkerUsername ∧ settings.parseUuid body.username = some deviceId

section

variable {folding : CaseFolding}

namespace Directory

theorem slugs_of_mem {dir : Directory folding} {a : Identity} (ha : a ∈ dir.identities) :
    IsSlug a.tenantSlug ∧ IsSlug a.deviceSlug := by
  obtain ⟨⟨d, t⟩, hrow, rfl⟩ := List.mem_map.mp ha
  obtain ⟨hd, ht, _⟩ := mem_joined.mp hrow
  exact ⟨(dir.tenant_slugged t ht).isSlug (.inl rfl), (dir.device_slugged d hd).isSlug (.inr rfl)⟩

theorem identity_eq_of_slugs {dir : Directory folding} {a b : Identity}
    (ha : a ∈ dir.identities) (hb : b ∈ dir.identities) (ht : a.tenantSlug = b.tenantSlug)
    (hd : a.deviceSlug = b.deviceSlug) : a = b := by
  obtain ⟨row, hrow, rfl⟩ := List.mem_map.mp ha
  obtain ⟨row', hrow', rfl⟩ := List.mem_map.mp hb
  rw [joined_eq_of_slugs hrow hrow' ht hd]

end Directory

variable {dir : Directory folding}

/-- A device is allowed its own subtree and nothing else. -/
theorem allowed_startsWith {settings : Settings} {body : EmqxAuthorizeRequest}
    {a : Directory.Identity} (ha : a ∈ dir.identities) (hown : OfDevice settings body a.deviceId)
    (h : emqxAuthorize settings dir body = .allow) :
    startsWith body.topic (ownSubtree a.tenantSlug a.deviceSlug) = true := by
  obtain ⟨row, hrow, rfl⟩ := List.mem_map.mp ha
  have hlookup := lookupDeviceForAuth_eq hrow
  unfold emqxAuthorize at h
  rw [if_neg hown.1, hown.2] at h
  dsimp only [Directory.identity] at h
  rw [hlookup] at h
  dsimp only at h
  split at h
  · split at h
    · rename_i hstarts
      exact hstarts
    · cases h
  · cases h

/-- What the cache answers is a device of the set, under its own slugs. -/
def Faithful (dir : Directory folding) (cache : DirectoryCache) : Prop :=
  ∀ key entry, cache.get key = some entry →
    ⟨entry.deviceId, entry.tenantId, key.1, key.2⟩ ∈ dir.identities

variable {tenantSlug deviceSlug : String}

theorem lookup_mem {record : DeviceDirectoryRecord}
    (h : lookupDeviceBySlug dir tenantSlug deviceSlug = some record) :
    ⟨record.deviceId, record.tenantId, tenantSlug, deviceSlug⟩ ∈ dir.identities := by
  obtain ⟨row, hfind, rfl⟩ := Option.map_eq_some_iff.mp h
  have hslugs := List.find?_some hfind
  obtain ⟨rfl, rfl⟩ := of_decide_eq_true hslugs
  exact List.mem_map.mpr ⟨row, List.mem_of_find?_eq_some hfind, rfl⟩

variable {cache : DirectoryCache}

theorem lookUp_faithful {now : Datetime} (hc : Faithful dir cache) :
    Faithful dir (lookUp dir now tenantSlug deviceSlug cache).2 := by
  unfold lookUp
  intro key entry hget
  cases hlookup : lookupDeviceBySlug dir tenantSlug deviceSlug with
  | none =>
    simp only [hlookup] at hget
    exact hc key entry (Dict.get_of_get_erase hget)
  | some record =>
    simp only [hlookup, Dict.get_set] at hget
    split at hget
    · rename_i hkey
      cases hget
      rw [hkey]
      exact lookup_mem hlookup
    · exact hc key entry hget

theorem resolve_faithful {now : Datetime} (hc : Faithful dir cache) :
    Faithful dir (resolveDeviceForTopic dir now tenantSlug deviceSlug cache).2 := by
  unfold resolveDeviceForTopic
  split
  · exact lookUp_faithful hc
  · split
    · exact hc
    · exact lookUp_faithful hc

theorem lookUp_eq {now : Datetime} {a : Directory.Identity} (ha : a ∈ dir.identities) :
    ∃ record, (lookUp dir now a.tenantSlug a.deviceSlug cache).1 = some record ∧
      record.deviceId = a.deviceId ∧ record.tenantId = a.tenantId := by
  obtain ⟨row, hrow, rfl⟩ := List.mem_map.mp ha
  have hlookup := lookupDeviceBySlug_eq hrow
  simp only [lookUp, Directory.identity, hlookup]
  exact ⟨_, rfl, rfl, rfl⟩

/-- Looked up or remembered, a device's slugs resolve to it. -/
theorem resolve_eq {now : Datetime} {a : Directory.Identity} (ha : a ∈ dir.identities)
    (hc : Faithful dir cache) :
    ∃ record, (resolveDeviceForTopic dir now a.tenantSlug a.deviceSlug cache).1 = some record ∧
      record.deviceId = a.deviceId ∧ record.tenantId = a.tenantId := by
  unfold resolveDeviceForTopic
  cases hget : cache.get (a.tenantSlug, a.deviceSlug) with
  | none => exact lookUp_eq ha
  | some cached =>
    dsimp only
    split
    · have heq := Directory.identity_eq_of_slugs (hc _ _ hget) ha rfl rfl
      exact ⟨_, rfl, congrArg Directory.Identity.deviceId heq,
        congrArg Directory.Identity.tenantId heq⟩
    · exact lookUp_eq ha

/-- What a step keeps: the set of devices, and a cache that is faithful to it. -/
theorem step_faithful {s s' : State folding} {e : Event} (h : step s e = some s')
    (hc : Faithful s.directory s.cache) :
    s'.directory.identities = s.directory.identities ∧ Faithful s'.directory s'.cache := by
  cases e with
  | resolve now tenantSlug deviceSlug =>
    cases h
    exact ⟨rfl, resolve_faithful hc⟩
  | setStatus id status =>
    cases h
    refine ⟨Directory.identities_setStatus _ _ _, fun key entry hget => ?_⟩
    rw [Directory.identities_setStatus]
    exact hc key entry hget

theorem reachable_faithful {s : State folding} (h : Reaches step Always ⟨dir, .empty⟩ s) :
    s.directory.identities = dir.identities ∧ Faithful s.directory s.cache := by
  refine h.invariant (I := fun s => s.directory.identities = dir.identities ∧
    Faithful s.directory s.cache) ⟨rfl, fun key entry hget => by cases hget⟩ ?_
  intro s e s' hs _ hstep
  obtain ⟨hids, hfaithful⟩ := step_faithful hstep hs.2
  exact ⟨hids.trans hs.1, hfaithful⟩

/-- **Isolation and attribution.** Whatever a device is allowed at any moment, `+` and `#` included,
matches no topic of another device; and a message on a topic it may publish to, whenever it is
handled, resolves to that device. -/
theorem topic_isolation (settings : Settings) {dir : Directory folding} {s : State folding}
    (hs : Reaches step Always ⟨dir, .empty⟩ s) {a : Directory.Identity} (ha : a ∈ dir.identities)
    {body : EmqxAuthorizeRequest} (hown : OfDevice settings body a.deviceId)
    (hallow : emqxAuthorize settings s.directory body = .allow) :
    (∀ b ∈ dir.identities, b.deviceId ≠ a.deviceId → ∀ topic,
      startsWith topic (ownSubtree b.tenantSlug b.deviceSlug) = true →
        Mqtt.topicMatches body.topic topic = false) ∧
    ∀ s', Reaches step Always ⟨dir, .empty⟩ s' → ∀ now tenantSlug deviceSlug,
      slugsOf body.topic = some (tenantSlug, deviceSlug) →
        ∃ record, (resolveDeviceForTopic s'.directory now tenantSlug deviceSlug s'.cache).1 =
            some record ∧
          record.deviceId = a.deviceId ∧ record.tenantId = a.tenantId := by
  obtain ⟨hids, _⟩ := reachable_faithful hs
  have hstarts := allowed_startsWith (hids ▸ ha) hown hallow
  obtain ⟨hta, hda⟩ := Directory.slugs_of_mem ha
  obtain ⟨fs, hfilter⟩ := levels_topic hta hda hstarts
  constructor
  · intro b hb hne topic htopic
    obtain ⟨htb, hdb⟩ := Directory.slugs_of_mem hb
    obtain ⟨ts, hlevels⟩ := levels_topic htb hdb htopic
    rw [Bool.eq_false_iff]
    intro hmatch
    have hml : Mqtt.matchLevels ([a.tenantSlug, a.deviceSlug] ++ fs) (Mqtt.levels topic) = true := by
      have h := (Bool.and_eq_true_iff.mp hmatch).2
      rwa [hfilter] at h
    have hliteral : ∀ l ∈ [a.tenantSlug, a.deviceSlug], Mqtt.Literal l := by
      intro l hl
      rcases List.mem_cons.mp hl with rfl | hl
      · exact literal_of_isSlug hta
      · obtain rfl := List.mem_singleton.mp hl
        exact literal_of_isSlug hda
    obtain ⟨rest, hrest, _⟩ := Mqtt.matchLevels_append hliteral hml
    rw [hlevels] at hrest
    obtain ⟨htenant, htail⟩ := List.cons.inj hrest
    obtain ⟨hdevice, _⟩ := List.cons.inj htail
    exact hne (congrArg _ (Directory.identity_eq_of_slugs hb ha htenant hdevice))
  · intro s' hs' now tenantSlug deviceSlug hslugs
    obtain ⟨hids', hfaithful⟩ := reachable_faithful hs'
    obtain ⟨rest, hrest⟩ := levels_of_slugsOf hslugs
    rw [hfilter] at hrest
    obtain ⟨rfl, htail⟩ := List.cons.inj hrest
    obtain ⟨rfl, _⟩ := List.cons.inj htail
    exact resolve_eq (hids' ▸ ha) hfaithful

end

theorem runDeviceStatusRules_directory {F : Type} [PyFloat F] (env : Worker.Environment F)
    (directory : String → String → Option DeviceDirectoryRecord) (now : Datetime)
    (tenantId deviceId : Uuid) (online : Bool) (rules : List (Rule F)) (worker : Rules.Worker F) :
    Worker.runDeviceStatusRules { env with directory := directory } now tenantId deviceId online
        rules worker =
      Worker.runDeviceStatusRules env now tenantId deviceId online rules worker := by
  induction rules generalizing worker with
  | nil => rfl
  | cons rule rest ih =>
    simp only [Worker.runDeviceStatusRules]
    exact ih _

/-- **What `handle_message` asks the directory for** is what `slugsOf` finds, and nothing else. -/
theorem handle_directory {F : Type} [PyFloat F] (env : Worker.Environment F)
    (directory : String → String → Option DeviceDirectoryRecord) (message : Worker.Delivery)
    (s : Worker.IngestState F)
    (h : ∀ tenantSlug deviceSlug, slugsOf message.topic = some (tenantSlug, deviceSlug) →
      directory tenantSlug deviceSlug = env.directory tenantSlug deviceSlug) :
    message.handle { env with directory := directory } s = message.handle env s := by
  unfold slugsOf at h
  unfold Worker.Delivery.handle Worker.kindOf
  cases hack : parseAckTopic message.topic with
  | some ack =>
    rw [hack] at h
    have hdir := h ack.tenantSlug ack.deviceSlug rfl
    simp only [Worker.handleAck, Worker.resolveDeviceForTopic, hdir]
  | none =>
    cases hparsed : parseTopic message.topic with
    | none => rfl
    | some parsed =>
      rw [hack, hparsed] at h
      have hdir := h parsed.tenantSlug parsed.deviceSlug rfl
      by_cases hstatus : parsed.metric = reservedMetricStatus
      · simp only [hstatus, if_true, Worker.handleStatus, Worker.resolveDeviceForTopic, hdir,
          runDeviceStatusRules_directory]
      · simp only [hstatus, if_false, Worker.handleTelemetry, Worker.resolveDeviceForTopic, hdir]
        rfl

/-! ## Two devices with one slug a prefix of the other -/

def settings : Settings where
  parseUuid username := if username ∈ ["device-1", "device-2"] then some username else none

def twoPumps : Directory Health.asciiFolding where
  tenants := [⟨"tenant-1", "acme"⟩]
  devices := [⟨"device-1", "tenant-1", "pump", .active⟩, ⟨"device-2", "tenant-1", "pump-2", .active⟩]
  tenant_slugged := by
    intro t ht
    obtain rfl := List.mem_singleton.mp ht
    exact ⟨"Acme", 0, by decide +kernel⟩
  device_slugged := by
    intro d hd
    rcases List.mem_cons.mp hd with rfl | hd
    · exact ⟨"Pump", 0, by decide +kernel⟩
    · obtain rfl := List.mem_singleton.mp hd
      exact ⟨"Pump", 1, by decide +kernel⟩
  tenant_ids := by decide
  tenant_slugs := by decide
  device_ids := by decide
  device_slugs := by decide
  tenant_of := by
    intro d hd
    refine ⟨⟨"tenant-1", "acme"⟩, List.mem_singleton_self _, ?_⟩
    rcases List.mem_cons.mp hd with rfl | hd
    · rfl
    · obtain rfl := List.mem_singleton.mp hd
      rfl

/-- All of the pump's topics, and none of the second pump's. -/
theorem topic_isolation_pump :
    emqxAuthorize settings twoPumps ⟨"device-1", "acme/pump/#", "subscribe"⟩ = .allow ∧
    Mqtt.topicMatches "acme/pump/#" "acme/pump-2/temperature" = false := by
  have hallow : emqxAuthorize settings twoPumps ⟨"device-1", "acme/pump/#", "subscribe"⟩ =
      .allow := by decide +kernel
  have hids : twoPumps.identities =
      [⟨"device-1", "tenant-1", "acme", "pump"⟩, ⟨"device-2", "tenant-1", "acme", "pump-2"⟩] := rfl
  have hstart : Reaches step Always ⟨twoPumps, .empty⟩ ⟨twoPumps, .empty⟩ := .start
  have hisolated := topic_isolation settings hstart
    (a := ⟨"device-1", "tenant-1", "acme", "pump"⟩) (by simp [hids]) ⟨by decide, by decide⟩ hallow
  exact ⟨hallow, hisolated.1 ⟨"device-2", "tenant-1", "acme", "pump-2"⟩ (by simp [hids]) (by decide)
    _ (by decide)⟩

end IotSaas.Ingestion
