import IotSaas.Worker.ConfigPublish

/-!
# `Worker/ProfileEdit.lean` — which edits of a template reach a board

A config message has an item of some 80 bytes for every metric of the template, and a template may
have any number of them; the board's MQTT client drops a packet of more than 1024 bytes. The size
of the packet is a sum over the template (`configPayload_bytes`). A message that does arrive sets
every metric the board knows (`applyProfile_declared`), to the interval of the template unless that
many milliseconds overflow 32 bits. Both conditions together are exact (`reaches_iff`).
-/

set_option autoImplicit false

namespace IotSaas.Worker.ConfigPublish

open Lib Catalog Wiring Firmware

/-! ## How long the message is -/

/-- The bytes of some items with a comma and a blank between any two. -/
def joinedBytes : List Nat → Nat
  | [] => 0
  | [n] => n
  | n :: rest => n + 2 + joinedBytes rest

theorem joined_bytes (items : List String) :
    (joined items).utf8ByteSize = joinedBytes (items.map String.utf8ByteSize) := by
  induction items with
  | nil => rfl
  | cons item rest ih =>
    cases rest with
    | nil => rfl
    | cons next rest =>
      have hcomma : ", ".utf8ByteSize = 2 := rfl
      simp only [joined, String.utf8ByteSize_append, ih, List.map_cons, joinedBytes, hcomma]

/-- The bytes of an item, from what the template says of its metric. -/
def itemBytes (repr : ℚ → String) (key : String) (m : TemplateMetric) : Nat :=
  60 + (dumpsText key).utf8ByteSize + (publishText m.publish).utf8ByteSize +
    (dumpsInt m.publishIntervalSeconds).utf8ByteSize +
    (dumpsFloat repr m.publishDeadband).utf8ByteSize

theorem itemText_bytes (repr : ℚ → String) (key : String) (m : TemplateMetric) :
    (itemText repr key m).utf8ByteSize = itemBytes repr key m := by
  have hkey : "\x7b\"key\": ".utf8ByteSize = 8 := rfl
  have hpublish : ", \"publish\": \"".utf8ByteSize = 14 := rfl
  have hinterval : "\", \"interval_seconds\": ".utf8ByteSize = 23 := rfl
  have hdeadband : ", \"deadband\": ".utf8ByteSize = 14 := rfl
  have hclose : "\x7d".utf8ByteSize = 1 := rfl
  delta itemText itemBytes
  simp only [String.utf8ByteSize_append, hkey, hpublish, hinterval, hdeadband, hclose]
  omega

/-- The bytes of the payload. -/
def configBytes (repr : ℚ → String) (metrics : List TemplateMetric) (issuedAt : Int) : Nat :=
  30 + joinedBytes ((keyed metrics).map fun item => itemBytes repr item.1 item.2) +
    (toString issuedAt).utf8ByteSize

theorem configPayload_bytes (repr : ℚ → String) (metrics : List TemplateMetric) (issuedAt : Int) :
    (configPayload repr metrics issuedAt).text.utf8ByteSize =
      configBytes repr metrics issuedAt := by
  have hopen : "\x7b\"metrics\": [".utf8ByteSize = 13 := rfl
  have hissued : "], \"issued_at\": ".utf8ByteSize = 16 := rfl
  have hclose : "\x7d".utf8ByteSize = 1 := rfl
  delta configPayload configBytes
  simp only [String.utf8ByteSize_append, joined_bytes, List.map_map, Function.comp_def,
    itemText_bytes, hopen, hissued, hclose]
  omega

theorem configTopic_bytes (row : DeviceRow) :
    row.configTopic.utf8ByteSize =
      row.tenantSlug.utf8ByteSize + row.deviceSlug.utf8ByteSize + 8 := by
  have hslash : "/".utf8ByteSize = 1 := rfl
  have hconfig : "/config".utf8ByteSize = 7 := rfl
  simp only [DeviceRow.configTopic, String.utf8ByteSize_append, hslash, hconfig]
  omega

theorem fits_iff (repr : ℚ → String) (row : DeviceRow) (metrics : List TemplateMetric)
    (issuedAt : Int) :
    Mqtt.publishBytes row.configTopic (configPayload repr metrics issuedAt).text ≤ bufferSize ↔
      row.tenantSlug.utf8ByteSize + row.deviceSlug.utf8ByteSize +
        configBytes repr metrics issuedAt ≤ 1009 := by
  have h := Mqtt.publishBytes_le_1024 row.configTopic (configPayload repr metrics issuedAt).text
  rw [configPayload_bytes, configTopic_bytes] at h
  unfold bufferSize
  omega

/-! ## What the board makes of it -/

variable {F : Type}

/-- One item, on the metric it may be for. -/
def followItem (board : Board F) (m : Reporting F) (item : Json ℚ) : Reporting F :=
  if m.key = textOr "" (member "key" item) then m.follow board item else m

theorem followItem_key (board : Board F) (m : Reporting F) (item : Json ℚ) :
    (followItem board m item).key = m.key := by
  unfold followItem
  split <;> rfl

theorem applyItem_keys (board : Board F) (item : Json ℚ) (metrics : List (Reporting F)) :
    (applyItem board item metrics).map (·.key) = metrics.map (·.key) := by
  induction metrics with
  | nil => rfl
  | cons m rest ih =>
    rw [applyItem]
    split
    · simp
    · simp [ih]

/-- Where no key occurs twice, the metric `findMetric` finds is every metric with the key. -/
theorem applyItem_eq_map (board : Board F) (item : Json ℚ) {metrics : List (Reporting F)}
    (h : (metrics.map (·.key)).Nodup) :
    applyItem board item metrics = metrics.map fun m => followItem board m item := by
  induction metrics with
  | nil => rfl
  | cons m rest ih =>
    obtain ⟨hfresh, hrest⟩ := List.nodup_cons.mp h
    rw [applyItem, List.map_cons]
    by_cases hkey : m.key = textOr "" (member "key" item)
    · have hothers : rest.map (fun m => followItem board m item) = rest := by
        conv => rhs; rw [← List.map_id rest]
        refine List.map_congr_left fun other hother => ?_
        have hne : other.key ≠ textOr "" (member "key" item) := by
          intro heq
          exact hfresh (List.mem_map.mpr ⟨other, hother, heq.trans hkey.symm⟩)
        simp [followItem, hne]
      rw [if_pos hkey, hothers]
      simp [followItem, hkey]
    · rw [if_neg hkey, ih hrest]
      simp [followItem, hkey]

/-- The loop over the items, from the side of one metric. -/
theorem applyProfile_eq_map (board : Board F) (doc : Json ℚ) {metrics : List (Reporting F)}
    (h : (metrics.map (·.key)).Nodup) :
    applyProfile board doc metrics =
      metrics.map fun m => (asArray (member "metrics" doc)).foldl (followItem board) m := by
  unfold applyProfile
  generalize asArray (member "metrics" doc) = items
  induction items generalizing metrics with
  | nil => simp
  | cons item rest ih =>
    have hkeys : ((applyItem board item metrics).map (·.key)).Nodup := by
      rw [applyItem_keys]
      exact h
    rw [List.foldl_cons, ih hkeys, applyItem_eq_map board item h, List.map_map]
    rfl

theorem foldl_followItem_key (board : Board F) (items : List (Json ℚ)) (m : Reporting F) :
    (items.foldl (followItem board) m).key = m.key := by
  induction items generalizing m with
  | nil => rfl
  | cons item rest ih => rw [List.foldl_cons, ih, followItem_key]

theorem applyProfile_keys (board : Board F) (doc : Json ℚ) {metrics : List (Reporting F)}
    (h : (metrics.map (·.key)).Nodup) :
    (applyProfile board doc metrics).map (·.key) = metrics.map (·.key) := by
  rw [applyProfile_eq_map board doc h, List.map_map]
  exact List.map_congr_left fun m _ => foldl_followItem_key board _ m

/-! ## One metric and its item -/

/-- The milliseconds a board waits: a `long` in 32 bits, times 1000 in 32 bits. -/
def boardIntervalMs (publish : PublishProfile) (interval : Option Int) : Int :=
  let seconds := (interval.filter fun interval => fits interval).getD 0
  if 0 < seconds then seconds * 1000 % 2 ^ 32 else defaultIntervalMs publish

theorem newMetric_intervalMs (board : Board F) (base : String) (item : FirmwareMetric) :
    (newMetric board base item).intervalMs = boardIntervalMs item.publish item.intervalS := rfl

theorem parseMode_publishText (publish : PublishProfile) :
    parseMode (publishText publish) = publish := by
  cases publish <;> simp [parseMode, publishText]

theorem longOr_interval (interval : Option Int) :
    longOr 0 (optionalNum (interval.map fun i => (i : ℚ))) =
      (interval.filter fun interval => fits interval).getD 0 := by
  cases interval with
  | none => rfl
  | some i =>
    by_cases hfits : fits i = true
    · simp [optionalNum, longOr, Option.filter, hfits]
    · simp [optionalNum, longOr, Option.filter, hfits]

theorem floatOr_deadband (board : Board F) (deadband : Option ℚ) :
    floatOr board 0 (optionalNum deadband) = board.asFloat (deadband.getD 0) := by
  cases deadband <;> rfl

/-- What a metric is like once it has followed its item. -/
theorem follow_itemDocument (board : Board F) (key : String) (e : TemplateMetric)
    (m : Reporting F) :
    (m.follow board (itemDocument key e)).mode = e.publish ∧
      (m.follow board (itemDocument key e)).intervalMs =
        boardIntervalMs e.publish e.publishIntervalSeconds ∧
      (m.follow board (itemDocument key e)).deadband =
        board.asFloat (e.publishDeadband.getD 0) := by
  have hpublish : member "publish" (itemDocument key e) = .str (publishText e.publish) := rfl
  have hinterval : member "interval_seconds" (itemDocument key e) =
      optionalNum (e.publishIntervalSeconds.map fun i => (i : ℚ)) := rfl
  have hdeadband : member "deadband" (itemDocument key e) = optionalNum e.publishDeadband := rfl
  have hmode : parseMode (textOr "periodic" (.str (publishText e.publish))) = e.publish :=
    parseMode_publishText e.publish
  refine ⟨?_, ?_, ?_⟩
  · simp only [Reporting.follow, hpublish, hmode]
  · simp only [Reporting.follow, hpublish, hmode, hinterval, longOr_interval, boardIntervalMs]
  · simp only [Reporting.follow, hdeadband, floatOr_deadband]

/-- The items of a template whose keys are apart: a metric follows its own and no other. -/
theorem foldl_followItem (board : Board F) {items : List (String × TemplateMetric)}
    (h : (items.map Prod.fst).Nodup) (m : Reporting F) :
    (m.key ∉ items.map Prod.fst →
      (items.map fun item => itemDocument item.1 item.2).foldl (followItem board) m = m) ∧
    ∀ e, (m.key, e) ∈ items →
      (items.map fun item => itemDocument item.1 item.2).foldl (followItem board) m =
        m.follow board (itemDocument m.key e) := by
  induction items generalizing m with
  | nil => exact ⟨fun _ => rfl, nofun⟩
  | cons item rest ih =>
    obtain ⟨hfresh, hrest⟩ := List.nodup_cons.mp h
    have hkey : textOr "" (member "key" (itemDocument item.1 item.2)) = item.1 := rfl
    simp only [List.map_cons, List.foldl_cons]
    by_cases heq : m.key = item.1
    · have hfollow : followItem board m (itemDocument item.1 item.2) =
          m.follow board (itemDocument item.1 item.2) := by
        simp [followItem, hkey, heq]
      refine ⟨fun hnot => absurd (heq ▸ List.mem_cons_self) hnot, fun e he => ?_⟩
      rw [hfollow, (ih hrest _).1 (by simpa [heq] using hfresh)]
      rcases List.mem_cons.mp he with rfl | he
      · rfl
      · exact absurd (List.mem_map.mpr ⟨_, he, heq⟩) hfresh
    · have hstay : followItem board m (itemDocument item.1 item.2) = m := by
        simp [followItem, hkey, heq]
      rw [hstay]
      refine ⟨fun hnot => (ih hrest m).1 fun hin => hnot (List.mem_cons_of_mem _ hin), ?_⟩
      intro e he
      rcases List.mem_cons.mp he with rfl | he
      · exact absurd rfl heq
      · exact (ih hrest m).2 e he

/-! ## A stored template -/

/-- What is stored of a request: its metrics, normalized. -/
def Stored (folding : CaseFolding) (stored : List TemplateMetric) : Prop :=
  ∃ (given : List CatalogMetric) (existingKeys : List String),
    given.all CatalogMetric.accepted = true ∧
    normalizeMetrics folding given existingKeys =
      .ok (stored.map TemplateMetric.toCatalogMetric)

variable {folding : CaseFolding} {stored : List TemplateMetric}

theorem Stored.keyed (h : Stored folding stored) :
    Keyed (stored.map TemplateMetric.toCatalogMetric) := by
  obtain ⟨given, existingKeys, -, hnorm⟩ := h
  exact (normalizeMetrics_keyed hnorm).1

variable {e : TemplateMetric}

theorem Stored.positive (h : Stored folding stored) (he : e ∈ stored) {i : Int}
    (hi : e.publishIntervalSeconds = some i) : 0 < i := by
  obtain ⟨given, existingKeys, haccepted, hnorm⟩ := h
  obtain ⟨item, hitem, heq⟩ :=
    (normalizeMetrics_keyed hnorm).2 e.toCatalogMetric (List.mem_map_of_mem he)
  exact CatalogMetric.accepted_positive (List.all_eq_true.mp haccepted item hitem)
    (heq.symm.trans hi)

variable {metrics : List TemplateMetric}

theorem mem_keyed {key : String} :
    (key, e) ∈ ConfigPublish.keyed metrics ↔ e ∈ metrics ∧ e.key = some key ∧ key ≠ "" := by
  simp only [ConfigPublish.keyed, List.mem_filterMap]
  constructor
  · rintro ⟨m, hm, h⟩
    cases hkey : m.key with
    | none => simp [hkey] at h
    | some k =>
      simp only [hkey] at h
      split at h
      · cases h
      · rename_i hne
        cases h
        exact ⟨hm, hkey, hne⟩
  · rintro ⟨hm, hkey, hne⟩
    exact ⟨e, hm, by simp [hkey, hne]⟩

theorem keyed_nodup (h : (metrics.map (·.key)).Nodup) :
    ((ConfigPublish.keyed metrics).map Prod.fst).Nodup := by
  have hsub : (((ConfigPublish.keyed metrics).map Prod.fst).map some).Sublist
      (metrics.map (·.key)) := by
    clear h
    induction metrics with
    | nil => exact .slnil
    | cons m rest ih =>
      cases hkey : m.key with
      | none =>
        have hskip : ConfigPublish.keyed (m :: rest) = ConfigPublish.keyed rest := by
          simp [ConfigPublish.keyed, hkey]
        rw [hskip]
        exact ih.cons _
      | some key =>
        by_cases hne : key = ""
        · have hskip : ConfigPublish.keyed (m :: rest) = ConfigPublish.keyed rest := by
            simp [ConfigPublish.keyed, hkey, hne]
          rw [hskip]
          exact ih.cons _
        · have hcons : ConfigPublish.keyed (m :: rest) =
              (key, m) :: ConfigPublish.keyed rest := by
            simp [ConfigPublish.keyed, hkey, hne]
          rw [hcons]
          simp only [List.map_cons, hkey]
          exact ih.cons_cons _
  exact (hsub.nodup h).of_map _

theorem Stored.nodup (h : Stored folding stored) : (stored.map (·.key)).Nodup := by
  have hnodup := h.keyed.nodup
  rw [List.map_map] at hnodup
  exact hnodup

theorem Stored.key_ne (h : Stored folding stored) (he : e ∈ stored) {key : String}
    (hkey : e.key = some key) : key ≠ "" := by
  obtain ⟨k, hne, hk⟩ := h.keyed.every e.toCatalogMetric (List.mem_map_of_mem he)
  have hsame : some key = some k := hkey.symm.trans hk
  cases hsame
  exact hne

/-! ## What the template declares -/

/-- The template's interval in milliseconds; without one, the firmware's default. -/
def declaredMs (e : TemplateMetric) : Int :=
  match e.publishIntervalSeconds with
  | none => defaultIntervalMs e.publish
  | some seconds => seconds * 1000

/-- A metric of a board is as the template declares it. -/
structure Declared (board : Board F) (e : TemplateMetric) (m : Reporting F) : Prop where
  mode : m.mode = e.publish
  intervalMs : m.intervalMs = declaredMs e
  deadband : m.deadband = board.asFloat (e.publishDeadband.getD 0)

theorem defaultIntervalMs_le (publish : PublishProfile) : defaultIntervalMs publish ≤ 300000 := by
  cases publish <;> decide

/-- 4294967 seconds are the last that fit 32 bits of milliseconds. -/
theorem boardIntervalMs_eq_iff (publish : PublishProfile) {seconds : Int} (hpos : 0 < seconds) :
    boardIntervalMs publish (some seconds) = seconds * 1000 ↔ seconds ≤ 4294967 := by
  have hdefault := defaultIntervalMs_le publish
  by_cases hfits : fits seconds = true
  · have hms : boardIntervalMs publish (some seconds) = seconds * 1000 % 2 ^ 32 := by
      simp [boardIntervalMs, Option.filter, hfits, hpos]
    rw [hms]
    omega
  · have hms : boardIntervalMs publish (some seconds) = defaultIntervalMs publish := by
      simp [boardIntervalMs, Option.filter, hfits]
    rw [hms]
    simp only [fits, decide_eq_true_eq, not_and] at hfits
    omega

theorem boardIntervalMs_declared (e : TemplateMetric)
    (hpos : ∀ seconds, e.publishIntervalSeconds = some seconds → 0 < seconds) :
    boardIntervalMs e.publish e.publishIntervalSeconds = declaredMs e ↔
      ∀ seconds, e.publishIntervalSeconds = some seconds → seconds ≤ 4294967 := by
  unfold declaredMs
  cases hinterval : e.publishIntervalSeconds with
  | none => simp [boardIntervalMs]
  | some seconds => simp [boardIntervalMs_eq_iff e.publish (hpos seconds hinterval)]

/-- A message that arrives sets the metrics the board knows. -/
theorem applyProfile_profile (h : Stored folding stored) (board : Board F) (repr : ℚ → String)
    (issuedAt : Int) {known : List (Reporting F)} (hknown : (known.map (·.key)).Nodup)
    {m : Reporting F}
    (hm : m ∈ applyProfile board (configPayload repr stored issuedAt).document known)
    (he : e ∈ stored) (hkey : e.key = some m.key) :
    m.mode = e.publish ∧ m.intervalMs = boardIntervalMs e.publish e.publishIntervalSeconds ∧
      m.deadband = board.asFloat (e.publishDeadband.getD 0) := by
  rw [applyProfile_eq_map board _ hknown] at hm
  obtain ⟨before, -, rfl⟩ := List.mem_map.mp hm
  have hitems : asArray (member "metrics" (configPayload repr stored issuedAt).document) =
      (ConfigPublish.keyed stored).map fun item => itemDocument item.1 item.2 := rfl
  rw [hitems] at hkey ⊢
  rw [foldl_followItem_key] at hkey
  have hitem : (before.key, e) ∈ ConfigPublish.keyed stored :=
    mem_keyed.mpr ⟨he, hkey, h.key_ne he hkey⟩
  rw [(foldl_followItem board (keyed_nodup h.nodup) before).2 e hitem]
  exact follow_itemDocument board before.key e before

/-! ## Which edits arrive -/

/-- The rows of a template's active devices, by the slugs of tenant and device. -/
def rowsOf (metrics : List TemplateMetric) (devices : List (String × String)) : List DeviceRow :=
  devices.map fun device => ⟨device.1, device.2, metrics⟩

theorem mem_handleConfigPublish {repr : ℚ → String} {devices : List (String × String)}
    {issuedAt : Int} {message : String × Payload} :
    message ∈ handleConfigPublish repr (rowsOf metrics devices) issuedAt ↔
      ∃ row ∈ rowsOf metrics devices,
        (row.configTopic, configPayload repr metrics issuedAt) = message := by
  cases devices with
  | nil => simp [handleConfigPublish, rowsOf]
  | cons device rest => exact List.mem_map

/-- The message fits the client's buffer, and afterwards each metric of the board that the template
declares is as declared. -/
structure Reaches (board : Board F) (message : String × Payload) (metrics : List TemplateMetric)
    (known : List (Reporting F)) : Prop where
  fits : Mqtt.publishBytes message.1 message.2.text ≤ bufferSize
  declared : ∀ m ∈ receive board message known, ∀ e ∈ metrics, e.key = some m.key →
    Declared board e m

/-- An edit reaches a board exactly when its packet is short enough, which is a sum over the
template, and no metric of the board is to wait longer than 4294967 seconds. -/
theorem reaches_iff {folding : CaseFolding} {stored : List TemplateMetric}
    (h : Stored folding stored) (board : Board F) (repr : ℚ → String) (issuedAt : Int)
    {devices : List (String × String)} {row : DeviceRow} (hrow : row ∈ rowsOf stored devices)
    {known : List (Reporting F)} (hknown : (known.map (·.key)).Nodup) :
    (∃ message ∈ handleConfigPublish repr (rowsOf stored devices) issuedAt,
      message.1 = row.configTopic) ∧
    ∀ message ∈ handleConfigPublish repr (rowsOf stored devices) issuedAt,
      message.1 = row.configTopic →
        (Reaches board message stored known ↔
          row.tenantSlug.utf8ByteSize + row.deviceSlug.utf8ByteSize +
              configBytes repr stored issuedAt ≤ 1009 ∧
            ∀ m ∈ known, ∀ e ∈ stored, e.key = some m.key →
              ∀ seconds, e.publishIntervalSeconds = some seconds → seconds ≤ 4294967) := by
  refine ⟨⟨_, mem_handleConfigPublish.mpr ⟨row, hrow, rfl⟩, rfl⟩, ?_⟩
  intro message hmessage htopic
  obtain ⟨row', hrow', rfl⟩ := mem_handleConfigPublish.mp hmessage
  have hfits := fits_iff repr row stored issuedAt
  rw [← (show row'.configTopic = row.configTopic from htopic)] at hfits
  constructor
  · intro hreaches
    refine ⟨hfits.mp hreaches.fits, ?_⟩
    intro m hm e he hkey
    have hkeys := applyProfile_keys board (configPayload repr stored issuedAt).document hknown
    have hmem : m.key ∈ (applyProfile board (configPayload repr stored issuedAt).document
        known).map (·.key) := by
      rw [hkeys]
      exact List.mem_map_of_mem hm
    obtain ⟨m', hm', hsame⟩ := List.mem_map.mp hmem
    have hkey' : e.key = some m'.key := by
      rw [hkey]
      exact congrArg some hsame.symm
    have hreceived : m' ∈ receive board (row'.configTopic, configPayload repr stored issuedAt)
        known := by
      rw [receive, if_pos hreaches.fits]
      exact hm'
    have hms := (hreaches.declared m' hreceived e he hkey').intervalMs
    rw [(applyProfile_profile h board repr issuedAt hknown hm' he hkey').2.1] at hms
    exact (boardIntervalMs_declared e fun _ => h.positive he).mp hms
  · rintro ⟨hbytes, hseconds⟩
    refine ⟨hfits.mpr hbytes, ?_⟩
    intro m' hm' e he hkey
    rw [receive, if_pos (hfits.mpr hbytes)] at hm'
    have hkeys := applyProfile_keys board (configPayload repr stored issuedAt).document hknown
    have hmem : m'.key ∈ known.map (·.key) := by
      rw [← hkeys]
      exact List.mem_map_of_mem hm'
    obtain ⟨m, hm, hsame⟩ := List.mem_map.mp hmem
    obtain ⟨hmode, hms, hdeadband⟩ := applyProfile_profile h board repr issuedAt hknown hm' he hkey
    have hwait := hseconds m hm e he (hkey.trans (congrArg some hsame.symm))
    exact ⟨hmode, hms.trans ((boardIntervalMs_declared e fun _ => h.positive he).mpr hwait),
      hdeadband⟩

/-! ## A template with thirteen metrics -/

/-- Case folding, of texts that are lower case already. -/
def lowerCase : CaseFolding where
  lower := id
  lower_slug := lower_slug_id

/-- A board whose floats are exact. -/
def exactBoard : Board ℚ where
  chip := .esp32
  asFloat := id
  wireBegin _ _ := true
  ledcAttach _ _ _ := true

def probe (name : String) (seconds : Int) : TemplateMetric where
  name := name
  key := some name
  publishIntervalSeconds := some seconds
  dataType := "float"

def probes (seconds : Int) : List String → List TemplateMetric
  | [] => []
  | name :: rest => probe name seconds :: probes seconds rest

/-- Thirteen probes, which are to be read every five seconds. -/
def greenhouse : List TemplateMetric :=
  probes 5 ["t1", "t2", "t3", "t4", "t5", "t6", "t7", "t8", "t9", "t10", "t11", "t12", "t13"]

theorem stored_greenhouse : Stored lowerCase greenhouse :=
  ⟨greenhouse.map TemplateMetric.toCatalogMetric, [], by decide, rfl⟩

/-- A board that still reads its first probe every fifteen seconds. -/
def greenhouseBoard : List (Reporting ℚ) :=
  [ { key := "t1"
      topic := "acme/house/t1"
      isBool := false
      mode := .periodic
      intervalMs := 15000
      deadband := 0 } ]

theorem greenhouse_dropped :
    Stored lowerCase greenhouse ∧
      ∃ message ∈ handleConfigPublish (fun _ => "0.0") (rowsOf greenhouse [("acme", "house")])
          1760000000,
        receive exactBoard message greenhouseBoard = greenhouseBoard ∧
          ¬Reaches exactBoard message greenhouse greenhouseBoard := by
  have hlong : ¬Mqtt.publishBytes "acme/house/config"
      (configPayload (fun _ => "0.0") greenhouse 1760000000).text ≤ bufferSize := by decide +kernel
  refine ⟨stored_greenhouse, _, List.mem_cons_self, ?_, fun h => hlong h.fits⟩
  exact if_neg hlong

/-- Twelve of them arrive. -/
def greenhouseRow : DeviceRow := ⟨"acme", "house", greenhouse.take 12⟩

theorem stored_twelve : Stored lowerCase (greenhouse.take 12) :=
  ⟨(greenhouse.take 12).map TemplateMetric.toCatalogMetric, [], by decide, rfl⟩

theorem reaches_iff_twelve :
    (∃ message ∈ handleConfigPublish (fun _ => "0.0")
      (rowsOf (greenhouse.take 12) [("acme", "house")]) 1760000000,
      message.1 = greenhouseRow.configTopic) ∧
    ∀ message ∈ handleConfigPublish (fun _ => "0.0")
        (rowsOf (greenhouse.take 12) [("acme", "house")]) 1760000000,
      message.1 = greenhouseRow.configTopic →
        (Reaches exactBoard message (greenhouse.take 12) greenhouseBoard ↔
          greenhouseRow.tenantSlug.utf8ByteSize + greenhouseRow.deviceSlug.utf8ByteSize +
              configBytes (fun _ => "0.0") (greenhouse.take 12) 1760000000 ≤ 1009 ∧
            ∀ m ∈ greenhouseBoard, ∀ e ∈ greenhouse.take 12, e.key = some m.key →
              ∀ seconds, e.publishIntervalSeconds = some seconds → seconds ≤ 4294967) :=
  reaches_iff stored_twelve exactBoard (fun _ => "0.0") 1760000000 (List.mem_cons_self) (by decide)

end IotSaas.Worker.ConfigPublish
