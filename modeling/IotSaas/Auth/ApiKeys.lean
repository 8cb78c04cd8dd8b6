import IotSaas.Auth.Sessions
import IotSaas.Tenants.Roles
import Mathlib.Data.List.Infix
import Mathlib.Data.List.TakeDrop
import Mathlib.Data.List.TakeWhile

/-!
# `Auth/ApiKeys.lean` — API keys, from the text that is shown once to the request they let in

A key is `iot_{key_id}_{secret}`. The row keeps as much of it as may be shown again, and a hash of
the secret; the key id is found by `split_part` in what is shown. A secret may have underscores of
its own, a key id never has, so both texts come apart at the right place (`parse_fullKey`,
`splitPart_displayed`).

The service checks before it writes: `revoke_api_key` and `delete_api_key` read the row, decide, and
write in a second statement, with any number of other requests in between. `authenticates_iff` says
what is left of that for whoever presents a key: in every state of every run exactly the keys that
were issued, are not revoked, are not past their date and are not an owner's are let in, each as
what it was issued as. So deleting is only ever tidying up, as the service promises.
-/

set_option autoImplicit false

namespace IotSaas.Auth.ApiKeys

open Lib Rules Tenants

/-! ## The texts -/

/-- `KEY_PREFIX`. -/
def keyPrefix : String := "iot_"

/-- `text.split(sep, 1)`: what is before the first separator, and what is after it. -/
def splitOnce (sep : Char) (chars : List Char) : List Char × Option (List Char) :=
  match chars.dropWhile (· ≠ sep) with
  | [] => (chars, none)
  | _ :: rest => (chars.takeWhile (· ≠ sep), some rest)

/-- `split_part(text, '_', 2)`. -/
def splitPart (chars : List Char) : List Char :=
  match splitOnce '_' chars with
  | (_, none) => []
  | (_, some rest) => (splitOnce '_' rest).1

/-- `full_key` of `_generate_key`. -/
def fullKey (keyId secret : List Char) : List Char :=
  keyPrefix.toList ++ (keyId ++ '_' :: secret)

/-- `key_prefix` of `_generate_key`, the part that may be shown again. -/
def displayed (keyId secret : List Char) : List Char :=
  keyPrefix.toList ++ (keyId ++ '_' :: secret.take 6)

/-- `uuid4().hex[:12]`. -/
def isKeyId (keyId : List Char) : Bool :=
  keyId.length = 12 && keyId.all fun c => c ∈ "0123456789abcdef".toList

/-- `token_urlsafe(32)`: 32 bytes in URL-safe Base64, unpadded. -/
def isSecret (secret : List Char) : Bool :=
  secret.length = 43 && secret.all fun c => c.isAlphanum || c = '-' || c = '_'

/-- `looks_like_api_key`. -/
def looksLikeApiKey (token : List Char) : Bool := keyPrefix.toList.isPrefixOf token

/-- `presented.removeprefix(KEY_PREFIX)`. -/
def removePrefix (presented : List Char) : List Char :=
  if looksLikeApiKey presented then presented.drop keyPrefix.length else presented

/-- The key id and the secret of a presented key. -/
def parse (presented : List Char) : Option (List Char × List Char) :=
  match splitOnce '_' (removePrefix presented) with
  | (_, none) => none
  | (keyId, some secret) => if keyId = [] ∨ secret = [] then none else some (keyId, secret)

section

variable {sep : Char} {before after chars keyId secret : List Char}

theorem splitOnce_append (h : sep ∉ before) :
    splitOnce sep (before ++ sep :: after) = (before, some after) := by
  have hbefore : ∀ c ∈ before, decide (c ≠ sep) = true := by
    intro c hc
    have hne : c ≠ sep := by
      rintro rfl
      exact h hc
    simpa using hne
  unfold splitOnce
  rw [List.dropWhile_append_of_pos hbefore, List.takeWhile_append_of_pos hbefore]
  simp

/-- What was taken apart goes together again. -/
theorem splitOnce_some (h : splitOnce sep chars = (before, some after)) :
    chars = before ++ sep :: after ∧ sep ∉ before := by
  unfold splitOnce at h
  split at h
  · cases h
  · rename_i c rest hdrop
    obtain ⟨rfl, hafter⟩ := Prod.mk.inj h
    obtain rfl := Option.some.inj hafter
    have hc : c = sep := by
      have hhead := List.head?_dropWhile_not (fun c => decide (c ≠ sep)) chars
      rw [hdrop] at hhead
      simpa using hhead
    subst hc
    constructor
    · rw [← hdrop, List.takeWhile_append_dropWhile]
    · intro hmem
      simpa using List.mem_takeWhile_imp hmem

theorem underscore_notMem (h : isKeyId keyId = true) : '_' ∉ keyId := by
  intro hmem
  unfold isKeyId at h
  rw [Bool.and_eq_true, List.all_eq_true] at h
  exact absurd (h.2 '_' hmem) (by decide)

/-- **A shown key is found under its key id**, whatever the secret begins with. -/
theorem splitPart_displayed (h : isKeyId keyId = true) :
    splitPart (displayed keyId secret) = keyId := by
  have hiot : '_' ∉ "iot".toList := by decide
  have houter : splitOnce '_' (displayed keyId secret) =
      ("iot".toList, some (keyId ++ '_' :: secret.take 6)) := splitOnce_append hiot
  unfold splitPart
  rw [houter]
  dsimp only
  rw [splitOnce_append (underscore_notMem h)]

/-- **A key reads back as its two parts**: the first underscore after the prefix is the one between
them. -/
theorem parse_fullKey (hid : isKeyId keyId = true) (hsecret : isSecret secret = true) :
    parse (fullKey keyId secret) = some (keyId, secret) := by
  have hlooks : looksLikeApiKey (fullKey keyId secret) = true :=
    List.isPrefixOf_iff_prefix.mpr (List.prefix_append _ _)
  have hrest : removePrefix (fullKey keyId secret) = keyId ++ '_' :: secret := by
    rw [removePrefix, if_pos hlooks]
    exact List.drop_left
  have hne : ¬ (keyId = [] ∨ secret = []) := by
    rintro (rfl | rfl)
    · exact absurd hid (by decide)
    · exact absurd hsecret (by decide)
  unfold parse
  rw [hrest, splitOnce_append (underscore_notMem hid)]
  dsimp only
  rw [if_neg hne]

/-- Nothing else reads as them. -/
theorem eq_fullKey {presented : List Char} (hlooks : looksLikeApiKey presented = true)
    (h : parse presented = some (keyId, secret)) : presented = fullKey keyId secret := by
  unfold parse at h
  split at h
  · cases h
  · rename_i keyId' secret' hsplit
    split at h
    · cases h
    · obtain ⟨rfl, rfl⟩ := Prod.mk.inj (Option.some.inj h)
      obtain ⟨hrest, -⟩ := splitOnce_some hsplit
      rw [removePrefix, if_pos hlooks] at hrest
      obtain ⟨rest, rfl⟩ := List.isPrefixOf_iff_prefix.mp hlooks
      have hdrop : (keyPrefix.toList ++ rest).drop keyPrefix.length = rest := List.drop_left
      rw [hdrop] at hrest
      rw [hrest, fullKey]

end

/-! ## The keys -/

/-- A row of `api_keys`, in what authentication reads and the service writes. -/
structure ApiKey where
  id : Uuid
  tenantId : Uuid
  keyPrefix : List Char
  keyHash : String
  role : TenantRole
  expiresAt : Option Datetime
  revokedAt : Option Datetime := none
  lastUsedAt : Option Datetime := none

structure ApiKeyPrincipal where
  keyId : Uuid
  tenantId : Uuid
  role : TenantRole
  deriving DecidableEq

/-- `LAST_USED_RESOLUTION`. -/
def lastUsedResolution : Int := seconds (5 * 60)

/-- `expires_at` is set and not after `now`. -/
def expired (expiresAt : Option Datetime) (now : Datetime) : Bool :=
  expiresAt.any fun time => decide (time ≤ now)

/-- `lookup_api_key`: the first row it yields. -/
def lookupApiKey (table : List ApiKey) (keyId : List Char) : Option ApiKey :=
  table.find? fun k => splitPart k.keyPrefix = keyId

/-- `authenticate_api_key`. -/
def authenticateApiKey (P : Hasher) (table : List ApiKey) (now : Datetime)
    (presented : List Char) : Option ApiKeyPrincipal :=
  match parse presented with
  | none => none
  | some (keyId, secret) =>
      match lookupApiKey table keyId with
      | none => none
      | some row =>
          if P.verify (String.ofList secret) row.keyHash = false then none
          else if row.revokedAt.isSome = true ∨ expired row.expiresAt now = true then none
          else if row.role = .owner then none
          else some { keyId := row.id, tenantId := row.tenantId, role := row.role }

/-- The API key branch of `require_tenant_context`, without the check of `X-Tenant-Id`. -/
def authenticate (P : Hasher) (table : List ApiKey) (now : Datetime) (token : List Char) :
    Option ApiKeyPrincipal :=
  if looksLikeApiKey token then authenticateApiKey P table now token else none

/-- What `create_api_key` returned once. -/
structure Issued where
  id : Uuid
  tenantId : Uuid
  role : TenantRole
  keyId : List Char
  secret : List Char
  expiresAt : Option Datetime
  deriving DecidableEq

/-- A write that was decided on and is still to be made. -/
inductive Decided where
  | revoke (id : Uuid) (time : Datetime)
  | delete (id : Uuid)

def Decided.id : Decided → Uuid
  | revoke id _ => id
  | delete id => id

structure State where
  table : List ApiKey := []
  decided : List Decided := []
  now : Datetime := 0
  /-- Every key there ever was. -/
  issued : List Issued := []
  /-- The keys a revocation of which was committed. -/
  revoked : List Uuid := []

inductive Event where
  | tick (delta : Nat)
  /-- `create_api_key`, with what it draws; no key id is drawn twice. Keys from before the route
  refused the role may be an owner's. -/
  | create (id tenantId : Uuid) (role : TenantRole) (keyId secret : List Char) (salt : String)
      (expiresInDays : Option Nat)
  /-- `revoke_api_key`, `delete_api_key`: the SELECT and the decision. -/
  | revoke (tenantId id : Uuid)
  | delete (tenantId id : Uuid)
  /-- The write of one of these, and its commit. -/
  | commit (i : Nat)
  /-- Its transaction is rolled back instead. -/
  | rollback (i : Nat)
  /-- `touch_last_used`. -/
  | touch (id : Uuid)

/-- The row a SELECT by tenant and id finds. -/
def selectKey (table : List ApiKey) (tenantId id : Uuid) : Option ApiKey :=
  table.find? fun k => decide (k.tenantId = tenantId) && decide (k.id = id)

/-- `expires_at` of a new key; no days, or none given, is never. -/
def expiryOf (now : Datetime) (expiresInDays : Option Nat) : Option Datetime :=
  match expiresInDays with
  | none => none
  | some 0 => none
  | some days => some (now + seconds (days * 86400))

/-- `create_api_key`. -/
def createApiKey (P : Hasher) (s : State) (i : Issued) (salt : String) : State :=
  { s with
    table := s.table ++
      [{ id := i.id
         tenantId := i.tenantId
         keyPrefix := displayed i.keyId i.secret
         keyHash := P.hash (String.ofList i.secret) salt
         role := i.role
         expiresAt := i.expiresAt }]
    issued := s.issued ++ [i] }

/-- Whether a write goes through: an UPDATE that finds its row gone is an error, a DELETE is not. -/
def carries (s : State) : Decided → Bool
  | .revoke id _ => s.table.any fun k => k.id = id
  | .delete _ => true

/-- The UPDATE of `revoke_api_key`, the DELETE of `delete_api_key`. -/
def carryOut (s : State) : Decided → State
  | .revoke id time =>
      { s with
        table := s.table.map fun k => if k.id = id then { k with revokedAt := some time } else k
        revoked := s.revoked ++ [id] }
  | .delete id => { s with table := s.table.filter fun k => k.id ≠ id }

/-- Whether `touch_last_used` writes to the row. -/
def touches (now : Datetime) (k : ApiKey) : Bool :=
  k.lastUsedAt.all fun time => decide (time < now - lastUsedResolution)

def step (P : Hasher) (s : State) : Event → Option State
  | .tick delta => some { s with now := s.now + delta }
  | .create id tenantId role keyId secret salt expiresInDays =>
      if isKeyId keyId = true ∧ isSecret secret = true ∧ id ∉ s.issued.map (·.id) ∧
          keyId ∉ s.issued.map (·.keyId) then
        some (createApiKey P s
          { id, tenantId, role, keyId, secret, expiresAt := expiryOf s.now expiresInDays } salt)
      else none
  | .revoke tenantId id =>
      match selectKey s.table tenantId id with
      | none => none
      | some row =>
          if row.revokedAt = none then some { s with decided := s.decided ++ [.revoke id s.now] }
          else some s
  | .delete tenantId id =>
      match selectKey s.table tenantId id with
      | none => none
      | some row =>
          -- an active key has to be revoked first
          if row.revokedAt = none ∧ expired row.expiresAt s.now = false then none
          else some { s with decided := s.decided ++ [.delete id] }
  | .commit i =>
      match s.decided[i]? with
      | none => none
      | some d =>
          if carries s d = true then some { carryOut s d with decided := s.decided.eraseIdx i }
          else none
  | .rollback i => some { s with decided := s.decided.eraseIdx i }
  | .touch id =>
      some { s with
        table := s.table.map fun k =>
          if k.id = id ∧ touches s.now k = true then { k with lastUsedAt := some s.now } else k }

/-! ## The invariant -/

/-- What an issued key may not be let in for any more. -/
def Dead (s : State) (i : Issued) : Prop := i.id ∈ s.revoked ∨ expired i.expiresAt s.now = true

/-- The row of an issued key. -/
structure RowOf (P : Hasher) (s : State) (i : Issued) (k : ApiKey) : Prop where
  id : k.id = i.id
  tenantId : k.tenantId = i.tenantId
  keyPrefix : k.keyPrefix = displayed i.keyId i.secret
  keyHash : ∃ salt, k.keyHash = P.hash (String.ofList i.secret) salt
  role : k.role = i.role
  expiresAt : k.expiresAt = i.expiresAt
  revokedAt : k.revokedAt.isSome = true ↔ i.id ∈ s.revoked

structure Inv (P : Hasher) (s : State) : Prop where
  ids : (s.issued.map (·.id)).Nodup
  keyIds : (s.issued.map (·.keyId)).Nodup
  formed : ∀ i ∈ s.issued, isKeyId i.keyId = true ∧ isSecret i.secret = true
  known : ∀ id ∈ s.revoked, id ∈ s.issued.map (·.id)
  rows : ∀ k ∈ s.table, ∃ i ∈ s.issued, RowOf P s i k
  kept : ∀ i ∈ s.issued, i.id ∈ s.table.map (·.id) ∨ Dead s i
  chosen : ∀ d ∈ s.decided, d.id ∈ s.issued.map (·.id)
  /-- Only the dead are to be deleted. -/
  doomed : ∀ id, .delete id ∈ s.decided → ∀ i ∈ s.issued, i.id = id → Dead s i

section

variable {P : Hasher} {s : State}

theorem inv_start : Inv P {} := by
  constructor <;> simp

theorem Inv.unique (h : Inv P s) {i j : Issued} (hi : i ∈ s.issued) (hj : j ∈ s.issued)
    (heq : i.id = j.id) : i = j :=
  List.inj_on_of_nodup_map h.ids hi hj heq

theorem expired_mono {expiresAt : Option Datetime} {now : Datetime} (delta : Nat)
    (h : expired expiresAt now = true) : expired expiresAt (now + delta) = true := by
  unfold expired at *
  cases expiresAt with
  | none => cases h
  | some time =>
    have hlater : now ≤ now + delta := Int.le_add_of_nonneg_right (Int.natCast_nonneg delta)
    exact decide_eq_true (Int.le_trans (of_decide_eq_true h) hlater)

theorem inv_tick (h : Inv P s) (delta : Nat) : Inv P { s with now := s.now + delta } :=
  { h with
    kept := fun i hi => (h.kept i hi).imp_right fun hd => hd.imp_right (expired_mono delta)
    rows := fun k hk => by
      obtain ⟨i, hi, hrow⟩ := h.rows k hk
      exact ⟨i, hi, { hrow with }⟩
    doomed := fun id hid i hi heq =>
      (h.doomed id hid i hi heq).imp_right (expired_mono delta) }

theorem inv_create (h : Inv P s) {i : Issued} (salt : String) (hid : isKeyId i.keyId = true)
    (hsecret : isSecret i.secret = true) (hfresh : i.id ∉ s.issued.map (·.id))
    (hkey : i.keyId ∉ s.issued.map (·.keyId)) : Inv P (createApiKey P s i salt) := by
  have hnodup : ∀ {α : Type} (f : Issued → α), (s.issued.map f).Nodup → f i ∉ s.issued.map f →
      ((s.issued ++ [i]).map f).Nodup := by
    intro α f hold hnew
    rw [List.map_append, List.map_singleton]
    refine List.nodup_append.mpr ⟨hold, List.nodup_singleton _, ?_⟩
    rintro a ha b hb rfl
    rw [List.mem_singleton.mp hb] at ha
    exact hnew ha
  have hmem : ∀ {id : Uuid}, id ∈ s.issued.map (·.id) → id ∈ (s.issued ++ [i]).map (·.id) := by
    intro id hold
    rw [List.map_append]
    exact List.mem_append_left _ hold
  refine
    { ids := hnodup (·.id) h.ids hfresh
      keyIds := hnodup (·.keyId) h.keyIds hkey
      formed := ?_
      known := fun id hrev => hmem (h.known id hrev)
      rows := ?_
      kept := ?_
      chosen := fun d hd => hmem (h.chosen d hd)
      doomed := ?_ }
  · intro j hj
    rcases List.mem_append.mp hj with hj | hj
    · exact h.formed j hj
    · exact List.mem_singleton.mp hj ▸ ⟨hid, hsecret⟩
  · intro k hk
    rcases List.mem_append.mp hk with hk | hk
    · obtain ⟨j, hj, hrow⟩ := h.rows k hk
      exact ⟨j, List.mem_append_left _ hj, { hrow with }⟩
    · obtain rfl := List.mem_singleton.mp hk
      refine ⟨i, List.mem_append_right _ (List.mem_singleton_self i),
        ⟨rfl, rfl, rfl, ⟨salt, rfl⟩, rfl, rfl, iff_of_false (by simp) ?_⟩⟩
      exact fun hrev => hfresh (h.known _ hrev)
  · intro j hj
    unfold createApiKey
    dsimp only
    rw [List.map_append]
    rcases List.mem_append.mp hj with hj | hj
    · exact (h.kept j hj).imp_left (List.mem_append_left _)
    · exact .inl (List.mem_append_right _ (by simp [List.mem_singleton.mp hj]))
  · intro id hdel j hj heq
    rcases List.mem_append.mp hj with hj | hj
    · exact h.doomed id hdel j hj heq
    · have hchosen := h.chosen _ hdel
      rw [Decided.id, ← heq, List.mem_singleton.mp hj] at hchosen
      exact absurd hchosen hfresh

/-- What a SELECT found is one of the keys. -/
theorem Inv.selected (h : Inv P s) {tenantId id : Uuid} {row : ApiKey}
    (hsel : selectKey s.table tenantId id = some row) :
    ∃ i ∈ s.issued, i.id = id ∧ RowOf P s i row := by
  obtain ⟨i, hi, hrow⟩ := h.rows row (List.mem_of_find?_eq_some hsel)
  have hmatch := List.find?_some hsel
  rw [Bool.and_eq_true, decide_eq_true_eq, decide_eq_true_eq] at hmatch
  exact ⟨i, hi, hrow.id.symm.trans hmatch.2, hrow⟩

theorem inv_decide (h : Inv P s) {d : Decided} (hd : d.id ∈ s.issued.map (·.id))
    (hdead : ∀ id, d = .delete id → ∀ i ∈ s.issued, i.id = id → Dead s i) :
    Inv P { s with decided := s.decided ++ [d] } :=
  { h with
    rows := fun k hk => by
      obtain ⟨i, hi, hrow⟩ := h.rows k hk
      exact ⟨i, hi, { hrow with }⟩
    chosen := fun d' hd' => by
      rcases List.mem_append.mp hd' with hd' | hd'
      · exact h.chosen d' hd'
      · exact List.mem_singleton.mp hd' ▸ hd
    doomed := fun id hid => by
      rcases List.mem_append.mp hid with hid | hid
      · exact h.doomed id hid
      · exact hdead id (List.mem_singleton.mp hid).symm }

theorem inv_revoked (h : Inv P s) {id : Uuid} (hid : id ∈ s.issued.map (·.id)) (time : Datetime) :
    Inv P (carryOut s (.revoke id time)) := by
  have hdead : ∀ {i : Issued}, Dead s i → Dead (carryOut s (.revoke id time)) i :=
    fun hd => hd.imp_left (List.mem_append_left _)
  exact
    { h with
      known := by
        intro other hother
        rcases List.mem_append.mp hother with hother | hother
        · exact h.known other hother
        · exact List.mem_singleton.mp hother ▸ hid
      rows := by
        intro k hk
        obtain ⟨old, hold, rfl⟩ := List.mem_map.mp hk
        obtain ⟨i, hi, hrow⟩ := h.rows old hold
        refine ⟨i, hi, ?_⟩
        by_cases heq : old.id = id
        · rw [if_pos heq]
          refine { hrow with revokedAt := iff_of_true rfl (List.mem_append_right _ ?_) }
          rw [← hrow.id, heq]
          exact List.mem_singleton_self id
        · rw [if_neg heq]
          refine { hrow with revokedAt := hrow.revokedAt.trans ?_ }
          show i.id ∈ s.revoked ↔ i.id ∈ s.revoked ++ [id]
          rw [List.mem_append, List.mem_singleton, ← hrow.id, or_iff_left heq]
      kept := by
        intro i hi
        refine (h.kept i hi).imp (fun hmem => ?_) hdead
        obtain ⟨k, hk, heq⟩ := List.mem_map.mp hmem
        refine List.mem_map.mpr ⟨_, List.mem_map_of_mem hk, ?_⟩
        split <;> exact heq
      doomed := fun other hother i hi heq => hdead (h.doomed other hother i hi heq) }

theorem inv_deleted (h : Inv P s) {id : Uuid} (hdel : .delete id ∈ s.decided) :
    Inv P (carryOut s (.delete id)) :=
  { h with
    rows := by
      intro k hk
      obtain ⟨i, hi, hrow⟩ := h.rows k (List.mem_of_mem_filter hk)
      exact ⟨i, hi, { hrow with }⟩
    kept := by
      intro i hi
      by_cases heq : i.id = id
      · exact .inr (h.doomed id hdel i hi heq)
      · refine (h.kept i hi).imp_left fun hmem => ?_
        obtain ⟨k, hk, hkid⟩ := List.mem_map.mp hmem
        refine List.mem_map.mpr ⟨k, List.mem_filter.mpr ⟨hk, ?_⟩, hkid⟩
        simpa [hkid] using heq }

theorem inv_erase (h : Inv P s) (i : Nat) : Inv P { s with decided := s.decided.eraseIdx i } :=
  { h with
    rows := fun k hk => by
      obtain ⟨j, hj, hrow⟩ := h.rows k hk
      exact ⟨j, hj, { hrow with }⟩
    chosen := fun d hd => h.chosen d (List.mem_of_mem_eraseIdx hd)
    doomed := fun id hid => h.doomed id (List.mem_of_mem_eraseIdx hid) }

theorem inv_touch (h : Inv P s) (id : Uuid) :
    Inv P { s with
      table := s.table.map fun k =>
        if k.id = id ∧ touches s.now k = true then { k with lastUsedAt := some s.now } else k } :=
  { h with
    rows := by
      intro k hk
      obtain ⟨old, hold, rfl⟩ := List.mem_map.mp hk
      obtain ⟨i, hi, hrow⟩ := h.rows old hold
      refine ⟨i, hi, ?_⟩
      split
      · exact { hrow with }
      · exact { hrow with }
    kept := by
      intro i hi
      refine (h.kept i hi).imp_left fun hmem => ?_
      obtain ⟨k, hk, heq⟩ := List.mem_map.mp hmem
      refine List.mem_map.mpr ⟨_, List.mem_map_of_mem hk, ?_⟩
      split <;> exact heq }

theorem inv_step {s' : State} {e : Event} (h : Inv P s) (hs : step P s e = some s') :
    Inv P s' := by
  cases e with
  | tick delta =>
    obtain rfl := Option.some.inj hs
    exact inv_tick h delta
  | create id tenantId role keyId secret salt expiresInDays =>
    simp only [step] at hs
    split at hs
    · rename_i hok
      obtain rfl := Option.some.inj hs
      exact inv_create h salt hok.1 hok.2.1 hok.2.2.1 hok.2.2.2
    · cases hs
  | revoke tenantId id =>
    simp only [step] at hs
    split at hs
    · cases hs
    · rename_i row hsel
      obtain ⟨i, hi, rfl, -⟩ := h.selected hsel
      split at hs
      · obtain rfl := Option.some.inj hs
        exact inv_decide h (List.mem_map_of_mem hi) fun _ heq => by cases heq
      · obtain rfl := Option.some.inj hs
        exact h
  | delete tenantId id =>
    simp only [step] at hs
    split at hs
    · cases hs
    · rename_i row hsel
      obtain ⟨i, hi, rfl, hrow⟩ := h.selected hsel
      split at hs
      · cases hs
      · rename_i hinactive
        obtain rfl := Option.some.inj hs
        refine inv_decide h (List.mem_map_of_mem hi) fun id heq j hj hid => ?_
        obtain rfl := Decided.delete.inj heq
        obtain rfl := h.unique hj hi hid
        -- Only a key that lets nobody in any more is deleted.
        rcases not_and_or.mp hinactive with hrevoked | hexpired
        · exact .inl (hrow.revokedAt.mp (Option.isSome_iff_ne_none.mpr hrevoked))
        · exact .inr (hrow.expiresAt ▸ Bool.of_not_eq_false hexpired)
  | commit i =>
    simp only [step] at hs
    split at hs
    · cases hs
    · rename_i d hd
      have hmem : d ∈ s.decided := List.mem_of_getElem? hd
      split at hs
      · obtain rfl := Option.some.inj hs
        cases d with
        -- What was decided on the row as it was read is written now.
        | revoke id time => exact inv_erase (inv_revoked h (h.chosen _ hmem) time) i
        | delete id => exact inv_erase (inv_deleted h hmem) i
      · cases hs
  | rollback i =>
    obtain rfl := Option.some.inj hs
    exact inv_erase h i
  | touch id =>
    obtain rfl := Option.some.inj hs
    exact inv_touch h id

/-! ## Who is let in -/

/-- What `lookup_api_key` finds is the key of that key id. -/
theorem Inv.lookedUp (h : Inv P s) {keyId : List Char} {row : ApiKey}
    (hrow : lookupApiKey s.table keyId = some row) :
    ∃ i ∈ s.issued, i.keyId = keyId ∧ RowOf P s i row := by
  obtain ⟨i, hi, hof⟩ := h.rows row (List.mem_of_find?_eq_some hrow)
  have hfound : splitPart row.keyPrefix = keyId := by
    simpa using List.find?_some hrow
  rw [hof.keyPrefix, splitPart_displayed (h.formed i hi).1] at hfound
  exact ⟨i, hi, hfound, hof⟩

/-- And it finds every key that still has a row. -/
theorem Inv.found (h : Inv P s) {i : Issued} (hi : i ∈ s.issued)
    (hmem : i.id ∈ s.table.map (·.id)) :
    ∃ row, lookupApiKey s.table i.keyId = some row ∧ RowOf P s i row := by
  obtain ⟨k, hk, hid⟩ := List.mem_map.mp hmem
  obtain ⟨j, hj, hof⟩ := h.rows k hk
  obtain rfl := h.unique hj hi (hof.id.symm.trans hid)
  have hsplit : splitPart k.keyPrefix = j.keyId := by
    rw [hof.keyPrefix, splitPart_displayed (h.formed j hj).1]
  have hsome : (lookupApiKey s.table j.keyId).isSome = true :=
    List.find?_isSome.mpr ⟨k, hk, decide_eq_true hsplit⟩
  obtain ⟨row, hrow⟩ := Option.isSome_iff_exists.mp hsome
  obtain ⟨j', hj', hkey, hof'⟩ := h.lookedUp hrow
  obtain rfl := List.inj_on_of_nodup_map h.keyIds hj' hj hkey
  exact ⟨row, hrow, hof'⟩

/-- `authenticate_api_key` passed each of its checks. -/
theorem authenticate_eq_some {table : List ApiKey} {now : Datetime} {token : List Char}
    {principal : ApiKeyPrincipal} : authenticate P table now token = some principal ↔
      looksLikeApiKey token = true ∧ ∃ keyId secret row, parse token = some (keyId, secret) ∧
        lookupApiKey table keyId = some row ∧
        P.verify (String.ofList secret) row.keyHash = true ∧ row.revokedAt = none ∧
        expired row.expiresAt now = false ∧ row.role ≠ .owner ∧
        principal = ⟨row.id, row.tenantId, row.role⟩ := by
  constructor
  · intro h
    unfold authenticate authenticateApiKey at h
    split at h
    · rename_i hlooks
      split at h
      · cases h
      · rename_i keyId secret hparse
        split at h
        · cases h
        · rename_i row hrow
          split at h
          · cases h
          · rename_i hverify
            split at h
            · cases h
            · rename_i hdead
              obtain ⟨hrevoked, hexpired⟩ := not_or.mp hdead
              split at h
              · cases h
              · rename_i hrole
                exact ⟨hlooks, keyId, secret, row, hparse, hrow, Bool.of_not_eq_false hverify,
                  Option.not_isSome_iff_eq_none.mp hrevoked, Bool.of_not_eq_true hexpired, hrole,
                  (Option.some.inj h).symm⟩
    · cases h
  · rintro ⟨hlooks, keyId, secret, row, hparse, hrow, hverify, hrevoked, hexpired, hrole, rfl⟩
    simp [authenticate, authenticateApiKey, hlooks, hparse, hrow, hverify, hrevoked, hexpired,
      hrole]

end

/-- **Exactly the keys that were issued, are not revoked, are not past their date and are not an
owner's are let in**, each as what it was issued as, in every state of every run: whatever was
decided and not yet written, in whatever order the writes and the rollbacks come. -/
theorem authenticates_iff {P : Hasher} {s : State} (h : Reaches (step P) Always {} s)
    (token : List Char) (principal : ApiKeyPrincipal) :
    authenticate P s.table s.now token = some principal ↔
      ∃ i ∈ s.issued, token = fullKey i.keyId i.secret ∧ i.id ∉ s.revoked ∧
        expired i.expiresAt s.now = false ∧ i.role ≠ .owner ∧
        principal = ⟨i.id, i.tenantId, i.role⟩ := by
  have hinv : Inv P s := h.invariant inv_start fun _ _ _ ih _ hs => inv_step ih hs
  rw [authenticate_eq_some]
  constructor
  · rintro ⟨hlooks, keyId, secret, row, hparse, hrow, hverify, hrevoked, hexpired, hrole, rfl⟩
    obtain ⟨i, hi, rfl, hof⟩ := hinv.lookedUp hrow
    obtain ⟨salt, hhash⟩ := hof.keyHash
    have hsecret : secret = i.secret := by
      rw [hhash, P.verify_hash, decide_eq_true_eq] at hverify
      exact String.ofList_injective hverify
    subst hsecret
    refine ⟨i, hi, eq_fullKey hlooks hparse, ?_, hof.expiresAt ▸ hexpired, hof.role ▸ hrole, ?_⟩
    · rw [← hof.revokedAt, hrevoked]
      exact Bool.false_ne_true
    · rw [hof.id, hof.tenantId, hof.role]
  · rintro ⟨i, hi, rfl, hlive, hdate, hrole, rfl⟩
    have hmem : i.id ∈ s.table.map (·.id) := by
      refine (hinv.kept i hi).resolve_right (not_or.mpr ⟨hlive, ?_⟩)
      rw [hdate]
      exact Bool.false_ne_true
    obtain ⟨row, hrow, hof⟩ := hinv.found hi hmem
    obtain ⟨salt, hhash⟩ := hof.keyHash
    obtain ⟨hid, hsecret⟩ := hinv.formed i hi
    refine ⟨List.isPrefixOf_iff_prefix.mpr (List.prefix_append _ _), i.keyId, i.secret, row,
      parse_fullKey hid hsecret, hrow, ?_, ?_, hof.expiresAt.symm ▸ hdate, hof.role.symm ▸ hrole, ?_⟩
    · rw [hhash, P.verify_hash]
      exact decide_eq_true rfl
    · rw [← Option.not_isSome_iff_eq_none, hof.revokedAt]
      exact hlive
    · rw [hof.id, hof.tenantId, hof.role]

/-- A key is made, used, revoked and deleted, while a second revocation of it is under way. -/
def tidiedUp : List Event :=
  [.create "k1" "home" .admin "0123456789ab".toList (List.replicate 43 '_') "salt" (some 30),
    .create "k2" "home" .viewer "ba9876543210".toList (List.replicate 43 'x') "salt" none,
    .touch "k1", .revoke "home" "k1", .revoke "home" "k1", .commit 0, .tick 5, .delete "home" "k1",
    .commit 1, .rollback 0]

def tidyState : State := (run (step plainHasher) {} tidiedUp).getD {}

/-- The other key goes on, and the first one never comes back. -/
theorem authenticates_iff_tidied :
    authenticate plainHasher tidyState.table tidyState.now
        (fullKey "ba9876543210".toList (List.replicate 43 'x')) =
      some ⟨"k2", "home", .viewer⟩ ∧
    authenticate plainHasher tidyState.table tidyState.now
        (fullKey "0123456789ab".toList (List.replicate 43 '_')) ≠
      some ⟨"k1", "home", .admin⟩ := by
  have hrun : run (step plainHasher) {} tidiedUp = some tidyState := rfl
  have hreach : Reaches (step plainHasher) Always {} tidyState := .of_run hrun
  constructor
  · refine (authenticates_iff hreach _ _).mpr
      ⟨⟨"k2", "home", .viewer, "ba9876543210".toList, List.replicate 43 'x', none⟩, ?_⟩
    decide
  · intro h
    obtain ⟨i, hi, -, hlive, -, -, hp⟩ := (authenticates_iff hreach _ _).mp h
    revert hlive
    rw [← (ApiKeyPrincipal.mk.inj hp).1]
    decide

end IotSaas.Auth.ApiKeys
