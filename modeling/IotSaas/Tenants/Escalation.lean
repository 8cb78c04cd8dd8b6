import IotSaas.Lib.Except
import IotSaas.Lib.Trace
import IotSaas.Tenants.Service

/-!
# `Tenants/Escalation.lean` — nobody reaches above their own role

A membership changes in one of three ways: somebody founds a tenant and owns it; a member acts on
it, by a route that has looked at both roles; or an invitation is accepted, whose role was looked at
when it was made. An invitation never changes its role (`handle_invitations`), so the run knows the
member who made it, and what that member was at the time (`no_escalation`).
-/

set_option autoImplicit false

namespace IotSaas.Tenants

open Lib Rules

/-! ## Roles after a write -/

section

variable {db : Db} {tenant user tenant' user' : Uuid}

theorem roleOf_insertMember {m : Member}
    (h : ¬ (m.tenantId = tenant ∧ m.userId = user)) :
    roleOf (db.insertMember m) tenant user = roleOf db tenant user := by
  unfold roleOf memberOf Db.insertMember
  rw [List.find?_append]
  simp [h]

theorem roleOf_insertMember_self {m : Member} (h : memberOf db m.tenantId m.userId = none) :
    roleOf (db.insertMember m) m.tenantId m.userId = some m.role := by
  unfold roleOf
  unfold memberOf Db.insertMember at *
  rw [List.find?_append, h]
  simp

theorem memberOf_spec {m : Member} (h : memberOf db tenant user = some m) :
    m.tenantId = tenant ∧ m.userId = user := by
  have hkey := List.find?_some h
  exact of_decide_eq_true hkey

theorem roleOf_setRole {role : TenantRole} :
    roleOf (db.setRole tenant user role) tenant' user' =
      if tenant' = tenant ∧ user' = user then (roleOf db tenant' user').map fun _ => role
      else roleOf db tenant' user' := by
  have hfind : memberOf (db.setRole tenant user role) tenant' user' =
      (memberOf db tenant' user').map fun m =>
        if m.tenantId = tenant ∧ m.userId = user then { m with role := role } else m := by
    unfold memberOf Db.setRole
    rw [List.find?_map]
    congr 2
    funext m
    dsimp only [Function.comp]
    split <;> rfl
  unfold roleOf
  rw [hfind]
  cases hm : memberOf db tenant' user' with
  | none => simp
  | some m =>
    obtain ⟨rfl, rfl⟩ := memberOf_spec hm
    simp only [Option.map_some]
    split <;> rfl

theorem roleOf_deleteMember :
    roleOf (db.deleteMember tenant user) tenant' user' =
      if tenant' = tenant ∧ user' = user then none else roleOf db tenant' user' := by
  have hfind : memberOf (db.deleteMember tenant user) tenant' user' =
      if tenant' = tenant ∧ user' = user then none else memberOf db tenant' user' := by
    unfold memberOf Db.deleteMember
    rw [List.find?_filter]
    split
    · rename_i hkey
      obtain ⟨rfl, rfl⟩ := hkey
      rw [List.find?_eq_none]
      intro m _ hm
      obtain ⟨hkept, hkey⟩ := of_decide_eq_true hm
      exact of_decide_eq_true hkept (of_decide_eq_true hkey)
    · rename_i hkey
      congr 1
      funext m
      by_cases hm : m.tenantId = tenant' ∧ m.userId = user'
      · obtain ⟨rfl, rfl⟩ := hm
        simp [hkey]
      · simp [hm]
  unfold roleOf
  rw [hfind]
  split <;> rfl

end

/-! ## What a member may change -/

/-- A member whose role is not below what there was, nor below what there will be: an owner, where
either is an owner. -/
def MayChange (db : Db) (actor tenant : Uuid) (before after : Option TenantRole) : Prop :=
  ∃ actorRole, roleOf db tenant actor = some actorRole ∧
    (∀ r, before = some r → r.rank ≤ actorRole.rank) ∧
    (∀ r, after = some r → r.rank ≤ actorRole.rank) ∧
    (before = some .owner ∨ after = some .owner → actorRole = .owner)

section

variable {platform : Platform} {db db' : Db} {actor tenant user tenant' user' : Uuid}

variable {role : TenantRole}

theorem TenantRole.eq_owner (h : TenantRole.owner.rank ≤ role.rank) :
    role = .owner := by
  cases role with
  | owner => rfl
  | admin => exact absurd h (by decide)
  | viewer => exact absurd h (by decide)

theorem mayChange_of_rank {actorRole : TenantRole} {before after : Option TenantRole}
    (hactor : roleOf db tenant actor = some actorRole)
    (hbefore : ∀ r, before = some r → r.rank ≤ actorRole.rank)
    (hafter : ∀ r, after = some r → r.rank ≤ actorRole.rank) :
    MayChange db actor tenant before after := by
  refine ⟨actorRole, hactor, hbefore, hafter, fun howner => ?_⟩
  rcases howner with h | h
  · exact TenantRole.eq_owner (hbefore _ h)
  · exact TenantRole.eq_owner (hafter _ h)

theorem requireTenantContext_ok {role : Option TenantRole} {r : TenantRole}
    (h : requireTenantContext role = .ok r) : role = some r := by
  unfold requireTenantContext at h
  split at h
  · cases h
  · cases h
    rfl

theorem admitted_ok {minimum actorRole : TenantRole}
    (h : admitted db minimum actor tenant = .ok actorRole) :
    roleOf db tenant actor = some actorRole ∧ minimum.rank ≤ actorRole.rank := by
  unfold admitted at h
  obtain ⟨role, hrole, h⟩ := bind_ok h
  obtain ⟨_, hmin, h⟩ := bind_ok h
  cases h
  exact ⟨requireTenantContext_ok hrole, requireRole_ok.mp hmin⟩

theorem membership_ok {m : Member} (h : membership db tenant user = .ok m) :
    memberOf db tenant user = some m := by
  unfold membership at h
  split at h
  · cases h
  · cases h
    assumption

variable {rowId : Uuid}

/-- What inserting a member of a tenant changes. -/
theorem insertNewMember_change (h : insertNewMember db tenant user rowId role = .ok db')
    (hchange : roleOf db' tenant' user' ≠ roleOf db tenant' user') :
    tenant' = tenant ∧ user' = user ∧ roleOf db tenant' user' = none ∧
      roleOf db' tenant' user' = some role := by
  unfold insertNewMember at h
  split at h
  · cases h
  · rename_i hnone
    cases h
    by_cases hkey : tenant = tenant' ∧ user = user'
    · obtain ⟨rfl, rfl⟩ := hkey
      refine ⟨rfl, rfl, ?_, roleOf_insertMember_self hnone⟩
      rw [roleOf, hnone, Option.map_none]
    · exact absurd (roleOf_insertMember hkey) hchange

/-- **`add_member`** grants no more than the actor has. -/
theorem addMember_change {email : String}
    (h : addMember platform db actor tenant email role rowId = .ok db')
    (hchange : roleOf db' tenant' user' ≠ roleOf db tenant' user') :
    tenant' = tenant ∧
      MayChange db actor tenant (roleOf db tenant' user') (roleOf db' tenant' user') := by
  unfold addMember at h
  obtain ⟨actorRole, hactor, h⟩ := bind_ok h
  obtain ⟨_, hassign, h⟩ := bind_ok h
  split at h
  · cases h
  · obtain ⟨htenant, _, hbefore, hafter⟩ := insertNewMember_change h hchange
    refine ⟨htenant, mayChange_of_rank (admitted_ok hactor).1 (fun r hr => ?_) fun r hr => ?_⟩
    · rw [hbefore] at hr
      cases hr
    · rw [hafter] at hr
      cases hr
      exact assertCanAssign_ok.mp hassign

/-- **`change_role`** looks at the role there is and at the one there is to be. -/
theorem changeRole_change (h : changeRole db actor tenant user role = .ok db')
    (hchange : roleOf db' tenant' user' ≠ roleOf db tenant' user') :
    tenant' = tenant ∧
      MayChange db actor tenant (roleOf db tenant' user') (roleOf db' tenant' user') := by
  unfold changeRole at h
  obtain ⟨actorRole, hactor, h⟩ := bind_ok h
  obtain ⟨target, htarget, h⟩ := bind_ok h
  obtain ⟨counts, hcheck, h⟩ := bind_ok h
  obtain ⟨_, _, h⟩ := bind_ok h
  cases h
  obtain ⟨hrole, hadmin⟩ := admitted_ok hactor
  obtain ⟨hgrant, howner, _⟩ := checkChange_ok hcheck
  rw [roleOf_setRole] at hchange ⊢
  split at hchange
  · rename_i hkey
    obtain ⟨rfl, rfl⟩ := hkey
    have hbefore : roleOf db tenant' user' = some target.role := by
      rw [roleOf, membership_ok htarget, Option.map_some]
    rw [if_pos ⟨rfl, rfl⟩, hbefore, Option.map_some]
    refine ⟨rfl, mayChange_of_rank hrole (fun r hr => ?_) fun r hr => ?_⟩
    · cases hr
      exact rank_le_of_admin hadmin howner
    · cases hr
      exact hgrant
  · exact absurd rfl hchange

/-- **`remove_member`**, by whoever has a role that is not below the member's. -/
theorem removeFrom_change {actorRole : TenantRole} (h : removeFrom db actorRole tenant user = .ok db')
    (hactor : roleOf db tenant actor = some actorRole)
    (hrank : ∀ target, memberOf db tenant user = some target →
      (target.role = .owner → actorRole = .owner) → target.role.rank ≤ actorRole.rank)
    (hchange : roleOf db' tenant' user' ≠ roleOf db tenant' user') :
    tenant' = tenant ∧
      MayChange db actor tenant (roleOf db tenant' user') (roleOf db' tenant' user') := by
  unfold removeFrom at h
  obtain ⟨target, htarget, h⟩ := bind_ok h
  obtain ⟨counts, hcheck, h⟩ := bind_ok h
  obtain ⟨_, _, h⟩ := bind_ok h
  cases h
  have hmember := membership_ok htarget
  rw [roleOf_deleteMember] at hchange ⊢
  split at hchange
  · rename_i hkey
    obtain ⟨rfl, rfl⟩ := hkey
    have hbefore : roleOf db tenant' user' = some target.role := by
      rw [roleOf, hmember, Option.map_some]
    rw [if_pos ⟨rfl, rfl⟩, hbefore]
    refine ⟨rfl, mayChange_of_rank hactor (fun r hr => ?_) fun r hr => by cases hr⟩
    cases hr
    exact hrank target hmember (checkRemove_ok hcheck).1
  · exact absurd rfl hchange

theorem removeFrom_invitations {actorRole : TenantRole}
    (h : removeFrom db actorRole tenant user = .ok db') : db'.invitations = db.invitations := by
  unfold removeFrom at h
  obtain ⟨_, _, h⟩ := bind_ok h
  obtain ⟨_, _, h⟩ := bind_ok h
  obtain ⟨_, _, h⟩ := bind_ok h
  cases h
  rfl

variable {invitation : Invitation} {now : Datetime}

/-- **`accept_invitation`** gives the invitation's role to somebody who was no member. -/
theorem joinTenant_change
    (hchange : roleOf (joinTenant db invitation user rowId now) tenant' user' ≠
      roleOf db tenant' user') :
    tenant' = invitation.tenantId ∧ roleOf db tenant' user' = none ∧
      roleOf (joinTenant db invitation user rowId now) tenant' user' = some invitation.role := by
  unfold joinTenant at hchange ⊢
  dsimp only at hchange ⊢
  -- the invitation's own row is no membership
  have hset : ∀ (db : Db) (f : Invitation → Invitation),
      roleOf (db.setInvitation invitation.id f) tenant' user' = roleOf db tenant' user' :=
    fun _ _ => rfl
  rw [hset] at hchange ⊢
  cases hmember : memberOf db invitation.tenantId user with
  | some m =>
    simp only [hmember] at hchange
    exact absurd rfl hchange
  | none =>
    simp only [hmember] at hchange ⊢
    by_cases hkey : invitation.tenantId = tenant' ∧ user = user'
    · obtain ⟨rfl, rfl⟩ := hkey
      refine ⟨rfl, ?_, roleOf_insertMember_self hmember⟩
      rw [roleOf, hmember, Option.map_none]
    · exact absurd (roleOf_insertMember hkey) hchange

/-- The member who acts, and in which tenant. -/
def actorOf : Request → Option (Uuid × Uuid)
  | .addMember actor tenant .. | .changeRole actor tenant .. | .removeMember actor tenant _
  | .leave actor tenant => some (actor, tenant)
  | _ => none

/-- The user founds the tenant. -/
def Founds (tenant user : Uuid) : Request → Prop
  | .register _ userId created _ => created = tenant ∧ userId = user
  | .createTenant actor created _ => created = tenant ∧ actor = user
  | _ => False

theorem createUser_spec {email : String} {id : Uuid} {taken : TenantError}
    (h : createUser platform db email id taken = .ok db') :
    db'.members = db.members ∧ db'.tenants = db.tenants ∧ db'.invitations = db.invitations := by
  unfold createUser at h
  split at h
  · cases h
  · split at h
    · cases h
    · cases h
      exact ⟨rfl, rfl, rfl⟩

theorem roleOf_congr (h : db'.members = db.members) :
    roleOf db' tenant user = roleOf db tenant user := by
  unfold roleOf memberOf
  rw [h]

theorem createTenantWithOwner_change (h : createTenantWithOwner db user tenant rowId = .ok db')
    (hchange : roleOf db' tenant' user' ≠ roleOf db tenant' user') :
    tenant = tenant' ∧ user = user' ∧ tenant ∉ db.tenants := by
  unfold createTenantWithOwner at h
  split at h
  · cases h
  · rename_i hfresh
    cases h
    by_contra hkey
    refine hchange ((roleOf_insertMember fun heq => ?_).trans (roleOf_congr rfl))
    exact hkey ⟨heq.1, heq.2, hfresh⟩

theorem invitee_spec {signedIn : Option Uuid} {password : String} {userId : Uuid}
    {found : Uuid × Db} (h : invitee platform db invitation signedIn password userId = .ok found) :
    found.2.members = db.members ∧ found.2.invitations = db.invitations := by
  unfold invitee at h
  split at h
  · dsimp only at h
    split at h
    · cases h
    · cases h
      exact ⟨rfl, rfl⟩
  · split at h
    · cases h
    · obtain ⟨created, hcreated, h⟩ := bind_ok h
      cases h
      obtain ⟨hmembers, _, hinvitations⟩ := createUser_spec hcreated
      exact ⟨hmembers, hinvitations⟩

theorem lookupInvitation_mem {token : String}
    (h : lookupInvitation platform db token now = .ok invitation) :
    invitation ∈ db.invitations := by
  unfold lookupInvitation at h
  split at h
  · cases h
  · rename_i i hfind
    split at h
    · cases h
    · split at h
      · cases h
      · split at h
        · cases h
        · cases h
          exact List.mem_of_find?_eq_some hfind

/-! ## Invitations -/

/-- The same invitation, whatever has become of its link. -/
def SameInvitation (i i' : Invitation) : Prop :=
  i'.id = i.id ∧ i'.tenantId = i.tenantId ∧ i'.role = i.role ∧ i'.invitedBy = i.invitedBy

theorem setInvitation_same {id : Uuid} {f : Invitation → Invitation}
    (hf : ∀ i, SameInvitation i (f i)) :
    ∀ i' ∈ (db.setInvitation id f).invitations, ∃ i ∈ db.invitations, SameInvitation i i' := by
  intro i' hi'
  obtain ⟨i, hi, rfl⟩ := List.mem_map.mp hi'
  refine ⟨i, hi, ?_⟩
  split
  · exact hf i
  · exact ⟨rfl, rfl, rfl, rfl⟩

/-- **`create_invitation`** offers no more than the actor has. -/
theorem createInvitation_spec {email : String} {id : Uuid} {token : String}
    (h : createInvitation platform db actor tenant email role id token now = .ok db') :
    db'.members = db.members ∧ MayChange db actor tenant none (some role) ∧
      ∃ invitation, db'.invitations = db.invitations ++ [invitation] ∧ invitation.id = id ∧
        invitation.tenantId = tenant ∧ invitation.role = role ∧ invitation.invitedBy = actor := by
  unfold createInvitation at h
  obtain ⟨actorRole, hactor, h⟩ := bind_ok h
  obtain ⟨_, hassign, h⟩ := bind_ok h
  dsimp only at h
  split at h
  · cases h
  · split at h
    · cases h
    · split at h
      · cases h
      · split at h
        · cases h
        · cases h
          refine ⟨rfl, mayChange_of_rank (admitted_ok hactor).1 (fun r hr => by cases hr) ?_,
            _, rfl, rfl, rfl, rfl, rfl⟩
          intro r hr
          cases hr
          exact assertCanAssign_ok.mp hassign

theorem resendInvitation_spec {id : Uuid} {token : String}
    (h : resendInvitation platform db actor tenant id token now = .ok db') :
    db'.members = db.members ∧
      ∀ i' ∈ db'.invitations, ∃ i ∈ db.invitations, SameInvitation i i' := by
  unfold resendInvitation at h
  obtain ⟨_, _, h⟩ := bind_ok h
  obtain ⟨invitation, _, h⟩ := bind_ok h
  cases h
  exact ⟨rfl, setInvitation_same fun i => ⟨rfl, rfl, rfl, rfl⟩⟩

theorem cancelInvitation_spec {id : Uuid} (h : cancelInvitation db actor tenant id now = .ok db') :
    db'.members = db.members ∧
      ∀ i' ∈ db'.invitations, ∃ i ∈ db.invitations, SameInvitation i i' := by
  unfold cancelInvitation at h
  obtain ⟨_, _, h⟩ := bind_ok h
  obtain ⟨invitation, _, h⟩ := bind_ok h
  cases h
  exact ⟨rfl, setInvitation_same fun i => ⟨rfl, rfl, rfl, rfl⟩⟩

theorem joinTenant_invitations :
    ∀ i' ∈ (joinTenant db invitation user rowId now).invitations,
      ∃ i ∈ db.invitations, SameInvitation i i' := by
  have haccepted : ∀ i : Invitation, SameInvitation i { i with acceptedAt := some now } :=
    fun _ => ⟨rfl, rfl, rfl, rfl⟩
  intro i' hi'
  unfold joinTenant at hi'
  dsimp only at hi'
  split at hi'
  · exact setInvitation_same haccepted i' hi'
  · obtain ⟨i, hi, hsame⟩ := setInvitation_same haccepted i' hi'
    exact ⟨i, hi, hsame⟩

theorem createTenantWithOwner_invitations {rowId : Uuid}
    (h : createTenantWithOwner db user tenant rowId = .ok db') :
    db'.invitations = db.invitations := by
  unfold createTenantWithOwner at h
  split at h
  · cases h
  · cases h
    rfl

/-- The routes that write members and no invitation. -/
theorem members_only {i' : Invitation} (h : db'.invitations = db.invitations)
    (hi' : i' ∈ db'.invitations) : ∃ i ∈ db.invitations, SameInvitation i i' :=
  ⟨i', h ▸ hi', rfl, rfl, rfl, rfl⟩

/-- **An invitation is what it was, or has just been made** by a member who may. -/
theorem handle_invitations {request : Request} (h : handle platform db request = .ok db')
    {i' : Invitation} (hi' : i' ∈ db'.invitations) :
    (∃ i ∈ db.invitations, SameInvitation i i') ∨
    ∃ email token now,
      request = .createInvitation i'.invitedBy i'.tenantId email i'.role i'.id token now ∧
      MayChange db i'.invitedBy i'.tenantId none (some i'.role) := by
  cases request with
  | createInvitation actor tenant email role id token now =>
    obtain ⟨_, hmay, invitation, happend, rfl, rfl, rfl, rfl⟩ := createInvitation_spec h
    rw [happend] at hi'
    rcases List.mem_append.mp hi' with hold | hnew
    · exact .inl ⟨i', hold, rfl, rfl, rfl, rfl⟩
    · obtain rfl := List.mem_singleton.mp hnew
      exact .inr ⟨email, token, now, rfl, hmay⟩
  | resendInvitation actor tenant id token now =>
    -- Only a creation adds one; whatever else touches an invitation keeps its role and its inviter.
    exact .inl ((resendInvitation_spec h).2 i' hi')
  | cancelInvitation actor tenant id now =>
    exact .inl ((cancelInvitation_spec h).2 i' hi')
  | acceptInvitation token signedIn password userId rowId now =>
    obtain ⟨invitation, _, hrest⟩ := bind_ok (show acceptInvitation platform db token signedIn
      password userId rowId now = .ok db' from h)
    obtain ⟨⟨joined, db₁⟩, hinvitee, hjoin⟩ := bind_ok hrest
    cases hjoin
    obtain ⟨_, hinvitations⟩ := invitee_spec hinvitee
    obtain ⟨i, hi, hsame⟩ := joinTenant_invitations i' hi'
    rw [hinvitations] at hi
    exact .inl ⟨i, hi, hsame⟩
  | register email userId created rowId =>
    obtain ⟨db₁, huser, htenant⟩ := bind_ok (show register platform db email userId created rowId =
      .ok db' from h)
    obtain ⟨_, _, hinvitations⟩ := createUser_spec huser
    have hsame := createTenantWithOwner_invitations htenant
    exact .inl (members_only (hsame.trans hinvitations) hi')
  | createTenant actor created rowId =>
    exact .inl (members_only (createTenantWithOwner_invitations h) hi')
  | addMember actor tenant email role rowId =>
    obtain ⟨_, _, h⟩ := bind_ok (show addMember platform db actor tenant email role rowId = .ok db'
      from h)
    obtain ⟨_, _, h⟩ := bind_ok h
    refine .inl (members_only ?_ hi')
    split at h
    · cases h
    · unfold insertNewMember at h
      split at h
      · cases h
      · cases h
        rfl
  | changeRole actor tenant user role =>
    obtain ⟨_, _, h⟩ := bind_ok (show changeRole db actor tenant user role = .ok db' from h)
    obtain ⟨_, _, h⟩ := bind_ok h
    obtain ⟨_, _, h⟩ := bind_ok h
    obtain ⟨_, _, h⟩ := bind_ok h
    cases h
    exact .inl (members_only rfl hi')
  | removeMember actor tenant user =>
    obtain ⟨_, _, h⟩ := bind_ok (show removeMember db actor tenant user = .ok db' from h)
    exact .inl (members_only (removeFrom_invitations h) hi')
  | leave actor tenant =>
    obtain ⟨_, _, h⟩ := bind_ok (show leaveTenant db actor tenant = .ok db' from h)
    exact .inl (members_only (removeFrom_invitations h) hi')

/-- **What a request changes of a role**, one case for each way there is. -/
theorem handle_change {request : Request} (h : handle platform db request = .ok db')
    (hchange : roleOf db' tenant user ≠ roleOf db tenant user) :
    (Founds tenant user request ∧ tenant ∉ db.tenants) ∨
    (∃ actor, actorOf request = some (actor, tenant) ∧
      MayChange db actor tenant (roleOf db tenant user) (roleOf db' tenant user)) ∨
    ∃ token signedIn password userId rowId now invitation,
      request = .acceptInvitation token signedIn password userId rowId now ∧
      lookupInvitation platform db token now = .ok invitation ∧ invitation.tenantId = tenant ∧
      roleOf db tenant user = none ∧ roleOf db' tenant user = some invitation.role := by
  cases request with
  | register email userId created rowId =>
    obtain ⟨db₁, huser, htenant⟩ := bind_ok (show register platform db email userId created rowId =
      .ok db' from h)
    obtain ⟨hmembers, htenants, _⟩ := createUser_spec huser
    rw [← roleOf_congr hmembers] at hchange
    obtain ⟨heq, huser', hfresh⟩ := createTenantWithOwner_change htenant hchange
    rw [htenants, heq] at hfresh
    exact .inl ⟨⟨heq, huser'⟩, hfresh⟩
  | createTenant actor created rowId =>
    obtain ⟨heq, huser, hfresh⟩ := createTenantWithOwner_change h hchange
    rw [heq] at hfresh
    exact .inl ⟨⟨heq, huser⟩, hfresh⟩
  | addMember actor tenant' email role rowId =>
    obtain ⟨rfl, hmay⟩ := addMember_change h hchange
    exact .inr (.inl ⟨actor, rfl, hmay⟩)
  | changeRole actor tenant' user' role =>
    obtain ⟨rfl, hmay⟩ := changeRole_change h hchange
    exact .inr (.inl ⟨actor, rfl, hmay⟩)
  | removeMember actor tenant' user' =>
    obtain ⟨actorRole, hactor, hremove⟩ := bind_ok (show removeMember db actor tenant' user' =
      .ok db' from h)
    obtain ⟨hrole, hadmin⟩ := admitted_ok hactor
    obtain ⟨rfl, hmay⟩ := removeFrom_change hremove hrole
      (fun _ _ howner => rank_le_of_admin hadmin howner) hchange
    exact .inr (.inl ⟨actor, rfl, hmay⟩)
  | leave actor tenant' =>
    obtain ⟨actorRole, hactor, hremove⟩ := bind_ok (show leaveTenant db actor tenant' = .ok db' from h)
    have hrole := requireTenantContext_ok hactor
    obtain ⟨rfl, hmay⟩ := removeFrom_change hremove hrole (fun target htarget _ => by
      -- who leaves is their own target
      have hown : roleOf db tenant' actor = some target.role := by
        rw [roleOf, htarget, Option.map_some]
      rw [hown] at hrole
      cases hrole
      exact Nat.le_refl _) hchange
    exact .inr (.inl ⟨actor, rfl, hmay⟩)
  | createInvitation actor tenant' email role id token now =>
    exact absurd (roleOf_congr (createInvitation_spec h).1) hchange
  | resendInvitation actor tenant' id token now =>
    exact absurd (roleOf_congr (resendInvitation_spec h).1) hchange
  | cancelInvitation actor tenant' id now =>
    exact absurd (roleOf_congr (cancelInvitation_spec h).1) hchange
  | acceptInvitation token signedIn password userId rowId now =>
    obtain ⟨invitation, hlookup, hrest⟩ := bind_ok (show acceptInvitation platform db token signedIn
      password userId rowId now = .ok db' from h)
    obtain ⟨⟨joined, db₁⟩, hinvitee, hjoin⟩ := bind_ok hrest
    cases hjoin
    obtain ⟨hmembers, _⟩ := invitee_spec hinvitee
    rw [← roleOf_congr hmembers] at hchange ⊢
    obtain ⟨htenant, hbefore, hafter⟩ := joinTenant_change hchange
    exact .inr (.inr ⟨token, signedIn, password, userId, rowId, now, invitation, rfl, hlookup,
      htenant.symm, hbefore, hafter⟩)

end

/-! ## Runs -/

section

variable {platform : Platform} {events : List Request}

/-- An invitation was made earlier in the run, by a member who might grant its role then. -/
def Invited (platform : Platform) (events : List Request) (n : Nat) (i : Invitation) : Prop :=
  ∃ k m email token now, k < n ∧ CallAt (trace (serve platform) {} events) k m ∧
    m.event = .createInvitation i.invitedBy i.tenantId email i.role i.id token now ∧
    m.out = .ok () ∧ MayChange m.before i.invitedBy i.tenantId none (some i.role)

theorem serve_ok {db db' : Db} {request : Request}
    (h : handle platform db request = .ok db') : serve platform db request = (.ok (), db') := by
  rw [serve, h]

theorem serve_error {db : Db} {request : Request} {e : TenantError}
    (h : handle platform db request = .error e) : serve platform db request = (.error e, db) := by
  rw [serve, h]

/-- **Every invitation there is was made by somebody who might.** -/
theorem invited_before {n : Nat} {m : Moment Db Request (Except TenantError Unit)}
    (hm : CallAt (trace (serve platform) {} events) n m) :
    ∀ i ∈ m.before.invitations, Invited platform events n i := by
  refine trace_invariant (I := fun n db => ∀ i ∈ db.invitations, Invited platform events n i)
    (fun i hi => by cases hi) (fun n m hm ih i' hi' => ?_) n m hm
  have hlater : ∀ i, SameInvitation i i' → Invited platform events n i →
      Invited platform events (n + 1) i' := by
    intro i hsame hinvited
    obtain ⟨hid, htenant, hrole, hby⟩ := hsame
    obtain ⟨k, m', email, token, now, hk, hcall, hevent, hout, hmay⟩ := hinvited
    rw [← hid, ← htenant, ← hrole, ← hby] at hevent
    rw [← htenant, ← hrole, ← hby] at hmay
    exact ⟨k, m', email, token, now, by omega, hcall, hevent, hout, hmay⟩
  have hmoment := trace_moment hm
  rw [hmoment, moment_after] at hi'
  cases hhandle : handle platform m.before m.event with
  | error e =>
    rw [serve_error hhandle] at hi'
    exact hlater i' ⟨rfl, rfl, rfl, rfl⟩ (ih i' hi')
  | ok db' =>
    rw [serve_ok hhandle] at hi'
    rcases handle_invitations hhandle hi' with ⟨i, hi, hsame⟩ | ⟨email, token, now, hevent, hmay⟩
    · exact hlater i hsame (ih i hi)
    · refine ⟨n, m, email, token, now, by omega, hm, hevent, ?_, hmay⟩
      rw [hmoment, moment_out, serve_ok hhandle]

/-- **No escalation.** Whenever a role changes in a run, it is the founder's, or a member of the
tenant changed it whose own role was below neither the old one nor the new one, or it came with an
invitation, made earlier by a member whose role at that time was not below it. Where an owner is
made, altered or removed, that member was an owner. -/
theorem no_escalation {n : Nat} {m : Moment Db Request (Except TenantError Unit)}
    (hm : CallAt (trace (serve platform) {} events) n m) {tenant user : Uuid}
    (hchange : roleOf m.after tenant user ≠ roleOf m.before tenant user) :
    (Founds tenant user m.event ∧ tenant ∉ m.before.tenants) ∨
    (∃ actor, actorOf m.event = some (actor, tenant) ∧
      MayChange m.before actor tenant (roleOf m.before tenant user) (roleOf m.after tenant user)) ∨
    ∃ token signedIn password userId rowId now invitation,
      m.event = .acceptInvitation token signedIn password userId rowId now ∧
      lookupInvitation platform m.before token now = .ok invitation ∧
      invitation.tenantId = tenant ∧ roleOf m.before tenant user = none ∧
      roleOf m.after tenant user = some invitation.role ∧ Invited platform events n invitation := by
  have hmoment := trace_moment hm
  have hafter : m.after = (serve platform m.before m.event).2 := by rw [hmoment]; rfl
  rw [hafter] at hchange ⊢
  cases hhandle : handle platform m.before m.event with
  | error e =>
    rw [serve_error hhandle] at hchange
    exact absurd rfl hchange
  | ok db' =>
    rw [serve_ok hhandle] at hchange ⊢
    rcases handle_change hhandle hchange with hfounds | hacts | ⟨token, signedIn, password, userId,
      rowId, now, invitation, hevent, hlookup, htenant, hbefore, hrole⟩
    · exact .inl hfounds
    · exact .inr (.inl hacts)
    · exact .inr (.inr ⟨token, signedIn, password, userId, rowId, now, invitation, hevent, hlookup,
        htenant, hbefore, hrole, invited_before hm invitation (lookupInvitation_mem hlookup)⟩)

end

/-! ## An owner and an admin -/

/-- Lower-case emails, and tokens that are their own hash. -/
def plain : Platform where
  folding := ⟨id, Catalog.lower_slug_id⟩
  sha256 := id

def acme : List Request :=
  [.register "ann@acme.io" "ann" "acme" "m1", .register "bob@acme.io" "bob" "bobs" "m2",
    .addMember "ann" "acme" "bob@acme.io" .admin "m3"]

theorem no_escalation_acme :
    ∃ m, CallAt (trace (serve plain) {} acme) 2 m ∧
      MayChange m.before "ann" "acme" none (some .admin) := by
  obtain ⟨m, hm⟩ : ∃ m, CallAt (trace (serve plain) {} acme) 2 m := ⟨_, rfl⟩
  have hroles : (trace (serve plain) {} acme)[2]?.map
      (fun m => (roleOf m.before "acme" "bob", roleOf m.after "acme" "bob")) =
      some (none, some .admin) := by decide +kernel
  rw [show (trace (serve plain) {} acme)[2]? = some m from hm] at hroles
  obtain ⟨hbefore, hafter⟩ := Prod.mk.inj (Option.some.inj hroles)
  have hevent : m.event = .addMember "ann" "acme" "bob@acme.io" .admin "m3" :=
    (Option.some.inj (trace_event hm)).symm
  refine ⟨m, hm, ?_⟩
  rcases no_escalation hm (by rw [hbefore, hafter]; exact Option.some_ne_none _) with
    ⟨hfounds, _⟩ | ⟨actor, hactor, hmay⟩ | ⟨_, _, _, _, _, _, _, haccept, _⟩
  · rw [hevent] at hfounds
    cases hfounds
  · rw [hevent] at hactor
    cases hactor
    rw [hbefore, hafter] at hmay
    exact hmay
  · rw [hevent] at haccept
    cases haccept

end IotSaas.Tenants
