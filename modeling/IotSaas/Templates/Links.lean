import IotSaas.Lib.Decimal
import IotSaas.Templates.Parts

/-!
# `Templates/Links.lean` — which rows a part feeds

What the loops of `reconcileParts` and `keepReading` do to the links of one part: what a replaced
part carries over it had before (`carryLinks_ok`), and a channel that is filled gets a row nobody
else feeds — if, and only if, the row it finds is not fed by a part the loop does not ask about
(`TurnOk`).
-/

set_option autoImplicit false

namespace IotSaas.Templates

open Lib Catalog Editor

variable {F : Type}

/-! ## Rows fed -/

/-- The rows a part feeds, channel by channel. -/
def fedBy (channels : Record Ref) : List Nat := channels.items.filterMap fun item => item.2.fed

/-- The rows that parts feed. -/
def fed (parts : List (BindingDraft F)) : List Nat := parts.flatMap fun b => fedBy b.channels

variable {uid : Nat}

theorem fed_eq_some {ref : Ref} : ref.fed = some uid ↔ ref = .row uid := by
  cases ref <;> simp [Ref.fed]

variable {channels : Record Ref}

theorem mem_fedBy :
    uid ∈ fedBy channels ↔ .row uid ∈ linksOf channels := by
  simp only [fedBy, linksOf, List.mem_filterMap, List.mem_map, fed_eq_some]

theorem mem_fed {parts : List (BindingDraft F)} :
    uid ∈ fed parts ↔ ∃ b ∈ parts, uid ∈ fedBy b.channels := List.mem_flatMap

@[simp] theorem fed_nil : fed ([] : List (BindingDraft F)) = [] := rfl

@[simp] theorem fed_append (parts parts' : List (BindingDraft F)) :
    fed (parts ++ parts') = fed parts ++ fed parts' := List.flatMap_append

@[simp] theorem fed_cons (b : BindingDraft F) (parts : List (BindingDraft F)) :
    fed (b :: parts) = fedBy b.channels ++ fed parts := List.flatMap_cons

/-- No row is fed twice: not by one part, and not by two. -/
theorem nodup_fed_insert {before after : List (BindingDraft F)} {b : BindingDraft F} :
    (fed (before ++ b :: after)).Nodup ↔ (fedBy b.channels).Nodup ∧
      (fed (before ++ after)).Nodup ∧ ∀ uid ∈ fedBy b.channels, uid ∉ fed (before ++ after) := by
  have hperm : (fed (before ++ b :: after)).Perm (fedBy b.channels ++ fed (before ++ after)) := by
    simp only [fed_append, fed_cons]
    exact List.perm_append_comm_assoc _ _ _
  rw [hperm.nodup_iff, List.nodup_append']
  exact and_congr Iff.rfl (and_congr Iff.rfl Iff.rfl)

/-- No row is fed twice where no part feeds one twice, and what each feeds goes back to an old part
of its own. -/
theorem nodup_fed_of_old {parts old : List (BindingDraft F)} (hold : (fed old).Nodup)
    (huids : (parts.map BindingDraft.uid).Nodup)
    (hparts : ∀ b ∈ parts, (fedBy b.channels).Nodup ∧
      ∀ uid ∈ fedBy b.channels, ∃ o ∈ old, o.uid = b.uid ∧ uid ∈ fedBy o.channels) :
    (fed parts).Nodup := by
  rw [fed, List.nodup_flatMap]
  refine ⟨fun b hb => (hparts b hb).1, ?_⟩
  refine ((List.pairwise_map.mp huids).imp_of_mem ?_)
  intro a b ha hb hne uid huid huid'
  obtain ⟨o, ho, hoa, hfed⟩ := (hparts a ha).2 uid huid
  obtain ⟨o', ho', hob, hfed'⟩ := (hparts b hb).2 uid huid'
  have hneq : o ≠ o' := by
    intro heq
    rw [heq] at hoa
    exact hne (hoa.symm.trans hob)
  rw [fed, List.nodup_flatMap] at hold
  have hsymm : Std.Symm (Function.onFun List.Disjoint
      fun b : BindingDraft F => fedBy b.channels) := ⟨fun _ _ h => List.Disjoint.symm h⟩
  exact hold.2.forall ho ho' hneq hfed hfed'

/-! ## One channel set -/

variable {channel : String}

theorem mem_linksOf_set {ref other : Ref} (h : other ∈ linksOf (channels.set channel ref)) :
    other = ref ∨ other ∈ linksOf channels := by
  obtain ⟨⟨k, r⟩, hmem, rfl⟩ := List.mem_map.mp h
  exact (Record.mem_assign hmem).imp_right fun hold => List.mem_map.mpr ⟨_, hold, rfl⟩

theorem mem_linksOf_of_get {ref : Ref} (h : channels.get channel = some ref) :
    ref ∈ linksOf channels :=
  List.mem_map.mpr ⟨_, Record.get_eq_some.mp h, rfl⟩

theorem nodup_fedBy_set (channel : String) {ref : Ref} (h : (fedBy channels).Nodup)
    (hfresh : ∀ uid, ref = .row uid → uid ∉ fedBy channels) :
    (fedBy (channels.set channel ref)).Nodup :=
  Record.nodup_filterMap_assign Ref.fed channel h fun uid huid => hfresh uid (fed_eq_some.mp huid)

theorem mem_fedBy_set {ref : Ref} (h : uid ∈ fedBy (channels.set channel ref)) :
    ref = .row uid ∨ uid ∈ fedBy channels := by
  rw [mem_fedBy] at h ⊢
  exact (mem_linksOf_set h).imp_left Eq.symm

theorem mem_fedBy_set_self (channels : Record Ref) (channel : String) (uid : Nat) :
    uid ∈ fedBy (channels.set channel (.row uid)) := by
  have hget : (channels.set channel (.row uid)).get channel = some (.row uid) := by
    rw [Record.get_set, if_pos rfl]
  exact mem_fedBy.mpr (mem_linksOf_of_get hget)

/-- A part that feeds no row twice feeds each from one channel. -/
theorem channel_unique {channels : Record Ref} (h : (fedBy channels).Nodup) {channel other : String}
    {uid : Nat} (hget : channels.get channel = some (.row uid))
    (hother : channels.get other = some (.row uid)) : channel = other := by
  by_contra hne
  have hpairwise := List.pairwise_filterMap.mp h
  have hsymm : Std.Symm fun a b : String × Ref => ∀ u, a.2.fed = some u → ∀ v, b.2.fed = some v →
      u ≠ v := ⟨fun a b hab u hu v hv heq => hab v hv u hu heq.symm⟩
  have hitems : (channel, Ref.row uid) ≠ (other, Ref.row uid) := fun heq =>
    hne (congrArg Prod.fst heq)
  exact hpairwise.forall (Record.get_eq_some.mp hget) (Record.get_eq_some.mp hother) hitems uid rfl
    uid rfl rfl

/-- A channel that is unlinked leaves its row unfed. -/
theorem not_mem_fedBy_unlinked (h : (fedBy channels).Nodup)
    (hget : channels.get channel = some (.row uid)) :
    uid ∉ fedBy (channels.set channel .unused) := by
  intro hmem
  obtain ⟨⟨other, ref⟩, hitem, heq⟩ := List.mem_map.mp (mem_fedBy.mp hmem)
  obtain rfl : ref = .row uid := heq
  have hother := Record.get_eq_some.mpr hitem
  rw [Record.get_set] at hother
  split at hother
  · cases hother
  · rename_i hne
    exact hne (channel_unique h hother hget)

theorem linked_set (channels : Record Ref) (channel : String) (ref : Ref) (other : String) :
    linked (channels.set channel ref) other =
      if other = channel then decide (ref ≠ .unused) else linked channels other := by
  unfold linked
  rw [Record.get_set]
  by_cases hother : other = channel
  · rw [if_pos hother, if_pos hother]
    cases ref <;> rfl
  · rw [if_neg hother, if_neg hother]

/-! ## What is carried over -/

/-- What is carried is the old part's, and each link goes to one reading at most. -/
structure CarryOk (old : BindingDraft F) (s : Carry) : Prop where
  once : (fedBy s.out).Nodup
  apart : ∀ ref ∈ linksOf s.out, ref ∉ s.free
  taken : ∀ ref ∈ linksOf s.out, ref ∈ linksOf old.channels ∧ ref ≠ .unused
  left : ∀ ref ∈ s.free, ref ∈ linksOf old.channels ∧ ref ≠ .unused

theorem CarryOk.take {old : BindingDraft F} {s : Carry} (h : CarryOk old s) (channel : String)
    {ref : Ref} (href : ref ∈ s.free) : CarryOk old (s.take channel ref) := by
  refine ⟨?_, ?_, ?_, ?_⟩
  · refine nodup_fedBy_set channel h.once fun uid hrow hfed => ?_
    exact h.apart ref (hrow ▸ mem_fedBy.mp hfed) href
  · intro other hother hfree
    obtain ⟨hfree, hne⟩ := List.mem_filter.mp hfree
    rcases mem_linksOf_set hother with rfl | hold
    · simp at hne
    · exact h.apart other hold hfree
  · intro other hother
    rcases mem_linksOf_set hother with rfl | hold
    · exact h.left other href
    · exact h.taken other hold
  · intro other hother
    exact h.left other (List.mem_of_mem_filter hother)

variable {R : Type} {K : RowKind F R} {js : Wiring.Js}

variable (K js) in
/-- **What a replaced part keeps** it had, and it has nothing twice. -/
theorem carryLinks_ok (old : BindingDraft F) (spec : PartSpec) (rows : List R) :
    (fedBy (carryLinks K js old spec rows)).Nodup ∧
      ∀ ref ∈ linksOf (carryLinks K js old spec rows),
        ref ∈ linksOf old.channels ∧ ref ≠ .unused := by
  have hstart : CarryOk old ⟨⟨[], List.nodup_nil⟩, carriable old⟩ := by
    refine ⟨List.nodup_nil, nofun, nofun, ?_⟩
    intro ref href
    unfold carriable at href
    rw [List.mem_eraseDups, List.mem_filter] at href
    exact ⟨href.1, by simpa using href.2⟩
  have hbyKey : ∀ (channels : List ChannelSpec) (s : Carry), CarryOk old s →
      CarryOk old (channels.foldl (carryByKey old) s) := by
    intro channels
    induction channels with
    | nil => exact fun s hs => hs
    | cons ch rest ih =>
      intro s hs
      refine ih _ ?_
      unfold carryByKey
      split
      · exact hs
      · split
        · rename_i hfree
          exact hs.take ch.key hfree
        · exact hs
  have hbyFit : ∀ (channels : List ChannelSpec) (s : Carry), CarryOk old s →
      CarryOk old (channels.foldl (carryByFit K js spec rows) s) := by
    intro channels
    induction channels with
    | nil => exact fun s hs => hs
    | cons ch rest ih =>
      intro s hs
      refine ih _ ?_
      unfold carryByFit
      split
      · exact hs
      · split
        · exact hs
        · rename_i ref hfind
          exact hs.take ch.key (List.mem_of_find?_eq_some hfind)
  have hend := hbyFit spec.channels _ (hbyKey spec.channels _ hstart)
  exact ⟨hend.once, hend.taken⟩

/-! ## Keys -/

section

variable (K js)

/-- Keys are unique in any letters, and none is reserved. -/
structure KeysApart (rows : List R) : Prop where
  unique : (rows.map fun row => js.toLowerCase (rowKey K row)).Nodup
  unreserved : ∀ row ∈ rows, js.toLowerCase (rowKey K row) ∉ reservedMetricKeys

instance (rows : List R) : Decidable (KeysApart K js rows) :=
  decidable_of_iff ((rows.map fun row => js.toLowerCase (rowKey K row)).Nodup ∧
      ∀ row ∈ rows, js.toLowerCase (rowKey K row) ∉ reservedMetricKeys)
    ⟨fun h => ⟨h.1, h.2⟩, fun h => ⟨h.unique, h.unreserved⟩⟩

/-- The key that would be proposed is neither another's nor a reserved one in other letters. -/
structure KeyOpen (spec : PartSpec) (ch : ChannelSpec) (rows : List R) : Prop where
  unique : ∀ row ∈ rows,
    js.toLowerCase (rowKey K row) = js.toLowerCase (jsTrim (newKey K js spec ch rows)) →
      rowKey K row = newKey K js spec ch rows
  unreserved : js.toLowerCase (jsTrim (newKey K js spec ch rows)) ∈ reservedMetricKeys →
    newKey K js spec ch rows ∈ reservedMetricKeys

end

theorem keyCandidate_injective {base : String} {i j : Nat}
    (h : keyCandidate base i = keyCandidate base j) : i = j := by
  have hlength : ∀ n : Nat, base ≠ base ++ "_" ++ toString (n + 1) := by
    intro n heq
    have hlengths := congrArg String.length heq
    rw [String.length_append, String.length_append] at hlengths
    have hone : "_".length = 1 := rfl
    omega
  unfold keyCandidate at h
  split at h
  · split at h
    · omega
    · exact absurd h (hlength _)
  · split at h
    · exact absurd h.symm (hlength _)
    · have hsame := repr_injective ((String.append_right_inj _).mp h)
      omega

variable (K js) in
/-- **A proposed key is free**: no row has it, and it is not reserved. -/
theorem newKey_free (spec : PartSpec) (ch : ChannelSpec) (rows : List R) :
    newKey K js spec ch rows ∉ rows.map (rowKey K) ∧
      newKey K js spec ch rows ∉ reservedMetricKeys := by
  have hfree : newKey K js spec ch rows ∉ rows.map (rowKey K) ++ reservedMetricKeys :=
    @firstFree_not_mem _ _ _ id _ _ fun _ _ => keyCandidate_injective
  rw [List.mem_append, not_or] at hfree
  exact hfree

variable {spec : PartSpec} {ch : ChannelSpec}

/-- A row under a key that is open leaves the keys apart. -/
theorem KeysApart.add {rows : List R} (h : KeysApart K js rows) (hopen : KeyOpen K js spec ch rows)
    (uid : Nat) (p : Proposal) :
    KeysApart K js (rows ++ [K.propose uid p ch (newKey K js spec ch rows)]) := by
  obtain ⟨hnew, hunreserved⟩ := newKey_free K js spec ch rows
  have hkey : rowKey K (K.propose uid p ch (newKey K js spec ch rows)) =
      jsTrim (newKey K js spec ch rows) := by
    unfold rowKey
    rw [K.key_propose]
  constructor
  · rw [List.map_append, List.map_singleton, hkey, List.nodup_append']
    refine ⟨h.unique, List.nodup_singleton _, ?_⟩
    rw [List.disjoint_singleton]
    intro hmem
    obtain ⟨row, hrow, heq⟩ := List.mem_map.mp hmem
    exact hnew (List.mem_map.mpr ⟨row, hrow, hopen.unique row hrow heq⟩)
  · rw [List.forall_mem_append, List.forall_mem_singleton, hkey]
    exact ⟨h.unreserved, fun hmem => hunreserved (hopen.unreserved hmem)⟩

variable {rows rows' : List R}

theorem KeysApart.sublist (h : KeysApart K js rows) (hsub : rows'.Sublist rows) :
    KeysApart K js rows' :=
  ⟨h.unique.sublist (hsub.map _), fun row hrow => h.unreserved row (hsub.subset hrow)⟩

/-- Only under one that is open. -/
theorem KeyOpen.of_apart {rows : List R} {p : Proposal}
    (h : KeysApart K js (rows ++ [K.propose uid p ch (newKey K js spec ch rows)])) :
    KeyOpen K js spec ch rows := by
  have hkey : rowKey K (K.propose uid p ch (newKey K js spec ch rows)) =
      jsTrim (newKey K js spec ch rows) := by
    unfold rowKey
    rw [K.key_propose]
  constructor
  · intro row hrow hsame
    have hunique := h.unique
    rw [List.map_append, List.map_singleton, hkey, List.nodup_append'] at hunique
    refine absurd ?_ (List.disjoint_singleton.mp hunique.2.2)
    exact List.mem_map.mpr ⟨row, hrow, hsame⟩
  · intro hreserved
    have hunreserved := h.unreserved _ (List.mem_append_right _ List.mem_cons_self)
    rw [hkey] at hunreserved
    exact absurd hreserved hunreserved

/-! ## A channel that is filled -/

section

variable (K js)

/-- Rows as the loops leave them: their keys are apart, and their uids were drawn one by one. -/
structure Tidy (bench : Bench R) : Prop where
  keys : KeysApart K js bench.rows
  uids : (bench.rows.map K.uid).Nodup
  drawn : ∀ row ∈ bench.rows, K.uid row ≤ bench.seq

/-- Every link is one of the `start`, or leads to a row. -/
def LeadsOn (rows : List R) (start channels : Record Ref) : Prop :=
  ∀ ref ∈ linksOf channels, ref ≠ .unused →
    ref ∈ linksOf start ∨ ∃ row ∈ rows, ref = .row (K.uid row)

/-- A part whose channels are being filled, while `others` are fed by the other parts. -/
structure Filled (others : List Nat) (s : Filling F R) : Prop where
  tidy : Tidy K js s.toBench
  once : (fedBy s.channels).Nodup
  apart : ∀ uid ∈ fedBy s.channels, uid ∉ others
  own : ∀ uid ∈ fedBy s.channels, uid ≤ s.seq
  drawn : ∀ uid ∈ others, uid ≤ s.seq

/-- **When a channel may be filled**, where it has to be: the row it would find is not one that a
part of the same change has got `meanwhile`, and the key it would propose is open. -/
structure TurnOk (spec : PartSpec) (taken : Nat → Bool) (meanwhile : List Nat) (s : Filling F R)
    (ch : ChannelSpec) : Prop where
  free : ∀ row ∈ s.rows, wanted K js spec ch row = true → taken (K.uid row) = false →
    K.uid row ∉ fedBy s.channels → K.uid row ∉ meanwhile
  key : (∀ row ∈ s.rows, wanted K js spec ch row = true →
      taken (K.uid row) = true ∨ K.uid row ∈ fedBy s.channels) → KeyOpen K js spec ch s.rows

/-- The condition of every turn that does something. -/
def NeedsRow (s : Filling F R) (ch : ChannelSpec) : Prop :=
  linked s.channels ch.key = false ∧ ch.common = true

end

/-- A row that is proposed under the next uid. -/
theorem Tidy.add {bench : Bench R} (h : Tidy K js bench) (hopen : KeyOpen K js spec ch bench.rows)
    (p : Proposal) :
    Tidy K js ⟨bench.seq + 1,
      bench.rows ++ [K.propose (bench.seq + 1) p ch (newKey K js spec ch bench.rows)]⟩ := by
  refine ⟨h.keys.add hopen _ _, ?_, ?_⟩
  · rw [List.map_append, List.map_singleton, K.uid_propose, List.nodup_append']
    refine ⟨h.uids, List.nodup_singleton _, ?_⟩
    rw [List.disjoint_singleton]
    intro hmem
    obtain ⟨row, hrow, heq⟩ := List.mem_map.mp hmem
    have hdrawn := h.drawn row hrow
    omega
  · dsimp only
    rw [List.forall_mem_append, List.forall_mem_singleton, K.uid_propose]
    exact ⟨fun row hrow => Nat.le_succ_of_le (h.drawn row hrow), Nat.le_refl _⟩

theorem mem_linksOf_busy :
    decide (Ref.row uid ∈ linksOf channels) = true ↔ uid ∈ fedBy channels := by
  rw [decide_eq_true_eq, mem_fedBy]

/-- What is found is a row that is wanted and that neither `taken` nor the part itself has. -/
theorem rowForChannel_found {rows : List R} {busy : Nat → Bool} {seq uid : Nat}
    (h : rowForChannel K js spec ch rows busy seq = .found uid) :
    ∃ row ∈ rows, K.uid row = uid ∧ wanted K js spec ch row = true ∧ busy uid = false := by
  unfold rowForChannel at h
  split at h
  · rename_i row hfind
    cases h
    have hsome := List.find?_some hfind
    rw [Bool.and_eq_true, Bool.not_eq_true'] at hsome
    exact ⟨row, List.mem_of_find?_eq_some hfind, rfl, hsome.1, hsome.2⟩
  · cases h

theorem rowForChannel_created {rows : List R} {busy : Nat → Bool} {seq : Nat} {row : R}
    (h : rowForChannel K js spec ch rows busy seq = .created row) :
    row = K.propose (seq + 1) (proposal js spec ch) ch (newKey K js spec ch rows) ∧
      ∀ row ∈ rows, wanted K js spec ch row = true → busy (K.uid row) = true := by
  unfold rowForChannel at h
  split at h
  · cases h
  · rename_i hfind
    cases h
    refine ⟨rfl, fun row hrow hwanted => ?_⟩
    have hnone := List.find?_eq_none.mp hfind row hrow
    simpa [hwanted] using hnone

section

variable (K)

/-- Rows added behind, each under a uid that was drawn after `seq`. -/
def Appended (seq : Nat) (rows rows' : List R) : Prop :=
  ∃ new, rows' = rows ++ new ∧ ∀ row ∈ new, seq < K.uid row

/-- What a turn leaves of what there was: rows are added behind, links that are there stay, and a
new proposal is of a new row. -/
structure Grown (s s' : Filling F R) : Prop where
  rows : Appended K s.seq s.rows s'.rows
  seq : s.seq ≤ s'.seq
  links : ∀ channel, linked s.channels channel = true →
    s'.channels.get channel = s.channels.get channel
  proposed : ∀ entry ∈ s'.proposed, entry ∈ s.proposed ∨ s.seq < entry.1

end

theorem Appended.refl (seq : Nat) (rows : List R) : Appended K seq rows rows :=
  ⟨[], (List.append_nil _).symm, nofun⟩

theorem Appended.trans {seq seq' : Nat} {rows rows' rows'' : List R}
    (h : Appended K seq rows rows') (hseq : seq ≤ seq') (h' : Appended K seq' rows' rows'') :
    Appended K seq rows rows'' := by
  obtain ⟨new, rfl, hnew⟩ := h
  obtain ⟨new', rfl, hnew'⟩ := h'
  refine ⟨new ++ new', List.append_assoc _ _ _, ?_⟩
  rw [List.forall_mem_append]
  exact ⟨hnew, fun row hrow => Nat.lt_of_le_of_lt hseq (hnew' row hrow)⟩

theorem Appended.subset {seq : Nat} (h : Appended K seq rows rows') {row : R} (hrow : row ∈ rows) :
    row ∈ rows' := by
  obtain ⟨new, rfl, -⟩ := h
  exact List.mem_append_left _ hrow

theorem Appended.sublist {seq : Nat} (h : Appended K seq rows rows') :
    rows.Sublist rows' := by
  obtain ⟨new, rfl, -⟩ := h
  exact List.sublist_append_left rows new

theorem Appended.old {seq : Nat} (h : Appended K seq rows rows') {row : R} (hrow : row ∈ rows') :
    row ∈ rows ∨ seq < K.uid row := by
  obtain ⟨new, rfl, hnew⟩ := h
  exact (List.mem_append.mp hrow).imp_right (hnew row)

theorem Grown.refl (s : Filling F R) : Grown K s s :=
  ⟨.refl _ _, Nat.le_refl _, fun _ _ => rfl, fun _ h => .inl h⟩

theorem Grown.linked {s s' : Filling F R} (h : Grown K s s')
    (hlinked : linked s.channels channel = true) : linked s'.channels channel = true := by
  unfold Templates.linked at hlinked ⊢
  rw [h.links channel hlinked]
  exact hlinked

/-- What a part feeds it goes on feeding. -/
theorem Grown.fedBy {s s' : Filling F R} (h : Grown K s s') (huid : uid ∈ fedBy s.channels) :
    uid ∈ fedBy s'.channels := by
  obtain ⟨⟨channel, ref⟩, hitem, heq⟩ := List.mem_map.mp (mem_fedBy.mp huid)
  obtain rfl : ref = .row uid := heq
  have hget := Record.get_eq_some.mpr hitem
  have hlinked : Templates.linked s.channels channel = true := by
    unfold Templates.linked
    rw [hget]
  rw [← h.links channel hlinked] at hget
  exact mem_fedBy.mpr (mem_linksOf_of_get hget)

theorem Grown.trans {s s' s'' : Filling F R} (h : Grown K s s') (h' : Grown K s' s'') :
    Grown K s s'' := by
  refine ⟨h.rows.trans h.seq h'.rows, Nat.le_trans h.seq h'.seq, ?_, ?_⟩
  · intro channel hlinked
    rw [h'.links channel (h.linked hlinked), h.links channel hlinked]
  · intro entry hentry
    rcases h'.proposed entry hentry with hold | hlate
    · exact h.proposed entry hold
    · exact .inr (Nat.lt_of_le_of_lt h.seq hlate)

/-- Setting a channel that has no link keeps the links there are. -/
theorem get_set_of_linked {channel other : String} (ref : Ref) (h : linked channels channel = false)
    (hother : linked channels other = true) :
    (channels.set channel ref).get other = channels.get other := by
  refine Record.get_set_of_ne channels ref fun heq => ?_
  rw [heq, h] at hother
  cases hother

variable (K js) in
/-- **One turn**, whatever it finds. -/
theorem fillChannel_grown (spec : PartSpec) (taken : Nat → Bool) (s : Filling F R)
    (ch : ChannelSpec) : Grown K s (fillChannel K js spec taken s ch) ∧
      (ch.common = true → linked (fillChannel K js spec taken s ch).channels ch.key = true) := by
  unfold fillChannel
  split
  · rename_i hlinked
    exact ⟨.refl s, fun _ => hlinked⟩
  · rename_i hlinked
    rw [Bool.not_eq_true] at hlinked
    split
    · rename_i hcommon
      refine ⟨⟨.refl _ _, Nat.le_refl _, ?_, fun _ h => .inl h⟩, ?_⟩
      · exact fun other hother => get_set_of_linked _ hlinked hother
      · intro h
        rw [h] at hcommon
        cases hcommon
    · split
      · refine ⟨⟨.refl _ _, Nat.le_refl _, ?_, fun _ h => .inl h⟩, ?_⟩
        · exact fun other hother => get_set_of_linked _ hlinked hother
        · intro _
          rw [linked_set, if_pos rfl]
          rfl
      · rename_i row hcreated
        obtain ⟨rfl, -⟩ := rowForChannel_created hcreated
        refine ⟨⟨⟨_, rfl, ?_⟩, Nat.le_succ _, ?_, ?_⟩, ?_⟩
        · rw [List.forall_mem_singleton, K.uid_propose]
          exact Nat.lt_succ_self _
        · exact fun other hother => get_set_of_linked _ hlinked hother
        · intro entry hentry
          rcases List.mem_append.mp hentry with hold | hnew
          · exact .inl hold
          · right
            rw [List.mem_singleton.mp hnew]
            dsimp only
            rw [K.uid_propose]
            exact Nat.lt_succ_self _
        · intro _
          rw [linked_set, if_pos rfl]
          rfl

/-- **One turn that may be taken** gives the channel a row that nobody else feeds. -/
theorem fillChannel_filled {taken : Nat → Bool} {others meanwhile : List Nat} {s : Filling F R}
    (hcover : ∀ uid ∈ others, taken uid = true ∨ uid ∈ meanwhile) (hs : Filled K js others s)
    (hok : NeedsRow s ch → TurnOk K js spec taken meanwhile s ch) :
    Filled K js others (fillChannel K js spec taken s ch) := by
  unfold fillChannel
  split
  · exact hs
  · rename_i hlinked
    rw [Bool.not_eq_true] at hlinked
    split
    · refine ⟨hs.tidy, nodup_fedBy_set _ hs.once (fun _ h => by cases h), ?_, ?_, hs.drawn⟩
      · intro uid huid
        rcases mem_fedBy_set huid with h | hold
        · cases h
        · exact hs.apart uid hold
      · intro uid huid
        rcases mem_fedBy_set huid with h | hold
        · cases h
        · exact hs.own uid hold
    · rename_i hcommon
      have hok := hok ⟨hlinked, by simpa using hcommon⟩
      split
      · rename_i uid hfound
        obtain ⟨row, hrow, rfl, hwanted, hbusy⟩ := rowForChannel_found hfound
        rw [Bool.or_eq_false_iff, ← Bool.not_eq_true, ← Bool.not_eq_true, mem_linksOf_busy,
          Bool.not_eq_true] at hbusy
        refine ⟨hs.tidy, nodup_fedBy_set _ hs.once ?_, ?_, ?_, hs.drawn⟩
        · intro uid huid
          cases huid
          exact hbusy.2
        · intro uid huid
          rcases mem_fedBy_set huid with h | hold
          · cases h
            intro hother
            rcases hcover _ hother with htaken | hmeanwhile
            · rw [hbusy.1] at htaken
              cases htaken
            · exact hok.free row hrow hwanted hbusy.1 hbusy.2 hmeanwhile
          · exact hs.apart uid hold
        · intro uid huid
          rcases mem_fedBy_set huid with h | hold
          · cases h
            exact hs.tidy.drawn row hrow
          · exact hs.own uid hold
      · rename_i row hcreated
        obtain ⟨rfl, hbusy⟩ := rowForChannel_created hcreated
        have hopen := hok.key fun row hrow hwanted => by
          have hrowBusy := hbusy row hrow hwanted
          rwa [Bool.or_eq_true, mem_linksOf_busy] at hrowBusy
        -- the uid is drawn for the row, so nothing has it yet
        refine ⟨hs.tidy.add hopen _, ?_, ?_, ?_, ?_⟩
        · refine nodup_fedBy_set _ hs.once ?_
          intro uid huid hfed
          rw [K.uid_propose] at huid
          cases huid
          have hown := hs.own _ hfed
          omega
        · intro uid huid
          rcases mem_fedBy_set huid with h | hold
          · rw [K.uid_propose] at h
            cases h
            intro hother
            have hdrawn := hs.drawn _ hother
            omega
          · exact hs.apart uid hold
        · intro uid huid
          rcases mem_fedBy_set huid with h | hold
          · rw [K.uid_propose] at h
            cases h
            exact Nat.le_refl _
          · exact Nat.le_succ_of_le (hs.own uid hold)
        · intro uid huid
          exact Nat.le_succ_of_le (hs.drawn uid huid)

/-- **A turn that leaves the keys apart**, and gives the channel nothing that another part has got
meanwhile, is one that may be taken. -/
theorem turnOk_of_fillChannel {taken : Nat → Bool} {meanwhile : List Nat} {s : Filling F R}
    (hneeds : NeedsRow s ch) (hkeys : KeysApart K js (fillChannel K js spec taken s ch).rows)
    (hapart : ∀ uid ∈ fedBy (fillChannel K js spec taken s ch).channels, uid ∉ meanwhile) :
    TurnOk K js spec taken meanwhile s ch := by
  obtain ⟨hunlinked, hcommon⟩ := hneeds
  unfold fillChannel at hkeys hapart
  simp only [hunlinked, hcommon, Bool.false_eq_true, Bool.true_eq_false, if_false] at hkeys hapart
  split at hkeys
  · rename_i uid hfound
    obtain ⟨row, hrow, rfl, hwanted, hbusy⟩ := rowForChannel_found hfound
    rw [hfound] at hapart
    rw [Bool.or_eq_false_iff, ← Bool.not_eq_true, ← Bool.not_eq_true, mem_linksOf_busy,
      Bool.not_eq_true] at hbusy
    have hkeyOf : ∀ row : R, wanted K js spec ch row = true →
        rowKey K row = (proposal js spec ch).key := by
      intro row hwanted
      unfold wanted at hwanted
      rw [Bool.and_eq_true, decide_eq_true_eq] at hwanted
      exact hwanted.1
    constructor
    · intro other hother hwanted' _ _
      have hsame : other = row := by
        refine List.inj_on_of_nodup_map hkeys.unique hother hrow ?_
        rw [hkeyOf other hwanted', hkeyOf row hwanted]
      rw [hsame]
      exact hapart _ (mem_fedBy_set_self s.channels ch.key (K.uid row))
    · intro hall
      rcases hall row hrow hwanted with htaken | hown
      · rw [hbusy.1] at htaken
        cases htaken
      · exact absurd hown hbusy.2
  · rename_i row hcreated
    obtain ⟨rfl, hbusy⟩ := rowForChannel_created hcreated
    constructor
    · intro other hother hwanted htaken hown
      have hother := hbusy other hother hwanted
      rw [htaken, Bool.false_or, mem_linksOf_busy] at hother
      exact absurd hother hown
    · intro _
      exact .of_apart hkeys

/-- A new link leads to a row. -/
theorem fillChannel_leadsOn {taken : Nat → Bool} {s : Filling F R} {start : Record Ref}
    (h : LeadsOn K s.rows start s.channels) (ch : ChannelSpec) :
    LeadsOn K (fillChannel K js spec taken s ch).rows start
      (fillChannel K js spec taken s ch).channels := by
  unfold fillChannel
  split
  · exact h
  · split
    · intro ref href hne
      rcases mem_linksOf_set href with rfl | hold
      · exact absurd rfl hne
      · exact h ref hold hne
    · split
      · rename_i uid hfound
        obtain ⟨row, hrow, rfl, -, -⟩ := rowForChannel_found hfound
        intro ref href hne
        rcases mem_linksOf_set href with rfl | hold
        · exact .inr ⟨row, hrow, rfl⟩
        · exact h ref hold hne
      · intro ref href hne
        rcases mem_linksOf_set href with rfl | hold
        · exact .inr ⟨_, List.mem_append_right _ List.mem_cons_self, rfl⟩
        · apply (h ref hold hne).imp_right
          intro hleads
          obtain ⟨row, hrow, heq⟩ := hleads
          exact ⟨row, List.mem_append_left _ hrow, heq⟩

end IotSaas.Templates
