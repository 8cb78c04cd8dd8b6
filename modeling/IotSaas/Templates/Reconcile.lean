import IotSaas.Lib.Reach
import IotSaas.Lib.Zipped
import IotSaas.Templates.Links

/-!
# `Templates/Reconcile.lean` — the parts of one change

The loop of `reconcileParts` over the parts of one side of the wiring. What there is stays: links,
rows and proposals are only added (`propose_outcome`, `propose_leadsOn`). And no row is fed by two
channels in the end (`propose_round`), as long as no channel is filled with a row that another new
part of the same change has got meanwhile; and only then (`proposeOk_of_end`). Nothing in the loop
rules that out: `next` is what it asks, and there the new parts have no links yet.
-/

set_option autoImplicit false

namespace IotSaas.Templates

open Lib Catalog Editor

variable {F R : Type}

/-! ## A part of the change -/

section

variable (K : RowKind F R) (js : Wiring.Js)

/-- The turns of a part may all be taken. -/
def TurnsOk (spec : PartSpec) (taken : Nat → Bool) (meanwhile : List Nat) (s : Filling F R)
    (channels : List ChannelSpec) : Prop :=
  RunMeets (fun s ch => some (fillChannel K js spec taken s ch))
    (fun s ch => NeedsRow s ch → TurnOk K js spec taken meanwhile s ch) s channels

/-- A part's links and proposals with the bench they refer to. -/
def filling (bench : Bench R) (b : BindingDraft F) : Filling F R :=
  { bench with channels := b.channels, proposed := b.proposed }

/-- What the other new parts of a change feed: those that are done, and the others by what they
carry over. -/
def meanwhile (c : Change F R) (done : List (BindingDraft F)) (b : BindingDraft F) : List Nat :=
  fed ((done ++ (c.next.filter fun other => other.uid ≠ b.uid).map (startOf K js c)).filter
    (isChanged c.before))

/-- **Every turn of a change may be taken.** -/
def ProposeOk (c : Change F R) : List (BindingDraft F) → Bench R → List (BindingDraft F) → Prop
  | _, _, [] => True
  | done, bench, b :: rest =>
      (∀ spec, isChanged c.before b = true → findDriver c.drivers b.driver = some spec →
        TurnsOk K js spec (takenBy c b) (meanwhile K js c done b)
          (filling bench (startOf K js c b)) spec.channels) ∧
      ProposeOk c (done ++ [(fillPart K js c bench b).2]) (fillPart K js c bench b).1 rest

end

section

variable {K : RowKind F R} {js : Wiring.Js} {c : Change F R}

theorem isChanged_congr {before : List (BindingDraft F)} {a b : BindingDraft F}
    (huid : a.uid = b.uid) (hdriver : a.driver = b.driver) :
    isChanged before a = isChanged before b := by
  unfold isChanged
  rw [huid, hdriver]

@[simp] theorem uid_startOf (b : BindingDraft F) : (startOf K js c b).uid = b.uid := by
  unfold startOf carriedOver
  repeat' split
  all_goals rfl

@[simp] theorem driver_startOf (b : BindingDraft F) : (startOf K js c b).driver = b.driver := by
  unfold startOf carriedOver
  repeat' split
  all_goals rfl

theorem isChanged_startOf (b : BindingDraft F) :
    isChanged c.before (startOf K js c b) = isChanged c.before b :=
  isChanged_congr (uid_startOf b) (driver_startOf b)

variable (K js c) in
/-- What the part is after its turns. -/
theorem fillPart_cases (bench : Bench R) (b : BindingDraft F) :
    (∃ spec, isChanged c.before b = true ∧ findDriver c.drivers b.driver = some spec ∧
        filling (fillPart K js c bench b).1 (fillPart K js c bench b).2 =
          spec.channels.foldl (fillChannel K js spec (takenBy c b))
            (filling bench (startOf K js c b)) ∧
        (fillPart K js c bench b).2.uid = b.uid ∧ (fillPart K js c bench b).2.driver = b.driver) ∨
      ((isChanged c.before b = true → findDriver c.drivers b.driver = none) ∧
        fillPart K js c bench b = (bench, startOf K js c b)) := by
  unfold fillPart
  cases hchanged : isChanged c.before b with
  | false => exact .inr ⟨nofun, rfl⟩
  | true =>
    cases hspec : findDriver c.drivers b.driver with
    | none => exact .inr ⟨fun _ => rfl, rfl⟩
    | some spec => exact .inl ⟨spec, rfl, rfl, rfl, rfl, rfl⟩

theorem uid_fillPart (bench : Bench R) (b : BindingDraft F) :
    (fillPart K js c bench b).2.uid = b.uid := by
  obtain ⟨_, -, -, -, huid, -⟩ | ⟨-, heq⟩ := fillPart_cases K js c bench b
  · exact huid
  · rw [heq]
    exact uid_startOf b

theorem driver_fillPart (bench : Bench R) (b : BindingDraft F) :
    (fillPart K js c bench b).2.driver = b.driver := by
  obtain ⟨_, -, -, -, -, hdriver⟩ | ⟨-, heq⟩ := fillPart_cases K js c bench b
  · exact hdriver
  · rw [heq]
    exact driver_startOf b

variable (K js) in
/-- The turns of a part, whatever they find: what is linked stays, and every common channel is
linked in the end. -/
theorem fillChannels_grown (spec : PartSpec) (taken : Nat → Bool) (channels : List ChannelSpec)
    (s : Filling F R) :
    Grown K s (channels.foldl (fillChannel K js spec taken) s) ∧
      ∀ ch ∈ channels, ch.common = true →
        linked (channels.foldl (fillChannel K js spec taken) s).channels ch.key = true := by
  induction channels generalizing s with
  | nil => exact ⟨.refl s, nofun⟩
  | cons ch rest ih =>
    obtain ⟨hgrown, hlinked⟩ := fillChannel_grown K js spec taken s ch
    obtain ⟨hrest, hothers⟩ := ih (fillChannel K js spec taken s ch)
    refine ⟨hgrown.trans hrest, ?_⟩
    rw [List.forall_mem_cons]
    exact ⟨fun hcommon => hrest.linked (hlinked hcommon), hothers⟩

theorem fillPart_grown (bench : Bench R) (b : BindingDraft F) :
    Grown K (filling bench (startOf K js c b))
      (filling (fillPart K js c bench b).1 (fillPart K js c bench b).2) := by
  obtain ⟨spec, -, -, hfilled, -, -⟩ | ⟨-, heq⟩ :=
    fillPart_cases K js c bench b
  · rw [hfilled]
    exact (fillChannels_grown K js spec _ _ _).1
  · rw [heq]
    exact .refl _

theorem fillPart_rows (bench : Bench R) (b : BindingDraft F) :
    Appended K bench.seq bench.rows (fillPart K js c bench b).1.rows :=
  (fillPart_grown bench b).rows

theorem fillPart_seq (bench : Bench R) (b : BindingDraft F) :
    bench.seq ≤ (fillPart K js c bench b).1.seq :=
  (fillPart_grown bench b).seq

variable {bench : Bench R} {b : BindingDraft F}

/-- **A part whose turns may be taken** feeds rows that nobody else feeds. -/
theorem fillPart_filled {others new : List Nat}
    (hcover : ∀ uid ∈ others, takenBy c b uid = true ∨ uid ∈ new)
    (hs : Filled K js others (filling bench (startOf K js c b)))
    (hok : ∀ spec, isChanged c.before b = true → findDriver c.drivers b.driver = some spec →
      TurnsOk K js spec (takenBy c b) new (filling bench (startOf K js c b)) spec.channels) :
    Filled K js others (filling (fillPart K js c bench b).1 (fillPart K js c bench b).2) := by
  obtain ⟨spec, hchanged, hspec, hfilled, -, -⟩ | ⟨-, heq⟩ :=
    fillPart_cases K js c bench b
  · rw [hfilled]
    exact foldl_invariant (I := Filled K js others)
      (fun s ch hs hok => fillChannel_filled hcover hs hok) spec.channels hs
      (hok spec hchanged hspec)
  · rw [heq]
    exact hs

/-! ## The parts of the change, one by one -/

variable (K js c) in
/-- What becomes of a part, in rows drawn after `seq`. -/
structure Outcome (seq : Nat) (b x : BindingDraft F) : Prop where
  uid : x.uid = b.uid
  driver : x.driver = b.driver
  stays : isChanged c.before b = false → x = startOf K js c b
  common : ∀ spec, isChanged c.before b = true → findDriver c.drivers b.driver = some spec →
    ∀ ch ∈ spec.channels, ch.common = true → linked x.channels ch.key = true
  proposed : ∀ entry ∈ x.proposed, entry ∈ (startOf K js c b).proposed ∨ seq < entry.1

theorem fillPart_outcome (bench : Bench R) (b : BindingDraft F) :
    Outcome K js c bench.seq b (fillPart K js c bench b).2 := by
  refine ⟨uid_fillPart bench b, driver_fillPart bench b, ?_, ?_, (fillPart_grown bench b).proposed⟩
  · intro hstays
    obtain ⟨_, hchanged, -, -, -, -⟩ | ⟨-, heq⟩ := fillPart_cases K js c bench b
    · rw [hchanged] at hstays
      cases hstays
    · rw [heq]
  · intro spec hchanged hspec ch hch hcommon
    obtain ⟨spec', -, hspec', hfilled, -, -⟩ | ⟨hnone, -⟩ := fillPart_cases K js c bench b
    · rw [hspec] at hspec'
      cases hspec'
      have hlinked := (fillChannels_grown K js spec (takenBy c b) spec.channels
        (filling bench (startOf K js c b))).2 ch hch hcommon
      rw [← hfilled] at hlinked
      exact hlinked
    · rw [hnone hchanged] at hspec
      cases hspec

theorem Outcome.mono {seq seq' : Nat} {b x : BindingDraft F} (h : Outcome K js c seq b x)
    (hseq : seq' ≤ seq) : Outcome K js c seq' b x :=
  { h with
    proposed := fun entry hentry => (h.proposed entry hentry).imp_right (Nat.lt_of_le_of_lt hseq) }

/-- A change of the parts, whatever its turns find. -/
theorem propose_outcome (parts : List (BindingDraft F)) (bench : Bench R) :
    List.Forall₂ (Outcome K js c bench.seq) parts (propose K js c bench parts).2 ∧
      Appended K bench.seq bench.rows (propose K js c bench parts).1.rows ∧
      bench.seq ≤ (propose K js c bench parts).1.seq := by
  induction parts generalizing bench with
  | nil => exact ⟨.nil, .refl _ _, Nat.le_refl _⟩
  | cons b rest ih =>
    obtain ⟨houtcomes, hrows, hseq'⟩ := ih (fillPart K js c bench b).1
    have hseq : bench.seq ≤ (fillPart K js c bench b).1.seq := fillPart_seq bench b
    refine ⟨.cons (fillPart_outcome bench b) ?_, (fillPart_rows bench b).trans hseq hrows,
      Nat.le_trans hseq hseq'⟩
    exact houtcomes.imp fun _ _ h => h.mono hseq

variable (K js c) in
/-- In the middle of a change: the parts that are `done`, and those to come by what they carry
over, feed no row twice, and none that was not drawn. -/
structure Round (done rest : List (BindingDraft F)) (bench : Bench R) : Prop where
  tidy : Tidy K js bench
  once : (fed (done ++ rest.map (startOf K js c))).Nodup
  drawn : ∀ uid ∈ fed (done ++ rest.map (startOf K js c)), uid ≤ bench.seq

theorem LeadsOn.mono {rows rows' : List R} {start channels : Record Ref}
    (h : LeadsOn K rows start channels) (hrows : ∀ row ∈ rows, row ∈ rows') :
    LeadsOn K rows' start channels := by
  intro ref href hne
  apply (h ref href hne).imp_right
  intro hleads
  obtain ⟨row, hrow, heq⟩ := hleads
  exact ⟨row, hrows row hrow, heq⟩

/-- What a part is linked to that it did not start with is there. -/
theorem fillPart_leadsOn (bench : Bench R) (b : BindingDraft F) :
    LeadsOn K (fillPart K js c bench b).1.rows (startOf K js c b).channels
      (fillPart K js c bench b).2.channels := by
  have hturns : ∀ (spec : PartSpec) (channels : List ChannelSpec) (s : Filling F R),
      LeadsOn K s.rows (startOf K js c b).channels s.channels →
      LeadsOn K (channels.foldl (fillChannel K js spec (takenBy c b)) s).rows
        (startOf K js c b).channels
        (channels.foldl (fillChannel K js spec (takenBy c b)) s).channels := by
    intro spec channels
    induction channels with
    | nil => exact fun s hs => hs
    | cons ch rest ih => exact fun s hs => ih _ (fillChannel_leadsOn hs ch)
  have hstart : ∀ rows : List R,
      LeadsOn K rows (startOf K js c b).channels (startOf K js c b).channels :=
    fun _ _ href _ => .inl href
  obtain ⟨spec, -, -, hfilled, -, -⟩ | ⟨-, heq⟩ := fillPart_cases K js c bench b
  · have hleads := hturns spec spec.channels (filling bench (startOf K js c b)) (hstart _)
    rw [← hfilled] at hleads
    exact hleads
  · rw [heq]
    exact hstart _

theorem propose_leadsOn (parts : List (BindingDraft F)) (bench : Bench R) :
    List.Forall₂ (fun b x => LeadsOn K (propose K js c bench parts).1.rows
      (startOf K js c b).channels x.channels) parts (propose K js c bench parts).2 := by
  induction parts generalizing bench with
  | nil => exact .nil
  | cons b rest ih =>
    refine .cons ?_ (ih _)
    refine (fillPart_leadsOn bench b).mono fun row hrow => ?_
    exact (propose_outcome rest (fillPart K js c bench b).1).2.1.subset hrow

/-- What a part that stays feeds it also feeds as the change has it. -/
theorem takenBy_of_stays {b y : BindingDraft F} (hy : y ∈ c.next) (hne : y.uid ≠ b.uid)
    (hstays : isChanged c.before y = false) {uid : Nat}
    (huid : uid ∈ fedBy (startOf K js c y).channels) : takenBy c b uid = true := by
  have hlink : .row uid ∈ linksOf y.channels := by
    unfold startOf at huid
    rw [hstays, if_neg Bool.false_ne_true, mem_fedBy] at huid
    obtain ⟨item, hitem, heq⟩ := List.mem_map.mp huid
    obtain ⟨⟨k, ref⟩, hold, rfl⟩ := List.mem_map.mp hitem
    have href : ref = .row uid := by
      dsimp only [keptRef] at heq
      split at heq
      · split at heq
        · cases heq
        · exact heq
      · exact heq
    exact List.mem_map.mpr ⟨_, hold, href⟩
  unfold takenBy takenTargets
  rw [decide_eq_true_eq, List.mem_filter, List.mem_flatMap]
  exact ⟨⟨y, List.mem_filter.mpr ⟨hy, by simpa using hne⟩, hlink⟩, by simp⟩

/-- What the other parts feed is taken in the change, or a new part has got it meanwhile. -/
theorem others_covered {pre done rest : List (BindingDraft F)} {seq : Nat}
    (hnext : c.next = pre ++ b :: rest) (huids : (c.next.map BindingDraft.uid).Nodup)
    (hdone : List.Forall₂ (Outcome K js c seq) pre done) :
    ∀ uid ∈ fed (done ++ rest.map (startOf K js c)),
      takenBy c b uid = true ∨ uid ∈ meanwhile K js c done b := by
  have hother : ∀ y ∈ pre ++ rest, y ∈ c.next ∧ y.uid ≠ b.uid := by
    intro y hy
    have hperm : c.next.Perm (b :: (pre ++ rest)) := hnext ▸ List.perm_middle
    refine ⟨hperm.mem_iff.mpr (List.mem_cons_of_mem _ hy), fun heq => ?_⟩
    have hnodup := (hperm.map BindingDraft.uid).nodup_iff.mp huids
    exact (List.nodup_cons.mp hnodup).1 (heq ▸ List.mem_map_of_mem hy)
  intro uid huid
  obtain ⟨x, hx, hfed⟩ := mem_fed.mp huid
  -- each of the others has become of some part of the change
  have hpart : ∃ y, (y ∈ c.next ∧ y.uid ≠ b.uid) ∧ (isChanged c.before y = false →
      x = startOf K js c y) ∧ isChanged c.before x = isChanged c.before y ∧
      (x ∈ done ∨ x = startOf K js c y) := by
    rcases List.mem_append.mp hx with hx | hx
    · obtain ⟨y, hy, hxy⟩ := forall₂_mem hdone.flip hx
      exact ⟨y, hother y (List.mem_append_left _ hy), hxy.stays,
        isChanged_congr hxy.uid hxy.driver, .inl hx⟩
    · obtain ⟨y, hy, rfl⟩ := List.mem_map.mp hx
      exact ⟨y, hother y (List.mem_append_right _ hy), fun _ => rfl, isChanged_startOf y, .inr rfl⟩
  obtain ⟨y, ⟨hy, hne⟩, hstays, hsame, hplace⟩ := hpart
  cases hchanged : isChanged c.before y with
  | false =>
    rw [hstays hchanged] at hfed
    exact .inl (takenBy_of_stays hy hne hchanged hfed)
  | true =>
    right
    unfold meanwhile
    refine mem_fed.mpr ⟨x, List.mem_filter.mpr ⟨?_, hsame.trans hchanged⟩, hfed⟩
    rcases hplace with hx | rfl
    · exact List.mem_append_left _ hx
    · exact List.mem_append_right _
        (List.mem_map_of_mem (List.mem_filter.mpr ⟨hy, by simpa using hne⟩))

/-- **One part of the change.** -/
theorem fillPart_round {pre done rest : List (BindingDraft F)} {b : BindingDraft F}
    {bench : Bench R} {seq : Nat} (hnext : c.next = pre ++ b :: rest)
    (huids : (c.next.map BindingDraft.uid).Nodup)
    (hdone : List.Forall₂ (Outcome K js c seq) pre done)
    (hround : Round K js c done (b :: rest) bench)
    (hok : ∀ spec, isChanged c.before b = true → findDriver c.drivers b.driver = some spec →
      TurnsOk K js spec (takenBy c b) (meanwhile K js c done b)
        (filling bench (startOf K js c b)) spec.channels) :
    Round K js c (done ++ [(fillPart K js c bench b).2]) rest (fillPart K js c bench b).1 := by
  obtain ⟨htidy, honce, hdrawn⟩ := hround
  rw [List.map_cons] at honce hdrawn
  obtain ⟨hself, hothers, hapart⟩ := nodup_fed_insert.mp honce
  have hown : ∀ uid ∈ fedBy (startOf K js c b).channels, uid ≤ bench.seq := by
    intro uid huid
    apply hdrawn
    rw [fed_append, fed_cons]
    exact List.mem_append_right _ (List.mem_append_left _ huid)
  have hdrawnOthers : ∀ uid ∈ fed (done ++ rest.map (startOf K js c)), uid ≤ bench.seq := by
    intro uid huid
    apply hdrawn
    rw [fed_append, fed_cons]
    rw [fed_append] at huid
    rcases List.mem_append.mp huid with hdone | hrest
    · exact List.mem_append_left _ hdone
    · exact List.mem_append_right _ (List.mem_append_right _ hrest)
  have hfilled : Filled K js (fed (done ++ rest.map (startOf K js c)))
      (filling (fillPart K js c bench b).1 (fillPart K js c bench b).2) :=
    fillPart_filled (others_covered hnext huids hdone) ⟨htidy, hself, hapart, hown, hdrawnOthers⟩ hok
  refine ⟨hfilled.tidy, ?_, ?_⟩
  · rw [List.append_assoc, List.singleton_append, nodup_fed_insert]
    exact ⟨hfilled.once, hothers, hfilled.apart⟩
  · intro uid huid
    rw [List.append_assoc, List.singleton_append, fed_append, fed_cons] at huid
    rcases List.mem_append.mp huid with hold | hnew
    · refine hfilled.drawn uid ?_
      rw [fed_append]
      exact List.mem_append_left _ hold
    · rcases List.mem_append.mp hnew with hself | hrest
      · exact hfilled.own uid hself
      · refine hfilled.drawn uid ?_
        rw [fed_append]
        exact List.mem_append_right _ hrest

/-- What a part carries over it feeds in the end. -/
theorem propose_fed (parts : List (BindingDraft F)) (bench : Bench R) :
    List.Forall₂ (fun b x => ∀ uid ∈ fedBy (startOf K js c b).channels, uid ∈ fedBy x.channels)
      parts (propose K js c bench parts).2 := by
  induction parts generalizing bench with
  | nil => exact .nil
  | cons b rest ih => exact .cons (fun _ huid => (fillPart_grown bench b).fedBy huid) (ih _)

/-- A part that feeds nothing another new part has got, under keys that are apart, has taken no turn
it should not have taken. -/
theorem turnsOk_of_fillPart {new : List Nat}
    (hkeys : KeysApart K js (fillPart K js c bench b).1.rows)
    (hapart : ∀ uid ∈ fedBy (fillPart K js c bench b).2.channels, uid ∉ new) {spec : PartSpec}
    (hchanged : isChanged c.before b = true) (hspec : findDriver c.drivers b.driver = some spec) :
    TurnsOk K js spec (takenBy c b) new (filling bench (startOf K js c b)) spec.channels := by
  obtain ⟨spec', -, hspec', hfilled, -, -⟩ | ⟨hnone, -⟩ := fillPart_cases K js c bench b
  · rw [hspec] at hspec'
    cases hspec'
    refine runMeets_of_foldl (fun s => KeysApart K js s.rows ∧
      ∀ uid ∈ fedBy s.channels, uid ∉ new) ?_ ?_ ?_
    · intro s ch hgood
      have hgrown := (fillChannel_grown K js spec (takenBy c b) s ch).1
      exact ⟨hgood.1.sublist hgrown.rows.sublist, fun uid huid => hgood.2 uid (hgrown.fedBy huid)⟩
    · intro s ch hgood hneeds
      exact turnOk_of_fillChannel hneeds hgood.1 hgood.2
    · rw [← hfilled]
      exact ⟨hkeys, hapart⟩
  · rw [hnone hchanged] at hspec
    cases hspec

/-- **A change that ends in step** took no turn it should not have taken. -/
theorem proposeOk_of_end {rest pre done : List (BindingDraft F)}
    (hnext : c.next = pre ++ rest)
    (hdone : ∀ y ∈ pre, ∃ x ∈ done,
      ∀ uid ∈ fedBy (startOf K js c y).channels, uid ∈ fedBy x.channels)
    (hkeys : KeysApart K js (propose K js c bench rest).1.rows)
    (honce : (fed (done ++ (propose K js c bench rest).2)).Nodup) :
    ProposeOk K js c done bench rest := by
  induction rest generalizing pre done bench with
  | nil => trivial
  | cons b rest ih =>
    have hothers : ∀ uid ∈ meanwhile K js c done b,
        uid ∈ fed (done ++ (propose K js c (fillPart K js c bench b).1 rest).2) := by
      intro uid huid
      obtain ⟨x, hx, hfed⟩ := mem_fed.mp huid
      rcases List.mem_append.mp (List.mem_of_mem_filter hx) with hx | hx
      · exact mem_fed.mpr ⟨x, List.mem_append_left _ hx, hfed⟩
      · obtain ⟨y, hy, rfl⟩ := List.mem_map.mp hx
        obtain ⟨hy, hne⟩ := List.mem_filter.mp hy
        rw [hnext] at hy
        rcases List.mem_append.mp hy with hpre | hrest
        · obtain ⟨x, hx, hkeeps⟩ := hdone y hpre
          exact mem_fed.mpr ⟨x, List.mem_append_left _ hx, hkeeps uid hfed⟩
        · rcases List.mem_cons.mp hrest with rfl | hrest
          · simp at hne
          · obtain ⟨x, hx, hkeeps⟩ := forall₂_mem (propose_fed rest _) hrest
            exact mem_fed.mpr ⟨x, List.mem_append_right _ hx, hkeeps uid hfed⟩
    refine ⟨?_, ?_⟩
    · intro spec hchanged hspec
      refine turnsOk_of_fillPart ?_ ?_ hchanged hspec
      · exact hkeys.sublist (propose_outcome rest (fillPart K js c bench b).1).2.1.sublist
      · intro uid huid hnew
        exact (nodup_fed_insert.mp honce).2.2 uid huid (hothers uid hnew)
    · have hsplit : c.next = (pre ++ [b]) ++ rest := by rw [hnext, List.append_assoc]; rfl
      refine ih hsplit ?_ hkeys ?_
      · rw [List.forall_mem_append, List.forall_mem_singleton]
        constructor
        · intro y hy
          obtain ⟨x, hx, hkeeps⟩ := hdone y hy
          exact ⟨x, List.mem_append_left _ hx, hkeeps⟩
        · exact ⟨_, List.mem_append_right _ List.mem_cons_self,
            fun _ huid => (fillPart_grown bench b).fedBy huid⟩
      · rw [List.append_assoc]
        exact honce

/-- **A change whose turns may all be taken.** -/
theorem propose_round {seq : Nat} (huids : (c.next.map BindingDraft.uid).Nodup)
    {rest pre done : List (BindingDraft F)} (hnext : c.next = pre ++ rest)
    (hdone : List.Forall₂ (Outcome K js c seq) pre done) (hseq : seq ≤ bench.seq)
    (hround : Round K js c done rest bench) (hok : ProposeOk K js c done bench rest) :
    Round K js c (done ++ (propose K js c bench rest).2) [] (propose K js c bench rest).1 := by
  induction rest generalizing pre done bench with
  | nil =>
    show Round K js c (done ++ []) [] bench
    rwa [List.append_nil]
  | cons b rest ih =>
    have hb := fillPart_round hnext huids hdone hround hok.1
    have hsplit : c.next = (pre ++ [b]) ++ rest := by rw [hnext, List.append_assoc]; rfl
    have hrest := ih hsplit
      (List.rel_append hdone (.cons ((fillPart_outcome bench b).mono hseq) .nil))
      (Nat.le_trans hseq (fillPart_seq bench b)) hb hok.2
    rwa [List.append_assoc] at hrest

end

end IotSaas.Templates
