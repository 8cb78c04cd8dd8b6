import IotSaas.Lib.Reach
import IotSaas.Rules.Cache
import IotSaas.Rules.Calls

/-!
# `Worker/RuleCacheLoop.lean` — keeping the rule caches current

`rule_cache_loop` against the API's commits and Redis pub/sub. A commit is followed by one
publish on the invalidation channel (`add_post_commit_callback`), and a published message reaches
the loop only if the loop is subscribed at that moment; a lost connection takes the undelivered
messages with it. The loop loads once, restores, subscribes, and reloads on every message; the query
of a reload and the swap of the caches are separate steps.

The caches are current as long as something is still on its way that will end in a query: a
publish to come, a message to receive, a query to make. The loop itself never breaks that.
What does is a publish that finds nobody subscribed after the initial query was made
(`startup_edit_missed`), and a connection lost with a message in it.
-/

set_option autoImplicit false

namespace IotSaas.Worker

open Lib Rules

variable {F : Type}

namespace RuleCacheLoop

/-- Where `rule_cache_loop` is. -/
inductive Pc (F : Type) where
  /-- In the first `load_rule_cache`, before its query. -/
  | loading
  /-- In `load_rule_cache`, with the rows of its query; `first` in the first one. -/
  | swapping (rows : List (Rule F)) (first : Bool)
  | restoring
  | subscribing
  | listening
  /-- Received a message: in `load_rule_cache`, before its query. -/
  | reloading
  /-- `asyncio.sleep(RECONNECT_SECONDS)`. -/
  | sleeping

structure State (F : Type) where
  /-- The enabled rules, as committed now. -/
  committed : List (Rule F)
  /-- Commits whose publish is still to come. -/
  unpublished : Nat := 0
  /-- The server has a live subscription of the loop. -/
  subscribed : Bool := false
  /-- Messages published to the loop and not yet received. -/
  inbox : Nat := 0
  pc : Pc F := .loading
  caches : RuleCaches F := {}

inductive Event (F : Type) where
  | commit (rows : List (Rule F))
  | publish
  | query
  | swap
  | restore
  | subscribe
  | receive
  | connectionLost
  /-- `RedisError` out of `listen()`. -/
  | raise
  | wake

def step (digest : Option (Node F) → Option (Node F) → String) (s : State F) :
    Event F → Option (State F)
  | .commit rows => some { s with committed := rows, unpublished := s.unpublished + 1 }
  | .publish =>
      match s.unpublished with
      | 0 => none
      | n + 1 =>
          -- a message reaches only who is subscribed when it is published
          some { s with unpublished := n, inbox := if s.subscribed then s.inbox + 1 else s.inbox }
  | .query =>
      -- what is committed after this is not in the rows
      match s.pc with
      | .loading => some { s with pc := .swapping s.committed true }
      | .reloading => some { s with pc := .swapping s.committed false }
      | _ => none
  | .swap =>
      match s.pc with
      | .swapping rows first =>
          some { s with
            caches := loadRuleCache digest rows
            pc := if first then .restoring else .listening }
      | _ => none
  | .restore =>
      match s.pc with
      | .restoring => some { s with pc := .subscribing }
      | _ => none
  | .subscribe =>
      match s.pc with
      | .subscribing => some { s with subscribed := true, pc := .listening }
      | _ => none
  | .receive =>
      match s.pc, s.inbox with
      | .listening, n + 1 => some { s with inbox := n, pc := .reloading }
      | _, _ => none
  | .connectionLost =>
      if s.subscribed then some { s with subscribed := false, inbox := 0 } else none
  | .raise =>
      match s.pc with
      | .listening => if s.subscribed then none else some { s with pc := .sleeping }
      | _ => none
  | .wake =>
      match s.pc with
      -- back to the subscription, with no query in between
      | .sleeping => some { s with pc := .subscribing }
      | _ => none

/-- The four caches of rules answer alike. -/
def SameRules (a b : RuleCaches F) : Prop :=
  a.ruleCache = b.ruleCache ∧ a.rulesById = b.rulesById ∧ a.scheduledRules = b.scheduledRules ∧
    a.deviceStatusRules = b.deviceStatusRules

/-- The loop listens, nothing is in progress, everything committed is published and received. -/
structure Settled (s : State F) : Prop where
  listening : s.pc = .listening
  subscribed : s.subscribed = true
  published : s.unpublished = 0
  delivered : s.inbox = 0

/-- Settled caches are those of the committed rules. -/
def Current (digest : Option (Node F) → Option (Node F) → String) (s : State F) : Prop :=
  Settled s → SameRules s.caches (loadRuleCache digest s.committed)

/-! ## When nothing is missed -/

/-- A query is still to be made for what was published so far. -/
def QueryToCome (s : State F) : Prop :=
  s.pc = .loading ∨ s.pc = .reloading

/-- Every publish finds the loop subscribed, or a query or another publish still to come; and a
connection is lost only with nothing in it, or with one of these still to come. -/
def Heard (s : State F) : Event F → Prop
  | .publish => s.subscribed = true ∨ QueryToCome s ∨ 1 < s.unpublished
  | .connectionLost => s.inbox = 0 ∨ QueryToCome s ∨ 0 < s.unpublished
  | _ => True

/-- Something is on its way that ends in a query. -/
def Pending (s : State F) : Prop :=
  0 < s.unpublished ∨ 0 < s.inbox ∨ QueryToCome s

/-- What the loop has: the rows of a query it made and not yet swapped in, or its caches. -/
def UpToDate (digest : Option (Node F) → Option (Node F) → String) (s : State F) : Prop :=
  match s.pc with
  | .swapping rows _ => rows = s.committed
  | _ => s.caches = loadRuleCache digest s.committed

/-- **The loop never loses track.** Either something is on its way, or what the loop has is what
is committed. -/
def Tracked (digest : Option (Node F) → Option (Node F) → String) (s : State F) : Prop :=
  Pending s ∨ UpToDate digest s

variable {digest : Option (Node F) → Option (Node F) → String}

/-- Between queries, what is on its way is a publish or a message. -/
theorem Tracked.onItsWay {s : State F} (h : Tracked digest s) (hq : ¬ QueryToCome s) :
    (0 < s.unpublished ∨ 0 < s.inbox) ∨ UpToDate digest s := by
  rcases h with (hu | hi | hc) | hup
  · exact .inl (.inl hu)
  · exact .inl (.inr hi)
  · exact absurd hc hq
  · exact .inr hup

/-- A program counter that moves between two points of the loop, with no query to come at the
first one and no rows in hand at either, changes nothing that is tracked. -/
theorem Tracked.moved {s : State F} (h : Tracked digest s) (pc : Pc F) (subscribed : Bool)
    (hfrom : s.pc = .restoring ∨ s.pc = .subscribing ∨ s.pc = .listening ∨ s.pc = .sleeping)
    (hto : pc = .subscribing ∨ pc = .listening ∨ pc = .sleeping) :
    Tracked digest { s with pc := pc, subscribed := subscribed } := by
  have hq : ¬ QueryToCome s := by
    rintro (hc | hc) <;> simp [hc] at hfrom
  rcases h.onItsWay hq with hw | hup
  · exact .inl (hw.elim .inl fun hi => .inr (.inl hi))
  · have hcaches : s.caches = loadRuleCache digest s.committed := by
      unfold UpToDate at hup
      rcases hfrom with hp | hp | hp | hp <;> rw [hp] at hup <;> exact hup
    refine .inr ?_
    rcases hto with rfl | rfl | rfl <;> exact hcaches

theorem tracked_step {s s' : State F} {e : Event F} (h : Tracked digest s) (ok : Heard s e)
    (hs : step digest s e = some s') :
    Tracked digest s' := by
  unfold step at hs
  cases e with
  | commit rows =>
    cases hs
    -- A commit is still to be published, so the news of it is on its way.
    exact .inl (.inl (Nat.succ_pos _))
  | publish =>
    dsimp only at hs
    cases hn : s.unpublished with
    | zero => rw [hn] at hs; cases hs
    | succ n =>
      rw [hn] at hs
      cases hs
      -- Heard: somebody listens, a query is still to come, or another publish is.
      rcases ok with hsub | hq | hmore
      · exact .inl (.inr (.inl (by simp [hsub])))
      · exact .inl (.inr (.inr hq))
      · exact .inl (.inl (by dsimp only; omega))
  | query =>
    dsimp only at hs
    split at hs
    · cases hs
      exact .inr rfl
    · cases hs
      exact .inr rfl
    · cases hs
  | swap =>
    dsimp only at hs
    split at hs
    · rename_i rows first hpc
      cases hs
      -- What the query read is swapped in: up to date, or word of a newer commit is on its way.
      rcases h.onItsWay (by rintro (hc | hc) <;> simp [hpc] at hc) with hw | hup
      · exact .inl (hw.elim .inl fun hi => .inr (.inl hi))
      · unfold UpToDate at hup
        rw [hpc] at hup
        refine .inr ?_
        rw [hup]
        cases first <;> rfl
    · cases hs
  | restore =>
    dsimp only at hs
    split at hs
    · rename_i hpc
      cases hs
      exact h.moved .subscribing s.subscribed (by simp [hpc]) (by simp)
    · cases hs
  | subscribe =>
    dsimp only at hs
    split at hs
    · rename_i hpc
      cases hs
      exact h.moved .listening true (by simp [hpc]) (by simp)
    · cases hs
  | receive =>
    dsimp only at hs
    split at hs
    · cases hs
      exact .inl (.inr (.inr (.inr rfl)))
    · cases hs
  | connectionLost =>
    dsimp only at hs
    split at hs
    · cases hs
      -- The inbox goes with the connection: it was empty, or a query or a publish is to come.
      rcases ok with hempty | hq | hmore
      · rcases h with (hu | hi | hc) | hup
        · exact .inl (.inl hu)
        · omega
        · exact .inl (.inr (.inr hc))
        · exact .inr hup
      · exact .inl (.inr (.inr hq))
      · exact .inl (.inl hmore)
    · cases hs
  | raise =>
    dsimp only at hs
    split at hs
    · rename_i hpc
      split at hs
      · cases hs
      · cases hs
        exact h.moved .sleeping s.subscribed (by simp [hpc]) (by simp)
    · cases hs
  | wake =>
    dsimp only at hs
    split at hs
    · rename_i hpc
      cases hs
      exact h.moved .subscribing s.subscribed (by simp [hpc]) (by simp)
    · cases hs

/-- **No edit is missed** in a run all of whose publishes are heard: from start-up, over any
commits, reloads, losses and reconnections, settled caches are those of the committed rules. -/
theorem no_edit_missed (digest : Option (Node F) → Option (Node F) → String)
    (rows : List (Rule F)) {s : State F}
    (h : Reaches (step digest) Heard { committed := rows } s) : Current digest s := by
  have htracked : Tracked digest s :=
    h.invariant (.inl (.inr (.inr (.inl rfl)))) fun _ _ _ ih ok hs => tracked_step ih ok hs
  intro hsettled
  rcases htracked.onItsWay (by rintro (hc | hc) <;> simp [hsettled.listening] at hc) with
    (hu | hi) | hup
  · exact absurd hsettled.published (by omega)
  · exact absurd hsettled.delivered (by omega)
  · unfold UpToDate at hup
    rw [hsettled.listening] at hup
    exact ⟨congrArg _ hup, congrArg _ hup, congrArg _ hup, congrArg _ hup⟩

/-- Start-up, then an edit heard and reloaded. -/
theorem no_edit_missed_heard :
    Current (fun _ _ => "digest")
      { committed := [thermostat], subscribed := true, pc := .listening
        caches := loadRuleCache (fun _ _ => "digest") [thermostat] } :=
  no_edit_missed _ []
    (.next (.next (.next (.next (.next (.next (.next (.next (.next .start
      (e := .query) trivial rfl) (e := .swap) trivial rfl) (e := .restore) trivial rfl)
      (e := .subscribe) trivial rfl) (e := .commit [thermostat]) trivial rfl)
      (e := .publish) (.inl rfl) rfl) (e := .receive) trivial rfl) (e := .query) trivial rfl)
      (e := .swap) trivial rfl)

/-- An edit committed and published between the first query and the subscription. -/
def startupEdit : List (Event Int) :=
  [.query, .commit [thermostat], .publish, .swap, .restore, .subscribe]

/-- **An edit during start-up is missed:** the loop ends up listening, everything published and
received, on the caches of the rules as they were before. -/
theorem startup_edit_missed :
    ¬ ∀ s : State Int, Reaches (step fun _ _ => "digest") Always { committed := [] } s →
      Current (fun _ _ => "digest") s := by
  intro h
  have hrun : run (step fun _ _ => "digest") { committed := [] } startupEdit =
      some
        { committed := [thermostat], subscribed := true, pc := .listening
          caches := loadRuleCache (fun _ _ => "digest") [] } := rfl
  have hsame := (h _ (.of_run hrun) ⟨rfl, rfl, rfl, rfl⟩).2.1
  have hget := congrArg (fun d => (d.get "thermostat").isSome) hsame
  revert hget
  decide +kernel

end RuleCacheLoop

end IotSaas.Worker
