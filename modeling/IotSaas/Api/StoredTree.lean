import IotSaas.Api.Schemas
import IotSaas.Rules.RawEvaluator

/-!
# `Api/StoredTree.lean` — accepted trees, and the JSON they are stored as

The models of `rules/schemas.py` before operator and side are put together: the operator is a text
that matches a pattern, the side one of four models or nothing, and `checkRhsMatchesOperator`
looks at the two. `Stores` is what `model_dump(mode="json")` and a trip through the column leave
of a tree: its members in any order, each under the name of its field.
-/

set_option autoImplicit false

namespace IotSaas.Api.Stored

open Lib Rules

/-! ## Operators -/

def Operator.text : Operator → String
  | .comparison .gt => ">"
  | .comparison .ge => ">="
  | .comparison .lt => "<"
  | .comparison .le => "<="
  | .comparison .eq => "=="
  | .comparison .ne => "!="
  | .range .between => "between"
  | .range .notBetween => "not_between"
  | .set .isIn => "in"
  | .set .notIn => "not_in"
  | .change .changed => "changed"
  | .change .increased => "increased"
  | .change .decreased => "decreased"

/-- `_OPERATOR_PATTERN`. -/
def operatorPattern : List String :=
  [">", ">=", "<", "<=", "==", "!=", "between", "not_between", "in", "not_in", "changed",
    "increased", "decreased"]

def rangeOperators : List String := ["between", "not_between"]

def setOperators : List String := ["in", "not_in"]

def changeOperators : List String := ["changed", "increased", "decreased"]

def hysteresisOperators : List String := [">", ">=", "<", "<="]

theorem exists_operator {s : String} (h : s ∈ operatorPattern) :
    ∃ operator : Operator, s = Operator.text operator := by
  simp only [operatorPattern, List.mem_cons, List.not_mem_nil, or_false] at h
  rcases h with rfl | rfl | rfl | rfl | rfl | rfl | rfl | rfl | rfl | rfl | rfl | rfl | rfl
  · exact ⟨.comparison .gt, rfl⟩
  · exact ⟨.comparison .ge, rfl⟩
  · exact ⟨.comparison .lt, rfl⟩
  · exact ⟨.comparison .le, rfl⟩
  · exact ⟨.comparison .eq, rfl⟩
  · exact ⟨.comparison .ne, rfl⟩
  · exact ⟨.range .between, rfl⟩
  · exact ⟨.range .notBetween, rfl⟩
  · exact ⟨.set .isIn, rfl⟩
  · exact ⟨.set .notIn, rfl⟩
  · exact ⟨.change .changed, rfl⟩
  · exact ⟨.change .increased, rfl⟩
  · exact ⟨.change .decreased, rfl⟩

/-! ## Models -/

variable {F : Type}

inductive RhsSpec (F : Type) where
  | static (value : F)
  | range (low high : F)
  | set (values : List F)
  | metric (deviceId : Uuid) (metric : String)

structure ConditionLeaf (F : Type) where
  deviceId : Option Uuid := none
  metric : String
  operator : String
  rhs : Option (RhsSpec F) := none
  hysteresis : F

inductive ConditionNode (F : Type) where
  | leaf (leaf : ConditionLeaf F)
  | group (op : GroupOp) (predicates : List (ConditionNode F))

/-! ## Validators -/

/-- The bounds of a side's own fields. -/
def RhsSpec.fieldsOk : RhsSpec F → Bool
  | .set values => !values.isEmpty
  | .metric _ name => lengthIn 1 100 name
  | _ => true

section

variable [JsonNumber F]

/-- The first part of `_check_rhs_matches_operator`: what it raises, if it does. -/
def ConditionLeaf.rhsError (leaf : ConditionLeaf F) : Option String :=
  if leaf.operator ∈ changeOperators then
    match leaf.rhs with
    | none => none
    | some _ => some s!"operator '{leaf.operator}' takes no rhs value"
  else if leaf.operator ∈ rangeOperators then
    match leaf.rhs with
    | some (.range _ _) => none
    | _ => some s!"operator '{leaf.operator}' requires a range rhs"
  else if leaf.operator ∈ setOperators then
    match leaf.rhs with
    | some (.set _) => none
    | _ => some s!"operator '{leaf.operator}' requires a set rhs"
  else
    match leaf.rhs with
    | some (.static _) | some (.metric _ _) => none
    | _ => some s!"operator '{leaf.operator}' requires a static or metric rhs"

/-- `_check_rhs_matches_operator`. -/
def ConditionLeaf.checkRhsMatchesOperator (leaf : ConditionLeaf F) : Option String :=
  match leaf.rhsError with
  | some message => some message
  | none =>
      if PyFloat.lt (JsonNumber.ofNat 0) leaf.hysteresis ∧ leaf.operator ∉ hysteresisOperators then
        some ("hysteresis only applies to >, >=, <, <= — operator '" ++ leaf.operator ++
          "' has no margin to latch on; set hysteresis to 0 (use for_duration to debounce)")
      else none

def ConditionLeaf.accepted (leaf : ConditionLeaf F) : Bool :=
  lengthIn 1 100 leaf.metric && decide (leaf.operator ∈ operatorPattern) &&
    leaf.rhs.all RhsSpec.fieldsOk && PyFloat.le (JsonNumber.ofNat 0) leaf.hysteresis &&
    leaf.checkRhsMatchesOperator.isNone

mutual

/-- The validators of a whole tree. -/
def ConditionNode.accepted : ConditionNode F → Bool
  | .leaf l => l.accepted
  | .group _ predicates => decide (2 ≤ predicates.length) && ConditionNode.allAccepted predicates

def ConditionNode.allAccepted : List (ConditionNode F) → Bool
  | [] => true
  | node :: rest => node.accepted && ConditionNode.allAccepted rest

end

end

/-! ## What is stored -/

def optionalText : Option String → Json F
  | none => .null
  | some s => .str s

/-- The side of a leaf as a document. -/
inductive StoresRhs : Json F → Option (RhsSpec F) → Prop where
  | none : StoresRhs .null none
  | static {doc : Json F} {value : F} (hsource : Raw.item "source" doc = .ok (.str "static"))
      (hvalue : Raw.item "value" doc = .ok (.num value)) : StoresRhs doc (some (.static value))
  | range {doc : Json F} {low high : F} (hsource : Raw.item "source" doc = .ok (.str "range"))
      (hlow : Raw.item "low" doc = .ok (.num low))
      (hhigh : Raw.item "high" doc = .ok (.num high)) : StoresRhs doc (some (.range low high))
  | set {doc : Json F} {values : List F} (hsource : Raw.item "source" doc = .ok (.str "set"))
      (hvalues : Raw.item "values" doc = .ok (.arr (values.map .num))) :
      StoresRhs doc (some (.set values))
  | metric {doc : Json F} {deviceId name : String}
      (hsource : Raw.item "source" doc = .ok (.str "metric"))
      (hdevice : Raw.item "device_id" doc = .ok (.str deviceId))
      (hmetric : Raw.item "metric" doc = .ok (.str name)) :
      StoresRhs doc (some (.metric deviceId name))

structure StoresLeaf (doc : Json F) (leaf : ConditionLeaf F) : Prop where
  kind : Raw.item "kind" doc = .ok (.str "leaf")
  deviceId : Raw.item "device_id" doc = .ok (optionalText leaf.deviceId)
  metric : Raw.item "metric" doc = .ok (.str leaf.metric)
  operator : Raw.item "operator" doc = .ok (.str leaf.operator)
  rhs : ∃ side, Raw.item "rhs" doc = .ok side ∧ StoresRhs side leaf.rhs
  hysteresis : Raw.item "hysteresis" doc = .ok (.num leaf.hysteresis)

def groupText : GroupOp → String
  | .and => "AND"
  | .or => "OR"

mutual

/-- A tree as a document. -/
inductive Stores : Json F → ConditionNode F → Prop where
  | leaf {doc : Json F} {l : ConditionLeaf F} (h : StoresLeaf doc l) : Stores doc (.leaf l)
  | group {doc : Json F} {op : GroupOp} {predicates : List (ConditionNode F)}
      {items : List (Json F)} (hkind : Raw.item "kind" doc = .ok (.str "group"))
      (hop : Raw.item "op" doc = .ok (.str (groupText op)))
      (hpredicates : Raw.item "predicates" doc = .ok (.arr items))
      (heach : StoresEach items predicates) : Stores doc (.group op predicates)

inductive StoresEach : List (Json F) → List (ConditionNode F) → Prop where
  | nil : StoresEach [] []
  | cons {doc : Json F} {node : ConditionNode F} {docs : List (Json F)}
      {nodes : List (ConditionNode F)} (head : Stores doc node) (tail : StoresEach docs nodes) :
      StoresEach (doc :: docs) (node :: nodes)

end

/-! ## `model_dump(mode="json")` -/

def RhsSpec.modelDump : RhsSpec F → Json F
  | .static value => .obj [("source", .str "static"), ("value", .num value)]
  | .range low high => .obj [("source", .str "range"), ("low", .num low), ("high", .num high)]
  | .set values => .obj [("source", .str "set"), ("values", .arr (values.map .num))]
  | .metric deviceId name =>
      .obj [("source", .str "metric"), ("device_id", .str deviceId), ("metric", .str name)]

def ConditionLeaf.modelDump (leaf : ConditionLeaf F) : Json F :=
  .obj
    [ ("kind", .str "leaf"),
      ("device_id", optionalText leaf.deviceId),
      ("metric", .str leaf.metric),
      ("operator", .str leaf.operator),
      ("rhs", (leaf.rhs.map RhsSpec.modelDump).getD .null),
      ("hysteresis", .num leaf.hysteresis) ]

mutual

def ConditionNode.modelDump : ConditionNode F → Json F
  | .leaf l => l.modelDump
  | .group op predicates =>
      .obj
        [ ("kind", .str "group"),
          ("op", .str (groupText op)),
          ("predicates", .arr (ConditionNode.modelDumps predicates)) ]

def ConditionNode.modelDumps : List (ConditionNode F) → List (Json F)
  | [] => []
  | node :: rest => node.modelDump :: ConditionNode.modelDumps rest

end

theorem storesRhs_modelDump (rhs : Option (RhsSpec F)) :
    StoresRhs ((rhs.map RhsSpec.modelDump).getD .null) rhs := by
  cases rhs with
  | none => exact .none
  | some side =>
    cases side with
    | static value => exact .static rfl rfl
    | range low high => exact .range rfl rfl rfl
    | set values => exact .set rfl rfl
    | metric deviceId name => exact .metric rfl rfl rfl

theorem storesLeaf_modelDump (leaf : ConditionLeaf F) : StoresLeaf leaf.modelDump leaf where
  kind := rfl
  deviceId := rfl
  metric := rfl
  operator := rfl
  rhs := ⟨_, rfl, storesRhs_modelDump leaf.rhs⟩
  hysteresis := rfl

mutual

theorem stores_modelDump (node : ConditionNode F) : Stores node.modelDump node := by
  cases node with
  | leaf l => exact .leaf (storesLeaf_modelDump l)
  | group op predicates => exact .group rfl rfl rfl (storesEach_modelDumps predicates)

theorem storesEach_modelDumps (nodes : List (ConditionNode F)) :
    StoresEach (ConditionNode.modelDumps nodes) nodes := by
  cases nodes with
  | nil => exact .nil
  | cons node rest => exact .cons (stores_modelDump node) (storesEach_modelDumps rest)

end

end IotSaas.Api.Stored
