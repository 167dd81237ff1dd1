import Conduit.Base.ParseInt
import Conduit.Pipeline.Http
import Mathlib.Data.Rat.Defs

/-!
# Conditions

A condition tree is checked as a whole and then evaluated against a JSON
object. A node without a type is a group at the top and a leaf below it.
-/

namespace Conduit.Orchestrator

open Base Base.ParseInt Base.Text
open Pipeline (JsonValue)

/-! ## Trees -/

inductive ConditionType
  | omitted
  | condition
  | group
deriving DecidableEq, Repr

structure Condition where
  type : ConditionType
  logic : String
  conditions : List Condition
  field : String
  operator : String
  value : Option JsonValue

inductive ConditionError
  | fieldRequired
  | valueRequired
  | unsupportedOperator (operator : String)
  | unsupportedDailyOperator (operator : String)
  | unsupportedValueType
deriving DecidableEq, Repr

/-- What the evaluator uses of `serde_json` and `chrono`. -/
structure ValueReader where
  /-- `Number::as_f64`. -/
  asF64 : String → ℚ
  /-- The minute of the day of an RFC 3339 instant, on its own clock. -/
  minuteOfDay : String → Option Int

inductive NodeKind
  | leaf
  | group
deriving DecidableEq, Repr

def classify (type : ConditionType) (top : Bool) : NodeKind :=
  match type with
  | .condition => .leaf
  | .group => .group
  | .omitted => if top then .group else .leaf

/-! ## Operators -/

inductive Operator
  | lt
  | lte
  | gt
  | gte
  | eq
  | ne
deriving DecidableEq, Repr

/-- `operator.trim().to_ascii_lowercase()`. -/
def normalized (operator : String) : String := String.ofList ((trimmed operator).map Char.toLower)

def normalizeOperator (operator : String) : Option Operator :=
  let text := normalized operator
  if ["lt", "<"].contains text then some .lt
  else if ["lte", "<="].contains text then some .lte
  else if ["gt", ">"].contains text then some .gt
  else if ["gte", ">="].contains text then some .gte
  else if ["eq", "=", "=="].contains text then some .eq
  else if ["ne", "!=", "<>"].contains text then some .ne
  else none

/-- Whether the time must be within the range or outside of it. -/
def normalizeDailyOperator (operator : String) : Option Bool :=
  let text := normalized operator
  if text = "within" then some true else if text = "not_within" then some false else none

def isOr (logic : String) : Bool := eqIgnoreAsciiCase (trim logic) "or"

def isLiteralValue : JsonValue → Bool
  | .string _ | .bool _ | .number _ => true
  | _ => false

def valuesEqual (reader : ValueReader) : JsonValue → JsonValue → Bool
  | .number a, .number e => reader.asF64 a == reader.asF64 e
  | .string a, .string e => a == e
  | .bool a, .bool e => a == e
  | _, _ => false

def applyOperator (reader : ValueReader) (op : Operator) (actual expected : JsonValue) : Bool :=
  match op with
  | .eq => valuesEqual reader actual expected
  | .ne => !valuesEqual reader actual expected
  | .lt | .lte | .gt | .gte =>
      match actual, expected with
      | .number actual, .number expected =>
          let a := reader.asF64 actual
          let e := reader.asF64 expected
          match op with
          | .lt => a < e
          | .lte => a ≤ e
          | .gt => e < a
          | _ => e ≤ a
      | _, _ => false

/-! ## Daily times -/

def parseDailyClock (value : String) : Option Int :=
  match (trimmed value).splitOn ':' with
  | [hours, minutes] => do
      let hours ← parseSigned 2147483648 (trim (String.ofList hours))
      let minutes ← parseSigned 2147483648 (trim (String.ofList minutes))
      if 0 ≤ hours ∧ hours ≤ 23 ∧ 0 ≤ minutes ∧ minutes ≤ 59 then some (hours * 60 + minutes)
      else none
  | _ => none

def parseDailyRange (value : String) : Option (Int × Int) := do
  let (start, finish) ← splitOnce "-" value
  let start ← parseDailyClock start
  let finish ← parseDailyClock finish
  some (start, finish)

/-- A half-open range, over midnight when it ends before it starts. -/
def dailyTimeWithin (nowMinutes : Int) (range : String) : Bool :=
  match parseDailyRange range with
  | none => false
  | some (start, finish) =>
      if start = finish then false
      else if finish < start then start ≤ nowMinutes || nowMinutes < finish
      else start ≤ nowMinutes && nowMinutes < finish

/-- `Value::get` with a name. -/
def getField (data : JsonValue) (name : String) : Option JsonValue :=
  match data with
  | .object fields => fields.lookup name
  | _ => none

def nowMinutes (reader : ValueReader) (data : JsonValue) : Option Int :=
  match getField data "now" with
  | some (.string raw) => reader.minuteOfDay raw
  | _ => none

/-! ## Checking -/

def validateLeaf (condition : Condition) : Except ConditionError Unit :=
  let field := trim condition.field
  if field = "" then .error .fieldRequired
  else
    match condition.value with
    | none => .error .valueRequired
    | some value =>
        if eqIgnoreAsciiCase field "daily_time" then
          if (normalizeDailyOperator condition.operator).isSome then .ok ()
          else .error (.unsupportedDailyOperator condition.operator)
        else if (normalizeOperator condition.operator).isNone then
          .error (.unsupportedOperator condition.operator)
        else if isLiteralValue value then .ok ()
        else .error .unsupportedValueType

mutual

def validateNode (top : Bool) : Condition → Except ConditionError Unit
  | ⟨type, logic, conditions, field, operator, value⟩ =>
      match classify type top with
      | .leaf => validateLeaf ⟨type, logic, conditions, field, operator, value⟩
      | .group => validateNodes conditions

def validateNodes : List Condition → Except ConditionError Unit
  | [] => .ok ()
  | child :: rest => do
      validateNode false child
      validateNodes rest

end

def validate (condition : Condition) : Except ConditionError Unit := validateNode true condition

/-! ## Evaluation -/

def runLeaf (reader : ValueReader) (condition : Condition) (data : JsonValue) : Bool :=
  let field := trim condition.field
  match condition.value with
  | none => false
  | some value =>
      if eqIgnoreAsciiCase field "daily_time" then
        match normalizeDailyOperator condition.operator, value, nowMinutes reader data with
        | some within, .string range, some now => dailyTimeWithin now range == within
        | _, _, _ => false
      else
        match getField data field, normalizeOperator condition.operator with
        | some actual, some op => applyOperator reader op actual value
        | _, _ => false

mutual

def runNode (reader : ValueReader) (data : JsonValue) (top : Bool) : Condition → Bool
  | ⟨type, logic, conditions, field, operator, value⟩ =>
      match classify type top with
      | .leaf => runLeaf reader ⟨type, logic, conditions, field, operator, value⟩ data
      | .group => conditions.isEmpty || runNodes reader data (isOr logic) conditions

/-- The loop over the children: the first one that decides, or else `!or`. -/
def runNodes (reader : ValueReader) (data : JsonValue) (or : Bool) : List Condition → Bool
  | [] => !or
  | child :: rest =>
      if runNode reader data false child = or then or else runNodes reader data or rest

end

def evaluate (reader : ValueReader) (condition : Condition) (data : JsonValue) : Bool :=
  (validate condition).isOk && runNode reader data true condition

end Conduit.Orchestrator
