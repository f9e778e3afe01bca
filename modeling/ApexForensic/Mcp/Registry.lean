import ApexForensic.Mcp.Payload
import ApexForensic.Support.Service

/-!
# The tool registry

A call runs through checks that change at most the budget window of its scope,
then through the confirmation, which uses up a grant, then through the Core,
and last through checks of what the Core answered.  Any exception on the way
becomes an error result.
-/

namespace ApexForensic.Mcp

open ApexForensic.Support ApexForensic.Domain

/-! ## Budgets

Times of the monotonic clock are in nanoseconds. -/

structure BudgetWindow where
  startedAt : ℤ
  calls : ℕ
  items : ℕ
  serializedBytes : ℕ
  cursors : List (String × String)

/-- The limits of `ToolBudget`. -/
structure ToolBudget where
  windowNanos : ℤ := 60 * 1000000000
  maxCalls : ℕ := 64
  maxTotalItems : ℕ := 4000
  maxTotalBytes : ℕ := 4 * 1024 * 1024
  maxCallBytes : ℕ := 1024 * 1024

abbrev Windows :=
  List (String × BudgetWindow)

/-- `_window`: the window of a scope, a new one when there is none or when it
has passed. -/
def ToolBudget.window (budget : ToolBudget) (scope : String) (now : ℤ)
    (windows : Windows) : BudgetWindow :=
  match windows.lookup scope with
  | some window =>
      if budget.windowNanos ≤ now - window.startedAt then ⟨now, 0, 0, 0, []⟩
      else window
  | none => ⟨now, 0, 0, 0, []⟩

/-- The cursor that a call must not use twice. -/
def pageCursor (toolName : String) (arguments : List (String × Json)) :
    Option (String × String) :=
  match getKey arguments "cursor" with
  | .str cursor =>
      if toolName = "apex.context.scope_page" then some (toolName, cursor)
      else none
  | _ => none

/-- `begin_call`, with the windows it leaves. -/
def ToolBudget.beginCall (budget : ToolBudget) (scope toolName : String)
    (arguments : List (String × Json)) (now : ℤ) (windows : Windows) :
    Except ToolFailure Unit × Windows :=
  let window := budget.window scope now windows
  if budget.maxCalls ≤ window.calls then
    (.error (toolBudgetExceededError "max_tool_calls_per_window"),
      setItem scope window windows)
  else
    match pageCursor toolName arguments with
    | some cursor =>
        if cursor ∈ window.cursors then
          (.error paginationLoopError, setItem scope window windows)
        else
          (.ok (), setItem scope
            { window with
              calls := window.calls + 1
              cursors := cursor :: window.cursors } windows)
    | none =>
        (.ok (), setItem scope { window with calls := window.calls + 1 }
          windows)

/-- `_item_count`. -/
def itemCount (result : List (String × Json)) : ℕ :=
  if hasStatus result "OK" then
    match getKey result "data" with
    | .obj fields =>
        match getKey fields "items" with
        | .arr items => items.length
        | _ => 1
    | .arr items => items.length
    | .null => 0
    | _ => 1
  else 0

/-- `accept_result`, with the windows it leaves. -/
def ToolBudget.acceptResult (budget : ToolBudget) (scope : String)
    (result : List (String × Json)) (maxResultItems : ℕ) (now : ℤ)
    (windows : Windows) : Except ToolFailure Unit × Windows :=
  let bytes := payloadBytes result
  let items := itemCount result
  if budget.maxCallBytes < bytes then
    (.error (toolBudgetExceededError "max_serialized_bytes_per_call"), windows)
  else if maxResultItems < items then
    (.error (toolBudgetExceededError "descriptor.max_result_items"), windows)
  else
    let window := budget.window scope now windows
    if budget.maxTotalItems < window.items + items then
      (.error (toolBudgetExceededError "max_total_items_per_window"),
        setItem scope window windows)
    else if budget.maxTotalBytes < window.serializedBytes + bytes then
      (.error (toolBudgetExceededError "max_serialized_bytes_per_window"),
        setItem scope window windows)
    else
      (.ok (), setItem scope
        { window with
          items := window.items + items
          serializedBytes := window.serializedBytes + bytes } windows)

/-! ## Schemas -/

/-- What the server takes from the schema library and from `datetime`: whether
a schema is one, the first error of a value against a schema of a catalog,
with its path, and `datetime.fromisoformat`. -/
structure CallPlatform extends Platform where
  checkSchema : Json → Bool
  firstError : List (String × Json) → Json → Json →
    Option (String × Option String)
  fromIsoformat : String → Option Datetime

/-- The schemas of the catalog under their file names. -/
abbrev SchemaCatalog :=
  List (String × Json)

/-- A file name of the catalog. -/
def isSchemaName (name : String) : Bool :=
  '/' ∉ name.toList ∧ ".schema.json".toList.isSuffixOf name.toList

section

variable (P : CallPlatform)

/-- `SchemaCatalog.schema`. -/
def catalogSchema (catalog : SchemaCatalog) (name : String) :
    Except ToolFailure Json :=
  if isSchemaName name = false then
    .error (descriptorValidationError
      "Schema references must be catalog file names." (some "schema_ref"))
  else
    match Json.lookup name catalog with
    | some schema => .ok schema
    | none => .error (descriptorValidationError
        "A referenced schema is not present in the canonical catalog."
        (some name))

def validateWith (catalog : SchemaCatalog) (schema value : Json) :
    Except ToolFailure Unit :=
  match P.firstError catalog schema value with
  | some (message, target) => .error (toolInputValidationError
      ("JSON Schema validation failed: " ++ message) target)
  | none => .ok ()

/-- `SchemaCatalog.validate`. -/
def validateNamed (catalog : SchemaCatalog) (name : String) (value : Json) :
    Except ToolFailure Unit := do
  let schema ← catalogSchema catalog name
  validateWith P catalog schema value

def checkInline (schema : Json) : Except ToolFailure Unit :=
  if P.checkSchema schema then .ok ()
  else .error (builtinFailure .valueError "SchemaError")

/-- `SchemaCatalog.validate_inline`. -/
def validateInline (catalog : SchemaCatalog) (schema value : Json) :
    Except ToolFailure Unit := do
  checkInline P schema
  validateWith P catalog schema value

/-! ## Registered tools -/

structure ToolBinding where
  toolName : String
  operation : String
  inputSchema : Json
  outputSchemaRef : Option String
  outputDataSchema : Option Json

structure RegisteredTool where
  descriptor : EngineToolDescriptor
  binding : ToolBinding

/-- A tool is registered under its own name, with the descriptor that the
adapter has for it, and its operation is the tool itself. -/
structure RegisteredTool.WellFormed (descriptors :
    Table EngineToolDescriptor.toolName) (tool : RegisteredTool) : Prop where
  operation_eq : tool.binding.operation = tool.binding.toolName
  descriptor_eq : descriptors.find? tool.binding.toolName =
    some tool.descriptor

inductive ConfirmationProvider where
  | denyAll
  | grants

structure ToolRegistry (σ : Type) where
  adapter : EngineAdapter σ
  catalog : SchemaCatalog
  available : List String
  unavailable : List String
  confirmations : ConfirmationProvider
  frontendSecurity : Bool
  allowedTools : List String
  budget : ToolBudget
  registered : List RegisteredTool
  wellFormed : ∀ tool ∈ registered, tool.WellFormed adapter.descriptors

/-- `CapabilityGate.require`. -/
def requireCapabilities {σ : Type} (registry : ToolRegistry σ)
    (descriptor : EngineToolDescriptor) : Except ToolFailure Unit :=
  let missing := descriptor.requiredCapabilities.filter fun capability =>
    capability ∉ registry.available ∨ capability ∈ registry.unavailable
  if missing = [] then .ok () else .error (capabilityGateError missing)

end

end ApexForensic.Mcp
