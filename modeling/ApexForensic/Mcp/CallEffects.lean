import ApexForensic.Mcp.CaseRoles
import ApexForensic.Mcp.ToolCall

/-!
# Effects and errors

Only the adapter reaches the Core, and whatever comes before it leaves the
Core alone.  What comes after it can still turn the call into an error, and
does so exactly when the reply of the Core is not one that the server accepts.
-/

namespace ApexForensic.Mcp

open ApexForensic.Support ApexForensic.Domain

section

variable {σ : Type} {P : CallPlatform} {registry : ToolRegistry σ}
  {request : CallRequest} {inputs : CallInputs}

/-! ## What leaves the Core alone -/

def KeepsCore (s t : ServerState σ) : Prop :=
  t.core = s.core

instance : Std.Refl (KeepsCore (σ := σ)) where
  refl _ := rfl

instance : IsTrans (ServerState σ) KeepsCore where
  trans _ _ _ h h' := Eq.trans h' h

theorem keepsCore_beginCall (admission : Admission) :
    Service.Respects KeepsCore
      (beginCall registry request inputs admission) :=
  fun _ => rfl

theorem keepsCore_confirm (admission : Admission) :
    Service.Respects KeepsCore
      (confirm P registry request inputs admission) := by
  intro s
  rw [KeepsCore, Service.after, confirm]
  split
  · rfl
  split
  · rfl
  split
  · rfl
  split
  · dsimp only
    split
    · rfl
    · rfl
  · rfl

theorem keepsCore_confirmCall :
    Service.Respects KeepsCore (confirmCall P registry request inputs) := by
  refine Service.respects_bind (Service.respects_read _) fun admission => ?_
  refine Service.respects_bind (keepsCore_beginCall admission) fun _ => ?_
  exact Service.respects_bind (keepsCore_confirm admission) fun granted =>
    Service.respects_pure _

theorem keepsCore_preflight :
    Service.Respects KeepsCore (preflight P registry request inputs) := by
  refine Service.respects_bind keepsCore_confirmCall fun confirmed => ?_
  exact Service.respects_bind (Service.respects_read _) fun payload =>
    Service.respects_pure _

theorem keepsCore_finish (invocation : Invocation)
    (reply : List (String × Json)) :
    Service.Respects KeepsCore
      (finish P registry inputs invocation reply) := by
  refine Service.respects_bind (Service.respects_read _) fun _ => ?_
  refine Service.respects_bind (Service.respects_read _) fun _ => ?_
  refine Service.respects_bind (fun _ => rfl) fun _ => ?_
  dsimp only
  split
  · exact Service.respects_bind (Service.respects_read _) fun _ =>
      Service.respects_pure _
  · exact Service.respects_pure _

/-! ## Replies that the server accepts -/

/-- The result fits the limits of one call and of its window. -/
structure FitsBudget (budget : ToolBudget) (scope : String)
    (result : List (String × Json)) (maxResultItems : ℕ) (now : ℤ)
    (windows : Windows) : Prop where
  callBytes : payloadBytes result ≤ budget.maxCallBytes
  callItems : itemCount result ≤ maxResultItems
  windowItems : (budget.window scope now windows).items + itemCount result ≤
    budget.maxTotalItems
  windowBytes : (budget.window scope now windows).serializedBytes +
    payloadBytes result ≤ budget.maxTotalBytes

theorem acceptResult_eq_ok_iff {budget : ToolBudget} {scope : String}
    {result : List (String × Json)} {maxResultItems : ℕ} {now : ℤ}
    {windows : Windows} :
    (budget.acceptResult scope result maxResultItems now windows).1 = .ok () ↔
      FitsBudget budget scope result maxResultItems now windows := by
  rw [ToolBudget.acceptResult]
  dsimp only
  split_ifs with hbytes hitems htotal hwindow
  · exact iff_of_false (by simp) fun h => absurd h.callBytes (by omega)
  · exact iff_of_false (by simp) fun h => absurd h.callItems (by omega)
  · exact iff_of_false (by simp) fun h => absurd h.windowItems (by omega)
  · exact iff_of_false (by simp) fun h => absurd h.windowBytes (by omega)
  · exact iff_of_true rfl ⟨by omega, by omega, by omega, by omega⟩

/-- The redacted reply meets the contracts of a result, fits the budget, and
is no error. -/
structure Acceptable (P : CallPlatform) (registry : ToolRegistry σ)
    (inputs : CallInputs) (invocation : Invocation)
    (reply : List (String × Json)) (windows : Windows) : Prop where
  response : validateNamed P registry.catalog "api-response.schema.json"
    (.obj (redactFields P.toPlatform reply)) = .ok ()
  output : validateOutput P registry invocation.admission.tool
    (redactFields P.toPlatform reply) = .ok ()
  budget : FitsBudget registry.budget invocation.admission.scope
    (redactFields P.toPlatform reply)
    invocation.admission.tool.descriptor.maxResultItems inputs.acceptedAt
    windows
  status : hasStatus (redactFields P.toPlatform reply) "ERROR" = false

theorem finish_not_error_iff {invocation : Invocation}
    {reply : List (String × Json)} {s : ServerState σ} :
    (∃ result, (finish P registry inputs invocation reply).result s =
        .ok (result, false)) ↔
      Acceptable P registry inputs invocation reply s.windows := by
  simp only [finish, Service.result_bind_eq_ok_iff, Service.result_read,
    Service.after_read]
  constructor
  · rintro ⟨result, _, hresponse, _, houtput, _, hbudget, hrest⟩
    refine ⟨hresponse, houtput, acceptResult_eq_ok_iff.mp hbudget, ?_⟩
    by_contra hstatus
    rw [Bool.not_eq_false] at hstatus
    rw [hstatus] at hrest
    split at hrest
    · obtain ⟨_, -, hpure⟩ := Service.result_bind_eq_ok_iff.mp hrest
      cases hpure
    · cases hrest
  · rintro ⟨hresponse, houtput, hbudget, hstatus⟩
    refine ⟨redactFields P.toPlatform reply, (), hresponse, (), houtput, (),
      acceptResult_eq_ok_iff.mpr hbudget, ?_⟩
    rw [hstatus, if_neg (by simp)]
    rfl

/-! ## Errors of a call -/

theorem callTool_isError_iff {s : ServerState σ} :
    (callTool P registry request inputs s).1.isError = true ↔
      ¬ ∃ result, (callBody P registry request inputs).result s =
        .ok (result, false) := by
  rw [callTool, Service.result]
  rcases callBody P registry request inputs s with
    ⟨failure | ⟨result, isError⟩, t⟩
  · dsimp only
    split
    · simp [CallOutcome.isError]
    · simp [CallOutcome.isError]
  · simp [CallOutcome.isError]

theorem callTool_state {s : ServerState σ} :
    (callTool P registry request inputs s).2 =
      (callBody P registry request inputs).after s := by
  rw [callTool, Service.after]
  rcases callBody P registry request inputs s with
    ⟨failure | ⟨result, isError⟩, t⟩
  · dsimp only
    split
    · rfl
    · rfl
  · rfl

/-- A call that the client sees as an error has left the Core as it was. -/
def EffectReported (P : CallPlatform) (registry : ToolRegistry σ)
    (request : CallRequest) (inputs : CallInputs) (s : ServerState σ) :
    Prop :=
  (callTool P registry request inputs s).1.isError = true →
    (callTool P registry request inputs s).2.core = s.core

/-- If the call reaches the adapter and the Core changes, then the Core
replies with a result that the server accepts. -/
def EffectAccepted (P : CallPlatform) (registry : ToolRegistry σ)
    (request : CallRequest) (inputs : CallInputs) (s : ServerState σ) :
    Prop :=
  ∀ invocation, (preflight P registry request inputs).result s =
      .ok invocation →
    let t := (preflight P registry request inputs).after s
    let call := invoke P registry inputs invocation
    (call.after t).core = s.core ∨
      ∃ reply, call.result t = .ok reply ∧
        Acceptable P registry inputs invocation reply (call.after t).windows

end

/-! ## A report created by a call that fails -/

def asciiCalls : CallPlatform :=
  { asciiPlatform with
    checkSchema := fun _ => true
    firstError := fun _ _ _ => none
    fromIsoformat := fun _ => none }

def createdReport : Json :=
  .obj
    [("report_id", .str "r"), ("case_id", .str "a"), ("title", .str "T"),
     ("description", .null), ("report_type", .str "INVESTIGATION"),
     ("locale", .str "en-US"), ("timezone", .str "UTC"),
     ("status", .str "DRAFT"), ("active_version_id", .null),
     ("latest_version_number", .int 0), ("created_by", .str "u"),
     ("created_at", .str "2026-01-01T00:00:00.000000Z"),
     ("updated_at", .str "2026-01-01T00:00:00.000000Z"),
     ("archived_at", .null),
     ("report_fingerprint", .str
       "0000000000000000000000000000000000000000000000000000000000000000"),
     ("report_schema_version", .str "1.0.0")]

def okReply (ids : CallIds) (data : Json) : List (String × Json) :=
  [("schema_version", .str "1.0.0"), ("interface_version", .str "1.0.0"),
   ("request_id", optionalText ids.requestId),
   ("correlation_id", optionalText ids.correlationId),
   ("status", .str "OK"), ("data", data), ("warnings", .arr []),
   ("errors", .arr [])]

/-- A Core that keeps the titles of its reports. -/
def reportCore : Core (List Json) where
  invokeRead _ _ _ ids := .ok (okReply ids .null)
  invokeMutation titles _ payload ids :=
    (titles ++ [getKey payload "title"], .ok (okReply ids createdReport))

def createBinding : ToolBinding where
  toolName := "report.create"
  operation := "report.create"
  inputSchema := .obj [("type", .str "object")]
  outputSchemaRef := some "report-record.schema.json"
  outputDataSchema := none

def reportRegistry : ToolRegistry (List Json) where
  adapter :=
    { core := reportCore
      descriptors := ⟨[mutatingTool "report.create"], List.nodup_singleton _⟩
      closed := false
      unconfirmed := by decide }
  catalog := [("api-response.schema.json", .obj []),
    ("report-record.schema.json", .obj [])]
  available := []
  unavailable := []
  confirmations := .grants
  frontendSecurity := true
  allowedTools := ["report.create"]
  budget := {}
  registered := [⟨mutatingTool "report.create", createBinding⟩]
  wellFormed := by
    intro tool htool
    rw [List.mem_singleton.mp htool]
    exact ⟨rfl, rfl⟩

def createRequest : CallRequest where
  toolName := "report.create"
  arguments := [("case_id", .str "a"), ("title", .str "T")]
  accessToken := some analystToken

def callInputs : CallInputs where
  requestId := "00000000-0000-4000-8000-000000000001"
  correlationId := "00000000-0000-4000-8000-000000000002"
  confirmationAt := ⟨0, some 0⟩
  begunAt := 1
  authorizedAt := ⟨0, some 0⟩
  invokedAt := ⟨0, some 0⟩
  acceptedAt := 2

/-- The analyst has listed 4000 items in this window. -/
def spentWindow : ServerState (List Json) where
  core := []
  grants := ⟨Table.empty _, Table.empty _, ⟨0, some 0⟩⟩
  windows := [(analystSession.budgetScope asciiPlatform, ⟨0, 4, 4000, 0, []⟩)]
  coreCalls := []

/-- The call as it reaches the adapter. -/
def createInvocation : Invocation where
  admission :=
    { tool := ⟨mutatingTool "report.create", createBinding⟩
      actorId := some "u"
      sessionId := some "s"
      scope := analystSession.budgetScope asciiPlatform
      confirmation := none }
  granted := none
  payload := [("case_id", .str "a"), ("title", .str "T"),
    ("created_by", .str "u")]

end ApexForensic.Mcp
