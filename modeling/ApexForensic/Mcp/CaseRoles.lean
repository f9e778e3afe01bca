import ApexForensic.Mcp.Gate

/-!
# What the gate guarantees for a case

A call that passes the gate with case roles in its token has every target case
inside the session, and a role in each of them that grants every scope of the
tool.  A call can pass without any target case: then only the scopes of the
token were compared.
-/

namespace ApexForensic.Mcp

open ApexForensic.Support ApexForensic.Domain

section

variable {P : Platform}

theorem missingScopes_eq_nil_iff {required held : List String} :
    missingScopes required held = [] ↔ required ⊆ held := by
  constructor
  · intro h scope hscope
    by_contra hmissing
    have hmem : scope ∈ missingScopes required held := by
      rw [missingScopes, mem_sortedUnique]
      exact List.mem_filter.mpr ⟨hscope, decide_eq_true hmissing⟩
    rw [h] at hmem
    exact absurd hmem List.not_mem_nil
  · intro h
    have hfilter : required.filter (· ∉ held) = [] := by
      rw [List.filter_eq_nil_iff]
      intro scope hscope
      simpa using h hscope
    rw [missingScopes, hfilter]
    rfl

/-- The role in a case grants the scopes. -/
def CaseGrants (P : Platform) (caseRoles : Json) (required : List String)
    (caseId : String) : Prop :=
  ∃ role, roleText P caseRoles caseId = .ok role ∧
    required ⊆ roleScopes P role

theorem requireCaseScopes_eq_ok_iff {caseRoles : Json} {toolName : String}
    {required : List String} {caseId : String} :
    requireCaseScopes P caseRoles toolName required caseId = .ok () ↔
      CaseGrants P caseRoles required caseId := by
  rw [requireCaseScopes, bind_eq_ok_iff, CaseGrants]
  refine exists_congr fun role => ?_
  rw [mapError_eq_ok_iff]
  refine and_congr_right fun _ => ?_
  rw [← missingScopes_eq_nil_iff]
  dsimp only
  split
  · rename_i hmissing
    exact iff_of_false (by simp) hmissing
  · rename_i hmissing
    exact iff_of_true rfl (not_not.mp hmissing)

/-- What a call that passes the gate has shown. -/
structure Granted (P : Platform) (session : FrontendSession)
    (token : AccessToken) (descriptor : EngineToolDescriptor)
    (toolName : String) (targetCaseIds : List String) : Prop where
  held : requiredScopes descriptor toolName ⊆ token.scopes
  allowed : ∀ caseId ∈ targetCaseIds, caseId ∈ session.allowedCaseIds
  granted : ∀ caseId ∈ targetCaseIds,
    CaseGrants P (getKey token.claims "case_roles")
      (requiredScopes descriptor toolName) caseId

theorem granted_of_requireAuthorization {session : FrontendSession}
    {token : AccessToken} {descriptor : EngineToolDescriptor}
    {toolName : String} {targetCaseIds : List String}
    (hroles : truthy (getKey token.claims "case_roles") = true)
    (h : requireAuthorization P session token descriptor toolName
      targetCaseIds = .ok ()) :
    Granted P session token descriptor toolName targetCaseIds := by
  have hdict : orEmptyDict (getKey token.claims "case_roles") =
      getKey token.claims "case_roles" := if_pos hroles
  rw [requireAuthorization, check_eq_ok_iff, not_not] at h
  obtain ⟨hallowed, h⟩ := h
  dsimp only at h
  rw [check_eq_ok_iff, not_not, missingScopes_eq_nil_iff, hdict,
    if_pos hroles] at h
  obtain ⟨htoken, h⟩ := h
  rw [bind_eq_ok_iff] at h
  obtain ⟨_, hcases, -⟩ := h
  refine ⟨htoken, fun caseId hcase => hallowed hcase, fun caseId hcase => ?_⟩
  exact requireCaseScopes_eq_ok_iff.mp (forM_eq_ok_iff.mp hcases caseId hcase)

/-! ## Calls without a target case -/

section

variable {σ : Type}

/-- The arguments name no case, and neither does what the Core answers. -/
def NamesNoCase (adapter : EngineAdapter σ) (state : σ) (toolName : String)
    (arguments : List (String × Json)) : Prop :=
  namedCase arguments = none ∧
    ∀ lookupTool names result,
      caseLookups.lookup toolName = some (lookupTool, names) →
      adapter.core.invokeRead state lookupTool
        (lookupPayload arguments names) noIds = .ok result →
      hasStatus result "OK" = true → caseIds (getKey result "data") = []

theorem sortedUnique_eq_nil_iff {values : List String} :
    sortedUnique values = [] ↔ values = [] := by
  rw [List.eq_nil_iff_forall_not_mem, List.eq_nil_iff_forall_not_mem]
  exact forall_congr' fun v => not_congr mem_sortedUnique

theorem targetCaseIds_eq_nil_iff {adapter : EngineAdapter σ} {state : σ}
    {toolName : String} {arguments : List (String × Json)}
    {targets : List String}
    (h : adapter.targetCaseIds state toolName arguments = .ok targets) :
    targets = [] ↔ NamesNoCase adapter state toolName arguments := by
  rw [EngineAdapter.targetCaseIds, check_eq_ok_iff] at h
  obtain ⟨-, h⟩ := h
  rw [NamesNoCase]
  cases hcase : namedCase arguments with
  | some caseId =>
      rw [hcase] at h
      obtain rfl := Except.ok.inj h
      simp
  | none =>
      rw [hcase] at h
      cases hlookup : caseLookups.lookup toolName with
      | none =>
          rw [hlookup] at h
          obtain rfl := Except.ok.inj h
          simp
      | some lookup =>
          obtain ⟨lookupTool, names⟩ := lookup
          rw [hlookup] at h
          obtain ⟨result, hresult, h⟩ := bind_ok h
          rw [mapError_eq_ok_iff] at hresult
          constructor
          · rintro rfl
            refine ⟨rfl, fun tool' names' result' heq hread hok => ?_⟩
            obtain ⟨rfl, rfl⟩ := Prod.mk.inj (Option.some.inj heq)
            rw [hresult] at hread
            obtain rfl := Except.ok.inj hread
            rw [if_pos hok] at h
            exact sortedUnique_eq_nil_iff.mp (Except.ok.inj h)
          · rintro ⟨-, hnone⟩
            split at h
            · rename_i hok
              rw [← Except.ok.inj h, sortedUnique_eq_nil_iff]
              exact hnone _ _ _ rfl hresult hok
            · exact (Except.ok.inj h).symm

/-! ## The gate -/

/-- A call that mutates or needs a confirmation has a target case. -/
def HasTarget (descriptor : EngineToolDescriptor)
    (targetCaseIds : List String) : Prop :=
  descriptor.mutatesState = true ∨ descriptor.requiresConfirmation = true →
    targetCaseIds ≠ []

end

end

/-! ## Two calls -/

def analystToken : AccessToken where
  subject := some "u"
  scopes := ["apex:confirm", "apex:mcp", "apex:read", "apex:write"]
  claims := [("sub", .str "u"), ("session_id", .str "s"),
    ("tenant_id", .str "t"), ("allowed_case_ids", .arr [.str "a"]),
    ("case_roles", .obj [("a", .str "ANALYST")])]

def analystSession : FrontendSession where
  actorId := "u"
  sessionId := "s"
  tenantId := "t"
  allowedCaseIds := ["a"]
  roles := ["ANALYST"]

example : resolveSession asciiPlatform analystToken = .ok analystSession :=
  rfl

def mutatingTool (toolName : String) : EngineToolDescriptor where
  toolName := toolName
  requiredCapabilities := []
  mutatesState := true
  requiresConfirmation := false
  maxResultItems := 1

/-- A Core that finds nothing. -/
def emptyAdapter : EngineAdapter Unit where
  core :=
    { invokeRead := fun _ _ _ _ => .ok [("status", .str "ERROR")]
      invokeMutation := fun s _ _ _ => (s, .ok [("status", .str "ERROR")]) }
  descriptors := Table.empty _
  closed := false
  unconfirmed _ h := absurd h List.not_mem_nil

end ApexForensic.Mcp
