import ApexForensic.Mcp.CallEffects

/-!
# Grants and the calls they confirm

A grant is used up when the call is confirmed, before its arguments are
prepared.  So each use goes with a call of the Core exactly when the arguments
of a confirmed call can be prepared.
-/

namespace ApexForensic.Mcp

open ApexForensic.Support ApexForensic.Domain

variable {confirmation : ConfirmationRequest} {admission : Admission}
  {invocation : Invocation}

/-! ## Using a grant alone -/

/-- How often a grant was used. -/
def GrantStore.uses (store : GrantStore) (grantId : String) : ℕ :=
  ((store.grants.find? grantId).map ConfirmationGrantRow.usesCount).getD 0

theorem uses_use (store : GrantStore) (now : Datetime)
    {row : ConfirmationGrantRow}
    (hfound : store.grants.find? confirmation.grantId = some row)
    (husable : row.usesCount < row.maxUses) (grantId : String) :
    (store.use confirmation now).2.1.uses grantId =
      store.uses grantId + if confirmation.grantId = grantId then 1 else 0 := by
  rw [GrantStore.uses, GrantStore.uses, GrantStore.use]
  dsimp only
  rw [Table.find?_update]
  by_cases hid : confirmation.grantId = grantId
  · subst hid
    have hkey := (Table.find?_eq_some_iff.mp hfound).2
    rw [hfound]
    simp [ConfirmationGrantRow.usable, hkey, husable]
  · rw [if_neg hid]
    cases hother : store.grants.find? grantId with
    | none => rfl
    | some other =>
        have hkey := (Table.find?_eq_some_iff.mp hother).2
        have hne : other.grantId ≠ confirmation.grantId := fun h =>
          hid (h.symm.trans hkey)
        simp [ConfirmationGrantRow.usable, hne]

/-- What a provider did to the grants. -/
structure Authorization (confirmation : ConfirmationRequest)
    (before after : GrantStore) (authorized : Bool) : Prop where
  refused : authorized = false → after.grants = before.grants
  used : authorized = true → ∀ grantId, after.uses grantId =
    before.uses grantId + if confirmation.grantId = grantId then 1 else 0

theorem authorization_authorize (provider : ConfirmationProvider)
    (confirmation : ConfirmationRequest) (now : Datetime) (store : GrantStore) :
    Authorization confirmation store
      (provider.authorize confirmation now store).1
      (provider.authorize confirmation now store).2 := by
  cases provider with
  | denyAll => exact ⟨fun _ => rfl, nofun⟩
  | grants =>
      rw [ConfirmationProvider.authorize, authorize]
      simp only [Script.read, Script.alone_commit_bind]
      cases hfound : store.grants.find? confirmation.grantId with
      | none => exact ⟨fun _ => rfl, nofun⟩
      | some row =>
          dsimp only
          split_ifs with haccepts
          · obtain ⟨-, husable, -⟩ := accepts_eq_true_iff.mp haccepts
            have hcount : 0 < (GrantStore.use confirmation now
                { store with now }).1 := by
              obtain ⟨hrow, hid⟩ := Table.find?_eq_some_iff.mp hfound
              refine List.countP_pos_iff.mpr ⟨row, hrow, ?_⟩
              simp [ConfirmationGrantRow.usable, hid, husable]
            rw [Script.alone_commit_bind]
            refine ⟨fun hrefused => ?_, fun _ grantId => ?_⟩
            · exact absurd hcount (of_decide_eq_false hrefused)
            · exact uses_use { store with now } now hfound husable grantId
          · exact ⟨fun _ => rfl, nofun⟩

/-! ## What a stage does to the grants -/

section

variable {σ : Type} {P : CallPlatform} {registry : ToolRegistry σ}
  {request : CallRequest} {inputs : CallInputs}

/-- No grant was used, and no operation was passed to the Core on behalf of
one. -/
structure Idle (s t : ServerState σ) : Prop where
  grants : t.grants.grants = s.grants.grants
  coreCalls : ∃ calls, t.coreCalls = s.coreCalls ++ calls ∧
    ∀ call ∈ calls, call.confirmedBy = none

theorem Idle.of_same {s t : ServerState σ}
    (hgrants : t.grants.grants = s.grants.grants)
    (hcalls : t.coreCalls = s.coreCalls) : Idle s t :=
  ⟨hgrants, [], by rw [hcalls, List.append_nil], nofun⟩

instance : Std.Refl (Idle (σ := σ)) where
  refl _ := Idle.of_same rfl rfl

instance : IsTrans (ServerState σ) Idle where
  trans _ _ _ h h' := by
    obtain ⟨calls, hcalls, hnone⟩ := h.coreCalls
    obtain ⟨calls', hcalls', hnone'⟩ := h'.coreCalls
    refine ⟨h'.grants.trans h.grants, calls ++ calls', ?_, ?_⟩
    · rw [hcalls', hcalls, List.append_assoc]
    · intro call hcall
      rcases List.mem_append.mp hcall with hold | hnew
      · exact hnone call hold
      · exact hnone' call hnew

/-- A grant was used once, and nothing was passed to the Core yet. -/
structure Used (confirmation : ConfirmationRequest) (s t : ServerState σ) :
    Prop where
  uses : ∀ grantId, t.grants.uses grantId = s.grants.uses grantId +
    if confirmation.grantId = grantId then 1 else 0
  coreCalls : t.coreCalls = s.coreCalls

theorem findTool_mem {tool : RegisteredTool}
    (h : findTool P registry request = .ok tool) :
    tool ∈ registry.registered := by
  rw [findTool] at h
  split at h
  · cases h
  · rename_i found hfound
    obtain ⟨_, -, h⟩ := bind_ok h
    obtain ⟨_, -, h⟩ := bind_ok h
    obtain rfl := Except.ok.inj h
    exact List.mem_of_find?_eq_some hfound

theorem admitCall_tool_mem {s : ServerState σ}
    (h : admitCall P registry request inputs s = .ok admission) :
    admission.tool ∈ registry.registered := by
  obtain ⟨tool, htool, h⟩ := bind_ok h
  have hmem := findTool_mem htool
  split at h
  · rw [admitToken, check_eq_ok_iff] at h
    obtain ⟨-, h⟩ := h
    obtain ⟨session, -, h⟩ := bind_ok h
    obtain ⟨_, -, h⟩ := bind_ok h
    obtain ⟨_, -, h⟩ := bind_ok h
    obtain rfl := Except.ok.inj h
    exact hmem
  · obtain rfl := Except.ok.inj h
    exact hmem

/-- The confirmation stage uses one grant and returns it, or leaves all of
them. -/
theorem confirm_cases (P : CallPlatform) (registry : ToolRegistry σ)
    (request : CallRequest) (inputs : CallInputs) (admission : Admission)
    (s : ServerState σ) :
    (∃ confirmation, (confirm P registry request inputs admission).result s =
        .ok (some confirmation) ∧
      admission.tool.descriptor.requiresConfirmation = true ∧
      Used confirmation s
        ((confirm P registry request inputs admission).after s)) ∨
    ((∀ confirmation, (confirm P registry request inputs admission).result s ≠
        .ok (some confirmation)) ∧
      Idle s ((confirm P registry request inputs admission).after s)) := by
  rw [Service.after, Service.result, confirm]
  by_cases hrequires : admission.tool.descriptor.requiresConfirmation = false
  · rw [if_pos hrequires]
    exact Or.inr ⟨by simp, Idle.of_same rfl rfl⟩
  rw [if_neg hrequires]
  cases admission.confirmation with
  | none => exact Or.inr ⟨by simp, Idle.of_same rfl rfl⟩
  | some confirmation =>
      dsimp only
      have hauth := authorization_authorize registry.confirmations
        confirmation inputs.authorizedAt s.grants
      split_ifs with hactor hexpected hgranted
      · exact Or.inr ⟨by simp, Idle.of_same rfl rfl⟩
      · exact Or.inl ⟨confirmation, rfl, by simpa using hrequires,
          hauth.used hgranted, rfl⟩
      · exact Or.inr ⟨by simp,
          Idle.of_same (hauth.refused (by simpa using hgranted)) rfl⟩
      · exact Or.inr ⟨by simp, Idle.of_same rfl rfl⟩

theorem confirmCall_after {s : ServerState σ}
    (hadmission : admitCall P registry request inputs s = .ok admission)
    (hbegin : (beginCall registry request inputs admission).result s =
      .ok ()) :
    (confirmCall P registry request inputs).after s =
      (confirm P registry request inputs admission).after
        ((beginCall registry request inputs admission).after s) := by
  have hread : (Service.read (admitCall P registry request inputs)).result s =
    .ok admission := hadmission
  rw [confirmCall, Service.after_bind_of_result hread, Service.after_read,
    Service.after_bind_of_result hbegin, Service.after_bind_pure]

theorem confirmCall_result_iff {s : ServerState σ}
    {granted : Option ConfirmationRequest} :
    (confirmCall P registry request inputs).result s =
        .ok (admission, granted) ↔
      admitCall P registry request inputs s = .ok admission ∧
        (beginCall registry request inputs admission).result s = .ok () ∧
        (confirm P registry request inputs admission).result
          ((beginCall registry request inputs admission).after s) =
            .ok granted := by
  simp only [confirmCall, Service.result_bind_eq_ok_iff, Service.result_read,
    Service.after_read]
  constructor
  · rintro ⟨admission', hadmission, _, hbegin, granted', hconfirm, hpure⟩
    obtain ⟨rfl, rfl⟩ := ok_pair_inj hpure
    exact ⟨hadmission, hbegin, hconfirm⟩
  · rintro ⟨hadmission, hbegin, hconfirm⟩
    exact ⟨admission, hadmission, (), hbegin, granted, hconfirm, rfl⟩

theorem confirmCall_used {s : ServerState σ}
    (h : (confirmCall P registry request inputs).result s =
      .ok (admission, some confirmation)) :
    admission.tool ∈ registry.registered ∧
      admission.tool.descriptor.requiresConfirmation = true ∧
      Used confirmation s
        ((confirmCall P registry request inputs).after s) := by
  obtain ⟨hadmission, hbegin, hconfirm⟩ := confirmCall_result_iff.mp h
  rw [confirmCall_after hadmission hbegin]
  rcases confirm_cases P registry request inputs admission
    ((beginCall registry request inputs admission).after s) with
    ⟨confirmation', hresult, hrequires, hused⟩ | ⟨hnone, -⟩
  · rw [hresult] at hconfirm
    obtain rfl := Option.some.inj (Except.ok.inj hconfirm)
    exact ⟨admitCall_tool_mem hadmission, hrequires, hused.uses, hused.coreCalls⟩
  · exact absurd hconfirm (hnone confirmation)

theorem confirmCall_idle {s : ServerState σ} (h : ∀ admission confirmation,
      (confirmCall P registry request inputs).result s ≠
        .ok (admission, some confirmation)) :
    Idle s ((confirmCall P registry request inputs).after s) := by
  cases hadmission : admitCall P registry request inputs s with
  | error failure =>
      have hread : (Service.read (admitCall P registry request inputs)).result s =
        .error failure := hadmission
      rw [confirmCall, Service.after_bind_of_error hread]
      exact Std.Refl.refl s
  | ok admission =>
      cases hbegin : (beginCall registry request inputs admission).result s with
      | error failure =>
          have hread : (Service.read (admitCall P registry request
            inputs)).result s = .ok admission := hadmission
          rw [confirmCall, Service.after_bind_of_result hread,
            Service.after_read, Service.after_bind_of_error hbegin]
          exact Idle.of_same rfl rfl
      | ok _ =>
          rw [confirmCall_after hadmission hbegin]
          rcases confirm_cases P registry request inputs admission
            ((beginCall registry request inputs admission).after s) with
            ⟨confirmation, hresult, -, -⟩ | ⟨-, hidle⟩
          · exact absurd (confirmCall_result_iff.mpr
              ⟨hadmission, hbegin, hresult⟩) (h admission confirmation)
          · exact ⟨hidle.grants, hidle.coreCalls⟩

/-! ## After the confirmation -/

/-- Neither the grants nor the calls of the Core changed. -/
structure SameGrants (s t : ServerState σ) : Prop where
  grants : t.grants = s.grants
  coreCalls : t.coreCalls = s.coreCalls

instance : Std.Refl (SameGrants (σ := σ)) where
  refl _ := ⟨rfl, rfl⟩

instance : IsTrans (ServerState σ) SameGrants where
  trans _ _ _ h h' :=
    ⟨h'.grants.trans h.grants, h'.coreCalls.trans h.coreCalls⟩

theorem sameGrants_finish (invocation : Invocation)
    (reply : List (String × Json)) :
    Service.Respects SameGrants
      (finish P registry inputs invocation reply) := by
  refine Service.respects_bind (Service.respects_read _) fun _ => ?_
  refine Service.respects_bind (Service.respects_read _) fun _ => ?_
  refine Service.respects_bind (fun _ => ⟨rfl, rfl⟩) fun _ => ?_
  dsimp only
  split
  · exact Service.respects_bind (Service.respects_read _) fun _ =>
      Service.respects_pure _
  · exact Service.respects_pure _

theorem grants_invokeCore (registry : ToolRegistry σ) (mutates : Bool)
    (operation : String) (payload : List (String × Json)) (ids : CallIds)
    (confirmedBy : Option String) (s : ServerState σ) :
    ((invokeCore registry mutates operation payload ids confirmedBy).after
        s).grants = s.grants ∧
      ((invokeCore registry mutates operation payload ids confirmedBy).after
        s).coreCalls = s.coreCalls ++ [⟨operation, confirmedBy⟩] := by
  rw [Service.after, invokeCore]
  split
  · exact ⟨rfl, rfl⟩
  · exact ⟨rfl, rfl⟩

theorem idle_invoke (hgranted : invocation.granted = none) :
    Service.Respects Idle (invoke P registry inputs invocation) := by
  refine Service.respects_bind (Service.respects_read _) fun checked => ?_
  obtain ⟨descriptor, early⟩ := checked
  cases early with
  | some result => exact Service.respects_pure _
  | none =>
      intro s
      obtain ⟨hgrants, hcalls⟩ := grants_invokeCore registry
        descriptor.mutatesState
        invocation.admission.tool.binding.operation invocation.payload
        ⟨some inputs.requestId, some inputs.correlationId⟩
        (invocation.granted.map ConfirmationRequest.grantId) s
      dsimp only
      rw [hgranted] at hgrants hcalls ⊢
      refine ⟨congrArg GrantStore.grants hgrants, _, hcalls, ?_⟩
      intro call hcall
      rw [List.mem_singleton.mp hcall]
      rfl

theorem checkInvocation_confirmed {tool : RegisteredTool}
    (hmem : tool ∈ registry.registered)
    (hrequires : tool.descriptor.requiresConfirmation = true)
    (hopen : registry.adapter.closed = false) (state : σ)
    (payload : List (String × Json)) (ids : CallIds) :
    checkInvocation P registry state inputs tool.binding.operation payload ids
      true = .ok (tool.descriptor, none) := by
  have hwell := registry.wellFormed tool hmem
  have hfound : registry.adapter.descriptors.find? tool.binding.operation =
      some tool.descriptor := by
    rw [hwell.operation_eq]
    exact hwell.descriptor_eq
  obtain ⟨hrow, hname⟩ := Table.find?_eq_some_iff.mp hfound
  have hcontext : tool.binding.operation ∉ contextTools := by
    intro hin
    have hunconfirmed := registry.adapter.unconfirmed tool.descriptor hrow
      (hname ▸ hin)
    rw [hrequires] at hunconfirmed
    cases hunconfirmed
  rw [checkInvocation, hopen]
  simp only [Bool.false_eq_true, if_false, hfound, reduceCtorEq, and_false,
    if_neg hcontext]
  rfl

theorem invoke_confirmed (inputs : CallInputs)
    (hgranted : invocation.granted = some confirmation)
    (hmem : invocation.admission.tool ∈ registry.registered)
    (hrequires : invocation.admission.tool.descriptor.requiresConfirmation =
      true) (hopen : registry.adapter.closed = false) (s : ServerState σ) :
    ((invoke P registry inputs invocation).after s).grants = s.grants ∧
      ((invoke P registry inputs invocation).after s).coreCalls =
        s.coreCalls ++ [⟨invocation.admission.tool.binding.operation,
          some confirmation.grantId⟩] := by
  have hcheck : (Service.read fun s : ServerState σ =>
      checkInvocation P registry s.core inputs
        invocation.admission.tool.binding.operation invocation.payload
        ⟨some inputs.requestId, some inputs.correlationId⟩
        invocation.granted.isSome).result s =
      .ok (invocation.admission.tool.descriptor, none) := by
    rw [hgranted]
    exact checkInvocation_confirmed hmem hrequires hopen _ _ _
  rw [invoke, Service.after_bind_of_result hcheck, Service.after_read]
  have hcalls := grants_invokeCore registry
    invocation.admission.tool.descriptor.mutatesState
    invocation.admission.tool.binding.operation invocation.payload
    ⟨some inputs.requestId, some inputs.correlationId⟩
    (invocation.granted.map ConfirmationRequest.grantId) s
  rw [hgranted] at hcalls ⊢
  exact hcalls

theorem invoke_after_of_closed (hclosed : registry.adapter.closed = true)
    (invocation : Invocation) (s : ServerState σ) :
    (invoke P registry inputs invocation).after s = s := by
  have hcheck : (Service.read fun s : ServerState σ =>
      checkInvocation P registry s.core inputs
        invocation.admission.tool.binding.operation invocation.payload
        ⟨some inputs.requestId, some inputs.correlationId⟩
        invocation.granted.isSome).result s = .error closedError := by
    rw [Service.result_read, checkInvocation, hclosed]
    rfl
  rw [invoke, Service.after_bind_of_error hcheck, Service.after_read]

/-! ## Calls -/

/-- The grants that a call used are those that confirmed the operations it
passed to the Core; when it passed none, it left every grant as it was. -/
def UsesFollowCalls (s t : ServerState σ) : Prop :=
  ∃ calls, t.coreCalls = s.coreCalls ++ calls ∧
    (∀ grantId, t.grants.uses grantId = s.grants.uses grantId +
      calls.countP fun call => call.confirmedBy = some grantId) ∧
    (calls = [] → t.grants.grants = s.grants.grants)

/-- Once the call is confirmed, its arguments can be prepared and the adapter
is open. -/
def UsableOnceConfirmed (P : CallPlatform) (registry : ToolRegistry σ)
    (request : CallRequest) (inputs : CallInputs) (s : ServerState σ) :
    Prop :=
  ∀ admission confirmation,
    (confirmCall P registry request inputs).result s =
      .ok (admission, some confirmation) →
    registry.adapter.closed = false ∧
      ∃ payload, prepareCall P request admission (some confirmation) =
        .ok payload

theorem UsesFollowCalls.of_idle {s t : ServerState σ} (h : Idle s t) :
    UsesFollowCalls s t := by
  obtain ⟨calls, hcalls, hnone⟩ := h.coreCalls
  refine ⟨calls, hcalls, fun grantId => ?_, fun _ => h.grants⟩
  have hzero : calls.countP (fun call => call.confirmedBy = some grantId) =
      0 := by
    rw [List.countP_eq_zero]
    intro call hcall
    simp [hnone call hcall]
  rw [hzero, Nat.add_zero, GrantStore.uses, GrantStore.uses, h.grants]

theorem Used.not_usesFollowCalls {s t : ServerState σ}
    (h : Used confirmation s t) : ¬ UsesFollowCalls s t := by
  rintro ⟨calls, hcalls, huses, -⟩
  rw [h.coreCalls, List.self_eq_append_right] at hcalls
  have hone := h.uses confirmation.grantId
  rw [huses, hcalls, if_pos rfl, List.countP_nil] at hone
  omega

theorem Used.usesFollowCalls {s t u : ServerState σ} {operation : String}
    (h : Used confirmation s t) (hgrants : u.grants = t.grants)
    (hcalls : u.coreCalls = t.coreCalls ++
      [⟨operation, some confirmation.grantId⟩]) : UsesFollowCalls s u := by
  refine ⟨[⟨operation, some confirmation.grantId⟩], ?_, fun grantId => ?_,
    nofun⟩
  · rw [hcalls, h.coreCalls]
  · rw [hgrants, h.uses]
    simp [List.countP_cons]

theorem preflight_after (s : ServerState σ) :
    (preflight P registry request inputs).after s =
      (confirmCall P registry request inputs).after s := by
  cases hconfirm : (confirmCall P registry request inputs).result s with
  | error failure => rw [preflight, Service.after_bind_of_error hconfirm]
  | ok confirmed =>
      rw [preflight, Service.after_bind_of_result hconfirm]
      dsimp only
      rw [Service.after_bind_pure, Service.after_read]

theorem preflight_result_iff {s : ServerState σ} :
    (preflight P registry request inputs).result s = .ok invocation ↔
      (confirmCall P registry request inputs).result s =
          .ok (invocation.admission, invocation.granted) ∧
        prepareCall P request invocation.admission invocation.granted =
          .ok invocation.payload := by
  simp only [preflight, Service.result_bind_eq_ok_iff, Service.result_read]
  constructor
  · rintro ⟨⟨admission, granted⟩, hconfirm, payload, hprepare, hpure⟩
    obtain rfl := Except.ok.inj hpure
    exact ⟨hconfirm, hprepare⟩
  · rintro ⟨hconfirm, hprepare⟩
    exact ⟨_, hconfirm, _, hprepare, rfl⟩

theorem callTool_after_of_error {s : ServerState σ} {failure : ToolFailure}
    (h : (preflight P registry request inputs).result s = .error failure) :
    (callTool P registry request inputs s).2 =
      (confirmCall P registry request inputs).after s := by
  rw [callTool_state, callBody, Service.after_bind_of_error h, preflight_after]

theorem callTool_after_of_ok {s : ServerState σ}
    (h : (preflight P registry request inputs).result s = .ok invocation) :
    SameGrants
      ((invoke P registry inputs invocation).after
        ((confirmCall P registry request inputs).after s))
      (callTool P registry request inputs s).2 := by
  rw [callTool_state, callBody, Service.after_bind_of_result h, preflight_after]
  generalize (confirmCall P registry request inputs).after s = t
  cases hinvoke : (invoke P registry inputs invocation).result t with
  | error failure =>
      rw [Service.after_bind_of_error hinvoke]
      exact Std.Refl.refl _
  | ok reply =>
      rw [Service.after_bind_of_result hinvoke]
      exact sameGrants_finish invocation reply _

theorem usesFollowCalls_of_unconfirmed {s : ServerState σ}
    (h : ∀ admission confirmation,
      (confirmCall P registry request inputs).result s ≠
        .ok (admission, some confirmation)) :
    UsesFollowCalls s (callTool P registry request inputs s).2 := by
  have hidle := confirmCall_idle h
  cases hpreflight : (preflight P registry request inputs).result s with
  | error failure =>
      rw [callTool_after_of_error hpreflight]
      exact UsesFollowCalls.of_idle hidle
  | ok invocation =>
      obtain ⟨hconfirm, -⟩ := preflight_result_iff.mp hpreflight
      have hgranted : invocation.granted = none := by
        cases hsome : invocation.granted with
        | none => rfl
        | some confirmation =>
            rw [hsome] at hconfirm
            exact absurd hconfirm (h _ confirmation)
      have hsame := callTool_after_of_ok hpreflight
      generalize (confirmCall P registry request inputs).after s = t at *
      have hinvoke : Idle t ((invoke P registry inputs invocation).after t) :=
        idle_invoke hgranted t
      have hend : Idle ((invoke P registry inputs invocation).after t)
          (callTool P registry request inputs s).2 :=
        Idle.of_same (congrArg GrantStore.grants hsame.grants) hsame.coreCalls
      exact UsesFollowCalls.of_idle
        (trans_of Idle hidle (trans_of Idle hinvoke hend))

/-- A call uses grants only for the operations it passes to the Core exactly
when its arguments are fit to be passed once it is confirmed. -/
theorem usesFollowCalls_callTool_iff (P : CallPlatform)
    (registry : ToolRegistry σ) (request : CallRequest) (inputs : CallInputs)
    (s : ServerState σ) :
    UsesFollowCalls s (callTool P registry request inputs s).2 ↔
      UsableOnceConfirmed P registry request inputs s := by
  by_cases hconfirmed : ∃ admission confirmation,
      (confirmCall P registry request inputs).result s =
        .ok (admission, some confirmation)
  swap
  · refine iff_of_true (usesFollowCalls_of_unconfirmed fun admission
      confirmation h => hconfirmed ⟨admission, confirmation, h⟩) ?_
    intro admission confirmation h
    exact absurd ⟨admission, confirmation, h⟩ hconfirmed
  obtain ⟨admission, confirmation, hconfirm⟩ := hconfirmed
  obtain ⟨hmem, hrequires, hused⟩ := confirmCall_used hconfirm
  have husable : UsableOnceConfirmed P registry request inputs s ↔
      registry.adapter.closed = false ∧
        ∃ payload, prepareCall P request admission (some confirmation) =
          .ok payload := by
    rw [UsableOnceConfirmed]
    simp only [hconfirm, Except.ok.injEq, Prod.mk.injEq, Option.some.injEq]
    constructor
    · exact fun h => h admission confirmation ⟨rfl, rfl⟩
    · rintro h _ _ ⟨rfl, rfl⟩
      exact h
  rw [husable]
  cases hpreflight : (preflight P registry request inputs).result s with
  | error failure =>
      rw [callTool_after_of_error hpreflight]
      refine iff_of_false hused.not_usesFollowCalls ?_
      rintro ⟨-, payload, hprepare⟩
      have hok : (preflight P registry request inputs).result s =
          .ok ⟨admission, some confirmation, payload⟩ :=
        preflight_result_iff.mpr ⟨hconfirm, hprepare⟩
      rw [hpreflight] at hok
      cases hok
  | ok invocation =>
      obtain ⟨hresult, hprepare⟩ := preflight_result_iff.mp hpreflight
      obtain ⟨rfl, hgranted⟩ := Prod.mk.inj
        (Except.ok.inj (hconfirm.symm.trans hresult))
      have hsame := callTool_after_of_ok hpreflight
      generalize (confirmCall P registry request inputs).after s = t at *
      cases hclosed : registry.adapter.closed with
      | true =>
          rw [invoke_after_of_closed hclosed] at hsame
          have hend : Used confirmation s
              (callTool P registry request inputs s).2 :=
            ⟨fun grantId => by rw [hsame.grants, hused.uses],
              by rw [hsame.coreCalls, hused.coreCalls]⟩
          exact iff_of_false hend.not_usesFollowCalls (by simp)
      | false =>
          obtain ⟨hgrants, hcalls⟩ := invoke_confirmed (P := P) inputs
            hgranted.symm hmem hrequires hclosed t
          rw [← hgranted] at hprepare
          exact iff_of_true (hused.usesFollowCalls
            (hsame.grants.trans hgrants) (hsame.coreCalls.trans hcalls))
            ⟨rfl, invocation.payload, hprepare⟩

/-! ## Sequences of calls -/

/-- A call with what the clocks and `uuid4` return during it. -/
structure TimedCall where
  request : CallRequest
  inputs : CallInputs

def callStep (P : CallPlatform) (registry : ToolRegistry σ)
    (s : ServerState σ) (call : TimedCall) : ServerState σ :=
  (callTool P registry call.request call.inputs s).2

end

/-! ## A grant that is used up for nothing -/

def requestChangesTool : EngineToolDescriptor :=
  { mutatingTool "report.review.request-changes" with
    requiresConfirmation := true }

def requestChangesBinding : ToolBinding where
  toolName := "report.review.request-changes"
  operation := "report.review.request-changes"
  inputSchema := .obj [("type", .str "object")]
  outputSchemaRef := some "report-review-event.schema.json"
  outputDataSchema := none

def reviewRegistry : ToolRegistry (List Json) where
  adapter :=
    { core := reportCore
      descriptors := ⟨[requestChangesTool], List.nodup_singleton _⟩
      closed := false
      unconfirmed := by decide }
  catalog := [("api-response.schema.json", .obj []),
    ("report-review-event.schema.json", .obj [])]
  available := []
  unavailable := []
  confirmations := .grants
  frontendSecurity := true
  allowedTools := ["report.review.request-changes"]
  budget := {}
  registered := [⟨requestChangesTool, requestChangesBinding⟩]
  wellFormed := by
    intro tool htool
    rw [List.mem_singleton.mp htool]
    exact ⟨rfl, rfl⟩

/-- Seventeen changes, each as long as the schema of the tool allows. -/
def longChanges : List String :=
  List.replicate 17 (String.ofList (List.replicate 4000 'x'))

def requestChanges : CallRequest where
  toolName := "report.review.request-changes"
  arguments := [("case_id", .str "a"), ("report_version_id", .str "v"),
    ("reason", .str "R"), ("expected_review_revision", .int 1),
    ("requested_changes", .arr (longChanges.map .str))]
  accessToken := some analystToken

def changesGrant : ConfirmationGrantRow where
  grantId := "g"
  actorId := "u"
  sessionId := "s"
  caseId := "a"
  toolName := "report.review.request-changes"
  requestFingerprint := "digest"
  targetIds := ["v"]
  expiresAt := ⟨1, some 0⟩
  maxUses := 1
  usesCount := 0

def grantedState : ServerState (List Json) where
  core := []
  grants := ⟨⟨[changesGrant], List.nodup_singleton _⟩, Table.empty _,
    ⟨0, some 0⟩⟩
  windows := []
  coreCalls := []

def changesConfirmation : ConfirmationRequest where
  grantId := "g"
  actorId := "u"
  sessionId := "s"
  caseId := "a"
  toolName := "report.review.request-changes"
  requestFingerprint := "digest"
  targetIds := ["v"]

def changesAdmission : Admission where
  tool := ⟨requestChangesTool, requestChangesBinding⟩
  actorId := some "u"
  sessionId := some "s"
  scope := analystSession.budgetScope asciiPlatform
  confirmation := some changesConfirmation

end ApexForensic.Mcp
