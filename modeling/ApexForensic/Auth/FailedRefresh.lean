import ApexForensic.Auth.SingleUse

/-!
# What a failed refresh leaves behind

The rotation is committed before the session, the user and the tenant are
checked.  A refresh that fails one of these checks has already replaced the
stored identifier by one that nobody was given.
-/

namespace ApexForensic.Auth

open ApexForensic.Support ApexForensic.Domain

variable {e : AuthError} {session : UserSession} {store : Store}
  {claims : RefreshClaims}

section

variable (P : Platform) (others : ℕ → Store → Store) (refreshToken : String)
  (inputs : CallInputs) (store : Store)

/-- The transactions of a refresh among those of others, each with the store
before and after it, and its result. -/
def refreshAmong : List (Store × Store) × Except AuthError TokenPair :=
  Script.runAmong others 0 (refresh P refreshToken inputs) store

/-- Every transaction leaves the store as it found it. -/
def Untouched (transactions : List (Store × Store)) : Prop :=
  ∀ t ∈ transactions, t.2 = t.1

/-- A refresh that fails, other than by detecting a reuse, changes nothing. -/
def FailureAtomic : Prop :=
  ∀ e, (refreshAmong P others refreshToken inputs store).2 = .error e →
    e ≠ .reuseDetected →
    Untouched (refreshAmong P others refreshToken inputs store).1

/-- The session is there, not expired and of the presented actor, and its user
is active and of its tenant. -/
def ChecksPass (claims : RefreshClaims) (atSession atUser : Store) : Prop :=
  ∃ session user,
    atSession.sessions.find? claims.sessionId = some session ∧
    inputs.now.utcMicros < session.expiresAt.utcMicros ∧
    session.actorId = claims.sub ∧
    atUser.users.find? claims.sub = some user ∧
    user.isActive = true ∧ user.tenantId = session.tenantId

/-- When the presented identifier is stored in a session that is not revoked,
the checks after the rotation pass. -/
def RotatesToIssue (claims : RefreshClaims) : Prop :=
  let atRotation := others 0 store
  let atSession := others 1
    (atRotation.rotate claims.sessionId claims.jti inputs.newJti).2.1
  (∃ s ∈ atRotation.sessions.rows,
      s.rotatable claims.sessionId claims.jti = true) →
    inputs.newJti = claims.jti ∨
      ChecksPass inputs claims atSession (others 2 atSession)

end

section

variable {P : Platform} {others : ℕ → Store → Store} {inputs : CallInputs}

theorem untouched_nil : Untouched [] :=
  fun _ h => absurd h List.not_mem_nil

theorem untouched_cons_iff {s t : Store} {rest : List (Store × Store)} :
    Untouched ((s, t) :: rest) ↔ t = s ∧ Untouched rest := by
  simp [Untouched]

/-! ## After a rotation that matched nothing -/

theorem refuse_untouched (claims : RefreshClaims) (n : ℕ) (store : Store)
    (h : (Script.runAmong others n (refuse claims inputs) store).2 = .error e)
    (he : e ≠ .reuseDetected) :
    Untouched (Script.runAmong others n (refuse claims inputs) store).1 := by
  simp only [refuse, Script.read, Script.runAmong_commit_bind] at h ⊢
  rw [untouched_cons_iff]
  refine ⟨rfl, ?_⟩
  cases hfound : (others n store).sessions.find? claims.sessionId with
  | none => exact untouched_nil
  | some session =>
      rw [hfound] at h
      dsimp only at h ⊢
      split
      · exact untouched_nil
      · rename_i hactive
        rw [if_neg hactive] at h
        split
        · exact untouched_nil
        · rename_i hjti
          rw [if_neg hjti] at h
          exact absurd (Except.error.inj h).symm he

/-! ## After a rotation that matched -/

theorem checkSession_eq_ok_iff {now : Datetime} {found : Option UserSession} :
    checkSession claims now found = .ok session ↔
      found = some session ∧
        now.utcMicros < session.expiresAt.utcMicros ∧
        session.actorId = claims.sub := by
  cases found with
  | none => simp [checkSession]
  | some s =>
      simp only [checkSession]
      split_ifs with hexpired hactor
      · simp only [Option.some.injEq, false_iff, not_and]
        rintro rfl hlt
        omega
      · simp only [Option.some.injEq, false_iff, not_and]
        rintro rfl _
        exact hactor
      · simp only [Except.ok.injEq, Option.some.injEq]
        constructor
        · rintro rfl
          exact ⟨rfl, not_le.mp hexpired, not_not.mp hactor⟩
        · exact fun h => h.1

theorem checkUser_eq_ok_iff {found : Option User} :
    checkUser session found = .ok () ↔
      ∃ user, found = some user ∧ user.isActive = true ∧
        user.tenantId = session.tenantId := by
  cases found with
  | none => simp [checkUser]
  | some user =>
      simp only [checkUser]
      split_ifs with hactive htenant
      · simp [hactive]
      · simp [htenant]
      · refine iff_of_true rfl ⟨user, rfl, ?_, not_not.mp htenant⟩
        simpa using hactive

theorem issueRotated_untouched (claims : RefreshClaims) (n : ℕ)
    (store : Store) :
    Untouched (Script.runAmong others n (issueRotated P claims inputs)
      store).1 := by
  simp only [issueRotated, Script.read, Script.runAmong_commit_bind]
  rw [untouched_cons_iff]
  refine ⟨rfl, ?_⟩
  cases checkSession claims inputs.now
      ((others n store).sessions.find? claims.sessionId) with
  | error e => exact untouched_nil
  | ok session =>
      simp only [Script.runAmong_commit_bind]
      rw [untouched_cons_iff]
      refine ⟨rfl, ?_⟩
      cases checkUser session
          ((others (n + 1) (others n store)).users.find? claims.sub) with
      | error e => exact untouched_nil
      | ok u =>
          simp only [Script.runAmong_commit_bind]
          rw [untouched_cons_iff]
          exact ⟨rfl, untouched_nil⟩

theorem checkSession_ne_reuse {now : Datetime} {found : Option UserSession}
    (h : checkSession claims now found = .error e) : e ≠ .reuseDetected := by
  rintro rfl
  cases found with
  | none => cases h
  | some session =>
      simp only [checkSession] at h
      split_ifs at h <;> cases h

theorem checkUser_ne_reuse {found : Option User}
    (h : checkUser session found = .error e) : e ≠ .reuseDetected := by
  rintro rfl
  cases found with
  | none => cases h
  | some user =>
      simp only [checkUser] at h
      split_ifs at h <;> cases h

theorem issueRotated_of_checksPass {n : ℕ}
    (hchecks : ChecksPass inputs claims (others n store)
      (others (n + 1) (others n store))) :
    ∃ tokens, (Script.runAmong others n (issueRotated P claims inputs)
      store).2 = .ok tokens := by
  obtain ⟨session, user, hsession, hlive, hactor, huser, hactive, htenant⟩ :=
    hchecks
  have hchecked : checkSession claims inputs.now
      ((others n store).sessions.find? claims.sessionId) = .ok session :=
    checkSession_eq_ok_iff.mpr ⟨hsession, hlive, hactor⟩
  have hverified : checkUser session ((others (n + 1)
      (others n store)).users.find? claims.sub) = .ok () :=
    checkUser_eq_ok_iff.mpr ⟨user, huser, hactive, htenant⟩
  simp only [issueRotated, Script.read, Script.runAmong_commit_bind,
    hchecked, hverified]
  exact ⟨_, rfl⟩

theorem issueRotated_of_not_checksPass {n : ℕ}
    (hchecks : ¬ ChecksPass inputs claims (others n store)
      (others (n + 1) (others n store))) :
    ∃ e, (Script.runAmong others n (issueRotated P claims inputs)
      store).2 = .error e ∧ e ≠ .reuseDetected := by
  simp only [issueRotated, Script.read, Script.runAmong_commit_bind]
  cases hsession : checkSession claims inputs.now
      ((others n store).sessions.find? claims.sessionId) with
  | error e => exact ⟨e, rfl, checkSession_ne_reuse hsession⟩
  | ok session =>
      simp only [Script.runAmong_commit_bind]
      cases huser : checkUser session
          ((others (n + 1) (others n store)).users.find? claims.sub) with
      | error e => exact ⟨e, rfl, checkUser_ne_reuse huser⟩
      | ok u =>
          obtain ⟨hfound, hlive, hactor⟩ := checkSession_eq_ok_iff.mp hsession
          obtain ⟨user, hu, hactive, htenant⟩ := checkUser_eq_ok_iff.mp huser
          exact absurd ⟨session, user, hfound, hlive, hactor, hu, hactive,
            htenant⟩ hchecks

/-! ## The rotation -/

theorem rowcount_ne_zero_iff {sessionId jti : String} :
    store.sessions.rowcount (UserSession.rotatable sessionId jti) ≠ 0 ↔
      ∃ s ∈ store.sessions.rows, s.rotatable sessionId jti = true := by
  rw [Ne, Table.rowcount_eq_zero_iff]
  simp

/-- A rotation that matches a session leaves the store as it is only when it
stores the presented identifier again. -/
theorem rotate_untouched_iff {sessionId jti newJti : String}
    (hmatch : ∃ s ∈ store.sessions.rows,
      s.rotatable sessionId jti = true) :
    (store.rotate sessionId jti newJti).2.1 = store ↔ newJti = jti := by
  obtain ⟨s, hs, hp⟩ := hmatch
  have hfields := hp
  simp only [UserSession.rotatable, decide_eq_true_eq] at hfields
  constructor
  · intro hsame
    have hmem : { s with currentRefreshJti := some newJti } ∈
        (store.rotate sessionId jti newJti).2.1.sessions.rows :=
      List.mem_map.mpr ⟨s, hs, by simp [hp]⟩
    rw [hsame] at hmem
    have hrow := Table.row_unique _ hmem hs rfl
    have hjti := congrArg UserSession.currentRefreshJti hrow
    rw [hfields.2.1] at hjti
    exact Option.some.inj hjti
  · rintro rfl
    have hself : ∀ t ∈ store.sessions.rows,
        UserSession.rotatable sessionId newJti t = true →
          { t with currentRefreshJti := some newJti } = t := by
      intro t _ ht
      simp only [UserSession.rotatable, decide_eq_true_eq] at ht
      rw [← ht.2.1]
    simp [Store.rotate, Table.update_eq_self hself]

/-! ## When a failed refresh changes nothing -/

/-- A failed refresh changes nothing if and only if no session is rotated for
which the checks then fail. -/
theorem failureAtomic_iff (P : Platform) (others : ℕ → Store → Store)
    (refreshToken : String) (inputs : CallInputs) (store : Store) :
    FailureAtomic P others refreshToken inputs store ↔
      ∀ claims, decodeRefreshToken P refreshToken = .ok claims →
        RotatesToIssue others inputs store claims := by
  cases hclaims : decodeRefreshToken P refreshToken with
  | error reason =>
      constructor
      · intro _ claims h
        cases h
      · intro _ e _ _
        rw [refreshAmong, refresh, hclaims]
        exact untouched_nil
  | ok claims =>
      suffices hiff : FailureAtomic P others refreshToken inputs store ↔
          RotatesToIssue others inputs store claims by
        rw [hiff]
        constructor
        · rintro h claims' heq
          obtain rfl := Except.ok.inj heq
          exact h
        · exact fun h => h claims rfl
      simp only [FailureAtomic, refreshAmong, refresh, hclaims, rotateToken,
        Script.runAmong_commit_bind, untouched_cons_iff, RotatesToIssue]
      generalize others 0 store = s
      by_cases hmatch : ∃ r ∈ s.sessions.rows,
          r.rotatable claims.sessionId claims.jti = true
      · have hcount : (s.rotate claims.sessionId claims.jti inputs.newJti).1 ≠
            0 := rowcount_ne_zero_iff.mpr hmatch
        rw [if_neg hcount, rotate_untouched_iff hmatch]
        by_cases hchecks : ChecksPass inputs claims
            (others 1 (s.rotate claims.sessionId claims.jti
              inputs.newJti).2.1)
            (others 2 (others 1 (s.rotate claims.sessionId claims.jti
              inputs.newJti).2.1))
        · obtain ⟨tokens, hok⟩ := issueRotated_of_checksPass (P := P) hchecks
          constructor
          · exact fun _ _ => Or.inr hchecks
          · intro _ e herror
            rw [hok] at herror
            cases herror
        · obtain ⟨e, herror, hne⟩ :=
            issueRotated_of_not_checksPass (P := P) hchecks
          constructor
          · exact fun h _ => Or.inl (h e herror hne).1
          · intro h e' _ _
            exact ⟨(h hmatch).resolve_right hchecks,
              issueRotated_untouched _ _ _⟩
      · have hcount : (s.rotate claims.sessionId claims.jti inputs.newJti).1 =
            0 := by
          by_contra hcount
          exact hmatch (rowcount_ne_zero_iff.mp hcount)
        rw [if_pos hcount, rotate_eq_self hcount]
        constructor
        · exact fun _ h => absurd h hmatch
        · exact fun _ e herror hne =>
            ⟨rfl, refuse_untouched _ _ _ herror hne⟩

end

/-! ## A refresh of an inactive user -/

/-- The user is inactive, and the stored identifier is replaced by one that
the failed refresh returns to nobody. -/
theorem refresh_of_inactive_rotates :
    ¬ FailureAtomic tokenPlatform (fun _ => id) "j1" (issuing "j2")
      (oneSession false) := by
  intro hatomic
  have hclaims : decodeRefreshToken tokenPlatform "j1" =
    .ok ⟨"u", "s", "j1"⟩ := rfl
  have hrotates := (failureAtomic_iff _ _ _ _ _).mp hatomic _ hclaims
  rcases hrotates ⟨_, List.mem_singleton_self _, rfl⟩ with hjti | hchecks
  · exact absurd hjti (by decide)
  · obtain ⟨session, user, -, -, -, huser, hactive, -⟩ := hchecks
    cases huser
    exact absurd hactive (by decide)

end ApexForensic.Auth
