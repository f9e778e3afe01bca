import ApexForensic.Auth.Requests

/-!
# Refresh tokens are redeemed once

A rotation takes the identifier it redeems out of its session, so each issued
identifier is redeemed at most as often as it was issued.  A revoked session
stays revoked, and its rotation matches nothing.
-/

namespace ApexForensic.Auth

open ApexForensic.Support ApexForensic.Domain

/-! ## Issued and redeemed identifiers -/

def Event.issued? : Event → Option String
  | opened _ jti => some jti
  | rotated _ _ newJti => some newJti
  | revoked _ => none

def Event.redeemed? : Event → Option String
  | rotated _ jti _ => some jti
  | _ => none

def Store.storedJtis (store : Store) : List String :=
  store.sessions.rows.filterMap UserSession.currentRefreshJti

section

variable {ι : Type}

/-- The identifiers of refresh tokens redeemed so far. -/
def redeemedJtis (log : List (ι × Event)) : List String :=
  log.filterMap fun e => e.2.redeemed?

/-- The identifiers of refresh tokens stored at first and issued since. -/
def issuedJtis (store : Store) (log : List (ι × Event)) : List String :=
  store.storedJtis ++ log.filterMap fun e => e.2.issued?

/-- The revocation of a session is not followed by its rotation. -/
def InOrder (a b : ι × Event) : Prop :=
  ∀ sessionId jti newJti, a.2 = .revoked sessionId →
    b.2 ≠ .rotated sessionId jti newJti

/-! ## The invariant -/

structure Invariant (initial : Store) (h : History Store ι Event) : Prop where
  counted : ∀ jti, (redeemedJtis h.log).count jti +
      h.store.storedJtis.count jti ≤
    (issuedJtis initial h.log).count jti
  revoked : ∀ i sessionId, (i, .revoked sessionId) ∈ h.log →
    ∃ s ∈ h.store.sessions.rows, s.sessionId = sessionId ∧ s.revokedAt ≠ none
  ordered : h.log.Pairwise InOrder

/-- Later histories keep the events and the sessions. -/
structure Grows (h k : History Store ι Event) : Prop where
  log : h.log ⊆ k.log
  sessions : ∀ s ∈ h.store.sessions.rows, ∃ t ∈ k.store.sessions.rows,
    t.sessionId = s.sessionId

/-- Tokens are returned for a rotation that redeemed the presented one. -/
def Redeemed (P : Platform) (i : ι) :
    Request → Except AuthError (Option TokenPair) →
      History Store ι Event → Prop
  | .refresh refreshToken _, .ok (some tokens), h =>
      ∃ claims, decodeRefreshToken P refreshToken = .ok claims ∧
        (i, .rotated claims.sessionId claims.jti tokens.refresh.jti) ∈ h.log
  | _, _, _ => True

theorem Redeemed.of_subset {P : Platform} {i : ι} {request : Request}
    {result : Except AuthError (Option TokenPair)}
    {h k : History Store ι Event} (hlog : h.log ⊆ k.log)
    (hredeemed : Redeemed P i request result h) :
    Redeemed P i request result k := by
  cases request with
  | refresh refreshToken inputs =>
      match result with
      | .ok (some tokens) =>
          obtain ⟨claims, hclaims, hmem⟩ := hredeemed
          exact ⟨claims, hclaims, hlog hmem⟩
      | .ok none => trivial
      | .error e => trivial
  | _ => trivial

/-- What the requests of the service agree on. -/
def singleUse (P : Platform) (initial : Store) :
    Protocol Store ι Event AuthError (Option TokenPair) Request where
  inv := Invariant initial
  rely := Grows
  post := Redeemed P
  refl h := ⟨List.Subset.refl _, fun s hs => ⟨s, hs, rfl⟩⟩
  trans hhk hkl := ⟨List.Subset.trans hhk.log hkl.log, fun s hs => by
    obtain ⟨t, ht, hid⟩ := hhk.sessions s hs
    obtain ⟨u, hu, hid'⟩ := hkl.sessions t ht
    exact ⟨u, hu, hid'.trans hid⟩⟩
  post_of_rely hrely := Redeemed.of_subset hrely.log

/-! ## What a transaction does to the invariant -/

theorem redeemedJtis_after (h : History Store ι Event) (i : ι)
    (next : Store × List Event) :
    redeemedJtis (h.after i next).log =
      redeemedJtis h.log ++ next.2.filterMap Event.redeemed? := by
  simp only [redeemedJtis, History.after, List.filterMap_append,
    List.filterMap_map]
  rfl

theorem issuedJtis_after (initial : Store) (h : History Store ι Event) (i : ι)
    (next : Store × List Event) :
    issuedJtis initial (h.after i next).log =
      issuedJtis initial h.log ++ next.2.filterMap Event.issued? := by
  simp only [issuedJtis, History.after, List.filterMap_append,
    List.filterMap_map, List.append_assoc]
  rfl

theorem grows_after {h : History Store ι Event} {i : ι}
    {next : Store × List Event}
    (hsessions : ∀ s ∈ h.store.sessions.rows, ∃ t ∈ next.1.sessions.rows,
      t.sessionId = s.sessionId) : Grows h (h.after i next) :=
  ⟨List.subset_append_left _ _, hsessions⟩

theorem sessions_update (t : Table UserSession.sessionId)
    (p : UserSession → Bool) (f : UserSession → UserSession)
    (hf : ∀ s, (f s).sessionId = s.sessionId) :
    ∀ s ∈ t.rows, ∃ u ∈ (t.update p f hf).rows,
      u.sessionId = s.sessionId := by
  intro s hs
  refine ⟨if p s then f s else s, List.mem_map.mpr ⟨s, hs, rfl⟩, ?_⟩
  by_cases hp : p s
  · simp [hp, hf]
  · simp [hp]

theorem grows_rotate (h : History Store ι Event) (i : ι)
    (sessionId jti newJti : String) :
    Grows h (h.after i (h.store.rotate sessionId jti newJti).2) :=
  grows_after (sessions_update h.store.sessions
    (UserSession.rotatable sessionId jti)
    (fun s => { s with currentRefreshJti := some newJti }) fun _ => rfl)

theorem grows_revoke (h : History Store ι Event) (i : ι) {store : Store}
    (hstore : store.sessions = h.store.sessions) (sessionIds : List String)
    (now : Datetime) : Grows h (h.after i (store.revoke sessionIds now)) := by
  refine grows_after ?_
  rw [← hstore]
  exact sessions_update store.sessions (fun s => s.sessionId ∈ sessionIds)
    (fun s => { s with revokedAt := some now }) fun _ => rfl

theorem storedJtis_update {store store' : Store}
    {p : UserSession → Bool} {f : UserSession → UserSession}
    {hf : ∀ s, (f s).sessionId = s.sessionId}
    (hsessions : store'.sessions = store.sessions.update p f hf)
    (hjti : ∀ s, (f s).currentRefreshJti = s.currentRefreshJti) :
    store'.storedJtis = store.storedJtis := by
  rw [Store.storedJtis, hsessions, Store.storedJtis, Table.update,
    List.filterMap_map]
  refine List.filterMap_congr fun s _ => ?_
  by_cases hp : p s
  · simp [hp, hjti]
  · simp [hp]

variable {initial : Store} {h : History Store ι Event}

theorem rotate_eq_self {store : Store} {sessionId jti newJti : String}
    (hzero : store.sessions.rowcount
      (UserSession.rotatable sessionId jti) = 0) :
    store.rotate sessionId jti newJti = (0, store, []) := by
  have hnone := Table.rowcount_eq_zero_iff.mp hzero
  have hsame : ∀ s ∈ store.sessions.rows,
      UserSession.rotatable sessionId jti s = true →
        { s with currentRefreshJti := some newJti } = s := by
    intro s hs hp
    rw [hnone s hs] at hp
    cases hp
  simp [Store.rotate, hzero, Table.update_eq_self hsame]

theorem storedJtis_rotate (store : Store) (sessionId jti newJti j : String) :
    (store.rotate sessionId jti newJti).2.1.storedJtis.count j +
        (if jti = j then store.sessions.rowcount
          (UserSession.rotatable sessionId jti) else 0) =
      store.storedJtis.count j +
        (if newJti = j then store.sessions.rowcount
          (UserSession.rotatable sessionId jti) else 0) := by
  have hbefore : ∀ s, UserSession.rotatable sessionId jti s = true →
      (s.currentRefreshJti == some j) = decide (jti = j) := by
    intro s hs
    simp only [UserSession.rotatable, decide_eq_true_eq] at hs
    rw [hs.2.1, beq_eq_decide]
    simp
  have hafter : ∀ s, UserSession.rotatable sessionId jti s = true →
      (some newJti == some j) = decide (newJti = j) := by
    intro s _
    rw [beq_eq_decide]
    simp
  have hupdate := Table.countP_update_of_agree store.sessions
    (UserSession.rotatable sessionId jti)
    (fun s => { s with currentRefreshJti := some newJti }) (fun _ => rfl)
    (fun s => s.currentRefreshJti == some j) hbefore hafter
  simpa [Store.storedJtis, List.count_filterMap, Store.rotate] using hupdate

theorem Invariant.rotate (hinv : Invariant initial h) (i : ι)
    (sessionId jti newJti : String) :
    Invariant initial (h.after i (h.store.rotate sessionId jti newJti).2) := by
  by_cases hzero : h.store.sessions.rowcount
      (UserSession.rotatable sessionId jti) = 0
  · rw [rotate_eq_self hzero, History.after_nil]
    exact hinv
  have hone : h.store.sessions.rowcount
      (UserSession.rotatable sessionId jti) = 1 := by
    have hle := Table.rowcount_le_one (t := h.store.sessions)
      (p := UserSession.rotatable sessionId jti) (k := sessionId)
      (fun s hs => by simp_all [UserSession.rotatable])
    omega
  have hevents : (h.store.rotate sessionId jti newJti).2.2 =
      [.rotated sessionId jti newJti] := by
    simp [Store.rotate, hzero]
  -- the session that the rotation matches is not revoked
  obtain ⟨s, hs, hmatch⟩ : ∃ s ∈ h.store.sessions.rows,
      UserSession.rotatable sessionId jti s = true := by
    by_contra hnone
    apply hzero
    rw [Table.rowcount_eq_zero_iff]
    intro s hs
    simpa using fun hp => hnone ⟨s, hs, hp⟩
  simp only [UserSession.rotatable, decide_eq_true_eq] at hmatch
  refine ⟨fun j => ?_, fun k sid hmem => ?_, ?_⟩
  · have hcounted := hinv.counted j
    have hstored := storedJtis_rotate h.store sessionId jti newJti j
    rw [redeemedJtis_after, issuedJtis_after, hevents, hone] at *
    simp only [List.filterMap_cons, List.filterMap_nil, Event.redeemed?,
      Event.issued?, List.count_append, List.count_singleton, beq_iff_eq]
    change _ + (h.store.rotate sessionId jti newJti).2.1.storedJtis.count j ≤ _
    omega
  · have hold : (k, .revoked sid) ∈ h.log := by
      simpa [History.after, hevents] using hmem
    obtain ⟨t, ht, hid, hrevoked⟩ := hinv.revoked k sid hold
    refine ⟨if UserSession.rotatable sessionId jti t then
      { t with currentRefreshJti := some newJti } else t,
      List.mem_map.mpr ⟨t, ht, rfl⟩, ?_, ?_⟩
    · split
      · exact hid
      · exact hid
    · split
      · exact hrevoked
      · exact hrevoked
  · rw [History.after, hevents]
    refine List.pairwise_append.mpr
      ⟨hinv.ordered, List.pairwise_singleton _ _, ?_⟩
    rintro ⟨k, event⟩ he b hb sid j j' hrevoked hrotated
    simp only [List.map_cons, List.map_nil, List.mem_singleton] at hb
    rw [hb] at hrotated
    obtain ⟨rfl, -, -⟩ := Event.rotated.inj hrotated
    dsimp only at hrevoked
    rw [hrevoked] at he
    obtain ⟨t, ht, hid, hnot⟩ := hinv.revoked k sessionId he
    obtain rfl := Table.row_unique _ hs ht (hmatch.1.trans hid.symm)
    exact hnot hmatch.2.2

theorem Invariant.revoke (hinv : Invariant initial h) (i : ι) {store : Store}
    (hstore : store.sessions = h.store.sessions) {sessionIds : List String}
    (hthere : ∀ sid ∈ sessionIds, ∃ s ∈ h.store.sessions.rows,
      s.sessionId = sid) (now : Datetime) :
    Invariant initial (h.after i (store.revoke sessionIds now)) := by
  have hrows : (store.revoke sessionIds now).1.sessions =
      h.store.sessions.update (fun s => s.sessionId ∈ sessionIds)
        (fun s => { s with revokedAt := some now }) fun _ => rfl := by
    rw [Store.revoke, hstore]
  have hrevoked : ∀ s ∈ h.store.sessions.rows,
      s.revokedAt ≠ none ∨ s.sessionId ∈ sessionIds →
      ∃ t ∈ (store.revoke sessionIds now).1.sessions.rows,
        t.sessionId = s.sessionId ∧ t.revokedAt ≠ none := by
    intro s hs hor
    rw [hrows]
    refine ⟨if s.sessionId ∈ sessionIds then
      { s with revokedAt := some now } else s,
      List.mem_map.mpr ⟨s, hs, by simp⟩, ?_, ?_⟩
    · split
      · rfl
      · rfl
    · split
      · simp
      · rename_i hother
        exact hor.resolve_right hother
  refine ⟨fun j => ?_, fun k sid hmem => ?_, ?_⟩
  · have hcounted := hinv.counted j
    rw [redeemedJtis_after, issuedJtis_after]
    have hredeemed : (store.revoke sessionIds now).2.filterMap
        Event.redeemed? = [] := by
      simp [Store.revoke, List.filterMap_map, Event.redeemed?, Function.comp_def]
    have hissued : (store.revoke sessionIds now).2.filterMap
        Event.issued? = [] := by
      simp [Store.revoke, List.filterMap_map, Event.issued?, Function.comp_def]
    have hstored : (store.revoke sessionIds now).1.storedJtis =
        h.store.storedJtis := storedJtis_update hrows fun _ => rfl
    rw [hredeemed, hissued, List.append_nil, List.append_nil]
    change _ + (store.revoke sessionIds now).1.storedJtis.count j ≤ _
    rw [hstored]
    exact hcounted
  · rcases List.mem_append.mp hmem with hold | hnew
    · obtain ⟨s, hs, rfl, hnot⟩ := hinv.revoked k sid hold
      exact hrevoked s hs (Or.inl hnot)
    · simp only [Store.revoke, List.mem_map] at hnew
      obtain ⟨event, ⟨id, hid, rfl⟩, heq⟩ := hnew
      obtain ⟨-, heq⟩ := Prod.mk.inj heq
      obtain rfl := Event.revoked.inj heq
      obtain ⟨s, hs, rfl⟩ := hthere id hid
      exact hrevoked s hs (Or.inr hid)
  · refine List.pairwise_append.mpr ⟨hinv.ordered, ?_, ?_⟩
    · rw [List.pairwise_map]
      refine List.pairwise_of_forall_mem_list fun a _ b hb sid j j' _ heq => ?_
      simp only [Store.revoke, List.mem_map] at hb
      obtain ⟨id, -, rfl⟩ := hb
      cases heq
    · rintro a _ ⟨k, event⟩ hb sid j j' _ heq
      simp only [Store.revoke, List.mem_map] at hb
      obtain ⟨event', ⟨id, -, rfl⟩, hpair⟩ := hb
      rw [← hpair] at heq
      cases heq

theorem Invariant.insert (hinv : Invariant initial h) (i : ι)
    {sessions : Table UserSession.sessionId} {session : UserSession}
    {jti : String} (hjti : session.currentRefreshJti = some jti)
    (hinsert : h.store.sessions.insert session = some sessions) :
    Invariant initial (h.after i
      ({ h.store with sessions }, [.opened session.sessionId jti])) := by
  obtain ⟨-, hrows⟩ := Table.insert_eq_some_iff.mp hinsert
  refine ⟨fun j => ?_, fun k sid hmem => ?_, ?_⟩
  · have hcounted := hinv.counted j
    rw [redeemedJtis_after, issuedJtis_after]
    have hstored : ({ h.store with sessions } : Store).storedJtis =
        h.store.storedJtis ++ [jti] := by
      simp [Store.storedJtis, hrows, hjti]
    change _ + ({ h.store with sessions } : Store).storedJtis.count j ≤ _
    simp only [hstored, List.filterMap_cons, List.filterMap_nil,
      Event.redeemed?, Event.issued?, List.append_nil, List.count_append]
    omega
  · have hold : (k, .revoked sid) ∈ h.log := by
      simpa [History.after] using hmem
    obtain ⟨s, hs, hid, hnot⟩ := hinv.revoked k sid hold
    refine ⟨s, ?_, hid, hnot⟩
    change s ∈ sessions.rows
    rw [hrows]
    exact List.mem_append_left _ hs
  · refine List.pairwise_append.mpr
      ⟨hinv.ordered, List.pairwise_singleton _ _, ?_⟩
    intro a _ b hb sid j j' _ heq
    obtain rfl := List.mem_singleton.mp hb
    cases heq

/-! ## Every request keeps it -/

variable {P : Platform} {i : ι}

theorem refuse_safe {refreshToken : String} {claims : RefreshClaims}
    {inputs inputs' : CallInputs} {h : History Store ι Event} :
    (some <$> refuse claims inputs).Safe (singleUse P initial) i
      (.refresh refreshToken inputs') h := by
  refine Script.safe_map_read_bind fun k _ _ => ?_
  cases hfound : k.store.sessions.find? claims.sessionId with
  | none => trivial
  | some session =>
      obtain ⟨hsession, hid⟩ := Table.find?_eq_some_iff.mp hfound
      dsimp only
      split
      · trivial
      split
      · trivial
      refine Script.safe_map_commit_bind fun l hrely hinv => ?_
      have hthere : ∀ sid ∈ [claims.sessionId],
          ∃ s ∈ l.store.sessions.rows, s.sessionId = sid := by
        intro sid hsid
        obtain ⟨t, ht, hkey⟩ := hrely.sessions session hsession
        exact ⟨t, ht, hkey.trans (hid.trans (List.mem_singleton.mp hsid).symm)⟩
      exact ⟨hinv.revoke i rfl hthere inputs.now,
        grows_revoke l i rfl _ _, trivial⟩

theorem issueRotated_safe {refreshToken : String} {claims : RefreshClaims}
    {inputs inputs' : CallInputs} {h : History Store ι Event}
    (hclaims : decodeRefreshToken P refreshToken = .ok claims)
    (hrotated : (i, .rotated claims.sessionId claims.jti inputs.newJti) ∈
      h.log) :
    (some <$> issueRotated P claims inputs).Safe (singleUse P initial) i
      (.refresh refreshToken inputs') h := by
  refine Script.safe_map_read_bind fun k hhk _ => ?_
  cases checkSession claims inputs.now
      (k.store.sessions.find? claims.sessionId) with
  | error e => trivial
  | ok session =>
      refine Script.safe_map_read_bind fun l hkl _ => ?_
      cases checkUser session (l.store.users.find? claims.sub) with
      | error e => trivial
      | ok u =>
          refine Script.safe_map_read_bind fun m hlm _ => ?_
          exact ⟨claims, hclaims, hlm.log (hkl.log (hhk.log hrotated))⟩

theorem refresh_safe (refreshToken : String) (inputs : CallInputs)
    (h : History Store ι Event) :
    (Request.script P (.refresh refreshToken inputs)).Safe
      (singleUse P initial) i (.refresh refreshToken inputs) h := by
  rw [Request.script, refresh]
  cases hclaims : decodeRefreshToken P refreshToken with
  | error reason => trivial
  | ok claims =>
      refine Script.safe_map_commit_bind fun k _ hinv => ?_
      refine ⟨hinv.rotate i _ _ _, grows_rotate k i _ _ _, ?_⟩
      split
      · exact refuse_safe
      · rename_i hmatched
        refine issueRotated_safe hclaims ?_
        refine List.mem_append_right _ (List.mem_map.mpr
          ⟨.rotated claims.sessionId claims.jti inputs.newJti, ?_, rfl⟩)
        rw [Store.rotate] at hmatched ⊢
        rw [if_neg hmatched]
        exact List.mem_cons_self

theorem login_safe (email password tenantId : String) (ttl : ℤ)
    (inputs : CallInputs) (h : History Store ι Event) :
    (Request.script P (.login email password tenantId ttl inputs)).Safe
      (singleUse P initial) i (.login email password tenantId ttl inputs)
      h := by
  refine Script.safe_map_read_bind fun k _ _ => ?_
  split
  · trivial
  · split
    · trivial
    split
    · trivial
    refine Script.safe_map_read_bind fun l _ _ => ?_
    refine Script.safe_map_commit_bind fun m _ hinv => ?_
    dsimp only
    split
    · rename_i sessions hinsert
      refine ⟨hinv.insert i rfl hinsert, grows_after fun s hs => ?_, trivial⟩
      refine ⟨s, ?_, rfl⟩
      change s ∈ sessions.rows
      rw [(Table.insert_eq_some_iff.mp hinsert).2]
      exact List.mem_append_left _ hs
    · rw [History.after_nil]
      exact ⟨hinv, (singleUse P initial).refl m, trivial⟩

theorem logout_safe (sessionId : String) (inputs : CallInputs)
    (h : History Store ι Event) :
    (Request.script P (.logout sessionId inputs)).Safe
      (singleUse P initial) i (.logout sessionId inputs) h := by
  refine Script.safe_map_read_bind fun k _ _ => ?_
  cases hfound : k.store.sessions.find? sessionId with
  | none => trivial
  | some session =>
      obtain ⟨hsession, hid⟩ := Table.find?_eq_some_iff.mp hfound
      dsimp only
      split
      · trivial
      refine Script.safe_map_write fun l hrely hinv => ?_
      have hthere : ∀ sid ∈ [sessionId],
          ∃ s ∈ l.store.sessions.rows, s.sessionId = sid := by
        intro sid hsid
        obtain ⟨t, ht, hkey⟩ := hrely.sessions session hsession
        exact ⟨t, ht, hkey.trans (hid.trans (List.mem_singleton.mp hsid).symm)⟩
      exact ⟨hinv.revoke i rfl hthere inputs.now,
        grows_revoke l i rfl _ _, trivial⟩

theorem deactivateUser_safe (actorId : String) (inputs : CallInputs)
    (h : History Store ι Event) :
    (Request.script P (.deactivateUser actorId inputs)).Safe
      (singleUse P initial) i (.deactivateUser actorId inputs) h := by
  refine Script.safe_map_read_bind fun k _ _ => ?_
  refine Script.safe_map_write fun l hrely hinv => ?_
  have hthere : ∀ sid ∈ (k.store.sessions.rows.filter fun s =>
        s.actorId = actorId && s.isActive).map UserSession.sessionId,
      ∃ s ∈ l.store.sessions.rows, s.sessionId = sid := by
    intro sid hsid
    obtain ⟨s, hs, rfl⟩ := List.mem_map.mp hsid
    exact hrely.sessions s (List.mem_filter.mp hs).1
  have hsessions : (l.store.deactivate actorId).sessions =
    l.store.sessions := rfl
  exact ⟨hinv.revoke i hsessions hthere inputs.now,
    grows_revoke l i hsessions _ _, trivial⟩

theorem script_safe (request : Request) (h : History Store ι Event) :
    (request.script P).Safe (singleUse P initial) i request h := by
  cases request with
  | login email password tenantId ttl inputs =>
      exact login_safe email password tenantId ttl inputs h
  | refresh refreshToken inputs => exact refresh_safe refreshToken inputs h
  | deactivateUser actorId inputs => exact deactivateUser_safe actorId inputs h
  | logout sessionId inputs => exact logout_safe sessionId inputs h

theorem invariant_initial (initial : Store) :
    Invariant initial (⟨initial, []⟩ : History Store ι Event) where
  counted j := by simp [redeemedJtis, issuedJtis]
  revoked i sid hmem := absurd hmem List.not_mem_nil
  ordered := List.Pairwise.nil

/-! ## Runs -/

/-- Each redeemed identifier was redeemed by one rotation, and by one request
if tokens were returned for it; no session is rotated after it was revoked. -/
structure SingleUse (P : Platform)
    (w : System Store ι Event AuthError (Option TokenPair) Request) :
    Prop where
  once : (redeemedJtis w.log).Nodup
  revoked : ∀ before i sessionId after,
    w.log = before ++ (i, .revoked sessionId) :: after →
    ∀ j jti newJti, (j, .rotated sessionId jti newJti) ∉ after
  rotated : ∀ i refreshToken inputs tokens,
    w.progress i = .finished (.refresh refreshToken inputs)
      (.ok (some tokens)) →
    ∃ claims, decodeRefreshToken P refreshToken = .ok claims ∧
      (i, .rotated claims.sessionId claims.jti tokens.refresh.jti) ∈ w.log
  redeemer : ∀ i j sessionId sessionId' jti newJti newJti',
    (i, .rotated sessionId jti newJti) ∈ w.log →
    (j, .rotated sessionId' jti newJti') ∈ w.log → i = j

theorem eq_of_nodup_filterMap {α β : Type} {f : α → Option β} {l : List α}
    (h : (l.filterMap f).Nodup) {a b : α} (ha : a ∈ l) (hb : b ∈ l) {c : β}
    (hfa : f a = some c) (hfb : f b = some c) : a = b := by
  by_contra hne
  have hpairs := List.pairwise_filterMap.mp h
  have hsymm : Std.Symm fun a a' : α =>
      ∀ x, f a = some x → ∀ y, f a' = some y → x ≠ y :=
    ⟨fun a a' haa' x hx y hy heq => haa' y hy x hx heq.symm⟩
  exact hpairs.forall ha hb hne c hfa c hfb rfl

end

/-! ## A token presented twice -/

/-- A platform whose refresh tokens are the identifiers they carry. -/
def tokenPlatform : Platform where
  jwtDecode token := .ok
    [("token_type", .str "refresh"), ("sub", .str "u"),
     ("session_id", .str "s"), ("jti", .str token), ("iat", .int 1),
     ("exp", .int 2)]
  verifyPassword _ _ := true
  upper := String.toUpper

def oneSession (isActive : Bool) : Store where
  users := ⟨[{ id := "u", email := "u@t", hashedPassword := "h",
               tenantId := "t", isActive := isActive }],
    List.nodup_singleton _⟩
  tenancies := [⟨"u", "case", "ANALYST"⟩]
  sessions := ⟨[{ sessionId := "s", actorId := "u", tenantId := "t",
                  createdAt := ⟨0, none⟩, expiresAt := ⟨1000000, none⟩,
                  revokedAt := none, currentRefreshJti := some "j1" }],
    List.nodup_singleton _⟩

def issuing (newJti : String) : CallInputs where
  now := ⟨1, some 0⟩
  newSessionId := ""
  newJti := newJti
  accessJti := "a"
  issuedAt := ⟨2, some 0⟩

/-- Two requests present the stored token, and a third the one that the first
was given. -/
def presentedTwice : List (Move ℕ Request) :=
  [.start 0 (.refresh "j1" (issuing "j2")),
   .start 1 (.refresh "j1" (issuing "j3")),
   .advance 0, .advance 1, .advance 1, .advance 1, .advance 0, .advance 0,
   .advance 0,
   .start 2 (.refresh "j2" (issuing "j4")), .advance 2, .advance 2]

example : (reached tokenPlatform (oneSession true) presentedTwice).log =
    [(0, .rotated "s" "j1" "j2"), (1, .revoked "s")] := by
  decide

end ApexForensic.Auth
