import ApexForensic.Ai.EffectiveValue
import ApexForensic.Ai.KeywordCalls

/-!
# Keyword versions under any interleaving

Calls rely on one fact about each other: stored versions stay.  What a call has
read of a set therefore remains one of its versions, and the version stored on
top of it is the next of the set or is refused.
-/

namespace ApexForensic.Ai.Interleaved

open ApexForensic.Support ApexForensic.Domain ApexForensic.Search

/-- Each keyword of a version is in the next one, but for one that was
removed. -/
def Keeps (v w : KeywordSet) (removed : Option String) : Prop :=
  ∀ keyword ∈ v.keywords,
    keyword ∈ w.keywords ∨ removed = some keyword.keywordId

/-- The version that the record of a promotion names is stored and holds the
keyword that the record names. -/
def Names (store : KeywordStore) (promotion : KeywordPromotion) : Prop :=
  ∃ version ∈ store.versions,
    version.keywordSetVersionId = promotion.keywordSetVersionId ∧
    version.keywordSetId = promotion.keywordSetId ∧
    version.version = promotion.keywordSetVersion ∧
    ∀ keywordId, promotion.promotedKeywordId = some keywordId →
      keywordId ∈ version.keywords.map Keyword.keywordId

theorem Names.mono {store store' : KeywordStore} {promotion : KeywordPromotion}
    (h : store.versions <+: store'.versions) (hn : Names store promotion) :
    Names store' promotion := by
  obtain ⟨version, hversion, hnames⟩ := hn
  exact ⟨version, h.subset hversion, hnames⟩

/-! ## The protocol of the calls -/

variable {ι : Type} {P : Platform}

/-- Each version was stored by a call, which kept the version before it. -/
structure KeywordsRecorded (P : Platform)
    (h : History Store ι KeywordEvent) : Prop where
  law : h.store.keywords.VersionLaw P.toSearch
  follows : ∀ w ∈ h.store.keywords.versions, ∃ i removed,
    (i, .saved w removed) ∈ h.log ∧
      ∀ v ∈ h.store.keywords.versions, v.keywordSetId = w.keywordSetId →
        w.version = v.version + 1 → Keeps v w removed
  fingerprints_nodup :
    (h.store.promotions.map KeywordPromotion.promotionFingerprint).Nodup
  names : ∀ promotion ∈ h.store.promotions,
    Names h.store.keywords promotion

/-- What the calls agree on: stored versions stay. -/
def keywordProtocol (ι : Type) (P : Platform) :
    Protocol Store ι KeywordEvent PyError Unit KeywordRequest where
  inv := KeywordsRecorded P
  rely h k := h.store.keywords.versions <+: k.store.keywords.versions
  post _ _ _ _ := True
  refl _ := List.prefix_refl _
  trans := List.IsPrefix.trans
  post_of_rely _ _ := trivial

variable {h : History Store ι KeywordEvent} {i : ι} {request : KeywordRequest}

theorem KeywordsRecorded.save (hh : KeywordsRecorded P h)
    {set : KeywordSet} {keywords : KeywordStore} {removed : Option String}
    (hfollows : h.store.keywords.Follows set)
    (hkeeps : ∀ v ∈ h.store.keywords.versions,
      v.keywordSetId = set.keywordSetId → set.version = v.version + 1 →
        Keeps v set removed)
    (hsave : h.store.keywords.saveKeywordSet P.toSearch set = .ok keywords) :
    KeywordsRecorded P (h.after i
      ({ h.store with keywords := keywords }, [.saved set removed])) ∧
      keywords.versions = h.store.keywords.versions ++ [set] := by
  have hlaw := hh.law.save hfollows hsave
  have hnumber := hh.law.version_of_save hfollows hsave
  obtain ⟨-, hversions, -⟩ := KeywordStore.saveKeywordSet_eq_ok hsave
  have hprefix : h.store.keywords.versions <+: keywords.versions := by
    rw [hversions]
    exact List.prefix_append _ _
  refine ⟨⟨hlaw, fun w hw => ?_, hh.fingerprints_nodup, fun promotion hp =>
    (hh.names promotion hp).mono hprefix⟩, hversions⟩
  change w ∈ keywords.versions at hw
  change ∃ j removed', _ ∧ ∀ v ∈ keywords.versions, _
  rw [hversions] at hw ⊢
  rcases List.mem_append.mp hw with hold | hnew
  · obtain ⟨j, removed', hlog, hkept⟩ := hh.follows w hold
    refine ⟨j, removed', List.mem_append_left _ hlog,
      fun v hv hset hnext => ?_⟩
    rcases List.mem_append.mp hv with hv | hv
    · exact hkept v hv hset hnext
    · obtain rfl := List.mem_singleton.mp hv
      have hbounds := hh.law.version_bounds hold
      rw [← hset] at hbounds
      omega
  · obtain rfl := List.mem_singleton.mp hnew
    refine ⟨i, removed, List.mem_append_right _ (List.mem_singleton_self _),
      fun v hv hset hnext => ?_⟩
    rcases List.mem_append.mp hv with hv | hv
    · exact hkeeps v hv hset hnext
    · obtain rfl := List.mem_singleton.mp hv
      omega

/-! ## The steps of a call -/

theorem safe_readKeywordSet {keywordSetId : String}
    {f : KeywordSet → KeywordScript Unit}
    (hf : ∀ k version, (keywordProtocol ι P).rely h k →
      version ∈ k.store.keywords.versions →
      version.keywordSetId = keywordSetId →
      (f (KeywordStore.row version)).Safe (keywordProtocol ι P) i request k) :
    (readKeywordSet keywordSetId >>= f).Safe (keywordProtocol ι P) i request
      h := by
  refine Script.safe_query_bind (fun _ _ _ _ _ => trivial)
    fun k set hrely hk hget => ?_
  rw [getKeywordSet] at hget
  split at hget
  · rename_i found hfound
    obtain rfl := Except.ok.inj hget
    obtain ⟨version, hversion, rfl, hset⟩ := hk.law.mem_of_get hfound
    exact hf k version hrely hversion hset
  · cases hget

theorem safe_saveVersion {version : KeywordSet} {keywords : List Keyword}
    {status : KeywordSetStatus} {now newId : String}
    {removed : Option String} {f : KeywordSet → KeywordScript Unit}
    (hversion : version ∈ h.store.keywords.versions)
    (hkeeps : ∀ keyword ∈ version.keywords,
      keyword ∈ keywords ∨ removed = some keyword.keywordId)
    (hf : ∀ k updated, updated ∈ k.store.keywords.versions →
      updated.keywordSetId = version.keywordSetId →
      (f updated).Safe (keywordProtocol ι P) i request k) :
    (saveVersion P (KeywordStore.row version) keywords status now newId
      removed >>= f).Safe (keywordProtocol ι P) i request h := by
  refine Script.safe_attempt_bind (fun _ _ _ _ _ => trivial)
    fun k set t hrely hk hsaved => ?_
  obtain ⟨⟨next, keywords'⟩, hnew, hsaved⟩ := bind_ok hsaved
  obtain ⟨rfl, rfl⟩ := ok_pair_inj hsaved
  obtain ⟨hset, hkeywords, hsave⟩ := newKeywordSetVersion_eq_ok hnew
  have hnumber := newKeywordSetVersion_follows hnew
  have hmem := hrely.subset hversion
  change next.keywordSetId = version.keywordSetId at hset
  change next.version = version.version + 1 at hnumber
  obtain ⟨hrecorded, hversions⟩ := @KeywordsRecorded.save _ _ _ i hk _ _
    removed (Or.inr ⟨version, hmem, hset.symm, hnumber⟩) (fun v hv hsame hnext => by
      obtain rfl := hk.law.eq_of_version hv hmem (hsame.trans hset) (by omega)
      rw [Keeps, hkeywords]
      exact hkeeps) hsave
  refine ⟨hrecorded, ?_, hf _ _ ?_ hset⟩
  · change k.store.keywords.versions <+: keywords'.versions
    rw [hversions]
    exact List.prefix_append _ _
  · change next ∈ keywords'.versions
    rw [hversions]
    exact List.mem_append_right _ (List.mem_singleton_self _)

theorem safe_addKeyword {keywordSetId : String} {args : AddKeywordArgs}
    {inputs : AddKeywordInputs} {f : KeywordSet → KeywordScript Unit}
    (hf : ∀ k updated, updated ∈ k.store.keywords.versions →
      updated.keywordSetId = keywordSetId →
      (f updated).Safe (keywordProtocol ι P) i request k) :
    (addKeyword P keywordSetId args inputs >>= f).Safe (keywordProtocol ι P)
      i request h := by
  simp only [addKeyword, Script.bind_bind]
  refine safe_readKeywordSet fun k version hrely hversion hset => ?_
  refine Script.safe_done_bind (fun _ _ => trivial) fun keyword _ => ?_
  refine safe_saveVersion hversion (fun old hold => Or.inl ?_)
    fun l updated hupdated hsame => hf l updated hupdated (hsame.trans hset)
  exact List.mem_append_left _ (KeywordStore.mem_row_keywords.mpr hold)

theorem safe_savePromotion {promotion : KeywordPromotion}
    (hnames : Names h.store.keywords promotion) :
    (savePromotion promotion >>= fun _ => pure ()).Safe
      (keywordProtocol ι P) i request h := by
  refine Script.safe_attempt_bind (fun _ _ _ _ _ => trivial)
    fun k saved t hrely hk hsaved => ?_
  obtain ⟨promotions, hinsert, hsaved⟩ := bind_ok hsaved
  obtain ⟨rfl, rfl⟩ := ok_pair_inj hsaved
  obtain ⟨rfl, hnew⟩ := insertRow_eq_ok_iff.mp hinsert
  refine ⟨⟨hk.law, fun w hw => ?_, ?_, ?_⟩, List.prefix_refl _, trivial⟩
  · obtain ⟨j, removed, hlog, hkept⟩ := hk.follows w hw
    exact ⟨j, removed, List.mem_append_left _ hlog, hkept⟩
  · refine nodup_map_concat hk.fingerprints_nodup fun other hother heq => ?_
    have hclash := hnew _ (List.mem_cons_of_mem _ List.mem_cons_self)
      other hother
    simp [heq] at hclash
  · intro other hother
    rcases List.mem_append.mp hother with hold | hlast
    · exact hk.names other hold
    · obtain rfl := List.mem_singleton.mp hlast
      exact hnames.mono hrely

theorem mem_of_newKeywordId {before updated : KeywordSet}
    {keywordId : String} (h : newKeywordId before updated = some keywordId) :
    keywordId ∈ updated.keywords.map Keyword.keywordId := by
  have hmem := (List.mem_insertionSort (· ≤ ·)).mp (List.mem_of_head? h)
  exact (List.mem_filter.mp hmem).1

/-- A promotion that has read a version of the set names a keyword of a stored
version. -/
theorem safe_finishPromotion {plan : PromotionPlan} {args : PromoteArgs}
    {keywordInputs : AddKeywordInputs} {inputs : CallInputs}
    {version : KeywordSet} (hversion : version ∈ h.store.keywords.versions)
    (hset : plan.set = KeywordStore.row version) :
    (finishPromotion P plan args keywordInputs inputs >>= fun _ =>
      pure ()).Safe (keywordProtocol ι P) i request h := by
  rw [finishPromotion]
  cases plan.existing with
  | some promotion => exact trivial
  | none =>
      cases hduplicate : keywordSetDuplicate P plan.set plan.effectiveValue
          plan.matchMode false with
      | some duplicate =>
          refine safe_savePromotion ⟨version, hversion, ?_, ?_, ?_, ?_⟩
          · exact (congrArg KeywordSet.keywordSetVersionId hset).symm
          · exact (congrArg KeywordSet.keywordSetId hset).symm
          · exact (congrArg KeywordSet.version hset).symm
          · intro keywordId hnamed
            obtain rfl := Option.some.inj hnamed
            have hmem := List.mem_of_find?_eq_some hduplicate
            rw [hset, KeywordStore.mem_row_keywords] at hmem
            exact List.mem_map_of_mem hmem
      | none =>
          rw [Script.bind_bind]
          refine safe_addKeyword fun k updated hupdated hsame => ?_
          exact safe_savePromotion ⟨updated, hupdated, rfl, hsame, rfl,
            fun keywordId hnamed => mem_of_newKeywordId hnamed⟩

/-! ## Every call is safe -/

theorem safe_createKeywordSet {args : CreateKeywordSetArgs}
    {inputs : CreateKeywordSetInputs} :
    (createKeywordSet P args inputs >>= fun _ => pure ()).Safe
      (keywordProtocol ι P) i request h := by
  refine Script.safe_attempt_bind (fun _ _ _ _ _ => trivial)
    fun k set t hrely hk hsaved => ?_
  obtain ⟨⟨first, keywords⟩, hnew, hsaved⟩ := bind_ok hsaved
  obtain ⟨rfl, rfl⟩ := ok_pair_inj hsaved
  obtain ⟨hfirst, hsave⟩ := createKeywordSet_eq_ok hnew
  obtain ⟨hrecorded, hversions⟩ := @KeywordsRecorded.save _ _ _ i hk _ _
    none (Or.inl hfirst) (fun v hv _ hnext => by
      have hbounds := hk.law.version_bounds hv
      omega) hsave
  refine ⟨hrecorded, ?_, trivial⟩
  change k.store.keywords.versions <+: keywords.versions
  rw [hversions]
  exact List.prefix_append _ _

theorem safe_changeKeywords (op : KeywordOp) :
    (changeKeywords P op >>= fun _ => pure ()).Safe (keywordProtocol ι P) i
      request h := by
  cases op with
  | create args inputs => exact safe_createKeywordSet
  | add keywordSetId args inputs =>
      exact safe_addKeyword fun _ _ _ _ => trivial
  | remove keywordSetId keywordId versionNow versionId =>
      simp only [changeKeywords, removeKeyword, Script.bind_bind]
      refine safe_readKeywordSet fun k version hrely hversion hset => ?_
      refine Script.safe_done_bind (fun _ _ => trivial)
        fun keywords hkeywords => ?_
      refine safe_saveVersion hversion (fun keyword hkeyword => ?_)
        fun _ _ _ _ => trivial
      unfold withoutKeyword at hkeywords
      obtain ⟨-, hrest⟩ := check_ok hkeywords
      obtain rfl := Except.ok.inj hrest
      by_cases hid : keyword.keywordId = keywordId
      · exact Or.inr (congrArg some hid.symm)
      · refine Or.inl (List.mem_filter.mpr
          ⟨KeywordStore.mem_row_keywords.mpr hkeyword, ?_⟩)
        exact decide_eq_true hid
  | changeStatus keywordSetId status versionNow versionId =>
      simp only [changeKeywords, changeKeywordSetStatus, Script.bind_bind]
      refine safe_readKeywordSet fun k version hrely hversion hset => ?_
      refine Script.safe_done_bind (fun _ _ => trivial) fun _ _ => ?_
      exact safe_saveVersion hversion (fun keyword hkeyword =>
        Or.inl (KeywordStore.mem_row_keywords.mpr hkeyword))
        fun _ _ _ _ => trivial

theorem safe_keywordRequest (i : ι) (request : KeywordRequest)
    (h : History Store ι KeywordEvent) :
    (request.script P).Safe (keywordProtocol ι P) i request h := by
  cases request with
  | change op => exact safe_changeKeywords op
  | promote args keywordInputs inputs =>
      simp only [KeywordRequest.script, promoteAcceptedKeyword,
        Script.bind_bind]
      refine Script.safe_read_bind fun k₁ _ _ => ?_
      refine Script.safe_read_bind fun k₂ _ _ => ?_
      refine Script.safe_read_bind fun k₃ _ hk₃ => ?_
      refine Script.safe_read_bind fun k₄ hrely _ => ?_
      refine Script.safe_done_bind (fun _ _ => trivial) fun plan hplan => ?_
      obtain ⟨-, -, -, -, hget⟩ := promotionPlan_eq_ok hplan
      obtain ⟨version, hversion, hset, -⟩ :=
        hk₃.law.mem_of_get (getKeywordSet_eq_ok hget)
      exact safe_finishPromotion (hrely.subset hversion) hset

/-! ## What a call says that it removes -/

/-- The events of a call name what it is to remove. -/
def KeywordRequest.Causes (request : KeywordRequest) : KeywordEvent → Prop
  | .saved _ removed => removed = request.removes

/-- What the transactions of a call report. -/
abbrev Reports (request : KeywordRequest) (_ : Store)
    (t : Store × List KeywordEvent) : Prop :=
  ∀ event ∈ t.2, request.Causes event

theorem reports_nothing (s : Store) : Reports request s (s, []) :=
  fun _ h => absurd h List.not_mem_nil

theorem reports_saveVersion {current : KeywordSet} {keywords : List Keyword}
    {status : KeywordSetStatus} {now newId : String}
    {removed : Option String} (hremoved : removed = request.removes) :
    (saveVersion P current keywords status now newId removed).Respects
      (Reports request) := by
  refine Script.respects_attempt reports_nothing fun s set t hsaved => ?_
  obtain ⟨saved, -, hsaved⟩ := bind_ok hsaved
  obtain ⟨-, rfl⟩ := ok_pair_inj hsaved
  intro event hevent
  obtain rfl := List.mem_singleton.mp hevent
  exact hremoved

theorem reports_addKeyword {keywordSetId : String} {args : AddKeywordArgs}
    {inputs : AddKeywordInputs} (hremoved : request.removes = none) :
    (addKeyword P keywordSetId args inputs).Respects (Reports request) := by
  refine Script.respects_bind (Script.respects_query reports_nothing _)
    fun set => ?_
  refine Script.respects_bind (Script.respects_done _) fun keyword => ?_
  exact reports_saveVersion hremoved.symm

theorem reports_savePromotion {promotion : KeywordPromotion} :
    (savePromotion promotion).Respects (Reports request) := by
  refine Script.respects_attempt reports_nothing fun s a t hsaved => ?_
  obtain ⟨promotions, -, hsaved⟩ := bind_ok hsaved
  obtain ⟨-, rfl⟩ := ok_pair_inj hsaved
  exact fun event hevent => absurd hevent List.not_mem_nil

theorem reports_changeKeywords (op : KeywordOp) :
    (changeKeywords P op).Respects (Reports (.change op)) := by
  cases op with
  | create args inputs =>
      refine Script.respects_attempt reports_nothing fun s a t hsaved => ?_
      obtain ⟨saved, -, hsaved⟩ := bind_ok hsaved
      obtain ⟨-, rfl⟩ := ok_pair_inj hsaved
      intro event hevent
      obtain rfl := List.mem_singleton.mp hevent
      exact rfl
  | add keywordSetId args inputs => exact reports_addKeyword rfl
  | remove keywordSetId keywordId versionNow versionId =>
      refine Script.respects_bind (Script.respects_query reports_nothing _)
        fun set => ?_
      refine Script.respects_bind (Script.respects_done _) fun keywords => ?_
      exact reports_saveVersion rfl
  | changeStatus keywordSetId status versionNow versionId =>
      refine Script.respects_bind (Script.respects_query reports_nothing _)
        fun set => ?_
      refine Script.respects_bind (Script.respects_done _) fun _ => ?_
      exact reports_saveVersion rfl

theorem reports_finishPromotion {plan : PromotionPlan} {args : PromoteArgs}
    {keywordInputs : AddKeywordInputs} {inputs : CallInputs}
    (hremoved : request.removes = none) :
    (finishPromotion P plan args keywordInputs inputs).Respects
      (Reports request) := by
  rw [finishPromotion]
  cases plan.existing with
  | some promotion => exact Script.respects_done _
  | none =>
      cases keywordSetDuplicate P plan.set plan.effectiveValue plan.matchMode
          false with
      | some duplicate => exact reports_savePromotion
      | none =>
          exact Script.respects_bind (reports_addKeyword hremoved)
            fun updated => reports_savePromotion

theorem reports_script (P : Platform) (request : KeywordRequest) :
    (request.script P).Respects (Reports request) := by
  cases request with
  | change op =>
      exact Script.respects_bind (reports_changeKeywords op)
        fun _ => Script.respects_done _
  | promote args keywordInputs inputs =>
      refine Script.respects_bind ?_ fun _ => Script.respects_done _
      refine Script.respects_bind (fun s => ⟨reports_nothing s, trivial⟩)
        fun recommendations => ?_
      refine Script.respects_bind (fun s => ⟨reports_nothing s, trivial⟩)
        fun events => ?_
      refine Script.respects_bind (fun s => ⟨reports_nothing s, trivial⟩)
        fun keywords => ?_
      refine Script.respects_bind (fun s => ⟨reports_nothing s, trivial⟩)
        fun promotions => ?_
      refine Script.respects_bind (Script.respects_done _) fun plan => ?_
      exact reports_finishPromotion rfl

/-! ## Every interleaving -/

theorem keywordsRecorded_initial
    (recommendations : Table KeywordRecommendation.recommendationId)
    (events : List VerificationEvent) :
    @KeywordsRecorded ι P ⟨initialStore recommendations events, []⟩ :=
  ⟨KeywordStore.versionLaw_empty, fun _ hw => absurd hw List.not_mem_nil,
    List.nodup_nil, fun _ hp => absurd hp List.not_mem_nil⟩

variable [DecidableEq ι]

theorem sound_called (P : Platform)
    (recommendations : Table KeywordRecommendation.recommendationId)
    (events : List VerificationEvent) (moves : List (Move ι KeywordRequest)) :
    (called P recommendations events moves).Sound (keywordProtocol ι P) :=
  System.sound_reached
    (fun i request h _ => safe_keywordRequest i request h)
    (keywordsRecorded_initial recommendations events) moves

end ApexForensic.Ai.Interleaved
