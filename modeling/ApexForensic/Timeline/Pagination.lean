import ApexForensic.Timeline.Listing

/-!
# The pages of the timeline

`matching` is what a listing reads: the events that the filters select, in the
order of the columns.  Following the cursors returns exactly that list.  The
order of the columns is the order of time and id but for one case: an event
without a time has the column of an event at the last microsecond of the year
9999.  A cursor is taken by every listing.
-/

namespace ApexForensic.Timeline

open ApexForensic.Support ApexForensic.Domain

variable {i : Instant} {t : Option Datetime} {a : TimelineEvent}
  {events : List TimelineEvent} {cursor : Option String}

variable {P : Platform} {store : Store} {args : ListArgs}

/-! ## What a listing is about -/

/-- An aware datetime whose UTC value exists. -/
def InRange (t : Datetime) : Prop :=
  t.offsetSeconds.isSome = true ∧ ∃ i : Instant, i.micros = t.utcMicros

/-- What `list_events` checks of its arguments. -/
structure ListArgs.Valid (P : Platform) (store : Store) (args : ListArgs) :
    Prop where
  zone : ∃ caseTimezone,
    requireCase store.cases args.filters.caseId = .ok caseTimezone ∧
      validateTimezone P (selectedTimezone args.timezone caseTimezone) =
        .ok ()
  limit : 1 ≤ args.limit ∧ args.limit ≤ maxTimelineLimit
  timeFrom : ∀ t, args.filters.timeFrom = some t → InRange t
  timeTo : ∀ t, args.filters.timeTo = some t → InRange t

/-- The filters select the event; its time is compared as an instant. -/
def Filters.Matches (P : Platform) (filters : Filters)
    (event : TimelineEvent) : Prop :=
  filters.selects P event = true ∧
    (∀ t, filters.timeFrom = some t →
      ∃ i, event.normalizedUtc = some i ∧ t.utcMicros ≤ i.micros) ∧
    ∀ t, filters.timeTo = some t →
      ∃ i, event.normalizedUtc = some i ∧ i.micros ≤ t.utcMicros

/-- Events without a time rank above all others. -/
def timeRank (event : TimelineEvent) : WithTop ℤ :=
  event.normalizedUtc.elim ⊤ fun i => (i.micros : WithTop ℤ)

/-- The order of time and then of id, in a direction. -/
abbrev timelineOrder (descending : Bool) :
    TimelineEvent → TimelineEvent → Prop :=
  inDirection descending (orderBy timeRank TimelineEvent.timelineEventId)

def ListArgs.descending (P : Platform) (args : ListArgs) : Bool :=
  decide (P.upper args.order = "DESC")

/-- The text that a bound of the times is compared as. -/
def boundText (t : Option Datetime) : Option String :=
  t.bind fun t => (toJsonTimestamp t).toOption

variable (P store args) in
/-- The events a listing reads, in its order. -/
def matching : List TimelineEvent :=
  (store.events.rows.filter fun event =>
    args.filters.selects P event && withinTimes
      (boundText args.filters.timeFrom) (boundText args.filters.timeTo)
      event).insertionSort (eventOrder (args.descending P))

/-! ## Times and their texts -/

theorem InRange.toJsonTimestamp {t : Datetime} (h : InRange t) :
    ∃ i : Instant, i.micros = t.utcMicros ∧
      Domain.toJsonTimestamp t = .ok i.text := by
  obtain ⟨hoffset, i, hi⟩ := h
  obtain ⟨o, ho⟩ := Option.isSome_iff_exists.mp hoffset
  refine ⟨i, hi, ?_⟩
  rw [← toJsonTimestamp_toDatetime]
  simp only [Domain.toJsonTimestamp, Instant.toDatetime, ho, hi]

theorem mapM_toJsonTimestamp (h : ∀ d, t = some d → InRange d) :
    t.mapM toJsonTimestamp = .ok (boundText t) := by
  cases t with
  | none => rfl
  | some d =>
      obtain ⟨i, -, htext⟩ := (h d rfl).toJsonTimestamp
      simp only [Option.mapM_some, boundText, Option.bind_some, htext]
      rfl

theorem boundText_iff (le : String → String → Bool) (leMicros : ℤ → ℤ → Prop)
    (hle : ∀ j i : Instant,
      le j.text i.text = true ↔ leMicros j.micros i.micros)
    (h : ∀ d, t = some d → InRange d) (event : TimelineEvent) :
    ((boundText t).all fun t => event.utcText.any (le t)) = true ↔
      ∀ d, t = some d →
        ∃ i, event.normalizedUtc = some i ∧ leMicros d.utcMicros i.micros := by
  cases t with
  | none => simp [boundText]
  | some d =>
      obtain ⟨j, hj, htext⟩ := (h d rfl).toJsonTimestamp
      cases hutc : event.normalizedUtc with
      | none => simp [boundText, htext, TimelineEvent.utcText, hutc,
          Except.toOption]
      | some i => simp [boundText, htext, TimelineEvent.utcText, hutc,
          Except.toOption, hle, hj]

theorem mem_matching (hargs : args.Valid P store) {event : TimelineEvent} :
    event ∈ matching P store args ↔
      event ∈ store.events.rows ∧ args.filters.Matches P event := by
  rw [matching, List.mem_insertionSort, List.mem_filter, Bool.and_eq_true,
    withinTimes, Bool.and_eq_true,
    boundText_iff (fun t utc => t ≤ utc) (· ≤ ·) Instant.decide_text_le_iff
      hargs.timeFrom,
    boundText_iff (fun t utc => utc ≤ t) (· ≥ ·)
      (fun j i => Instant.decide_text_le_iff i j) hargs.timeTo, Filters.Matches]

/-! ## The order of the columns -/

def lastInstant : Instant := ⟨253402300799999999, by omega⟩

theorem text_lastInstant : lastInstant.text = noTimestamp := by
  decide +kernel

theorem Instant.text_le_noTimestamp (i : Instant) : i.text ≤ noTimestamp := by
  rw [← text_lastInstant, ← not_lt, Instant.text_lt_text_iff, not_lt]
  exact i.inRange.2

/-- An event without a time and one at the last instant have the same column;
their ids then decide against the order of time. -/
def Misplaced (a b : TimelineEvent) : Prop :=
  a.normalizedUtc = none ∧ b.normalizedUtc = some lastInstant ∧
    a.timelineEventId < b.timelineEventId

theorem sortTimestamp_of_none (h : a.normalizedUtc = none) :
    a.sortTimestamp = noTimestamp := by
  simp [TimelineEvent.sortTimestamp, TimelineEvent.utcText, h]

theorem sortTimestamp_of_some (h : a.normalizedUtc = some i) :
    a.sortTimestamp = i.text := by
  simp [TimelineEvent.sortTimestamp, TimelineEvent.utcText, h]

theorem timeRank_of_none (h : a.normalizedUtc = none) : timeRank a = ⊤ := by
  simp [timeRank, h]

theorem timeRank_of_some (h : a.normalizedUtc = some i) :
    timeRank a = (i.micros : WithTop ℤ) := by
  simp [timeRank, h]

theorem Instant.text_eq_noTimestamp_iff :
    i.text = noTimestamp ↔ i = lastInstant := by
  rw [← text_lastInstant, Instant.text_injective.eq_iff]

/-- The columns order two events as time and id do, unless they are
misplaced. -/
theorem columns_iff {b : TimelineEvent} (hab : ¬ Misplaced a b)
    (hba : ¬ Misplaced b a)
    (hid : a.timelineEventId = b.timelineEventId → a = b) :
    orderBy TimelineEvent.sortTimestamp TimelineEvent.timelineEventId a b ↔
      orderBy timeRank TimelineEvent.timelineEventId a b := by
  rw [orderBy, orderBy]
  cases ha : a.normalizedUtc with
  | none =>
      rw [sortTimestamp_of_none ha, timeRank_of_none ha]
      cases hb : b.normalizedUtc with
      | none =>
          rw [sortTimestamp_of_none hb, timeRank_of_none hb]
          simp
      | some j =>
          rw [sortTimestamp_of_some hb, timeRank_of_some hb]
          have hle := Instant.text_le_noTimestamp j
          simp only [not_lt.mpr hle, false_or, not_top_lt,
            WithTop.top_ne_coe, false_and, iff_false]
          rintro ⟨hj, hids⟩
          obtain rfl := Instant.text_eq_noTimestamp_iff.mp hj.symm
          rcases hids.lt_or_eq with hlt | heq
          · exact hab ⟨ha, hb, hlt⟩
          · rw [hid heq, hb] at ha
            cases ha
  | some i =>
      rw [sortTimestamp_of_some ha, timeRank_of_some ha]
      cases hb : b.normalizedUtc with
      | none =>
          rw [sortTimestamp_of_none hb, timeRank_of_none hb]
          simp only [WithTop.coe_lt_top, true_or, iff_true]
          rcases (Instant.text_le_noTimestamp i).lt_or_eq with hlt | heq
          · exact Or.inl hlt
          · obtain rfl := Instant.text_eq_noTimestamp_iff.mp heq
            exact Or.inr ⟨heq, not_lt.mp fun hlt => hba ⟨hb, ha, hlt⟩⟩
      | some j =>
          rw [sortTimestamp_of_some hb, timeRank_of_some hb]
          simp only [Instant.text_lt_text_iff, WithTop.coe_lt_coe,
            WithTop.coe_inj, Instant.micros_inj, Instant.text_injective.eq_iff]

theorem not_misplaced {descending : Bool} {b : TimelineEvent}
    (hcolumns : eventOrder descending a b)
    (htime : timelineOrder descending a b) :
    ¬ Misplaced a b ∧ ¬ Misplaced b a := by
  have hcolumn : ∀ {x y : TimelineEvent}, Misplaced x y →
      ¬ orderBy TimelineEvent.sortTimestamp TimelineEvent.timelineEventId
        y x := by
    rintro x y ⟨hx, hy, hlt⟩ h
    rw [orderBy, sortTimestamp_of_none hx, sortTimestamp_of_some hy,
      text_lastInstant] at h
    rcases h with h | ⟨-, h⟩
    · exact lt_irrefl _ h
    · exact not_lt.mpr h hlt
  have hrank : ∀ {x y : TimelineEvent}, Misplaced x y →
      ¬ orderBy timeRank TimelineEvent.timelineEventId x y := by
    rintro x y ⟨hx, hy, -⟩ h
    rw [orderBy, timeRank_of_none hx, timeRank_of_some hy] at h
    simp at h
  cases descending with
  | true => exact ⟨fun h => hcolumn h hcolumns, fun h => hrank h htime⟩
  | false => exact ⟨fun h => hrank h htime, fun h => hcolumn h hcolumns⟩

variable (P store args) in
theorem pairwise_matching :
    (matching P store args).Pairwise (eventOrder (args.descending P)) :=
  List.pairwise_insertionSort _ _

theorem mem_rows_of_mem_matching {event : TimelineEvent}
    (h : event ∈ matching P store args) : event ∈ store.events.rows :=
  List.mem_of_mem_filter ((List.mem_insertionSort _).mp h)

/-- The listing is in the order of time and id exactly when it has no
misplaced events. -/
theorem pairwise_timelineOrder_iff :
    (matching P store args).Pairwise (timelineOrder (args.descending P)) ↔
      ∀ a ∈ matching P store args, ∀ b ∈ matching P store args,
        ¬ Misplaced a b := by
  constructor
  · intro h a ha b hb hmisplaced
    have hboth : (matching P store args).Pairwise fun x y =>
        ¬ Misplaced x y ∧ ¬ Misplaced y x :=
      ((pairwise_matching P store args).and h).imp
        fun ⟨hcolumns, htime⟩ => not_misplaced hcolumns htime
    have hne : a ≠ b := by
      rintro rfl
      exact lt_irrefl _ hmisplaced.2.2
    have : Std.Symm fun x y : TimelineEvent =>
        ¬ Misplaced x y ∧ ¬ Misplaced y x := ⟨fun _ _ h => And.symm h⟩
    exact (hboth.forall ha hb hne).1 hmisplaced
  · intro h
    refine (pairwise_matching P store args).imp_of_mem fun {a b} ha hb hcol => ?_
    have hid : ∀ {x y : TimelineEvent}, x ∈ matching P store args →
        y ∈ matching P store args →
        x.timelineEventId = y.timelineEventId → x = y := fun hx hy =>
      store.events.row_unique (mem_rows_of_mem_matching hx)
        (mem_rows_of_mem_matching hy)
    cases hd : args.descending P with
    | true =>
        rw [hd] at hcol
        exact (columns_iff (h b hb a ha) (h a ha b hb) (hid hb ha)).mp hcol
    | false =>
        rw [hd] at hcol
        exact (columns_iff (h a ha b hb) (h b hb a ha) (hid ha hb)).mp hcol

/-! ## Pages -/

theorem separates_events (events : Table TimelineEvent.timelineEventId)
    (descending : Bool) : Separates (eventOrder descending) events.rows := by
  apply Separates.inDirection
  intro a ha b hb hab hba
  exact events.row_unique ha hb (orderBy_antisymm hab hba).2

theorem follows_eq (descending : Bool) (last event : TimelineEvent) :
    follows descending (last.sortTimestamp, last.timelineEventId) event =
      ! decide (eventOrder descending event last) := by
  rw [← decide_not, Bool.eq_iff_iff, decide_eq_true_iff, follows]
  cases descending with
  | true =>
      change _ ↔ ¬ orderBy _ _ last event
      rw [not_orderBy_iff]
      simp [eq_comm (a := event.sortTimestamp)]
  | false =>
      change _ ↔ ¬ orderBy _ _ event last
      rw [not_orderBy_iff]
      simp

variable (P store args) in
theorem nodup_matching : (matching P store args).Nodup := by
  rw [matching, (List.perm_insertionSort _ _).nodup_iff]
  apply List.Nodup.filter
  exact store.events.keys_nodup.of_map

variable (P args) in
/-- The cursor that a listing gives after an event. -/
def cursorOf (event : TimelineEvent) : String :=
  encodeTimelineCursor P (P.upper args.order) event

/-- A cursor is read back as the columns of the event, whatever the listing
that reads it. -/
theorem decodeTimelineCursor_encode (order : String) (event : TimelineEvent) :
    decodeTimelineCursor P (encodeTimelineCursor P order event) =
      .ok (event.sortTimestamp, event.timelineEventId) := by
  rw [decodeTimelineCursor, encodeTimelineCursor, P.cursorJson_cursorText,
    cursorPayload]
  have hid : getItem (.obj [("order", .str order),
      ("sort", optionalText event.utcText),
      ("timeline_event_id", .str event.timelineEventId)])
      "timeline_event_id" = .ok (.str event.timelineEventId) := rfl
  have hsort : cursorSort P (.obj [("order", .str order),
      ("sort", optionalText event.utcText),
      ("timeline_event_id", .str event.timelineEventId)]) =
        .ok event.sortTimestamp := by
    cases hutc : event.normalizedUtc with
    | none =>
        rw [sortTimestamp_of_none hutc]
        simp [cursorSort, TimelineEvent.utcText, hutc, optionalText, truthy]
    | some i =>
        have hne : i.text ≠ "" := by
          simp [Instant.text, String.ofList_eq_empty_iff]
        rw [sortTimestamp_of_some hutc]
        simp [cursorSort, TimelineEvent.utcText, hutc, optionalText, truthy,
          hne, P.bindText_str]
  simp only [hid, hsort, bind, Except.bind, pure, Except.pure, P.str_str]

theorem queryTimelineEvents_eq (hargs : args.Valid P store)
    (h : StandsAfter (cursorOf P args) (matching P store args) cursor events)
    (n : ℕ) :
    queryTimelineEvents P store.events args.filters (P.upper args.order)
      cursor n = .ok (events.take n) := by
  have hfrom := mapM_toJsonTimestamp hargs.timeFrom
  have hto := mapM_toJsonTimestamp hargs.timeTo
  cases cursor with
  | none =>
      rw [← show matching P store args = events from h, matching]
      simp only [queryTimelineEvents, hfrom, hto, Option.mapM_none, pure,
        bind, Except.bind, Except.pure, Option.all_none, Bool.and_true]
      rfl
  | some cursor =>
      obtain ⟨before, last, hmatching, rfl⟩ := h
      have hselected : (store.events.rows.filter fun event =>
          args.filters.selects P event && withinTimes
            (boundText args.filters.timeFrom) (boundText args.filters.timeTo)
            event && follows (args.descending P)
            (last.sortTimestamp, last.timelineEventId) event) =
          (store.events.rows.filter fun event =>
            args.filters.selects P event && withinTimes
              (boundText args.filters.timeFrom)
              (boundText args.filters.timeTo) event).filter
            fun event => ! decide (eventOrder (args.descending P) event
              last) := by
        rw [List.filter_filter]
        apply List.filter_congr
        intro event _
        rw [follows_eq, Bool.and_comm]
      have hsorted := pairwise_matching P store args
      have hnodup := nodup_matching P store args
      have hseparates : Separates (eventOrder (args.descending P))
          (matching P store args) :=
        ((separates_events store.events _).filter _).of_perm
          (List.perm_insertionSort _ _)
      simp only [queryTimelineEvents, hfrom, hto, Option.mapM_some, cursorOf,
        decodeTimelineCursor_encode, pure, bind, Except.bind, Except.pure,
        Functor.map, Except.map, Option.all_some]
      change Except.ok (List.take n (List.insertionSort
        (eventOrder (args.descending P)) (store.events.rows.filter fun event =>
          args.filters.selects P event && withinTimes
            (boundText args.filters.timeFrom) (boundText args.filters.timeTo)
            event && follows (args.descending P)
            (last.sortTimestamp, last.timelineEventId) event))) = _
      rw [hselected, insertionSort_filter
        ((separates_events store.events _).filter _), ← matching]
      rw [hmatching] at hsorted hnodup hseparates ⊢
      rw [filter_after_eq hsorted hnodup hseparates]

variable (P args) in
/-- The page of the first events of a list. -/
def firstPage (timezone : String) (events : List TimelineEvent) :
    TimelinePage where
  items := events.take args.limit.toNat
  page := {
    nextCursor := cursorAfter (cursorOf P args) args.limit.toNat events
    hasMore := decide (args.limit.toNat < events.length)
    returned := (events.take args.limit.toNat).length }
  timezone := timezone

theorem listEvents_eq_of_query (hargs : args.Valid P store)
    (h : queryTimelineEvents P store.events args.filters (P.upper args.order)
      cursor (args.limit.toNat + 1) =
        .ok (events.take (args.limit.toNat + 1))) :
    ∃ timezone,
      listEvents P store args cursor =
        .ok (firstPage P args timezone events) := by
  obtain ⟨⟨caseTimezone, hcase, hzone⟩, ⟨hlow, hhigh⟩, -, -⟩ := hargs
  have hlimit : ¬ (args.limit < 1 ∨ maxTimelineLimit < args.limit) := by
    omega
  have hmore : args.limit.toNat <
      (events.take (args.limit.toNat + 1)).length ↔
      args.limit.toNat < events.length := by
    rw [List.length_take]
    omega
  have hmin : min args.limit.toNat (args.limit.toNat + 1) =
      args.limit.toNat := by omega
  refine ⟨selectedTimezone args.timezone caseTimezone, ?_⟩
  simp only [listEvents, hcase, hzone, h, hlimit, if_false, hmore, hmin,
    List.take_take, pure, bind, Except.bind, Except.pure, firstPage,
    cursorAfter, decide_eq_true_eq]
  rfl

theorem listEvents_eq (hargs : args.Valid P store)
    (h : StandsAfter (cursorOf P args) (matching P store args) cursor
      events) :
    ∃ timezone, listEvents P store args cursor =
      .ok (firstPage P args timezone events) :=
  listEvents_eq_of_query hargs (queryTimelineEvents_eq hargs h _)

theorem ListArgs.Valid.limit_pos (hargs : args.Valid P store) :
    0 < args.limit.toNat := by
  have := hargs.limit.1
  omega

/-- Following the cursors reads the events that match, in the order of the
columns. -/
theorem follow_listEvents (hargs : args.Valid P store) :
    ∃ pages, follow (listEvents P store args) (·.page.nextCursor)
        (store.events.rows.length + 1) none = .ok pages ∧
      pages.flatMap (·.items) = matching P store args := by
  have hlength : (matching P store args).length < store.events.rows.length + 1 := by
    rw [matching, List.length_insertionSort]
    exact Nat.lt_succ_of_le (List.length_filter_le _ _)
  have hfetch : ∀ c events,
      StandsAfter (cursorOf P args) (matching P store args) c events →
      ∃ page, listEvents P store args c = .ok page ∧
        Fetched (StandsAfter (cursorOf P args) (matching P store args))
          (·.page.nextCursor) (·.items) events page ∧
        page.items.length ≤ args.limit.toNat := by
    intro c events hstands
    obtain ⟨timezone, hpage⟩ := listEvents_eq hargs hstands
    refine ⟨firstPage P args timezone events, hpage, ?_,
      List.length_take_le _ _⟩
    exact fetched_of_take hargs.limit_pos hstands rfl rfl
  have hstart : StandsAfter (cursorOf P args) (matching P store args) none
      (matching P store args) := rfl
  obtain ⟨pages, hpages, hitems, -⟩ := follow_eq_ok hfetch hstart hlength
  exact ⟨pages, hpages, hitems⟩

/-! ## Cursors of other listings -/

/-- The cursor was returned by a listing with these arguments. -/
def Issued (P : Platform) (store : Store) (args : ListArgs)
    (cursor : String) : Prop :=
  ∃ c page, listEvents P store args c = .ok page ∧
    page.page.nextCursor = some cursor

/-- The arguments ask for another order, or for other events. -/
def OtherQuery (P : Platform) (args args' : ListArgs) : Prop :=
  args.descending P ≠ args'.descending P ∨ args.filters ≠ args'.filters

/-- A listing for another order or other events rejects the cursors. -/
def CursorsConfined (P : Platform) (store : Store) (args : ListArgs) : Prop :=
  ∀ cursor, Issued P store args cursor → ∀ args', OtherQuery P args args' →
    ∃ error, listEvents P store args' (some cursor) = .error error

theorem query_of_listEvents_ok {page : TimelinePage}
    (h : listEvents P store args cursor = .ok page) :
    ∃ events, queryTimelineEvents P store.events args.filters
        (P.upper args.order) cursor (args.limit.toNat + 1) = .ok events ∧
      page.page.nextCursor = cursorAfter (cursorOf P args)
        args.limit.toNat events := by
  unfold listEvents at h
  obtain ⟨_, -, h⟩ := bind_ok h
  obtain ⟨-, h⟩ := check_ok h
  obtain ⟨_, -, h⟩ := bind_ok h
  obtain ⟨events, hevents, h⟩ := bind_ok h
  obtain rfl := Except.ok.inj h
  refine ⟨events, hevents, ?_⟩
  simp only [cursorAfter, decide_eq_true_eq]
  rfl

theorem Issued.eq_encode {cursor : String} (h : Issued P store args cursor) :
    ∃ event, cursor = cursorOf P args event := by
  obtain ⟨c, page, hpage, hnext⟩ := h
  obtain ⟨events, -, hcursor⟩ := query_of_listEvents_ok hpage
  rw [hcursor, cursorAfter, Option.ite_none_right_eq_some,
    Option.map_eq_some_iff] at hnext
  obtain ⟨-, last, -, rfl⟩ := hnext
  exact ⟨last, rfl⟩

theorem listEvents_takes_cursor {args' : ListArgs}
    (hvalid : args'.Valid P store) (event : TimelineEvent) :
    ∃ page, listEvents P store args' (some (cursorOf P args event)) =
      .ok page := by
  have hquery : ∃ events, queryTimelineEvents P store.events args'.filters
      (P.upper args'.order) (some (cursorOf P args event))
        (args'.limit.toNat + 1) =
      .ok (List.take (args'.limit.toNat + 1) events) := by
    simp only [queryTimelineEvents, mapM_toJsonTimestamp hvalid.timeFrom,
      mapM_toJsonTimestamp hvalid.timeTo, Option.mapM_some, cursorOf,
      decodeTimelineCursor_encode, pure, bind, Except.bind, Except.pure,
      Functor.map, Except.map]
    exact ⟨_, rfl⟩
  obtain ⟨events, hevents⟩ := hquery
  obtain ⟨timezone, hpage⟩ := listEvents_eq_of_query hvalid hevents
  exact ⟨_, hpage⟩

theorem length_of_query {n : ℕ} (hargs : args.Valid P store)
    (h : queryTimelineEvents P store.events args.filters (P.upper args.order)
      cursor n = .ok events) :
    events.length ≤ (matching P store args).length := by
  unfold queryTimelineEvents at h
  rw [mapM_toJsonTimestamp hargs.timeFrom,
    mapM_toJsonTimestamp hargs.timeTo] at h
  obtain ⟨_, hfrom, h⟩ := bind_ok h
  obtain rfl := Except.ok.inj hfrom
  obtain ⟨_, hto, h⟩ := bind_ok h
  obtain rfl := Except.ok.inj hto
  obtain ⟨after, -, h⟩ := bind_ok h
  obtain rfl := Except.ok.inj h
  rw [matching, List.length_insertionSort, List.length_take,
    List.length_insertionSort]
  refine (min_le_right _ _).trans ?_
  rw [← List.filter_filter, List.filter_comm]
  exact List.length_filter_le _ _

/-- The same listing in the other order. -/
def ListArgs.reversed (P : Platform) (args : ListArgs) : ListArgs :=
  { args with order := if args.descending P then "ASC" else "DESC" }

theorem descending_reversed :
    (args.reversed P).descending P = ! args.descending P := by
  obtain ⟨hasc, hdesc⟩ := P.upper_order
  rw [ListArgs.reversed]
  cases hd : args.descending P with
  | true => simp [ListArgs.descending, hasc]
  | false => simp [ListArgs.descending, hdesc]

/-- No listing rejects a cursor, so cursors are confined to their queries only
where none is issued. -/
theorem cursorsConfined_iff (hargs : args.Valid P store) :
    CursorsConfined P store args ↔
      (matching P store args).length ≤ args.limit := by
  constructor
  · intro h
    by_contra hlong
    have hlong : ¬ (matching P store args).length ≤ args.limit.toNat := by
      have := hargs.limit.1
      omega
    have hstart : StandsAfter (cursorOf P args) (matching P store args) none
        (matching P store args) := rfl
    obtain ⟨timezone, hpage⟩ := listEvents_eq hargs hstart
    have hsome : cursorAfter (cursorOf P args) args.limit.toNat
        (matching P store args) ≠ none := fun hnone =>
      hlong ((cursorAfter_eq_none_iff hargs.limit_pos).mp hnone)
    obtain ⟨cursor, hcursor⟩ := Option.ne_none_iff_exists'.mp hsome
    have hissued : Issued P store args cursor := ⟨none, _, hpage, hcursor⟩
    obtain ⟨event, rfl⟩ := hissued.eq_encode
    have hvalid : (args.reversed P).Valid P store :=
      ⟨hargs.zone, hargs.limit, hargs.timeFrom, hargs.timeTo⟩
    obtain ⟨error, herror⟩ := h _ hissued (args.reversed P)
      (Or.inl (by simp [descending_reversed]))
    obtain ⟨page, hok⟩ : ∃ page, listEvents P store (args.reversed P)
        (some (cursorOf P args event)) = .ok page :=
      listEvents_takes_cursor hvalid event
    rw [hok] at herror
    cases herror
  · rintro hshort cursor ⟨c, page, hpage, hnext⟩
    obtain ⟨events, hevents, hcursor⟩ := query_of_listEvents_ok hpage
    have hlength := length_of_query hargs hevents
    have hnone : cursorAfter (cursorOf P args) args.limit.toNat events =
        none := (cursorAfter_eq_none_iff hargs.limit_pos).mpr (by omega)
    rw [hcursor, hnone] at hnext
    cases hnext

/-! ## The timeline as a whole -/

/-- Following the cursors reads exactly the events that match, each once, in
the order of time and id. -/
def PagesInOrder (P : Platform) (store : Store) (args : ListArgs) : Prop :=
  ∃ pages, follow (listEvents P store args) (·.page.nextCursor)
      (store.events.rows.length + 1) none = .ok pages ∧
    (pages.flatMap (·.items)).Nodup ∧
    (∀ event, event ∈ pages.flatMap (·.items) ↔
      event ∈ store.events.rows ∧ args.filters.Matches P event) ∧
    (pages.flatMap (·.items)).Pairwise (timelineOrder (args.descending P))

/-- The pages are in order unless an event without a time has a smaller id
than one at the last instant; cursors are confined to their queries only when
one page holds all events, so that there are none. -/
theorem listEvents_pages (hargs : args.Valid P store) :
    (PagesInOrder P store args ↔
      ∀ a ∈ store.events.rows, ∀ b ∈ store.events.rows,
        args.filters.Matches P a → args.filters.Matches P b →
        ¬ Misplaced a b) ∧
    (CursorsConfined P store args ↔
      (matching P store args).length ≤ args.limit) := by
  refine ⟨?_, cursorsConfined_iff hargs⟩
  obtain ⟨pages, hpages, hitems⟩ := follow_listEvents hargs
  have horder : PagesInOrder P store args ↔
      (matching P store args).Pairwise (timelineOrder (args.descending P)) := by
    constructor
    · rintro ⟨pages', hpages', -, -, hordered⟩
      rw [hpages] at hpages'
      obtain rfl := Except.ok.inj hpages'
      rwa [hitems] at hordered
    · intro hordered
      refine ⟨pages, hpages, ?_, ?_, ?_⟩
      · rw [hitems]
        exact nodup_matching P store args
      · intro event
        rw [hitems, mem_matching hargs]
      · rwa [hitems]
  rw [horder, pairwise_timelineOrder_iff]
  constructor
  · intro h a ha b hb hmatch hmatch'
    exact h a ((mem_matching hargs).mpr ⟨ha, hmatch⟩) b
      ((mem_matching hargs).mpr ⟨hb, hmatch'⟩)
  · intro h a ha b hb
    obtain ⟨ha, hmatch⟩ := (mem_matching hargs).mp ha
    obtain ⟨hb, hmatch'⟩ := (mem_matching hargs).mp hb
    exact h a ha b hb hmatch hmatch'

/-! ## Two events on two pages -/

def utcZone : Zone where
  isoformat i := isoformatWithOffset i.micros 0
  toUtc micros :=
    if h : -62135596800000000 ≤ micros ∧ micros ≤ 253402300799999999 then
      .ok ⟨micros, h⟩
    else .error (.builtin .overflowError "date value out of range")

theorem toUpper_orders :
    String.ofList ("ASC".toList.map Char.toUpper) = "ASC" ∧
      String.ofList ("DESC".toList.map Char.toUpper) = "DESC" := by
  decide +kernel

/-- A platform for ASCII texts whose cursors are the JSON texts themselves,
and whose one time zone is UTC. -/
noncomputable def utcPlatform : Platform where
  casefold s := String.ofList (s.toList.map Char.toLower)
  upper s := String.ofList (s.toList.map Char.toUpper)
  sha256 bytes := String.ofList (bytes.data.toList.map fun b =>
    Char.ofNat b.toNat)
  str
    | .str s => s
    | value => String.ofList value.render
  int
    | .int n => some n
    | _ => none
  jsonText value := String.ofList value.sortKeys.render
  bindText
    | .str s => .ok s
    | value => .ok (String.ofList value.render)
  fromisoformat _ := none
  zoneInfo name :=
    if name = "UTC" then .ok utcZone
    else .error (.builtin .zoneInfoNotFoundError "No time zone found")
  cursorText payload := String.ofList payload.render
  cursorJson := Json.ofText
  upper_order := toUpper_orders
  str_str s := Eq.refl s
  bindText_str _ := rfl
  cursorJson_cursorText _ _ _ := Json.ofText_render _

def fileEvent (id : String) (utc : Option Instant) : TimelineEvent where
  timelineEventId := id
  caseId := "case"
  evidenceId := "evidence"
  sourceType := .fileSystemNode
  sourceId := "node"
  sourceRevision := 1
  eventType := .fileModified
  eventSubtype := "os.stat"
  title := "FILE_MODIFIED: /a"
  description := "a"
  rawTimestamp := none
  rawTimezone := none
  timestampSemantics := "modified"
  normalizedUtc := utc
  caseTimezone := "UTC"
  displayedCaseTime := none
  timezoneSource := .unknown
  timezoneConfidence := .unknown
  precision := .unknown
  analyzerId := none
  analyzerVersion := none
  rawLocator := .obj []
  citations := .arr []
  fields := []
  isPartial := false
  timelineRevision := 1
  createdAt := "t"
  dedupKey := id

/-- An event without a time, and one at the epoch. -/
def twoEvents : Store where
  cases := [("case", "UTC")]
  events := {
    rows := [fileEvent "1" none,
      fileEvent "2" (some ⟨0, Instant.zero_inRange⟩)]
    keys_nodup := by decide }

def onePerPage : ListArgs where
  filters := {
    caseId := "case"
    evidenceId := none
    sourceTypes := []
    eventTypes := []
    analyzerId := none
    keyword := none
    path := none
    artifactType := none
    isPartial := none
    confidence := none
    timeFrom := none
    timeTo := none }
  timezone := none
  limit := 1
  order := "asc"

theorem onePerPage_valid : onePerPage.Valid utcPlatform twoEvents where
  zone := ⟨"UTC", eq_ok_of_toOption (by decide +kernel),
    eq_ok_of_toOption (by decide +kernel)⟩
  limit := by decide
  timeFrom := fun t h => by cases h
  timeTo := fun t h => by cases h

theorem length_matching_twoEvents :
    (matching utcPlatform twoEvents onePerPage).length = 2 := by
  decide +kernel

theorem not_misplaced_twoEvents : ∀ a ∈ twoEvents.events.rows,
    ∀ b ∈ twoEvents.events.rows, ¬ Misplaced a b := by
  rintro a ha b hb ⟨-, hlast, -⟩
  simp only [twoEvents, List.mem_cons, List.not_mem_nil, or_false] at hb
  rcases hb with rfl | rfl
  · cases hlast
  · revert hlast
    decide

theorem listEvents_pages_twoEvents :
    PagesInOrder utcPlatform twoEvents onePerPage ∧
      ¬ CursorsConfined utcPlatform twoEvents onePerPage := by
  constructor
  · apply (listEvents_pages onePerPage_valid).1.mpr
    intro a ha b hb _ _
    exact not_misplaced_twoEvents a ha b hb
  · rw [(listEvents_pages onePerPage_valid).2, length_matching_twoEvents]
    decide

/-- The cursor of an ascending listing is taken by a descending one. -/
theorem descending_takes_cursor :
    ¬ ∀ (P : Platform) (store : Store) (args : ListArgs),
      args.Valid P store →
      PagesInOrder P store args ∧ CursorsConfined P store args := by
  intro h
  have hconfined := (h utcPlatform twoEvents onePerPage onePerPage_valid).2
  rw [cursorsConfined_iff onePerPage_valid, length_matching_twoEvents]
    at hconfined
  exact absurd hconfined (by decide)

end ApexForensic.Timeline
