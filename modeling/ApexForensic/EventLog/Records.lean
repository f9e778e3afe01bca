import ApexForensic.EventLog.Lossless

/-!
# The records of a stream

Every element named `Event` is a record of its own when it ends, and is empty
in the one that contains it.  So the records are the top-level ones, whole and
in their order, exactly when none contains another.
-/

namespace ApexForensic.EventLog

open ApexForensic.Support ApexForensic.Domain

mutual

/-- How many elements of a tree are named `Event`. -/
def eventCount : Element → ℕ
  | .node tag _ _ children =>
      eventCountOf children + if localName tag = "Event" then 1 else 0

def eventCountOf : List Element → ℕ
  | [] => 0
  | child :: children => eventCount child + eventCountOf children

end

mutual

/-- No element named `Event` is inside another. -/
def RecordsApart : Element → Prop
  | .node tag _ _ children =>
      if localName tag = "Event" then eventCountOf children = 0
      else RecordsApartOf children

def RecordsApartOf : List Element → Prop
  | [] => True
  | child :: children => RecordsApart child ∧ RecordsApartOf children

end

/-! ## How many records there are -/

theorem length_endTags (e : Element) :
    (endTags e).1.length = eventCount e := by
  induction e using Element.induction with
  | hnode tag attrib text children ih =>
      have hchildren : (endTagsOfChildren children).1.length =
          eventCountOf children := by
        induction children with
        | nil => rfl
        | cons c children ihc =>
            obtain ⟨hc, hcs⟩ := List.forall_mem_cons.mp ih
            rw [endTagsOfChildren, eventCountOf, List.length_append, hc,
              ihc hcs]
      rw [endTags, eventCount]
      split
      · rw [List.length_append, hchildren]
        rfl
      · exact hchildren

theorem length_topLevelRecords_le (e : Element) :
    (topLevelRecords e).length ≤ eventCount e := by
  induction e using Element.induction with
  | hnode tag attrib text children ih =>
      rw [topLevelRecords, eventCount]
      split
      · exact Nat.le_add_left 1 _
      · induction children with
        | nil => exact Nat.le_refl 0
        | cons c children ihc =>
            obtain ⟨hc, hcs⟩ := List.forall_mem_cons.mp ih
            rw [topLevelRecordsOf, eventCountOf, List.length_append,
              Nat.add_zero]
            exact Nat.add_le_add hc (ihc hcs)

theorem recordsApart_of_length {e : Element}
    (h : eventCount e ≤ (topLevelRecords e).length) : RecordsApart e := by
  induction e using Element.induction with
  | hnode tag attrib text children ih =>
      rw [RecordsApart]
      rw [topLevelRecords, eventCount] at h
      by_cases htag : localName tag = "Event"
      · rw [if_pos htag]
        rw [if_pos htag, if_pos htag, List.length_singleton] at h
        omega
      · rw [if_neg htag]
        rw [if_neg htag, if_neg htag, Nat.add_zero] at h
        induction children with
        | nil => trivial
        | cons c children ihc =>
            obtain ⟨hc, hcs⟩ := List.forall_mem_cons.mp ih
            rw [topLevelRecordsOf, eventCountOf, List.length_append] at h
            have hfirst := length_topLevelRecords_le c
            have hrest : (topLevelRecordsOf children).length ≤
                eventCountOf children := by
              have hle := length_topLevelRecords_le
                (.node tag attrib text children)
              rwa [topLevelRecords, eventCount, if_neg htag, if_neg htag,
                Nat.add_zero] at hle
            exact ⟨hc (by omega), ihc hcs (by omega)⟩

/-! ## What the records are -/

theorem endTags_of_eventCount_eq_zero {e : Element} (h : eventCount e = 0) :
    endTags e = ([], e) := by
  induction e using Element.induction with
  | hnode tag attrib text children ih =>
      rw [eventCount] at h
      have hcount : eventCountOf children = 0 := by omega
      have hchildren : endTagsOfChildren children = ([], children) := by
        clear h
        induction children with
        | nil => rfl
        | cons c children ihc =>
            obtain ⟨hc, hcs⟩ := List.forall_mem_cons.mp ih
            rw [eventCountOf] at hcount
            rw [endTagsOfChildren, hc (by omega), ihc hcs (by omega)]
            rfl
      have htag : localName tag ≠ "Event" := by
        intro htag
        rw [if_pos htag] at h
        omega
      rw [endTags, hchildren, if_neg htag]

theorem RecordsApart.endTags {e : Element} (h : RecordsApart e) :
    (endTags e).1 = topLevelRecords e := by
  induction e using Element.induction with
  | hnode tag attrib text children ih =>
      rw [RecordsApart] at h
      rw [EventLog.endTags, topLevelRecords]
      by_cases htag : localName tag = "Event"
      · rw [if_pos htag] at h
        have hchildren : endTagsOfChildren children = ([], children) := by
          clear ih
          induction children with
          | nil => rfl
          | cons c children ihc =>
              rw [eventCountOf] at h
              rw [endTagsOfChildren, ihc (by omega),
                endTags_of_eventCount_eq_zero (by omega)]
              rfl
        rw [if_pos htag, if_pos htag, hchildren]
        rfl
      · rw [if_neg htag] at h
        rw [if_neg htag, if_neg htag]
        change (endTagsOfChildren children).1 = topLevelRecordsOf children
        induction children with
        | nil => rfl
        | cons c children ihc =>
            obtain ⟨hc, hcs⟩ := List.forall_mem_cons.mp ih
            rw [RecordsApartOf] at h
            rw [endTagsOfChildren, topLevelRecordsOf, hc h.1, ihc hcs h.2]

theorem endTags_eq_topLevelRecords_iff (e : Element) :
    (endTags e).1 = topLevelRecords e ↔ RecordsApart e := by
  constructor
  · intro h
    apply recordsApart_of_length
    rw [← length_endTags, h]
  · exact RecordsApart.endTags

/-! ## Values and records -/

/-- A record keeps the values of its event exactly when none is stored under
the name of another or outside of what is read; and a stream yields exactly
its top-level records when it is not too large and none contains another. -/
theorem keepsValues_iff_and_iterEventXml_iff (event : Element)
    (fileSize : ℕ) (document : Element) :
    (KeepsValues event ↔ ValuesApart event) ∧
      (iterEventXml fileSize document = .ok (topLevelRecords document) ↔
        fileSize ≤ maxEventXmlBytes ∧ RecordsApart document) := by
  constructor
  · constructor
    · intro h
      exact ⟨h.laterEventData, fun _ => h.dataNames, h.oneUserData,
        fun _ => h.userData⟩
    · exact ValuesApart.keepsValues
  · rw [iterEventXml]
    by_cases hsize : maxEventXmlBytes < fileSize
    · rw [if_pos hsize]
      refine iff_of_false (fun h => nomatch h) ?_
      rintro ⟨hle, -⟩
      exact Nat.not_lt_of_le hle hsize
    · rw [if_neg hsize, Except.ok.injEq, endTags_eq_topLevelRecords_iff]
      exact ⟨fun h => ⟨Nat.le_of_not_lt hsize, h⟩, And.right⟩

/-- An event whose data name a value twice. -/
def namedTwice (value : String) : Element :=
  .node "Event" [] none
    [.node "EventData" [] none
      [.node "Data" [("Name", "Address")] (some value) [],
        .node "Data" [("Name", "Address")] (some "10.0.0.2") []]]

/-- A record whose data contain an element named like a record. -/
def nestedRecord : Element :=
  .node "Events" [] none
    [.node "Event" [] none
      [.node "UserData" [] none [.node "Event" [] (some "inner") []]]]

/-- The first of two values of one name can be any, and a record inside
another is one more record and is missing in the other one. -/
theorem values_lost_and_record_split :
    (SameData (eventData (namedTwice "10.0.0.1"))
          (eventData (namedTwice "10.9.9.9")) ∧
        SameData (userData (namedTwice "10.0.0.1"))
          (userData (namedTwice "10.9.9.9")) ∧
        eventValues (namedTwice "10.0.0.1") ≠
          eventValues (namedTwice "10.9.9.9")) ∧
      iterEventXml 200 nestedRecord = .ok
        [.node "Event" [] (some "inner") [],
          .node "Event" [] none
            [.node "UserData" [] none [.node "Event" [] none []]]] ∧
      iterEventXml 200 nestedRecord ≠ .ok (topLevelRecords nestedRecord) := by
  refine ⟨⟨?_, ?_, ?_⟩, ?_, ?_⟩
  · have hkey : "Address" ∈
        ([("Address", optionalText (some "10.0.0.2"))] : Items).map
          Prod.fst := List.mem_singleton.mpr rfl
    change SameData
      (.obj (dictOf ([] ++ [("Address", optionalText (some "10.0.0.1")),
        ("Address", optionalText (some "10.0.0.2"))])))
      (.obj (dictOf ([] ++ [("Address", optionalText (some "10.9.9.9")),
        ("Address", optionalText (some "10.0.0.2"))])))
    exact sameData_of_overwritten hkey _ _
  · exact SameData.refl _
  · decide +kernel
  · rfl
  · intro h
    have hlength := congrArg List.length (Except.ok.inj h)
    exact absurd hlength (by decide +kernel)

end ApexForensic.EventLog
