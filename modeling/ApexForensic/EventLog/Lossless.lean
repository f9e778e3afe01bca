import ApexForensic.EventLog.Model

/-!
# What an event record keeps

The dictionaries of a record keep the texts of an event exactly when no two of
them are stored under one name, and the stream of records is that of the
top-level ones exactly when no record contains another.
-/

namespace ApexForensic.EventLog

open ApexForensic.Support ApexForensic.Domain

variable {e e' first : Element} {name : String}
  {children children' : List Element}

theorem Element.induction {motive : Element → Prop}
    (hnode : ∀ tag attrib text children, (∀ c ∈ children, motive c) →
      motive (.node tag attrib text children)) (element : Element) :
    motive element :=
  @Element.rec motive (fun children => ∀ c ∈ children, motive c)
    hnode (fun _ h => absurd h List.not_mem_nil)
    (fun _ _ hc hcs => List.forall_mem_cons.mpr ⟨hc, hcs⟩) element

/-! ## Shapes and values -/

mutual

/-- An element without its texts. -/
def Element.shape : Element → Element
  | .node tag attrib _ children => .node tag attrib none (shapes children)

def shapes : List Element → List Element
  | [] => []
  | child :: children => child.shape :: shapes children

end

mutual

/-- The texts of the elements without children. -/
def leafTexts : Element → List (Option String)
  | .node _ _ text children =>
      if children.isEmpty then [text] else leafTextsOf children

def leafTextsOf : List Element → List (Option String)
  | [] => []
  | child :: children => leafTexts child ++ leafTextsOf children

end

/-- The texts of the `Data` elements among some. -/
def dataTexts (children : List Element) : List (Option String) :=
  (children.filter fun child => localName child.tag = "Data").map Element.text

def childrenNamed (element : Element) (name : String) : List Element :=
  element.children.filter fun child => localName child.tag = name

/-- The texts that a record has to keep: those of the `Data` elements of its
`EventData`, and those of the leaves of its `UserData`. -/
def eventValues (element : Element) : List (Option String) :=
  ((childrenNamed element "EventData").flatMap fun eventData =>
      dataTexts eventData.children) ++
    (childrenNamed element "UserData").flatMap leafTexts

/-- Elements that differ from this one only in texts, and in a text to be
kept, have other data. -/
def KeepsValues (element : Element) : Prop :=
  ∀ element' : Element, element'.shape = element.shape →
    SameData (eventData element) (eventData element') →
    SameData (userData element) (userData element') →
      eventValues element = eventValues element'

/-! ## Names under which values are stored -/

/-- The names under which the `Data` elements are stored, from an ordinal
on. -/
def dataNames : ℕ → List Element → List String
  | _, [] => []
  | ordinal, child :: children =>
      if localName child.tag ≠ "Data" then dataNames ordinal children
      else
        match givenName child with
        | some name => name :: dataNames ordinal children
        | none =>
            ("Data" ++ decimal ordinal) :: dataNames (ordinal + 1) children

/-- The names under which an element's children and attributes are stored. -/
def storedNames (attrib : List (String × String)) (children : List Element) :
    List String :=
  children.map (fun child => localName child.tag) ++
    if attrib.isEmpty then [] else ["_attributes"]

mutual

/-- At every level below an element the names are distinct. -/
def NamesApart : Element → Prop
  | .node _ attrib _ children =>
      (storedNames attrib children).Nodup ∧ NamesApartOf children

def NamesApartOf : List Element → Prop
  | [] => True
  | child :: children => NamesApart child ∧ NamesApartOf children

end

/-- No two values of a record are stored under one name, and none is outside
of the elements that are read. -/
structure ValuesApart (element : Element) : Prop where
  laterEventData : ∀ later ∈ (childrenNamed element "EventData").tail,
    dataTexts later.children = []
  dataNames : ∀ first, firstChild element "EventData" = some first →
    (dataNames 0 first.children).Nodup
  oneUserData : (childrenNamed element "UserData").tail = []
  userData : ∀ first, firstChild element "UserData" = some first →
    first.children ≠ [] ∧ ∀ child ∈ first.children, NamesApart child

theorem shapes_eq_map (children : List Element) :
    shapes children = children.map Element.shape := by
  induction children with
  | nil => rfl
  | cons child children ih => rw [shapes, ih, List.map_cons]

theorem leafTextsOf_eq_flatMap (children : List Element) :
    leafTextsOf children = children.flatMap leafTexts := by
  induction children with
  | nil => rfl
  | cons child children ih => rw [leafTextsOf, ih, List.flatMap_cons]

theorem namesApartOf_iff :
    NamesApartOf children ↔ ∀ child ∈ children, NamesApart child := by
  induction children with
  | nil => exact iff_of_true trivial fun _ h => absurd h List.not_mem_nil
  | cons child children ih =>
      rw [NamesApartOf, List.forall_mem_cons, ih]

theorem childItems_eq_map (children : List Element) :
    childItems children = children.map fun child =>
      (localName child.tag, elementToData child) := by
  induction children with
  | nil => rfl
  | cons child children ih => rw [childItems, ih, List.map_cons]

theorem tag_of_shape (h : e'.shape = e.shape) : e'.tag = e.tag := by
  obtain ⟨_, _, _, _⟩ := e
  obtain ⟨_, _, _, _⟩ := e'
  rw [Element.shape, Element.shape] at h
  exact (Element.node.inj h).1

theorem attrib_of_shape (h : e'.shape = e.shape) : e'.attrib = e.attrib := by
  obtain ⟨_, _, _, _⟩ := e
  obtain ⟨_, _, _, _⟩ := e'
  rw [Element.shape, Element.shape] at h
  exact (Element.node.inj h).2.1

theorem children_of_shape (h : e'.shape = e.shape) :
    List.Forall₂ (fun c c' => c'.shape = c.shape) e.children e'.children := by
  obtain ⟨_, _, _, children⟩ := e
  obtain ⟨_, _, _, children'⟩ := e'
  rw [Element.shape, Element.shape, shapes_eq_map, shapes_eq_map] at h
  have hmap := (Element.node.inj h).2.2.2
  rw [← List.forall₂_eq_eq_eq, List.forall₂_map_left_iff,
    List.forall₂_map_right_iff] at hmap
  exact hmap.flip

/-! ## Elements of one shape -/

theorem forall₂_filter_of_shape
    (h : List.Forall₂ (fun c c' => c'.shape = c.shape) children children')
    (name : String) :
    List.Forall₂ (fun c c' => c'.shape = c.shape)
      (children.filter fun child => localName child.tag = name)
      (children'.filter fun child => localName child.tag = name) := by
  induction h with
  | nil => exact List.Forall₂.nil
  | @cons c c' children children' hc _ ih =>
      rw [List.filter_cons, List.filter_cons, tag_of_shape hc]
      split
      · exact List.Forall₂.cons hc ih
      · exact ih

theorem firstChild_eq_head? (element : Element) (name : String) :
    firstChild element name = (childrenNamed element name).head? := by
  rw [firstChild, childrenNamed, List.head?_filter]

theorem keys_eventDataItems (ordinal : ℕ) (children : List Element) :
    (eventDataItems ordinal children).map Prod.fst =
        dataNames ordinal children ∧
      (eventDataItems ordinal children).map Prod.snd =
        (dataTexts children).map optionalText := by
  induction children generalizing ordinal with
  | nil => exact ⟨rfl, rfl⟩
  | cons child children ih =>
      rw [eventDataItems, dataNames, dataTexts, List.filter_cons]
      by_cases h : localName child.tag = "Data"
      · rw [if_neg (not_not_intro h), if_neg (not_not_intro h),
          if_pos (decide_eq_true h)]
        cases givenName child with
        | some name =>
            exact ⟨congrArg (_ :: ·) (ih ordinal).1,
              congrArg (_ :: ·) (ih ordinal).2⟩
        | none =>
            exact ⟨congrArg (_ :: ·) (ih (ordinal + 1)).1,
              congrArg (_ :: ·) (ih (ordinal + 1)).2⟩
      · rw [if_pos h, if_pos h, if_neg (by simpa using h)]
        exact ih ordinal

theorem dataNames_of_shape
    (h : List.Forall₂ (fun c c' => c'.shape = c.shape) children children')
    (ordinal : ℕ) :
    dataNames ordinal children' = dataNames ordinal children := by
  induction h generalizing ordinal with
  | nil => rfl
  | cons hc _ ih =>
      rw [dataNames, dataNames, tag_of_shape hc, givenName, givenName,
        attrib_of_shape hc, ih, ih]

theorem keys_childItems (attrib : List (String × String))
    (children : List Element) :
    (childItems children ++ attributeItems attrib).map Prod.fst =
      storedNames attrib children := by
  rw [storedNames, List.map_append, childItems_eq_map, List.map_map,
    attributeItems]
  congr 1
  split <;> rfl

theorem elementToData_nil (tag : String) (attrib : List (String × String))
    (text : Option String) :
    elementToData (.node tag attrib text []) = optionalText text := by
  rw [elementToData]
  rfl

theorem leafTexts_nil (tag : String) (attrib : List (String × String))
    (text : Option String) : leafTexts (.node tag attrib text []) = [text] := by
  rw [leafTexts]
  rfl

theorem leafTexts_of_ne_nil (h : children ≠ []) (tag : String)
    (attrib : List (String × String)) (text : Option String) :
    leafTexts (.node tag attrib text children) =
      children.flatMap leafTexts := by
  rw [leafTexts, if_neg (by simpa using h), leafTextsOf_eq_flatMap]

theorem elementToData_of_ne_nil (h : children ≠ []) (tag : String)
    (attrib : List (String × String)) (text : Option String) :
    elementToData (.node tag attrib text children) =
      .obj (dictOf (childItems children ++ attributeItems attrib)) := by
  rw [elementToData, if_neg (by simpa using h), updateDict_dictOf]

theorem storedNames_of_shape
    (h : List.Forall₂ (fun c c' => c'.shape = c.shape) children children')
    (attrib : List (String × String)) :
    storedNames attrib children' = storedNames attrib children := by
  rw [storedNames, storedNames]
  congr 1
  induction h with
  | nil => rfl
  | cons hc _ ih => rw [List.map_cons, List.map_cons, ih, tag_of_shape hc]

theorem snd_childItems (children : List Element) :
    (childItems children).map Prod.snd = children.map elementToData := by
  rw [childItems_eq_map, List.map_map]
  rfl

theorem forall₂_of_append {α β : Type} {R : α → β → Prop} {l r : List α}
    {l' r' : List β} (hlength : l.length = l'.length)
    (h : List.Forall₂ R (l ++ r) (l' ++ r')) : List.Forall₂ R l l' := by
  have htake := List.forall₂_take l.length h
  rwa [List.take_left, hlength, List.take_left] at htake

theorem leafTextsOf_eq_of_forall₂
    (hshape : List.Forall₂ (fun c c' => c'.shape = c.shape) children children')
    (hdata : List.Forall₂ SameData (children.map elementToData)
      (children'.map elementToData))
    (h : ∀ c ∈ children, ∀ c' : Element, c'.shape = c.shape →
      SameData (elementToData c) (elementToData c') →
        leafTexts c = leafTexts c') :
    children.flatMap leafTexts = children'.flatMap leafTexts := by
  induction hshape with
  | nil => rfl
  | cons hc _ ih =>
      obtain ⟨hfirst, hrest⟩ := List.forall₂_cons.mp hdata
      obtain ⟨hhead, htail⟩ := List.forall_mem_cons.mp h
      rw [List.flatMap_cons, List.flatMap_cons, hhead _ hc hfirst,
        ih hrest htail]

theorem leafTexts_eq_of_sameData (hapart : NamesApart e)
    (hshape : e'.shape = e.shape)
    (h : SameData (elementToData e) (elementToData e')) :
    leafTexts e = leafTexts e' := by
  induction e using Element.induction generalizing e' with
  | hnode tag attrib text children ih =>
      have hchildren := children_of_shape hshape
      have hattrib := attrib_of_shape hshape
      obtain ⟨tag', attrib', text', children'⟩ := e'
      change attrib' = attrib at hattrib
      change List.Forall₂ _ children children' at hchildren
      subst hattrib
      rw [NamesApart, namesApartOf_iff] at hapart
      by_cases hne : children = []
      · subst hne
        obtain rfl := List.forall₂_nil_left_iff.mp hchildren
        rw [elementToData_nil, elementToData_nil,
          sameData_optionalText_iff] at h
        rw [leafTexts_nil, leafTexts_nil, h]
      · have hne' : children' ≠ [] := by
          rintro rfl
          exact hne (List.forall₂_nil_right_iff.mp hchildren)
        rw [elementToData_of_ne_nil hne, elementToData_of_ne_nil hne'] at h
        have hvalues := forall₂_sameData_of_nodup
          (by rw [keys_childItems]; exact hapart.1)
          (by rw [keys_childItems, keys_childItems,
            storedNames_of_shape hchildren]) h
        rw [List.map_append, List.map_append, snd_childItems,
          snd_childItems] at hvalues
        have hdata := forall₂_of_append (by
          rw [List.length_map, List.length_map, hchildren.length_eq]) hvalues
        rw [leafTexts_of_ne_nil hne, leafTexts_of_ne_nil hne']
        exact leafTextsOf_eq_of_forall₂ hchildren hdata
          fun c hc c' hshape hdata => ih c hc (hapart.2 c hc) hshape hdata

/-! ## Other texts -/

def markText (text : Option String) : Option String :=
  some (text.getD "" ++ "*")

mutual

/-- The element with other texts throughout. -/
def Element.mark : Element → Element
  | .node tag attrib text children =>
      .node tag attrib (markText text) (marks children)

def marks : List Element → List Element
  | [] => []
  | child :: children => child.mark :: marks children

end

theorem markText_ne (text : Option String) : markText text ≠ text := by
  rintro h
  rw [markText] at h
  cases text with
  | none => cases h
  | some s =>
      have hlength := congrArg String.length (Option.some.inj h)
      rw [Option.getD_some, String.length_append] at hlength
      exact absurd hlength (Nat.succ_ne_self _)

theorem marks_eq_map (children : List Element) :
    marks children = children.map Element.mark := by
  induction children with
  | nil => rfl
  | cons child children ih => rw [marks, ih, List.map_cons]

theorem shape_mark (e : Element) : e.mark.shape = e.shape := by
  induction e using Element.induction with
  | hnode tag attrib text children ih =>
      rw [Element.mark, Element.shape, Element.shape, marks_eq_map,
        shapes_eq_map, shapes_eq_map, List.map_map]
      congr 1
      exact List.map_congr_left ih

theorem leafTexts_mark (e : Element) :
    leafTexts e.mark = (leafTexts e).map markText := by
  induction e using Element.induction with
  | hnode tag attrib text children ih =>
      rw [Element.mark, marks_eq_map]
      by_cases hne : children = []
      · subst hne
        rfl
      · rw [leafTexts_of_ne_nil hne, leafTexts_of_ne_nil (by simpa using hne),
          List.flatMap_map, List.map_flatMap]
        exact List.flatMap_congr ih

theorem leafTexts_ne_nil (e : Element) : leafTexts e ≠ [] := by
  induction e using Element.induction with
  | hnode tag attrib text children ih =>
      cases children with
      | nil =>
          rw [leafTexts_nil]
          exact List.cons_ne_nil _ _
      | cons child children =>
          rw [leafTexts_of_ne_nil (List.cons_ne_nil _ _), List.flatMap_cons]
          exact List.append_ne_nil_of_left_ne_nil
            (ih child List.mem_cons_self) _

theorem map_markText_ne {texts : List (Option String)} (h : texts ≠ []) :
    texts.map markText ≠ texts := by
  cases texts with
  | nil => exact absurd rfl h
  | cons text texts =>
      intro heq
      exact markText_ne text (List.cons.inj heq).1

theorem leafTexts_mark_ne (e : Element) : leafTexts e ≠ leafTexts e.mark := by
  rw [leafTexts_mark]
  exact (map_markText_ne (leafTexts_ne_nil e)).symm

/-! ## Values that are not kept -/

theorem shape_replace (tag : String) (attrib : List (String × String))
    (text : Option String) {c c' : Element} (h : c'.shape = c.shape)
    (before after : List Element) :
    (Element.node tag attrib text (before ++ c' :: after)).shape =
      (Element.node tag attrib text (before ++ c :: after)).shape := by
  rw [Element.shape, Element.shape, shapes_eq_map, shapes_eq_map,
    List.map_append, List.map_append, List.map_cons, List.map_cons, h]

theorem flatMap_replace_ne {α β : Type} {f : α → List β} {x x' : α}
    (h : f x ≠ f x') (before after : List α) :
    (before ++ x :: after).flatMap f ≠ (before ++ x' :: after).flatMap f := by
  rw [List.flatMap_append, List.flatMap_append, List.flatMap_cons,
    List.flatMap_cons]
  intro heq
  exact h (List.append_cancel_right (List.append_cancel_left heq))

theorem append_cons_ne_nil {α : Type} (before : List α) (x : α)
    (after : List α) : before ++ x :: after ≠ [] :=
  List.append_ne_nil_of_right_ne_nil _ (List.cons_ne_nil _ _)

theorem exists_of_not_nodup {attrib : List (String × String)}
    (h : ¬ (storedNames attrib children).Nodup) :
    ∃ before c after, children = before ++ c :: after ∧
      localName c.tag ∈ storedNames attrib after := by
  induction children with
  | nil =>
      refine absurd ?_ h
      rw [storedNames]
      split
      · exact List.nodup_nil
      · exact List.nodup_singleton _
  | cons c children ih =>
      by_cases hmem : localName c.tag ∈ storedNames attrib children
      · exact ⟨[], c, children, rfl, hmem⟩
      · have hrest : ¬ (storedNames attrib children).Nodup := fun hnodup =>
          h (List.nodup_cons.mpr ⟨hmem, hnodup⟩)
        obtain ⟨before, d, after, rfl, hagain⟩ := ih hrest
        exact ⟨c :: before, d, after, rfl, hagain⟩

theorem items_split (attrib : List (String × String))
    (before : List Element) (c : Element) (after : List Element) :
    childItems (before ++ c :: after) ++ attributeItems attrib =
      childItems before ++ (localName c.tag, elementToData c) ::
        (childItems after ++ attributeItems attrib) := by
  rw [childItems_eq_map, childItems_eq_map, childItems_eq_map,
    List.map_append, List.map_cons, List.append_assoc, List.cons_append]

theorem exists_sameData_of_not_namesApart (h : ¬ NamesApart e) :
    ∃ e' : Element, e'.shape = e.shape ∧
      SameData (elementToData e) (elementToData e') ∧
        leafTexts e ≠ leafTexts e' := by
  induction e using Element.induction with
  | hnode tag attrib text children ih =>
      rw [NamesApart, namesApartOf_iff, not_and_or] at h
      -- one child is replaced, and its data are stored over or are the same
      have hreplace : ∃ before c c' after, children = before ++ c :: after ∧
          c'.shape = c.shape ∧ leafTexts c ≠ leafTexts c' ∧
            SameData (elementToData (.node tag attrib text children))
              (elementToData (.node tag attrib text
                (before ++ c' :: after))) := by
        rcases h with hnames | hbelow
        · obtain ⟨before, c, after, rfl, hmem⟩ := exists_of_not_nodup hnames
          refine ⟨before, c, c.mark, after, rfl, shape_mark c,
            leafTexts_mark_ne c, ?_⟩
          rw [elementToData_of_ne_nil (append_cons_ne_nil _ _ _),
            elementToData_of_ne_nil (append_cons_ne_nil _ _ _), items_split,
            items_split, tag_of_shape (shape_mark c)]
          exact sameData_of_overwritten (by rwa [keys_childItems]) _ _
        · push Not at hbelow
          obtain ⟨c, hc, hbelow⟩ := hbelow
          obtain ⟨before, after, rfl⟩ := List.append_of_mem hc
          obtain ⟨c', hshape, hdata, hne⟩ := ih c hc hbelow
          refine ⟨before, c, c', after, rfl, hshape, hne, ?_⟩
          rw [elementToData_of_ne_nil (append_cons_ne_nil _ _ _),
            elementToData_of_ne_nil (append_cons_ne_nil _ _ _), items_split,
            items_split, tag_of_shape hshape]
          exact sameData_of_item hdata _ _ _
      obtain ⟨before, c, c', after, rfl, hshape, hne, hdata⟩ := hreplace
      refine ⟨.node tag attrib text (before ++ c' :: after),
        shape_replace tag attrib text hshape before after, hdata, ?_⟩
      rw [leafTexts_of_ne_nil (append_cons_ne_nil _ _ _),
        leafTexts_of_ne_nil (append_cons_ne_nil _ _ _)]
      exact flatMap_replace_ne hne before after

/-! ## The values of an event -/

theorem childrenNamed_of_shape (h : e'.shape = e.shape) (name : String) :
    List.Forall₂ (fun c c' => c'.shape = c.shape)
      (childrenNamed e name) (childrenNamed e' name) :=
  forall₂_filter_of_shape (children_of_shape h) name

theorem dataTexts_eq_of_sameData
    (hshape : List.Forall₂ (fun c c' => c'.shape = c.shape) children children')
    (hnodup : (dataNames 0 children).Nodup)
    (h : SameData (.obj (dictOf (eventDataItems 0 children)))
      (.obj (dictOf (eventDataItems 0 children')))) :
    dataTexts children = dataTexts children' := by
  have hvalues := forall₂_sameData_of_nodup
    (by rw [(keys_eventDataItems 0 children).1]; exact hnodup)
    (by rw [(keys_eventDataItems 0 children).1,
      (keys_eventDataItems 0 children').1, dataNames_of_shape hshape]) h
  rw [(keys_eventDataItems 0 children).2, (keys_eventDataItems 0 children').2,
    List.forall₂_map_left_iff, List.forall₂_map_right_iff] at hvalues
  rw [← List.forall₂_eq_eq_eq]
  exact hvalues.imp fun _ _ => sameData_optionalText_iff.mp

theorem dataTexts_eq_nil_of_shape {later later' : List Element}
    (h : List.Forall₂ (fun c c' => c'.shape = c.shape) later later')
    (hnone : ∀ c ∈ later, dataTexts c.children = []) :
    ∀ c ∈ later', dataTexts c.children = [] := by
  induction h with
  | nil => exact hnone
  | @cons c c' later later' hc _ ih =>
      obtain ⟨hfirst, hrest⟩ := List.forall_mem_cons.mp hnone
      refine List.forall_mem_cons.mpr ⟨?_, ih hrest⟩
      have hlength :=
        (forall₂_filter_of_shape (children_of_shape hc) "Data").length_eq
      rw [dataTexts, List.map_eq_nil_iff] at hfirst ⊢
      rw [hfirst] at hlength
      exact List.eq_nil_of_length_eq_zero hlength.symm

theorem decimal_of_key {s t : String} {i j : ℕ}
    (h : s ++ "#" ++ decimal i = t ++ "#" ++ decimal j) : i = j := by
  have hdigits : ∀ (s : String) (n : ℕ),
      ((s ++ "#" ++ decimal n).toList.reverse.takeWhile (· ≠ '#')) =
        (Nat.toDigits 10 n).reverse := by
    intro s n
    have hno : ∀ c ∈ (Nat.toDigits 10 n).reverse, decide (c ≠ '#') = true := by
      intro c hc
      have hdigit := Json.isDigit_of_mem_toDigits (List.mem_reverse.mp hc)
      apply decide_eq_true
      rintro rfl
      exact absurd hdigit (by decide)
    rw [String.toList_append, decimal, String.toList_ofList,
      List.reverse_append, List.takeWhile_append_of_pos hno]
    simp
  have heq := congrArg (fun s : String =>
    s.toList.reverse.takeWhile (· ≠ '#')) h
  simp only [hdigits] at heq
  exact Json.toDigits_inj (List.reverse_injective heq)

theorem keys_userDataItems {index : ℕ} {key : String}
    (h : key ∈ (userDataItems index children).map Prod.fst) :
    ∃ s i, index ≤ i ∧ key = s ++ "#" ++ decimal i := by
  induction children generalizing index with
  | nil => exact absurd h List.not_mem_nil
  | cons c children ih =>
      rw [userDataItems, List.map_cons] at h
      rcases List.mem_cons.mp h with rfl | h
      · exact ⟨_, index, le_rfl, rfl⟩
      · obtain ⟨s, i, hi, rfl⟩ := ih h
        exact ⟨s, i, Nat.le_of_succ_le hi, rfl⟩

theorem nodup_userDataItems (index : ℕ) (children : List Element) :
    ((userDataItems index children).map Prod.fst).Nodup := by
  induction children generalizing index with
  | nil => exact List.nodup_nil
  | cons c children ih =>
      rw [userDataItems, List.map_cons]
      refine List.nodup_cons.mpr ⟨fun hmem => ?_, ih (index + 1)⟩
      obtain ⟨s, i, hi, heq⟩ := keys_userDataItems hmem
      exact absurd (decimal_of_key heq) (Nat.ne_of_lt hi)

theorem snd_userDataItems (index : ℕ) (children : List Element) :
    (userDataItems index children).map Prod.snd =
      children.map elementToData := by
  induction children generalizing index with
  | nil => rfl
  | cons c children ih =>
      rw [userDataItems, List.map_cons, ih, List.map_cons]

theorem userDataItems_of_shape
    (h : List.Forall₂ (fun c c' => c'.shape = c.shape) children children')
    (index : ℕ) : (userDataItems index children').map Prod.fst =
      (userDataItems index children).map Prod.fst := by
  induction h generalizing index with
  | nil => rfl
  | cons hc _ ih =>
      rw [userDataItems, userDataItems, List.map_cons, List.map_cons, ih,
        tag_of_shape hc]

theorem userDataItems_split (index : ℕ) (before : List Element) (c : Element)
    (after : List Element) :
    userDataItems index (before ++ c :: after) =
      userDataItems index before ++
        (localName c.tag ++ "#" ++ decimal (index + before.length),
          elementToData c) ::
            userDataItems (index + before.length + 1) after := by
  induction before generalizing index with
  | nil => rfl
  | cons b before ih =>
      rw [List.cons_append, userDataItems, ih, userDataItems,
        List.cons_append, List.length_cons, Nat.add_right_comm index 1,
        Nat.add_assoc index before.length 1]

theorem eventData_of_firstChild (h : firstChild e "EventData" = some first) :
    eventData e = .obj (dictOf (eventDataItems 0 first.children)) := by
  rw [eventData, h]

theorem userData_of_firstChild (h : firstChild e "UserData" = some first) :
    userData e = .obj (dictOf (userDataItems 0 first.children)) := by
  rw [userData, h]

theorem childrenNamed_cases (h : e'.shape = e.shape) (name : String) :
    (childrenNamed e name = [] ∧ childrenNamed e' name = []) ∨
      ∃ first later first' later',
        childrenNamed e name = first :: later ∧
        childrenNamed e' name = first' :: later' ∧
        firstChild e name = some first ∧ firstChild e' name = some first' ∧
        first'.shape = first.shape ∧
        List.Forall₂ (fun c c' => c'.shape = c.shape) later later' := by
  have hchildren := childrenNamed_of_shape h name
  rw [firstChild_eq_head?, firstChild_eq_head?]
  generalize childrenNamed e name = children at *
  generalize childrenNamed e' name = children' at *
  cases hchildren with
  | nil => exact Or.inl ⟨rfl, rfl⟩
  | cons hfirst hlater =>
      exact Or.inr ⟨_, _, _, _, rfl, rfl, rfl, rfl, hfirst, hlater⟩

theorem ValuesApart.keepsValues (h : ValuesApart e) : KeepsValues e := by
  intro e' hshape hevent huser
  have heventValues : (childrenNamed e "EventData").flatMap
      (fun eventData => dataTexts eventData.children) =
        (childrenNamed e' "EventData").flatMap
          fun eventData => dataTexts eventData.children := by
    rcases childrenNamed_cases hshape "EventData" with ⟨hnil, hnil'⟩ |
      ⟨first, later, first', later', heq, heq', hfirst, hfirst', hshape,
        hlater⟩
    · rw [hnil, hnil']
    · have hnone := h.laterEventData
      rw [heq, List.tail_cons] at hnone
      have hnone' := dataTexts_eq_nil_of_shape hlater hnone
      rw [eventData_of_firstChild hfirst,
        eventData_of_firstChild hfirst'] at hevent
      rw [heq, heq', List.flatMap_cons, List.flatMap_cons,
        dataTexts_eq_of_sameData (children_of_shape hshape)
          (h.dataNames first hfirst) hevent,
        List.flatMap_eq_nil_iff.mpr hnone, List.flatMap_eq_nil_iff.mpr hnone']
  have huserValues : (childrenNamed e "UserData").flatMap leafTexts =
      (childrenNamed e' "UserData").flatMap leafTexts := by
    rcases childrenNamed_cases hshape "UserData" with ⟨hnil, hnil'⟩ |
      ⟨first, later, first', later', heq, heq', hfirst, hfirst', hshape,
        hlater⟩
    · rw [hnil, hnil']
    · have hone := h.oneUserData
      rw [heq, List.tail_cons] at hone
      subst hone
      obtain rfl := List.forall₂_nil_left_iff.mp hlater
      obtain ⟨hne, hnames⟩ := h.userData first hfirst
      rw [userData_of_firstChild hfirst,
        userData_of_firstChild hfirst'] at huser
      have hchildren := children_of_shape hshape
      have hvalues := forall₂_sameData_of_nodup (nodup_userDataItems _ _)
        (userDataItems_of_shape hchildren 0) huser
      rw [snd_userDataItems, snd_userDataItems] at hvalues
      have hleaves := leafTextsOf_eq_of_forall₂ hchildren hvalues
        fun c hc c' hshape hdata =>
          leafTexts_eq_of_sameData (hnames c hc) hshape hdata
      obtain ⟨tag, attrib, text, children⟩ := first
      obtain ⟨tag', attrib', text', children'⟩ := first'
      change children ≠ [] at hne
      have hne' : children' ≠ [] := by
        rintro rfl
        exact hne (List.forall₂_nil_right_iff.mp hchildren)
      rw [heq, heq', List.flatMap_singleton, List.flatMap_singleton,
        leafTexts_of_ne_nil hne, leafTexts_of_ne_nil hne']
      exact hleaves
  rw [eventValues, eventValues, heventValues, huserValues]

/-! ## Values of an event that are not kept -/

section Replaced

variable {tag : String} {attrib : List (String × String)}
  {text : Option String} {before after : List Element} {c c' : Element}

theorem firstChild_of_first (hbefore : ∀ b ∈ before, localName b.tag ≠ name)
    (hc : localName c.tag = name) :
    firstChild (.node tag attrib text (before ++ c :: after)) name =
      some c := by
  refine List.find?_eq_some_iff_append.mpr
    ⟨decide_eq_true hc, before, after, rfl, fun b hb => ?_⟩
  rw [decide_eq_false (hbefore b hb)]
  rfl

theorem firstChild_replace (hshape : c'.shape = c.shape)
    (h : localName c.tag ≠ name ∨ ∃ b ∈ before, localName b.tag = name) :
    firstChild (.node tag attrib text (before ++ c' :: after)) name =
      firstChild (.node tag attrib text (before ++ c :: after)) name := by
  rw [firstChild, firstChild]
  change (before ++ c' :: after).find? _ = (before ++ c :: after).find? _
  rw [List.find?_append, List.find?_append, List.find?_cons, List.find?_cons,
    tag_of_shape hshape]
  rcases h with hne | ⟨b, hb, heq⟩
  · rw [decide_eq_false hne]
  · obtain ⟨first, hfirst⟩ := Option.isSome_iff_exists.mp
      (List.find?_isSome (p := fun e : Element => localName e.tag = name)
        |>.mpr ⟨b, hb, decide_eq_true heq⟩)
    rw [hfirst]
    rfl

theorem childrenNamed_replace (name : String) (c : Element) :
    childrenNamed (.node tag attrib text (before ++ c :: after)) name =
      before.filter (fun child => localName child.tag = name) ++
        (if localName c.tag = name then [c] else []) ++
          after.filter fun child => localName child.tag = name := by
  rw [childrenNamed]
  change (before ++ c :: after).filter _ = _
  rw [List.filter_append, List.filter_cons, List.append_assoc]
  congr 1
  by_cases h : localName c.tag = name
  · rw [if_pos (decide_eq_true h), if_pos h, List.singleton_append]
  · rw [if_neg (by simpa using h), if_neg h, List.nil_append]

theorem childrenNamed_replace_of_ne (hshape : c'.shape = c.shape)
    (h : localName c.tag ≠ name) :
    childrenNamed (.node tag attrib text (before ++ c' :: after)) name =
      childrenNamed (.node tag attrib text (before ++ c :: after)) name := by
  simp only [childrenNamed_replace, tag_of_shape hshape, if_neg h]

theorem values_replace_ne (values : Element → List (Option String))
    (hshape : c'.shape = c.shape) (hname : localName c.tag = name)
    (hne : values c ≠ values c') :
    (childrenNamed (.node tag attrib text (before ++ c :: after))
        name).flatMap values ≠
      (childrenNamed (.node tag attrib text (before ++ c' :: after))
        name).flatMap values := by
  simp only [childrenNamed_replace, tag_of_shape hshape, if_pos hname,
    List.append_assoc]
  exact flatMap_replace_ne hne _ _

theorem not_keepsValues_of_eventData (hshape : c'.shape = c.shape)
    (hname : localName c.tag = "EventData")
    (hne : dataTexts c.children ≠ dataTexts c'.children) (hdata : SameData
      (eventData (.node tag attrib text (before ++ c :: after)))
      (eventData (.node tag attrib text (before ++ c' :: after)))) :
    ¬ KeepsValues (.node tag attrib text (before ++ c :: after)) := by
  intro hkeeps
  have hother : localName c.tag ≠ "UserData" := by
    rw [hname]
    decide
  have huser : userData (.node tag attrib text (before ++ c' :: after)) =
      userData (.node tag attrib text (before ++ c :: after)) := by
    rw [userData, userData, firstChild_replace hshape (Or.inl hother)]
  have hvalues := hkeeps _ (shape_replace tag attrib text hshape before after)
    hdata (by rw [huser]; exact SameData.refl _)
  rw [eventValues, eventValues, childrenNamed_replace_of_ne hshape hother]
    at hvalues
  exact values_replace_ne (fun e => dataTexts e.children) hshape hname hne
    (List.append_cancel_right hvalues)

theorem not_keepsValues_of_userData (hshape : c'.shape = c.shape)
    (hname : localName c.tag = "UserData") (hne : leafTexts c ≠ leafTexts c')
    (hdata : SameData
      (userData (.node tag attrib text (before ++ c :: after)))
      (userData (.node tag attrib text (before ++ c' :: after)))) :
    ¬ KeepsValues (.node tag attrib text (before ++ c :: after)) := by
  intro hkeeps
  have hother : localName c.tag ≠ "EventData" := by
    rw [hname]
    decide
  have hevent : eventData (.node tag attrib text (before ++ c' :: after)) =
      eventData (.node tag attrib text (before ++ c :: after)) := by
    rw [eventData, eventData, firstChild_replace hshape (Or.inl hother)]
  have hvalues := hkeeps _ (shape_replace tag attrib text hshape before after)
    (by rw [hevent]; exact SameData.refl _) hdata
  rw [eventValues, eventValues, childrenNamed_replace_of_ne hshape hother]
    at hvalues
  exact values_replace_ne leafTexts hshape hname hne
    (List.append_cancel_left hvalues)

end Replaced

theorem exists_of_mem_tail_filter {α : Type} {p : α → Bool} {l : List α} {x : α}
    (h : x ∈ (l.filter p).tail) :
    ∃ before after, l = before ++ x :: after ∧ p x = true ∧
      ∃ y ∈ before, p y = true := by
  induction l with
  | nil => exact absurd h List.not_mem_nil
  | cons a l ih =>
      rw [List.filter_cons] at h
      by_cases ha : p a = true
      · rw [if_pos ha, List.tail_cons] at h
        obtain ⟨hmem, hx⟩ := List.mem_filter.mp h
        obtain ⟨before, after, rfl⟩ := List.append_of_mem hmem
        exact ⟨a :: before, after, rfl, hx, a, List.mem_cons_self, ha⟩
      · rw [if_neg ha] at h
        obtain ⟨before, after, rfl, hx, y, hy, hpy⟩ := ih h
        exact ⟨a :: before, after, rfl, hx, y, List.mem_cons_of_mem a hy, hpy⟩

theorem exists_of_firstChild (h : firstChild e name = some first) :
    ∃ before after, e = .node e.tag e.attrib e.text (before ++ first :: after) ∧
      localName first.tag = name ∧ ∀ b ∈ before, localName b.tag ≠ name := by
  obtain ⟨hname, before, after, heq, hbefore⟩ :=
    List.find?_eq_some_iff_append.mp h
  refine ⟨before, after, ?_, of_decide_eq_true hname, fun b hb => ?_⟩
  · rw [← heq]
    cases e with
    | node tag attrib text children => rfl
  · have := hbefore b hb
    simpa using this

theorem dataTexts_split {d : Element} (h : localName d.tag = "Data")
    (before after : List Element) :
    dataTexts (before ++ d :: after) =
      dataTexts before ++ d.text :: dataTexts after := by
  rw [dataTexts, List.filter_append, List.filter_cons,
    if_pos (decide_eq_true h), List.map_append, List.map_cons]
  rfl

/-- A `Data` element whose name comes again. -/
theorem exists_data_of_not_nodup {ordinal : ℕ}
    (h : ¬ (dataNames ordinal children).Nodup) :
    ∃ before d after, ∃ (k : String) (pre post : Items),
      children = before ++ d :: after ∧ localName d.tag = "Data" ∧
        k ∈ post.map Prod.fst ∧
        ∀ d' : Element, d'.shape = d.shape →
          eventDataItems ordinal (before ++ d' :: after) =
            pre ++ (k, optionalText d'.text) :: post := by
  induction children generalizing ordinal with
  | nil => exact absurd List.nodup_nil h
  | cons c children ih =>
      by_cases hc : localName c.tag = "Data"
      · -- the name of the first element, and the ordinal after it
        obtain ⟨k, ordinal', hnames, hitems⟩ : ∃ k ordinal',
            (∀ children, dataNames ordinal (c :: children) =
              k :: dataNames ordinal' children) ∧
            ∀ c' : Element, c'.shape = c.shape → ∀ children,
              eventDataItems ordinal (c' :: children) =
                (k, optionalText c'.text) ::
                  eventDataItems ordinal' children := by
          cases hname : givenName c with
          | some name =>
              refine ⟨name, ordinal, fun _ => ?_, fun c' hshape _ => ?_⟩
              · rw [dataNames, if_neg (not_not_intro hc), hname]
              · rw [eventDataItems, tag_of_shape hshape,
                  if_neg (not_not_intro hc), givenName,
                  attrib_of_shape hshape, ← givenName, hname]
          | none =>
              refine ⟨"Data" ++ decimal ordinal, ordinal + 1, fun _ => ?_,
                fun c' hshape _ => ?_⟩
              · rw [dataNames, if_neg (not_not_intro hc), hname]
              · rw [eventDataItems, tag_of_shape hshape,
                  if_neg (not_not_intro hc), givenName,
                  attrib_of_shape hshape, ← givenName, hname]
        by_cases hmem : k ∈ dataNames ordinal' children
        · refine ⟨[], c, children, k, [], eventDataItems ordinal' children,
            rfl, hc, ?_, fun c' hshape => hitems c' hshape children⟩
          rwa [(keys_eventDataItems ordinal' children).1]
        · have hrest : ¬ (dataNames ordinal' children).Nodup := by
            intro hnodup
            rw [hnames] at h
            exact h (List.nodup_cons.mpr ⟨hmem, hnodup⟩)
          obtain ⟨before, d, after, k', pre, post, rfl, hd, hk', hsplit⟩ :=
            ih hrest
          refine ⟨c :: before, d, after, k', (k, optionalText c.text) :: pre,
            post, rfl, hd, hk', fun d' hshape => ?_⟩
          rw [List.cons_append, hitems c rfl, hsplit d' hshape,
            List.cons_append]
      · have hskip : ∀ children, eventDataItems ordinal (c :: children) =
            eventDataItems ordinal children := fun _ => by
          rw [eventDataItems, if_pos hc]
        rw [dataNames, if_pos hc] at h
        obtain ⟨before, d, after, k, pre, post, rfl, hd, hk, hsplit⟩ := ih h
        refine ⟨c :: before, d, after, k, pre, post, rfl, hd, hk,
          fun d' hshape => ?_⟩
        rw [List.cons_append, hskip, hsplit d' hshape]

theorem text_mark_ne (e : Element) : e.text ≠ e.mark.text := by
  cases e with
  | node tag attrib text children => exact (markText_ne text).symm

theorem dataTexts_mark_ne (h : dataTexts e.children ≠ []) :
    dataTexts e.children ≠ dataTexts e.mark.children := by
  have hmark : dataTexts e.mark.children =
      (dataTexts e.children).map markText := by
    obtain ⟨tag, attrib, text, children⟩ := e
    change dataTexts (marks children) = (dataTexts children).map markText
    rw [marks_eq_map, dataTexts, dataTexts, List.filter_map, List.map_map,
      List.map_map]
    have htag : ∀ c : Element, c.mark.tag = c.tag ∧
        c.mark.text = markText c.text := by
      rintro ⟨_, _, _, _⟩
      exact ⟨rfl, rfl⟩
    simp only [Function.comp_def, htag]
  rw [hmark]
  exact (map_markText_ne h).symm

theorem KeepsValues.laterEventData (h : KeepsValues e) :
    ∀ later ∈ (childrenNamed e "EventData").tail,
      dataTexts later.children = [] := by
  intro later hlater
  by_contra hne
  obtain ⟨before, after, hsplit, hname, b, hb, hearlier⟩ :=
    exists_of_mem_tail_filter hlater
  obtain ⟨tag, attrib, text, children⟩ := e
  change children = _ at hsplit
  subst hsplit
  refine not_keepsValues_of_eventData (shape_mark later)
    (of_decide_eq_true hname) (dataTexts_mark_ne hne) ?_ h
  rw [eventData, eventData, firstChild_replace (shape_mark later)
    (Or.inr ⟨b, hb, of_decide_eq_true hearlier⟩)]
  exact SameData.refl _

theorem KeepsValues.oneUserData (h : KeepsValues e) :
    (childrenNamed e "UserData").tail = [] := by
  refine List.eq_nil_iff_forall_not_mem.mpr fun later hlater => ?_
  obtain ⟨before, after, hsplit, hname, b, hb, hearlier⟩ :=
    exists_of_mem_tail_filter hlater
  obtain ⟨tag, attrib, text, children⟩ := e
  change children = _ at hsplit
  subst hsplit
  refine not_keepsValues_of_userData (shape_mark later)
    (of_decide_eq_true hname) (leafTexts_mark_ne later) ?_ h
  rw [userData, userData, firstChild_replace (shape_mark later)
    (Or.inr ⟨b, hb, of_decide_eq_true hearlier⟩)]
  exact SameData.refl _

theorem KeepsValues.dataNames (h : KeepsValues e)
    (hfirst : firstChild e "EventData" = some first) :
    (dataNames 0 first.children).Nodup := by
  by_contra hnodup
  obtain ⟨before, after, heq, hname, hbefore⟩ := exists_of_firstChild hfirst
  obtain ⟨ftag, fattrib, ftext, children⟩ := first
  obtain ⟨xs, d, ys, k, pre, post, hsplit, hd, hk, hitems⟩ :=
    exists_data_of_not_nodup hnodup
  change children = _ at hsplit
  subst hsplit
  have hshape := shape_replace ftag fattrib ftext (shape_mark d) xs ys
  rw [heq] at h
  refine not_keepsValues_of_eventData hshape hname ?_ ?_ h
  · change dataTexts (xs ++ d :: ys) ≠ dataTexts (xs ++ d.mark :: ys)
    rw [dataTexts_split hd,
      dataTexts_split (by rw [tag_of_shape (shape_mark d)]; exact hd)]
    intro hsame
    exact text_mark_ne d (List.cons.inj (List.append_cancel_left hsame)).1
  · rw [eventData_of_firstChild (firstChild_of_first hbefore hname),
      eventData_of_firstChild (firstChild_of_first
        (c := .node ftag fattrib ftext (xs ++ d.mark :: ys)) hbefore hname)]
    change SameData (.obj (dictOf (eventDataItems 0 (xs ++ d :: ys))))
      (.obj (dictOf (eventDataItems 0 (xs ++ d.mark :: ys))))
    rw [hitems d rfl, hitems d.mark (shape_mark d)]
    exact sameData_of_overwritten hk _ _

theorem KeepsValues.userData (h : KeepsValues e)
    (hfirst : firstChild e "UserData" = some first) :
    first.children ≠ [] ∧ ∀ child ∈ first.children, NamesApart child := by
  obtain ⟨before, after, heq, hname, hbefore⟩ := exists_of_firstChild hfirst
  obtain ⟨ftag, fattrib, ftext, children⟩ := first
  rw [heq] at h
  constructor
  · rintro hnil
    change children = [] at hnil
    subst hnil
    refine not_keepsValues_of_userData (shape_mark _) hname
      (leafTexts_mark_ne _) ?_ h
    rw [userData_of_firstChild (firstChild_of_first hbefore hname),
      userData_of_firstChild (firstChild_of_first
        (c := Element.mark (.node ftag fattrib ftext [])) hbefore hname)]
    exact SameData.refl _
  · intro child hchild
    by_contra hnames
    obtain ⟨xs, ys, hsplit⟩ := List.append_of_mem hchild
    change children = _ at hsplit
    subst hsplit
    obtain ⟨child', hshape, hdata, hne⟩ :=
      exists_sameData_of_not_namesApart hnames
    refine not_keepsValues_of_userData
      (shape_replace ftag fattrib ftext hshape xs ys) hname ?_ ?_ h
    · rw [leafTexts_of_ne_nil (append_cons_ne_nil _ _ _),
        leafTexts_of_ne_nil (append_cons_ne_nil _ _ _)]
      exact flatMap_replace_ne hne xs ys
    · rw [userData_of_firstChild (firstChild_of_first hbefore hname),
        userData_of_firstChild (firstChild_of_first
          (c := .node ftag fattrib ftext (xs ++ child' :: ys)) hbefore hname)]
      change SameData (.obj (dictOf (userDataItems 0 (xs ++ child :: ys))))
        (.obj (dictOf (userDataItems 0 (xs ++ child' :: ys))))
      rw [userDataItems_split, userDataItems_split, tag_of_shape hshape]
      exact sameData_of_item hdata _ _ _

end ApexForensic.EventLog
