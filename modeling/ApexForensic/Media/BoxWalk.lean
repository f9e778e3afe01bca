import ApexForensic.Media.Formats

/-!
# The walk over the boxes of an MP4 file

A level of boxes ends with less than a header, or at a header whose declared
size is malformed.  The walk raises `ValueError` exactly when it meets a
malformed header, and otherwise returns the boxes in the order of their
headers, unless a container is nested deeper than the recursion limit allows.
-/

namespace ApexForensic.Media

open ApexForensic.Domain

variable {box : Box} {header size : ℕ}

/-! ## Headers and levels -/

section Levels

variable (data : Bytes)

/-- The header at an offset has this length and declares this size: in 32
bits, in 64 bits, or up to the end of what the box stands in. -/
inductive Declares (offset stop : ℕ) : ℕ → ℕ → Prop
  | short (h : 2 ≤ bigEndian (slice data offset (offset + 4))) :
      Declares offset stop 8 (bigEndian (slice data offset (offset + 4)))
  | extended (h : bigEndian (slice data offset (offset + 4)) = 1) :
      Declares offset stop 16
        (bigEndian (slice data (offset + 8) (offset + 16)))
  | toEnd (h : bigEndian (slice data offset (offset + 4)) = 0) :
      Declares offset stop 8 (stop - offset)

/-- The header declares a size below its own or past the end. -/
def Malformed (offset stop : ℕ) : Prop :=
  ∃ header size, Declares data offset stop header size ∧
    (size < header ∨ stop < offset + size)

/-- The box whose header stands at an offset. -/
def boxAt (offset header size : ℕ) : Box where
  boxType := slice data (offset + 4) (offset + 8)
  contentStart := offset + header
  contentEnd := offset + size
  offset := offset
  size := size

/-- The boxes of a level from an offset on, up to its end or to the first
malformed header. -/
inductive Level (stop : ℕ) : ℕ → List Box → Option ℕ → Prop
  | done {offset : ℕ} (h : stop < offset + 8) : Level stop offset [] none
  | bad {offset : ℕ} (h : offset + 8 ≤ stop)
      (hbad : Malformed data offset stop) : Level stop offset [] (some offset)
  | box {offset header size : ℕ} {boxes : List Box} {bad : Option ℕ}
      (h : offset + 8 ≤ stop)
      (hdeclares : Declares data offset stop header size)
      (hheader : header ≤ size) (hsize : offset + size ≤ stop)
      (hrest : Level stop (offset + size) boxes bad) :
      Level stop offset (boxAt data offset header size :: boxes) bad

/-- The levels that a walk comes to: a level whose boxes are all well formed
leads to those in its containers. -/
inductive Walked : ℕ → ℕ → ℕ → ℕ → Prop
  | here (start stop : ℕ) : Walked start stop start stop
  | inner {start stop : ℕ} {boxes : List Box} {box : Box} {range : ℕ × ℕ}
      {start' stop' : ℕ} (hlevel : Level data stop start boxes none)
      (hbox : box ∈ boxes) (hrange : box.inner? = some range)
      (hwalked : Walked range.1 range.2 start' stop') :
      Walked start stop start' stop'

/-- Some header of a walked level is malformed. -/
def HasMalformed (start stop : ℕ) : Prop :=
  ∃ start' stop' boxes offset, Walked data start stop start' stop' ∧
    Level data stop' start' boxes (some offset)

end Levels

/-- A box of the list has a range in which `p` holds. -/
def SomeInner (p : ℕ → ℕ → Prop) (boxes : List Box) : Prop :=
  ∃ box ∈ boxes, ∃ range ∈ box.inner?, p range.1 range.2

/-- The same, and `q` holds in no range of a box before it. -/
def SomeInnerFirst (p q : ℕ → ℕ → Prop) (boxes : List Box) : Prop :=
  ∃ before box after, boxes = before ++ box :: after ∧
    (∃ range ∈ box.inner?, p range.1 range.2) ∧ ¬ SomeInner q before

/-- With room for so many calls, a container is come to that is nested too
deep, and no malformed header before it. -/
def TooDeep (data : Bytes) : ℕ → ℕ → ℕ → Prop
  | 0, _, _ => True
  | 1, _, _ => True
  | frames + 2, start, stop => ∃ boxes, Level data stop start boxes none ∧
      SomeInnerFirst (TooDeep data (frames + 1)) (HasMalformed data) boxes

/-! ## Boxes and the boxes nested in them -/

inductive Forest where
  | nil
  | node (box : Box) (nested rest : Forest)

/-- The boxes in the order of their headers. -/
def Forest.boxes : Forest → List Box
  | nil => []
  | node box nested rest => box :: nested.boxes ++ rest.boxes

/-- Siblings follow one another in the range and leave less than a header of
it, and what is nested in a container is laid out so in its payload. -/
def Forest.Laid : Forest → ℕ → ℕ → Prop
  | nil, start, stop => start ≤ stop ∧ stop ≤ start + 7
  | node box nested rest, start, stop =>
      box.offset = start ∧ start + 8 ≤ box.contentStart ∧
      box.contentStart ≤ box.contentEnd ∧ box.contentEnd = start + box.size ∧
      box.contentEnd ≤ stop ∧
      (match box.inner? with
        | some range => nested.Laid range.1 range.2
        | none => nested = nil) ∧
      rest.Laid box.contentEnd stop

/-- The second box comes after the first or stands in its payload. -/
def Box.Apart (a b : Box) : Prop :=
  a.offset + a.size ≤ b.offset ∨
    a.contentStart ≤ b.offset ∧ b.offset + b.size ≤ a.offset + a.size

/-- What the walk promises of a range of the data. -/
structure WalkLaw (frames : ℕ) (data : Bytes) (start stop : ℕ) : Prop where
  ends : (∃ message,
      walkBoxes frames data start stop = .error (.valueError message)) ∨
    ∃ forest : Forest, walkBoxes frames data start stop = .ok forest.boxes ∧
      forest.Laid start stop ∧ forest.boxes.Pairwise Box.Apart ∧
      ∀ box ∈ forest.boxes, start ≤ box.offset ∧ box.offset + box.size ≤ stop
  raises_iff : (∃ message,
      walkBoxes frames data start stop = .error (.valueError message)) ↔
    HasMalformed data start stop

section

variable {data : Bytes} {start stop offset : ℕ} {boxes : List Box}

theorem boxHeader_cases (data : Bytes) (offset stop : ℕ) :
    (∃ message, boxHeader data offset stop = .error (.valueError message) ∧
        Malformed data offset stop) ∨
      ∃ header size, boxHeader data offset stop = .ok (header, size) ∧
        Declares data offset stop header size := by
  rw [boxHeader]
  by_cases hone : bigEndian (slice data offset (offset + 4)) = 1
  · rw [if_pos hone]
    by_cases hshort : stop < offset + 16
    · rw [if_pos hshort]
      refine Or.inl ⟨_, rfl, _, _, .extended hone, ?_⟩
      omega
    · rw [if_neg hshort]
      exact Or.inr ⟨_, _, rfl, .extended hone⟩
  · rw [if_neg hone]
    by_cases hzero : bigEndian (slice data offset (offset + 4)) = 0
    · rw [if_pos hzero]
      exact Or.inr ⟨_, _, rfl, .toEnd hzero⟩
    · rw [if_neg hzero]
      exact Or.inr ⟨_, _, rfl, .short (by omega)⟩

theorem Declares.unique {header' size' : ℕ}
    (h : Declares data offset stop header size)
    (h' : Declares data offset stop header' size') :
    header = header' ∧ size = size' := by
  cases h <;> cases h' <;> first | exact ⟨rfl, rfl⟩ | omega

theorem Declares.eight_le (h : Declares data offset stop header size) :
    8 ≤ header := by
  cases h <;> omega

theorem Malformed.not_fits (h : Malformed data offset stop)
    (hdeclares : Declares data offset stop header size)
    (hheader : header ≤ size) : stop < offset + size := by
  obtain ⟨header', size', hdeclares', hbad⟩ := h
  obtain ⟨rfl, rfl⟩ := hdeclares.unique hdeclares'
  omega

theorem Level.unique {bad bad' : Option ℕ} {boxes' : List Box}
    (h : Level data stop offset boxes bad)
    (h' : Level data stop offset boxes' bad') :
    boxes = boxes' ∧ bad = bad' := by
  induction h generalizing boxes' bad' with
  | done h =>
      cases h' with
      | done => exact ⟨rfl, rfl⟩
      | bad h' => omega
      | box h' => omega
  | bad h hbad =>
      cases h' with
      | done h' => omega
      | bad => exact ⟨rfl, rfl⟩
      | box h' hdeclares hheader hsize =>
          have := hbad.not_fits hdeclares hheader
          omega
  | box h hdeclares hheader hsize hrest ih =>
      cases h' with
      | done h' => omega
      | bad h' hbad =>
          have := hbad.not_fits hdeclares hheader
          omega
      | box h' hdeclares' hheader' hsize' hrest' =>
          obtain ⟨rfl, rfl⟩ := hdeclares.unique hdeclares'
          obtain ⟨rfl, rfl⟩ := ih hrest'
          exact ⟨rfl, rfl⟩

theorem iterBoxes_cases (data : Bytes) (stop offset : ℕ) :
    (∃ boxes, iterBoxes data stop offset = .ok boxes ∧
        Level data stop offset boxes none) ∨
      ∃ message, iterBoxes data stop offset = .error (.valueError message) ∧
        ∃ boxes bad, Level data stop offset boxes (some bad) := by
  induction hleft : stop - offset using Nat.strong_induction_on
    generalizing offset with
  | _ left ih =>
      rw [iterBoxes]
      by_cases h : offset + 8 ≤ stop
      · rw [if_pos h]
        rcases boxHeader_cases data offset stop with
          ⟨message, hheader, hbad⟩ | ⟨header, size, hheader, hdeclares⟩
        · rw [hheader]
          exact Or.inr ⟨message, rfl, [], offset, .bad h hbad⟩
        · rw [hheader]
          dsimp only
          have height := hdeclares.eight_le
          split_ifs with hsize
          · exact Or.inr ⟨_, rfl, [], offset, .bad h ⟨_, _, hdeclares, hsize⟩⟩
          · rw [not_or, not_lt, not_lt] at hsize
            have hrest := ih (stop - (offset + size)) (by omega) _ rfl
            rcases hrest with ⟨boxes, hboxes, hlevel⟩ |
              ⟨message, herror, boxes, bad, hlevel⟩
            · rw [hboxes]
              exact Or.inl ⟨_, rfl, .box h hdeclares hsize.1 hsize.2 hlevel⟩
            · rw [herror]
              exact Or.inr ⟨message, rfl, _, bad,
                .box h hdeclares hsize.1 hsize.2 hlevel⟩
      · rw [if_neg h]
        exact Or.inl ⟨[], rfl, .done (Nat.lt_of_not_le h)⟩

theorem Box.inner?_bounds {range : ℕ × ℕ} (h : box.inner? = some range)
    (hbox : box.contentStart ≤ box.contentEnd) :
    box.contentStart ≤ range.1 ∧ range.1 ≤ range.2 ∧
      range.2 = box.contentEnd := by
  rw [Box.inner?] at h
  split_ifs at h with hcontainer hmeta
  · obtain rfl := Option.some.inj h
    exact ⟨le_rfl, hbox, rfl⟩
  · obtain rfl := Option.some.inj h
    exact ⟨Nat.le_add_right _ _, hmeta.2, rfl⟩

theorem Forest.Laid.inside {forest : Forest} (h : forest.Laid start stop)
    (hbox : box ∈ forest.boxes) :
    start ≤ box.offset ∧ box.offset + box.size ≤ stop := by
  induction forest generalizing start stop with
  | nil => cases hbox
  | node top nested rest ihnested ihrest =>
      obtain ⟨rfl, hstart, hcontent, hend, hstop, hnested, hrest⟩ := h
      rw [Forest.boxes, List.cons_append, List.mem_cons, List.mem_append]
        at hbox
      rcases hbox with rfl | hbox | hbox
      · exact ⟨le_rfl, hend ▸ hstop⟩
      · cases hrange : top.inner? with
        | none =>
            rw [hrange] at hnested
            obtain rfl := hnested
            cases hbox
        | some range =>
            rw [hrange] at hnested
            have hbounds := Box.inner?_bounds hrange hcontent
            have := ihnested hnested hbox
            omega
      · have := ihrest hrest hbox
        omega

theorem Forest.Laid.apart {forest : Forest} (h : forest.Laid start stop) :
    forest.boxes.Pairwise Box.Apart := by
  induction forest generalizing start stop with
  | nil => exact List.Pairwise.nil
  | node top nested rest ihnested ihrest =>
      obtain ⟨rfl, hstart, hcontent, hend, hstop, hnested, hrest⟩ := h
      have hpayload : nested.boxes.Pairwise Box.Apart ∧
          ∀ box ∈ nested.boxes, top.contentStart ≤ box.offset ∧
            box.offset + box.size ≤ top.offset + top.size := by
        cases hrange : top.inner? with
        | none =>
            rw [hrange] at hnested
            obtain rfl := hnested
            exact ⟨List.Pairwise.nil, fun box hbox => nomatch hbox⟩
        | some range =>
            rw [hrange] at hnested
            refine ⟨ihnested hnested, fun box hbox => ?_⟩
            have hbounds := Box.inner?_bounds hrange hcontent
            have := Forest.Laid.inside hnested hbox
            omega
      rw [Forest.boxes, List.cons_append, List.pairwise_cons,
        List.pairwise_append]
      refine ⟨fun box hbox => ?_, hpayload.1, ihrest hrest, fun a ha b hb => ?_⟩
      · rcases List.mem_append.mp hbox with hbox | hbox
        · exact Or.inr (hpayload.2 box hbox)
        · exact Or.inl (hend ▸ (hrest.inside hbox).1)
      · have hin := hpayload.2 a ha
        have hafter := hrest.inside hb
        exact Or.inl (by omega)

/-! ## What the walk ends with -/

theorem someInner_cons {p : ℕ → ℕ → Prop} :
    SomeInner p (box :: boxes) ↔
      (∃ range ∈ box.inner?, p range.1 range.2) ∨ SomeInner p boxes := by
  simp only [SomeInner, List.mem_cons, exists_eq_or_imp]

theorem not_someInner_nil (p : ℕ → ℕ → Prop) : ¬ SomeInner p [] :=
  fun ⟨_, hbox, _⟩ => nomatch hbox

theorem not_someInnerFirst_nil (p q : ℕ → ℕ → Prop) :
    ¬ SomeInnerFirst p q [] := by
  rintro ⟨before, box, after, hsplit, -⟩
  exact absurd hsplit (by simp)

theorem someInnerFirst_cons {p q : ℕ → ℕ → Prop} :
    SomeInnerFirst p q (box :: boxes) ↔
      (∃ range ∈ box.inner?, p range.1 range.2) ∨
        (¬ ∃ range ∈ box.inner?, q range.1 range.2) ∧
          SomeInnerFirst p q boxes := by
  constructor
  · rintro ⟨before, box', after, hsplit, hp, hq⟩
    cases before with
    | nil =>
        obtain ⟨rfl, rfl⟩ := List.cons.inj hsplit
        exact Or.inl hp
    | cons first before =>
        obtain ⟨rfl, rfl⟩ := List.cons.inj hsplit
        rw [someInner_cons, not_or] at hq
        exact Or.inr ⟨hq.1, before, box', after, rfl, hp, hq.2⟩
  · rintro (hp | ⟨hq, before, box', after, rfl, hp, hq'⟩)
    · exact ⟨[], box, boxes, rfl, hp, not_someInner_nil q⟩
    · exact ⟨box :: before, box', after, rfl, hp, fun h =>
        (someInner_cons.mp h).elim hq hq'⟩

/-- How a walk ends, by what is too deep and what is malformed, and with which
boxes. -/
inductive Ends (deep bad : Prop) (laid : Forest → Prop) :
    Except Fault (List Box) → Prop
  | recursion (hdeep : deep) : Ends deep bad laid (.error .recursionError)
  | malformed (hdeep : ¬ deep) (hbad : bad) (message : String) :
      Ends deep bad laid (.error (.valueError message))
  | boxes (hdeep : ¬ deep) (hbad : ¬ bad) (forest : Forest)
      (hlaid : laid forest) : Ends deep bad laid (.ok forest.boxes)

/-- The walk ends as it should on every range. -/
def WalksWell (walk : ℕ → ℕ → Except Fault (List Box))
    (deep bad : ℕ → ℕ → Prop) : Prop :=
  ∀ start stop, start ≤ stop → Ends (deep start stop) (bad start stop)
    (fun forest => forest.Laid start stop) (walk start stop)

section

variable {walk : ℕ → ℕ → Except Fault (List Box)} {deep bad : ℕ → ℕ → Prop}

theorem walkInner_ends (hwalk : WalksWell walk deep bad)
    (hbox : box.contentStart ≤ box.contentEnd) :
    Ends (∃ range ∈ box.inner?, deep range.1 range.2)
      (∃ range ∈ box.inner?, bad range.1 range.2)
      (fun forest => match box.inner? with
        | some range => forest.Laid range.1 range.2
        | none => forest = .nil)
      (walkInner walk box) := by
  rw [walkInner]
  cases hrange : box.inner? with
  | none => exact .boxes (by simp) (by simp) .nil rfl
  | some range =>
      have hends := hwalk range.1 range.2 (Box.inner?_bounds hrange hbox).2.1
      simpa only [Option.mem_some_iff, exists_eq_left'] using hends

/-- The boxes of a level are walked one after another; the first that is too
deep or malformed decides. -/
theorem walkEach_ends (hwalk : WalksWell walk deep bad)
    (hoffset : offset ≤ stop) (hlevel : Level data stop offset boxes none) :
    Ends (SomeInnerFirst deep bad boxes) (SomeInner bad boxes)
      (fun forest => forest.Laid offset stop) (walkEach walk boxes) := by
  generalize hnone : (none : Option ℕ) = final at hlevel
  induction hlevel with
  | done h =>
      exact .boxes (not_someInnerFirst_nil _ _) (not_someInner_nil _) .nil
        ⟨hoffset, by omega⟩
  | bad => cases hnone
  | @box offset header size boxes _ h hdeclares hheader hsize _ ih =>
      have height := hdeclares.eight_le
      have hbox : offset + header ≤ offset + size := by omega
      have hinner : Ends _ _ _
          (walkInner walk (boxAt data offset header size)) :=
        walkInner_ends hwalk hbox
      have hrest := ih hsize hnone
      rw [walkEach]
      generalize walkInner walk (boxAt data offset header size) = inner
        at hinner ⊢
      generalize walkEach walk boxes = others at hrest ⊢
      rcases hinner with hdeep | ⟨hdeep, hbad, message⟩ |
        ⟨hdeep, hbad, nested, hnested⟩
      · exact .recursion (someInnerFirst_cons.mpr (Or.inl hdeep))
      · refine .malformed (fun h => ?_)
          (someInner_cons.mpr (Or.inl hbad)) message
        exact (someInnerFirst_cons.mp h).elim hdeep fun h => h.1 hbad
      · rcases hrest with hdeep' | ⟨hdeep', hbad', message⟩ |
          ⟨hdeep', hbad', rest, hrest⟩
        · exact .recursion (someInnerFirst_cons.mpr (Or.inr ⟨hbad, hdeep'⟩))
        · refine .malformed (fun h => ?_)
            (someInner_cons.mpr (Or.inr hbad')) message
          exact (someInnerFirst_cons.mp h).elim hdeep fun h => hdeep' h.2
        · refine .boxes (fun h => ?_) (fun h => ?_)
            (.node (boxAt data offset header size) nested rest) ?_
          · exact (someInnerFirst_cons.mp h).elim hdeep fun h => hdeep' h.2
          · exact (someInner_cons.mp h).elim hbad hbad'
          · exact ⟨rfl, Nat.add_le_add_left height offset, hbox, rfl, hsize,
              hnested, hrest⟩

end

theorem hasMalformed_iff :
    HasMalformed data start stop ↔
      (∃ boxes bad, Level data stop start boxes (some bad)) ∨
        ∃ boxes, Level data stop start boxes none ∧
          SomeInner (HasMalformed data) boxes := by
  constructor
  · rintro ⟨start', stop', boxes, bad, hwalked, hbad⟩
    cases hwalked with
    | here => exact Or.inl ⟨boxes, bad, hbad⟩
    | inner hlevel hbox hrange hwalked =>
        exact Or.inr ⟨_, hlevel, _, hbox, _, hrange, start', stop', boxes, bad,
          hwalked, hbad⟩
  · rintro (⟨boxes, bad, hbad⟩ | ⟨boxes, hlevel, box, hbox, range, hrange,
      start', stop', boxes', bad, hwalked, hbad⟩)
    · exact ⟨start, stop, boxes, bad, .here start stop, hbad⟩
    · exact ⟨start', stop', boxes', bad,
        .inner hlevel hbox hrange hwalked, hbad⟩

/-- A walk ends by recursion, at a malformed header or with boxes that are
laid out in the range. -/
theorem walkBoxes_ends (frames : ℕ) (data : Bytes) :
    WalksWell (walkBoxes frames data) (TooDeep data frames)
      (HasMalformed data) := by
  induction frames with
  | zero => exact fun start stop _ => .recursion trivial
  | succ frames ih =>
      cases frames with
      | zero => exact fun start stop _ => .recursion trivial
      | succ frames =>
          intro start stop hstart
          rw [walkBoxes, TooDeep, hasMalformed_iff]
          rcases iterBoxes_cases data stop start with
            ⟨boxes, hboxes, hlevel⟩ | ⟨message, herror, boxes, bad, hlevel⟩
          · rw [hboxes, ok_bind]
            have hall : ∀ {p : List Box → Prop},
                (∃ boxes, Level data stop start boxes none ∧ p boxes) ↔
                  p boxes :=
              ⟨fun ⟨_, h, hp⟩ => (h.unique hlevel).1 ▸ hp,
                fun hp => ⟨boxes, hlevel, hp⟩⟩
            have hfine : ¬ ∃ boxes bad, Level data stop start boxes
                (some bad) := fun ⟨_, _, h⟩ => nomatch (h.unique hlevel).2
            rw [hall, hall, or_iff_right hfine]
            exact walkEach_ends ih hstart hlevel
          · rw [herror]
            refine .malformed (fun ⟨_, h, _⟩ => ?_)
              (Or.inl ⟨boxes, bad, hlevel⟩) message
            cases (h.unique hlevel).2

/-- The law of the walk holds exactly for the ranges in which it does not come
to a container that is nested too deep. -/
theorem walkLaw_iff (frames : ℕ) (data : Bytes) (start stop : ℕ)
    (hstart : start ≤ stop) :
    WalkLaw frames data start stop ↔ ¬ TooDeep data frames start stop := by
  have hends := walkBoxes_ends frames data start stop hstart
  generalize hresult : walkBoxes frames data start stop = result at hends
  constructor
  · intro hlaw hdeep
    have hends' := hlaw.ends
    rw [hresult] at hends'
    rcases hends with - | ⟨hnot, -, -⟩ | ⟨hnot, -, -, -⟩
    · rcases hends' with ⟨_, h⟩ | ⟨_, h, -⟩ <;> cases h
    · exact hnot hdeep
    · exact hnot hdeep
  · intro hnot
    rcases hends with hdeep | ⟨-, hbad, message⟩ | ⟨-, hbad, forest, hlaid⟩
    · exact absurd hdeep hnot
    · exact ⟨Or.inl ⟨message, hresult⟩, ⟨fun _ => hbad, fun _ =>
        ⟨message, hresult⟩⟩⟩
    · refine ⟨Or.inr ⟨forest, hresult, hlaid, hlaid.apart, fun box hbox =>
        hlaid.inside hbox⟩, ⟨fun ⟨_, h⟩ => ?_, fun h => absurd h hbad⟩⟩
      rw [hresult] at h
      cases h

theorem Level.payload {bad : Option ℕ} (h : Level data stop offset boxes bad)
    (hbox : box ∈ boxes) : offset + 8 ≤ box.contentStart ∧
      box.contentStart ≤ box.contentEnd ∧ box.contentEnd ≤ stop := by
  induction h with
  | done => cases hbox
  | bad => cases hbox
  | box h hdeclares hheader hsize _ ih =>
      have height := hdeclares.eight_le
      rcases List.mem_cons.mp hbox with rfl | hbox
      · simp only [boxAt]
        omega
      · have := ih hbox
        omega

theorem TooDeep.length_le {frames : ℕ}
    (h : TooDeep data (frames + 1) start stop) : 8 * frames ≤ stop - start := by
  induction frames generalizing start stop with
  | zero => omega
  | succ frames ih =>
      obtain ⟨boxes, hlevel, before, box, after, rfl, hdeep, -⟩ := h
      obtain ⟨range, hrange, hdeep⟩ := hdeep
      have hbox : box ∈ before ++ box :: after :=
        List.mem_append_right _ List.mem_cons_self
      have hpayload := hlevel.payload hbox
      have hbounds := Box.inner?_bounds hrange hpayload.2.1
      have := ih hdeep
      omega

end

/-! ## A chain of containers -/

/-- Containers in one another, each with the size that stands for the rest of
what it is in. -/
def chain : ℕ → Bytes
  | 0 => []
  | n + 1 => [0, 0, 0, 0] ++ ascii "moov" ++ chain n

theorem length_chain (n : ℕ) : (chain n).length = 8 * n := by
  induction n with
  | zero => rfl
  | succ n ih =>
      rw [chain, List.length_append, List.length_append, ih]
      change 4 + 4 + 8 * n = _
      omega

theorem drop_chain (n k : ℕ) : (chain (n + k)).drop (8 * k) = chain n := by
  induction k with
  | zero => rfl
  | succ k ih => rw [← Nat.add_assoc, chain]; exact ih

theorem slice_add (data : Bytes) (k start stop : ℕ) :
    slice data (k + start) (k + stop) = slice (data.drop k) start stop := by
  rw [slice, slice, List.drop_take, List.drop_take, List.drop_drop,
    Nat.add_sub_add_left]

theorem slice_chain (n k start stop : ℕ) :
    slice (chain (n + 1 + k)) (8 * k + start) (8 * k + stop) =
      slice ([0, 0, 0, 0] ++ ascii "moov" ++ chain n) start stop := by
  rw [slice_add, drop_chain, chain]

theorem level_chain (n k : ℕ) :
    Level (chain (n + 1 + k)) (8 * (n + 1 + k)) (8 * k)
      [boxAt (chain (n + 1 + k)) (8 * k) 8 (8 * (n + 1))] none := by
  have hsize : 8 * (n + 1 + k) - 8 * k = 8 * (n + 1) := by omega
  have hzero : bigEndian
      (slice (chain (n + 1 + k)) (8 * k) (8 * k + 4)) = 0 := by
    have hslice : slice (chain (n + 1 + k)) (8 * k) (8 * k + 4) = _ :=
      slice_chain n k 0 4
    rw [hslice]
    rfl
  refine .box (by omega) (hsize ▸ .toEnd hzero) (by omega) (by omega) ?_
  exact .done (by omega)

theorem inner?_chain (n k : ℕ) :
    (boxAt (chain (n + 1 + k)) (8 * k) 8 (8 * (n + 1))).inner? =
      some (8 * (k + 1), 8 * (n + (k + 1))) := by
  have htype : slice (chain (n + 1 + k)) (8 * k + 4) (8 * k + 8) =
      ascii "moov" := by
    rw [slice_chain]
    rfl
  have hmem : ascii "moov" ∈ containers := List.mem_cons_self
  rw [Box.inner?, boxAt, htype, if_pos hmem]
  refine congrArg some (Prod.ext ?_ ?_) <;> dsimp only <;> omega

theorem tooDeep_chain (frames k : ℕ) :
    TooDeep (chain (frames + k)) frames (8 * k) (8 * (frames + k)) := by
  induction frames generalizing k with
  | zero => trivial
  | succ frames ih =>
      cases frames with
      | zero => trivial
      | succ frames =>
          refine ⟨_, level_chain (frames + 1) k, [], _, [], rfl,
            ⟨_, inner?_chain (frames + 1) k, ?_⟩, not_someInner_nil _⟩
          have hchain : frames + 1 + 1 + k = frames + 1 + (k + 1) := by omega
          rw [hchain]
          exact ih (k + 1)

/-- With room for 1000 calls, 1000 nested containers end the walk with neither
boxes nor `ValueError`. -/
theorem not_walkLaw_chain :
    ¬ WalkLaw 1000 (chain 1000) 0 (chain 1000).length := by
  intro hlaw
  have hdeep := tooDeep_chain 1000 0
  rw [Nat.add_zero, Nat.mul_zero, ← length_chain] at hdeep
  exact (walkLaw_iff 1000 _ 0 _ (Nat.zero_le _)).mp hlaw hdeep

theorem walkLaw_three_containers : WalkLaw 1000 (chain 3) 0 24 := by
  apply (walkLaw_iff 1000 (chain 3) 0 24 (Nat.zero_le 24)).mpr
  intro hdeep
  exact absurd hdeep.length_le (by decide)

end ApexForensic.Media
