import Mathlib.Data.List.DropRight
import ApexForensic.Reports.ReviewGate

/-!
# Where output references lead

A reference is a path below the derived root.  The checks of its parts keep it
off drives, streams and other directories, but not off every device name, and
not off the root itself: a path of slashes and dots has no part to check.  Two
references may spell one path.
-/

namespace ApexForensic.Reports

open ApexForensic.Support ApexForensic.Domain

variable {c : Char} {part path : String} {upcase : String → String}

/-! ## Paths on two platforms -/

/-- How a platform reads a path that is given relative to a directory: where
it is split, whether it leaves the directory at its start, and the name that a
part stands for as the file system compares names. -/
structure PathRules where
  separator : Char → Bool
  isRooted : String → Bool
  name : String → Option String

/-- The parts of a path that lead anywhere. -/
def PathRules.parts (rules : PathRules) (path : String) : List String :=
  ((path.toList.splitOnP rules.separator).map String.ofList).filter fun part =>
    part ≠ "" ∧ part ≠ "."

/-- The names below the directory, unless a part goes up or is no name. -/
def PathRules.follow (rules : PathRules) : List String → Option (List String)
  | [] => some []
  | part :: parts =>
      if part = ".." then none
      else (rules.name part).bind fun name =>
        (rules.follow parts).map (name :: ·)

/-- The names of the file below the directory to which a path leads. -/
def PathRules.resolve (rules : PathRules) (path : String) :
    Option (List String) :=
  if rules.isRooted path then none else rules.follow (rules.parts path)

def posixRules : PathRules where
  separator c := c == '/'
  isRooted := isAbsolute
  name := some

/-- The devices beside those of the check: the console, and the ports whose
digit is a superscript. -/
def otherDevices : List String :=
  ["conin$", "conout$", "com¹", "com²", "com³", "lpt¹", "lpt²", "lpt³"]

/-- What names a device: the part before the first dot without the spaces at
its end, in any letter case. -/
def deviceStem (part : String) : List Char :=
  ((part.toList.takeWhile (· ≠ '.')).rdropWhile (· = ' ')).map Char.toLower

def isDevice (part : String) : Bool :=
  String.ofList (deviceStem part) ∈ reservedBasenames ++ otherDevices

/-- Windows: no name has a forbidden character, of which a colon is one and
starts a stream; spaces and dots at the end of a name are dropped; names are
compared in one letter case. -/
def windowsRules (upcase : String → String) : PathRules where
  separator c := c == '/' || c == '\\'
  isRooted path := path.toList.head?.any (fun c => c == '/' || c == '\\') ||
    hasDrive path
  name part :=
    if part.toList.any forbiddenNameChar || isDevice part then none
    else
      let kept := part.toList.rdropWhile fun c => c = ' ' || c = '.'
      if kept = [] then none else some (upcase (String.ofList kept))

/-! ## What is promised -/

/-- The path of a reference below the root. -/
def relativePath (rootId reference : String) : String :=
  String.ofList (reference.toList.drop ("derived://" ++ rootId ++ "/").length)

def Accepted (P : Platform) (rootId reference : String) : Prop :=
  validateOutputReference P reference rootId = .ok ()

/-- The path leads to a file strictly below the directory. -/
def StrictlyBelow (rules : PathRules) (path : String) : Prop :=
  ∃ names, rules.resolve path = some names ∧ names ≠ []

def SameFile (rules : PathRules) (path path' : String) : Prop :=
  ∃ names, rules.resolve path = some names ∧ rules.resolve path' = some names

/-- An accepted reference leads strictly below the root on both platforms,
accepted references that differ lead to different files, and every file name of
an export makes an accepted reference. -/
structure ReferencesContained (P : Platform) (upcase : String → String)
    (rootId reference reference' : String) : Prop where
  below : ∀ r ∈ [reference, reference'], Accepted P rootId r →
    ∀ rules ∈ [posixRules, windowsRules upcase],
      StrictlyBelow rules (relativePath rootId r)
  different : Accepted P rootId reference → Accepted P rootId reference' →
    reference ≠ reference' → ∀ rules ∈ [posixRules, windowsRules upcase],
      ¬ SameFile rules (relativePath rootId reference)
        (relativePath rootId reference')
  filename : ∀ requested format filename,
    safeFilename P requested format = .ok filename →
      Accepted P rootId ("derived://" ++ rootId ++ "/" ++ filename)

/-! ## When it is kept -/

/-- A device name that the check lets pass: a reserved one with spaces after
it, or one that is not on its list. -/
def MissedDevice (part : String) : Prop :=
  (String.ofList (deviceStem part) ∈ reservedBasenames ∧
    (part.toList.takeWhile (· ≠ '.')).getLast? = some ' ') ∨
  String.ofList (deviceStem part) ∈ otherDevices

/-- The path has a part, and none of its parts is a device that the check
misses. -/
def NamesFile (path : String) : Prop :=
  pathParts path ≠ [] ∧ ∀ part ∈ pathParts path, ¬ MissedDevice part

/-! ## Parts that pass the check -/

/-- What the check of a segment asks. -/
structure Portable (P : Platform) (segment : String) : Prop where
  ne_empty : segment ≠ ""
  ne_dot : segment ≠ "."
  ne_up : segment ≠ ".."
  ends : segment.toList.getLast?.any (fun c => c = ' ' || c = '.') = false
  noDrive : hasDrive segment = false
  chars : segment.toList.any forbiddenNameChar = false
  stem : P.casefold (String.ofList (segment.toList.takeWhile (· ≠ '.'))) ∉
    reservedBasenames

variable {P : Platform}

theorem validateOutputPathSegment_eq_ok_iff {segment target : String} :
    validateOutputPathSegment P segment target = .ok () ↔
      Portable P segment := by
  rw [validateOutputPathSegment]
  split
  · rename_i hbad
    refine ⟨fun h => (nomatch h), fun h => absurd hbad ?_⟩
    simp only [not_or, Bool.not_eq_true]
    exact ⟨h.ne_empty, h.ne_dot, h.ne_up, h.ends, h.noDrive, h.chars, h.stem⟩
  · rename_i hgood
    simp only [not_or, Bool.not_eq_true] at hgood
    obtain ⟨h₁, h₂, h₃, h₄, h₅, h₆, h₇⟩ := hgood
    exact ⟨fun _ => ⟨h₁, h₂, h₃, h₄, h₅, h₆, h₇⟩, fun _ => rfl⟩

theorem accepted_iff {rootId reference : String} :
    Accepted P rootId reference ↔
      ("derived://" ++ rootId ++ "/").toList <+: reference.toList ∧
      isAbsolute (relativePath rootId reference) = false ∧
      ".." ∉ pathParts (relativePath rootId reference) ∧
      ∀ part ∈ pathParts (relativePath rootId reference), Portable P part := by
  rw [Accepted, validateOutputReference, check_eq_ok_iff, check_eq_ok_iff,
    forM_eq_ok_iff, not_not, not_or, Bool.not_eq_true, and_assoc,
    List.isPrefixOf_iff_prefix]
  simp only [validateOutputPathSegment_eq_ok_iff]
  rfl

/-! ## What the parts lead to -/

theorem PathRules.resolve_of_not_isRooted {rules : PathRules}
    (h : rules.isRooted path = false) :
    rules.resolve path = rules.follow (rules.parts path) :=
  if_neg (h ▸ Bool.false_ne_true)

theorem PathRules.follow_of_names {rules : PathRules} {parts : List String}
    (name : String → String)
    (h : ∀ part ∈ parts, part ≠ ".." ∧ rules.name part = some (name part)) :
    rules.follow parts = some (parts.map name) := by
  induction parts with
  | nil => rfl
  | cons part parts ih =>
      obtain ⟨⟨hup, hname⟩, hrest⟩ := List.forall_mem_cons.mp h
      rw [PathRules.follow, if_neg hup, hname, Option.bind_some, ih hrest]
      rfl

theorem PathRules.exists_name_of_follow {rules : PathRules}
    {parts names : List String} (h : rules.follow parts = some names) :
    ∀ part ∈ parts, ∃ name, rules.name part = some name := by
  induction parts generalizing names with
  | nil => exact fun part hpart => absurd hpart List.not_mem_nil
  | cons part parts ih =>
      rw [PathRules.follow] at h
      split at h
      · cases h
      · obtain ⟨name, hname, h⟩ := Option.bind_eq_some_iff.mp h
        obtain ⟨rest, hrest, -⟩ := Option.map_eq_some_iff.mp h
        exact List.forall_mem_cons.mpr ⟨⟨name, hname⟩, ih hrest⟩

theorem PathRules.names_eq_nil_iff {rules : PathRules}
    {parts names : List String} (h : rules.follow parts = some names) :
    names = [] ↔ parts = [] := by
  cases parts with
  | nil =>
      obtain rfl := Option.some.inj h
      exact Iff.rfl
  | cons part parts =>
      rw [PathRules.follow] at h
      split at h
      · cases h
      · obtain ⟨name, -, h⟩ := Option.bind_eq_some_iff.mp h
        obtain ⟨rest, -, rfl⟩ := Option.map_eq_some_iff.mp h
        exact iff_of_false (List.cons_ne_nil _ _) (List.cons_ne_nil _ _)

theorem posixRules_isRooted (path : String) :
    posixRules.isRooted path = isAbsolute path :=
  rfl

theorem posixRules_parts (path : String) :
    posixRules.parts path = pathParts path :=
  rfl

theorem exists_mem_splitOnP {α : Type} {p : α → Bool} {xs : List α} {x : α}
    (hx : x ∈ xs) (hp : p x = false) : ∃ part ∈ xs.splitOnP p, x ∈ part := by
  induction xs with
  | nil => exact absurd hx List.not_mem_nil
  | cons a xs ih =>
      rw [List.splitOnP_cons_eq_if_modifyHead]
      obtain ⟨first, rest, hsplit⟩ :=
        List.exists_cons_of_ne_nil (List.splitOnP_ne_nil p xs)
      rw [hsplit] at ih ⊢
      rcases List.mem_cons.mp hx with rfl | hx
      · rw [hp]
        exact ⟨x :: first, List.mem_cons_self, List.mem_cons_self⟩
      · obtain ⟨part, hpart, hmem⟩ := ih hx
        split
        · exact ⟨part, List.mem_cons_of_mem _ hpart, hmem⟩
        · rcases List.mem_cons.mp hpart with rfl | hpart
          · exact ⟨a :: part, List.mem_cons_self, List.mem_cons_of_mem _ hmem⟩
          · exact ⟨part, List.mem_cons_of_mem _ hpart, hmem⟩

theorem splitOnP_congr {α : Type} {p q : α → Bool} {xs : List α}
    (h : ∀ x ∈ xs, p x = q x) : xs.splitOnP p = xs.splitOnP q := by
  induction xs with
  | nil => simp
  | cons a xs ih =>
      obtain ⟨ha, hxs⟩ := List.forall_mem_cons.mp h
      rw [List.splitOnP_cons_eq_if_modifyHead,
        List.splitOnP_cons_eq_if_modifyHead, ha, ih hxs]

theorem forbiddenNameChar_of_mem (h : ∀ part ∈ pathParts path, Portable P part)
    (hc : c ∈ path.toList) : forbiddenNameChar c = false := by
  by_cases hslash : c = '/'
  · subst hslash
    decide
  by_cases hdot : c = '.'
  · subst hdot
    decide
  obtain ⟨part, hpart, hmem⟩ :=
    exists_mem_splitOnP (p := (· == '/')) hc (beq_false_of_ne hslash)
  have hkept : String.ofList part ≠ "" ∧ String.ofList part ≠ "." := by
    constructor
    · intro heq
      obtain rfl : part = [] := by simpa using congrArg String.toList heq
      exact List.not_mem_nil hmem
    · intro heq
      obtain rfl : part = ['.'] := by simpa using congrArg String.toList heq
      exact hdot (List.mem_singleton.mp hmem)
  have hportable := h (String.ofList part) (List.mem_filter.mpr
    ⟨List.mem_map_of_mem hpart, decide_eq_true hkept⟩)
  have hchars := hportable.chars
  rw [String.toList_ofList, List.any_eq_false] at hchars
  exact Bool.not_eq_true _ ▸ hchars c hmem

theorem windowsRules_parts (h : ∀ part ∈ pathParts path, Portable P part) :
    (windowsRules upcase).parts path = pathParts path := by
  have hsplit : path.toList.splitOnP (windowsRules upcase).separator =
      path.toList.splitOn '/' := by
    refine splitOnP_congr fun c hc => ?_
    have hallowed := forbiddenNameChar_of_mem h hc
    have hbackslash : c ≠ '\\' := by
      rintro rfl
      exact absurd hallowed (by decide)
    show (c == '/' || c == '\\') = (c == '/')
    rw [beq_false_of_ne hbackslash, Bool.or_false]
  rw [PathRules.parts, hsplit, pathParts]

theorem windowsRules_isRooted (h : ∀ part ∈ pathParts path, Portable P part)
    (habsolute : isAbsolute path = false) :
    (windowsRules upcase).isRooted path = false := by
  have hallowed : ∀ c ∈ path.toList, forbiddenNameChar c = false :=
    fun c hc => forbiddenNameChar_of_mem h hc
  rw [isAbsolute, decide_eq_false_iff_not] at habsolute
  show (path.toList.head?.any _ || hasDrive path) = false
  rw [hasDrive]
  rcases hpath : path.toList with _ | ⟨c, cs⟩
  · rfl
  rw [hpath] at hallowed habsolute
  obtain ⟨hc, hcs⟩ := List.forall_mem_cons.mp hallowed
  have hslash : c ≠ '/' := fun heq => habsolute (heq ▸ rfl)
  have hbackslash : c ≠ '\\' := by
    rintro rfl
    exact absurd hc (by decide)
  rw [Bool.or_eq_false_iff]
  refine ⟨by simp [hslash, hbackslash], ?_⟩
  split
  · rename_i heq
    obtain ⟨rfl, rfl⟩ := List.cons.inj heq
    exact absurd (hcs ':' List.mem_cons_self) (by decide)
  · rfl

theorem windowsRules_name (h : Portable P part) :
    (windowsRules upcase).name part =
      if isDevice part then none else some (upcase part) := by
  have hnil : part.toList ≠ [] := fun heq => h.ne_empty (by
    simpa using congrArg String.ofList heq)
  have hkept : (part.toList.rdropWhile fun c => c = ' ' || c = '.') =
      part.toList := by
    rw [List.rdropWhile_eq_self_iff]
    intro hne hlast
    have hends := h.ends
    rw [List.getLast?_eq_some_getLast hne, Option.any_some, hlast] at hends
    cases hends
  show (if part.toList.any forbiddenNameChar || isDevice part then none else
    if part.toList.rdropWhile _ = [] then none else some _) = _
  rw [h.chars, Bool.false_or, hkept, if_neg hnil, String.ofList_toList]

/-! ## The devices that pass the check -/

/-- Case folding gives ASCII texts in lower case. -/
def FoldsAscii (P : Platform) : Prop :=
  ∀ s : String, (∀ c ∈ s.toList, c.toNat < 128) →
    P.casefold s = String.ofList (s.toList.map Char.toLower)

theorem ascii_of_toLower (h : c.toLower.toNat < 128) : c.toNat < 128 := by
  by_contra hlarge
  have hsame : c.toLower = c := by
    apply dif_neg
    rintro ⟨-, hz⟩
    have hbound : c.toNat ≤ 90 := UInt32.le_iff_toNat_le.mp hz
    omega
  rw [hsame] at h
  exact hlarge h

theorem reservedBasenames_ascii : ∀ name ∈ reservedBasenames,
    ∀ c ∈ name.toList, c.toNat < 128 := by
  have hall : (reservedBasenames.all fun name =>
      name.toList.all fun c => decide (c.toNat < 128)) = true := by
    decide +kernel
  intro name hname c hc
  exact of_decide_eq_true
    (List.all_eq_true.mp (List.all_eq_true.mp hall name hname) c hc)

theorem isDevice_iff (hfold : FoldsAscii P) (h : Portable P part) :
    isDevice part = true ↔ MissedDevice part := by
  rw [isDevice, decide_eq_true_iff, List.mem_append]
  refine ⟨fun hdevice => ?_, fun hmissed => hmissed.imp And.left id⟩
  refine hdevice.imp (fun hreserved => ⟨hreserved, ?_⟩) id
  by_contra hspace
  have hstem : deviceStem part =
      (part.toList.takeWhile (· ≠ '.')).map Char.toLower := by
    rw [deviceStem, List.rdropWhile_eq_self_iff.mpr]
    intro hne hlast
    rw [List.getLast?_eq_some_getLast hne] at hspace
    exact hspace (congrArg some (of_decide_eq_true hlast))
  have hascii := reservedBasenames_ascii _ hreserved
  rw [hstem, String.toList_ofList] at hascii
  have hlower := hfold (String.ofList (part.toList.takeWhile (· ≠ '.')))
    fun c hc => ascii_of_toLower (hascii c.toLower (List.mem_map_of_mem (by
      rwa [String.toList_ofList] at hc)))
  rw [String.toList_ofList, ← hstem] at hlower
  exact h.stem (hlower ▸ hreserved)

/-! ## Accepted references -/

section

variable {upcase : String → String} {rootId reference : String}

theorem Accepted.portable (h : Accepted P rootId reference) :
    ∀ part ∈ pathParts (relativePath rootId reference), Portable P part :=
  (accepted_iff.mp h).2.2.2

theorem Accepted.resolve_posix (h : Accepted P rootId reference) :
    posixRules.resolve (relativePath rootId reference) =
      some (pathParts (relativePath rootId reference)) := by
  have hrooted := (posixRules_isRooted _).trans (accepted_iff.mp h).2.1
  have hfollow : posixRules.follow (pathParts (relativePath rootId reference)) =
      some ((pathParts (relativePath rootId reference)).map id) := by
    refine PathRules.follow_of_names id fun part hpart => ⟨?_, rfl⟩
    rintro rfl
    exact (accepted_iff.mp h).2.2.1 hpart
  rw [PathRules.resolve_of_not_isRooted hrooted, posixRules_parts, hfollow,
    List.map_id]

theorem Accepted.resolve_windows (h : Accepted P rootId reference) :
    (windowsRules upcase).resolve (relativePath rootId reference) =
      (windowsRules upcase).follow
        (pathParts (relativePath rootId reference)) := by
  have hrooted : (windowsRules upcase).isRooted
      (relativePath rootId reference) = false :=
    windowsRules_isRooted h.portable (accepted_iff.mp h).2.1
  rw [PathRules.resolve_of_not_isRooted hrooted, windowsRules_parts h.portable]

theorem Accepted.follow_windows (h : Accepted P rootId reference)
    (hfold : FoldsAscii P)
    (hnames : NamesFile (relativePath rootId reference)) :
    (windowsRules upcase).follow (pathParts (relativePath rootId reference)) =
      some ((pathParts (relativePath rootId reference)).map upcase) := by
  refine PathRules.follow_of_names upcase fun part hpart => ?_
  have hportable := h.portable part hpart
  refine ⟨hportable.ne_up, ?_⟩
  rw [windowsRules_name hportable, if_neg]
  rw [isDevice_iff hfold hportable]
  exact hnames.2 part hpart

/-- An accepted reference leads below the root on both platforms if it has a
part and no device that the check misses. -/
theorem Accepted.strictlyBelow_iff (h : Accepted P rootId reference)
    (hfold : FoldsAscii P) :
    (∀ rules ∈ [posixRules, windowsRules upcase],
      StrictlyBelow rules (relativePath rootId reference)) ↔
      NamesFile (relativePath rootId reference) := by
  constructor
  · intro hbelow
    obtain ⟨names, hresolve, hne⟩ := hbelow (windowsRules upcase)
      (List.mem_cons_of_mem _ List.mem_cons_self)
    rw [h.resolve_windows] at hresolve
    refine ⟨fun hnil => hne ?_, fun part hpart hmissed => ?_⟩
    · exact (PathRules.names_eq_nil_iff hresolve).mpr hnil
    · obtain ⟨name, hname⟩ :=
        PathRules.exists_name_of_follow hresolve part hpart
      have hportable := h.portable part hpart
      rw [windowsRules_name hportable,
        if_pos ((isDevice_iff hfold hportable).mpr hmissed)] at hname
      cases hname
  · intro hnames rules hrules
    rcases List.mem_pair.mp hrules with rfl | rfl
    · exact ⟨_, h.resolve_posix, hnames.1⟩
    · refine ⟨_, h.resolve_windows.trans (h.follow_windows hfold hnames), ?_⟩
      exact fun hnil => hnames.1 (List.map_eq_nil_iff.mp hnil)

/-- Two references lead to one file where their parts are the same but for
their letter case on Windows. -/
theorem Accepted.sameFile_iff {reference' : String}
    (h : Accepted P rootId reference) (h' : Accepted P rootId reference')
    (hfold : FoldsAscii P) (hnames : NamesFile (relativePath rootId reference))
    (hnames' : NamesFile (relativePath rootId reference')) :
    (∃ rules ∈ [posixRules, windowsRules upcase],
      SameFile rules (relativePath rootId reference)
        (relativePath rootId reference')) ↔
      (pathParts (relativePath rootId reference)).map upcase =
        (pathParts (relativePath rootId reference')).map upcase := by
  have hwindows : (windowsRules upcase).resolve _ = _ :=
    h.resolve_windows.trans (h.follow_windows hfold hnames)
  have hwindows' : (windowsRules upcase).resolve _ = _ :=
    h'.resolve_windows.trans (h'.follow_windows hfold hnames')
  constructor
  · rintro ⟨rules, hrules, names, hresolve, hresolve'⟩
    rcases List.mem_pair.mp hrules with rfl | rfl
    · rw [h.resolve_posix] at hresolve
      rw [h'.resolve_posix] at hresolve'
      exact congrArg (List.map upcase)
        (Option.some.inj (hresolve.trans hresolve'.symm))
    · exact Option.some.inj ((hwindows.symm.trans hresolve).trans
        (hresolve'.symm.trans hwindows'))
  · intro hsame
    exact ⟨windowsRules upcase, List.mem_cons_of_mem _ List.mem_cons_self, _,
      hwindows, hwindows'.trans (congrArg some hsame.symm)⟩

end

/-! ## File names of exports -/

theorem of_mem_splitOnP {α : Type} {p : α → Bool} {xs part : List α}
    (h : part ∈ xs.splitOnP p) : ∀ x ∈ part, p x = false := by
  induction xs generalizing part with
  | nil =>
      rw [List.splitOnP_nil] at h
      obtain rfl := List.mem_singleton.mp h
      exact fun x hx => absurd hx List.not_mem_nil
  | cons a xs ih =>
      rw [List.splitOnP_cons_eq_if_modifyHead] at h
      obtain ⟨first, rest, hsplit⟩ :=
        List.exists_cons_of_ne_nil (List.splitOnP_ne_nil p xs)
      rw [hsplit] at ih h
      split at h
      · rcases List.mem_cons.mp h with rfl | h
        · exact fun x hx => absurd hx List.not_mem_nil
        · exact ih h
      · rename_i ha
        rcases List.mem_cons.mp h with rfl | h
        · rw [List.forall_mem_cons]
          exact ⟨Bool.not_eq_true _ ▸ ha, ih List.mem_cons_self⟩
        · exact ih (List.mem_cons_of_mem _ h)

theorem mem_of_mem_joinSpaces {cs : List Char} (h : c ∈ joinSpaces cs) :
    c ∈ cs ∨ c = '_' := by
  induction cs with
  | nil => exact absurd h List.not_mem_nil
  | cons d cs ih =>
      rw [joinSpaces] at h
      split at h
      · rcases List.mem_cons.mp h with rfl | h
        · exact Or.inl List.mem_cons_self
        · exact (ih h).imp_left (List.mem_cons_of_mem _)
      split at h
      · exact (ih h).imp_left (List.mem_cons_of_mem _)
      · rcases List.mem_cons.mp h with rfl | h
        · exact Or.inr rfl
        · exact (ih h).imp_left (List.mem_cons_of_mem _)

theorem mem_of_mem_strip {s : String} (h : c ∈ (strip s).toList) :
    c ∈ s.toList := by
  rw [strip, String.toList_ofList, stripChars, List.mem_reverse] at h
  have hleft := (List.dropWhile_suffix _).mem h
  rw [List.mem_reverse] at hleft
  exact (List.dropWhile_suffix _).mem hleft

theorem slash_notMem_of_mem_pathParts (h : part ∈ pathParts path) :
    '/' ∉ part.toList := by
  obtain ⟨cs, hcs, rfl⟩ := List.mem_map.mp (List.mem_filter.mp h).1
  intro hslash
  rw [String.toList_ofList] at hslash
  exact absurd (of_mem_splitOnP (p := (· == '/')) hcs '/' hslash) (by decide)

theorem safeFilename_eq_ok {requested : Json} {format : ExportFormat}
    {filename : String} (h : safeFilename P requested format = .ok filename) :
    Portable P filename ∧ '/' ∉ filename.toList := by
  obtain ⟨stripped, -, h⟩ := bind_ok h
  obtain ⟨-, h⟩ := check_ok h
  dsimp only at h
  split at h
  · rename_i name _ hparts
    obtain ⟨-, h⟩ := check_ok h
    obtain ⟨-, h⟩ := check_ok h
    obtain ⟨-, h⟩ := check_ok h
    obtain ⟨⟨⟩, hsegment, h⟩ := bind_ok h
    have hname : '/' ∉ name.toList := by
      apply slash_notMem_of_mem_pathParts
      rw [hparts]
      exact List.mem_singleton_self _
    have hjoined : '/' ∉ (joinSpaces (strip name).toList) := by
      intro hslash
      rcases mem_of_mem_joinSpaces hslash with hslash | hslash
      · exact hname (mem_of_mem_strip hslash)
      · exact absurd hslash (by decide)
    obtain rfl := Except.ok.inj h
    refine ⟨validateOutputPathSegment_eq_ok_iff.mp hsegment, ?_⟩
    split
    · rwa [String.toList_ofList]
    · rw [String.toList_append, String.toList_ofList, List.mem_append, not_or]
      refine ⟨hjoined, ?_⟩
      cases format <;> decide
  · cases h

theorem accepted_safeFilename {requested : Json} {format : ExportFormat}
    {filename : String} (rootId : String)
    (h : safeFilename P requested format = .ok filename) :
    Accepted P rootId ("derived://" ++ rootId ++ "/" ++ filename) := by
  obtain ⟨hportable, hslash⟩ := safeFilename_eq_ok h
  have hrelative : relativePath rootId
      ("derived://" ++ rootId ++ "/" ++ filename) = filename := by
    rw [relativePath, String.toList_append (t := filename),
      ← String.length_toList, List.drop_left, String.ofList_toList]
  have hparts : pathParts filename = [filename] := by
    rw [pathParts, List.splitOn_eq_singleton hslash, List.map_singleton,
      String.ofList_toList, List.filter_singleton,
      decide_eq_true ⟨hportable.ne_empty, hportable.ne_dot⟩]
    rfl
  rw [accepted_iff, hrelative, hparts, String.toList_append (t := filename)]
  refine ⟨List.prefix_append _ _, ?_, ?_, ?_⟩
  · rw [isAbsolute, decide_eq_false_iff_not]
    exact fun hhead => hslash (List.mem_of_head? hhead)
  · exact fun hup => hportable.ne_up (List.mem_singleton.mp hup).symm
  · exact fun part hpart => List.mem_singleton.mp hpart ▸ hportable

/-- References are contained as long as each has a part and no device that is
missed, and two that differ have parts that differ in more than letter case. -/
theorem referencesContained_iff (P : Platform) (hfold : FoldsAscii P)
    (upcase : String → String) (rootId reference reference' : String) :
    ReferencesContained P upcase rootId reference reference' ↔
      (∀ r ∈ [reference, reference'], Accepted P rootId r →
        NamesFile (relativePath rootId r)) ∧
      (Accepted P rootId reference → Accepted P rootId reference' →
        reference ≠ reference' →
          (pathParts (relativePath rootId reference)).map upcase ≠
            (pathParts (relativePath rootId reference')).map upcase) := by
  have hbelow : (∀ r ∈ [reference, reference'], Accepted P rootId r →
      ∀ rules ∈ [posixRules, windowsRules upcase],
        StrictlyBelow rules (relativePath rootId r)) ↔
      ∀ r ∈ [reference, reference'], Accepted P rootId r →
        NamesFile (relativePath rootId r) :=
    forall₂_congr fun r _ => forall_congr' fun h => h.strictlyBelow_iff hfold
  constructor
  · intro h
    have hnames := hbelow.mp h.below
    refine ⟨hnames, fun haccepted haccepted' hne hsame => ?_⟩
    obtain ⟨rules, hrules, hfile⟩ :=
      (haccepted.sameFile_iff haccepted' hfold
        (hnames reference List.mem_cons_self haccepted)
        (hnames reference' (List.mem_cons_of_mem _ List.mem_cons_self)
          haccepted')).mpr hsame
    exact h.different haccepted haccepted' hne rules hrules hfile
  · rintro ⟨hnames, hdiffer⟩
    refine ⟨hbelow.mpr hnames, ?_, fun _ _ _ => accepted_safeFilename _⟩
    intro haccepted haccepted' hne rules hrules hfile
    apply hdiffer haccepted haccepted' hne
    exact (haccepted.sameFile_iff haccepted' hfold
      (hnames reference List.mem_cons_self haccepted)
      (hnames reference' (List.mem_cons_of_mem _ List.mem_cons_self)
        haccepted')).mp ⟨rules, hrules, hfile⟩

theorem spelledPlatform_foldsAscii : FoldsAscii spelledPlatform :=
  fun s _ => String.ext (by
    rw [String.toList_ofList]
    exact String.toList_map)

/-- One file spelled in two ways. -/
theorem spelledTwice_not_contained :
    ¬ ReferencesContained spelledPlatform String.toUpper "root"
      "derived://root/a" "derived://root/./a" := by
  have haccepted : ∀ r ∈ ["derived://root/a", "derived://root/./a"],
      pathParts (relativePath "root" r) = ["a"] ∧
        Accepted spelledPlatform "root" r := by
    intro r hr
    rcases List.mem_pair.mp hr with rfl | rfl
    · exact ⟨by decide +kernel, eq_ok_of_toOption (by decide +kernel)⟩
    · exact ⟨by decide +kernel, eq_ok_of_toOption (by decide +kernel)⟩
  rw [referencesContained_iff _ spelledPlatform_foldsAscii]
  rintro ⟨-, hdiffer⟩
  obtain ⟨⟨hparts, h⟩, hparts', h'⟩ :=
    (List.forall_mem_cons.mp haccepted).imp_right
      fun hrest => List.forall_mem_singleton.mp hrest
  exact hdiffer h h' (by decide) (by rw [hparts, hparts'])

/-- The root itself is accepted. -/
theorem rootReference_not_contained :
    ¬ ∀ reference reference' : String, ReferencesContained spelledPlatform
      String.toUpper "root" reference reference' := by
  intro h
  have haccepted : Accepted spelledPlatform "root" "derived://root/" :=
    eq_ok_of_toOption (by decide +kernel)
  obtain ⟨names, hresolve, hne⟩ := (h "derived://root/" "derived://root/").below
    _ List.mem_cons_self haccepted posixRules List.mem_cons_self
  have hroot : posixRules.resolve (relativePath "root" "derived://root/") =
      some [] := by
    decide +kernel
  rw [hroot] at hresolve
  exact hne (Option.some.inj hresolve).symm

end ApexForensic.Reports
