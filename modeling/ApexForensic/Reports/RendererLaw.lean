import ApexForensic.Reports.Renderer

/-!
# Rendered output under interleaved calls

Temporary files and outputs never share a path, so the only step that can
replace an output is the move of a temporary file to a name that another call
has taken since the second check.  Where no such move is made, and no step
outside the guarded part fails, one call for each name succeeds.
-/

namespace ApexForensic.Reports.Renderer

open ApexForensic.Support ApexForensic.Domain

variable {call : RenderCall} {files : Files} {phase : Phase}

/-! ## The extensions of paths -/

section Names

variable {fold : Char → List Char} {ext : List Char}

theorem splitOn_cons (c : Char) (cs : List Char) :
    (c :: cs).splitOn '/' =
      if c = '/' then [] :: cs.splitOn '/'
      else (cs.splitOn '/').modifyHead (List.cons c) := by
  rw [List.splitOn, List.splitOnP_cons_eq_if_modifyHead]
  simp [List.splitOn]

theorem splitOn_of_notMem {cs : List Char} (h : '/' ∉ cs) :
    cs.splitOn '/' = [cs] :=
  List.splitOnP_eq_singleton fun c hc => by
    simpa using fun heq : c = '/' => h (heq ▸ hc)

theorem splitOn_of_suffix (hslash : fold '/' = ['/']) (hext : '/' ∉ ext)
    {cs : List Char} (h : ext <:+ cs.flatMap fold) :
    ∃ init part, cs.splitOn '/' = init ++ [part] ∧
      ext <:+ part.flatMap fold := by
  induction cs with
  | nil => exact ⟨[], [], List.splitOn_nil _, h⟩
  | cons c cs ih =>
      rw [splitOn_cons]
      by_cases hcs : ext <:+ cs.flatMap fold
      · obtain ⟨init, part, hsplit, hsuffix⟩ := ih hcs
        rw [hsplit]
        split
        · exact ⟨[] :: init, part, rfl, hsuffix⟩
        · cases init with
          | nil =>
              refine ⟨[], c :: part, rfl, ?_⟩
              rw [List.flatMap_cons]
              exact List.suffix_append_of_suffix hsuffix
          | cons first init => exact ⟨(c :: first) :: init, part, rfl, hsuffix⟩
      · -- the extension reaches into the first character
        obtain ⟨pre, hpre⟩ := h
        rw [List.flatMap_cons] at hpre
        rcases List.append_eq_append_iff.mp hpre with
          ⟨rest, hfold, hrest⟩ | ⟨rest, -, hrest⟩
        · have hnotMem : '/' ∉ cs := fun hmem => hext (by
            rw [hrest]
            refine List.mem_append_right _ (List.mem_flatMap.mpr
              ⟨'/', hmem, ?_⟩)
            rw [hslash]
            exact List.mem_singleton_self _)
          have hc : c ≠ '/' := by
            rintro rfl
            rw [hslash] at hfold
            rcases List.append_eq_singleton_iff.mp hfold.symm with
              ⟨-, rfl⟩ | ⟨-, rfl⟩
            · exact hext (hrest ▸ List.mem_cons_self)
            · exact hcs (hrest ▸ List.suffix_refl _)
          rw [if_neg hc, splitOn_of_notMem hnotMem]
          refine ⟨[], c :: cs, rfl, ?_⟩
          rw [List.flatMap_cons, ← hpre]
          exact List.suffix_append _ _
        · exact absurd ⟨rest, hrest.symm⟩ hcs

theorem pathParts_of_suffix (hslash : fold '/' = ['/'])
    (hdot : fold '.' = ['.']) (hext : '/' ∉ ext) (hlong : 1 < ext.length)
    {s : String} (h : ext <:+ s.toList.flatMap fold) :
    ∃ init part, pathParts s = init ++ [String.ofList part] ∧
      ext <:+ part.flatMap fold := by
  obtain ⟨init, part, hsplit, hsuffix⟩ := splitOn_of_suffix hslash hext h
  have hlength := hsuffix.length_le
  have hkept : String.ofList part ≠ "" ∧ String.ofList part ≠ "." := by
    constructor
    · intro heq
      obtain rfl : part = [] := by simpa using congrArg String.toList heq
      rw [List.flatMap_nil, List.length_nil] at hlength
      omega
    · intro heq
      obtain rfl : part = ['.'] := by simpa using congrArg String.toList heq
      rw [List.flatMap_singleton, hdot, List.length_singleton] at hlength
      omega
  refine ⟨(init.map String.ofList).filter fun part =>
    part ≠ "" ∧ part ≠ ".", part, ?_, hsuffix⟩
  rw [pathParts, hsplit, List.map_append, List.filter_append, List.map_singleton,
    List.filter_singleton, decide_eq_true hkept]
  rfl

end Names

variable (P : RendererPlatform)

/-- The path of an output: one part with one of the two extensions. -/
def IsOutput (path : List String) : Prop :=
  ∃ part : List Char, path = [String.ofList part] ∧
    (".html".toList <:+ casefold P part ∨ ".pdf".toList <:+ casefold P part)

/-- The path of a temporary file. -/
def IsTemp (path : List String) : Prop :=
  ∃ init part, path = init ++ [String.ofList part] ∧ ".tmp".toList <:+ part

variable {P}

theorem fold_slash : P.fold '/' = ['/'] :=
  P.fold_ascii '/' (by decide)

theorem fold_dot : P.fold '.' = ['.'] :=
  P.fold_ascii '.' (by decide)

theorem IsTemp.not_isOutput {path : List String} (htemp : IsTemp path) :
    ¬ IsOutput P path := by
  obtain ⟨init, part, rfl, ⟨stem, rfl⟩⟩ := htemp
  rintro ⟨part', hpath, hext⟩
  have hpart : String.ofList (stem ++ ".tmp".toList) = String.ofList part' := by
    simpa using congrArg List.getLast? hpath
  have hfold : casefold P part' = casefold P stem ++ ['.', 't', 'm', 'p'] := by
    have hsame := congrArg String.toList hpart
    simp only [String.toList_ofList] at hsame
    subst hsame
    rw [casefold, List.flatMap_append, casefold]
    simp [P.fold_ascii]
  rcases hext with ⟨w, hw⟩ | ⟨w, hw⟩
  · have hlast := congrArg List.getLast? (hw.trans hfold)
    simp at hlast
  · have hlast := congrArg List.getLast? (hw.trans hfold)
    simp at hlast

theorem isTemp_tempPath (filename random : String) :
    IsTemp (tempPath filename random) := by
  obtain ⟨init, part, hparts, hsuffix⟩ := @pathParts_of_suffix (fun c => [c])
    ".tmp".toList rfl rfl (by decide) (by decide)
    ("." ++ filename ++ "." ++ random ++ ".tmp") (by
      rw [List.flatMap_singleton', String.toList_append]
      exact List.suffix_append _ _)
  exact ⟨init, part, hparts, by simpa using hsuffix⟩

theorem pathParts_safeFilename {requested filename : String}
    (h : safeFilename P requested = .ok filename) :
    (pathParts filename).length = 1 := by
  unfold safeFilename at h
  dsimp only at h
  split_ifs at h with hbad
  obtain rfl := Except.ok.inj h
  obtain ⟨-, hbad⟩ := not_or.mp hbad
  obtain ⟨-, hbad⟩ := not_or.mp hbad
  obtain ⟨hone, hbad⟩ := not_or.mp hbad
  obtain ⟨-, hbad⟩ := not_or.mp hbad
  obtain ⟨-, hbad⟩ := not_or.mp hbad
  have hchars := (not_or.mp hbad).1
  have hsame : (strip requested).toList.map
      (fun c => if c = '\\' then '/' else c) = (strip requested).toList := by
    refine (List.map_congr_left fun c hc => if_neg ?_).trans (List.map_id _)
    intro hbackslash
    refine hchars (List.any_eq_true.mpr ⟨c, hc, ?_⟩)
    rw [hbackslash]
    rfl
  rw [hsame, String.ofList_toList] at hone
  exact not_not.mp hone

theorem isOutput_destination {args : RenderArgs} (h : prepare P args = .ok call)
    : IsOutput P call.destination := by
  obtain ⟨filename, hfilename, h⟩ := bind_ok h
  obtain ⟨format, hformat, h⟩ := bind_ok h
  obtain ⟨output, -, h⟩ := bind_ok h
  obtain ⟨-, h⟩ := check_ok h
  obtain rfl := Except.ok.inj h
  have hone := pathParts_safeFilename hfilename
  have hlast : ∀ {ext : List Char}, '/' ∉ ext → 1 < ext.length →
      ext <:+ casefold P filename.toList →
      ∃ part, pathParts filename = [String.ofList part] ∧
        ext <:+ casefold P part := by
    intro ext hslash hlong hsuffix
    obtain ⟨init, part, hparts, hpart⟩ :=
      pathParts_of_suffix fold_slash fold_dot hslash hlong hsuffix
    rw [hparts] at hone
    obtain rfl : init = [] := by simpa using hone
    exact ⟨part, hparts, hpart⟩
  rw [formatOf] at hformat
  split at hformat
  · rename_i hhtml
    obtain ⟨part, hparts, hpart⟩ := hlast (by decide) (by decide) hhtml
    exact ⟨part, hparts, Or.inl hpart⟩
  split at hformat
  · rename_i hpdf
    obtain ⟨part, hparts, hpart⟩ := hlast (by decide) (by decide) hpdf
    exact ⟨part, hparts, Or.inr hpart⟩
  · cases hformat

theorem rendered_of_prepare {args : RenderArgs} (h : prepare P args = .ok call)
    : args.rendered call.format = .ok call.output := by
  obtain ⟨filename, -, h⟩ := bind_ok h
  obtain ⟨format, -, h⟩ := bind_ok h
  obtain ⟨output, houtput, h⟩ := bind_ok h
  obtain ⟨-, h⟩ := check_ok h
  obtain rfl := Except.ok.inj h
  exact houtput

/-! ## Where a call stands -/

/-- The temporary file of a call. -/
def Phase.temp? : Phase → Option (List String)
  | .writing _ temp => some temp
  | .rechecking _ temp => some temp
  | .replacing _ temp => some temp
  | .cleaning _ temp _ => some temp
  | _ => none

/-- A call whose file has been moved to its name. -/
def Phase.published? : Phase → Option RenderCall
  | .reading call => some call
  | .sizing call _ => some call
  | .finished call (.ok _) => some call
  | _ => none

/-- A call that has rendered its package. -/
def Phase.call? : Phase → Option RenderCall
  | .idle => none
  | .refused _ => none
  | .checking call => some call
  | .creating call => some call
  | .writing call _ => some call
  | .rechecking call _ => some call
  | .replacing call _ => some call
  | .cleaning call _ _ => some call
  | .reading call => some call
  | .sizing call _ => some call
  | .finished call _ => some call

def RenderCall.file (call : RenderCall) : OutputFile :=
  ⟨call.destination, call.output⟩

/-- The call comes from a package that was rendered. -/
def Prepared (P : RendererPlatform) (call : RenderCall) : Prop :=
  ∃ args, prepare P args = .ok call

theorem Prepared.isOutput (h : Prepared P call) : IsOutput P call.destination :=
  h.elim fun _ h => isOutput_destination h

section Files

variable {files files' : Files} {path : List String} {file : OutputFile}

def Present (files : Files) (path : List String) : Prop :=
  ∃ file ∈ files.rows, file.path = path

theorem present_of_find? (h : files.find? path = some file) :
    Present files path :=
  ⟨file, Table.find?_eq_some_iff.mp h⟩

theorem not_present_of_find? (h : files.find? path = none) :
    ¬ Present files path := by
  rintro ⟨file, hfile⟩
  rw [Table.find?_eq_some_iff.mpr hfile] at h
  cases h

/-- No output is changed or taken away. -/
def KeepsOutputs (P : RendererPlatform) (files files' : Files) : Prop :=
  ∀ file ∈ files.rows, IsOutput P file.path → file ∈ files'.rows

theorem KeepsOutputs.refl (files : Files) : KeepsOutputs P files files :=
  fun _ h _ => h

theorem KeepsOutputs.trans {files'' : Files} (h : KeepsOutputs P files files')
    (h' : KeepsOutputs P files' files'') : KeepsOutputs P files files'' :=
  fun file hfile hpath => h' file (h file hfile hpath) hpath

end Files

/-- What is known of the files of a call in each phase. -/
def PhaseSound (P : RendererPlatform) (files : Files) : Phase → Prop
  | .idle => True
  | .refused _ => True
  | .checking call => Prepared P call
  | .creating call => Prepared P call
  | .writing call temp =>
      Prepared P call ∧ IsTemp temp ∧ Present files temp
  | .rechecking call temp =>
      Prepared P call ∧ IsTemp temp ∧ ⟨temp, call.output⟩ ∈ files.rows
  | .replacing call temp =>
      Prepared P call ∧ IsTemp temp ∧ ⟨temp, call.output⟩ ∈ files.rows
  | .cleaning call temp failure =>
      Prepared P call ∧ IsTemp temp ∧ Present files temp ∧
        (failure = .report collision → Present files call.destination)
  | .reading call => Prepared P call ∧ call.file ∈ files.rows
  | .sizing call sha256 =>
      Prepared P call ∧ call.file ∈ files.rows ∧
        sha256 = P.sha256 call.output
  | .finished call (.ok result) =>
      Prepared P call ∧ call.file ∈ files.rows ∧
        result = call.result P call.output.length (P.sha256 call.output)
  | .finished call (.error failure) =>
      Prepared P call ∧ (∃ error, failure = .report error) ∧
        (failure = .report collision → Present files call.destination)

theorem PhaseSound.of_keeps {files' : Files} (h : PhaseSound P files phase)
    (houtputs : KeepsOutputs P files files')
    (htemps : ∀ temp, phase.temp? = some temp → IsTemp temp →
      ∀ file ∈ files.rows, file.path = temp → file ∈ files'.rows) :
    PhaseSound P files' phase := by
  have hpresent : ∀ {call}, Prepared P call →
      Present files call.destination → Present files' call.destination := by
    rintro call hcall ⟨file, hfile, hpath⟩
    refine ⟨file, houtputs file hfile ?_, hpath⟩
    rw [hpath]
    exact hcall.isOutput
  have htemp : ∀ {temp}, phase.temp? = some temp → IsTemp temp →
      Present files temp → Present files' temp := by
    rintro temp hphase hisTemp ⟨file, hfile, hpath⟩
    exact ⟨file, htemps temp hphase hisTemp file hfile hpath, hpath⟩
  cases phase with
  | idle => trivial
  | refused error => trivial
  | checking call => exact h
  | creating call => exact h
  | writing call temp => exact ⟨h.1, h.2.1, htemp rfl h.2.1 h.2.2⟩
  | rechecking call temp =>
      exact ⟨h.1, h.2.1, htemps temp rfl h.2.1 _ h.2.2 rfl⟩
  | replacing call temp =>
      exact ⟨h.1, h.2.1, htemps temp rfl h.2.1 _ h.2.2 rfl⟩
  | cleaning call temp failure =>
      exact ⟨h.1, h.2.1, htemp rfl h.2.1 h.2.2.1,
        fun heq => hpresent h.1 (h.2.2.2 heq)⟩
  | reading call => exact ⟨h.1, houtputs _ h.2 h.1.isOutput⟩
  | sizing call sha256 =>
      exact ⟨h.1, houtputs _ h.2.1 h.1.isOutput, h.2.2⟩
  | finished call result =>
      cases result with
      | ok result => exact ⟨h.1, houtputs _ h.2.1 h.1.isOutput, h.2.2⟩
      | error failure =>
          exact ⟨h.1, h.2.1, fun heq => hpresent h.1 (h.2.2 heq)⟩

/-- A step of one call, as far as other calls are concerned. -/
structure Moved (P : RendererPlatform) (files files' : Files)
    (phase phase' : Phase) : Prop where
  sound : PhaseSound P files' phase'
  outputs : KeepsOutputs P files files'
  temps : ∀ file ∈ files.rows, IsTemp file.path →
    phase.temp? ≠ some file.path → file ∈ files'.rows
  newTemp : ∀ temp, phase'.temp? = some temp →
    phase.temp? = some temp ∨ ¬ Present files temp
  newOutput : ∀ call, phase'.published? = some call →
    phase.published? = some call ∨ ¬ Present files call.destination
  published : ∀ call, phase.published? = some call →
    phase'.published? = some call
  accounted : ∀ file ∈ files'.rows,
    (file ∈ files.rows ∧ phase.temp? ≠ some file.path) ∨
      phase'.temp? = some file.path ∨
      ∃ call, phase'.published? = some call ∧ file = call.file

section Steps

variable {files : Files} {phase phase' : Phase} {call : RenderCall}
  {temp : List String}

theorem Moved.same (hsound : PhaseSound P files phase')
    (htemp : phase'.temp? = phase.temp?)
    (hpublished : phase'.published? = phase.published?) :
    Moved P files files phase phase' where
  sound := hsound
  outputs := KeepsOutputs.refl files
  temps _ hfile _ _ := hfile
  newTemp _ h := Or.inl (htemp.symm.trans h)
  newOutput _ h := Or.inl (hpublished.symm.trans h)
  published _ h := hpublished.trans h
  accounted file hfile := by
    by_cases h : phase.temp? = some file.path
    · exact Or.inr (Or.inl (htemp.trans h))
    · exact Or.inl ⟨hfile, h⟩

theorem Moved.write {content : Bytes}
    (hsound : PhaseSound P (writeFile files temp content) phase')
    (hisTemp : IsTemp temp) (htemp : phase'.temp? = some temp)
    (hfree : phase.temp? = some temp ∨
      phase.temp? = none ∧ ¬ Present files temp)
    (hpublished : phase'.published? = phase.published?) :
    Moved P files (writeFile files temp content) phase phase' where
  sound := hsound
  outputs file hfile hpath := by
    refine Table.mem_put.mpr (Or.inr ⟨hfile, ?_⟩)
    rintro rfl
    exact hisTemp.not_isOutput hpath
  temps file hfile hpath hne := by
    refine Table.mem_put.mpr (Or.inr ⟨hfile, ?_⟩)
    intro heq
    rcases hfree with hown | ⟨-, hnone⟩
    · exact hne (hown.trans (congrArg some heq.symm))
    · exact hnone ⟨file, hfile, heq⟩
  newTemp temp' h := by
    obtain rfl := Option.some.inj (htemp.symm.trans h)
    exact hfree.imp_right And.right
  newOutput _ h := Or.inl (hpublished.symm.trans h)
  published _ h := hpublished.trans h
  accounted file hfile := by
    rcases Table.mem_put.mp hfile with rfl | ⟨hfile, hne⟩
    · exact Or.inr (Or.inl htemp)
    · refine Or.inl ⟨hfile, fun hown => ?_⟩
      rcases hfree with h | ⟨h, -⟩
      · exact hne (Option.some.inj (hown.symm.trans h))
      · rw [h] at hown
        cases hown

theorem Moved.remove
    (hsound : PhaseSound P (removeFile files temp) phase')
    (hisTemp : IsTemp temp) (htemp : phase.temp? = some temp)
    (hnone : phase'.temp? = none)
    (hpublished : phase'.published? = phase.published?) :
    Moved P files (removeFile files temp) phase phase' where
  sound := hsound
  outputs file hfile hpath := by
    refine List.mem_filter.mpr ⟨hfile, decide_eq_true ?_⟩
    rintro rfl
    exact hisTemp.not_isOutput hpath
  temps file hfile _ hne := by
    refine List.mem_filter.mpr ⟨hfile, decide_eq_true fun heq => hne ?_⟩
    rw [htemp, heq]
  newTemp temp' h := by
    rw [hnone] at h
    cases h
  newOutput _ h := Or.inl (hpublished.symm.trans h)
  published _ h := hpublished.trans h
  accounted file hfile := by
    obtain ⟨hfile, hne⟩ := List.mem_filter.mp hfile
    refine Or.inl ⟨hfile, fun hown => of_decide_eq_true hne ?_⟩
    exact Option.some.inj (hown.symm.trans htemp)

/-- A step that moves the temporary file of its call to a name that is
free. -/
theorem Moved.publish
    (hcall : Prepared P call) (hisTemp : IsTemp temp)
    (hwritten : ⟨temp, call.output⟩ ∈ files.rows)
    (hfree : ¬ Present files call.destination) :
    Moved P files
      (writeFile (removeFile files temp) call.destination call.output)
      (.replacing call temp) (.reading call) where
  sound := ⟨hcall, Table.mem_put.mpr (Or.inl rfl)⟩
  outputs file hfile hpath := by
    refine Table.mem_put.mpr (Or.inr ⟨List.mem_filter.mpr ⟨hfile,
      decide_eq_true ?_⟩, fun heq => hfree ⟨file, hfile, heq⟩⟩)
    rintro rfl
    exact hisTemp.not_isOutput hpath
  temps file hfile hpath hne := by
    refine Table.mem_put.mpr (Or.inr ⟨List.mem_filter.mpr ⟨hfile,
      decide_eq_true fun heq => hne (congrArg some heq.symm)⟩, ?_⟩)
    intro heq
    exact hfree ⟨file, hfile, heq⟩
  newTemp _ h := by cases h
  newOutput call' h := by
    obtain rfl := Option.some.inj h
    exact Or.inr hfree
  published _ h := by cases h
  accounted file hfile := by
    rcases Table.mem_put.mp hfile with rfl | ⟨hfile, -⟩
    · exact Or.inr (Or.inr ⟨call, rfl, rfl⟩)
    · obtain ⟨hfile, hne⟩ := List.mem_filter.mp hfile
      refine Or.inl ⟨hfile, fun hown => of_decide_eq_true hne ?_⟩
      exact (Option.some.inj hown).symm

/-! ## What each step needs -/

/-- Nothing fails outside the guarded part, a temporary file that is to be
removed is, and no file has taken the name of the output when the temporary
file is moved there. -/
def Meets (files : Files) : Phase → FileStep → Prop
  | .checking _, .exists errorType => errorType = none
  | .creating _, .mkstemp _ errorType => errorType = none
  | .replacing call _, .replace none =>
      files.find? call.destination = none
  | .cleaning _ _ _, .cleanUp outcome => outcome = .removed
  | .reading _, .read errorType => errorType = none
  | .sizing _ _, .stat errorType => errorType = none
  | _, _ => True

theorem permissionError_ne_collision (fchmod : Bool) :
    permissionError P temp fchmod ≠ collision := by
  cases fchmod with
  | true => simp [permissionError, collision, reportError]
  | false => simp [permissionError, collision, reportError]

theorem report_of_raised {failure : Failure}
    (h : failure.raised = collision) : failure = .report collision := by
  cases failure with
  | report error => exact congrArg Failure.report h
  | other errorType => simp [Failure.raised, collision, reportError] at h

theorem find?_of_mem {file : OutputFile} (h : file ∈ files.rows) :
    files.find? file.path = some file :=
  Table.find?_eq_some_iff.mpr ⟨h, rfl⟩

theorem moved_next (hsound : PhaseSound P files phase) {step : FileStep}
    (hmeets : Meets files phase step) :
    Moved P files (next P files phase step).2 phase
      (next P files phase step).1 := by
  unfold next
  split
  · split
    · rename_i args _ call hprepare
      exact .same ⟨args, hprepare⟩ rfl rfl
    · exact .same trivial rfl rfl
  · split
    · cases hmeets
    · rename_i hfind
      exact .same ⟨hsound, ⟨_, rfl⟩, fun _ => present_of_find? hfind⟩ rfl rfl
    · exact .same hsound rfl rfl
  · cases hmeets
  · dsimp only
    split
    · exact .same hsound rfl rfl
    · rename_i hnone
      refine .write ?_ (isTemp_tempPath _ _) rfl
        (Or.inr ⟨rfl, not_present_of_find? hnone⟩) rfl
      exact ⟨hsound, isTemp_tempPath _ _, _, Table.mem_put.mpr (Or.inl rfl),
        rfl⟩
  · split
    · refine .write ?_ hsound.2.1 rfl (Or.inl rfl) rfl
      exact ⟨hsound.1, hsound.2.1, Table.mem_put.mpr (Or.inl rfl)⟩
    · refine .same ⟨hsound.1, hsound.2.1, hsound.2.2, fun heq => ?_⟩ rfl rfl
      exact absurd (Failure.report.inj heq) (permissionError_ne_collision _)
    · refine .write ?_ hsound.2.1 rfl (Or.inl rfl) rfl
      refine ⟨hsound.1, hsound.2.1, ⟨_, Table.mem_put.mpr (Or.inl rfl), rfl⟩,
        nofun⟩
  · split
    · exact .same ⟨hsound.1, hsound.2.1, ⟨_, hsound.2.2, rfl⟩, nofun⟩ rfl rfl
    · rename_i hfind
      exact .same ⟨hsound.1, hsound.2.1, ⟨_, hsound.2.2, rfl⟩,
        fun _ => present_of_find? hfind⟩ rfl rfl
    · exact .same hsound rfl rfl
  · exact .same ⟨hsound.1, hsound.2.1, ⟨_, hsound.2.2, rfl⟩, nofun⟩ rfl rfl
  · obtain ⟨hcall, hisTemp, hwritten⟩ := hsound
    rw [find?_of_mem hwritten]
    exact .publish hcall hisTemp hwritten (not_present_of_find? hmeets)
  · split
    · obtain ⟨hcall, hisTemp, -, hcollision⟩ := hsound
      refine .remove ⟨hcall, ⟨_, rfl⟩, fun heq => ?_⟩ hisTemp rfl rfl rfl
      obtain ⟨file, hfile, hpath⟩ := hcollision
        (report_of_raised (Failure.report.inj heq))
      refine ⟨file, List.mem_filter.mpr ⟨hfile, decide_eq_true ?_⟩, hpath⟩
      rintro rfl
      exact hisTemp.not_isOutput (hpath ▸ hcall.isOutput)
    · cases hmeets
    · cases hmeets
  · split
    · cases hmeets
    · rename_i hfind
      cases hfind.symm.trans (find?_of_mem hsound.2)
    · rename_i file hfind
      cases hfind.symm.trans (find?_of_mem hsound.2)
      exact .same ⟨hsound.1, hsound.2, rfl⟩ rfl rfl
  · split
    · cases hmeets
    · rename_i hfind
      cases hfind.symm.trans (find?_of_mem hsound.2.1)
    · rename_i file hfind
      cases hfind.symm.trans (find?_of_mem hsound.2.1)
      exact .same ⟨hsound.1, hsound.2.1, by rw [← hsound.2.2]; rfl⟩ rfl rfl
  · exact .same hsound rfl rfl

end Steps

/-! ## Interleaved calls -/

section

variable {ι : Type} {initial : Files} {s : Renders ι}

/-- Every call stands well, calls share neither temporary files nor outputs,
and each file is accounted for. -/
structure Sound (P : RendererPlatform) (initial : Files) (s : Renders ι) :
    Prop where
  phases : ∀ i, PhaseSound P s.files (s.phase i)
  temps : ∀ i j temp, (s.phase i).temp? = some temp →
    (s.phase j).temp? = some temp → i = j
  outputs : ∀ i j call call', (s.phase i).published? = some call →
    (s.phase j).published? = some call' →
    call.destination = call'.destination → i = j
  accounted : ∀ file ∈ s.files.rows, file ∈ initial.rows ∨
    (∃ i call, (s.phase i).published? = some call ∧ file = call.file) ∨
      ∃ i, (s.phase i).temp? = some file.path

theorem PhaseSound.present_temp {temp : List String}
    (h : PhaseSound P files phase) (htemp : phase.temp? = some temp) :
    IsTemp temp ∧ Present files temp := by
  cases phase with
  | writing call temp' =>
      cases htemp
      exact h.2
  | rechecking call temp' =>
      cases htemp
      exact ⟨h.2.1, _, h.2.2, rfl⟩
  | replacing call temp' =>
      cases htemp
      exact ⟨h.2.1, _, h.2.2, rfl⟩
  | cleaning call temp' failure =>
      cases htemp
      exact ⟨h.2.1, h.2.2.1⟩
  | _ => cases htemp

theorem PhaseSound.mem_file (h : PhaseSound P files phase)
    (hcall : phase.published? = some call) : call.file ∈ files.rows := by
  cases phase with
  | reading call' =>
      cases hcall
      exact h.2
  | sizing call' sha256 =>
      cases hcall
      exact h.2.1
  | finished call' result =>
      cases result with
      | ok result =>
          cases hcall
          exact h.2.1
      | error failure => cases hcall
  | _ => cases hcall

theorem Sound.update [DecidableEq ι] (hs : Sound P initial s) {i : ι}
    (h : Moved P s.files files (s.phase i) phase) :
    Sound P initial ⟨files, Function.update s.phase i phase⟩ := by
  have htemp : ∀ j temp, j ≠ i → phase.temp? = some temp →
      (s.phase j).temp? ≠ some temp := by
    intro j temp hji hnew hj
    rcases h.newTemp temp hnew with hown | hfree
    · exact hji (hs.temps j i temp hj hown)
    · exact hfree ((hs.phases j).present_temp hj).2
  have houtput : ∀ j call call', j ≠ i → phase.published? = some call →
      (s.phase j).published? = some call' →
      call'.destination ≠ call.destination := by
    intro j call call' hji hnew hj heq
    rcases h.newOutput call hnew with hown | hfree
    · exact hji (hs.outputs j i call' call hj hown heq)
    · exact hfree ⟨_, (hs.phases j).mem_file hj, heq⟩
  refine ⟨fun j => ?_, fun j k temp hj hk => ?_,
    fun j k call call' hj hk heq => ?_, fun file hfile => ?_⟩
  · dsimp only
    by_cases hji : j = i
    · rw [hji, Function.update_self]
      exact h.sound
    · rw [Function.update_of_ne hji]
      refine (hs.phases j).of_keeps h.outputs ?_
      rintro temp hj hisTemp file hfile rfl
      exact h.temps file hfile hisTemp fun hown =>
        hji (hs.temps j i _ hj hown)
  · dsimp only at hj hk
    by_cases hji : j = i
    · by_cases hki : k = i
      · exact hji.trans hki.symm
      · rw [hji, Function.update_self] at hj
        rw [Function.update_of_ne hki] at hk
        exact absurd hk (htemp k temp hki hj)
    · rw [Function.update_of_ne hji] at hj
      by_cases hki : k = i
      · rw [hki, Function.update_self] at hk
        exact absurd hj (htemp j temp hji hk)
      · rw [Function.update_of_ne hki] at hk
        exact hs.temps j k temp hj hk
  · dsimp only at hj hk
    by_cases hji : j = i
    · by_cases hki : k = i
      · exact hji.trans hki.symm
      · rw [hji, Function.update_self] at hj
        rw [Function.update_of_ne hki] at hk
        exact absurd heq.symm (houtput k call call' hki hj hk)
    · rw [Function.update_of_ne hji] at hj
      by_cases hki : k = i
      · rw [hki, Function.update_self] at hk
        exact absurd heq (houtput j call' call hji hk hj)
      · rw [Function.update_of_ne hki] at hk
        exact hs.outputs j k call call' hj hk heq
  · dsimp only at hfile ⊢
    rcases h.accounted file hfile with ⟨hold, hnotOwn⟩ | hown | ⟨call, hcall, heq⟩
    · rcases hs.accounted file hold with hinitial | ⟨j, call, hj, heq⟩ | ⟨j, hj⟩
      · exact Or.inl hinitial
      · refine Or.inr (Or.inl ⟨j, call, ?_, heq⟩)
        by_cases hji : j = i
        · rw [hji, Function.update_self]
          exact h.published call (hji ▸ hj)
        · rwa [Function.update_of_ne hji]
      · refine Or.inr (Or.inr ⟨j, ?_⟩)
        have hji : j ≠ i := fun hji => hnotOwn (hji ▸ hj)
        rwa [Function.update_of_ne hji]
    · refine Or.inr (Or.inr ⟨i, ?_⟩)
      rwa [Function.update_self]
    · refine Or.inr (Or.inl ⟨i, call, ?_, heq⟩)
      rwa [Function.update_self]

/-- The condition on a step of a run. -/
def MoveMeets (s : Renders ι) (move : RenderMove ι) : Prop :=
  Meets s.files (s.phase move.id) move.step

theorem Sound.step [DecidableEq ι] (hs : Sound P initial s)
    {move : RenderMove ι} (hmeets : MoveMeets s move) : Sound P initial (s.step P move) :=
  hs.update (moved_next (hs.phases move.id) hmeets)

theorem Sound.keepsOutputs [DecidableEq ι] (hs : Sound P initial s)
    {move : RenderMove ι} (hmeets : MoveMeets s move) :
    KeepsOutputs P s.files (s.step P move).files :=
  (moved_next (hs.phases move.id) hmeets).outputs

theorem sound_initial (files : Files) :
    Sound P files (.initial files : Renders ι) :=
  ⟨fun _ => trivial, nofun, nofun, fun _ hfile => Or.inl hfile⟩

/-- A finished call returned its result. -/
def Phase.Succeeded (phase : Phase) (call : RenderCall)
    (result : RenderResult) : Prop :=
  phase = .finished call (.ok result)

/-- What the calls on one output root have done. -/
structure RenderLaw (P : RendererPlatform) (initial : Files)
    (s : Renders ι) : Prop where
  /-- A result has the digest and the size of what the call rendered. -/
  digest : ∀ i call result, (s.phase i).Succeeded call result →
    ∃ args, prepare P args = .ok call ∧
      ∃ output, args.rendered call.format = .ok output ∧
        result.sha256 = P.sha256 output ∧ result.sizeBytes = output.length
  /-- A call that reached the file system and failed raised a
  `ReportError`. -/
  reported : ∀ i call failure,
    s.phase i = .finished call (.error failure) →
    ∃ error, failure = .report error
  /-- At most one call for a name succeeds. -/
  unique : ∀ i j call call' result result',
    (s.phase i).Succeeded call result → (s.phase j).Succeeded call' result' →
    call.destination = call'.destination → i = j
  /-- When the calls for a name that was free have ended and none failed for
  another reason, one has succeeded. -/
  succeeds : ∀ path, initial.find? path = none →
    (∃ i call, (s.phase i).call? = some call ∧ call.destination = path) →
    (∀ i call, (s.phase i).call? = some call → call.destination = path →
      (∃ result, (s.phase i).Succeeded call result) ∨
        s.phase i = .finished call (.error (.report collision))) →
    ∃ i call result, (s.phase i).Succeeded call result ∧
      call.destination = path
  /-- A file that was not there is an output of a call or belongs to a call
  still under way. -/
  accounted : ∀ file ∈ s.files.rows, file ∈ initial.rows ∨
    (∃ i call, (s.phase i).published? = some call ∧ file = call.file) ∨
      ∃ i, (s.phase i).temp? = some file.path

theorem Phase.call?_of_published? (h : phase.published? = some call) :
    phase.call? = some call := by
  cases phase with
  | reading call' => exact h
  | sizing call' sha256 => exact h
  | finished call' result =>
      cases result with
      | ok result => exact h
      | error failure => cases h
  | _ => cases h

theorem Sound.law (hs : Sound P initial s) : RenderLaw P initial s := by
  constructor
  · intro i call result hi
    have hphase := hs.phases i
    rw [show s.phase i = _ from hi] at hphase
    obtain ⟨⟨args, hprepare⟩, -, rfl⟩ := hphase
    exact ⟨args, hprepare, call.output, rendered_of_prepare hprepare, rfl, rfl⟩
  · intro i call failure hi
    have hphase := hs.phases i
    rw [hi] at hphase
    exact hphase.2.1
  · intro i j call call' result result' hi hj heq
    refine hs.outputs i j call call' ?_ ?_ heq
    · rw [show s.phase i = _ from hi]
      rfl
    · rw [show s.phase j = _ from hj]
      rfl
  · rintro path hnone ⟨i, call, hi, hpath⟩ hended
    rcases hended i call hi hpath with ⟨result, hresult⟩ | hcollision
    · exact ⟨i, call, result, hresult, hpath⟩
    -- the file the call collided with was published by another one
    have hphase := hs.phases i
    rw [hcollision] at hphase
    obtain ⟨hprepared, -, hpresent⟩ := hphase
    obtain ⟨file, hfile, hsame⟩ := hpresent rfl
    rcases hs.accounted file hfile with hinitial | ⟨j, call', hj, rfl⟩ | ⟨j, hj⟩
    · exact absurd ⟨file, hinitial, hsame.trans hpath⟩
        (not_present_of_find? hnone)
    · have hsame : call'.destination = path := hsame.trans hpath
      rcases hended j call' (Phase.call?_of_published? hj) hsame with
        ⟨result, hresult⟩ | hcollision'
      · exact ⟨j, call', result, hresult, hsame⟩
      · rw [hcollision'] at hj
        cases hj
    · have hisTemp := ((hs.phases j).present_temp hj).1
      exact absurd (hsame ▸ hprepared.isOutput) hisTemp.not_isOutput
  · exact hs.accounted

end

/-! ## Two calls for one name -/

/-- A platform on which every character is its own lower case. -/
def plainPlatform : RendererPlatform where
  fold c := [c.toLower]
  fold_ascii _ _ := rfl
  sha256 bytes := String.ofList (bytes.map fun b => Char.ofNat b.toNat)
  osName := "posix"
  derivedOutputRootId := "reports"

/-- A call whose page is the one byte. -/
def pageArgs (byte : UInt8) : RenderArgs where
  requestedFilename := "report.html"
  rendered _ := .ok [byte]

/-- A call up to the point at which its temporary file is to be moved. -/
def written {ι : Type} (i : ι) (byte : UInt8) (random : String) :
    List (RenderMove ι) :=
  [⟨i, .begin (pageArgs byte)⟩, ⟨i, .exists none⟩, ⟨i, .mkstemp random none⟩,
    ⟨i, .write .written⟩, ⟨i, .recheck none⟩]

end ApexForensic.Reports.Renderer
