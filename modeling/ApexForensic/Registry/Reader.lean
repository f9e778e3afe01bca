import ApexForensic.Registry.Model
import ApexForensic.Support.Service

/-!
# What the reader makes of an export

The reader is one fold over the joined lines.  Read as blocks, each a section
with the lines up to the next one, the text says the same: every section is
kept with the values of its lines, and a line that is none is a warning.  Only
a `hex(` type without a colon ends the reading.
-/

namespace ApexForensic.Registry

open ApexForensic.Support ApexForensic.Domain

abbrev Line := ℕ × List Char

def Line.stripped (line : Line) : List Char := stripChars line.2

def Line.opens (line : Line) : Bool := isSectionLine line.stripped

/-- A named value of a type `hex(` with no colon after it. -/
def Line.unreadable (line : Line) : Bool :=
  match parseName line.stripped with
  | some (_, rawData) =>
      startsWithFolded "hex(".toList rawData && !rawData.elem ':'
  | none => false

/-- What a line of a section is read as. -/
inductive Reading where
  | nothing
  | value (value : RegValue)
  | warning (warning : ℕ × String)
  | failure

def Reading.value? : Reading → Option RegValue
  | .value v => some v
  | _ => none

def Reading.warning? : Reading → Option (ℕ × String)
  | .warning w => some w
  | _ => none

/-- A section and the lines that follow it. -/
structure Block where
  header : RegSection
  lines : List Line

def Block.Readable (block : Block) : Prop :=
  ∀ line ∈ block.lines, line.unreadable = false

instance (block : Block) : Decidable block.Readable := by
  unfold Block.Readable
  infer_instance

/-- The lines up to the next section. -/
def bodyOf (lines : List Line) : List Line :=
  lines.takeWhile fun line => !line.opens

/-- The sections in their order, each with its lines. -/
def blocksOf : List Line → List Block
  | [] => []
  | line :: lines =>
      if line.opens then
        ⟨openSection line.stripped line.1, bodyOf lines⟩ :: blocksOf lines
      else blocksOf lines

/-- The blocks of the lines that are left while a section is open, or none. -/
def blocksFrom (current : Option RegSection) (lines : List Line) :
    List Block :=
  current.toList.map (⟨·, bodyOf lines⟩) ++ blocksOf lines

section

variable (P : Platform) {s : ReaderState} {line : Line} {lines : List Line}
  {header : RegSection}

def Line.reading (line : Line) : Reading :=
  if line.stripped = [] ∨ line.stripped.head? = some ';' then .nothing
  else
    match parseValueLine P line.stripped line.1 with
    | .ok value => .value value
    | .error (.value message) => .warning (line.1, message)
    | .error .index => .failure

def Block.toSection (block : Block) : RegSection :=
  { block.header with
    values := block.header.values ++
      block.lines.filterMap fun line => (line.reading P).value? }

def Block.warnings (block : Block) : List (ℕ × String) :=
  block.lines.filterMap fun line => (line.reading P).warning?

/-- What comes of the blocks that are left. -/
def readBlocks (s : ReaderState) (blocks : List Block) :
    Except PyError (List RegSection × List (ℕ × String)) :=
  if ∀ block ∈ blocks, block.Readable then
    .ok (s.sections ++ blocks.map (Block.toSection P),
      s.warnings ++ blocks.flatMap (Block.warnings P))
  else .error (.builtin .indexError "list index out of range")

variable {P}

/-! ## Lines that end the reading -/

theorem eq_colon_of_toLower {c : Char} (h : c.toLower = ':') : c = ':' := by
  delta Char.toLower at h
  split at h
  · rename_i hupper
    have hlow : 65 ≤ c.val.toNat := UInt32.le_iff_toNat_le.mp hupper.1
    have hhigh : c.val.toNat ≤ 90 := UInt32.le_iff_toNat_le.mp hupper.2
    have hval : (c.val + 32).toNat = 58 := congrArg Char.toNat h
    rw [UInt32.toNat_add] at hval
    change (c.val.toNat + 32) % 2 ^ 32 = 58 at hval
    omega
  · exact h

theorem colon_mem_of_startsWithFolded {word text : List Char}
    (h : startsWithFolded word text = true) (hword : ':' ∈ word) :
    ':' ∈ text := by
  have h : (text.take word.length).map Char.toLower = word :=
    of_decide_eq_true h
  rw [← h] at hword
  obtain ⟨c, hc, hlower⟩ := List.mem_map.mp hword
  exact eq_colon_of_toLower hlower ▸ List.mem_of_mem_take hc

theorem parseHex_eq_index_iff {rawData : List Char}
    {decode : List UInt8 → String × RegData} :
    parseHex P rawData decode = .error .index ↔ ':' ∉ rawData := by
  rw [parseHex]
  split
  · refine iff_of_false ?_ (not_not.mpr ‹_›)
    split <;> exact nofun
  · exact iff_of_true rfl ‹_›

theorem parseData_eq_index_iff {rawData : List Char} :
    parseData P rawData = .error .index ↔
      startsWithFolded "hex(".toList rawData = true ∧ ':' ∉ rawData := by
  have hcolon {word : List Char} (hword : ':' ∈ word)
      (h : startsWithFolded word rawData = true) (hnot : ':' ∉ rawData) :
      False := hnot (colon_mem_of_startsWithFolded h hword)
  constructor
  · intro h
    rw [parseData] at h
    split_ifs at h with _ _ _ hb h2 h7 hhex
    · rw [parseDword] at h
      split at h <;> cases h
    · exact (hcolon (by decide) hb (parseHex_eq_index_iff.mp h)).elim
    · exact (hcolon (by decide) h2 (parseHex_eq_index_iff.mp h)).elim
    · exact (hcolon (by decide) h7 (parseHex_eq_index_iff.mp h)).elim
    · have hnot := parseHex_eq_index_iff.mp h
      exact ⟨hhex.resolve_left fun h => hcolon (by decide) h hnot, hnot⟩
    · cases h
  · rintro ⟨hhex, hnot⟩
    have hminus : rawData ≠ ['-'] := by
      rintro rfl
      exact absurd hhex (by decide)
    have hquote : rawData.head? ≠ some '"' := by
      cases rawData with
      | nil => exact nofun
      | cons c cs =>
          intro h
          obtain rfl := Option.some.inj h
          have h := congrArg List.head? (of_decide_eq_true hhex)
          exact absurd h (by simp)
    rw [parseData, if_neg hminus, if_neg fun h => hquote h.1,
      if_neg fun h => hcolon (by decide) h hnot,
      if_neg fun h => hcolon (by decide) h hnot,
      if_neg fun h => hcolon (by decide) h hnot,
      if_neg fun h => hcolon (by decide) h hnot, if_pos (Or.inr hhex)]
    exact parseHex_eq_index_iff.mpr hnot

theorem parseValueLine_eq_index_iff :
    parseValueLine P line.stripped line.1 = .error .index ↔
      line.unreadable = true := by
  rw [parseValueLine, Line.unreadable]
  cases parseName line.stripped with
  | none => exact iff_of_false nofun nofun
  | some assignment =>
      obtain ⟨name, rawData⟩ := assignment
      dsimp only
      rw [Bool.and_eq_true, Bool.not_eq_true', ← Bool.not_eq_true,
        List.elem_iff, ← parseData_eq_index_iff (P := P)]
      cases parseData P rawData with
      | error e =>
          change Except.error e = _ ↔ Except.error e = _
          rw [Except.error.injEq, Except.error.injEq]
      | ok typed => exact iff_of_false nofun nofun

theorem reading_eq_failure_iff :
    line.reading P = .failure ↔ line.unreadable = true := by
  rw [← parseValueLine_eq_index_iff (P := P), Line.reading]
  split
  · rename_i hignored
    refine iff_of_false nofun fun h => ?_
    have hname : parseName line.stripped = none := by
      rcases hignored with hnil | hcomment
      · rw [hnil]
        rfl
      · cases hline : line.stripped with
        | nil => rfl
        | cons c cs =>
            rw [hline] at hcomment
            obtain rfl := Option.some.inj hcomment
            rfl
    rw [parseValueLine, hname] at h
    cases h
  · cases parseValueLine P line.stripped line.1 with
    | ok value => exact iff_of_false nofun nofun
    | error e =>
        cases e with
        | value message => exact iff_of_false nofun nofun
        | index => exact iff_of_true rfl rfl

/-! ## One line -/

theorem readLine_of_opens (h : line.opens = true) :
    readLine P s line =
      .ok { s with
        sections := s.closed
        current := some (openSection line.stripped line.1) } := by
  have hfirst : (stripChars line.2).head? = some '[' :=
    (of_decide_eq_true h).1
  refine (if_neg ?_).trans (if_pos h)
  rintro (hnil | hcomment)
  · rw [hnil] at hfirst
    cases hfirst
  · rw [hcomment] at hfirst
    cases hfirst

/-- What a line adds to the section that is open, or to the warnings. -/
theorem readLine_of_not_opens (h : line.opens = false) :
    readLine P s line =
      match s.current with
      | none => .ok s
      | some header =>
          if line.unreadable then
            .error (.builtin .indexError "list index out of range")
          else
            .ok { s with
              current := some { header with
                values := header.values ++ (line.reading P).value?.toList }
              warnings := s.warnings ++
                (line.reading P).warning?.toList } := by
  have hiff : line.reading P = .failure ↔ line.unreadable = true :=
    reading_eq_failure_iff
  change (if line.stripped = [] ∨ line.stripped.head? = some ';' then _
    else if line.opens then _ else match s.current with
      | none => _ | some _ => _) = _
  obtain ⟨sections, _ | header, warnings⟩ := s
  · rw [h]
    exact ite_self _
  rw [h]
  by_cases hignored : line.stripped = [] ∨ line.stripped.head? = some ';'
  · have hreading : line.reading P = .nothing := if_pos hignored
    rw [hreading] at hiff
    simp [if_pos hignored, if_neg (mt hiff.mpr nofun), hreading,
      Reading.value?, Reading.warning?]
  · have hreading : line.reading P = _ := if_neg hignored
    rw [hreading] at hiff ⊢
    rw [if_neg hignored]
    change (match parseValueLine P line.stripped line.1 with
      | .ok _ => _ | .error (.value _) => _ | .error .index => _) =
      if line.unreadable then _ else _
    generalize parseValueLine P line.stripped line.1 = parsed at hiff ⊢
    rcases parsed with (message | -) | value
    · rw [if_neg (mt hiff.mpr nofun)]
      simp [Reading.value?, Reading.warning?]
    · rw [if_pos (hiff.mp rfl)]
    · rw [if_neg (mt hiff.mpr nofun)]
      simp [Reading.value?, Reading.warning?]

/-! ## Blocks -/

theorem bodyOf_cons (line : Line) (lines : List Line) :
    bodyOf (line :: lines) =
      if line.opens then [] else line :: bodyOf lines := by
  rw [bodyOf, List.takeWhile_cons]
  cases line.opens <;> rfl

/-- A section that ends has all its values. -/
theorem readBlocks_closed (blocks : List Block) (next : Option RegSection) :
    readBlocks P s (s.current.toList.map (⟨·, []⟩) ++ blocks) =
      readBlocks P { s with sections := s.closed, current := next } blocks := by
  rw [readBlocks, readBlocks, ReaderState.closed]
  cases s.current with
  | none =>
      rw [Option.toList_none, List.append_nil]
      rfl
  | some header =>
      have hreadable : Block.Readable ⟨header, []⟩ := List.forall_mem_nil _
      have hsection : Block.toSection P ⟨header, []⟩ = header := by
        rw [Block.toSection, List.filterMap_nil, List.append_nil]
      simp only [Option.toList_some, List.map_cons, List.map_nil,
        List.cons_append, List.nil_append, List.forall_mem_cons,
        List.flatMap_cons, List.append_assoc, hsection, hreadable, true_and]
      rfl

theorem readBlocks_cons {t : ReaderState} {blocks : List Block}
    (hread : line.unreadable = false) (hsections : t.sections = s.sections)
    (hwarnings : t.warnings =
      s.warnings ++ (line.reading P).warning?.toList) :
    readBlocks P t (⟨{ header with
        values := header.values ++ (line.reading P).value?.toList },
        lines⟩ :: blocks) =
      readBlocks P s (⟨header, line :: lines⟩ :: blocks) := by
  have hreadable : Block.Readable ⟨header, line :: lines⟩ ↔
      Block.Readable ⟨header, lines⟩ :=
    List.forall_mem_cons.trans (and_iff_right hread)
  have hcons {β : Type} (f : Line → Option β) :
      (line :: lines).filterMap f = (f line).toList ++ lines.filterMap f := by
    rw [List.filterMap_cons]
    cases f line <;> rfl
  simp only [readBlocks, List.forall_mem_cons, List.map_cons,
    List.flatMap_cons, hreadable, Block.toSection, Block.warnings, hcons,
    hsections, hwarnings, List.append_assoc]
  rfl

/-! ## The whole text -/

theorem readLine_readBlocks (line : Line) (lines : List Line) :
    (do
      let t ← readLine P s line
      readBlocks P t (blocksFrom t.current lines)) =
      readBlocks P s (blocksFrom s.current (line :: lines)) := by
  rw [blocksFrom, blocksOf, bodyOf_cons]
  cases hopens : line.opens with
  | true =>
      rw [readLine_of_opens hopens]
      exact (readBlocks_closed _ _).symm
  | false =>
      rw [readLine_of_not_opens hopens]
      cases hcurrent : s.current with
      | none =>
          change readBlocks P s (blocksFrom s.current lines) = _
          rw [hcurrent]
          rfl
      | some header =>
          cases hread : line.unreadable with
          | true =>
              refine (if_neg fun hall => ?_).symm
              have hline := hall _ (List.mem_cons_self ..) line
                (List.mem_cons_self ..)
              rw [hread] at hline
              cases hline
          | false => exact readBlocks_cons hread rfl rfl

theorem foldlM_readLine (lines : List Line) (s : ReaderState) :
    (do
      let t ← lines.foldlM (readLine P) s
      return (t.closed, t.warnings)) =
      readBlocks P s (blocksFrom s.current lines) := by
  induction lines generalizing s with
  | nil =>
      refine Eq.trans ?_ (readBlocks_closed (P := P) (s := s) [] none).symm
      rw [readBlocks, if_pos (List.forall_mem_nil _), List.map_nil,
        List.append_nil, List.flatMap_nil, List.append_nil]
      rfl
  | cons line lines ih =>
      rw [← readLine_readBlocks, List.foldlM_cons, bind_assoc]
      exact bind_congr fun t => ih t

/-- The reader raises exactly when a section has a `hex(` type without a
colon.  Otherwise it reads every section of the text, with the values of its
lines, and warns once about each line of a section that it skips. -/
theorem parseRegSections_eq (text : List Char) :
    parseRegSections P text =
      if ∀ block ∈ blocksOf (continuedLines text), block.Readable then
        .ok ((blocksOf (continuedLines text)).map (Block.toSection P),
          (blocksOf (continuedLines text)).flatMap (Block.warnings P))
      else .error (.builtin .indexError "list index out of range") :=
  foldlM_readLine _ _

end

end ApexForensic.Registry
