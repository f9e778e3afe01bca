import ApexForensic.Search.Keywords
import ApexForensic.Support.RegexSyntax
import Mathlib.Data.List.Infix

/-!
# Tokens of a pattern in its masked text

The safety check searches the masked text of a pattern.  Each token that `re`
reads is shown by the masked text at a place of its own, so what a search
excludes in the text the pattern does not have.
-/

namespace ApexForensic.Search

open ApexForensic.Support ApexForensic.Support.Regex ApexForensic.Domain

variable {c : Char} {prev : Option Char} {cs tail : List Char}
  {last : Option Token}

/-! ## Places of a text -/

/-- Each place of a text: the character before it, and the text from it on. -/
def places (prev : Option Char) : List Char → List (Option Char × List Char)
  | [] => []
  | c :: cs => (prev, c :: cs) :: places (some c) cs

theorem places_split {p : Option Char} (h : (p, tail) ∈ places prev cs) :
    ∃ before, cs = before ++ tail ∧ p = before.getLast?.or prev := by
  induction cs generalizing prev with
  | nil => cases h
  | cons d cs ih =>
      rcases List.mem_cons.mp h with h | h
      · cases h
        exact ⟨[], rfl, rfl⟩
      · obtain ⟨before, rfl, rfl⟩ := ih h
        refine ⟨d :: before, rfl, ?_⟩
        rw [List.getLast?_cons]
        cases before.getLast? <;> rfl

theorem mem_tails_of_mem_places {p : Option Char}
    (h : (p, tail) ∈ places none cs) : tail ∈ cs.tails := by
  obtain ⟨before, rfl, -⟩ := places_split h
  exact (List.mem_tails _ _).mpr (List.suffix_append _ _)

theorem cons_mem_tails_of_mem_places (h : (some c, tail) ∈ places none cs) :
    c :: tail ∈ cs.tails := by
  obtain ⟨before, rfl, hlast⟩ := places_split h
  rw [Option.or_none] at hlast
  obtain ⟨init, rfl⟩ := List.getLast?_eq_some_iff.mp hlast.symm
  rw [List.append_assoc]
  exact (List.mem_tails _ _).mpr (List.suffix_append _ _)

theorem unescapedTails_cons (c : Char) (cs : List Char) :
    unescapedTails (c :: cs) =
      (c :: cs) ::
        ((places (some c) cs).filter fun place => place.1 ≠ some '\\').map
          Prod.snd := by
  induction cs generalizing c with
  | nil => simp [unescapedTails, places]
  | cons d cs ih =>
      have hrec := ih d
      unfold unescapedTails at hrec ⊢
      rw [List.cons_inj_right] at hrec
      dsimp only
      rw [List.tails_cons, List.filterMap_cons, hrec, places]
      by_cases hc : c = '\\'
      · simp [hc]
      · simp [hc]

theorem unescapedTails_eq (cs : List Char) :
    unescapedTails cs =
      ((places none cs).filter fun place => place.1 ≠ some '\\').map
        Prod.snd := by
  cases cs with
  | nil => rfl
  | cons c cs =>
      rw [unescapedTails_cons, places]
      simp

/-! ## The masked text -/

theorem regexLexicalTokens_escape (d : Char) (cs : List Char) :
    regexLexicalTokens false ('\\' :: d :: cs) =
      '\\' :: d :: regexLexicalTokens false cs := by
  rw [regexLexicalTokens]
  rfl

theorem regexLexicalTokens_maskedEscape (d : Char) (cs : List Char) (b : Bool) :
    ∃ x y, regexLexicalTokens b ('\\' :: d :: cs) =
      x :: y :: regexLexicalTokens b cs := by
  rw [regexLexicalTokens]
  cases b
  · exact ⟨_, _, rfl⟩
  · exact ⟨_, _, rfl⟩

theorem regexLexicalTokens_open (cs : List Char) :
    regexLexicalTokens false ('[' :: cs) =
      '_' :: regexLexicalTokens true cs := by
  rw [regexLexicalTokens]
  · rfl
  · rintro d rest hd -
    exact absurd hd (by decide)

/-- A character that is neither escaped nor the start of a class. -/
def isPlain (c : Char) : Bool :=
  c ≠ '\\' && c ≠ '['

theorem regexLexicalTokens_plain (hc : isPlain c = true) (cs : List Char) :
    regexLexicalTokens false (c :: cs) = c :: regexLexicalTokens false cs := by
  rw [isPlain, Bool.and_eq_true, decide_eq_true_eq, decide_eq_true_eq] at hc
  rw [regexLexicalTokens]
  · simp [hc.2]
  · rintro d rest hd -
    exact hc.1 hd

theorem regexLexicalTokens_inside (hc : c ≠ '\\') (b : Bool) (cs : List Char) :
    ∃ d b', regexLexicalTokens b (c :: cs) = d :: regexLexicalTokens b' cs ∧
      d ≠ '\\' ∧ (c = ']' → b' = false) ∧ (b = true → c ≠ ']' → b' = true) := by
  rw [regexLexicalTokens]
  · split_ifs with hopen hclose hb
    · exact ⟨_, _, rfl, by decide, fun h => absurd (hopen.1 ▸ h) (by decide),
        fun _ _ => rfl⟩
    · exact ⟨_, _, rfl, by decide, fun _ => rfl,
        fun _ h => absurd hclose.1 h⟩
    · exact ⟨_, _, rfl, by decide,
        fun h => absurd ⟨h, hb⟩ hclose, fun h _ => h⟩
    · exact ⟨_, _, rfl, hc, fun _ => Bool.eq_false_of_not_eq_true hb,
        fun h => absurd h hb⟩
  · rintro d rest hd -
    exact hc hd

theorem regexLexicalTokens_text {text : List Char}
    (h : ∀ c ∈ text, isPlain c = true) (rest : List Char) :
    regexLexicalTokens false (text ++ rest) =
      text ++ regexLexicalTokens false rest := by
  induction text with
  | nil => rfl
  | cons c text ih =>
      rw [List.cons_append, regexLexicalTokens_plain (h c List.mem_cons_self),
        ih fun d hd => h d (List.mem_cons_of_mem c hd)]
      rfl

/-! ## Tokens in the masked text -/

/-- What the text shows where a token starts. -/
def Shows : Token → List Char → Prop
  | .escape d, cs => ∃ rest, cs = '\\' :: d :: rest
  | .extension, cs => ∃ rest, cs = '(' :: '?' :: rest
  | .alternation, cs => ∃ rest, cs = '|' :: rest
  | .repetition q, cs =>
      ∃ c rest n, cs = c :: rest ∧ quantifier c rest = some (q, n)
  | _, _ => True

/-- What the character before a place tells of the token before it. -/
structure Agrees (last : Option Token) (prev : Option Char) : Prop where
  backslash : prev = some '\\' → last = some (.escape '\\')
  closing : last = some .closing → prev = some ')'

theorem Agrees.start : Agrees none none :=
  ⟨nofun, nofun⟩

theorem Agrees.of_ne (t : Token) (hc : c ≠ '\\') (ht : t ≠ .closing) :
    Agrees (some t) (some c) :=
  ⟨fun h => absurd (Option.some.inj h) hc,
    fun h => absurd (Option.some.inj h) ht⟩

/-- What holds of the masking where the reader is: in the text it masks
nothing, and at the start of a class it masks. -/
def Follows (b : Bool) (last : Option Token) (prev : Option Char) :
    Mode → List Char → Prop
  | .text n, cs =>
      b = false ∧ Agrees last prev ∧
        (0 < n → ∃ q, last = some (.repetition q)) ∧
        ∀ c ∈ cs.take n, isPlain c = true
  | .setStart _, _ => b = true ∧ last = some .set
  | .inSet, _ => last = some .set

theorem Follows.of_agrees (h : Agrees last prev) (cs : List Char) :
    Follows false last prev (.text 0) cs :=
  ⟨rfl, h, fun hn => absurd hn (lt_irrefl 0), by simp⟩

theorem Follows.after (t : Token) (hc : c ≠ '\\') (ht : t ≠ .closing)
    (cs : List Char) : Follows false (some t) (some c) (.text 0) cs :=
  Follows.of_agrees (Agrees.of_ne t hc ht) cs

/-- The shape of the comparison: tokens that satisfy one test are shown by
places that satisfy another. -/
structure Carries (f : Option Token × Token → Bool)
    (g : Option Char × List Char → Bool) : Prop where
  carry : ∀ last prev t cs, Agrees last prev → Shows t cs →
    f (last, t) = true → g (prev, cs) = true

section

variable {f : Option Token × Token → Bool} {g : Option Char × List Char → Bool}

theorem countP_places_skip {k : ℕ} (h : k ≤ (places (some c) cs).countP g) :
    k ≤ (places prev (c :: cs)).countP g := by
  rw [places, List.countP_cons]
  exact Nat.le_add_right_of_le h

theorem countP_places_token {t : Token} {ts : List Token} (hcarry : Carries f g)
    (hagrees : Agrees last prev) (hshows : Shows t (c :: cs))
    (h : (preceded (some t) ts).countP f ≤ (places (some c) cs).countP g) :
    (preceded last (t :: ts)).countP f ≤
      (places prev (c :: cs)).countP g := by
  rw [preceded, places, List.countP_cons, List.countP_cons]
  apply Nat.add_le_add h
  by_cases hf : f (last, t) = true
  · rw [if_pos hf, if_pos (hcarry.carry last prev t _ hagrees hshows hf)]
  · rw [if_neg hf]
    exact Nat.zero_le _

/-- The characters of a quantifier and of its modifier are plain, and the
masked text shows the quantifier. -/
theorem quantifier_shown {q : Quantifier} {n : ℕ}
    (h : quantifier c cs = some (q, n)) :
    Shows (.repetition q) (c :: regexLexicalTokens false cs) ∧
      ∀ d ∈ cs.take (n + modifier (cs.drop n)), isPlain d = true := by
  obtain ⟨text, rest, rfl, rfl, hinner, htext⟩ := quantifier_text h
  have hplain : ∀ d ∈ text, isPlain d = true := by
    intro d hd
    have hd := hinner d hd
    rw [isPlain, Bool.and_eq_true, decide_eq_true_eq, decide_eq_true_eq]
    constructor
    · rintro rfl
      exact absurd hd (by decide)
    · rintro rfl
      exact absurd hd (by decide)
  constructor
  · rw [regexLexicalTokens_text hplain]
    exact ⟨c, _, _, rfl, htext _⟩
  · intro d hd
    rw [List.drop_left, List.take_length_add_append] at hd
    rcases List.mem_append.mp hd with hd | hd
    · exact hplain d hd
    · rw [modifier] at hd
      split_ifs at hd with hmod
      · cases rest with
        | nil => cases hd
        | cons e rest =>
            obtain rfl : d = e := by simpa using hd
            rcases hmod with hmod | hmod
            · cases hmod
              rfl
            · cases hmod
              rfl
      · cases hd

theorem isPlain_of_ne {c : Char} (h : c ≠ '\\') (h' : c ≠ '[') :
    isPlain c = true := by
  rw [isPlain, decide_eq_true h, decide_eq_true h']
  rfl

theorem ne_backslash_of_isPlain (h : isPlain c = true) : c ≠ '\\' := by
  rintro rfl
  exact absurd h (by decide)

theorem countP_plain_token {t : Token} {ts : List Token} (hcarry : Carries f g)
    (hagrees : Agrees last prev) (hc : isPlain c = true)
    (hshows : Shows t (c :: regexLexicalTokens false cs))
    (h : (preceded (some t) ts).countP f ≤
      (places (some c) (regexLexicalTokens false cs)).countP g) :
    (preceded last (t :: ts)).countP f ≤
      (places prev (regexLexicalTokens false (c :: cs))).countP g := by
  rw [regexLexicalTokens_plain hc]
  exact countP_places_token hcarry hagrees hshows h

/-- Each token of a pattern is shown at a place of its own of the masked text,
by induction on the reader: the masking is never in a class where the reader is
in the text. -/
theorem countP_tokens_le (hcarry : Carries f g) (mode : Mode) (cs : List Char) :
    ∀ (b : Bool) (last : Option Token) (prev : Option Char),
      Follows b last prev mode cs →
      (preceded last (tokens mode cs)).countP f ≤
        (places prev (regexLexicalTokens b cs)).countP g := by
  induction mode, cs using tokens.induct with
  | case1 mode =>
      intro b last prev _
      rw [tokens]
      exact Nat.zero_le _
  | case2 n c cs ih =>
      rintro b last prev ⟨rfl, -, hrep, hplain⟩
      have hc : isPlain c = true := hplain c (by simp)
      obtain ⟨q, rfl⟩ := hrep (Nat.succ_pos n)
      rw [tokens, regexLexicalTokens_plain hc]
      apply countP_places_skip
      refine ih false _ _ ⟨rfl,
        Agrees.of_ne _ (ne_backslash_of_isPlain hc) (by simp),
        fun _ => ⟨q, rfl⟩, fun d hd => hplain d ?_⟩
      rw [List.take_succ_cons]
      exact List.mem_cons_of_mem c hd
  | case3 d cs ih =>
      rintro b last prev ⟨rfl, hagrees, -⟩
      rw [tokens, if_pos rfl, regexLexicalTokens_escape]
      refine countP_places_token hcarry hagrees ⟨_, rfl⟩
        (countP_places_skip (ih false _ _ (Follows.of_agrees ?_ cs)))
      refine ⟨fun h => ?_, fun h => Token.noConfusion (Option.some.inj h)⟩
      rw [Option.some.inj h]
  | case4 =>
      rintro b last prev ⟨rfl, hagrees, -⟩
      rw [tokens, if_pos rfl]
      exact countP_places_token hcarry hagrees trivial (Nat.zero_le _)
  | case5 cs hc ih =>
      rintro b last prev ⟨rfl, hagrees, -⟩
      rw [tokens_set, regexLexicalTokens_open]
      exact countP_places_token hcarry hagrees trivial (ih true _ _ ⟨rfl, rfl⟩)
  | case6 cs hhead hc hc' =>
      rintro b last prev ⟨rfl, hagrees, -⟩
      rw [tokens_extension hhead]
      obtain ⟨rest, rfl⟩ : ∃ rest, cs = '?' :: rest :=
        List.head?_eq_some_iff.mp hhead
      exact countP_plain_token hcarry hagrees rfl
        ⟨_, by rw [regexLexicalTokens_plain rfl]⟩ (Nat.zero_le _)
  | case7 cs hhead hc hc' ih =>
      rintro b last prev ⟨rfl, hagrees, -⟩
      rw [tokens_opening hhead]
      exact countP_plain_token hcarry hagrees rfl trivial
        (ih false _ _ (Follows.after .opening hc (by simp) cs))
  | case8 cs hc hc' _ ih =>
      rintro b last prev ⟨rfl, hagrees, -⟩
      rw [tokens_closing]
      exact countP_plain_token hcarry hagrees rfl trivial
        (ih false _ _ (Follows.of_agrees
          ⟨fun h => absurd (Option.some.inj h) hc, fun _ => rfl⟩ cs))
  | case9 cs hc hc' _ _ ih =>
      rintro b last prev ⟨rfl, hagrees, -⟩
      rw [tokens_alternation]
      exact countP_plain_token hcarry hagrees rfl ⟨_, rfl⟩
        (ih false _ _ (Follows.after .alternation hc (by simp) cs))
  | case10 c cs hc hset hopen hclose halt q n hq ih =>
      rintro b last prev ⟨rfl, hagrees, -⟩
      rw [tokens_text hc hset, if_neg hopen, if_neg hclose, if_neg halt, hq]
      obtain ⟨hshows, hplain⟩ := quantifier_shown hq
      exact countP_plain_token hcarry hagrees (isPlain_of_ne hc hset) hshows
        (ih false _ _ ⟨rfl, Agrees.of_ne (.repetition q) hc (by simp),
          fun _ => ⟨q, rfl⟩, hplain⟩)
  | case11 c cs hc hset hopen hclose halt hq ih =>
      rintro b last prev ⟨rfl, hagrees, -⟩
      rw [tokens_text hc hset, if_neg hopen, if_neg hclose, if_neg halt, hq]
      exact countP_plain_token hcarry hagrees (isPlain_of_ne hc hset) trivial
        (ih false _ _ (Follows.after (.literal c) hc (by simp) cs))
  | case12 caret d cs ih =>
      rintro b last prev ⟨-, hlast⟩
      obtain ⟨x, y, hlexical⟩ := regexLexicalTokens_maskedEscape d cs b
      rw [tokens, if_pos rfl, hlexical]
      exact countP_places_skip (countP_places_skip (ih b _ _ hlast))
  | case13 caret =>
      intro b last prev _
      rw [tokens, if_pos rfl]
      exact Nat.zero_le _
  | case14 caret c cs hc hcaret ih =>
      rintro b last prev ⟨hb, hlast⟩
      obtain ⟨d, b', hlexical, -, -, hstay⟩ := regexLexicalTokens_inside hc b cs
      rw [tokens_setStart hc, if_pos hcaret, hlexical]
      refine countP_places_skip (ih b' _ _ ⟨hstay hb fun h => ?_, hlast⟩)
      exact absurd (hcaret.1.symm.trans h) (by decide)
  | case15 caret c cs hc hcaret ih =>
      rintro b last prev ⟨-, hlast⟩
      obtain ⟨d, b', hlexical, -⟩ := regexLexicalTokens_inside hc b cs
      rw [tokens_setStart hc, if_neg hcaret, hlexical]
      exact countP_places_skip (ih b' _ _ hlast)
  | case16 d cs ih =>
      intro b last prev hlast
      obtain ⟨x, y, hlexical⟩ := regexLexicalTokens_maskedEscape d cs b
      rw [tokens, if_pos rfl, hlexical]
      exact countP_places_skip (countP_places_skip (ih b _ _ hlast))
  | case17 =>
      intro b last prev _
      rw [tokens.eq_def]
      exact Nat.zero_le _
  | case18 cs hc ih =>
      intro b last prev hlast
      obtain ⟨d, b', hlexical, hd, hclose, -⟩ :=
        regexLexicalTokens_inside hc b cs
      rw [tokens_inSet hc, if_pos rfl, hlexical, hclose rfl]
      obtain rfl : last = some .set := hlast
      exact countP_places_skip (ih false _ _ (Follows.after .set hd (by simp) cs))
  | case19 c cs hc hclose ih =>
      intro b last prev hlast
      obtain ⟨d, b', hlexical, -⟩ := regexLexicalTokens_inside hc b cs
      rw [tokens_inSet hc, if_neg hclose, hlexical]
      exact countP_places_skip (ih b' _ _ hlast)

end

end ApexForensic.Search
