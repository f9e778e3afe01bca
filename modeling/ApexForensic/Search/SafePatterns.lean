import ApexForensic.Search.MaskedText

/-!
# Which patterns the safety check accepts

The check reads a quantifier with a lower bound that no escaped backslash
precedes.  What it accepts is safe as far as these quantifiers go; the others
are hidden from it.
-/

namespace ApexForensic.Search

open ApexForensic.Support ApexForensic.Support.Regex ApexForensic.Domain

variable {pattern : String} {q : Quantifier}
  {g : Option Char × List Char → Bool} {cs : List Char}

/-! ## Quantifiers as the check reads them -/

/-- The decimal digits of ASCII are digits with their value, and no other
ASCII character is one. -/
structure Platform.ReadsDigits (P : Platform) : Prop where
  digit : ∀ c : Char, c.isDigit = true → P.digitValue c = some (c.toNat - 48)
  other : ∀ c : Char, c.isDigit = false → c.toNat < 128 →
    P.digitValue c = none

section

variable {P : Platform} (hP : P.ReadsDigits)

include hP

theorem digits_eq {ds rest : List Char} {c : Char}
    (hds : ∀ d ∈ ds, d.isDigit = true) (hc : c.isDigit = false)
    (hascii : c.toNat < 128) :
    digits P (ds ++ c :: rest) = (number ds, c :: rest) := by
  have hsome : ∀ d ∈ ds, (P.digitValue d).isSome = true := by
    intro d hd
    rw [hP.digit d (hds d hd)]
    rfl
  have hnone : (P.digitValue c).isSome = false := by
    rw [hP.other c hc hascii]
    rfl
  have htake : (ds ++ c :: rest).takeWhile
      (fun d => (P.digitValue d).isSome) = ds := by
    rw [List.takeWhile_append_of_pos hsome, List.takeWhile_cons, hnone]
    simp
  have hdrop : (ds ++ c :: rest).dropWhile
      (fun d => (P.digitValue d).isSome) = c :: rest := by
    rw [List.dropWhile_append_of_pos hsome, List.dropWhile_cons, hnone]
    simp
  have hfold : ds.foldl (fun n d => 10 * n + (P.digitValue d).getD 0) 0 =
      ds.foldl (fun n d => 10 * n + (d.toNat - 48)) 0 := by
    apply List.foldl_ext
    intro n d hd
    rw [hP.digit d (hds d hd)]
    rfl
  rw [digits, List.span_eq_takeWhile_dropWhile, htake, hdrop, number]
  dsimp only
  rw [hfold]

theorem repeatBounds_of_braced {n : ℕ} (h : bracedQuantifier cs = some (q, n))
    (hlower : q.lower.isSome = true) :
    ∃ bounds, repeatBounds P ('{' :: cs) = some bounds ∧
      repeatUpper bounds = q.bound ∧
      (q.isVariable = true → bounds.2.isSome = true) := by
  obtain ⟨lo, rest, hlo, ⟨rfl, -, rfl, rfl⟩ | ⟨hi, hhi, rfl, rfl, rfl⟩⟩ :=
    bracedQuantifier_cases h
  · obtain ⟨v, hv⟩ := Option.isSome_iff_exists.mp hlower
    dsimp only at hv
    refine ⟨(v, none), ?_, ?_, ?_⟩
    · rw [repeatBounds, digits_eq hP hlo rfl (by decide), hv]
      rfl
    · simp [repeatUpper, Quantifier.bound, hv]
    · simp [Quantifier.isVariable, Quantifier.least, hv]
  · obtain ⟨v, hv⟩ := Option.isSome_iff_exists.mp hlower
    dsimp only at hv
    refine ⟨(v, some (number hi)), ?_, ?_, fun _ => rfl⟩
    · have hupper : digits P (hi ++ '}' :: rest) = (number hi, '}' :: rest) :=
        digits_eq hP hhi rfl (by decide)
      rw [repeatBounds, digits_eq hP hlo rfl (by decide), hv]
      simp [hupper]
    · simp [repeatUpper, Quantifier.bound, Quantifier.least, hv]

theorem quantifier_seen {c : Char} {n : ℕ} (h : quantifier c cs = some (q, n))
    (hlower : q.lower.isSome = true) :
    c ∈ ['*', '+', '?'] ∧ q.bound ≤ 1 ∨
      ∃ bounds, repeatBounds P (c :: cs) = some bounds ∧
        repeatUpper bounds = q.bound ∧
        (q.isVariable = true → bounds.2.isSome = true) := by
  rw [quantifier] at h
  split_ifs at h with hstar hplus hoptional hbrace
  · cases h
    exact Or.inl ⟨by simp [hstar], by decide⟩
  · cases h
    exact Or.inl ⟨by simp [hplus], by decide⟩
  · cases h
    exact Or.inl ⟨by simp [hoptional], by decide⟩
  · rw [hbrace]
    exact Or.inr (repeatBounds_of_braced hP h hlower)

end

/-! ## What an accepted pattern has passed -/

/-- What the searches of the check leave out of a masked text. -/
structure Passes (P : Platform) (lexical : List Char) : Prop where
  backreference : ∀ d rest, '\\' :: d :: rest ∈ lexical.tails →
    ¬ ('1' ≤ d ∧ d ≤ '9')
  extension : ∀ rest, '(' :: '?' :: rest ∉ lexical.tails
  alternation : ∀ rest, '|' :: rest ∉ lexical.tails
  group : ∀ tail ∈ lexical.tails, quantifiedGroup P tail = false
  counted : variableQuantifiers P lexical ≤ 1
  bounds : ∀ tail ∈ unescapedTails lexical, ∀ bounds,
    repeatBounds P tail = some bounds →
      repeatUpper bounds ≤ maxRegexBoundedRepeat

theorem searchText_eq_false {found : List Char → Bool}
    (h : ¬ searchText found (String.ofList cs) = true) :
    ∀ tail ∈ cs.tails, found tail = false := by
  rw [searchText, String.toList_ofList, List.any_eq_true] at h
  intro tail htail
  exact Bool.eq_false_of_not_eq_true fun hfound => h ⟨tail, htail, hfound⟩

theorem not_mem_tails_of_containsText {part : String}
    (h : ¬ containsText part (String.ofList cs) = true) (rest : List Char) :
    part.toList ++ rest ∉ cs.tails := by
  rw [containsText, String.toList_ofList, List.any_eq_true] at h
  intro hmem
  exact h ⟨_, hmem, List.isPrefixOf_iff_prefix.mpr (List.prefix_append _ _)⟩

theorem passes_of_validateSafeRegex {P : Platform}
    (h : validateSafeRegex P pattern = .ok ()) :
    Passes P (regexLexicalTokens false pattern.toList) := by
  unfold validateSafeRegex at h
  obtain ⟨-, h⟩ := check_ok h
  dsimp only at h
  cases hre : P.reError pattern with
  | some error =>
      rw [hre] at h
      cases h
  | none =>
      rw [hre] at h
      obtain ⟨-, -, h⟩ := bind_ok h
      obtain ⟨hback, h⟩ := check_ok h
      obtain ⟨hext, h⟩ := check_ok h
      obtain ⟨halt, h⟩ := check_ok h
      obtain ⟨hgroup, h⟩ := check_ok h
      obtain ⟨hvar, h⟩ := check_ok h
      rw [Bool.or_eq_true, not_or] at hback
      refine ⟨fun d rest hmem hd => ?_, not_mem_tails_of_containsText hext,
        not_mem_tails_of_containsText halt, searchText_eq_false hgroup,
        not_lt.mp hvar, fun tail htail bounds hbounds => ?_⟩
      · have hfalse := searchText_eq_false hback.1 _ hmem
        simp [hd] at hfalse
      · split_ifs at h with hany
        rw [List.any_eq_true] at hany
        apply not_lt.mp
        intro hlt
        exact hany ⟨tail, htail, by simp [hbounds, hlt]⟩

/-! ## Safe patterns -/

/-- A pattern whose matching time cannot explode.  Digits that an escape takes
as an octal number count as a reference too, and a pattern with an extension
is not read further. -/
structure SafePattern (ts : List Token) : Prop where
  noBackreference : ∀ d, '1' ≤ d → d ≤ '9' → .escape d ∉ ts
  noExtension : .extension ∉ ts
  noAlternation : .alternation ∉ ts
  noQuantifiedGroup : ∀ q, (some .closing, q) ∉ quantifiers ts
  oneVariable : (quantifiers ts).countP (·.2.isVariable) ≤ 1
  bounded : ∀ entry ∈ quantifiers ts, entry.2.bound ≤ maxRegexBoundedRepeat

/-- The quantifiers that the check counts: a lower bound is written, and the
character before is not an escaped backslash. -/
def isSeen (entry : Option Token × Quantifier) : Bool :=
  entry.2.lower.isSome && entry.1 ≠ some (.escape '\\')

def seen (ts : List Token) : List (Option Token × Quantifier) :=
  (quantifiers ts).filter isSeen

def hidden (ts : List Token) : List (Option Token × Quantifier) :=
  (quantifiers ts).filter fun entry => !isSeen entry

/-- The hidden quantifiers keep the pattern safe: none follows a group or has
a large bound, and none is variable, or one is and the check sees none. -/
structure HiddenHarmless (ts : List Token) : Prop where
  groups : ∀ entry ∈ hidden ts, entry.1 ≠ some .closing
  bounds : ∀ entry ∈ hidden ts, entry.2.bound ≤ maxRegexBoundedRepeat
  variableCount : (hidden ts).countP (·.2.isVariable) = 0 ∨
    (hidden ts).countP (·.2.isVariable) = 1 ∧
      (seen ts).countP (·.2.isVariable) = 0

theorem mem_seen_or_hidden {ts : List Token}
    {entry : Option Token × Quantifier} (h : entry ∈ quantifiers ts) :
    entry ∈ seen ts ∨ entry ∈ hidden ts := by
  cases hseen : isSeen entry with
  | true => exact Or.inl (List.mem_filter.mpr ⟨h, hseen⟩)
  | false => exact Or.inr (List.mem_filter.mpr ⟨h, by rw [hseen]; rfl⟩)

theorem countP_seen_add_hidden (ts : List Token) :
    (quantifiers ts).countP (·.2.isVariable) =
      (seen ts).countP (·.2.isVariable) +
        (hidden ts).countP (·.2.isVariable) :=
  List.countP_eq_countP_filter_add _ _ _

/-! ## What the searches say of the tokens -/

theorem carries_onQuantifier {p : Option Token × Quantifier → Bool}
    (h : ∀ last prev q c cs n, Agrees last prev →
      quantifier c cs = some (q, n) → p (last, q) = true →
        g (prev, c :: cs) = true) : Carries (onQuantifier p) g := by
  constructor
  intro last prev t cs hagrees hshows hp
  cases t with
  | repetition q =>
      obtain ⟨c, rest, n, rfl, hq⟩ := hshows
      exact h last prev q c rest n hagrees hq hp
  | _ => cases hp

theorem prev_ne_backslash {last : Option Token} {prev : Option Char}
    (hagrees : Agrees last prev) (hseen : isSeen (last, q) = true) :
    prev ≠ some '\\' := by
  rw [isSeen, Bool.and_eq_true, decide_eq_true_eq] at hseen
  exact fun h => hseen.2 (hagrees.backslash h)

/-- The masked text of a pattern. -/
def lexicalOf (pattern : String) : List Char :=
  regexLexicalTokens false pattern.toList

theorem countP_read_le {f : Option Token × Token → Bool} (hcarry : Carries f g)
    (pattern : String) :
    (preceded none (read pattern)).countP f ≤
      (places none (lexicalOf pattern)).countP g :=
  countP_tokens_le hcarry (.text 0) pattern.toList false none none
    (Follows.of_agrees Agrees.start _)

theorem not_of_places {f : Option Token × Token → Bool} (hcarry : Carries f g)
    (hg : ∀ place ∈ places none (lexicalOf pattern), ¬ g place = true) :
    ∀ entry ∈ preceded none (read pattern), ¬ f entry = true := by
  apply List.countP_eq_zero.mp
  have hle := countP_read_le hcarry pattern
  rw [List.countP_eq_zero.mpr hg] at hle
  exact Nat.le_zero.mp hle

theorem not_quantifier_of_places {p : Option Token × Quantifier → Bool}
    (hcarry : Carries (onQuantifier p) g)
    (hg : ∀ place ∈ places none (lexicalOf pattern), ¬ g place = true) :
    ∀ entry ∈ quantifiers (read pattern), ¬ p entry = true := by
  rintro ⟨last, q⟩ hentry
  exact not_of_places hcarry hg _ (mem_quantifiers.mp hentry)

theorem mem_unescapedTails {prev : Option Char} {tail : List Char}
    (h : (prev, tail) ∈ places none cs) (hprev : prev ≠ some '\\') :
    tail ∈ unescapedTails cs := by
  rw [unescapedTails_eq]
  exact List.mem_map.mpr ⟨_, List.mem_filter.mpr ⟨h, decide_eq_true hprev⟩, rfl⟩

theorem not_mem_read {t : Token} {start : List Char}
    (hstart : ∀ cs, Shows t cs → start <+: cs)
    (h : ∀ rest, start ++ rest ∉ (lexicalOf pattern).tails) :
    t ∉ read pattern := by
  intro hmem
  obtain ⟨last, hlast⟩ := exists_mem_preceded hmem none
  have hcarry : Carries (fun entry => entry.2 = t)
      (fun place => start.isPrefixOf place.2) := by
    constructor
    rintro last prev u cs - hshows hu
    obtain rfl : u = t := of_decide_eq_true hu
    exact List.isPrefixOf_iff_prefix.mpr (hstart cs hshows)
  refine not_of_places hcarry ?_ _ hlast (decide_eq_true rfl)
  rintro ⟨prev, tail⟩ hplace htail
  obtain ⟨rest, hrest⟩ := List.isPrefixOf_iff_prefix.mp htail
  apply h rest
  rw [hrest]
  exact mem_tails_of_mem_places hplace

theorem countP_unescapedTails (p : List Char → Bool) (cs : List Char) :
    (unescapedTails cs).countP p =
      ((places none cs).filter fun place => place.1 ≠ some '\\').countP
        fun place => p place.2 := by
  rw [unescapedTails_eq, List.countP_map]
  rfl

theorem countP_or_le {α : Type} (p q : α → Bool) (l : List α) :
    (l.countP fun a => p a || q a) ≤ l.countP p + l.countP q := by
  induction l with
  | nil => exact Nat.zero_le _
  | cons a l ih =>
      rw [List.countP_cons, List.countP_cons, List.countP_cons]
      cases p a <;> cases q a <;> simp <;> omega

section

variable {P : Platform} {pattern : String}

theorem not_mem_escape (h : Passes P (lexicalOf pattern)) {d : Char}
    (hlower : '1' ≤ d) (hupper : d ≤ '9') : .escape d ∉ read pattern := by
  have hstart : ∀ cs, Shows (.escape d) cs → ['\\', d] <+: cs := by
    rintro cs ⟨rest, rfl⟩
    exact ⟨rest, rfl⟩
  exact not_mem_read hstart fun rest hmem =>
    h.backreference d rest hmem ⟨hlower, hupper⟩

theorem not_mem_extension (h : Passes P (lexicalOf pattern)) :
    .extension ∉ read pattern := by
  have hstart : ∀ cs, Shows .extension cs → ['(', '?'] <+: cs := by
    rintro cs ⟨rest, rfl⟩
    exact ⟨rest, rfl⟩
  exact not_mem_read hstart h.extension

theorem not_mem_alternation (h : Passes P (lexicalOf pattern)) :
    .alternation ∉ read pattern := by
  have hstart : ∀ cs, Shows .alternation cs → ['|'] <+: cs := by
    rintro cs ⟨rest, rfl⟩
    exact ⟨rest, rfl⟩
  exact not_mem_read hstart h.alternation

theorem not_quantified_group (hP : P.ReadsDigits)
    (h : Passes P (lexicalOf pattern)) {entry : Option Token × Quantifier}
    (hentry : entry ∈ quantifiers (read pattern))
    (hlower : entry.2.lower.isSome = true) : entry.1 ≠ some .closing := by
  have hcarry : Carries
      (onQuantifier fun entry =>
        entry.2.lower.isSome && entry.1 = some .closing)
      (fun place =>
        place.1 = some ')' && quantifiedGroup P (')' :: place.2)) := by
    apply carries_onQuantifier
    intro last prev q c cs n hagrees hq hp
    rw [Bool.and_eq_true, decide_eq_true_eq] at hp ⊢
    refine ⟨hagrees.closing hp.2, ?_⟩
    rw [quantifiedGroup, Bool.or_eq_true, decide_eq_true_eq]
    rcases quantifier_seen hP hq hp.1 with ⟨hc, -⟩ | ⟨bounds, hbounds, -⟩
    · exact Or.inl hc
    · rw [hbounds]
      exact Or.inr rfl
  intro hclosing
  refine not_quantifier_of_places hcarry ?_ entry hentry ?_
  · rintro ⟨prev, tail⟩ hplace hg
    rw [Bool.and_eq_true, decide_eq_true_eq] at hg
    obtain ⟨rfl, hg⟩ := hg
    rw [h.group _ (cons_mem_tails_of_mem_places hplace)] at hg
    cases hg
  · rw [hlower, decide_eq_true hclosing]
    rfl

theorem seen_bounded (hP : P.ReadsDigits) (h : Passes P (lexicalOf pattern)) :
    ∀ entry ∈ seen (read pattern), entry.2.bound ≤ maxRegexBoundedRepeat := by
  have hcarry : Carries
      (onQuantifier fun entry =>
        isSeen entry && decide (maxRegexBoundedRepeat < entry.2.bound))
      (fun place => place.1 ≠ some '\\' &&
        (repeatBounds P place.2).any fun bounds =>
          maxRegexBoundedRepeat < repeatUpper bounds) := by
    apply carries_onQuantifier
    intro last prev q c cs n hagrees hq hp
    rw [Bool.and_eq_true, decide_eq_true_eq] at hp ⊢
    refine ⟨prev_ne_backslash hagrees hp.1, ?_⟩
    have hlower := (Bool.and_eq_true _ _ ▸ hp.1).1
    rcases quantifier_seen hP hq hlower with ⟨-, hle⟩ | ⟨bounds, hb, hupper, -⟩
    · have hlt : maxRegexBoundedRepeat < 1 := lt_of_lt_of_le hp.2 hle
      exact absurd hlt (by decide)
    · rw [hb, Option.any_some, hupper]
      exact decide_eq_true hp.2
  intro entry hentry
  obtain ⟨hentry, hseen⟩ := List.mem_filter.mp hentry
  apply not_lt.mp
  intro hlt
  refine not_quantifier_of_places hcarry ?_ entry hentry ?_
  · rintro ⟨prev, tail⟩ hplace hg
    rw [Bool.and_eq_true, decide_eq_true_eq, Option.any_eq_true] at hg
    obtain ⟨hprev, bounds, hb, hlt⟩ := hg
    have hle := h.bounds _ (mem_unescapedTails hplace hprev) bounds hb
    exact absurd (of_decide_eq_true hlt) (not_lt.mpr hle)
  · rw [hseen, decide_eq_true hlt]
    rfl

theorem seen_variable_le_one (hP : P.ReadsDigits)
    (h : Passes P (lexicalOf pattern)) :
    (seen (read pattern)).countP (·.2.isVariable) ≤ 1 := by
  have hcarry : Carries
      (onQuantifier fun entry => entry.2.isVariable && isSeen entry)
      (fun place => (place.2.head?.any (fun c => c ∈ ['*', '+', '?']) ||
          (repeatBounds P place.2).any fun bounds => bounds.2.isSome) &&
        place.1 ≠ some '\\') := by
    apply carries_onQuantifier
    intro last prev q c cs n hagrees hq hp
    rw [Bool.and_eq_true] at hp
    rw [Bool.and_eq_true, decide_eq_true_eq, Bool.or_eq_true]
    refine ⟨?_, prev_ne_backslash hagrees hp.2⟩
    have hlower := (Bool.and_eq_true _ _ ▸ hp.2).1
    rcases quantifier_seen hP hq hlower with ⟨hc, -⟩ | ⟨bounds, hb, -, hvar⟩
    · exact Or.inl (decide_eq_true hc)
    · rw [hb]
      exact Or.inr (hvar hp.1)
  have hle := countP_read_le hcarry pattern
  rw [← countP_quantifiers, ← List.countP_filter, ← List.countP_filter,
    ← countP_unescapedTails (fun tail =>
      tail.head?.any (fun c => c ∈ ['*', '+', '?']) ||
        (repeatBounds P tail).any fun bounds => bounds.2.isSome)] at hle
  exact hle.trans ((countP_or_le _ _ _).trans h.counted)

theorem Passes.safe_iff (hP : P.ReadsDigits)
    (h : Passes P (lexicalOf pattern)) :
    SafePattern (read pattern) ↔ HiddenHarmless (read pattern) := by
  have hseen := seen_variable_le_one hP h
  have hcount := countP_seen_add_hidden (read pattern)
  constructor
  · intro hsafe
    refine ⟨?_, fun entry hentry => ?_, ?_⟩
    · rintro ⟨last, q⟩ hentry rfl
      exact hsafe.noQuantifiedGroup q (List.mem_filter.mp hentry).1
    · exact hsafe.bounded entry (List.mem_filter.mp hentry).1
    · have hone := hsafe.oneVariable
      omega
  · intro hharmless
    refine ⟨fun d => not_mem_escape h, not_mem_extension h,
      not_mem_alternation h, fun q hq => ?_, ?_, fun entry hentry => ?_⟩
    · cases hlower : q.lower.isSome with
      | true => exact not_quantified_group hP h hq hlower rfl
      | false =>
          have hhidden : (some Token.closing, q) ∈ hidden (read pattern) := by
            apply List.mem_filter.mpr
            exact ⟨hq, by rw [isSeen, hlower]; rfl⟩
          exact hharmless.groups _ hhidden rfl
    · have hvariable := hharmless.variableCount
      omega
    · rcases mem_seen_or_hidden hentry with hmem | hmem
      · exact seen_bounded hP h entry hmem
      · exact hharmless.bounds entry hmem

end

/-- An accepted pattern is safe exactly when its hidden quantifiers leave it
so. -/
theorem validateSafeRegex_safe_iff (P : Platform) (hP : P.ReadsDigits)
    (pattern : String) (h : validateSafeRegex P pattern = .ok ()) :
    SafePattern (read pattern) ↔ HiddenHarmless (read pattern) :=
  (passes_of_validateSafeRegex h).safe_iff hP

theorem asciiPlatform_readsDigits : asciiPlatform.ReadsDigits where
  digit c hc := if_pos hc
  other c hc _ := by
    rw [asciiPlatform]
    exact if_neg (Bool.eq_false_iff.mp hc)

theorem validateSafeRegex_safe_once :
    SafePattern (read "ab+") ↔ HiddenHarmless (read "ab+") :=
  validateSafeRegex_safe_iff asciiPlatform asciiPlatform_readsDigits "ab+"
    (eq_ok_of_toOption (by decide +kernel))

/-- Two repeated backslashes are accepted. -/
theorem validateSafeRegex_accepts_unsafe :
    validateSafeRegex asciiPlatform "\\\\*\\\\*" = .ok () ∧
      ¬ SafePattern (read "\\\\*\\\\*") := by
  refine ⟨eq_ok_of_toOption (by decide +kernel), fun h => ?_⟩
  have hone := h.oneVariable
  revert hone
  decide +kernel

end ApexForensic.Search
