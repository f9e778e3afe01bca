import ApexForensic.Search.QueryService

/-!
# The normal form of search texts

A search copy is a text with its paths and white space in one form, folded to
one letter case.  As folding changes no separator and no white space, the copy
is the folding of the text in normal form, and a text that contains another in
its letter case contains it folded.
-/

namespace ApexForensic.Search

open ApexForensic.Support ApexForensic.Domain

/-- The text in the normal form of paths and white space, in its own letter
case. -/
def pathCopy (P : QueryPlatform) (value : String) : String :=
  let slashed := (P.nfc value).toList.map fun c => if c = '\\' then '/' else c
  strip (String.ofList
    (collapseRuns isSpace ' ' (collapseRuns (· = '/') '/' slashed)))

/-- Letters are folded one by one, and only letters: white space and slashes
of both kinds stay, and nothing else becomes one of them. -/
structure FoldsLetters (casefold : String → String) (fold : Char → List Char) :
    Prop where
  casefold_eq : ∀ s : String,
    casefold s = String.ofList (s.toList.flatMap fold)
  space : ∀ c, isSpace c = true → fold c = [c]
  not_space : ∀ c, isSpace c = false →
    fold c ≠ [] ∧ ∀ x ∈ fold c, isSpace x = false
  slash : fold '/' = ['/']
  not_slash : ∀ c, c ≠ '/' → fold c ≠ [] ∧ '/' ∉ fold c
  backslash : fold '\\' = ['\\']
  not_backslash : ∀ c, c ≠ '\\' → '\\' ∉ fold c

/-! ## Separators stay where they are -/

section Lists

variable {p : Char → Bool} {fold : Char → List Char}

/-- The characters of a kind are kept and no other becomes one. -/
structure Keeps (fold : Char → List Char) (p : Char → Bool) : Prop where
  kept : ∀ c, p c = true → fold c = [c]
  others : ∀ c, p c = false → fold c ≠ [] ∧ ∀ x ∈ fold c, p x = false

theorem Keeps.head?_flatMap (h : Keeps fold p) (cs : List Char) :
    (cs.flatMap fold).head?.any p = cs.head?.any p := by
  cases cs with
  | nil => rfl
  | cons c cs =>
      rw [List.flatMap_cons, List.head?_cons, Option.any_some]
      cases hc : p c with
      | true =>
          rw [h.kept c hc]
          exact hc
      | false =>
          obtain ⟨hne, hfold⟩ := h.others c hc
          obtain ⟨x, xs, hx⟩ := List.exists_cons_of_ne_nil hne
          rw [hx, List.cons_append, List.head?_cons, Option.any_some]
          exact hfold x (hx ▸ List.mem_cons_self)

theorem collapseRuns_append {b : Char} {cs rest : List Char}
    (h : ∀ c ∈ cs, p c = false) :
    collapseRuns p b (cs ++ rest) = cs ++ collapseRuns p b rest := by
  induction cs with
  | nil => rfl
  | cons c cs ih =>
      obtain ⟨hc, hcs⟩ := List.forall_mem_cons.mp h
      rw [List.cons_append, collapseRuns, hc, ih hcs]
      rfl

theorem Keeps.collapseRuns_flatMap (h : Keeps fold p) {b : Char}
    (hb : fold b = [b]) (cs : List Char) :
    collapseRuns p b (cs.flatMap fold) =
      (collapseRuns p b cs).flatMap fold := by
  induction cs with
  | nil => rfl
  | cons c cs ih =>
      rw [List.flatMap_cons, collapseRuns]
      cases hc : p c with
      | true =>
          rw [h.kept c hc, List.singleton_append, collapseRuns, hc,
            h.head?_flatMap, ih]
          cases cs.head?.any p with
          | true => rfl
          | false =>
              show b :: _ = List.flatMap fold (b :: _)
              rw [List.flatMap_cons, hb, List.singleton_append]
      | false =>
          rw [collapseRuns_append (h.others c hc).2, ih]
          rfl

theorem Keeps.dropWhile_flatMap (h : Keeps fold p) (cs : List Char) :
    (cs.flatMap fold).dropWhile p = (cs.dropWhile p).flatMap fold := by
  induction cs with
  | nil => rfl
  | cons c cs ih =>
      rw [List.flatMap_cons]
      cases hc : p c with
      | true =>
          rw [h.kept c hc, List.singleton_append, List.dropWhile_cons_of_pos hc,
            List.dropWhile_cons_of_pos hc, ih]
      | false =>
          obtain ⟨hne, hfold⟩ := h.others c hc
          obtain ⟨x, xs, hx⟩ := List.exists_cons_of_ne_nil hne
          have hhead : p x ≠ true :=
            ne_true_of_eq_false (hfold x (hx ▸ List.mem_cons_self))
          rw [List.dropWhile_cons_of_neg (ne_true_of_eq_false hc),
            List.flatMap_cons, hx, List.cons_append,
            List.dropWhile_cons_of_neg hhead]

theorem Keeps.reverse (h : Keeps fold p) :
    Keeps (List.reverse ∘ fold) p where
  kept c hc := congrArg List.reverse (h.kept c hc)
  others c hc := by
    obtain ⟨hne, hfold⟩ := h.others c hc
    refine ⟨fun hnil => hne (List.reverse_eq_nil_iff.mp hnil), fun x hx => ?_⟩
    exact hfold x (List.mem_reverse.mp hx)

theorem Keeps.stripChars_flatMap (h : Keeps fold isSpace) (cs : List Char) :
    stripChars (cs.flatMap fold) = (stripChars cs).flatMap fold := by
  rw [stripChars, stripChars, h.dropWhile_flatMap, List.reverse_flatMap,
    h.reverse.dropWhile_flatMap, List.reverse_flatMap]
  simp [Function.comp_def]

end Lists

/-! ## Copies -/

section Copies

variable {P : QueryPlatform} {fold : Char → List Char}

theorem FoldsLetters.keeps_space (h : FoldsLetters P.casefold fold) :
    Keeps fold isSpace where
  kept := h.space
  others := h.not_space

theorem FoldsLetters.keeps_slash (h : FoldsLetters P.casefold fold) :
    Keeps fold fun c => c = '/' where
  kept c hc := by
    obtain rfl := of_decide_eq_true hc
    exact h.slash
  others c hc := by
    obtain ⟨hne, hslash⟩ := h.not_slash c (of_decide_eq_false hc)
    refine ⟨hne, fun x hx => decide_eq_false ?_⟩
    rintro rfl
    exact hslash hx

theorem FoldsLetters.normalizeSearchCopy_eq (h : FoldsLetters P.casefold fold)
    (value : String) :
    normalizeSearchCopy P value = P.casefold (pathCopy P value) := by
  rw [normalizeSearchCopy, pathCopy, h.casefold_eq, h.casefold_eq, strip, strip]
  simp only [String.toList_ofList]
  rw [h.keeps_slash.collapseRuns_flatMap h.slash,
    h.keeps_space.collapseRuns_flatMap (h.space ' ' (by decide)),
    h.keeps_space.stripChars_flatMap]

theorem FoldsLetters.flatMap_slashed (h : FoldsLetters P.casefold fold)
    (cs : List Char) :
    (cs.map fun c => if c = '\\' then '/' else c).flatMap fold =
      (cs.flatMap fold).map fun c => if c = '\\' then '/' else c := by
  rw [List.flatMap_map, List.map_flatMap]
  refine List.flatMap_congr fun c _ => ?_
  by_cases hc : c = '\\'
  · rw [if_pos hc, hc, h.backslash, h.slash]
    rfl
  · rw [if_neg hc]
    refine ((List.map_congr_left fun x hx => if_neg ?_).trans
      (List.map_id _)).symm
    rintro rfl
    exact h.not_backslash c hc hx

theorem FoldsLetters.normalizeSearchCopy_congr
    (h : FoldsLetters P.casefold fold) {text text' : String}
    (hsame : P.casefold (P.nfc text) = P.casefold (P.nfc text')) :
    normalizeSearchCopy P text = normalizeSearchCopy P text' := by
  rw [h.casefold_eq, h.casefold_eq] at hsame
  have hfolded := congrArg String.toList hsame
  rw [String.toList_ofList, String.toList_ofList] at hfolded
  rw [normalizeSearchCopy, normalizeSearchCopy, h.casefold_eq, h.casefold_eq]
  simp only [String.toList_ofList]
  rw [h.flatMap_slashed, h.flatMap_slashed, hfolded]

theorem containsText_iff {part s : String} :
    containsText part s = true ↔ part.toList <:+: s.toList := by
  rw [containsText, List.any_eq_true]
  constructor
  · rintro ⟨tail, htail, hfound⟩
    exact (List.isPrefixOf_iff_prefix.mp hfound).isInfix.trans
      ((List.mem_tails _ _).mp htail).isInfix
  · rintro ⟨before, after, heq⟩
    refine ⟨part.toList ++ after, (List.mem_tails _ _).mpr ⟨before, ?_⟩,
      List.isPrefixOf_iff_prefix.mpr (List.prefix_append _ _)⟩
    rw [← List.append_assoc, heq]

theorem FoldsLetters.containsText_casefold (h : FoldsLetters P.casefold fold)
    {part s : String} (hcontains : containsText part s = true) :
    containsText (P.casefold part) (P.casefold s) = true := by
  rw [containsText_iff] at hcontains ⊢
  obtain ⟨before, after, heq⟩ := hcontains
  rw [h.casefold_eq, h.casefold_eq, String.toList_ofList, String.toList_ofList,
    ← heq, List.flatMap_append, List.flatMap_append]
  exact List.infix_append _ _ _

end Copies

end ApexForensic.Search
