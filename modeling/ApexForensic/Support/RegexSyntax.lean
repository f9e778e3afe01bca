import Mathlib.Data.List.Basic
import Mathlib.Data.List.TakeWhile

/-!
# The grammar of Python patterns

How `re` splits a pattern into tokens.  A character class is one token; a
quantifier is one token with the modifier that makes it lazy or possessive;
what an escape takes beyond its letter (digits, a name) is read as literals,
since it holds no other token in a pattern that compiles.  An extension `(?`
is not read further.
-/

namespace ApexForensic.Support.Regex

/-! ## Quantifiers -/

/-- The bounds of a repetition as they are written.  An upper bound that is
left out is none, and so is a lower one. -/
structure Quantifier where
  lower : Option ℕ
  upper : Option ℕ
  deriving DecidableEq

namespace Quantifier

def least (q : Quantifier) : ℕ :=
  q.lower.getD 0

/-- The greatest number that is written, or implied by the lower bound. -/
def bound (q : Quantifier) : ℕ :=
  q.upper.getD q.least

/-- Whether different numbers of repetitions match. -/
def isVariable (q : Quantifier) : Bool :=
  q.upper ≠ some q.least

end Quantifier

/-- The value of some decimal digits. -/
def number (ds : List Char) : Option ℕ :=
  if ds = [] then none
  else some (ds.foldl (fun n c => 10 * n + (c.toNat - 48)) 0)

/-- A quantifier in braces, after the opening one, and its length from there. -/
def bracedQuantifier (cs : List Char) : Option (Quantifier × ℕ) :=
  let lo := cs.takeWhile Char.isDigit
  match cs.dropWhile Char.isDigit with
  | '}' :: _ =>
      if lo = [] then none
      else some (⟨number lo, number lo⟩, lo.length + 1)
  | ',' :: rest =>
      let hi := rest.takeWhile Char.isDigit
      match rest.dropWhile Char.isDigit with
      | '}' :: _ =>
          some (⟨number lo, number hi⟩, lo.length + (hi.length + 2))
      | _ => none
  | _ => none

/-- The quantifier that starts with a character, and its length after it. -/
def quantifier (c : Char) (cs : List Char) : Option (Quantifier × ℕ) :=
  if c = '*' then some (⟨some 0, none⟩, 0)
  else if c = '+' then some (⟨some 1, none⟩, 0)
  else if c = '?' then some (⟨some 0, some 1⟩, 0)
  else if c = '{' then bracedQuantifier cs
  else none

/-- The length of a modifier: the quantifier is lazy or possessive. -/
def modifier (cs : List Char) : ℕ :=
  if cs.head? = some '?' ∨ cs.head? = some '+' then 1 else 0

/-! ## Tokens -/

inductive Token where
  | literal (c : Char)
  | escape (c : Char)
  | set
  | opening
  | closing
  | alternation
  | extension
  | repetition (q : Quantifier)
  deriving DecidableEq

/-- Where the reader is: in the text, with characters left of a quantifier; at
the start of a class, where a caret may come; or in a class. -/
inductive Mode where
  | text (left : ℕ)
  | setStart (caret : Bool)
  | inSet

def tokens : Mode → List Char → List Token
  | _, [] => []
  | .text (n + 1), _ :: cs => tokens (.text n) cs
  | .text 0, c :: cs =>
      if c = '\\' then
        match cs with
        | d :: rest => .escape d :: tokens (.text 0) rest
        | [] => [.literal c]
      else if c = '[' then .set :: tokens (.setStart true) cs
      else if c = '(' then
        if cs.head? = some '?' then [.extension]
        else .opening :: tokens (.text 0) cs
      else if c = ')' then .closing :: tokens (.text 0) cs
      else if c = '|' then .alternation :: tokens (.text 0) cs
      else
        match quantifier c cs with
        | some (q, n) =>
            .repetition q :: tokens (.text (n + modifier (cs.drop n))) cs
        | none => .literal c :: tokens (.text 0) cs
  -- a bracket that comes first is a member of the class
  | .setStart caret, c :: cs =>
      if c = '\\' then
        match cs with
        | _ :: rest => tokens .inSet rest
        | [] => []
      else if c = '^' ∧ caret = true then tokens (.setStart false) cs
      else tokens .inSet cs
  | .inSet, c :: cs =>
      if c = '\\' then
        match cs with
        | _ :: rest => tokens .inSet rest
        | [] => []
      else if c = ']' then tokens (.text 0) cs
      else tokens .inSet cs

section

variable {c : Char} {cs : List Char}

theorem tokens_text (hc : c ≠ '\\') (hset : c ≠ '[') :
    tokens (.text 0) (c :: cs) =
      if c = '(' then
        if cs.head? = some '?' then [.extension]
        else .opening :: tokens (.text 0) cs
      else if c = ')' then .closing :: tokens (.text 0) cs
      else if c = '|' then .alternation :: tokens (.text 0) cs
      else
        match quantifier c cs with
        | some (q, n) =>
            .repetition q :: tokens (.text (n + modifier (cs.drop n))) cs
        | none => .literal c :: tokens (.text 0) cs := by
  rw [tokens.eq_def]
  exact (if_neg hc).trans (if_neg hset)

theorem tokens_set :
    tokens (.text 0) ('[' :: cs) = .set :: tokens (.setStart true) cs := by
  rw [tokens.eq_def]
  rfl

theorem tokens_closing :
    tokens (.text 0) (')' :: cs) = .closing :: tokens (.text 0) cs :=
  tokens_text (by decide) (by decide)

theorem tokens_alternation :
    tokens (.text 0) ('|' :: cs) = .alternation :: tokens (.text 0) cs :=
  tokens_text (by decide) (by decide)

theorem tokens_extension (h : cs.head? = some '?') :
    tokens (.text 0) ('(' :: cs) = [.extension] :=
  (tokens_text (by decide) (by decide)).trans (if_pos h)

theorem tokens_opening (h : ¬ cs.head? = some '?') :
    tokens (.text 0) ('(' :: cs) = .opening :: tokens (.text 0) cs :=
  (tokens_text (by decide) (by decide)).trans (if_neg h)

theorem tokens_setStart (hc : c ≠ '\\') (caret : Bool) :
    tokens (.setStart caret) (c :: cs) =
      if c = '^' ∧ caret = true then tokens (.setStart false) cs
      else tokens .inSet cs := by
  rw [tokens.eq_def]
  exact if_neg hc

theorem tokens_inSet (hc : c ≠ '\\') :
    tokens .inSet (c :: cs) =
      if c = ']' then tokens (.text 0) cs else tokens .inSet cs := by
  rw [tokens.eq_def]
  exact if_neg hc

end

/-- The tokens of a pattern. -/
def read (pattern : String) : List Token :=
  tokens (.text 0) pattern.toList

def preceded (last : Option Token) : List Token → List (Option Token × Token)
  | [] => []
  | t :: ts => (last, t) :: preceded (some t) ts

/-- Each quantifier with the token it is applied to. -/
def quantifiers (ts : List Token) : List (Option Token × Quantifier) :=
  (preceded none ts).filterMap fun entry =>
    match entry.2 with
    | .repetition q => some (entry.1, q)
    | _ => none

theorem mem_quantifiers {ts : List Token} {last : Option Token}
    {q : Quantifier} :
    (last, q) ∈ quantifiers ts ↔ (last, .repetition q) ∈ preceded none ts := by
  rw [quantifiers, List.mem_filterMap]
  constructor
  · rintro ⟨⟨last', t⟩, hmem, hsome⟩
    cases t with
    | repetition q' =>
        cases hsome
        exact hmem
    | _ => cases hsome
  · intro hmem
    exact ⟨_, hmem, rfl⟩

theorem exists_mem_preceded {t : Token} {ts : List Token} (h : t ∈ ts)
    (last : Option Token) : ∃ before, (before, t) ∈ preceded last ts := by
  induction ts generalizing last with
  | nil => cases h
  | cons u ts ih =>
      rcases List.mem_cons.mp h with rfl | h
      · exact ⟨last, List.mem_cons_self⟩
      · obtain ⟨before, hbefore⟩ := ih h (some u)
        exact ⟨before, List.mem_cons_of_mem _ hbefore⟩

/-- A test of quantifiers as a test of tokens. -/
def onQuantifier (p : Option Token × Quantifier → Bool) :
    Option Token × Token → Bool
  | (last, .repetition q) => p (last, q)
  | _ => false

theorem countP_quantifiers (p : Option Token × Quantifier → Bool)
    (ts : List Token) :
    (quantifiers ts).countP p =
      (preceded none ts).countP (onQuantifier p) := by
  rw [quantifiers, List.countP_filterMap]
  congr 1
  funext ⟨last, t⟩
  cases t <;> rfl

/-! ## Braces -/

theorem takeWhile_digits {ds rest : List Char}
    (hds : ∀ c ∈ ds, c.isDigit = true)
    (hrest : rest.head?.any Char.isDigit = false) :
    (ds ++ rest).takeWhile Char.isDigit = ds := by
  rw [List.takeWhile_append_of_pos hds]
  cases rest with
  | nil => simp
  | cons c rest =>
      have hc : c.isDigit = false := hrest
      simp [hc]

theorem dropWhile_digits {ds rest : List Char}
    (hds : ∀ c ∈ ds, c.isDigit = true)
    (hrest : rest.head?.any Char.isDigit = false) :
    (ds ++ rest).dropWhile Char.isDigit = rest := by
  rw [List.dropWhile_append_of_pos hds]
  cases rest with
  | nil => rfl
  | cons c rest =>
      have hc : c.isDigit = false := hrest
      simp [hc]

theorem bracedQuantifier_cases {cs : List Char} {q : Quantifier} {n : ℕ}
    (h : bracedQuantifier cs = some (q, n)) :
    ∃ lo rest, (∀ c ∈ lo, c.isDigit = true) ∧
      ((cs = lo ++ '}' :: rest ∧ lo ≠ [] ∧ q = ⟨number lo, number lo⟩ ∧
          n = lo.length + 1) ∨
        ∃ hi, (∀ c ∈ hi, c.isDigit = true) ∧
          cs = lo ++ ',' :: (hi ++ '}' :: rest) ∧
          q = ⟨number lo, number hi⟩ ∧ n = lo.length + (hi.length + 2)) := by
  have hsplit : ∀ cs : List Char,
      cs.takeWhile Char.isDigit ++ cs.dropWhile Char.isDigit = cs :=
    fun cs => List.takeWhile_append_dropWhile
  have hdigits : ∀ cs : List Char, ∀ c ∈ cs.takeWhile Char.isDigit,
      c.isDigit = true := fun cs c hc => List.mem_takeWhile_imp hc
  unfold bracedQuantifier at h
  dsimp only at h
  have hcs := hsplit cs
  split at h
  · rename_i rest hrest
    rw [hrest] at hcs
    split at h
    · cases h
    · rename_i hne
      cases h
      exact ⟨_, rest, hdigits cs, Or.inl ⟨hcs.symm, hne, rfl, rfl⟩⟩
  · rename_i rest hrest
    have hrest' := hsplit rest
    split at h
    · rename_i rest' hclose
      cases h
      rw [hclose] at hrest'
      rw [hrest, ← hrest'] at hcs
      exact ⟨_, rest', hdigits cs, Or.inr ⟨_, hdigits rest, hcs.symm, rfl, rfl⟩⟩
    · cases h
  · cases h

theorem bracedQuantifier_exact {lo rest : List Char}
    (hlo : ∀ c ∈ lo, c.isDigit = true) (hne : lo ≠ []) :
    bracedQuantifier (lo ++ '}' :: rest) =
      some (⟨number lo, number lo⟩, lo.length + 1) := by
  rw [bracedQuantifier, takeWhile_digits hlo rfl, dropWhile_digits hlo rfl]
  exact if_neg hne

theorem bracedQuantifier_range {lo hi rest : List Char}
    (hlo : ∀ c ∈ lo, c.isDigit = true) (hhi : ∀ c ∈ hi, c.isDigit = true) :
    bracedQuantifier (lo ++ ',' :: (hi ++ '}' :: rest)) =
      some (⟨number lo, number hi⟩, lo.length + (hi.length + 2)) := by
  rw [bracedQuantifier, takeWhile_digits hlo rfl, dropWhile_digits hlo rfl]
  have htake : (hi ++ '}' :: rest).takeWhile Char.isDigit = hi :=
    takeWhile_digits hhi rfl
  have hdrop : (hi ++ '}' :: rest).dropWhile Char.isDigit = '}' :: rest :=
    dropWhile_digits hhi rfl
  simp [htake, hdrop]

/-- A character that can stand in a quantifier after its first one. -/
def isInner (c : Char) : Bool :=
  c.isDigit || c = ',' || c = '}'

theorem quantifier_text {c : Char} {cs : List Char} {q : Quantifier} {n : ℕ}
    (h : quantifier c cs = some (q, n)) :
    ∃ text rest, cs = text ++ rest ∧ text.length = n ∧
      (∀ d ∈ text, isInner d = true) ∧
      ∀ rest', quantifier c (text ++ rest') = some (q, n) := by
  rw [quantifier] at h
  split_ifs at h with hstar hplus hoptional hbrace
  · cases h
    exact ⟨[], cs, rfl, rfl, nofun, fun _ => by rw [quantifier, if_pos hstar]⟩
  · cases h
    exact ⟨[], cs, rfl, rfl, nofun, fun _ => by
      rw [quantifier, if_neg hstar, if_pos hplus]⟩
  · cases h
    exact ⟨[], cs, rfl, rfl, nofun, fun _ => by
      rw [quantifier, if_neg hstar, if_neg hplus, if_pos hoptional]⟩
  · have hinner : ∀ {ds : List Char}, (∀ c ∈ ds, c.isDigit = true) →
        ∀ c ∈ ds, isInner c = true :=
      fun hds c hc => by rw [isInner, hds c hc]; rfl
    obtain ⟨lo, rest, hlo, ⟨rfl, hne, rfl, rfl⟩ | ⟨hi, hhi, rfl, rfl, rfl⟩⟩ :=
      bracedQuantifier_cases h
    · refine ⟨lo ++ ['}'], rest, by simp, by simp, fun d hd => ?_,
        fun rest' => ?_⟩
      · rcases List.mem_append.mp hd with hd | hd
        · exact hinner hlo d hd
        · rw [List.mem_singleton.mp hd]
          rfl
      · rw [quantifier, if_neg hstar, if_neg hplus, if_neg hoptional,
          if_pos hbrace, List.append_assoc]
        exact bracedQuantifier_exact hlo hne
    · refine ⟨lo ++ ',' :: (hi ++ ['}']), rest, by simp, by simp,
        fun d hd => ?_, fun rest' => ?_⟩
      · rcases List.mem_append.mp hd with hd | hd
        · exact hinner hlo d hd
        rcases List.mem_cons.mp hd with rfl | hd
        · rfl
        rcases List.mem_append.mp hd with hd | hd
        · exact hinner hhi d hd
        · rw [List.mem_singleton.mp hd]
          rfl
      · rw [quantifier, if_neg hstar, if_neg hplus, if_neg hoptional,
          if_pos hbrace]
        have hrange := @bracedQuantifier_range lo hi rest' hlo hhi
        simpa using hrange

end ApexForensic.Support.Regex
