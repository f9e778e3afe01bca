import ApexForensic.Support.Json

/-!
# The compact text of a JSON value

`render` writes a value with no blanks and minimal string escapes.  A text is
read back from the left: words end at a delimiter, strings end at the first
quote that is not escaped, and the closing bracket ends an array or an object.
`render_injective` packages this as the statement that no two values share a
text.
-/

namespace ApexForensic.Support.Json

variable {n : ℕ} {c : Char} {v w : Json} {word : List Char}

/-! ## Escaped strings -/

/-- The characters written for one character of a string. -/
def escapeChar (c : Char) : List Char :=
  if c = '"' then ['\\', '"']
  else if c = '\\' then ['\\', '\\']
  else if c = '\n' then ['\\', 'n']
  else if c = '\r' then ['\\', 'r']
  else if c = '\t' then ['\\', 't']
  else if c = '\x08' then ['\\', 'b']
  else if c = '\x0c' then ['\\', 'f']
  else if c.toNat < 32 then
    ['\\', 'u', '0', '0', Nat.digitChar (c.toNat / 16),
      Nat.digitChar (c.toNat % 16)]
  else [c]

/-- The value of a lower-case hexadecimal digit. -/
def hexValue (c : Char) : ℕ :=
  if c.isDigit then c.toNat - 48 else c.toNat - 87

/-- Read one string character; the closing quote is not one. -/
def unescape : List Char → Option (Char × List Char)
  | [] => none
  | '"' :: _ => none
  | '\\' :: '"' :: s => some ('"', s)
  | '\\' :: '\\' :: s => some ('\\', s)
  | '\\' :: 'n' :: s => some ('\n', s)
  | '\\' :: 'r' :: s => some ('\r', s)
  | '\\' :: 't' :: s => some ('\t', s)
  | '\\' :: 'b' :: s => some ('\x08', s)
  | '\\' :: 'f' :: s => some ('\x0c', s)
  | '\\' :: 'u' :: '0' :: '0' :: h :: l :: s =>
      some (Char.ofNat (16 * hexValue h + hexValue l), s)
  | c :: s => some (c, s)

theorem hexValue_digitChar (hn : n < 16) : hexValue (Nat.digitChar n) = n := by
  revert n
  decide

theorem unescape_escapeChar (c : Char) (s : List Char) :
    unescape (escapeChar c ++ s) = some (c, s) := by
  unfold escapeChar
  split_ifs with hquote hslash hn hr ht hb hf hcontrol
  · simp [unescape, hquote]
  · simp [unescape, hslash]
  · simp [unescape, hn]
  · simp [unescape, hr]
  · simp [unescape, ht]
  · simp [unescape, hb]
  · simp [unescape, hf]
  · have hhigh : c.toNat / 16 < 16 := by omega
    have hlow : c.toNat % 16 < 16 := by omega
    have hvalue : 16 * (c.toNat / 16) + c.toNat % 16 = c.toNat := by omega
    simp [unescape, hexValue_digitChar hhigh, hexValue_digitChar hlow, hvalue]
  · simp [unescape, hslash]

theorem escapeChar_append_inj {d : Char} {s t : List Char}
    (h : escapeChar c ++ s = escapeChar d ++ t) : c = d ∧ s = t := by
  have hc := unescape_escapeChar c s
  rw [h, unescape_escapeChar d t] at hc
  simpa [eq_comm] using hc

theorem quote_ne_escapeChar (c : Char) (s t : List Char) :
    '"' :: t ≠ escapeChar c ++ s := by
  intro h
  have hc := unescape_escapeChar c s
  rw [← h] at hc
  simp [unescape] at hc

theorem escaped_append_inj :
    ∀ {cs ds rest rest' : List Char},
      cs.flatMap escapeChar ++ '"' :: rest =
        ds.flatMap escapeChar ++ '"' :: rest' →
      cs = ds ∧ rest = rest'
  | [], [], rest, rest', h => by simpa using h
  | [], d :: ds, rest, rest', h => by
      rw [List.flatMap_cons, List.append_assoc] at h
      exact (quote_ne_escapeChar d _ _ h).elim
  | c :: cs, [], rest, rest', h => by
      rw [List.flatMap_cons, List.append_assoc] at h
      exact (quote_ne_escapeChar c _ _ h.symm).elim
  | c :: cs, d :: ds, rest, rest', h => by
      rw [List.flatMap_cons, List.flatMap_cons, List.append_assoc,
        List.append_assoc] at h
      obtain ⟨hcd, htail⟩ := escapeChar_append_inj h
      obtain ⟨hcs, hrest⟩ := escaped_append_inj htail
      exact ⟨by rw [hcd, hcs], hrest⟩

/-! ## Words -/

/-- The decimal text of an integer. -/
def intText : ℤ → List Char
  | .ofNat n => Nat.toDigits 10 n
  | .negSucc n => '-' :: Nat.toDigits 10 (n + 1)

/-- The text of a scalar other than a string. -/
def wordText : Json → Option (List Char)
  | null => some ['n', 'u', 'l', 'l']
  | bool true => some ['t', 'r', 'u', 'e']
  | bool false => some ['f', 'a', 'l', 's', 'e']
  | int n => some (intText n)
  | float text => some text.1
  | _ => none

theorem toDigits_inj {m : ℕ} (h : Nat.toDigits 10 m = Nat.toDigits 10 n) :
    m = n := by
  have hvalue := congrArg (Nat.ofDigitChars 10 · 0) h
  simpa using hvalue

theorem isDigit_of_mem_toDigits (hc : c ∈ Nat.toDigits 10 n) :
    c.isDigit = true :=
  Nat.isDigit_of_mem_toDigits (by omega) (by omega) hc

theorem isDigit_or_minus_of_mem_intText {n : ℤ} (hc : c ∈ intText n) :
    c.isDigit = true ∨ c = '-' := by
  cases n with
  | ofNat m => exact Or.inl (isDigit_of_mem_toDigits hc)
  | negSucc m =>
      rcases List.mem_cons.mp hc with hc | hc
      · exact Or.inr hc
      · exact Or.inl (isDigit_of_mem_toDigits hc)

theorem minus_not_mem_toDigits (n : ℕ) : '-' ∉ Nat.toDigits 10 n := by
  intro h
  have := isDigit_of_mem_toDigits h
  simp at this

theorem intText_inj {m n : ℤ} (h : intText m = intText n) : m = n := by
  cases m with
  | ofNat m =>
      cases n with
      | ofNat n => exact congrArg Int.ofNat (toDigits_inj h)
      | negSucc n =>
          refine (minus_not_mem_toDigits m ?_).elim
          rw [show Nat.toDigits 10 m = _ from h]
          exact List.mem_cons_self
  | negSucc m =>
      cases n with
      | ofNat n =>
          refine (minus_not_mem_toDigits n ?_).elim
          rw [show Nat.toDigits 10 n = _ from h.symm]
          exact List.mem_cons_self
      | negSucc n =>
          have := toDigits_inj (List.cons.inj h).2
          rw [Nat.succ.inj this]

theorem intText_ne_nil (n : ℤ) : intText n ≠ [] := by
  cases n with
  | ofNat m => exact Nat.toDigits_ne_nil
  | negSucc m => exact List.cons_ne_nil _ _

theorem not_isDelimiter_of_isDigit (h : c.isDigit = true) :
    isDelimiter c = false := by
  rw [isDelimiter, decide_eq_false_iff_not]
  intro hmem
  simp only [List.mem_cons, List.not_mem_nil, or_false] at hmem
  rcases hmem with rfl | rfl | rfl | rfl | rfl | rfl | rfl <;> simp at h

theorem not_isDelimiter_of_all
    (hall : word.all (fun c => !isDelimiter c) = true) (hc : c ∈ word) :
    isDelimiter c = false := by
  simpa using List.all_eq_true.mp hall c hc

theorem not_isDelimiter_of_mem_word (hword : wordText v = some word)
    (hc : c ∈ word) : isDelimiter c = false := by
  cases v with
  | null =>
      cases hword
      exact not_isDelimiter_of_all (by decide) hc
  | bool b =>
      cases b
      · cases hword
        exact not_isDelimiter_of_all (by decide) hc
      · cases hword
        exact not_isDelimiter_of_all (by decide) hc
  | int n =>
      cases hword
      rcases isDigit_or_minus_of_mem_intText hc with hdigit | rfl
      · exact not_isDelimiter_of_isDigit hdigit
      · decide
  | float text =>
      cases hword
      have htext := text.2
      simp only [isFloatText, Bool.and_eq_true] at htext
      exact not_isDelimiter_of_all htext.1.2 hc
  | str s => simp [wordText] at hword
  | arr items => simp [wordText] at hword
  | obj fields => simp [wordText] at hword

theorem word_ne_nil (hword : wordText v = some word) : word ≠ [] := by
  cases v with
  | null => cases hword; simp
  | bool b => cases b <;> cases hword <;> simp
  | int n => cases hword; exact intText_ne_nil n
  | float text =>
      cases hword
      intro hnil
      have htext := text.2
      simp [isFloatText, hnil] at htext
  | str s => simp [wordText] at hword
  | arr items => simp [wordText] at hword
  | obj fields => simp [wordText] at hword

/-- The leading letter of a literal, and whether a mark of a non-integer
number occurs. -/
def wordShape (word : List Char) : Option Char × Bool :=
  (word.head?.filter (· ∈ ['n', 't', 'f']),
    word.any (· ∈ ['.', 'e', 'N', 'I']))

/-- The shape of the word written for a value. -/
def shape : Json → Option Char × Bool
  | null => (some 'n', false)
  | bool true => (some 't', true)
  | bool false => (some 'f', true)
  | float _ => (none, true)
  | _ => (none, false)

theorem wordShape_intText (n : ℤ) : wordShape (intText n) = (none, false) := by
  have hchar {c : Char} (hc : c ∈ intText n) (letters : List Char)
      (hletters : letters.all (fun l => !l.isDigit && l != '-') = true) :
      c ∉ letters := by
    intro hmem
    have hletter := List.all_eq_true.mp hletters c hmem
    rcases isDigit_or_minus_of_mem_intText hc with h | h
    · simp [h] at hletter
    · simp [h] at hletter
  rw [wordShape, Prod.mk.injEq, Option.filter_eq_none_iff, List.any_eq_false]
  constructor
  · intro c hc
    have := hchar (List.mem_of_mem_head? hc) ['n', 't', 'f'] (by decide)
    simpa using this
  · intro c hc
    have := hchar hc ['.', 'e', 'N', 'I'] (by decide)
    simpa using this

theorem wordShape_float (text : FloatText) :
    wordShape text.1 = (none, true) := by
  have htext := text.2
  simp only [isFloatText, Bool.and_eq_true] at htext
  obtain ⟨⟨hhead, -⟩, hmark⟩ := htext
  rw [wordShape, hmark, Prod.mk.injEq, Option.filter_eq_none_iff]
  refine ⟨fun c hc => ?_, rfl⟩
  rw [Option.mem_def.mp hc] at hhead
  intro hletter
  simp only [List.mem_cons, List.not_mem_nil, or_false,
    decide_eq_true_eq] at hletter
  rcases hletter with rfl | rfl | rfl <;> simp at hhead

theorem wordShape_eq_shape (hword : wordText v = some word) :
    wordShape word = shape v := by
  cases v with
  | null => cases hword; rfl
  | bool b => cases b <;> cases hword <;> rfl
  | int n => cases hword; exact wordShape_intText n
  | float text => cases hword; exact wordShape_float text
  | str s => simp [wordText] at hword
  | arr items => simp [wordText] at hword
  | obj fields => simp [wordText] at hword

theorem wordText_inj (hv : wordText v = some word) (hw : wordText w = some word)
    : v = w := by
  have hshape : shape v = shape w :=
    (wordShape_eq_shape hv).symm.trans (wordShape_eq_shape hw)
  match v, w, hv, hw with
  | null, null, _, _ => rfl
  | bool b, bool b', _, _ =>
      cases b <;> cases b' <;> first | rfl | simp [shape] at hshape
  | int m, int n, hv, hw =>
      rw [intText_inj (Option.some.inj (hv.trans hw.symm))]
  | float text, float text', hv, hw =>
      rw [Subtype.ext (Option.some.inj (hv.trans hw.symm))]
  | null, bool b, _, _ => cases b <;> simp [shape] at hshape
  | bool b, null, _, _ => cases b <;> simp [shape] at hshape
  | bool b, int _, _, _ => cases b <;> simp [shape] at hshape
  | int _, bool b, _, _ => cases b <;> simp [shape] at hshape
  | bool b, float _, _, _ => cases b <;> simp [shape] at hshape
  | float _, bool b, _, _ => cases b <;> simp [shape] at hshape
  | null, int _, _, _ => simp [shape] at hshape
  | int _, null, _, _ => simp [shape] at hshape
  | null, float _, _, _ => simp [shape] at hshape
  | float _, null, _, _ => simp [shape] at hshape
  | int _, float _, _, _ => simp [shape] at hshape
  | float _, int _, _, _ => simp [shape] at hshape

/-! ## The text of a value -/

mutual

/-- The compact text of a value. -/
def render : Json → List Char
  | null => ['n', 'u', 'l', 'l']
  | bool true => ['t', 'r', 'u', 'e']
  | bool false => ['f', 'a', 'l', 's', 'e']
  | int n => intText n
  | float text => text.1
  | str s => '"' :: (s.toList.flatMap escapeChar ++ ['"'])
  | arr items => '[' :: renderItems true items
  | obj fields => '{' :: renderFields true fields

/-- The items and the closing bracket; all items but the first follow a
comma. -/
def renderItems (first : Bool) : List Json → List Char
  | [] => [']']
  | v :: items =>
      (if first then [] else [',']) ++ (render v ++ renderItems false items)

def renderFields (first : Bool) : List (String × Json) → List Char
  | [] => ['}']
  | (k, v) :: fields =>
      (if first then [] else [',']) ++
        ('"' :: (k.toList.flatMap escapeChar ++
          '"' :: ':' :: (render v ++ renderFields false fields)))

end

/-- What follows a word in a text: nothing, or a delimiter. -/
def EndsWord (rest : List Char) : Prop :=
  ∀ c ∈ rest.head?, isDelimiter c = true

theorem endsWord_renderItems (items : List Json) (rest : List Char) :
    EndsWord (renderItems false items ++ rest) := by
  cases items <;> simp [EndsWord, renderItems, isDelimiter]

theorem endsWord_renderFields
    (fields : List (String × Json)) (rest : List Char) :
    EndsWord (renderFields false fields ++ rest) := by
  cases fields <;> simp [EndsWord, renderFields, isDelimiter]

theorem render_of_wordText (hword : wordText v = some word) :
    render v = word := by
  cases v with
  | bool b => cases b <;> simpa [wordText, render] using hword
  | str s => simp [wordText] at hword
  | arr items => simp [wordText] at hword
  | obj fields => simp [wordText] at hword
  | _ => simpa [wordText, render] using hword

theorem word_append_inj :
    ∀ {a b rest rest' : List Char},
      (∀ c ∈ a, isDelimiter c = false) → (∀ c ∈ b, isDelimiter c = false) →
      EndsWord rest → EndsWord rest' →
      a ++ rest = b ++ rest' → a = b ∧ rest = rest'
  | [], [], _, _, _, _, _, _, h => ⟨rfl, h⟩
  | [], d :: b, rest, _, _, hb, hrest, _, h => by
      have hd : isDelimiter d = true :=
        hrest d (by rw [show rest = _ from h]; rfl)
      simp [hb d List.mem_cons_self] at hd
  | c :: a, [], _, rest', ha, _, _, hrest', h => by
      have hc : isDelimiter c = true :=
        hrest' c (by rw [show rest' = _ from h.symm]; rfl)
      simp [ha c List.mem_cons_self] at hc
  | c :: a, d :: b, _, _, ha, hb, hrest, hrest', h => by
      obtain ⟨hcd, htail⟩ := List.cons.inj h
      obtain ⟨hab, hrests⟩ := word_append_inj
        (fun x hx => ha x (List.mem_cons_of_mem c hx))
        (fun x hx => hb x (List.mem_cons_of_mem d hx)) hrest hrest' htail
      exact ⟨by rw [hcd, hab], hrests⟩

/-- The delimiter a text opens with, for strings, arrays and objects. -/
def opening : Json → Option Char
  | str _ => some '"'
  | arr _ => some '['
  | obj _ => some '{'
  | _ => none

theorem wordText_eq_some_iff :
    (∃ word, wordText v = some word) ↔ opening v = none := by
  cases v with
  | bool b => cases b <;> simp [wordText, opening]
  | _ => simp [wordText, opening]

theorem filter_head?_render (v : Json) (rest : List Char) :
    (render v ++ rest).head?.filter isDelimiter = opening v := by
  by_cases hopening : opening v = none
  · obtain ⟨word, hword⟩ := wordText_eq_some_iff.mpr hopening
    obtain ⟨c, t, rfl⟩ := List.exists_cons_of_ne_nil (word_ne_nil hword)
    rw [render_of_wordText hword, hopening]
    simpa using not_isDelimiter_of_mem_word hword List.mem_cons_self
  · cases v with
    | str s => simp [render, opening, isDelimiter]
    | arr items => simp [render, opening, isDelimiter]
    | obj fields => simp [render, opening, isDelimiter]
    | _ => exact (hopening rfl).elim

theorem render_append_inj_of_word (hv : opening v = none)
    {rest rest' : List Char} (hrest : EndsWord rest) (hrest' : EndsWord rest')
    (h : render v ++ rest = render w ++ rest') : v = w ∧ rest = rest' := by
  have hw : opening w = none := by
    rw [← filter_head?_render w rest', ← h, filter_head?_render, hv]
  obtain ⟨a, ha⟩ := wordText_eq_some_iff.mpr hv
  obtain ⟨b, hb⟩ := wordText_eq_some_iff.mpr hw
  rw [render_of_wordText ha, render_of_wordText hb] at h
  obtain ⟨rfl, hrests⟩ := word_append_inj
    (fun _ => not_isDelimiter_of_mem_word ha)
    (fun _ => not_isDelimiter_of_mem_word hb) hrest hrest' h
  exact ⟨wordText_inj ha hb, hrests⟩

theorem render_ne_closing (v : Json) (rest rest' : List Char) :
    render v ++ rest ≠ ']' :: rest' := by
  intro h
  have hopening := filter_head?_render v rest
  rw [h] at hopening
  cases v <;> simp [opening, isDelimiter] at hopening

mutual

theorem render_append_inj :
    ∀ (v w : Json) {rest rest' : List Char},
      EndsWord rest → EndsWord rest' →
      render v ++ rest = render w ++ rest' → v = w ∧ rest = rest'
  | null, _, _, _, hrest, hrest', h =>
      render_append_inj_of_word rfl hrest hrest' h
  | bool _, _, _, _, hrest, hrest', h =>
      render_append_inj_of_word rfl hrest hrest' h
  | int _, _, _, _, hrest, hrest', h =>
      render_append_inj_of_word rfl hrest hrest' h
  | float _, _, _, _, hrest, hrest', h =>
      render_append_inj_of_word rfl hrest hrest' h
  | str s, w, rest, rest', _, _, h => by
      have hopening : opening w = some '"' := by
        rw [← filter_head?_render w rest', ← h, filter_head?_render]
        rfl
      cases w with
      | str s' =>
          simp only [render, List.cons_append, List.append_assoc,
            List.nil_append, List.cons.injEq, true_and] at h
          obtain ⟨hs, hrests⟩ := escaped_append_inj h
          exact ⟨by rw [String.toList_inj.mp hs], hrests⟩
      | _ => simp [opening] at hopening
  | arr items, w, rest, rest', _, _, h => by
      have hopening : opening w = some '[' := by
        rw [← filter_head?_render w rest', ← h, filter_head?_render]
        rfl
      cases w with
      | arr items' =>
          simp only [render, List.cons_append, List.cons.injEq,
            true_and] at h
          obtain ⟨hitems, hrests⟩ := renderItems_append_inj true items items' h
          exact ⟨by rw [hitems], hrests⟩
      | _ => simp [opening] at hopening
  | obj fields, w, rest, rest', _, _, h => by
      have hopening : opening w = some '{' := by
        rw [← filter_head?_render w rest', ← h, filter_head?_render]
        rfl
      cases w with
      | obj fields' =>
          simp only [render, List.cons_append, List.cons.injEq,
            true_and] at h
          obtain ⟨hfields, hrests⟩ :=
            renderFields_append_inj true fields fields' h
          exact ⟨by rw [hfields], hrests⟩
      | _ => simp [opening] at hopening

theorem renderItems_append_inj (first : Bool) :
    ∀ (xs ys : List Json) {rest rest' : List Char},
      renderItems first xs ++ rest = renderItems first ys ++ rest' →
      xs = ys ∧ rest = rest'
  | [], [], _, _, h => by simpa [renderItems] using h
  | [], w :: ys, rest, rest', h => by
      cases first
      · simp [renderItems] at h
      · exact (render_ne_closing w _ _ (by simpa [renderItems] using h.symm)).elim
  | v :: xs, [], rest, rest', h => by
      cases first
      · simp [renderItems] at h
      · exact (render_ne_closing v _ _ (by simpa [renderItems] using h)).elim
  | v :: xs, w :: ys, rest, rest', h => by
      simp only [renderItems, List.append_assoc, List.append_cancel_left_eq] at h
      obtain ⟨hvw, htail⟩ := render_append_inj v w
        (endsWord_renderItems xs rest) (endsWord_renderItems ys rest') h
      obtain ⟨hxs, hrests⟩ := renderItems_append_inj false xs ys htail
      exact ⟨by rw [hvw, hxs], hrests⟩

theorem renderFields_append_inj (first : Bool) :
    ∀ (xs ys : List (String × Json)) {rest rest' : List Char},
      renderFields first xs ++ rest = renderFields first ys ++ rest' →
      xs = ys ∧ rest = rest'
  | [], [], _, _, h => by simpa [renderFields] using h
  | [], (k, w) :: ys, rest, rest', h => by
      cases first <;> simp [renderFields] at h
  | (k, v) :: xs, [], rest, rest', h => by
      cases first <;> simp [renderFields] at h
  | (k, v) :: xs, (k', w) :: ys, rest, rest', h => by
      simp only [renderFields, List.append_assoc, List.append_cancel_left_eq,
        List.cons_append, List.cons.injEq, true_and] at h
      obtain ⟨hk, hcolon⟩ := escaped_append_inj h
      obtain ⟨hvw, htail⟩ := render_append_inj v w
        (endsWord_renderFields xs rest) (endsWord_renderFields ys rest')
        (List.cons.inj hcolon).2
      obtain ⟨hxs, hrests⟩ := renderFields_append_inj false xs ys htail
      exact ⟨by rw [String.toList_inj.mp hk, hvw, hxs], hrests⟩

end

theorem render_injective : Function.Injective render := by
  intro v w h
  have hend : EndsWord [] := by simp [EndsWord]
  exact (render_append_inj v w hend hend (by rw [h])).1

/-- The value with a compact text, if there is one. -/
noncomputable def ofText (text : String) : Option Json := by
  classical
  exact if h : ∃ v : Json, String.ofList v.render = text then some h.choose
    else none

theorem ofText_render (v : Json) : ofText (String.ofList v.render) = some v := by
  have h : ∃ w : Json, String.ofList w.render = String.ofList v.render :=
    ⟨v, rfl⟩
  rw [ofText, dif_pos h]
  exact congrArg some (render_injective (String.ofList_injective h.choose_spec))

/-! ## How long a text is -/

theorem escapeChar_ne_nil (c : Char) : escapeChar c ≠ [] := by
  intro h
  have hread := unescape_escapeChar c []
  rw [h] at hread
  cases hread

theorem length_le_length_escaped (cs : List Char) :
    cs.length ≤ (cs.flatMap escapeChar).length := by
  induction cs with
  | nil => exact le_rfl
  | cons c cs ih =>
      have hpos := List.length_pos_of_ne_nil (escapeChar_ne_nil c)
      rw [List.flatMap_cons, List.length_append, List.length_cons]
      omega

theorem length_le_length_render_str (s : String) :
    s.length ≤ (render (.str s)).length := by
  have hescaped := length_le_length_escaped s.toList
  rw [String.length_toList] at hescaped
  simp only [render, List.length_cons, List.length_append]
  omega

theorem sum_le_length_renderItems (items : List Json) (first : Bool) :
    (items.map fun v => (render v).length).sum ≤
      (renderItems first items).length := by
  induction items generalizing first with
  | nil => simp
  | cons v items ih =>
      have hrest := ih false
      simp only [renderItems, List.map_cons, List.sum_cons,
        List.length_append]
      omega

theorem sum_le_length_render_arr (items : List Json) :
    (items.map fun v => (render v).length).sum ≤
      (render (.arr items)).length := by
  have hitems := sum_le_length_renderItems items true
  rw [render, List.length_cons]
  omega

theorem length_le_length_renderFields {key : String}
    {fields : List (String × Json)} (h : lookup key fields = some v)
    (first : Bool) :
    (render v).length ≤ (renderFields first fields).length := by
  induction fields generalizing first with
  | nil => cases h
  | cons f fields ih =>
      obtain ⟨k, w⟩ := f
      simp only [renderFields, List.length_append, List.length_cons]
      rw [lookup_cons] at h
      split at h
      · obtain rfl := Option.some.inj h
        omega
      · have hrest := ih h false
        omega

theorem length_le_length_render_of_field {key : String}
    (h : w.field? key = some v) : (render v).length ≤ (render w).length := by
  cases w with
  | obj fields =>
      have hfields := length_le_length_renderFields h true
      rw [render, List.length_cons]
      omega
  | _ => cases h

end ApexForensic.Support.Json
