import ApexForensic.Domain.Errors
import ApexForensic.Support.Float64

/-!
# Python's view of JSON values

Reading a key of a mapping, and comparing a loaded value with an integer or
with an optional string.  Numbers compare by value across their types, so
`true` and `1.0` both equal `1`.
-/

namespace ApexForensic.Domain

open ApexForensic.Support

/-- The value of an unsigned decimal literal with fraction or exponent. -/
def decimalValue (s : List Char) : Option ℚ :=
  let (whole, rest) := s.span Char.isDigit
  let (fraction, rest) :=
    match rest with
    | '.' :: rest => rest.span Char.isDigit
    | _ => ([], rest)
  let exponent : ℤ :=
    match rest with
    | 'e' :: '-' :: rest => -(Nat.ofDigitChars 10 rest 0 : ℕ)
    | 'e' :: '+' :: rest => (Nat.ofDigitChars 10 rest 0 : ℕ)
    | 'e' :: rest => (Nat.ofDigitChars 10 rest 0 : ℕ)
    | _ => 0
  if whole = [] then none
  else some (nearestDouble
    (Nat.ofDigitChars 10 (whole ++ fraction) 0 *
      10 ^ (exponent - fraction.length)))

/-- The value of a float; not-a-number and the infinities have none. -/
def floatValue (text : FloatText) : Option ℚ :=
  match text.1 with
  | '-' :: s => (decimalValue s).map (- ·)
  | s => decimalValue s

/-- `value == n` for an integer `n`. -/
def equalsInt : Json → ℤ → Bool
  | .int m, n => m = n
  | .bool b, n => (if b then 1 else 0) = n
  | .float text, n => floatValue text = some (n : ℚ)
  | _, _ => false

/-- `value == s` for a string or `None`. -/
def equalsStr? : Json → Option String → Bool
  | .null, none => true
  | .str s, some t => s = t
  | _, _ => false

theorem equalsInt_unique {v : Json} {m n : ℤ}
    (hm : equalsInt v m = true) (hn : equalsInt v n = true) : m = n := by
  cases v with
  | int k =>
      simp only [equalsInt, decide_eq_true_eq] at hm hn
      exact hm.symm.trans hn
  | bool b =>
      simp only [equalsInt, decide_eq_true_eq] at hm hn
      exact hm.symm.trans hn
  | float text =>
      simp only [equalsInt, decide_eq_true_eq] at hm hn
      exact_mod_cast Option.some.inj (hm.symm.trans hn)
  | _ => simp [equalsInt] at hm

theorem equalsStr?_iff {v : Json} {s : Option String} :
    equalsStr? v s = true ↔ v = s.elim .null .str := by
  cases v <;> cases s <;> simp [equalsStr?]

theorem isScalar_of_equalsInt {v : Json} {n : ℤ}
    (h : equalsInt v n = true) : v.isScalar = true := by
  cases v <;> simp_all [equalsInt, Json.isScalar]

/-- `data[key]` on a loaded document. -/
def getItem (data : Json) (key : String) : Except PyError Json :=
  match data with
  | .obj fields =>
      match Json.lookup key fields with
      | some v => .ok v
      | none => .error (.builtin .keyError key)
  | _ => .error (.builtin .typeError "cannot be read as a mapping")

theorem getItem_eq_ok_iff {data : Json} {key : String} {v : Json} :
    getItem data key = .ok v ↔ data.field? key = some v := by
  cases data with
  | obj fields =>
      simp only [getItem, Json.field?_obj]
      cases Json.lookup key fields <;> simp
  | _ => simp [getItem, Json.field?]

/-! ## Texts that may be absent -/

/-- A text or `None`. -/
def optionalText (value : Option String) : Json :=
  value.elim .null .str

theorem optionalText_inj {a b : Option String}
    (h : optionalText a = optionalText b) : a = b := by
  cases a <;> cases b <;> simp_all [optionalText]

theorem isScalar_optionalText (value : Option String) :
    (optionalText value).isScalar = true := by
  cases value <;> rfl

/-! ## Mappings -/

/-- `mapping.get(key)`. -/
def getKey (fields : List (String × Json)) (key : String) : Json :=
  (Json.lookup key fields).getD .null

/-- `mapping.get(key, default)`. -/
def getDefault (fields : List (String × Json)) (key : String)
    (fallback : Json) : Json :=
  (Json.lookup key fields).getD fallback

/-- `items[key] = value` on a mapping kept as a list. -/
def setItem {α : Type} (key : String) (value : α) :
    List (String × α) → List (String × α)
  | [] => [(key, value)]
  | (k, v) :: items =>
      if k = key then (k, value) :: items
      else (k, v) :: setItem key value items

theorem lookup_setItem {α : Type} (key key' : String) (value : α)
    (items : List (String × α)) :
    (setItem key value items).lookup key' =
      if key = key' then some value else items.lookup key' := by
  induction items with
  | nil =>
      by_cases h : key = key'
      · simp [setItem, h]
      · simp [setItem, h, List.lookup_cons, beq_eq_false_iff_ne.mpr (Ne.symm h)]
  | cons item items ih =>
      rcases item with ⟨k, v⟩
      rw [setItem]
      split
      · rename_i hk
        subst hk
        by_cases h : k = key'
        · simp [h]
        · simp [h, List.lookup_cons, beq_eq_false_iff_ne.mpr (Ne.symm h)]
      · rename_i hk
        rw [List.lookup_cons, List.lookup_cons, ih]
        by_cases h : key = key'
        · subst h
          simp [beq_eq_false_iff_ne.mpr (Ne.symm hk)]
        · simp [h]

/-- `bool(value)`. -/
def truthy : Json → Bool
  | .null => false
  | .bool b => b
  | .int n => n ≠ 0
  | .float text => floatValue text ≠ some 0
  | .str s => s ≠ ""
  | .arr items => !items.isEmpty
  | .obj fields => !fields.isEmpty

/-! ## Depth -/

mutual

/-- The nesting depth of a value below a level. -/
def depth (level : ℕ) : Json → ℕ
  | .obj fields => if fields.isEmpty then level + 1
      else depthFields (level + 1) fields
  | .arr items => if items.isEmpty then level + 1
      else depthItems (level + 1) items
  | _ => level + 1

def depthItems (level : ℕ) : List Json → ℕ
  | [] => 0
  | item :: items => max (depth level item) (depthItems level items)

def depthFields (level : ℕ) : List (String × Json) → ℕ
  | [] => 0
  | (_, item) :: fields => max (depth level item) (depthFields level fields)

end

end ApexForensic.Domain
