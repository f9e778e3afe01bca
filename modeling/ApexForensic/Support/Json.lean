import Mathlib.Algebra.GroupWithZero.Nat
import Mathlib.Data.List.Sort
import Mathlib.Data.String.Basic

/-!
# JSON values

The value type mirrors what a JSON reader returns: objects are lists of
fields in reading order, numbers are integers or the text of a non-integer
literal.  `withoutKeys` removes object keys at every depth and `sortKeys`
puts every object into key order, so that rendering a sorted value gives a
canonical form up to the order of object keys.
-/

namespace ApexForensic.Support

variable {keys : List String} {key : String}

/-- Characters that end a JSON word such as `null`, `true` or a number. -/
def isDelimiter (c : Char) : Bool :=
  c ∈ [',', ']', '}', ':', '"', '[', '{']

/-- The text of a non-integer number literal: it starts like a number and
contains a mark that no integer literal contains. -/
def isFloatText (s : List Char) : Bool :=
  (s.head?.any fun c => c.isDigit || c == '-' || c == 'N' || c == 'I') &&
    s.all (fun c => !isDelimiter c) &&
    s.any (fun c => c ∈ ['.', 'e', 'N', 'I'])

/-- A non-integer number literal, kept as the text a writer prints for it. -/
abbrev FloatText :=
  {s : List Char // isFloatText s = true}

inductive Json where
  | null
  | bool (b : Bool)
  | int (n : Int)
  | float (text : FloatText)
  | str (s : String)
  | arr (items : List Json)
  | obj (fields : List (String × Json))

namespace Json

/-! ## Reading object fields -/

def lookup (key : String) : List (String × Json) → Option Json
  | [] => none
  | (k, v) :: fields => if k = key then some v else lookup key fields

/-- The value stored under `key`, when the value is an object that has it. -/
def field? (key : String) : Json → Option Json
  | obj fields => lookup key fields
  | _ => none

@[simp] theorem lookup_nil (key : String) : lookup key [] = none := rfl

variable {v : Json}

@[simp] theorem lookup_cons (key k : String) (v : Json)
    (fields : List (String × Json)) :
    lookup key ((k, v) :: fields) =
      if k = key then some v else lookup key fields := rfl

@[simp] theorem field?_obj (key : String) (fields : List (String × Json)) :
    field? key (obj fields) = lookup key fields := rfl

/-! ## Removing keys at every depth -/

mutual

/-- A copy of the value with the given object keys removed at every depth. -/
def withoutKeys (keys : List String) : Json → Json
  | arr items => arr (itemsWithoutKeys keys items)
  | obj fields => obj (fieldsWithoutKeys keys fields)
  | v => v

def itemsWithoutKeys (keys : List String) : List Json → List Json
  | [] => []
  | v :: items => withoutKeys keys v :: itemsWithoutKeys keys items

def fieldsWithoutKeys (keys : List String) :
    List (String × Json) → List (String × Json)
  | [] => []
  | (k, v) :: fields =>
      if k ∈ keys then fieldsWithoutKeys keys fields
      else (k, withoutKeys keys v) :: fieldsWithoutKeys keys fields

end

theorem lookup_fieldsWithoutKeys (hkey : key ∉ keys)
    (fields : List (String × Json)) :
    lookup key (fieldsWithoutKeys keys fields) =
      (lookup key fields).map (withoutKeys keys) := by
  induction fields with
  | nil => rfl
  | cons f fields ih =>
      obtain ⟨k, v⟩ := f
      by_cases hk : k ∈ keys
      · have hne : k ≠ key := fun h => hkey (h ▸ hk)
        simp [fieldsWithoutKeys, hk, hne, ih]
      · by_cases h : k = key
        · simp [fieldsWithoutKeys, h, hkey]
        · simp [fieldsWithoutKeys, hk, h, ih]

theorem field?_withoutKeys (hkey : key ∉ keys) (v : Json) :
    (withoutKeys keys v).field? key =
      (v.field? key).map (withoutKeys keys) := by
  cases v with
  | obj fields => exact lookup_fieldsWithoutKeys hkey fields
  | _ => rfl

/-! ## Sorting object keys -/

/-- Fields in the order a writer with sorted keys visits them. -/
def keyLE (a b : String × Json) : Prop :=
  a.1 ≤ b.1

instance : DecidableRel keyLE := fun a b =>
  inferInstanceAs (Decidable (a.1 ≤ b.1))

mutual

/-- Every object of the value, at every depth, put into key order. -/
def sortKeys : Json → Json
  | arr items => arr (sortItems items)
  | obj fields => obj ((sortFields fields).insertionSort keyLE)
  | v => v

def sortItems : List Json → List Json
  | [] => []
  | v :: items => sortKeys v :: sortItems items

def sortFields : List (String × Json) → List (String × Json)
  | [] => []
  | (k, v) :: fields => (k, sortKeys v) :: sortFields fields

end

theorem lookup_orderedInsert (key : String) (f : String × Json)
    (fields : List (String × Json)) :
    lookup key (fields.orderedInsert keyLE f) = lookup key (f :: fields) := by
  induction fields with
  | nil => rfl
  | cons g fields ih =>
      obtain ⟨k, v⟩ := f
      obtain ⟨k', v'⟩ := g
      by_cases hle : keyLE (k, v) (k', v')
      · simp [List.orderedInsert, hle]
      · have hne : k ≠ k' := by
          rintro rfl
          exact hle (le_refl k)
        simp only [List.orderedInsert, if_neg hle, lookup_cons, ih]
        by_cases hk : k = key
        · have hk' : k' ≠ key := fun h => hne (hk.trans h.symm)
          simp [hk, hk']
        · simp [hk]

theorem lookup_insertionSort (key : String) (fields : List (String × Json)) :
    lookup key (fields.insertionSort keyLE) = lookup key fields := by
  induction fields with
  | nil => rfl
  | cons f fields ih =>
      rw [List.insertionSort_cons, lookup_orderedInsert]
      obtain ⟨k, v⟩ := f
      simp only [lookup_cons, ih]

theorem lookup_sortFields (key : String) (fields : List (String × Json)) :
    lookup key (sortFields fields) = (lookup key fields).map sortKeys := by
  induction fields with
  | nil => rfl
  | cons f fields ih =>
      obtain ⟨k, v⟩ := f
      by_cases hk : k = key
      · simp [sortFields, hk]
      · simp [sortFields, hk, ih]

theorem field?_sortKeys (key : String) (v : Json) :
    (sortKeys v).field? key = (v.field? key).map sortKeys := by
  cases v with
  | obj fields =>
      simp only [sortKeys, field?_obj]
      rw [lookup_insertionSort, lookup_sortFields]
  | _ => rfl

theorem itemsWithoutKeys_eq_map (keys : List String) (items : List Json) :
    itemsWithoutKeys keys items = items.map (withoutKeys keys) := by
  induction items with
  | nil => rfl
  | cons v items ih => rw [itemsWithoutKeys, ih, List.map_cons]

theorem sortItems_eq_map (items : List Json) :
    sortItems items = items.map sortKeys := by
  induction items with
  | nil => rfl
  | cons v items ih => rw [sortItems, ih, List.map_cons]

theorem lookup_eq_some_iff {fields : List (String × Json)}
    (hnodup : (fields.map Prod.fst).Nodup) :
    lookup key fields = some v ↔ (key, v) ∈ fields := by
  induction fields with
  | nil => simp
  | cons f fields ih =>
      obtain ⟨k, w⟩ := f
      obtain ⟨hnew, hnodup⟩ := List.nodup_cons.mp hnodup
      rw [lookup_cons, List.mem_cons, Prod.ext_iff]
      by_cases hk : k = key
      · rw [if_pos hk]
        constructor
        · intro h
          exact Or.inl ⟨hk.symm, (Option.some.inj h).symm⟩
        · rintro (⟨-, rfl⟩ | hmem)
          · rfl
          · exact absurd (List.mem_map_of_mem hmem) (hk ▸ hnew)
      · rw [if_neg hk, ih hnodup]
        exact ⟨Or.inr, Or.rec (fun h => absurd h.1.symm hk) id⟩

/-! ## Scalars pass through both transformations -/

/-- A value with neither items nor fields. -/
def isScalar : Json → Bool
  | arr _ => false
  | obj _ => false
  | _ => true

theorem withoutKeys_scalar (h : v.isScalar = true) (keys : List String) :
    withoutKeys keys v = v := by
  cases v <;> simp_all [isScalar, withoutKeys]

theorem sortKeys_scalar (h : v.isScalar = true) : sortKeys v = v := by
  cases v <;> simp_all [isScalar, sortKeys]

theorem isScalar_sortKeys_withoutKeys (keys : List String) (v : Json) :
    (sortKeys (withoutKeys keys v)).isScalar = v.isScalar := by
  cases v <;> simp [withoutKeys, sortKeys, isScalar]

theorem eq_of_sortKeys_withoutKeys_eq_scalar {w : Json} (hw : w.isScalar = true)
    (h : sortKeys (withoutKeys keys v) = w) : v = w := by
  have hv : v.isScalar = true := by
    rw [← isScalar_sortKeys_withoutKeys keys v, h, hw]
  rw [withoutKeys_scalar hv, sortKeys_scalar hv] at h
  exact h

end Json

end ApexForensic.Support
