import Mathlib.Order.Fin.Basic
import Mathlib.Data.List.Nodup

/-!
# JSON values with the texts of Python

A text of Python is a sequence of code points and may hold lone surrogates,
which a JSON reader takes from escapes and which have no UTF-8 form.  A
mapping is a list of fields in the order of their insertion.
-/

namespace ApexForensic.Support

abbrev CodePoint := Fin 0x110000

abbrev PyStr := List CodePoint

/-- The text of a literal. -/
def py (s : String) : PyStr := s.toList.map fun c => Fin.ofNat _ c.toNat

def isSurrogate (c : CodePoint) : Bool :=
  decide (0xD800 ≤ c.val ∧ c.val ≤ 0xDFFF)

/-- The text has a UTF-8 form. -/
def PyStr.encodable (s : PyStr) : Bool := s.all fun c => !isSurrogate c

inductive PyValue where
  | null
  | bool (b : Bool)
  | int (n : Int)
  | float (bits : UInt64)
  | str (s : PyStr)
  | list (items : List PyValue)
  | dict (fields : List (PyStr × PyValue))

abbrev PyFields := List (PyStr × PyValue)

namespace PyValue

/-- Whether the value can be looked up in a set. -/
def hashable : PyValue → Bool
  | list _ => false
  | dict _ => false
  | _ => true

mutual

/-- Every text in the value has a UTF-8 form. -/
def encodable : PyValue → Bool
  | str s => s.encodable
  | list items => itemsEncodable items
  | dict fields => fieldsEncodable fields
  | _ => true

def itemsEncodable : List PyValue → Bool
  | [] => true
  | v :: items => v.encodable && itemsEncodable items

def fieldsEncodable : List (PyStr × PyValue) → Bool
  | [] => true
  | (k, v) :: fields =>
      k.encodable && v.encodable && fieldsEncodable fields

end

mutual

/-- The number of lists and mappings that are nested in one another. -/
def depth : PyValue → ℕ
  | list items => itemsDepth items + 1
  | dict fields => fieldsDepth fields + 1
  | _ => 0

def itemsDepth : List PyValue → ℕ
  | [] => 0
  | v :: items => max v.depth (itemsDepth items)

def fieldsDepth : List (PyStr × PyValue) → ℕ
  | [] => 0
  | (_, v) :: fields => max v.depth (fieldsDepth fields)

end

mutual

/-- No mapping in the value has two fields of one key. -/
def DistinctKeys : PyValue → Prop
  | list items => ItemsDistinct items
  | dict fields => (fields.map Prod.fst).Nodup ∧ FieldsDistinct fields
  | _ => True

def ItemsDistinct : List PyValue → Prop
  | [] => True
  | v :: items => v.DistinctKeys ∧ ItemsDistinct items

def FieldsDistinct : List (PyStr × PyValue) → Prop
  | [] => True
  | (_, v) :: fields => v.DistinctKeys ∧ FieldsDistinct fields

end

/-! ## Lists and mappings by their members -/

theorem encodable_list_iff {items : List PyValue} :
    (list items).encodable = true ↔ ∀ v ∈ items, v.encodable = true := by
  rw [encodable]
  induction items with
  | nil => simp [itemsEncodable]
  | cons v items ih =>
      rw [itemsEncodable, Bool.and_eq_true, ih, List.forall_mem_cons]

theorem depth_list_le_iff {items : List PyValue} {n : ℕ} :
    (list items).depth ≤ n + 1 ↔ ∀ v ∈ items, v.depth ≤ n := by
  rw [depth, Nat.add_le_add_iff_right]
  induction items with
  | nil => simp [itemsDepth]
  | cons v items ih => rw [itemsDepth, Nat.max_le, ih, List.forall_mem_cons]

theorem depth_dict_le_iff {fields : PyFields} {n : ℕ} :
    (dict fields).depth ≤ n + 1 ↔ ∀ f ∈ fields, f.2.depth ≤ n := by
  rw [depth, Nat.add_le_add_iff_right]
  induction fields with
  | nil => simp [fieldsDepth]
  | cons f fields ih =>
      obtain ⟨k, v⟩ := f
      rw [fieldsDepth, Nat.max_le, ih, List.forall_mem_cons]

theorem distinctKeys_list_iff {items : List PyValue} :
    (list items).DistinctKeys ↔ ∀ v ∈ items, v.DistinctKeys := by
  rw [DistinctKeys]
  induction items with
  | nil => simp [ItemsDistinct]
  | cons v items ih => rw [ItemsDistinct, ih, List.forall_mem_cons]

theorem distinctKeys_dict_iff {fields : PyFields} :
    (dict fields).DistinctKeys ↔ (fields.map Prod.fst).Nodup ∧
      ∀ f ∈ fields, f.2.DistinctKeys := by
  have hfields : FieldsDistinct fields ↔ ∀ f ∈ fields, f.2.DistinctKeys := by
    induction fields with
    | nil => simp [FieldsDistinct]
    | cons f fields ih =>
        obtain ⟨k, v⟩ := f
        rw [FieldsDistinct, ih, List.forall_mem_cons]
  rw [DistinctKeys, hfields]

end PyValue

/-! ## Fields -/

section Fields

variable {α : Type}

/-- `fields[key] = value` -/
def setField (key : PyStr) (value : α) : List (PyStr × α) → List (PyStr × α)
  | [] => [(key, value)]
  | (k, v) :: fields =>
      if k = key then (k, value) :: fields
      else (k, v) :: setField key value fields

/-- `fields.setdefault(key, value)` -/
def setDefaultField (key : PyStr) (value : α) (fields : List (PyStr × α)) :
    List (PyStr × α) :=
  if (fields.lookup key).isSome then fields else fields ++ [(key, value)]

/-- `{key: fields[key] for key in keys if key in fields}` -/
def pickFields (keys : List PyStr) (fields : List (PyStr × α)) :
    List (PyStr × α) :=
  keys.filterMap fun key => (fields.lookup key).map fun value => (key, value)

variable {key k : PyStr} {value v : α} {fields : List (PyStr × α)}

theorem lookup_field (k key : PyStr) (value : α) (fields : List (PyStr × α)) :
    List.lookup k ((key, value) :: fields) =
      if k = key then some value else fields.lookup k := by
  rw [List.lookup_cons]
  by_cases h : k = key
  · simp [h]
  · rw [if_neg h, beq_eq_false_iff_ne.mpr h]

theorem lookup_setField (key k : PyStr) (value : α)
    (fields : List (PyStr × α)) :
    (setField key value fields).lookup k =
      if k = key then some value else fields.lookup k := by
  induction fields with
  | nil => rw [setField, lookup_field]
  | cons f fields ih =>
      obtain ⟨k', v'⟩ := f
      rw [setField]
      by_cases hkey : k' = key
      · subst hkey
        rw [if_pos rfl, lookup_field, lookup_field]
        by_cases h : k = k'
        · rw [if_pos h, if_pos h]
        · rw [if_neg h, if_neg h, if_neg h]
      · rw [if_neg hkey, lookup_field, lookup_field, ih]
        by_cases h : k = k'
        · rw [if_pos h, if_pos h, if_neg (h ▸ hkey)]
        · rw [if_neg h, if_neg h]

theorem mem_setField {f : PyStr × α} (h : f ∈ setField key value fields) :
    f = (key, value) ∨ f ∈ fields := by
  induction fields with
  | nil => exact Or.inl (List.mem_singleton.mp h)
  | cons f' fields ih =>
      obtain ⟨k', v'⟩ := f'
      rw [setField] at h
      split_ifs at h with hkey
      · rcases List.mem_cons.mp h with rfl | h
        · exact Or.inl (Prod.ext hkey rfl)
        · exact Or.inr (List.mem_cons_of_mem _ h)
      · rcases List.mem_cons.mp h with rfl | h
        · exact Or.inr List.mem_cons_self
        · exact (ih h).imp_right (List.mem_cons_of_mem _)

theorem lookup_eq_none_iff_notMem :
    fields.lookup key = none ↔ key ∉ fields.map Prod.fst := by
  induction fields with
  | nil => simp
  | cons f fields ih =>
      obtain ⟨k', v'⟩ := f
      rw [lookup_field, List.map_cons, List.mem_cons, not_or, ← ih]
      by_cases h : key = k' <;> simp [h]

theorem map_fst_setField (key : PyStr) (value : α) (fields : List (PyStr × α)) :
    (setField key value fields).map Prod.fst =
      if key ∈ fields.map Prod.fst then fields.map Prod.fst
      else fields.map Prod.fst ++ [key] := by
  induction fields with
  | nil => simp [setField]
  | cons f fields ih =>
      obtain ⟨k', v'⟩ := f
      rw [setField]
      by_cases hkey : k' = key
      · subst hkey
        simp
      · have hmem : key ∈ k' :: fields.map Prod.fst ↔
            key ∈ fields.map Prod.fst := by
          rw [List.mem_cons, or_iff_right (Ne.symm hkey)]
        rw [if_neg hkey, List.map_cons, ih, List.map_cons]
        simp only [hmem]
        split_ifs <;> rfl

theorem nodup_setField (h : (fields.map Prod.fst).Nodup) :
    ((setField key value fields).map Prod.fst).Nodup := by
  rw [map_fst_setField]
  split_ifs with hmem
  · exact h
  · exact h.append (List.nodup_singleton key)
      (List.disjoint_singleton.mpr hmem)

theorem setField_of_notMem (h : key ∉ fields.map Prod.fst) :
    setField key value fields = fields ++ [(key, value)] := by
  induction fields with
  | nil => rfl
  | cons f fields ih =>
      obtain ⟨k', v'⟩ := f
      rw [List.map_cons, List.mem_cons, not_or] at h
      rw [setField, if_neg (Ne.symm h.1), ih h.2, List.cons_append]

theorem setField_of_lookup (h : fields.lookup key = some value) :
    setField key value fields = fields := by
  induction fields with
  | nil => cases h
  | cons f fields ih =>
      obtain ⟨k', v'⟩ := f
      rw [lookup_field] at h
      rw [setField]
      by_cases hkey : k' = key
      · rw [if_pos hkey.symm] at h
        rw [if_pos hkey, Option.some.inj h]
      · rw [if_neg (Ne.symm hkey)] at h
        rw [if_neg hkey, ih h]

theorem lookup_setDefaultField (key k : PyStr) (value : α)
    (fields : List (PyStr × α)) :
    (setDefaultField key value fields).lookup k =
      if k = key then some ((fields.lookup key).getD value)
      else fields.lookup k := by
  rw [setDefaultField]
  cases hkey : fields.lookup key with
  | some found =>
      rw [Option.isSome_some, if_pos rfl]
      split_ifs with h
      · rw [h, hkey, Option.getD_some]
      · rfl
  | none =>
      rw [Option.isSome_none, if_neg Bool.false_ne_true, List.lookup_append]
      split_ifs with h
      · rw [h, hkey, Option.none_or, lookup_field, if_pos rfl, Option.getD_none]
      · rw [lookup_field, if_neg h, List.lookup_nil, Option.or_none]

theorem mem_setDefaultField {f : PyStr × α}
    (h : f ∈ setDefaultField key value fields) :
    f = (key, value) ∨ f ∈ fields := by
  rw [setDefaultField] at h
  split_ifs at h
  · exact Or.inr h
  · exact (List.mem_append.mp h).symm.imp_left List.mem_singleton.mp

theorem nodup_setDefaultField (h : (fields.map Prod.fst).Nodup) :
    ((setDefaultField key value fields).map Prod.fst).Nodup := by
  rw [setDefaultField]
  split_ifs with hsome
  · exact h
  · rw [Bool.not_eq_true, Option.isSome_eq_false_iff,
      Option.isNone_iff_eq_none, lookup_eq_none_iff_notMem] at hsome
    rw [List.map_append]
    exact h.append (List.nodup_singleton key)
      (List.disjoint_singleton.mpr hsome)

theorem mem_of_lookup (h : fields.lookup key = some value) :
    (key, value) ∈ fields := by
  induction fields with
  | nil => cases h
  | cons f fields ih =>
      obtain ⟨k', v'⟩ := f
      rw [lookup_field] at h
      by_cases hkey : key = k'
      · rw [if_pos hkey] at h
        rw [← Option.some.inj h, hkey]
        exact List.mem_cons_self
      · rw [if_neg hkey] at h
        exact List.mem_cons_of_mem _ (ih h)

theorem lookup_filter_key (keep : PyStr → Bool) (key : PyStr)
    (fields : List (PyStr × α)) :
    (fields.filter fun f => keep f.1).lookup key =
      if keep key then fields.lookup key else none := by
  induction fields with
  | nil => simp
  | cons f fields ih =>
      obtain ⟨k, v⟩ := f
      rw [List.filter_cons]
      by_cases hkey : key = k
      · subst hkey
        by_cases hkeep : keep key = true
        · rw [if_pos hkeep, lookup_field, if_pos rfl, if_pos hkeep,
            lookup_field, if_pos rfl]
        · rw [if_neg hkeep, ih, if_neg hkeep, if_neg hkeep]
      · have hrest : (if keep k = true then
            (k, v) :: fields.filter fun f => keep f.1
            else fields.filter fun f => keep f.1).lookup key =
              (fields.filter fun f => keep f.1).lookup key := by
          split_ifs
          · rw [lookup_field, if_neg hkey]
          · rfl
        rw [hrest, ih, lookup_field, if_neg hkey]

theorem lookup_pickFields (keys : List PyStr) (fields : List (PyStr × α))
    (k : PyStr) :
    (pickFields keys fields).lookup k =
      if k ∈ keys then fields.lookup k else none := by
  induction keys with
  | nil => simp [pickFields]
  | cons key keys ih =>
      rw [pickFields] at ih ⊢
      rw [List.filterMap_cons]
      cases hkey : fields.lookup key with
      | none =>
          rw [Option.map_none]
          dsimp only
          rw [ih]
          by_cases h : k = key
          · subst h
            simp [hkey]
          · simp [h]
      | some value =>
          rw [Option.map_some]
          dsimp only
          rw [lookup_field, ih]
          by_cases h : k = key
          · subst h
            simp [hkey]
          · simp [h]

theorem mem_pickFields {keys : List PyStr} {f : PyStr × α}
    (h : f ∈ pickFields keys fields) : f.1 ∈ keys ∧ f ∈ fields := by
  obtain ⟨key, hkey, hf⟩ := List.mem_filterMap.mp h
  obtain ⟨value, hvalue, rfl⟩ := Option.map_eq_some_iff.mp hf
  exact ⟨hkey, mem_of_lookup hvalue⟩

theorem nodup_pickFields {keys : List PyStr} (h : keys.Nodup) :
    ((pickFields keys fields).map Prod.fst).Nodup := by
  have hsublist :
      List.Sublist ((pickFields keys fields).map Prod.fst) keys := by
    induction keys with
    | nil => exact List.Sublist.slnil
    | cons key keys ih =>
        rw [pickFields, List.filterMap_cons]
        cases fields.lookup key with
        | none => exact (ih h.of_cons).cons key
        | some value => exact (ih h.of_cons).cons_cons key
  exact hsublist.nodup h

end Fields

end ApexForensic.Support
