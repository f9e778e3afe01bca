import ApexForensic.Domain.Canonical
import ApexForensic.Domain.PyJson

/-!
# Dictionaries built from items

A later item with the same key takes the place of an earlier one, so that a
dictionary keeps the values of its items exactly when their keys are distinct.
-/

namespace ApexForensic.Domain

open ApexForensic.Support

variable {k : String} {v : Json}

abbrev Items := List (String × Json)

/-- `left | right`, and `left.update(right)`. -/
def updateDict (left right : Items) : Items :=
  right.foldl (fun items item => setItem item.1 item.2 items) left

/-- `{key: value for key, value in items}` -/
def dictOf (items : Items) : Items := updateDict [] items

/-- `v == w` on values of texts, `None`, lists and dictionaries. -/
def SameData (v w : Json) : Prop := canonicalForm v [] = canonicalForm w []

/-- The value that the last item of a key brings. -/
def lastValue (key : String) : Items → Option Json
  | [] => none
  | (k, v) :: items =>
      (lastValue key items).or (if k = key then some v else none)

theorem SameData.refl (v : Json) : SameData v v := rfl

theorem sameData_optionalText_iff {s t : Option String} :
    SameData (optionalText s) (optionalText t) ↔ s = t := by
  have hform : ∀ s, canonicalForm (optionalText s) [] = optionalText s := by
    intro s
    rw [canonicalForm, Json.withoutKeys_scalar (isScalar_optionalText s),
      Json.sortKeys_scalar (isScalar_optionalText s)]
  rw [SameData, hform, hform]
  exact ⟨optionalText_inj, congrArg optionalText⟩

/-! ## Reading a key -/

variable {items : Items}

theorem Items.lookup_setItem (key k : String) (v : Json) (items : Items) :
    Json.lookup key (setItem k v items) =
      if k = key then some v else Json.lookup key items := by
  induction items with
  | nil => rfl
  | cons item items ih =>
      obtain ⟨k', v'⟩ := item
      rw [setItem]
      by_cases hk : k' = k
      · subst hk
        rw [if_pos rfl, Json.lookup_cons, Json.lookup_cons]
        split <;> rfl
      · rw [if_neg hk, Json.lookup_cons, ih, Json.lookup_cons]
        by_cases h : k' = key
        · have hne : k ≠ key := fun heq => hk (h.trans heq.symm)
          rw [if_pos h, if_neg hne, if_pos h]
        · rw [if_neg h, if_neg h]

theorem lookup_updateDict (key : String) (left right : Items) :
    Json.lookup key (updateDict left right) =
      (lastValue key right).or (Json.lookup key left) := by
  induction right generalizing left with
  | nil => rfl
  | cons item items ih =>
      obtain ⟨k, v⟩ := item
      rw [updateDict, List.foldl_cons, ← updateDict, ih,
        Items.lookup_setItem, lastValue, Option.or_assoc]
      congr 1
      split <;> rfl

theorem lookup_dictOf (key : String) (items : Items) :
    Json.lookup key (dictOf items) = lastValue key items := by
  rw [dictOf, lookup_updateDict, Json.lookup_nil, Option.or_none]

theorem updateDict_dictOf (left right : Items) :
    updateDict (dictOf left) right = dictOf (left ++ right) := by
  rw [dictOf, dictOf, updateDict, updateDict, updateDict, List.foldl_append]

theorem mem_keys_setItem {key : String}
    (h : key ∈ (setItem k v items).map Prod.fst) :
    key = k ∨ key ∈ items.map Prod.fst := by
  induction items with
  | nil => exact Or.inl (List.mem_singleton.mp h)
  | cons item items ih =>
      obtain ⟨k', v'⟩ := item
      rw [setItem] at h
      rw [List.map_cons, List.mem_cons]
      split at h
      · exact Or.inr (List.mem_cons.mp h)
      · rcases List.mem_cons.mp h with h | h
        · exact Or.inr (Or.inl h)
        · exact (ih h).imp_right Or.inr

theorem nodup_keys_setItem (h : (items.map Prod.fst).Nodup) :
    ((setItem k v items).map Prod.fst).Nodup := by
  induction items with
  | nil => exact List.nodup_singleton k
  | cons item items ih =>
      obtain ⟨k', v'⟩ := item
      obtain ⟨hnew, hnodup⟩ := List.nodup_cons.mp h
      rw [setItem]
      split
      · exact h
      · rename_i hk
        refine List.nodup_cons.mpr ⟨fun hmem => ?_, ih hnodup⟩
        rcases mem_keys_setItem hmem with heq | hmem
        · exact hk heq
        · exact hnew hmem

theorem nodup_keys_dictOf (items : Items) :
    ((dictOf items).map Prod.fst).Nodup := by
  have hfold : ∀ left : Items, (left.map Prod.fst).Nodup →
      ((updateDict left items).map Prod.fst).Nodup := by
    induction items with
    | nil => intro left h; exact h
    | cons item items ih =>
        intro left h
        exact ih _ (nodup_keys_setItem h)
  exact hfold [] List.nodup_nil

theorem sameData_dictOf_iff (items items' : Items) :
    SameData (.obj (dictOf items)) (.obj (dictOf items')) ↔
      ∀ key, (lastValue key items).map (fun v => canonicalForm v []) =
        (lastValue key items').map fun v => canonicalForm v [] := by
  rw [SameData, canonicalForm_obj_eq_iff (nodup_keys_dictOf items)
    (nodup_keys_dictOf items')]
  simp only [lookup_dictOf]

/-! ## The value of an item in its dictionary -/

theorem lastValue_append (key : String) (items items' : Items) :
    lastValue key (items ++ items') =
      (lastValue key items').or (lastValue key items) := by
  induction items with
  | nil => rw [List.nil_append, lastValue, Option.or_none]
  | cons item items ih =>
      obtain ⟨k, v⟩ := item
      rw [List.cons_append, lastValue, ih, lastValue, Option.or_assoc]

theorem lastValue_eq_none_iff {key : String} :
    lastValue key items = none ↔ key ∉ items.map Prod.fst := by
  induction items with
  | nil => exact iff_of_true rfl List.not_mem_nil
  | cons item items ih =>
      obtain ⟨k, v⟩ := item
      rw [lastValue, List.map_cons, List.mem_cons, not_or, ← ih,
        Option.or_eq_none_iff, and_comm]
      by_cases hk : k = key
      · simp [hk]
      · simp [hk, Ne.symm hk]

theorem sameData_of_overwritten {before after : Items}
    (h : k ∈ after.map Prod.fst) (v v' : Json) :
    SameData (.obj (dictOf (before ++ (k, v) :: after)))
      (.obj (dictOf (before ++ (k, v') :: after))) := by
  rw [sameData_dictOf_iff]
  intro key
  rw [lastValue_append, lastValue_append, lastValue, lastValue]
  by_cases hk : k = key
  · subst hk
    obtain ⟨w, hw⟩ := Option.ne_none_iff_exists'.mp
      (mt lastValue_eq_none_iff.mp (not_not_intro h))
    rw [hw]
    rfl
  · rw [if_neg hk, if_neg hk]

theorem sameData_of_item {v' : Json} (h : SameData v v') (before after : Items)
    (k : String) :
    SameData (.obj (dictOf (before ++ (k, v) :: after)))
      (.obj (dictOf (before ++ (k, v') :: after))) := by
  rw [sameData_dictOf_iff]
  intro key
  rw [lastValue_append, lastValue_append, lastValue, lastValue]
  by_cases hk : k = key
  · rw [if_pos hk, if_pos hk, Option.or_assoc, Option.or_assoc]
    cases lastValue key after with
    | some w => rfl
    | none => exact congrArg some h
  · rw [if_neg hk, if_neg hk]

theorem lastValue_of_mem (hnodup : (items.map Prod.fst).Nodup)
    (hmem : (k, v) ∈ items) : lastValue k items = some v := by
  induction items with
  | nil => exact absurd hmem List.not_mem_nil
  | cons item items ih =>
      obtain ⟨k', v'⟩ := item
      obtain ⟨hnew, hnodup⟩ := List.nodup_cons.mp hnodup
      rw [lastValue]
      rcases List.mem_cons.mp hmem with heq | hmem
      · obtain ⟨rfl, rfl⟩ := Prod.mk.inj heq
        rw [lastValue_eq_none_iff.mpr hnew, if_pos rfl]
        rfl
      · rw [ih hnodup hmem]
        rfl

theorem forall₂_sameData_of_nodup {items' : Items}
    (hnodup : (items.map Prod.fst).Nodup)
    (hkeys : items'.map Prod.fst = items.map Prod.fst)
    (h : SameData (.obj (dictOf items)) (.obj (dictOf items'))) :
    List.Forall₂ SameData (items.map Prod.snd) (items'.map Prod.snd) := by
  have hlength : items.length = items'.length := by
    have := congrArg List.length hkeys
    rwa [List.length_map, List.length_map, eq_comm] at this
  rw [List.forall₂_iff_get]
  refine ⟨by rw [List.length_map, List.length_map, hlength], ?_⟩
  intro i hi hi'
  rw [List.length_map] at hi hi'
  have hkey := congrArg (fun keys : List String => keys[i]?) hkeys
  simp only [List.getElem?_map, List.getElem?_eq_getElem hi,
    List.getElem?_eq_getElem hi', Option.map_some, Option.some.injEq] at hkey
  have hmem : (items[i].1, items[i].2) ∈ items := List.getElem_mem hi
  have hmem' : (items[i].1, items'[i].2) ∈ items' := by
    rw [← hkey]
    exact List.getElem_mem hi'
  have hlast := (sameData_dictOf_iff items items').mp h items[i].1
  rw [lastValue_of_mem hnodup hmem,
    lastValue_of_mem (by rwa [hkeys]) hmem'] at hlast
  rw [List.get_eq_getElem, List.get_eq_getElem, List.getElem_map,
    List.getElem_map]
  exact Option.some.inj hlast

end ApexForensic.Domain
