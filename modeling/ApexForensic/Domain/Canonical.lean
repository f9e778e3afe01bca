import Mathlib.Algebra.Order.BigOperators.Group.List
import ApexForensic.Domain.Errors
import ApexForensic.Support.JsonText

/-!
# Canonical JSON helpers for hashes and custody ledger events

The digest is a parameter: nothing here depends on which function it is.
Removing keys happens at every depth of a value, so two values have the same
canonical bytes exactly when they agree up to the removed keys and the order
of object keys.
-/

namespace ApexForensic.Domain

open ApexForensic.Support

variable {v w : Json} {keys : List String} {key : String}

/-- The part of a value that its canonical bytes depend on. -/
def canonicalForm (value : Json) (excludeKeys : List String) : Json :=
  (value.withoutKeys excludeKeys).sortKeys

def canonicalJsonBytes
    (value : Json) (excludeKeys : List String) : ByteArray :=
  (String.ofList (canonicalForm value excludeKeys).render).toUTF8

def canonicalSha256 (sha256 : ByteArray → String)
    (value : Json) (excludeKeys : List String) : String :=
  sha256 (canonicalJsonBytes value excludeKeys)

theorem canonicalForm_eq_of_bytes_eq {keys' : List String}
    (h : canonicalJsonBytes v keys = canonicalJsonBytes w keys') :
    canonicalForm v keys = canonicalForm w keys' := by
  have htext := String.toByteArray_inj.mp h
  exact Json.render_injective (String.ofList_injective htext)

theorem field?_canonicalForm (hkey : key ∉ keys) (v : Json) :
    (canonicalForm v keys).field? key =
      (v.field? key).map fun w => canonicalForm w keys := by
  rw [canonicalForm, Json.field?_sortKeys, Json.field?_withoutKeys hkey,
    Option.map_map]
  rfl

theorem field?_canonicalForm_scalar (hkey : key ∉ keys) (hw : w.isScalar = true)
    : (canonicalForm v keys).field? key = some w ↔ v.field? key = some w := by
  rw [field?_canonicalForm hkey, Option.map_eq_some_iff]
  constructor
  · rintro ⟨u, hu, hform⟩
    rw [hu, Json.eq_of_sortKeys_withoutKeys_eq_scalar hw hform]
  · intro h
    exact ⟨w, h, by
      rw [canonicalForm, Json.withoutKeys_scalar hw, Json.sortKeys_scalar hw]⟩

/-! ## Arrays and objects -/

theorem canonicalForm_arr (items : List Json) (keys : List String) :
    canonicalForm (.arr items) keys =
      .arr (items.map fun v => canonicalForm v keys) := by
  rw [canonicalForm, Json.withoutKeys, Json.sortKeys,
    Json.itemsWithoutKeys_eq_map, Json.sortItems_eq_map, List.map_map]
  rfl

theorem canonicalForm_obj (fields : List (String × Json)) :
    canonicalForm (.obj fields) [] =
      .obj ((fields.map fun f => (f.1, canonicalForm f.2 [])).insertionSort
        Json.keyLE) := by
  rw [canonicalForm, Json.withoutKeys, Json.sortKeys]
  congr 2
  induction fields with
  | nil => rfl
  | cons f fields ih =>
      obtain ⟨k, v⟩ := f
      rw [Json.fieldsWithoutKeys, if_neg List.not_mem_nil, Json.sortFields, ih]
      rfl

theorem lookup_map_canonicalForm (fields : List (String × Json))
    (key : String) :
    Json.lookup key (fields.map fun f => (f.1, canonicalForm f.2 [])) =
      (Json.lookup key fields).map fun v => canonicalForm v [] := by
  induction fields with
  | nil => rfl
  | cons f fields ih =>
      rw [List.map_cons, Json.lookup_cons, ih, ← Prod.mk.eta (p := f),
        Json.lookup_cons]
      split <;> rfl

/-- Fields that are looked up alike are sorted alike. -/
theorem insertionSort_keyLE_eq {f g : List (String × Json)}
    (hf : (f.map Prod.fst).Nodup) (hg : (g.map Prod.fst).Nodup)
    (h : ∀ key, Json.lookup key f = Json.lookup key g) :
    f.insertionSort Json.keyLE = g.insertionSort Json.keyLE := by
  have hperm : f.Perm g := by
    refine (List.perm_ext_iff_of_nodup hf.of_map hg.of_map).mpr fun p => ?_
    rw [← Json.lookup_eq_some_iff hf, ← Json.lookup_eq_some_iff hg, h]
  have htotal : Std.Total Json.keyLE := ⟨fun a b => le_total a.1 b.1⟩
  have htrans : IsTrans (String × Json) Json.keyLE := ⟨fun _ _ _ => le_trans⟩
  refine List.Perm.eq_of_pairwise (fun a b ha hb hab hba => ?_)
    (List.pairwise_insertionSort _ _) (List.pairwise_insertionSort _ _)
    (((List.perm_insertionSort _ _).trans hperm).trans
      (List.perm_insertionSort _ _).symm)
  have hb' := hperm.mem_iff.mpr (List.mem_insertionSort _ |>.mp hb)
  exact List.inj_on_of_nodup_map hf (List.mem_insertionSort _ |>.mp ha) hb'
    (le_antisymm hab hba)

/-- Two objects have the same canonical form when every key has values of the
same canonical form in both. -/
theorem canonicalForm_obj_eq_iff {f g : List (String × Json)}
    (hf : (f.map Prod.fst).Nodup) (hg : (g.map Prod.fst).Nodup) :
    canonicalForm (.obj f) [] = canonicalForm (.obj g) [] ↔
      ∀ key, (Json.lookup key f).map (fun v => canonicalForm v []) =
        (Json.lookup key g).map fun v => canonicalForm v [] := by
  constructor
  · intro h key
    have hkey : key ∉ ([] : List String) := List.not_mem_nil
    have hlookup := congrArg (Json.field? key) h
    rwa [field?_canonicalForm hkey, field?_canonicalForm hkey] at hlookup
  · intro h
    have hkeys : ∀ {l : List (String × Json)}, (l.map Prod.fst).Nodup →
        ((l.map fun f => (f.1, canonicalForm f.2 [])).map Prod.fst).Nodup := by
      intro l hl
      rwa [List.map_map]
    rw [canonicalForm_obj, canonicalForm_obj]
    refine congrArg Json.obj (insertionSort_keyLE_eq (hkeys hf) (hkeys hg)
      fun key => ?_)
    rw [lookup_map_canonicalForm, lookup_map_canonicalForm, h]

theorem lookup_eq_none {fields : List (String × Json)}
    (h : key ∉ fields.map Prod.fst) : Json.lookup key fields = none := by
  induction fields with
  | nil => rfl
  | cons f fields ih =>
      rw [List.map_cons, List.mem_cons, not_or] at h
      rw [← Prod.mk.eta (p := f), Json.lookup_cons, if_neg (Ne.symm h.1),
        ih h.2]

/-- Objects with the same keys, in the same order, whose values are canonical
already have one canonical form only when they are the same. -/
theorem eq_of_canonicalForm_obj_eq {f g : List (String × Json)}
    (hkeys : f.map Prod.fst = g.map Prod.fst) (hf : (f.map Prod.fst).Nodup)
    (hfixed : ∀ p ∈ f, canonicalForm p.2 [] = p.2)
    (hfixed' : ∀ p ∈ g, canonicalForm p.2 [] = p.2)
    (h : canonicalForm (.obj f) [] = canonicalForm (.obj g) []) : f = g := by
  rw [canonicalForm_obj_eq_iff hf (hkeys ▸ hf)] at h
  induction f generalizing g with
  | nil => exact (List.map_eq_nil_iff.mp hkeys.symm).symm
  | cons p f ih =>
      obtain ⟨k, v⟩ := p
      cases g with
      | nil => cases hkeys
      | cons q g =>
          obtain ⟨k', w⟩ := q
          obtain ⟨hk, htails⟩ := List.cons.inj hkeys
          obtain rfl : k = k' := hk
          rw [List.map_cons, List.nodup_cons] at hf
          rw [List.forall_mem_cons] at hfixed hfixed'
          have hhead := h k
          rw [Json.lookup_cons, Json.lookup_cons, if_pos rfl, if_pos rfl,
            Option.map_some, Option.map_some, Option.some_inj, hfixed.1,
            hfixed'.1] at hhead
          subst hhead
          rw [ih htails hf.2 hfixed.2 hfixed'.2 fun key => ?_]
          by_cases hkey : k = key
          · subst hkey
            rw [lookup_eq_none hf.1, lookup_eq_none (htails ▸ hf.1)]
          · have htail := h key
            rwa [Json.lookup_cons, Json.lookup_cons, if_neg hkey,
              if_neg hkey] at htail

theorem lookup_split {before after : List (String × Json)} {k : String}
    (hnodup : ((before ++ (k, v) :: after).map Prod.fst).Nodup) (key : String) :
    Json.lookup key (before ++ (k, v) :: after) =
      if k = key then some v else Json.lookup key (before ++ after) := by
  induction before with
  | nil => rfl
  | cons f before ih =>
      obtain ⟨k', w⟩ := f
      rw [List.cons_append, List.map_cons, List.nodup_cons] at hnodup
      rw [List.cons_append, Json.lookup_cons, ih hnodup.2, List.cons_append,
        Json.lookup_cons]
      split
      · rename_i hkey
        have hne : k ≠ key := by
          rintro rfl
          exact hnodup.1 (List.mem_map.mpr ⟨(k, v),
            List.mem_append_right before List.mem_cons_self, hkey.symm⟩)
        rw [if_neg hne]
      · rfl

/-- Two objects have the same canonical form when they do without one of
their keys, and the values of that key do. -/
theorem canonicalForm_split_iff
    {before after before' after' :
    List (String × Json)} {k : String} {v' : Json}
    (h : ((before ++ (k, v) :: after).map Prod.fst).Nodup)
    (h' : ((before' ++ (k, v') :: after').map Prod.fst).Nodup) :
    canonicalForm (.obj (before ++ (k, v) :: after)) [] =
        canonicalForm (.obj (before' ++ (k, v') :: after')) [] ↔
      canonicalForm (.obj (before ++ after)) [] =
          canonicalForm (.obj (before' ++ after')) [] ∧
        canonicalForm v [] = canonicalForm v' [] := by
  have hrest : ∀ {b a : List (String × Json)} {w : Json},
      ((b ++ (k, w) :: a).map Prod.fst).Nodup →
        ((b ++ a).map Prod.fst).Nodup ∧ Json.lookup k (b ++ a) = none := by
    intro b a w hnodup
    rw [List.map_append, List.map_cons, List.nodup_middle] at hnodup
    rw [List.map_append]
    refine ⟨(List.nodup_cons.mp hnodup).2, ?_⟩
    refine Option.eq_none_iff_forall_ne_some.mpr fun u hu => ?_
    rw [Json.lookup_eq_some_iff (by
      rw [List.map_append]
      exact (List.nodup_cons.mp hnodup).2)] at hu
    refine (List.nodup_cons.mp hnodup).1 ?_
    rw [← List.map_append]
    exact List.mem_map.mpr ⟨(k, u), hu, rfl⟩
  obtain ⟨hnodup, hnone⟩ := hrest h
  obtain ⟨hnodup', hnone'⟩ := hrest h'
  rw [canonicalForm_obj_eq_iff h h', canonicalForm_obj_eq_iff hnodup hnodup']
  simp only [lookup_split h, lookup_split h']
  constructor
  · intro heq
    refine ⟨fun key => ?_, ?_⟩
    · by_cases hkey : k = key
      · subst hkey
        rw [hnone, hnone']
      · simpa only [if_neg hkey] using heq key
    · simpa using heq k
  · rintro ⟨heq, hv⟩ key
    split
    · exact congrArg some hv
    · exact heq key

/-! ## How many bytes a value takes -/

theorem length_le_size_utf8Encode (cs : List Char) :
    cs.length ≤ cs.utf8Encode.size := by
  induction cs with
  | nil => exact Nat.zero_le _
  | cons c cs ih =>
      have hchar : (String.utf8EncodeChar c).toByteArray.size =
          (String.utf8EncodeChar c).length := by
        simp
      have hpos := List.length_pos_of_ne_nil
        (String.utf8EncodeChar_ne_nil (c := c))
      rw [List.utf8Encode_cons, ByteArray.size_append,
        List.utf8Encode_singleton, hchar, List.length_cons]
      omega

/-- A value takes at least as many bytes as the text of a field has
characters. -/
theorem length_le_size_canonicalJsonBytes (hkey : key ∉ keys)
    (h : w.field? key = some v) :
    (canonicalForm v keys).render.length ≤
      (canonicalJsonBytes w keys).size := by
  have hfield : (canonicalForm w keys).field? key =
      some (canonicalForm v keys) := by
    rw [field?_canonicalForm hkey, h]
    rfl
  have hlength := Json.length_le_length_render_of_field hfield
  rw [canonicalJsonBytes, String.toUTF8_eq_toByteArray,
    String.toByteArray_ofList]
  exact hlength.trans (length_le_size_utf8Encode _)

theorem canonicalForm_texts (keys texts : List String) :
    canonicalForm (.arr (texts.map .str)) keys = .arr (texts.map .str) := by
  rw [canonicalForm, Json.withoutKeys, Json.sortKeys]
  congr 1
  induction texts with
  | nil => rfl
  | cons text texts ih =>
      rw [List.map_cons, Json.itemsWithoutKeys, Json.sortItems, ih]
      rfl

/-- A value takes at least as many bytes as a field of texts has
characters. -/
theorem sum_length_le_size_canonicalJsonBytes (hkey : key ∉ keys)
    {texts : List String} (h : w.field? key = some (.arr (texts.map .str))) :
    (texts.map String.length).sum ≤ (canonicalJsonBytes w keys).size := by
  have hsize := length_le_size_canonicalJsonBytes hkey h
  rw [canonicalForm_texts] at hsize
  have hitems := Json.sum_le_length_render_arr (texts.map .str)
  have htexts : (texts.map String.length).sum ≤
      ((texts.map Json.str).map fun v => v.render.length).sum := by
    rw [List.map_map]
    exact List.sum_le_sum fun text _ => Json.length_le_length_render_str text
  exact htexts.trans (hitems.trans hsize)

end ApexForensic.Domain
