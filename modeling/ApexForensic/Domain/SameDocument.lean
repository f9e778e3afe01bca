import ApexForensic.Domain.Canonical

/-!
# Documents with the same canonical bytes

Hashes are taken of canonical bytes.  Two documents have the same bytes exactly
when they differ in nothing but the order of object keys and the values under
the keys that are left out, at every depth.
-/

namespace ApexForensic.Domain

open ApexForensic.Support

variable {v w : Json} {keys : List String} {key : String}

/-- No object of the document has a key twice. -/
inductive DistinctKeys : Json → Prop
  | scalar {v : Json} (h : v.isScalar = true) : DistinctKeys v
  | arr {items : List Json} (h : ∀ v ∈ items, DistinctKeys v) :
      DistinctKeys (.arr items)
  | obj {fields : List (String × Json)} (hkeys : (fields.map Prod.fst).Nodup)
      (h : ∀ f ∈ fields, DistinctKeys f.2) : DistinctKeys (.obj fields)

/-- The documents agree, but for the keys that are left out. -/
inductive SameDocument (keys : List String) : Json → Json → Prop
  | scalar {v : Json} (h : v.isScalar = true) : SameDocument keys v v
  | arr {items items' : List Json}
      (h : List.Forall₂ (SameDocument keys) items items') :
      SameDocument keys (.arr items) (.arr items')
  | obj {f g : List (String × Json)}
      (h : ∀ key ∉ keys, Option.Rel (SameDocument keys) (Json.lookup key f)
        (Json.lookup key g)) :
      SameDocument keys (.obj f) (.obj g)

/-! ## Fields that are kept -/

/-- The fields of a canonical object before they are sorted. -/
def keptFields (keys : List String) (fields : List (String × Json)) :
    List (String × Json) :=
  Json.sortFields (Json.fieldsWithoutKeys keys fields)

theorem map_fst_keptFields (keys : List String)
    (fields : List (String × Json)) :
    (keptFields keys fields).map Prod.fst =
      (fields.map Prod.fst).filter (· ∉ keys) := by
  induction fields with
  | nil => rfl
  | cons f fields ih =>
      obtain ⟨k, v⟩ := f
      rw [keptFields, Json.fieldsWithoutKeys, List.map_cons, List.filter_cons]
      by_cases hk : k ∈ keys
      · rw [if_pos hk, if_neg (by simpa using hk)]
        exact ih
      · rw [if_neg hk, if_pos (by simpa using hk)]
        exact congrArg (k :: ·) ih

theorem lookup_keptFields (hkey : key ∉ keys) (fields : List (String × Json)) :
    Json.lookup key (keptFields keys fields) =
      (Json.lookup key fields).map fun v => canonicalForm v keys := by
  rw [keptFields, Json.lookup_sortFields, Json.lookup_fieldsWithoutKeys hkey,
    Option.map_map]
  rfl

theorem canonicalForm_obj_eq_iff_of_keys {f g : List (String × Json)}
    (hf : (f.map Prod.fst).Nodup) (hg : (g.map Prod.fst).Nodup) :
    canonicalForm (.obj f) keys = canonicalForm (.obj g) keys ↔
      ∀ key ∉ keys, (Json.lookup key f).map (fun v => canonicalForm v keys) =
        (Json.lookup key g).map fun v => canonicalForm v keys := by
  constructor
  · intro h key hkey
    have hlookup := congrArg (Json.field? key) h
    rwa [field?_canonicalForm hkey, field?_canonicalForm hkey] at hlookup
  · intro h
    have hkept {l : List (String × Json)} (hl : (l.map Prod.fst).Nodup) :
        ((keptFields keys l).map Prod.fst).Nodup := by
      rw [map_fst_keptFields]
      exact hl.filter _
    have hlookup (key : String) : Json.lookup key (keptFields keys f) =
        Json.lookup key (keptFields keys g) := by
      by_cases hkey : key ∈ keys
      · have hleft (l : List (String × Json)) :
            Json.lookup key (keptFields keys l) = none := by
          refine lookup_eq_none ?_
          rw [map_fst_keptFields]
          exact fun h => of_decide_eq_true (List.mem_filter.mp h).2 hkey
        rw [hleft, hleft]
      · rw [lookup_keptFields hkey, lookup_keptFields hkey, h key hkey]
    exact congrArg Json.obj
      (insertionSort_keyLE_eq (hkept hf) (hkept hg) hlookup)

/-! ## Equal forms -/

theorem map_eq_map_iff_forall₂ {α β : Type} {f : α → β} {R : α → α → Prop}
    {xs ys : List α} (h : ∀ x ∈ xs, ∀ y ∈ ys, (f x = f y ↔ R x y)) :
    xs.map f = ys.map f ↔ List.Forall₂ R xs ys := by
  induction xs generalizing ys with
  | nil => rw [List.forall₂_nil_left_iff, List.map_nil, eq_comm,
      List.map_eq_nil_iff]
  | cons x xs ih =>
      cases ys with
      | nil => exact iff_of_false nofun nofun
      | cons y ys =>
          rw [List.forall₂_cons, List.map_cons, List.map_cons, List.cons.injEq,
            h x List.mem_cons_self y List.mem_cons_self,
            ih fun x' hx' y' hy' => h x' (List.mem_cons_of_mem x hx') y'
              (List.mem_cons_of_mem y hy')]

theorem map_eq_map_iff_rel {α β : Type} {f : α → β} {R : α → α → Prop}
    {a b : Option α} (h : ∀ x ∈ a, ∀ y ∈ b, (f x = f y ↔ R x y)) :
    a.map f = b.map f ↔ Option.Rel R a b := by
  rcases a with _ | x <;> rcases b with _ | y
  · exact iff_of_true rfl .none
  · exact iff_of_false nofun nofun
  · exact iff_of_false nofun nofun
  · rw [Option.map_some, Option.map_some, Option.some_inj, h x rfl y rfl]
    exact ⟨.some, fun h => by cases h; assumption⟩

theorem canonicalForm_eq_iff_of_scalar
    (h : v.isScalar = true ∨ w.isScalar = true) :
    canonicalForm v keys = canonicalForm w keys ↔ SameDocument keys v w := by
  constructor
  · intro heq
    have hsame : v = w := by
      rcases h with h | h
      · rw [canonicalForm, Json.withoutKeys_scalar h, Json.sortKeys_scalar h]
          at heq
        exact (Json.eq_of_sortKeys_withoutKeys_eq_scalar h heq.symm).symm
      · rw [canonicalForm.eq_def w, Json.withoutKeys_scalar h,
          Json.sortKeys_scalar h] at heq
        exact Json.eq_of_sortKeys_withoutKeys_eq_scalar h heq
    subst hsame
    exact .scalar (or_self_iff.mp h)
  · intro hsame
    cases hsame with
    | scalar _ => rfl
    | arr _ => rcases h with h | h <;> cases h
    | obj _ => rcases h with h | h <;> cases h

theorem canonicalForm_eq_iff (hv : DistinctKeys v) (hw : DistinctKeys w) :
    canonicalForm v keys = canonicalForm w keys ↔ SameDocument keys v w := by
  induction hv generalizing w with
  | scalar h => exact canonicalForm_eq_iff_of_scalar (.inl h)
  | @arr items h ih =>
      cases hw with
      | scalar hw => exact canonicalForm_eq_iff_of_scalar (.inr hw)
      | @arr items' hw =>
          rw [canonicalForm_arr, canonicalForm_arr, Json.arr.injEq,
            map_eq_map_iff_forall₂ fun x hx y hy => ih x hx (hw y hy)]
          refine ⟨.arr, fun hsame => ?_⟩
          cases hsame with
          | scalar h => cases h
          | arr h => exact h
      | obj _ _ => exact iff_of_false nofun nofun
  | @obj f hkeys h ih =>
      cases hw with
      | scalar hw => exact canonicalForm_eq_iff_of_scalar (.inr hw)
      | arr _ => exact iff_of_false nofun nofun
      | @obj g hkeys' hw =>
          have hrel (key : String) :
              (Json.lookup key f).map (fun v => canonicalForm v keys) =
                (Json.lookup key g).map (fun v => canonicalForm v keys) ↔
                Option.Rel (SameDocument keys) (Json.lookup key f)
                  (Json.lookup key g) :=
            map_eq_map_iff_rel fun x hx y hy =>
              ih (key, x) ((Json.lookup_eq_some_iff hkeys).mp hx)
                (hw (key, y) ((Json.lookup_eq_some_iff hkeys').mp hy))
          simp only [canonicalForm_obj_eq_iff_of_keys hkeys hkeys', hrel]
          refine ⟨.obj, fun hsame => ?_⟩
          cases hsame with
          | scalar h => cases h
          | obj h => exact h

/-- The canonical bytes tell documents apart that differ in more than key order
and the keys that are left out, and no others. -/
theorem canonicalJsonBytes_eq_iff (hv : DistinctKeys v)
    (hw : DistinctKeys w) :
    canonicalJsonBytes v keys = canonicalJsonBytes w keys ↔
      SameDocument keys v w := by
  rw [← canonicalForm_eq_iff hv hw]
  refine ⟨canonicalForm_eq_of_bytes_eq, fun h => ?_⟩
  rw [canonicalJsonBytes, h, canonicalJsonBytes]

theorem canonicalJsonBytes_event_hash :
    canonicalJsonBytes (.obj [("event_hash", .null)]) ["event_hash"] =
      canonicalJsonBytes (.obj []) ["event_hash"] := by
  refine (canonicalJsonBytes_eq_iff ?_ ?_).mpr (.obj fun key hkey => ?_)
  · exact .obj (by decide) (List.forall_mem_singleton.mpr (.scalar rfl))
  · exact .obj (by decide) (List.forall_mem_nil _)
  · rw [Json.lookup_cons, if_neg fun h : _ = key =>
      hkey (h ▸ List.mem_cons_self)]
    exact .none

end ApexForensic.Domain
