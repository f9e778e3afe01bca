import ApexForensic.Domain.Errors

/-!
# Rows of a table

An insert is guarded by the unique constraints of its table and appends its
row; an update replaces the row with the same key.
-/

namespace ApexForensic.Domain

section

variable {α : Type}

/-- `INSERT`: each constraint is named by its columns and says which rows
clash. -/
def insertRow (constraints : List (String × (α → α → Bool)))
    (rows : List α) (row : α) : Except PyError (List α) :=
  match constraints.find? fun c => rows.any (c.2 row) with
  | some c => .error (.builtin .integrityError
      ("UNIQUE constraint failed: " ++ c.1))
  | none => .ok (rows ++ [row])

theorem insertRow_eq_ok_iff {constraints : List (String × (α → α → Bool))}
    {rows rows' : List α} {row : α} :
    insertRow constraints rows row = .ok rows' ↔
      rows' = rows ++ [row] ∧
        ∀ c ∈ constraints, ∀ r ∈ rows, c.2 row r = false := by
  rw [insertRow]
  split
  · rename_i c hfind
    have hany : rows.any (c.2 row) = true := by
      simpa using List.find?_some hfind
    obtain ⟨r, hr, hclash⟩ := List.any_eq_true.mp hany
    have hmem := List.mem_of_find?_eq_some hfind
    constructor
    · intro h
      cases h
    · rintro ⟨-, h⟩
      simp [h c hmem r hr] at hclash
  · rename_i hfind
    have hnone := List.find?_eq_none.mp hfind
    constructor
    · intro h
      refine ⟨(Except.ok.inj h).symm, fun c hc r hr => ?_⟩
      by_contra hclash
      exact hnone c hc (List.any_eq_true.mpr ⟨r, hr, by simpa using hclash⟩)
    · rintro ⟨rfl, -⟩
      rfl

/-- A row whose key is new keeps the keys of a table distinct. -/
theorem nodup_map_concat {κ : Type} {key : α → κ} {rows : List α} {row : α}
    (hrows : (rows.map key).Nodup) (hrow : ∀ r ∈ rows, key r ≠ key row) :
    ((rows ++ [row]).map key).Nodup := by
  rw [List.map_append, List.map_singleton, ← List.concat_eq_append]
  refine List.Nodup.concat (fun hmem => ?_) hrows
  obtain ⟨r, hr, heq⟩ := List.mem_map.mp hmem
  exact hrow r hr heq

theorem nodup_of_insertRows {κ : Type} {key : α → κ}
    {constraints : List (String × (α → α → Bool))}
    {c : String × (α → α → Bool)} (hmem : c ∈ constraints)
    (hc : ∀ a b, key b = key a → c.2 a b = true) {rows rows' new : List α}
    (hrows : (rows.map key).Nodup)
    (h : new.foldlM (insertRow constraints) rows = .ok rows') :
    rows' = rows ++ new ∧ (rows'.map key).Nodup := by
  induction new generalizing rows with
  | nil =>
      obtain rfl := Except.ok.inj h
      exact ⟨(List.append_nil _).symm, hrows⟩
  | cons row new ih =>
      obtain ⟨rows₁, hrow, h⟩ := bind_ok h
      obtain ⟨rfl, hnone⟩ := insertRow_eq_ok_iff.mp hrow
      have hnew : ∀ r ∈ rows, key r ≠ key row := by
        intro r hr heq
        have hclash := hnone c hmem r hr
        rw [hc row r heq] at hclash
        cases hclash
      obtain ⟨rfl, hnodup⟩ := ih (nodup_map_concat hrows hnew) h
      exact ⟨by rw [List.append_assoc, List.singleton_append], hnodup⟩

/-- `UPDATE ... WHERE key = ?`. -/
def updateRow (key : α → String) (rows : List α) (row : α) : List α :=
  rows.map fun r => if key r = key row then row else r

@[simp] theorem map_key_updateRow (key : α → String) (rows : List α)
    (row : α) : (updateRow key rows row).map key = rows.map key := by
  rw [updateRow, List.map_map]
  refine List.map_congr_left fun r _ => ?_
  by_cases h : key r = key row
  · simp [h]
  · simp [h]

theorem mem_updateRow {key : α → String} {rows : List α} {row r : α}
    (h : r ∈ updateRow key rows row) : r = row ∨ r ∈ rows := by
  obtain ⟨r', hr', rfl⟩ := List.mem_map.mp h
  by_cases hkey : key r' = key row
  · exact Or.inl (if_pos hkey)
  · exact Or.inr (by rwa [if_neg hkey])

theorem find?_updateRow_of_ne {key : α → String} {rows : List α} {row : α}
    {k : String} (h : key row ≠ k) :
    (updateRow key rows row).find? (fun r => key r = k) =
      rows.find? fun r => key r = k := by
  induction rows with
  | nil => rfl
  | cons r rows ih =>
      rw [updateRow] at ih ⊢
      rw [List.map_cons]
      by_cases hkey : key r = key row
      · have hne : key r ≠ k := fun heq => h (hkey.symm.trans heq)
        simp [hkey, h, ih]
      · rw [if_neg hkey, List.find?_cons, List.find?_cons, ih]

theorem find?_updateRow_self {key : α → String} {rows : List α} {row r : α}
    {k : String} (hrow : key row = k)
    (h : rows.find? (fun r => key r = k) = some r) :
    (updateRow key rows row).find? (fun r => key r = k) = some row := by
  induction rows with
  | nil => cases h
  | cons a rows ih =>
      rw [updateRow] at ih ⊢
      rw [List.map_cons]
      by_cases hkey : key a = k
      · simp [hkey, hrow]
      · rw [List.find?_cons, decide_eq_false hkey] at h
        rw [if_neg (fun heq => hkey (heq.trans hrow)), List.find?_cons,
          decide_eq_false hkey]
        exact ih h

theorem filter_updateRow {key : α → String} {rows : List α} {row : α}
    {p : α → Bool} (hrow : p row = false)
    (hrows : ∀ r ∈ rows, key r = key row → p r = false) :
    (updateRow key rows row).filter p = rows.filter p := by
  induction rows with
  | nil => rfl
  | cons r rows ih =>
      have hrest := ih fun x hx => hrows x (List.mem_cons_of_mem r hx)
      rw [updateRow] at hrest ⊢
      rw [List.map_cons]
      by_cases hkey : key r = key row
      · have hr := hrows r List.mem_cons_self hkey
        rw [if_pos hkey, List.filter_cons_of_neg (by simp [hrow]),
          List.filter_cons_of_neg (by simp [hr]), hrest]
      · rw [if_neg hkey, List.filter_cons, List.filter_cons, hrest]

/-- `text LIKE pattern`: `%` stands for any text, `_` for one character, and
ASCII letters are compared without case. -/
def like : List Char → List Char → Bool
  | [], s => s.isEmpty
  | '%' :: pattern, s => s.tails.any (like pattern)
  | '_' :: pattern, s =>
      match s with
      | [] => false
      | _ :: s => like pattern s
  | c :: pattern, s =>
      match s with
      | [] => false
      | d :: s => c.toLower = d.toLower && like pattern s

/-! ## Reading rows in an order -/

/-- `ORDER BY key, id`. -/
def orderBy {β : Type} [LinearOrder β] (key : α → β) (id : α → String)
    (a b : α) : Prop :=
  key a < key b ∨ (key a = key b ∧ id a ≤ id b)

section OrderBy

variable {β : Type} [LinearOrder β] (key : α → β) (id : α → String)

instance : DecidableRel (orderBy key id) := fun a b =>
  inferInstanceAs (Decidable (key a < key b ∨ (key a = key b ∧ id a ≤ id b)))

instance : Std.Total (orderBy key id) where
  total a b := by
    rcases lt_trichotomy (key a) (key b) with h | h | h
    · exact Or.inl (Or.inl h)
    · rcases le_total (id a) (id b) with hid | hid
      · exact Or.inl (Or.inr ⟨h, hid⟩)
      · exact Or.inr (Or.inr ⟨h.symm, hid⟩)
    · exact Or.inr (Or.inl h)

instance : IsTrans α (orderBy key id) where
  trans a b c hab hbc := by
    rcases hab with hab | ⟨hab, hid⟩
    · rcases hbc with hbc | ⟨hbc, -⟩
      · exact Or.inl (hab.trans hbc)
      · exact Or.inl (hbc ▸ hab)
    · rcases hbc with hbc | ⟨hbc, hid'⟩
      · exact Or.inl (hab ▸ hbc)
      · exact Or.inr ⟨hab.trans hbc, hid.trans hid'⟩

variable {key id}

theorem orderBy_key_le {a b : α} (h : orderBy key id a b) : key a ≤ key b := by
  rcases h with h | ⟨h, -⟩
  · exact h.le
  · exact h.le

theorem orderBy_antisymm {a b : α} (hab : orderBy key id a b)
    (hba : orderBy key id b a) : key a = key b ∧ id a = id b := by
  have hkey := le_antisymm (orderBy_key_le hab) (orderBy_key_le hba)
  refine ⟨hkey, ?_⟩
  rcases hab with hab | ⟨-, hab⟩
  · exact absurd hkey hab.ne
  · rcases hba with hba | ⟨-, hba⟩
    · exact absurd hkey hba.ne'
    · exact le_antisymm hab hba

/-- `key > ? OR (key = ? AND id > ?)`. -/
theorem not_orderBy_iff {a b : α} :
    ¬ orderBy key id a b ↔ key b < key a ∨ (key a = key b ∧ id b < id a) := by
  rw [orderBy]
  rcases lt_trichotomy (key a) (key b) with h | h | h
  · simp [h, h.not_gt, h.ne]
  · simp [h]
  · simp [h, h.not_gt, h.ne']

/-- Rows with distinct identifiers are read in the same order, whichever order
they are in. -/
theorem insertionSort_orderBy_of_perm {rows rows' : List α}
    (hperm : rows.Perm rows') (hids : (rows.map id).Nodup) :
    rows.insertionSort (orderBy key id) =
      rows'.insertionSort (orderBy key id) := by
  refine List.Perm.eq_of_pairwise (fun a b ha hb hab hba => ?_)
    (List.pairwise_insertionSort _ rows) (List.pairwise_insertionSort _ rows')
    (((List.perm_insertionSort _ rows).trans hperm).trans
      (List.perm_insertionSort _ rows').symm)
  have ha := (List.mem_insertionSort _).mp ha
  have hb := hperm.mem_iff.mpr ((List.mem_insertionSort _).mp hb)
  exact List.inj_on_of_nodup_map hids ha hb (orderBy_antisymm hab hba).2

end OrderBy

variable {r : α → α → Prop} [DecidableRel r]

theorem insertionSort_concat {rows : List α} {row : α}
    (h : ∀ a ∈ rows, r a row) :
    (rows ++ [row]).insertionSort r = rows.insertionSort r ++ [row] := by
  induction rows with
  | nil => rfl
  | cons a rows ih =>
      have hrest := ih fun b hb => h b (List.mem_cons_of_mem a hb)
      have ha : r a row := h a List.mem_cons_self
      rw [List.cons_append, List.insertionSort_cons, hrest,
        List.insertionSort_cons]
      generalize rows.insertionSort r = sorted
      induction sorted with
      | nil => simp [ha]
      | cons b sorted ihsorted =>
          rw [List.cons_append, List.orderedInsert_cons,
            List.orderedInsert_cons]
          split
          · rfl
          · rw [ihsorted, List.cons_append]

theorem rel_last_insertionSort [Std.Total r] [IsTrans α r] {rows : List α}
    {a last : α} (hlast : (rows.insertionSort r).getLast? = some last)
    (ha : a ∈ rows) : r a last := by
  obtain ⟨init, hinit⟩ := List.getLast?_eq_some_iff.mp hlast
  have hsorted := List.pairwise_insertionSort r rows
  have hmem := (List.mem_insertionSort r).mpr ha
  rw [hinit] at hsorted hmem
  rcases List.mem_append.mp hmem with hinit | hlast
  · exact (List.pairwise_append.mp hsorted).2.2 a hinit last
      List.mem_cons_self
  · obtain rfl := List.mem_singleton.mp hlast
    exact (total_of r a a).elim id id

section Revisions

variable {revision : α → ℕ} {id : α → String}

theorem revision_le_last {rows : List α} {a : α} (ha : a ∈ rows) :
    revision a ≤
      (rows.insertionSort (orderBy revision id)).getLast?.elim 0 revision := by
  cases hlast : (rows.insertionSort (orderBy revision id)).getLast? with
  | none =>
      have hmem := (List.mem_insertionSort (orderBy revision id)).mpr ha
      rw [List.getLast?_eq_none_iff.mp hlast] at hmem
      cases hmem
  | some last => exact orderBy_key_le (rel_last_insertionSort hlast ha)

theorem insertionSort_revision_concat {rows : List α} {row : α}
    (h : ∀ a ∈ rows, revision a < revision row) :
    (rows ++ [row]).insertionSort (orderBy revision id) =
      rows.insertionSort (orderBy revision id) ++ [row] :=
  insertionSort_concat fun a ha => Or.inl (h a ha)

end Revisions

end

end ApexForensic.Domain
