import Mathlib.Data.List.Nodup

/-!
# Tables with a primary key

The rows of a table have distinct keys, so a key names at most one row, and an
update that keeps keys cannot make two rows clash.
-/

namespace ApexForensic.Domain

variable {α κ : Type} {key : α → κ}

structure Table (key : α → κ) where
  rows : List α
  keys_nodup : (rows.map key).Nodup

namespace Table

def empty (key : α → κ) : Table key where
  rows := []
  keys_nodup := List.nodup_nil

/-- `SELECT ... WHERE key = ?`. -/
def find? [DecidableEq κ] (t : Table key) (k : κ) : Option α :=
  t.rows.find? fun a => key a = k

/-- `INSERT`; there is no row when the key is taken. -/
def insert [DecidableEq κ] (t : Table key) (row : α) : Option (Table key) :=
  if h : key row ∈ t.rows.map key then none
  else some
    { rows := t.rows ++ [row]
      keys_nodup := by
        rw [List.map_append, List.map_singleton]
        exact List.nodup_append.mpr ⟨t.keys_nodup, List.nodup_singleton _,
          fun k hk k' hk' heq => h (List.mem_singleton.mp hk' ▸ heq ▸ hk)⟩ }

/-- `UPDATE ... WHERE`, of columns other than the key. -/
def update (t : Table key) (p : α → Bool) (f : α → α)
    (hf : ∀ a, key (f a) = key a) : Table key where
  rows := t.rows.map fun a => if p a then f a else a
  keys_nodup := by
    have hkeys : (t.rows.map fun a => if p a then f a else a).map key =
        t.rows.map key := by
      rw [List.map_map]
      refine List.map_congr_left fun a _ => ?_
      by_cases h : p a
      · simp [h, hf]
      · simp [h]
    rw [hkeys]
    exact t.keys_nodup

/-- `items[key] = row`, or an insert that replaces the row of its key. -/
def put [DecidableEq κ] (t : Table key) (row : α) : Table key where
  rows :=
    if key row ∈ t.rows.map key then
      t.rows.map fun a => if key a = key row then row else a
    else t.rows ++ [row]
  keys_nodup := by
    split
    · have hkeys : (t.rows.map fun a =>
          if key a = key row then row else a).map key = t.rows.map key := by
        rw [List.map_map]
        refine List.map_congr_left fun a _ => ?_
        by_cases h : key a = key row
        · simp [h]
        · simp [h]
      rw [hkeys]
      exact t.keys_nodup
    · rename_i h
      rw [List.map_append, List.map_singleton]
      exact List.nodup_append.mpr ⟨t.keys_nodup, List.nodup_singleton _,
        fun k hk k' hk' heq => h (List.mem_singleton.mp hk' ▸ heq ▸ hk)⟩

/-- `DELETE` of the rows that do not pass. -/
def filter (t : Table key) (p : α → Bool) : Table key where
  rows := t.rows.filter p
  keys_nodup := t.keys_nodup.sublist (List.filter_sublist.map key)

/-- `rowcount` of an update. -/
def rowcount (t : Table key) (p : α → Bool) : ℕ :=
  t.rows.countP p

variable {t t' : Table key} {p : α → Bool} {f : α → α}
  {hf : ∀ a, key (f a) = key a}

theorem row_unique (t : Table key) {a b : α} (ha : a ∈ t.rows)
    (hb : b ∈ t.rows) (h : key a = key b) : a = b :=
  List.inj_on_of_nodup_map t.keys_nodup ha hb h

theorem filter_key_eq [DecidableEq κ] (t : Table key) {a : α}
    (ha : a ∈ t.rows) : t.rows.filter (fun b => key b = key a) = [a] := by
  have hnodup : (t.rows.filter fun b => key b = key a).Nodup :=
    t.keys_nodup.of_map.filter _
  rw [← List.perm_singleton, List.perm_ext_iff_of_nodup hnodup
    (List.nodup_singleton a)]
  intro b
  rw [List.mem_filter, List.mem_singleton, decide_eq_true_eq]
  constructor
  · rintro ⟨hb, hkey⟩
    exact t.row_unique hb ha hkey
  · rintro rfl
    exact ⟨ha, rfl⟩

theorem find?_eq_some_iff [DecidableEq κ] {k : κ} {a : α} :
    t.find? k = some a ↔ a ∈ t.rows ∧ key a = k := by
  constructor
  · intro h
    exact ⟨List.mem_of_find?_eq_some h, by simpa using List.find?_some h⟩
  · rintro ⟨ha, rfl⟩
    cases h : t.find? (key a) with
    | none =>
        have hnone := List.find?_eq_none.mp h a ha
        simp at hnone
    | some b =>
        have hb : b ∈ t.rows := List.mem_of_find?_eq_some h
        have hkey : key b = key a := by simpa using List.find?_some h
        rw [t.row_unique hb ha hkey]

@[simp] theorem find?_update [DecidableEq κ] (t : Table key) (p : α → Bool) (f : α → α)
    (hf : ∀ a, key (f a) = key a) (k : κ) :
    (t.update p f hf).find? k =
      (t.find? k).map fun a => if p a then f a else a := by
  rw [find?, update, find?, List.find?_map]
  congr 2
  funext a
  by_cases h : p a
  · simp [h, hf]
  · simp [h]

theorem find?_eq_none_iff [DecidableEq κ] {k : κ} :
    t.find? k = none ↔ k ∉ t.rows.map key := by
  simp [find?, List.find?_eq_none]

theorem rows_put_of_find?_eq_none [DecidableEq κ] {row : α}
    (h : t.find? (key row) = none) : (t.put row).rows = t.rows ++ [row] :=
  if_neg (find?_eq_none_iff.mp h)

theorem mem_put [DecidableEq κ] {row a : α} :
    a ∈ (t.put row).rows ↔ a = row ∨ a ∈ t.rows ∧ key a ≠ key row := by
  rw [put]
  dsimp only
  split
  · rename_i h
    obtain ⟨old, hold, hkey⟩ := List.mem_map.mp h
    rw [List.mem_map]
    constructor
    · rintro ⟨b, hb, rfl⟩
      split
      · exact Or.inl rfl
      · exact Or.inr ⟨hb, ‹_›⟩
    · rintro (rfl | ⟨ha, hne⟩)
      · exact ⟨old, hold, if_pos hkey⟩
      · exact ⟨a, ha, if_neg hne⟩
  · rename_i h
    rw [List.mem_append, List.mem_singleton]
    constructor
    · rintro (ha | rfl)
      · exact Or.inr ⟨ha, fun heq => h (heq ▸ List.mem_map_of_mem ha)⟩
      · exact Or.inl rfl
    · rintro (rfl | ⟨ha, -⟩)
      · exact Or.inr rfl
      · exact Or.inl ha

@[simp] theorem find?_put [DecidableEq κ] (t : Table key) (row : α) (k : κ) :
    (t.put row).find? k = if key row = k then some row else t.find? k := by
  by_cases hk : key row = k
  · rw [if_pos hk]
    exact find?_eq_some_iff.mpr ⟨mem_put.mpr (Or.inl rfl), hk⟩
  · rw [if_neg hk]
    ext a
    rw [find?_eq_some_iff, find?_eq_some_iff, mem_put]
    constructor
    · rintro ⟨rfl | ⟨ha, -⟩, hkey⟩
      · exact absurd hkey hk
      · exact ⟨ha, hkey⟩
    · rintro ⟨ha, rfl⟩
      exact ⟨Or.inr ⟨ha, fun h => hk h.symm⟩, rfl⟩

@[simp] theorem find?_filter [DecidableEq κ] (t : Table key) (p : α → Bool)
    (k : κ) : (t.filter p).find? k = (t.find? k).filter p := by
  ext a
  rw [find?_eq_some_iff, Option.filter_eq_some_iff, find?_eq_some_iff, filter,
    List.mem_filter]
  tauto

theorem update_eq_self (h : ∀ a ∈ t.rows, p a = true → f a = a) :
    t.update p f hf = t := by
  cases t with
  | mk rows hnodup =>
      simp only [update, mk.injEq]
      refine (List.map_congr_left fun a ha => ?_).trans (List.map_id rows)
      by_cases hp : p a
      · simp [hp, h a ha hp]
      · simp [hp]

theorem rowcount_eq_zero_iff :
    t.rowcount p = 0 ↔ ∀ a ∈ t.rows, p a = false := by
  rw [rowcount, List.countP_eq_zero]
  simp

theorem rowcount_le_one {k : κ} (hp : ∀ a, p a = true → key a = k) :
    t.rowcount p ≤ 1 := by
  have hkeys : (t.rows.filter p).map key = List.replicate (t.rowcount p) k := by
    rw [rowcount, List.countP_eq_length_filter, List.eq_replicate_iff]
    refine ⟨by simp, fun k' hk' => ?_⟩
    obtain ⟨a, ha, rfl⟩ := List.mem_map.mp hk'
    exact hp a (List.mem_filter.mp ha).2
  have hnodup : ((t.rows.filter p).map key).Nodup :=
    t.keys_nodup.sublist (List.filter_sublist.map key)
  rw [hkeys] at hnodup
  exact List.nodup_replicate.mp hnodup

theorem countP_update (t : Table key) (p : α → Bool) (f : α → α)
    (hf : ∀ a, key (f a) = key a) (q : α → Bool) :
    (t.update p f hf).rows.countP q +
        t.rows.countP (fun a => p a && q a) =
      t.rows.countP q + t.rows.countP (fun a => p a && q (f a)) := by
  change (t.rows.map fun a => if p a then f a else a).countP q + _ = _
  generalize t.rows = rows
  induction rows with
  | nil => rfl
  | cons a rows ih =>
      simp only [List.map_cons, List.countP_cons]
      by_cases hp : p a
      · simp only [hp, if_true, Bool.true_and]
        omega
      · simp only [hp, Bool.false_and, if_false, Bool.false_eq_true]
        omega

theorem countP_update_le (t : Table key) (p : α → Bool) (f : α → α)
    (hf : ∀ a, key (f a) = key a) {q : α → Bool}
    (h : ∀ a ∈ t.rows, p a = true → q (f a) = true → q a = true) :
    (t.update p f hf).rows.countP q ≤ t.rows.countP q := by
  have hupdate := countP_update t p f hf q
  have hle : t.rows.countP (fun a => p a && q (f a)) ≤
      t.rows.countP fun a => p a && q a := by
    refine List.countP_mono_left fun a ha hboth => ?_
    rw [Bool.and_eq_true] at hboth ⊢
    exact ⟨hboth.1, h a ha hboth.1 hboth.2⟩
  omega

/-- How an update changes that number when the rows it matches agree on the
property before, and after. -/
theorem countP_update_of_agree (t : Table key) (p : α → Bool) (f : α → α)
    (hf : ∀ a, key (f a) = key a) (q : α → Bool) {before after : Bool}
    (hbefore : ∀ a, p a = true → q a = before)
    (hafter : ∀ a, p a = true → q (f a) = after) :
    (t.update p f hf).rows.countP q + (if before then t.rowcount p else 0) =
      t.rows.countP q + (if after then t.rowcount p else 0) := by
  have hcount : ∀ {r : α → Bool} {b : Bool}, (∀ a, p a = true → r a = b) →
      t.rows.countP (fun a => p a && r a) = if b then t.rowcount p else 0 := by
    intro r b hr
    cases b with
    | true =>
        refine List.countP_congr fun a _ => ?_
        by_cases hp : p a
        · simp [hp, hr a hp]
        · simp [hp]
    | false =>
        refine List.countP_eq_zero.mpr fun a _ => ?_
        by_cases hp : p a
        · simp [hr a hp]
        · simp [hp]
  have hupdate := countP_update t p f hf q
  rwa [hcount hbefore, hcount hafter] at hupdate

theorem insert_eq_some_iff [DecidableEq κ] {row : α} :
    t.insert row = some t' ↔
      key row ∉ t.rows.map key ∧ t'.rows = t.rows ++ [row] := by
  rw [insert]
  split
  · rename_i h
    simp [h]
  · rename_i h
    cases t'
    simp only [Option.some.injEq, mk.injEq]
    constructor
    · rintro rfl
      exact ⟨h, rfl⟩
    · rintro ⟨-, rfl⟩
      rfl

end Table

end ApexForensic.Domain
