import Mathlib.Data.List.Sort

/-!
# Reading an ordered set page by page

A page holds the first rows, in an order, of those that come after the last
row of the page before.  `follow` asks for page after page with the cursor of
the page read last.  The two facts behind keyset pagination are separate:
the rows after a row are the rest of the ordered list (`filter_after_eq`),
and a fetch that walks along a list returns the whole list
(`follow_eq_ok`).
-/

namespace ApexForensic.Support

section Order

variable {α : Type*} {r : α → α → Prop}

/-- Two rows of the list that come before each other are one row. -/
def Separates (r : α → α → Prop) (rows : List α) : Prop :=
  ∀ a ∈ rows, ∀ b ∈ rows, r a b → r b a → a = b

theorem Separates.of_perm {rows rows' : List α} (h : Separates r rows)
    (hperm : rows'.Perm rows) : Separates r rows' := by
  intro a ha b hb
  exact h a (hperm.mem_iff.mp ha) b (hperm.mem_iff.mp hb)

theorem Separates.filter {rows : List α} (h : Separates r rows)
    (p : α → Bool) : Separates r (rows.filter p) := by
  intro a ha b hb
  exact h a (List.mem_of_mem_filter ha) b (List.mem_of_mem_filter hb)

variable [DecidableRel r] [Std.Total r]

theorem insertionSort_filter [IsTrans α r] {rows : List α} (h : Separates r rows)
    (p : α → Bool) :
    (rows.filter p).insertionSort r = (rows.insertionSort r).filter p := by
  have hperm : ((rows.filter p).insertionSort r).Perm
      ((rows.insertionSort r).filter p) :=
    (List.perm_insertionSort r _).trans
      ((List.perm_insertionSort r rows).filter p).symm
  apply hperm.eq_of_pairwise
  · intro a b ha hb
    have ha := (List.mem_insertionSort r).mp ha
    have hb := (List.mem_insertionSort r).mp (List.mem_of_mem_filter hb)
    exact h a (List.mem_of_mem_filter ha) b hb
  · exact List.pairwise_insertionSort r _
  · exact (List.pairwise_insertionSort r rows).filter p

/-- The rows that come after a row of an ordered list are those that follow
it there. -/
theorem filter_after_eq {before rest : List α} {a : α}
    (hsorted : (before ++ a :: rest).Pairwise r)
    (hnodup : (before ++ a :: rest).Nodup)
    (h : Separates r (before ++ a :: rest)) :
    (before ++ a :: rest).filter (fun b => ! decide (r b a)) = rest := by
  have hmem : a ∈ before ++ a :: rest := by simp
  rw [List.filter_append, List.filter_cons]
  have hbefore : before.filter (fun b => ! decide (r b a)) = [] := by
    rw [List.filter_eq_nil_iff]
    intro b hb
    have hrel := (List.pairwise_append.mp hsorted).2.2 b hb a List.mem_cons_self
    simpa using hrel
  have hrest : rest.filter (fun b => ! decide (r b a)) = rest := by
    rw [List.filter_eq_self]
    intro b hb
    have hrel : r a b := List.rel_of_pairwise_cons
      (List.pairwise_append.mp hsorted).2.1 hb
    have hne : a ≠ b := by
      rintro rfl
      exact (List.nodup_cons.mp (List.nodup_append.mp hnodup).2.1).1 hb
    simpa using fun hback => hne (h a hmem b (by simp [hb]) hrel hback)
  have hself : r a a := (total_of r a a).elim id id
  simp [hbefore, hrest, hself]

/-- The rows that come before a row of an ordered list are those that it
follows there. -/
theorem filter_before_eq {before rest : List α} {a : α}
    (hsorted : (before ++ a :: rest).Pairwise r)
    (hnodup : (before ++ a :: rest).Nodup)
    (h : Separates r (before ++ a :: rest)) :
    (before ++ a :: rest).filter (fun b => ! decide (r a b)) = before := by
  have hmem : a ∈ before ++ a :: rest := by simp
  obtain ⟨-, hrest, hbefore⟩ := List.pairwise_append.mp hsorted
  have hafter : ∀ b ∈ a :: rest, r a b := by
    intro b hb
    rcases List.mem_cons.mp hb with rfl | hb
    · exact (total_of r b b).elim id id
    · exact (List.pairwise_cons.mp hrest).1 b hb
  rw [List.filter_append, List.filter_eq_self.mpr, List.filter_eq_nil_iff.mpr,
    List.append_nil]
  · intro b hb
    simp [hafter b hb]
  · intro b hb
    have hne : b ≠ a := fun heq =>
      (List.nodup_append.mp hnodup).2.2 b hb a List.mem_cons_self heq
    have hnot : ¬ r a b := fun hab => hne
      (h b (List.mem_append_left _ hb) a hmem
        (hbefore b hb a List.mem_cons_self) hab)
    simp [hnot]

/-- A row is among the first `n` of an ordered list when fewer than `n` come
before it. -/
theorem mem_take_iff {rows : List α} (hsorted : rows.Pairwise r)
    (hnodup : rows.Nodup) (h : Separates r rows) {a : α} {n : ℕ} :
    a ∈ rows.take n ↔ a ∈ rows ∧
      (rows.filter fun b => ! decide (r a b)).length < n := by
  constructor
  · intro ha
    have hmem := List.mem_of_mem_take ha
    refine ⟨hmem, ?_⟩
    obtain ⟨before, rest, rfl⟩ := List.append_of_mem hmem
    rw [filter_before_eq hsorted hnodup h]
    by_contra hle
    rw [List.take_append_of_le_length (Nat.le_of_not_lt hle)] at ha
    exact (List.nodup_append.mp hnodup).2.2 a (List.mem_of_mem_take ha) a
      List.mem_cons_self rfl
  · rintro ⟨hmem, hlt⟩
    obtain ⟨before, rest, rfl⟩ := List.append_of_mem hmem
    rw [filter_before_eq hsorted hnodup h] at hlt
    obtain ⟨k, rfl⟩ := Nat.exists_eq_add_of_lt hlt
    rw [Nat.add_assoc, List.take_length_add_append, List.take_succ_cons]
    exact List.mem_append_right _ List.mem_cons_self

/-- What comes before one of the first `n` rows is among them. -/
theorem filter_before_take {rows : List α} (hsorted : rows.Pairwise r)
    (hnodup : rows.Nodup) (h : Separates r rows) {a : α} {n : ℕ}
    (ha : a ∈ rows.take n) :
    (rows.take n).filter (fun b => ! decide (r a b)) =
      rows.filter fun b => ! decide (r a b) := by
  obtain ⟨before, rest, heq⟩ := List.append_of_mem ha
  have hrows : rows = before ++ a :: (rest ++ rows.drop n) := by
    rw [← List.cons_append, ← List.append_assoc, ← heq, List.take_append_drop]
  have hsub : (before ++ a :: rest).Sublist rows :=
    heq ▸ List.take_sublist n rows
  rw [heq, filter_before_eq (hsorted.sublist hsub) (hnodup.sublist hsub)
    fun b hb c hc => h b (hsub.mem hb) c (hsub.mem hc)]
  rw [hrows] at hsorted hnodup h ⊢
  rw [filter_before_eq hsorted hnodup h]

/-- A page of `m` of those of the first `n` rows that pass a test. -/
theorem mem_page_iff [IsTrans α r] {rows : List α} (hnodup : rows.Nodup)
    (h : Separates r rows) {p : α → Bool} {a : α} {n m : ℕ} :
    a ∈ (((rows.insertionSort r).take n).filter p).take m ↔
      a ∈ rows ∧ p a = true ∧
        (rows.filter fun b => ! decide (r a b)).length < n ∧
        (rows.filter fun b => p b && ! decide (r a b)).length < m := by
  have hperm := List.perm_insertionSort r rows
  have hsorted := List.pairwise_insertionSort r rows
  have hnodup' := hperm.nodup_iff.mpr hnodup
  have hseparates := h.of_perm hperm
  have hsub := ((List.filter_sublist (p := p)).trans
    (List.take_sublist n (rows.insertionSort r)))
  rw [mem_take_iff (hsorted.sublist hsub) (hnodup'.sublist hsub)
    fun b hb c hc => hseparates b (hsub.mem hb) c (hsub.mem hc),
    List.mem_filter, mem_take_iff hsorted hnodup' hseparates,
    (hperm.filter _).length_eq, hperm.mem_iff, and_assoc, and_assoc]
  refine and_congr_right fun ha => ?_
  rw [and_left_comm]
  refine and_congr_right fun hp => and_congr_right fun hn => ?_
  have htake : a ∈ (rows.insertionSort r).take n := by
    rw [mem_take_iff hsorted hnodup' hseparates, (hperm.filter _).length_eq]
    exact ⟨hperm.mem_iff.mpr ha, hn⟩
  rw [List.filter_comm, filter_before_take hsorted hnodup' hseparates htake,
    List.filter_filter, (hperm.filter _).length_eq]

end Order

section Follow

variable {π α C ε : Type*} (fetch : Option C → Except ε π)
  (next : π → Option C)

/-- The pages read with at most `n` requests, the first with cursor `c` and
each other with the cursor of the page before. -/
def follow : ℕ → Option C → Except ε (List π)
  | 0, _ => .ok []
  | n + 1, c => do
      let page ← fetch c
      match next page with
      | none => .ok [page]
      | some c' => do
          let pages ← follow n (some c')
          .ok (page :: pages)

variable {fetch next}

/-- What one request does when the cursor stands before the rows `xs`: the
page has the first of them, and its cursor, if any, stands before the
others. -/
structure Fetched (At : Option C → List α → Prop) (next : π → Option C)
    (items : π → List α) (xs : List α) (page : π) : Prop where
  last : next page = none → items page = xs
  more : ∀ c, next page = some c → items page ≠ [] ∧
    ∃ rest, xs = items page ++ rest ∧ At (some c) rest

/-- Pages that do not change with one more request end with one that has no
cursor. -/
theorem exists_last_of_follow {n : ℕ} {c : Option C} {pages : List π}
    (h : follow fetch next n c = .ok pages)
    (h' : follow fetch next (n + 1) c = .ok pages) :
    ∃ page ∈ pages, (∃ c, fetch c = .ok page) ∧ next page = none := by
  induction n generalizing c pages with
  | zero =>
      obtain rfl := Except.ok.inj h
      rw [follow] at h'
      cases hpage : fetch c with
      | error e => simp [hpage, bind, Except.bind] at h'
      | ok page =>
          cases hnext : next page with
          | none => simp [hpage, hnext, bind, Except.bind] at h'
          | some c' => simp [hpage, hnext, follow, bind, Except.bind] at h'
  | succ n ih =>
      rw [follow] at h h'
      cases hpage : fetch c with
      | error e => simp [hpage, bind, Except.bind] at h
      | ok page =>
          cases hnext : next page with
          | none =>
              have hpages : [page] = pages := by
                simpa [hpage, hnext, bind, Except.bind] using h
              exact ⟨page, hpages ▸ List.mem_singleton_self _, ⟨c, hpage⟩,
                hnext⟩
          | some c' =>
              cases hrest : follow fetch next n (some c') with
              | error e => simp [hpage, hnext, hrest, bind, Except.bind] at h
              | ok rest =>
                  have hpages : page :: rest = pages := by
                    simpa [hpage, hnext, hrest, bind, Except.bind] using h
                  subst hpages
                  cases hmore : follow fetch next (n + 1) (some c') with
                  | error e =>
                      simp [hpage, hnext, hmore, bind, Except.bind] at h'
                  | ok rest' =>
                      obtain rfl : rest' = rest := by
                        simpa [hpage, hnext, hmore, bind, Except.bind] using h'
                      obtain ⟨last, hlast, hfetch, hnone⟩ := ih hrest hmore
                      exact ⟨last, List.mem_cons_of_mem _ hlast, hfetch, hnone⟩

theorem follow_eq_ok {At : Option C → List α → Prop} {items : π → List α}
    {Good : π → Prop} (hfetch : ∀ c xs, At c xs →
      ∃ page, fetch c = .ok page ∧ Fetched At next items xs page ∧ Good page) :
    ∀ {n : ℕ} {c : Option C} {xs : List α}, At c xs → xs.length < n →
      ∃ pages, follow fetch next n c = .ok pages ∧
        pages.flatMap items = xs ∧ ∀ page ∈ pages, Good page
  | 0, _, _, _, hn => absurd hn (Nat.not_lt_zero _)
  | n + 1, c, xs, hat, hn => by
      obtain ⟨page, hpage, hfetched, hgood⟩ := hfetch c xs hat
      cases hnext : next page with
      | none =>
          refine ⟨[page], ?_, ?_, ?_⟩
          · simp [follow, hpage, hnext, bind, Except.bind]
          · simpa using hfetched.last hnext
          · simpa using hgood
      | some c' =>
          obtain ⟨hne, rest, rfl, hrest⟩ := hfetched.more c' hnext
          have hpos := List.length_pos_iff.mpr hne
          rw [List.length_append] at hn
          obtain ⟨pages, hpages, hitems, hall⟩ :=
            follow_eq_ok hfetch (n := n) hrest (by omega)
          refine ⟨page :: pages, ?_, ?_, ?_⟩
          · simp [follow, hpage, hnext, hpages, bind, Except.bind]
          · rw [List.flatMap_cons, hitems]
          · simpa using ⟨hgood, hall⟩

end Follow

section Direction

variable {α : Type*}

/-- An order read forwards, or backwards. -/
def inDirection (descending : Bool) (r : α → α → Prop) (a b : α) : Prop :=
  if descending then r b a else r a b

variable {r : α → α → Prop} {descending : Bool}

instance [DecidableRel r] : DecidableRel (inDirection descending r) :=
  fun a b => inferInstanceAs
    (Decidable (if descending then r b a else r a b))

instance [Std.Total r] : Std.Total (inDirection descending r) where
  total a b := by
    cases descending with
    | true => exact total_of r b a
    | false => exact total_of r a b

instance [IsTrans α r] : IsTrans α (inDirection descending r) where
  trans a b c hab hbc := by
    cases descending with
    | true => exact IsTrans.trans (r := r) c b a hbc hab
    | false => exact IsTrans.trans (r := r) a b c hab hbc

theorem Separates.inDirection {rows : List α} (h : Separates r rows) :
    Separates (inDirection descending r) rows := by
  intro a ha b hb hab hba
  cases descending with
  | true => exact h a ha b hb hba hab
  | false => exact h a ha b hb hab hba

end Direction

section Cursors

variable {α π C : Type*} {cursorOf : α → C}

/-- A cursor stands after a row of the whole list and before the rows that
follow it; no cursor stands before the whole list. -/
def StandsAfter (cursorOf : α → C) (all : List α) :
    Option C → List α → Prop
  | none, xs => all = xs
  | some c, xs => ∃ before last, all = before ++ last :: xs ∧
      c = cursorOf last

/-- The cursor of a page of at most `limit` of the rows. -/
def cursorAfter (cursorOf : α → C) (limit : ℕ) (xs : List α) : Option C :=
  if limit < xs.length then (xs.take limit).getLast?.map cursorOf else none

theorem StandsAfter.isSuffix {all xs : List α} {c : Option C}
    (h : StandsAfter cursorOf all c xs) : xs <:+ all := by
  cases c with
  | none => exact ⟨[], (show all = xs from h).symm⟩
  | some c =>
      obtain ⟨before, last, rfl, -⟩ := h
      exact ⟨before ++ [last], by rw [List.append_assoc]; rfl⟩

theorem standsAfter_getLast {all done rest rows : List α} (hne : rows ≠ [])
    (h : all = done ++ (rows ++ rest)) :
    StandsAfter cursorOf all (some (cursorOf (rows.getLast hne))) rest := by
  refine ⟨done ++ rows.dropLast, rows.getLast hne, ?_, rfl⟩
  calc all = done ++ (rows ++ rest) := h
    _ = done ++ (rows.dropLast ++ [rows.getLast hne] ++ rest) := by
        rw [List.dropLast_append_getLast hne]
    _ = done ++ rows.dropLast ++ rows.getLast hne :: rest := by simp

theorem StandsAfter.of_cursorAfter {all xs : List α} {c : Option C} {limit : ℕ}
    {next : C} (h : StandsAfter cursorOf all c xs)
    (hnext : cursorAfter cursorOf limit xs = some next) :
    limit < xs.length ∧ xs.take limit ≠ [] ∧
      StandsAfter cursorOf all (some next) (xs.drop limit) := by
  rw [cursorAfter, Option.ite_none_right_eq_some,
    Option.map_eq_some_iff] at hnext
  obtain ⟨hlt, last, hlast, rfl⟩ := hnext
  obtain ⟨before, hbefore⟩ := h.isSuffix
  obtain ⟨init, hinit⟩ := List.getLast?_eq_some_iff.mp hlast
  refine ⟨hlt, ?_, before ++ init, last, ?_, rfl⟩
  · rw [hinit]
    exact List.append_ne_nil_of_right_ne_nil _ (List.cons_ne_nil _ _)
  · calc all = before ++ (xs.take limit ++ xs.drop limit) := by
          rw [List.take_append_drop, hbefore]
      _ = before ++ init ++ last :: xs.drop limit := by
          rw [hinit, List.append_assoc, List.append_assoc]
          rfl

theorem cursorAfter_eq_none_iff {limit : ℕ} {xs : List α} (hpos : 0 < limit) :
    cursorAfter cursorOf limit xs = none ↔ xs.length ≤ limit := by
  rw [cursorAfter]
  split
  · rename_i hlt
    have hne : xs.take limit ≠ [] := by
      rw [Ne, List.take_eq_nil_iff]
      rintro (hzero | rfl)
      · omega
      · simp at hlt
    simp [hne, hlt]
  · rename_i hle
    simpa using hle

/-- A page of the first rows after a cursor, with the cursor of its last row
when there are more. -/
theorem fetched_of_take {all xs : List α} {c : Option C} {limit : ℕ}
    {next : π → Option C} {items : π → List α} {page : π} (hpos : 0 < limit)
    (h : StandsAfter cursorOf all c xs) (hitems : items page = xs.take limit)
    (hnext : next page = cursorAfter cursorOf limit xs) :
    Fetched (StandsAfter cursorOf all) next items xs page := by
  constructor
  · intro hnone
    rw [hitems]
    exact List.take_of_length_le
      ((cursorAfter_eq_none_iff hpos).mp (hnext ▸ hnone))
  · intro c' hsome
    obtain ⟨-, hne, hrest⟩ := h.of_cursorAfter (hnext ▸ hsome)
    rw [hitems]
    exact ⟨hne, xs.drop limit, (List.take_append_drop _ _).symm, hrest⟩

end Cursors

end ApexForensic.Support
