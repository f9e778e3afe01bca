import Mathlib.Data.List.Infix
import Mathlib.Data.Set.Function

/-!
# Hash-linked chains

A chain is a list of entries, each a content with the hash recorded for it.
An entry is linked when its content claims its place and the hash of the
entry before it, and when the recorded hash is the digest of the content.
The main result says that a linked chain made of recorded hashes that occur
in a family of linked chains is a prefix of one of them, as long as the digest
does not collide on the contents involved.
-/

namespace ApexForensic.Support

/-- What a content claims about its place and its predecessor.  Both claims
are functional: a content names at most one place and one predecessor. -/
structure ChainClaims (γ η : Type*) where
  placed : γ → ℕ → Prop
  follows : γ → Option η → Prop
  digest : γ → η
  placed_unique : ∀ {c m n}, placed c m → placed c n → m = n
  follows_unique : ∀ {c p q}, follows c p → follows c q → p = q

namespace ChainClaims

variable {γ η : Type*} (C : ChainClaims γ η)

/-- The entries link up, starting at place `n` after the hash `p`. -/
def Linked : ℕ → Option η → List (γ × η) → Prop
  | _, _, [] => True
  | n, p, (c, h) :: rest =>
      C.placed c n ∧ C.follows c p ∧ C.digest c = h ∧
        Linked (n + 1) (some h) rest

/-- The hash the next entry has to name after these entries. -/
def headHash (p : Option η) (entries : List (γ × η)) : Option η :=
  (entries.getLast?.map Prod.snd).or p

@[simp] theorem headHash_nil (p : Option η) :
    headHash p ([] : List (γ × η)) = p := rfl

theorem headHash_cons (p : Option η) (x : γ × η) (rest : List (γ × η)) :
    headHash p (x :: rest) = headHash (some x.2) rest := by
  cases rest with
  | nil => rfl
  | cons y rest => simp [headHash, List.getLast?_cons]

@[simp] theorem headHash_concat (p : Option η) (entries : List (γ × η))
    (x : γ × η) : headHash p (entries ++ [x]) = some x.2 := by
  simp [headHash]

variable {C}

theorem linked_append {n : ℕ} {p : Option η} {xs ys : List (γ × η)} :
    C.Linked n p (xs ++ ys) ↔
      C.Linked n p xs ∧ C.Linked (n + xs.length) (headHash p xs) ys := by
  induction xs generalizing n p with
  | nil => simp [Linked]
  | cons x xs ih =>
      obtain ⟨c, h⟩ := x
      simp only [List.cons_append, Linked, ih, headHash_cons, and_assoc,
        List.length_cons]
      rw [Nat.add_right_comm n 1, Nat.add_assoc n]

theorem linked_concat {n : ℕ} {p : Option η} {xs : List (γ × η)}
    {c : γ} {h : η} :
    C.Linked n p (xs ++ [(c, h)]) ↔
      C.Linked n p xs ∧ C.placed c (n + xs.length) ∧
        C.follows c (headHash p xs) ∧ C.digest c = h := by
  rw [linked_append]
  simp [Linked]

theorem Linked.entry {n : ℕ} {p : Option η} {xs ys : List (γ × η)}
    {c : γ} {h : η} (hlinked : C.Linked n p (xs ++ (c, h) :: ys)) :
    C.placed c (n + xs.length) ∧ C.follows c (headHash p xs) ∧
      C.digest c = h := by
  obtain ⟨-, hplaced, hfollows, hdigest, -⟩ := linked_append.mp hlinked
  exact ⟨hplaced, hfollows, hdigest⟩

theorem Linked.digest_eq {n : ℕ} {p : Option η} {entries : List (γ × η)}
    (hlinked : C.Linked n p entries) {x : γ × η} (hx : x ∈ entries) :
    C.digest x.1 = x.2 := by
  obtain ⟨xs, ys, rfl⟩ := List.append_of_mem hx
  exact hlinked.entry.2.2

theorem Linked.of_initial {n : ℕ} {p : Option η} {xs ys : List (γ × η)}
    (hlinked : C.Linked n p ys) (hinit : xs <+: ys) :
    C.Linked n p xs := by
  obtain ⟨zs, rfl⟩ := hinit
  exact (linked_append.mp hlinked).1

/-! ## Chains made of recorded hashes -/

section Recorded

variable {ι : Type*} {written : ι → List (γ × η)}
  {owner : γ → Option ι} {contents : Set γ}

theorem entry_of_mem
    (hlinked : ∀ i, C.Linked 1 none (written i))
    {i : ι} {x : γ × η} (hx : x ∈ written i) {n : ℕ}
    (hplaced : C.placed x.1 (n + 1)) :
    ∃ before after, written i = before ++ x :: after ∧ before.length = n := by
  obtain ⟨before, after, heq⟩ := List.append_of_mem hx
  have hentry : C.Linked 1 none (before ++ (x.1, x.2) :: after) := by
    rw [← heq]
    exact hlinked i
  have hplace := C.placed_unique hentry.entry.1 hplaced
  exact ⟨before, after, heq, by omega⟩

/-- A linked chain whose recorded hashes all occur in the family is a prefix
of one chain of the family. -/
theorem Linked.initial_of_recorded
    (hwritten : ∀ i, C.Linked 1 none (written i))
    (howner : ∀ i, ∀ x ∈ written i, owner x.1 = some i)
    (hcollision : Set.InjOn C.digest contents)
    (hcontents : ∀ i, ∀ x ∈ written i, x.1 ∈ contents)
    {stored : List (γ × η)} (hstored : C.Linked 1 none stored)
    (hstoredContents : ∀ x ∈ stored, x.1 ∈ contents)
    (hrecorded : ∀ x ∈ stored, ∃ i, ∃ y ∈ written i, y.2 = x.2)
    (hne : stored ≠ []) :
    ∃ i, stored <+: written i := by
  have hmem : ∀ x ∈ stored, ∃ i, x ∈ written i := by
    intro x hx
    obtain ⟨i, y, hy, hhash⟩ := hrecorded x hx
    have hdigest : C.digest y.1 = C.digest x.1 := by
      rw [(hwritten i).digest_eq hy, hstored.digest_eq hx, hhash]
    have hcontent : y.1 = x.1 :=
      hcollision (hcontents i y hy) (hstoredContents x hx) hdigest
    exact ⟨i, by rwa [← Prod.ext hcontent hhash]⟩
  clear hrecorded hstoredContents
  induction stored using List.reverseRecOn with
  | nil => exact (hne rfl).elim
  | append_singleton xs x ih =>
      obtain ⟨c, h⟩ := x
      obtain ⟨hxs, hplaced, hfollows, -⟩ := linked_concat.mp hstored
      obtain ⟨i, hi⟩ := hmem (c, h) (by simp)
      obtain ⟨before, after, heq, hlength⟩ :=
        entry_of_mem hwritten hi (n := xs.length) (by rwa [Nat.add_comm])
      have hentry : C.Linked 1 none (before ++ (c, h) :: after) := by
        rw [← heq]
        exact hwritten i
      have hhead : headHash none before = headHash none xs :=
        C.follows_unique hentry.entry.2.1 hfollows
      rcases xs.eq_nil_or_concat' with rfl | ⟨zs, z, rfl⟩
      · obtain rfl := List.length_eq_zero_iff.mp hlength
        exact ⟨i, after, heq.symm⟩
      · obtain ⟨j, hj⟩ := ih hxs (by simp)
          (fun y hy => hmem y (List.mem_append_left _ hy))
        have hz : z ∈ written j := hj.subset (by simp)
        rcases before.eq_nil_or_concat' with rfl | ⟨bs, b, rfl⟩
        · simp at hlength
        · have hb : b ∈ written i := by simp [heq]
          have hhash : b.2 = z.2 := by simpa using hhead
          have hcontent : b.1 = z.1 := by
            apply hcollision (hcontents i b hb) (hcontents j z hz)
            rw [(hwritten i).digest_eq hb, (hwritten j).digest_eq hz, hhash]
          -- the shared predecessor pins the owner, so both lie in one chain
          have hij : i = j := by
            have howners := howner i b hb
            rw [hcontent, howner j z hz] at howners
            exact (Option.some.inj howners).symm
          subst hij
          obtain ⟨rest, hrest⟩ := hj
          have hbefore : bs ++ [b] = zs ++ [z] :=
            (List.append_inj (heq.symm.trans hrest.symm) hlength).1
          refine ⟨i, after, ?_⟩
          rw [heq, hbefore]
          simp

end Recorded

end ChainClaims

end ApexForensic.Support
