/-
Finite sets of natural numbers as lists of closed intervals.

A list of intervals (lo, hi) is canonical when every interval is nonempty and consecutive ones leave at least one
missing number between them: the maximal runs of the set it covers, in increasing order.

- `Canonical.eq_of_covers`: canonical lists that cover the same numbers are equal.
- `canonical_block`: an interval placed between two canonical lists, with a gap on either side, is canonical.
- `Canonical.sum_sizes`: the sizes of the intervals add up to the size of the set.
-/
import Mathlib.Tactic
import Mathlib.Order.Interval.Finset.Nat

namespace Lib.Intervals

/-- `x` lies in one of the intervals -/
def Covers (l : List (ℕ × ℕ)) (x : ℕ) : Prop := ∃ r ∈ l, r.1 ≤ x ∧ x ≤ r.2

@[simp] theorem not_covers_nil (x : ℕ) : ¬ Covers [] x := by simp [Covers]

@[simp] theorem covers_cons (r : ℕ × ℕ) (l : List (ℕ × ℕ)) (x : ℕ) :
    Covers (r :: l) x ↔ (r.1 ≤ x ∧ x ≤ r.2) ∨ Covers l x := by
  simp [Covers]

theorem covers_append (a b : List (ℕ × ℕ)) (x : ℕ) : Covers (a ++ b) x ↔ Covers a x ∨ Covers b x := by
  induction a with
  | nil => simp
  | cons r a ih => simp only [List.cons_append, covers_cons, ih, or_assoc]

/-- maximal runs in increasing order -/
structure Canonical (l : List (ℕ × ℕ)) : Prop where
  nonempty : ∀ r ∈ l, r.1 ≤ r.2
  gaps : l.Pairwise fun a b => a.2 + 1 < b.1

theorem canonical_nil : Canonical [] := ⟨by simp, List.Pairwise.nil⟩

theorem Canonical.tail {r : ℕ × ℕ} {l : List (ℕ × ℕ)} (h : Canonical (r :: l)) : Canonical l :=
  ⟨fun q hq => h.nonempty q (List.mem_cons_of_mem r hq), (List.pairwise_cons.1 h.gaps).2⟩

/-- everything the rest of a canonical list covers lies past a gap -/
theorem Canonical.lt_of_covers {r : ℕ × ℕ} {l : List (ℕ × ℕ)} (h : Canonical (r :: l)) {x : ℕ} (hx : Covers l x) :
    r.2 + 1 < x := by
  obtain ⟨q, hq, h1, -⟩ := hx
  have := (List.pairwise_cons.1 h.gaps).1 q hq
  omega

/-- the first interval of a canonical list starts no later than that of a list covering less -/
theorem Canonical.head_le {p q : ℕ × ℕ} {a b : List (ℕ × ℕ)} (ha : Canonical (p :: a)) (hb : Canonical (q :: b))
    (h : ∀ x, Covers (q :: b) x → Covers (p :: a) x) : p.1 ≤ q.1 := by
  have hq := hb.nonempty q List.mem_cons_self
  have hp := ha.nonempty p List.mem_cons_self
  rcases (covers_cons p a q.1).1 (h q.1 (by simp [hq])) with h1 | h1
  · exact h1.1
  · have := ha.lt_of_covers h1; omega

/-- with equal starts, the first interval of the list covering less ends no later -/
theorem Canonical.last_le {p q : ℕ × ℕ} {a b : List (ℕ × ℕ)} (ha : Canonical (p :: a))
    (h : ∀ x, Covers (q :: b) x → Covers (p :: a) x) (hlo : p.1 = q.1) : q.2 ≤ p.2 := by
  have hp := ha.nonempty p List.mem_cons_self
  by_contra hlt
  -- the number just past the end of p is covered by q, so it would have to be covered past p's gap
  have hx : Covers (q :: b) (p.2 + 1) := by simp only [covers_cons]; left; omega
  rcases (covers_cons p a _).1 (h _ hx) with h1 | h1
  · omega
  · have := ha.lt_of_covers h1; omega

/-- **Uniqueness.** A set has one canonical list. -/
theorem Canonical.eq_of_covers {a b : List (ℕ × ℕ)} (ha : Canonical a) (hb : Canonical b)
    (h : ∀ x, Covers a x ↔ Covers b x) : a = b := by
  induction a generalizing b with
  | nil =>
    cases b with
    | nil => rfl
    | cons q b =>
      have hq := hb.nonempty q List.mem_cons_self
      exact absurd ((h q.1).2 (by simp [hq])) (not_covers_nil _)
  | cons p a ih =>
    cases b with
    | nil =>
      have hp := ha.nonempty p List.mem_cons_self
      exact absurd ((h p.1).1 (by simp [hp])) (not_covers_nil _)
    | cons q b =>
      have hlo : p.1 = q.1 := le_antisymm (ha.head_le hb fun x => (h x).2) (hb.head_le ha fun x => (h x).1)
      have hhi : p.2 = q.2 :=
        le_antisymm (hb.last_le (fun x => (h x).1) hlo.symm) (ha.last_le (fun x => (h x).2) hlo)
      have hpq : p = q := Prod.ext hlo hhi
      subst hpq
      congr 1
      refine ih ha.tail hb.tail fun x => ⟨?_, ?_⟩
      · intro hx
        rcases (covers_cons p b x).1 ((h x).1 ((covers_cons p a x).2 (Or.inr hx))) with h1 | h1
        · have := ha.lt_of_covers hx; omega
        · exact h1
      · intro hx
        rcases (covers_cons p a x).1 ((h x).2 ((covers_cons p b x).2 (Or.inr hx))) with h1 | h1
        · have := hb.lt_of_covers hx; omega
        · exact h1

theorem Canonical.append_left {a b : List (ℕ × ℕ)} (h : Canonical (a ++ b)) : Canonical a :=
  ⟨fun r hr => h.nonempty r (List.mem_append_left b hr), (List.pairwise_append.1 h.gaps).1⟩

theorem Canonical.append_right {a b : List (ℕ × ℕ)} (h : Canonical (a ++ b)) : Canonical b :=
  ⟨fun r hr => h.nonempty r (List.mem_append_right a hr), (List.pairwise_append.1 h.gaps).2.1⟩

/-- a block between two canonical lists, with a gap on either side -/
theorem canonical_block {a b : List (ℕ × ℕ)} {lo hi : ℕ} (ha : Canonical a) (hb : Canonical b) (h : lo ≤ hi)
    (hlo : ∀ r ∈ a, r.2 + 1 < lo) (hhi : ∀ r ∈ b, hi + 1 < r.1) : Canonical (a ++ (lo, hi) :: b) where
  nonempty := by
    intro r hr
    rcases List.mem_append.1 hr with hr | hr
    · exact ha.nonempty r hr
    · rcases List.mem_cons.1 hr with rfl | hr
      · exact h
      · exact hb.nonempty r hr
  gaps := by
    refine List.pairwise_append.2 ⟨ha.gaps, List.pairwise_cons.2 ⟨hhi, hb.gaps⟩, ?_⟩
    intro x hx y hy
    have hx' := hlo x hx
    rcases List.mem_cons.1 hy with rfl | hy
    · exact hx'
    · have := hhi y hy; omega

/-- the set a list of intervals covers -/
def toFinset : List (ℕ × ℕ) → Finset ℕ
  | [] => ∅
  | r :: l => Finset.Icc r.1 r.2 ∪ toFinset l

theorem mem_toFinset {l : List (ℕ × ℕ)} {x : ℕ} : x ∈ toFinset l ↔ Covers l x := by
  induction l with
  | nil => simp [toFinset]
  | cons r l ih => simp [toFinset, ih]

/-- **Sizes add up.** -/
theorem Canonical.sum_sizes {l : List (ℕ × ℕ)} (h : Canonical l) :
    (l.map fun r => r.2 - r.1 + 1).sum = (toFinset l).card := by
  induction l with
  | nil => rfl
  | cons r l ih =>
    have hdisj : Disjoint (Finset.Icc r.1 r.2) (toFinset l) := by
      rw [Finset.disjoint_left]
      intro x hx hx'
      have := h.lt_of_covers (mem_toFinset.1 hx')
      rw [Finset.mem_Icc] at hx
      omega
    have := h.nonempty r List.mem_cons_self
    rw [toFinset, Finset.card_union_of_disjoint hdisj, List.map_cons, List.sum_cons, ih h.tail, Nat.card_Icc]
    omega

end Lib.Intervals
