/-
Serial numbers: counters modulo m, compared by the shorter way round.

`ahead m a b` is how far one has to count up from a to reach b, wrapping. The serial order `Before m a b` says that from b one
reaches a only after half the circle or more. On the whole circle it is no order (three numbers can go round), but on the
numbers less than half the circle ahead of one origin it is the order of their distances from that origin.

- `before_iff`: that statement.
- `Recent.eq_of_mod_eq`: the last m counts have different numbers.
- `Tickets.issue` / `Tickets.spend`: counts that several holders take, keep for a while and hand in stay different.
- `Newest.snoc`: among such numbers the running maximum in serial order is the newest of all that came.
-/
import Mathlib.Tactic

namespace Lib.Serial

variable {m : ℕ}

/-- the distance from `a` up to `b` -/
def ahead (m a b : ℕ) : ℕ := (((b : ℤ) - a) % m).toNat

/-- `a` comes before `b` -/
def Before (m a b : ℕ) : Prop := m ≤ 2 * ahead m b a

instance (m a b : ℕ) : Decidable (Before m a b) := inferInstanceAs (Decidable (_ ≤ _))

/-- less than half the circle ahead of `o` -/
def Within (m o a : ℕ) : Prop := 2 * ahead m o a < m

theorem ahead_eq (hm : 0 < m) (a b : ℕ) : (ahead m a b : ℤ) = ((b : ℤ) - a) % m :=
  Int.toNat_of_nonneg (Int.emod_nonneg _ (by omega))

theorem ahead_self (m a : ℕ) : ahead m a a = 0 := by simp [ahead]

theorem ahead_add {o i : ℕ} (h : i < m) : ahead m o ((o + i) % m) = i := by
  apply Int.ofNat_inj.1
  calc (ahead m o ((o + i) % m) : ℤ) = (((o + i) % m : ℕ) - (o : ℤ)) % m := ahead_eq (by omega) _ _
    _ = (((o + i : ℕ) : ℤ) - o) % m := by rw [Int.natCast_emod, Int.emod_sub_emod]
    _ = (i : ℤ) % m := by congr 1; push_cast; ring
    _ = i := Int.emod_eq_of_lt (Int.natCast_nonneg i) (by omega)

/-- distances measured from a third number -/
theorem ahead_from (hm : 0 < m) (o a b : ℕ) : (ahead m a b : ℤ) = ((ahead m o b : ℤ) - ahead m o a) % m := by
  calc (ahead m a b : ℤ) = ((b : ℤ) - a) % m := ahead_eq hm a b
    _ = (((b : ℤ) - o) - ((a : ℤ) - o)) % m := by congr 1; ring
    _ = (((b : ℤ) - o) % m - ((a : ℤ) - o) % m) % m := Int.sub_emod _ _ _
    _ = ((ahead m o b : ℤ) - ahead m o a) % m := by rw [← ahead_eq hm, ← ahead_eq hm]

theorem before_iff {o a b : ℕ} (ha : Within m o a) (hb : Within m o b) :
    Before m a b ↔ ahead m o a < ahead m o b := by
  unfold Within at ha hb
  have hm : 0 < m := by omega
  have hfrom := ahead_from hm o b a
  unfold Before
  by_cases hlt : ahead m o a < ahead m o b
  · have hwrap : (ahead m b a : ℤ) = (ahead m o a : ℤ) - ahead m o b + m := by
      rw [hfrom, ← Int.add_emod_right]
      exact Int.emod_eq_of_lt (by omega) (by omega)
    exact iff_of_true (by omega) hlt
  · have hflat : (ahead m b a : ℤ) = (ahead m o a : ℤ) - ahead m o b := by
      rw [hfrom]
      exact Int.emod_eq_of_lt (by omega) (by omega)
    exact iff_of_false (by omega) hlt

/-! ## Counts that are never reduced -/

/-- one of the last `m` counts before `n` -/
def Recent (m n a : ℕ) : Prop := a < n ∧ n ≤ a + m

theorem Recent.eq_of_mod_eq {n a b : ℕ} (ha : Recent m n a) (hb : Recent m n b) (h : a % m = b % m) : a = b := by
  wlog hle : a ≤ b generalizing a b
  · exact (this hb ha h.symm (Nat.le_of_not_le hle)).symm
  have hdvd : m ∣ b - a := (Nat.modEq_iff_dvd' hle).1 h
  have hlt : b - a < m := by
    obtain ⟨-, hfrom⟩ := ha
    obtain ⟨hbelow, -⟩ := hb
    omega
  have hzero := Nat.eq_zero_of_dvd_of_lt hdvd hlt
  omega

/-- the counts that are held: each was issued, none is spent, and no two holders have the same -/
structure Tickets {ι : Type} (holds : ι → Prop) (number : ι → ℕ) (issued : ℕ) (spent : List ℕ) : Prop where
  below : ∀ i, holds i → number i < issued
  new : ∀ i, holds i → number i ∉ spent
  apart : ∀ i j, i ≠ j → holds i → holds j → number i ≠ number j

section

variable {ι : Type} {holds holds' : ι → Prop} {number : ι → ℕ} {issued : ℕ} {spent spent' : List ℕ}

/-- some are given up, and some of the spent ones forgotten -/
theorem Tickets.mono (h : Tickets holds number issued spent) (hholds : ∀ i, holds' i → holds i) (hspent : spent' ⊆ spent) :
    Tickets holds' number issued spent' where
  below i hi := h.below i (hholds i hi)
  new i hi hmem := h.new i (hholds i hi) (hspent hmem)
  apart i j hne hi hj := h.apart i j hne (hholds i hi) (hholds j hj)

/-- the next count is above all the others -/
theorem Tickets.issue [DecidableEq ι] (h : Tickets holds number issued spent) (hspent : ∀ k ∈ spent, k < issued) (i : ι)
    (hholds : ∀ j, j ≠ i → holds' j → holds j) :
    Tickets holds' (Function.update number i issued) (issued + 1) spent := by
  have hupdate : ∀ j, holds' j → (j = i ∧ Function.update number i issued j = issued) ∨
      (holds j ∧ Function.update number i issued j = number j) := by
    intro j hj
    by_cases hji : j = i
    · exact .inl ⟨hji, by rw [hji, Function.update_self]⟩
    · exact .inr ⟨hholds j hji hj, Function.update_of_ne hji _ _⟩
  constructor
  · intro j hj
    rcases hupdate j hj with ⟨-, heq⟩ | ⟨hold, heq⟩
    · rw [heq]
      exact Nat.lt_succ_self issued
    · rw [heq]
      exact (h.below j hold).trans (Nat.lt_succ_self issued)
  · intro j hj hmem
    rcases hupdate j hj with ⟨-, heq⟩ | ⟨hold, heq⟩
    · rw [heq] at hmem
      exact lt_irrefl issued (hspent issued hmem)
    · rw [heq] at hmem
      exact h.new j hold hmem
  · intro j k hne hj hk
    rcases hupdate j hj with ⟨hji, heq⟩ | ⟨hold, heq⟩
    · rcases hupdate k hk with ⟨hki, -⟩ | ⟨hold', heq'⟩
      · exact absurd (hji.trans hki.symm) hne
      · rw [heq, heq']
        exact (h.below k hold').ne'
    · rcases hupdate k hk with ⟨-, heq'⟩ | ⟨hold', heq'⟩
      · rw [heq, heq']
        exact (h.below j hold).ne
      · rw [heq, heq']
        exact h.apart j k hne hold hold'

/-- one holder hands in its count -/
theorem Tickets.spend (h : Tickets holds number issued spent) {i : ι} (hi : holds i)
    (hholds : ∀ j, holds' j → j ≠ i ∧ holds j) : Tickets holds' number issued (spent ++ [number i]) where
  below j hj := h.below j (hholds j hj).2
  new j hj hmem := by
    obtain ⟨hne, hold⟩ := hholds j hj
    rcases List.mem_append.1 hmem with hmem | hmem
    · exact h.new j hold hmem
    · exact h.apart j i hne hold hi (List.mem_singleton.1 hmem)
  apart j k hne hj hk := h.apart j k hne (hholds j hj).2 (hholds k hk).2

end

/-! ## The newest of a list -/

/-- `x` is in the list and no member comes after it -/
structure Newest (m : ℕ) (l : List ℕ) (x : ℕ) : Prop where
  mem : x ∈ l
  last : ∀ a ∈ l, ¬ Before m x a

theorem newest_singleton (hm : 0 < m) (x : ℕ) : Newest m [x] x where
  mem := List.mem_singleton_self x
  last := by
    intro a ha
    rw [List.mem_singleton.1 ha, Before, ahead_self]
    omega

/-- one more number: it replaces the newest one if it comes after it -/
theorem Newest.snoc {o x b : ℕ} {l : List ℕ} (h : Newest m l x) (hl : ∀ a ∈ l, Within m o a) (hb : Within m o b) :
    Newest m (l ++ [b]) (if Before m x b then b else x) := by
  have hx := hl x h.mem
  split_ifs with hnew
  · refine ⟨List.mem_append_right l (List.mem_singleton_self b), ?_⟩
    intro a ha
    rcases List.mem_append.1 ha with ha | ha
    · have hax := h.last a ha
      rw [before_iff hx (hl a ha)] at hax
      rw [before_iff hx hb] at hnew
      rw [before_iff hb (hl a ha)]
      omega
    · rw [List.mem_singleton.1 ha, before_iff hb hb]
      exact lt_irrefl _
  · refine ⟨List.mem_append_left [b] h.mem, ?_⟩
    intro a ha
    rcases List.mem_append.1 ha with ha | ha
    · exact h.last a ha
    · rw [List.mem_singleton.1 ha]
      exact hnew

end Lib.Serial
