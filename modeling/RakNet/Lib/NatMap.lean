/-
Ordered maps keyed by natural numbers, over `Std.ExtTreeMap`: lookups after updates said with `=` on the keys, removal of
a list of keys, and replacement of the entries of a list.

- `getElem?_eraseAll`: removing a list of keys removes exactly those.
- `size_eraseAll`, `size_of_removed`: the size after a removal.
- `getElem?_insertAll_of_mem`, `size_insertAll`: replacing the entries of a list keeps all others, and the size.
- `sorted_toList`: the entries come out in increasing order of their keys.
- `filter_values`: entries selected by their keys come out in the order of the keys.
- `values_of_positions`: a map keyed by the positions of a list reads back as that list.
- `size_lt_of_missing`: a map that lacks a position has fewer entries than there are positions.
- `total_insert`, `total_erase`: a sum over the values of a map, after an insertion and a removal.
-/
import Mathlib.Tactic
import Std.Data.ExtTreeMap

namespace Lib

abbrev NatMap (β : Type) := Std.ExtTreeMap ℕ β compare

namespace NatMap

variable {β : Type}

@[simp] theorem get?_insert (m : NatMap β) (k a : ℕ) (v : β) :
    (m.insert k v)[a]? = if k = a then some v else m[a]? := by
  simp only [Std.ExtTreeMap.getElem?_insert, Std.LawfulEqCmp.compare_eq_iff_eq]

/-- what holds of the new entry and of all old ones -/
theorem forall_insert {m : NatMap β} {k : ℕ} {v : β} {P : ℕ → β → Prop} (hk : P k v)
    (h : ∀ (a : ℕ) w, m[a]? = some w → P a w) : ∀ (a : ℕ) w, (m.insert k v)[a]? = some w → P a w := by
  intro a w ha
  rw [get?_insert] at ha
  split_ifs at ha with hka
  · cases ha
    rw [← hka]
    exact hk
  · exact h a w ha

@[simp] theorem get?_erase (m : NatMap β) (k a : ℕ) : (m.erase k)[a]? = if k = a then none else m[a]? := by
  simp only [Std.ExtTreeMap.getElem?_erase, Std.LawfulEqCmp.compare_eq_iff_eq]

@[simp] theorem get?_empty (a : ℕ) : (∅ : NatMap β)[a]? = none := by simp

theorem contains_eq (m : NatMap β) (k : ℕ) : m.contains k = m[k]?.isSome := by
  rw [Std.ExtTreeMap.contains_eq_isSome_getElem?]

theorem size_insert_of_none {m : NatMap β} {k : ℕ} (v : β) (h : m[k]? = none) : (m.insert k v).size = m.size + 1 := by
  rw [Std.ExtTreeMap.size_insert, contains_eq, h]
  rfl

theorem size_erase_of_some {m : NatMap β} {k : ℕ} {w : β} (h : m[k]? = some w) : (m.erase k).size + 1 = m.size := by
  have hpos : m.size ≠ 0 := by
    intro h0
    have hm : k ∈ m := Std.ExtTreeMap.mem_iff_isSome_getElem?.2 (by rw [h]; rfl)
    have he : m = ∅ := Std.ExtTreeMap.eq_empty_iff_size_eq_zero.2 h0
    rw [he] at hm
    exact absurd hm Std.ExtTreeMap.not_mem_empty
  rw [Std.ExtTreeMap.size_erase, contains_eq, h]
  simp only [Option.isSome_some, if_true]
  exact Nat.succ_pred hpos

/-- remove a list of keys -/
def eraseAll (m : NatMap β) (ks : List ℕ) : NatMap β := ks.foldl (·.erase ·) m

theorem getElem?_eraseAll (m : NatMap β) (ks : List ℕ) (a : ℕ) :
    (m.eraseAll ks)[a]? = if a ∈ ks then none else m[a]? := by
  induction ks generalizing m with
  | nil => simp [eraseAll]
  | cons k ks ih =>
    have := ih (m.erase k)
    rw [eraseAll] at this ⊢
    rw [List.foldl_cons, this, get?_erase]
    by_cases h1 : a ∈ ks
    · simp [h1]
    · by_cases h2 : k = a
      · simp [h2]
      · simp [h1, h2, Ne.symm h2]

/-- distinct keys of the map leave it smaller by their number -/
theorem size_eraseAll {m : NatMap β} {ks : List ℕ} (hd : ks.Nodup) (hks : ∀ k ∈ ks, ∃ v, m[k]? = some v) :
    (m.eraseAll ks).size + ks.length = m.size := by
  induction ks generalizing m with
  | nil => rfl
  | cons k ks ih =>
    obtain ⟨hk, hd'⟩ := List.nodup_cons.1 hd
    obtain ⟨v, hv⟩ := hks k List.mem_cons_self
    have hrest : ∀ k' ∈ ks, ∃ w, (m.erase k)[k']? = some w := by
      intro k' hk'
      have hne : k ≠ k' := fun h => hk (h ▸ hk')
      rw [get?_erase, if_neg hne]
      exact hks k' (List.mem_cons_of_mem k hk')
    have hstep : m.eraseAll (k :: ks) = eraseAll (m.erase k) ks := rfl
    have hsize := size_erase_of_some hv
    have hlen := ih hd' hrest
    rw [hstep, List.length_cons]
    omega

/-- replace the entries of a list -/
def insertAll (m : NatMap β) (es : List (ℕ × β)) : NatMap β := es.foldl (fun m e => m.insert e.1 e.2) m

theorem getElem?_insertAll_of_not_mem (m : NatMap β) (es : List (ℕ × β)) {a : ℕ} (h : ∀ v, (a, v) ∉ es) :
    (m.insertAll es)[a]? = m[a]? := by
  induction es generalizing m with
  | nil => rfl
  | cons e es ih =>
    have := ih (m.insert e.1 e.2) fun v hv => h v (List.mem_cons_of_mem _ hv)
    rw [insertAll] at this ⊢
    rw [List.foldl_cons, this, get?_insert, if_neg]
    intro he
    exact h e.2 (by rw [← he]; exact List.mem_cons_self)

theorem getElem?_insertAll_of_mem (m : NatMap β) {es : List (ℕ × β)} (hd : (es.map Prod.fst).Nodup) {a : ℕ} {v : β}
    (h : (a, v) ∈ es) : (m.insertAll es)[a]? = some v := by
  induction es generalizing m with
  | nil => cases h
  | cons e es ih =>
    have hnd := List.nodup_cons.1 (by simpa using hd : (e.1 :: es.map Prod.fst).Nodup)
    rcases List.mem_cons.1 h with rfl | h
    · have := getElem?_insertAll_of_not_mem (m.insert a v) es fun w hw => hnd.1 (List.mem_map.2 ⟨(a, w), hw, rfl⟩)
      rw [insertAll] at this ⊢
      rw [List.foldl_cons, this, get?_insert, if_pos rfl]
    · exact ih (m.insert e.1 e.2) hnd.2 h

/-- replacing entries of the map does not change its size -/
theorem size_insertAll {m : NatMap β} {es : List (ℕ × β)} (h : ∀ e ∈ es, ∃ v, m[e.1]? = some v) :
    (m.insertAll es).size = m.size := by
  induction es generalizing m with
  | nil => rfl
  | cons e es ih =>
    obtain ⟨v, hv⟩ := h e List.mem_cons_self
    have hin : m.contains e.1 = true := by rw [contains_eq, hv]; rfl
    have hrest : ∀ e' ∈ es, ∃ w, (m.insert e.1 e.2)[e'.1]? = some w := by
      intro e' he'
      rw [get?_insert]
      split_ifs
      · exact ⟨_, rfl⟩
      · exact h e' (List.mem_cons_of_mem e he')
    have hstep : m.insertAll (e :: es) = insertAll (m.insert e.1 e.2) es := rfl
    rw [hstep, ih hrest, Std.ExtTreeMap.size_insert, if_pos hin]

theorem mem_toList (m : NatMap β) (k : ℕ) (v : β) : (k, v) ∈ m.toList ↔ m[k]? = some v :=
  Std.ExtTreeMap.mem_toList_iff_getElem?_eq_some

/-- entries come out in increasing order of their keys -/
theorem sorted_toList (m : NatMap β) : m.toList.Pairwise fun a b => a.1 < b.1 := by
  refine Std.ExtTreeMap.ordered_keys_toList.imp fun {a b} h => ?_
  exact Nat.compare_eq_lt.1 h

theorem nodup_keys (m : NatMap β) : (m.toList.map Prod.fst).Nodup := by
  refine List.pairwise_map.2 ((sorted_toList m).imp fun {a b} h => ?_)
  exact Nat.ne_of_lt h

/-- lists of entries in increasing order of their keys are equal if they have the same entries -/
theorem eq_of_sorted {l l' : List (ℕ × β)} (hl : l.Pairwise fun a b => a.1 < b.1) (hl' : l'.Pairwise fun a b => a.1 < b.1)
    (h : ∀ e, e ∈ l ↔ e ∈ l') : l = l' := by
  have hirr : ∀ {l : List (ℕ × β)}, (l.Pairwise fun a b => a.1 < b.1) → l.Nodup := fun hl =>
    hl.imp fun hab he => absurd (congrArg Prod.fst he) (Nat.ne_of_lt hab)
  have hperm : l.Perm l' := (List.perm_ext_iff_of_nodup (hirr hl) (hirr hl')).2 h
  exact hperm.eq_of_pairwise (fun a b _ _ hab hba => absurd hab (Nat.lt_asymm hba)) hl hl'

/-- maps with the same entries are equal -/
theorem eq_of_getElem? {m m' : NatMap β} (h : ∀ k : ℕ, m[k]? = m'[k]?) : m = m' :=
  Std.ExtTreeMap.ext_getElem? h

/-- what is left of a map after some keys went, and how many went -/
theorem size_of_removed {m m' : NatMap β} {p : ℕ → Bool} (h : ∀ k : ℕ, m'[k]? = if p k then none else m[k]?) :
    m'.size + (m.toList.filter fun e => p e.1).length = m.size := by
  have hlist : m'.toList = m.toList.filter fun e => !p e.1 := by
    apply eq_of_sorted (sorted_toList m') ((sorted_toList m).filter _)
    rintro ⟨k, v⟩
    rw [mem_toList, List.mem_filter, mem_toList, h]
    cases p k <;> simp
  rw [← Std.ExtTreeMap.length_toList, ← Std.ExtTreeMap.length_toList, hlist, Nat.add_comm]
  exact (List.length_eq_length_filter_add fun e : ℕ × β => p e.1).symm

/-- a map whose keys are the positions of a list reads back as that list -/
theorem toList_of_positions {m : NatMap β} {ps : List β} (h : ∀ k : ℕ, m[k]? = ps[k]?) :
    m.toList = ps.mapIdx fun i d => (i, d) := by
  have hsorted : (ps.mapIdx fun i d => (i, d)).Pairwise fun a b => a.1 < b.1 := by
    rw [List.pairwise_iff_getElem]
    intro i j hi hj hij
    simpa using hij
  apply eq_of_sorted (sorted_toList m) hsorted
  rintro ⟨k, v⟩
  rw [mem_toList, h, List.mem_mapIdx]
  simp [List.getElem?_eq_some_iff]

/-- the entries that are selected by their keys, which are given in increasing order -/
theorem filter_values {m : NatMap β} {select : ℕ × β → Bool} {ks : List ℕ} (hks : ks.Pairwise (· < ·))
    (h : ∀ (k : ℕ) v, m[k]? = some v → (select (k, v) = true ↔ k ∈ ks)) :
    (m.toList.filter select).map Prod.snd = ks.filterMap (m[·]?) := by
  have hsorted : (ks.filterMap fun k => m[k]?.map (k, ·)).Pairwise fun a b => a.1 < b.1 := by
    rw [List.pairwise_filterMap]
    refine hks.imp ?_
    intro a b hab e he e' he'
    obtain ⟨v, -, rfl⟩ := Option.map_eq_some_iff.1 he
    obtain ⟨v', -, rfl⟩ := Option.map_eq_some_iff.1 he'
    exact hab
  have hlist : m.toList.filter select = ks.filterMap fun k => m[k]?.map (k, ·) := by
    apply eq_of_sorted ((sorted_toList m).filter _) hsorted
    rintro ⟨k, v⟩
    rw [List.mem_filter, mem_toList, List.mem_filterMap]
    constructor
    · rintro ⟨hv, hs⟩
      exact ⟨k, (h k v hv).1 hs, by rw [hv, Option.map_some]⟩
    · rintro ⟨k', hk, he⟩
      obtain ⟨v', hv, he⟩ := Option.map_eq_some_iff.1 he
      cases he
      exact ⟨hv, (h k v hv).2 hk⟩
  rw [hlist, List.map_filterMap]
  apply List.filterMap_congr
  intro k _
  rw [Option.map_map]
  exact Option.map_id'

theorem values_of_positions {m : NatMap β} {ps : List β} (h : ∀ k : ℕ, m[k]? = ps[k]?) :
    m.toList.map Prod.snd = ps := by
  rw [toList_of_positions h]
  apply List.ext_getElem?
  simp

theorem size_of_positions {m : NatMap β} {ps : List β} (h : ∀ k : ℕ, m[k]? = ps[k]?) : m.size = ps.length := by
  rw [← Std.ExtTreeMap.length_toList, toList_of_positions h, List.length_mapIdx]

/-- keys below `n`, one of them missing -/
theorem size_lt_of_missing {m : NatMap β} {n j : ℕ} (hj : j < n) (h : ∀ (k : ℕ) v, m[k]? = some v → k < n ∧ k ≠ j) :
    m.size < n := by
  have hsub : m.toList.map Prod.fst ⊆ (List.range n).erase j := by
    intro k hk
    obtain ⟨⟨k', v⟩, hmem, rfl⟩ := List.mem_map.1 hk
    obtain ⟨hlt, hne⟩ := h k' v ((mem_toList m k' v).1 hmem)
    exact (List.mem_erase_of_ne hne).2 (List.mem_range.2 hlt)
  have hle := ((nodup_keys m).subperm hsub).length_le
  rw [List.length_map, Std.ExtTreeMap.length_toList, List.length_erase_of_mem (List.mem_range.2 hj), List.length_range] at hle
  omega

/-- a map with some of the entries of another is no larger -/
theorem size_le_of_subset {m m' : NatMap β} (h : ∀ (k : ℕ) v, m'[k]? = some v → m[k]? = some v) : m'.size ≤ m.size := by
  have hsub : m'.toList.map Prod.fst ⊆ m.toList.map Prod.fst := by
    intro k hk
    obtain ⟨⟨k', v⟩, hmem, rfl⟩ := List.mem_map.1 hk
    exact List.mem_map.2 ⟨(k', v), (mem_toList m k' v).2 (h k' v ((mem_toList m' k' v).1 hmem)), rfl⟩
  have hle := ((nodup_keys m').subperm hsub).length_le
  rwa [List.length_map, List.length_map, Std.ExtTreeMap.length_toList, Std.ExtTreeMap.length_toList] at hle

/-- entries of a list, as many as the list has: all of them -/
theorem positions_of_size {m : NatMap β} {ps : List β} (h : ∀ (k : ℕ) v, m[k]? = some v → ps[k]? = some v)
    (hsize : m.size = ps.length) (k : ℕ) : m[k]? = ps[k]? := by
  cases hk : m[k]? with
  | some v => exact (h k v hk).symm
  | none =>
    by_contra hne
    have hlt : k < ps.length := by
      by_contra hge
      exact hne (List.getElem?_eq_none (Nat.not_lt.1 hge)).symm
    have hmissing : ∀ (i : ℕ) v, m[i]? = some v → i < ps.length ∧ i ≠ k := by
      intro i v hi
      refine ⟨(List.getElem?_eq_some_iff.1 (h i v hi)).1, ?_⟩
      rintro rfl
      rw [hk] at hi
      cases hi
    exact absurd hsize (Nat.ne_of_lt (size_lt_of_missing hlt hmissing))

/-! ## Sums over the values -/

/-- the sum of `f` over the values -/
def total (f : β → ℕ) (m : NatMap β) : ℕ := (m.toList.map fun e => f e.2).sum

theorem toList_empty : (∅ : NatMap β).toList = [] := List.eq_nil_of_length_eq_zero Std.ExtTreeMap.length_toList

@[simp] theorem total_empty (f : β → ℕ) : total f (∅ : NatMap β) = 0 := by
  rw [total, toList_empty]
  rfl

/-- the entries after an insertion, up to their order -/
theorem toList_insert_perm (m : NatMap β) (k : ℕ) (v : β) : (m.insert k v).toList.Perm ((k, v) :: (m.erase k).toList) := by
  have hnodup : ∀ m : NatMap β, m.toList.Nodup := fun m => (nodup_keys m).of_map
  have hnew : (k, v) ∉ (m.erase k).toList := by
    rw [mem_toList, get?_erase, if_pos rfl]
    simp
  refine (List.perm_ext_iff_of_nodup (hnodup _) (List.nodup_cons.2 ⟨hnew, hnodup _⟩)).2 ?_
  rintro ⟨a, w⟩
  rw [mem_toList, List.mem_cons, mem_toList, get?_insert, get?_erase, Prod.mk.injEq]
  by_cases h : k = a
  · simp [h, eq_comm]
  · simp [h, Ne.symm h]

theorem total_insert (f : β → ℕ) (m : NatMap β) (k : ℕ) (v : β) :
    total f (m.insert k v) = f v + total f (m.erase k) := by
  rw [total, ((toList_insert_perm m k v).map fun e => f e.2).sum_eq, List.map_cons, List.sum_cons]
  rfl

/-- a removal takes the entry of its key out -/
theorem toList_erase_perm {m : NatMap β} {k : ℕ} {v : β} (h : m[k]? = some v) :
    m.toList.Perm ((k, v) :: (m.erase k).toList) := by
  have hself : m.insert k v = m := by
    apply eq_of_getElem?
    intro a
    rw [get?_insert]
    split_ifs with ha
    · rw [← ha, h]
    · rfl
  have hperm := toList_insert_perm m k v
  rwa [hself] at hperm

/-- a removal takes the value of its key out of the sum -/
theorem total_erase (f : β → ℕ) {m : NatMap β} {k : ℕ} {v : β} (h : m[k]? = some v) :
    f v + total f (m.erase k) = total f m := by
  rw [total, total, ((toList_erase_perm h).map fun e => f e.2).sum_eq, List.map_cons, List.sum_cons]

theorem erase_of_none {m : NatMap β} {k : ℕ} (h : m[k]? = none) : m.erase k = m := by
  apply eq_of_getElem?
  intro a
  rw [get?_erase]
  split_ifs with ha
  · rw [← ha, h]
  · rfl

theorem toList_erase_subperm (m : NatMap β) (k : ℕ) : (m.erase k).toList.Subperm m.toList := by
  cases h : m[k]? with
  | none =>
    rw [erase_of_none h]
  | some v => exact (List.sublist_cons_self _ _).subperm.trans (toList_erase_perm h).symm.subperm

theorem total_erase_le (f : β → ℕ) (m : NatMap β) (k : ℕ) : total f (m.erase k) ≤ total f m := by
  cases h : m[k]? with
  | none => rw [erase_of_none h]
  | some v =>
    rw [← total_erase f h]
    exact Nat.le_add_left _ _

theorem total_eraseAll_le (f : β → ℕ) (m : NatMap β) (ks : List ℕ) : total f (m.eraseAll ks) ≤ total f m := by
  induction ks generalizing m with
  | nil => exact le_refl _
  | cons k ks ih => exact (ih (m.erase k)).trans (total_erase_le f m k)

theorem size_eraseAll_le (m : NatMap β) (ks : List ℕ) : (m.eraseAll ks).size ≤ m.size := by
  apply size_le_of_subset
  intro k v hk
  rw [getElem?_eraseAll] at hk
  split_ifs at hk
  exact hk

end NatMap

end Lib
