/-
Fragment reassembly (`src/reliability/fragment.rs`): split packets by split id, until every fragment has arrived.

`Instant::now()` is an argument, in nanoseconds. The split ids of a `HashMap<u16, _>` and the indices of a
`BTreeMap<u32, _>` are natural numbers.

- `insert_cases`: the five things an insertion can do.
- `insert_isSome`: exactly when an insertion hands a message out.
- `Holds.insert`: what all held fragments have in common, with what is handed out.
- `Gathering.insert`: a queue that is putting one message together.
-/
import RakNet.Lib.NatMap
import RakNet.Lib.Wire

namespace RakNet

open Lib Lib.Wire

/-- a split packet being reassembled -/
structure FragmentEntry where
  totalCount : Nat
  fragments : NatMap Bytes
  firstReceived : Nat

structure FragmentQueue where
  splits : NatMap FragmentEntry
  maxConcurrent : Nat
  timeout : Nat

namespace FragmentQueue

/-- 8 seconds -/
def defaultTimeout : Nat := 8 * 10 ^ 9

def withCapacity (maxConcurrent : Nat) : FragmentQueue := ⟨∅, maxConcurrent, defaultTimeout⟩

def new : FragmentQueue := withCapacity 512

/-- the fragments in increasing order of their index, concatenated -/
def reassemble (fragments : NatMap Bytes) : Bytes := (fragments.toList.map Prod.snd).flatten

/-- `entry(split_id).or_insert_with(..)` -/
def entryAt (q : FragmentQueue) (now splitId count : Nat) : FragmentEntry :=
  match q.splits[splitId]? with
  | some entry => entry
  | none => ⟨count, ∅, now⟩

/-- `insert`: the reassembled packet, once its last fragment has arrived. An entry that was just created is neither
mismatched nor holds the index, so in those two cases the queue had the entry before. -/
def insert (q : FragmentQueue) (now splitId index count : Nat) (data : Bytes) : Option Bytes × FragmentQueue :=
  if count ≤ index then (none, q)
  else if decide (q.maxConcurrent ≤ q.splits.size) && !q.splits.contains splitId then (none, q)
  else
    let entry := q.entryAt now splitId count
    if entry.totalCount ≠ count then (none, { q with splits := q.splits.erase splitId })
    else if entry.fragments.contains index then (none, q)
    else
      let fragments := entry.fragments.insert index data
      if fragments.size = count then (some (reassemble fragments), { q with splits := q.splits.erase splitId })
      else (none, { q with splits := q.splits.insert splitId { entry with fragments := fragments } })

/-- the ids of the entries older than the timeout -/
def expired (q : FragmentQueue) (now : Nat) : List Nat :=
  (q.splits.toList.filter fun e => decide (q.timeout < now - e.2.firstReceived)).map Prod.fst

def cleanupExpired (q : FragmentQueue) (now : Nat) : Nat × FragmentQueue :=
  ((q.expired now).length, { q with splits := q.splits.eraseAll (q.expired now) })

/-- is there room for a fragment of this split id -/
def admits (q : FragmentQueue) (splitId : Nat) : Bool :=
  decide (q.splits.size < q.maxConcurrent) || q.splits.contains splitId

/-- **The five things an insertion can do**: refuse, drop a mismatched entry, ignore a duplicate, complete, store. -/
theorem insert_cases (q : FragmentQueue) (now id index count : Nat) (data : Bytes) :
    ((count ≤ index ∨ q.admits id = false) ∧ q.insert now id index count data = (none, q)) ∨
    (index < count ∧ q.admits id = true ∧ (q.entryAt now id count).totalCount ≠ count ∧
      q.insert now id index count data = (none, { q with splits := q.splits.erase id })) ∨
    (index < count ∧ q.admits id = true ∧ (q.entryAt now id count).totalCount = count ∧
      (∃ d, (q.entryAt now id count).fragments[index]? = some d) ∧ q.insert now id index count data = (none, q)) ∨
    (index < count ∧ q.admits id = true ∧ (q.entryAt now id count).totalCount = count ∧
      (q.entryAt now id count).fragments[index]? = none ∧
      ((q.entryAt now id count).fragments.insert index data).size = count ∧
      q.insert now id index count data =
        (some (reassemble ((q.entryAt now id count).fragments.insert index data)),
          { q with splits := q.splits.erase id })) ∨
    (index < count ∧ q.admits id = true ∧ (q.entryAt now id count).totalCount = count ∧
      (q.entryAt now id count).fragments[index]? = none ∧
      ((q.entryAt now id count).fragments.insert index data).size ≠ count ∧
      q.insert now id index count data = (none, { q with
        splits := q.splits.insert id { q.entryAt now id count with
          fragments := (q.entryAt now id count).fragments.insert index data } })) := by
  have hadm : (decide (q.maxConcurrent ≤ q.splits.size) && !q.splits.contains id) = true ↔ q.admits id = false := by
    unfold admits
    cases q.splits.contains id <;> simp
  unfold insert
  by_cases h1 : count ≤ index
  · rw [if_pos h1]
    exact Or.inl ⟨Or.inl h1, rfl⟩
  rw [if_neg h1]
  by_cases h2 : (decide (q.maxConcurrent ≤ q.splits.size) && !q.splits.contains id) = true
  · rw [if_pos h2]
    exact Or.inl ⟨Or.inr (hadm.1 h2), rfl⟩
  have h2' : q.admits id = true := by simpa using mt hadm.2 h2
  rw [if_neg h2]
  right
  by_cases h3 : (q.entryAt now id count).totalCount ≠ count
  · simp only [if_pos h3]
    exact Or.inl ⟨by omega, h2', h3, trivial⟩
  simp only [if_neg h3, NatMap.contains_eq]
  right
  cases h4 : (q.entryAt now id count).fragments[index]? with
  | some d => exact Or.inl ⟨by omega, h2', not_not.1 h3, ⟨d, rfl⟩, rfl⟩
  | none =>
    simp only [Option.isSome_none, Bool.false_eq_true, if_false]
    right
    by_cases h5 : ((q.entryAt now id count).fragments.insert index data).size = count
    · rw [if_pos h5]
      exact Or.inl ⟨by omega, h2', not_not.1 h3, trivial, h5, rfl⟩
    · rw [if_neg h5]
      exact Or.inr ⟨by omega, h2', not_not.1 h3, trivial, h5, rfl⟩

/-- the fragment is the last of its message to arrive -/
def completes (q : FragmentQueue) (splitId index count : Nat) : Bool :=
  decide (index < count) && q.admits splitId &&
    match q.splits[splitId]? with
    | none => count == 1
    | some entry => entry.totalCount == count && !entry.fragments.contains index && entry.fragments.size + 1 == count

/-- **When an insertion hands a message out.** -/
theorem insert_isSome (q : FragmentQueue) (now id index count : Nat) (data : Bytes) :
    (q.insert now id index count data).1.isSome = q.completes id index count := by
  have hentry : (match q.splits[id]? with
      | none => count == 1
      | some entry => entry.totalCount == count && !entry.fragments.contains index && entry.fragments.size + 1 == count) =
      ((q.entryAt now id count).totalCount == count && !(q.entryAt now id count).fragments.contains index &&
        (q.entryAt now id count).fragments.size + 1 == count) := by
    unfold entryAt
    cases q.splits[id]? with
    | none => simp [eq_comm]
    | some e => rfl
  unfold completes
  rw [hentry, NatMap.contains_eq]
  rcases q.insert_cases now id index count data with ⟨h, he⟩ | ⟨h1, h2, h3, he⟩ | ⟨h1, h2, h3, ⟨d, h4⟩, he⟩ |
      ⟨h1, h2, h3, h4, h5, he⟩ | ⟨h1, h2, h3, h4, h5, he⟩
  · rw [he]
    rcases h with h | h
    · simp [Nat.not_lt.2 h]
    · simp [h]
  · rw [he]
    simp [h3]
  · rw [he]
    simp [h4]
  · rw [NatMap.size_insert_of_none data h4] at h5
    rw [he]
    simp [h1, h2, h3, h4, h5]
  · rw [NatMap.size_insert_of_none data h4] at h5
    rw [he]
    simp [h5]

theorem entryAt_of_some {q : FragmentQueue} {now id count : Nat} {e : FragmentEntry} (h : q.splits[id]? = some e) :
    q.entryAt now id count = e := by
  simp only [entryAt, h]

/-- a fragment of the map is part of what the map reassembles to -/
theorem part_of_reassemble {fragments : NatMap Bytes} {k : Nat} {d : Bytes} (h : fragments[k]? = some d) :
    d <:+: reassemble fragments := by
  have hmem : d ∈ fragments.toList.map Prod.snd := List.mem_map.2 ⟨(k, d), (NatMap.mem_toList _ _ _).2 h, rfl⟩
  obtain ⟨a, b, hab⟩ := List.append_of_mem hmem
  refine ⟨a.flatten, b.flatten, ?_⟩
  rw [reassemble, hab, List.flatten_append, List.flatten_cons, List.append_assoc]

theorem length_reassemble_le {fragments : NatMap Bytes} {size : Nat}
    (h : ∀ (k : Nat) d, fragments[k]? = some d → d.length ≤ size) :
    (reassemble fragments).length ≤ fragments.size * size := by
  have hle := List.sum_le_card_nsmul ((fragments.toList.map Prod.snd).map List.length) size
  rw [List.length_map, List.length_map, Std.ExtTreeMap.length_toList, smul_eq_mul] at hle
  rw [reassemble, List.length_flatten]
  apply hle
  intro len hlen
  obtain ⟨d, hd, rfl⟩ := List.mem_map.1 hlen
  obtain ⟨⟨k, d'⟩, hmem, rfl⟩ := List.mem_map.1 hd
  exact h k d' ((NatMap.mem_toList _ _ _).1 hmem)

/-! ## What the fragments of a queue have in common -/

/-- every held fragment, with its split id, the count of its entry and its index, has the property -/
def Holds (P : Nat → Nat → Nat → Bytes → Prop) (q : FragmentQueue) : Prop :=
  ∀ (id : Nat) e, q.splits[id]? = some e → ∀ (k : Nat) d, e.fragments[k]? = some d → P id e.totalCount k d

theorem holds_of_empty {P : Nat → Nat → Nat → Bytes → Prop} {q : FragmentQueue} (h : q.splits = ∅) : q.Holds P := by
  intro id e he
  rw [h, NatMap.get?_empty] at he
  cases he

/-- **One more fragment with the property.** The queue keeps it, and a message that is handed out is made of as many
fragments as its count says, all with the property. -/
theorem Holds.insert {P : Nat → Nat → Nat → Bytes → Prop} {q : FragmentQueue} (hq : q.Holds P)
    (now id index count : Nat) {data : Bytes} (hd : index < count → P id count index data) :
    (q.insert now id index count data).2.Holds P ∧
    ∀ out, (q.insert now id index count data).1 = some out → ∃ fragments : NatMap Bytes,
      fragments[index]? = some data ∧ fragments.size = count ∧
      (∀ (k : Nat) d, fragments[k]? = some d → P id count k d) ∧ out = reassemble fragments := by
  have hentry : index < count → (q.entryAt now id count).totalCount = count → ∀ (k : Nat) d,
      ((q.entryAt now id count).fragments.insert index data)[k]? = some d → P id count k d := by
    intro hlt htotal
    apply NatMap.forall_insert (hd hlt)
    intro k d hk
    cases hs : q.splits[id]? with
    | none => simp [entryAt, hs] at hk
    | some e =>
      rw [entryAt_of_some hs] at hk htotal
      rw [← htotal]
      exact hq id e hs k d hk
  have herase : Holds P { q with splits := q.splits.erase id } := by
    intro id' e he
    dsimp only at he
    rw [NatMap.get?_erase] at he
    split_ifs at he
    exact hq id' e he
  rcases q.insert_cases now id index count data with ⟨-, he⟩ | ⟨-, -, -, he⟩ | ⟨-, -, -, -, he⟩ |
    ⟨hlt, -, htotal, -, hsize, he⟩ | ⟨hlt, -, htotal, -, -, he⟩ <;> rw [he]
  · exact ⟨hq, fun out hout => (by cases hout)⟩
  · exact ⟨herase, fun out hout => (by cases hout)⟩
  · exact ⟨hq, fun out hout => (by cases hout)⟩
  · refine ⟨herase, ?_⟩
    intro out hout
    refine ⟨_, ?_, hsize, hentry hlt htotal, (Option.some.inj hout).symm⟩
    rw [NatMap.get?_insert, if_pos rfl]
  · refine ⟨?_, fun out hout => (by cases hout)⟩
    apply NatMap.forall_insert _ hq
    dsimp only
    rw [htotal]
    exact hentry hlt htotal

/-! ## One message at a time -/

/-- the queue holds these fragments of the message `id`, and nothing else -/
structure Gathering (id count : Nat) (got : NatMap Bytes) (q : FragmentQueue) : Prop where
  only : ∀ k, k ≠ id → q.splits[k]? = none
  total : ∀ now, (q.entryAt now id count).totalCount = count
  parts : ∀ now, (q.entryAt now id count).fragments = got
  admits : q.admits id = true

theorem gathering_of_empty {q : FragmentQueue} (h : q.splits = ∅) (hroom : 0 < q.maxConcurrent) (id count : Nat) :
    Gathering id count ∅ q := by
  have hentry : ∀ now, q.entryAt now id count = ⟨count, ∅, now⟩ := by
    intro now
    simp [entryAt, h]
  refine ⟨fun k _ => by simp [h], fun now => by rw [hentry], fun now => by rw [hentry], ?_⟩
  have hsize : q.splits.size = 0 := by
    rw [h]
    rfl
  simp [FragmentQueue.admits, hsize, hroom]

theorem maxConcurrent_insert (q : FragmentQueue) (now id index count : Nat) (data : Bytes) :
    (q.insert now id index count data).2.maxConcurrent = q.maxConcurrent := by
  rcases q.insert_cases now id index count data with ⟨-, he⟩ | ⟨-, -, -, he⟩ | ⟨-, -, -, -, he⟩ | ⟨-, -, -, -, -, he⟩ |
    ⟨-, -, -, -, -, he⟩ <;> rw [he]

/-- a fragment that is already there -/
theorem Gathering.insert_again {id count : Nat} {got : NatMap Bytes} {q : FragmentQueue} (h : Gathering id count got q)
    (now : Nat) {index : Nat} (data : Bytes) {d : Bytes} (hd : got[index]? = some d) :
    q.insert now id index count data = (none, q) := by
  rcases q.insert_cases now id index count data with ⟨-, he⟩ | ⟨-, -, hne, -⟩ | ⟨-, -, -, -, he⟩ | ⟨-, -, -, hnone, -⟩ |
    ⟨-, -, -, hnone, -⟩
  · exact he
  · exact absurd (h.total now) hne
  · exact he
  all_goals
    rw [h.parts, hd] at hnone
    cases hnone

/-- **A fragment that was missing**: the message if it was the last one, one more held part otherwise. -/
theorem Gathering.insert {id count : Nat} {got : NatMap Bytes} {q : FragmentQueue} (h : Gathering id count got q)
    (now : Nat) {index : Nat} (data : Bytes) (hlt : index < count) (hnew : got[index]? = none) :
    (got.size + 1 = count ∧ (q.insert now id index count data).1 = some (reassemble (got.insert index data)) ∧
      (q.insert now id index count data).2.splits = ∅) ∨
    (got.size + 1 ≠ count ∧ (q.insert now id index count data).1 = none ∧
      Gathering id count (got.insert index data) (q.insert now id index count data).2) := by
  have hsize := NatMap.size_insert_of_none data hnew
  have hparts := h.parts now
  rcases q.insert_cases now id index count data with ⟨hbad, -⟩ | ⟨-, -, hne, -⟩ | ⟨-, -, -, ⟨d, hd⟩, -⟩ |
    ⟨-, -, -, -, hfull, hq⟩ | ⟨-, -, -, -, hpart, hq⟩
  · rcases hbad with hbad | hbad
    · exact absurd hlt (Nat.not_lt.2 hbad)
    · rw [h.admits] at hbad
      cases hbad
  · exact absurd (h.total now) hne
  · rw [hparts, hnew] at hd
    cases hd
  · rw [hparts, hsize] at hfull
    refine Or.inl ⟨hfull, by rw [hq, hparts], ?_⟩
    rw [hq]
    apply Std.ExtTreeMap.ext_getElem?
    intro k
    rw [NatMap.get?_erase, NatMap.get?_empty]
    split_ifs with hk
    · rfl
    · exact h.only k (Ne.symm hk)
  · rw [hparts, hsize] at hpart
    refine Or.inr ⟨hpart, by rw [hq], ?_⟩
    rw [hq]
    have hentry : ∀ now', entryAt { q with splits := q.splits.insert id { q.entryAt now id count with
        fragments := (q.entryAt now id count).fragments.insert index data } } now' id count =
        { q.entryAt now id count with fragments := (q.entryAt now id count).fragments.insert index data } := by
      intro now'
      apply entryAt_of_some
      rw [NatMap.get?_insert, if_pos rfl]
    refine ⟨?_, ?_, ?_, ?_⟩
    · intro k hk
      rw [NatMap.get?_insert, if_neg (Ne.symm hk)]
      exact h.only k hk
    · intro now'
      rw [hentry]
      exact h.total now
    · intro now'
      rw [hentry]
      dsimp only
      rw [hparts]
    · rw [FragmentQueue.admits, NatMap.contains_eq, NatMap.get?_insert, if_pos rfl]
      simp

end FragmentQueue

end RakNet
