/-
A fragment queue under arbitrary input (`FragmentQueue::insert` and `cleanup_expired`): any split ids, indices, counts and
data, in any order, with expiry in between.

Completion is found by comparing the number of held fragments with a count the peer chose, so it is right only because
held indices stay below the count. The run keeps, beside the queue, the fragments each entry was given since it was
created.

- `Arrivals.Inv.insert_of`: what a step has to keep, said for the one entry it touches.
- `Last`: the fragment is the last one its message was waiting for.
- `completes_exactly`: after any run, what an insertion hands out and when.
-/
import RakNet.Lib.Machine
import RakNet.Reliability.Fragment

namespace RakNet

open Lib Lib.Wire

namespace FragmentQueue

/-- a queue, and for each split id the fragments that came since its entry was created, oldest first -/
structure Arrivals where
  queue : FragmentQueue
  log : Nat → List (Nat × Bytes)

namespace Arrivals

inductive Op where
  | insert (now splitId index count : Nat) (data : Bytes)
  | cleanupExpired (now : Nat)

/-- an id that has no entry has no history -/
def trim (q : FragmentQueue) (log : Nat → List (Nat × Bytes)) (id : Nat) : List (Nat × Bytes) :=
  if q.splits.contains id then log id else []

/-- the history with one more fragment, unless its index is out of range -/
def noted (log : Nat → List (Nat × Bytes)) (splitId index count : Nat) (data : Bytes) (id : Nat) : List (Nat × Bytes) :=
  if id = splitId ∧ index < count then log id ++ [(index, data)] else log id

def step (s : Arrivals) : Op → Arrivals
  | .insert now splitId index count data =>
    let q := (s.queue.insert now splitId index count data).2
    ⟨q, trim q (noted s.log splitId index count data)⟩
  | .cleanupExpired now =>
    let q := (s.queue.cleanupExpired now).2
    ⟨q, trim q s.log⟩

def init (maxConcurrent timeout : Nat) : Arrivals := ⟨⟨∅, maxConcurrent, timeout⟩, fun _ => []⟩

def run (maxConcurrent timeout : Nat) (ops : List Op) : Arrivals := Machine.run step (init maxConcurrent timeout) ops

end Arrivals

/-- an entry with some of its fragments but not all, every index in range -/
structure Incomplete (e : FragmentEntry) : Prop where
  started : 0 < e.fragments.size
  unfinished : e.fragments.size < e.totalCount
  indices : ∀ (k : Nat) d, e.fragments[k]? = some d → k < e.totalCount

/-- what came first for each of the indices below `count`, concatenated -/
def firstData (log : List (Nat × Bytes)) (count : Nat) : Bytes :=
  ((List.range count).map fun k => (log.lookup k).getD []).flatten

/-- the fragment is the last one its message was waiting for -/
structure Last (q : FragmentQueue) (now splitId index count : Nat) (data : Bytes) : Prop where
  inRange : index < count
  admitted : q.splits.contains splitId = true ∨ q.splits.size < q.maxConcurrent
  sameCount : (q.entryAt now splitId count).totalCount = count
  missing : (q.entryAt now splitId count).fragments[index]? = none
  all : ∀ k : Nat, ((q.entryAt now splitId count).fragments.insert index data)[k]?.isSome = true ↔ k < count

namespace Arrivals

structure Inv (maxConcurrent : Nat) (s : Arrivals) : Prop where
  limit : s.queue.maxConcurrent = maxConcurrent
  size : s.queue.splits.size ≤ maxConcurrent
  incomplete : ∀ (id : Nat) e, s.queue.splits[id]? = some e → Incomplete e
  /-- an entry holds what came first for each index -/
  first : ∀ (id : Nat) e, s.queue.splits[id]? = some e → ∀ k : Nat, e.fragments[k]? = (s.log id).lookup k
  empty : ∀ id : Nat, s.queue.splits[id]? = none → s.log id = []

theorem inv_init (maxConcurrent timeout : Nat) : (init maxConcurrent timeout).Inv maxConcurrent := by
  have hnone : ∀ id : Nat, (init maxConcurrent timeout).queue.splits[id]? = none := fun id => NatMap.get?_empty id
  refine ⟨rfl, Nat.zero_le _, ?_, ?_, fun _ _ => rfl⟩
  · intro id e he
    rw [hnone] at he
    cases he
  · intro id e he
    rw [hnone] at he
    cases he

/-- the fragments of an entry, present or about to be created, are the first ones of its history -/
theorem Inv.entryAt {m : Nat} {s : Arrivals} (h : s.Inv m) (now id count k : Nat) :
    (s.queue.entryAt now id count).fragments[k]? = (s.log id).lookup k := by
  cases hs : s.queue.splits[id]? with
  | none =>
    rw [h.empty id hs]
    simp [FragmentQueue.entryAt, hs]
  | some e =>
    rw [entryAt_of_some hs]
    exact h.first id e hs k

/-- an entry, present or about to be created, holds no index out of range -/
theorem Inv.entryAt_lt {m : Nat} {s : Arrivals} (h : s.Inv m) {now id count k : Nat} {d : Bytes}
    (hk : (s.queue.entryAt now id count).fragments[k]? = some d) : k < (s.queue.entryAt now id count).totalCount := by
  cases hs : s.queue.splits[id]? with
  | none => simp [FragmentQueue.entryAt, hs] at hk
  | some e =>
    rw [entryAt_of_some hs] at hk ⊢
    exact (h.incomplete id e hs).indices k d hk

theorem Inv.insert_lt {m : Nat} {s : Arrivals} (h : s.Inv m) {now splitId index count : Nat} {data : Bytes}
    (hlt : index < count) (htotal : (s.queue.entryAt now splitId count).totalCount = count) {k : Nat} {d : Bytes}
    (hk : ((s.queue.entryAt now splitId count).fragments.insert index data)[k]? = some d) : k < count := by
  refine NatMap.forall_insert (P := fun i _ => i < count) hlt ?_ k d hk
  intro i w hi
  rw [← htotal]
  exact h.entryAt_lt hi

/-! ## One step -/

theorem trim_of_some {q : FragmentQueue} {log : Nat → List (Nat × Bytes)} {id : Nat} {e : FragmentEntry}
    (h : q.splits[id]? = some e) : trim q log id = log id := by
  simp [trim, NatMap.contains_eq, h]

theorem trim_of_none {q : FragmentQueue} {log : Nat → List (Nat × Bytes)} {id : Nat} (h : q.splits[id]? = none) :
    trim q log id = [] := by
  simp [trim, NatMap.contains_eq, h]

theorem noted_other {log : Nat → List (Nat × Bytes)} {splitId id : Nat} (h : id ≠ splitId) (index count : Nat)
    (data : Bytes) : noted log splitId index count data id = log id := by
  rw [noted, if_neg]
  exact fun hc => h hc.1

theorem noted_out {log : Nat → List (Nat × Bytes)} {index count : Nat} (h : ¬ index < count) (splitId : Nat) (data : Bytes)
    (id : Nat) : noted log splitId index count data id = log id := by
  rw [noted, if_neg]
  exact fun hc => h hc.2

/-- data that comes for an index counts if it is the first -/
theorem lookup_noted {log : Nat → List (Nat × Bytes)} {index count : Nat} (h : index < count) (id : Nat) (data : Bytes)
    (k : Nat) :
    (noted log id index count data id).lookup k = ((log id).lookup k).or (if index = k then some data else none) := by
  rw [noted, if_pos ⟨rfl, h⟩, List.lookup_append, List.lookup_cons, List.lookup_nil]
  by_cases hk : index = k
  · subst hk
    simp
  · have hne : (k == index) = false := by simpa using Ne.symm hk
    simp [hk, hne]

/-- the fragments an entry has with the new one, for each index the first that came -/
theorem Inv.lookup_insert {m : Nat} {s : Arrivals} (h : s.Inv m) {now splitId index count : Nat} (data : Bytes)
    (hlt : index < count) (hnew : (s.queue.entryAt now splitId count).fragments[index]? = none) (k : Nat) :
    ((s.queue.entryAt now splitId count).fragments.insert index data)[k]? =
      (noted s.log splitId index count data splitId).lookup k := by
  rw [NatMap.get?_insert, lookup_noted hlt, ← h.entryAt now splitId count]
  split_ifs with hik
  · rw [← hik, hnew]
    rfl
  · rw [Option.or_none]

/-- **What an insertion has to keep**: the limit, and the one entry it touches. -/
theorem Inv.insert_of {m : Nat} {s : Arrivals} (h : s.Inv m) {q : FragmentQueue} {splitId index count : Nat} {data : Bytes}
    (hlimit : q.maxConcurrent = m) (hsize : q.splits.size ≤ m)
    (hother : ∀ id, id ≠ splitId → q.splits[id]? = s.queue.splits[id]?)
    (hentry : ∀ e, q.splits[splitId]? = some e →
      Incomplete e ∧ ∀ k : Nat, e.fragments[k]? = (noted s.log splitId index count data splitId).lookup k) :
    Inv m ⟨q, trim q (noted s.log splitId index count data)⟩ := by
  refine ⟨hlimit, hsize, ?_, ?_, fun id hid => trim_of_none hid⟩
  · intro id e he
    by_cases hid : id = splitId
    · subst hid
      exact (hentry e he).1
    · exact h.incomplete id e (by rw [← hother id hid]; exact he)
  · intro id e he k
    dsimp only at he ⊢
    rw [trim_of_some he]
    by_cases hid : id = splitId
    · subst hid
      exact (hentry e he).2 k
    · rw [noted_other hid]
      exact h.first id e (by rw [← hother id hid]; exact he) k

/-- the entry is gone -/
theorem Inv.erase {m : Nat} {s : Arrivals} (h : s.Inv m) (splitId index count : Nat) (data : Bytes) :
    Inv m ⟨{ s.queue with splits := s.queue.splits.erase splitId },
      trim { s.queue with splits := s.queue.splits.erase splitId } (noted s.log splitId index count data)⟩ := by
  apply h.insert_of
  · exact h.limit
  · exact le_trans Std.ExtTreeMap.size_erase_le h.size
  · intro id hid
    dsimp only
    rw [NatMap.get?_erase, if_neg (Ne.symm hid)]
  · intro e he
    dsimp only at he
    rw [NatMap.get?_erase, if_pos rfl] at he
    cases he

/-- one more fragment, and some are still missing -/
theorem Inv.store {m : Nat} {s : Arrivals} (h : s.Inv m) {now splitId index count : Nat} {data : Bytes}
    (hlt : index < count) (hadm : s.queue.admits splitId = true)
    (htotal : (s.queue.entryAt now splitId count).totalCount = count)
    (hnew : (s.queue.entryAt now splitId count).fragments[index]? = none)
    (hpart : ((s.queue.entryAt now splitId count).fragments.insert index data).size ≠ count) {q : FragmentQueue}
    (hq : q = { s.queue with splits := s.queue.splits.insert splitId { s.queue.entryAt now splitId count with
      fragments := (s.queue.entryAt now splitId count).fragments.insert index data } }) :
    Inv m ⟨q, trim q (noted s.log splitId index count data)⟩ := by
  have hindices : ∀ (k : Nat) d, ((s.queue.entryAt now splitId count).fragments.insert index data)[k]? = some d →
      k < count := fun k d hk => h.insert_lt hlt htotal hk
  have hle : ((s.queue.entryAt now splitId count).fragments.insert index data).size < count + 1 := by
    apply NatMap.size_lt_of_missing (Nat.lt_succ_self count)
    intro k d hk
    have hk' := hindices k d hk
    omega
  subst hq
  apply h.insert_of
  · exact h.limit
  · dsimp only
    rw [Std.ExtTreeMap.size_insert]
    have hsize := h.size
    have hlimit := h.limit
    simp only [admits, Bool.or_eq_true, decide_eq_true_eq] at hadm
    split_ifs with hmem
    · exact hsize
    · have hroom := hadm.resolve_right hmem
      omega
  · intro id hid
    dsimp only
    rw [NatMap.get?_insert, if_neg (Ne.symm hid)]
  · intro e he
    dsimp only at he
    rw [NatMap.get?_insert, if_pos rfl] at he
    cases he
    refine ⟨⟨?_, ?_, ?_⟩, ?_⟩
    · dsimp only
      rw [NatMap.size_insert_of_none data hnew]
      exact Nat.succ_pos _
    · dsimp only
      omega
    · intro k d hk
      dsimp only at hk ⊢
      rw [htotal]
      exact hindices k d hk
    · exact h.lookup_insert data hlt hnew

theorem Inv.insert {m : Nat} {s : Arrivals} (h : s.Inv m) (now splitId index count : Nat) (data : Bytes) :
    (s.step (.insert now splitId index count data)).Inv m := by
  simp only [step]
  rcases s.queue.insert_cases now splitId index count data with ⟨hbad, he⟩ | ⟨-, -, -, he⟩ | ⟨hlt, -, htotal, ⟨d, hd⟩, he⟩ |
    ⟨-, -, -, -, -, he⟩ | ⟨hlt, hadm, htotal, hnew, hpart, he⟩ <;> rw [he]
  · apply h.insert_of h.limit h.size (fun _ _ => rfl)
    intro e hs
    refine ⟨h.incomplete _ e hs, ?_⟩
    -- a fragment whose entry is there is refused for its index only
    have hout : ¬ index < count := by
      rcases hbad with hge | hfull
      · omega
      · simp [admits, NatMap.contains_eq, hs] at hfull
    rw [noted_out hout]
    exact h.first _ e hs
  · exact h.erase splitId index count data
  · apply h.insert_of h.limit h.size (fun _ _ => rfl)
    intro e hs
    refine ⟨h.incomplete _ e hs, ?_⟩
    intro k
    rw [entryAt_of_some hs] at hd
    rw [lookup_noted hlt, ← h.first _ e hs]
    split_ifs with hik
    · -- the index was there: the new data comes second
      rw [← hik, hd]
      rfl
    · rw [Option.or_none]
  · exact h.erase splitId index count data
  · exact h.store hlt hadm htotal hnew hpart rfl

theorem Inv.cleanupExpired {m : Nat} {s : Arrivals} (h : s.Inv m) (now : Nat) :
    (s.step (.cleanupExpired now)).Inv m := by
  have hkept : ∀ (id : Nat) e, (s.queue.cleanupExpired now).2.splits[id]? = some e → s.queue.splits[id]? = some e := by
    intro id e he
    simp only [FragmentQueue.cleanupExpired, NatMap.getElem?_eraseAll] at he
    split_ifs at he
    exact he
  have hsize : (s.queue.cleanupExpired now).2.splits.size ≤ s.queue.splits.size := NatMap.size_le_of_subset hkept
  refine ⟨h.limit, le_trans hsize h.size, ?_, ?_, fun id hid => trim_of_none hid⟩
  · intro id e he
    exact h.incomplete id e (hkept id e he)
  · intro id e he k
    simp only [step] at he ⊢
    rw [trim_of_some he]
    exact h.first id e (hkept id e he) k

theorem Inv.step {m : Nat} {s : Arrivals} (h : s.Inv m) (op : Op) : (s.step op).Inv m := by
  cases op with
  | insert now splitId index count data => exact h.insert now splitId index count data
  | cleanupExpired now => exact h.cleanupExpired now

theorem inv_run (maxConcurrent timeout : Nat) (ops : List Op) : (run maxConcurrent timeout ops).Inv maxConcurrent :=
  Machine.run_inv (fun _ op hs => hs.step op) (inv_init maxConcurrent timeout) ops

/-! ## Completion -/

/-- a map with all indices below `count` and no other has `count` entries, and reassembles to what came first -/
theorem size_and_reassemble {fragments : NatMap Bytes} {log : List (Nat × Bytes)} {count : Nat}
    (hfirst : ∀ k : Nat, fragments[k]? = log.lookup k) (hall : ∀ k : Nat, fragments[k]?.isSome = true ↔ k < count) :
    fragments.size = count ∧ reassemble fragments = firstData log count := by
  have hpos : ∀ k : Nat, fragments[k]? = ((List.range count).map fun k => (log.lookup k).getD [])[k]? := by
    intro k
    have hk := hall k
    rw [List.getElem?_map]
    by_cases hlt : k < count
    · obtain ⟨d, hd⟩ := Option.isSome_iff_exists.1 (hk.2 hlt)
      rw [List.getElem?_range hlt, Option.map_some, ← hfirst, hd]
      rfl
    · rw [List.getElem?_eq_none (by simpa using hlt), Option.map_none, ← Option.not_isSome_iff_eq_none, hk]
      exact hlt
  constructor
  · rw [NatMap.size_of_positions hpos, List.length_map, List.length_range]
  · rw [reassemble, NatMap.values_of_positions hpos]
    rfl

/-- held indices are in range, so as many fragments as the count are all of them -/
theorem Inv.all_of_size {m : Nat} {s : Arrivals} (h : s.Inv m) {now splitId index count : Nat} {data : Bytes}
    (hlt : index < count) (htotal : (s.queue.entryAt now splitId count).totalCount = count)
    (hsize : ((s.queue.entryAt now splitId count).fragments.insert index data).size = count) (k : Nat) :
    ((s.queue.entryAt now splitId count).fragments.insert index data)[k]?.isSome = true ↔ k < count := by
  have hrange : ∀ (i : Nat) d, ((s.queue.entryAt now splitId count).fragments.insert index data)[i]? = some d →
      i < count := fun i d hi => h.insert_lt hlt htotal hi
  constructor
  · intro hk
    obtain ⟨d, hd⟩ := Option.isSome_iff_exists.1 hk
    exact hrange k d hd
  · intro hk
    by_contra hmissing
    have hfew := NatMap.size_lt_of_missing hk (m := (s.queue.entryAt now splitId count).fragments.insert index data) ?_
    · omega
    · intro i d hi
      refine ⟨hrange i d hi, ?_⟩
      rintro rfl
      rw [hi] at hmissing
      exact hmissing rfl

theorem Inv.isSome_iff {m : Nat} {s : Arrivals} (h : s.Inv m) (now splitId index count : Nat) (data : Bytes) :
    (s.queue.insert now splitId index count data).1.isSome = true ↔ Last s.queue now splitId index count data := by
  have hadm : s.queue.admits splitId = true ↔
      s.queue.splits.contains splitId = true ∨ s.queue.splits.size < s.queue.maxConcurrent := by
    simp [admits, or_comm]
  rcases s.queue.insert_cases now splitId index count data with ⟨hbad, he⟩ | ⟨-, -, hne, he⟩ | ⟨-, -, -, ⟨d, hd⟩, he⟩ |
    ⟨hlt, hin, htotal, hnew, hsize, he⟩ | ⟨hlt, hin, htotal, hnew, hpart, he⟩ <;> rw [he]
  · refine iff_of_false (by simp) ?_
    intro hl
    rcases hbad with hge | hfull
    · have hlt := hl.inRange
      omega
    · rw [hadm.2 hl.admitted] at hfull
      cases hfull
  · exact iff_of_false (by simp) fun hl => hne hl.sameCount
  · refine iff_of_false (by simp) ?_
    intro hl
    rw [hl.missing] at hd
    cases hd
  · exact iff_of_true rfl ⟨hlt, hadm.1 hin, htotal, hnew, h.all_of_size hlt htotal hsize⟩
  · refine iff_of_false (by simp) ?_
    intro hl
    exact hpart (size_and_reassemble (h.lookup_insert data hlt hnew) hl.all).1

theorem Inv.completed {m : Nat} {s : Arrivals} (h : s.Inv m) {now splitId index count : Nat} {data r : Bytes}
    (hr : (s.queue.insert now splitId index count data).1 = some r) :
    r = firstData (s.log splitId ++ [(index, data)]) count ∧
      ∀ id : Nat, (s.queue.insert now splitId index count data).2.splits[id]? =
        if id = splitId then none else s.queue.splits[id]? := by
  rcases s.queue.insert_cases now splitId index count data with ⟨-, he⟩ | ⟨-, -, -, he⟩ | ⟨-, -, -, -, he⟩ |
    ⟨hlt, -, htotal, hnew, hsize, he⟩ | ⟨-, -, -, -, -, he⟩ <;> rw [he] at hr ⊢
  case inr.inr.inr.inl =>
    have hfirst := h.lookup_insert data hlt hnew
    rw [noted, if_pos ⟨rfl, hlt⟩] at hfirst
    refine ⟨?_, ?_⟩
    · rw [← Option.some.inj hr]
      exact (size_and_reassemble hfirst (h.all_of_size hlt htotal hsize)).2
    · intro id
      dsimp only
      rw [NatMap.get?_erase]
      simp only [eq_comm]
  all_goals cases hr

end Arrivals

/-- **A fragment queue under arbitrary input.** After any insertions and clean-ups: the entries are few and incomplete, a
message comes out exactly with its last missing fragment, and it is made of what came first for each index. -/
theorem completes_exactly (maxConcurrent timeout : Nat) (ops : List Arrivals.Op) :
    (Arrivals.run maxConcurrent timeout ops).queue.splits.size ≤ maxConcurrent ∧
      (∀ (id : Nat) e, (Arrivals.run maxConcurrent timeout ops).queue.splits[id]? = some e → Incomplete e) ∧
      ∀ (now splitId index count : Nat) (data : Bytes),
        (((Arrivals.run maxConcurrent timeout ops).queue.insert now splitId index count data).1.isSome = true ↔
          Last (Arrivals.run maxConcurrent timeout ops).queue now splitId index count data) ∧
        ∀ r, ((Arrivals.run maxConcurrent timeout ops).queue.insert now splitId index count data).1 = some r →
          r = firstData ((Arrivals.run maxConcurrent timeout ops).log splitId ++ [(index, data)]) count ∧
            ∀ id : Nat, ((Arrivals.run maxConcurrent timeout ops).queue.insert now splitId index count data).2.splits[id]? =
              if id = splitId then none else (Arrivals.run maxConcurrent timeout ops).queue.splits[id]? := by
  have h := Arrivals.inv_run maxConcurrent timeout ops
  refine ⟨h.size, h.incomplete, ?_⟩
  intro now splitId index count data
  refine ⟨h.isSome_iff now splitId index count data, ?_⟩
  intro r hr
  exact h.completed hr

end FragmentQueue

end RakNet
