/-
The fragments of several messages, interleaved.

Any number of messages up to the limit of the fragment queue are cut by `send_fragmented`, each under a split id of its
own, and their fragments reach a fresh queue in any order, with repetitions as long as the message is not complete.

- `Parts.arrive`: what the queue holds after the fragments that have come so far, and what the next one hands out.
- `interleaved_iff`: every message comes out once, with its last missing fragment, exactly when every fragment count fits
  its 32-bit field.
- `huge_message_lost`: a message of 2^32 fragments.
-/
import RakNet.System.Reassembly

namespace RakNet

open Lib Lib.Wire Conn

namespace Interleaved

/-- a message, the connection that sends it, and the environments of its sends -/
structure Message where
  sender : Conn
  envs : Nat → Env
  data : Bytes

namespace Message

def splitId (m : Message) : Nat := m.sender.shared.splitId.toNat

def chunkSize (m : Message) : Nat := m.sender.shared.mtu.toNat - 80

/-- how many fragments it is cut into -/
def count (m : Message) : Nat := chunkCount m.data.length m.chunkSize

/-- the fragments `send_fragmented` transmits, with their split headers -/
def parts (p : Profile) (m : Message) : List (Bytes × Option SplitInfo) :=
  (fragmentsOf p m.envs m.data m.sender).map partOf

end Message

/-- messages that are sent in fragments, under different split ids, on sockets that take everything -/
structure Family (mtu : Nat) (msgs : List Message) : Prop where
  lower : 576 ≤ mtu
  upper : mtu ≤ 1500
  sender : ∀ m ∈ msgs, m.sender.shared.mtu.toNat = mtu
  sends : ∀ m ∈ msgs, ∀ i, (m.envs i).sendError = none
  long : ∀ m ∈ msgs, mtu - 60 < m.data.length ∧ m.data.length ≤ maxBytes
  ids : (msgs.map Message.splitId).Nodup
  few : msgs.length ≤ 512

/-- fragment `index` of message number `message` arrives -/
structure Arrival where
  message : Nat
  index : Nat
  now : Nat

/-- the message and fragment numbers that have come -/
def seen (as : List Arrival) : List (Nat × Nat) := as.map fun a => (a.message, a.index)

/-- all fragments of message number `k` have come -/
def Complete (m : Message) (k : Nat) (as : List Arrival) : Prop := ∀ i < m.count, (k, i) ∈ seen as

instance (m : Message) (k : Nat) (as : List Arrival) : Decidable (Complete m k as) :=
  inferInstanceAs (Decidable (∀ i < m.count, (k, i) ∈ seen as))

/-- every fragment at least once, and none after its message is complete -/
structure Schedule (msgs : List Message) (as : List Arrival) : Prop where
  inRange : ∀ a ∈ as, ∃ m, msgs[a.message]? = some m ∧ a.index < m.count
  every : ∀ (k : Nat) m, msgs[k]? = some m → Complete m k as
  early : ∀ (n : Nat) a m, as[n]? = some a → msgs[a.message]? = some m → ¬ Complete m a.message (as.take n)

/-- `handle_frame` gives the fragment to the queue -/
def insertPart (q : FragmentQueue) (now : Nat) : Bytes × Option SplitInfo → Option Bytes × FragmentQueue
  | (_, none) => (none, q)
  | (payload, some info) => q.insert now info.id.toNat info.index.toNat info.count.toNat payload

def arrive (p : Profile) (msgs : List Message) (q : FragmentQueue) (a : Arrival) : Option Bytes × FragmentQueue :=
  match msgs[a.message]? with
  | none => (none, q)
  | some m =>
    match (m.parts p)[a.index]? with
    | none => (none, q)
    | some x => insertPart q a.now x

/-- a fresh queue after these arrivals -/
def queueAfter (p : Profile) (msgs : List Message) (as : List Arrival) : FragmentQueue :=
  Machine.run (fun q a => (arrive p msgs q a).2) .new as

/-- what the arrival number `n` hands out -/
def returned (p : Profile) (msgs : List Message) (as : List Arrival) (n : Nat) (a : Arrival) : Option Bytes :=
  (arrive p msgs (queueAfter p msgs (as.take n)) a).1

/-- every message is returned, once, byte for byte and with its last missing fragment, nothing else is, and the queue ends
empty -/
structure Delivered (p : Profile) (msgs : List Message) (as : List Arrival) : Prop where
  last : ∀ (n : Nat) a m, as[n]? = some a → msgs[a.message]? = some m →
    returned p msgs as n a = if Complete m a.message (as.take n ++ [a]) then some m.data else none
  once : ∀ (k : Nat) m, msgs[k]? = some m →
    ∃! n, ∃ a, as[n]? = some a ∧ a.message = k ∧ (returned p msgs as n a).isSome = true
  empty : (queueAfter p msgs as).splits = ∅

/-! ## The fragments of a message -/

variable {mtu : Nat} {msgs : List Message} {m : Message}

theorem Family.chunkSize (h : Family mtu msgs) (hm : m ∈ msgs) : m.chunkSize = mtu - 80 := by
  rw [Message.chunkSize, h.sender m hm]

theorem Family.one_lt_count (h : Family mtu msgs) (hm : m ∈ msgs) : 1 < m.count := by
  have hl := h.lower
  have hlong := (h.long m hm).1
  rw [Message.count, h.chunkSize hm]
  exact one_lt_chunkCount (by omega) (by omega)

/-- **A fragment arrives**: the chunk, under the split id of its message, with index and count as 32-bit numbers. -/
theorem Family.arrive_eq (h : Family mtu msgs) (p : Profile) {a : Arrival} (hm : msgs[a.message]? = some m) {chunk : Bytes}
    (hchunk : (chunks m.data m.chunkSize)[a.index]? = some chunk) (q : FragmentQueue) :
    arrive p msgs q a = q.insert a.now m.splitId (a.index % 2 ^ 32) (m.count % 2 ^ 32) chunk := by
  have hmem := List.mem_of_getElem? hm
  have hl := h.lower
  have hmtu := h.sender m hmem
  have hparts : m.parts p = headed m.sender.shared.splitId (UInt32.ofNat m.count) 0 (chunks m.data m.chunkSize) :=
    parts_fragmentsOf p (h.sends m hmem) (by omega) (h.long m hmem).2
  have hpart : (m.parts p)[a.index]? =
      some (chunk, some ⟨UInt32.ofNat m.count, m.sender.shared.splitId, UInt32.ofNat a.index⟩) := by
    rw [hparts, getElem?_headed, hchunk, Nat.zero_add]
    rfl
  simp only [arrive, hm, hpart, insertPart, UInt32.toNat_ofNat']
  rfl

theorem length_parts (m : Message) : (chunks m.data m.chunkSize).length = m.count := length_chunks m.data m.chunkSize

/-- a number below the count is that of a chunk -/
theorem exists_chunk {m : Message} {i : Nat} (h : i < m.count) :
    ∃ d ∈ chunks m.data m.chunkSize, (chunks m.data m.chunkSize)[i]? = some d := by
  have hlt : i < (chunks m.data m.chunkSize).length := by
    rw [length_parts]
    exact h
  exact ⟨_, List.getElem_mem hlt, List.getElem?_eq_getElem hlt⟩

/-! ## What has come -/

theorem seen_snoc (as : List Arrival) (a : Arrival) : seen (as ++ [a]) = seen as ++ [(a.message, a.index)] := by
  rw [seen, List.map_append]
  rfl

theorem mem_seen_snoc {as : List Arrival} {a : Arrival} {k i : Nat} :
    (k, i) ∈ seen (as ++ [a]) ↔ (k, i) ∈ seen as ∨ a.message = k ∧ a.index = i := by
  rw [seen_snoc, List.mem_append, List.mem_singleton, Prod.mk.injEq]
  simp only [eq_comm]

/-- a fragment of another message does not matter -/
theorem complete_snoc_other {k : Nat} {as : List Arrival} {a : Arrival} (h : a.message ≠ k) :
    Complete m k (as ++ [a]) ↔ Complete m k as := by
  simp only [Complete, mem_seen_snoc, h, false_and, or_false]

theorem Complete.mono {k : Nat} {as bs : List Arrival} (h : Complete m k as) (hab : as <+: bs) : Complete m k bs := by
  obtain ⟨cs, rfl⟩ := hab
  intro i hi
  rw [seen, List.map_append]
  exact List.mem_append_left _ (h i hi)

theorem take_snoc {as : List Arrival} {n : Nat} {a : Arrival} (ha : as[n]? = some a) :
    as.take (n + 1) = as.take n ++ [a] := by
  rw [List.take_add_one, ha, Option.toList_some]

theorem Schedule.index_lt {as : List Arrival} (h : Schedule msgs as) {n : Nat} {a : Arrival} (ha : as[n]? = some a)
    (hm : msgs[a.message]? = some m) : a.index < m.count := by
  obtain ⟨m', hm', hindex⟩ := h.inRange a (List.mem_of_getElem? ha)
  rw [hm] at hm'
  cases hm'
  exact hindex

/-- **The last missing fragment** of a message arrives exactly once. -/
theorem Schedule.existsUnique_last {as : List Arrival} (h : Schedule msgs as) {k : Nat} (hm : msgs[k]? = some m)
    (hcount : 0 < m.count) :
    ∃! n, ∃ a, as[n]? = some a ∧ a.message = k ∧ Complete m k (as.take n ++ [a]) := by
  have hall : ∃ n, Complete m k (as.take n) := ⟨as.length, by rw [List.take_length]; exact h.every k m hm⟩
  have hfind := Nat.find_spec hall
  have hmin : ∀ n, n < Nat.find hall → ¬ Complete m k (as.take n) := fun n hn => Nat.find_min hall hn
  have hzero : Nat.find hall ≠ 0 := by
    intro h0
    rw [h0, List.take_zero] at hfind
    cases hfind 0 hcount
  obtain ⟨n, hn⟩ := Nat.exists_eq_succ_of_ne_zero hzero
  rw [hn, Nat.succ_eq_add_one, List.take_add_one] at hfind
  have hbefore := hmin n (by omega)
  cases ha : as[n]? with
  | none =>
    rw [ha, Option.toList_none, List.append_nil] at hfind
    exact absurd hfind hbefore
  | some a =>
    rw [ha, Option.toList_some] at hfind
    have hmessage : a.message = k := by
      by_contra hne
      exact hbefore ((complete_snoc_other hne).1 hfind)
    refine ⟨n, ⟨a, ha, hmessage, hfind⟩, ?_⟩
    rintro n' ⟨a', ha', hmessage', hlast'⟩
    have hearly' := h.early n' a' m ha' (by rw [hmessage']; exact hm)
    have hearly := h.early n a m ha (by rw [hmessage]; exact hm)
    rw [hmessage'] at hearly'
    rw [hmessage] at hearly
    rw [← take_snoc ha] at hfind
    rw [← take_snoc ha'] at hlast'
    -- whichever came first completed the message, and the other came too late
    by_contra hne
    rcases Nat.lt_or_gt_of_ne hne with hlt | hgt
    · exact hearly (hlast'.mono (List.take_prefix_take_left hlt))
    · exact hearly' (hfind.mono (List.take_prefix_take_left hgt))

/-! ## What the queue holds -/

/-- the fragments of message number `k` that have come, by their index -/
def gotten (m : Message) (k : Nat) (as : List Arrival) (i : Nat) : Option Bytes :=
  if (k, i) ∈ seen as then (chunks m.data m.chunkSize)[i]? else none

/-- the queue after some arrivals: of every message the fragments that have come, unless it is complete -/
structure Parts (msgs : List Message) (as : List Arrival) (q : FragmentQueue) : Prop where
  limit : q.maxConcurrent = 512
  own : ∀ (id : Nat) e, q.splits[id]? = some e → id ∈ msgs.map Message.splitId
  done : ∀ (k : Nat) m, msgs[k]? = some m → Complete m k as → q.splits[m.splitId]? = none
  total : ∀ (k : Nat) m, msgs[k]? = some m → ¬ Complete m k as →
    ∀ now, (q.entryAt now m.splitId m.count).totalCount = m.count
  held : ∀ (k : Nat) m, msgs[k]? = some m → ¬ Complete m k as →
    ∀ now (i : Nat), (q.entryAt now m.splitId m.count).fragments[i]? = gotten m k as i

theorem parts_new (msgs : List Message) : Parts msgs [] .new := by
  have hentry : ∀ now id count, FragmentQueue.new.entryAt now id count = ⟨count, ∅, now⟩ := fun _ _ _ => rfl
  refine ⟨rfl, ?_, fun _ _ _ _ => NatMap.get?_empty _, fun _ _ _ _ _ => rfl, ?_⟩
  · intro id e he
    rw [FragmentQueue.new, FragmentQueue.withCapacity, NatMap.get?_empty] at he
    cases he
  · intro k m _ _ now i
    rw [hentry, NatMap.get?_empty, gotten, if_neg (by rw [seen]; exact List.not_mem_nil)]

theorem splitId_ne {k k' : Nat} {m m' : Message} (h : Family mtu msgs) (hm : msgs[k]? = some m) (hm' : msgs[k']? = some m')
    (hne : k ≠ k') : m.splitId ≠ m'.splitId := by
  intro heq
  have hk : (msgs.map Message.splitId)[k]? = some m.splitId := by rw [List.getElem?_map, hm, Option.map_some]
  have hk' : (msgs.map Message.splitId)[k']? = some m'.splitId := by rw [List.getElem?_map, hm', Option.map_some]
  rw [← heq, ← hk] at hk'
  exact hne ((List.getElem?_inj (List.getElem?_eq_some_iff.1 hk).1 h.ids).1 hk'.symm)

variable {as : List Arrival} {q : FragmentQueue}

/-- there is room for every message of the family -/
theorem Parts.admits (h : Parts msgs as q) (hf : Family mtu msgs) (hm : m ∈ msgs) : q.admits m.splitId = true := by
  rw [FragmentQueue.admits, h.limit, NatMap.contains_eq]
  cases hs : q.splits[m.splitId]? with
  | some e => simp
  | none =>
    have hid : m.splitId ∈ msgs.map Message.splitId := List.mem_map_of_mem hm
    have hsub : q.splits.toList.map Prod.fst ⊆ (msgs.map Message.splitId).erase m.splitId := by
      intro id hmem
      obtain ⟨⟨id', e⟩, he, rfl⟩ := List.mem_map.1 hmem
      have hget := (NatMap.mem_toList _ _ _).1 he
      have hne : id' ≠ m.splitId := by
        rintro rfl
        rw [hs] at hget
        cases hget
      exact (List.mem_erase_of_ne hne).2 (h.own id' e hget)
    have hle := ((NatMap.nodup_keys q.splits).subperm hsub).length_le
    have hfew := hf.few
    have hpos : 0 < msgs.length := List.length_pos_of_mem hm
    rw [List.length_map, Std.ExtTreeMap.length_toList, List.length_erase_of_mem hid, List.length_map] at hle
    simp only [Option.isSome_none, Bool.or_false, decide_eq_true_eq]
    omega

/-- the arrival of a fragment leaves the other messages as they are -/
theorem Parts.of (h : Parts msgs as q) (hf : Family mtu msgs) {a : Arrival} (hm : msgs[a.message]? = some m)
    {q' : FragmentQueue} (hlimit : q'.maxConcurrent = 512)
    (hother : ∀ id, id ≠ m.splitId → q'.splits[id]? = q.splits[id]?)
    (hdone : Complete m a.message (as ++ [a]) → q'.splits[m.splitId]? = none)
    (hopen : ¬ Complete m a.message (as ++ [a]) → ∀ now, (q'.entryAt now m.splitId m.count).totalCount = m.count ∧
      ∀ i : Nat, (q'.entryAt now m.splitId m.count).fragments[i]? = gotten m a.message (as ++ [a]) i) :
    Parts msgs (as ++ [a]) q' := by
  have hsame : ∀ {k : Nat} {m' : Message}, msgs[k]? = some m' → a.message ≠ k →
      q'.splits[m'.splitId]? = q.splits[m'.splitId]? ∧ ∀ now, q'.entryAt now m'.splitId m'.count =
        q.entryAt now m'.splitId m'.count := by
    intro k m' hm' hne
    have hid := hother m'.splitId (splitId_ne hf hm' hm (Ne.symm hne))
    refine ⟨hid, ?_⟩
    intro now
    rw [FragmentQueue.entryAt, FragmentQueue.entryAt, hid]
  refine ⟨hlimit, ?_, ?_, ?_, ?_⟩
  · intro id e he
    by_cases hid : id = m.splitId
    · rw [hid]
      exact List.mem_map_of_mem (List.mem_of_getElem? hm)
    · rw [hother id hid] at he
      exact h.own id e he
  · intro k m' hm' hc
    by_cases hk : a.message = k
    · subst hk
      rw [hm] at hm'
      cases hm'
      exact hdone hc
    · rw [(hsame hm' hk).1]
      exact h.done k m' hm' ((complete_snoc_other hk).1 hc)
  · intro k m' hm' hc now
    by_cases hk : a.message = k
    · subst hk
      rw [hm] at hm'
      cases hm'
      exact (hopen hc now).1
    · rw [(hsame hm' hk).2]
      exact h.total k m' hm' (fun hc' => hc ((complete_snoc_other hk).2 hc')) now
  · intro k m' hm' hc now i
    by_cases hk : a.message = k
    · subst hk
      rw [hm] at hm'
      cases hm'
      exact (hopen hc now).2 i
    · rw [(hsame hm' hk).2, h.held k m' hm' (fun hc' => hc ((complete_snoc_other hk).2 hc')) now i]
      simp only [gotten, mem_seen_snoc, hk, false_and, or_false]

/-- the fragments with the one that has just come -/
theorem gotten_snoc {a : Arrival} {chunk : Bytes} (hchunk : (chunks m.data m.chunkSize)[a.index]? = some chunk)
    {fragments : NatMap Bytes} (hgot : ∀ i : Nat, fragments[i]? = gotten m a.message as i) (i : Nat) :
    (fragments.insert a.index chunk)[i]? = gotten m a.message (as ++ [a]) i := by
  rw [NatMap.get?_insert, gotten]
  split_ifs with hi hmem hmem
  · rw [← hi, hchunk]
  · exact absurd (mem_seen_snoc.2 (Or.inr ⟨rfl, hi⟩)) hmem
  · rw [hgot, gotten]
    rcases mem_seen_snoc.1 hmem with hold | ⟨-, hnew⟩
    · rw [if_pos hold]
    · exact absurd hnew hi
  · rw [hgot, gotten, if_neg (fun hold => hmem (mem_seen_snoc.2 (Or.inl hold)))]

theorem Complete.gotten {k : Nat} (h : Complete m k as) (i : Nat) :
    gotten m k as i = (chunks m.data m.chunkSize)[i]? := by
  rw [Interleaved.gotten]
  split_ifs with hi
  · rfl
  · rw [List.getElem?_eq_none]
    rw [length_parts]
    by_contra hlt
    exact hi (h i (by omega))

/-- a fragment that has come before changes nothing -/
theorem again {a : Arrival} (hseen : (a.message, a.index) ∈ seen as) (m : Message) :
    (Complete m a.message (as ++ [a]) ↔ Complete m a.message as) ∧
      ∀ i, Interleaved.gotten m a.message (as ++ [a]) i = Interleaved.gotten m a.message as i := by
  have hsame : ∀ i, (a.message, i) ∈ seen (as ++ [a]) ↔ (a.message, i) ∈ seen as := by
    intro i
    rw [mem_seen_snoc]
    constructor
    · rintro (hold | ⟨-, rfl⟩)
      · exact hold
      · exact hseen
    · exact Or.inl
  simp only [Complete, Interleaved.gotten, hsame, implies_true, and_self]

/-- a message is complete when as many of its fragments have come as it has -/
theorem complete_iff_size {k : Nat} {fragments : NatMap Bytes} (hgot : ∀ i : Nat, fragments[i]? = gotten m k as i) :
    Complete m k as ↔ fragments.size = m.count := by
  constructor
  · intro hc
    have hpos : ∀ i : Nat, fragments[i]? = (chunks m.data m.chunkSize)[i]? := fun i => (hgot i).trans (hc.gotten i)
    rw [NatMap.size_of_positions hpos, length_parts]
  · intro hsize i hi
    by_contra hmissing
    have hfew : fragments.size < m.count := by
      apply NatMap.size_lt_of_missing hi
      intro j d hj
      rw [hgot, gotten] at hj
      split_ifs at hj with hmem
      refine ⟨?_, ?_⟩
      · rw [← length_parts]
        exact (List.getElem?_eq_some_iff.1 hj).1
      · rintro rfl
        exact hmissing hmem
    omega

theorem reassemble_of_complete {k : Nat} {fragments : NatMap Bytes} (hgot : ∀ i : Nat, fragments[i]? = gotten m k as i)
    (hc : Complete m k as) (hpos : 0 < m.chunkSize) : FragmentQueue.reassemble fragments = m.data := by
  have hall : ∀ i : Nat, fragments[i]? = (chunks m.data m.chunkSize)[i]? := fun i => (hgot i).trans (hc.gotten i)
  rw [FragmentQueue.reassemble, NatMap.values_of_positions hall, chunks_flatten m.data hpos]

/-- **One arrival**, where the fragment counts fit: the message if it was the last missing fragment, and the queue holds what
has come since. -/
theorem Parts.arrive (h : Parts msgs as q) (hf : Family mtu msgs) (p : Profile) {a : Arrival}
    (hm : msgs[a.message]? = some m) (hindex : a.index < m.count) (hearly : ¬ Complete m a.message as)
    (hfits : m.count < 2 ^ 32) :
    (arrive p msgs q a).1 = (if Complete m a.message (as ++ [a]) then some m.data else none) ∧
      Parts msgs (as ++ [a]) (arrive p msgs q a).2 := by
  have hmem := List.mem_of_getElem? hm
  have hpos : 0 < m.chunkSize := by
    have hl := hf.lower
    rw [hf.chunkSize hmem]
    omega
  obtain ⟨chunk, -, hchunk⟩ := exists_chunk hindex
  have htotal := h.total a.message m hm hearly a.now
  have hheld := h.held a.message m hm hearly a.now
  have hgot := gotten_snoc hchunk hheld
  rw [hf.arrive_eq p hm hchunk, Nat.mod_eq_of_lt (lt_trans hindex hfits), Nat.mod_eq_of_lt hfits]
  rcases q.insert_cases a.now m.splitId a.index m.count chunk with ⟨hbad, -⟩ | ⟨-, -, hne, -⟩ | ⟨-, -, -, ⟨d, hd⟩, he⟩ |
    ⟨-, -, -, -, hsize, he⟩ | ⟨-, -, -, -, hsize, he⟩
  · rcases hbad with hge | hfull
    · omega
    · rw [h.admits hf hmem] at hfull
      cases hfull
  · exact absurd htotal hne
  · -- a fragment that is there already
    have hseen : (a.message, a.index) ∈ seen as := by
      rw [hheld, gotten] at hd
      by_contra hnot
      rw [if_neg hnot] at hd
      cases hd
    obtain ⟨hcomplete, hgotten⟩ := again hseen m
    have hopen : ¬ Complete m a.message (as ++ [a]) := mt hcomplete.1 hearly
    rw [he, if_neg hopen]
    refine ⟨rfl, h.of hf hm h.limit (fun _ _ => rfl) (fun hc => absurd hc hopen) ?_⟩
    intro _ now
    refine ⟨h.total a.message m hm hearly now, ?_⟩
    intro i
    rw [h.held a.message m hm hearly now i, hgotten i]
  · -- the last missing one
    have hc := (complete_iff_size hgot).2 hsize
    rw [he, if_pos hc, reassemble_of_complete hgot hc hpos]
    refine ⟨rfl, h.of hf hm h.limit ?_ ?_ (fun hopen => absurd hc hopen)⟩
    · intro id hid
      dsimp only
      rw [NatMap.get?_erase, if_neg (Ne.symm hid)]
    · intro _
      dsimp only
      rw [NatMap.get?_erase, if_pos rfl]
  · -- one more, and others are missing
    have hopen : ¬ Complete m a.message (as ++ [a]) := fun hc => hsize ((complete_iff_size hgot).1 hc)
    rw [he, if_neg hopen]
    refine ⟨rfl, h.of hf hm h.limit ?_ (fun hc => absurd hc hopen) ?_⟩
    · intro id hid
      dsimp only
      rw [NatMap.get?_insert, if_neg (Ne.symm hid)]
    · intro _ now
      rw [FragmentQueue.entryAt_of_some (by rw [NatMap.get?_insert, if_pos rfl])]
      exact ⟨htotal, hgot⟩

/-! ## Whole schedules -/

theorem queueAfter_snoc (p : Profile) (msgs : List Message) (as : List Arrival) (a : Arrival) :
    queueAfter p msgs (as ++ [a]) = (arrive p msgs (queueAfter p msgs as) a).2 := Machine.run_snoc _ _ _ _

/-- what each arrival of a schedule keeps holds after every number of arrivals -/
theorem Schedule.take_induction (hs : Schedule msgs as) (p : Profile) {P : List Arrival → FragmentQueue → Prop}
    (hnew : P [] .new) (harrive : ∀ n a m, as[n]? = some a → msgs[a.message]? = some m → a.index < m.count →
      P (as.take n) (queueAfter p msgs (as.take n)) →
      P (as.take n ++ [a]) (arrive p msgs (queueAfter p msgs (as.take n)) a).2) (n : Nat) :
    P (as.take n) (queueAfter p msgs (as.take n)) := by
  induction n with
  | zero => exact hnew
  | succ n ih =>
    cases ha : as[n]? with
    | none =>
      rw [List.take_add_one, ha, Option.toList_none, List.append_nil]
      exact ih
    | some a =>
      obtain ⟨m, hm, hindex⟩ := hs.inRange a (List.mem_of_getElem? ha)
      rw [take_snoc ha, queueAfter_snoc]
      exact harrive n a m ha hm hindex ih

theorem Schedule.parts (hs : Schedule msgs as) (hf : Family mtu msgs) (p : Profile) (hfits : ∀ m ∈ msgs, m.count < 2 ^ 32)
    (n : Nat) : Parts msgs (as.take n) (queueAfter p msgs (as.take n)) := by
  apply hs.take_induction p (parts_new msgs)
  intro n a m ha hm hindex ih
  exact (ih.arrive hf p hm hindex (hs.early n a m ha hm) (hfits m (List.mem_of_getElem? hm))).2

theorem Schedule.returned_eq (hs : Schedule msgs as) (hf : Family mtu msgs) (p : Profile)
    (hfits : ∀ m ∈ msgs, m.count < 2 ^ 32) {n : Nat} {a : Arrival} (ha : as[n]? = some a)
    (hm : msgs[a.message]? = some m) :
    returned p msgs as n a = if Complete m a.message (as.take n ++ [a]) then some m.data else none := by
  have hindex := hs.index_lt ha hm
  exact ((hs.parts hf p hfits n).arrive hf p hm hindex (hs.early n a m ha hm) (hfits m (List.mem_of_getElem? hm))).1

/-- every count fits: every message comes out -/
theorem Schedule.delivered (hs : Schedule msgs as) (hf : Family mtu msgs) (p : Profile)
    (hfits : ∀ m ∈ msgs, m.count < 2 ^ 32) : Delivered p msgs as := by
  refine ⟨fun n a m ha hm => hs.returned_eq hf p hfits ha hm, ?_, ?_⟩
  · intro k m hm
    have hcount := hf.one_lt_count (List.mem_of_getElem? hm)
    have hiff : ∀ n, (∃ a, as[n]? = some a ∧ a.message = k ∧ (returned p msgs as n a).isSome = true) ↔
        ∃ a, as[n]? = some a ∧ a.message = k ∧ Complete m k (as.take n ++ [a]) := by
      intro n
      apply exists_congr
      intro a
      apply and_congr_right
      intro ha
      apply and_congr_right
      rintro rfl
      rw [hs.returned_eq hf p hfits ha hm]
      split_ifs with hc
      · exact iff_of_true rfl hc
      · exact iff_of_false (by simp) hc
    simp only [hiff]
    exact hs.existsUnique_last hm (by omega)
  · have hparts := hs.parts hf p hfits as.length
    rw [List.take_length] at hparts
    apply Std.ExtTreeMap.ext_getElem?
    intro id
    rw [NatMap.get?_empty]
    cases he : (queueAfter p msgs as).splits[id]? with
    | none => rfl
    | some e =>
      obtain ⟨m, hmem, rfl⟩ := List.mem_map.1 (hparts.own id e he)
      obtain ⟨k, hk⟩ := List.mem_iff_getElem?.1 hmem
      rw [hparts.done k m hk (hs.every k m hk)] at he
      cases he

/-! ## A count that does not fit -/

/-- held fragments carry the truncated count of their message and are no longer than a chunk -/
def Short (msgs : List Message) (id total _index : Nat) (d : Bytes) : Prop :=
  ∀ m ∈ msgs, id = m.splitId → total = m.count % 2 ^ 32 ∧ d.length ≤ m.chunkSize

theorem Family.short (h : Family mtu msgs) (hm : m ∈ msgs) {d : Bytes} (hd : d ∈ chunks m.data m.chunkSize) (index : Nat) :
    Short msgs m.splitId (m.count % 2 ^ 32) index d := by
  intro m' hm' hid
  have heq : m = m' := List.inj_on_of_nodup_map h.ids hm hm' hid
  rw [← heq]
  exact ⟨rfl, length_le_of_mem_chunks hd⟩

theorem Schedule.holds_short (hs : Schedule msgs as) (hf : Family mtu msgs) (p : Profile) (n : Nat) :
    (queueAfter p msgs (as.take n)).Holds (Short msgs) := by
  apply hs.take_induction p (P := fun _ q => q.Holds (Short msgs)) (FragmentQueue.holds_of_empty rfl)
  intro n a m _ hm hindex ih
  obtain ⟨d, hd, hchunk⟩ := exists_chunk hindex
  rw [hf.arrive_eq p hm hchunk]
  exact (ih.insert _ _ _ _ fun _ => hf.short (List.mem_of_getElem? hm) hd _).1

/-- whatever is returned for a message has at most as many chunks as its truncated count says -/
theorem Schedule.length_returned_le (hs : Schedule msgs as) (hf : Family mtu msgs) (p : Profile) {n : Nat} {a : Arrival}
    (ha : as[n]? = some a) (hm : msgs[a.message]? = some m) {r : Bytes} (hr : returned p msgs as n a = some r) :
    r.length ≤ m.count % 2 ^ 32 * m.chunkSize := by
  have hmem := List.mem_of_getElem? hm
  obtain ⟨d, hd, hchunk⟩ := exists_chunk (hs.index_lt ha hm)
  rw [returned, hf.arrive_eq p hm hchunk] at hr
  obtain ⟨fragments, -, hsize, hall, rfl⟩ := ((hs.holds_short hf p n).insert a.now m.splitId (a.index % 2 ^ 32)
    (m.count % 2 ^ 32) fun _ => hf.short hmem hd _).2 r hr
  rw [← hsize]
  apply FragmentQueue.length_reassemble_le
  intro k d hk
  exact (hall k d hk m hmem rfl).2

theorem Schedule.not_delivered (hs : Schedule msgs as) (hf : Family mtu msgs) (p : Profile) {m : Message} (hmem : m ∈ msgs)
    (hbig : 2 ^ 32 ≤ m.count) : ¬ Delivered p msgs as := by
  intro hd
  obtain ⟨k, hm⟩ := List.mem_iff_getElem?.1 hmem
  obtain ⟨n, ⟨a, ha, rfl, hsome⟩, -⟩ := hd.once k m hm
  have hlast := hd.last n a m ha hm
  have hr : returned p msgs as n a = some m.data := by
    rw [hlast] at hsome ⊢
    by_cases hc : Complete m a.message (as.take n ++ [a])
    · rw [if_pos hc]
    · rw [if_neg hc] at hsome
      cases hsome
  have hle := hs.length_returned_le hf p ha hm hr
  have hlt : m.count % 2 ^ 32 < m.count := lt_of_lt_of_le (Nat.mod_lt _ (by decide)) hbig
  have hshort := lt_of_lt_chunkCount hlt
  omega

/-- **Interleaved fragments.** For every MTU the protocol allows, every family of long messages under different split ids and
every order in which their fragments reach a fresh queue, each at least once and none after its message is complete: every
message is returned exactly once, byte for byte and with its last missing fragment, nothing else is returned and the queue
ends empty, if and only if every message has fewer than 2^32 fragments. -/
theorem interleaved_iff (p : Profile) (mtu : Nat) (msgs : List Message) (as : List Arrival) (hf : Family mtu msgs)
    (hs : Schedule msgs as) : Delivered p msgs as ↔ ∀ m ∈ msgs, m.count < 2 ^ 32 := by
  constructor
  · intro hd m hm
    by_contra hbig
    exact hs.not_delivered hf p hm (Nat.not_lt.1 hbig) hd
  · exact hs.delivered hf p

/-! ## Fragments in order -/

/-- the fragments of a single message, one after the other -/
def inOrder (n : Nat) : List Arrival := (List.range n).map fun i => ⟨0, i, 0⟩

theorem getElem?_inOrder {n i : Nat} {a : Arrival} (h : (inOrder n)[i]? = some a) : i < n ∧ a = ⟨0, i, 0⟩ := by
  rw [inOrder, List.getElem?_map] at h
  obtain ⟨j, hj, rfl⟩ := Option.map_eq_some_iff.1 h
  obtain ⟨hlt, rfl⟩ := List.getElem?_eq_some_iff.1 hj
  rw [List.length_range] at hlt
  exact ⟨hlt, by rw [List.getElem_range]⟩

theorem seen_take_inOrder (n i : Nat) : seen ((inOrder n).take i) = (List.range (min i n)).map fun j => (0, j) := by
  rw [inOrder, seen, ← List.map_take, List.take_range, List.map_map]
  rfl

theorem schedule_inOrder (m : Message) : Schedule [m] (inOrder m.count) := by
  refine ⟨?_, ?_, ?_⟩
  · intro a ha
    obtain ⟨i, hi, rfl⟩ := List.mem_map.1 ha
    exact ⟨m, rfl, List.mem_range.1 hi⟩
  · intro k m' hm'
    cases k with
    | succ k => cases hm'
    | zero =>
      cases hm'
      intro i hi
      have hseen := seen_take_inOrder m.count (inOrder m.count).length
      rw [List.take_length] at hseen
      rw [hseen]
      refine List.mem_map.2 ⟨i, List.mem_range.2 ?_, rfl⟩
      rw [inOrder, List.length_map, List.length_range, Nat.min_self]
      exact hi
  · intro n a m' ha hm' hc
    obtain ⟨hn, rfl⟩ := getElem?_inOrder ha
    cases hm'
    -- fragment number `n` has not come before arrival number `n`
    have hself := hc n hn
    rw [seen_take_inOrder] at hself
    obtain ⟨j, hj, heq⟩ := List.mem_map.1 hself
    rw [List.mem_range, Nat.min_eq_left (le_of_lt hn)] at hj
    cases heq
    omega

/-- a message from a fresh connection with MTU 576, on a socket that takes everything -/
def fresh576 (data : Bytes) : Message := ⟨Conn.new 576 0 true, fun _ => quietEnv, data⟩

theorem family_fresh576 {data : Bytes} (hlong : 516 < data.length) (hlen : data.length ≤ maxBytes) :
    Family 576 [fresh576 data] := by
  have hone : ∀ {m : Message}, m ∈ [fresh576 data] → m = fresh576 data := fun hm => List.mem_singleton.1 hm
  refine ⟨by omega, by omega, ?_, ?_, ?_, List.nodup_singleton _, by simp⟩
  · intro m hm
    rw [hone hm]
    rfl
  · intro m hm i
    rw [hone hm]
    rfl
  · intro m hm
    rw [hone hm]
    exact ⟨hlong, hlen⟩

/-- a message of 517 bytes comes together -/
theorem interleaved_two :
    Family 576 [fresh576 (List.replicate 517 0)] ∧ Schedule [fresh576 (List.replicate 517 0)] (inOrder 2) ∧
      Delivered .dev [fresh576 (List.replicate 517 0)] (inOrder 2) := by
  have hf : Family 576 [fresh576 (List.replicate 517 0)] := by
    apply family_fresh576
    · rw [List.length_replicate]
      decide
    · rw [List.length_replicate]
      decide
  have hcount : (fresh576 (List.replicate 517 0)).count = 2 := by
    rw [Message.count, fresh576, List.length_replicate]
    rfl
  have hs := schedule_inOrder (fresh576 (List.replicate 517 0))
  rw [hcount] at hs
  refine ⟨hf, hs, (interleaved_iff .dev 576 _ _ hf hs).2 ?_⟩
  intro m hm
  rw [List.mem_singleton.1 hm, hcount]
  decide

/-- 2^32 chunks of 496 bytes -/
def hugeMessage : Message := fresh576 (List.replicate (496 * 2 ^ 32) 0)

theorem count_hugeMessage : hugeMessage.count = 2 ^ 32 := by
  rw [Message.count, hugeMessage, fresh576, List.length_replicate]
  rfl

/-- **A message that is lost.** Its count is written as 0, so the queue refuses every one of its fragments. -/
theorem huge_message_lost :
    Family 576 [hugeMessage] ∧ Schedule [hugeMessage] (inOrder (2 ^ 32)) ∧
      ¬ Delivered .dev [hugeMessage] (inOrder (2 ^ 32)) := by
  have hf : Family 576 [hugeMessage] := by
    apply family_fresh576
    · rw [List.length_replicate]
      decide
    · rw [List.length_replicate]
      decide
  have hs := schedule_inOrder hugeMessage
  rw [count_hugeMessage] at hs
  exact ⟨hf, hs, hs.not_delivered hf .dev List.mem_cons_self (le_of_eq count_hugeMessage.symm)⟩

end Interleaved

end RakNet
