/-
Messages that overtake others.

A message that does not keep its place comes out in another one's: its own frames, after those of the leading messages if
it is a whole one, are enough. So the lengths of `InOrder` are all the lengths for which every order of arrival delivers a
prefix of what was sent.

- `any_order_iff`: that equivalence.
- `large_overtakes_small`: a fragmented message that overtakes a whole one.
-/
import RakNet.System.AnyOrder

namespace RakNet

open Lib Lib.Wire

namespace Conn

open OrderedChannel (Synced)

/-! ## Part of the frames of a list of messages -/

theorem allFrames_mono {mtu : Nat} {a b : List Bytes} (h : a <+: b) (n : Nat) (id : UInt16) :
    allFrames mtu n id a <+: allFrames mtu n id b := by
  induction a generalizing b n id with
  | nil => exact List.nil_prefix
  | cons data a ih =>
    obtain ⟨c, rfl⟩ := h
    rw [List.cons_append, allFrames, allFrames]
    exact (List.prefix_append_right_inj _).2 (ih (List.prefix_append a c) _ _)

/-- the frames of the messages before a message, and its own -/
theorem allFrames_at {mtu : Nat} {msgs : List Bytes} {i : Nat} {data : Bytes} (hi : msgs[i]? = some data) (n : Nat)
    (id : UInt16) :
    ∃ id' rest, allFrames mtu n id msgs = allFrames mtu n id (msgs.take i) ++
      (messageFrames mtu (n + totalFrames mtu ((msgs.map List.length).take i)) id' data ++ rest) := by
  induction msgs generalizing i n id with
  | nil => cases hi
  | cons m msgs ih =>
    cases i with
    | zero =>
      cases hi
      exact ⟨id, _, rfl⟩
    | succ i =>
      obtain ⟨id', rest, he⟩ := ih hi (n + frameCount mtu m.length) (if isWhole mtu m.length then id else id + 1)
      refine ⟨id', rest, ?_⟩
      rw [allFrames, he, List.take_succ_cons, allFrames, List.map_cons, List.take_succ_cons, totalFrames_cons,
        List.append_assoc, Nat.add_assoc]

/-- arrivals after arrivals that were all handled -/
theorem arriveAll_append (p : Profile) (envs : Nat → Env) {a b : List Frame} {r r' : Conn}
    (h : handleFrames p envs a r = (.ok (), r')) :
    arriveAll p envs (a ++ b) r = arriveAll p (fun i => envs (i + a.length)) b r' := by
  induction a generalizing envs r with
  | nil =>
    cases h
    rfl
  | cons f a ih =>
    unfold handleFrames at h
    rw [Action.bind_apply] at h
    rw [List.cons_append]
    cases hf : handleFrame p (envs 0) f r with
    | mk res r1 =>
      rw [hf] at h
      cases res with
      | ok u =>
        rw [arriveAll_cons hf, ih _ h]
        simp only [List.length_cons, Nat.add_assoc]
      | err e => cases h
      | panic => cases h

variable {out : List Bytes} {chan : OrderedChannel} {q : FragmentQueue} {r : Conn}

/-- whole messages, as many as there are order indices at most, are delivered in turn -/
theorem Receiving.wholeMessages {w : Nat} (hr : Receiving out chan q r) (hchan : Synced w chan) (hq : Idle q) (p : Profile)
    (envs : Nat → Env) {mtu : Nat} (hmtu : 80 < mtu) (id : UInt16) {msgs : List Bytes}
    (hwhole : ∀ m ∈ msgs, isWhole mtu m.length = true) (hroom : w + msgs.length ≤ 2 ^ 24)
    (hgame : ∀ f ∈ allFrames mtu w id msgs, IsGame f.payload) :
    ∃ chan' q' r', handleFrames p envs (allFrames mtu w id msgs) r = (.ok (), r') ∧
      Receiving (out ++ msgs) chan' q' r' ∧ Synced (w + msgs.length) chan' := by
  induction msgs generalizing w envs out chan q r with
  | nil => exact ⟨chan, q, r, rfl, by rw [List.append_nil]; exact hr, hchan⟩
  | cons data rest ih =>
    have hw := hwhole data List.mem_cons_self
    rw [List.length_cons] at hroom
    rw [allFrames_whole hw] at hgame ⊢
    have hstep : inStep mtu w w data.length = true := by
      rw [inStep, if_pos hw, Nat.mod_eq_of_lt (by omega), decide_eq_true_eq]
    obtain ⟨chan1, q1, r1, he1, hr1, hchan1, hq1⟩ := hr.message hchan hq p envs hmtu hstep
      fun f hf => hgame f (List.mem_append_left _ hf)
    rw [hw, Bool.toNat_true] at hchan1
    obtain ⟨chan2, q2, r2, he2, hr2, hchan2⟩ := ih hr1 hchan1 hq1
      (fun i => envs (i + (messageFrames mtu w id data).length)) (fun m hm => hwhole m (List.mem_cons_of_mem _ hm))
      (by omega) fun f hf => hgame f (List.mem_append_right _ hf)
    refine ⟨chan2, q2, r2, ?_, ?_, ?_⟩
    · rw [handleFrames_append p envs he1, he2]
    · rw [List.append_cons]
      exact hr2
    · rw [List.length_cons, Nat.add_comm rest.length 1, ← Nat.add_assoc]
      exact hchan2

/-- one more whole message, with the order index the channel waits for -/
theorem Receiving.afterWhole {p : Profile} {envs : Nat → Env} {fs : List Frame} {r' : Conn} {w : Nat}
    (he : handleFrames p envs fs r = (.ok (), r')) (hr : Receiving out chan q r') (hchan : Synced w chan) (hw : w < 2 ^ 24)
    {n : Nat} (hn : n % 2 ^ 24 = w) {data : Bytes} (hdata : IsGame data) :
    (arriveAll p envs (fs ++ [buildFrame data (U24.new n) (U24.new n) none]) r).appData = out ++ [data] := by
  obtain ⟨r1, he1, hr1⟩ := hr.whole p (envs (0 + fs.length)) hdata (U24.new n) (U24.new n)
  obtain ⟨hout, -⟩ := hchan.insert hw data
  rw [U24.get_new, hn, hout] at hr1
  have hlast : arriveAll p (fun i => envs (i + fs.length)) [buildFrame data (U24.new n) (U24.new n) none] r' = r1 :=
    arriveAll_cons he1
  rw [arriveAll_append p envs he, hlast]
  exact hr1.appData

/-- the first fragments of a message, as many as their count says -/
theorem Receiving.firstFragments (hr : Receiving out chan q r) (hq : Idle q) (p : Profile) (envs : Nat → Env) (n : Nat)
    (id : UInt16) {count : UInt32} {cs : List Bytes} (hcount : count.toNat = cs.length) (hne : cs ≠ [])
    (hgame : ∀ d ∈ cs, IsGame d) :
    (arriveAll p envs (fragmentFrames n id count 0 cs) r).appData = out ++ [cs.flatten] := by
  obtain ⟨q', r', he, hr', -⟩ := Receiving.allFragments (p := p) envs (n := n) hr (hq.holding id.toNat count.toNat) hne
    (by rw [hcount, List.length_nil, Nat.zero_add]) hgame
  have hall := arriveAll_append (b := []) p envs he
  rw [List.append_nil, List.length_nil] at hall
  rw [hall]
  exact hr'.appData

/-- the leading messages are whole -/
theorem whole_of_take_leading {mtu k : Nat} {msgs : List Bytes} (hk : k ≤ leading mtu (msgs.map List.length)) :
    ∀ m ∈ msgs.take k, isWhole mtu m.length = true := by
  intro m hm
  obtain ⟨t, ht⟩ := List.mem_iff_getElem?.1 hm
  rw [List.getElem?_take] at ht
  split_ifs at ht with htk
  refine isWhole_of_lt_leading (i := t) (lt_of_lt_of_le htk hk) ?_
  rw [List.getElem?_map, ht]
  rfl

/-! ## Messages that can be told apart -/

/-- messages of the given lengths: bytes 1 for message `i`, bytes 2 for all others -/
def marked (i : Nat) (lens : List Nat) : List Bytes :=
  lens.mapIdx fun k len => List.replicate len (if k = i then 1 else 2)

theorem getElem?_marked (i : Nat) (lens : List Nat) (k : Nat) :
    (marked i lens)[k]? = lens[k]?.map fun len => List.replicate len (if k = i then 1 else 2) := by
  rw [marked, List.getElem?_mapIdx]

theorem map_length_marked (i : Nat) (lens : List Nat) : (marked i lens).map List.length = lens := by
  apply List.ext_getElem?
  intro k
  rw [List.getElem?_map, getElem?_marked, Option.map_map]
  cases lens[k]? with
  | none => rfl
  | some len =>
    rw [Option.map_some, Function.comp_apply, List.length_replicate]

theorem bytes_marked {i : Nat} {lens : List Nat} {m : Bytes} (hm : m ∈ marked i lens) : ∀ b ∈ m, b = 1 ∨ b = 2 := by
  obtain ⟨k, hk, rfl⟩ := List.mem_mapIdx.1 hm
  intro b hb
  have hbyte := List.eq_of_mem_replicate hb
  split_ifs at hbyte
  · exact Or.inl hbyte
  · exact Or.inr hbyte

/-- a nonempty part of message `i` is no other message -/
theorem ne_marked {i k len : Nat} {d : Bytes} (hd : d ≠ []) (hbytes : ∀ b ∈ d, b = 1) (hk : k ≠ i) :
    d ≠ List.replicate len (if k = i then 1 else 2) := by
  rintro rfl
  obtain ⟨b, hb⟩ := List.exists_mem_of_ne_nil _ hd
  have hone := hbytes b hb
  have htwo := List.eq_of_mem_replicate hb
  rw [if_neg hk, hone] at htwo
  exact absurd htwo (by decide)

end Conn

namespace Link

open Conn OrderedChannel

variable {l : Link} {lens : List Nat}

theorem admissible_marked (hlens : ∀ len ∈ lens, 0 < len ∧ len ≤ maxBytes) (i : Nat) : l.Admissible (marked i lens) := by
  have hlength : ∀ m ∈ marked i lens, m.length ∈ lens := by
    intro m hm
    rw [← map_length_marked i lens]
    exact List.mem_map_of_mem hm
  refine admissible_of_bytes ?_ (fun m hm => (hlens _ (hlength m hm)).2) fun m hm => bytes_marked hm
  intro m hm
  rw [← List.length_pos_iff]
  exact (hlens _ (hlength m hm)).1

theorem marked_self {i len : Nat} (hi : lens[i]? = some len) : (marked i lens)[i]? = some (List.replicate len 1) := by
  rw [getElem?_marked, hi, Option.map_some, if_pos rfl]

/-- what is delivered at place `k` is the message at place `k` -/
theorem getElem?_of_prefix {msgs out : List Bytes} {d : Bytes} (h : out ++ [d] <+: msgs) : msgs[out.length]? = some d := by
  obtain ⟨more, rfl⟩ := h
  rw [List.append_assoc, List.getElem?_append_right (le_refl _), Nat.sub_self]
  rfl

/-- message `i` at another place is not the message of that place -/
theorem not_prefix_of_marked {i k : Nat} {out : List Bytes} {d : Bytes} (hlen : out.length = k) (hd : d ≠ [])
    (hbytes : ∀ b ∈ d, b = 1) (hk : k ≠ i) : ¬ out ++ [d] <+: marked i lens := by
  intro hprefix
  have hplace := getElem?_of_prefix hprefix
  rw [hlen, getElem?_marked] at hplace
  obtain ⟨len, -, he⟩ := Option.map_eq_some_iff.1 hplace
  exact ne_marked hd hbytes hk he.symm

/-- **A whole message overtakes**: after the leading messages before its order index, it is the one the channel waits for.
-/
theorem whole_overtakes (hlens : ∀ len ∈ lens, 0 < len ∧ len ≤ maxBytes) {i len : Nat} (hi : lens[i]? = some len)
    (hw : isWhole l.mtu.toNat len = true)
    (hle : totalFrames l.mtu.toNat (lens.take i) % 2 ^ 24 ≤ leading l.mtu.toNat lens)
    (hne : totalFrames l.mtu.toNat (lens.take i) % 2 ^ 24 ≠ i) :
    ∃ arrival, arrival.Subperm (l.frames (marked i lens)) ∧ ¬ l.deliveredOf arrival <+: marked i lens := by
  have hadm : l.Admissible (marked i lens) := admissible_marked hlens i
  have hpos : 0 < len := (hlens len (List.mem_of_getElem? hi)).1
  generalize hn : totalFrames l.mtu.toNat (lens.take i) = n at hle hne
  -- a leading message has its own position for an order index, so this one comes later
  have hlt : n % 2 ^ 24 < i := by
    by_contra hge
    have hlead : i ≤ leading l.mtu.toNat lens := by omega
    rw [totalFrames_take hlead] at hn
    omega
  have hbound : n % 2 ^ 24 < 2 ^ 24 := Nat.mod_lt _ (by norm_num)
  have hilt : i < lens.length := (List.getElem?_eq_some_iff.1 hi).1
  have hcount : ((marked i lens).take (n % 2 ^ 24)).length = n % 2 ^ 24 := by
    have hall := congrArg List.length (map_length_marked i lens)
    rw [List.length_map] at hall
    rw [List.length_take]
    omega
  have hwhole : ∀ m ∈ (marked i lens).take (n % 2 ^ 24), isWhole l.mtu.toNat m.length = true :=
    whole_of_take_leading (by rw [map_length_marked]; exact hle)
  obtain ⟨id, rest, hframes⟩ : ∃ id rest, allFrames l.mtu.toNat 0 0 (marked i lens) = _ :=
    allFrames_at (marked_self hi) 0 0
  rw [map_length_marked, hn, Nat.zero_add, messageFrames, List.length_replicate, if_pos hw] at hframes
  have hsub : allFrames l.mtu.toNat 0 0 ((marked i lens).take (n % 2 ^ 24)) <+:
      allFrames l.mtu.toNat 0 0 ((marked i lens).take i) := allFrames_mono (List.take_prefix_take_left hlt.le) 0 0
  have hgame := hadm.isGame
  obtain ⟨chan, q, r, he, hr, hchan⟩ := receiving.wholeMessages synced_new idle l.profile l.recvEnvs l.mtu_gt 0 hwhole
    (by omega) fun f hf => hgame f ((allFrames_mono (List.take_prefix _ _) 0 0).subset hf)
  have hones : List.replicate len (1 : UInt8) ≠ [] := by
    rw [← List.length_pos_iff, List.length_replicate]
    exact hpos
  have hdata : IsGame (List.replicate len 1) := isGame_of_ones hones fun b hb => List.eq_of_mem_replicate hb
  refine ⟨allFrames l.mtu.toNat 0 0 ((marked i lens).take (n % 2 ^ 24)) ++
    [buildFrame (List.replicate len 1) (U24.new n) (U24.new n) none], ?_, ?_⟩
  · rw [frames_eq hadm.size, hframes]
    exact (hsub.sublist.append (List.prefix_append _ rest).sublist).subperm
  · rw [Nat.zero_add, hcount] at hchan
    rw [List.nil_append] at hr
    rw [deliveredOf, Receiving.afterWhole he hr hchan hbound rfl hdata]
    exact not_prefix_of_marked hcount hones (fun b hb => List.eq_of_mem_replicate hb) hne

/-- as many fragments of a message as its count says, alone: they are put together to what they carry -/
theorem fragments_delivered (hlens : ∀ len ∈ lens, 0 < len ∧ len ≤ maxBytes) {i len m : Nat} (hi : lens[i]? = some len)
    (hlong : isWhole l.mtu.toNat len = false) (hm : chunkCount len (l.mtu.toNat - 80) % 2 ^ 32 = m) (hpos : 0 < m) :
    ∃ arrival, arrival.Subperm (l.frames (marked i lens)) ∧
      l.deliveredOf arrival = [(List.replicate len 1).take (m * (l.mtu.toNat - 80))] := by
  have hadm : l.Admissible (marked i lens) := admissible_marked hlens i
  have hsize : 80 < l.mtu.toNat := l.mtu_gt
  have hle : m ≤ chunkCount len (l.mtu.toNat - 80) := by
    rw [← hm]
    exact Nat.mod_le _ _
  have htake : ((chunks (List.replicate len 1) (l.mtu.toNat - 80)).take m).length = m := by
    rw [List.length_take, length_chunks, List.length_replicate]
    omega
  obtain ⟨id, rest, hframes⟩ : ∃ id rest, allFrames l.mtu.toNat 0 0 (marked i lens) = _ :=
    allFrames_at (marked_self hi) 0 0
  rw [map_length_marked, Nat.zero_add, messageFrames, List.length_replicate, if_neg (by simp [hlong])] at hframes
  generalize hc : UInt32.ofNat (chunkCount len (l.mtu.toNat - 80)) = count at hframes
  have hcount : count.toNat = m := by rw [← hc, UInt32.toNat_ofNat', hm]
  have hsome : (chunks (List.replicate len 1) (l.mtu.toNat - 80)).take m ≠ [] := by
    rw [← List.length_pos_iff, htake]
    exact hpos
  refine ⟨fragmentFrames (totalFrames l.mtu.toNat (lens.take i)) id count 0
    ((chunks (List.replicate len 1) (l.mtu.toNat - 80)).take m), ?_, ?_⟩
  · have hsplit := fragmentFrames_append (totalFrames l.mtu.toNat (lens.take i)) id count 0
      ((chunks (List.replicate len 1) (l.mtu.toNat - 80)).take m)
      ((chunks (List.replicate len 1) (l.mtu.toNat - 80)).drop m)
    rw [List.take_append_drop] at hsplit
    rw [frames_eq hadm.size, hframes, hsplit, List.append_assoc]
    exact ((List.prefix_append _ _).sublist.trans (List.sublist_append_right _ _)).subperm
  · rw [← flatten_take_chunks (by rw [List.length_replicate]; exact hle)]
    refine receiving.firstFragments idle l.profile l.recvEnvs _ id (hcount.trans htake.symm) hsome ?_
    intro d hd
    obtain ⟨hne, hmem⟩ := mem_chunks (List.mem_of_mem_take hd)
    exact isGame_of_ones hne fun b hb => List.eq_of_mem_replicate (hmem b hb)

/-- **A fragmented message overtakes**: as many of its fragments as its count says are enough, whatever is missing before
it. If the count was cut to its field, less than the message comes out. -/
theorem fragmented_overtakes (hlens : ∀ len ∈ lens, 0 < len ∧ len ≤ maxBytes) {i len : Nat} (hi : lens[i]? = some len)
    (hlong : isWhole l.mtu.toNat len = false) (hcount : chunkCount len (l.mtu.toNat - 80) % 2 ^ 32 ≠ 0)
    (hbad : i = 0 → 2 ^ 32 ≤ chunkCount len (l.mtu.toNat - 80)) :
    ∃ arrival, arrival.Subperm (l.frames (marked i lens)) ∧ ¬ l.deliveredOf arrival <+: marked i lens := by
  have hsize : 80 < l.mtu.toNat := l.mtu_gt
  generalize hm : chunkCount len (l.mtu.toNat - 80) % 2 ^ 32 = m at hcount
  obtain ⟨arrival, hsub, hdelivered⟩ := fragments_delivered hlens hi hlong hm (Nat.pos_of_ne_zero hcount)
  refine ⟨arrival, hsub, ?_⟩
  rw [hdelivered, ← List.nil_append [(List.replicate len 1).take (m * (l.mtu.toNat - 80))]]
  by_cases h0 : i = 0
  · -- the first message itself, cut short
    intro hprefix
    have hself := marked_self hi
    have hplace := getElem?_of_prefix hprefix
    have hshort : m * (l.mtu.toNat - 80) < len := lt_of_lt_chunkCount (lt_of_lt_of_le (by omega) (hbad h0))
    rw [h0] at hself hplace
    rw [List.length_nil, hself, Option.some.injEq] at hplace
    have hlength := congrArg List.length hplace
    rw [List.length_take, List.length_replicate] at hlength
    omega
  · refine not_prefix_of_marked List.length_nil ?_
      (fun b hb => List.eq_of_mem_replicate (List.mem_of_mem_take hb)) (Ne.symm h0)
    have hpos : 0 < m * (l.mtu.toNat - 80) := Nat.mul_pos (by omega) (by omega)
    have hlen := (hlens len (List.mem_of_getElem? hi)).1
    rw [← List.length_pos_iff, List.length_take, List.length_replicate]
    omega

/-- **When every order of arrival delivers a prefix.** For all lengths and every link: for all messages of these lengths,
whatever part of their frames arrives in whatever order, what has been delivered is a prefix of them (at every moment,
since the frames that have arrived at a moment are such a part), if and only if the lengths keep their places. Up to 2^24
frames that means that no message but the first is fragmented. -/
theorem any_order_iff (l : Link) (lens : List Nat) (hlens : ∀ len ∈ lens, 0 < len ∧ len ≤ maxBytes) :
    ((∀ msgs : List Bytes, msgs.map List.length = lens → l.Admissible msgs →
      ∀ arrival : List Frame, arrival.Subperm (l.frames msgs) → l.deliveredOf arrival <+: msgs) ↔
      InOrder l.mtu.toNat lens) ∧
    (totalFrames l.mtu.toNat lens ≤ 2 ^ 24 →
      (InOrder l.mtu.toNat lens ↔ ∀ len ∈ lens.tail, isWhole l.mtu.toNat len = true)) := by
  refine ⟨⟨?_, ?_⟩, ?_⟩
  · intro hall i len hi
    by_contra hnot
    have hmarked := hall (marked i lens) (map_length_marked i lens) (admissible_marked hlens i)
    unfold keepsPlace at hnot
    cases hw : isWhole l.mtu.toNat len with
    | true =>
      rw [hw, if_pos rfl, Classical.not_imp] at hnot
      obtain ⟨arrival, hsub, hbad⟩ := whole_overtakes hlens hi hw hnot.1 hnot.2
      exact hbad (hmarked arrival hsub)
    | false =>
      rw [hw, if_neg (by simp), not_or] at hnot
      obtain ⟨arrival, hsub, hbad⟩ := fragmented_overtakes hlens hi hw hnot.1 fun h0 =>
        Nat.not_lt.1 fun hlt => hnot.2 ⟨h0, hlt⟩
      exact hbad (hmarked arrival hsub)
  · rintro hin msgs rfl hadm arrival hsub
    exact prefix_of_inOrder hadm hin hsub
  · exact fun hfew => inOrder_iff_of_few l.mtu_gt hfew

/-- two small messages that arrive in reverse order -/
theorem any_order_reversed : link576.deliveredOf (link576.frames [[2], [2, 2]]).reverse <+: [[2], [2, 2]] := by
  have h := any_order_iff link576 [1, 2] (by decide)
  refine h.1.2 ((h.2 (by decide)).2 (by decide)) [[2], [2, 2]] (by decide) ?_ _ (List.reverse_perm _).subperm
  apply admissible_of_bytes
  all_goals decide +kernel

/-- **A large message overtakes a small one.** The small message is still missing when the fragments of the large one
arrive. -/
theorem large_overtakes_small :
    link576.Admissible [[2], List.replicate 517 2] ∧
    ((link576.frames [[2], List.replicate 517 2]).drop 1).Subperm (link576.frames [[2], List.replicate 517 2]) ∧
    link576.deliveredOf ((link576.frames [[2], List.replicate 517 2]).drop 1) = [List.replicate 517 2] ∧
    ¬ link576.deliveredOf ((link576.frames [[2], List.replicate 517 2]).drop 1) <+: [[2], List.replicate 517 2] := by
  have hdel : link576.deliveredOf ((link576.frames [[2], List.replicate 517 2]).drop 1) = [List.replicate 517 2] := by
    decide +kernel
  refine ⟨?_, (List.drop_sublist 1 _).subperm, hdel, ?_⟩
  · apply admissible_of_bytes
    all_goals decide +kernel
  · rw [hdel]
    decide +kernel

end Link

end RakNet
