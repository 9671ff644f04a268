/-
Messages over a link that delivers frames in any order and loses any of them.

A whole message waits in the ordered channel for its index. A fragmented one is handed to the application when its last
fragment arrives, whatever is still missing before it. So what the application sees is in order for every order of arrival
only if there is nothing a fragmented message could overtake.

- `InOrder`: which lengths of messages leave nothing to overtake.
- `prefix_of_inOrder`: what is delivered of such messages is a prefix of them, at every moment.
-/
import Mathlib.Data.List.TakeWhile
import RakNet.System.EndToEnd
import RakNet.System.Reassembly

namespace RakNet

open Lib Lib.Wire

namespace Conn

open OrderedChannel (Follows Synced)

/-! ## Which lengths stay in order -/

/-- how many messages stand before the first fragmented one -/
def leading (mtu : Nat) (lens : List Nat) : Nat := (lens.takeWhile (isWhole mtu)).length

/-- message `i` is never handed out in another message's place: a whole one has an order index the channel never comes to,
or its own position; a fragmented one is refused, or is the first message and comes together in full -/
def keepsPlace (mtu : Nat) (lens : List Nat) (i len : Nat) : Prop :=
  if isWhole mtu len then
    totalFrames mtu (lens.take i) % 2 ^ 24 ≤ leading mtu lens → totalFrames mtu (lens.take i) % 2 ^ 24 = i
  else
    chunkCount len (mtu - 80) % 2 ^ 32 = 0 ∨ (i = 0 ∧ chunkCount len (mtu - 80) < 2 ^ 32)

/-- every message of these lengths keeps its place -/
def InOrder (mtu : Nat) (lens : List Nat) : Prop := ∀ i len, lens[i]? = some len → keepsPlace mtu lens i len

/-! ## The frames of a list of messages -/

/-- a frame belongs to a message, and its number starts where the frames before that message end -/
theorem mem_allFrames_at {mtu : Nat} {msgs : List Bytes} {n : Nat} {id : UInt16} {f : Frame}
    (h : f ∈ allFrames mtu n id msgs) :
    ∃ (i : Nat) (data : Bytes) (id' : UInt16), msgs[i]? = some data ∧ (i = 0 → id' = id) ∧
      f ∈ messageFrames mtu (n + totalFrames mtu ((msgs.map List.length).take i)) id' data := by
  induction msgs generalizing n id with
  | nil => cases h
  | cons data rest ih =>
    rcases List.mem_append.1 h with h | h
    · exact ⟨0, data, id, rfl, fun _ => rfl, h⟩
    · obtain ⟨i, data', id', hi, -, hf⟩ := ih h
      refine ⟨i + 1, data', id', hi, fun h0 => absurd h0 (Nat.succ_ne_zero i), ?_⟩
      rw [List.map_cons, List.take_succ_cons, totalFrames_cons, ← Nat.add_assoc]
      exact hf

/-- before the first fragmented message every message is one frame -/
theorem totalFrames_take {mtu : Nat} {lens : List Nat} {i : Nat} (h : i ≤ leading mtu lens) :
    totalFrames mtu (lens.take i) = i := by
  induction lens generalizing i with
  | nil =>
    rw [leading, List.takeWhile_nil, List.length_nil, Nat.le_zero] at h
    rw [h]
    rfl
  | cons len lens ih =>
    cases i with
    | zero => rfl
    | succ i =>
      unfold leading at h
      cases hw : isWhole mtu len with
      | true =>
        rw [List.takeWhile_cons_of_pos hw, List.length_cons, Nat.add_le_add_iff_right] at h
        rw [List.take_succ_cons, totalFrames_cons, frameCount_of_whole hw, ih h, Nat.add_comm]
      | false =>
        rw [List.takeWhile_cons_of_neg (by simp [hw])] at h
        simp at h

theorem isWhole_of_lt_leading {mtu : Nat} {lens : List Nat} {i len : Nat} (h : i < leading mtu lens)
    (hi : lens[i]? = some len) : isWhole mtu len = true := by
  have hsame := (List.takeWhile_prefix (isWhole mtu)).getElem h
  rw [← (List.getElem?_eq_some_iff.1 hi).2, ← hsame]
  exact List.mem_takeWhile_imp (List.getElem_mem h)

/-- the message after the leading ones is fragmented -/
theorem isWhole_leading {mtu : Nat} {lens : List Nat} {len : Nat} (hi : lens[leading mtu lens]? = some len) :
    isWhole mtu len = false := by
  induction lens with
  | nil => cases hi
  | cons x lens ih =>
    unfold leading at hi ih
    cases hw : isWhole mtu x with
    | true =>
      rw [List.takeWhile_cons_of_pos hw] at hi
      exact ih hi
    | false =>
      rw [List.takeWhile_cons_of_neg (by simp [hw])] at hi
      cases hi
      exact hw

theorem leading_le (mtu : Nat) (lens : List Nat) : leading mtu lens ≤ lens.length :=
  (List.takeWhile_sublist _).length_le

/-- more leading messages than order indices would not keep their places -/
theorem InOrder.leading_le {mtu : Nat} {lens : List Nat} (h : InOrder mtu lens) : leading mtu lens ≤ 2 ^ 24 := by
  by_contra hgt
  have hlt : 2 ^ 24 < leading mtu lens := Nat.not_le.1 hgt
  have hlen : 2 ^ 24 < lens.length := lt_of_lt_of_le hlt (Conn.leading_le mtu lens)
  have hi : lens[2 ^ 24]? = some (lens.get ⟨2 ^ 24, hlen⟩) := List.getElem?_eq_getElem hlen
  have hkeep := h _ _ hi
  rw [keepsPlace, if_pos (isWhole_of_lt_leading hlt hi), totalFrames_take hlt.le, Nat.mod_self] at hkeep
  exact absurd (hkeep (Nat.zero_le _)) (by norm_num)

theorem totalFrames_take_add_le {mtu : Nat} {lens : List Nat} {i len : Nat} (h : lens[i]? = some len) :
    totalFrames mtu (lens.take i) + frameCount mtu len ≤ totalFrames mtu lens := by
  induction lens generalizing i with
  | nil => cases h
  | cons x lens ih =>
    cases i with
    | zero =>
      cases h
      rw [List.take_zero, totalFrames_cons, totalFrames, List.map_nil, List.sum_nil]
      omega
    | succ i =>
      have hrest := ih h
      rw [List.take_succ_cons, totalFrames_cons, totalFrames_cons]
      omega

theorem one_lt_frameCount {mtu len : Nat} (hmtu : 80 < mtu) (h : isWhole mtu len = false) : 1 < frameCount mtu len := by
  have hlen : mtu - 60 < len := by simpa [isWhole] using h
  rw [frameCount_of_long h]
  exact one_lt_chunkCount (by omega) (by omega)

theorem leading_of_all {mtu : Nat} {lens : List Nat} (h : ∀ len ∈ lens, isWhole mtu len = true) :
    leading mtu lens = lens.length := by
  rw [leading, List.takeWhile_eq_self_iff.2 h]

/-- **Up to 2^24 frames** messages keep their places exactly when none but the first is fragmented. -/
theorem inOrder_iff_of_few {mtu : Nat} (hmtu : 80 < mtu) {lens : List Nat} (hfew : totalFrames mtu lens ≤ 2 ^ 24) :
    InOrder mtu lens ↔ ∀ len ∈ lens.tail, isWhole mtu len = true := by
  constructor
  · intro h len hmem
    by_contra hnot
    have hlong : isWhole mtu len = false := by simpa using hnot
    obtain ⟨i, hi⟩ := List.mem_iff_getElem?.1 hmem
    rw [List.getElem?_tail] at hi
    have hle : totalFrames mtu (lens.take _) + frameCount mtu len ≤ totalFrames mtu lens := totalFrames_take_add_le hi
    have hmany := one_lt_frameCount hmtu hlong
    have hkeep := h _ _ hi
    rw [frameCount_of_long hlong] at hle hmany
    rw [keepsPlace, if_neg (by simp [hlong]), Nat.mod_eq_of_lt (by omega)] at hkeep
    omega
  · intro h i len hi
    have hle : totalFrames mtu (lens.take _) + frameCount mtu len ≤ totalFrames mtu lens := totalFrames_take_add_le hi
    unfold keepsPlace
    cases hw : isWhole mtu len with
    | false =>
      -- only the first message can be a fragmented one
      rw [frameCount_of_long hw] at hle
      refine Or.inr ⟨?_, by omega⟩
      cases i with
      | zero => rfl
      | succ i =>
        have hmem : len ∈ lens.tail := List.mem_of_getElem? (by rw [List.getElem?_tail]; exact hi)
        rw [h len hmem] at hw
        cases hw
    | true =>
      rw [frameCount_of_whole hw] at hle
      rw [if_pos rfl, Nat.mod_eq_of_lt (by omega)]
      intro hlead
      cases lens with
      | nil => cases hi
      | cons x lens =>
        cases hx : isWhole mtu x with
        | true =>
          have hall : ∀ y ∈ x :: lens, isWhole mtu y = true := by
            intro y hy
            rcases List.mem_cons.1 hy with rfl | hy
            · exact hx
            · exact h y hy
          apply totalFrames_take
          rw [leading_of_all hall]
          exact (List.getElem?_eq_some_iff.1 hi).1.le
        | false =>
          cases i with
          | zero => rfl
          | succ i =>
            have hmany := one_lt_frameCount hmtu hx
            rw [leading, List.takeWhile_cons_of_neg (by simp [hx]), List.length_nil, List.take_succ_cons,
              totalFrames_cons] at hlead
            omega

/-! ## Frames that keep the order -/

/-- a whole message that keeps its place, as a frame -/
def WholeInPlace (msgs : List Bytes) (j : Nat) (f : Frame) : Prop :=
  ∃ (n : Nat) (d : Bytes), f = buildFrame d (U24.new n) (U24.new n) none ∧
    (n % 2 ^ 24 ≤ j → n % 2 ^ 24 < j ∧ msgs[n % 2 ^ 24]? = some d)

/-- a fragment of a message that the fragment queue refuses -/
def Refused (f : Frame) : Prop := ∃ info, f.split = some info ∧ info.count.toNat = 0

/-- a fragment of the message with these chunks -/
def PartOf (id : UInt16) (cs : List Bytes) (f : Frame) : Prop :=
  ∃ i, cs[i]? = some f.payload ∧ f.split = some ⟨UInt32.ofNat cs.length, id, UInt32.ofNat i⟩

theorem mem_fragmentFrames_at {n : Nat} {id : UInt16} {count : UInt32} {index : Nat} {cs : List Bytes} {f : Frame}
    (h : f ∈ fragmentFrames n id count index cs) :
    ∃ i, cs[i]? = some f.payload ∧ f.split = some ⟨count, id, UInt32.ofNat (index + i)⟩ := by
  induction cs generalizing index with
  | nil => cases h
  | cons chunk cs ih =>
    rcases List.mem_cons.1 h with rfl | h
    · exact ⟨0, rfl, rfl⟩
    · obtain ⟨i, hi, hs⟩ := ih h
      refine ⟨i + 1, hi, ?_⟩
      rw [hs, Nat.add_assoc, Nat.add_comm 1]

/-- **The frames of messages that keep their places**: whole messages in their places, refused fragments, and fragments of
the first message. -/
theorem InOrder.frames {mtu : Nat} {msgs : List Bytes} (h : InOrder mtu (msgs.map List.length)) {f : Frame}
    (hf : f ∈ allFrames mtu 0 0 msgs) :
    WholeInPlace msgs (leading mtu (msgs.map List.length)) f ∨ Refused f ∨
    ∃ data, msgs[0]? = some data ∧ isWhole mtu data.length = false ∧ chunkCount data.length (mtu - 80) < 2 ^ 32 ∧
      PartOf 0 (chunks data (mtu - 80)) f := by
  obtain ⟨i, data, id, hi, hid, hf⟩ := mem_allFrames_at hf
  have hlen : (msgs.map List.length)[i]? = some data.length := by
    rw [List.getElem?_map, hi]
    rfl
  have hkeep := h i data.length hlen
  rw [Nat.zero_add] at hf
  unfold keepsPlace at hkeep
  unfold messageFrames at hf
  cases hw : isWhole mtu data.length with
  | true =>
    rw [hw, if_pos rfl] at hkeep hf
    refine Or.inl ⟨_, data, List.mem_singleton.1 hf, ?_⟩
    intro hle
    have hplace := hkeep hle
    rw [hplace] at hle ⊢
    refine ⟨lt_of_le_of_ne hle ?_, hi⟩
    rintro rfl
    rw [isWhole_leading hlen] at hw
    cases hw
  | false =>
    rw [hw, if_neg (by simp)] at hkeep hf
    obtain ⟨k, hk, hs⟩ := mem_fragmentFrames_at hf
    rw [Nat.zero_add] at hs
    rcases hkeep with hzero | ⟨rfl, hfits⟩
    · refine Or.inr (Or.inl ⟨_, hs, ?_⟩)
      dsimp only
      rw [UInt32.toNat_ofNat', hzero]
    · refine Or.inr (Or.inr ⟨data, hi, hw, hfits, k, hk, ?_⟩)
      rw [length_chunks, ← hid rfl]
      exact hs

/-- the frame is a fragment that the fragment queue looks at -/
def isPart (f : Frame) : Bool := match f.split with
  | some info => decide (0 < info.count.toNat)
  | none => false

theorem countP_isPart_le {mtu : Nat} {data : Bytes} {rest : List Bytes}
    (h : InOrder mtu ((data :: rest).map List.length)) :
    (allFrames mtu 0 0 (data :: rest)).countP isPart ≤ (messageFrames mtu 0 0 data).length := by
  have hrest : ∀ n id, (allFrames mtu n id rest).countP isPart = 0 := by
    intro n id
    rw [List.countP_eq_zero]
    intro f hf
    obtain ⟨i, data', id', hi, -, hf⟩ := mem_allFrames_at hf
    have hlen : ((data :: rest).map List.length)[i + 1]? = some data'.length := by
      rw [List.map_cons, List.getElem?_cons_succ, List.getElem?_map, hi]
      rfl
    have hkeep := h (i + 1) data'.length hlen
    unfold keepsPlace at hkeep
    unfold messageFrames at hf
    cases hw : isWhole mtu data'.length with
    | true =>
      rw [hw, if_pos rfl] at hf
      rw [List.mem_singleton.1 hf]
      simp [isPart, buildFrame, Frame.withOrder, Frame.withMessageIndex, Frame.new]
    | false =>
      rw [hw, if_neg (by simp)] at hkeep hf
      obtain ⟨k, -, hs⟩ := mem_fragmentFrames_at hf
      rcases hkeep with hzero | ⟨h0, -⟩
      · simpa [isPart, hs] using hzero
      · exact absurd h0 (Nat.succ_ne_zero i)
  rw [allFrames, List.countP_append, hrest, Nat.add_zero]
  exact List.countP_le_length

/-! ## Arrivals -/

variable {out : List Bytes} {chan : OrderedChannel} {q : FragmentQueue} {r : Conn}

/-- a fragment, whether its log line overflows or not -/
theorem Receiving.partStep (hr : Receiving out chan q r) (p : Profile) (env : Env) {f : Frame} (hp : IsGame f.payload)
    {info : SplitInfo} (hs : f.split = some info) :
    Receiving (out ++ (q.insert env.now info.id.toNat info.index.toNat info.count.toNat f.payload).1.toList) chan
      (q.insert env.now info.id.toNat info.index.toNat info.count.toNat f.payload).2 (handleFrame p env f r).2 ∨
    (handleFrame p env f r).2 = r := by
  cases hok : (p.add 32 info.index.toNat 1).isOk with
  | true =>
    obtain ⟨r', he, hr'⟩ := hr.part env hp hs hok
    rw [he]
    exact Or.inl hr'
  | false =>
    right
    rw [handleFrame_eq, kind_of_isGame hr.connected hp]
    simp only [FrameKind.act, handleGamePacket_eq]
    rw [if_neg (by simp [hs]), deliverFragment_panic hs hok]

/-- a refused fragment changes nothing -/
theorem Receiving.refusedStep (hr : Receiving out chan q r) (p : Profile) (env : Env) {f : Frame} (hp : IsGame f.payload)
    (hf : Refused f) : Receiving out chan q (handleFrame p env f r).2 := by
  obtain ⟨info, hs, hzero⟩ := hf
  rcases hr.partStep p env hp hs with hr' | he
  · have hrefuse : q.insert env.now info.id.toNat info.index.toNat info.count.toNat f.payload = (none, q) := by
      rw [FragmentQueue.insert, if_pos (by rw [hzero]; exact Nat.zero_le _)]
    rw [hrefuse] at hr'
    simpa using hr'
  · rw [he]
    exact hr

/-- a whole message in its place -/
theorem Receiving.wholeStep {msgs : List Bytes} {j : Nat} (hr : Receiving out chan q r) (hchan : Follows msgs j chan)
    (hj : j < 2 ^ 32) (p : Profile) (env : Env) {f : Frame} (hp : IsGame f.payload) (hf : WholeInPlace msgs j f) :
    ∃ more chan', Receiving (out ++ more) chan' q (handleFrame p env f r).2 ∧ Follows msgs j chan' ∧
      msgs.take chan.nextIndex ++ more = msgs.take chan'.nextIndex := by
  obtain ⟨n, d, rfl, hplace⟩ := hf
  have hd : IsGame d := hp
  obtain ⟨r', he, hr'⟩ := hr.whole p env hd (U24.new n) (U24.new n)
  rw [U24.get_new] at hr'
  obtain ⟨hnext, htake⟩ := hchan.insert hj hplace
  rw [he]
  exact ⟨_, _, hr', hnext, htake⟩

/-- **Only whole messages are delivered**: a prefix of the leading ones. -/
theorem Receiving.onlyWhole {msgs : List Bytes} {j : Nat} (hr : Receiving (msgs.take chan.nextIndex) chan q r)
    (hchan : Follows msgs j chan) (hj : j < 2 ^ 32) (p : Profile) (envs : Nat → Env) {fs : List Frame}
    (hfs : ∀ f ∈ fs, IsGame f.payload ∧ (WholeInPlace msgs j f ∨ Refused f)) :
    (arriveAll p envs fs r).appData <+: msgs := by
  have hinv : ∃ chan q, Receiving (msgs.take chan.nextIndex) chan q (arriveAll p envs fs r) ∧ Follows msgs j chan := by
    refine arriveAll_inv (P := fun c => ∃ chan q, Receiving (msgs.take chan.nextIndex) chan q c ∧ Follows msgs j chan) p
      ?_ envs hfs ⟨chan, q, hr, hchan⟩
    rintro env f c ⟨hgame, hf⟩ ⟨chan, q, hc, hfollows⟩
    rcases hf with hwhole | hrefused
    · obtain ⟨more, chan', hc', hfollows', htake⟩ := hc.wholeStep hfollows hj p env hgame hwhole
      rw [htake] at hc'
      exact ⟨chan', q, hc', hfollows'⟩
    · exact ⟨chan, q, hc.refusedStep p env hgame hrefused, hfollows⟩
  obtain ⟨chan', q', hend, -⟩ := hinv
  rw [hend.appData]
  exact List.take_prefix _ _

theorem arriveAll_cons_cases (p : Profile) (envs : Nat → Env) (f : Frame) (fs : List Frame) (c : Conn) :
    arriveAll p envs (f :: fs) c = (handleFrame p (envs 0) f c).2 ∨
    arriveAll p envs (f :: fs) c = arriveAll p (fun i => envs (i + 1)) fs (handleFrame p (envs 0) f c).2 := by
  rw [arriveAll]
  cases handleFrame p (envs 0) f c with
  | mk res c' =>
    cases res with
    | ok u => exact Or.inr rfl
    | err e => exact Or.inr rfl
    | panic => exact Or.inl rfl

/-- the first message is being put together: `t` copies of it are out, `got` is held, and there are not enough fragments
left for more than one copy -/
structure FirstOnly (data : Bytes) (cs : List Bytes) (t : Nat) (got : NatMap Bytes) (left : Nat) (msgs : List Bytes)
    (r : Conn) : Prop where
  receiving : ∃ chan q, Receiving (List.replicate t data) chan q r ∧ Follows msgs 0 chan ∧
    q.Gathering 0 cs.length got ∧ 0 < q.maxConcurrent
  held : ∀ (k : Nat) d, got[k]? = some d → cs[k]? = some d
  budget : t * cs.length + got.size + left ≤ cs.length

theorem FirstOnly.mono {data : Bytes} {cs : List Bytes} {t left left' : Nat} {got : NatMap Bytes} {msgs : List Bytes}
    (h : FirstOnly data cs t got left msgs r) (hle : left' ≤ left) : FirstOnly data cs t got left' msgs r :=
  ⟨h.receiving, h.held, le_trans (Nat.add_le_add_left hle _) h.budget⟩

/-- a fragment of the first message -/
theorem FirstOnly.partStep {data : Bytes} {cs : List Bytes} {t left : Nat} {got : NatMap Bytes} {msgs : List Bytes}
    (h : FirstOnly data cs t got (left + 1) msgs r) (hcs : cs.flatten = data) (hlen : cs.length < 2 ^ 32) (p : Profile)
    (env : Env) {f : Frame} (hp : IsGame f.payload) (hf : PartOf 0 cs f) :
    ∃ t' got', FirstOnly data cs t' got' left msgs (handleFrame p env f r).2 := by
  obtain ⟨i, hi, hs⟩ := hf
  obtain ⟨chan, q, hr, hchan, hq, hroom⟩ := h.receiving
  have hlt : i < cs.length := (List.getElem?_eq_some_iff.1 hi).1
  have hindex : (UInt32.ofNat i).toNat = i := by
    rw [UInt32.toNat_ofNat', Nat.mod_eq_of_lt (by omega)]
  have hcount : (UInt32.ofNat cs.length).toNat = cs.length := by
    rw [UInt32.toNat_ofNat', Nat.mod_eq_of_lt hlen]
  have hbudget := h.budget
  rcases hr.partStep p env hp hs with hr' | he
  · dsimp only at hr'
    rw [hindex, hcount, show (0 : UInt16).toNat = 0 from rfl] at hr'
    cases hold : got[i]? with
    | some d =>
      rw [hq.insert_again env.now f.payload hold] at hr'
      simp only [Option.toList_none, List.append_nil] at hr'
      exact ⟨t, got, ⟨chan, q, hr', hchan, hq, hroom⟩, h.held, by omega⟩
    | none =>
      have hheld : ∀ (k : Nat) d, (got.insert i f.payload)[k]? = some d → cs[k]? = some d :=
        NatMap.forall_insert hi h.held
      have hsize := NatMap.size_insert_of_none f.payload hold
      have hroom' : 0 < (q.insert env.now 0 i cs.length f.payload).2.maxConcurrent := by
        rw [FragmentQueue.maxConcurrent_insert]
        exact hroom
      rcases hq.insert env.now f.payload hlt hold with ⟨hlast, hmsg, hempty⟩ | ⟨-, hmsg, hnext⟩
      · -- the last missing fragment: one more copy is out, and nothing is held
        have hall := NatMap.positions_of_size hheld (by omega)
        rw [hmsg, FragmentQueue.reassemble, NatMap.values_of_positions hall, hcs, Option.toList_some,
          ← List.replicate_succ'] at hr'
        refine ⟨t + 1, ∅, ⟨chan, _, hr', hchan, FragmentQueue.gathering_of_empty hempty hroom' 0 cs.length, hroom'⟩, ?_, ?_⟩
        · intro k d hk
          rw [NatMap.get?_empty] at hk
          cases hk
        · rw [Nat.succ_mul, show (∅ : NatMap Bytes).size = 0 from rfl]
          omega
      · rw [hmsg] at hr'
        simp only [Option.toList_none, List.append_nil] at hr'
        exact ⟨t, got.insert i f.payload, ⟨chan, _, hr', hchan, hnext, hroom'⟩, hheld, by omega⟩
  · rw [he]
    exact ⟨t, got, h.mono (Nat.le_succ left)⟩

/-- **Only the first message is delivered**, once. -/
theorem FirstOnly.arrivals {data : Bytes} {cs : List Bytes} {t : Nat} {got : NatMap Bytes} {msgs : List Bytes}
    {fs : List Frame} (h : FirstOnly data cs t got (fs.countP isPart) msgs r) (hcs : cs.flatten = data)
    (hlen : cs.length < 2 ^ 32) (p : Profile) (envs : Nat → Env)
    (hfs : ∀ f ∈ fs, IsGame f.payload ∧ (WholeInPlace msgs 0 f ∨ Refused f ∨ PartOf 0 cs f)) :
    ∃ t', (arriveAll p envs fs r).appData = List.replicate t' data ∧ t' * cs.length ≤ cs.length := by
  induction fs generalizing t got r envs with
  | nil =>
    obtain ⟨chan, q, hr, -⟩ := h.receiving
    have hbudget := h.budget
    exact ⟨t, hr.appData, by omega⟩
  | cons f fs ih =>
    obtain ⟨hgame, hf⟩ := hfs f List.mem_cons_self
    have hrest := fun g hg => hfs g (List.mem_cons_of_mem _ hg)
    have hcounted : fs.countP isPart ≤ (f :: fs).countP isPart := (List.sublist_cons_self f fs).countP_le
    have hstep : ∃ t' got', FirstOnly data cs t' got' (fs.countP isPart) msgs (handleFrame p (envs 0) f r).2 := by
      rcases hf with hwhole | hrefused | hpart
      · obtain ⟨chan, q, hr, hchan, hq⟩ := h.receiving
        obtain ⟨more, chan', hr', hchan', htake⟩ := hr.wholeStep hchan (by norm_num) p (envs 0) hgame hwhole
        have hnone : more = [] := by
          rw [Nat.le_zero.1 hchan.next, Nat.le_zero.1 hchan'.next, List.take_zero] at htake
          exact htake
        rw [hnone, List.append_nil] at hr'
        exact ⟨t, got, ⟨chan', q, hr', hchan', hq⟩, h.held, (h.mono hcounted).budget⟩
      · obtain ⟨chan, q, hr, hchan, hq⟩ := h.receiving
        exact ⟨t, got, ⟨chan, q, hr.refusedStep p (envs 0) hgame hrefused, hchan, hq⟩, h.held,
          (h.mono hcounted).budget⟩
      · have hone : (f :: fs).countP isPart = fs.countP isPart + 1 := by
          obtain ⟨i, hi, hs⟩ := hpart
          have hlt : i < cs.length := (List.getElem?_eq_some_iff.1 hi).1
          rw [List.countP_cons_of_pos]
          simp only [isPart, hs, UInt32.toNat_ofNat', Nat.mod_eq_of_lt hlen, decide_eq_true_eq]
          omega
        rw [hone] at h
        exact h.partStep hcs hlen p (envs 0) hgame hpart
    obtain ⟨t', got', hnext⟩ := hstep
    rcases arriveAll_cons_cases p envs f fs r with he | he
    · rw [he]
      obtain ⟨chan, q, hr, -⟩ := hnext.receiving
      have hbudget := hnext.budget
      exact ⟨t', hr.appData, by omega⟩
    · rw [he]
      exact ih hnext _ hrest

end Conn

namespace Link

open Conn

variable (l : Link)

/-- the payloads sent to `app_data_tx` when these frames arrive, each in a datagram of its own -/
def deliveredOf (arrival : List Frame) : List Bytes := (arriveAll l.profile l.recvEnvs arrival l.receiver).appData

variable {l} {msgs : List Bytes} {arrival : List Frame}

theorem length_messageFrames {mtu : Nat} {data : Bytes} (hlong : isWhole mtu data.length = false) (n : Nat) (id : UInt16) :
    (messageFrames mtu n id data).length = (chunks data (mtu - 80)).length := by
  rw [messageFrames, if_neg (by simp [hlong])]
  have hpayloads := congrArg List.length (payloads_fragmentFrames n id
    (UInt32.ofNat (chunkCount data.length (mtu - 80))) 0 (chunks data (mtu - 80)))
  rw [List.length_map] at hpayloads
  exact hpayloads

/-- a fresh receiver, before the fragments of the first message -/
theorem firstOnly_receiver {data : Bytes} {rest : List Bytes} (hlong : isWhole l.mtu.toNat data.length = false)
    (hin : InOrder l.mtu.toNat ((data :: rest).map List.length))
    (harr : arrival.Subperm (allFrames l.mtu.toNat 0 0 (data :: rest))) :
    FirstOnly data (chunks data (l.mtu.toNat - 80)) 0 ∅ (arrival.countP isPart) (data :: rest) l.receiver := by
  refine ⟨⟨.new, .new, receiving, OrderedChannel.follows_new _ 0, idle.gathering 0 _, idle.room⟩, ?_, ?_⟩
  · intro k d hk
    rw [NatMap.get?_empty] at hk
    cases hk
  · rw [Nat.zero_mul, Nat.zero_add, show (∅ : NatMap Bytes).size = 0 from rfl, Nat.zero_add]
    calc arrival.countP isPart
        ≤ (allFrames l.mtu.toNat 0 0 (data :: rest)).countP isPart := harr.countP_le isPart
      _ ≤ (messageFrames l.mtu.toNat 0 0 data).length := countP_isPart_le hin
      _ = (chunks data (l.mtu.toNat - 80)).length := length_messageFrames hlong 0 0

/-- a fragmented first message: it comes out once or not at all, and nothing else does -/
theorem prefix_of_long_first {data : Bytes} {rest : List Bytes} (hlong : isWhole l.mtu.toNat data.length = false)
    (hfits : chunkCount data.length (l.mtu.toNat - 80) < 2 ^ 32)
    (hin : InOrder l.mtu.toNat ((data :: rest).map List.length)) (hgame : ∀ f ∈ arrival, IsGame f.payload)
    (harr : arrival.Subperm (allFrames l.mtu.toNat 0 0 (data :: rest))) : l.deliveredOf arrival <+: data :: rest := by
  have hsize : 80 < l.mtu.toNat := l.mtu_gt
  have hlen : l.mtu.toNat - 60 < data.length := by simpa [isWhole] using hlong
  have hmany : 1 < chunkCount data.length (l.mtu.toNat - 80) := one_lt_chunkCount (by omega) (by omega)
  have hleading : leading l.mtu.toNat ((data :: rest).map List.length) = 0 := by
    rw [leading, List.map_cons, List.takeWhile_cons_of_neg (by simp [hlong])]
    rfl
  have hframes : ∀ f ∈ arrival, IsGame f.payload ∧ (WholeInPlace (data :: rest) 0 f ∨ Refused f ∨
      PartOf 0 (chunks data (l.mtu.toNat - 80)) f) := by
    intro f hf
    refine ⟨hgame f hf, ?_⟩
    rw [← hleading]
    rcases hin.frames (harr.subset hf) with hw | hr | ⟨data', hdata', -, -, hpart⟩
    · exact Or.inl hw
    · exact Or.inr (Or.inl hr)
    · cases hdata'
      exact Or.inr (Or.inr hpart)
  obtain ⟨t, ht, hbudget⟩ := (firstOnly_receiver hlong hin harr).arrivals (chunks_flatten data (by omega))
    (by rw [length_chunks]; exact hfits) l.profile l.recvEnvs hframes
  rw [length_chunks] at hbudget
  have hone : t ≤ 1 := by
    by_contra hgt
    have htwo := Nat.mul_le_mul_right (chunkCount data.length (l.mtu.toNat - 80)) (show 2 ≤ t by omega)
    omega
  rw [deliveredOf, ht]
  rcases Nat.le_one_iff_eq_zero_or_eq_one.1 hone with rfl | rfl
  · exact List.nil_prefix
  · exact ⟨rest, rfl⟩

/-- **In order**, whatever the order of arrival and whatever is lost. -/
theorem prefix_of_inOrder (h : l.Admissible msgs) (hin : InOrder l.mtu.toNat (msgs.map List.length))
    (harr : arrival.Subperm (l.frames msgs)) : l.deliveredOf arrival <+: msgs := by
  rw [frames_eq h.size] at harr
  have hgame : ∀ f ∈ arrival, IsGame f.payload := fun f hf => h.isGame f (harr.subset hf)
  by_cases hfirst : ∃ data, msgs[0]? = some data ∧ isWhole l.mtu.toNat data.length = false ∧
      chunkCount data.length (l.mtu.toNat - 80) < 2 ^ 32
  · obtain ⟨data, hdata, hlong, hfits⟩ := hfirst
    cases msgs with
    | nil => cases hdata
    | cons m rest =>
      cases hdata
      exact prefix_of_long_first hlong hfits hin hgame harr
  · have hbound := hin.leading_le
    have hr : Receiving (msgs.take OrderedChannel.new.nextIndex) .new .new l.receiver := receiving
    refine hr.onlyWhole (OrderedChannel.follows_new msgs (leading l.mtu.toNat (msgs.map List.length))) (by omega)
      l.profile l.recvEnvs ?_
    intro f hf
    refine ⟨hgame f hf, ?_⟩
    rcases hin.frames (harr.subset hf) with hw | hr | ⟨data, hdata, hlong, hfits, -⟩
    · exact Or.inl hw
    · exact Or.inr hr
    · exact absurd ⟨data, hdata, hlong, hfits⟩ hfirst

end Link

end RakNet
