/-
The fragments of one message, in any order.

`send_fragmented` cuts a message wherever a chunk ends, and `handle_frame` looks at the first byte of every frame before
it looks at its split header. A chunk that happens to start with the byte of a control packet is taken for one.

- `fragments_opaque_iff`: whatever the order of arrival, the message is delivered and the connection stays up exactly when
  no chunk starts with such a byte and the fragment count fits its field.
- `goodbye_inside_message`: a message with the byte of a disconnect notification at a chunk's start.
-/
import RakNet.Connection.Fits
import RakNet.System.OutOfStep

namespace RakNet

open Lib Lib.Wire

namespace Conn

/-! ## The fragments `send_fragmented` transmits -/

/-- the frames `send_fragmented` transmits -/
def fragmentsOf (p : Profile) (envs : Nat → Env) (data : Bytes) (sender : Conn) : List Frame :=
  (sendFragmented p envs data sender).2.framesSent.drop sender.framesSent.length

theorem parts_fragmentsOf (p : Profile) {envs : Nat → Env} (henvs : ∀ i, (envs i).sendError = none) {data : Bytes}
    {sender : Conn} (hmtu : 80 < sender.shared.mtu.toNat) (hlen : data.length ≤ maxBytes) :
    (fragmentsOf p envs data sender).map partOf = headed sender.shared.splitId
      (UInt32.ofNat (chunkCount data.length (sender.shared.mtu.toNat - 80))) 0
      (chunks data (sender.shared.mtu.toNat - 80)) := by
  rw [fragmentsOf, sendFragmented_apply p envs hmtu hlen]
  obtain ⟨_, fs, hemits, -, hparts⟩ := emits_sendChunks sender.shared.splitId
    (UInt32.ofNat (chunkCount data.length (sender.shared.mtu.toNat - 80))) envs
    (chunks data (sender.shared.mtu.toNat - 80)) 0 (splitAllocated sender)
  rw [hemits.frames, show (splitAllocated sender).framesSent = sender.framesSent from rfl, List.drop_left]
  exact hparts henvs

/-! ## Every fragment once -/

/-- the index of a fragment -/
def partIndex (x : Bytes × Option SplitInfo) : Nat := (x.2.map fun info => info.index.toNat).getD 0

theorem map_partIndex_headed (id : UInt16) (count : UInt32) {cs : List Bytes} {index : Nat}
    (h : index + cs.length ≤ 2 ^ 32) : (headed id count index cs).map partIndex = List.range' index cs.length := by
  induction cs generalizing index with
  | nil => rfl
  | cons chunk cs ih =>
    rw [List.length_cons] at h
    rw [headed, List.map_cons, ih (by omega), List.length_cons, List.range'_succ]
    congr 1
    show (UInt32.ofNat index).toNat = index
    rw [UInt32.toNat_ofNat', Nat.mod_eq_of_lt (by omega)]

theorem arriveAll_cons {p : Profile} {envs : Nat → Env} {f : Frame} {fs : List Frame} {r r' : Conn}
    (h : handleFrame p (envs 0) f r = (.ok (), r')) :
    arriveAll p envs (f :: fs) r = arriveAll p (fun i => envs (i + 1)) fs r' := by
  conv_lhs => unfold arriveAll
  rw [h]

variable {out : List Bytes} {chan : OrderedChannel} {q : FragmentQueue} {r : Conn}

/-- **The missing fragments of a message, in any order**, complete it. -/
theorem Receiving.gathers {p : Profile} {envs : Nat → Env} {id : UInt16} {count : UInt32} {cs : List Bytes}
    {got : NatMap Bytes} {fs : List Frame} (hr : Receiving out chan q r) (hq : q.Gathering id.toNat count.toNat got)
    (hroom : 0 < q.maxConcurrent) (hcount : count.toNat = cs.length) (hne : fs ≠ [])
    (hfs : ∀ f ∈ fs, IsGame f.payload ∧ ∃ i, cs[i]? = some f.payload ∧ f.split = some ⟨count, id, UInt32.ofNat i⟩)
    (hnodup : (fs.map fun f => partIndex (partOf f)).Nodup) (hnew : ∀ f ∈ fs, got[partIndex (partOf f)]? = none)
    (hgot : ∀ (k : Nat) d, got[k]? = some d → cs[k]? = some d) (hsize : got.size + fs.length = cs.length) :
    Receiving (out ++ [cs.flatten]) chan (arriveAll p envs fs r).shared.fragmentQueue (arriveAll p envs fs r) := by
  induction fs generalizing envs q r got with
  | nil => exact absurd rfl hne
  | cons f fs ih =>
    obtain ⟨hgame, i, hi, hs⟩ := hfs f List.mem_cons_self
    have hlt : i < cs.length := (List.getElem?_eq_some_iff.1 hi).1
    have hbound := count.toNat_lt
    have hindex : (UInt32.ofNat i).toNat = i := by
      rw [UInt32.toNat_ofNat', Nat.mod_eq_of_lt (by omega)]
    have hok : (p.add 32 (UInt32.ofNat i).toNat 1).isOk = true := by
      rw [hindex, Profile.add_of_lt p (by omega)]
      rfl
    have hfirst : partIndex (partOf f) = i := by
      simp only [partIndex, partOf, hs]
      exact hindex
    have hfree : got[i]? = none := by
      rw [← hfirst]
      exact hnew f List.mem_cons_self
    have hgot' : ∀ (k : Nat) d, (got.insert i f.payload)[k]? = some d → cs[k]? = some d :=
      NatMap.forall_insert hi hgot
    have hsize' := NatMap.size_insert_of_none f.payload hfree
    obtain ⟨r', he, hr'⟩ := hr.part (envs 0) hgame hs hok
    dsimp only at hr'
    rw [hindex] at hr'
    rw [List.length_cons] at hsize
    rw [arriveAll_cons he]
    rcases hq.insert (envs 0).now f.payload (by omega) hfree with ⟨hlast, hmsg, -⟩ | ⟨hmore, hmsg, hnext⟩
    · have hnil : fs = [] := List.eq_nil_of_length_eq_zero (by omega)
      have hall := NatMap.positions_of_size hgot' (by omega)
      rw [hmsg, FragmentQueue.reassemble, NatMap.values_of_positions hall] at hr'
      rw [hnil]
      exact ⟨hr'.appData, hr'.channel, rfl, hr'.connected⟩
    · rw [hmsg] at hr'
      simp only [Option.toList_none, List.append_nil] at hr'
      rw [List.map_cons, List.nodup_cons, hfirst] at hnodup
      refine ih hr' hnext ?_ ?_ (fun g hg => hfs g (List.mem_cons_of_mem _ hg)) hnodup.2 ?_ hgot' (by omega)
      · rw [FragmentQueue.maxConcurrent_insert]
        exact hroom
      · rintro rfl
        rw [List.length_nil] at hsize
        omega
      · intro g hg
        have hig : i ≠ partIndex (partOf g) := by
          intro heq
          exact hnodup.1 (heq ▸ List.mem_map_of_mem hg)
        rw [NatMap.get?_insert, if_neg hig]
        exact hnew g (List.mem_cons_of_mem _ hg)

/-! ## A message that cannot come together -/

theorem isGame_of_kindIn {s : ConnectionState} {f : Frame} (h : kindIn s f = .game) : IsGame f.payload := by
  unfold kindIn at h
  cases hp : f.payload with
  | nil => simp [hp] at h
  | cons b rest =>
    rw [hp] at h
    dsimp only at h
    split_ifs at h with h1 h2 h3
    exact ⟨b, rest, rfl, h1, h2, h3⟩

/-- a frame with a split header: nothing, unless it is a game frame, which goes to the fragment queue -/
theorem Held.after_part (p : Profile) (now : Nat) (s : ConnectionState) (h : Held) {f : Frame} {info : SplitInfo}
    (hs : f.split = some info) :
    ((h.after p now s f).appData = h.appData ∧ (h.after p now s f).fragments = h.fragments) ∨
    (IsGame f.payload ∧
      (h.after p now s f).appData = h.appData ++
        (h.fragments.insert now info.id.toNat info.index.toNat info.count.toNat f.payload).1.toList ∧
      (h.after p now s f).fragments =
        (h.fragments.insert now info.id.toNat info.index.toNat info.count.toNat f.payload).2) := by
  have hadvanced : (h.advanced f).fragments = h.fragments := by
    unfold Held.advanced
    cases f.orderIndex with
    | none => split_ifs <;> rfl
    | some i =>
      dsimp only
      split_ifs <;> rfl
  unfold Held.after
  cases hk : kindIn s f with
  | request | incoming => exact Or.inl ⟨Held.appData_advanced h f, hadvanced⟩
  | game =>
    have hgame := isGame_of_kindIn hk
    simp only [Held.game, hs, Option.isNone_some, Bool.and_false, Bool.false_eq_true, if_false, Held.fragment]
    split_ifs
    · exact Or.inr ⟨hgame, rfl, rfl⟩
    · exact Or.inl ⟨rfl, rfl⟩
  | _ => exact Or.inl ⟨rfl, rfl⟩

/-- **A message that is not among what comes together.** `P` holds of every fragment that reaches the queue, and no
complete set of fragments with `P` makes the message. -/
theorem not_delivered_of_parts {P : Nat → Nat → Bytes → Prop} {data : Bytes}
    (hP : ∀ (fragments : NatMap Bytes) (k : Nat) d, fragments[k]? = some d →
      (∀ (k : Nat) d, fragments[k]? = some d → P fragments.size k d) → FragmentQueue.reassemble fragments ≠ data)
    (p : Profile) (envs : Nat → Env) {fs : List Frame}
    (hfs : ∀ f ∈ fs, ∃ info, f.split = some info ∧ (IsGame f.payload → info.index.toNat < info.count.toNat →
      P info.count.toNat info.index.toNat f.payload)) (hq : Idle r.shared.fragmentQueue) :
    ∃ ms, (arriveAll p envs fs r).appData = r.appData ++ ms ∧ data ∉ ms := by
  have hinv : (∃ ms, (arriveAll p envs fs r).appData = r.appData ++ ms ∧ data ∉ ms) ∧
      (arriveAll p envs fs r).shared.fragmentQueue.Holds fun _ => P := by
    refine arriveAll_inv (P := fun c => (∃ ms, c.appData = r.appData ++ ms ∧ data ∉ ms) ∧
      c.shared.fragmentQueue.Holds fun _ => P) p ?_ envs hfs
      ⟨⟨[], (List.append_nil _).symm, List.not_mem_nil⟩, FragmentQueue.holds_of_empty hq.splits⟩
    rintro env f c ⟨info, hs, hpart⟩ ⟨⟨ms, hms, hnot⟩, hheld⟩
    have hview := heldView_handleFrame p env f c
    have hdata : (handleFrame p env f c).2.appData = ((heldView c).after p env.now c.shared.state f).appData :=
      congrArg Held.appData hview
    have hqueue : (handleFrame p env f c).2.shared.fragmentQueue =
        ((heldView c).after p env.now c.shared.state f).fragments := congrArg Held.fragments hview
    rcases Held.after_part p env.now c.shared.state (heldView c) hs with ⟨h1, h2⟩ | ⟨hgame, h1, h2⟩
    · rw [hdata, hqueue, h1, h2]
      exact ⟨⟨ms, hms, hnot⟩, hheld⟩
    · obtain ⟨hkept, hout⟩ := hheld.insert env.now info.id.toNat info.index.toNat info.count.toNat (hpart hgame)
      rw [hdata, hqueue, h1, h2]
      refine ⟨⟨ms ++ (c.shared.fragmentQueue.insert env.now info.id.toNat info.index.toNat info.count.toNat
        f.payload).1.toList, ?_, ?_⟩, hkept⟩
      · rw [← List.append_assoc, ← hms]
        rfl
      · intro hmem
        rcases List.mem_append.1 hmem with hmem | hmem
        · exact hnot hmem
        · obtain ⟨fragments, hone, hsize, hall, he⟩ := hout data (Option.mem_toList.1 hmem)
          exact hP fragments _ _ hone (by rw [hsize]; exact hall) he.symm
  exact hinv.1

/-- the arrival of a message's fragments: what is known of each frame -/
theorem part_of_arrival {id : UInt16} {count : UInt32} {cs : List Bytes} {arrival sent : List Frame}
    (harr : arrival.Perm sent) (hsent : sent.map partOf = headed id count 0 cs) {f : Frame} (hf : f ∈ arrival) :
    ∃ i, cs[i]? = some f.payload ∧ f.split = some ⟨count, id, UInt32.ofNat i⟩ := by
  have hmem : partOf f ∈ headed id count 0 cs := by
    rw [← hsent]
    exact List.mem_map_of_mem (harr.mem_iff.1 hf)
  obtain ⟨i, hi, hs⟩ := mem_headed hmem
  rw [Nat.zero_add] at hs
  exact ⟨i, hi, hs⟩

/-- a chunk that is taken for a control packet never reaches the fragment queue -/
theorem not_delivered_of_control {data : Bytes} {id : UInt16} {count : UInt32} {cs : List Bytes}
    {arrival sent : List Frame} (harr : arrival.Perm sent) (hsent : sent.map partOf = headed id count 0 cs)
    (hcount : count.toNat = cs.length) (hq : Idle r.shared.fragmentQueue) (p : Profile) (envs : Nat → Env) {d : Bytes}
    (hd : d ∈ cs) (hctl : ¬ IsGame d) :
    ∃ ms, (arriveAll p envs arrival r).appData = r.appData ++ ms ∧ data ∉ ms := by
  obtain ⟨j, hj, hjd⟩ := List.mem_iff_getElem.1 hd
  refine not_delivered_of_parts (P := fun total k _ => total = cs.length ∧ k < cs.length ∧ k ≠ j) ?_ p envs ?_ hq
  · intro fragments k x hone hall heq
    have hfew : fragments.size < cs.length := NatMap.size_lt_of_missing hj fun i y hi => (hall i y hi).2
    exact absurd (hall k x hone).1 (Nat.ne_of_lt hfew)
  · intro f hf
    obtain ⟨i, hi, hs⟩ := part_of_arrival harr hsent hf
    have hlt : i < cs.length := (List.getElem?_eq_some_iff.1 hi).1
    have hbound := count.toNat_lt
    have hindex : (UInt32.ofNat i).toNat = i := by
      rw [UInt32.toNat_ofNat', Nat.mod_eq_of_lt (by omega)]
    refine ⟨_, hs, ?_⟩
    intro hgame _
    dsimp only
    rw [hindex]
    refine ⟨hcount, hlt, ?_⟩
    rintro rfl
    have hpayload : f.payload = d := by
      rw [← hjd, ← (List.getElem?_eq_some_iff.1 hi).2]
    rw [hpayload] at hgame
    exact hctl hgame

/-- a fragment count that does not fit its field: what comes together is too short -/
theorem not_delivered_of_count {data : Bytes} {size : Nat} {id : UInt16} {arrival sent : List Frame}
    (harr : arrival.Perm sent)
    (hsent : sent.map partOf = headed id (UInt32.ofNat (chunkCount data.length size)) 0 (chunks data size))
    (hcount : 2 ^ 32 ≤ chunkCount data.length size) (hq : Idle r.shared.fragmentQueue) (p : Profile) (envs : Nat → Env) :
    ∃ ms, (arriveAll p envs arrival r).appData = r.appData ++ ms ∧ data ∉ ms := by
  have htotal : (UInt32.ofNat (chunkCount data.length size)).toNat < chunkCount data.length size :=
    lt_of_lt_of_le (UInt32.toNat_lt _) hcount
  generalize UInt32.ofNat (chunkCount data.length size) = count at hsent htotal
  refine not_delivered_of_parts (P := fun total _ d => total = count.toNat ∧ d.length ≤ size) ?_ p envs ?_ hq
  · intro fragments k x hone hall heq
    have hshort := FragmentQueue.length_reassemble_le fun i y hi => (hall i y hi).2
    have hlong := lt_of_lt_chunkCount htotal
    rw [(hall k x hone).1, heq] at hshort
    omega
  · intro f hf
    obtain ⟨i, hi, hs⟩ := part_of_arrival harr hsent hf
    refine ⟨_, hs, ?_⟩
    intro _ _
    exact ⟨rfl, length_le_of_mem_chunks (List.mem_of_getElem? hi)⟩

/-- every chunk is a game frame: the message comes together -/
theorem Receiving.delivered_of_parts {id : UInt16} {count : UInt32} {cs : List Bytes} {arrival sent : List Frame}
    (hr : Receiving out chan q r) (p : Profile) (envs : Nat → Env) (hq : Idle q) (harr : arrival.Perm sent)
    (hsent : sent.map partOf = headed id count 0 cs) (hcount : count.toNat = cs.length) (hne : cs ≠ [])
    (hgame : ∀ d ∈ cs, IsGame d) :
    Receiving (out ++ [cs.flatten]) chan (arriveAll p envs arrival r).shared.fragmentQueue
      (arriveAll p envs arrival r) := by
  have hbound := count.toNat_lt
  have hindices : (arrival.map fun f => partIndex (partOf f)).Perm (List.range' 0 cs.length) := by
    have hperm := (harr.map partOf).map partIndex
    rw [hsent, map_partIndex_headed id count (by omega), List.map_map] at hperm
    exact hperm
  have hlength : arrival.length = cs.length := by
    have hlen := hindices.length_eq
    rw [List.length_map, List.length_range'] at hlen
    exact hlen
  refine hr.gathers (hq.gathering id.toNat count.toNat) hq.room hcount ?_ ?_ (hindices.nodup_iff.2 List.nodup_range')
    (fun f _ => NatMap.get?_empty _) ?_ (by rw [hlength]; exact Nat.zero_add _)
  · rw [← List.length_pos_iff, hlength]
    exact List.length_pos_iff.2 hne
  · intro f hf
    obtain ⟨i, hi, hs⟩ := part_of_arrival harr hsent hf
    exact ⟨hgame _ (List.mem_of_getElem? hi), i, hi, hs⟩
  · intro k d hk
    rw [NatMap.get?_empty] at hk
    cases hk

/-! ## Fragments are not opaque -/

/-- **Fragments in any order.** For every message that is sent in fragments, every sender that gets them all out, every
order in which they arrive and every connected receiver that holds no fragments: the message and nothing else is
delivered and the connection stays up, if and only if no chunk of the message starts with the byte of a control packet and
its fragment count fits in 32 bits. -/
theorem fragments_opaque_iff (p p' : Profile) (sender receiver : Conn) (sendEnvs envs : Nat → Env) (data : Bytes)
    (arrival : List Frame) (hmtu : 576 ≤ sender.shared.mtu.toNat ∧ sender.shared.mtu.toNat ≤ 1500)
    (hlong : sender.shared.mtu.toNat - 60 < data.length) (hlen : data.length ≤ maxBytes)
    (hsends : ∀ i, (sendEnvs i).sendError = none) (hstate : receiver.shared.state = .connected)
    (hq : Idle receiver.shared.fragmentQueue) (harr : arrival.Perm (fragmentsOf p sendEnvs data sender)) :
    ((arriveAll p' envs arrival receiver).appData = receiver.appData ++ [data] ∧
      (arriveAll p' envs arrival receiver).shared.state = .connected) ↔
    ((∀ d ∈ chunks data (sender.shared.mtu.toNat - 80), IsGame d) ∧
      chunkCount data.length (sender.shared.mtu.toNat - 80) < 2 ^ 32) := by
  have hsent : (fragmentsOf p sendEnvs data sender).map partOf = _ := parts_fragmentsOf p hsends (by omega) hlen
  have hcount : chunkCount data.length (sender.shared.mtu.toNat - 80) < 2 ^ 32 →
      (UInt32.ofNat (chunkCount data.length (sender.shared.mtu.toNat - 80))).toNat =
        (chunks data (sender.shared.mtu.toNat - 80)).length := by
    intro hfits
    rw [length_chunks, UInt32.toNat_ofNat', Nat.mod_eq_of_lt hfits]
  have hnot : ∀ {c : Conn}, (∃ ms, c.appData = receiver.appData ++ ms ∧ data ∉ ms) →
      c.appData ≠ receiver.appData ++ [data] := by
    rintro c ⟨ms, hms, hmem⟩ heq
    rw [hms] at heq
    rw [List.append_cancel_left heq] at hmem
    exact hmem List.mem_cons_self
  constructor
  · rintro ⟨hdata, -⟩
    have hfits : chunkCount data.length (sender.shared.mtu.toNat - 80) < 2 ^ 32 := by
      by_contra hge
      exact hnot (not_delivered_of_count harr hsent (Nat.not_lt.1 hge) hq p' envs) hdata
    refine ⟨?_, hfits⟩
    intro d hd
    by_contra hctl
    exact hnot (not_delivered_of_control harr hsent (hcount hfits) hq p' envs hd hctl) hdata
  · rintro ⟨hgame, hfits⟩
    have hmany : 1 < chunkCount data.length (sender.shared.mtu.toNat - 80) := one_lt_chunkCount (by omega) (by omega)
    have hne : chunks data (sender.shared.mtu.toNat - 80) ≠ [] := by
      rw [← List.length_pos_iff, length_chunks]
      omega
    have hr : Receiving receiver.appData (receiver.shared.orderedChannels.get 0) receiver.shared.fragmentQueue receiver :=
      ⟨rfl, rfl, rfl, by rw [SharedState.isConnected, hstate]; rfl⟩
    have hdone := hr.delivered_of_parts p' envs hq harr hsent (hcount hfits) hne hgame
    rw [chunks_flatten data (by omega)] at hdone
    refine ⟨hdone.appData, ?_⟩
    simpa [SharedState.isConnected] using hdone.connected

/-- a receiver that has just been connected -/
def connected576 : Conn :=
  { Conn.new 576 0 false with shared := { SharedState.new 576 0 with state := .connected } }

/-- the second chunk of this message, sent with MTU 576, starts with 0x15 -/
def goodbyeMessage : Bytes := List.replicate 496 2 ++ 0x15 :: List.replicate 20 2

/-- a message of 517 bytes 2, sent in two fragments that arrive in reverse order -/
theorem fragments_opaque_reversed :
    (arriveAll .dev (fun _ => quietEnv)
      (fragmentsOf .dev (fun _ => quietEnv) (List.replicate 517 2) (Conn.new 576 0 false)).reverse connected576).appData =
      [List.replicate 517 2] := by
  have h := fragments_opaque_iff .dev .dev (Conn.new 576 0 false) connected576 (fun _ => quietEnv) (fun _ => quietEnv)
    (List.replicate 517 2) _ (by decide) (by decide +kernel) (by decide +kernel) (fun _ => rfl) rfl ⟨rfl, by decide⟩
    (List.reverse_perm _)
  refine (h.2 ⟨?_, by decide +kernel⟩).1
  intro d hd
  obtain ⟨hne, hmem⟩ := mem_chunks hd
  exact Plain.isGame ⟨hne, fun b hb => List.eq_of_mem_replicate (hmem b hb)⟩

/-- **A message that ends its connection.** Its first byte is 2, and its second fragment starts with the byte of a
disconnect notification: nothing is delivered, and the receiver is disconnected. -/
theorem goodbye_inside_message :
    goodbyeMessage.head? = some 2 ∧ (Conn.new 576 0 false).shared.mtu.toNat - 60 < goodbyeMessage.length ∧
    (arriveAll .dev (fun _ => quietEnv)
      (fragmentsOf .dev (fun _ => quietEnv) goodbyeMessage (Conn.new 576 0 false)) connected576).appData = [] ∧
    (arriveAll .dev (fun _ => quietEnv)
      (fragmentsOf .dev (fun _ => quietEnv) goodbyeMessage (Conn.new 576 0 false)) connected576).shared.state =
        .disconnected := by
  refine ⟨by decide +kernel, by decide +kernel, by decide +kernel, by decide +kernel⟩

end Conn

end RakNet
