/-
The receiving end of a perfect link: frames of `send_task`, handled once each and in order by a connected receiver.

Sender and receiver do not agree on which frames take an order index. Every frame of the sender takes one, fragments
included; on the receiver only whole messages go through the ordered channel, and a reassembled message does not advance
it. After a fragmented message the sender is ahead, and every whole message waits for indices that never come.

- `Receiving.allFragments`: the fragments of a message are delivered as the message.
- `Receiving.inSync`: messages that are all in step are delivered one after another.
- `Receiving.split`: below 2^24 frames, exactly what is delivered.
-/
import RakNet.Connection.Frames
import RakNet.Connection.Messages

namespace RakNet

open Lib Lib.Wire

namespace Conn

open OrderedChannel (Synced insert_ahead)

/-! ## The receiver, frame by frame -/

/-- a payload that is neither empty nor a control packet -/
def IsGame (payload : Bytes) : Prop :=
  ∃ b rest, payload = b :: rest ∧ b ≠ idConnectedPing ∧ b ≠ idConnectedPong ∧ b ≠ idDisconnectNotification

/-- a connected receiver: what it has delivered, its channel 0, its fragment queue -/
structure Receiving (out : List Bytes) (chan : OrderedChannel) (q : FragmentQueue) (r : Conn) : Prop where
  appData : r.appData = out
  channel : r.shared.orderedChannels.get 0 = chan
  fragments : r.shared.fragmentQueue = q
  connected : r.shared.isConnected = true

theorem kind_of_isGame {r : Conn} {f : Frame} (hr : r.shared.isConnected = true) (hp : IsGame f.payload) :
    kind r f = .game := by
  obtain ⟨b, rest, he, h1, h2, h3⟩ := hp
  simp [kind, he, h1, h2, h3, hr]

variable {out : List Bytes} {chan : OrderedChannel} {q : FragmentQueue} {r : Conn}

/-- a whole message goes through channel 0 -/
theorem Receiving.whole (hr : Receiving out chan q r) (p : Profile) (env : Env) {payload : Bytes} (hp : IsGame payload)
    (messageIndex orderIndex : U24) :
    ∃ r', handleFrame p env (buildFrame payload messageIndex orderIndex none) r = (.ok (), r') ∧
      Receiving (out ++ (chan.insert orderIndex.get payload).1) (chan.insert orderIndex.get payload).2 q r' := by
  have h16 : (buildFrame payload messageIndex orderIndex none).orderChannel.toNat < 16 := by
    show (0 : UInt8).toNat < 16
    decide
  have hkind := kind_of_isGame (f := buildFrame payload messageIndex orderIndex none) hr.connected hp
  rw [handleFrame_eq, hkind]
  refine ⟨_, deliverOrdered_apply h16 r, ?_, ?_, hr.fragments, hr.connected⟩
  · rw [← hr.appData, ← hr.channel]
    rfl
  · refine (Vector.getElem_set_self (by decide : 0 < 16)).trans ?_
    rw [← hr.channel]
    rfl

/-- a fragment goes through the fragment queue -/
theorem Receiving.part (hr : Receiving out chan q r) {p : Profile} (env : Env) {f : Frame} (hp : IsGame f.payload)
    {info : SplitInfo} (hs : f.split = some info) (hok : (p.add 32 info.index.toNat 1).isOk = true) :
    ∃ r', handleFrame p env f r = (.ok (), r') ∧
      Receiving (out ++ (q.insert env.now info.id.toNat info.index.toNat info.count.toNat f.payload).1.toList) chan
        (q.insert env.now info.id.toNat info.index.toNat info.count.toNat f.payload).2 r' := by
  have hgame : handleFrame p env f r = deliverFramePayload p env f r := by
    rw [handleFrame_eq, kind_of_isGame hr.connected hp]
    simp only [FrameKind.act, handleGamePacket_eq]
    rw [if_neg (by simp [hs])]
  refine ⟨_, hgame.trans (deliverFragment_apply hs hok env r), ?_, hr.channel, ?_, hr.connected⟩
  · rw [← hr.appData, ← hr.fragments]
  · rw [← hr.fragments]

theorem Receiving.fragment (hr : Receiving out chan q r) {p : Profile} (env : Env) {payload : Bytes} (hp : IsGame payload)
    (messageIndex orderIndex : U24) (info : SplitInfo) (hok : (p.add 32 info.index.toNat 1).isOk = true) :
    ∃ r', handleFrame p env (buildFrame payload messageIndex orderIndex (some info)) r = (.ok (), r') ∧
      Receiving (out ++ (q.insert env.now info.id.toNat info.index.toNat info.count.toNat payload).1.toList) chan
        (q.insert env.now info.id.toNat info.index.toNat info.count.toNat payload).2 r' :=
  hr.part (f := buildFrame payload messageIndex orderIndex (some info)) env hp rfl hok

/-- a fragment whose log line overflows -/
theorem handleFrame_overflow {p : Profile} (env : Env) {payload : Bytes} (hr : r.shared.isConnected = true)
    (hp : IsGame payload) (messageIndex orderIndex : U24) (info : SplitInfo)
    (hok : (p.add 32 info.index.toNat 1).isOk = false) :
    handleFrame p env (buildFrame payload messageIndex orderIndex (some info)) r = (.panic, r) := by
  have hkind := kind_of_isGame (f := buildFrame payload messageIndex orderIndex (some info)) hr hp
  rw [handleFrame_eq, hkind]
  exact deliverFragment_panic (f := buildFrame payload messageIndex orderIndex (some info)) rfl hok env r

/-- frames after frames that were all handled -/
theorem handleFrames_append (p : Profile) (envs : Nat → Env) {a b : List Frame} {r r' : Conn}
    (h : handleFrames p envs a r = (.ok (), r')) :
    handleFrames p envs (a ++ b) r = handleFrames p (fun i => envs (i + a.length)) b r' := by
  induction a generalizing envs r with
  | nil =>
    cases h
    rfl
  | cons f a ih =>
    unfold handleFrames at h
    rw [Action.bind_apply] at h
    rw [List.cons_append]
    cases hf : handleFrame p (envs 0) f r with
    | mk res r1 =>
      rw [hf] at h
      cases res with
      | ok u =>
        conv_lhs => unfold handleFrames
        rw [Action.bind_of_ok hf, ih _ h]
        simp only [List.length_cons, Nat.add_assoc]
      | err e => cases h
      | panic => cases h

/-! ## A fragmented message -/

/-- a fragment queue that holds nothing, with room -/
structure Idle (q : FragmentQueue) : Prop where
  splits : q.splits = ∅
  room : 0 < q.maxConcurrent

/-- a fragment queue that holds exactly the first fragments `ps` of the message `id` -/
structure Holding (id count : Nat) (ps : List Bytes) (q : FragmentQueue) : Prop where
  only : ∀ k, k ≠ id → q.splits[k]? = none
  total : ∀ now, (q.entryAt now id count).totalCount = count
  parts : ∀ now (k : Nat), (q.entryAt now id count).fragments[k]? = ps[k]?
  admits : q.admits id = true
  room : 0 < q.maxConcurrent

theorem Idle.gathering (h : Idle q) (id count : Nat) : q.Gathering id count ∅ :=
  FragmentQueue.gathering_of_empty h.splits h.room id count

theorem Holding.gathering {id count : Nat} {ps : List Bytes} (h : Holding id count ps q) :
    ∃ got : NatMap Bytes, q.Gathering id count got ∧ ∀ k : Nat, got[k]? = ps[k]? := by
  refine ⟨(q.entryAt 0 id count).fragments, ⟨h.only, h.total, ?_, h.admits⟩, h.parts 0⟩
  intro now
  apply Std.ExtTreeMap.ext_getElem?
  intro k
  rw [h.parts, h.parts]

theorem Holding.of_gathering {id count : Nat} {ps : List Bytes} {got : NatMap Bytes} (h : q.Gathering id count got)
    (hgot : ∀ k : Nat, got[k]? = ps[k]?) (hroom : 0 < q.maxConcurrent) : Holding id count ps q := by
  refine ⟨h.only, h.total, ?_, h.admits, hroom⟩
  intro now k
  rw [h.parts]
  exact hgot k

theorem Idle.holding (h : Idle q) (id count : Nat) : Holding id count [] q :=
  Holding.of_gathering (h.gathering id count) (by simp) h.room

/-- the next fragment: the message if it was the last one, one more held part otherwise -/
theorem Holding.insert {id count : Nat} {ps : List Bytes} (h : Holding id count ps q) (now : Nat) (d : Bytes)
    (hlt : ps.length < count) :
    (ps.length + 1 = count ∧ (q.insert now id ps.length count d).1 = some (ps ++ [d]).flatten ∧
      Idle (q.insert now id ps.length count d).2) ∨
    (ps.length + 1 < count ∧ (q.insert now id ps.length count d).1 = none ∧
      Holding id count (ps ++ [d]) (q.insert now id ps.length count d).2) := by
  obtain ⟨got, hgather, hgot⟩ := h.gathering
  have hnew : got[ps.length]? = none := by
    rw [hgot]
    exact List.getElem?_eq_none (le_refl _)
  have hparts : ∀ k : Nat, (got.insert ps.length d)[k]? = (ps ++ [d])[k]? := by
    intro k
    rw [NatMap.get?_insert, hgot]
    by_cases hk : ps.length = k
    · rw [if_pos hk, ← hk, List.getElem?_append_right (le_refl _), Nat.sub_self]
      rfl
    · rw [if_neg hk]
      rcases Nat.lt_or_gt_of_ne hk with hk | hk
      · rw [List.getElem?_eq_none (by omega), List.getElem?_eq_none (by simp; omega)]
      · rw [List.getElem?_append_left hk]
  have hsize := NatMap.size_of_positions hgot
  have hroom : 0 < (q.insert now id ps.length count d).2.maxConcurrent := by
    rw [FragmentQueue.maxConcurrent_insert]
    exact h.room
  rcases hgather.insert now d hlt hnew with ⟨hlast, hout, hempty⟩ | ⟨hmore, hout, hnext⟩
  · refine Or.inl ⟨by omega, ?_, hempty, hroom⟩
    rw [hout, FragmentQueue.reassemble, NatMap.values_of_positions hparts]
  · exact Or.inr ⟨by omega, hout, Holding.of_gathering hnext hparts hroom⟩

/-- **The fragments of a message.** From a queue that holds the first fragments, the rest completes the message. -/
theorem Receiving.allFragments {p : Profile} (envs : Nat → Env) {n : Nat} {id : UInt16} {count : UInt32}
    {cs ps : List Bytes}
    (hr : Receiving out chan q r) (hq : Holding id.toNat count.toNat ps q) (hcs : cs ≠ [])
    (hcount : count.toNat = ps.length + cs.length) (hgame : ∀ d ∈ cs, IsGame d) :
    ∃ q' r', handleFrames p envs (fragmentFrames n id count ps.length cs) r = (.ok (), r') ∧
      Receiving (out ++ [(ps ++ cs).flatten]) chan q' r' ∧ Idle q' := by
  induction cs generalizing ps q r envs with
  | nil => exact absurd rfl hcs
  | cons d rest ih =>
    have hbound := count.toNat_lt
    rw [List.length_cons] at hcount
    have hindex : (UInt32.ofNat ps.length).toNat = ps.length := by
      rw [UInt32.toNat_ofNat', Nat.mod_eq_of_lt (by omega)]
    have hok : (p.add 32 (UInt32.ofNat ps.length).toNat 1).isOk = true := by
      rw [hindex, Profile.add_of_lt p (by omega)]
      rfl
    obtain ⟨r1, he, hr1⟩ := hr.fragment (envs 0) (hgame d List.mem_cons_self) (U24.new (n + ps.length))
      (U24.new (n + ps.length)) ⟨count, id, UInt32.ofNat ps.length⟩ hok
    dsimp only at hr1
    rw [hindex] at hr1
    unfold fragmentFrames handleFrames
    rw [Action.bind_of_ok he]
    rcases hq.insert (envs 0).now d (by omega) with ⟨hlast, hout, hidle⟩ | ⟨hmore, hout, hhold⟩
    · have hnil : rest = [] := List.eq_nil_of_length_eq_zero (by omega)
      subst hnil
      rw [hout] at hr1
      exact ⟨_, r1, rfl, hr1, hidle⟩
    · rw [hout] at hr1
      simp only [Option.toList_none, List.append_nil] at hr1
      have hne : rest ≠ [] := by
        rintro rfl
        simp only [List.length_nil] at hcount
        omega
      have hrest := ih (fun i => envs (i + 1)) hr1 hhold hne
        (by rw [List.length_append, List.length_singleton]; omega) fun x hx => hgame x (List.mem_cons_of_mem _ hx)
      rw [List.length_append, List.length_singleton, List.append_assoc] at hrest
      exact hrest

/-! ## Messages in step -/

/-- after `n` frames and `w` whole messages, the next message is one the receiver will deliver: a whole one has the order
index the channel waits for, a fragmented one has a fragment count that fits its field -/
def inStep (mtu n w len : Nat) : Bool :=
  if isWhole mtu len then decide (n % 2 ^ 24 = w) else decide (chunkCount len (mtu - 80) < 2 ^ 32)

/-- every message of these lengths is in step, from `n` frames and `w` whole messages on -/
def InSync (mtu : Nat) : Nat → Nat → List Nat → Prop
  | _, _, [] => True
  | n, w, len :: rest =>
    inStep mtu n w len = true ∧ InSync mtu (n + frameCount mtu len) (w + (isWhole mtu len).toNat) rest

theorem payloads_fragmentFrames (n : Nat) (id : UInt16) (count : UInt32) (index : Nat) (cs : List Bytes) :
    (fragmentFrames n id count index cs).map Frame.payload = cs := by
  induction cs generalizing index with
  | nil => rfl
  | cons chunk cs ih =>
    rw [fragmentFrames, List.map_cons, ih]
    rfl

/-- a whole message is one frame -/
theorem Receiving.wholeMessage (hr : Receiving out chan q r) (p : Profile) (envs : Nat → Env) {mtu n : Nat} {id : UInt16}
    {data : Bytes} (hwhole : isWhole mtu data.length = true)
    (hgame : ∀ f ∈ messageFrames mtu n id data, IsGame f.payload) :
    ∃ r', handleFrames p envs (messageFrames mtu n id data) r = (.ok (), r') ∧
      Receiving (out ++ (chan.insert (n % 2 ^ 24) data).1) (chan.insert (n % 2 ^ 24) data).2 q r' := by
  rw [messageFrames, if_pos hwhole] at hgame ⊢
  have hdata : IsGame data := hgame _ (List.mem_singleton.2 rfl)
  obtain ⟨r', he, hr'⟩ := hr.whole p (envs 0) hdata (U24.new n) (U24.new n)
  rw [U24.get_new] at hr'
  refine ⟨r', ?_, hr'⟩
  unfold handleFrames
  rw [Action.bind_of_ok he]
  rfl

/-- a fragmented message whose count fits -/
theorem Receiving.fragmented (hr : Receiving out chan q r) (hq : Idle q) (p : Profile) (envs : Nat → Env) {mtu n : Nat}
    {id : UInt16} {data : Bytes} (hmtu : 80 < mtu) (hlong : isWhole mtu data.length = false)
    (hcount : chunkCount data.length (mtu - 80) < 2 ^ 32)
    (hgame : ∀ f ∈ messageFrames mtu n id data, IsGame f.payload) :
    ∃ q' r', handleFrames p envs (messageFrames mtu n id data) r = (.ok (), r') ∧
      Receiving (out ++ [data]) chan q' r' ∧ Idle q' := by
  rw [messageFrames, hlong] at hgame ⊢
  have hcount' : (UInt32.ofNat (chunkCount data.length (mtu - 80))).toNat = (chunks data (mtu - 80)).length := by
    rw [length_chunks, UInt32.toNat_ofNat', Nat.mod_eq_of_lt hcount]
  have hlen : mtu - 60 < data.length := by simpa [isWhole] using hlong
  have hmany : 1 < chunkCount data.length (mtu - 80) := one_lt_chunkCount (by omega) (by omega)
  have hne : chunks data (mtu - 80) ≠ [] := by
    intro hnil
    rw [← length_chunks, hnil] at hmany
    simp at hmany
  have hchunks : ∀ d ∈ chunks data (mtu - 80), IsGame d := by
    intro d hd
    rw [← payloads_fragmentFrames n id (UInt32.ofNat (chunkCount data.length (mtu - 80))) 0 (chunks data (mtu - 80))] at hd
    obtain ⟨f, hf, rfl⟩ := List.mem_map.1 hd
    exact hgame f hf
  have hdone := Receiving.allFragments (p := p) envs (n := n) hr (hq.holding id.toNat _) hne
    (by rw [hcount', List.length_nil, Nat.zero_add]) hchunks
  rw [List.nil_append, chunks_flatten data (by omega)] at hdone
  exact hdone

/-- **A message in step** is delivered at once. -/
theorem Receiving.message {w : Nat} (hr : Receiving out chan q r) (hchan : Synced w chan) (hq : Idle q) (p : Profile)
    (envs : Nat → Env) {mtu n : Nat} {id : UInt16} {data : Bytes} (hmtu : 80 < mtu)
    (hstep : inStep mtu n w data.length = true) (hgame : ∀ f ∈ messageFrames mtu n id data, IsGame f.payload) :
    ∃ chan' q' r', handleFrames p envs (messageFrames mtu n id data) r = (.ok (), r') ∧
      Receiving (out ++ [data]) chan' q' r' ∧ Synced (w + (isWhole mtu data.length).toNat) chan' ∧ Idle q' := by
  unfold inStep at hstep
  cases hwhole : isWhole mtu data.length with
  | true =>
    rw [hwhole, if_pos rfl, decide_eq_true_eq] at hstep
    obtain ⟨r', he, hr'⟩ := hr.wholeMessage p envs hwhole hgame
    obtain ⟨hout, hnext⟩ := hchan.insert (by omega) data
    rw [hstep, hout] at hr'
    exact ⟨_, q, r', he, hr', hnext, hq⟩
  | false =>
    rw [hwhole, if_neg (by simp), decide_eq_true_eq] at hstep
    obtain ⟨q', r', he, hr', hq'⟩ := hr.fragmented hq p envs hmtu hwhole hstep hgame
    exact ⟨chan, q', r', he, hr', hchan, hq'⟩

/-- **Messages in step** are delivered one after another. -/
theorem Receiving.inSync {w : Nat} {p : Profile} {mtu : Nat} (hmtu : 80 < mtu) {msgs : List Bytes} {n : Nat}
    {id : UInt16} {envs : Nat → Env} (hr : Receiving out chan q r) (hchan : Synced w chan) (hq : Idle q)
    (hsync : InSync mtu n w (msgs.map List.length)) (hgame : ∀ f ∈ allFrames mtu n id msgs, IsGame f.payload) :
    (handleFrames p envs (allFrames mtu n id msgs) r).2.appData = out ++ msgs := by
  induction msgs generalizing n w id envs out chan q r with
  | nil => exact hr.appData.trans (List.append_nil _).symm
  | cons data rest ih =>
    rw [allFrames] at hgame ⊢
    obtain ⟨hstep, hrest⟩ := hsync
    obtain ⟨chan', q', r', he, hr', hchan', hq'⟩ := hr.message hchan hq p envs hmtu hstep
      fun f hf => hgame f (List.mem_append_left _ hf)
    rw [handleFrames_append p envs he, ih hr' hchan' hq' hrest fun f hf => hgame f (List.mem_append_right _ hf),
      List.append_assoc]
    rfl

/-! ## Messages ahead of the channel -/

/-- how many frames messages of these lengths take -/
def totalFrames (mtu : Nat) (lens : List Nat) : Nat := (lens.map (frameCount mtu)).sum

theorem totalFrames_cons (mtu len : Nat) (lens : List Nat) :
    totalFrames mtu (len :: lens) = frameCount mtu len + totalFrames mtu lens := by
  rw [totalFrames, List.map_cons, List.sum_cons]
  rfl

theorem frameCount_of_whole {mtu len : Nat} (h : isWhole mtu len = true) : frameCount mtu len = 1 := by
  rw [frameCount, if_pos h]

theorem frameCount_of_long {mtu len : Nat} (h : isWhole mtu len = false) :
    frameCount mtu len = chunkCount len (mtu - 80) := by
  rw [frameCount, if_neg (by simp [h])]

theorem allFrames_whole {mtu : Nat} {data : Bytes} (h : isWhole mtu data.length = true) (n : Nat) (id : UInt16)
    (rest : List Bytes) :
    allFrames mtu n id (data :: rest) = messageFrames mtu n id data ++ allFrames mtu (n + 1) id rest := by
  rw [allFrames, frameCount_of_whole h, if_pos h]

theorem allFrames_long {mtu : Nat} {data : Bytes} (h : isWhole mtu data.length = false) (n : Nat) (id : UInt16)
    (rest : List Bytes) :
    allFrames mtu n id (data :: rest) =
      messageFrames mtu n id data ++ allFrames mtu (n + chunkCount data.length (mtu - 80)) (id + 1) rest := by
  rw [allFrames, frameCount_of_long h, if_neg (by simp [h])]

/-- **Once the sender is ahead** no whole message is delivered any more, and the fragmented ones all are. -/
theorem Receiving.ahead {p : Profile} {mtu : Nat} (hmtu : 80 < mtu) {msgs : List Bytes} {n : Nat} {id : UInt16}
    {envs : Nat → Env} (hr : Receiving out chan q r) (hq : Idle q) (hn : chan.nextIndex < n)
    (hroom : n + totalFrames mtu (msgs.map List.length) ≤ 2 ^ 24)
    (hgame : ∀ f ∈ allFrames mtu n id msgs, IsGame f.payload) :
    (handleFrames p envs (allFrames mtu n id msgs) r).2.appData =
      out ++ msgs.filter fun m => !isWhole mtu m.length := by
  induction msgs generalizing n id envs out chan q r with
  | nil => exact hr.appData.trans (List.append_nil _).symm
  | cons data rest ih =>
    rw [List.map_cons, totalFrames_cons] at hroom
    cases hwhole : isWhole mtu data.length with
    | true =>
      rw [allFrames_whole hwhole] at hgame ⊢
      rw [frameCount_of_whole hwhole] at hroom
      obtain ⟨r', he, hr'⟩ := hr.wholeMessage p envs hwhole fun f hf => hgame f (List.mem_append_left _ hf)
      rw [Nat.mod_eq_of_lt (by omega)] at hr'
      obtain ⟨hout, hnext⟩ := insert_ahead hn data
      rw [hout, List.append_nil] at hr'
      rw [handleFrames_append p envs he, ih hr' hq (by rw [hnext]; omega) (by omega)
        fun f hf => hgame f (List.mem_append_right _ hf), List.filter_cons_of_neg (by simp [hwhole])]
    | false =>
      rw [allFrames_long hwhole] at hgame ⊢
      rw [frameCount_of_long hwhole] at hroom
      obtain ⟨q', r', he, hr', hq'⟩ := hr.fragmented hq p envs hmtu hwhole (by omega)
        fun f hf => hgame f (List.mem_append_left _ hf)
      rw [handleFrames_append p envs he, ih hr' hq' (by omega) (by omega)
        fun f hf => hgame f (List.mem_append_right _ hf), List.filter_cons_of_pos (by simp [hwhole]),
        List.append_assoc]
      rfl

/-- **What is delivered**, below 2^24 frames: the whole messages up to the first fragmented one, and the fragmented ones.
-/
theorem Receiving.split {p : Profile} {mtu : Nat} (hmtu : 80 < mtu) {msgs : List Bytes} {n : Nat} {id : UInt16}
    {envs : Nat → Env} (hr : Receiving out chan q r) (hchan : Synced n chan) (hq : Idle q)
    (hroom : n + totalFrames mtu (msgs.map List.length) ≤ 2 ^ 24)
    (hgame : ∀ f ∈ allFrames mtu n id msgs, IsGame f.payload) :
    (handleFrames p envs (allFrames mtu n id msgs) r).2.appData =
      out ++ (msgs.takeWhile fun m => isWhole mtu m.length) ++
        (msgs.dropWhile fun m => isWhole mtu m.length).filter fun m => !isWhole mtu m.length := by
  induction msgs generalizing n id envs out chan q r with
  | nil => exact hr.appData.trans (by simp)
  | cons data rest ih =>
    rw [List.map_cons, totalFrames_cons] at hroom
    cases hwhole : isWhole mtu data.length with
    | true =>
      rw [allFrames_whole hwhole] at hgame ⊢
      rw [frameCount_of_whole hwhole] at hroom
      have hstep : inStep mtu n n data.length = true := by
        rw [inStep, if_pos hwhole, Nat.mod_eq_of_lt (by omega), decide_eq_true_eq]
      obtain ⟨chan', q', r', he, hr', hchan', hq'⟩ := hr.message hchan hq p envs hmtu hstep
        fun f hf => hgame f (List.mem_append_left _ hf)
      rw [hwhole, Bool.toNat_true] at hchan'
      rw [handleFrames_append p envs he, ih hr' hchan' hq' (by omega) fun f hf => hgame f (List.mem_append_right _ hf)]
      simp [hwhole]
    | false =>
      -- from here on the sender is ahead
      rw [allFrames_long hwhole] at hgame ⊢
      rw [frameCount_of_long hwhole] at hroom
      have hlen : mtu - 60 < data.length := by simpa [isWhole] using hwhole
      have hmany : 1 < chunkCount data.length (mtu - 80) := one_lt_chunkCount (by omega) (by omega)
      obtain ⟨q', r', he, hr', hq'⟩ := hr.fragmented hq p envs hmtu hwhole (by omega)
        fun f hf => hgame f (List.mem_append_left _ hf)
      rw [handleFrames_append p envs he, hr'.ahead hmtu hq' (by rw [hchan.next]; omega) (by omega)
        fun f hf => hgame f (List.mem_append_right _ hf)]
      simp [hwhole]

end Conn

end RakNet
