/-
A message that is out of step is not delivered when it is its turn.

Whatever the receiver delivers next stands in its place: a fragmented message, or the whole message that has the index
the channel waits for. So for every list of lengths that is not in step there are messages of those lengths that do not
come out as they went in: all alike but the first one out of step.

- `not_delivered_of_not_inSync`: those messages.
-/
import RakNet.Connection.Held
import RakNet.System.InStep

namespace RakNet

open Lib Lib.Wire

namespace Conn

open OrderedChannel (Synced)

/-! ## Plain payloads -/

/-- a nonempty payload of bytes 2 -/
structure Plain (d : Bytes) : Prop where
  nonempty : d ≠ []
  bytes : ∀ b ∈ d, b = 2

theorem plain_replicate {len : Nat} (h : 0 < len) : Plain (List.replicate len 2) := by
  refine ⟨?_, fun b hb => List.eq_of_mem_replicate hb⟩
  rw [← List.length_pos_iff, List.length_replicate]
  exact h

theorem Plain.isGame {d : Bytes} (h : Plain d) : IsGame d := by
  cases d with
  | nil => exact absurd rfl h.nonempty
  | cons b rest =>
    rw [h.bytes b List.mem_cons_self]
    exact ⟨2, rest, rfl, by decide, by decide, by decide⟩

/-- a nonempty payload of bytes 1 -/
theorem isGame_of_ones {d : Bytes} (hne : d ≠ []) (h : ∀ b ∈ d, b = 1) : IsGame d := by
  cases d with
  | nil => exact absurd rfl hne
  | cons b rest =>
    rw [h b List.mem_cons_self]
    exact ⟨1, rest, rfl, by decide, by decide, by decide⟩

theorem Plain.ne_ones {d : Bytes} (h : Plain d) (len : Nat) : d ≠ List.replicate len 1 := by
  rintro rfl
  cases len with
  | zero => exact h.nonempty rfl
  | succ len => exact absurd (h.bytes 1 List.mem_cons_self) (by decide)

/-! ## A place that is taken -/

/-- place `i` is still open, or has been given to something other than `bad` -/
def Missed (i : Nat) (bad : Bytes) (l : List Bytes) : Prop := l.length = i ∨ ∃ x, l[i]? = some x ∧ x ≠ bad

theorem Missed.append {i : Nat} {bad : Bytes} {l ys : List Bytes} (h : Missed i bad l)
    (hys : ∀ y, ys.head? = some y → y ≠ bad) : Missed i bad (l ++ ys) := by
  rcases h with h | ⟨x, hx, hne⟩
  · cases ys with
    | nil =>
      left
      rw [List.append_nil]
      exact h
    | cons y ys =>
      refine Or.inr ⟨y, ?_, hys y rfl⟩
      rw [List.getElem?_append_right (by omega), h, Nat.sub_self]
      rfl
  · refine Or.inr ⟨x, ?_, hne⟩
    rw [List.getElem?_append_left (List.getElem?_eq_some_iff.1 hx).1]
    exact hx

theorem Missed.ne {bad : Bytes} {l out rest : List Bytes} (h : Missed out.length bad l) : l ≠ out ++ bad :: rest := by
  rintro rfl
  rcases h with h | ⟨x, hx, hne⟩
  · simp at h
  · rw [List.getElem?_append_right (le_refl _), Nat.sub_self] at hx
    exact hne (Option.some.inj hx).symm

/-- a connected receiver that has missed `bad` and holds plain fragments only -/
structure Missing (i len : Nat) (r : Conn) : Prop where
  missed : Missed i (List.replicate len 1) r.appData
  connected : r.shared.isConnected = true
  fragments : ∀ (id k : Nat) e d, r.shared.fragmentQueue.splits[id]? = some e → e.fragments[k]? = some d → Plain d

/-- a map of plain fragments that is not empty reassembles to something plain -/
theorem plain_reassemble {parts : NatMap Bytes} (h : ∀ (k : Nat) d, parts[k]? = some d → Plain d) {k : Nat} {d : Bytes}
    (hd : parts[k]? = some d) : Plain (FragmentQueue.reassemble parts) := by
  have hpart := FragmentQueue.part_of_reassemble hd
  constructor
  · intro hnil
    rw [hnil, List.infix_nil] at hpart
    exact (h k d hd).nonempty hpart
  · intro b hb
    obtain ⟨part, hpart, hb⟩ := List.mem_flatten.1 hb
    obtain ⟨⟨k', d'⟩, hmem, rfl⟩ := List.mem_map.1 hpart
    exact (h k' d' ((NatMap.mem_toList _ _ _).1 hmem)).bytes b hb

/-- a plain fragment leaves a queue of plain fragments and completes only plain messages -/
theorem insert_plain {q : FragmentQueue}
    (hq : ∀ (id k : Nat) e d, q.splits[id]? = some e → e.fragments[k]? = some d → Plain d) (now id index count : Nat)
    {d : Bytes} (hd : Plain d) :
    (∀ y, (q.insert now id index count d).1 = some y → Plain y) ∧
    ∀ (id' k : Nat) e d', (q.insert now id index count d).2.splits[id']? = some e → e.fragments[k]? = some d' →
      Plain d' := by
  have hheld : q.Holds fun _ _ _ d => Plain d := fun id e he k d hk => hq id k e d he hk
  obtain ⟨hkept, hout⟩ := hheld.insert now id index count (fun _ => hd)
  refine ⟨?_, fun id' k e d' he hk => hkept id' e he k d' hk⟩
  intro y hy
  obtain ⟨parts, hpart, -, hplain, rfl⟩ := hout y hy
  exact plain_reassemble hplain hpart

/-- what an insertion into a channel hands out first is what was inserted -/
theorem head_insert {chan : OrderedChannel} {i : Nat} {data y : Bytes} (h : (chan.insert i data).1.head? = some y) :
    y = data := by
  rcases chan.insert_cases i data with ⟨-, he⟩ | ⟨-, -, he⟩ | ⟨-, -, he⟩ | ⟨-, he⟩ <;> rw [he] at h
  · exact (Option.some.inj h).symm
  all_goals cases h

variable {i len : Nat} {r : Conn}

/-- **One plain frame** does not bring the missed message back. -/
theorem Missing.frame (h : Missing i len r) (p : Profile) (env : Env) {d : Bytes} (hd : Plain d)
    (messageIndex orderIndex : U24) (split : Option SplitInfo) :
    Missing i len (handleFrame p env (buildFrame d messageIndex orderIndex split) r).2 := by
  have hr : Receiving r.appData r.shared.orderedChannels[0] r.shared.fragmentQueue r := ⟨rfl, rfl, rfl, h.connected⟩
  cases split with
  | none =>
    obtain ⟨r', he, hr'⟩ := hr.whole p env hd.isGame messageIndex orderIndex
    rw [he]
    refine ⟨?_, hr'.connected, by rw [hr'.fragments]; exact h.fragments⟩
    rw [hr'.appData]
    apply h.missed.append
    intro y hy
    rw [head_insert hy]
    exact hd.ne_ones len
  | some info =>
    cases hok : (p.add 32 info.index.toNat 1).isOk with
    | true =>
      obtain ⟨r', he, hr'⟩ := hr.fragment env hd.isGame messageIndex orderIndex info hok
      obtain ⟨hout, hheld⟩ := insert_plain h.fragments env.now info.id.toNat info.index.toNat info.count.toNat hd
      rw [he]
      refine ⟨?_, hr'.connected, by rw [hr'.fragments]; exact hheld⟩
      rw [hr'.appData]
      refine h.missed.append fun y hy => (hout y ?_).ne_ones len
      cases hq : (r.shared.fragmentQueue.insert env.now info.id.toNat info.index.toNat info.count.toNat d).1 with
      | none => rw [hq] at hy; cases hy
      | some z => rw [hq] at hy; exact hy
    | false =>
      rw [handleFrame_overflow env h.connected hd.isGame messageIndex orderIndex info hok]
      exact h

/-- a frame of a sender whose payload is plain -/
def PlainFrame (f : Frame) : Prop :=
  ∃ d messageIndex orderIndex split, Plain d ∧ f = buildFrame d messageIndex orderIndex split

theorem PlainFrame.isGame {f : Frame} (h : PlainFrame f) : IsGame f.payload := by
  obtain ⟨d, messageIndex, orderIndex, split, hd, rfl⟩ := h
  cases split <;> exact hd.isGame

theorem Missing.frames (h : Missing i len r) (p : Profile) (envs : Nat → Env) {fs : List Frame}
    (hfs : ∀ f ∈ fs, PlainFrame f) : Missing i len (handleFrames p envs fs r).2 := by
  refine handleFrames_inv p ?_ envs hfs h
  rintro env f r' ⟨d, messageIndex, orderIndex, split, hd, rfl⟩ h'
  exact h'.frame p env hd messageIndex orderIndex split

theorem mem_fragmentFrames {n : Nat} {id : UInt16} {count : UInt32} {index : Nat} {cs : List Bytes} {f : Frame}
    (h : f ∈ fragmentFrames n id count index cs) :
    ∃ d ∈ cs, ∃ messageIndex orderIndex split, f = buildFrame d messageIndex orderIndex split := by
  induction cs generalizing index with
  | nil => cases h
  | cons chunk cs ih =>
    rcases List.mem_cons.1 h with rfl | h
    · exact ⟨chunk, List.mem_cons_self, _, _, _, rfl⟩
    · obtain ⟨d, hd, hf⟩ := ih h
      exact ⟨d, List.mem_cons_of_mem _ hd, hf⟩

theorem plain_messageFrames {mtu n : Nat} {id : UInt16} {data : Bytes} (hdata : Plain data) :
    ∀ f ∈ messageFrames mtu n id data, PlainFrame f := by
  intro f hf
  unfold messageFrames at hf
  split_ifs at hf
  · exact ⟨data, _, _, _, hdata, List.mem_singleton.1 hf⟩
  · obtain ⟨d, hd, messageIndex, orderIndex, split, he⟩ := mem_fragmentFrames hf
    obtain ⟨hne, hmem⟩ := mem_chunks hd
    exact ⟨d, messageIndex, orderIndex, split, ⟨hne, fun b hb => hdata.bytes b (hmem b hb)⟩, he⟩

theorem plain_allFrames {mtu : Nat} {msgs : List Bytes} (hmsgs : ∀ m ∈ msgs, Plain m) (n : Nat)
    (id : UInt16) : ∀ f ∈ allFrames mtu n id msgs, PlainFrame f := by
  induction msgs generalizing n id with
  | nil => exact fun f hf => by cases hf
  | cons data rest ih =>
    intro f hf
    rcases List.mem_append.1 hf with hf | hf
    · exact plain_messageFrames (hmsgs data List.mem_cons_self) f hf
    · exact ih (fun m hm => hmsgs m (List.mem_cons_of_mem _ hm)) _ _ f hf

/-! ## Deliveries only grow -/

theorem Held.appData_game (p : Profile) (now : Nat) (h : Held) (f : Frame) :
    h.appData <+: (h.game p now f).appData := by
  unfold Held.game Held.ordered Held.fragment
  cases f.split with
  | none => split_ifs <;> first | exact List.prefix_append _ _ | exact List.prefix_refl _
  | some info =>
    dsimp only
    split_ifs <;> first | exact List.prefix_append _ _ | exact List.prefix_refl _

theorem handleFrame_appends (p : Profile) (env : Env) (f : Frame) (r : Conn) :
    r.appData <+: (handleFrame p env f r).2.appData := by
  have hheld := congrArg Held.appData (heldView_handleFrame p env f r)
  have hview : (handleFrame p env f r).2.appData = ((heldView r).after p env.now r.shared.state f).appData := hheld
  rw [hview]
  unfold Held.after
  cases kindIn r.shared.state f with
  | game => exact Held.appData_game p env.now (heldView r) f
  | request | incoming =>
    dsimp only
    rw [Held.appData_advanced]
    exact List.prefix_refl _
  | _ => exact List.prefix_refl _

theorem handleFrames_appends (p : Profile) (envs : Nat → Env) (fs : List Frame) (r : Conn) :
    r.appData <+: (handleFrames p envs fs r).2.appData := by
  refine handleFrames_inv (P := fun r' => r.appData <+: r'.appData) (Q := fun _ => True) p ?_ envs (fun _ _ => trivial)
    (List.prefix_refl _)
  intro env f r' _ h'
  exact h'.trans (handleFrame_appends p env f r')

/-- what the first frames establish and the others keep holds in the end, wherever the loop stops -/
theorem handleFrames_append_keeps {P : Conn → Prop} (p : Profile) {a b : List Frame}
    (hb : ∀ envs r', P r' → P (handleFrames p envs b r').2) (envs : Nat → Env) {r : Conn}
    (ha : P (handleFrames p envs a r).2) : P (handleFrames p envs (a ++ b) r).2 := by
  induction a generalizing envs r with
  | nil => exact hb envs r ha
  | cons f a ih =>
    unfold handleFrames at ha
    rw [List.cons_append]
    unfold handleFrames
    rw [Action.bind_apply] at ha ⊢
    cases hr : handleFrame p (envs 0) f r with
    | mk res r1 =>
      rw [hr] at ha
      cases res with
      | ok u => exact ih _ ha
      | err e => exact ha
      | panic => exact ha

/-! ## A message out of step -/

/-- fragments with a count of zero are all refused -/
theorem Receiving.refused {out : List Bytes} {chan : OrderedChannel} {q : FragmentQueue}
    (hr : Receiving out chan q r) (p : Profile) (envs : Nat → Env) {n : Nat} {id : UInt16} {count : UInt32}
    (hcount : count.toNat = 0) {cs : List Bytes} (hgame : ∀ d ∈ cs, IsGame d) (index : Nat) :
    Receiving out chan q (handleFrames p envs (fragmentFrames n id count index cs) r).2 := by
  induction cs generalizing index envs r with
  | nil => exact hr
  | cons d cs ih =>
    unfold fragmentFrames handleFrames
    rw [Action.bind_apply]
    cases hok : (p.add 32 (UInt32.ofNat index).toNat 1).isOk with
    | true =>
      obtain ⟨r', he, hr'⟩ := hr.fragment (envs 0) (hgame d List.mem_cons_self) (U24.new (n + index))
        (U24.new (n + index)) ⟨count, id, UInt32.ofNat index⟩ hok
      have hrefuse : q.insert (envs 0).now id.toNat (UInt32.ofNat index).toNat count.toNat d = (none, q) := by
        rw [FragmentQueue.insert, if_pos (by rw [hcount]; exact Nat.zero_le _)]
      dsimp only at hr'
      rw [hrefuse] at hr'
      simp only [Option.toList_none, List.append_nil] at hr'
      rw [he]
      exact ih hr' _ (fun x hx => hgame x (List.mem_cons_of_mem _ hx)) _
    | false =>
      have hpanic := handleFrame_overflow (envs 0) hr.connected (hgame d List.mem_cons_self) (U24.new (n + index))
        (U24.new (n + index)) ⟨count, id, UInt32.ofNat index⟩ hok
      rw [hpanic]
      exact hr

theorem fragmentFrames_append (n : Nat) (id : UInt16) (count : UInt32) (index : Nat) (a b : List Bytes) :
    fragmentFrames n id count index (a ++ b) =
      fragmentFrames n id count index a ++ fragmentFrames n id count (index + a.length) b := by
  induction a generalizing index with
  | nil => rfl
  | cons d a ih =>
    rw [List.cons_append, fragmentFrames, ih, fragmentFrames, List.cons_append, List.length_cons, Nat.add_assoc,
      Nat.add_comm 1]

/-- place `i` has been given to something other than the message -/
def Wrong (i len : Nat) (r : Conn) : Prop := ∃ x, r.appData[i]? = some x ∧ x ≠ List.replicate len 1

theorem Wrong.frames (h : Wrong i len r) (p : Profile) (envs : Nat → Env) (fs : List Frame) :
    Wrong i len (handleFrames p envs fs r).2 := by
  obtain ⟨x, hx, hne⟩ := h
  obtain ⟨more, hmore⟩ := handleFrames_appends p envs fs r
  refine ⟨x, ?_, hne⟩
  rw [← hmore, List.getElem?_append_left (List.getElem?_eq_some_iff.1 hx).1]
  exact hx

variable {out : List Bytes} {chan : OrderedChannel} {q : FragmentQueue}

theorem Receiving.missing (hr : Receiving out chan q r) (hq : Idle q) (len : Nat) : Missing out.length len r := by
  refine ⟨Or.inl (by rw [hr.appData]), hr.connected, ?_⟩
  intro id k e d he
  rw [hr.fragments, hq.splits, NatMap.get?_empty] at he
  cases he

/-- a whole message with an index the channel does not wait for -/
theorem Receiving.wrongIndex {w : Nat} (hr : Receiving out chan q r) (hchan : Synced w chan) (hq : Idle q) (p : Profile)
    (envs : Nat → Env) {mtu n : Nat} (id : UInt16) {data : Bytes} (hwhole : isWhole mtu data.length = true)
    (hdata : IsGame data) (hbad : n % 2 ^ 24 ≠ w) :
    Missing out.length data.length (handleFrames p envs (messageFrames mtu n id data) r).2 := by
  have hgame : ∀ f ∈ messageFrames mtu n id data, IsGame f.payload := by
    intro f hf
    rw [messageFrames, if_pos hwhole] at hf
    rw [List.mem_singleton.1 hf]
    exact hdata
  have hnone : (chan.insert (n % 2 ^ 24) data).1 = [] := by
    rcases chan.insert_cases (n % 2 ^ 24) data with ⟨hnext, -⟩ | ⟨-, -, h⟩ | ⟨-, -, h⟩ | ⟨-, h⟩
    · rw [hchan.next] at hnext
      exact absurd hnext hbad
    all_goals rw [h]
  obtain ⟨r', he, hr'⟩ := hr.wholeMessage p envs hwhole hgame
  rw [hnone, List.append_nil] at hr'
  rw [he]
  exact hr'.missing hq data.length

/-- a fragmented message whose count does not fit its field: all fragments are refused, or the message is cut short -/
theorem Receiving.wrongCount (hr : Receiving out chan q r) (hq : Idle q) (p : Profile) (envs : Nat → Env) {mtu n : Nat}
    {id : UInt16} (hlong : isWhole mtu len = false) (hbad : 2 ^ 32 ≤ chunkCount len (mtu - 80)) :
    Missing out.length len (handleFrames p envs (messageFrames mtu n id (List.replicate len 1)) r).2 ∨
    Wrong out.length len (handleFrames p envs (messageFrames mtu n id (List.replicate len 1)) r).2 := by
  have hlength : (List.replicate len (1 : UInt8)).length = len := List.length_replicate
  have hchunks : ∀ d ∈ chunks (List.replicate len 1) (mtu - 80), IsGame d := by
    intro d hd
    obtain ⟨hd1, hd2⟩ := mem_chunks hd
    exact isGame_of_ones hd1 fun b hb => List.eq_of_mem_replicate (hd2 b hb)
  have hcount : (UInt32.ofNat (chunkCount len (mtu - 80))).toNat = chunkCount len (mtu - 80) % 2 ^ 32 :=
    UInt32.toNat_ofNat'
  rw [messageFrames, hlength, if_neg (by simp [hlong])]
  generalize UInt32.ofNat (chunkCount len (mtu - 80)) = count at hcount
  by_cases hzero : count.toNat = 0
  · exact Or.inl ((hr.refused p envs hzero hchunks 0).missing hq len)
  · right
    have hlt : count.toNat < chunkCount len (mtu - 80) := by
      rw [hcount]
      exact lt_of_lt_of_le (Nat.mod_lt _ (by norm_num)) hbad
    have htake : ((chunks (List.replicate len 1) (mtu - 80)).take count.toNat).length = count.toNat := by
      rw [List.length_take, length_chunks, hlength]
      omega
    have hprefix : ((chunks (List.replicate len 1) (mtu - 80)).take count.toNat).flatten =
        (List.replicate len (1 : UInt8)).take (count.toNat * (mtu - 80)) :=
      flatten_take_chunks (by rw [hlength]; exact hlt.le)
    -- the first `count` fragments complete a message of their own
    obtain ⟨q', r', he, hr', -⟩ := Receiving.allFragments (p := p) envs (n := n) hr (hq.holding id.toNat count.toNat)
      (by rw [← List.length_pos_iff, htake]; omega) (by rw [htake, List.length_nil, Nat.zero_add])
      fun d hd => hchunks d (List.mem_of_mem_take hd)
    rw [List.length_nil] at he
    rw [← List.take_append_drop count.toNat (chunks (List.replicate len 1) (mtu - 80)), fragmentFrames_append]
    refine handleFrames_append_keeps (P := Wrong out.length len) p (fun envs' r1 h1 => h1.frames p envs' _) envs ?_
    rw [he]
    refine ⟨(List.replicate len 1).take (count.toNat * (mtu - 80)), ?_, ?_⟩
    · rw [hr'.appData, List.nil_append, hprefix, List.getElem?_append_right (le_refl _), Nat.sub_self]
      rfl
    · intro heq
      have hcut := congrArg List.length heq
      have hshort := lt_of_lt_chunkCount hlt
      rw [List.length_take, hlength] at hcut
      omega

/-- **A message out of step** leaves its place open or gives it to something else. -/
theorem Receiving.outOfStep {w : Nat} (hr : Receiving out chan q r) (hchan : Synced w chan) (hq : Idle q) (p : Profile)
    (envs : Nat → Env) {mtu n : Nat} {id : UInt16} (hlen : 0 < len) (hbad : inStep mtu n w len = false) :
    Missing out.length len (handleFrames p envs (messageFrames mtu n id (List.replicate len 1)) r).2 ∨
    Wrong out.length len (handleFrames p envs (messageFrames mtu n id (List.replicate len 1)) r).2 := by
  have hlength : (List.replicate len (1 : UInt8)).length = len := List.length_replicate
  unfold inStep at hbad
  cases hwhole : isWhole mtu len with
  | true =>
    rw [hwhole, if_pos rfl, decide_eq_false_iff_not] at hbad
    have hgame : IsGame (List.replicate len 1) :=
      isGame_of_ones (by rw [← List.length_pos_iff, hlength]; exact hlen) fun b hb => List.eq_of_mem_replicate hb
    have hmissing := hr.wrongIndex hchan hq p envs (n := n) id (by rw [hlength]; exact hwhole) hgame hbad
    rw [hlength] at hmissing
    exact Or.inl hmissing
  | false =>
    rw [hwhole, if_neg (by simp), decide_eq_false_iff_not, Nat.not_lt] at hbad
    exact hr.wrongCount hq p envs hwhole hbad

/-! ## Messages that do not come out as they went in -/

/-- messages of the given lengths: bytes 1 for the first one out of step, bytes 2 for all others -/
def spoiled (mtu : Nat) : Nat → Nat → List Nat → List Bytes
  | _, _, [] => []
  | n, w, len :: rest =>
    if inStep mtu n w len then
      List.replicate len 2 :: spoiled mtu (n + frameCount mtu len) (w + (isWhole mtu len).toNat) rest
    else List.replicate len 1 :: rest.map (List.replicate · 2)

theorem map_length_spoiled (mtu : Nat) (lens : List Nat) (n w : Nat) :
    (spoiled mtu n w lens).map List.length = lens := by
  induction lens generalizing n w with
  | nil => rfl
  | cons len rest ih =>
    unfold spoiled
    split_ifs
    · rw [List.map_cons, ih, List.length_replicate]
    · rw [List.map_cons, List.length_replicate, List.map_map]
      congr 1
      calc rest.map (List.length ∘ _) = rest.map id := List.map_congr_left fun x _ => List.length_replicate
        _ = rest := List.map_id rest

theorem bytes_spoiled (mtu : Nat) (lens : List Nat) (n w : Nat) :
    ∀ m ∈ spoiled mtu n w lens, ∀ b ∈ m, b = 1 ∨ b = 2 := by
  induction lens generalizing n w with
  | nil => exact fun m hm => by cases hm
  | cons len rest ih =>
    intro m hm b hb
    unfold spoiled at hm
    split_ifs at hm
    · rcases List.mem_cons.1 hm with rfl | hm
      · exact Or.inr (List.eq_of_mem_replicate hb)
      · exact ih _ _ m hm b hb
    · rcases List.mem_cons.1 hm with rfl | hm
      · exact Or.inl (List.eq_of_mem_replicate hb)
      · obtain ⟨x, -, rfl⟩ := List.mem_map.1 hm
        exact Or.inr (List.eq_of_mem_replicate hb)

/-- **Out of step, not delivered.** -/
theorem not_delivered_of_not_inSync {w mtu : Nat} (hmtu : 80 < mtu) (p : Profile) {lens : List Nat}
    (hlens : ∀ len ∈ lens, 0 < len) {n : Nat} {id : UInt16} {envs : Nat → Env} (hr : Receiving out chan q r)
    (hchan : Synced w chan) (hq : Idle q) (hnot : ¬ InSync mtu n w lens) :
    (handleFrames p envs (allFrames mtu n id (spoiled mtu n w lens)) r).2.appData ≠ out ++ spoiled mtu n w lens := by
  induction lens generalizing n w id envs out chan q r with
  | nil => exact absurd trivial hnot
  | cons len rest ih =>
    have hlen := hlens len List.mem_cons_self
    have hrest : ∀ x ∈ rest, 0 < x := fun x hx => hlens x (List.mem_cons_of_mem _ hx)
    cases hstep : inStep mtu n w len with
    | true =>
      have hspoiled : spoiled mtu n w (len :: rest) =
          List.replicate len 2 :: spoiled mtu (n + frameCount mtu len) (w + (isWhole mtu len).toNat) rest := by
        rw [spoiled, if_pos hstep]
      have hnot' : ¬ InSync mtu (n + frameCount mtu len) (w + (isWhole mtu len).toNat) rest := fun h => hnot ⟨hstep, h⟩
      have hlength : (List.replicate len (2 : UInt8)).length = len := List.length_replicate
      have hgame : ∀ f ∈ messageFrames mtu n id (List.replicate len 2), IsGame f.payload :=
        fun f hf => (plain_messageFrames (plain_replicate hlen) f hf).isGame
      obtain ⟨chan', q', r', he, hr', hchan', hq'⟩ := hr.message hchan hq p envs hmtu (by rw [hlength]; exact hstep) hgame
      rw [hlength] at hchan'
      rw [hspoiled, allFrames, handleFrames_append p envs he, hlength, List.append_cons]
      exact ih hrest hr' hchan' hq' hnot'
    | false =>
      have hspoiled : spoiled mtu n w (len :: rest) = List.replicate len 1 :: rest.map (List.replicate · 2) := by
        rw [spoiled, if_neg (by simp [hstep])]
      have hplain : ∀ m ∈ rest.map (List.replicate · (2 : UInt8)), Plain m := by
        intro m hm
        obtain ⟨x, hx, rfl⟩ := List.mem_map.1 hm
        exact plain_replicate (hrest x hx)
      rw [hspoiled, allFrames]
      apply Missed.ne
      rcases hr.outOfStep hchan hq p envs hlen hstep with h | h
      · exact (handleFrames_append_keeps (P := Missing out.length len) p
          (fun envs' r1 h1 => h1.frames p envs' (plain_allFrames hplain _ _)) envs h).missed
      · exact Or.inr (handleFrames_append_keeps (P := Wrong out.length len) p
          (fun envs' r1 h1 => h1.frames p envs' _) envs h)

end Conn

end RakNet
