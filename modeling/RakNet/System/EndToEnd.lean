/-
Messages over a perfect link: what `send_task` makes of a list of messages, handled once each and in order by a fresh,
connected receiver.

- `messages_delivered_iff`: messages of given lengths always come out as they went in, if and only if the lengths are in
  step: each whole message has as many frames before it, modulo 2^24, as whole messages, and each fragment count fits its
  field. Up to 2^24 frames the same holds message list by message list.
- `small_after_large_lost`: a small message after a large one never arrives.
-/
import RakNet.System.OutOfStep

namespace RakNet

open Lib Lib.Wire Conn

/-- a sender with an MTU the handshake can agree on, a socket that takes everything, and a receiver -/
structure Link where
  profile : Profile
  mtu : UInt16
  mtu_ge : 576 ≤ mtu.toNat
  mtu_le : mtu.toNat ≤ 1500
  recvMtu : UInt16
  nowMicros : Nat
  recvNowMicros : Nat
  /-- the environments of each message's sends -/
  sendEnvs : Nat → Nat → Env
  sends : ∀ i j, (sendEnvs i j).sendError = none
  recvEnvs : Nat → Env

namespace Link

variable (l : Link)

/-- the frames a fresh sender's `send_task` transmits -/
def frames (msgs : List Bytes) : List Frame :=
  (sendTask l.profile (msgs.mapIdx fun i m => (m, l.sendEnvs i)) (.new l.mtu l.nowMicros false)).2.framesSent

/-- a fresh receiver in state `Connected` -/
def receiver : Conn :=
  { Conn.new l.recvMtu l.recvNowMicros false with
    shared := { SharedState.new l.recvMtu l.recvNowMicros with state := .connected } }

/-- the payloads sent to `app_data_tx` -/
def delivered (msgs : List Bytes) : List Bytes :=
  (handleFrames l.profile l.recvEnvs (l.frames msgs) l.receiver).2.appData

/-- nonempty messages of any length a buffer can have, with no frame that looks like a control packet -/
structure Admissible (msgs : List Bytes) : Prop where
  nonempty : ∀ m ∈ msgs, m ≠ []
  size : ∀ m ∈ msgs, m.length ≤ maxBytes
  payloads : ∀ f ∈ l.frames msgs, ∀ b, f.payload.head? = some b → b ≠ 0x00 ∧ b ≠ 0x03 ∧ b ≠ 0x15

variable {l} {msgs : List Bytes}

theorem mtu_gt : 80 < l.mtu.toNat := by
  have := l.mtu_ge
  omega

/-- the sending end -/
theorem frames_eq (hsize : ∀ m ∈ msgs, m.length ≤ maxBytes) : l.frames msgs = allFrames l.mtu.toNat 0 0 msgs := by
  have hinputs : ∀ x ∈ msgs.mapIdx (fun i m => (m, l.sendEnvs i)),
      x.1.length ≤ maxBytes ∧ ∀ i, (x.2 i).sendError = none := by
    intro x hx
    obtain ⟨i, hi, rfl⟩ := List.mem_mapIdx.1 hx
    exact ⟨hsize _ (List.getElem_mem hi), l.sends i⟩
  have hmap : (msgs.mapIdx fun i m => (m, l.sendEnvs i)).map Prod.fst = msgs := by
    apply List.ext_getElem?
    intro i
    rw [List.getElem?_map, List.getElem?_mapIdx, Option.map_map]
    exact congrFun Option.map_id msgs[i]?
  rw [frames, sendTask_frames l.mtu_gt l.profile (counters_new l.mtu l.nowMicros false) hinputs, hmap]
  rfl

theorem receiving : Receiving [] .new .new l.receiver := ⟨rfl, rfl, rfl, rfl⟩

theorem idle : Idle .new := ⟨rfl, by decide⟩

/-- the bytes of a frame come from one of the messages, and there are some -/
theorem mem_messageFrames {mtu n : Nat} {id : UInt16} {data : Bytes} (hne : data ≠ []) {f : Frame}
    (h : f ∈ messageFrames mtu n id data) : f.payload ≠ [] ∧ ∀ b ∈ f.payload, b ∈ data := by
  unfold messageFrames at h
  split_ifs at h
  · rw [List.mem_singleton.1 h]
    exact ⟨hne, fun b hb => hb⟩
  · obtain ⟨d, hd, messageIndex, orderIndex, split, rfl⟩ := mem_fragmentFrames h
    cases split <;> exact mem_chunks hd

theorem mem_allFrames {mtu n : Nat} {id : UInt16} (hne : ∀ m ∈ msgs, m ≠ []) {f : Frame}
    (h : f ∈ allFrames mtu n id msgs) : f.payload ≠ [] ∧ ∃ m ∈ msgs, ∀ b ∈ f.payload, b ∈ m := by
  induction msgs generalizing n id with
  | nil => cases h
  | cons data rest ih =>
    rcases List.mem_append.1 h with h | h
    · obtain ⟨h1, h2⟩ := mem_messageFrames (hne data List.mem_cons_self) h
      exact ⟨h1, data, List.mem_cons_self, h2⟩
    · obtain ⟨h1, m, hm, h2⟩ := ih (fun m hm => hne m (List.mem_cons_of_mem _ hm)) h
      exact ⟨h1, m, List.mem_cons_of_mem _ hm, h2⟩

/-- every frame of admissible messages is a game frame -/
theorem Admissible.isGame (h : l.Admissible msgs) : ∀ f ∈ allFrames l.mtu.toNat 0 0 msgs, IsGame f.payload := by
  intro f hf
  have hne := (mem_allFrames h.nonempty hf).1
  have hctl := h.payloads f (by rw [frames_eq h.size]; exact hf)
  cases hp : f.payload with
  | nil => exact absurd hp hne
  | cons b rest =>
    obtain ⟨h1, h2, h3⟩ := hctl b (by rw [hp]; rfl)
    exact ⟨b, rest, rfl, h1, h2, h3⟩

/-- messages of bytes that start no control packet -/
theorem admissible_of_bytes (hne : ∀ m ∈ msgs, m ≠ []) (hsize : ∀ m ∈ msgs, m.length ≤ maxBytes)
    (hbytes : ∀ m ∈ msgs, ∀ b ∈ m, b = 1 ∨ b = 2) : l.Admissible msgs := by
  refine ⟨hne, hsize, ?_⟩
  intro f hf b hb
  rw [frames_eq hsize] at hf
  obtain ⟨-, m, hm, hmem⟩ := mem_allFrames hne hf
  rcases hbytes m hm b (hmem b (List.mem_of_mem_head? hb)) with rfl | rfl <;> decide

/-! ## Delivery -/

/-- in step, delivered -/
theorem delivered_of_inSync (h : l.Admissible msgs) (hsync : InSync l.mtu.toNat 0 0 (msgs.map List.length)) :
    l.delivered msgs = msgs := by
  rw [delivered, frames_eq h.size]
  exact receiving.inSync l.mtu_gt OrderedChannel.synced_new idle hsync h.isGame

/-- **What is delivered**, up to 2^24 frames -/
theorem delivered_eq (h : l.Admissible msgs) (hroom : totalFrames l.mtu.toNat (msgs.map List.length) ≤ 2 ^ 24) :
    l.delivered msgs = (msgs.takeWhile fun m => isWhole l.mtu.toNat m.length) ++
      (msgs.dropWhile fun m => isWhole l.mtu.toNat m.length).filter fun m => !isWhole l.mtu.toNat m.length := by
  rw [delivered, frames_eq h.size]
  exact receiving.split l.mtu_gt OrderedChannel.synced_new idle (by rw [Nat.zero_add]; exact hroom) h.isGame

/-- nothing is lost only if no whole message comes after a fragmented one -/
theorem all_long_of_delivered (h : l.Admissible msgs)
    (hroom : totalFrames l.mtu.toNat (msgs.map List.length) ≤ 2 ^ 24) (hall : l.delivered msgs = msgs) :
    ∀ m ∈ msgs.dropWhile fun m => isWhole l.mtu.toNat m.length, isWhole l.mtu.toNat m.length = false := by
  have heq := delivered_eq h hroom
  rw [hall] at heq
  have hsplit := List.takeWhile_append_dropWhile (p := fun m => isWhole l.mtu.toNat m.length) (l := msgs)
  have hfilter := List.append_cancel_left (hsplit.trans heq)
  intro m hm
  rw [hfilter] at hm
  simpa using (List.mem_filter.1 hm).2

/-- fragmented messages are in step wherever they stand, if there are not too many frames -/
theorem inSync_of_long {mtu : Nat} {lens : List Nat} (h : ∀ len ∈ lens, isWhole mtu len = false) {n w : Nat}
    (hroom : n + totalFrames mtu lens ≤ 2 ^ 24) : InSync mtu n w lens := by
  induction lens generalizing n w with
  | nil => trivial
  | cons len rest ih =>
    have hlong := h len List.mem_cons_self
    rw [totalFrames_cons, frameCount_of_long hlong] at hroom
    constructor
    · rw [inStep, if_neg (by simp [hlong]), decide_eq_true_eq]
      omega
    · rw [frameCount_of_long hlong]
      exact ih (fun x hx => h x (List.mem_cons_of_mem _ hx)) (by omega)

theorem inSync_of_all_long {mtu : Nat} {lens : List Nat}
    (h : ∀ len ∈ lens.dropWhile (isWhole mtu), isWhole mtu len = false) {n : Nat}
    (hroom : n + totalFrames mtu lens ≤ 2 ^ 24) : InSync mtu n n lens := by
  induction lens generalizing n with
  | nil => trivial
  | cons len rest ih =>
    cases hwhole : isWhole mtu len with
    | true =>
      rw [totalFrames_cons, frameCount_of_whole hwhole] at hroom
      rw [List.dropWhile_cons_of_pos hwhole] at h
      constructor
      · rw [inStep, if_pos hwhole, Nat.mod_eq_of_lt (by omega), decide_eq_true_eq]
      · rw [frameCount_of_whole hwhole, hwhole]
        exact ih h (by omega)
    | false =>
      rw [List.dropWhile_cons_of_neg (by simp [hwhole])] at h
      exact inSync_of_long h hroom

theorem dropWhile_map_length (mtu : Nat) (msgs : List Bytes) :
    (msgs.map List.length).dropWhile (isWhole mtu) =
      (msgs.dropWhile fun m => isWhole mtu m.length).map List.length := by
  rw [List.dropWhile_map]
  rfl

theorem admissible_spoiled {mtu : Nat} {lens : List Nat} (h : ∀ len ∈ lens, 0 < len ∧ len ≤ maxBytes) (n w : Nat) :
    l.Admissible (spoiled mtu n w lens) := by
  have hlength : ∀ m ∈ spoiled mtu n w lens, m.length ∈ lens := by
    intro m hm
    rw [← map_length_spoiled mtu lens n w]
    exact List.mem_map_of_mem hm
  refine admissible_of_bytes ?_ (fun m hm => (h _ (hlength m hm)).2) (bytes_spoiled mtu lens n w)
  intro m hm
  rw [← List.length_pos_iff]
  exact (h _ (hlength m hm)).1

/-- **When messages are delivered.** For all lengths, and every perfect link: all messages of these lengths are delivered
exactly as they were sent, if and only if the lengths are in step. If they take at most 2^24 frames, that decides it for
each list of messages. -/
theorem messages_delivered_iff (l : Link) (lens : List Nat) (hlens : ∀ len ∈ lens, 0 < len ∧ len ≤ maxBytes) :
    ((∀ msgs : List Bytes, msgs.map List.length = lens → l.Admissible msgs → l.delivered msgs = msgs) ↔
      InSync l.mtu.toNat 0 0 lens) ∧
    (totalFrames l.mtu.toNat lens ≤ 2 ^ 24 →
      ∀ msgs : List Bytes, msgs.map List.length = lens → l.Admissible msgs →
        (l.delivered msgs = msgs ↔ InSync l.mtu.toNat 0 0 lens)) := by
  refine ⟨⟨?_, ?_⟩, ?_⟩
  · intro hall
    by_contra hnot
    have hadm : l.Admissible (spoiled l.mtu.toNat 0 0 lens) := admissible_spoiled hlens 0 0
    have hdel := hall _ (map_length_spoiled _ _ _ _) hadm
    rw [delivered, frames_eq hadm.size] at hdel
    exact not_delivered_of_not_inSync l.mtu_gt l.profile (fun len hlen => (hlens len hlen).1) receiving OrderedChannel.synced_new idle hnot
      hdel
  · rintro hsync msgs rfl hadm
    exact delivered_of_inSync hadm hsync
  · rintro hroom msgs rfl hadm
    refine ⟨?_, delivered_of_inSync hadm⟩
    intro hdel
    refine inSync_of_all_long ?_ (by rw [Nat.zero_add]; exact hroom)
    intro len hlen
    rw [dropWhile_map_length] at hlen
    obtain ⟨m, hm, rfl⟩ := List.mem_map.1 hlen
    exact all_long_of_delivered hadm hroom hdel m hm

/-- MTU 576: messages of up to 516 bytes are sent whole, longer ones in chunks of 496 -/
def link576 : Link := ⟨.dev, 576, by decide, by decide, 576, 0, 0, fun _ _ => quietEnv, fun _ _ => rfl, fun _ => quietEnv⟩

/-- a small message first, then a large one -/
theorem messages_delivered_small_first :
    link576.delivered [[2], List.replicate 517 2] = [[2], List.replicate 517 2] := by
  refine (messages_delivered_iff link576 [1, 517] (by decide)).1.2 ?_ [[2], List.replicate 517 2] (by decide +kernel) ?_
  · exact ⟨by decide, by decide, trivial⟩
  · apply admissible_of_bytes
    all_goals decide +kernel

/-- **A small message after a large one is lost.** The large message takes order indices 0 and 1, the small one has index
2; the channel of the receiver still waits for index 0. -/
theorem small_after_large_lost :
    link576.Admissible [List.replicate 517 2, [2]] ∧
    link576.delivered [List.replicate 517 2, [2]] = [List.replicate 517 2] ∧
    link576.delivered [List.replicate 517 2, [2]] ≠ [List.replicate 517 2, [2]] := by
  have hadm : link576.Admissible [List.replicate 517 2, [2]] := by
    apply admissible_of_bytes
    all_goals decide +kernel
  have hdel : link576.delivered [List.replicate 517 2, [2]] = [List.replicate 517 2] := by
    rw [delivered_eq hadm (by decide +kernel)]
    decide +kernel
  refine ⟨hadm, hdel, ?_⟩
  rw [hdel]
  decide +kernel

end Link

end RakNet
