/-
What `send_task` transmits for a list of messages, on a socket that takes everything: the frames of each message, with
the counters the shared state had for them.

A frame's message index and order index are both the number of frames before it, modulo 2^24; a fragment counts like a
whole message.

- `chunks_flatten`: the chunks of a message put together are the message.
- `sendTask_frames`: the frames of a whole run of `send_task`.
-/
import RakNet.Connection.Send

namespace RakNet

namespace Conn

open Lib Lib.Wire

/-! ## Chunks -/

theorem length_chunks (data : Bytes) (size : Nat) : (chunks data size).length = chunkCount data.length size := by
  rw [chunks, List.length_map, List.length_range]

/-- the first `n` chunks are the first `n * size` bytes -/
theorem chunks_prefix (data : Bytes) (size n : Nat) :
    ((List.range n).map fun i => (data.drop (i * size)).take size).flatten = data.take (n * size) := by
  induction n with
  | zero => simp
  | succ n ih =>
    rw [List.range_succ, List.map_append, List.flatten_append, ih, Nat.succ_mul, List.take_add]
    simp

theorem le_chunkCount_mul (len : Nat) {size : Nat} (h : 0 < size) : len ≤ chunkCount len size * size := by
  have hdiv := Nat.div_add_mod (len + size - 1) size
  have hmod := Nat.mod_lt (len + size - 1) h
  rw [chunkCount, Nat.mul_comm]
  omega

theorem chunks_flatten (data : Bytes) {size : Nat} (h : 0 < size) : (chunks data size).flatten = data := by
  rw [chunks, chunks_prefix, List.take_of_length_le (le_chunkCount_mul data.length h)]

/-- a message of more than one chunk's length has more than one chunk -/
theorem one_lt_chunkCount {len size : Nat} (h : 0 < size) (hlen : size < len) : 1 < chunkCount len size := by
  have hle := le_chunkCount_mul len h
  by_contra hn
  have h1 : chunkCount len size * size ≤ 1 * size := Nat.mul_le_mul_right size (by omega)
  omega

theorem pos_of_lt_chunkCount {len size c : Nat} (h : c < chunkCount len size) : 0 < size := by
  by_contra h0
  rw [Nat.eq_zero_of_not_pos h0] at h
  simp [chunkCount] at h

/-- fewer chunks than there are do not reach the end of the message -/
theorem lt_of_lt_chunkCount {len size c : Nat} (h : c < chunkCount len size) : c * size < len := by
  have hpos := pos_of_lt_chunkCount h
  have hle : (c + 1) * size ≤ len + size - 1 :=
    calc (c + 1) * size ≤ chunkCount len size * size := Nat.mul_le_mul_right size h
      _ ≤ len + size - 1 := Nat.div_mul_le_self _ _
  rw [Nat.succ_mul] at hle
  omega

theorem mem_chunks {data d : Bytes} {size : Nat} (h : d ∈ chunks data size) :
    d ≠ [] ∧ ∀ b ∈ d, b ∈ data := by
  obtain ⟨i, hi, rfl⟩ := List.mem_map.1 h
  have hpos := pos_of_lt_chunkCount (List.mem_range.1 hi)
  have hlt := lt_of_lt_chunkCount (List.mem_range.1 hi)
  constructor
  · rw [← List.length_pos_iff, List.length_take, List.length_drop]
    omega
  · intro b hb
    exact List.mem_of_mem_drop (List.mem_of_mem_take hb)

/-- the first chunks put together -/
theorem flatten_take_chunks {data : Bytes} {size c : Nat} (h : c ≤ chunkCount data.length size) :
    ((chunks data size).take c).flatten = data.take (c * size) := by
  rw [← chunks_prefix, chunks, ← List.map_take, List.take_range, Nat.min_eq_left h]

theorem length_le_of_mem_chunks {data d : Bytes} {size : Nat} (h : d ∈ chunks data size) : d.length ≤ size := by
  obtain ⟨i, -, rfl⟩ := List.mem_map.1 h
  rw [List.length_take]
  exact Nat.min_le_left _ _

/-! ## Frames -/

/-- the payload and the split header of a frame -/
def partOf (f : Frame) : Bytes × Option SplitInfo := (f.payload, f.split)

/-- the chunks with their headers, from `index` on -/
def headed (id : UInt16) (count : UInt32) : Nat → List Bytes → List (Bytes × Option SplitInfo)
  | _, [] => []
  | index, chunk :: rest => (chunk, some ⟨count, id, UInt32.ofNat index⟩) :: headed id count (index + 1) rest

theorem getElem?_headed (id : UInt16) (count : UInt32) (index : Nat) (cs : List Bytes) (i : Nat) :
    (headed id count index cs)[i]? = cs[i]?.map fun c => (c, some ⟨count, id, UInt32.ofNat (index + i)⟩) := by
  induction cs generalizing index i with
  | nil => rfl
  | cons chunk cs ih =>
    cases i with
    | zero => rfl
    | succ i =>
      rw [headed, List.getElem?_cons_succ, ih, List.getElem?_cons_succ, Nat.add_assoc, Nat.add_comm 1]

theorem mem_headed {id : UInt16} {count : UInt32} {index : Nat} {cs : List Bytes} {x : Bytes × Option SplitInfo}
    (h : x ∈ headed id count index cs) :
    ∃ i, cs[i]? = some x.1 ∧ x.2 = some ⟨count, id, UInt32.ofNat (index + i)⟩ := by
  obtain ⟨i, hi⟩ := List.getElem?_of_mem h
  rw [getElem?_headed] at hi
  obtain ⟨chunk, hchunk, rfl⟩ := Option.map_eq_some_iff.1 hi
  exact ⟨i, hchunk, rfl⟩

/-- the fragments from `index` on; the first fragment of the message is frame number `n` -/
def fragmentFrames (n : Nat) (id : UInt16) (count : UInt32) : Nat → List Bytes → List Frame
  | _, [] => []
  | index, chunk :: rest =>
    buildFrame chunk (U24.new (n + index)) (U24.new (n + index)) (some ⟨count, id, UInt32.ofNat index⟩) ::
      fragmentFrames n id count (index + 1) rest

/-- is a message of this length sent whole -/
def isWhole (mtu len : Nat) : Bool := decide (len ≤ mtu - 60)

/-- how many frames a message takes -/
def frameCount (mtu len : Nat) : Nat := if isWhole mtu len then 1 else chunkCount len (mtu - 80)

/-- the frames of a message that starts with frame number `n` -/
def messageFrames (mtu n : Nat) (id : UInt16) (data : Bytes) : List Frame :=
  if isWhole mtu data.length then [buildFrame data (U24.new n) (U24.new n) none]
  else fragmentFrames n id (UInt32.ofNat (chunkCount data.length (mtu - 80))) 0 (chunks data (mtu - 80))

/-- the frames of a list of messages, from frame number `n` and split id `id` on -/
def allFrames (mtu : Nat) : Nat → UInt16 → List Bytes → List Frame
  | _, _, [] => []
  | n, id, data :: rest =>
    messageFrames mtu n id data ++
      allFrames mtu (n + frameCount mtu data.length) (if isWhole mtu data.length then id else id + 1) rest

/-! ## The counters of the sender -/

/-- a sender that has sent `n` frames and is about to use split id `id` -/
structure Counters (mtu n : Nat) (id : UInt16) (c : Conn) : Prop where
  mtu : c.shared.mtu.toNat = mtu
  messageIndex : c.shared.messageIndex.load = U24.new n
  orderIndex : c.shared.orderIndices[0].load = U24.new n
  splitId : c.shared.splitId = id
  isOpen : c.shared.isClosed = false

theorem counters_new (mtu : UInt16) (nowMicros : Nat) (ready : Bool) :
    Counters mtu.toNat 0 0 (new mtu nowMicros ready) := ⟨rfl, rfl, rfl, rfl, rfl⟩

/-- one frame -/
theorem Counters.sendFrame {mtu n : Nat} {id : UInt16} {c : Conn} (h : Counters mtu n id c) {env : Env}
    (henv : env.sendError = none) (payload : Bytes) (split : Option SplitInfo) :
    ∃ c', Conn.sendFrame env payload split c = (.ok (), c') ∧ Counters mtu (n + 1) id c' ∧
      c'.framesSent = c.framesSent ++ [buildFrame payload (U24.new n) (U24.new n) split] := by
  refine ⟨_, sendFrame_ok henv payload split c, ⟨h.mtu, AtomicU24.load_next h.messageIndex, ?_, h.splitId, h.isOpen⟩, ?_⟩
  · show ((c.shared.orderIndices.set 0 (c.shared.orderIndices[0].fetchAdd 1).2)[0]).load = _
    rw [Vector.getElem_set_self]
    exact AtomicU24.load_next h.orderIndex
  · show c.framesSent ++ [nextFrame c.shared payload split] = _
    rw [nextFrame, h.messageIndex, h.orderIndex]

/-- the loop over the chunks -/
theorem Counters.sendChunks {mtu n : Nat} {id : UInt16} {envs : Nat → Env} (henvs : ∀ i, (envs i).sendError = none)
    (split : UInt16) (count : UInt32) (cs : List Bytes) {index : Nat} {c : Conn}
    (h : Counters mtu (n + index) id c) :
    ∃ c', Conn.sendChunks split count envs index cs c = (.ok (), c') ∧ Counters mtu (n + (index + cs.length)) id c' ∧
      c'.framesSent = c.framesSent ++ fragmentFrames n split count index cs := by
  induction cs generalizing index c with
  | nil => exact ⟨c, rfl, h, (List.append_nil _).symm⟩
  | cons chunk cs ih =>
    obtain ⟨c1, he1, h1, hf1⟩ := h.sendFrame (henvs index) chunk (some ⟨count, split, UInt32.ofNat index⟩)
    have h1' : Counters mtu (n + (index + 1)) id c1 := h1
    obtain ⟨c2, he2, h2, hf2⟩ := ih h1'
    refine ⟨c2, ?_, ?_, ?_⟩
    · unfold Conn.sendChunks
      rw [Action.bind_of_ok he1, he2]
    · rw [List.length_cons, Nat.add_comm cs.length 1, ← Nat.add_assoc index]
      exact h2
    · rw [hf2, hf1, fragmentFrames, List.append_assoc]
      rfl

/-! ## Messages -/

/-- the longest a byte buffer can be: an allocation has at most `isize::MAX` bytes -/
def maxBytes : Nat := 2 ^ 63 - 1

/-- `send_fragmented`, where none of its subtractions and divisions fails -/
theorem sendFragmented_apply (p : Profile) (envs : Nat → Env) {data : Bytes} {c : Conn} (hmtu : 80 < c.shared.mtu.toNat)
    (hlen : data.length ≤ maxBytes) :
    sendFragmented p envs data c = sendChunks c.shared.splitId
      (UInt32.ofNat (chunkCount data.length (c.shared.mtu.toNat - 80))) envs 0 (chunks data (c.shared.mtu.toNat - 80))
      (splitAllocated c) := by
  have hsplit : onShared SharedState.nextSplitId c = (.ok c.shared.splitId, splitAllocated c) := rfl
  have hsame : (splitAllocated c).shared.mtu = c.shared.mtu := rfl
  have hbound := c.shared.mtu.toNat_lt
  have hsum : data.length + (c.shared.mtu.toNat - 80) < 2 ^ 64 := by
    unfold maxBytes at hlen
    omega
  unfold sendFragmented
  rw [Action.bind_of_ok hsplit, Action.get_bind, hsame, Profile.sub_of_le p (by omega),
    Action.bind_of_ok (Action.lift_apply _ _), Profile.add_of_lt p hsum, Action.bind_of_ok (Action.lift_apply _ _),
    Profile.sub_of_le p (by omega), Action.bind_of_ok (Action.lift_apply _ _), if_neg (by omega)]
  rfl

/-- one message -/
theorem Counters.sendMessage {mtu n : Nat} {id : UInt16} {c : Conn} (h : Counters mtu n id c) (hmtu : 80 < mtu)
    (p : Profile) {envs : Nat → Env} (henvs : ∀ i, (envs i).sendError = none) {data : Bytes}
    (hlen : data.length ≤ maxBytes) :
    ∃ c', Conn.sendMessage p envs data c = (.ok (), c') ∧
      Counters mtu (n + frameCount mtu data.length) (if isWhole mtu data.length then id else id + 1) c' ∧
      c'.framesSent = c.framesSent ++ messageFrames mtu n id data := by
  unfold Conn.sendMessage
  rw [Action.get_bind, h.mtu, Profile.sub_of_le p (by omega), Action.bind_of_ok (Action.lift_apply _ _)]
  by_cases hw : data.length ≤ mtu - 60
  · have hwhole : isWhole mtu data.length = true := decide_eq_true hw
    rw [if_pos hw, messageFrames, frameCount, hwhole]
    exact h.sendFrame (henvs 0) data none
  · have hwhole : isWhole mtu data.length = false := decide_eq_false hw
    have hsplit : Counters mtu (n + 0) (id + 1) (splitAllocated c) :=
      ⟨h.mtu, h.messageIndex, h.orderIndex, by rw [← h.splitId]; rfl, h.isOpen⟩
    rw [if_neg hw, messageFrames, frameCount, hwhole, sendFragmented_apply p envs (by rw [h.mtu]; exact hmtu) hlen, h.mtu,
      h.splitId]
    obtain ⟨c', he, hc, hf⟩ := hsplit.sendChunks henvs id
      (UInt32.ofNat (chunkCount data.length (mtu - 80))) (chunks data (mtu - 80))
    refine ⟨c', he, ?_, hf⟩
    rw [length_chunks, Nat.zero_add] at hc
    exact hc

/-- **The frames of `send_task`.** -/
theorem sendTask_frames {mtu : Nat} (hmtu : 80 < mtu) (p : Profile) {inputs : List (Bytes × (Nat → Env))} {n : Nat}
    {id : UInt16} {c : Conn} (h : Counters mtu n id c)
    (hinputs : ∀ x ∈ inputs, x.1.length ≤ maxBytes ∧ ∀ i, (x.2 i).sendError = none) :
    (sendTask p inputs c).2.framesSent = c.framesSent ++ allFrames mtu n id (inputs.map Prod.fst) := by
  induction inputs generalizing n id c with
  | nil => exact (List.append_nil _).symm
  | cons x rest ih =>
    obtain ⟨data, envs⟩ := x
    obtain ⟨hlen, henvs⟩ := hinputs (data, envs) List.mem_cons_self
    obtain ⟨c', he, hc, hf⟩ := h.sendMessage hmtu p henvs hlen
    unfold sendTask
    rw [Action.get_bind, h.isOpen, if_neg (by simp), Action.bind_of_ok he,
      ih hc fun y hy => hinputs y (List.mem_cons_of_mem _ hy), hf, List.append_assoc]
    rfl

end Conn

end RakNet
