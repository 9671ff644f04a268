/-
What `send_task` emits for one message, against the MTU.

Three overheads are chosen apart from each other: 60 bytes below the MTU for a whole message, 80 for a chunk, and the
headers as they really are (28 of IP and UDP, 4 of the datagram, 10 or 20 of the frame).

- `Emits`: what a step adds to the socket's log, frame by frame.
- `send_task_fits`: a message goes out whole or in at least two numbered pieces that make it up, and every datagram fits.
-/
import RakNet.Connection.Messages

namespace RakNet

namespace Conn

open Lib Lib.Wire

/-! ## Sizes -/

/-- the bytes of an IPv4 and a UDP header -/
def ipUdpHeaders : Nat := 28

/-- the datagram of a frame and its IP and UDP headers fit in the MTU, and its length in bits fits its field -/
structure FitsIn (mtu : Nat) (f : Frame) : Prop where
  datagram : ∀ seq, (encodeDatagram seq [f.encode]).length + ipUdpHeaders ≤ mtu
  bits : f.lengthBits.toNat = f.payload.length * 8

theorem length_encodeDatagram (seq : U24) (f : Frame) : (encodeDatagram seq [f.encode]).length = 4 + f.encodedSize := by
  rw [encodeDatagram_eq, List.length_cons, List.length_append, length_writeU24, List.flatten_singleton, f.length_encode]
  omega

theorem encodedSize_buildFrame (payload : Bytes) (messageIndex orderIndex : U24) (split : Option SplitInfo) :
    (buildFrame payload messageIndex orderIndex split).encodedSize =
      10 + (if split.isSome then 10 else 0) + payload.length := by
  cases split <;> rfl

theorem payload_buildFrame (payload : Bytes) (messageIndex orderIndex : U24) (split : Option SplitInfo) :
    (buildFrame payload messageIndex orderIndex split).payload = payload := by
  cases split <;> rfl

theorem split_buildFrame (payload : Bytes) (messageIndex orderIndex : U24) (split : Option SplitInfo) :
    (buildFrame payload messageIndex orderIndex split).split = split := by
  cases split <;> rfl

/-- a payload that leaves room for the headers fits -/
theorem fitsIn_buildFrame {mtu : Nat} {payload : Bytes} {split : Option SplitInfo}
    (hlen : payload.length + (42 + if split.isSome then 10 else 0) ≤ mtu) (hmtu : mtu ≤ 1500)
    (messageIndex orderIndex : U24) : FitsIn mtu (buildFrame payload messageIndex orderIndex split) := by
  refine ⟨?_, ?_⟩
  · intro seq
    rw [length_encodeDatagram, encodedSize_buildFrame, ipUdpHeaders]
    omega
  · rw [Frame.lengthBits, payload_buildFrame, UInt16.toNat_ofNat', Nat.mod_eq_of_lt]
    omega

/-! ## What a step emits -/

/-- these frames went out, each in a datagram of its own -/
structure Emits (c : Conn) (seqs : List U24) (fs : List Frame) (c' : Conn) : Prop where
  length : seqs.length = fs.length
  frames : c'.framesSent = c.framesSent ++ fs
  sent : c'.sent = c.sent ++ List.zipWith (fun seq f => encodeDatagram seq [f.encode]) seqs fs

theorem Emits.nothing {c c' : Conn} (hframes : c'.framesSent = c.framesSent) (hsent : c'.sent = c.sent) :
    Emits c [] [] c' := ⟨rfl, by rw [hframes, List.append_nil], by rw [hsent, List.zipWith_nil_left, List.append_nil]⟩

theorem Emits.append {c c' c'' : Conn} {seqs seqs' : List U24} {fs fs' : List Frame} (h : Emits c seqs fs c')
    (h' : Emits c' seqs' fs' c'') : Emits c (seqs ++ seqs') (fs ++ fs') c'' := by
  refine ⟨?_, ?_, ?_⟩
  · rw [List.length_append, List.length_append, h.length, h'.length]
  · rw [h'.frames, h.frames, List.append_assoc]
  · rw [h'.sent, h.sent, List.append_assoc, List.zipWith_append h.length]

/-- one frame, if the socket takes it -/
theorem emits_sendFrame (env : Env) (payload : Bytes) (split : Option SplitInfo) (c : Conn) :
    ∃ seqs fs, Emits c seqs fs (sendFrame env payload split c).2 ∧
      (∀ f ∈ fs, ∃ messageIndex orderIndex, f = buildFrame payload messageIndex orderIndex split) ∧
      (env.sendError = none → fs.map partOf = [(payload, split)]) := by
  cases henv : env.sendError with
  | some msg =>
    rw [sendFrame_err henv]
    exact ⟨[], [], .nothing rfl rfl, fun f hf => (by cases hf), fun h => (by cases h)⟩
  | none =>
    rw [sendFrame_ok henv]
    refine ⟨[c.shared.sendSeq.load], [nextFrame c.shared payload split], ⟨rfl, rfl, rfl⟩, ?_, ?_⟩
    · intro f hf
      rw [List.mem_singleton.1 hf]
      exact ⟨_, _, rfl⟩
    · intro _
      rw [List.map_singleton, partOf, nextFrame, payload_buildFrame, split_buildFrame]

/-- the loop over the chunks: pieces in order, all of them if the socket takes them -/
theorem emits_sendChunks (id : UInt16) (count : UInt32) (envs : Nat → Env) (cs : List Bytes) (index : Nat) (c : Conn) :
    ∃ seqs fs, Emits c seqs fs (sendChunks id count envs index cs c).2 ∧
      (∀ f ∈ fs, ∃ chunk ∈ cs, ∃ messageIndex orderIndex info,
        f = buildFrame chunk messageIndex orderIndex (some info)) ∧
      ((∀ i, (envs i).sendError = none) → fs.map partOf = headed id count index cs) := by
  induction cs generalizing index c with
  | nil => exact ⟨[], [], .nothing rfl rfl, fun f hf => (by cases hf), fun _ => rfl⟩
  | cons chunk cs ih =>
    obtain ⟨seqs, fs, hemits, hbuilt, hparts⟩ := emits_sendFrame (envs index) chunk (some ⟨count, id, UInt32.ofNat index⟩) c
    have hfirst : ∀ f ∈ fs, ∃ chunk' ∈ chunk :: cs, ∃ messageIndex orderIndex info,
        f = buildFrame chunk' messageIndex orderIndex (some info) := by
      intro f hf
      obtain ⟨messageIndex, orderIndex, rfl⟩ := hbuilt f hf
      exact ⟨chunk, List.mem_cons_self, messageIndex, orderIndex, _, rfl⟩
    unfold sendChunks
    cases henv : (envs index).sendError with
    | some msg =>
      rw [Action.bind_of_err (sendFrame_err henv chunk _ c)]
      rw [sendFrame_err henv] at hemits
      refine ⟨seqs, fs, hemits, hfirst, ?_⟩
      intro hall
      rw [hall index] at henv
      cases henv
    | none =>
      rw [sendFrame_ok henv] at hemits
      rw [Action.bind_of_ok (sendFrame_ok henv chunk _ c)]
      obtain ⟨seqs', fs', hemits', hbuilt', hparts'⟩ := ih (index + 1) _
      refine ⟨seqs ++ seqs', fs ++ fs', hemits.append hemits', ?_, ?_⟩
      · intro f hf
        rcases List.mem_append.1 hf with hf | hf
        · exact hfirst f hf
        · obtain ⟨chunk', hmem, hrest⟩ := hbuilt' f hf
          exact ⟨chunk', List.mem_cons_of_mem _ hmem, hrest⟩
      · intro hall
        rw [List.map_append, hparts henv, hparts' hall]
        rfl

/-! ## One message -/

/-- one frame with the whole message -/
def Whole (data : Bytes) (fs : List Frame) : Prop := fs.map partOf = [(data, none)]

/-- at least two fragments, numbered from 0 to one below their count, that make up the message -/
structure Cut (data : Bytes) (fs : List Frame) : Prop where
  many : 2 ≤ fs.length
  numbered : ∀ (i : Nat) f, fs[i]? = some f →
    ∃ info, f.split = some info ∧ info.index.toNat = i ∧ info.count.toNat = fs.length
  nonempty : ∀ f ∈ fs, f.payload ≠ []
  flatten : (fs.map Frame.payload).flatten = data

/-- a message shorter than 2^32 bytes has fewer than 2^32 chunks -/
theorem chunkCount_lt {len size : Nat} (hlen : len < 2 ^ 32) (hsize : 1 < size) : chunkCount len size < 2 ^ 32 := by
  by_contra hge
  have hlt : (2 ^ 32 - 1) * size < len := lt_of_lt_chunkCount (Nat.lt_of_lt_of_le (by decide) (Nat.not_lt.1 hge))
  have hle : (2 ^ 32 - 1) * 2 ≤ (2 ^ 32 - 1) * size := Nat.mul_le_mul_left _ hsize
  omega

theorem cut_of_parts {data : Bytes} {size : Nat} {id : UInt16} {fs : List Frame} (hsize : 1 < size)
    (hlong : size < data.length) (hlen : data.length < 2 ^ 32)
    (hparts : fs.map partOf = headed id (UInt32.ofNat (chunkCount data.length size)) 0 (chunks data size)) :
    Cut data fs := by
  have hcount := chunkCount_lt hlen hsize
  have hpart : ∀ (i : Nat) f, fs[i]? = some f → (chunks data size)[i]? = some f.payload ∧
      f.split = some ⟨UInt32.ofNat (chunkCount data.length size), id, UInt32.ofNat i⟩ := by
    intro i f hf
    have hi := getElem?_headed id (UInt32.ofNat (chunkCount data.length size)) 0 (chunks data size) i
    rw [← hparts, List.getElem?_map, hf, Nat.zero_add] at hi
    obtain ⟨chunk, hchunk, heq⟩ := Option.map_eq_some_iff.1 hi.symm
    rw [partOf, Prod.mk.injEq] at heq
    rw [← heq.1, ← heq.2]
    exact ⟨hchunk, rfl⟩
  have hpayloads : fs.map Frame.payload = chunks data size := by
    have hfst : ∀ index cs, (headed id (UInt32.ofNat (chunkCount data.length size)) index cs).map Prod.fst = cs := by
      intro index cs
      induction cs generalizing index with
      | nil => rfl
      | cons chunk cs ih => rw [headed, List.map_cons, ih]
    rw [← hfst 0 (chunks data size), ← hparts, List.map_map]
    rfl
  have hlength : fs.length = chunkCount data.length size := by
    rw [← length_chunks, ← hpayloads, List.length_map]
  refine ⟨?_, ?_, ?_, ?_⟩
  · rw [hlength]
    exact one_lt_chunkCount (by omega) hlong
  · intro i f hf
    have hi : i < fs.length := (List.getElem?_eq_some_iff.1 hf).1
    refine ⟨_, (hpart i f hf).2, ?_, ?_⟩
    · dsimp only
      rw [UInt32.toNat_ofNat', Nat.mod_eq_of_lt (by omega)]
    · dsimp only
      rw [UInt32.toNat_ofNat', Nat.mod_eq_of_lt hcount, hlength]
  · intro f hf
    obtain ⟨i, hi⟩ := List.mem_iff_getElem?.1 hf
    exact (mem_chunks (List.mem_of_getElem? (hpart i f hi).1)).1
  · rw [hpayloads, chunks_flatten data (by omega)]

/-- `send_task` on one message of an open connection -/
theorem sendTask_singleton (p : Profile) (data : Bytes) (envs : Nat → Env) {c : Conn} (hopen : c.shared.isClosed = false) :
    (sendTask p [(data, envs)] c).2 = (sendMessage p envs data c).2 := by
  unfold sendTask
  rw [Action.get_bind, hopen, if_neg (by simp), Action.bind_apply]
  obtain ⟨out, c'⟩ := sendMessage p envs data c
  cases out <;> rfl

/-- **What `send_task` emits.** For every open connection with an MTU the protocol allows and every message shorter than
2^32 bytes: every frame that goes out fits, and when the socket takes all of them they are the whole message in one frame or
at least two fragments, numbered and not empty, that make it up. -/
theorem send_task_fits (p : Profile) (c : Conn) (envs : Nat → Env) (data : Bytes)
    (hmtu : 576 ≤ c.shared.mtu.toNat ∧ c.shared.mtu.toNat ≤ 1500) (hopen : c.shared.isClosed = false)
    (hlen : data.length < 2 ^ 32) :
    ∃ seqs fs, Emits c seqs fs (sendTask p [(data, envs)] c).2 ∧ (∀ f ∈ fs, FitsIn c.shared.mtu.toNat f) ∧
      ((∀ i, (envs i).sendError = none) → Whole data fs ∨ Cut data fs) := by
  obtain ⟨hlow, hhigh⟩ := hmtu
  rw [sendTask_singleton p data envs hopen]
  unfold sendMessage
  rw [Action.get_bind, Profile.sub_of_le p (by omega), Action.bind_of_ok (Action.lift_apply _ _)]
  by_cases hw : data.length ≤ c.shared.mtu.toNat - 60
  · rw [if_pos hw]
    obtain ⟨seqs, fs, hemits, hbuilt, hparts⟩ := emits_sendFrame (envs 0) data none c
    refine ⟨seqs, fs, hemits, ?_, fun hall => Or.inl (hparts (hall 0))⟩
    intro f hf
    obtain ⟨messageIndex, orderIndex, rfl⟩ := hbuilt f hf
    apply fitsIn_buildFrame _ hhigh
    simp only [Option.isSome_none, Bool.false_eq_true, if_false]
    omega
  · have hmax : data.length ≤ maxBytes := by
      unfold maxBytes
      omega
    rw [if_neg hw, sendFragmented_apply p envs (by omega) hmax]
    obtain ⟨seqs, fs, hemits, hbuilt, hparts⟩ := emits_sendChunks c.shared.splitId
      (UInt32.ofNat (chunkCount data.length (c.shared.mtu.toNat - 80))) envs (chunks data (c.shared.mtu.toNat - 80)) 0
      (splitAllocated c)
    refine ⟨seqs, fs, ⟨hemits.length, hemits.frames, hemits.sent⟩, ?_, ?_⟩
    · intro f hf
      obtain ⟨chunk, hchunk, messageIndex, orderIndex, info, rfl⟩ := hbuilt f hf
      have hsize := length_le_of_mem_chunks hchunk
      apply fitsIn_buildFrame _ hhigh
      simp only [Option.isSome_some, if_true]
      omega
    · intro hall
      exact Or.inr (cut_of_parts (by omega) (by omega) hlen (hparts hall))

/-- a message one byte too long to go out whole, at the smallest MTU -/
theorem send_task_fits_517 :
    ∃ seqs fs, Emits (.new 576 0 true) seqs fs
        (sendTask .dev [(List.replicate 517 0, fun _ => quietEnv)] (.new 576 0 true)).2 ∧
      (∀ f ∈ fs, FitsIn 576 f) ∧ (Whole (List.replicate 517 0) fs ∨ Cut (List.replicate 517 0) fs) := by
  obtain ⟨seqs, fs, hemits, hfits, hparts⟩ := send_task_fits .dev (.new 576 0 true) (fun _ => quietEnv)
    (List.replicate 517 0) (by decide) rfl (by rw [List.length_replicate]; decide)
  exact ⟨seqs, fs, hemits, hfits, hparts fun _ => rfl⟩

end Conn

end RakNet
