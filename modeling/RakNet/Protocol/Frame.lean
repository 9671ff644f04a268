/-
Frames (`src/protocol/frame.rs`): the unit of the reliability layer, one or more per datagram.

`Frame.encode` appends to a buffer, so it is modelled by the bytes it appends; `Frame.decode` consumes a prefix of a
slice. The optional header fields are read by `readIndex`, `readOrder` and `readSplit`, one per group of the source.

- `length_encode`: a frame's encoding has exactly `encodedSize` bytes.
- `decode_consumes`: a successful decode consumes exactly the decoded frame's `encodedSize`, whatever the profile.
- `decode_eq_panic_iff`: exactly when a decode panics.
- `decodeFrames_length`: the datagram loop, when it ends without an error, has consumed every byte for its frames.
-/
import RakNet.Error
import RakNet.Protocol.UInt24
import RakNet.Reliability.Levels

namespace RakNet

open Lib.Wire Lib.Wire.Reader

/-- fragment metadata of a split packet -/
structure SplitInfo where
  count : UInt32
  id : UInt16
  index : UInt32
deriving DecidableEq, Repr

structure Frame where
  reliability : Reliability
  messageIndex : Option U24
  sequenceIndex : Option U24
  orderIndex : Option U24
  orderChannel : UInt8
  split : Option SplitInfo
  payload : Bytes
deriving DecidableEq, Repr

namespace Frame

def new (reliability : Reliability) (payload : Bytes) : Frame := ⟨reliability, none, none, none, 0, none, payload⟩

def withMessageIndex (f : Frame) (index : U24) : Frame := { f with messageIndex := some index }

def withOrder (f : Frame) (index : U24) (channel : UInt8) : Frame :=
  { f with orderIndex := some index, orderChannel := channel }

def withSplit (f : Frame) (split : SplitInfo) : Frame := { f with split := some split }

/-! ## Encoding -/

/-- the size of a frame when encoded -/
def encodedSize (f : Frame) : Nat :=
  1 + 2 + (if f.reliability.isReliable then 3 else 0) + (if f.reliability.isSequenced then 3 else 0) +
    (if f.reliability.isOrdered then 4 else 0) + (if f.split.isSome then 10 else 0) + f.payload.length

/-- an index field; a missing index is written as zero -/
def putIndex : Option U24 → Bytes
  | some index => writeU24 index
  | none => [0, 0, 0]

def putSplit : Option SplitInfo → Bytes
  | some split => putU32 split.count ++ putU16 split.id ++ putU32 split.index
  | none => []

/-- the flag byte: reliability in bits 5-7, split flag in bit 4 -/
def flags (f : Frame) : UInt8 :=
  let flags := f.reliability.toU8 <<< 5
  if f.split.isSome then flags ||| 0b00010000 else flags

/-- `(payload.len() * 8) as u16`: the length in bits, truncated to its field -/
def lengthBits (f : Frame) : UInt16 := UInt16.ofNat (f.payload.length * 8)

def encode (f : Frame) : Bytes :=
  [f.flags] ++ putU16 f.lengthBits ++
    (if f.reliability.isReliable then putIndex f.messageIndex else []) ++
    (if f.reliability.isSequenced then putIndex f.sequenceIndex else []) ++
    (if f.reliability.isOrdered then putIndex f.orderIndex ++ [f.orderChannel] else []) ++
    putSplit f.split ++ f.payload

@[simp] theorem length_putIndex (i : Option U24) : (putIndex i).length = 3 := by
  cases i <;> rfl

theorem length_putSplit (s : Option SplitInfo) : (putSplit s).length = if s.isSome then 10 else 0 := by
  cases s <;> rfl

/-- **An encoding has its announced size.** -/
theorem length_encode (f : Frame) : f.encode.length = f.encodedSize := by
  simp only [encode, encodedSize, List.length_append, length_putU16, length_putSplit, List.length_singleton]
  split_ifs <;> simp

/-! ## Decoding -/

/-- a message or sequence index, present when the reliability asks for one -/
def readIndex (present : Bool) (msg : String) : Reader Error (Option U24) := do
  if present then
    if (← remaining) < 3 then fail (.invalidPacket msg)
    else
      let index ← lift (readU24 (← peek))
      advance 3
      return some index
  else return none

/-- order index and channel; an unordered frame is on channel 0 -/
def readOrder (present : Bool) : Reader Error (Option U24 × UInt8) := do
  if present then
    if (← remaining) < 4 then fail (.invalidPacket "Frame missing order index")
    else
      let index ← lift (readU24 (← peek))
      advance 3
      let channel ← getU8
      return (some index, channel)
  else return (none, 0)

def readSplit (present : Bool) : Reader Error (Option SplitInfo) := do
  if present then
    if (← remaining) < 10 then fail (.invalidPacket "Frame missing split info")
    else
      let count ← getU32
      let id ← getU16
      let index ← getU32
      return some ⟨count, id, index⟩
  else return none

/-- the payload: `copy_from_slice(&buf[..length_bytes])`, then `advance(length_bytes)` -/
def readPayload (lengthBytes : Nat) : Reader Error Bytes := do
  let left ← remaining
  if left < lengthBytes then
    fail (.invalidPacket s!"Frame payload truncated: expected {lengthBytes} bytes, got {left}")
  else
    let payload := (← peek).take lengthBytes
    advance lengthBytes
    return payload

/-- `((length_bits + 7) / 8) as usize`: the sum is a plain `u16` addition -/
def lengthBytes (p : Profile) (lengthBits : UInt16) : Result Nat := do
  let sum ← p.add 16 lengthBits.toNat 7
  return sum / 8

def decode (p : Profile) : Reader Error Frame := do
  if (← remaining) < 3 then fail (.invalidPacket "Frame too short")
  else
    let flags ← getU8
    let reliabilityBits := (flags >>> 5) &&& 0b111
    let splitFlag := (flags &&& 0b00010000) != 0
    match Reliability.fromU8 reliabilityBits with
    | none => fail (.invalidPacket s!"Invalid reliability: {reliabilityBits}")
    | some reliability =>
      let lengthBits ← getU16
      let lengthBytes ← lift (lengthBytes p lengthBits)
      let messageIndex ← readIndex reliability.isReliable "Frame missing message index"
      let sequenceIndex ← readIndex reliability.isSequenced "Frame missing sequence index"
      let (orderIndex, orderChannel) ← readOrder reliability.isOrdered
      let split ← readSplit splitFlag
      let payload ← readPayload lengthBytes
      return ⟨reliability, messageIndex, sequenceIndex, orderIndex, orderChannel, split, payload⟩

/-! ## What a decode consumes -/

theorem takes_readIndex (present : Bool) (msg : String) :
    Takes (readIndex present msg) (if present then 3 else 0) := by
  unfold readIndex
  cases present with
  | false => exact takes_pure none
  | true =>
    refine takes_remaining.bind (m := 0) (n := 3) fun left => (takes_fail _ _).ite ?_
    exact takes_peek.bind (m := 0) (n := 3) fun b => (takes_lift _).bind (m := 0) (n := 3) fun i =>
      (takes_advance 3).bind (n := 0) fun _ => takes_pure _

theorem takes_readOrder (present : Bool) : Takes (readOrder present) (if present then 4 else 0) := by
  unfold readOrder
  cases present with
  | false => exact takes_pure _
  | true =>
    refine takes_remaining.bind (m := 0) (n := 4) fun left => (takes_fail _ _).ite ?_
    exact takes_peek.bind (m := 0) (n := 4) fun b => (takes_lift _).bind (m := 0) (n := 4) fun i =>
      (takes_advance 3).bind (n := 1) fun _ => takes_getU8.bind (n := 0) fun _ => takes_pure _

theorem takes_readSplit (present : Bool) : Takes (readSplit present) (if present then 10 else 0) := by
  unfold readSplit
  cases present with
  | false => exact takes_pure _
  | true =>
    refine takes_remaining.bind (m := 0) (n := 10) fun left => (takes_fail _ _).ite ?_
    exact takes_getU32.bind (n := 6) fun count => takes_getU16.bind (n := 4) fun id =>
      takes_getU32.bind (n := 0) fun index => takes_pure _

theorem readSplit_isSome {present : Bool} {b r : Bytes} {s : Option SplitInfo}
    (h : readSplit present b = .ok (s, r)) : s.isSome = present := by
  unfold readSplit at h
  cases present with
  | false =>
    simp only [Bool.false_eq_true, if_false, pure_apply, Outcome.ok.injEq, Prod.mk.injEq] at h
    simp [← h.1]
  | true =>
    simp only [if_true, bind_apply, remaining_apply, Outcome.bind_ok] at h
    split_ifs at h
    · simp at h
    · obtain ⟨_, _, -, h⟩ := Reader.bind_eq_ok.1 h
      obtain ⟨_, _, -, h⟩ := Reader.bind_eq_ok.1 h
      obtain ⟨_, _, -, h⟩ := Reader.bind_eq_ok.1 h
      simp only [pure_apply, Outcome.ok.injEq, Prod.mk.injEq] at h
      simp [← h.1]

theorem readPayload_eq_ok {n : Nat} {b r payload : Bytes} (h : readPayload n b = .ok (payload, r)) :
    payload.length = n ∧ b.length = n + r.length := by
  simp only [readPayload, bind_apply, remaining_apply, Outcome.bind_ok] at h
  split_ifs at h with hl
  · simp at h
  · simp only [bind_apply, peek_apply, Outcome.bind_ok] at h
    obtain ⟨⟨u, b'⟩, h1, h⟩ := Outcome.bind_eq_ok.1 h
    simp only [pure_apply, Outcome.ok.injEq, Prod.mk.injEq] at h
    obtain ⟨rfl, rfl⟩ := h
    exact ⟨by rw [List.length_take]; omega, takes_advance n _ _ _ h1⟩

/-- **A decode consumes what the frame it returns would encode to**, in bytes, in either profile. -/
theorem decode_consumes {p : Profile} {b r : Bytes} {f : Frame} (h : decode p b = .ok (f, r)) :
    b.length = f.encodedSize + r.length := by
  simp only [decode, bind_apply, remaining_apply, Outcome.bind_ok] at h
  split_ifs at h
  · simp at h
  · obtain ⟨flags, b1, h1, h⟩ := Reader.bind_eq_ok.1 h
    cases hrel : Reliability.fromU8 ((flags >>> 5) &&& 0b111) with
    | none => simp [hrel] at h
    | some reliability =>
      simp only [hrel] at h
      obtain ⟨bits, b2, h2, h⟩ := Reader.bind_eq_ok.1 h
      obtain ⟨n, b3, h3, h⟩ := Reader.bind_eq_ok.1 h
      obtain ⟨mi, b4, h4, h⟩ := Reader.bind_eq_ok.1 h
      obtain ⟨si, b5, h5, h⟩ := Reader.bind_eq_ok.1 h
      obtain ⟨oi, b6, h6, h⟩ := Reader.bind_eq_ok.1 h
      obtain ⟨sp, b7, h7, h⟩ := Reader.bind_eq_ok.1 h
      obtain ⟨pl, b8, h8, h⟩ := Reader.bind_eq_ok.1 h
      simp only [pure_apply, Outcome.ok.injEq, Prod.mk.injEq] at h
      obtain ⟨rfl, rfl⟩ := h
      have e1 := takes_getU8 _ _ _ h1
      have e2 := takes_getU16 _ _ _ h2
      have e3 := takes_lift _ _ _ _ h3
      have e4 := takes_readIndex _ _ _ _ _ h4
      have e5 := takes_readIndex _ _ _ _ _ h5
      have e6 := takes_readOrder _ _ _ _ h6
      have e7 := takes_readSplit _ _ _ _ h7
      obtain ⟨hp, e8⟩ := readPayload_eq_ok h8
      simp only [encodedSize, readSplit_isSome h7, hp]
      omega

/-- every frame takes at least its flag byte and its length field -/
theorem three_le_encodedSize (f : Frame) : 3 ≤ f.encodedSize := by
  unfold encodedSize; omega

/-! ## When a decode panics -/

theorem safe_readIndex (present : Bool) (msg : String) : Safe (readIndex present msg) 0 0 := by
  unfold readIndex
  cases present with
  | false => exact safe_pure _ _
  | true =>
    refine safe_guard _ ?_ 0
    exact safe_readU24 (n := 0) fun i => (safe_advance 3 0).bind fun _ => safe_pure _ _

theorem safe_readOrder (present : Bool) : Safe (readOrder present) 0 0 := by
  unfold readOrder
  cases present with
  | false => exact safe_pure _ _
  | true =>
    refine safe_guard _ ?_ 0
    exact safe_readU24 (n := 1) fun i => (safe_advance 3 1).bind fun _ => (safe_getU8 0).bind fun _ => safe_pure _ _

theorem safe_readSplit (present : Bool) : Safe (readSplit present) 0 0 := by
  unfold readSplit
  cases present with
  | false => exact safe_pure _ _
  | true =>
    refine safe_guard _ ?_ 0
    exact (safe_getU32 6).bind fun _ => (safe_getU16 4).bind fun _ => (safe_getU32 0).bind fun _ => safe_pure _ _

theorem safe_readPayload (n : Nat) : Safe (readPayload n) 0 0 := by
  intro b _
  simp only [readPayload, bind_apply, remaining_apply, Outcome.bind_ok]
  split_ifs with h
  · simp
  · simp [advance, show n ≤ b.length by omega]

/-- the part of a decode behind the bit length, which checks before each read -/
theorem safe_fields (reliability : Reliability) (splitFlag : Bool) (n : Nat) :
    Safe (do
      let messageIndex ← readIndex reliability.isReliable "Frame missing message index"
      let sequenceIndex ← readIndex reliability.isSequenced "Frame missing sequence index"
      let (orderIndex, orderChannel) ← readOrder reliability.isOrdered
      let split ← readSplit splitFlag
      let payload ← readPayload n
      return (⟨reliability, messageIndex, sequenceIndex, orderIndex, orderChannel, split, payload⟩ : Frame)) 0 0 :=
  (safe_readIndex _ _).bind fun _ => (safe_readIndex _ _).bind fun _ => (safe_readOrder _).bind fun _ =>
    (safe_readSplit _).bind fun _ => (safe_readPayload n).bind fun _ => safe_pure _ _

/-- a header of a known reliability whose bit length is too large to be rounded up in a `u16` -/
def bitsOverflow : Bytes → Bool
  | flags :: hi :: lo :: _ =>
    (Reliability.fromU8 ((flags >>> 5) &&& 0b111)).isSome && decide (2 ^ 16 ≤ hi.toNat * 2 ^ 8 + lo.toNat + 7)
  | _ => false

/-- **When a decode panics**: in a `dev` build, on a bit length from 65529 on. -/
theorem decode_eq_panic_iff (p : Profile) (b : Bytes) : decode p b = .panic ↔ p = .dev ∧ bitsOverflow b = true := by
  match b with
  | [] | [_] | [_, _] => simp [decode, bitsOverflow]
  | flags :: hi :: lo :: b =>
    have hbits := toNat_u16_of_bytes hi lo
    simp only [decode, bind_apply, remaining_apply, Outcome.bind_ok, List.length_cons, bitsOverflow]
    rw [if_neg (by omega)]
    simp only [bind_apply, getU8_cons, Outcome.bind_ok]
    cases hrel : Reliability.fromU8 ((flags >>> 5) &&& 0b111) with
    | none => simp
    | some reliability =>
      simp only [bind_apply, getU16, Outcome.bind_ok, lift_apply, lengthBytes, hbits, Option.isSome_some, Bool.true_and,
        decide_eq_true_eq]
      by_cases hfit : hi.toNat * 2 ^ 8 + lo.toNat + 7 < 2 ^ 16
      · rw [Profile.add_of_lt p hfit]
        simp only [Outcome.bind_ok]
        have hsafe := (safe_fields reliability (flags &&& 0b00010000 != 0)
          ((hi.toNat * 2 ^ 8 + lo.toNat + 7) / 8) b (Nat.zero_le _)).1
        apply iff_of_false hsafe
        omega
      · cases p with
        | dev =>
          rw [show Profile.dev.add 16 (hi.toNat * 2 ^ 8 + lo.toNat) 7 = .panic from if_neg hfit]
          simp only [Outcome.bind_panic, true_and]
          exact iff_of_true trivial (by omega)
        | release =>
          rw [show Profile.release.add 16 (hi.toNat * 2 ^ 8 + lo.toNat) 7 =
            .ok ((hi.toNat * 2 ^ 8 + lo.toNat + 7) % 2 ^ 16) from if_neg hfit]
          simp only [Outcome.bind_ok]
          have hsafe := (safe_fields reliability (flags &&& 0b00010000 != 0)
            ((hi.toNat * 2 ^ 8 + lo.toNat + 7) % 2 ^ 16 / 8) b (Nat.zero_le _)).1
          exact iff_of_false hsafe (by simp)

/-! ## The frame loop of a datagram -/

/-- `while !buf.is_empty() { Frame::decode(&mut buf)? }`: the frames yielded and how the loop ended. A decode takes at
least three bytes, so the buffer's length bounds the number of rounds (`decodeLoop_fuel`). -/
def decodeLoop (p : Profile) : Nat → Bytes → List Frame × Result Unit
  | _, [] => ([], .ok ())
  | 0, _ :: _ => ([], .panic)
  | fuel + 1, x :: b =>
    match decode p (x :: b) with
    | .ok (f, r) => let (fs, e) := decodeLoop p fuel r; (f :: fs, e)
    | .err e => ([], .err e)
    | .panic => ([], .panic)

def decodeFrames (p : Profile) (b : Bytes) : List Frame × Result Unit := decodeLoop p b.length b

/-- rounds beyond a third of the buffer's length are never used -/
theorem decodeLoop_fuel (p : Profile) (n m : Nat) (b : Bytes) (hn : b.length ≤ 3 * n) (hm : b.length ≤ 3 * m) :
    decodeLoop p n b = decodeLoop p m b := by
  induction n generalizing m b with
  | zero =>
    have : b = [] := List.length_eq_zero_iff.1 (by omega)
    subst this; cases m <;> rfl
  | succ n ih =>
    match b, m with
    | [], 0 | [], m + 1 => rfl
    | x :: b, 0 => simp at hm
    | x :: b, m + 1 =>
      simp only [decodeLoop]
      split
      · rename_i f r hd
        have hc := decode_consumes hd
        have h3 := f.three_le_encodedSize
        simp only [List.length_cons] at hn hm hc
        rw [ih m r (by omega) (by omega)]
      · rfl
      · rfl

/-- a loop that ends without an error has spent every byte on the frames it yields -/
theorem decodeLoop_length {p : Profile} {n : Nat} {b : Bytes} {fs : List Frame}
    (h : decodeLoop p n b = (fs, .ok ())) : b.length = (fs.map encodedSize).sum := by
  induction n generalizing b fs with
  | zero =>
    match b with
    | [] => simp only [decodeLoop, Prod.mk.injEq] at h; simp [← h.1]
    | x :: b => simp [decodeLoop] at h
  | succ n ih =>
    match b with
    | [] => simp only [decodeLoop, Prod.mk.injEq] at h; simp [← h.1]
    | x :: b =>
      simp only [decodeLoop] at h
      split at h
      · rename_i f r hd
        simp only [Prod.mk.injEq] at h
        obtain ⟨rfl, he⟩ := h
        have := @ih r (decodeLoop p n r).1 (by rw [← he])
        rw [decode_consumes hd, this]
        simp
      · simp at h
      · simp at h

theorem decodeFrames_length {p : Profile} {b : Bytes} {fs : List Frame} (h : decodeFrames p b = (fs, .ok ())) :
    b.length = (fs.map encodedSize).sum :=
  decodeLoop_length h

end Frame

end RakNet
