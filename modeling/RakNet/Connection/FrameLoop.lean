/-
The frame loop of `handle_datagram`, on any bytes.

A decode spends at least three bytes, so the loop makes progress in every round and ends on every input; the number of
rounds the model allows it is never used up.

- `frameLoop_fuel`: a third of the buffer's length is enough.
- `frame_loop_exact`: what one round reads, and that the rounds end.
-/
import RakNet.Connection.Receive
import RakNet.Protocol.Inverse

namespace RakNet

namespace Conn

open Lib Lib.Wire

/-- rounds beyond a third of the buffer's length are never used -/
theorem frameLoop_fuel (p : Profile) {n m : Nat} (envs : Nat → Env) {b : Bytes} (c : Conn) (hn : b.length ≤ 3 * n)
    (hm : b.length ≤ 3 * m) : frameLoop p n envs b c = frameLoop p m envs b c := by
  rw [frameLoop_eq, frameLoop_eq, Frame.decodeLoop_fuel p n m b hn hm]

/-- **Frame decoding is inverted by encoding, and the frame loop ends.** Whenever a decode succeeds, in either profile, on
bytes whose length field is at most 65528: it consumed `encodedSize` bytes, at least three; the optional fields are those the
reliability and the split flag ask for; and encoding the frame gives the consumed bytes, with the low four flag bits cleared and the
length field rounded up to whole bytes. On every input the rounds of the loop reach the end of the buffer or bytes that
are no frame; each of them spends at least three bytes; and no run of the loop depends on how many rounds it is allowed,
from a third of the buffer's length on. -/
theorem frame_loop_exact (p : Profile) :
    (∀ b rest f, Frame.lengthField b ≤ 65528 → Frame.decode p b = .ok (f, rest) →
      ∃ consumed, b = consumed ++ rest ∧ consumed.length = f.encodedSize ∧ 3 ≤ f.encodedSize ∧
        f.messageIndex.isSome = f.reliability.isReliable ∧ f.sequenceIndex.isSome = f.reliability.isSequenced ∧
        f.orderIndex.isSome = f.reliability.isOrdered ∧ (f.reliability.isOrdered = false → f.orderChannel = 0) ∧
        f.split.isSome = Frame.splitFlag b ∧ f.encode = Frame.canonical consumed) ∧
    (∀ b, ∃ rest, Frame.Rounds p (Frame.decodeFrames p b).1.length b rest ∧
      (rest = [] ∨ (Frame.decode p rest).isOk = false)) ∧
    (∀ n b rest, Frame.Rounds p n b rest → rest.length + 3 * n ≤ b.length) ∧
    ∀ n envs b c, b.length ≤ 3 * n → frameLoop p n envs b c = frameLoop p b.length envs b c := by
  refine ⟨?_, Frame.rounds_decodeFrames p, fun n b rest h => h.length_le, ?_⟩
  · intro b rest f hfield h
    obtain ⟨consumed, hb, hlen, hsize, hwf, hsplit, hencode⟩ := Frame.decode_inverse h
    exact ⟨consumed, hb, hlen, hsize, hwf.messageIndex, hwf.sequenceIndex, hwf.orderIndex, hwf.orderChannel, hsplit,
      hencode hfield⟩
  · intro n envs b c hn
    exact frameLoop_fuel p envs c hn (by omega)

/-- a reliable frame with stray flag bits and a length of nine bits, and a byte behind it -/
theorem frame_loop_exact_stray :
    ∃ consumed, [0x4f, 0, 9, 5, 0, 0, 0xaa, 0xbb, 0xcc] = consumed ++ [0xcc] ∧
      (⟨.reliable, some (U24.new 5), none, none, 0, none, [0xaa, 0xbb]⟩ : Frame).encode = Frame.canonical consumed := by
  obtain ⟨consumed, hb, -, -, -, -, -, -, -, hencode⟩ := (frame_loop_exact .dev).1
    [0x4f, 0, 9, 5, 0, 0, 0xaa, 0xbb, 0xcc] [0xcc] ⟨.reliable, some (U24.new 5), none, none, 0, none, [0xaa, 0xbb]⟩
    (by decide) (by decide +kernel)
  exact ⟨consumed, hb, hencode⟩

end Conn

end RakNet
