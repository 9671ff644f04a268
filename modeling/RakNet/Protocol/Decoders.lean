/-
The packet decoders never read past their input (`src/protocol/codec.rs`, `decode_ack_nack` of `src/reliability/ack.rs`).

Every get, advance, slice and index of the models panics when the bytes are missing. A decoder is safe when the length checks
before its reads cover them, and `Safe` adds that up read by read.

- `safe_readAddress`: an address, whose length depends on its first byte, checks for itself.
- `decoders_return`: on every byte string each of the fifteen decoders returns a value or an error.
-/
import RakNet.Protocol.Handshake
import RakNet.Reliability.Ack

namespace RakNet

open Lib.Wire Lib.Wire.Reader

/-! ## Magic and addresses -/

/-- the comparison needs no bytes, the step over the magic needs 16 -/
theorem safe_expectMagic (n : Nat) : Safe expectMagic (n + 16) n := by
  intro b hb
  simp only [expectMagic, bind_apply, peek_apply, Outcome.bind_ok]
  split_ifs
  · exact safe_fail Error.invalidMagic (n + 16) n b hb
  · exact safe_advance 16 n b hb

theorem safe_readAddress : Safe readAddress 0 0 := by
  refine safe_guard_empty _ ((safe_getU8 0).bind fun ipVersion => Safe.ite ?_ (Safe.ite ?_ (safe_fail _ _ _))) 0
  · refine safe_guard _ ?_ 0
    exact (safe_getBytes 4 2).bind fun ip => (safe_getU16 0).bind fun port => safe_pure _ _
  · refine safe_guard _ ?_ 0
    exact (safe_getBytes 16 2).bind fun ip => (safe_getU16 0).bind fun port => safe_pure _ _

theorem safe_skipAddresses (n : Nat) : Safe (skipAddresses n) 0 0 := by
  induction n with
  | zero => exact safe_pure _ _
  | succ n ih => exact safe_readAddress.bind fun addr => ih

/-! ## The packets of the handshake -/

theorem decodeUnconnectedPing_ne_panic (data : Bytes) : decodeUnconnectedPing data ≠ .panic := by
  refine Safe.run_ne_panic (m := 0) ((safe_expectPacket (8 + 16 + 8) _ _ _).bind fun _ => ?_) data
  exact (safe_getI64 (8 + 16)).bind fun _ => (safe_expectMagic 8).bind fun _ => (safe_getI64 0).bind fun _ => safe_pure _ _

theorem decodeUnconnectedPong_ne_panic (data : Bytes) : decodeUnconnectedPong data ≠ .panic := by
  refine Safe.run_ne_panic (m := 0) ((safe_expectPacket (8 + 8 + 16 + 2) _ _ _).bind fun _ => ?_) data
  refine (safe_getI64 (8 + 16 + 2)).bind fun _ => (safe_getI64 (16 + 2)).bind fun _ => (safe_expectMagic 2).bind fun _ =>
    (safe_getU16 0).bind fun pongDataLen => safe_guard _ ?_ 0
  exact (safe_slice (le_refl _)).bind fun pongData => (safe_pure _ _).mono (le_refl _) (Nat.zero_le _)

theorem decodeOpenConnectionRequest1_ne_panic (data : Bytes) : decodeOpenConnectionRequest1 data ≠ .panic := by
  refine Safe.run_ne_panic (m := 0) ((safe_expectPacket (16 + 1) _ _ _).bind fun _ => ?_) data
  exact (safe_expectMagic 1).bind fun _ => (safe_getU8 0).bind fun _ => safe_pure _ _

theorem decodeOpenConnectionReply1_ne_panic (data : Bytes) : decodeOpenConnectionReply1 data ≠ .panic := by
  refine Safe.run_ne_panic (m := 0) ((safe_expectPacket (16 + 8 + 1 + 2) _ _ _).bind fun _ => ?_) data
  exact (safe_expectMagic (8 + 1 + 2)).bind fun _ => (safe_getI64 (1 + 2)).bind fun _ => (safe_getU8 2).bind fun _ =>
    (safe_getU16 0).bind fun _ => safe_pure _ _

theorem decodeOpenConnectionRequest2_ne_panic (data : Bytes) : decodeOpenConnectionRequest2 data ≠ .panic := by
  refine Safe.run_ne_panic (m := 0) ((safe_expectPacket 16 _ _ _).bind fun _ => ?_) data
  refine (safe_expectMagic 0).bind fun _ => safe_readAddress.bind fun _ => safe_guard _ ?_ 0
  exact (safe_getU16 8).bind fun _ => (safe_getI64 0).bind fun _ => safe_pure _ _

theorem decodeOpenConnectionReply2_ne_panic (data : Bytes) : decodeOpenConnectionReply2 data ≠ .panic := by
  refine Safe.run_ne_panic (m := 0) ((safe_expectPacket (16 + 8) _ _ _).bind fun _ => ?_) data
  refine (safe_expectMagic 8).bind fun _ => (safe_getI64 0).bind fun _ => safe_readAddress.bind fun _ => safe_guard _ ?_ 0
  exact (safe_getU16 1).bind fun _ => (safe_getU8 0).bind fun _ => safe_pure _ _

/-! ## The login packets -/

theorem decodeConnectionRequestAccepted_ne_panic (data : Bytes) : decodeConnectionRequestAccepted data ≠ .panic := by
  refine Safe.run_ne_panic (m := 0) ((safe_expectPacket 7 _ _ _).bind fun _ => ?_) data
  refine (safe_readAddress.mono (Nat.zero_le _) (le_refl _)).bind fun _ => safe_guard _ ?_ 0
  refine (safe_getU16 0).bind fun _ => (safe_skipAddresses 10).bind fun _ => safe_guard _ ?_ 0
  exact (safe_getI64 8).bind fun _ => (safe_getI64 0).bind fun _ => safe_pure _ _

theorem decodeNewIncomingConnection_ne_panic (data : Bytes) : decodeNewIncomingConnection data ≠ .panic := by
  refine Safe.run_ne_panic (m := 0) ((safe_expectPacket 7 _ _ _).bind fun _ => ?_) data
  refine (safe_readAddress.mono (Nat.zero_le _) (le_refl _)).bind fun _ => (safe_skipAddresses 10).bind fun _ =>
    safe_guard _ ?_ 0
  exact (safe_getI64 8).bind fun _ => (safe_getI64 0).bind fun _ => safe_pure _ _

/-! ## All of them -/

/-- **No decoder reads past its input.** On every byte string each of the fifteen returns a value or an error. -/
theorem decoders_return (data : Bytes) :
    (decodeUnconnectedPing data).Returns ∧ (decodeUnconnectedPong data).Returns ∧
      (decodeOpenConnectionRequest1 data).Returns ∧ (decodeOpenConnectionRequest2 data).Returns ∧
      (decodeOpenConnectionReply1 data).Returns ∧ (decodeOpenConnectionReply2 data).Returns ∧
      (decodeConnectionRequest data).Returns ∧ (decodeConnectionRequestAccepted data).Returns ∧
      (decodeNewIncomingConnection data).Returns ∧ (decodeConnectedPing data).Returns ∧
      (decodeConnectedPong data).Returns ∧ (decodeDisconnectNotification data).Returns ∧ (decodeDatagram data).Returns ∧
      (readAddress data).Returns ∧ (decodeAckNack data).Returns := by
  simp only [Outcome.returns_iff]
  exact ⟨decodeUnconnectedPing_ne_panic data, decodeUnconnectedPong_ne_panic data,
    decodeOpenConnectionRequest1_ne_panic data, decodeOpenConnectionRequest2_ne_panic data,
    decodeOpenConnectionReply1_ne_panic data, decodeOpenConnectionReply2_ne_panic data,
    decodeConnectionRequest_ne_panic data, decodeConnectionRequestAccepted_ne_panic data,
    decodeNewIncomingConnection_ne_panic data, decodeConnectedPing_ne_panic data, decodeConnectedPong_ne_panic data,
    decodeDisconnectNotification_ne_panic data, decodeDatagram_ne_panic data,
    (safe_readAddress data (Nat.zero_le _)).1, decodeAckNack_ne_panic data⟩

end RakNet
