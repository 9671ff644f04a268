/-
Round trips: what comes back from the decoders.

A frame of a datagram, the records of an ACK or NACK packet and the packets of the handshake are written by one side of the
repository and read by the other. Datagrams apart (`Protocol/Codec.lean`), everything that fits its length field comes
back.

- `frames_round_trip`: a list of frames, encoded one after another.
- `ack_round_trip`: a list of ACK ranges, which the decoder builds again number by number.
- `packets_round_trip`: the packets of the handshake, with addresses of both families.
-/
import RakNet.Protocol.Handshake
import RakNet.Reliability.Ack

namespace RakNet

open Lib.Wire Lib.Wire.Reader

/-! ## Frames -/

namespace Frame

/-- the header fields of a frame are those its reliability has, and its payload fits the length field -/
structure WellFormed (f : Frame) : Prop where
  messageIndex : f.messageIndex.isSome = f.reliability.isReliable
  sequenceIndex : f.sequenceIndex.isSome = f.reliability.isSequenced
  orderIndex : f.orderIndex.isSome = f.reliability.isOrdered
  orderChannel : f.reliability.isOrdered = false → f.orderChannel = 0
  payload : f.payload.length ≤ 8191

theorem reads_readIndex {index : Option U24} {present : Bool} (h : index.isSome = present) (msg : String) :
    Reads (readIndex present msg) (if present then putIndex index else []) index := by
  subst h
  unfold readIndex
  cases index with
  | none => exact reads_pure none
  | some index =>
    have hread : Reads (ε := Error) (peek >>= fun b => lift (readU24 b) >>= fun i => advance 3 >>= fun _ => pure (some i))
        (writeU24 index ++ []) (some index) := reads_u24 (reads_pure _)
    rw [List.append_nil] at hread
    exact hread.guard _ (by simp)

theorem reads_readOrder {index : Option U24} {channel : UInt8} {present : Bool} (h : index.isSome = present)
    (hc : present = false → channel = 0) :
    Reads (readOrder present) (if present then putIndex index ++ [channel] else []) (index, channel) := by
  subst h
  unfold readOrder
  cases index with
  | none =>
    rw [hc rfl]
    exact reads_pure _
  | some index =>
    have hread : Reads (ε := Error) (peek >>= fun b => lift (readU24 b) >>= fun i => advance 3 >>= fun _ =>
        getU8 >>= fun channel => pure (some i, channel)) (writeU24 index ++ [channel]) (some index, channel) :=
      reads_u24 ((reads_getU8 channel).map _)
    exact hread.guard _ (by simp)

theorem reads_readSplit (split : Option SplitInfo) : Reads (readSplit split.isSome) (putSplit split) split := by
  unfold readSplit
  cases split with
  | none => exact reads_pure none
  | some split =>
    have hread : Reads (ε := Error) (getU32 >>= fun count => getU16 >>= fun id => getU32 >>= fun index =>
        pure (some (SplitInfo.mk count id index))) (putU32 split.count ++ (putU16 split.id ++ putU32 split.index))
        (some split) :=
      (reads_getU32 split.count).bind ((reads_getU16 split.id).bind ((reads_getU32 split.index).map _))
    rw [← List.append_assoc] at hread
    exact hread.guard _ (by simp)

theorem reads_readPayload (payload : Bytes) : Reads (readPayload payload.length) payload payload := by
  intro r
  have hlen : ¬ (payload ++ r).length < payload.length := by
    rw [List.length_append]
    omega
  simp only [readPayload, bind_apply, remaining_apply, Outcome.bind_ok, hlen, if_false, peek_apply, List.take_left,
    advance_append payload.length payload r rfl, pure_apply]

/-- the flag byte gives back the reliability -/
theorem fromU8_flags (f : Frame) : Reliability.fromU8 ((f.flags >>> 5) &&& 0b111) = some f.reliability := by
  unfold flags
  cases f.reliability <;> cases f.split.isSome <;> decide

/-- the flag byte gives back the split flag -/
theorem splitFlag_flags (f : Frame) : ((f.flags &&& 0b00010000) != 0) = f.split.isSome := by
  unfold flags
  cases f.reliability <;> cases f.split.isSome <;> decide

/-- a length that fits its field comes back, rounded up from bits to bytes without an overflow -/
theorem lengthBytes_lengthBits (p : Profile) {f : Frame} (h : f.payload.length ≤ 8191) :
    lengthBytes p f.lengthBits = .ok f.payload.length := by
  have hbits : f.lengthBits.toNat = f.payload.length * 8 := by
    rw [lengthBits, UInt16.toNat_ofNat', Nat.mod_eq_of_lt (by omega)]
  have hround : (f.payload.length * 8 + 7) / 8 = f.payload.length := by omega
  rw [lengthBytes, hbits, Profile.add_of_lt p (by omega), Outcome.bind_ok, hround]
  rfl

/-- **One frame comes back**, and what follows it is left. -/
theorem reads_decode (p : Profile) {f : Frame} (h : f.WellFormed) : Reads (decode p) f.encode f := by
  have henc : f.encode = [f.flags] ++ (putU16 f.lengthBits ++ ([] ++
      ((if f.reliability.isReliable then putIndex f.messageIndex else []) ++
      ((if f.reliability.isSequenced then putIndex f.sequenceIndex else []) ++
      ((if f.reliability.isOrdered then putIndex f.orderIndex ++ [f.orderChannel] else []) ++
      (putSplit f.split ++ f.payload)))))) := by
    simp only [encode, List.append_assoc, List.nil_append]
  rw [henc]
  unfold decode
  refine Reads.guard ((reads_getU8 f.flags).bind ?_) _ (by simp)
  simp only [fromU8_flags, splitFlag_flags]
  refine (reads_getU16 f.lengthBits).bind ?_
  rw [lengthBytes_lengthBits p h.payload]
  refine (reads_lift _).bind ?_
  refine (reads_readIndex h.messageIndex _).bind ?_
  refine (reads_readIndex h.sequenceIndex _).bind ?_
  refine (reads_readOrder h.orderIndex h.orderChannel).bind ?_
  refine (reads_readSplit f.split).bind ?_
  exact (reads_readPayload f.payload).map _

/-- one round of the frame loop on an encoded frame and more; any number of rounds that covers the buffer will do -/
theorem decodeFrames_append (p : Profile) {f : Frame} (h : f.WellFormed) (rest : Bytes) :
    decodeFrames p (f.encode ++ rest) = (f :: (decodeFrames p rest).1, (decodeFrames p rest).2) := by
  have hlen : 3 ≤ f.encode.length := by
    rw [length_encode]
    exact f.three_le_encodedSize
  have hdec := reads_decode p h rest
  unfold decodeFrames
  cases hb : f.encode ++ rest with
  | nil =>
    rw [List.append_eq_nil_iff] at hb
    simp [hb.1] at hlen
  | cons x b =>
    have hrest : rest.length ≤ b.length := by
      have := congrArg List.length hb
      rw [List.length_append, List.length_cons] at this
      omega
    rw [hb] at hdec
    rw [List.length_cons, decodeLoop, hdec]
    dsimp only
    rw [decodeLoop_fuel p b.length rest.length rest (by omega) (by omega)]

/-- the frame loop over encodings, one after another -/
theorem decodeFrames_flatten (p : Profile) (fs : List Frame) (h : ∀ f ∈ fs, f.WellFormed) :
    decodeFrames p (fs.map encode).flatten = (fs, .ok ()) := by
  induction fs with
  | nil => rfl
  | cons f fs ih =>
    rw [List.map_cons, List.flatten_cons, decodeFrames_append p (h f (by simp)), ih (fun g hg => h g (by simp [hg]))]

theorem length_flatten_encode (fs : List Frame) : (fs.map encode).flatten.length = (fs.map encodedSize).sum := by
  rw [List.length_flatten, List.map_map]
  exact congrArg List.sum (List.map_congr_left fun f _ => length_encode f)

/-- **Frames come back.** Well-formed frames encoded one after another take the sum of their sizes, the frame loop returns
the same frames, and a decode of one of them leaves exactly what follows it. -/
theorem frames_round_trip (p : Profile) (fs : List Frame) (h : ∀ f ∈ fs, f.WellFormed) :
    (fs.map encode).flatten.length = (fs.map encodedSize).sum ∧
      decodeFrames p (fs.map encode).flatten = (fs, .ok ()) ∧
      ∀ f ∈ fs, ∀ suffix, decode p (f.encode ++ suffix) = .ok (f, suffix) := by
  refine ⟨length_flatten_encode fs, decodeFrames_flatten p fs h, ?_⟩
  intro f hf suffix
  exact reads_decode p (h f hf) suffix

/-- a frame with every optional part of its reliability and a split header, and one with none -/
def sampleFrames : List Frame :=
  [⟨.reliableOrdered, some (U24.new 1), none, some (U24.new 2), 3, some ⟨2, 7, 1⟩, [0xfe, 0x01]⟩,
    ⟨.unreliable, none, none, none, 0, none, []⟩]

theorem frames_round_trip_sample :
    (∀ f ∈ sampleFrames, f.WellFormed) ∧ decodeFrames .dev (sampleFrames.map encode).flatten = (sampleFrames, .ok ()) := by
  have h : ∀ f ∈ sampleFrames, f.WellFormed := by
    intro f hf
    simp only [sampleFrames, List.mem_cons, List.not_mem_nil, or_false] at hf
    rcases hf with rfl | rfl
    · exact ⟨rfl, rfl, rfl, by simp [Reliability.isOrdered], by simp⟩
    · exact ⟨rfl, rfl, rfl, by simp, by simp⟩
  exact ⟨h, (frames_round_trip .dev sampleFrames h).2.1⟩

end Frame

/-! ## ACK and NACK packets -/

namespace AckRangeList

/-- records are read back one by one, each of them inserted number by number -/
theorem reads_readRecords (rs : List AckRange) (l : AckRangeList) :
    Reads (readRecords rs.length l) (rs.map AckRange.encode).flatten (l.insertAll (rs.flatMap AckRange.expand)) := by
  induction rs generalizing l with
  | nil => exact reads_pure l
  | cons r rs ih =>
    have hins : l.insertAll ((r :: rs).flatMap AckRange.expand) =
        (l.insertAll r.expand).insertAll (rs.flatMap AckRange.expand) := by
      rw [List.flatMap_cons, insertAll_append]
    rw [hins]
    exact Reads.bind (AckRange.decode_encode r) (ih _)

/-- **The numbers of a list, inserted again, give the list**: its ranges are the maximal runs of its numbers. -/
theorem Inv.insertAll_expand {l : AckRangeList} (h : l.Inv) : new.insertAll (l.ranges.flatMap AckRange.expand) = l := by
  refine (insertAll_inv inv_new _).eq_of_mem h ?_
  intro x
  rw [mem_new_insertAll, List.mem_flatMap]
  constructor
  · rintro ⟨r, hr, hx⟩
    exact ⟨r, hr, (AckRange.mem_expand (h.proper r hr) x).1 hx⟩
  · rintro ⟨r, hr, hx⟩
    exact ⟨r, hr, (AckRange.mem_expand (h.proper r hr) x).2 hx⟩

/-- the record count and the records of a list that fits the count -/
theorem Inv.reads_records {l : AckRangeList} (h : l.Inv) (hlen : l.ranges.length ≤ 65535) (isAck : Bool) :
    Reads (remaining >>= fun left =>
      if left < 2 then fail (Error.invalidPacket "ACK/NACK missing record count")
      else getU16 >>= fun recordCount => readRecords recordCount.toNat .new >>= fun list => pure (isAck, list))
      l.encodeRecords (isAck, l) := by
  have hcount : (UInt16.ofNat l.ranges.length).toNat = l.ranges.length := by
    rw [UInt16.toNat_ofNat', Nat.mod_eq_of_lt (by omega)]
  have hread := reads_readRecords l.ranges new
  rw [h.insertAll_expand] at hread
  unfold encodeRecords
  refine Reads.guard ((reads_getU16 _).bind ?_) _ (by simp)
  rw [hcount]
  exact hread.map _

end AckRangeList

/-- **Acknowledgements come back.** A list built by any insertions that has at most 65535 ranges is decoded from its ACK and
from its NACK packet, range for range. -/
theorem ack_round_trip (seqs : List U24) (h : (AckRangeList.new.insertAll seqs).ranges.length ≤ 65535) :
    decodeAckNack (encodeAck (AckRangeList.new.insertAll seqs)) = .ok (true, AckRangeList.new.insertAll seqs) ∧
      decodeAckNack (encodeNack (AckRangeList.new.insertAll seqs)) = .ok (false, AckRangeList.new.insertAll seqs) := by
  have hinv := AckRangeList.insertAll_inv AckRangeList.inv_new seqs
  exact ⟨(hinv.reads_records h true).run, (hinv.reads_records h false).run⟩

theorem ack_round_trip_sample :
    decodeAckNack (encodeAck (AckRangeList.new.insertAll [U24.new 9, U24.new 3, U24.new 4])) =
      .ok (true, ⟨[.range (U24.new 3) (U24.new 4), .single (U24.new 9)]⟩) :=
  (ack_round_trip [U24.new 9, U24.new 3, U24.new 4] (by decide)).1

/-! ## Packets of the handshake -/

/-- **Handshake packets come back**, with addresses of both families; an address is read back whatever follows it. The
request that probes the MTU is answered by its own length. -/
theorem packets_round_trip (timestamp guid requestTimestamp acceptedTimestamp : UInt64) (version : UInt8) (mtu : UInt16)
    (addr : SocketAddr) (pongData : Bytes) (h : pongData.length ≤ 65535) :
    decodeUnconnectedPing (encodeUnconnectedPing timestamp guid) = .ok (timestamp, guid) ∧
    decodeUnconnectedPong (encodeUnconnectedPong timestamp guid pongData) = .ok (timestamp, guid, pongData) ∧
    decodeOpenConnectionRequest1 (encodeOpenConnectionRequest1 version mtu) =
      .ok (version, UInt16.ofNat (max mtu.toNat 18 + 28)) ∧
    decodeOpenConnectionReply1 (encodeOpenConnectionReply1 guid mtu) = .ok (guid, mtu) ∧
    decodeOpenConnectionRequest2 (encodeOpenConnectionRequest2 addr mtu guid) = .ok (addr, mtu, guid) ∧
    decodeOpenConnectionReply2 (encodeOpenConnectionReply2 guid addr mtu) = .ok (guid, addr, mtu) ∧
    decodeConnectionRequest (encodeConnectionRequest guid timestamp) = .ok (guid, timestamp) ∧
    decodeConnectionRequestAccepted (encodeConnectionRequestAccepted addr requestTimestamp acceptedTimestamp) =
      .ok (addr, requestTimestamp, acceptedTimestamp) ∧
    decodeNewIncomingConnection (encodeNewIncomingConnection addr requestTimestamp acceptedTimestamp) =
      .ok (addr, requestTimestamp, acceptedTimestamp) ∧
    decodeConnectedPing (encodeConnectedPing timestamp) = .ok timestamp ∧
    decodeConnectedPong (encodeConnectedPong requestTimestamp acceptedTimestamp) =
      .ok (requestTimestamp, acceptedTimestamp) ∧
    ∀ suffix, readAddress (writeAddress addr ++ suffix) = .ok (addr, suffix) := by
  refine ⟨decodeUnconnectedPing_encode _ _, decodeUnconnectedPong_encode _ _ (by omega),
    decodeOpenConnectionRequest1_padded _ _, decodeOpenConnectionReply1_encode _ _,
    decodeOpenConnectionRequest2_encode _ _ _, decodeOpenConnectionReply2_encode _ _ _,
    decodeConnectionRequest_encode _ _, decodeConnectionRequestAccepted_encode _ _ _,
    decodeNewIncomingConnection_encode _ _ _, decodeConnectedPing_encode _, decodeConnectedPong_encode _ _, ?_⟩
  intro suffix
  exact readAddress_writeAddress addr suffix

theorem packets_round_trip_sample :
    decodeUnconnectedPong (encodeUnconnectedPong 5 7 [0x4d, 0x43]) = .ok (5, 7, [0x4d, 0x43]) ∧
      decodeConnectionRequestAccepted (encodeConnectionRequestAccepted (.v6 (Vector.replicate 16 1) 19132) 5 7) =
        .ok (.v6 (Vector.replicate 16 1) 19132, 5, 7) := by
  obtain ⟨-, hpong, -, -, -, -, -, haccepted, -⟩ :=
    packets_round_trip 5 7 5 7 protocolVersion 1492 (.v6 (Vector.replicate 16 1) 19132) [0x4d, 0x43] (by decide)
  exact ⟨hpong, haccepted⟩

end RakNet
