/-
The grammar of ACK and NACK packets, and that `decode_ack_nack` accepts exactly its language.

The grammar speaks of bytes only: an id, a big-endian record count, and that many records, each a type byte and one or two
24-bit numbers with the low byte first. What follows the last record is not looked at.

- `decode_record`, `consumes_decode`: one record, read as the grammar has it.
- `readRecords_of_records`, `records_of_readRecords`: the record loop.
- `mem_expand_iff`: the numbers inserted for a record are the numbers it covers, wrapped or not.
- `decodeAckNack_of_packet`, `packet_of_decodeAckNack`: the result for every packet of the language, and no result otherwise.
- `ack_grammar_exact`: acceptance, and the canonical list of the numbers the records cover.
-/
import RakNet.Reliability.Ack

namespace RakNet

open Lib Lib.Wire Lib.Wire.Reader

/-! ## The language -/

/-- the bytes of one record -/
inductive IsRecord : Bytes → AckRange → Prop where
  | single (a b c : UInt8) : IsRecord [1, a, b, c] (.single (u24Of a b c))
  | range (a b c d e f : UInt8) : IsRecord [0, a, b, c, d, e, f] (.range (u24Of a b c) (u24Of d e f))

/-- n records one after the other, and anything behind them -/
inductive Records : Nat → Bytes → List AckRange → Prop where
  | nil (rest : Bytes) : Records 0 rest []
  | cons {n : Nat} {e rest : Bytes} {r : AckRange} {rs : List AckRange} (hr : IsRecord e r) (hrs : Records n rest rs) :
    Records (n + 1) (e ++ rest) (r :: rs)

/-- an ACK (flag true) or NACK packet with its records -/
inductive IsAckPacket : Bytes → Bool → List AckRange → Prop where
  | ack {hi lo : UInt8} {body : Bytes} {rs : List AckRange} (h : Records (hi.toNat * 2 ^ 8 + lo.toNat) body rs) :
    IsAckPacket (0xc0 :: hi :: lo :: body) true rs
  | nack {hi lo : UInt8} {body : Bytes} {rs : List AckRange} (h : Records (hi.toNat * 2 ^ 8 + lo.toNat) body rs) :
    IsAckPacket (0xa0 :: hi :: lo :: body) false rs

/-- the numbers a record covers: a range whose start is past its end wraps over 2^24 - 1 -/
def AckRange.Names (r : AckRange) (x : Nat) : Prop :=
  match r with
  | .single seq => x = seq.get
  | .range start last =>
    if start.get ≤ last.get then start.get ≤ x ∧ x ≤ last.get
    else start.get ≤ x ∧ x ≤ 2 ^ 24 - 1 ∨ x ≤ last.get

instance (r : AckRange) (x : Nat) : Decidable (r.Names x) :=
  match r with
  | .single _ => inferInstanceAs (Decidable (_ = _))
  | .range start last => inferInstanceAs (Decidable (if start.get ≤ last.get then _ ∧ _ else _ ∧ _ ∨ _))

/-! ## One record -/

namespace AckRange

theorem encode_of_record {e : Bytes} {r : AckRange} (h : IsRecord e r) : r.encode = e := by
  cases h with
  | single a b c => rw [encode, writeU24_u24Of]; rfl
  | range a b c d e f => rw [encode, writeU24_u24Of, writeU24_u24Of]; rfl

theorem record_encode (r : AckRange) : IsRecord r.encode r := by
  cases r with
  | single seq =>
    obtain ⟨a, b, c, rfl⟩ := u24Of_surjective seq
    rw [encode, writeU24_u24Of]
    exact .single a b c
  | range start last =>
    obtain ⟨a, b, c, rfl⟩ := u24Of_surjective start
    obtain ⟨d, e, f, rfl⟩ := u24Of_surjective last
    rw [encode, writeU24_u24Of, writeU24_u24Of]
    exact .range a b c d e f

/-- a record is decoded, whatever follows it -/
theorem decode_record {e : Bytes} {r : AckRange} (h : IsRecord e r) (rest : Bytes) :
    decode (e ++ rest) = .ok (r, rest) := by
  rw [← encode_of_record h]
  exact decode_encode r rest

/-- only records are decoded -/
theorem consumes_decode : Consumes decode IsRecord := by
  refine Consumes.guard ?_ _ 1
  refine consumes_getU8.bind fun rangeType e he => ?_
  subst he
  refine Consumes.ite (fun h1 => ?_) fun _ => Consumes.ite (fun h0 => ?_) fun _ => consumes_fail _ _
  · subst h1
    refine Consumes.guard (consumes_u24 fun seq => consumes_pure ?_) _ 3
    rw [List.append_nil]
    exact record_encode (.single seq)
  · subst h0
    refine Consumes.guard (consumes_u24 fun start => consumes_u24 fun last => consumes_pure ?_) _ 6
    rw [List.append_nil]
    exact record_encode (.range start last)

/-- the numbers inserted for a record are those it covers -/
theorem mem_expand_iff (r : AckRange) (x : U24) : x ∈ r.expand ↔ r.Names x.get := by
  cases r with
  | single seq =>
    rw [expand, List.mem_singleton]
    exact ⟨fun h => congrArg U24.get h, fun h => U24.ext h⟩
  | range start last =>
    have hrange : ∀ lo n : Nat, lo + n ≤ 2 ^ 24 →
        (x ∈ (List.range' lo n).map U24.new ↔ lo ≤ x.get ∧ x.get < lo + n) := by
      intro lo n hle
      rw [List.mem_map]
      constructor
      · rintro ⟨m, hm, rfl⟩
        rw [List.mem_range'_1] at hm
        rw [U24.get_new_of_lt (by omega)]
        exact hm
      · intro hx
        exact ⟨x.get, List.mem_range'_1.2 hx, U24.new_get x⟩
    have hs := start.get_lt
    have hl := last.get_lt
    unfold expand Names
    dsimp only
    by_cases hle : start.get ≤ last.get
    · rw [if_pos hle, if_pos hle, hrange _ _ (by omega)]
      omega
    · rw [if_neg hle, if_neg hle, List.mem_append, hrange _ _ (by omega), hrange _ _ (by omega)]
      omega

end AckRange

/-! ## The record loop -/

namespace AckRangeList

theorem readRecords_of_records {n : Nat} {b : Bytes} {rs : List AckRange} (h : Records n b rs) (l : AckRangeList) :
    ∃ rest, readRecords n l b = .ok (l.insertAll (rs.flatMap AckRange.expand), rest) := by
  induction h generalizing l with
  | nil rest => exact ⟨rest, rfl⟩
  | @cons n e rest r rs hr _ ih =>
    obtain ⟨rest', hread⟩ := ih (l.insertAll r.expand)
    refine ⟨rest', ?_⟩
    rw [readRecords, bind_apply, AckRange.decode_record hr, Outcome.bind_ok, hread, List.flatMap_cons, insertAll_append]

theorem records_of_readRecords {n : Nat} {l l' : AckRangeList} {b rest : Bytes}
    (h : readRecords n l b = .ok (l', rest)) : ∃ rs, Records n b rs := by
  induction n generalizing l b with
  | zero => exact ⟨[], .nil b⟩
  | succ n ih =>
    obtain ⟨r, b', hr, hread⟩ := Reader.bind_eq_ok.1 h
    obtain ⟨e, rfl, hrec⟩ := AckRange.consumes_decode b r b' hr
    obtain ⟨rs, hrs⟩ := ih hread
    exact ⟨r :: rs, .cons hrec hrs⟩

end AckRangeList

/-- bytes are records in one way only -/
theorem Records.unique {n : Nat} {b : Bytes} {rs rs' : List AckRange} (h : Records n b rs) (h' : Records n b rs') :
    rs = rs' := by
  have hinv : ∀ {n : Nat} {b : Bytes} {rs : List AckRange}, Records (n + 1) b rs → ∃ r rest tail,
      AckRange.decode b = .ok (r, rest) ∧ Records n rest tail ∧ rs = r :: tail := by
    intro n b rs h
    cases h with
    | cons hr hrs => exact ⟨_, _, _, AckRange.decode_record hr _, hrs, rfl⟩
  induction n generalizing b rs rs' with
  | zero =>
    cases h
    cases h'
    rfl
  | succ n ih =>
    obtain ⟨r, rest, tail, hd, ht, rfl⟩ := hinv h
    obtain ⟨r', rest', tail', hd', ht', rfl⟩ := hinv h'
    rw [hd] at hd'
    cases hd'
    rw [ih ht ht']

theorem IsAckPacket.unique {data : Bytes} {isAck isAck' : Bool} {rs rs' : List AckRange} (h : IsAckPacket data isAck rs)
    (h' : IsAckPacket data isAck' rs') : isAck = isAck' ∧ rs = rs' := by
  cases h with
  | ack h =>
    cases h' with
    | ack h' => exact ⟨rfl, h.unique h'⟩
  | nack h =>
    cases h' with
    | nack h' => exact ⟨rfl, h.unique h'⟩

/-! ## Packets -/

/-- the decoder behind a known id, on a buffer that holds the record count -/
theorem decodeAckNack_count (id hi lo : UInt8) (body : Bytes) (hid : id = idAck ∨ id = idNack) :
    decodeAckNack (id :: hi :: lo :: body) =
      (AckRangeList.readRecords (hi.toNat * 2 ^ 8 + lo.toNat) .new body >>= fun r => .ok (id == idAck, r.1)) := by
  have hcount := toNat_u16_of_bytes hi lo
  have hknown : ¬ (id ≠ idAck ∧ id ≠ idNack) := by
    rintro ⟨h1, h2⟩
    exact hid.elim h1 h2
  have hlen : ¬ body.length + 1 + 1 < 2 := by omega
  unfold decodeAckNack
  simp only [if_neg hknown, run, bind_apply, remaining_apply, Outcome.bind_ok, List.length_cons, if_neg hlen, getU16,
    hcount]
  cases AckRangeList.readRecords (hi.toNat * 2 ^ 8 + lo.toNat) .new body <;> rfl

/-- **Completeness.** A packet of the language decodes to the list of all numbers of its records. -/
theorem decodeAckNack_of_packet {data : Bytes} {isAck : Bool} {rs : List AckRange} (h : IsAckPacket data isAck rs) :
    decodeAckNack data = .ok (isAck, AckRangeList.new.insertAll (rs.flatMap AckRange.expand)) := by
  cases h with
  | @ack hi lo body rs h =>
    obtain ⟨rest, hread⟩ := AckRangeList.readRecords_of_records h .new
    exact (decodeAckNack_count idAck hi lo body (Or.inl rfl)).trans (by rw [hread]; rfl)
  | @nack hi lo body rs h =>
    obtain ⟨rest, hread⟩ := AckRangeList.readRecords_of_records h .new
    exact (decodeAckNack_count idNack hi lo body (Or.inr rfl)).trans (by rw [hread]; rfl)

/-- **Soundness.** Only packets of the language decode. -/
theorem packet_of_decodeAckNack {data : Bytes} {isAck : Bool} {l : AckRangeList}
    (h : decodeAckNack data = .ok (isAck, l)) : ∃ isAck' rs, IsAckPacket data isAck' rs := by
  match data with
  | [] => simp [decodeAckNack] at h
  | [id] | [id, _] =>
    unfold decodeAckNack at h
    dsimp only at h
    split_ifs at h
    simp [run] at h
  | id :: hi :: lo :: body =>
    by_cases hid : id = idAck ∨ id = idNack
    · rw [decodeAckNack_count id hi lo body hid] at h
      obtain ⟨⟨l', rest⟩, hread, -⟩ := Outcome.bind_eq_ok.1 h
      obtain ⟨rs, hrs⟩ := AckRangeList.records_of_readRecords hread
      rcases hid with rfl | rfl
      · exact ⟨true, rs, .ack hrs⟩
      · exact ⟨false, rs, .nack hrs⟩
    · unfold decodeAckNack at h
      dsimp only at h
      rw [if_pos (not_or.1 hid)] at h
      cases h

/-- **The ACK/NACK parser accepts exactly its grammar.** A byte string decodes if and only if it is a packet of the language;
and then the flag is that of its id, and the list is the list of maximal runs, in increasing order and without wrapping, of
the numbers that some record covers. -/
theorem ack_grammar_exact (data : Bytes) :
    ((decodeAckNack data).isOk = true ↔ ∃ isAck rs, IsAckPacket data isAck rs) ∧
    ∀ isAck rs, IsAckPacket data isAck rs → ∃ l, decodeAckNack data = .ok (isAck, l) ∧
      AckRangeList.MaximalRuns l.ranges fun x => ∃ r ∈ rs, r.Names x.get := by
  refine ⟨⟨?_, ?_⟩, ?_⟩
  · intro hok
    obtain ⟨⟨isAck, l⟩, h⟩ := Outcome.isOk_iff.1 hok
    exact packet_of_decodeAckNack h
  · rintro ⟨isAck, rs, h⟩
    exact Outcome.isOk_iff.2 ⟨_, decodeAckNack_of_packet h⟩
  · intro isAck rs h
    have hruns := (AckRangeList.ranges_maximal_runs (rs.flatMap AckRange.expand)).1
    refine ⟨_, decodeAckNack_of_packet h, hruns.proper, hruns.gaps, ?_⟩
    intro x
    rw [hruns.mem x, List.mem_flatMap]
    simp only [AckRange.mem_expand_iff]

/-- overlapping and wrapped records, and a trailing byte -/
theorem ack_grammar_exact_wrap : ∃ l, decodeAckNack [0xa0, 0, 2, 0, 0xff, 0xff, 0xff, 1, 0, 0, 1, 1, 0, 0, 9] = .ok (false, l) ∧
    AckRangeList.MaximalRuns l.ranges fun x =>
      ∃ r ∈ [.range (u24Of 0xff 0xff 0xff) (u24Of 1 0 0), .single (u24Of 1 0 0)], AckRange.Names r x.get := by
  have hrecords : Records 2 [0, 0xff, 0xff, 0xff, 1, 0, 0, 1, 1, 0, 0, 9]
      [.range (u24Of 0xff 0xff 0xff) (u24Of 1 0 0), .single (u24Of 1 0 0)] :=
    .cons (.range 0xff 0xff 0xff 1 0 0) (.cons (.single 1 0 0) (.nil [9]))
  exact (ack_grammar_exact _).2 false _ (.nack hrecords)

end RakNet
