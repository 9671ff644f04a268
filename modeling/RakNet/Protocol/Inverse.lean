/-
What the frame decoder accepts, byte by byte.

`decode` drops three things it reads: the low four flag bits, up to seven bits of the length (a payload is whole bytes),
and nothing else. `canonical` is the input with these put in order; encoding the decoded frame gives it back.

- `consumes_decode`: the bytes a decode consumes, from the readers of the header groups.
- `decode_inverse`: size, header fields and encoding of a decoded frame, in terms of the bytes it came from.
- `payload_exact_iff`: the payload is the length field in bits, rounded up to bytes, and a buffer with fewer bytes is rejected,
  unless the length field is one of the last seven. Rounding these up overflows the `u16`.
- `Rounds.length_le`: a round of the frame loop spends at least three bytes.
- `rounds_decodeFrames`: the rounds of a loop reach the end of the buffer or bytes that are no frame.
-/
import Mathlib.Algebra.Order.Floor.Div
import RakNet.Protocol.RoundTrip

namespace RakNet

open Lib.Wire Lib.Wire.Reader

namespace Frame

/-! ## The readers of the header -/

theorem consumes_readIndex (present : Bool) (msg : String) :
    Consumes (readIndex present msg) fun e i => i.isSome = present ∧ e = if present then putIndex i else [] := by
  unfold readIndex
  cases present with
  | false => exact consumes_pure ⟨rfl, rfl⟩
  | true =>
    refine Consumes.guard (consumes_u24 fun index => consumes_pure ⟨rfl, ?_⟩) _ 3
    exact List.append_nil _

theorem consumes_readOrder (present : Bool) :
    Consumes (readOrder present) fun e o => o.1.isSome = present ∧ (present = false → o.2 = 0) ∧
      e = if present then putIndex o.1 ++ [o.2] else [] := by
  unfold readOrder
  cases present with
  | false => exact consumes_pure ⟨rfl, fun _ => rfl, rfl⟩
  | true =>
    refine Consumes.guard (consumes_u24 fun index => consumes_getU8.bind ?_) _ 4
    rintro channel e rfl
    refine consumes_pure ⟨rfl, ?_, ?_⟩
    · intro habsurd
      cases habsurd
    · rw [List.append_nil, if_pos rfl, putIndex]

theorem consumes_readSplit (present : Bool) :
    Consumes (readSplit present) fun e s => s.isSome = present ∧ e = putSplit s := by
  unfold readSplit
  cases present with
  | false => exact consumes_pure ⟨rfl, rfl⟩
  | true =>
    refine Consumes.guard (consumes_getU32.bind ?_) _ 10
    rintro count e1 rfl
    refine consumes_getU16.bind ?_
    rintro id e2 rfl
    refine consumes_getU32.bind ?_
    rintro index e3 rfl
    refine consumes_pure ⟨rfl, ?_⟩
    rw [List.append_nil, putSplit, List.append_assoc]

theorem consumes_readPayload (n : Nat) : Consumes (readPayload n) fun e payload => e = payload ∧ payload.length = n := by
  intro b payload r h
  have hlen := readPayload_eq_ok h
  simp only [readPayload, bind_apply, remaining_apply, Outcome.bind_ok] at h
  split_ifs at h with hleft
  · simp at h
  · simp only [bind_apply, peek_apply, Outcome.bind_ok, advance, if_pos (Nat.not_lt.1 hleft), pure_apply,
      Outcome.ok.injEq, Prod.mk.injEq] at h
    obtain ⟨rfl, rfl⟩ := h
    exact ⟨b.take n, (List.take_append_drop n b).symm, rfl, hlen.1⟩

/-! ## The input with what is ignored put in order -/

/-- the bytes of a frame behind its length field -/
def body (f : Frame) : Bytes :=
  (if f.reliability.isReliable then putIndex f.messageIndex else []) ++
    ((if f.reliability.isSequenced then putIndex f.sequenceIndex else []) ++
      ((if f.reliability.isOrdered then putIndex f.orderIndex ++ [f.orderChannel] else []) ++
        (putSplit f.split ++ f.payload)))

theorem encode_eq (f : Frame) : f.encode = f.flags :: (putU16 f.lengthBits ++ f.body) := by
  simp only [encode, body, List.append_assoc, List.cons_append, List.nil_append]

/-- the 16-bit length field of a frame -/
def lengthField : Bytes → Nat
  | _ :: hi :: lo :: _ => hi.toNat * 2 ^ 8 + lo.toNat
  | _ => 0

/-- the split flag, bit 4 of the flag byte -/
def splitFlag : Bytes → Bool
  | flags :: _ => (flags &&& 0b00010000) != 0
  | [] => false

/-- a length in bits, rounded up to whole bytes -/
def wholeBytes (bits : Nat) : Nat := (bits + 7) / 8 * 8

/-- the low four flag bits cleared and the length field rounded up to whole bytes; the other bytes stay -/
def canonical : Bytes → Bytes
  | flags :: hi :: lo :: body =>
    (flags &&& 0b11110000) :: (putU16 (UInt16.ofNat (wholeBytes (hi.toNat * 2 ^ 8 + lo.toNat))) ++ body)
  | b => b

/-- the length field of a header written with `putU16` -/
theorem lengthField_header (flags : UInt8) (bits : UInt16) (body : Bytes) :
    lengthField (flags :: (putU16 bits ++ body)) = bits.toNat := by
  have hbits := bits.toNat_lt
  calc lengthField (flags :: (putU16 bits ++ body))
      = (byteAt bits.toNat 8).toNat * 2 ^ 8 + (byteAt bits.toNat 0).toNat := rfl
    _ = bits.toNat / 2 ^ 8 % 2 ^ 8 * 2 ^ 8 + bits.toNat / 2 ^ 0 % 2 ^ 8 := by rw [byteAt_toNat, byteAt_toNat]
    _ = bits.toNat := by omega

theorem canonical_header (flags : UInt8) (bits : UInt16) (body : Bytes) :
    canonical (flags :: (putU16 bits ++ body)) =
      (flags &&& 0b11110000) :: (putU16 (UInt16.ofNat (wholeBytes bits.toNat)) ++ body) := by
  have hheader : canonical (flags :: (putU16 bits ++ body)) = (flags &&& 0b11110000) ::
      (putU16 (UInt16.ofNat (wholeBytes (lengthField (flags :: (putU16 bits ++ body))))) ++ body) := rfl
  rw [hheader, lengthField_header]

/-- the four high bits of a flag byte are its reliability and its split flag -/
theorem high_bits (flags : UInt8) :
    (if (flags &&& 0b00010000) != 0 then ((flags >>> 5) &&& 0b111) <<< 5 ||| 0b00010000
      else ((flags >>> 5) &&& 0b111) <<< 5) = flags &&& 0b11110000 := by
  have hall : ∀ n : Fin 256,
      (if (UInt8.ofFin n &&& 0b00010000) != 0 then ((UInt8.ofFin n >>> 5) &&& 0b111) <<< 5 ||| 0b00010000
        else ((UInt8.ofFin n >>> 5) &&& 0b111) <<< 5) = UInt8.ofFin n &&& 0b11110000 := by
    decide +kernel
  exact hall flags.toFin

/-- the flag byte a decoded frame is written with -/
theorem flags_of_read {flags : UInt8} {f : Frame}
    (hrel : Reliability.fromU8 ((flags >>> 5) &&& 0b111) = some f.reliability)
    (hsplit : f.split.isSome = ((flags &&& 0b00010000) != 0)) : f.flags = flags &&& 0b11110000 := by
  rw [← high_bits flags, ← hsplit, ← Reliability.toU8_of_fromU8 hrel, Frame.flags]

/-- a payload is at most 8191 bytes, and its length is the bit length rounded up where that does not wrap -/
theorem lengthBytes_eq_ok {p : Profile} {bits : UInt16} {n : Nat} (h : lengthBytes p bits = .ok n) :
    n ≤ 8191 ∧ (bits.toNat ≤ 65528 → n * 8 = wholeBytes bits.toNat) := by
  unfold lengthBytes at h
  obtain ⟨sum, hsum, hn⟩ := Outcome.bind_eq_ok.1 h
  cases hn
  have hlt := Profile.lt_of_add_eq_ok hsum
  refine ⟨by omega, ?_⟩
  intro hfit
  rw [Profile.add_of_lt p (by omega)] at hsum
  cases hsum
  rw [wholeBytes]

/-! ## A decoded frame and the bytes it came from -/

/-- what the bytes of a frame say about it -/
structure DecodedFrom (consumed : Bytes) (f : Frame) : Prop where
  wellFormed : f.WellFormed
  split : f.split.isSome = splitFlag consumed
  encode : lengthField consumed ≤ 65528 → f.encode = canonical consumed

/-- **The bytes of one decode**, group by group -/
theorem consumes_decode (p : Profile) : Consumes (decode p) DecodedFrom := by
  refine Consumes.guard (consumes_getU8.bind ?_) _ 3
  rintro flags e1 rfl
  dsimp only
  cases hrel : Reliability.fromU8 ((flags >>> 5) &&& 0b111) with
  | none => exact consumes_fail _ _
  | some reliability =>
    refine consumes_getU16.bind ?_
    rintro bits e2 rfl
    have hlift : Consumes (lift (lengthBytes p bits)) fun e n => e = [] ∧ lengthBytes p bits = .ok n :=
      consumes_lift fun n hn => ⟨rfl, hn⟩
    refine hlift.bind ?_
    rintro n e3 ⟨rfl, hn⟩
    refine (consumes_readIndex _ _).bind ?_
    rintro messageIndex e4 ⟨hmessage, rfl⟩
    refine (consumes_readIndex _ _).bind ?_
    rintro sequenceIndex e5 ⟨hsequence, rfl⟩
    refine (consumes_readOrder _).bind ?_
    rintro ⟨orderIndex, orderChannel⟩ e6 ⟨horder, hchannel, rfl⟩
    refine (consumes_readSplit _).bind ?_
    rintro split e7 ⟨hsplit, rfl⟩
    refine (consumes_readPayload n).bind ?_
    rintro payload e8 ⟨rfl, hpayload⟩
    obtain ⟨hlen, hwhole⟩ := lengthBytes_eq_ok hn
    refine consumes_pure ?_
    set f : Frame := ⟨reliability, messageIndex, sequenceIndex, orderIndex, orderChannel, split, e8⟩
    have hbytes : [flags] ++ (putU16 bits ++ ([] ++ ((if reliability.isReliable then putIndex messageIndex else []) ++
        ((if reliability.isSequenced then putIndex sequenceIndex else []) ++
        ((if reliability.isOrdered then putIndex orderIndex ++ [orderChannel] else []) ++
        (putSplit split ++ (e8 ++ []))))))) = flags :: (putU16 bits ++ f.body) := by
      rw [List.append_nil]
      rfl
    rw [hbytes]
    refine ⟨⟨hmessage, hsequence, horder, hchannel, hpayload.le.trans hlen⟩, hsplit, ?_⟩
    intro hfit
    rw [lengthField_header] at hfit
    have hbits : f.lengthBits = UInt16.ofNat (wholeBytes bits.toNat) := by
      rw [lengthBits, hpayload, hwhole hfit]
    rw [canonical_header, encode_eq, flags_of_read hrel hsplit, hbits]

theorem exists_header {consumed : Bytes} {f : Frame} (h : consumed.length = f.encodedSize) :
    ∃ flags hi lo tail, consumed = flags :: hi :: lo :: tail := by
  have hsize := f.three_le_encodedSize
  match consumed with
  | [] | [_] | [_, _] =>
    simp only [List.length_cons, List.length_nil] at h
    omega
  | flags :: hi :: lo :: tail => exact ⟨flags, hi, lo, tail, rfl⟩

/-- **A decode, inverted.** The bytes consumed are as many as the size function says, at least three; the header fields are
those the flag byte asks for; and where the length field can be rounded up, encoding the frame gives the bytes back, put in
order. -/
theorem decode_inverse {p : Profile} {b rest : Bytes} {f : Frame} (h : decode p b = .ok (f, rest)) :
    ∃ consumed, b = consumed ++ rest ∧ consumed.length = f.encodedSize ∧ 3 ≤ f.encodedSize ∧ f.WellFormed ∧
      f.split.isSome = splitFlag b ∧ (lengthField b ≤ 65528 → f.encode = canonical consumed) := by
  obtain ⟨consumed, hb, hfrom⟩ := consumes_decode p b f rest h
  have hlen : consumed.length = f.encodedSize := by
    have htotal := decode_consumes h
    rw [hb, List.length_append] at htotal
    omega
  refine ⟨consumed, hb, hlen, f.three_le_encodedSize, hfrom.wellFormed, ?_⟩
  obtain ⟨flags, hi, lo, tail, hheader⟩ := exists_header hlen
  have hsplit : splitFlag b = splitFlag consumed := by
    rw [hb, hheader]
    rfl
  have hfield : lengthField b = lengthField consumed := by
    rw [hb, hheader]
    rfl
  rw [hsplit, hfield]
  exact ⟨hfrom.split, hfrom.encode⟩

/-! ## The length of a payload -/

/-- the reliability of a header that is there -/
def announced : Bytes → Option Reliability
  | flags :: _ :: _ :: _ => Reliability.fromU8 ((flags >>> 5) &&& 0b111)
  | _ => none

/-- the bytes before the payload, by the flag byte -/
def headerSize (b : Bytes) : Nat :=
  match announced b with
  | none => 3
  | some reliability =>
    1 + 2 + (if reliability.isReliable then 3 else 0) + (if reliability.isSequenced then 3 else 0) +
      (if reliability.isOrdered then 4 else 0) + (if splitFlag b then 10 else 0)

theorem bitsOverflow_iff (b : Bytes) :
    bitsOverflow b = true ↔ (announced b).isSome = true ∧ 65528 < lengthField b := by
  match b with
  | [] | [_] | [_, _] => simp [bitsOverflow, announced]
  | flags :: hi :: lo :: tail =>
    simp only [bitsOverflow, announced, lengthField, Bool.and_eq_true, decide_eq_true_eq]
    exact and_congr_right fun _ => by omega

/-- without a header of a known reliability there is no frame -/
theorem decode_of_announced_none (p : Profile) {b : Bytes} (h : announced b = none) : ∃ e, decode p b = .err e := by
  match b with
  | [] | [_] | [_, _] => exact ⟨_, rfl⟩
  | flags :: hi :: lo :: tail =>
    have hrel : Reliability.fromU8 ((flags >>> 5) &&& 0b111) = none := h
    simp only [decode, bind_apply, remaining_apply, Outcome.bind_ok, List.length_cons]
    rw [if_neg (by omega), bind_apply, getU8_cons, Outcome.bind_ok]
    simp only [hrel]
    exact ⟨_, rfl⟩

/-- the low flag bits announce nothing -/
theorem reliability_high_bits (flags : UInt8) :
    (((flags &&& 0b11110000) >>> 5) &&& 0b111 : UInt8) = (flags >>> 5) &&& 0b111 := by
  have hall : ∀ n : Fin 256,
      (((UInt8.ofFin n &&& 0b11110000) >>> 5) &&& 0b111 : UInt8) = (UInt8.ofFin n >>> 5) &&& 0b111 := by
    decide +kernel
  exact hall flags.toFin

/-- a frame is of the reliability announced, and its payload as long as its length field says, where it can be rounded up -/
theorem decode_announced {p : Profile} {b rest : Bytes} {f : Frame} (h : decode p b = .ok (f, rest))
    (hfit : lengthField b ≤ 65528) :
    announced b = some f.reliability ∧ f.payload.length = lengthField b ⌈/⌉ 8 := by
  obtain ⟨consumed, rfl, hlen, -, hwell, -, hencode⟩ := decode_inverse h
  obtain ⟨flags, hi, lo, tail, rfl⟩ := exists_header hlen
  have hbytes := hencode hfit
  rw [encode_eq, canonical] at hbytes
  constructor
  · have hflags : f.flags = flags &&& 0b11110000 := (List.cons.inj hbytes).1
    calc announced (flags :: hi :: lo :: tail ++ rest)
        = Reliability.fromU8 ((flags >>> 5) &&& 0b111) := rfl
      _ = Reliability.fromU8 ((f.flags >>> 5) &&& 0b111) := by rw [hflags, reliability_high_bits]
      _ = some f.reliability := fromU8_flags f
  · have hfield := congrArg lengthField hbytes
    rw [lengthField_header, lengthField_header, lengthBits, UInt16.toNat_ofNat', UInt16.toNat_ofNat', wholeBytes] at hfield
    have hpayload := hwell.payload
    rw [Nat.ceilDiv_eq_add_pred_div]
    simp only [List.cons_append, lengthField] at hfit ⊢
    omega

/-- so the buffer holds the header and the payload -/
theorem length_of_decode {p : Profile} {b rest : Bytes} {f : Frame} (h : decode p b = .ok (f, rest))
    (hfit : lengthField b ≤ 65528) : headerSize b + lengthField b ⌈/⌉ 8 ≤ b.length := by
  obtain ⟨hrel, hpayload⟩ := decode_announced h hfit
  obtain ⟨-, -, -, -, -, hsplit, -⟩ := decode_inverse h
  calc headerSize b + lengthField b ⌈/⌉ 8 = f.encodedSize := by
        rw [headerSize, hrel, encodedSize, hsplit, hpayload]
    _ ≤ f.encodedSize + rest.length := Nat.le_add_right _ _
    _ = b.length := (decode_consumes h).symm

/-- what is asked of the payload of a byte string -/
structure PayloadExact (p : Profile) (b : Bytes) : Prop where
  /-- a decoded payload is the length field rounded up -/
  length : ∀ f rest, decode p b = .ok (f, rest) → f.payload.length = lengthField b ⌈/⌉ 8
  /-- the rounding is exact where it is reached -/
  computed : (announced b).isSome = true → lengthBytes p (UInt16.ofNat (lengthField b)) = .ok (lengthField b ⌈/⌉ 8)
  /-- a buffer with fewer bytes behind the header is rejected -/
  rejected : b.length < headerSize b + lengthField b ⌈/⌉ 8 → ∃ e, decode p b = .err e

theorem lengthBytes_of_le (p : Profile) {n : Nat} (h : n ≤ 65528) : lengthBytes p (UInt16.ofNat n) = .ok (n ⌈/⌉ 8) := by
  have hn : (UInt16.ofNat n).toNat = n := by
    rw [UInt16.toNat_ofNat', Nat.mod_eq_of_lt (by omega)]
  rw [lengthBytes, hn, p.add_of_lt (by omega), Outcome.bind_ok, Nat.ceilDiv_eq_add_pred_div]
  rfl

theorem payload_exact_of_fit (p : Profile) {b : Bytes} (hfit : lengthField b ≤ 65528) : PayloadExact p b where
  length _ _ h := (decode_announced h hfit).2
  computed _ := lengthBytes_of_le p hfit
  rejected hshort := by
    cases hd : decode p b with
    | ok r =>
      have hlen := length_of_decode hd hfit
      omega
    | err e => exact ⟨e, rfl⟩
    | panic =>
      have hover := ((decode_eq_panic_iff p b).1 hd).2
      rw [bitsOverflow_iff] at hover
      omega

/-- **The length of a payload.** A byte string decodes to a payload of its length field in bits, rounded up to bytes and
computed without an overflow, and is rejected if it is shorter, exactly if it is not a header of a known reliability with a
length field above 65528. -/
theorem payload_exact_iff (p : Profile) (b : Bytes) : PayloadExact p b ↔ bitsOverflow b = false := by
  constructor
  · intro h
    rw [← Bool.not_eq_true, bitsOverflow_iff]
    rintro ⟨hknown, hlarge⟩
    have hle := (lengthBytes_eq_ok (h.computed hknown)).1
    rw [Nat.ceilDiv_eq_add_pred_div] at hle
    omega
  · intro h
    cases hrel : announced b with
    | none =>
      obtain ⟨e, he⟩ := decode_of_announced_none p hrel
      refine ⟨?_, ?_, fun _ => ⟨e, he⟩⟩
      · intro f rest hd
        rw [he] at hd
        cases hd
      · intro hknown
        rw [hrel] at hknown
        cases hknown
    | some reliability =>
      apply payload_exact_of_fit
      rw [← Bool.not_eq_true, bitsOverflow_iff, hrel] at h
      exact not_lt.1 fun hlarge => h ⟨rfl, hlarge⟩

/-- an unreliable frame of 65535 bits, alone: a `release` build returns an empty payload, a `dev` build panics -/
theorem payload_overflow :
    lengthField [0x00, 0xFF, 0xFF] ⌈/⌉ 8 = 8192 ∧
      decode .release [0x00, 0xFF, 0xFF] = .ok (⟨.unreliable, none, none, none, 0, none, []⟩, []) ∧
      decode .dev [0x00, 0xFF, 0xFF] = .panic := by
  exact ⟨rfl, rfl, rfl⟩

/-! ## Rounds of the frame loop -/

/-- so many rounds of `while !buf.is_empty()` take the buffer from one place to another -/
inductive Rounds (p : Profile) : Nat → Bytes → Bytes → Prop where
  | none (b : Bytes) : Rounds p 0 b b
  | more {n : Nat} {b r rest : Bytes} {f : Frame} (hne : b ≠ []) (hd : decode p b = .ok (f, r))
      (h : Rounds p n r rest) : Rounds p (n + 1) b rest

/-- **Progress.** Every round spends at least three bytes. -/
theorem Rounds.length_le {p : Profile} {n : Nat} {b rest : Bytes} (h : Rounds p n b rest) :
    rest.length + 3 * n ≤ b.length := by
  induction h with
  | none b => exact Nat.le_refl _
  | @more n b r rest f hne hd h ih =>
    have hconsumed := decode_consumes hd
    have hsize := f.three_le_encodedSize
    omega

/-- the loop yields a frame a round, and stops at the end of the buffer or at bytes that are no frame -/
theorem rounds_decodeLoop (p : Profile) {fuel : Nat} {b : Bytes} (hfuel : b.length ≤ 3 * fuel) :
    ∃ rest, Rounds p (decodeLoop p fuel b).1.length b rest ∧ (rest = [] ∨ (decode p rest).isOk = false) := by
  induction fuel generalizing b with
  | zero =>
    have hb : b = [] := List.length_eq_zero_iff.1 (Nat.le_zero.1 hfuel)
    subst hb
    exact ⟨[], .none [], Or.inl rfl⟩
  | succ fuel ih =>
    cases b with
    | nil => exact ⟨[], .none [], Or.inl rfl⟩
    | cons x b =>
      rw [decodeLoop]
      cases hd : decode p (x :: b) with
      | err e =>
        refine ⟨x :: b, .none _, Or.inr ?_⟩
        rw [hd]
        rfl
      | panic =>
        refine ⟨x :: b, .none _, Or.inr ?_⟩
        rw [hd]
        rfl
      | ok result =>
        obtain ⟨f, r⟩ := result
        have hconsumed := decode_consumes hd
        have hsize := f.three_le_encodedSize
        obtain ⟨rest, hrounds, hstops⟩ := ih (b := r) (by omega)
        exact ⟨rest, .more (List.cons_ne_nil x b) hd hrounds, hstops⟩

theorem rounds_decodeFrames (p : Profile) (b : Bytes) :
    ∃ rest, Rounds p (decodeFrames p b).1.length b rest ∧ (rest = [] ∨ (decode p rest).isOk = false) :=
  rounds_decodeLoop p (by omega)

end Frame

end RakNet
