/-
The MTU a stream starts with, and the arithmetic of `send_task` on it.

`send_task` and `send_fragmented` compute `mtu - 60`, `mtu - 80` and a ceiling division by the latter, unchecked. The
listener clamps the MTU of a request to what the protocol allows; the client takes the MTU of `OpenConnectionReply2` as it
is. In a `dev` build an underflow is a panic like a division by zero, so there the arithmetic is defined when nothing
panics.

- `sendMessage_calm_iff`: a connection can send every message without a panic exactly when its MTU is above 80.
- `stream_mtu_iff`: the streams for which that is so.
- `tiny_mtu_panics`: a reply with an MTU of 60.
-/
import RakNet.Connection.Messages
import RakNet.Handshake.Client

namespace RakNet

open Lib Lib.Wire

namespace Conn

/-- on every connection with this MTU, every message can be sent without leaving the range of the arithmetic -/
def SizesDefined (mtu : UInt16) : Prop :=
  ∀ (c : Conn) (envs : Nat → Env) (data : Bytes), c.shared.mtu = mtu → data.length ≤ maxBytes →
    (sendMessage .dev envs data c).1 ≠ .panic

theorem sendMessage_ne_panic {c : Conn} (hmtu : 80 < c.shared.mtu.toNat) (p : Profile) (envs : Nat → Env) {data : Bytes}
    (hlen : data.length ≤ maxBytes) : (sendMessage p envs data c).1 ≠ .panic := by
  unfold sendMessage
  rw [Action.get_bind, Profile.sub_of_le p (by omega), Action.bind_of_ok (Action.lift_apply _ _)]
  split_ifs
  · exact calm_sendFrame _ _ _ c
  · rw [sendFragmented_apply p envs hmtu hlen]
    exact calm_sendChunks _ _ _ _ _ _

/-- an MTU of 80 and less leaves no byte for a chunk, and one below 60 none for a whole message -/
theorem sendMessage_panics {c : Conn} (hmtu : c.shared.mtu.toNat ≤ 80) (envs : Nat → Env) {data : Bytes}
    (hlen : 20 < data.length) (hmax : data.length ≤ maxBytes) : (sendMessage .dev envs data c).1 = .panic := by
  have hsplit : onShared SharedState.nextSplitId c = (.ok c.shared.splitId, splitAllocated c) := rfl
  have hsame : (splitAllocated c).shared.mtu = c.shared.mtu := rfl
  unfold sendMessage
  rw [Action.get_bind]
  by_cases hsmall : c.shared.mtu.toNat < 60
  · simp [Action.bind_apply, Profile.sub, Nat.not_le.2 hsmall]
  rw [Profile.sub_of_le .dev (by omega), Action.bind_of_ok (Action.lift_apply _ _), if_neg (by omega)]
  unfold sendFragmented
  rw [Action.bind_of_ok hsplit, Action.get_bind, hsame]
  by_cases hchunk : c.shared.mtu.toNat < 80
  · simp [Action.bind_apply, Profile.sub, Nat.not_le.2 hchunk]
  -- the chunk size is 0, and the division panics
  have hzero : c.shared.mtu.toNat - 80 = 0 := by omega
  have hsum : data.length + 0 < 2 ^ 64 := by
    unfold maxBytes at hmax
    omega
  rw [Profile.sub_of_le .dev (by omega), Action.bind_of_ok (Action.lift_apply _ _), hzero, Profile.add_of_lt .dev hsum,
    Action.bind_of_ok (Action.lift_apply _ _), Profile.sub_of_le .dev (by omega), Action.bind_of_ok (Action.lift_apply _ _),
    if_pos rfl]
  rfl

/-- **When every message can be sent.** -/
theorem sendMessage_calm_iff (mtu : UInt16) : SizesDefined mtu ↔ 80 < mtu.toNat := by
  constructor
  · intro h
    by_contra hsmall
    have hpanic : (sendMessage .dev (fun _ => quietEnv) (List.replicate 21 0) (.new mtu 0 true)).1 = .panic := by
      apply sendMessage_panics
      · exact Nat.not_lt.1 hsmall
      · decide
      · decide
    exact h (.new mtu 0 true) _ _ rfl (by decide) hpanic
  · rintro hmtu c envs data rfl hlen
    exact sendMessage_ne_panic hmtu .dev envs hlen

end Conn

/-- where a stream comes from: a request the listener takes, or a reply the client takes -/
inductive StreamOrigin where
  | listener (l : RakNetListener) (packet : Bytes) (remoteAddr : SocketAddr)
  | client (reply : Recv)

namespace StreamOrigin

/-- the MTU of the stream, if one is created -/
def mtu : StreamOrigin → Option UInt16
  | listener l packet remoteAddr => (l.replyToRequest2 packet remoteAddr).map Prod.fst
  | client reply =>
    match RakNetClient.receiveOpenConnectionReply2 reply with
    | .ok (_serverGuid, _clientAddr, mtu) => some mtu
    | _ => none

/-- the reply a client takes has an MTU above 80 -/
def RoomyReply : StreamOrigin → Prop
  | listener .. => True
  | client reply =>
    match RakNetClient.receiveOpenConnectionReply2 reply with
    | .ok (_serverGuid, _clientAddr, mtu) => 80 < mtu.toNat
    | _ => True

theorem mtu_listener {l : RakNetListener} {packet : Bytes} {remoteAddr : SocketAddr} {mtu : UInt16}
    (h : (listener l packet remoteAddr).mtu = some mtu) : 576 ≤ mtu.toNat := by
  obtain ⟨⟨mtu', reply⟩, hreply, rfl⟩ := Option.map_eq_some_iff.1 h
  unfold RakNetListener.replyToRequest2 at hreply
  cases hd : decodeOpenConnectionRequest2 packet with
  | ok r =>
    rw [hd, Option.some.injEq, Prod.mk.injEq] at hreply
    rw [← hreply.1]
    exact (clampMtu_bounds _).1
  | err e => rw [hd] at hreply; cases hreply
  | panic => rw [hd] at hreply; cases hreply

end StreamOrigin

/-- **The MTUs of streams.** For every stream of the listener or of the client, the arithmetic of sending is defined for every
message if and only if the stream is the listener's or the reply the client took has an MTU above 80. -/
theorem stream_mtu_iff (origin : StreamOrigin) (mtu : UInt16) (h : origin.mtu = some mtu) :
    Conn.SizesDefined mtu ↔ origin.RoomyReply := by
  rw [Conn.sendMessage_calm_iff]
  cases origin with
  | listener l packet remoteAddr =>
    have hclamped := StreamOrigin.mtu_listener h
    exact iff_of_true (by omega) trivial
  | client reply =>
    unfold StreamOrigin.mtu at h
    unfold StreamOrigin.RoomyReply
    dsimp only at h ⊢
    cases hr : RakNetClient.receiveOpenConnectionReply2 reply with
    | ok r =>
      rw [hr, Option.some.injEq] at h
      rw [← h]
    | err e => rw [hr] at h; cases h
    | panic => rw [hr] at h; cases h

/-- the reply of a server to a client, with the MTU it names -/
def reply2 (mtu : UInt16) : Recv := .packet (encodeOpenConnectionReply2 0 unspecifiedAddr mtu)

/-- an MTU of 1492 in the reply -/
theorem stream_mtu_iff_1492 :
    (StreamOrigin.client (reply2 1492)).mtu = some 1492 ∧ Conn.SizesDefined 1492 := by
  have hmtu : (StreamOrigin.client (reply2 1492)).mtu = some 1492 := by decide
  refine ⟨hmtu, (stream_mtu_iff _ _ hmtu).2 ?_⟩
  show 80 < (1492 : UInt16).toNat
  decide

/-- **A reply that takes the send task down.** With an MTU of 60 a message of 21 bytes needs chunks of `60 - 80` bytes. -/
theorem tiny_mtu_panics :
    (StreamOrigin.client (reply2 60)).mtu = some 60 ∧ ¬ Conn.SizesDefined 60 ∧
      (Conn.sendMessage .dev (fun _ => Conn.quietEnv) (List.replicate 21 0) (.new 60 0 false)).1 = .panic := by
  have hpanic : (Conn.sendMessage .dev (fun _ => Conn.quietEnv) (List.replicate 21 0) (.new 60 0 false)).1 = .panic := by
    apply Conn.sendMessage_panics
    · decide
    · decide
    · decide
  refine ⟨by decide, ?_, hpanic⟩
  intro h
  exact h (.new 60 0 false) _ _ rfl (by decide) hpanic

end RakNet
