/-
The table and the streams it stands for.

Two things are expected of the table: that it keeps a second request of an address from getting a stream of its own, and
that it names the peers that are there. The first needs the check and the insertion of one request not to be interleaved
with those of another; the second needs a removal for every way a connection can end, and there is one only for a login
that is given up.

- `one_stream`: without such an interleaving an address has at most one live stream.
- `two_streams`: a retransmitted request that gets a second one.
- `table_tracks_live`: as long as no established connection ends, every address in the table is that of a peer.
- `stale_entry`: a peer that has left and cannot come back.
-/
import RakNet.Handshake.Client
import RakNet.Handshake.Table

namespace RakNet

open Lib Lib.Wire

namespace ListenerState

open Attempt (Act)

variable {l : RakNetListener} {p : Profile} {s : ListenerState} {addr : SocketAddr}

/-! ## One stream -/

/-- at most one stream of the address is live -/
def OneStream (addr : SocketAddr) (s : ListenerState) : Prop :=
  ∀ (i j : Nat) (t u : Attempt), s.attempts[i]? = some t → s.attempts[j]? = some u → t.addr = addr → u.addr = addr →
    t.stage.live = true → u.stage.live = true → i = j

/-- no request of the address passes its check while another one is between its check and its insertion, and no receive
task of the address panics before its login is complete -/
def Apart (p : Profile) (addr : SocketAddr) (s : ListenerState) : Op → Prop
  | .act i (.check _) => ∀ t, s.attempts[i]? = some t → t.addr = addr → t.stage = .spawned → addr ∉ s.connections →
    ∀ (j : Nat) (u : Attempt), j ≠ i → s.attempts[j]? = some u → u.addr = addr → u.stage.inside = false
  | .act i (.session op) => ∀ t st, s.attempts[i]? = some t → t.addr = addr → t.stage.stream? = some st →
    st.conn.notified = 0 → st.panics p op = false
  | _ => True

/-- one attempt at most has hold of the address; it is in the table from the insertion on, and only its stream is live -/
structure OneHolder (addr : SocketAddr) (s : ListenerState) : Prop where
  unique : ∀ (i j : Nat) (t u : Attempt), s.attempts[i]? = some t → s.attempts[j]? = some u → t.addr = addr →
    u.addr = addr → t.stage.holds = true → u.stage.holds = true → i = j
  listed : ∀ (i : Nat) (t : Attempt), s.attempts[i]? = some t → t.addr = addr → t.stage.entered = true →
    addr ∈ s.connections
  live : ∀ (i : Nat) (t : Attempt), s.attempts[i]? = some t → t.addr = addr → t.stage.live = true → t.stage.holds = true
  marked : ∀ (i : Nat) (t : Attempt) (st : Session), s.attempts[i]? = some t → t.addr = addr →
    t.stage.stream? = some st → st.conn.notified = 0 → st.EndedMarked

theorem OneHolder.oneStream (h : OneHolder addr s) : OneStream addr s := by
  intro i j t u hi hj ht hu htl hul
  exact h.unique i j t u hi hj ht hu (h.live i t hi ht htl) (h.live j u hj hu hul)

/-- an attempt that has hold of its address had it before, or has just found the address absent -/
theorem holds_step {op : Op} {j : Nat} {t' : Attempt} (h : (step l p s op).attempts[j]? = some t')
    (hh : t'.stage.holds = true) :
    ∃ t, s.attempts[j]? = some t ∧ t.addr = t'.addr ∧
      (t.stage.holds = true ∨ ∃ sends, op = .act j (.check sends) ∧ t.stage = .spawned ∧ t.addr ∉ s.connections) := by
  rcases attempt_step h with hsame | hnew | ⟨a, t, rfl, ht, rfl⟩
  · exact ⟨t', hsame, rfl, Or.inl hh⟩
  · rw [hnew] at hh
    cases hh
  · refine ⟨t, ht, rfl, ?_⟩
    rcases Attempt.next_holds hh with hbefore | ⟨hspawned, habsent, sends, rfl⟩
    · exact Or.inl hbefore
    · exact Or.inr ⟨sends, rfl, hspawned, habsent⟩

/-- a check that passes meets no other attempt with hold of the address -/
theorem OneHolder.alone_at_check (h : OneHolder addr s) {i j : Nat} {t u : Attempt} {sends : Bool}
    (hop : Apart p addr s (.act i (.check sends))) (hi : s.attempts[i]? = some t) (ht : t.addr = addr)
    (hpass : t.stage = .spawned ∧ t.addr ∉ s.connections) (hj : s.attempts[j]? = some u) (hu : u.addr = addr)
    (hh : u.stage.holds = true) : j = i := by
  obtain ⟨hspawned, habsent⟩ := hpass
  rw [ht] at habsent
  by_contra hne
  have hout := hop t hi ht hspawned habsent j u hne hj hu
  have hentered : u.stage.entered = true := by
    rw [Stage.holds, hout, Bool.false_or] at hh
    exact hh
  exact habsent (h.listed j u hj hu hentered)

theorem OneHolder.unique_step (h : OneHolder addr s) {op : Op} (hop : Apart p addr s op) (i j : Nat) (t' u' : Attempt)
    (hi : (step l p s op).attempts[i]? = some t') (hj : (step l p s op).attempts[j]? = some u') (ht : t'.addr = addr)
    (hu : u'.addr = addr) (hth : t'.stage.holds = true) (huh : u'.stage.holds = true) : i = j := by
  obtain ⟨t, hti, hta, hti'⟩ := holds_step hi hth
  obtain ⟨u, huj, hua, huj'⟩ := holds_step hj huh
  rw [ht] at hta
  rw [hu] at hua
  rcases hti' with hold | ⟨sends, rfl, hpass⟩
  · rcases huj' with hold' | ⟨sends, rfl, hpass⟩
    · exact h.unique i j t u hti huj hta hua hold hold'
    · exact h.alone_at_check hop huj hua hpass hti hta hold
  · rcases huj' with hold' | ⟨sends', heq, -⟩
    · exact (h.alone_at_check hop hti hta hpass huj hua hold').symm
    · cases heq
      rfl

theorem OneHolder.listed_step (h : OneHolder addr s) {op : Op} (i : Nat) (t' : Attempt)
    (hi : (step l p s op).attempts[i]? = some t') (ht : t'.addr = addr) (hent : t'.stage.entered = true) :
    addr ∈ (step l p s op).connections := by
  rcases attempt_step hi with hsame | hnew | ⟨a, t, rfl, hti, rfl⟩
  · have hmem := h.listed i t' hsame ht hent
    rcases mem_connections_step l p s op addr with hiff | ⟨-, -, -, -, hin, -⟩ |
      ⟨k, a, t, st, rfl, hk, hta, -, hst, -, hremoved⟩
    · exact hiff.2 hmem
    · exact hin
    · -- the attempt whose address goes out is this one, and it is no longer entered
      have hholds : t'.stage.holds = true := by rw [Stage.holds, hent, Bool.or_true]
      have hik : i = k := h.unique i k t' t hsame hk ht hta hholds (by rw [hst]; rfl)
      subst hik
      rw [attempt_acted hk a] at hi
      cases hi
      rw [hremoved] at hent
      cases hent
  · rw [hnew] at hent
    cases hent
  · have hconn : (step l p s (.act i a)).connections = t.connectionsAfter s.connections a := by
      simp only [step, hti]
    have hta : t.addr = addr := ht
    rw [hconn]
    rcases Attempt.next_entered hent with ⟨hbefore, hsame⟩ | hin
    · rw [hsame]
      exact h.listed i t hti hta hbefore
    · rw [hin, ← hta]
      exact Finset.mem_insert_self _ _

theorem OneHolder.live_step (h : OneHolder addr s) {op : Op} (i : Nat) (t' : Attempt)
    (hi : (step l p s op).attempts[i]? = some t') (ht : t'.addr = addr) (hlive : t'.stage.live = true) :
    t'.stage.holds = true := by
  rcases attempt_step hi with hsame | hnew | ⟨a, t, rfl, hti, rfl⟩
  · exact h.live i t' hsame ht hlive
  · rw [hnew] at hlive
    cases hlive
  · exact Attempt.next_live (h.live i t hti ht) (fun st => h.marked i t st hti ht) hlive

theorem OneHolder.marked_step (h : OneHolder addr s) {op : Op} (hop : Apart p addr s op) (i : Nat) (t' : Attempt)
    (st' : Session) (hi : (step l p s op).attempts[i]? = some t') (ht : t'.addr = addr)
    (hst : t'.stage.stream? = some st') (hzero : st'.conn.notified = 0) : st'.EndedMarked := by
  rcases attempt_step hi with hsame | hnew | ⟨a, t, rfl, hti, rfl⟩
  · exact h.marked i t' st' hsame ht hst hzero
  · rw [hnew] at hst
    cases hst
  · rcases Attempt.next_stream hst with hkept | ⟨mtu, nowMicros, rfl⟩ | ⟨st, sop, hbefore, rfl, rfl⟩ | ⟨st, -, rfl, -⟩
    · exact h.marked i t st' hti ht hkept hzero
    · intro hend
      cases hend
    · have hbefore0 : st.conn.notified = 0 := by
        by_contra hne
        exact Session.notified_step p hne sop hzero
      exact (h.marked i t st hti ht hbefore hbefore0).step (hop t st hti ht hbefore hbefore0)
    · intro _
      rfl

/-- **One step** leaves one holder. -/
theorem OneHolder.step (h : OneHolder addr s) {op : Op} (hop : Apart p addr s op) :
    OneHolder addr (ListenerState.step l p s op) :=
  ⟨h.unique_step hop, h.listed_step, h.live_step, h.marked_step hop⟩

theorem oneHolder_of_absent (h : ∀ t ∈ s.attempts, t.addr ≠ addr) : OneHolder addr s := by
  have hnone : ∀ {i : Nat} {t : Attempt}, s.attempts[i]? = some t → t.addr ≠ addr := fun hi => h _ (List.mem_of_getElem? hi)
  exact ⟨fun i j t u hi _ ht => absurd ht (hnone hi), fun i t hi ht => absurd ht (hnone hi),
    fun i t hi ht => absurd ht (hnone hi), fun i t st hi ht => absurd ht (hnone hi)⟩

/-- **One stream for each peer.** From a state with no request of the address, however the tasks of any number of requests
are interleaved, with everything that happens to the streams: if no request of the address passes its check while another
one is between its check and its insertion, and no receive task of it panics before its login is complete, at most one of
its streams is live. -/
theorem one_stream (l : RakNetListener) (p : Profile) (addr : SocketAddr) (s : ListenerState)
    (hnone : ∀ t ∈ s.attempts, t.addr ≠ addr) (ops : List Op)
    (hops : Machine.Steps (step l p) (Apart p addr) s ops) : OneStream addr (run l p s ops) := by
  have hinv : OneHolder addr (Machine.run (step l p) s ops) :=
    Machine.run_inv_of_steps (fun _ _ h hop => h.step hop) (oneHolder_of_absent hnone) hops
  exact hinv.oneStream

/-- a client at `127.0.0.1:50000`, its request, and a listener -/
def homeAddr : SocketAddr := RakNetClient.homeClient
def homeRequest : Bytes := encodeOpenConnectionRequest2 RakNetClient.homeServer 1400 42
def homeListener : RakNetListener := ⟨77, []⟩

def request : List Op := [.packet homeAddr homeRequest true]
def check (i : Nat) : List Op := [.act i (.check true)]
/-- the steps of attempt `i` from its decoding to its stream -/
def toStream (i : Nat) : List Op :=
  [.act i .decode, .act i (.createSocket true), .act i (.reply true), .act i (.newStream 0)]
def toWaiter (i : Nat) : List Op := [.act i .insert, .act i .spawnWaiter]

/-- a request and its retransmission, the second one checked after the first was inserted -/
def oneAfterOther : List Op := request ++ check 0 ++ toStream 0 ++ toWaiter 0 ++ request ++ check 1

/-- one stream, and the retransmission is told so -/
theorem one_stream_home :
    OneStream homeAddr (run homeListener .dev .new oneAfterOther) ∧
    (run homeListener .dev .new oneAfterOther).attempts.map (·.stage.live) = [true, false] := by
  refine ⟨one_stream homeListener .dev homeAddr .new (fun t ht => (by cases ht)) oneAfterOther ?_, by decide⟩
  refine ⟨trivial, ?_, trivial, trivial, trivial, trivial, trivial, trivial, trivial, ?_, trivial⟩
  · intro t _ _ _ _ j u hj hu
    have hlen : j < 1 := (List.getElem?_eq_some_iff.1 hu).1
    exact absurd (Nat.lt_one_iff.1 hlen) hj
  · intro t _ _ _ habsent
    exact absurd (by decide) habsent

/-- a request and its retransmission, both checked before the first has got to its insertion -/
def bothChecked : List Op := request ++ request ++ check 0 ++ check 1 ++ toStream 0 ++ toWaiter 0 ++ toStream 1

/-- **Two streams for one peer.** -/
theorem two_streams :
    (run homeListener .dev .new bothChecked).attempts.map (fun t => (t.addr, t.stage.live)) =
      [(homeAddr, true), (homeAddr, true)] ∧
    ¬ OneStream homeAddr (run homeListener .dev .new bothChecked) := by
  refine ⟨by decide, ?_⟩
  intro h
  exact absurd (h 0 1 _ _ rfl rfl rfl rfl (by decide) (by decide)) (by decide)

/-! ## Live peers -/

/-- every address in the table is that of a peer: its login is pending, or one of its streams is live -/
def TracksLive (s : ListenerState) : Prop :=
  ∀ addr ∈ s.connections, ∃ t ∈ s.attempts, t.addr = addr ∧ (t.stage.pending = true ∨ t.stage.live = true)

/-- a request of an address without a pending login and without a live stream passes its check, and nothing is sent -/
def Readmits (l : RakNetListener) (p : Profile) (s : ListenerState) : Prop :=
  ∀ (i : Nat) (t : Attempt) (sends : Bool), s.attempts[i]? = some t → t.stage = .spawned →
    (∀ u ∈ s.attempts, u.addr = t.addr → u.stage.pending = false ∧ u.stage.live = false) →
    (step l p s (.act i (.check sends))).attempts[i]? = some { t with stage := .checked } ∧
      (step l p s (.act i (.check sends))).sent = s.sent

theorem TracksLive.readmits (h : TracksLive s) : Readmits l p s := by
  intro i t sends hi hspawned hnone
  have habsent : t.addr ∉ s.connections := by
    intro hmem
    obtain ⟨u, hu, haddr, hpeer⟩ := h t.addr hmem
    obtain ⟨hpending, hlive⟩ := hnone u hu haddr
    rw [hpending, hlive] at hpeer
    rcases hpeer with hpeer | hpeer <;> cases hpeer
  constructor
  · rw [attempt_acted hi]
    simp only [acted, Attempt.next, hspawned, if_neg habsent]
  · cases sends <;> simp [step, hi, Attempt.sends, hspawned, habsent]

/-- no login that has completed comes to an end, by whatever means, none completes when its connection has ended, and none
is ended by another task while its receive task waits for a packet -/
def Reported (p : Profile) (s : ListenerState) : Op → Prop
  | .packet _ _ _ => True
  | .act i a => ∀ t ∈ s.attempts[i]?, t.endsUnreported p a = false

instance (p : Profile) (s : ListenerState) : (op : Op) → Decidable (Reported p s op)
  | .packet _ _ _ => inferInstanceAs (Decidable True)
  | .act i a => inferInstanceAs (Decidable (∀ t ∈ s.attempts[i]?, t.endsUnreported p a = false))

/-- an address in the table has been entered by one of its attempts; a stream that has ended reports it, and an accepted one
has reported its login -/
structure Tracking (s : ListenerState) : Prop where
  entered : ∀ addr ∈ s.connections, ∃ (i : Nat) (t : Attempt), s.attempts[i]? = some t ∧ t.addr = addr ∧
    t.stage.entered = true
  reported : ∀ (i : Nat) (t : Attempt) (st : Session), s.attempts[i]? = some t → t.stage.holds = true →
    t.stage.stream? = some st → st.EndReported
  accepted : ∀ (i : Nat) (t : Attempt) (st : Session), s.attempts[i]? = some t → t.stage = .accepted st →
    st.conn.notified ≠ 0

theorem Tracking.tracksLive (h : Tracking s) : TracksLive s := by
  intro addr hmem
  obtain ⟨i, t, hi, haddr, hent⟩ := h.entered addr hmem
  refine ⟨t, List.mem_of_getElem? hi, haddr, ?_⟩
  have hholds : t.stage.holds = true := by rw [Stage.holds, hent, Bool.or_true]
  exact Stage.pending_or_live hent (fun st => h.reported i t st hi hholds) (fun st => h.accepted i t st hi)

theorem Tracking.entered_step (h : Tracking s) {op : Op} (hop : Reported p s op) :
    ∀ addr ∈ (step l p s op).connections, ∃ (i : Nat) (t : Attempt), (step l p s op).attempts[i]? = some t ∧
      t.addr = addr ∧ t.stage.entered = true := by
  intro addr hmem
  rcases mem_connections_step l p s op addr with hiff | ⟨i, t', hi, haddr, -, hent⟩ | ⟨-, -, -, -, -, -, -, hout, -⟩
  · obtain ⟨i, t, hi, haddr, hent⟩ := h.entered addr (hiff.1 hmem)
    obtain ⟨t', hi', haddr', hcase⟩ := attempt_kept (l := l) (p := p) hi op
    refine ⟨i, t', hi', haddr'.trans haddr, ?_⟩
    rcases hcase with rfl | ⟨a, rfl, rfl⟩
    · exact hent
    · have hconn : (step l p s (.act i a)).connections = t.connectionsAfter s.connections a := by simp only [step, hi]
      rw [hconn, ← haddr] at hmem
      have hstays : (t.next l p s.connections a).entered = true ∨ t.addr ∉ t.connectionsAfter s.connections a :=
        Attempt.entered_next hent (hop t hi)
      exact hstays.resolve_right fun hout => hout hmem
  · exact ⟨i, t', hi, haddr, hent⟩
  · exact absurd hmem hout

theorem Tracking.reported_step (h : Tracking s) {op : Op} (hop : Reported p s op) (i : Nat) (t' : Attempt) (st' : Session)
    (hi : (step l p s op).attempts[i]? = some t') (hholds : t'.stage.holds = true) (hst : t'.stage.stream? = some st') :
    st'.EndReported := by
  rcases attempt_step hi with hsame | hnew | ⟨a, t, rfl, hti, rfl⟩
  · exact h.reported i t' st' hsame hholds hst
  · rw [hnew] at hst
    cases hst
  · -- an attempt with a stream had hold of its address before
    have hbefore : ∀ st, t.stage.stream? = some st → t.stage.holds = true := by
      intro st hst'
      rcases Attempt.next_holds hholds with hb | ⟨hspawned, -⟩
      · exact hb
      · rw [hspawned] at hst'
        cases hst'
    rcases Attempt.next_stream hst with hkept | ⟨mtu, nowMicros, rfl⟩ | ⟨st, sop, hs, rfl, rfl⟩ | ⟨st, -, -, hdropped⟩
    · exact h.reported i t st' hti (hbefore st' hkept) hkept
    · intro hdis
      cases hdis
    · have hunseen := hop t hti
      rw [Attempt.endsUnreported, hbefore st hs, hs, Bool.true_and, Option.any_some] at hunseen
      exact (h.reported i t st hti (hbefore st hs) hs).step hunseen
    · have hafter : (acted l p s t a).stage = .dropped st' := hdropped
      rw [hafter] at hholds
      cases hholds

theorem Tracking.accepted_step (h : Tracking s) {op : Op} (i : Nat) (t' : Attempt) (st' : Session)
    (hi : (step l p s op).attempts[i]? = some t') (hst : t'.stage = .accepted st') : st'.conn.notified ≠ 0 := by
  rcases attempt_step hi with hsame | hnew | ⟨a, t, rfl, hti, rfl⟩
  · exact h.accepted i t' st' hsame hst
  · rw [hnew] at hst
    cases hst
  · rcases Attempt.next_accepted hst with hkept | hnotified | ⟨st, sop, hs, rfl⟩
    · exact h.accepted i t st' hti hkept
    · exact hnotified
    · exact Session.notified_step p (h.accepted i t st hti hs) sop

/-- **One step** whose ends are all reported keeps the table right. -/
theorem Tracking.step (h : Tracking s) {op : Op} (hop : Reported p s op) : Tracking (ListenerState.step l p s op) :=
  ⟨h.entered_step hop, h.reported_step hop, h.accepted_step⟩

theorem tracking_new : Tracking .new := by
  refine ⟨?_, ?_, ?_⟩
  · intro addr hmem
    cases hmem
  · intro i t st hi
    cases hi
  · intro i t st hi
    cases hi

/-- **The table tracks live peers.** In every run of the listener in which no completed login comes to an end, no ended
connection completes its login, and no other task ends a connection whose receive task waits for a packet, every address in
the table has a pending login or a live stream; a peer that has neither can come back. -/
theorem table_tracks_live (l : RakNetListener) (p : Profile) (ops : List Op)
    (hops : Machine.Steps (step l p) (Reported p) .new ops) :
    TracksLive (run l p .new ops) ∧ Readmits l p (run l p .new ops) := by
  have hinv : Tracking (Machine.run (step l p) .new ops) :=
    Machine.run_inv_of_steps (fun _ _ h hop => h.step hop) tracking_new hops
  exact ⟨hinv.tracksLive, hinv.tracksLive.readmits⟩

/-- a datagram with one unreliable frame -/
def datagramOf (n : Nat) (payload : Bytes) : Bytes := encodeDatagram (U24.new n) [(Frame.new .unreliable payload).encode]

/-- the stream of attempt `i` takes a packet and goes through its frame loop: the bytes of the datagram's number, the frame
and the end -/
def receives (i : Nat) (packet : Bytes) : List Op :=
  [.act i (.session .check), .act i (.session (.recv Conn.quietEnv packet)), .act i (.session (.frame Conn.quietEnv)),
    .act i (.session (.frame Conn.quietEnv)), .act i (.session (.frame Conn.quietEnv))]

def wake (i : Nat) : List Op := [.act i (.wake true)]

/-- a client's login, from its request to the accept channel -/
def logsIn (i : Nat) : List Op :=
  request ++ check i ++ toStream i ++ toWaiter i ++ receives i (datagramOf 0 (encodeConnectionRequest 42 0)) ++
    receives i (datagramOf 1 (encodeNewIncomingConnection RakNetClient.homeServer 0 0)) ++ wake i

def awayAddr : SocketAddr := .v4 #v[127, 0, 0, 2] 50000
def awayRequest : List Op := [.packet awayAddr homeRequest true]
/-- the login of attempt `i` fails and is given up -/
def fails (i : Nat) : List Op :=
  [.act i (.session .check), .act i (.session .recvError), .act i (.wake true), .act i .drop]

/-- one client logs in and stays; the login of another one fails, and it tries again -/
def oneStays : List Op :=
  logsIn 0 ++ awayRequest ++ check 1 ++ toStream 1 ++ toWaiter 1 ++ fails 1 ++ awayRequest ++ check 2

theorem table_tracks_home :
    TracksLive (run homeListener .dev .new oneStays) ∧ Readmits homeListener .dev (run homeListener .dev .new oneStays) ∧
    (run homeListener .dev .new oneStays).connections = {homeAddr} ∧
    (run homeListener .dev .new oneStays).attempts.map (fun t => (t.stage.holds, t.stage.live)) =
      [(true, true), (false, false), (true, false)] := by
  obtain ⟨htracks, hreadmits⟩ := table_tracks_live homeListener .dev oneStays (by decide +kernel)
  exact ⟨htracks, hreadmits, by decide +kernel, by decide +kernel⟩

/-- the application closes the stream of attempt `i` -/
def closes (i : Nat) : List Op :=
  [.act i (.session (.beginClose Conn.quietEnv)), .act i (.session (.other .markDisconnected))]

def homeLeaves : List Op := logsIn 0 ++ closes 0

/-- **A peer that cannot come back.** Its stream has been closed and no login of it is pending, but its address stays in
the table, and its next request is answered with `ID_ALREADY_CONNECTED`. -/
theorem stale_entry :
    (run homeListener .dev .new homeLeaves).attempts.map (fun t => (t.addr, t.stage.pending, t.stage.live)) =
      [(homeAddr, false, false)] ∧
    ¬ TracksLive (run homeListener .dev .new homeLeaves) ∧
    (homeAddr, [idAlreadyConnected]) ∈
      (run homeListener .dev .new (homeLeaves ++ request ++ check 1)).sent := by
  have hgone : (run homeListener .dev .new homeLeaves).attempts.map (fun t => (t.addr, t.stage.pending, t.stage.live)) =
      [(homeAddr, false, false)] := by decide +kernel
  refine ⟨hgone, ?_, by decide +kernel⟩
  intro h
  obtain ⟨t, ht, -, hpeer⟩ := h homeAddr (by decide +kernel)
  have hmem : (t.addr, t.stage.pending, t.stage.live) ∈ [(homeAddr, false, false)] := by
    rw [← hgone]
    exact List.mem_map_of_mem ht
  simp only [List.mem_singleton, Prod.mk.injEq] at hmem
  rw [hmem.2.1, hmem.2.2] at hpeer
  rcases hpeer with hpeer | hpeer <;> cases hpeer

end ListenerState

end RakNet
