/-
Which transmitted datagrams the send queue tracks.

`send_reliable_frame` and `send_fragmented` call `queue.insert` and drop its answer, so a send into a full queue reports
`Ok` although nothing keeps its datagram for a retransmission. The other way to lose one is the wrap of the 24-bit
counter: an insertion replaces the entry of a datagram that was sent 2^24 sends before and is still not acknowledged.

- `transmitted_tracked`: along every run whose sends all find room in the queue and a number nothing unacknowledged
  carries, each datagram of a successful send that no ACK has covered is in the queue with its bytes.
- `full_queue_drops`: the send that reports `Ok` and is not tracked.
-/
import RakNet.Connection.Receive
import RakNet.Connection.Tick
import RakNet.Lib.Machine

namespace RakNet

open Lib Lib.Wire

/-- the sequence number a datagram carries -/
def seqOf (datagram : Bytes) : Nat :=
  match decodeDatagram datagram with
  | .ok (seq, _) => seq.get
  | _ => 0

theorem seqOf_encodeDatagram (seq : U24) (frames : List Bytes) : seqOf (encodeDatagram seq frames) = seq.get := by
  rw [seqOf, decodeDatagram_encodeDatagram]

/-- a connection, and what its send queue owes -/
structure Tracked where
  conn : Conn
  /-- numbers and bytes of the datagrams transmitted by sends that returned `Ok`, not covered by an ACK since -/
  owed : List (Nat × Bytes)

namespace Tracked

/-! ## Runs of sends and ACKs -/

inductive Op where
  | sendReliableFrame (env : Env) (payload : Bytes)
  | sendFragmented (envs : Nat → Env) (data : Bytes)
  | handleAck (ranges : AckRangeList)
  | checkRetransmissions (envs : Nat → Env)

def Op.act (p : Profile) : Op → Conn.Act Unit
  | .sendReliableFrame env payload => Conn.sendReliableFrame env payload
  | .sendFragmented envs data => Conn.sendFragmented p envs data
  | .handleAck ranges => Conn.handleAck ranges
  | .checkRetransmissions envs => Conn.checkRetransmissions envs

/-- the datagrams the socket took between two states -/
def sentSince (before after : Conn) : List (Nat × Bytes) :=
  (after.sent.drop before.sent.length).map fun b => (seqOf b, b)

/-- what is owed after a send: one that reports an error adds nothing -/
def owedAfterSend (t : Tracked) (r : Result Unit × Conn) : List (Nat × Bytes) :=
  if r.1 = .ok () then t.owed ++ sentSince t.conn r.2 else t.owed

/-- what is owed after an operation -/
def Op.owed (op : Op) (t : Tracked) (r : Result Unit × Conn) : List (Nat × Bytes) :=
  match op with
  | .sendReliableFrame _ _ | .sendFragmented _ _ => t.owedAfterSend r
  | .handleAck ranges => t.owed.filter fun e => !ranges.covers e.1
  | .checkRetransmissions _ => t.owed

def step (p : Profile) (t : Tracked) (op : Op) : Tracked := ⟨(op.act p t.conn).2, op.owed t (op.act p t.conn)⟩

def run (p : Profile) (t : Tracked) (ops : List Op) : Tracked := Machine.run (step p) t ops

def init (mtu : UInt16) (nowMicros : Nat) (ready : Bool) : Tracked := ⟨.new mtu nowMicros ready, []⟩

/-- how many of `n` sends in a row the socket takes, the first one in environment `index` -/
def taken (envs : Nat → Env) : Nat → Nat → Nat
  | _, 0 => 0
  | index, n + 1 =>
    match (envs index).sendError with
    | none => taken envs (index + 1) n + 1
    | some _ => 0

/-- how many fragments `send_fragmented` makes of a message -/
def fragmentCount (p : Profile) (mtu : UInt16) (data : Bytes) : Nat :=
  match p.sub 64 mtu.toNat 80 with
  | .ok chunkSize => Conn.chunkCount data.length chunkSize
  | _ => 0

/-- `n` datagrams are to be sent and the socket takes `k`: if it takes all there is room for them, and no number
allocated for them belongs to an unacknowledged datagram -/
def RoomFor (t : Tracked) (k n : Nat) : Prop :=
  (k = n → t.conn.shared.sendQueue.len + n ≤ t.conn.shared.sendQueue.maxSize) ∧
  ∀ j < k, ∀ e ∈ t.owed, e.1 ≠ (t.conn.shared.sendSeq.load.get + j) % 2 ^ 24

/-- the side condition of a step -/
def Roomy (p : Profile) (t : Tracked) : Op → Prop
  | .sendReliableFrame env _ => t.RoomFor (taken (fun _ => env) 0 1) 1
  | .sendFragmented envs data =>
    t.RoomFor (taken envs 0 (fragmentCount p t.conn.shared.mtu data)) (fragmentCount p t.conn.shared.mtu data)
  | .handleAck _ => True
  | .checkRetransmissions _ => True

/-! ## One frame -/

/-- the queue has every owed datagram under its number -/
def Tracks (c : Conn) (owed : List (Nat × Bytes)) : Prop := ∀ e ∈ owed, c.shared.sendQueue.packet? e.1 = some e.2

/-- what a send that the socket took did -/
structure FrameSent (c c' : Conn) (datagram : Bytes) : Prop where
  sent : c'.sent = c.sent ++ [datagram]
  seq : seqOf datagram = c.shared.sendSeq.load.get
  next : c'.shared.sendSeq.load.get = (c.shared.sendSeq.load.get + 1) % 2 ^ 24
  queue : ∃ now, c'.shared.sendQueue = (c.shared.sendQueue.insert now c.shared.sendSeq.load.get datagram).2

theorem sendFrame_sent {env : Env} (h : env.sendError = none) (payload : Bytes) (split : Option SplitInfo) (c : Conn) :
    ∃ c' d, Conn.sendFrame env payload split c = (.ok (), c') ∧ FrameSent c c' d := by
  refine ⟨_, Conn.nextDatagram c.shared payload split, Conn.sendFrame_ok h payload split c, rfl, ?_, ?_, env.now, rfl⟩
  · exact seqOf_encodeDatagram _ _
  · calc (c.shared.sendSeq.fetchAdd 1).2.load.get
        = (U24.new (c.shared.sendSeq.load.get + 1)).get := congrArg U24.get (AtomicU24.load_fetchAdd_one _)
      _ = (c.shared.sendSeq.load.get + 1) % 2 ^ 24 := U24.get_new _

variable {c c' : Conn} {d : Bytes} {owed : List (Nat × Bytes)}

theorem FrameSent.maxSize (h : FrameSent c c' d) : c'.shared.sendQueue.maxSize = c.shared.sendQueue.maxSize := by
  obtain ⟨now, hq⟩ := h.queue
  rw [hq, SendQueue.maxSize_insert]

theorem FrameSent.len_le (h : FrameSent c c' d) : c'.shared.sendQueue.len ≤ c.shared.sendQueue.len + 1 := by
  obtain ⟨now, hq⟩ := h.queue
  rw [hq]
  exact SendQueue.len_insert_le _ _ _ _

/-- an insertion under another number leaves what is owed alone -/
theorem FrameSent.tracks (h : FrameSent c c' d) (ht : Tracks c owed)
    (hfree : ∀ e ∈ owed, e.1 ≠ c.shared.sendSeq.load.get) : Tracks c' owed := by
  obtain ⟨now, hq⟩ := h.queue
  intro e he
  rw [hq, SendQueue.packet?_insert_of_ne _ _ _ (hfree e he)]
  exact ht e he

/-- with room in the queue the new datagram is tracked too -/
theorem FrameSent.tracks_new (h : FrameSent c c' d) (ht : Tracks c owed)
    (hfree : ∀ e ∈ owed, e.1 ≠ c.shared.sendSeq.load.get)
    (hroom : c.shared.sendQueue.len < c.shared.sendQueue.maxSize) : Tracks c' (owed ++ [(seqOf d, d)]) := by
  intro e he
  rcases List.mem_append.1 he with he | he
  · exact h.tracks ht hfree e he
  · obtain ⟨now, hq⟩ := h.queue
    rw [List.mem_singleton.1 he, hq, h.seq]
    exact SendQueue.packet?_insert_self _ _ _ hroom

/-! ## The loop over the chunks -/

/-- the numbers allocated after the first one are those of the next state -/
theorem FrameSent.number_succ (h : FrameSent c c' d) (j : Nat) :
    (c'.shared.sendSeq.load.get + j) % 2 ^ 24 = (c.shared.sendSeq.load.get + (j + 1)) % 2 ^ 24 := by
  rw [h.next]
  omega

theorem number_zero (c : Conn) : (c.shared.sendSeq.load.get + 0) % 2 ^ 24 = c.shared.sendSeq.load.get :=
  Nat.mod_eq_of_lt (U24.get_lt _)

/-- fragments under other numbers leave what is owed alone, however the loop ends -/
theorem sendChunks_tracks (id : UInt16) (count : UInt32) (envs : Nat → Env) (index : Nat) (cs : List Bytes)
    (ht : Tracks c owed)
    (hfree : ∀ j < taken envs index cs.length, ∀ e ∈ owed, e.1 ≠ (c.shared.sendSeq.load.get + j) % 2 ^ 24) :
    Tracks (Conn.sendChunks id count envs index cs c).2 owed := by
  induction cs generalizing index c with
  | nil => exact ht
  | cons chunk cs ih =>
    unfold Conn.sendChunks
    cases henv : (envs index).sendError with
    | some msg =>
      rw [Action.bind_of_err (Conn.sendFrame_err henv _ _ _)]
      exact ht
    | none =>
      obtain ⟨c', d, he, hsent⟩ := sendFrame_sent henv chunk (some ⟨count, id, UInt32.ofNat index⟩) c
      rw [Action.bind_of_ok he]
      simp only [List.length_cons, taken, henv] at hfree
      have hfirst := hfree 0 (Nat.succ_pos _)
      rw [number_zero] at hfirst
      apply ih (index + 1) (hsent.tracks ht hfirst)
      intro j hj e hm
      rw [hsent.number_succ]
      exact hfree (j + 1) (Nat.succ_lt_succ hj) e hm

/-- a loop that returns `Ok` has sent every chunk -/
theorem taken_of_ok {id : UInt16} {count : UInt32} {envs : Nat → Env} {index : Nat} {cs : List Bytes}
    (h : (Conn.sendChunks id count envs index cs c).1 = .ok ()) : taken envs index cs.length = cs.length := by
  induction cs generalizing index c with
  | nil => rfl
  | cons chunk cs ih =>
    unfold Conn.sendChunks at h
    cases henv : (envs index).sendError with
    | some msg =>
      rw [Action.bind_of_err (Conn.sendFrame_err henv _ _ _)] at h
      cases h
    | none =>
      obtain ⟨c', d, he, -⟩ := sendFrame_sent henv chunk (some ⟨count, id, UInt32.ofNat index⟩) c
      rw [Action.bind_of_ok he] at h
      simp only [List.length_cons, taken, henv, ih h]

/-- with room for all of them, every fragment of a loop that returns `Ok` is tracked -/
theorem sendChunks_tracks_new (id : UInt16) (count : UInt32) (envs : Nat → Env) (index : Nat) (cs : List Bytes)
    (ht : Tracks c owed) (hall : taken envs index cs.length = cs.length) (hsmall : cs.length ≤ 2 ^ 24)
    (hroom : c.shared.sendQueue.len + cs.length ≤ c.shared.sendQueue.maxSize)
    (hfree : ∀ j < cs.length, ∀ e ∈ owed, e.1 ≠ (c.shared.sendSeq.load.get + j) % 2 ^ 24) :
    ∃ ds, (Conn.sendChunks id count envs index cs c).2.sent = c.sent ++ ds ∧
      Tracks (Conn.sendChunks id count envs index cs c).2 (owed ++ ds.map fun b => (seqOf b, b)) := by
  induction cs generalizing index c owed with
  | nil => exact ⟨[], by simp [Conn.sendChunks], by simpa [Conn.sendChunks] using ht⟩
  | cons chunk cs ih =>
    unfold Conn.sendChunks
    cases henv : (envs index).sendError with
    | some msg =>
      simp only [List.length_cons, taken, henv] at hall
      exact absurd hall (Nat.succ_ne_zero _).symm
    | none =>
      obtain ⟨c', d, he, hsent⟩ := sendFrame_sent henv chunk (some ⟨count, id, UInt32.ofNat index⟩) c
      simp only [List.length_cons, taken, henv, Nat.add_right_cancel_iff] at hall hsmall hroom hfree
      have hfirst := hfree 0 (Nat.succ_pos _)
      rw [number_zero] at hfirst
      have hnew := hsent.tracks_new ht hfirst (by omega)
      have hlen := hsent.len_le
      rw [Action.bind_of_ok he]
      obtain ⟨ds, hds, htracks⟩ := ih (index + 1) hnew hall (Nat.le_of_succ_le hsmall)
        (by rw [hsent.maxSize]; omega) fun j hj e hm => by
          rw [hsent.number_succ]
          rcases List.mem_append.1 hm with hm | hm
          · exact hfree (j + 1) (Nat.succ_lt_succ hj) e hm
          · -- the number just used comes back only after 2^24 sends
            rw [List.mem_singleton.1 hm, hsent.seq]
            have := c.shared.sendSeq.load.get_lt
            omega
      refine ⟨d :: ds, ?_, ?_⟩
      · rw [hds, hsent.sent, List.append_assoc]
        rfl
      · rw [List.append_assoc] at htracks
        exact htracks

/-! ## One operation -/

/-- the invariant: everything owed is tracked, in a queue of the default size -/
structure Inv (t : Tracked) : Prop where
  tracks : Tracks t.conn t.owed
  maxSize : t.conn.shared.sendQueue.maxSize = 2048

theorem inv_init (mtu : UInt16) (nowMicros : Nat) (ready : Bool) : (init mtu nowMicros ready).Inv :=
  ⟨fun _ he => absurd he List.not_mem_nil, rfl⟩

theorem owedAfterSend_ok (t : Tracked) {r : Result Unit × Conn} {ds : List Bytes} (hr : r.1 = .ok ())
    (h : r.2.sent = t.conn.sent ++ ds) : t.owedAfterSend r = t.owed ++ ds.map fun b => (seqOf b, b) := by
  rw [owedAfterSend, if_pos hr, sentSince, h, List.drop_left]

theorem owedAfterSend_failed (t : Tracked) {r : Result Unit × Conn} (hr : r.1 ≠ .ok ()) :
    t.owedAfterSend r = t.owed := by
  rw [owedAfterSend, if_neg hr]

theorem maxSize_sendFrame (env : Env) (payload : Bytes) (split : Option SplitInfo) :
    Action.Preserves (fun c : Conn => c.shared.sendQueue.maxSize) (Conn.sendFrame env payload split) := by
  intro c
  cases henv : env.sendError with
  | some msg => rw [Conn.sendFrame_err henv]; rfl
  | none =>
    obtain ⟨c', d, he, hsent⟩ := sendFrame_sent henv payload split c
    rw [he]
    exact hsent.maxSize

theorem maxSize_sendChunks (id : UInt16) (count : UInt32) (envs : Nat → Env) (index : Nat) (cs : List Bytes) :
    Action.Preserves (fun c : Conn => c.shared.sendQueue.maxSize) (Conn.sendChunks id count envs index cs) := by
  induction cs generalizing index with
  | nil => exact Action.preserves_pure _ _
  | cons chunk cs ih => exact (maxSize_sendFrame _ _ _).bind fun _ => ih (index + 1)

variable {t : Tracked}

theorem Inv.sendReliableFrame (h : t.Inv) (p : Profile) {env : Env} {payload : Bytes}
    (hroom : Roomy p t (.sendReliableFrame env payload)) : (step p t (.sendReliableFrame env payload)).Inv := by
  refine ⟨?_, (maxSize_sendFrame env payload none t.conn).trans h.maxSize⟩
  obtain ⟨hlen, hfree⟩ := hroom
  show Tracks (Conn.sendFrame env payload none t.conn).2 (t.owedAfterSend (Conn.sendFrame env payload none t.conn))
  cases henv : env.sendError with
  | some msg =>
    rw [Conn.sendFrame_err henv, owedAfterSend_failed t (by simp)]
    exact h.tracks
  | none =>
    obtain ⟨c', d, he, hsent⟩ := sendFrame_sent henv payload none t.conn
    simp only [taken, henv] at hlen hfree
    have hfirst := hfree 0 Nat.one_pos
    rw [number_zero] at hfirst
    rw [he, owedAfterSend_ok t rfl hsent.sent]
    exact hsent.tracks_new h.tracks hfirst (hlen trivial)

theorem fragmentCount_eq {p : Profile} {mtu : UInt16} {chunkSize : Nat} (h : p.sub 64 mtu.toNat 80 = .ok chunkSize)
    (data : Bytes) : fragmentCount p mtu data = (Conn.chunks data chunkSize).length := by
  rw [fragmentCount, h, Conn.chunks, List.length_map, List.length_range]

theorem Inv.sendFragmented (h : t.Inv) (p : Profile) {envs : Nat → Env} {data : Bytes}
    (hroom : Roomy p t (.sendFragmented envs data)) : (step p t (.sendFragmented envs data)).Inv := by
  obtain ⟨hlen, hfree⟩ := hroom
  rcases Conn.sendFragmented_cases p envs data t.conn with ⟨hne, he⟩ | ⟨chunkSize, padded, hsize, -, he⟩
  · -- nothing was sent
    have hstep : step p t (.sendFragmented envs data) = ⟨Conn.splitAllocated t.conn, t.owed⟩ := by
      rw [← he, ← owedAfterSend_failed t hne]
      rfl
    rw [hstep]
    exact ⟨h.tracks, h.maxSize⟩
  · rw [fragmentCount_eq hsize data] at hlen hfree
    have hstep : step p t (.sendFragmented envs data) = ⟨(Conn.sendFragmented p envs data t.conn).2,
      t.owedAfterSend (Conn.sendFragmented p envs data t.conn)⟩ := rfl
    rw [hstep, he]
    refine ⟨?_, (maxSize_sendChunks _ _ _ _ _ _).trans h.maxSize⟩
    have ht : Tracks (Conn.splitAllocated t.conn) t.owed := h.tracks
    by_cases hok : (Conn.sendChunks t.conn.shared.splitId (UInt32.ofNat (padded / chunkSize)) envs 0
        (Conn.chunks data chunkSize) (Conn.splitAllocated t.conn)).1 = .ok ()
    · have hall := taken_of_ok hok
      rw [hall] at hlen hfree
      have hfits := hlen rfl
      have hmax := h.maxSize
      obtain ⟨ds, hds, htracks⟩ := sendChunks_tracks_new t.conn.shared.splitId (UInt32.ofNat (padded / chunkSize)) envs
        0 (Conn.chunks data chunkSize) ht hall (by omega) hfits hfree
      rw [owedAfterSend_ok t hok hds]
      exact htracks
    · rw [owedAfterSend_failed t hok]
      exact sendChunks_tracks _ _ _ _ _ ht hfree

theorem Inv.handleAck (h : t.Inv) (p : Profile) (ranges : AckRangeList) : (step p t (.handleAck ranges)).Inv := by
  refine ⟨?_, (Conn.removes_ackQueue _ _).maxSize.trans h.maxSize⟩
  intro e he
  obtain ⟨hmem, hcov⟩ := List.mem_filter.1 he
  calc (Conn.ackQueue t.conn.shared.sendQueue ranges).packet? e.1
      = if ranges.covers e.1 then none else t.conn.shared.sendQueue.packet? e.1 := (Conn.removes_ackQueue _ _).packet? _
    _ = t.conn.shared.sendQueue.packet? e.1 := if_neg (by simpa using hcov)
    _ = some e.2 := h.tracks e hmem

theorem Inv.checkRetransmissions (h : t.Inv) (p : Profile) (envs : Nat → Env) :
    (step p t (.checkRetransmissions envs)).Inv := by
  have hq : (step p t (.checkRetransmissions envs)).conn.shared.sendQueue =
      (t.conn.shared.sendQueue.getExpired (envs 0).now (t.conn.shared.metrics.rttNanos * 3) 3).2 :=
    (Conn.tick_sendAll envs _).comp (fun c => c.shared.sendQueue) _
  constructor
  · intro e he
    rw [hq, SendQueue.packet?_getExpired]
    exact h.tracks e he
  · rw [hq]
    exact h.maxSize

/-- **One step.** -/
theorem step_inv (p : Profile) (t : Tracked) (op : Op) (h : t.Inv) (hroom : Roomy p t op) : (step p t op).Inv := by
  cases op with
  | sendReliableFrame env payload => exact h.sendReliableFrame p hroom
  | sendFragmented envs data => exact h.sendFragmented p hroom
  | handleAck ranges => exact h.handleAck p ranges
  | checkRetransmissions envs => exact h.checkRetransmissions p envs

/-! ## Whole runs -/

/-- **Transmitted datagrams stay tracked.** Along every run whose sends all find room in the queue and numbers no
unacknowledged datagram carries, each datagram of a send that returned `Ok` and that no processed ACK has covered since
is in the queue with exactly its bytes. -/
theorem transmitted_tracked (p : Profile) (mtu : UInt16) (nowMicros : Nat) (ready : Bool) (ops : List Op)
    (hops : Machine.Steps (step p) (Roomy p) (init mtu nowMicros ready) ops) :
    ∀ e ∈ (run p (init mtu nowMicros ready) ops).owed,
      (run p (init mtu nowMicros ready) ops).conn.shared.sendQueue.packet? e.1 = some e.2 :=
  (Machine.run_inv_of_steps (fun t op h hr => step_inv p t op h hr) (inv_init mtu nowMicros ready) hops).tracks

/-- datagram 0 whole, 1 and 2 fragments, then an ACK for 1 -/
def threeSends : List Op :=
  [.sendReliableFrame Conn.quietEnv [1], .sendFragmented (fun _ => Conn.quietEnv) (List.replicate 20 7),
    .handleAck ⟨[.single (U24.new 1)]⟩]

theorem transmitted_tracked_three :
    ((run .dev (init 90 0 false) threeSends).owed.map Prod.fst = [0, 2]) ∧
    ∀ e ∈ (run .dev (init 90 0 false) threeSends).owed,
      (run .dev (init 90 0 false) threeSends).conn.shared.sendQueue.packet? e.1 = some e.2 := by
  refine ⟨by decide +kernel, transmitted_tracked .dev 90 0 false threeSends ⟨?_, ?_, trivial, trivial⟩⟩
  · exact ⟨by decide +kernel, by decide +kernel⟩
  · exact ⟨by decide +kernel, by decide +kernel⟩

/-- `m` sends in a row are `sendMany` -/
theorem run_replicate_conn (p : Profile) (t : Tracked) (payload : Bytes) (m : Nat) :
    (run p t (List.replicate m (.sendReliableFrame Conn.quietEnv payload))).conn =
      Conn.sendMany payload m t.conn := by
  induction m with
  | zero => rfl
  | succ m ih =>
    rw [run, List.replicate_succ', Machine.run_snoc, ← run]
    show (Conn.sendReliableFrame Conn.quietEnv payload _).2 = _
    rw [ih]
    rfl

/-- 2049 sends on a socket that takes everything -/
def overfull : List Op := List.replicate 2049 (.sendReliableFrame Conn.quietEnv [1])

/-- **A transmitted datagram that nothing tracks.** The first 2048 sends fill the queue. The next one is transmitted and
reports `Ok`; its insertion was refused, so datagram 2048 is owed and not in the queue. -/
theorem full_queue_drops :
    (∃ c', Conn.sendReliableFrame Conn.quietEnv [1] (Conn.sendMany [1] 2048 (.new 1400 0 false)) = (.ok (), c')) ∧
    (∃ b, (2048, b) ∈ (run .dev (init 1400 0 false) overfull).owed) ∧
    (run .dev (init 1400 0 false) overfull).conn.shared.sendQueue.packet? 2048 = none := by
  have hmany := Conn.sentMany 1400 0 false [1] (m := 2048) (by norm_num)
  have hfull := Conn.sentMany 1400 0 false [1] (m := 2049) (by norm_num)
  have hconn := run_replicate_conn .dev (init 1400 0 false) [1] 2048
  have hlast : run .dev (init 1400 0 false) overfull =
      step .dev (run .dev (init 1400 0 false) (List.replicate 2048 (.sendReliableFrame Conn.quietEnv [1])))
        (.sendReliableFrame Conn.quietEnv [1]) := by
    rw [run, overfull, List.replicate_succ' (n := 2048), Machine.run_snoc]
    rfl
  have hqueue : (run .dev (init 1400 0 false) overfull).conn = Conn.sendMany [1] 2049 (.new 1400 0 false) :=
    run_replicate_conn .dev (init 1400 0 false) [1] 2049
  generalize run .dev (init 1400 0 false) (List.replicate 2048 (.sendReliableFrame Conn.quietEnv [1])) = t at hlast hconn
  change t.conn = Conn.sendMany [1] 2048 (.new 1400 0 false) at hconn
  rw [← hconn] at hmany ⊢
  obtain ⟨c', d, he, hsent⟩ := sendFrame_sent (rfl : Conn.quietEnv.sendError = none) [1] none t.conn
  refine ⟨⟨c', he⟩, ⟨d, ?_⟩, ?_⟩
  · have howed : (run .dev (init 1400 0 false) overfull).owed = t.owed ++ [d].map fun b => (seqOf b, b) := by
      rw [hlast]
      show t.owedAfterSend (Conn.sendFrame Conn.quietEnv [1] none t.conn) = _
      rw [he]
      exact owedAfterSend_ok t rfl hsent.sent
    have hnum : seqOf d = 2048 := by
      rw [hsent.seq, AtomicU24.load, hmany.counter, U24.get_new_of_lt (by norm_num)]
    rw [howed, ← hnum]
    exact List.mem_append_right _ (List.mem_singleton.2 rfl)
  · rw [hqueue]
    by_contra hne
    obtain ⟨b, hb⟩ := Option.ne_none_iff_exists'.1 hne
    have := (hfull.keys 2048).1 ((SendQueue.contains_iff _ 2048).2 ⟨b, hb⟩)
    omega

end Tracked

end RakNet
