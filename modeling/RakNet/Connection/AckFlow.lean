/-
Acknowledgements between the receive task and the tick task.

`handle_datagram` marks a number as received under the lock of the window, and records it under the lock of the pending list;
`flush_acks` takes the whole list under that lock, and encodes and sends it afterwards. `flush_nacks` does the same with the
other list, which nothing inserts into. Both tasks are cut into these steps here, with everything a number goes through kept
in view: the number that is marked and not recorded, the list that is taken and not encoded, and the lists that were handed
to `encode_ack`.

- `beginDatagram_steps`, `flush_steps`: the steps, put back together.
- `accepted_iff`: an accepted number is pending, taken or handed over, and nothing else is.
- `failed_flush_iff`: what was pending before a flush whose send fails is pending after it only if it was recorded again in
  between.
-/
import RakNet.Connection.Session

namespace RakNet

open Lib Lib.Wire

namespace Conn

open Action

/-- the list a flush works on: the pending ACKs, or the pending NACKs -/
def pendingOf (isAck : Bool) (c : Conn) : AckRangeList := if isAck then c.shared.pendingAcks else c.shared.pendingNacks

/-- `std::mem::replace(&mut *acks, AckRangeList::new())` -/
def clearPending (isAck : Bool) (c : Conn) : Conn :=
  { c with shared :=
    if isAck then { c.shared with pendingAcks := .new } else { c.shared with pendingNacks := .new } }

/-- the part of a flush behind the lock: encode the list and send it -/
def sendTaken (env : Env) (isAck : Bool) (l : AckRangeList) : Act Unit := do
  let packet := if isAck then encodeAck l else encodeNack l
  socketSend env packet
  recordSend env packet.length

/-- `flush_acks` or `flush_nacks` -/
def flush (isAck : Bool) (env : Env) : Act Unit := if isAck then flushAcks env else flushNacks env

/-- a flush of an empty list leaves it as it was -/
theorem clearPending_of_isEmpty {isAck : Bool} {c : Conn} (h : (pendingOf isAck c).ranges.isEmpty = true) :
    clearPending isAck c = c := by
  have hnew : pendingOf isAck c = .new := by
    cases hp : pendingOf isAck c with
    | mk ranges =>
      rw [hp] at h
      exact congrArg AckRangeList.mk (List.isEmpty_iff.1 h)
  unfold clearPending
  cases isAck with
  | true =>
    have hacks : c.shared.pendingAcks = .new := hnew
    rw [if_pos rfl, ← hacks]
  | false =>
    have hnacks : c.shared.pendingNacks = .new := hnew
    rw [if_neg (by decide), ← hnacks]

/-- **Both flushes take the list first**, and send it afterwards. -/
theorem flush_eq (isAck : Bool) (env : Env) (c : Conn) :
    flush isAck env c =
      (if (pendingOf isAck c).ranges.isEmpty then pure () else sendTaken env isAck (pendingOf isAck c))
        (clearPending isAck c) := by
  cases isAck <;> rfl

/-- both pending lists -/
def pendingView (c : Conn) : AckRangeList × AckRangeList := (c.shared.pendingAcks, c.shared.pendingNacks)

theorem pending_sendTaken (env : Env) (isAck : Bool) (l : AckRangeList) (c : Conn) :
    pendingView (sendTaken env isAck l c).2 = pendingView c :=
  ((preserves_socketSend env _).bind fun _ => fun _ => rfl).comp pendingView c

/-- **Frames do not touch the pending lists.** -/
theorem pending_handleFrame (p : Profile) (env : Env) (f : Frame) (c : Conn) :
    pendingView (handleFrame p env f c).2 = pendingView c :=
  (preserves_handleFrame p env f).comp Prod.snd c

end Conn

open Conn

/-! ## The steps of both tasks -/

structure AckFlow where
  conn : Conn
  /-- the number the receive task has marked and not recorded yet -/
  marked : Option U24
  /-- the list the tick task has taken and not encoded yet, and whether it is one of ACKs -/
  taken : Option (Bool × AckRangeList)
  /-- the numbers `mark_received` has accepted -/
  accepted : List U24
  /-- the lists handed to `encode_ack` -/
  handed : List AckRangeList

namespace AckFlow

inductive Op where
  /-- `handle_datagram`: `window.mark_received(seq)` -/
  | mark (seq : U24)
  /-- `handle_datagram`: `acks.insert(seq)` -/
  | record
  /-- `handle_datagram`: a round of its frame loop -/
  | frame (env : Env) (f : Frame)
  /-- `flush_acks` or `flush_nacks`: the list is taken, if it is not empty -/
  | take (isAck : Bool)
  /-- `flush_acks` or `flush_nacks`: the list is encoded and sent -/
  | send (env : Env)

/-- a step of `handle_datagram` -/
def Op.receives : Op → Bool
  | mark _ | record | frame _ _ => true
  | take _ | send _ => false

def step (p : Profile) (s : AckFlow) : Op → AckFlow
  | .mark seq =>
    match s.marked with
    | some _ => s
    | none =>
      if (s.conn.shared.recvWindow.markReceived seq.get).1 = some true then
        { s with conn := (markReceived seq s.conn).2, marked := some seq, accepted := s.accepted ++ [seq] }
      else { s with conn := (markReceived seq s.conn).2 }
  | .record =>
    match s.marked with
    | none => s
    | some seq => { s with conn := (recordAck seq s.conn).2, marked := none }
  | .frame env f =>
    match s.marked with
    | some _ => s
    | none => { s with conn := (handleFrame p env f s.conn).2 }
  | .take isAck =>
    match s.taken with
    | some _ => s
    | none =>
      if (pendingOf isAck s.conn).ranges.isEmpty then s
      else { s with conn := clearPending isAck s.conn, taken := some (isAck, pendingOf isAck s.conn) }
  | .send env =>
    match s.taken with
    | none => s
    | some (isAck, l) =>
      { s with
        conn := (sendTaken env isAck l s.conn).2
        taken := none
        handed := if isAck then s.handed ++ [l] else s.handed }

def run (p : Profile) (s : AckFlow) (ops : List Op) : AckFlow := Machine.run (step p) s ops

def init (mtu : UInt16) (nowMicros : Nat) (ready : Bool) : AckFlow := ⟨.new mtu nowMicros ready, none, none, [], []⟩

/-! ### The steps put back together -/

/-- the two steps of `handle_datagram` before its frame loop -/
theorem beginDatagram_steps (p : Profile) {s : AckFlow} (h : s.marked = none) (seq : U24) (framesData : Bytes) :
    (run p s [.mark seq, .record]).conn = (beginDatagram seq framesData s.conn).2 := by
  have hbegin : beginDatagram seq framesData s.conn =
      (if (s.conn.shared.recvWindow.markReceived seq.get).1 = some true then (do
          recordAck seq
          return some framesData : Act (Option Bytes)) else pure none) (markReceived seq s.conn).2 := rfl
  rw [hbegin]
  simp only [run, Machine.run_cons, Machine.run_nil, step, h]
  by_cases hnew : (s.conn.shared.recvWindow.markReceived seq.get).1 = some true
  · rw [if_pos hnew, if_pos hnew]
    rfl
  · rw [if_neg hnew, if_neg hnew]
    rfl

/-- the two steps of `flush_acks` or `flush_nacks` -/
theorem flush_steps (p : Profile) {s : AckFlow} (h : s.taken = none) (isAck : Bool) (env : Env) :
    (run p s [.take isAck, .send env]).conn = (flush isAck env s.conn).2 := by
  rw [flush_eq]
  simp only [run, Machine.run_cons, Machine.run_nil, step, h]
  by_cases hempty : (pendingOf isAck s.conn).ranges.isEmpty = true
  · rw [if_pos hempty, if_pos hempty, clearPending_of_isEmpty hempty, h]
    rfl
  · rw [if_neg hempty, if_neg hempty]

/-! ## Nothing is lost between the tasks -/

/-- the number is in one of the places between `mark_received` and `encode_ack` -/
def Holds (s : AckFlow) (x : U24) : Prop :=
  s.conn.shared.pendingAcks.Mem x ∨ (∃ l, s.taken = some (true, l) ∧ l.Mem x) ∨ ∃ l ∈ s.handed, l.Mem x

/-- an accepted number is about to be recorded, or in one of the places -/
structure Inv (s : AckFlow) : Prop where
  pending : s.conn.shared.pendingAcks.Inv
  exact : ∀ x, x ∈ s.accepted ↔ s.marked = some x ∨ s.Holds x

theorem inv_init (mtu : UInt16) (nowMicros : Nat) (ready : Bool) : (init mtu nowMicros ready).Inv := by
  refine ⟨AckRangeList.inv_new, ?_⟩
  intro x
  have hnew : ¬ (init mtu nowMicros ready).conn.shared.pendingAcks.Mem x := AckRangeList.not_mem_new x
  simp [Holds, hnew]
  simp [init]

/-- a step that leaves the list and everything beside the connection alone -/
theorem Inv.of_same {s t : AckFlow} (h : s.Inv) (hpending : t.conn.shared.pendingAcks = s.conn.shared.pendingAcks)
    (hmarked : t.marked = s.marked) (htaken : t.taken = s.taken) (haccepted : t.accepted = s.accepted)
    (hhanded : t.handed = s.handed) : t.Inv := by
  refine ⟨hpending ▸ h.pending, ?_⟩
  intro x
  unfold Holds
  rw [hpending, hmarked, htaken, haccepted, hhanded]
  exact h.exact x

theorem Inv.mark {p : Profile} {s : AckFlow} (h : s.Inv) (seq : U24) : (s.step p (.mark seq)).Inv := by
  unfold step
  cases hm : s.marked with
  | some y => exact h
  | none =>
    dsimp only
    split_ifs
    · refine ⟨h.pending, ?_⟩
      intro x
      have hx := h.exact x
      rw [hm] at hx
      have hin : x ∈ s.accepted ↔ s.Holds x := by simpa using hx
      calc x ∈ s.accepted ++ [seq] ↔ x ∈ s.accepted ∨ x = seq := by rw [List.mem_append, List.mem_singleton]
        _ ↔ s.Holds x ∨ x = seq := by rw [hin]
        _ ↔ some seq = some x ∨ s.Holds x := by rw [Option.some.injEq, or_comm, eq_comm]
    · exact h.of_same rfl hm.symm rfl rfl rfl

theorem Inv.record {p : Profile} {s : AckFlow} (h : s.Inv) : (s.step p .record).Inv := by
  unfold step
  cases hm : s.marked with
  | none => exact h
  | some seq =>
    refine ⟨AckRangeList.insert_inv h.pending seq, ?_⟩
    intro x
    have hx := h.exact x
    rw [hm, Option.some.injEq] at hx
    have hmem : (s.conn.shared.pendingAcks.insert seq).Mem x ↔ s.conn.shared.pendingAcks.Mem x ∨ x = seq :=
      AckRangeList.mem_insert h.pending seq x
    have hnone : (none : Option U24) ≠ some x := by simp
    unfold Holds at hx ⊢
    dsimp only [recordAck, modifyShared, Action.modify_apply]
    rw [hmem, hx, or_iff_right hnone, eq_comm, ← or_assoc, or_comm (a := x = seq)]

theorem Inv.take {p : Profile} {s : AckFlow} (h : s.Inv) (isAck : Bool) : (s.step p (.take isAck)).Inv := by
  unfold step
  cases ht : s.taken with
  | some t => exact h
  | none =>
    dsimp only
    split_ifs
    · exact h
    · cases isAck with
      | true =>
        -- the list changes its place
        refine ⟨AckRangeList.inv_new, ?_⟩
        intro x
        have hx := h.exact x
        have hnew : ¬ (clearPending true s.conn).shared.pendingAcks.Mem x := AckRangeList.not_mem_new x
        unfold Holds at hx ⊢
        rw [ht] at hx
        simp only [hnew, false_or, Option.some.injEq, Prod.mk.injEq, true_and, exists_eq_left']
        simpa [pendingOf] using hx
      | false =>
        refine ⟨h.pending, ?_⟩
        intro x
        have hx := h.exact x
        have hsame : (clearPending false s.conn).shared.pendingAcks = s.conn.shared.pendingAcks := rfl
        unfold Holds at hx ⊢
        dsimp only
        rw [ht] at hx
        rw [hsame]
        simpa using hx

theorem Inv.send {p : Profile} {s : AckFlow} (h : s.Inv) (env : Env) : (s.step p (.send env)).Inv := by
  unfold step
  cases ht : s.taken with
  | none => exact h
  | some t =>
    obtain ⟨isAck, l⟩ := t
    have hpending : (sendTaken env isAck l s.conn).2.shared.pendingAcks = s.conn.shared.pendingAcks :=
      congrArg Prod.fst (pending_sendTaken env isAck l s.conn)
    refine ⟨hpending ▸ h.pending, ?_⟩
    intro x
    have hx := h.exact x
    unfold Holds at hx ⊢
    rw [ht] at hx
    dsimp only
    rw [hpending, hx]
    cases isAck with
    | true => simp [or_and_right, exists_or, or_comm]
    | false => simp

theorem Inv.step {p : Profile} {s : AckFlow} (h : s.Inv) (op : Op) : (s.step p op).Inv := by
  cases op with
  | mark seq => exact h.mark seq
  | record => exact h.record
  | frame env f =>
    unfold AckFlow.step
    cases hm : s.marked with
    | some y => exact h
    | none =>
      exact h.of_same (congrArg Prod.fst (pending_handleFrame p env f s.conn)) hm.symm rfl rfl rfl
  | take isAck => exact h.take isAck
  | send env => exact h.send env

/-- **Nothing is lost between the tasks.** At every point of a run where no `handle_datagram` is between its two steps, the
accepted numbers are exactly those that are pending, taken by a flush, or in a list that was handed to `encode_ack`. -/
theorem accepted_iff (p : Profile) (mtu : UInt16) (nowMicros : Nat) (ready : Bool) (ops : List Op)
    (h : (run p (init mtu nowMicros ready) ops).marked = none) (x : U24) :
    x ∈ (run p (init mtu nowMicros ready) ops).accepted ↔ (run p (init mtu nowMicros ready) ops).Holds x := by
  have hinv : (run p (init mtu nowMicros ready) ops).Inv :=
    Machine.run_inv (fun _ op hs => hs.step op) (inv_init mtu nowMicros ready) ops
  have hx := hinv.exact x
  rw [h] at hx
  simpa using hx

/-- a datagram is marked and recorded, and a flush takes the list -/
def takenFlush : List Op := [.mark (U24.new 7), .record, .take true]

theorem accepted_iff_taken :
    (run .dev (init 1500 0 false) takenFlush).marked = none ∧ (run .dev (init 1500 0 false) takenFlush).Holds (U24.new 7) :=
  ⟨by decide, (accepted_iff .dev 1500 0 false takenFlush (by decide) (U24.new 7)).1 (by decide)⟩

/-- **Between the lock and the encoder** an accepted number is neither pending nor in a list that was handed over. -/
theorem taken_not_handed :
    (run .dev (init 1500 0 false) takenFlush).marked = none ∧
      ¬ ∀ x, x ∈ (run .dev (init 1500 0 false) takenFlush).accepted ↔
        (run .dev (init 1500 0 false) takenFlush).conn.shared.pendingAcks.Mem x ∨
          ∃ l ∈ (run .dev (init 1500 0 false) takenFlush).handed, l.Mem x := by
  have hpending : (run .dev (init 1500 0 false) takenFlush).conn.shared.pendingAcks = .new := by decide
  have hhanded : (run .dev (init 1500 0 false) takenFlush).handed = [] := by decide
  refine ⟨by decide, ?_⟩
  intro h
  rcases (h (U24.new 7)).1 (by decide) with hp | ⟨l, hl, -⟩
  · rw [hpending] at hp
    exact AckRangeList.not_mem_new _ hp
  · rw [hhanded] at hl
    cases hl

/-! ## Flushes that fail -/

/-- the numbers the steps of `handle_datagram` in a run record -/
def recorded (p : Profile) : AckFlow → List Op → List U24
  | _, [] => []
  | s, .record :: ops => s.marked.toList ++ recorded p (step p s .record) ops
  | s, op :: ops => recorded p (step p s op) ops

/-- what a step of `handle_datagram` does to the pending lists, while a flush is under way or not -/
theorem pending_step_receives {p : Profile} {s : AckFlow} {op : Op} (h : op.receives = true) :
    (step p s op).conn.shared.pendingAcks = s.conn.shared.pendingAcks.insertAll (recorded p s [op]) ∧
      (step p s op).conn.shared.pendingNacks = s.conn.shared.pendingNacks ∧ (step p s op).taken = s.taken := by
  cases op with
  | mark seq =>
    unfold step
    cases s.marked with
    | some y => exact ⟨rfl, rfl, rfl⟩
    | none =>
      dsimp only
      split_ifs <;> exact ⟨rfl, rfl, rfl⟩
  | record =>
    unfold recorded step
    cases s.marked with
    | none => exact ⟨rfl, rfl, rfl⟩
    | some seq => exact ⟨rfl, rfl, rfl⟩
  | frame env f =>
    unfold step
    cases s.marked with
    | some y => exact ⟨rfl, rfl, rfl⟩
    | none =>
      have hview := pending_handleFrame p env f s.conn
      exact ⟨congrArg Prod.fst hview, congrArg Prod.snd hview, rfl⟩
  | take isAck | send env => cases h

/-- and what a run of such steps does -/
theorem pending_run_receives (p : Profile) (s : AckFlow) {ops : List Op} (h : ∀ op ∈ ops, op.receives = true) :
    (run p s ops).conn.shared.pendingAcks = s.conn.shared.pendingAcks.insertAll (recorded p s ops) ∧
      (run p s ops).conn.shared.pendingNacks = s.conn.shared.pendingNacks ∧ (run p s ops).taken = s.taken := by
  induction ops generalizing s with
  | nil => exact ⟨rfl, rfl, rfl⟩
  | cons op ops ih =>
    obtain ⟨hacks, hnacks, htaken⟩ := pending_step_receives (p := p) (s := s) (h op List.mem_cons_self)
    obtain ⟨hacks', hnacks', htaken'⟩ := ih (step p s op) fun o ho => h o (List.mem_cons_of_mem _ ho)
    have hrec : recorded p s (op :: ops) = recorded p s [op] ++ recorded p (step p s op) ops := by
      cases op with
      | record => simp [recorded]
      | _ => rfl
    refine ⟨?_, hnacks'.trans hnacks, htaken'.trans htaken⟩
    calc (run p (step p s op) ops).conn.shared.pendingAcks
        = (step p s op).conn.shared.pendingAcks.insertAll (recorded p (step p s op) ops) := hacks'
      _ = (s.conn.shared.pendingAcks.insertAll (recorded p s [op])).insertAll (recorded p (step p s op) ops) := by
          rw [hacks]
      _ = s.conn.shared.pendingAcks.insertAll (recorded p s (op :: ops)) := by
          rw [hrec, AckRangeList.insertAll_append]

/-- nothing is pending when a flush has taken its list -/
theorem pendingOf_take (p : Profile) {s : AckFlow} (h : s.taken = none) (isAck : Bool) :
    pendingOf isAck (step p s (.take isAck)).conn = .new := by
  have hclear : pendingOf isAck (clearPending isAck s.conn) = .new := by cases isAck <;> rfl
  unfold step
  rw [h]
  dsimp only
  split_ifs with hempty
  · rw [← clearPending_of_isEmpty hempty]
    exact hclear
  · exact hclear

/-- a send leaves the pending lists alone, whatever comes of it -/
theorem pendingOf_send (p : Profile) (s : AckFlow) (isAck : Bool) (env : Env) :
    pendingOf isAck (step p s (.send env)).conn = pendingOf isAck s.conn := by
  unfold step
  cases s.taken with
  | none => rfl
  | some t =>
    have hview := pending_sendTaken env t.1 t.2 s.conn
    cases isAck with
    | true => exact congrArg Prod.fst hview
    | false => exact congrArg Prod.snd hview

/-- a flush: its list is taken, steps of `handle_datagram` come in between, and it is sent -/
def flushRun (isAck : Bool) (between : List Op) (env : Env) : List Op := .take isAck :: (between ++ [.send env])

/-- what is pending after a flush -/
theorem mem_pendingOf_flush (p : Profile) {s : AckFlow} (isAck : Bool) {between : List Op} (env : Env)
    (htaken : s.taken = none) (hbetween : ∀ op ∈ between, op.receives = true) (x : U24) :
    (pendingOf isAck (run p s (flushRun isAck between env)).conn).Mem x ↔
      isAck = true ∧ x ∈ recorded p (step p s (.take isAck)) between := by
  obtain ⟨hacks, hnacks, -⟩ := pending_run_receives p (step p s (.take isAck)) hbetween
  have htake := pendingOf_take p htaken isAck
  rw [run, flushRun, Machine.run_cons, Machine.run_snoc, pendingOf_send]
  cases isAck with
  | true =>
    have hafter : pendingOf true (Machine.run (step p) (step p s (.take true)) between).conn =
        AckRangeList.new.insertAll (recorded p (step p s (.take true)) between) := by
      rw [← htake]
      exact hacks
    rw [hafter, AckRangeList.mem_new_insertAll]
    simp
  | false =>
    have hafter : pendingOf false (Machine.run (step p) (step p s (.take false)) between).conn = .new := by
      rw [← htake]
      exact hnacks
    rw [hafter]
    simpa using AckRangeList.not_mem_new x

/-- if the send of a flush fails, what was pending before the flush is pending after it -/
def KeepsPending (p : Profile) (s : AckFlow) (isAck : Bool) (between : List Op) (env : Env) : Prop :=
  env.sendError.isSome = true → ∀ x, (pendingOf isAck s.conn).Mem x →
    (pendingOf isAck (run p s (flushRun isAck between env)).conn).Mem x

/-- **Flushes that fail.** For every pending list and every interleaving with steps of `handle_datagram`, a flush keeps what
is pending if and only if its send does not fail, or everything on its list is recorded again in between; that can be so for
ACKs only. -/
theorem failed_flush_iff (p : Profile) (s : AckFlow) (isAck : Bool) (between : List Op) (env : Env)
    (htaken : s.taken = none) (hbetween : ∀ op ∈ between, op.receives = true) :
    KeepsPending p s isAck between env ↔ (env.sendError.isSome = true → ∀ x, (pendingOf isAck s.conn).Mem x →
      isAck = true ∧ x ∈ recorded p (step p s (.take isAck)) between) := by
  unfold KeepsPending
  refine forall_congr' fun _ => forall_congr' fun x => imp_congr_right fun _ => ?_
  exact mem_pendingOf_flush p isAck env htaken hbetween x

/-- one number is pending -/
def onePending : AckFlow := run .dev (init 1500 0 false) [.mark (U24.new 7), .record]

/-- a socket that fails -/
def failingEnv : Env := { quietEnv with sendError := some "unreachable" }

theorem failed_flush_iff_one :
    onePending.taken = none ∧ (KeepsPending .dev onePending true [] failingEnv ↔
      (failingEnv.sendError.isSome = true → ∀ x, (pendingOf true onePending.conn).Mem x →
        true = true ∧ x ∈ recorded .dev (step .dev onePending (.take true)) [])) := by
  have htaken : onePending.taken = none := by decide
  exact ⟨htaken, failed_flush_iff .dev onePending true [] failingEnv htaken (by simp)⟩

/-- **A flush that fails drops its list.** -/
theorem failed_flush_drops :
    pendingOf true (run .dev onePending (flushRun true [] failingEnv)).conn = .new ∧
      ¬ KeepsPending .dev onePending true [] failingEnv := by
  have hafter : pendingOf true (run .dev onePending (flushRun true [] failingEnv)).conn = .new := by decide
  refine ⟨hafter, ?_⟩
  intro h
  have hx := h rfl (U24.new 7) ⟨.single (U24.new 7), by decide, by decide⟩
  rw [hafter] at hx
  exact AckRangeList.not_mem_new _ hx

end AckFlow

end RakNet
