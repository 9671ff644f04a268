/-
Order indices and sends that fail.

`send_reliable_frame` and each round of `send_fragmented` take a message index, an order index and a sequence number before
they hand the datagram to the socket, and put it in the send queue afterwards. Two tasks send: the receive task answers a
`ConnectionRequest`, only logs a failed send and carries on; the send task ends with it.

- `sendFrame_steps`, `sendReliableFrame_steps`, `message_steps`: the steps of a task put back together are the functions of
  the send path.
- `none_lost_iff`: every order index belongs to a frame of its own that was transmitted or is on its way, in every state of a
  run, exactly when the socket takes every datagram of the run.
- `failed_send_leaves_hole`: order index 0 is used up by a send that fails, and the peer waits for it.
-/
import RakNet.Connection.Messages
import RakNet.Connection.Run

namespace RakNet

open Lib Lib.Wire Conn

/-! ## Two tasks that send -/

/-- a task: the frames its present call still has to send, the first of them on its way, and whether it has ended -/
structure Task where
  frames : List (Bytes × Option SplitInfo)
  stage : SendStage
  ended : Bool
deriving DecidableEq, Repr

inductive Who where
  | receiveTask
  | sendTask
deriving DecidableEq, Repr

structure Senders where
  conn : Conn
  receiveTask : Task
  sendTask : Task
  /-- what `next_order_index(0)` has returned so far, oldest first -/
  allotted : List U24

namespace Senders

def task (s : Senders) : Who → Task
  | .receiveTask => s.receiveTask
  | .sendTask => s.sendTask

def setTask (s : Senders) (t : Task) : Who → Senders
  | .receiveTask => { s with receiveTask := t }
  | .sendTask => { s with sendTask := t }

/-- the fragments of `send_fragmented` -/
def fragmentParts (p : Profile) (data : Bytes) : Act (List (Bytes × Option SplitInfo)) := do
  let splitId ← onShared SharedState.nextSplitId
  let c ← Action.get
  let chunkSize ← Action.lift (p.sub 64 c.shared.mtu.toNat 80)
  let sum ← Action.lift (p.add 64 data.length chunkSize)
  let padded ← Action.lift (p.sub 64 sum 1)
  if chunkSize = 0 then Action.lift .panic
  else return headed splitId (UInt32.ofNat (padded / chunkSize)) 0 (chunks data chunkSize)

/-- the frames `send_task` makes of a message -/
def messageParts (p : Profile) (data : Bytes) : Act (List (Bytes × Option SplitInfo)) := do
  let c ← Action.get
  let maxSingleFrameSize ← Action.lift (p.sub 64 c.shared.mtu.toNat 60)
  if data.length ≤ maxSingleFrameSize then return [(data, none)]
  else fragmentParts p data

inductive Op where
  /-- `handle_connection_request` calls `send_reliable_frame` -/
  | sendReliableFrame (payload : Bytes)
  /-- `send_task` takes a message from its channel -/
  | message (data : Bytes)
  /-- the next step of a task that is sending -/
  | advance (who : Who) (env : Env)
  | handleAck (ranges : AckRangeList)
  | checkRetransmissions (envs : Nat → Env)
  | markDisconnected

def sendReliableFrame (s : Senders) (payload : Bytes) : Senders :=
  match s.receiveTask.frames with
  | [] => { s with receiveTask := { s.receiveTask with frames := [(payload, none)] } }
  | _ :: _ => s

/-- a message is looked at when the one before it is through; a closed connection or a panic ends the task -/
def message (p : Profile) (s : Senders) (data : Bytes) : Senders :=
  match s.sendTask.frames with
  | [] =>
    if s.sendTask.ended then s
    else if s.conn.shared.isClosed then { s with sendTask := ⟨[], .start, true⟩ }
    else match messageParts p data s.conn with
      | (.ok frames, c) => { s with conn := c, sendTask := { s.sendTask with frames := frames } }
      | (_, c) => { s with conn := c, sendTask := ⟨[], .start, true⟩ }
  | _ :: _ => s

/-- one step of a send; if it fails the call is over, and the send task with it -/
def advance (s : Senders) (who : Who) (env : Env) : Senders :=
  match (s.task who).frames with
  | [] => s
  | (payload, split) :: rest =>
    match (s.task who).stage.next env payload split s.conn with
    | (.ok (some stage), c) =>
      { s with conn := c, allotted := s.allotted ++ (s.task who).stage.allots s.conn }.setTask
        { s.task who with stage := stage } who
    | (.ok none, c) => { s with conn := c }.setTask { s.task who with frames := rest, stage := .start } who
    | (_, c) => { s with conn := c }.setTask ⟨[], .start, who == Who.sendTask⟩ who

def step (p : Profile) (s : Senders) : Op → Senders
  | .sendReliableFrame payload => s.sendReliableFrame payload
  | .message data => s.message p data
  | .advance who env => s.advance who env
  | .handleAck ranges => { s with conn := (Conn.handleAck ranges s.conn).2 }
  | .checkRetransmissions envs => { s with conn := (Conn.checkRetransmissions envs s.conn).2 }
  | .markDisconnected => { s with conn := { s.conn with shared := s.conn.shared.markDisconnected } }

def run (p : Profile) (s : Senders) (ops : List Op) : Senders := Machine.run (step p) s ops

def init (mtu : UInt16) (nowMicros : Nat) (ready : Bool) : Senders :=
  ⟨.new mtu nowMicros ready, ⟨[], .start, false⟩, ⟨[], .start, false⟩, []⟩

/-- the order indices of frames that are on their way to the socket -/
def held (s : Senders) : List U24 := s.receiveTask.stage.held ++ s.sendTask.stage.held

/-- every order index handed out so far is that of a frame of its own, on its way or transmitted, and the datagram of each
frame counted as transmitted was taken by the socket or is in the send queue -/
structure NoneLost (s : Senders) : Prop where
  own : s.allotted.Subperm (s.conn.framesSent.filterMap (·.orderIndex) ++ s.held)
  carried : ∀ f ∈ s.conn.framesSent, ∃ seq, encodeDatagram seq [f.encode] ∈ s.conn.sent ∨
    ∃ key, s.conn.shared.sendQueue.packet? key = some (encodeDatagram seq [f.encode])

/-- the socket takes the datagram, if the step hands one to it -/
def SocketTakes (s : Senders) : Op → Prop
  | .advance who env => ∀ seq frame datagram, (s.task who).stage = .built seq frame datagram → env.sendError = none
  | _ => True

end Senders

/-! ## What a step of a send does -/

theorem orderIndex_buildFrame (payload : Bytes) (messageIndex orderIndex : U24) (split : Option SplitInfo) :
    (buildFrame payload messageIndex orderIndex split).orderIndex = some orderIndex := by
  cases split <;> rfl

namespace Conn.SendStage

/-- the frame of an encoded datagram has an order index, and the datagram has the frame -/
def Sound : SendStage → Prop
  | .built seq frame datagram => frame.orderIndex.isSome = true ∧ datagram = encodeDatagram seq [frame.encode]
  | _ => True

/-- the send goes on: the order index it takes is held from then on, until its frame is transmitted -/
structure Moves (st st' : SendStage) (c c' : Conn) : Prop where
  sound : st.Sound → st'.Sound
  sent : ∀ d ∈ c.sent, d ∈ c'.sent
  frames : ∃ fs, c'.framesSent = c.framesSent ++ fs ∧ fs.filterMap (·.orderIndex) ++ st'.held = st.allots c ++ st.held ∧
    (st.Sound → ∀ f ∈ fs, ∃ seq, encodeDatagram seq [f.encode] ∈ c'.sent)

/-- **One step of a send**: it goes on, it is through, or the socket fails and nothing is left of it. -/
theorem next_cases (env : Env) (payload : Bytes) (split : Option SplitInfo) (st : SendStage) (c : Conn) :
    (∃ st' c', st.next env payload split c = (.ok (some st'), c') ∧ Moves st st' c c') ∨
    (∃ seq d, st = .transmitted seq d ∧ st.next env payload split c = (.ok none, (track env seq d c).2)) ∨
    (∃ seq f d msg, st = .built seq f d ∧ env.sendError = some msg ∧
      st.next env payload split c = (.err (.io msg), c)) := by
  have hsame : ∀ d ∈ c.sent, d ∈ c.sent := fun _ hd => hd
  cases st with
  | start => exact Or.inl ⟨_, _, rfl, fun _ => trivial, hsame, [], (List.append_nil _).symm, rfl, fun _ f hf => by cases hf⟩
  | numbered messageIndex =>
    exact Or.inl ⟨_, _, rfl, fun _ => trivial, hsame, [], (List.append_nil _).symm, rfl, fun _ f hf => by cases hf⟩
  | ordered messageIndex orderIndex =>
    refine Or.inl ⟨_, _, rfl, ?_, hsame, [], (List.append_nil _).symm, ?_, fun _ f hf => by cases hf⟩
    · intro _
      exact ⟨by rw [orderIndex_buildFrame]; rfl, rfl⟩
    · show (buildFrame payload messageIndex orderIndex split).orderIndex.toList = [orderIndex]
      rw [orderIndex_buildFrame]
      rfl
  | built seq frame datagram =>
    unfold next
    cases henv : env.sendError with
    | some msg =>
      refine Or.inr (Or.inr ⟨seq, frame, datagram, msg, rfl, rfl, ?_⟩)
      rw [Action.bind_of_err (transmit_err henv frame datagram c)]
    | none =>
      refine Or.inl ⟨.transmitted seq datagram, Conn.transmitted env frame datagram c, ?_, fun _ => trivial, ?_, [frame], rfl, ?_, ?_⟩
      · rw [Action.bind_of_ok (transmit_ok henv frame datagram c)]
        rfl
      · intro d hd
        exact List.mem_append_left _ hd
      · show [frame].filterMap (·.orderIndex) ++ [] = [] ++ frame.orderIndex.toList
        cases hidx : frame.orderIndex <;> simp [hidx]
      · rintro ⟨-, hd⟩ f hf
        rw [List.mem_singleton.1 hf]
        exact ⟨seq, List.mem_append_right _ (List.mem_singleton.2 hd.symm)⟩
  | transmitted seq datagram => exact Or.inr (Or.inl ⟨seq, datagram, rfl, rfl⟩)

end Conn.SendStage

/-- the datagram of a task is that of its frame, and between two calls nothing is on its way -/
structure Task.Sound (t : Task) : Prop where
  stage : t.stage.Sound
  idle : t.frames = [] → t.stage = .start

namespace Senders

/-! ## The invariant -/

@[simp] theorem task_setTask (s : Senders) (t : Task) (who other : Who) :
    (s.setTask t who).task other = if other = who then t else s.task other := by
  cases who <;> cases other <;> rfl

@[simp] theorem conn_setTask (s : Senders) (t : Task) (who : Who) : (s.setTask t who).conn = s.conn := by cases who <;> rfl

@[simp] theorem allotted_setTask (s : Senders) (t : Task) (who : Who) : (s.setTask t who).allotted = s.allotted := by
  cases who <;> rfl

/-- a task is replaced, and the tasks are left alone otherwise -/
theorem sound_setTask {s u : Senders} (hu : u.receiveTask = s.receiveTask ∧ u.sendTask = s.sendTask) {t : Task} {who : Who}
    (h : ∀ w, (s.task w).Sound) (ht : t.Sound) : ∀ w, ((u.setTask t who).task w).Sound := by
  intro w
  rw [task_setTask]
  split_ifs
  · exact ht
  · cases w with
    | receiveTask =>
      rw [task, hu.1]
      exact h .receiveTask
    | sendTask =>
      rw [task, hu.2]
      exact h .sendTask

/-- a task's share of the order indices that are held -/
theorem count_held_setTask (s : Senders) (t : Task) (who : Who) (o : U24) :
    (s.setTask t who).held.count o + (s.task who).stage.held.count o = s.held.count o + t.stage.held.count o := by
  cases who <;> simp only [held, setTask, task, List.count_append] <;> omega

/-- as long as the socket takes everything: order indices are held or transmitted, one for one -/
structure Inv (s : Senders) : Prop where
  own : ∀ o, s.allotted.count o = (s.conn.framesSent.filterMap (·.orderIndex)).count o + s.held.count o
  carried : ∀ f ∈ s.conn.framesSent, ∃ seq, encodeDatagram seq [f.encode] ∈ s.conn.sent
  tasks : ∀ who, (s.task who).Sound

theorem inv_init (mtu : UInt16) (nowMicros : Nat) (ready : Bool) : (init mtu nowMicros ready).Inv := by
  refine ⟨fun _ => rfl, fun f hf => (by cases hf), ?_⟩
  rintro (_ | _) <;> exact ⟨trivial, fun _ => rfl⟩

theorem Inv.noneLost {s : Senders} (h : s.Inv) : s.NoneLost := by
  refine ⟨?_, ?_⟩
  · apply List.subperm_ext_iff.2
    intro o _
    rw [List.count_append, h.own o]
  · intro f hf
    obtain ⟨seq, hsent⟩ := h.carried f hf
    exact ⟨seq, Or.inl hsent⟩

/-- a step that leaves the sends alone, and takes nothing back from the socket -/
theorem Inv.frame {s t : Senders} (h : s.Inv) (hallotted : t.allotted = s.allotted)
    (hframes : t.conn.framesSent = s.conn.framesSent) (hsent : ∀ d ∈ s.conn.sent, d ∈ t.conn.sent)
    (hstage : ∀ who, (t.task who).stage = (s.task who).stage)
    (htasks : ∀ who, (t.task who).Sound) : t.Inv := by
  have hheld : t.held = s.held := by
    have hreceive := hstage .receiveTask
    have hsend := hstage .sendTask
    simp only [task] at hreceive hsend
    rw [held, held, hreceive, hsend]
  refine ⟨?_, ?_, htasks⟩
  · intro o
    rw [hallotted, hframes, hheld]
    exact h.own o
  · intro f hf
    rw [hframes] at hf
    obtain ⟨seq, hd⟩ := h.carried f hf
    exact ⟨seq, hsent _ hd⟩

/-- a step that leaves both tasks alone -/
theorem Inv.setConn {s : Senders} (h : s.Inv) {c : Conn} (hframes : c.framesSent = s.conn.framesSent)
    (hsent : ∀ d ∈ s.conn.sent, d ∈ c.sent) : ({ s with conn := c } : Senders).Inv := by
  refine h.frame rfl hframes hsent ?_ ?_
  · rintro (_ | _) <;> rfl
  · rintro (_ | _)
    · exact h.tasks .receiveTask
    · exact h.tasks .sendTask

/-- a step of a send that goes on -/
theorem Inv.moves {s : Senders} (h : s.Inv) {who : Who} {stage : SendStage} {c : Conn}
    (hframes : (s.task who).frames ≠ []) (hmoves : SendStage.Moves (s.task who).stage stage s.conn c) :
    ({ s with conn := c, allotted := s.allotted ++ (s.task who).stage.allots s.conn }.setTask
      { s.task who with stage := stage } who).Inv := by
  obtain ⟨fs, hfs, hindices, hcarried⟩ := hmoves.frames
  refine ⟨?_, ?_, ?_⟩
  · intro o
    have hheld := count_held_setTask { s with conn := c, allotted := s.allotted ++ (s.task who).stage.allots s.conn }
      { s.task who with stage := stage } who o
    have hown := h.own o
    have hcount := congrArg (List.count o) hindices
    simp only [List.count_append] at hcount
    rw [allotted_setTask, conn_setTask]
    dsimp only
    rw [hfs, List.filterMap_append, List.count_append, List.count_append]
    have hsame : ({ s with conn := c, allotted := s.allotted ++ (s.task who).stage.allots s.conn } : Senders).held =
        s.held := rfl
    have htask : ({ s with conn := c, allotted := s.allotted ++ (s.task who).stage.allots s.conn } : Senders).task who =
        s.task who := by cases who <;> rfl
    rw [hsame, htask] at hheld
    dsimp only at hheld
    omega
  · intro f hf
    rw [conn_setTask] at hf ⊢
    dsimp only at hf ⊢
    rw [hfs] at hf
    rcases List.mem_append.1 hf with hf | hf
    · obtain ⟨seq, hd⟩ := h.carried f hf
      exact ⟨seq, hmoves.sent _ hd⟩
    · exact hcarried (h.tasks who).stage f hf
  · refine sound_setTask ⟨rfl, rfl⟩ h.tasks ?_
    exact ⟨hmoves.sound (h.tasks who).stage, fun hnil => absurd hnil hframes⟩

/-! ## Steps -/

/-- the last step of a send: the frame is through -/
theorem Inv.through {s : Senders} (h : s.Inv) {who : Who} {seq : U24} {d : Bytes} {env : Env}
    (hstage : (s.task who).stage = .transmitted seq d) (rest : List (Bytes × Option SplitInfo)) :
    ({ s with conn := (track env seq d s.conn).2 }.setTask { s.task who with frames := rest, stage := .start } who).Inv := by
  refine ⟨?_, ?_, ?_⟩
  · intro o
    have hheld := count_held_setTask { s with conn := (track env seq d s.conn).2 }
      { s.task who with frames := rest, stage := .start } who o
    have htask : ({ s with conn := (track env seq d s.conn).2 } : Senders).task who = s.task who := by cases who <;> rfl
    rw [htask, hstage] at hheld
    rw [allotted_setTask, conn_setTask]
    exact (h.own o).trans (congrArg _ hheld.symm)
  · intro f hf
    rw [conn_setTask] at hf ⊢
    exact h.carried f hf
  · refine sound_setTask ⟨rfl, rfl⟩ h.tasks ?_
    exact ⟨trivial, fun _ => rfl⟩

theorem Inv.advance {s : Senders} (h : s.Inv) {who : Who} {env : Env} (hop : s.SocketTakes (.advance who env)) :
    (s.advance who env).Inv := by
  unfold Senders.advance
  cases hframes : (s.task who).frames with
  | nil => exact h
  | cons x rest =>
    obtain ⟨payload, split⟩ := x
    dsimp only
    rcases SendStage.next_cases env payload split (s.task who).stage s.conn with ⟨st', c', hnext, hmoves⟩ |
      ⟨seq, d, hstage, hnext⟩ | ⟨seq, f, d, msg, hstage, henv, -⟩
    · rw [hnext]
      exact h.moves (by rw [hframes]; exact List.cons_ne_nil _ _) hmoves
    · rw [hnext]
      exact h.through hstage rest
    · rw [hop seq f d hstage] at henv
      cases henv

/-- packets that are sent again are no new frames, and nothing is taken back -/
theorem sendAll_frames (envs : Nat → Env) (packets : List Bytes) (c : Conn) :
    (sendAll envs packets c).2.framesSent = c.framesSent ∧ ∀ d ∈ c.sent, d ∈ (sendAll envs packets c).2.sent := by
  induction packets generalizing envs c with
  | nil => exact ⟨rfl, fun d hd => hd⟩
  | cons packet rest ih =>
    cases henv : (envs 0).sendError with
    | some msg =>
      rw [sendAll_cons_err henv]
      exact ⟨rfl, fun d hd => hd⟩
    | none =>
      rw [sendAll_cons_ok henv]
      obtain ⟨hframes, hsent⟩ := ih (fun i => envs (i + 1))
        (recordSend (envs 0) packet.length { c with sent := c.sent ++ [packet] }).2
      exact ⟨hframes, fun d hd => hsent d (List.mem_append_left _ hd)⟩

theorem Inv.checkRetransmissions {s : Senders} (h : s.Inv) (envs : Nat → Env) :
    ({ s with conn := (Conn.checkRetransmissions envs s.conn).2 } : Senders).Inv := by
  obtain ⟨hframes, hsent⟩ := sendAll_frames envs
    ((s.conn.shared.sendQueue.getExpired (envs 0).now (s.conn.shared.metrics.rttNanos * 3) 3).1.map Prod.snd)
    { s.conn with shared := { s.conn.shared with
      sendQueue := (s.conn.shared.sendQueue.getExpired (envs 0).now (s.conn.shared.metrics.rttNanos * 3) 3).2 } }
  exact h.setConn hframes hsent

/-- cutting a message takes a split id and nothing else -/
theorem preserves_messageParts {τ : Type} {f : Conn → τ} (hf : ∀ c, f (splitAllocated c) = f c) (p : Profile)
    (data : Bytes) : Action.Preserves f (messageParts p data) := by
  unfold messageParts fragmentParts
  refine (Action.preserves_get _).bind fun c => (Action.preserves_lift _ _).bind fun size => Action.Preserves.ite ?_ ?_
  · exact Action.preserves_pure _ _
  · refine Action.Preserves.bind hf fun id => (Action.preserves_get _).bind fun c' => ?_
    refine (Action.preserves_lift _ _).bind fun _ => (Action.preserves_lift _ _).bind fun _ => ?_
    exact (Action.preserves_lift _ _).bind fun _ => Action.Preserves.ite (Action.preserves_lift _ _) (Action.preserves_pure _ _)

/-- the send task gets other frames, between two sends -/
theorem Inv.setFrames {s : Senders} (h : s.Inv) (hnil : s.sendTask.frames = []) {c : Conn}
    (hframes : c.framesSent = s.conn.framesSent) (hsent : c.sent = s.conn.sent) (frames : List (Bytes × Option SplitInfo))
    (ended : Bool) : ({ s with conn := c, sendTask := ⟨frames, .start, ended⟩ } : Senders).Inv := by
  have hstart : s.sendTask.stage = .start := (h.tasks .sendTask).idle hnil
  refine h.frame rfl hframes (fun d hd => hsent ▸ hd) ?_ ?_
  · rintro (_ | _)
    · rfl
    · exact hstart.symm
  · rintro (_ | _)
    · exact h.tasks .receiveTask
    · exact ⟨trivial, fun _ => rfl⟩

theorem Inv.message {s : Senders} (h : s.Inv) (p : Profile) (data : Bytes) : (s.message p data).Inv := by
  unfold Senders.message
  cases hnil : s.sendTask.frames with
  | cons x rest => exact h
  | nil =>
    dsimp only
    split_ifs with hended hclosed
    · exact h
    · exact h.setFrames hnil rfl rfl [] true
    · have hframes := preserves_messageParts (f := fun c => c.framesSent) (fun _ => rfl) p data s.conn
      have hsent := preserves_messageParts (f := fun c => c.sent) (fun _ => rfl) p data s.conn
      have hstart : s.sendTask.stage = .start := (h.tasks .sendTask).idle hnil
      cases hparts : messageParts p data s.conn with
      | mk r c =>
        rw [hparts] at hframes hsent
        cases r with
        | ok frames =>
          dsimp only
          rw [hstart]
          exact h.setFrames hnil hframes hsent frames s.sendTask.ended
        | err e => exact h.setFrames hnil hframes hsent [] true
        | panic => exact h.setFrames hnil hframes hsent [] true

theorem Inv.sendReliableFrame {s : Senders} (h : s.Inv) (payload : Bytes) : (s.sendReliableFrame payload).Inv := by
  unfold Senders.sendReliableFrame
  cases hnil : s.receiveTask.frames with
  | cons x rest => exact h
  | nil =>
    refine h.frame rfl rfl (fun d hd => hd) ?_ ?_
    · rintro (_ | _) <;> rfl
    · rintro (_ | _)
      · exact ⟨(h.tasks .receiveTask).stage, fun hempty => by cases hempty⟩
      · exact h.tasks .sendTask

/-- **One step.** -/
theorem Inv.step {s : Senders} (h : s.Inv) (p : Profile) (op : Op) (hop : s.SocketTakes op) : (s.step p op).Inv := by
  cases op with
  | sendReliableFrame payload => exact h.sendReliableFrame payload
  | message data => exact h.message p data
  | advance who env => exact h.advance hop
  | checkRetransmissions envs => exact h.checkRetransmissions envs
  | handleAck ranges | markDisconnected => exact h.setConn rfl fun d hd => hd

theorem advance_fails {s : Senders} {who : Who} {env : Env} {seq : U24} {f : Frame} {d : Bytes} {msg : String}
    (hframes : (s.task who).frames ≠ []) (hstage : (s.task who).stage = .built seq f d) (henv : env.sendError = some msg) :
    s.advance who env = s.setTask ⟨[], .start, who == Who.sendTask⟩ who := by
  obtain ⟨x, rest, hcons⟩ := List.exists_cons_of_ne_nil hframes
  unfold Senders.advance
  rw [hcons, hstage]
  simp only [SendStage.next, Action.bind_of_err (transmit_err henv f d s.conn)]

/-- a datagram that the socket does not take: its order index is lost -/
theorem Inv.lost {s : Senders} (h : s.Inv) {who : Who} {env : Env} {seq : U24} {f : Frame} {d : Bytes} {msg : String}
    (hstage : (s.task who).stage = .built seq f d) (henv : env.sendError = some msg) :
    ¬ (s.advance who env).NoneLost := by
  intro hlost
  have hsound := (h.tasks who).stage
  rw [hstage] at hsound
  obtain ⟨o, ho⟩ := Option.isSome_iff_exists.1 hsound.1
  have hne : (s.task who).frames ≠ [] := by
    intro hnil
    have hstart := (h.tasks who).idle hnil
    rw [hstage] at hstart
    cases hstart
  have hown := h.own o
  have hheld := count_held_setTask s ⟨[], .start, who == Who.sendTask⟩ who o
  have hsub := hlost.own.count_le o
  rw [advance_fails hne hstage henv, allotted_setTask, conn_setTask, List.count_append] at hsub
  rw [hstage] at hheld
  simp only [SendStage.held, ho, Option.toList_some, List.count_singleton_self, List.count_nil] at hheld
  omega

/-! ## The steps put back together -/

/-- frames sent one after another, as far as the socket takes them -/
def sendParts (envs : Nat → Env) : Nat → List (Bytes × Option SplitInfo) → Act Unit
  | _, [] => pure ()
  | index, (payload, split) :: rest => do
    sendFrame (envs index) payload split
    sendParts envs (index + 1) rest

theorem sendParts_headed (id : UInt16) (count : UInt32) (envs : Nat → Env) (index : Nat) (cs : List Bytes) :
    sendParts envs index (headed id count index cs) = sendChunks id count envs index cs := by
  induction cs generalizing index with
  | nil => rfl
  | cons chunk cs ih =>
    unfold headed sendParts sendChunks
    rw [ih]

theorem sendFragmented_eq (p : Profile) (envs : Nat → Env) (data : Bytes) :
    sendFragmented p envs data = (fragmentParts p data >>= sendParts envs 0) := by
  unfold sendFragmented fragmentParts
  rw [bind_assoc]
  apply bind_congr
  intro splitId
  rw [bind_assoc]
  apply bind_congr
  intro c
  rw [bind_assoc]
  apply bind_congr
  intro chunkSize
  rw [bind_assoc]
  apply bind_congr
  intro sum
  rw [bind_assoc]
  apply bind_congr
  intro padded
  split_ifs with hzero
  · rfl
  · rw [pure_bind, sendParts_headed]

/-- a message is cut first, and its frames are sent then -/
theorem sendMessage_eq (p : Profile) (envs : Nat → Env) (data : Bytes) :
    sendMessage p envs data = (messageParts p data >>= sendParts envs 0) := by
  unfold sendMessage messageParts
  rw [bind_assoc]
  apply bind_congr
  intro c
  rw [bind_assoc]
  apply bind_congr
  intro maxSingleFrameSize
  split_ifs with hle
  · rw [pure_bind]
    exact (Action.bind_pure_self _).symm
  · exact sendFragmented_eq p envs data

/-- a task whose call is over stays as it is -/
theorem run_idle (p : Profile) {s : Senders} {who : Who} (h : (s.task who).frames = []) (env : Env) (n : Nat) :
    run p s (List.replicate n (.advance who env)) = s := by
  induction n with
  | zero => rfl
  | succ n ih =>
    have hstep : s.step p (.advance who env) = s := by
      show s.advance who env = s
      unfold advance
      rw [h]
    rw [List.replicate_succ, run, Machine.run_cons, hstep]
    exact ih

/-- the first three steps of a send: its numbers -/
theorem run_allocate (p : Profile) {s : Senders} {who : Who} {payload : Bytes} {split : Option SplitInfo}
    {rest : List (Bytes × Option SplitInfo)} {ended : Bool} (h : s.task who = ⟨(payload, split) :: rest, .start, ended⟩)
    (env : Env) :
    (run p s (List.replicate 3 (.advance who env))).conn = { s.conn with shared := allocated s.conn.shared } ∧
      (run p s (List.replicate 3 (.advance who env))).task who = ⟨(payload, split) :: rest,
        .built s.conn.shared.sendSeq.load (nextFrame s.conn.shared payload split)
          (nextDatagram s.conn.shared payload split), ended⟩ := by
  obtain ⟨c, t1, t2, allotted⟩ := s
  cases who with
  | receiveTask =>
    cases h
    exact ⟨rfl, rfl⟩
  | sendTask =>
    cases h
    exact ⟨rfl, rfl⟩

/-- the last two: its datagram -/
theorem run_transmit (p : Profile) {s : Senders} {who : Who} {payload : Bytes} {split : Option SplitInfo}
    {rest : List (Bytes × Option SplitInfo)} {ended : Bool} {seq : U24} {f : Frame} {d : Bytes}
    (h : s.task who = ⟨(payload, split) :: rest, .built seq f d, ended⟩) (env : Env) :
    (run p s (List.replicate 2 (.advance who env))).conn = ((transmit env f d >>= fun _ => track env seq d) s.conn).2 ∧
      (run p s (List.replicate 2 (.advance who env))).task who =
        if env.sendError.isSome then ⟨[], .start, who == Who.sendTask⟩ else ⟨rest, .start, ended⟩ := by
  have hstage : (s.task who).stage = .built seq f d := by rw [h]
  have hframes : (s.task who).frames = (payload, split) :: rest := by rw [h]
  cases henv : env.sendError with
  | none =>
    have hnext : s.step p (.advance who env) =
        ({ s with conn := transmitted env f d s.conn, allotted := s.allotted ++ [] }).setTask
          ⟨(payload, split) :: rest, .transmitted seq d, ended⟩ who := by
      show s.advance who env = _
      unfold advance
      rw [h]
      simp only [SendStage.next, Action.bind_of_ok (transmit_ok henv f d s.conn)]
      rfl
    have hlast : ∀ u : Senders, u.task who = ⟨(payload, split) :: rest, .transmitted seq d, ended⟩ →
        u.step p (.advance who env) = ({ u with conn := (track env seq d u.conn).2 }).setTask ⟨rest, .start, ended⟩ who := by
      intro u hu
      show u.advance who env = _
      unfold advance
      rw [hu]
      rfl
    have hrun : run p s (List.replicate 2 (.advance who env)) =
        (s.step p (.advance who env)).step p (.advance who env) := rfl
    rw [hrun, hnext, hlast _ (by rw [task_setTask, if_pos rfl]), Action.bind_of_ok (transmit_ok henv f d s.conn),
      conn_setTask, conn_setTask, task_setTask, if_pos rfl]
    exact ⟨rfl, rfl⟩
  | some msg =>
    have hfails : s.step p (.advance who env) = s.setTask ⟨[], .start, who == Who.sendTask⟩ who := by
      apply advance_fails _ hstage henv
      rw [hframes]
      exact List.cons_ne_nil _ _
    have hover : ((s.setTask ⟨[], .start, who == Who.sendTask⟩ who).task who).frames = [] := by
      rw [task_setTask, if_pos rfl]
    have hrun : run p s (List.replicate 2 (.advance who env)) = s.setTask ⟨[], .start, who == Who.sendTask⟩ who :=
      calc run p s (List.replicate 2 (.advance who env))
          = run p (s.step p (.advance who env)) (List.replicate 1 (.advance who env)) := rfl
        _ = run p (s.setTask ⟨[], .start, who == Who.sendTask⟩ who) (List.replicate 1 (.advance who env)) := by rw [hfails]
        _ = s.setTask ⟨[], .start, who == Who.sendTask⟩ who := run_idle p hover env 1
    rw [hrun, Action.bind_of_err (transmit_err henv f d s.conn), conn_setTask, task_setTask, if_pos rfl]
    exact ⟨rfl, rfl⟩

/-- **The steps of a send, one after another, are `sendFrame`.** -/
theorem sendFrame_steps (p : Profile) {s : Senders} {who : Who} {payload : Bytes} {split : Option SplitInfo}
    {rest : List (Bytes × Option SplitInfo)} {ended : Bool} (h : s.task who = ⟨(payload, split) :: rest, .start, ended⟩)
    (env : Env) :
    (run p s (List.replicate 5 (.advance who env))).conn = (sendFrame env payload split s.conn).2 ∧
      (run p s (List.replicate 5 (.advance who env))).task who =
        if env.sendError.isSome then ⟨[], .start, who == Who.sendTask⟩ else ⟨rest, .start, ended⟩ := by
  obtain ⟨hconn, htask⟩ := run_allocate p h env
  have hrest := run_transmit p htask env
  rw [hconn] at hrest
  exact hrest

/-- the steps of `n` sends -/
def rounds (who : Who) (envs : Nat → Env) (index : Nat) : Nat → List Op
  | 0 => []
  | n + 1 => List.replicate 5 (.advance who (envs index)) ++ rounds who envs (index + 1) n

theorem run_rounds_idle (p : Profile) {s : Senders} {who : Who} (h : (s.task who).frames = []) (envs : Nat → Env)
    (index n : Nat) : run p s (rounds who envs index n) = s := by
  induction n generalizing index with
  | zero => rfl
  | succ n ih =>
    rw [rounds, run, Machine.run_append]
    show run p (run p s _) _ = s
    rw [run_idle p h]
    exact ih (index + 1)

theorem sendParts_steps (p : Profile) {s : Senders} {who : Who} {frames : List (Bytes × Option SplitInfo)} {ended : Bool}
    (h : s.task who = ⟨frames, .start, ended⟩) (envs : Nat → Env) (index : Nat) :
    (run p s (rounds who envs index frames.length)).conn = (sendParts envs index frames s.conn).2 := by
  induction frames generalizing s index with
  | nil => rfl
  | cons x rest ih =>
    obtain ⟨payload, split⟩ := x
    obtain ⟨hconn, htask⟩ := sendFrame_steps p h (envs index)
    have hrounds : run p s (rounds who envs index ((payload, split) :: rest).length) =
        run p (run p s (List.replicate 5 (.advance who (envs index)))) (rounds who envs (index + 1) rest.length) :=
      Machine.run_append _ _ _ _
    rw [hrounds, sendParts]
    cases henv : (envs index).sendError with
    | none =>
      rw [henv] at htask
      obtain ⟨c, hsend⟩ : ∃ c, sendFrame (envs index) payload split s.conn = (.ok (), c) := ⟨_, sendFrame_ok henv _ _ _⟩
      rw [hsend] at hconn
      calc (run p (run p s (List.replicate 5 (.advance who (envs index)))) (rounds who envs (index + 1) rest.length)).conn
          = (sendParts envs (index + 1) rest (run p s (List.replicate 5 (.advance who (envs index)))).conn).2 :=
            ih htask (index + 1)
        _ = (sendParts envs (index + 1) rest c).2 := by rw [hconn]
        _ = ((sendFrame (envs index) payload split >>= fun _ => sendParts envs (index + 1) rest) s.conn).2 := by
            rw [Action.bind_of_ok hsend]
    | some msg =>
      rw [henv] at htask
      rw [run_rounds_idle p (by rw [htask]; rfl), hconn, Action.bind_of_err (sendFrame_err henv payload split s.conn),
        sendFrame_err henv]

/-- the steps of `send_reliable_frame` on the receive task -/
theorem sendReliableFrame_steps (p : Profile) {s : Senders} {ended : Bool} (h : s.receiveTask = ⟨[], .start, ended⟩)
    (payload : Bytes) (env : Env) :
    (run p s (.sendReliableFrame payload :: List.replicate 5 (.advance .receiveTask env))).conn =
      (Conn.sendReliableFrame env payload s.conn).2 := by
  have htask : (s.sendReliableFrame payload).task .receiveTask = ⟨[(payload, none)], .start, ended⟩ := by
    simp only [Senders.sendReliableFrame, h, task]
  have hconn : (s.sendReliableFrame payload).conn = s.conn := by
    simp only [Senders.sendReliableFrame, h]
  obtain ⟨hsteps, -⟩ := sendFrame_steps p htask env
  rw [hconn] at hsteps
  exact hsteps

/-- **The steps of a message of the send task, one after another, are `sendMessage`.** -/
theorem message_steps (p : Profile) {s : Senders} (h : s.sendTask = ⟨[], .start, false⟩)
    (hopen : s.conn.shared.isClosed = false) (data : Bytes) (envs : Nat → Env) :
    ∃ n, (run p s (.message data :: rounds .sendTask envs 0 n)).conn = (sendMessage p envs data s.conn).2 := by
  rw [sendMessage_eq]
  cases hparts : messageParts p data s.conn with
  | mk r c =>
    cases r with
    | ok frames =>
      have hmessage : s.message p data = { s with conn := c, sendTask := ⟨frames, .start, false⟩ } := by
        simp only [message, h, hopen, hparts, Bool.false_eq_true, if_false]
      refine ⟨frames.length, ?_⟩
      rw [Action.bind_of_ok hparts]
      show (run p (s.message p data) _).conn = _
      rw [hmessage]
      exact sendParts_steps p rfl envs 0
    | err e =>
      refine ⟨0, ?_⟩
      rw [Action.bind_of_err hparts]
      show (s.message p data).conn = c
      simp only [message, h, hopen, hparts, Bool.false_eq_true, if_false]
    | panic =>
      refine ⟨0, ?_⟩
      rw [Action.bind_apply, hparts]
      show (s.message p data).conn = c
      simp only [message, h, hopen, hparts, Bool.false_eq_true, if_false]

/-- **Order indices on failed sends.** In every state of a run every order index handed out belongs to a frame that was
transmitted or is on its way, if and only if the socket takes every datagram of the run. -/
theorem none_lost_iff (p : Profile) (mtu : UInt16) (nowMicros : Nat) (ready : Bool) (ops : List Op) :
    (∀ a, a <+: ops → (run p (init mtu nowMicros ready) a).NoneLost) ↔
      Machine.Steps (step p) SocketTakes (init mtu nowMicros ready) ops := by
  apply @Machine.prefixes_iff_steps Senders Op (step p) (fun _ => True) SocketTakes Inv NoneLost
  · intro s op _ hs hop
    exact hs.step p op hop
  · intro s hs
    exact hs.noneLost
  · intro s op _ hs hnext
    cases op with
    | advance who env =>
      intro seq f d hstage
      cases henv : env.sendError with
      | none => rfl
      | some msg => exact absurd hnext (hs.lost hstage henv)
    | _ => trivial
  · exact inv_init mtu nowMicros ready
  · intro _ _
    trivial

/-- the answer to a `ConnectionRequest` -/
def reply : Bytes := encodeConnectionRequestAccepted unspecifiedAddr 0 0

/-- two requests are answered, and the socket fails under the first answer -/
def failedReply : List Op :=
  .sendReliableFrame reply :: List.replicate 5 (.advance .receiveTask { quietEnv with sendError := some "unreachable" }) ++
    .sendReliableFrame reply :: List.replicate 5 (.advance .receiveTask quietEnv)

/-- the second answer goes out with order index 1, no frame with order index 0 is left anywhere, and the peer waits for one -/
theorem failed_send_leaves_hole :
    let s := run .dev (init 1492 0 true) failedReply
    s.allotted = [U24.new 0, U24.new 1] ∧ s.held = [] ∧ s.conn.framesSent.map (·.orderIndex) = [some (U24.new 1)] ∧
      s.conn.shared.sendQueue.len = 1 ∧ ¬ s.NoneLost ∧ (OrderedChannel.new.insert 1 reply).1 = [] := by
  have hallotted : (run .dev (init 1492 0 true) failedReply).allotted = [U24.new 0, U24.new 1] := by decide +kernel
  have hheld : (run .dev (init 1492 0 true) failedReply).held = [] := by decide +kernel
  have hsent : (run .dev (init 1492 0 true) failedReply).conn.framesSent.map (·.orderIndex) = [some (U24.new 1)] := by
    decide +kernel
  refine ⟨hallotted, hheld, hsent, by decide +kernel, ?_, by decide +kernel⟩
  intro h
  have hlen := h.own.length_le
  have hone := congrArg List.length hsent
  rw [hallotted, hheld, List.append_nil] at hlen
  have hle := List.length_filterMap_le (fun f : Frame => f.orderIndex)
    (run .dev (init 1492 0 true) failedReply).conn.framesSent
  simp only [List.length_map, List.length_cons, List.length_nil] at hlen hone
  omega

end Senders

end RakNet
