/-
The handle of a stream as two channels.

`recv` hands out what the receive task delivered, in order and once, and answers with nothing only when the receive task is
gone and everything was handed out. What `send` accepted goes to the socket in order, whole or in numbered pieces, and
nothing else does on behalf of the application; an end of the send task cuts it off.

- `recv_exact`: what `recv` hands out along a run.
- `sent_in_order`: what the send task transmits along a run.
-/
import RakNet.Stream.Resources

namespace RakNet

open Lib Lib.Wire

/-- the pieces of the message the send task is in -/
def SendPlace.parts : SendPlace → List (Bytes × Option SplitInfo)
  | .fragments splitId totalCount index chunks => Conn.headed splitId totalCount index chunks
  | .waiting | .ended => []

namespace Stream

open Conn Action

/-! ## `recv` -/

/-- the message `recv` hands out -/
def Answer.message : Answer → Option Bytes
  | .received message => message
  | .nothing | .sent _ | .pending => none

/-- the messages of a list of answers -/
def messages (as : List Answer) : List Bytes := as.filterMap Answer.message

/-- only frames deliver -/
theorem appData_next_of_no_frame (p : Profile) (s : Stream) {op : Op} (hop : ∀ env, op ≠ .frame env) :
    (next p s op).conn.appData = s.conn.appData := by
  have h : Accesses p (fun c => (heldView c).appData = s.conn.appData) :=
    accesses_held p (I := fun h => h.appData = s.conn.appData) fun _ _ hv => hv
  rcases next_cases_of h.toCoreAccesses rfl op
    (fun env _ => sendStep_keeps (held_sendFrame fun h => h.appData = s.conn.appData) (fun _ hc => hc) env rfl)
    (fun envs _ => tickStep_keeps h (held_sendKeepalivePing fun h => h.appData = s.conn.appData) envs rfl)
    (fun env _ _ _ => h.beginPacket env rfl fun _ =>
      held_handleConnectedPong p (fun h => h.appData = s.conn.appData) env _ s.conn rfl)
    (fun env _ _ he => absurd he (hop env))
    with ⟨-, hnext⟩ | ⟨_, _, c, -, hc, hnext⟩
  · exact hnext
  · rw [hnext]
    exact hc

/-- a frame appends to what was delivered -/
theorem appData_after (p : Profile) (now : Nat) (state : ConnectionState) (h : Held) (f : Frame) :
    h.appData <+: (h.after p now state f).appData := by
  unfold Held.after
  cases kindIn state f with
  | request | incoming => rw [Held.appData_advanced]
  | game =>
    dsimp only
    unfold Held.game Held.ordered
    split_ifs
    · exact List.prefix_append _ _
    · exact List.prefix_refl _
    · cases f.split with
      | none => exact List.prefix_append _ _
      | some info =>
        dsimp only
        unfold Held.fragment
        split_ifs
        · exact List.prefix_append _ _
        · exact List.prefix_refl _
  | empty | ping | pong | disconnect | echo => exact List.prefix_refl _

theorem appData_next (p : Profile) (s : Stream) (op : Op) : s.conn.appData <+: (next p s op).conn.appData := by
  by_cases hframe : ∃ env, op = .frame env
  · obtain ⟨env, rfl⟩ := hframe
    cases hph : s.closers.session.phase with
    | frames len rest =>
      have hsession : (next p s (.frame env)).closers.session = Session.settle env len (frameStep p env rest s.conn) := by
        simp only [next, step, onSession, Session.step, hph]
        rfl
      have hview : heldView (next p s (.frame env)).conn = heldView (frameStep p env rest s.conn).2 := by
        rw [← Session.heldView_settle env len, ← hsession]
        rfl
      have hprefix : (heldView s.conn).appData <+: (heldView (frameStep p env rest s.conn).2).appData := by
        cases rest with
        | nil => exact List.prefix_refl _
        | cons x b =>
          cases hd : Frame.decode p (x :: b) with
          | ok r =>
            rw [Session.frameStep_conn hd, heldView_handleFrame]
            exact appData_after p env.now _ _ r.1
          | err e =>
            simp only [frameStep, bind_apply, lift_apply, hd]
            exact List.prefix_refl _
          | panic =>
            simp only [frameStep, bind_apply, lift_apply, hd]
            exact List.prefix_refl _
      rw [← hview] at hprefix
      exact hprefix
    | _ =>
      have hsame : next p s (.frame env) = s := by
        simp only [next, step, onSession, Session.step, hph]
      rw [hsame]
  · rw [appData_next_of_no_frame p s fun env he => hframe ⟨env, he⟩]

/-- only `recv` takes messages out, and only `recv` answers with one -/
theorem taken_next (p : Profile) (s : Stream) {op : Op} (hop : op ≠ .recv) :
    (next p s op).taken = s.taken ∧ (step p s op).1.message = none ∧ (step p s op).1 ≠ .received none := by
  cases op with
  | recv => exact absurd rfl hop
  | check | packet | socketError | frame | drop => exact ⟨rfl, rfl, Answer.noConfusion⟩
  | sendTask env =>
    have hview := congrArg taken (sendTaskView_sendStep p env s)
    exact ⟨hview, rfl, Answer.noConfusion⟩
  | tickTask envs =>
    have hview := congrArg taken (tickTaskView_tickStep p envs s)
    exact ⟨hview, rfl, Answer.noConfusion⟩
  | send data =>
    unfold next step sendCall
    dsimp only
    split_ifs <;> exact ⟨rfl, rfl, Answer.noConfusion⟩
  | close | proceed =>
    unfold next step
    dsimp only
    split_ifs <;> exact ⟨rfl, rfl, Answer.noConfusion⟩

/-- what has been handed out so far is the beginning of what was delivered -/
structure HandedOut (s : Stream) (ms : List Bytes) : Prop where
  taken : s.taken ≤ s.conn.appData.length
  handed : ms = s.conn.appData.take s.taken

/-- the three things a poll of `recv` can do -/
theorem recv_cases (p : Profile) (s : Stream) :
    (∃ message, s.conn.appData[s.taken]? = some message ∧ step p s .recv = (.received (some message), { s with taken := s.taken + 1 })) ∨
    (s.conn.appData.length ≤ s.taken ∧ s.phase = .ended ∧ step p s .recv = (.received none, s)) ∨
    (∃ answer, answer.message = none ∧ answer ≠ .received none ∧ step p s .recv = (answer, s)) := by
  unfold step
  dsimp only
  split_ifs
  · exact .inr (.inr ⟨.nothing, rfl, Answer.noConfusion, rfl⟩)
  · unfold recvCall
    cases hinbox : s.inbox with
    | cons message rest =>
      refine .inl ⟨message, ?_, rfl⟩
      have hget : s.inbox[0]? = some message := by
        rw [hinbox]
        rfl
      rwa [inbox, List.getElem?_drop, Nat.add_zero] at hget
    | nil =>
      have hall : s.conn.appData.length ≤ s.taken := List.drop_eq_nil_iff.1 hinbox
      dsimp only
      split_ifs with hended
      · exact .inr (.inl ⟨hall, hended, rfl⟩)
      · exact .inr (.inr ⟨.pending, rfl, Answer.noConfusion, rfl⟩)

theorem HandedOut.next {p : Profile} {s : Stream} {ms : List Bytes} (h : HandedOut s ms) (op : Op) :
    HandedOut (next p s op) (ms ++ (step p s op).1.message.toList) := by
  by_cases hop : op = .recv
  · subst hop
    rcases recv_cases p s with ⟨message, hget, he⟩ | ⟨-, -, he⟩ | ⟨answer, hanswer, -, he⟩
    · have hlt : s.taken < s.conn.appData.length := (List.getElem?_eq_some_iff.1 hget).1
      rw [Stream.next, he, h.handed]
      refine ⟨hlt, ?_⟩
      show s.conn.appData.take s.taken ++ [message] = s.conn.appData.take (s.taken + 1)
      rw [List.take_add_one, hget]
      rfl
    · rw [Stream.next, he]
      exact ⟨h.taken, by simpa [Answer.message] using h.handed⟩
    · rw [Stream.next, he, hanswer]
      exact ⟨h.taken, by simpa using h.handed⟩
  · obtain ⟨htaken, hmessage, -⟩ := taken_next p s hop
    obtain ⟨new, hnew⟩ := appData_next p s op
    rw [hmessage, Option.toList_none, List.append_nil, h.handed]
    refine ⟨?_, ?_⟩
    · rw [htaken, ← hnew, List.length_append]
      exact h.taken.trans (Nat.le_add_right _ _)
    · rw [htaken, ← hnew, List.take_append_of_le_length h.taken]

theorem HandedOut.run {p : Profile} {s : Stream} {ms : List Bytes} (h : HandedOut s ms) (ops : List Op) :
    HandedOut (run p s ops) (ms ++ messages (answers p s ops)) := by
  induction ops generalizing s ms with
  | nil =>
    rw [messages, answers, Machine.answers, List.filterMap_nil, List.append_nil]
    exact h
  | cons op ops ih =>
    have hrest := ih (h.next (p := p) op)
    have hmessages : messages (answers p s (op :: ops)) =
        (step p s op).1.message.toList ++ messages (answers p (Stream.next p s op) ops) := by
      rw [messages, answers, Machine.answers, List.filterMap_cons]
      cases (step p s op).1.message <;> rfl
    rw [hmessages, ← List.append_assoc]
    exact hrest

/-- a receive task that has ended stays so, and delivers nothing more -/
theorem ended_next {p : Profile} {s : Stream} (h : s.phase = .ended) (op : Op) :
    (next p s op).phase = .ended ∧ (next p s op).conn.appData = s.conn.appData := by
  have hph : s.closers.session.phase = .ended := h
  have hsame : next p s op = s → (next p s op).phase = .ended ∧ (next p s op).conn.appData = s.conn.appData := by
    intro he
    rw [he]
    exact ⟨h, rfl⟩
  by_cases hcheck : op = .check
  · exact hsame (by simp only [hcheck, next, step, onSession, Session.step, hph])
  by_cases herror : op = .socketError
  · exact hsame (by simp only [herror, next, step, onSession, Session.step, hph])
  by_cases hpacket : ∃ env packet, op = .packet env packet
  · obtain ⟨env, packet, rfl⟩ := hpacket
    exact hsame (by simp only [next, step, onSession, Session.step, hph])
  by_cases hframe : ∃ env, op = .frame env
  · obtain ⟨env, rfl⟩ := hframe
    exact hsame (by simp only [next, step, onSession, Session.step, hph])
  · have hno : ∀ env, op ≠ .frame env := fun env he => hframe ⟨env, he⟩
    refine ⟨?_, appData_next_of_no_frame p s hno⟩
    rw [phase_next hcheck (fun env packet he => hpacket ⟨env, packet, he⟩) herror hno, h]

/-- everything was handed out and the receive task is gone -/
structure Exhausted (s : Stream) : Prop where
  phase : s.phase = .ended
  taken : s.conn.appData.length ≤ s.taken

theorem Exhausted.next {p : Profile} {s : Stream} (h : s.Exhausted) (op : Op) : (next p s op).Exhausted := by
  obtain ⟨hphase, happ⟩ := ended_next (p := p) h.phase op
  refine ⟨hphase, ?_⟩
  rw [happ]
  by_cases hop : op = .recv
  · subst hop
    rcases recv_cases p s with ⟨_, -, he⟩ | ⟨-, -, he⟩ | ⟨_, -, -, he⟩ <;> rw [Stream.next, he]
    · exact h.taken.trans (Nat.le_succ _)
    · exact h.taken
    · exact h.taken
  · rw [(taken_next p s hop).1]
    exact h.taken

/-- once `recv` has answered with nothing, everything is handed out for good -/
theorem exhausted_run {p : Profile} {s : Stream} {ops : List Op} (h : .received none ∈ answers p s ops) :
    (run p s ops).Exhausted := by
  induction ops generalizing s with
  | nil => cases h
  | cons op ops ih =>
    rw [answers, Machine.answers] at h
    rcases List.mem_cons.1 h with hfirst | hrest
    · have hop : op = .recv := by
        by_contra hne
        exact (taken_next p s hne).2.2 hfirst.symm
      subst hop
      have hhere : s.Exhausted := by
        rcases recv_cases p s with ⟨_, -, he⟩ | ⟨hall, hended, -⟩ | ⟨_, -, hne, he⟩
        · rw [he] at hfirst
          cases hfirst
        · exact ⟨hended, hall⟩
        · rw [he] at hfirst
          exact absurd hfirst.symm hne
      exact Machine.run_inv (fun _ op h => h.next op) (hhere.next .recv) ops
    · exact ih hrest

/-- **What `recv` hands out.** In every run of a fresh stream, the messages `recv` has answered with are the first of those
the receive task delivered, in order and each once; and if it ever answered with nothing, then the receive task has ended and
they are all of them. -/
theorem recv_exact (p : Profile) (mtu : UInt16) (nowMicros : Nat) (ready : Bool) (ops : List Op) :
    messages (answers p (new mtu nowMicros ready) ops) =
      (run p (new mtu nowMicros ready) ops).conn.appData.take (run p (new mtu nowMicros ready) ops).taken ∧
    (.received none ∈ answers p (new mtu nowMicros ready) ops →
      (run p (new mtu nowMicros ready) ops).phase = .ended ∧
        messages (answers p (new mtu nowMicros ready) ops) = (run p (new mtu nowMicros ready) ops).conn.appData) := by
  have hfresh : HandedOut (new mtu nowMicros ready) [] := ⟨le_refl _, rfl⟩
  have hrun := (hfresh.run (p := p) ops).handed
  rw [List.nil_append] at hrun
  refine ⟨hrun, fun hnone => ?_⟩
  have hexhausted := exhausted_run hnone
  exact ⟨hexhausted.phase, by rw [hrun, List.take_of_length_le hexhausted.taken]⟩

/-! ## `send` -/

/-- the pieces of a message: the message itself, or its chunks with their headers -/
def messageParts (mtu : Nat) (id : UInt16) (data : Bytes) : List (Bytes × Option SplitInfo) :=
  if isWhole mtu data.length then [(data, none)]
  else headed id (UInt32.ofNat (chunkCount data.length (mtu - 80))) 0 (chunks data (mtu - 80))

/-- the split id after a message -/
def idAfter (mtu : Nat) (id : UInt16) (data : Bytes) : UInt16 := if isWhole mtu data.length then id else id + 1

/-- the pieces of a list of messages -/
def allParts (mtu : Nat) : UInt16 → List Bytes → List (Bytes × Option SplitInfo)
  | _, [] => []
  | id, data :: rest => messageParts mtu id data ++ allParts mtu (idAfter mtu id data) rest

theorem allParts_snoc (mtu : Nat) (id : UInt16) (datas : List Bytes) (data : Bytes) :
    allParts mtu id (datas ++ [data]) =
      allParts mtu id datas ++ messageParts mtu (datas.foldl (idAfter mtu) id) data := by
  induction datas generalizing id with
  | nil => simp [allParts]
  | cons d datas ih => rw [List.cons_append, allParts, ih, allParts, List.append_assoc, List.foldl_cons]

/-- the message a call of `send` puts in the channel -/
def sentMessage (p : Profile) (s : Stream) : Op → List Bytes
  | .send data => if (step p s (.send data)).1 = .sent (.ok ()) then [data] else []
  | _ => []

/-- the messages `send` accepted along a run -/
def sentMessages (p : Profile) (s : Stream) (ops : List Op) : List Bytes := Machine.trace (next p) (sentMessage p) s ops

/-- the pieces the socket took from the send task in a step -/
def partsOut (p : Profile) (s : Stream) : Op → List (Bytes × Option SplitInfo)
  | .sendTask env => ((s.sendStep p env).conn.framesSent.drop s.conn.framesSent.length).map partOf
  | _ => []

/-- the pieces the send task sent along a run -/
def partsSent (p : Profile) (s : Stream) (ops : List Op) : List (Bytes × Option SplitInfo) :=
  Machine.trace (next p) (partsOut p) s ops

/-- the pieces the send task has not sent yet -/
def unsent (s : Stream) : List (Bytes × Option SplitInfo) :=
  s.sending.parts ++ allParts s.conn.shared.mtu.toNat s.conn.shared.splitId s.outgoing

/-- the split id once the channel is empty -/
def lastId (s : Stream) : UInt16 := s.outgoing.foldl (idAfter s.conn.shared.mtu.toNat) s.conn.shared.splitId

/-- the MTU and the split id -/
def numbering (c : Conn) : UInt16 × UInt16 := (c.shared.mtu, c.shared.splitId)

theorem numbering_sendFrame (env : Env) (payload : Bytes) (split : Option SplitInfo) (c : Conn) :
    numbering (sendFrame env payload split c).2 = numbering c := by
  cases henv : env.sendError with
  | none =>
    rw [sendFrame_ok henv]
    rfl
  | some msg =>
    rw [sendFrame_err henv]
    rfl

/-- one piece of the send task: sent, or the task ends and nothing went out -/
theorem sendFrame_parts (env : Env) (payload : Bytes) (split : Option SplitInfo) (c : Conn) :
    ((sendFrame env payload split c).1 = .ok () ∧
      ((sendFrame env payload split c).2.framesSent.drop c.framesSent.length).map partOf = [(payload, split)]) ∨
    ((sendFrame env payload split c).1 ≠ .ok () ∧ (sendFrame env payload split c).2.framesSent = c.framesSent) := by
  cases henv : env.sendError with
  | none =>
    have hframes : (sendFrame env payload split c).2.framesSent = c.framesSent ++ [nextFrame c.shared payload split] := by
      rw [sendFrame_ok henv]
      rfl
    refine .inl ⟨by rw [sendFrame_ok henv]; rfl, ?_⟩
    rw [hframes, List.drop_left, List.map_singleton, partOf, nextFrame, payload_buildFrame, split_buildFrame]
  | some msg =>
    rw [sendFrame_err henv]
    exact .inr ⟨by simp, rfl⟩

/-- `send_fragmented` up to its loop, where none of its subtractions and divisions fails -/
theorem beginFragmented_apply (p : Profile) {data : Bytes} {c : Conn} (hmtu : 80 < c.shared.mtu.toNat)
    (hlen : data.length ≤ maxBytes) :
    beginFragmented p data c = (.ok (c.shared.splitId, UInt32.ofNat (chunkCount data.length (c.shared.mtu.toNat - 80)),
      chunks data (c.shared.mtu.toNat - 80)), splitAllocated c) := by
  have hsplit : onShared SharedState.nextSplitId c = (.ok c.shared.splitId, splitAllocated c) := rfl
  have hsame : (splitAllocated c).shared.mtu = c.shared.mtu := rfl
  have hbound := c.shared.mtu.toNat_lt
  have hsum : data.length + (c.shared.mtu.toNat - 80) < 2 ^ 64 := by
    unfold maxBytes at hlen
    omega
  unfold beginFragmented
  rw [Action.bind_of_ok hsplit, Action.get_bind, hsame, Profile.sub_of_le p (by omega),
    Action.bind_of_ok (Action.lift_apply _ _), Profile.add_of_lt p hsum, Action.bind_of_ok (Action.lift_apply _ _),
    Profile.sub_of_le p (by omega), Action.bind_of_ok (Action.lift_apply _ _), if_neg (by omega)]
  rfl

/-- a message that is sent whole -/
theorem beginMessage_whole (p : Profile) (env : Env) {data : Bytes} {c : Conn} (hmtu : 80 < c.shared.mtu.toNat)
    (hwhole : isWhole c.shared.mtu.toNat data.length = true) :
    beginMessage p env data c = (sendFrame env data none >>= fun _ => pure .waiting) c := by
  unfold beginMessage
  rw [Action.get_bind, Profile.sub_of_le p (by omega), Action.bind_of_ok (Action.lift_apply _ _),
    if_pos (of_decide_eq_true hwhole)]
  rfl

/-- a message that is sent in fragments -/
theorem beginMessage_fragmented (p : Profile) (env : Env) {data : Bytes} {c : Conn} (hmtu : 80 < c.shared.mtu.toNat)
    (hlen : data.length ≤ maxBytes) (hwhole : isWhole c.shared.mtu.toNat data.length = false) :
    beginMessage p env data c = (.ok (.fragments c.shared.splitId
      (UInt32.ofNat (chunkCount data.length (c.shared.mtu.toNat - 80))) 0 (chunks data (c.shared.mtu.toNat - 80))),
      splitAllocated c) := by
  unfold beginMessage
  rw [Action.get_bind, Profile.sub_of_le p (by omega), Action.bind_of_ok (Action.lift_apply _ _),
    if_neg (of_decide_eq_false hwhole), Action.bind_of_ok (beginFragmented_apply p hmtu hlen)]
  rfl

/-- a step of the send task that hands nothing to the socket -/
theorem partsOut_eq_nil {p : Profile} {s : Stream} {env : Env}
    (h : (s.sendStep p env).conn.framesSent = s.conn.framesSent) : partsOut p s (.sendTask env) = [] := by
  rw [partsOut, h, List.drop_length, List.map_nil]

/-- the channel only loses messages to the send task -/
theorem outgoing_sendStep (p : Profile) (env : Env) (s : Stream) : (s.sendStep p env).outgoing ⊆ s.outgoing := by
  unfold sendStep
  cases s.sending with
  | waiting =>
    cases hq : s.outgoing with
    | nil =>
      dsimp only
      split_ifs
      · exact List.nil_subset _
      · rw [hq]
        exact List.Subset.refl _
    | cons data rest =>
      dsimp only
      split_ifs
      · exact List.nil_subset _
      · cases beginMessage p env data s.conn with
        | mk r c =>
          cases r with
          | ok next => exact List.subset_cons_self _ _
          | err e | panic => exact List.nil_subset _
  | fragments splitId totalCount index chunks =>
    cases chunks with
    | nil => exact List.Subset.refl _
    | cons chunk rest =>
      dsimp only
      cases sendFragment env splitId totalCount index chunk s.conn with
      | mk r c =>
        cases r with
        | ok u => exact List.Subset.refl _
        | err e | panic => exact List.nil_subset _
  | ended => exact List.Subset.refl _

/-- what a step of a running send task does: it sends the first of the unsent pieces, or takes them apart further -/
structure Sends (s : Stream) (out : List (Bytes × Option SplitInfo)) (t : Stream) : Prop where
  running : s.sending ≠ .ended
  unsent : s.unsent = out ++ t.unsent
  lastId : t.lastId = s.lastId

/-- the stream once the socket has answered to a piece -/
def afterPiece (s : Stream) (rest : List Bytes) (place : SendPlace) : Result Unit × Conn → Stream
  | (.ok (), c) => { s.onConn c with outgoing := rest, sending := place }
  | (_, c) => (s.onConn c).endSending

/-- a step that sends one piece -/
theorem piece_sends {p : Profile} {s : Stream} {env : Env} (payload : Bytes) (split : Option SplitInfo) (rest : List Bytes)
    (place : SendPlace) (hrunning : s.sending ≠ .ended)
    (hstep : s.sendStep p env = s.afterPiece rest place (sendFrame env payload split s.conn))
    (hunsent : s.unsent =
      (payload, split) :: (place.parts ++ allParts s.conn.shared.mtu.toNat s.conn.shared.splitId rest))
    (hlast : s.lastId = rest.foldl (idAfter s.conn.shared.mtu.toNat) s.conn.shared.splitId) :
    ((s.sendStep p env).sending = .ended ∧ partsOut p s (.sendTask env) = []) ∨
      Sends s (partsOut p s (.sendTask env)) (s.sendStep p env) := by
  have hnumbering := numbering_sendFrame env payload split s.conn
  have hparts := sendFrame_parts env payload split s.conn
  cases hr : sendFrame env payload split s.conn with
  | mk r c =>
    rw [hr] at hstep hnumbering hparts
    have hmtu : c.shared.mtu = s.conn.shared.mtu := congrArg Prod.fst hnumbering
    have hid : c.shared.splitId = s.conn.shared.splitId := congrArg Prod.snd hnumbering
    rcases hparts with ⟨hok, hframes⟩ | ⟨hfail, hframes⟩
    · obtain rfl : r = .ok () := hok
      have hout : partsOut p s (.sendTask env) = [(payload, split)] := by
        rw [partsOut, hstep]
        exact hframes
      refine .inr ⟨hrunning, ?_, ?_⟩
      · rw [hunsent, hout, hstep]
        show _ = (payload, split) :: (place.parts ++ allParts c.shared.mtu.toNat c.shared.splitId rest)
        rw [hmtu, hid]
      · rw [hlast, hstep]
        show rest.foldl (idAfter c.shared.mtu.toNat) c.shared.splitId = _
        rw [hmtu, hid]
    · have he : s.sendStep p env = (s.onConn c).endSending := by
        rw [hstep]
        cases r with
        | ok u => exact absurd rfl hfail
        | err e | panic => rfl
      exact .inl ⟨by rw [he]; rfl, partsOut_eq_nil (by rw [he]; exact hframes)⟩

/-- the step that begins a message -/
theorem message_sends (p : Profile) (env : Env) {s : Stream} {data : Bytes} {rest : List Bytes}
    (hmtu : 80 < s.conn.shared.mtu.toNat) (hs : s.sending = .waiting) (hq : s.outgoing = data :: rest)
    (hlen : data.length ≤ maxBytes) (hopen : s.conn.shared.isClosed = false) :
    ((s.sendStep p env).sending = .ended ∧ partsOut p s (.sendTask env) = []) ∨
      Sends s (partsOut p s (.sendTask env)) (s.sendStep p env) := by
  have hrunning : s.sending ≠ .ended := by rw [hs]; exact SendPlace.noConfusion
  have hunsent : s.unsent = messageParts s.conn.shared.mtu.toNat s.conn.shared.splitId data ++
      allParts s.conn.shared.mtu.toNat (idAfter s.conn.shared.mtu.toNat s.conn.shared.splitId data) rest := by
    simp only [unsent, hs, hq, allParts, SendPlace.parts, List.nil_append]
  have hlast : s.lastId = rest.foldl (idAfter s.conn.shared.mtu.toNat)
      (idAfter s.conn.shared.mtu.toNat s.conn.shared.splitId data) := by
    simp only [lastId, hq, List.foldl_cons]
  cases hwhole : isWhole s.conn.shared.mtu.toNat data.length with
  | true =>
    rw [messageParts, idAfter, hwhole, if_pos rfl, if_pos rfl] at hunsent
    rw [idAfter, hwhole, if_pos rfl] at hlast
    have hstep : s.sendStep p env = s.afterPiece rest .waiting (sendFrame env data none s.conn) := by
      unfold sendStep
      rw [hs, hq]
      dsimp only
      rw [hopen, beginMessage_whole p env hmtu hwhole, Action.bind_apply, if_neg Bool.noConfusion]
      cases sendFrame env data none s.conn with
      | mk r c => cases r <;> rfl
    exact piece_sends data none rest .waiting hrunning hstep hunsent hlast
  | false =>
    rw [messageParts, idAfter, hwhole, if_neg Bool.noConfusion, if_neg Bool.noConfusion] at hunsent
    rw [idAfter, hwhole, if_neg Bool.noConfusion] at hlast
    have hstep : s.sendStep p env = { s.onConn (splitAllocated s.conn) with
        outgoing := rest
        sending := .fragments s.conn.shared.splitId
          (UInt32.ofNat (chunkCount data.length (s.conn.shared.mtu.toNat - 80))) 0
          (chunks data (s.conn.shared.mtu.toNat - 80)) } := by
      unfold sendStep
      rw [hs, hq]
      dsimp only
      rw [hopen, beginMessage_fragmented p env hmtu hlen hwhole, if_neg Bool.noConfusion]
    have hout : partsOut p s (.sendTask env) = [] := partsOut_eq_nil (by rw [hstep]; rfl)
    refine .inr ⟨hrunning, ?_, ?_⟩
    · rw [hunsent, hout, hstep]
      rfl
    · rw [hlast, hstep]
      rfl

/-- **A step of the send task** sends the first of the unsent pieces, or ends the task. -/
theorem sendStep_sends (p : Profile) (env : Env) {s : Stream} (hmtu : 80 < s.conn.shared.mtu.toNat)
    (hlen : ∀ data ∈ s.outgoing, data.length ≤ maxBytes) :
    ((s.sendStep p env).sending = .ended ∧ partsOut p s (.sendTask env) = []) ∨
      Sends s (partsOut p s (.sendTask env)) (s.sendStep p env) := by
  cases hs : s.sending with
  | ended =>
    have he : s.sendStep p env = s := by simp only [sendStep, hs]
    exact .inl ⟨by rw [he, hs], partsOut_eq_nil (by rw [he])⟩
  | fragments splitId totalCount index chunks =>
    have hrunning : s.sending ≠ .ended := by rw [hs]; exact SendPlace.noConfusion
    cases chunks with
    | nil =>
      have he : s.sendStep p env = { s with sending := .waiting } := by simp only [sendStep, hs]
      have hout : partsOut p s (.sendTask env) = [] := partsOut_eq_nil (by rw [he]; rfl)
      refine .inr ⟨hrunning, ?_, by rw [he]; rfl⟩
      rw [hout, he, unsent, hs]
      rfl
    | cons chunk rest =>
      refine piece_sends chunk (some ⟨totalCount, splitId, UInt32.ofNat index⟩) s.outgoing
        (.fragments splitId totalCount (index + 1) rest) hrunning ?_ ?_ rfl
      · unfold sendStep
        rw [hs]
        dsimp only
        unfold sendFragment
        cases sendFrame env chunk (some ⟨totalCount, splitId, UInt32.ofNat index⟩) s.conn with
        | mk r c => cases r <;> rfl
      · rw [unsent, hs]
        rfl
  | waiting =>
    have hrunning : s.sending ≠ .ended := by rw [hs]; exact SendPlace.noConfusion
    cases hq : s.outgoing with
    | nil =>
      cases hdrop : s.dropped with
      | true =>
        have he : s.sendStep p env = s.endSending := by simp only [sendStep, hs, hq, hdrop, if_true]
        exact .inl ⟨by rw [he]; rfl, partsOut_eq_nil (by rw [he]; rfl)⟩
      | false =>
        have he : s.sendStep p env = s := by simp only [sendStep, hs, hq, hdrop]; rfl
        have hout : partsOut p s (.sendTask env) = [] := partsOut_eq_nil (by rw [he])
        exact .inr ⟨hrunning, by rw [hout, he, List.nil_append], by rw [he]⟩
    | cons data rest =>
      cases hclosed : s.conn.shared.isClosed with
      | true =>
        have he : s.sendStep p env = s.endSending := by simp only [sendStep, hs, hq, hclosed, if_true]
        exact .inl ⟨by rw [he]; rfl, partsOut_eq_nil (by rw [he]; rfl)⟩
      | false => exact message_sends p env hmtu hs hq (hlen data (by rw [hq]; exact List.mem_cons_self)) hclosed

/-! ## The other steps -/

theorem preserves_numbering_send (env : Env) (packet : Bytes) : Preserves numbering (socketSend env packet) :=
  (wire_socketSend env packet).comp numbering

theorem keeps_numbering_sendFrame (I : UInt16 × UInt16 → Prop) (env : Env) (payload : Bytes) (split : Option SplitInfo) :
    Keeps (fun c => I (numbering c)) (sendFrame env payload split) := by
  intro c hc
  rw [numbering_sendFrame]
  exact hc

/-- only the send task takes split ids, and nothing changes the MTU -/
theorem accesses_numbering (p : Profile) (I : UInt16 × UInt16 → Prop) : Accesses p (fun c => I (numbering c)) where
  pong env _ := (preserves_numbering_send env _).keeps I
  goodbye env := (preserves_numbering_send env _).keeps I
  handleConnectionRequest := keeps_handleConnectionRequest fun env _ _ _ => keeps_numbering_sendFrame I env _ none
  state _ _ hc := hc
  notifier _ _ _ hc := hc
  flushAcks env := (Preserves.bind (fun _ => rfl) fun _ => Preserves.ite (preserves_pure _ _)
    ((preserves_numbering_send env _).bind fun _ => fun _ => rfl)).keeps I
  flushNacks env := (Preserves.bind (fun _ => rfl) fun _ => Preserves.ite (preserves_pure _ _)
    ((preserves_numbering_send env _).bind fun _ => fun _ => rfl)).keeps I
  checkRetransmissions envs :=
    (Preserves.bind (fun _ => rfl) fun packets => (tick_sendAll envs packets).comp numbering).keeps I
  cleanupExpired _ := fun _ hc => hc
  markReceived _ := fun _ hc => hc
  recordAck _ := fun _ hc => hc
  handleAck _ := fun _ hc => hc

theorem numbering_sendKeepalivePing (I : UInt16 × UInt16 → Prop) (env : Env) :
    Keeps (fun c => I (numbering c)) (sendKeepalivePing env) :=
  (Preserves.bind (fun _ => rfl) fun _ => (preserves_numbering_send env _).bind fun _ => fun _ => rfl).keeps I

theorem numbering_handleConnectedPong (p : Profile) (I : UInt16 × UInt16 → Prop) (env : Env) (packet : Bytes) :
    Keeps (fun c => I (numbering c)) (handleConnectedPong p env packet) :=
  keeps_handleConnectedPong (fun _ _ hc => hc) (fun _ _ hc => hc) env packet

/-- an invariant of the MTU and the split id is kept by the frames -/
theorem numbering_frameStep (p : Profile) {I : UInt16 × UInt16 → Prop} (env : Env) (rest : Bytes) :
    Keeps (fun c => I (numbering c)) (frameStep p env rest) := fun c hc =>
  (accesses_numbering p I).frameStep (fun frame => ((preserves_advanceChannel frame).comp numbering).keeps I)
    (fun env frame => ((preserves_handleGamePacket p env frame).comp numbering).keeps I) env hc fun _ _ frame _ _ _ _ =>
      numbering_handleConnectedPong p I env frame.payload c hc

theorem numbering_next (p : Profile) (s : Stream) {I : UInt16 × UInt16 → Prop} {op : Op} (hs : I (numbering s.conn))
    (hsend : ∀ env, op = .sendTask env → I (numbering (s.sendStep p env).conn)) : I (numbering (next p s op).conn) := by
  rcases next_cases_of (accesses_numbering p I).toCoreAccesses hs op hsend
    (fun envs _ => tickStep_keeps (accesses_numbering p I) (numbering_sendKeepalivePing I) envs hs)
    (fun env _ _ _ => (accesses_numbering p I).beginPacket env hs fun _ => numbering_handleConnectedPong p I env _ s.conn hs)
    (fun env _ rest _ _ => numbering_frameStep p env rest s.conn hs)
    with ⟨-, hnext⟩ | ⟨_, _, c, -, hc, hnext⟩
  · exact hnext
  · rw [hnext]
    exact hc

theorem mtu_next (p : Profile) (s : Stream) (op : Op) : (next p s op).conn.shared.mtu = s.conn.shared.mtu :=
  numbering_next p s (I := fun n => n.1 = s.conn.shared.mtu) rfl fun env _ =>
    sendStep_keeps (keeps_numbering_sendFrame fun n => n.1 = s.conn.shared.mtu) (fun _ hc => hc) env rfl

theorem mtu_run (p : Profile) (s : Stream) (ops : List Op) : (run p s ops).conn.shared.mtu = s.conn.shared.mtu := by
  induction ops generalizing s with
  | nil => rfl
  | cons op ops ih => exact (ih (next p s op)).trans (mtu_next p s op)

/-- the other steps leave the send task, its channel and its split ids alone -/
theorem sending_next (p : Profile) (s : Stream) {op : Op} (htask : ∀ env, op ≠ .sendTask env)
    (hsend : ∀ data, op ≠ .send data) :
    (next p s op).sending = s.sending ∧ (next p s op).outgoing = s.outgoing ∧
      (next p s op).conn.shared.splitId = s.conn.shared.splitId := by
  have hid : (next p s op).conn.shared.splitId = s.conn.shared.splitId :=
    numbering_next p s (I := fun n => n.2 = s.conn.shared.splitId) rfl fun env he => absurd he (htask env)
  cases op with
  | sendTask env => exact absurd rfl (htask env)
  | send data => exact absurd rfl (hsend data)
  | check | packet | socketError | frame | drop => exact ⟨rfl, rfl, hid⟩
  | tickTask envs =>
    have hsending := congrArg sending (tickTaskView_tickStep p envs s)
    have hout := congrArg outgoing (tickTaskView_tickStep p envs s)
    exact ⟨hsending, hout, hid⟩
  | recv => rcases recv_cases p s with ⟨_, -, he⟩ | ⟨-, -, he⟩ | ⟨_, -, -, he⟩ <;> rw [next, he] <;> exact ⟨rfl, rfl, rfl⟩
  | close | proceed =>
    refine ⟨?_, ?_, hid⟩ <;> unfold next step <;> dsimp only <;> split_ifs <;> rfl

/-! ## The run -/

/-- what has been accepted, what has been sent of it, and what the send task and its channel hold -/
structure InOrder (s : Stream) (accepted : List Bytes) (sent : List (Bytes × Option SplitInfo)) : Prop where
  lengths : ∀ data ∈ s.outgoing, data.length ≤ maxBytes
  begun : sent <+: allParts s.conn.shared.mtu.toNat 0 accepted
  rest : s.sending ≠ .ended → allParts s.conn.shared.mtu.toNat 0 accepted = sent ++ s.unsent
  lastId : s.sending ≠ .ended → accepted.foldl (idAfter s.conn.shared.mtu.toNat) 0 = s.lastId

/-- a call of `send`: refused, or one more message in the channel -/
theorem send_cases (p : Profile) (s : Stream) (data : Bytes) :
    (sentMessage p s (.send data) = [] ∧ next p s (.send data) = s) ∨
    (s.sending ≠ .ended ∧ sentMessage p s (.send data) = [data] ∧
      next p s (.send data) = { s with outgoing := s.outgoing ++ [data] }) := by
  unfold sentMessage next step sendCall
  dsimp only
  split_ifs with hdropped hconnected hended
  all_goals first
    | exact .inl ⟨rfl, rfl⟩
    | exact .inr ⟨hended, rfl, rfl⟩
    | simp_all

variable {p : Profile} {s : Stream} {accepted : List Bytes} {sent : List (Bytes × Option SplitInfo)}

/-- one more message in the channel -/
theorem InOrder.send (h : InOrder s accepted sent) (hrunning : s.sending ≠ .ended) {data : Bytes}
    (hdata : data.length ≤ maxBytes) : InOrder { s with outgoing := s.outgoing ++ [data] } (accepted ++ [data]) sent := by
  refine ⟨?_, ?_, fun _ => ?_, fun _ => ?_⟩
  · intro d hd
    rcases List.mem_append.1 hd with hold | hnew
    · exact h.lengths d hold
    · rw [List.mem_singleton.1 hnew]
      exact hdata
  · rw [allParts_snoc]
    exact h.begun.trans (List.prefix_append _ _)
  · have hunsent : Stream.unsent { s with outgoing := s.outgoing ++ [data] } =
        s.unsent ++ messageParts s.conn.shared.mtu.toNat s.lastId data := by
      show s.sending.parts ++ allParts _ _ (s.outgoing ++ [data]) = _
      rw [allParts_snoc, ← List.append_assoc]
      rfl
    calc allParts s.conn.shared.mtu.toNat 0 (accepted ++ [data])
        = allParts s.conn.shared.mtu.toNat 0 accepted ++ messageParts s.conn.shared.mtu.toNat s.lastId data := by
          rw [allParts_snoc, h.lastId hrunning]
      _ = sent ++ (s.unsent ++ messageParts s.conn.shared.mtu.toNat s.lastId data) := by
          rw [h.rest hrunning, List.append_assoc]
      _ = sent ++ Stream.unsent { s with outgoing := s.outgoing ++ [data] } := by rw [hunsent]
  · show (accepted ++ [data]).foldl (idAfter s.conn.shared.mtu.toNat) 0 =
      (s.outgoing ++ [data]).foldl (idAfter s.conn.shared.mtu.toNat) s.conn.shared.splitId
    rw [List.foldl_append, h.lastId hrunning, List.foldl_append]
    rfl

/-- a step of the send task -/
theorem InOrder.sendStep (h : InOrder s accepted sent) (hmtu : 80 < s.conn.shared.mtu.toNat) (env : Env) :
    InOrder (s.sendStep p env) accepted (sent ++ partsOut p s (.sendTask env)) := by
  have hsame : (s.sendStep p env).conn.shared.mtu = s.conn.shared.mtu := mtu_next p s (.sendTask env)
  have hlengths : ∀ data ∈ (s.sendStep p env).outgoing, data.length ≤ maxBytes :=
    fun data hdata => h.lengths data (outgoing_sendStep p env s hdata)
  rcases sendStep_sends p env hmtu h.lengths with ⟨hended, hout⟩ | hsends
  · rw [hout, List.append_nil]
    exact ⟨hlengths, by rw [hsame]; exact h.begun, fun hne => absurd hended hne, fun hne => absurd hended hne⟩
  · have hrest : allParts s.conn.shared.mtu.toNat 0 accepted =
        (sent ++ partsOut p s (.sendTask env)) ++ (s.sendStep p env).unsent := by
      rw [h.rest hsends.running, hsends.unsent, List.append_assoc]
    refine ⟨hlengths, ?_, fun _ => ?_, fun _ => ?_⟩
    · rw [hsame, hrest]
      exact List.prefix_append _ _
    · rw [hsame]
      exact hrest
    · rw [hsame, h.lastId hsends.running, hsends.lastId]

/-- a step of the stream -/
theorem InOrder.next (h : InOrder s accepted sent) (hmtu : 80 < s.conn.shared.mtu.toNat) {op : Op}
    (hop : ∀ data, op = .send data → data.length ≤ maxBytes) :
    InOrder (Stream.next p s op) (accepted ++ sentMessage p s op) (sent ++ partsOut p s op) := by
  by_cases htask : ∃ env, op = .sendTask env
  · obtain ⟨env, rfl⟩ := htask
    have hmessage : sentMessage p s (.sendTask env) = [] := rfl
    rw [hmessage, List.append_nil]
    exact h.sendStep hmtu env
  by_cases hsend : ∃ data, op = .send data
  · obtain ⟨data, rfl⟩ := hsend
    have hparts : partsOut p s (.send data) = [] := rfl
    rw [hparts, List.append_nil]
    rcases send_cases p s data with ⟨hnone, hsame⟩ | ⟨hrunning, hone, hmore⟩
    · rw [hnone, hsame, List.append_nil]
      exact h
    · rw [hone, hmore]
      exact h.send hrunning (hop data rfl)
  · have hno : ∀ env, op ≠ .sendTask env := fun env he => htask ⟨env, he⟩
    have hnosend : ∀ data, op ≠ .send data := fun data he => hsend ⟨data, he⟩
    obtain ⟨hsending, hout, hid⟩ := sending_next p s hno hnosend
    have hmtu' := mtu_next p s op
    have hmessage : sentMessage p s op = [] := by
      cases op with
      | send data => exact absurd rfl (hnosend data)
      | _ => rfl
    have hparts : partsOut p s op = [] := by
      cases op with
      | sendTask env => exact absurd rfl (hno env)
      | _ => rfl
    rw [hmessage, hparts, List.append_nil, List.append_nil]
    refine ⟨by rw [hout]; exact h.lengths, by rw [hmtu']; exact h.begun, ?_, ?_⟩
    · rw [hsending, hmtu', unsent, hsending, hout, hid, hmtu']
      exact h.rest
    · have hlast : (Stream.next p s op).lastId = s.lastId := by
        rw [Stream.lastId, Stream.lastId, hout, hid, hmtu']
      rw [hsending, hmtu', hlast]
      exact h.lastId

theorem InOrder.run (h : InOrder s accepted sent) (hmtu : 80 < s.conn.shared.mtu.toNat) {ops : List Op}
    (hops : ∀ data, .send data ∈ ops → data.length ≤ maxBytes) :
    InOrder (Stream.run p s ops) (accepted ++ sentMessages p s ops) (sent ++ partsSent p s ops) := by
  induction ops generalizing s accepted sent with
  | nil =>
    rw [sentMessages, partsSent, Machine.trace, Machine.trace, List.append_nil, List.append_nil]
    exact h
  | cons op ops ih =>
    have hop : ∀ data, op = .send data → data.length ≤ maxBytes :=
      fun data he => hops data (by rw [he]; exact List.mem_cons_self)
    have hstep := h.next (p := p) hmtu hop
    have hmtu' : 80 < (Stream.next p s op).conn.shared.mtu.toNat := by rwa [mtu_next]
    have hrest := ih hstep hmtu' fun data hdata => hops data (List.mem_cons_of_mem _ hdata)
    rw [sentMessages, partsSent, Machine.trace, Machine.trace, ← List.append_assoc, ← List.append_assoc]
    exact hrest

/-- **What `send` accepted goes out in order.** In every run of a fresh stream, the pieces the socket took from the send task
are the first of those of the messages `send` accepted: each message whole, or cut into its chunks and numbered, with the
split ids in order. While the send task runs, the remaining pieces are those it and its channel hold. -/
theorem sent_in_order (p : Profile) (mtu : UInt16) (hmtu : 80 < mtu.toNat) (nowMicros : Nat) (ready : Bool) (ops : List Op)
    (hops : ∀ data, .send data ∈ ops → data.length ≤ maxBytes) :
    partsSent p (new mtu nowMicros ready) ops <+:
      allParts mtu.toNat 0 (sentMessages p (new mtu nowMicros ready) ops) ∧
    ((run p (new mtu nowMicros ready) ops).sending ≠ .ended →
      allParts mtu.toNat 0 (sentMessages p (new mtu nowMicros ready) ops) =
        partsSent p (new mtu nowMicros ready) ops ++ (run p (new mtu nowMicros ready) ops).unsent) := by
  have hfresh : InOrder (new mtu nowMicros ready) [] [] :=
    ⟨fun _ hd => absurd hd List.not_mem_nil, List.prefix_refl _, fun _ => rfl, fun _ => rfl⟩
  have hrun := hfresh.run (p := p) hmtu hops
  have hsame : (run p (new mtu nowMicros ready) ops).conn.shared.mtu = mtu :=
    mtu_run p (new mtu nowMicros ready) ops
  have hsent := hrun.begun
  have hrest := hrun.rest
  rw [hsame] at hsent hrest
  exact ⟨hsent, hrest⟩

/-- a login: the first datagram of the peer, with a `NewIncomingConnection` -/
def login : List Op :=
  [.check, .packet quietEnv (encodeDatagram (.new 0) [(Frame.new .unreliable [idNewIncomingConnection]).encode]),
    .frame quietEnv, .frame quietEnv, .frame quietEnv]

/-- a message between its acceptance and its transmission -/
theorem sent_in_order_login :
    (partsSent .dev (new 1492 0 true) (login ++ [.send [1, 2, 3], .send [4], .sendTask quietEnv]) <+:
      allParts 1492 0 (sentMessages .dev (new 1492 0 true) (login ++ [.send [1, 2, 3], .send [4], .sendTask quietEnv])) ∧
    ((run .dev (new 1492 0 true) (login ++ [.send [1, 2, 3], .send [4], .sendTask quietEnv])).sending ≠ .ended →
      allParts 1492 0 (sentMessages .dev (new 1492 0 true) (login ++ [.send [1, 2, 3], .send [4], .sendTask quietEnv])) =
        partsSent .dev (new 1492 0 true) (login ++ [.send [1, 2, 3], .send [4], .sendTask quietEnv]) ++
          (run .dev (new 1492 0 true) (login ++ [.send [1, 2, 3], .send [4], .sendTask quietEnv])).unsent)) ∧
    partsSent .dev (new 1492 0 true) (login ++ [.send [1, 2, 3], .send [4], .sendTask quietEnv]) = [([1, 2, 3], none)] :=
  ⟨sent_in_order .dev 1492 (by decide) 0 true _ (by
    intro data hdata
    have hsome : data = [1, 2, 3] ∨ data = [4] := by simpa [login] using hdata
    rcases hsome with rfl | rfl <;> decide), by decide +kernel⟩

end Stream

end RakNet
