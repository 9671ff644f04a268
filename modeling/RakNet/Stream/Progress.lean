/-
What a stream gets done when its tasks are scheduled.

- `toSend`: the steps the send task needs for the messages it has; `all_sent`: after as many of them, on a socket that takes
  everything and with the connection open, all that `send` accepted is sent.
-/
import RakNet.Stream.WindDown

namespace RakNet

open Lib Lib.Wire

/-- the steps the message at hand takes the send task -/
def SendPlace.toSend : SendPlace → Nat
  | .fragments _ _ _ chunks => chunks.length + 1
  | .waiting | .ended => 0

namespace Stream

open Conn Action

/-! ## The send task -/

/-- the steps a message of this length takes the send task -/
def messageSteps (mtu len : Nat) : Nat := if isWhole mtu len then 1 else chunkCount len (mtu - 80) + 2

/-- the steps the messages of a stream take its send task -/
def toSend (s : Stream) : Nat :=
  s.sending.toSend + (s.outgoing.map fun data => messageSteps s.conn.shared.mtu.toNat data.length).sum

/-- no message more, and the steps of the send task find the connection open and a socket that takes everything -/
def Flows (s : Stream) : Op → Prop
  | .sendTask env => env.sendError = none ∧ s.conn.shared.isClosed = false
  | .send _ => False
  | _ => True

/-- a stream whose send task runs -/
structure Running (s : Stream) : Prop where
  mtu : 80 < s.conn.shared.mtu.toNat
  lengths : ∀ data ∈ s.outgoing, data.length ≤ maxBytes
  sending : s.sending ≠ .ended
  /-- `Drop` has marked the connection -/
  dropped : s.dropped = true → s.conn.shared.state = .disconnected

/-- what a step of the send task leaves to do -/
theorem Running.sendStep {p : Profile} {s : Stream} (h : s.Running) {env : Env} (hok : env.sendError = none)
    (hopen : s.conn.shared.isClosed = false) :
    (s.sendStep p env).sending ≠ .ended ∧ (s.sendStep p env).toSend = s.toSend - 1 := by
  have hmtu : (s.sendStep p env).conn.shared.mtu = s.conn.shared.mtu := mtu_next p s (.sendTask env)
  have hsent : ∀ payload split, (sendFrame env payload split s.conn).1 = .ok () := by
    intro payload split
    rw [sendFrame_ok hok]
    rfl
  -- where the step leaves the task and the channel
  have hplace : ∀ place rest, (s.sendStep p env).sending = place ∧ (s.sendStep p env).outgoing = rest → place ≠ .ended →
      place.toSend + (rest.map fun data => messageSteps s.conn.shared.mtu.toNat data.length).sum = s.toSend - 1 →
      (s.sendStep p env).sending ≠ .ended ∧ (s.sendStep p env).toSend = s.toSend - 1 := by
    rintro place rest ⟨hsending, hout⟩ hne hsteps
    refine ⟨by rw [hsending]; exact hne, ?_⟩
    rw [← hsteps, toSend, hmtu, hsending, hout]
  cases hs : s.sending with
  | ended => exact absurd hs h.sending
  | fragments splitId totalCount index chunks =>
    cases chunks with
    | nil =>
      refine hplace .waiting s.outgoing ?_ SendPlace.noConfusion ?_
      · simp only [Stream.sendStep, hs, and_self]
      · simp only [toSend, hs, SendPlace.toSend, List.length_nil]
        omega
    | cons chunk rest =>
      refine hplace (.fragments splitId totalCount (index + 1) rest) s.outgoing ?_ SendPlace.noConfusion ?_
      · have hfragment := hsent chunk (some ⟨totalCount, splitId, UInt32.ofNat index⟩)
        unfold Stream.sendStep
        rw [hs]
        dsimp only
        unfold sendFragment
        cases hr : sendFrame env chunk (some ⟨totalCount, splitId, UInt32.ofNat index⟩) s.conn with
        | mk r c =>
          rw [hr] at hfragment
          obtain rfl : r = .ok () := hfragment
          exact ⟨rfl, rfl⟩
      · simp only [toSend, hs, SendPlace.toSend, List.length_cons]
        omega
  | waiting =>
    cases hq : s.outgoing with
    | nil =>
      have hdrop : s.dropped = false := by
        cases hd : s.dropped with
        | false => rfl
        | true =>
          rw [isClosed_of_disconnected (h.dropped hd)] at hopen
          cases hopen
      refine hplace .waiting [] ?_ SendPlace.noConfusion ?_
      · have he : s.sendStep p env = s := by simp only [Stream.sendStep, hs, hq, hdrop]; rfl
        rw [he]
        exact ⟨hs, hq⟩
      · rw [toSend, hs, hq]
        rfl
    | cons data rest =>
      have hlen := h.lengths data (by rw [hq]; exact List.mem_cons_self)
      cases hwhole : isWhole s.conn.shared.mtu.toNat data.length with
      | true =>
        refine hplace .waiting rest ?_ SendPlace.noConfusion ?_
        · have hmessage := hsent data none
          unfold Stream.sendStep
          rw [hs, hq]
          dsimp only
          rw [hopen, beginMessage_whole p env h.mtu hwhole, if_neg Bool.noConfusion, Action.bind_apply]
          cases hr : sendFrame env data none s.conn with
          | mk r c =>
            rw [hr] at hmessage
            obtain rfl : r = .ok () := hmessage
            exact ⟨rfl, rfl⟩
        · rw [toSend, hs, hq, List.map_cons, List.sum_cons, messageSteps, hwhole, if_pos rfl]
          simp only [SendPlace.toSend]
          omega
      | false =>
        refine hplace (.fragments s.conn.shared.splitId
          (UInt32.ofNat (chunkCount data.length (s.conn.shared.mtu.toNat - 80))) 0
          (chunks data (s.conn.shared.mtu.toNat - 80))) rest ?_ SendPlace.noConfusion ?_
        · unfold Stream.sendStep
          rw [hs, hq]
          dsimp only
          rw [hopen, beginMessage_fragmented p env h.mtu hlen hwhole, if_neg Bool.noConfusion]
          exact ⟨rfl, rfl⟩
        · rw [toSend, hs, hq, List.map_cons, List.sum_cons, messageSteps, hwhole, if_neg Bool.noConfusion]
          simp only [SendPlace.toSend, length_chunks]
          omega

/-- the other steps leave what there is to send alone -/
theorem toSend_next (p : Profile) (s : Stream) {op : Op} (htask : ∀ env, op ≠ .sendTask env)
    (hsend : ∀ data, op ≠ .send data) : (next p s op).toSend = s.toSend := by
  obtain ⟨hsending, hout, -⟩ := sending_next p s htask hsend
  rw [toSend, toSend, hsending, hout, mtu_next]

/-- `Drop` marks the connection, and that is final -/
theorem closed_of_dropped_next (p : Profile) {s : Stream} (h : s.dropped = true → s.conn.shared.state = .disconnected)
    (op : Op) (hdropped : (next p s op).dropped = true) : (next p s op).conn.shared.state = .disconnected := by
  by_cases hop : op = .drop
  · rw [hop]
    rfl
  · rw [dropped_next p s hop] at hdropped
    exact disconnected_next p (h hdropped) op

theorem closed_of_dropped (p : Profile) (mtu : UInt16) (nowMicros : Nat) (ready : Bool) (ops : List Op)
    (h : (run p (new mtu nowMicros ready) ops).dropped = true) :
    (run p (new mtu nowMicros ready) ops).conn.shared.state = .disconnected := by
  have hfresh : (new mtu nowMicros ready).dropped = true → (new mtu nowMicros ready).conn.shared.state = .disconnected :=
    fun hd => absurd hd Bool.noConfusion
  exact Machine.run_inv (fun s op hs => closed_of_dropped_next p (s := s) hs op) hfresh ops h

/-- a step of a run in which everything flows -/
theorem Running.next {p : Profile} {s : Stream} (h : s.Running) {op : Op} (hop : s.Flows op) :
    (next p s op).Running ∧ (next p s op).toSend ≤ s.toSend ∧ (op.sends = true → (next p s op).toSend ≤ s.toSend - 1) := by
  have hmtu : 80 < (Stream.next p s op).conn.shared.mtu.toNat := by
    rw [mtu_next]
    exact h.mtu
  have hdropped : (Stream.next p s op).dropped = true → (Stream.next p s op).conn.shared.state = .disconnected :=
    closed_of_dropped_next p h.dropped op
  by_cases htask : ∃ env, op = .sendTask env
  · obtain ⟨env, rfl⟩ := htask
    obtain ⟨hrunning, hsteps⟩ := h.sendStep (p := p) hop.1 hop.2
    have hlengths : ∀ data ∈ (s.sendStep p env).outgoing, data.length ≤ maxBytes :=
      fun data hdata => h.lengths data (outgoing_sendStep p env s hdata)
    exact ⟨⟨hmtu, hlengths, hrunning, hdropped⟩, hsteps.le.trans (Nat.sub_le _ _), fun _ => hsteps.le⟩
  · have hno : ∀ env, op ≠ .sendTask env := fun env he => htask ⟨env, he⟩
    have hnosend : ∀ data, op ≠ .send data := by
      rintro data rfl
      exact hop
    obtain ⟨hsending, hout, -⟩ := sending_next p s hno hnosend
    refine ⟨⟨hmtu, ?_, ?_, hdropped⟩, (toSend_next p s hno hnosend).le, ?_⟩
    · rw [hout]
      exact h.lengths
    · rw [hsending]
      exact h.sending
    · intro hsends
      cases op with
      | sendTask env => exact absurd rfl (hno env)
      | _ => cases hsends

/-- nothing to do, nothing to send -/
theorem unsent_of_toSend {s : Stream} (h : s.toSend = 0) : s.unsent = [] := by
  unfold toSend at h
  unfold unsent
  have hparts : s.sending.parts = [] := by
    cases hs : s.sending with
    | waiting | ended => rfl
    | fragments splitId totalCount index chunks =>
      rw [hs] at h
      simp [SendPlace.toSend] at h
  have hqueue : s.outgoing = [] := by
    cases hq : s.outgoing with
    | nil => rfl
    | cons data rest =>
      rw [hq, List.map_cons, List.sum_cons] at h
      have hpos : 0 < messageSteps s.conn.shared.mtu.toNat data.length := by
        unfold messageSteps
        split_ifs <;> omega
      omega
  rw [hparts, hqueue]
  rfl

theorem not_send_of_flows {p : Profile} {s : Stream} {ops : List Op} (h : Machine.Steps (next p) Flows s ops) (data : Bytes) :
    .send data ∉ ops := by
  induction ops generalizing s with
  | nil => exact List.not_mem_nil
  | cons op ops ih =>
    intro hmem
    rcases List.mem_cons.1 hmem with rfl | hrest
    · exact h.1
    · exact ih h.2 hrest

/-- **Everything accepted is sent.** However the tasks and calls of a stream were interleaved before: once no message more
comes, the send task has sent all that `send` ever accepted after as many steps as the messages at hand take, if the
connection is open at each of them and the socket takes what it is given. -/
theorem all_sent (p : Profile) (mtu : UInt16) (hmtu : 80 < mtu.toNat) (nowMicros : Nat) (ready : Bool) (before after : List Op)
    (hbefore : ∀ data, .send data ∈ before → data.length ≤ maxBytes)
    (hrunning : (run p (new mtu nowMicros ready) before).sending ≠ .ended)
    (hafter : Machine.Steps (next p) Flows (run p (new mtu nowMicros ready) before) after)
    (hsteps : (run p (new mtu nowMicros ready) before).toSend ≤ after.countP Op.sends) :
    partsSent p (new mtu nowMicros ready) (before ++ after) =
      allParts mtu.toNat 0 (sentMessages p (new mtu nowMicros ready) (before ++ after)) := by
  have hfresh : InOrder (new mtu nowMicros ready) [] [] :=
    ⟨fun _ hd => absurd hd List.not_mem_nil, List.prefix_refl _, fun _ => rfl, fun _ => rfl⟩
  have hstart : (run p (new mtu nowMicros ready) before).Running := by
    refine ⟨?_, (hfresh.run (p := p) hmtu hbefore).lengths, hrunning, closed_of_dropped p mtu nowMicros ready before⟩
    rw [mtu_run]
    exact hmtu
  have hleft : (Machine.run (next p) (run p (new mtu nowMicros ready) before) after).toSend ≤
      (run p (new mtu nowMicros ready) before).toSend - after.countP Op.sends :=
    Machine.run_le_sub_of_steps (fun s op (hs : s.Running) hop => (hs.next (p := p) hop).1)
      (fun s op hs hop => (hs.next hop).2.1) (fun s op hs hop => (hs.next hop).2.2) hstart hafter
  have hend := Machine.run_inv_of_steps (fun s op (hs : s.Running) hop => (hs.next (p := p) hop).1) hstart hafter
  have hwhole : run p (new mtu nowMicros ready) (before ++ after) =
      Machine.run (next p) (run p (new mtu nowMicros ready) before) after := Machine.run_append _ _ _ _
  have hzero : (run p (new mtu nowMicros ready) (before ++ after)).toSend = 0 := by
    rw [hwhole]
    omega
  have hsends : ∀ data, .send data ∈ before ++ after → data.length ≤ maxBytes := by
    intro data hdata
    rcases List.mem_append.1 hdata with hold | hnew
    · exact hbefore data hold
    · exact absurd hnew (not_send_of_flows hafter data)
  have hall := (sent_in_order p mtu hmtu nowMicros ready (before ++ after) hsends).2 (by rw [hwhole]; exact hend.sending)
  rw [hall, unsent_of_toSend hzero, List.append_nil]

/-- two messages, with a tick between their transmissions -/
theorem all_sent_login :
    partsSent .dev (new 1492 0 true) ((login ++ [.send [1, 2, 3], .send [4]]) ++
        [.sendTask quietEnv, .tickTask fun _ => quietEnv, .sendTask quietEnv]) =
      allParts 1492 0 (sentMessages .dev (new 1492 0 true) ((login ++ [.send [1, 2, 3], .send [4]]) ++
        [.sendTask quietEnv, .tickTask fun _ => quietEnv, .sendTask quietEnv])) := by
  refine all_sent .dev 1492 (by decide) 0 true _ _ ?_ (by decide +kernel) ?_ (by decide +kernel)
  · intro data hdata
    have hsome : data = [1, 2, 3] ∨ data = [4] := by simpa [login] using hdata
    rcases hsome with rfl | rfl <;> decide
  · exact ⟨⟨rfl, by decide +kernel⟩, trivial, ⟨rfl, by decide +kernel⟩, trivial⟩

end Stream

end RakNet
