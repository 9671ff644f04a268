/-
The listener's connection table (`src/listener.rs`: `run` and `handle_open_connection_request_2`).

Every `OpenConnectionRequest2` gets a task of its own. The task looks the address up under a read lock, and much later,
after four points where other tasks run, inserts it under a write lock; then it spawns a second task that waits until the
login of the new stream is reported or its receive task has gone. An attempt is one such request, with the place its tasks
have reached and with its stream; any attempt can take the next step at any time.

- `next_moves`: what one action can do to an attempt and to the table.
- `next_holds`, `next_stream`, `next_entered`, `next_live`: what follows for the stages, the streams and the table.
- `step_cases`: a step is one action on one attempt, or a new attempt.
-/
import Mathlib.Data.Finset.Basic
import RakNet.Connection.Ending
import RakNet.Handshake.Listener

namespace RakNet

open Lib Lib.Wire

/-- how far the tasks of a request have come -/
inductive Stage where
  | spawned
  /-- the address was not in the table -/
  | checked
  | decoded (mtu : UInt16) (reply : Bytes)
  /-- the session socket has been created -/
  | bound (mtu : UInt16) (reply : Bytes)
  | replied (mtu : UInt16)
  /-- the stream has been created -/
  | streaming (stream : Session)
  /-- the address has been inserted -/
  | listed (stream : Session)
  /-- the second task waits on `ready_rx` -/
  | waiting (stream : Session)
  /-- `Ok`: the stream is in the accept channel, or the application has it -/
  | accepted (stream : Session)
  /-- `Err`: the address has been removed, the stream not dropped yet -/
  | removed (stream : Session)
  | dropped (stream : Session)
  /-- returned without a stream -/
  | over

namespace Stage

/-- between the check and the insertion -/
def inside : Stage → Bool
  | checked | decoded _ _ | bound _ _ | replied _ | streaming _ => true
  | _ => false

/-- inserted, and not removed by its own second task -/
def entered : Stage → Bool
  | listed _ | waiting _ | accepted _ => true
  | _ => false

def holds (s : Stage) : Bool := s.inside || s.entered

def stream? : Stage → Option Session
  | streaming s | listed s | waiting s | accepted s | removed s | dropped s => some s
  | _ => none

/-- there is a stream, and its state is not `Disconnected` -/
def live (s : Stage) : Bool := s.stream?.any fun st => st.conn.shared.state != .disconnected

/-- the address has been inserted, and the login of the stream has neither completed nor failed for good: when the
connection ends first, the receive task goes on to drop its notifier, unless it is in `recv` -/
def pending : Stage → Bool
  | listed s | waiting s => s.conn.notified == 0 && (s.conn.shared.state != .disconnected || s.phase != .waiting)
  | _ => false

/-- an entered attempt has a stream; if its end is reported when it ends, the stream is live or its login is pending -/
theorem pending_or_live {stage : Stage} (hent : stage.entered = true)
    (hreported : ∀ st, stage.stream? = some st → st.EndReported)
    (haccepted : ∀ st, stage = .accepted st → st.conn.notified ≠ 0) : stage.pending = true ∨ stage.live = true := by
  obtain ⟨st, hst⟩ : ∃ st, stage.stream? = some st := by
    cases stage <;> first | exact ⟨_, rfl⟩ | cases hent
  by_cases hdis : st.conn.shared.state = .disconnected
  · left
    obtain ⟨hzero, hphase⟩ := hreported st hst hdis
    cases stage with
    | listed s | waiting s =>
      cases hst
      simp [pending, hzero, hphase]
    | accepted s =>
      cases hst
      exact absurd hzero (haccepted _ rfl)
    | _ => cases hent
  · right
    rw [live, hst]
    simpa using hdis

/-- the stream takes a step -/
def onStream (g : Session → Session) : Stage → Stage
  | streaming s => streaming (g s)
  | listed s => listed (g s)
  | waiting s => waiting (g s)
  | accepted s => accepted (g s)
  | removed s => removed (g s)
  | dropped s => dropped (g s)
  | stage => stage

end Stage

structure Attempt where
  addr : SocketAddr
  packet : Bytes
  stage : Stage

namespace Attempt

/-- the next step of an attempt, with what it reads from outside -/
inductive Act where
  | check (sends : Bool)
  | decode
  | createSocket (ok : Bool)
  | reply (sends : Bool)
  | newStream (nowMicros : Nat)
  | insert
  | spawnWaiter
  /-- `ready_rx.await` returns, if it can; does the accept channel still take streams -/
  | wake (acceptOpen : Bool)
  | drop
  /-- a step of one of the stream's own tasks, or a call of the application -/
  | session (op : Session.Op)

/-- the ready notifier was dropped without being fired -/
def gone (s : Session) : Bool := s.conn.notified == 0 && s.phase == .ended

/-- `Drop for RakNetStream` -/
def dropStream (s : Session) : Session := { s with conn := { s.conn with shared := s.conn.shared.markDisconnected } }

/-- where an action leads; one that is not the attempt's next step does nothing -/
def next (l : RakNetListener) (p : Profile) (connections : Finset SocketAddr) (t : Attempt) : Act → Stage
  | .check _ =>
    match t.stage with
    | .spawned => if t.addr ∈ connections then .over else .checked
    | stage => stage
  | .decode =>
    match t.stage with
    | .checked =>
      match l.replyToRequest2 t.packet t.addr with
      | some (mtu, reply) => .decoded mtu reply
      | none => .over
    | stage => stage
  | .createSocket ok =>
    match t.stage with
    | .decoded mtu reply => if ok then .bound mtu reply else .over
    | stage => stage
  | .reply sends =>
    match t.stage with
    | .bound mtu _ => if sends then .replied mtu else .over
    | stage => stage
  | .newStream nowMicros =>
    match t.stage with
    | .replied mtu => .streaming (Session.init mtu nowMicros true)
    | stage => stage
  | .insert =>
    match t.stage with
    | .streaming s => .listed s
    | stage => stage
  | .spawnWaiter =>
    match t.stage with
    | .listed s => .waiting s
    | stage => stage
  | .wake acceptOpen =>
    match t.stage with
    | .waiting s =>
      if s.conn.notified ≠ 0 then if acceptOpen then .accepted s else .dropped (dropStream s)
      else if gone s then .removed s
      else .waiting s
    | stage => stage
  | .drop =>
    match t.stage with
    | .accepted s => .dropped (dropStream s)
    | .removed s => .dropped (dropStream s)
    | stage => stage
  | .session op => t.stage.onStream (Session.step p · op)

/-- the table after an action: the insertion and the removal of the address -/
def connectionsAfter (connections : Finset SocketAddr) (t : Attempt) : Act → Finset SocketAddr
  | .insert =>
    match t.stage with
    | .streaming _ => insert t.addr connections
    | _ => connections
  | .wake _ =>
    match t.stage with
    | .waiting s => if gone s then connections.erase t.addr else connections
    | _ => connections
  | _ => connections

/-- what an action sends to the remote address -/
def sends (connections : Finset SocketAddr) (t : Attempt) : Act → List Bytes
  | .check true =>
    match t.stage with
    | .spawned => if t.addr ∈ connections then [[idAlreadyConnected]] else []
    | _ => []
  | .reply true =>
    match t.stage with
    | .bound _ reply => [reply]
    | _ => []
  | _ => []

/-- the action ends a connection that is in the table, or will be, in a way its second task does not get to know -/
def endsUnreported (p : Profile) (t : Attempt) : Act → Bool
  | .session op => t.stage.holds && t.stage.stream?.any (·.endsUnreported p op)
  | .wake acceptOpen =>
    match t.stage with
    | .waiting s => s.conn.notified != 0 && !acceptOpen
    | _ => false
  | .drop =>
    match t.stage with
    | .accepted _ => true
    | _ => false
  | _ => false

/-! ## What an action can do -/

variable {l : RakNetListener} {p : Profile} {connections : Finset SocketAddr} {t : Attempt}

theorem stream?_onStream (g : Session → Session) (stage : Stage) :
    (stage.onStream g).stream? = stage.stream?.map g := by
  cases stage <;> rfl

theorem holds_onStream (g : Session → Session) (stage : Stage) : (stage.onStream g).holds = stage.holds := by
  cases stage <;> rfl

theorem entered_onStream (g : Session → Session) (stage : Stage) : (stage.onStream g).entered = stage.entered := by
  cases stage <;> rfl

/-- the steps before there is a stream -/
def Act.isEarly : Act → Bool
  | check _ | decode | createSocket _ | reply _ => true
  | _ => false

/-- the moves of an attempt for `addr`: its stage and the table before and after an action -/
inductive Moves (p : Profile) (connections : Finset SocketAddr) (addr : SocketAddr) :
    Act → Stage → Stage → Finset SocketAddr → Prop where
  /-- the action is not the attempt's next step -/
  | idle (a : Act) (stage : Stage) : Moves p connections addr a stage stage connections
  | known (sends : Bool) : addr ∈ connections → Moves p connections addr (.check sends) .spawned .over connections
  | absent (sends : Bool) : addr ∉ connections → Moves p connections addr (.check sends) .spawned .checked connections
  | decodes (mtu : UInt16) (reply : Bytes) :
    Moves p connections addr .decode .checked (.decoded mtu reply) connections
  | creates (mtu : UInt16) (reply : Bytes) :
    Moves p connections addr (.createSocket true) (.decoded mtu reply) (.bound mtu reply) connections
  | replies (mtu : UInt16) (reply : Bytes) :
    Moves p connections addr (.reply true) (.bound mtu reply) (.replied mtu) connections
  /-- a packet that does not decode, no socket, or a reply that cannot be sent -/
  | fails (a : Act) (stage : Stage) : a.isEarly = true → stage.entered = false →
    Moves p connections addr a stage .over connections
  | begins (mtu : UInt16) (nowMicros : Nat) :
    Moves p connections addr (.newStream nowMicros) (.replied mtu) (.streaming (Session.init mtu nowMicros true)) connections
  | enters (s : Session) : Moves p connections addr .insert (.streaming s) (.listed s) (insert addr connections)
  | waits (s : Session) : Moves p connections addr .spawnWaiter (.listed s) (.waiting s) connections
  | accepts (s : Session) : s.conn.notified ≠ 0 →
    Moves p connections addr (.wake true) (.waiting s) (.accepted s) connections
  | refuses (s : Session) : s.conn.notified ≠ 0 →
    Moves p connections addr (.wake false) (.waiting s) (.dropped (dropStream s)) connections
  | givesUp (s : Session) (acceptOpen : Bool) : gone s = true →
    Moves p connections addr (.wake acceptOpen) (.waiting s) (.removed s) (connections.erase addr)
  | dropsAccepted (s : Session) : Moves p connections addr .drop (.accepted s) (.dropped (dropStream s)) connections
  | dropsRemoved (s : Session) : Moves p connections addr .drop (.removed s) (.dropped (dropStream s)) connections
  | session (op : Session.Op) (stage : Stage) :
    Moves p connections addr (.session op) stage (stage.onStream (Session.step p · op)) connections

/-- **What an action can do.** -/
theorem next_moves (l : RakNetListener) (p : Profile) (connections : Finset SocketAddr) (t : Attempt) (a : Act) :
    Moves p connections t.addr a t.stage (t.next l p connections a) (t.connectionsAfter connections a) := by
  obtain ⟨addr, packet, stage⟩ := t
  cases a with
  | check sends =>
    cases stage with
    | spawned =>
      unfold next
      dsimp only
      split_ifs with hmem
      · exact .known sends hmem
      · exact .absent sends hmem
    | _ => exact .idle _ _
  | decode =>
    cases stage with
    | checked =>
      unfold next
      dsimp only
      cases l.replyToRequest2 packet addr with
      | some r => exact .decodes r.1 r.2
      | none => exact .fails _ _ rfl rfl
    | _ => exact .idle _ _
  | createSocket ok =>
    cases stage with
    | decoded mtu reply =>
      cases ok with
      | true => exact .creates mtu reply
      | false => exact .fails _ _ rfl rfl
    | _ => exact .idle _ _
  | reply sends =>
    cases stage with
    | bound mtu reply =>
      cases sends with
      | true => exact .replies mtu reply
      | false => exact .fails _ _ rfl rfl
    | _ => exact .idle _ _
  | newStream nowMicros =>
    cases stage with
    | replied mtu => exact .begins mtu nowMicros
    | _ => exact .idle _ _
  | insert =>
    cases stage with
    | streaming s => exact .enters s
    | _ => exact .idle _ _
  | spawnWaiter =>
    cases stage with
    | listed s => exact .waits s
    | _ => exact .idle _ _
  | wake acceptOpen =>
    cases stage with
    | waiting s =>
      unfold next connectionsAfter
      dsimp only
      by_cases hn : s.conn.notified ≠ 0
      · -- a notifier that was fired was not dropped
        have hgone : gone s ≠ true := by simp [gone, hn]
        rw [if_pos hn, if_neg hgone]
        cases acceptOpen with
        | true => exact .accepts s hn
        | false => exact .refuses s hn
      · rw [if_neg hn]
        by_cases hgone : gone s = true
        · rw [if_pos hgone, if_pos hgone]
          exact .givesUp s acceptOpen hgone
        · rw [if_neg hgone, if_neg hgone]
          exact .idle _ _
    | _ => exact .idle _ _
  | drop =>
    cases stage with
    | accepted s => exact .dropsAccepted s
    | removed s => exact .dropsRemoved s
    | _ => exact .idle _ _
  | session op => exact .session op stage

/-- an attempt gets hold of its address only in a check that finds the address absent -/
theorem next_holds {a : Act} (h : (t.next l p connections a).holds = true) :
    t.stage.holds = true ∨ (t.stage = .spawned ∧ t.addr ∉ connections ∧ ∃ sends, a = .check sends) := by
  have hmoves := next_moves l p connections t a
  generalize t.next l p connections a = after at h hmoves
  generalize t.connectionsAfter connections a = connections' at hmoves
  generalize t.stage = stage at hmoves ⊢
  cases hmoves with
  | idle => exact Or.inl h
  | absent sends habsent => exact Or.inr ⟨rfl, habsent, sends, rfl⟩
  | decodes | creates | replies | begins | enters | waits | accepts => exact Or.inl rfl
  | session op =>
    left
    rw [← holds_onStream (Session.step p · op)]
    exact h
  | known | fails | refuses | givesUp | dropsAccepted | dropsRemoved => cases h

/-- the streams of an attempt: the one it had, a new one, the one it had after a step of its own, a dropped one -/
theorem next_stream {a : Act} {st : Session} (h : (t.next l p connections a).stream? = some st) :
    t.stage.stream? = some st ∨
    (∃ mtu nowMicros, st = Session.init mtu nowMicros true) ∨
    (∃ before op, t.stage.stream? = some before ∧ a = .session op ∧ st = Session.step p before op) ∨
    (∃ before, t.stage.stream? = some before ∧ st = dropStream before ∧ t.next l p connections a = .dropped st) := by
  have hmoves := next_moves l p connections t a
  generalize t.next l p connections a = after at h hmoves ⊢
  generalize t.connectionsAfter connections a = connections' at hmoves
  generalize t.stage = stage at hmoves ⊢
  cases hmoves with
  | idle | enters | waits | accepts | givesUp => exact Or.inl h
  | known | absent | decodes | creates | replies | fails => cases h
  | begins mtu nowMicros =>
    cases h
    exact Or.inr (Or.inl ⟨mtu, nowMicros, rfl⟩)
  | refuses s | dropsAccepted s | dropsRemoved s =>
    cases h
    exact Or.inr (Or.inr (Or.inr ⟨s, rfl, rfl, rfl⟩))
  | session op =>
    rw [stream?_onStream] at h
    obtain ⟨before, hbefore, rfl⟩ := Option.map_eq_some_iff.1 h
    exact Or.inr (Or.inr (Or.inl ⟨before, op, hbefore, rfl, rfl⟩))

/-- an entered attempt was entered before, with the table as it was, or it has just been inserted -/
theorem next_entered {a : Act} (h : (t.next l p connections a).entered = true) :
    (t.stage.entered = true ∧ t.connectionsAfter connections a = connections) ∨
    t.connectionsAfter connections a = insert t.addr connections := by
  have hmoves := next_moves l p connections t a
  generalize t.next l p connections a = after at h hmoves
  generalize t.connectionsAfter connections a = connections' at hmoves ⊢
  generalize t.stage = stage at hmoves ⊢
  cases hmoves with
  | idle => exact Or.inl ⟨h, rfl⟩
  | enters s => exact Or.inr rfl
  | waits | accepts => exact Or.inl ⟨rfl, rfl⟩
  | session op =>
    left
    rw [← entered_onStream (Session.step p · op)]
    exact ⟨h, rfl⟩
  | _ => cases h

/-- an entered attempt stays entered, or its address is taken out, unless its stream is dropped after the login -/
theorem entered_next (h : t.stage.entered = true) {a : Act} (ha : t.endsUnreported p a = false) :
    (t.next l p connections a).entered = true ∨ t.addr ∉ t.connectionsAfter connections a := by
  have hmoves := next_moves l p connections t a
  unfold endsUnreported at ha
  generalize t.next l p connections a = after at hmoves ⊢
  generalize t.connectionsAfter connections a = connections' at hmoves ⊢
  generalize t.stage = stage at h ha hmoves
  cases hmoves with
  | idle => exact Or.inl h
  | waits | accepts => exact Or.inl rfl
  | givesUp => exact Or.inr (Finset.notMem_erase _ _)
  | session op =>
    left
    rw [entered_onStream]
    exact h
  | refuses s hn => simp [hn] at ha
  | dropsAccepted s => exact Bool.noConfusion ha
  | fails _ _ _ hentered =>
    rw [hentered] at h
    cases h
  | _ => cases h

/-- a stream is accepted when its login has been reported -/
theorem next_accepted {a : Act} {st : Session} (h : t.next l p connections a = .accepted st) :
    t.stage = .accepted st ∨ st.conn.notified ≠ 0 ∨
    ∃ before op, t.stage = .accepted before ∧ st = Session.step p before op := by
  have hmoves := next_moves l p connections t a
  generalize t.next l p connections a = after at h hmoves
  generalize t.connectionsAfter connections a = connections' at hmoves
  generalize t.stage = stage at hmoves ⊢
  cases hmoves with
  | idle => exact Or.inl h
  | accepts s hn =>
    cases h
    exact Or.inr (Or.inl hn)
  | session op =>
    cases stage with
    | accepted before =>
      cases h
      exact Or.inr (Or.inr ⟨before, op, rfl, rfl⟩)
    | _ => cases h
  | _ => cases h

/-- a live stream belongs to an attempt that has hold of its address, if the receive task of a login that is given up has
marked the stream -/
theorem next_live {a : Act} (hlive : t.stage.live = true → t.stage.holds = true)
    (hmarked : ∀ st, t.stage.stream? = some st → st.conn.notified = 0 → st.EndedMarked)
    (h : (t.next l p connections a).live = true) : (t.next l p connections a).holds = true := by
  have hmoves := next_moves l p connections t a
  generalize t.next l p connections a = after at h hmoves ⊢
  generalize t.connectionsAfter connections a = connections' at hmoves
  generalize t.stage = stage at hlive hmarked hmoves
  cases hmoves with
  | idle => exact hlive h
  | absent | decodes | creates | replies | begins | enters | waits | accepts => rfl
  | known | fails | refuses | dropsAccepted | dropsRemoved => cases h
  | givesUp s acceptOpen hgone =>
    -- the receive task is gone, so the stream is disconnected
    simp only [gone, Bool.and_eq_true, beq_iff_eq] at hgone
    have hdis : s.conn.shared.state = .disconnected := hmarked s rfl hgone.1 hgone.2
    simp [Stage.live, Stage.stream?, hdis] at h
  | session op =>
    have hbefore : stage.live = true := by
      unfold Stage.live at h ⊢
      rw [stream?_onStream, Option.any_map] at h
      cases hs : stage.stream? with
      | none =>
        rw [hs] at h
        cases h
      | some st =>
        rw [hs] at h
        simp only [Option.any_some, bne_iff_ne, ne_eq] at h ⊢
        exact fun hdis => h (Session.disconnected_step hdis op)
    rw [holds_onStream]
    exact hlive hbefore

/-- the table changes at the attempt's own address only: an address goes in, or the second task takes it out -/
theorem mem_connectionsAfter (a : Act) (addr : SocketAddr) :
    (addr ∈ t.connectionsAfter connections a ↔ addr ∈ connections) ∨
    (addr = t.addr ∧ addr ∈ t.connectionsAfter connections a ∧ (t.next l p connections a).entered = true) ∨
    (addr = t.addr ∧ addr ∉ t.connectionsAfter connections a ∧
      ∃ s, t.stage = .waiting s ∧ gone s = true ∧ t.next l p connections a = .removed s) := by
  have hmoves := next_moves l p connections t a
  generalize t.next l p connections a = after at hmoves ⊢
  generalize t.connectionsAfter connections a = connections' at hmoves ⊢
  generalize t.stage = stage at hmoves ⊢
  cases hmoves with
  | enters s =>
    by_cases haddr : addr = t.addr
    · exact Or.inr (Or.inl ⟨haddr, haddr ▸ Finset.mem_insert_self _ _, rfl⟩)
    · left
      rw [Finset.mem_insert]
      exact or_iff_right haddr
  | givesUp s acceptOpen hgone =>
    by_cases haddr : addr = t.addr
    · exact Or.inr (Or.inr ⟨haddr, haddr ▸ Finset.notMem_erase _ _, s, rfl, hgone, rfl⟩)
    · left
      rw [Finset.mem_erase]
      exact and_iff_right haddr
  | _ => exact Or.inl Iff.rfl

end Attempt

/-- the listener: its table, the requests it has taken, and what it has sent to whom -/
structure ListenerState where
  connections : Finset SocketAddr
  attempts : List Attempt
  sent : List (SocketAddr × Bytes)

namespace ListenerState

open Attempt (Act)

def new : ListenerState := ⟨∅, [], []⟩

inductive Op where
  /-- the loop of `run` takes a packet; does the socket take the answer, if there is one at once -/
  | packet (addr : SocketAddr) (data : Bytes) (sends : Bool)
  /-- the attempt with this number takes a step -/
  | act (i : Nat) (a : Act)

def step (l : RakNetListener) (p : Profile) (s : ListenerState) : Op → ListenerState
  | .packet addr data sends =>
    let packet := data.take Conn.recvBufferSize
    if packet.head? = some idOpenConnectionRequest2 then
      { s with attempts := s.attempts ++ [⟨addr, packet, .spawned⟩] }
    else if sends then { s with sent := s.sent ++ (l.answer packet).toList.map (addr, ·) }
    else s
  | .act i a =>
    match s.attempts[i]? with
    | none => s
    | some t =>
      { connections := t.connectionsAfter s.connections a
        attempts := s.attempts.set i { t with stage := t.next l p s.connections a }
        sent := s.sent ++ (t.sends s.connections a).map (t.addr, ·) }

def run (l : RakNetListener) (p : Profile) (s : ListenerState) (ops : List Op) : ListenerState :=
  Machine.run (step l p) s ops

/-- the attempt after an action -/
def acted (l : RakNetListener) (p : Profile) (s : ListenerState) (t : Attempt) (a : Act) : Attempt :=
  { t with stage := t.next l p s.connections a }

/-- **A step** leaves the table and the attempts alone, takes a new request, or is one action on one attempt. -/
theorem step_cases (l : RakNetListener) (p : Profile) (s : ListenerState) (op : Op) :
    ((step l p s op).connections = s.connections ∧ (step l p s op).attempts = s.attempts) ∨
    (∃ addr packet, (step l p s op).connections = s.connections ∧
      (step l p s op).attempts = s.attempts ++ [⟨addr, packet, .spawned⟩]) ∨
    (∃ i a t, op = .act i a ∧ s.attempts[i]? = some t ∧
      (step l p s op).connections = t.connectionsAfter s.connections a ∧
      (step l p s op).attempts = s.attempts.set i (acted l p s t a)) := by
  cases op with
  | packet addr data sends =>
    unfold step
    dsimp only
    split_ifs
    · exact Or.inr (Or.inl ⟨addr, data.take Conn.recvBufferSize, rfl, rfl⟩)
    · exact Or.inl ⟨rfl, rfl⟩
    · exact Or.inl ⟨rfl, rfl⟩
  | act i a =>
    unfold step
    dsimp only
    cases ht : s.attempts[i]? with
    | none => exact Or.inl ⟨rfl, rfl⟩
    | some t => exact Or.inr (Or.inr ⟨i, a, t, rfl, ht, rfl, rfl⟩)

/-- the attempts after a step: as they were, new, or acted on -/
theorem attempt_step {l : RakNetListener} {p : Profile} {s : ListenerState} {op : Op} {j : Nat} {t' : Attempt}
    (h : (step l p s op).attempts[j]? = some t') :
    s.attempts[j]? = some t' ∨ t'.stage = .spawned ∨
    ∃ a t, op = .act j a ∧ s.attempts[j]? = some t ∧ t' = acted l p s t a := by
  rcases step_cases l p s op with ⟨-, he⟩ | ⟨addr, packet, -, he⟩ | ⟨i, a, t, rfl, ht, -, he⟩
  · rw [he] at h
    exact Or.inl h
  · rw [he] at h
    rcases Nat.lt_or_ge j s.attempts.length with hlt | hge
    · rw [List.getElem?_append_left hlt] at h
      exact Or.inl h
    · rw [List.getElem?_append_right hge, List.getElem?_singleton] at h
      split_ifs at h
      cases h
      exact Or.inr (Or.inl rfl)
  · rw [he, List.getElem?_set] at h
    split_ifs at h with hij hlt
    · cases h
      subst hij
      exact Or.inr (Or.inr ⟨a, t, rfl, ht, rfl⟩)
    · exact Or.inl h

theorem attempt_acted {l : RakNetListener} {p : Profile} {s : ListenerState} {i : Nat} {t : Attempt}
    (h : s.attempts[i]? = some t) (a : Act) : (step l p s (.act i a)).attempts[i]? = some (acted l p s t a) := by
  have hlt : i < s.attempts.length := (List.getElem?_eq_some_iff.1 h).1
  simp only [step, h]
  rw [List.getElem?_set, if_pos rfl, if_pos hlt]
  rfl

/-- an attempt keeps its address, and no attempt goes away -/
theorem attempt_kept {l : RakNetListener} {p : Profile} {s : ListenerState} {j : Nat} {t : Attempt}
    (h : s.attempts[j]? = some t) (op : Op) :
    ∃ t', (step l p s op).attempts[j]? = some t' ∧ t'.addr = t.addr ∧
      (t' = t ∨ ∃ a, op = .act j a ∧ t' = acted l p s t a) := by
  have hlt : j < s.attempts.length := (List.getElem?_eq_some_iff.1 h).1
  rcases step_cases l p s op with ⟨-, he⟩ | ⟨addr, packet, -, he⟩ | ⟨i, a, t₁, rfl, ht, -, he⟩
  · rw [he]
    exact ⟨t, h, rfl, Or.inl rfl⟩
  · rw [he, List.getElem?_append_left hlt]
    exact ⟨t, h, rfl, Or.inl rfl⟩
  · rw [he, List.getElem?_set]
    by_cases hij : i = j
    · subst hij
      rw [h] at ht
      cases ht
      rw [if_pos rfl, if_pos hlt]
      exact ⟨acted l p s t a, rfl, rfl, Or.inr ⟨a, rfl, rfl⟩⟩
    · rw [if_neg hij]
      exact ⟨t, h, rfl, Or.inl rfl⟩

/-- **The table after a step**: as it was at this address, with the address gone in, or with it taken out by the second
task of one of its attempts. -/
theorem mem_connections_step (l : RakNetListener) (p : Profile) (s : ListenerState) (op : Op) (addr : SocketAddr) :
    (addr ∈ (step l p s op).connections ↔ addr ∈ s.connections) ∨
    (∃ (i : Nat) (t' : Attempt), (step l p s op).attempts[i]? = some t' ∧ t'.addr = addr ∧ addr ∈ (step l p s op).connections ∧
      t'.stage.entered = true) ∨
    (∃ (i : Nat) (a : Act) (t : Attempt) (st : Session), op = .act i a ∧ s.attempts[i]? = some t ∧ t.addr = addr ∧ addr ∉ (step l p s op).connections ∧
      t.stage = .waiting st ∧ Attempt.gone st = true ∧ (acted l p s t a).stage = .removed st) := by
  rcases step_cases l p s op with ⟨hconn, -⟩ | ⟨own, packet, hconn, -⟩ | ⟨i, a, t, rfl, ht, hconn, he⟩
  · rw [hconn]
    exact Or.inl Iff.rfl
  · rw [hconn]
    exact Or.inl Iff.rfl
  · have hlt : i < s.attempts.length := (List.getElem?_eq_some_iff.1 ht).1
    rw [hconn, he]
    rcases Attempt.mem_connectionsAfter (l := l) (p := p) (t := t) a addr with
      hsame | ⟨rfl, hin, hent⟩ | ⟨rfl, hout, st, hst, hgone, hnext⟩
    · exact Or.inl hsame
    · refine Or.inr (Or.inl ⟨i, acted l p s t a, ?_, rfl, hin, hent⟩)
      rw [List.getElem?_set, if_pos rfl, if_pos hlt]
    · exact Or.inr (Or.inr ⟨i, a, t, st, rfl, ht, rfl, hout, hst, hgone, hnext⟩)

end ListenerState

end RakNet
