/-
Calls of `close`, interleaved with the tasks of the connection.

`close` tries the transition to `Disconnecting`; if that succeeds it sends a disconnect notification, and then it marks the
connection as disconnected. The `?` behind the send returns before the last step. Any number of calls can be under way while
the receive task logs the connection in and any task marks it as disconnected (a disconnect notification of the peer, a
failed receive, a timeout, `Drop`).

- `close_steps`: the steps of a call, with nothing in between, are `close`.
- `edge_step`, `disconnected_final`, `transmitted_once`: the state machine is kept in every run, and one call at most
  transmits a notification.
- `orderly_iff`: a call that has returned leaves a disconnected connection, exactly when no send fails on a connection that
  is not disconnected by then.
- `failed_close`: a close whose send fails.
-/
import RakNet.Connection.Closing

namespace RakNet

open Lib Lib.Wire

namespace ConnectionState

@[simp] theorem canTransitionTo_self (s : ConnectionState) : s.canTransitionTo s = true := by
  simp [canTransitionTo]

@[simp] theorem canTransitionTo_disconnected (s : ConnectionState) : s.canTransitionTo .disconnected = true := by
  cases s <;> rfl

/-- a compare-and-swap moves along an edge or not at all -/
theorem canTransitionTo_transition (s expected next : ConnectionState) :
    s.canTransitionTo (s.transition expected next).2 = true := by
  unfold transition
  split_ifs with hedge hsame
  · exact canTransitionTo_self s
  · rw [hsame]
    simpa using hedge
  · exact canTransitionTo_self s

/-- no edge leads out of `Disconnected` -/
theorem eq_of_canTransitionTo_disconnected {s : ConnectionState} (h : disconnected.canTransitionTo s = true) :
    s = .disconnected := by
  cases s with
  | disconnected => rfl
  | _ => cases h

/-- no edge leads from a state that cannot receive to one that can -/
theorem canReceive_of_canTransitionTo {s next : ConnectionState} (h : s.canTransitionTo next = true)
    (hs : s.canReceive = false) : next.canReceive = false := by
  cases s with
  | connecting | connected => cases hs
  | disconnecting | disconnected =>
    cases next with
    | connecting | connected => cases h
    | disconnecting | disconnected => rfl

end ConnectionState

namespace Conn

open Action

/-- `close` -/
def close (env : Env) : Act Unit := do
  beginClose env
  modifyShared SharedState.markDisconnected

end Conn

open Conn

/-! ## The steps of a call -/

/-- a call of `close` behind its `mark_disconnecting` -/
structure Call where
  /-- what `mark_disconnecting` returned -/
  disconnecting : Bool
  /-- the socket took the notification -/
  transmitted : Bool
  /-- what the call has returned -/
  result : Option (Result Unit)

namespace Call

open Action

/-- the first step of a call: `mark_disconnecting` -/
def enter (c : Conn) : Call × Conn :=
  (⟨c.shared.markDisconnecting.1, false, none⟩, { c with shared := c.shared.markDisconnecting.2 })

/-- the call is about to send its notification -/
def sending (call : Call) : Bool := call.result.isNone && call.disconnecting && !call.transmitted

/-- the next step of a call: the send, or else `mark_disconnected` -/
def proceed (env : Env) (call : Call) (c : Conn) : Call × Conn :=
  if call.result.isSome then (call, c)
  else if call.sending then
    match socketSend env encodeDisconnectNotification c with
    | (.ok (), c') => ({ call with transmitted := true }, c')
    | (r, c') => ({ call with result := some r }, c')
  else ({ call with result := some (.ok ()) }, { c with shared := c.shared.markDisconnected })

/-- **What a step of a call does**: nothing more, the notification, an early return, or the end of the connection. -/
theorem proceed_cases (env : Env) (call : Call) (c : Conn) :
    (call.result.isSome = true ∧ call.proceed env c = (call, c)) ∨
    (call.sending = true ∧ env.sendError = none ∧
      call.proceed env c = ({ call with transmitted := true }, { c with sent := c.sent ++ [encodeDisconnectNotification] })) ∨
    (call.sending = true ∧ ∃ msg, env.sendError = some msg ∧
      call.proceed env c = ({ call with result := some (.err (.io msg)) }, c)) ∨
    (call.sending = false ∧
      call.proceed env c = ({ call with result := some (.ok ()) }, { c with shared := c.shared.markDisconnected })) := by
  unfold proceed
  split_ifs with hreturned hsending
  · exact Or.inl ⟨hreturned, rfl⟩
  · right
    cases henv : env.sendError with
    | none =>
      refine Or.inl ⟨hsending, rfl, ?_⟩
      simp only [socketSend, henv]
      rfl
    | some msg =>
      refine Or.inr (Or.inl ⟨hsending, msg, rfl, ?_⟩)
      simp only [socketSend, henv]
      rfl
  · exact Or.inr (Or.inr (Or.inr ⟨by simpa using hsending, rfl⟩))

/-- the steps of a call with nothing in between: after the first one, two at most are left -/
theorem proceed_enter (env : Env) (c : Conn) :
    (((enter c).1.proceed env (enter c).2).1.proceed env ((enter c).1.proceed env (enter c).2).2).2 = (close env c).2 ∧
      (((enter c).1.proceed env (enter c).2).1.proceed env ((enter c).1.proceed env (enter c).2).2).1.result =
        some (close env c).1 := by
  have hbegin : beginClose env c = (if (enter c).1.disconnecting then socketSend env encodeDisconnectNotification
      else pure () : Act Unit) (enter c).2 := rfl
  unfold close
  rw [bind_apply, hbegin]
  unfold enter
  cases c.shared.markDisconnecting.1 with
  | false => exact ⟨rfl, rfl⟩
  | true =>
    cases henv : env.sendError with
    | none => simp [proceed, sending, socketSend, henv, modifyShared]
    | some msg => simp [proceed, sending, socketSend, henv]

/-- what `mark_disconnecting` returned is not changed -/
theorem disconnecting_proceed (env : Env) (call : Call) (c : Conn) :
    (call.proceed env c).1.disconnecting = call.disconnecting := by
  rcases proceed_cases env call c with ⟨-, h⟩ | ⟨-, -, h⟩ | ⟨-, _, -, h⟩ | ⟨-, h⟩ <;> rw [h]

theorem disconnecting_of_sending {call : Call} (h : call.sending = true) : call.disconnecting = true := by
  unfold sending at h
  simp only [Bool.and_eq_true] at h
  exact h.1.2

/-- a call transmits in the step in which it sends -/
theorem transmitted_proceed {env : Env} {call : Call} {c : Conn} (h : (call.proceed env c).1.transmitted = true) :
    call.transmitted = true ∨ call.sending = true := by
  rcases proceed_cases env call c with ⟨-, hp⟩ | ⟨hsending, -, -⟩ | ⟨hsending, -⟩ | ⟨-, hp⟩
  · rw [hp] at h
    exact Or.inl h
  · exact Or.inr hsending
  · exact Or.inr hsending
  · rw [hp] at h
    exact Or.inl h

/-- a call that makes the transition makes it from `Connected` to `Disconnecting` -/
theorem enter_disconnecting {c : Conn} (h : (enter c).1.disconnecting = true) :
    c.shared.state = .connected ∧ (enter c).2.shared.state = .disconnecting := by
  unfold enter SharedState.markDisconnecting at h ⊢
  dsimp only at h ⊢
  cases hs : c.shared.state with
  | connected => exact ⟨rfl, rfl⟩
  | _ =>
    rw [hs] at h
    cases h

/-- a step of a call leaves the state alone, or ends the connection -/
theorem state_proceed (env : Env) (call : Call) (c : Conn) :
    (call.proceed env c).2.shared.state = c.shared.state ∨ (call.proceed env c).2.shared.state = .disconnected := by
  rcases proceed_cases env call c with ⟨-, h⟩ | ⟨-, -, h⟩ | ⟨-, _, -, h⟩ | ⟨-, h⟩ <;> rw [h]
  · exact Or.inl rfl
  · exact Or.inl rfl
  · exact Or.inl rfl
  · exact Or.inr rfl

end Call

/-- a session and the calls of `close` on its stream -/
structure Closers where
  session : Session
  calls : List Call

namespace Closers

inductive Op where
  /-- an operation of the tasks -/
  | session (op : Session.Op)
  /-- a new call, up to its `mark_disconnecting` -/
  | close
  /-- the next step of a call -/
  | proceed (i : Nat) (env : Env)

def step (p : Profile) (s : Closers) : Op → Closers
  | .session (.beginClose _) => s
  | .session op => { s with session := Session.step p s.session op }
  | .close =>
    { session := { s.session with conn := (Call.enter s.session.conn).2 }
      calls := s.calls ++ [(Call.enter s.session.conn).1] }
  | .proceed i env =>
    match s.calls[i]? with
    | none => s
    | some call =>
      { session := { s.session with conn := (call.proceed env s.session.conn).2 }
        calls := s.calls.set i (call.proceed env s.session.conn).1 }

def run (p : Profile) (s : Closers) (ops : List Op) : Closers := Machine.run (step p) s ops

def state (s : Closers) : ConnectionState := s.session.conn.shared.state

/-- a step of the last call -/
theorem step_proceed_last (p : Profile) (session : Session) (calls : List Call) (call : Call) (env : Env) :
    step p ⟨session, calls ++ [call]⟩ (.proceed calls.length env) =
      ⟨{ session with conn := (call.proceed env session.conn).2 }, calls ++ [(call.proceed env session.conn).1]⟩ := by
  have hget : (calls ++ [call])[calls.length]? = some call := List.getElem?_concat_length
  have hset : ∀ call', (calls ++ [call]).set calls.length call' = calls ++ [call'] := by
    intro call'
    rw [List.set_append_right _ _ (le_refl _), Nat.sub_self]
    rfl
  unfold step
  dsimp only
  rw [hget]
  dsimp only
  rw [hset]

/-- **A call that nothing interrupts** is `close`. -/
theorem close_steps (p : Profile) (s : Closers) (env : Env) :
    ∃ call, run p s [.close, .proceed s.calls.length env, .proceed s.calls.length env] =
        ⟨{ s.session with conn := (Conn.close env s.session.conn).2 }, s.calls ++ [call]⟩ ∧
      call.result = some (Conn.close env s.session.conn).1 := by
  obtain ⟨hconn, hresult⟩ := Call.proceed_enter env s.session.conn
  refine ⟨_, ?_, hresult⟩
  rw [← hconn]
  simp only [run, Machine.run_cons, Machine.run_nil]
  rw [step, step_proceed_last, step_proceed_last]

/-! ## The state machine -/

/-- the state after a step -/
theorem state_step (p : Profile) (s : Closers) (op : Op) :
    (step p s op).state = match op with
      | .session (.beginClose _) => s.state
      | .session op => Session.nextState p s.session op
      | .close => (s.state.transition .connected .disconnecting).2
      | .proceed i env =>
        match s.calls[i]? with
        | none => s.state
        | some call => (call.proceed env s.session.conn).2.shared.state := by
  cases op with
  | session op =>
    cases op with
    | beginClose env => rfl
    | _ => exact Session.state_step p s.session _
  | close => rfl
  | proceed i env =>
    unfold step
    dsimp only
    cases s.calls[i]? <;> rfl

/-- a task of the connection moves it along an edge -/
theorem edge_nextState (p : Profile) (s : Session) (op : Session.Op) :
    s.conn.shared.state.canTransitionTo (Session.nextState p s op) = true := by
  unfold Session.nextState
  cases op with
  | check => exact ConnectionState.canTransitionTo_self _
  | frame env =>
    dsimp only
    cases Session.frameOf p s (.frame env) with
    | none => exact ConnectionState.canTransitionTo_self _
    | some f =>
      dsimp only
      unfold stateAfter
      cases kindIn s.conn.shared.state f with
      | disconnect => exact ConnectionState.canTransitionTo_disconnected _
      | incoming =>
        dsimp only
        split_ifs
        · exact ConnectionState.canTransitionTo_transition _ _ _
        · exact ConnectionState.canTransitionTo_self _
      | _ => exact ConnectionState.canTransitionTo_self _
  | beginClose env => exact ConnectionState.canTransitionTo_transition _ _ _
  | recv env packet | recvError | other op =>
    dsimp only
    split_ifs
    · exact ConnectionState.canTransitionTo_disconnected _
    · exact ConnectionState.canTransitionTo_self _

/-- **Every step moves along an edge.** -/
theorem edge_step (p : Profile) (s : Closers) (op : Op) : s.state.canTransitionTo (step p s op).state = true := by
  rw [state_step]
  cases op with
  | session op =>
    cases op with
    | beginClose env => exact ConnectionState.canTransitionTo_self _
    | _ => exact edge_nextState p s.session _
  | close => exact ConnectionState.canTransitionTo_transition _ _ _
  | proceed i env =>
    dsimp only
    cases s.calls[i]? with
    | none => exact ConnectionState.canTransitionTo_self _
    | some call =>
      dsimp only
      rcases call.state_proceed env s.session.conn with hsame | hend
      · rw [hsame]
        exact ConnectionState.canTransitionTo_self _
      · rw [hend]
        exact ConnectionState.canTransitionTo_disconnected _

/-- **`Disconnected` is never left.** -/
theorem disconnected_final (p : Profile) {s : Closers} (h : s.state = .disconnected) (ops : List Op) :
    (run p s ops).state = .disconnected := by
  refine @Machine.run_inv Closers Op (step p) (fun s => s.state = .disconnected) ?_ s h ops
  intro s op hs
  have hedge := edge_step p s op
  rw [hs] at hedge
  exact ConnectionState.eq_of_canTransitionTo_disconnected hedge

/-! ## Notifications -/

/-- how many calls have made the transition to `Disconnecting` -/
def entered (s : Closers) : Nat := (s.calls.map Call.disconnecting).count true

/-- one call at most has made the transition, and the connection cannot receive any more from then on; only that call
transmits -/
structure Single (s : Closers) : Prop where
  entered : s.entered ≤ 1
  closed : s.entered = 1 → s.state.canReceive = false
  transmitted : ∀ call ∈ s.calls, call.transmitted = true → call.disconnecting = true

/-- a call after a step of one of them -/
theorem mem_proceed {p : Profile} {s : Closers} {i : Nat} {env : Env} {call : Call}
    (h : call ∈ (step p s (.proceed i env)).calls) :
    call ∈ s.calls ∨ ∃ old, s.calls[i]? = some old ∧ call = (old.proceed env s.session.conn).1 := by
  unfold step at h
  dsimp only at h
  cases hcall : s.calls[i]? with
  | none =>
    rw [hcall] at h
    exact Or.inl h
  | some old =>
    rw [hcall] at h
    rcases List.mem_or_eq_of_mem_set h with hold | hnew
    · exact Or.inl hold
    · exact Or.inr ⟨old, rfl, hnew⟩

theorem entered_proceed (p : Profile) (s : Closers) (i : Nat) (env : Env) :
    (step p s (.proceed i env)).entered = s.entered := by
  unfold step entered
  dsimp only
  cases hcall : s.calls[i]? with
  | none => rfl
  | some call =>
    obtain ⟨hi, rfl⟩ := List.getElem?_eq_some_iff.1 hcall
    have hsame : (s.calls.map Call.disconnecting).set i s.calls[i].disconnecting = s.calls.map Call.disconnecting := by
      rw [← List.map_set, List.set_getElem_self]
    dsimp only
    rw [List.map_set, Call.disconnecting_proceed, hsame]

theorem entered_close (p : Profile) (s : Closers) :
    (step p s .close).entered = s.entered + (Call.enter s.session.conn).1.disconnecting.toNat := by
  unfold step entered
  dsimp only
  rw [List.map_append, List.count_append]
  cases hd : (Call.enter s.session.conn).1.disconnecting <;> simp [hd]

theorem Single.step {p : Profile} {s : Closers} (h : s.Single) (op : Op) : (s.step p op).Single := by
  have hkeep : s.entered = 1 → (s.step p op).state.canReceive = false := fun he =>
    ConnectionState.canReceive_of_canTransitionTo (edge_step p s op) (h.closed he)
  cases op with
  | session op =>
    cases op with
    | beginClose env => exact h
    | _ => exact ⟨h.entered, hkeep, h.transmitted⟩
  | close =>
    have hentered := entered_close p s
    have htransmitted : ∀ call ∈ (s.step p .close).calls, call.transmitted = true → call.disconnecting = true := by
      intro call hcall ht
      rcases List.mem_append.1 hcall with hold | hnew
      · exact h.transmitted call hold ht
      · rw [List.mem_singleton.1 hnew] at ht
        cases ht
    cases hd : (Call.enter s.session.conn).1.disconnecting with
    | true =>
      -- the transition was made from `Connected`, so no call has made it before
      obtain ⟨hbefore, hafter⟩ := Call.enter_disconnecting hd
      have hnone : s.entered ≠ 1 := by
        intro he
        have hclosed := h.closed he
        rw [state, hbefore] at hclosed
        cases hclosed
      have hle := h.entered
      rw [hd] at hentered
      refine ⟨by rw [hentered]; simp only [Bool.toNat_true]; omega, fun _ => ?_, htransmitted⟩
      show (Call.enter s.session.conn).2.shared.state.canReceive = false
      rw [hafter]
      rfl
    | false =>
      rw [hd, Bool.toNat_false, Nat.add_zero] at hentered
      exact ⟨hentered ▸ h.entered, fun he => hkeep (hentered ▸ he), htransmitted⟩
  | proceed i env =>
    have hentered := entered_proceed p s i env
    refine ⟨hentered ▸ h.entered, fun he => hkeep (hentered ▸ he), ?_⟩
    intro call hcall ht
    rcases mem_proceed hcall with hold | ⟨old, hold, rfl⟩
    · exact h.transmitted call hold ht
    · rw [Call.disconnecting_proceed]
      rcases Call.transmitted_proceed ht with hbefore | hsending
      · exact h.transmitted old (List.mem_of_getElem? hold) hbefore
      · exact Call.disconnecting_of_sending hsending

/-- **One call at most transmits a notification**, in every run. -/
theorem transmitted_once (p : Profile) (session : Session) (ops : List Op) :
    (run p ⟨session, []⟩ ops).calls.countP Call.transmitted ≤ 1 := by
  have hinit : (Closers.mk session []).Single := by
    refine ⟨Nat.zero_le 1, ?_, by simp⟩
    intro he
    cases he
  have hrun : (run p ⟨session, []⟩ ops).Single := Machine.run_inv (fun _ op hs => hs.step op) hinit ops
  have hcount := hrun.entered
  rw [entered, List.count, List.countP_map] at hcount
  refine le_trans (List.countP_mono_left ?_) hcount
  intro call hcall ht
  simpa using hrun.transmitted call hcall ht

/-! ## Calls that have returned -/

/-- a call that has returned leaves a disconnected connection -/
def Returned (s : Closers) : Prop := ∀ call ∈ s.calls, call.result.isSome = true → s.state = .disconnected

/-- the step is not a send of `close` that fails on a connection that is not disconnected by then -/
def SendsOrEnded (s : Closers) : Op → Prop
  | .proceed i env => ∀ call, s.calls[i]? = some call → call.sending = true → env.sendError.isSome = true →
    s.state = .disconnected
  | _ => True

theorem Returned.step {p : Profile} {s : Closers} (h : s.Returned) {op : Op} (hop : SendsOrEnded s op) :
    (s.step p op).Returned := by
  have hkeep : s.state = .disconnected → (s.step p op).state = .disconnected := fun hs =>
    disconnected_final p hs [op]
  cases op with
  | session op =>
    cases op with
    | beginClose env => exact h
    | _ => exact fun call hcall hr => hkeep (h call hcall hr)
  | close =>
    intro call hcall hr
    rcases List.mem_append.1 hcall with hold | hnew
    · exact hkeep (h call hold hr)
    · rw [List.mem_singleton.1 hnew] at hr
      cases hr
  | proceed i env =>
    intro call hcall hr
    rcases mem_proceed hcall with hold | ⟨old, hold, rfl⟩
    · exact hkeep (h call hold hr)
    · rcases Call.proceed_cases env old s.session.conn with ⟨hret, -⟩ | ⟨hsending, -, hp⟩ | ⟨hsending, msg, henv, -⟩ | ⟨-, hp⟩
      · exact hkeep (h old (List.mem_of_getElem? hold) hret)
      · rw [hp] at hr
        exact hkeep (h old (List.mem_of_getElem? hold) hr)
      · exact hkeep (hop old hold hsending (by rw [henv]; rfl))
      · rw [state_step]
        dsimp only
        rw [hold]
        dsimp only
        rw [hp]
        rfl

/-- a failed send that leaves a connection which is not disconnected breaks it at once -/
theorem sendsOrEnded_of_returned {p : Profile} {s : Closers} {op : Op} (h : (s.step p op).Returned) :
    SendsOrEnded s op := by
  cases op with
  | proceed i env =>
    intro call hcall hsending henv
    obtain ⟨msg, henv⟩ := Option.isSome_iff_exists.1 henv
    have hp : call.proceed env s.session.conn = ({ call with result := some (.err (.io msg)) }, s.session.conn) := by
      rcases call.proceed_cases env s.session.conn with ⟨hret, -⟩ | ⟨-, hnone, -⟩ | ⟨-, msg', hsome, hp⟩ | ⟨hnot, -⟩
      · simp [Call.sending, Option.isNone_eq_false_iff.2 hret] at hsending
      · rw [hnone] at henv
        cases henv
      · rw [hsome] at henv
        cases henv
        exact hp
      · rw [hnot] at hsending
        cases hsending
    have hstep : s.step p (.proceed i env) =
        ⟨s.session, s.calls.set i { call with result := some (.err (.io msg)) }⟩ := by
      unfold Closers.step
      dsimp only
      rw [hcall]
      dsimp only
      rw [hp]
    obtain ⟨hi, -⟩ := List.getElem?_eq_some_iff.1 hcall
    rw [hstep] at h
    exact h _ (List.mem_set hi _) rfl
  | _ => trivial

/-- what a run of the tasks and the calls is meant to keep -/
structure Orderly (p : Profile) (s : Closers) (ops : List Op) : Prop where
  /-- the state moves along edges -/
  edges : ∀ a op, a ++ [op] <+: ops → (run p s a).state.canTransitionTo (run p s (a ++ [op])).state = true
  /-- `Disconnected` is never left -/
  final : ∀ a b, a ++ b <+: ops → (run p s a).state = .disconnected → (run p s (a ++ b)).state = .disconnected
  /-- one call at most transmits a notification -/
  once : ∀ a, a <+: ops → (run p s a).calls.countP Call.transmitted ≤ 1
  /-- a call that has returned leaves a disconnected connection -/
  returned : ∀ a, a <+: ops → (run p s a).Returned

/-- **Runs of `close`.** From any state of a connection, a run of the tasks and of any number of calls is orderly if and only
if no send of a call fails on a connection that is not disconnected by then. -/
theorem orderly_iff (p : Profile) (session : Session) (ops : List Op) :
    Orderly p ⟨session, []⟩ ops ↔ Machine.Steps (step p) SendsOrEnded ⟨session, []⟩ ops := by
  have hinit : (Closers.mk session []).Returned := by
    intro call hcall
    cases hcall
  have hreturned := @Machine.prefixes_iff_steps Closers Op (step p) (fun _ => True) SendsOrEnded Returned Returned
    (fun _ _ _ hs hop => Returned.step hs hop) (fun _ hs => hs) (fun _ _ _ _ hs => sendsOrEnded_of_returned hs) _ hinit ops
    (fun _ _ => trivial)
  constructor
  · intro h
    exact hreturned.1 h.returned
  · intro h
    refine ⟨?_, ?_, fun a _ => transmitted_once p session a, hreturned.2 h⟩
    · intro a op _
      rw [run, run, Machine.run_snoc]
      exact edge_step p _ op
    · intro a b _ hend
      rw [run, Machine.run_append]
      exact disconnected_final p hend b

/-- a stream that has logged in -/
def connectedSession : Session :=
  ⟨{ Conn.new 1500 0 false with shared := { SharedState.new 1500 0 with state := .connected } }, .waiting⟩

/-- a call whose send fails -/
def failingClose : List Op := [.close, .proceed 0 { quietEnv with sendError := some "unreachable" }]

/-- **A close that fails half-way** has returned, and leaves its connection in `Disconnecting`. -/
theorem failed_close :
    (run .dev ⟨connectedSession, []⟩ failingClose).state = .disconnecting ∧
      ¬ Orderly .dev ⟨connectedSession, []⟩ failingClose := by
  refine ⟨by decide, ?_⟩
  intro h
  exact absurd (h.returned failingClose (List.prefix_refl _) ⟨true, false, some (.err (.io "unreachable"))⟩ (List.Mem.head _) rfl)
    (by decide)

end Closers

end RakNet
