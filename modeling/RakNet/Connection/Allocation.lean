/-
Numbers that are handed out, and the keys of the send queue.

A counter is a `u32` that only grows, read modulo 2^24. A datagram is inserted under its sequence number once the socket has
taken it, and by then the other task may have sent any number of datagrams. The invariant is kept in terms of the counts that
are never reduced: the queue holds outstanding datagrams only, and each of them is one of the last 2^24 that were numbered.

- `returned_eq`: the k-th call of a counter returns k modulo 2^24, whatever is called in between.
- `advance_allocates`, `advance_inserts`, `advance_quiet`: what a step of a task does to the counter, the queue and the task.
- `allocations_fresh`: the numbers of a counter repeat after 2^24 calls at the earliest; and as long as every datagram that is
  inserted is acknowledged before 2^24 further ones are numbered, every insertion is under a new key.
-/
import RakNet.Connection.OrderIndices
import RakNet.Lib.Serial

namespace RakNet

open Lib Lib.Serial Lib.Wire Conn

/-! ## The counters -/

/-- the counters of the shared state; every call of a counter is one `fetch_add` -/
inductive Counter where
  | sendSeq
  | messageIndex
  | orderIndex (channel : Fin 16)
deriving DecidableEq

namespace Counter

def cell (s : SharedState) : Counter → AtomicU24
  | .sendSeq => s.sendSeq
  | .messageIndex => s.messageIndex
  | .orderIndex channel => s.orderIndices.get channel

/-- the method that takes a number from a counter -/
def next (s : SharedState) : Counter → U24 × SharedState
  | .sendSeq => s.nextSendSeq
  | .messageIndex => s.nextMessageIndex
  | .orderIndex channel => s.nextOrderIndex channel

/-- what the calls of one counter return, among the calls of all -/
def returned (c : Counter) (s : SharedState) (calls : List Counter) : List U24 :=
  ((calls.zip (Machine.answers next s calls)).filter fun r => r.1 == c).map Prod.snd

theorem next_fst (s : SharedState) (c : Counter) : (next s c).1 = (cell s c).load := by
  cases c <;> rfl

/-- a call moves its own counter, and no other -/
theorem cell_next (s : SharedState) (c c' : Counter) :
    cell (next s c).2 c' = if c = c' then ((cell s c).fetchAdd 1).2 else cell s c' := by
  split_ifs with h
  · subst h
    cases c with
    | sendSeq | messageIndex => rfl
    | orderIndex channel => exact get_set_self _ _ channel.isLt rfl
  · cases c with
    | sendSeq | messageIndex =>
      cases c' with
      | sendSeq | messageIndex | orderIndex => first | rfl | exact absurd rfl h
    | orderIndex channel =>
      cases c' with
      | sendSeq | messageIndex => rfl
      | orderIndex channel' =>
        refine get_set_ne _ _ channel.isLt ?_
        intro heq
        exact h (congrArg orderIndex (Fin.ext heq))

/-- the counter counts its calls -/
theorem load_next {s : SharedState} {c : Counter} {n : Nat} (h : (cell s c).load = U24.new n) :
    (cell (next s c).2 c).load = U24.new (n + 1) := by
  rw [cell_next, if_pos rfl]
  exact AtomicU24.load_next h

theorem returned_eq (c : Counter) {s : SharedState} {n : Nat} (h : (cell s c).load = U24.new n) (calls : List Counter) :
    returned c s calls = (List.range' n (calls.count c)).map U24.new := by
  induction calls generalizing s n with
  | nil => rfl
  | cons call calls ih =>
    have hsplit : returned c s (call :: calls) =
        (if call == c then [(next s call).1] else []) ++ returned c (next s call).2 calls := by
      unfold returned
      rw [Machine.answers, List.zip_cons_cons, List.filter_cons]
      split_ifs <;> rfl
    rw [hsplit]
    by_cases hcall : call = c
    · subst hcall
      rw [ih (load_next h), next_fst, h, List.count_cons_self, beq_self_eq_true, if_pos rfl, List.range'_succ]
      rfl
    · have hother : (cell (next s call).2 c).load = U24.new n := by rw [cell_next, if_neg hcall, h]
      rw [ih hother, List.count_cons_of_ne hcall, beq_false_of_ne hcall]
      rfl

theorem load_init (mtu : UInt16) (nowMicros : Nat) (c : Counter) :
    (cell (SharedState.new mtu nowMicros) c).load = U24.new 0 := by
  cases c with
  | sendSeq | messageIndex => rfl
  | orderIndex channel => exact congrArg AtomicU24.load (Vector.getElem_replicate channel.isLt)

/-- 2^24 consecutive numbers of a counter are different -/
theorem nodup_window (n m : Nat) : (((List.range m).map U24.new).drop n |>.take (2 ^ 24)).Nodup := by
  rw [← List.map_drop, ← List.map_take]
  have hbase : (((List.range m).drop n).take (2 ^ 24)).Nodup :=
    (List.nodup_range.sublist (List.drop_sublist n _)).sublist (List.take_sublist _ _)
  refine hbase.map_on ?_
  have hrecent : ∀ k ∈ ((List.range m).drop n).take (2 ^ 24), Recent (2 ^ 24) (n + 2 ^ 24) k := by
    intro k hk
    obtain ⟨i, hi, rfl⟩ := List.getElem_of_mem hk
    rw [List.length_take] at hi
    rw [List.getElem_take, List.getElem_drop, List.getElem_range]
    exact ⟨by omega, by omega⟩
  intro a ha b hb hab
  refine (hrecent a ha).eq_of_mod_eq (hrecent b hb) ?_
  rw [← U24.get_new, hab, U24.get_new]

end Counter

/-! ## Steps of a send, on the counter and the queue -/

/-- the number of a datagram that is not in the queue yet -/
def Conn.SendStage.seq? : SendStage → Option U24
  | .built seq _ _ => some seq
  | .transmitted seq _ => some seq
  | _ => none

/-- the stage a task is left in by a step of its send; a send that fails is over -/
def Conn.SendStage.after : Result (Option SendStage) → SendStage
  | .ok (some stage) => stage
  | _ => .start

namespace Senders

/-- the stage from which a task goes on -/
def due (s : Senders) (who : Who) : Option SendStage :=
  if (s.task who).frames = [] then none else some (s.task who).stage

/-- a step of one task leaves the other alone -/
theorem task_advance_of_ne (s : Senders) {who other : Who} (h : other ≠ who) (env : Env) :
    (s.advance who env).task other = s.task other := by
  unfold advance
  cases (s.task who).frames with
  | nil => rfl
  | cons x rest =>
    obtain ⟨payload, split⟩ := x
    dsimp only
    cases (s.task who).stage.next env payload split s.conn with
    | mk r c =>
      rcases r with (_ | _) | _ | _ <;> dsimp only <;> rw [task_setTask, if_neg h] <;> cases other <;> rfl

/-- a task with nothing to send does nothing -/
theorem advance_idle {s : Senders} {who : Who} (h : s.due who = none) (env : Env) : s.advance who env = s := by
  unfold due at h
  split_ifs at h with hnil
  unfold advance
  rw [hnil]

theorem stage_of_due {s : Senders} {who : Who} {stage : SendStage} (h : s.due who = some stage) :
    (s.task who).stage = stage := by
  unfold due at h
  split_ifs at h
  exact Option.some.inj h

/-- a step of a task is the next step of its send -/
theorem advance_due {s : Senders} {who : Who} {stage : SendStage} (h : s.due who = some stage) (env : Env) :
    ∃ payload split, (s.advance who env).conn = (stage.next env payload split s.conn).2 ∧
      ((s.advance who env).task who).stage = SendStage.after (stage.next env payload split s.conn).1 := by
  unfold due at h
  split_ifs at h with hnil
  obtain ⟨⟨payload, split⟩, rest, hframes⟩ := List.exists_cons_of_ne_nil hnil
  refine ⟨payload, split, ?_⟩
  rw [← Option.some.inj h]
  unfold advance
  rw [hframes]
  dsimp only
  cases (s.task who).stage.next env payload split s.conn with
  | mk r c =>
    rcases r with (_ | _) | _ | _ <;> dsimp only <;> rw [conn_setTask, task_setTask, if_pos rfl] <;> exact ⟨rfl, rfl⟩

/-- the step that takes a sequence number -/
theorem advance_allocates {s : Senders} {who : Who} {messageIndex orderIndex : U24}
    (h : s.due who = some (.ordered messageIndex orderIndex)) (env : Env) :
    (s.advance who env).conn.shared.sendSeq = (s.conn.shared.sendSeq.fetchAdd 1).2 ∧
      (s.advance who env).conn.shared.sendQueue = s.conn.shared.sendQueue ∧
      ((s.advance who env).task who).stage.seq? = some s.conn.shared.sendSeq.load := by
  obtain ⟨payload, split, hconn, hstage⟩ := advance_due h env
  rw [hconn, hstage]
  exact ⟨rfl, rfl, rfl⟩

/-- the step that inserts a datagram -/
theorem advance_inserts {s : Senders} {who : Who} {seq : U24} {datagram : Bytes}
    (h : s.due who = some (.transmitted seq datagram)) (env : Env) :
    (s.advance who env).conn.shared.sendSeq = s.conn.shared.sendSeq ∧
      (s.advance who env).conn.shared.sendQueue = (s.conn.shared.sendQueue.insert env.now seq.get datagram).2 ∧
      ((s.advance who env).task who).stage.seq? = none := by
  obtain ⟨payload, split, hconn, hstage⟩ := advance_due h env
  rw [hconn, hstage]
  exact ⟨rfl, rfl, rfl⟩

/-- the other steps: the datagram that is on its way, if there is one, stays the same or is given up -/
theorem advance_quiet {s : Senders} {who : Who} {stage : SendStage} (h : s.due who = some stage)
    (hordered : ∀ m o, stage ≠ .ordered m o) (htransmitted : ∀ q d, stage ≠ .transmitted q d) (env : Env) :
    (s.advance who env).conn.shared.sendSeq = s.conn.shared.sendSeq ∧
      (s.advance who env).conn.shared.sendQueue = s.conn.shared.sendQueue ∧
      (((s.advance who env).task who).stage.seq? = none ∨
        ((s.advance who env).task who).stage.seq? = (s.task who).stage.seq?) := by
  obtain ⟨payload, split, hconn, hafter⟩ := advance_due h env
  rw [hconn, hafter, stage_of_due h]
  cases stage with
  | start => exact ⟨rfl, rfl, .inl rfl⟩
  | numbered messageIndex => exact ⟨rfl, rfl, .inl rfl⟩
  | ordered messageIndex orderIndex => exact absurd rfl (hordered messageIndex orderIndex)
  | transmitted seq datagram => exact absurd rfl (htransmitted seq datagram)
  | built seq frame datagram =>
    unfold SendStage.next
    cases henv : env.sendError with
    | none =>
      rw [Action.bind_of_ok (transmit_ok henv frame datagram s.conn)]
      exact ⟨rfl, rfl, .inr rfl⟩
    | some msg =>
      rw [Action.bind_of_err (transmit_err henv frame datagram s.conn)]
      exact ⟨rfl, rfl, .inl rfl⟩

/-- a message is taken from the channel: no number is taken, and nothing inserted -/
theorem message_quiet (p : Profile) (s : Senders) (data : Bytes) :
    (s.message p data).conn.shared.sendSeq = s.conn.shared.sendSeq ∧
      (s.message p data).conn.shared.sendQueue = s.conn.shared.sendQueue ∧
      ∀ who, ((s.message p data).task who).stage.seq? = none ∨
        ((s.message p data).task who).stage.seq? = (s.task who).stage.seq? := by
  have hseq := preserves_messageParts (f := fun c => c.shared.sendSeq) (fun _ => rfl) p data s.conn
  have hqueue := preserves_messageParts (f := fun c => c.shared.sendQueue) (fun _ => rfl) p data s.conn
  unfold message
  cases s.sendTask.frames with
  | cons x rest => exact ⟨rfl, rfl, fun who => .inr rfl⟩
  | nil =>
    dsimp only
    split_ifs with hended hclosed
    · exact ⟨rfl, rfl, fun who => .inr rfl⟩
    · refine ⟨rfl, rfl, ?_⟩
      rintro (_ | _)
      · exact .inr rfl
      · exact .inl rfl
    · cases hparts : messageParts p data s.conn with
      | mk r c =>
        rw [hparts] at hseq hqueue
        cases r with
        | ok frames =>
          refine ⟨hseq, hqueue, ?_⟩
          rintro (_ | _) <;> exact .inr rfl
        | err e =>
          refine ⟨hseq, hqueue, ?_⟩
          rintro (_ | _)
          · exact .inr rfl
          · exact .inl rfl
        | panic =>
          refine ⟨hseq, hqueue, ?_⟩
          rintro (_ | _)
          · exact .inr rfl
          · exact .inl rfl

end Senders

/-! ## Counts of datagrams -/

/-- the two tasks, and the counts of their datagrams -/
structure Numbered where
  senders : Senders
  /-- how many datagrams have a number so far -/
  allocated : Nat
  /-- which of them, counted from zero, the task has on its way -/
  number : Who → Nat
  /-- the datagrams that were inserted and are not acknowledged since -/
  outstanding : List Nat

namespace Numbered

open Senders

def init (mtu : UInt16) (nowMicros : Nat) (ready : Bool) : Numbered := ⟨.init mtu nowMicros ready, 0, fun _ => 0, []⟩

/-- a step of the tasks; the send queue refuses a datagram when it is full -/
def step (p : Profile) (t : Numbered) : Senders.Op → Numbered
  | .advance who env =>
    match t.senders.due who with
    | some (.ordered _ _) =>
      { t with
        senders := t.senders.advance who env
        allocated := t.allocated + 1
        number := Function.update t.number who t.allocated }
    | some (.transmitted seq datagram) =>
      { t with
        senders := t.senders.advance who env
        outstanding :=
          if (t.senders.conn.shared.sendQueue.insert env.now seq.get datagram).1 then t.outstanding ++ [t.number who]
          else t.outstanding }
    | _ => { t with senders := t.senders.advance who env }
  | .handleAck ranges =>
    { t with
      senders := t.senders.step p (.handleAck ranges)
      outstanding := t.outstanding.filter fun k => !ranges.covers (k % 2 ^ 24) }
  | op => { t with senders := t.senders.step p op }

/-- the steps of the tasks are those of the senders -/
theorem senders_step (p : Profile) (t : Numbered) (op : Senders.Op) : (t.step p op).senders = t.senders.step p op := by
  cases op with
  | advance who env =>
    simp only [step]
    split <;> rfl
  | _ => rfl

/-- no datagram is outstanding when the 2^24th after it is numbered, and none is inserted later than that -/
def TimelyAt (t : Numbered) (who : Who) : SendStage → Prop
  | .ordered _ _ => ∀ k ∈ t.outstanding, t.allocated < k + 2 ^ 24
  | .transmitted _ _ => t.allocated ≤ t.number who + 2 ^ 24
  | _ => True

instance (t : Numbered) (who : Who) : (stage : SendStage) → Decidable (t.TimelyAt who stage)
  | .ordered _ _ => inferInstanceAs (Decidable (∀ k ∈ t.outstanding, t.allocated < k + 2 ^ 24))
  | .transmitted _ _ => inferInstanceAs (Decidable (_ ≤ _))
  | .start | .numbered _ | .built _ _ _ => .isTrue trivial

def Timely (t : Numbered) : Senders.Op → Prop
  | .advance who _ => ∀ stage ∈ t.senders.due who, t.TimelyAt who stage
  | _ => True

instance (t : Numbered) : (op : Senders.Op) → Decidable (t.Timely op)
  | .advance who _ => inferInstanceAs (Decidable (∀ stage ∈ t.senders.due who, t.TimelyAt who stage))
  | .sendReliableFrame _ | .message _ | .handleAck _ | .checkRetransmissions _ | .markDisconnected => .isTrue trivial

/-- the queue is full, and the step is an insertion -/
def refused (t : Numbered) : Senders.Op → Bool
  | .advance who env =>
    match t.senders.due who with
    | some (.transmitted seq datagram) => !(t.senders.conn.shared.sendQueue.insert env.now seq.get datagram).1
    | _ => false
  | _ => false

/-- the step inserts no key the queue has already -/
def InsertsNew (t : Numbered) : Senders.Op → Prop
  | .advance who _ => ∀ seq datagram, t.senders.due who = some (.transmitted seq datagram) →
      t.senders.conn.shared.sendQueue.contains seq.get = false
  | _ => True

/-! ## The invariant -/

/-- the counter shows the number of datagrams, each task holds a count of its own, and the keys of the queue are those of
outstanding datagrams, all of them recent -/
structure Inv (t : Numbered) : Prop where
  counter : t.senders.conn.shared.sendSeq.load = U24.new t.allocated
  seq : ∀ who seq, (t.senders.task who).stage.seq? = some seq → seq = U24.new (t.number who)
  tickets : Tickets (fun who => (t.senders.task who).stage.seq? ≠ none) t.number t.allocated t.outstanding
  keys : ∀ s, t.senders.conn.shared.sendQueue.contains s = true → ∃ k ∈ t.outstanding, s = k % 2 ^ 24
  recent : ∀ k ∈ t.outstanding, Recent (2 ^ 24) t.allocated k

theorem inv_init (mtu : UInt16) (nowMicros : Nat) (ready : Bool) : (init mtu nowMicros ready).Inv := by
  have hidle : ∀ who, ((init mtu nowMicros ready).senders.task who).stage.seq? = none := by
    rintro (_ | _) <;> rfl
  refine ⟨rfl, ?_, ?_, ?_, fun k hk => by cases hk⟩
  · intro who seq h
    rw [hidle who] at h
    cases h
  · exact ⟨fun who h => absurd (hidle who) h, fun who h => absurd (hidle who) h, fun who _ _ h => absurd (hidle who) h⟩
  · intro s hs
    obtain ⟨b, hb⟩ := (SendQueue.contains_iff SendQueue.new s).1 hs
    rw [SendQueue.packet?_new] at hb
    cases hb

/-- a step that takes no number and inserts nothing -/
theorem Inv.quiet {t : Numbered} (h : t.Inv) {senders : Senders}
    (hseq : senders.conn.shared.sendSeq = t.senders.conn.shared.sendSeq)
    (hqueue : ∀ s, senders.conn.shared.sendQueue.contains s = true → t.senders.conn.shared.sendQueue.contains s = true)
    (hstage : ∀ who, (senders.task who).stage.seq? = none ∨ (senders.task who).stage.seq? = (t.senders.task who).stage.seq?) :
    ({ t with senders := senders } : Numbered).Inv := by
  have hsame : ∀ who, (senders.task who).stage.seq? ≠ none →
      (senders.task who).stage.seq? = (t.senders.task who).stage.seq? :=
    fun who hwho => (hstage who).resolve_left hwho
  refine ⟨?_, ?_, ?_, fun s hs => h.keys s (hqueue s hs), h.recent⟩
  · dsimp only
    rw [hseq]
    exact h.counter
  · intro who seq hwho
    dsimp only at hwho
    rw [hsame who (by rw [hwho]; exact Option.some_ne_none seq)] at hwho
    exact h.seq who seq hwho
  · exact h.tickets.mono (fun who hwho => hsame who hwho ▸ hwho) (List.Subset.refl _)

/-- another datagram is numbered: its count is above all others, and the outstanding ones have to be recent still -/
theorem Inv.allocates {t : Numbered} (h : t.Inv) {who : Who} {messageIndex orderIndex : U24} {env : Env}
    (hdue : t.senders.due who = some (.ordered messageIndex orderIndex))
    (htimely : ∀ k ∈ t.outstanding, t.allocated < k + 2 ^ 24) :
    ({ t with
      senders := t.senders.advance who env
      allocated := t.allocated + 1
      number := Function.update t.number who t.allocated } : Numbered).Inv := by
  obtain ⟨hseq, hqueue, hstage⟩ := advance_allocates hdue env
  have hother : ∀ w, w ≠ who → (t.senders.advance who env).task w = t.senders.task w :=
    fun w hw => task_advance_of_ne t.senders hw env
  refine ⟨?_, ?_, ?_, ?_, ?_⟩
  · dsimp only
    rw [hseq]
    exact AtomicU24.load_next h.counter
  · intro w seq hw
    dsimp only at hw ⊢
    by_cases hwho : w = who
    · subst hwho
      rw [hstage] at hw
      rw [Function.update_self]
      exact (Option.some.inj hw).symm.trans h.counter
    · rw [hother w hwho] at hw
      rw [Function.update_of_ne hwho]
      exact h.seq w seq hw
  · refine h.tickets.issue (fun k hk => (h.recent k hk).1) who ?_
    intro w hw hfly
    rw [hother w hw] at hfly
    exact hfly
  · intro s hs
    dsimp only at hs
    rw [hqueue] at hs
    exact h.keys s hs
  · intro k hk
    exact ⟨(h.recent k hk).1.trans (Nat.lt_succ_self _), htimely k hk⟩

/-- after its insertion a task has nothing on its way; the other stays as it is -/
theorem seq?_inserted {s : Senders} {who : Who} {seq : U24} {datagram : Bytes}
    (h : s.due who = some (.transmitted seq datagram)) (env : Env) (w : Who) :
    ((s.advance who env).task w).stage.seq? = none ∨
      w ≠ who ∧ ((s.advance who env).task w).stage.seq? = (s.task w).stage.seq? := by
  by_cases hw : w = who
  · subst hw
    exact .inl (advance_inserts h env).2.2
  · exact .inr ⟨hw, by rw [task_advance_of_ne s hw]⟩

/-- a full queue refuses the datagram, and it is tracked nowhere -/
theorem Inv.refuses {t : Numbered} (h : t.Inv) {who : Who} {seq : U24} {datagram : Bytes} {env : Env}
    (hdue : t.senders.due who = some (.transmitted seq datagram))
    (hrefused : (t.senders.conn.shared.sendQueue.insert env.now seq.get datagram).2 = t.senders.conn.shared.sendQueue) :
    ({ t with senders := t.senders.advance who env } : Numbered).Inv := by
  obtain ⟨hseq, hqueue, -⟩ := advance_inserts hdue env
  refine h.quiet hseq ?_ fun w => (seq?_inserted hdue env w).imp_right And.right
  intro s hs
  rw [hqueue, hrefused] at hs
  exact hs

theorem seq?_of_due {s : Senders} {who : Who} {seq : U24} {datagram : Bytes}
    (h : s.due who = some (.transmitted seq datagram)) : (s.task who).stage.seq? = some seq := by
  rw [stage_of_due h]
  rfl

/-- the queue takes the datagram while it is recent, and it is outstanding from then on -/
theorem Inv.takes {t : Numbered} (h : t.Inv) {who : Who} {seq : U24} {datagram : Bytes} {env : Env}
    (hdue : t.senders.due who = some (.transmitted seq datagram))
    (htaken : ∀ s, (t.senders.conn.shared.sendQueue.insert env.now seq.get datagram).2.packet? s =
      if s = seq.get then some datagram else t.senders.conn.shared.sendQueue.packet? s)
    (htimely : t.allocated ≤ t.number who + 2 ^ 24) :
    ({ t with
      senders := t.senders.advance who env
      outstanding := t.outstanding ++ [t.number who] } : Numbered).Inv := by
  obtain ⟨hseq, hqueue, -⟩ := advance_inserts hdue env
  have hown : (t.senders.task who).stage.seq? ≠ none := by
    rw [seq?_of_due hdue]
    exact Option.some_ne_none seq
  -- what is on its way after the step was so before, and is not the datagram inserted
  have hflying : ∀ w, ((t.senders.advance who env).task w).stage.seq? ≠ none →
      w ≠ who ∧ ((t.senders.advance who env).task w).stage.seq? = (t.senders.task w).stage.seq? :=
    fun w hw => (seq?_inserted hdue env w).resolve_left hw
  refine ⟨?_, ?_, ?_, ?_, ?_⟩
  · dsimp only
    rw [hseq]
    exact h.counter
  · intro w seq' hw
    dsimp only at hw
    rw [(hflying w (by rw [hw]; exact Option.some_ne_none seq')).2] at hw
    exact h.seq w seq' hw
  · refine h.tickets.spend hown ?_
    intro w hw
    obtain ⟨hne, hsame⟩ := hflying w hw
    exact ⟨hne, hsame ▸ hw⟩
  · intro s hs
    dsimp only at hs ⊢
    obtain ⟨b, hb⟩ := (SendQueue.contains_iff _ s).1 hs
    rw [hqueue, htaken] at hb
    split_ifs at hb with hkey
    · refine ⟨t.number who, List.mem_append_right _ (List.mem_singleton_self _), ?_⟩
      rw [hkey, h.seq who seq (seq?_of_due hdue), U24.get_new]
    · obtain ⟨k, hk, hmod⟩ := h.keys s ((SendQueue.contains_iff _ s).2 ⟨b, hb⟩)
      exact ⟨k, List.mem_append_left _ hk, hmod⟩
  · intro k hk
    rcases List.mem_append.1 hk with hk | hk
    · exact h.recent k hk
    · rw [List.mem_singleton.1 hk]
      exact ⟨h.tickets.below who hown, htimely⟩

theorem Inv.inserts {t : Numbered} (h : t.Inv) {who : Who} {seq : U24} {datagram : Bytes} {env : Env}
    (hdue : t.senders.due who = some (.transmitted seq datagram))
    (htimely : (t.senders.conn.shared.sendQueue.insert env.now seq.get datagram).1 = true →
      t.allocated ≤ t.number who + 2 ^ 24) :
    ({ t with
      senders := t.senders.advance who env
      outstanding :=
        if (t.senders.conn.shared.sendQueue.insert env.now seq.get datagram).1 then t.outstanding ++ [t.number who]
        else t.outstanding } : Numbered).Inv := by
  rcases SendQueue.insert_cases t.senders.conn.shared.sendQueue env.now seq.get datagram with ⟨-, hrefused⟩ |
    ⟨-, htaken, -, hpackets⟩
  · rw [hrefused, if_neg Bool.false_ne_true]
    exact h.refuses hdue (congrArg Prod.snd hrefused)
  · rw [htaken, if_pos rfl]
    exact h.takes hdue hpackets (htimely htaken)

/-- the datagrams an ACK covers are neither in the queue nor outstanding any more -/
theorem Inv.handleAck {t : Numbered} (h : t.Inv) (p : Profile) (ranges : AckRangeList) :
    (t.step p (.handleAck ranges)).Inv := by
  have hremoves := removes_ackQueue t.senders.conn.shared.sendQueue ranges
  refine ⟨h.counter, h.seq, h.tickets.mono (fun _ hwho => hwho) (List.filter_subset_self _), ?_,
    fun k hk => h.recent k (List.mem_of_mem_filter hk)⟩
  intro s hs
  obtain ⟨b, hb⟩ := (SendQueue.contains_iff _ s).1 hs
  have hb' : (ackQueue t.senders.conn.shared.sendQueue ranges).packet? s = some b := hb
  rw [hremoves.packet?] at hb'
  split_ifs at hb' with hcovers
  obtain ⟨k, hk, rfl⟩ := h.keys s ((SendQueue.contains_iff _ s).2 ⟨b, hb'⟩)
  exact ⟨k, List.mem_filter.2 ⟨hk, by simpa using hcovers⟩, rfl⟩

theorem Inv.checkRetransmissions {t : Numbered} (h : t.Inv) (p : Profile) (envs : Nat → Env) :
    (t.step p (.checkRetransmissions envs)).Inv := by
  have hqueue : (Conn.checkRetransmissions envs t.senders.conn).2.shared.sendQueue =
      (t.senders.conn.shared.sendQueue.getExpired (envs 0).now (t.senders.conn.shared.metrics.rttNanos * 3) 3).2 :=
    (tick_sendAll envs _).comp (fun c => c.shared.sendQueue) _
  refine h.quiet ?_ ?_ ?_
  · exact (tick_sendAll envs _).comp (fun c => c.shared.sendSeq) _
  · intro s hs
    have hs' : (Conn.checkRetransmissions envs t.senders.conn).2.shared.sendQueue.contains s = true := hs
    rw [hqueue, SendQueue.contains_getExpired] at hs'
    exact hs'
  · rintro (_ | _) <;> exact .inr rfl

theorem Inv.advance {t : Numbered} (h : t.Inv) (p : Profile) {who : Who} {env : Env}
    (hop : t.refused (.advance who env) = false → t.Timely (.advance who env)) : (t.step p (.advance who env)).Inv := by
  have hquiet : ∀ stage, t.senders.due who = some stage → (∀ m o, stage ≠ .ordered m o) → (∀ q d, stage ≠ .transmitted q d) →
      ({ t with senders := t.senders.advance who env } : Numbered).Inv := by
    intro stage hdue hordered htransmitted
    obtain ⟨hseq, hqueue, hstage⟩ := advance_quiet hdue hordered htransmitted env
    refine h.quiet hseq (fun s hs => hqueue ▸ hs) ?_
    intro w
    by_cases hw : w = who
    · subst hw
      exact hstage
    · rw [task_advance_of_ne t.senders hw]
      exact .inr rfl
  cases hdue : t.senders.due who with
  | none =>
    simp only [step, hdue]
    rw [advance_idle hdue]
    exact h
  | some stage =>
    cases stage with
    | start | numbered | built =>
      simp only [step, hdue]
      refine hquiet _ hdue ?_ ?_ <;> intro _ _ heq <;> cases heq
    | ordered messageIndex orderIndex =>
      have hnot : t.refused (.advance who env) = false := by simp only [refused, hdue]
      simp only [step, hdue]
      exact h.allocates hdue (hop hnot _ hdue)
    | transmitted seq datagram =>
      simp only [step, hdue]
      refine h.inserts hdue ?_
      intro htaken
      have hnot : t.refused (.advance who env) = false := by
        simp only [refused, hdue, htaken, Bool.not_true]
      exact hop hnot _ hdue

/-- **One step.** -/
theorem Inv.step {t : Numbered} (h : t.Inv) (p : Profile) {op : Senders.Op}
    (hop : t.refused op = false → t.Timely op) : (t.step p op).Inv := by
  cases op with
  | sendReliableFrame payload =>
    have hconn : (t.senders.sendReliableFrame payload).conn = t.senders.conn := by
      unfold Senders.sendReliableFrame
      cases t.senders.receiveTask.frames <;> rfl
    refine h.quiet (congrArg (fun c : Conn => c.shared.sendSeq) hconn) ?_ ?_
    · intro s hs
      exact hconn ▸ hs
    · intro who
      refine .inr ?_
      show ((t.senders.sendReliableFrame payload).task who).stage.seq? = _
      unfold Senders.sendReliableFrame
      cases t.senders.receiveTask.frames <;> cases who <;> rfl
  | message data =>
    obtain ⟨hseq, hqueue, hstage⟩ := message_quiet p t.senders data
    exact h.quiet hseq (fun s hs => hqueue ▸ hs) hstage
  | advance who env => exact h.advance p hop
  | handleAck ranges => exact h.handleAck p ranges
  | checkRetransmissions envs => exact h.checkRetransmissions p envs
  | markDisconnected => exact h.quiet rfl (fun _ hs => hs) fun _ => .inr rfl

/-- the key of a datagram that is inserted in time is new -/
theorem Inv.insertsNew {t : Numbered} (h : t.Inv) {op : Senders.Op} (hop : t.Timely op) : t.InsertsNew op := by
  cases op with
  | advance who env =>
    intro seq datagram hdue
    have hown : (t.senders.task who).stage.seq? ≠ none := by
      rw [seq?_of_due hdue]
      exact Option.some_ne_none seq
    have hrecent : Recent (2 ^ 24) t.allocated (t.number who) := ⟨h.tickets.below who hown, hop _ hdue⟩
    rw [← Bool.not_eq_true]
    intro hkey
    -- a key that is there is that of an outstanding datagram, and two recent ones with one number are the same
    obtain ⟨k, hk, hmod⟩ := h.keys seq.get hkey
    rw [h.seq who seq (seq?_of_due hdue), U24.get_new] at hmod
    have hsame := (h.recent k hk).eq_of_mod_eq hrecent hmod.symm
    exact h.tickets.new who hown (hsame ▸ hk)
  | _ => trivial

/-! ## Whole runs -/

/-- along a run whose accepted insertions are in time, those in time are under new keys -/
theorem Inv.steps {p : Profile} {t : Numbered} (h : t.Inv) {ops : List Senders.Op}
    (hops : Machine.Steps (Numbered.step p) (fun t op => t.refused op = false → t.Timely op) t ops) :
    Machine.Steps (Numbered.step p) (fun t op => t.Timely op → t.InsertsNew op) t ops := by
  induction ops generalizing t with
  | nil => trivial
  | cons op ops ih => exact ⟨h.insertsNew, ih (h.step p hops.1) hops.2⟩

/-- **Fresh keys.** The k-th call of a counter returns k modulo 2^24, however the calls of all are interleaved, so 2^24 calls
in a row return different numbers. In every run of the two tasks in which the datagrams that the queue takes are acknowledged
before the 2^24th after them is numbered, none of them replaces another; and if a datagram that a full queue refuses is as
early as that, `insert` is never called with a key that is there. -/
theorem allocations_fresh (p : Profile) (mtu : UInt16) (nowMicros : Nat) (ready : Bool) :
    (∀ c calls,
      Counter.returned c (SharedState.new mtu nowMicros) calls = (List.range (calls.count c)).map U24.new ∧
      ∀ n, (((Counter.returned c (SharedState.new mtu nowMicros) calls).drop n).take (2 ^ 24)).Nodup) ∧
    ∀ ops,
      (Machine.Steps (step p) Timely (init mtu nowMicros ready) ops →
        Machine.Steps (step p) InsertsNew (init mtu nowMicros ready) ops) ∧
      (Machine.Steps (step p) (fun t op => t.refused op = false → t.Timely op) (init mtu nowMicros ready) ops →
        Machine.Steps (step p) (fun t op => t.refused op = false → t.InsertsNew op) (init mtu nowMicros ready) ops) := by
  constructor
  · intro c calls
    have hreturned : Counter.returned c (SharedState.new mtu nowMicros) calls =
        (List.range (calls.count c)).map U24.new := by
      rw [Counter.returned_eq c (Counter.load_init mtu nowMicros c), List.range_eq_range']
    rw [hreturned]
    exact ⟨rfl, fun n => Counter.nodup_window n _⟩
  · have hinv := inv_init mtu nowMicros ready
    intro ops
    constructor
    · intro hops
      have htaken : Machine.Steps (step p) (fun t op => t.refused op = false → t.Timely op) (init mtu nowMicros ready) ops :=
        hops.imp fun _ _ h => fun _ => h
      have hboth := (hinv.steps htaken).and hops
      exact hboth.imp fun _ _ h => h.1 h.2
    · intro htaken
      have hboth := (hinv.steps htaken).and htaken
      exact hboth.imp fun _ _ h => fun hnot => h.1 (h.2 hnot)

/-- the login reply and a message, one step of each at a time -/
def crossing : List Senders.Op :=
  [.sendReliableFrame [19], .message [254]] ++
    (List.replicate 5 [.advance .sendTask Conn.quietEnv, .advance .receiveTask Conn.quietEnv]).flatten

theorem allocations_fresh_crossing :
    Machine.Steps (step .dev) InsertsNew (init 1400 0 false) crossing ∧
      Machine.Steps (step .dev) (fun t op => t.refused op = false → t.InsertsNew op) (init 1400 0 false) crossing ∧
      (Machine.run (step .dev) (init 1400 0 false) crossing).outstanding = [0, 1] := by
  have hops : Machine.Steps (step .dev) Timely (init 1400 0 false) crossing := by decide +kernel
  have htaken : Machine.Steps (step .dev) (fun t op => t.refused op = false → t.Timely op) (init 1400 0 false) crossing := by
    decide +kernel
  obtain ⟨hnew, hnewTaken⟩ := (allocations_fresh .dev 1400 0 false).2 crossing
  exact ⟨hnew hops, hnewTaken htaken, by decide +kernel⟩

end Numbered

end RakNet
