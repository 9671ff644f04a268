/-
What the reliability levels promise, and what `handle_frame` makes of it.

A `Reliable` frame is said to be filtered by its message index, and of sequenced frames only the latest is to be delivered.
`handle_frame` looks at neither index. An unsplit frame of an unordered level is delivered as it comes, and a
`ReliableSequenced` frame goes through the ordered channel, by its order index.

- `appData_handleFrame`: what a frame delivers, as a function of what is held.
- `appData_run`: the payloads a run of datagrams delivers are those of the frames it handles, one by one.
- `deduplicated_iff`: a message index is delivered once, exactly when no two frames with it are handled as game packets.
- `keepsSequence_iff`: sequenced frames are delivered as promised, exactly when they come in sequence, and those that go through
  a channel come in its order too.
-/
import RakNet.Connection.Held
import RakNet.Connection.Panics

namespace RakNet

open Lib Lib.Wire

namespace Conn

open Action

/-! ## What a frame delivers -/

namespace Held

/-- the payloads a frame delivers -/
def delivered (p : Profile) (now : Nat) (s : ConnectionState) (h : Held) (f : Frame) : List Bytes :=
  match kindIn s f with
  | .game =>
    if f.reliability.isOrdered && f.split.isNone then
      if h16 : f.orderChannel.toNat < 16 then
        (h.channels[f.orderChannel.toNat].insert (orderIndexOf f) f.payload).1
      else []
    else match f.split with
      | none => [f.payload]
      | some info =>
        if (p.add 32 info.index.toNat 1).isOk then
          (h.fragments.insert now info.id.toNat info.index.toNat info.count.toNat f.payload).1.toList
        else []
  | .empty | .ping | .pong | .disconnect | .request | .incoming | .echo => []

theorem appData_after (p : Profile) (now : Nat) (s : ConnectionState) (h : Held) (f : Frame) :
    (h.after p now s f).appData = h.appData ++ h.delivered p now s f := by
  unfold after delivered
  cases kindIn s f with
  | request | incoming =>
    dsimp only
    rw [appData_advanced, List.append_nil]
  | game =>
    dsimp only
    unfold game
    split_ifs with hord h16
    · unfold ordered
      rw [dif_pos h16]
    · unfold ordered
      rw [dif_neg h16, List.append_nil]
    · cases f.split with
      | none => rfl
      | some info =>
        dsimp only
        unfold fragment
        split_ifs
        · rfl
        · rw [List.append_nil]
  | _ => exact (List.append_nil _).symm

/-- an unsplit frame of a level without an order is delivered as it comes -/
theorem delivered_whole {p : Profile} {now : Nat} {s : ConnectionState} {h : Held} {f : Frame}
    (hord : f.reliability.isOrdered = false) (hs : f.split = none) :
    h.delivered p now s f = if kindIn s f = .game then [f.payload] else [] := by
  unfold delivered
  rw [hord, hs]
  cases kindIn s f <;> rfl

/-- an unsplit frame of a level with an order delivers what its channel hands out -/
theorem delivered_ordered {p : Profile} {now : Nat} {s : ConnectionState} {h : Held} {f : Frame}
    (hgame : kindIn s f = .game) (hord : f.reliability.isOrdered = true) (hs : f.split.isNone = true) :
    h.delivered p now s f = if h16 : f.orderChannel.toNat < 16 then
      (h.channels[f.orderChannel.toNat].insert (orderIndexOf f) f.payload).1 else [] := by
  unfold delivered
  rw [hgame, hord, hs]
  rfl

end Held

/-- **What a frame delivers.** -/
theorem appData_handleFrame (p : Profile) (env : Env) (f : Frame) (c : Conn) :
    (handleFrame p env f c).2.appData = c.appData ++ (heldView c).delivered p env.now c.shared.state f := by
  calc (handleFrame p env f c).2.appData
      = ((heldView c).after p env.now c.shared.state f).appData := congrArg Held.appData (heldView_handleFrame p env f c)
    _ = c.appData ++ (heldView c).delivered p env.now c.shared.state f :=
        Held.appData_after p env.now c.shared.state (heldView c) f

/-! ## Runs of datagrams -/

/-- a datagram as `handle_datagram` gets it, with the environments of its frames -/
structure Datagram where
  envs : Nat → Env
  seq : U24
  framesData : Bytes

/-- a frame that was handled: the state it found, and what it delivered -/
structure Handled where
  state : ConnectionState
  frame : Frame
  delivered : List Bytes
deriving DecidableEq, Repr

def handledFrame (p : Profile) (env : Env) (f : Frame) (c : Conn) : Handled :=
  ⟨c.shared.state, f, (heldView c).delivered p env.now c.shared.state f⟩

/-- the frames the loop of a datagram handles -/
def loopLog (p : Profile) : Nat → (Nat → Env) → Bytes → Conn → List Handled
  | _, _, [], _ => []
  | 0, _, _ :: _, _ => []
  | fuel + 1, envs, x :: b, c =>
    match Frame.decode p (x :: b) with
    | .ok (f, rest) =>
      handledFrame p (envs 0) f c ::
        if handlerOk p (envs 0) c f then
          loopLog p fuel (fun i => envs (i + 1)) rest (handleFrame p (envs 0) f c).2
        else []
    | _ => []

/-- the frames `handle_datagram` handles -/
def datagramLog (p : Profile) (d : Datagram) (c : Conn) : List Handled :=
  if (c.shared.recvWindow.markReceived d.seq.get).1 = some true then
    loopLog p d.framesData.length d.envs d.framesData (recorded d.seq c)
  else []

/-- datagrams in turn; an error ends the handling of its datagram only, a panic the receive task -/
def runDatagrams (p : Profile) : List Datagram → Conn → Conn
  | [], c => c
  | d :: ds, c =>
    if (handleDatagram p d.envs d.seq d.framesData c).1.isPanic then (handleDatagram p d.envs d.seq d.framesData c).2
    else runDatagrams p ds (handleDatagram p d.envs d.seq d.framesData c).2

/-- the frames they handle -/
def runLog (p : Profile) : List Datagram → Conn → List Handled
  | [], _ => []
  | d :: ds, c =>
    datagramLog p d c ++
      if (handleDatagram p d.envs d.seq d.framesData c).1.isPanic then []
      else runLog p ds (handleDatagram p d.envs d.seq d.framesData c).2

theorem appData_frameLoop (p : Profile) (fuel : Nat) (envs : Nat → Env) (b : Bytes) (c : Conn) :
    (frameLoop p fuel envs b c).2.appData = c.appData ++ (loopLog p fuel envs b c).flatMap Handled.delivered := by
  induction fuel generalizing envs b c with
  | zero => cases b <;> exact (List.append_nil _).symm
  | succ fuel ih =>
    cases b with
    | nil => exact (List.append_nil _).symm
    | cons x b =>
      unfold frameLoop loopLog
      rw [bind_apply, lift_apply]
      cases Frame.decode p (x :: b) with
      | err e => exact (List.append_nil _).symm
      | panic => exact (List.append_nil _).symm
      | ok r =>
        have happ := appData_handleFrame p (envs 0) r.1 c
        have hok := handleFrame_isOk p (envs 0) r.1 c
        dsimp only
        rw [bind_apply, List.flatMap_cons, ← List.append_assoc, ← hok]
        cases hr : handleFrame p (envs 0) r.1 c with
        | mk res c' =>
          rw [hr] at happ
          cases res with
          | ok u => exact (ih _ _ _).trans (congrArg (· ++ _) happ)
          | err e => exact happ.trans (List.append_nil _).symm
          | panic => exact happ.trans (List.append_nil _).symm

/-- **What a run of datagrams delivers**, frame by frame. -/
theorem appData_run (p : Profile) (ds : List Datagram) (c : Conn) :
    (runDatagrams p ds c).appData = c.appData ++ (runLog p ds c).flatMap Handled.delivered := by
  induction ds generalizing c with
  | nil => exact (List.append_nil _).symm
  | cons d ds ih =>
    have hone : (handleDatagram p d.envs d.seq d.framesData c).2.appData =
        c.appData ++ (datagramLog p d c).flatMap Handled.delivered := by
      unfold datagramLog
      rw [handleDatagram_apply]
      split_ifs
      · exact appData_frameLoop p _ d.envs d.framesData (recorded d.seq c)
      · exact (List.append_nil _).symm
    unfold runDatagrams runLog
    rw [List.flatMap_append, ← List.append_assoc, ← hone]
    split_ifs
    · exact (List.append_nil _).symm
    · exact ih _

/-! ## Reliable messages -/

/-- two unsplit `Reliable` frames with the same message index -/
def SameMessage (f g : Frame) : Prop :=
  f.reliability = .reliable ∧ f.split = none ∧ g.reliability = .reliable ∧ g.split = none ∧
    f.messageIndex = g.messageIndex

instance decidableSameMessage (f g : Frame) : Decidable (SameMessage f g) :=
  inferInstanceAs (Decidable (f.reliability = .reliable ∧ f.split = none ∧ g.reliability = .reliable ∧ g.split = none ∧
    f.messageIndex = g.messageIndex))

/-- the frame is handled as a game packet -/
def Handled.isGame (e : Handled) : Bool := kindIn e.state e.frame == .game

/-- of two frames of one message, one at most is delivered -/
def Deduplicated (log : List Handled) : Prop :=
  log.Pairwise fun a b => SameMessage a.frame b.frame → ¬ (a.delivered ≠ [] ∧ b.delivered ≠ [])

/-- of two frames of one message, one at most is handled as a game packet -/
def NoRepeat (log : List Handled) : Prop :=
  log.Pairwise fun a b => SameMessage a.frame b.frame → ¬ (a.isGame = true ∧ b.isGame = true)

/-- an unsplit `Reliable` frame is delivered exactly when it is handled as a game packet -/
def DeliversGame (e : Handled) : Prop :=
  e.frame.reliability = .reliable → e.frame.split = none → (e.delivered ≠ [] ↔ e.isGame = true)

theorem deliversGame_handledFrame (p : Profile) (env : Env) (f : Frame) (c : Conn) :
    DeliversGame (handledFrame p env f c) := by
  intro hrel hs
  have hord : f.reliability.isOrdered = false := by
    rw [show f.reliability = .reliable from hrel]
    rfl
  unfold handledFrame Handled.isGame
  dsimp only
  rw [Held.delivered_whole hord hs, beq_iff_eq]
  split_ifs with hgame
  · exact iff_of_true (List.cons_ne_nil _ _) hgame
  · exact iff_of_false (fun hne => hne rfl) hgame

theorem deliversGame_loopLog (p : Profile) (fuel : Nat) (envs : Nat → Env) (b : Bytes) (c : Conn) :
    ∀ e ∈ loopLog p fuel envs b c, DeliversGame e := by
  induction fuel generalizing envs b c with
  | zero => cases b <;> simp [loopLog]
  | succ fuel ih =>
    cases b with
    | nil => simp [loopLog]
    | cons x b =>
      unfold loopLog
      cases Frame.decode p (x :: b) with
      | err e => simp
      | panic => simp
      | ok r =>
        intro e he
        rcases List.mem_cons.1 he with rfl | hrest
        · exact deliversGame_handledFrame p (envs 0) r.1 c
        · split_ifs at hrest
          · exact ih _ _ _ e hrest
          · cases hrest

theorem deliversGame_runLog (p : Profile) (ds : List Datagram) (c : Conn) : ∀ e ∈ runLog p ds c, DeliversGame e := by
  induction ds generalizing c with
  | nil => simp [runLog]
  | cons d ds ih =>
    intro e he
    rcases List.mem_append.1 he with hone | hrest
    · unfold datagramLog at hone
      split_ifs at hone
      · exact deliversGame_loopLog p _ _ _ _ e hone
      · cases hone
    · split_ifs at hrest
      · cases hrest
      · exact ih _ e hrest

/-- **Reliable messages are not deduplicated.** For every run of datagrams from every state: a message index is delivered
once at most, if and only if no two unsplit `Reliable` frames with it are handled as game packets. -/
theorem deduplicated_iff (p : Profile) (ds : List Datagram) (c : Conn) :
    Deduplicated (runLog p ds c) ↔ NoRepeat (runLog p ds c) := by
  have hgame := deliversGame_runLog p ds c
  apply List.Pairwise.iff_of_mem
  intro a b ha hb
  refine imp_congr_right fun hsame => not_congr ?_
  obtain ⟨harel, hasplit, hbrel, hbsplit, -⟩ := hsame
  rw [hgame a ha harel hasplit, hgame b hb hbrel hbsplit]

/-- a stream that has logged in -/
def established : Conn := { new 1500 0 false with shared := { SharedState.new 1500 0 with state := .connected } }

/-- message 0 -/
def resentFrame : Frame := { Frame.new .reliable [0xfe] with messageIndex := some (U24.new 0) }

/-- message 0 in the datagram with this number, with the bytes of the number in front of it -/
def resentIn (seq : U24) : Datagram := ⟨fun _ => quietEnv, seq, writeU24 seq ++ resentFrame.encode⟩

/-- **A message that is sent again in a new datagram** is delivered twice. -/
theorem resent_delivered_twice :
    (runDatagrams .dev [resentIn (U24.new 0), resentIn (U24.new 1)] established).appData = [[0xfe], [0xfe]] ∧
      ¬ Deduplicated (runLog .dev [resentIn (U24.new 0), resentIn (U24.new 1)] established) := by
  unfold Deduplicated
  decide

/-! ## Sequenced frames -/

/-- the frames that are in sequence with each other -/
inductive SequencedClass where
  | unreliable
  | reliable (channel : UInt8)
deriving DecidableEq, Repr

def SequencedClass.has : SequencedClass → Frame → Bool
  | unreliable, f => f.reliability == .unreliableSequenced && f.split.isNone
  | reliable channel, f => f.reliability == .reliableSequenced && f.split.isNone && f.orderChannel == channel

/-- the frame comes after the newest one delivered, in the order of `seq_less_than` -/
def newer (newest : Option U24) (f : Frame) : Bool :=
  match newest with
  | none => true
  | some newest =>
    match f.sequenceIndex with
    | none => false
    | some index => seqLessThan newest.get index.get

/-- the frame is one of the class and is handled as a game packet -/
def concerns (cls : SequencedClass) (s : ConnectionState) (f : Frame) : Bool := cls.has f && kindIn s f == .game

/-- what the level promises of the frame: it is dropped if it is not newer, and delivered at once if it is -/
def promised (newest : Option U24) (f : Frame) : List Bytes := if newer newest f then [f.payload] else []

def newestAfter (cls : SequencedClass) (newest : Option U24) (s : ConnectionState) (f : Frame) : Option U24 :=
  if concerns cls s f && newer newest f then f.sequenceIndex else newest

/-- frames that arrive one after another: those of the class deliver what is promised of them -/
def Sequenced (p : Profile) (cls : SequencedClass) : (Nat → Env) → Option U24 → List Frame → Conn → Prop
  | _, _, [], _ => True
  | envs, newest, f :: fs, c =>
    (concerns cls c.shared.state f = true →
      (heldView c).delivered p (envs 0).now c.shared.state f = promised newest f) ∧
    ((handleFrame p (envs 0) f c).1.isPanic = false →
      Sequenced p cls (fun i => envs (i + 1)) (newestAfter cls newest c.shared.state f) fs (handleFrame p (envs 0) f c).2)

/-- the frame is newer; one that goes through a channel is newer exactly when it is the next of its channel, and then nothing
waits behind it -/
def inTurn (newest : Option U24) (h : Held) (f : Frame) : Bool :=
  if f.reliability.isOrdered then
    if h16 : f.orderChannel.toNat < 16 then
      if newer newest f then
        orderIndexOf f == h.channels[f.orderChannel.toNat].nextIndex &&
          h.channels[f.orderChannel.toNat].queue[h.channels[f.orderChannel.toNat].advance.nextIndex]?.isNone
      else orderIndexOf f != h.channels[f.orderChannel.toNat].nextIndex
    else !newer newest f
  else newer newest f

/-- frames that arrive one after another: those of the class come in their turn -/
def InSequence (p : Profile) (cls : SequencedClass) : (Nat → Env) → Option U24 → List Frame → Conn → Prop
  | _, _, [], _ => True
  | envs, newest, f :: fs, c =>
    (concerns cls c.shared.state f = true → inTurn newest (heldView c) f = true) ∧
    ((handleFrame p (envs 0) f c).1.isPanic = false →
      InSequence p cls (fun i => envs (i + 1)) (newestAfter cls newest c.shared.state f) fs (handleFrame p (envs 0) f c).2)

theorem insert_eq_promised_iff (chan : OrderedChannel) (i : Nat) (newest : Option U24) (f : Frame) :
    (chan.insert i f.payload).1 = promised newest f ↔
      (if newer newest f then i == chan.nextIndex && chan.queue[chan.advance.nextIndex]?.isNone
        else i != chan.nextIndex) = true := by
  have hdrain : chan.advance.drain.1 = [] ↔ chan.queue[chan.advance.nextIndex]? = none := chan.advance.drain_eq_nil_iff
  unfold promised
  rcases chan.insert_cases i f.payload with ⟨hi, he⟩ | ⟨hi, -, he⟩ | ⟨hi, -, he⟩ | ⟨hi, he⟩
  · rw [he, hi]
    cases newer newest f with
    | true => simpa using hdrain
    | false => simp
  all_goals
    have hne : i ≠ chan.nextIndex := by omega
    rw [he]
    cases newer newest f with
    | true => simp [hne]
    | false => simp [hne]

/-- **One frame**: it delivers what is promised exactly when it comes in its turn. -/
theorem delivered_eq_promised_iff (p : Profile) (now : Nat) {cls : SequencedClass} {s : ConnectionState} (h : Held)
    {f : Frame} (hf : concerns cls s f = true) (newest : Option U24) :
    h.delivered p now s f = promised newest f ↔ inTurn newest h f = true := by
  unfold concerns at hf
  rw [Bool.and_eq_true, beq_iff_eq] at hf
  obtain ⟨hcls, hgame⟩ := hf
  unfold inTurn
  cases cls with
  | unreliable =>
    simp only [SequencedClass.has, Bool.and_eq_true, beq_iff_eq, Option.isNone_iff_eq_none] at hcls
    have hord : f.reliability.isOrdered = false := by
      rw [hcls.1]
      rfl
    rw [Held.delivered_whole hord hcls.2, if_pos hgame, hord, promised]
    cases newer newest f <;> simp
  | reliable channel =>
    simp only [SequencedClass.has, Bool.and_eq_true, beq_iff_eq] at hcls
    have hord : f.reliability.isOrdered = true := by
      rw [hcls.1.1]
      rfl
    rw [Held.delivered_ordered hgame hord hcls.1.2, if_pos hord]
    by_cases h16 : f.orderChannel.toNat < 16
    · rw [dif_pos h16, dif_pos h16]
      exact insert_eq_promised_iff _ _ newest f
    · rw [dif_neg h16, dif_neg h16, promised]
      cases newer newest f <;> simp

/-- frames in turn: each delivers what is promised of it, if and only if each comes in its turn -/
theorem sequenced_iff_inSequence (p : Profile) (cls : SequencedClass) (envs : Nat → Env) (newest : Option U24)
    (fs : List Frame) (c : Conn) : Sequenced p cls envs newest fs c ↔ InSequence p cls envs newest fs c := by
  induction fs generalizing envs newest c with
  | nil => exact Iff.rfl
  | cons f fs ih =>
    refine and_congr (forall_congr' fun hf => ?_) (imp_congr_right fun _ => ih _ _ _)
    exact delivered_eq_promised_iff p (envs 0).now (heldView c) hf newest

/-- the sequence indices of the frames of the class that deliver something -/
def deliveredIndices (p : Profile) (cls : SequencedClass) : (Nat → Env) → List Frame → Conn → List U24
  | _, [], _ => []
  | envs, f :: fs, c =>
    (if concerns cls c.shared.state f && (heldView c).delivered p (envs 0).now c.shared.state f != []
      then f.sequenceIndex.toList else []) ++
      if (handleFrame p (envs 0) f c).1.isPanic then []
      else deliveredIndices p cls (fun i => envs (i + 1)) fs (handleFrame p (envs 0) f c).2

/-- the index is one of the `2 ^ 23` from `base` on -/
def Spans (base index : U24) : Prop := (index.get + (2 ^ 24 - base.get)) % 2 ^ 24 < 2 ^ 23

/-- in a span of fewer than `2 ^ 23` indices the order is transitive -/
theorem seqLessThan_trans {base a b d : U24} (ha : Spans base a) (hb : Spans base b) (hd : Spans base d)
    (hab : seqLessThan a.get b.get = true) (hbd : seqLessThan b.get d.get = true) : seqLessThan a.get d.get = true := by
  unfold Spans at ha hb hd
  rw [seqLessThan_iff] at hab hbd ⊢
  have := a.get_lt
  have := b.get_lt
  have := d.get_lt
  have := base.get_lt
  omega

/-- the frames of the class carry indices of one span -/
def InSpan (cls : SequencedClass) (base : U24) (fs : List Frame) : Prop :=
  ∀ f ∈ fs, cls.has f = true → ∃ index, f.sequenceIndex = some index ∧ Spans base index

theorem spans_deliveredIndices {p : Profile} {cls : SequencedClass} {base : U24} {fs : List Frame}
    (hspan : InSpan cls base fs) (envs : Nat → Env) (c : Conn) : ∀ x ∈ deliveredIndices p cls envs fs c, Spans base x := by
  induction fs generalizing envs c with
  | nil => simp [deliveredIndices]
  | cons f fs ih =>
    intro x hx
    rcases List.mem_append.1 hx with hhead | hrest
    · split_ifs at hhead with hconcerns
      · unfold concerns at hconcerns
        simp only [Bool.and_eq_true] at hconcerns
        obtain ⟨index, hindex, hspans⟩ := hspan f List.mem_cons_self hconcerns.1.1
        rw [hindex] at hhead
        rw [List.mem_singleton.1 hhead]
        exact hspans
      · cases hhead
    · split_ifs at hrest
      · cases hrest
      · exact ih (fun g hg => hspan g (List.mem_cons_of_mem _ hg)) _ _ x hrest

/-- a newer index in front of indices that increase from it on -/
theorem pairwise_newest {base index : U24} {newest : Option U24} {rest : List U24}
    (hnewest : ∀ n, newest = some n → Spans base n) (hindex : Spans base index) (hrest : ∀ x ∈ rest, Spans base x)
    (hnewer : ∀ n, newest = some n → seqLessThan n.get index.get = true)
    (h : (index :: rest).Pairwise fun a b => seqLessThan a.get b.get = true) :
    (newest.toList ++ index :: rest).Pairwise fun a b => seqLessThan a.get b.get = true := by
  cases newest with
  | none => exact h
  | some n =>
    refine List.pairwise_cons.2 ⟨?_, h⟩
    intro x hx
    rcases List.mem_cons.1 hx with rfl | hx
    · exact hnewer n rfl
    · exact seqLessThan_trans (hnewest n rfl) hindex (hrest x hx) (hnewer n rfl) ((List.pairwise_cons.1 h).1 x hx)

/-- a frame that delivers what is promised: it is newer and the newest one from then on, or it delivers nothing -/
theorem newest_cases {cls : SequencedClass} {base : U24} {s : ConnectionState} {f : Frame} {newest : Option U24}
    {out : List Bytes} (hspan : cls.has f = true → ∃ index, f.sequenceIndex = some index ∧ Spans base index)
    (h : concerns cls s f = true → out = promised newest f) :
    (∃ index, Spans base index ∧ (∀ n, newest = some n → seqLessThan n.get index.get = true) ∧
      newestAfter cls newest s f = some index ∧
      (if concerns cls s f && out != [] then f.sequenceIndex.toList else []) = [index]) ∨
    (newestAfter cls newest s f = newest ∧
      (if concerns cls s f && out != [] then f.sequenceIndex.toList else []) = []) := by
  unfold newestAfter
  cases hf : concerns cls s f with
  | false => exact Or.inr ⟨rfl, rfl⟩
  | true =>
    have hcls : cls.has f = true := (Bool.and_eq_true_iff.1 hf).1
    obtain ⟨index, hindex, hspans⟩ := hspan hcls
    rw [h hf, promised]
    cases hnewer : newer newest f with
    | false => exact Or.inr ⟨rfl, rfl⟩
    | true =>
      refine Or.inl ⟨index, hspans, ?_, hindex, ?_⟩
      · rintro n rfl
        simpa [newer, hindex] using hnewer
      · rw [hindex]
        rfl

/-- **Promised deliveries are in sequence**: if the frames of a class carry indices of one span and deliver what is promised,
the indices that are delivered increase, from the newest one on. -/
theorem deliveredIndices_increasing {p : Profile} {cls : SequencedClass} {base : U24} {fs : List Frame}
    (hspan : InSpan cls base fs) (envs : Nat → Env) {newest : Option U24} (hnewest : ∀ n, newest = some n → Spans base n)
    {c : Conn} (h : Sequenced p cls envs newest fs c) :
    (newest.toList ++ deliveredIndices p cls envs fs c).Pairwise fun a b => seqLessThan a.get b.get = true := by
  induction fs generalizing envs newest c with
  | nil => cases newest <;> simp [deliveredIndices]
  | cons f fs ih =>
    have hspan' : InSpan cls base fs := fun g hg => hspan g (List.mem_cons_of_mem _ hg)
    have hrestspan : ∀ x ∈ (if (handleFrame p (envs 0) f c).1.isPanic then [] else
        deliveredIndices p cls (fun i => envs (i + 1)) fs (handleFrame p (envs 0) f c).2), Spans base x := by
      intro x hx
      split_ifs at hx
      · cases hx
      · exact spans_deliveredIndices hspan' _ _ x hx
    -- what the frames behind this one deliver is in sequence with the newest index after it
    have hrest : (∀ n, newestAfter cls newest c.shared.state f = some n → Spans base n) →
        ((newestAfter cls newest c.shared.state f).toList ++ if (handleFrame p (envs 0) f c).1.isPanic then [] else
          deliveredIndices p cls (fun i => envs (i + 1)) fs (handleFrame p (envs 0) f c).2).Pairwise
          fun a b => seqLessThan a.get b.get = true := by
      intro hafter
      split_ifs with hpanic
      · cases newestAfter cls newest c.shared.state f <;> simp
      · exact ih hspan' _ hafter (h.2 (by simpa using hpanic))
    unfold deliveredIndices
    rcases newest_cases (hspan f List.mem_cons_self) h.1 with ⟨index, hspans, hnewer, hafter, hhead⟩ | ⟨hafter, hhead⟩
    · rw [hafter] at hrest
      rw [hhead]
      apply pairwise_newest hnewest hspans hrestspan hnewer
      apply hrest
      intro n hn
      cases hn
      exact hspans
    · rw [hafter] at hrest
      rw [hhead]
      exact hrest hnewest

/-- what is promised of the sequenced frames of a class, whatever arrives and in whatever order -/
structure KeepsSequence (p : Profile) (cls : SequencedClass) (envs : Nat → Env) (fs : List Frame) (c : Conn) : Prop where
  /-- the delivered indices increase, if they are of one span -/
  increasing : ∀ base, InSpan cls base fs →
    (deliveredIndices p cls envs fs c).Pairwise fun a b => seqLessThan a.get b.get = true
  /-- a frame that is not newer than the newest one delivered is dropped, a newer one is delivered at once -/
  promised : Sequenced p cls envs none fs c

/-- **Sequenced frames**: for any frames in any order of arrival, from any state, the promise is kept for the frames of a class
if and only if each of them comes in its turn. -/
theorem keepsSequence_iff (p : Profile) (cls : SequencedClass) (envs : Nat → Env) (fs : List Frame) (c : Conn) :
    KeepsSequence p cls envs fs c ↔ InSequence p cls envs none fs c := by
  constructor
  · intro h
    exact (sequenced_iff_inSequence p cls envs none fs c).1 h.promised
  · intro h
    have hpromised := (sequenced_iff_inSequence p cls envs none fs c).2 h
    refine ⟨?_, hpromised⟩
    intro base hspan
    exact deliveredIndices_increasing hspan envs (fun n hn => by cases hn) hpromised

/-- a game packet of a sequenced level, with the indices the level has -/
def sequencedFrame (level : Reliability) (i : UInt8) : Frame :=
  { Frame.new level [0xfe, i] with
    messageIndex := if level.isReliable then some (U24.new i.toNat) else none
    sequenceIndex := some (U24.new i.toNat)
    orderIndex := if level.isOrdered then some (U24.new i.toNat) else none }

/-- two frames, the newer one first -/
def overtaken (level : Reliability) : List Frame := [sequencedFrame level 1, sequencedFrame level 0]

/-- **An old frame is delivered, a new one waits**: of unreliable frames the older one is delivered after the newer one, and
of reliable ones the newer one waits until the older one is delivered. -/
theorem overtaken_delivered :
    (arriveAll .dev (fun _ => quietEnv) (overtaken .unreliableSequenced) established).appData = [[0xfe, 1], [0xfe, 0]] ∧
    ¬ KeepsSequence .dev .unreliable (fun _ => quietEnv) (overtaken .unreliableSequenced) established ∧
    (arriveAll .dev (fun _ => quietEnv) (overtaken .reliableSequenced) established).appData = [[0xfe, 0], [0xfe, 1]] ∧
    ¬ KeepsSequence .dev (.reliable 0) (fun _ => quietEnv) (overtaken .reliableSequenced) established := by
  refine ⟨by decide, ?_, by decide, ?_⟩
  · intro h
    exact absurd ((h.promised.2 (by decide)).1 (by decide)) (by decide)
  · intro h
    exact absurd (h.promised.1 (by decide)) (by decide)

end Conn

end RakNet
