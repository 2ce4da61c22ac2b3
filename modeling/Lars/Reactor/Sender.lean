import Lars.Lib.Run
import Lars.Reactor.Send

/-!
# The sending side of a connection

A connection sends by any mixture of `send_message` and `do_write` calls. The
kernel may take as little of each `write` as it likes. What has been written and
what is still pending should together be the frames of the messages sent, and
pending data should never be without a write event.
-/
namespace Lars.Reactor

/-- The calls on the sending side. `listen` is the registration that the constructor of
`tcp_conn` makes after its hook. -/
inductive SendAction where
  | send (data : List UInt8) (msgid : Int32)
  | write (results : List WriteResult)
  | listen

/-- One call, and the pool as the other connections have left it. -/
structure SendEvent where
  action : SendAction
  pool : BufPool
  sound : pool.Ok

/-- A connection with the history of what was written and of the messages accepted. -/
structure Sender where
  obuf : ReactorBuf
  loop : Loop
  written : List UInt8
  sent : List (Int32 × List UInt8)
  closed : Bool

namespace Sender

def init (loop : Loop) : Sender := ⟨none, loop, [], [], false⟩

def out (s : Sender) (ev : SendEvent) : Out := ⟨s.obuf, s.loop, ev.pool⟩

def step (e : Endpoint) (fd : Nat) (s : Sender) (ev : SendEvent) : Except Fault Sender :=
  match ev.action with
  | .send data msgid =>
    match sendMessage e fd data msgid (s.out ev) with
    | .error f => .error f
    | .ok (ret, o) =>
      let sent := if ret = 0 then s.sent ++ [(msgid, data)] else s.sent
      .ok { s with obuf := o.obuf, loop := o.loop, sent := sent }
  | .write results =>
    match doWrite e fd results (s.out ev) with
    | .error f => .error f
    | .ok (written, closed, o) =>
      .ok { s with obuf := o.obuf, loop := o.loop, written := s.written ++ written, closed := closed }
  | .listen => .ok { s with loop := s.loop.addIoEvent fd .connRd epollin () }

/-- Every message is accepted, and no `write` fails for good. -/
def Accepted (e : Endpoint) (fd : Nat) (s : Sender) (ev : SendEvent) : Prop :=
  match ev.action with
  | .send data msgid => ∃ o, sendMessage e fd data msgid (s.out ev) = .ok (0, o)
  | .write results => .failed ∉ results
  | .listen => True

/-- Written and pending bytes are the frames of the messages sent, the buffer starts at its
block's start, and the descriptor is watched for writing exactly while bytes are pending. -/
structure Intact (e : Endpoint) (fd : Nat) (s : Sender) (pending : List UInt8) : Prop where
  holds : s.obuf.Holds pending
  stream : s.written ++ pending = s.sent.flatMap msgCodec.frame
  inStep : s.loop.InStep fd
  armed : s.loop.Watches fd epollout ↔ pending ≠ []
  writer : pending ≠ [] → s.loop.writer fd = some e.writeCallback
  live : s.closed = false

variable {e : Endpoint} {fd : Nat} {s : Sender} {ev : SendEvent} {pending : List UInt8}

theorem Intact.init {loop : Loop} (inStep : loop.InStep fd) (quiet : ¬ loop.Watches fd epollout) :
    Intact e fd (init loop) [] where
  holds := rfl
  stream := rfl
  inStep := inStep
  armed := iff_of_false quiet (by simp)
  writer := by simp
  live := rfl

theorem frame_ne_nil (m : Int32 × List UInt8) : msgCodec.frame m ≠ [] := by
  apply List.ne_nil_of_length_pos
  rw [Framing.Codec.frame_length]
  exact Nat.lt_of_lt_of_le msgCodec.headLen_pos (Nat.le_add_right _ _)

/-- An accepted message keeps the stream intact: the event is armed by the message that ends the
emptiness of the buffer and was armed already by an earlier one. -/
theorem Intact.send (intact : Intact e fd s pending) {data : List UInt8} {msgid : Int32}
    {p : BufPool} {o : Out} (sound : p.Ok)
    (done : sendMessage e fd data msgid ⟨s.obuf, s.loop, p⟩ = .ok (0, o)) :
    Intact e fd { s with obuf := o.obuf, loop := o.loop, sent := s.sent ++ [(msgid, data)] }
      (pending ++ msgCodec.frame (msgid, data)) := by
  have more : pending ++ msgCodec.frame (msgid, data) ≠ [] := by
    simp [frame_ne_nil]
  rcases sendMessage_inv sound intact.holds done with ⟨-, -, holds, -, loop⟩ | ⟨refused, -⟩
  · have stream : s.written ++ (pending ++ msgCodec.frame (msgid, data)) =
        (s.sent ++ [(msgid, data)]).flatMap msgCodec.frame := by
      rw [← List.append_assoc, intact.stream]
      simp
    by_cases empty : pending = []
    -- the first message registers the event, a later one finds it registered
    · rw [if_pos empty] at loop
      obtain ⟨inStep, watches⟩ := intact.inStep.addIoEvent e.writeCallback epollout ()
      refine ⟨holds, stream, ?_, ?_, fun _ => ?_, intact.live⟩
      · rwa [loop]
      · rw [loop]
        exact iff_of_true ((watches epollout).mpr (.inr (by decide))) more
      · rw [loop]
        exact EventLoop.writer_addIoEvent_out ..
    · rw [if_neg empty] at loop
      refine ⟨holds, stream, ?_, ?_, fun _ => ?_, intact.live⟩
      · rw [loop]
        exact intact.inStep
      · rw [loop]
        exact iff_of_true (intact.armed.mpr empty) more
      · rw [loop]
        exact intact.writer empty
  · cases refused

/-- A write event keeps the stream intact: the event is given up with the last byte. -/
theorem Intact.write (intact : Intact e fd s pending) (ev : SendEvent) {results : List WriteResult}
    (fine : .failed ∉ results) :
    ∃ written rest o, doWrite e fd results (s.out ev) = .ok (written, false, o) ∧
      Intact e fd { s with obuf := o.obuf, loop := o.loop, written := s.written ++ written }
        rest := by
  obtain ⟨written, rest, o, done, parts, holds, loop⟩ :=
    doWrite_spec (o := s.out ev) e fd intact.holds fine
  have stream : s.written ++ written ++ rest = s.sent.flatMap msgCodec.frame := by
    rw [List.append_assoc, parts, intact.stream]
  refine ⟨written, rest, o, done, ?_⟩
  by_cases empty : rest = []
  · rw [if_pos empty] at loop
    obtain ⟨inStep, unwatched, -⟩ := intact.inStep.delIoEventMask epollout
    refine ⟨holds, stream, ?_, ?_, fun more => absurd empty more, intact.live⟩
    · rwa [loop]
    · rw [loop]
      exact iff_of_false unwatched (by simp [empty])
  · rw [if_neg empty] at loop
    -- what is left was pending before
    have before : pending ≠ [] := by
      rintro rfl
      exact empty (List.append_eq_nil_iff.mp parts).2
    refine ⟨holds, stream, ?_, ?_, fun _ => ?_, intact.live⟩
    · rw [loop]
      exact intact.inStep
    · rw [loop]
      exact iff_of_true (intact.armed.mpr before) empty
    · rw [loop]
      exact intact.writer before

theorem Intact.listen (intact : Intact e fd s pending) (proc : Callback) :
    Intact e fd { s with loop := s.loop.addIoEvent fd proc epollin () } pending := by
  obtain ⟨inStep, watches⟩ := intact.inStep.addIoEvent proc epollin ()
  refine ⟨intact.holds, intact.stream, inStep, ?_, fun more => ?_, intact.live⟩
  · rw [watches, or_iff_left (by decide)]
    exact intact.armed
  · rw [EventLoop.writer_addIoEvent_in]
    exact intact.writer more

theorem step_intact (intact : Intact e fd s pending) (accepted : Accepted e fd s ev) :
    ∃ s' rest, step e fd s ev = .ok s' ∧ Intact e fd s' rest := by
  obtain ⟨action, p, sound⟩ := ev
  cases action with
  | send data msgid =>
    obtain ⟨o, done⟩ := accepted
    exact ⟨_, _, by simp only [step, done, ↓reduceIte], intact.send sound done⟩
  | write results =>
    obtain ⟨written, rest, o, done, after⟩ := intact.write ⟨.write results, p, sound⟩ accepted
    refine ⟨⟨o.obuf, o.loop, s.written ++ written, s.sent, false⟩, rest,
      by simp only [step, done], ?_⟩
    exact ⟨after.holds, after.stream, after.inStep, after.armed, after.writer, rfl⟩
  | listen => exact ⟨_, pending, rfl, intact.listen .connRd⟩

/-- In every run of accepted messages and of writes that do not fail, at every point: the bytes
written and the bytes pending are the frames of the messages sent so far, and the socket is
watched for writing, with the callback that writes, exactly while bytes are pending. -/
theorem stream_intact (e : Endpoint) {fd : Nat} {loop : Loop} (inStep : loop.InStep fd)
    (quiet : ¬ loop.Watches fd epollout) {evs : List SendEvent}
    (accepted : Run.Guarded (step e fd) (Accepted e fd) (init loop) evs) {pre : List SendEvent}
    (part : pre <+: evs) :
    ∃ s pending, Run.run (step e fd) (init loop) pre = .ok s ∧ Intact e fd s pending := by
  obtain ⟨later, rfl⟩ := part
  have progress : ∀ s ev, (∃ pending, Intact e fd s pending) → Accepted e fd s ev →
      ∃ s', step e fd s ev = .ok s' ∧ ∃ pending, Intact e fd s' pending := by
    rintro s ev ⟨pending, intact⟩ accepted
    obtain ⟨s', rest, done, after⟩ := step_intact intact accepted
    exact ⟨s', done, rest, after⟩
  obtain ⟨s, done, pending, intact⟩ :=
    Run.run_ok_of_guarded progress ⟨[], .init inStep quiet⟩ accepted.left
  exact ⟨s, pending, done, intact⟩

private def emptyPool : BufPool := ⟨fun _ => [], 0, 0⟩

private theorem emptyPool_ok : emptyPool.Ok := fun c b member => by cases member

private def newLoop : Loop := ⟨fun _ => none, ∅, ⟨fun _ => true, fun _ => none⟩⟩

private def someCalls : List SendEvent :=
  [⟨.listen, emptyPool, emptyPool_ok⟩, ⟨.send [1, 2, 3] 7, emptyPool, emptyPool_ok⟩,
    ⟨.write [.interrupted, .accepted 5, .again], emptyPool, emptyPool_ok⟩]

theorem stream_intact_some_calls :
    ∃ s pending, Run.run (step .conn 3) (init newLoop) someCalls = .ok s ∧
      Intact .conn 3 s pending := by
  have accepted : Run.Guarded (step .conn 3) (Accepted .conn 3) (init newLoop) someCalls := by
    refine ⟨trivial, fun s₁ done₁ => ?_⟩
    cases done₁
    refine ⟨⟨_, rfl⟩, fun s₂ done₂ => ?_⟩
    exact ⟨by simp [Accepted], fun _ _ => trivial⟩
  exact stream_intact .conn ⟨rfl, rfl⟩ (by simp [EventLoop.Watches, newLoop]) accepted
    (List.prefix_refl _)

end Sender

end Lars.Reactor
