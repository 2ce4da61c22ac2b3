import Lars.Reactor.Receive
import Lars.Reactor.Refusal

/-!
# A connection from end to end

What one end writes to its socket the other end reads from its own, in the same
order but in other pieces. The sending end has its buffer between the messages
and the socket, the receiving end has one between the socket and the router.
Seen from outside, the router of one end should be called for the messages that
the other end has sent.
-/
namespace Lars.Reactor

namespace Sender

variable {e : Endpoint} {fd : Nat} {s t : Sender} {ev : SendEvent}

/-- What was written is a first part of the frames of the accepted messages. On an open connection
the other part is pending, or a refused message has displaced it and no call writes any more. -/
structure Exact (s : Sender) : Prop where
  stream : ∃ pending, s.written ++ pending = s.sent.flatMap msgCodec.frame ∧
    (s.closed = false → s.obuf.Holds pending ∨ s.obuf.Displaced)
  sizes : ∀ m ∈ s.sent, m.2.length ≤ m8M

theorem Exact.init (loop : Loop) : (Sender.init loop).Exact where
  stream := ⟨[], rfl, fun _ => .inl rfl⟩
  sizes := fun _ member => absurd member List.not_mem_nil

theorem Exact.written (exact : s.Exact) : s.written <+: s.sent.flatMap msgCodec.frame := by
  obtain ⟨pending, stream, -⟩ := exact.stream
  exact ⟨pending, stream⟩

theorem step_exact (exact : s.Exact) (live : s.closed = false) (taken : step e fd s ev = .ok t) :
    t.Exact := by
  obtain ⟨pending, stream, held⟩ := exact.stream
  obtain ⟨action, p, sound⟩ := ev
  cases action with
  | send data msgid =>
    simp only [step] at taken
    rcases held live with holds | displaced
    · split at taken
      · cases taken
      next ret o' done =>
        cases taken
        rcases sendMessage_inv sound holds done with ⟨rfl, fits, holds', -⟩ | ⟨rfl, -⟩
        · refine ⟨⟨pending ++ msgCodec.frame (msgid, data), ?_, fun _ => .inl holds'⟩, ?_⟩
          · simp only [↓reduceIte, List.flatMap_append, List.flatMap_singleton, ← stream,
              List.append_assoc]
          · intro m member
            rcases List.mem_append.mp member with before | new
            · exact exact.sizes m before
            · rw [List.mem_singleton.mp new]
              change data.length ≤ m8M
              omega
        -- a refused message is not among those sent, whatever it does to the buffer
        · refine ⟨⟨pending, stream, fun _ => ?_⟩, exact.sizes⟩
          rcases sendMessage_refused_cases sound holds done with ⟨same, -⟩ | ⟨displaced, -⟩
          · exact .inl same
          · exact .inr displaced
    · rw [ReactorBuf.Displaced.sendMessage displaced] at taken
      cases taken
  | write results =>
    simp only [step] at taken
    rcases held live with holds | displaced
    · split at taken
      · cases taken
      next written closed o' done =>
        cases taken
        obtain ⟨left, parts, holds', -⟩ := doWrite_inv (o := s.out ⟨.write results, p, sound⟩)
          holds done
        refine ⟨⟨left, ?_, fun running => .inl (holds' running)⟩, exact.sizes⟩
        rw [List.append_assoc, parts, stream]
    · rw [ReactorBuf.Displaced.doWrite displaced] at taken
      cases taken
  | listen =>
    cases taken
    exact ⟨⟨pending, stream, held⟩, exact.sizes⟩

theorem step_written (taken : step e fd s ev = .ok t) : s.written <+: t.written := by
  obtain ⟨action, p, sound⟩ := ev
  cases action with
  | send data msgid =>
    simp only [step] at taken
    split at taken
    · cases taken
    · cases taken
      exact List.prefix_refl _
  | write results =>
    simp only [step] at taken
    split at taken
    · cases taken
    · cases taken
      exact List.prefix_append _ _
  | listen =>
    cases taken
    exact List.prefix_refl _

/-- What a call adds to the messages sent. -/
theorem step_sent (taken : step e fd s ev = .ok t) :
    t.sent = s.sent ∨ ∃ data msgid, ev.action = .send data msgid ∧
      t.sent = s.sent ++ [(msgid, data)] := by
  obtain ⟨action, p, sound⟩ := ev
  cases action with
  | send data msgid =>
    simp only [step] at taken
    split at taken
    · cases taken
    · cases taken
      dsimp only
      split
      · exact .inr ⟨data, msgid, rfl, rfl⟩
      · exact .inl rfl
  | write results =>
    simp only [step] at taken
    split at taken
    · cases taken
    · cases taken
      exact .inl rfl
  | listen =>
    cases taken
    exact .inl rfl

end Sender

namespace Receiver

variable {e : Endpoint} {r t : Receiver} {ev : ReadEvent}

/-- A read that returns has not ended with a bare head. -/
theorem step_faithful (faithful : r.Faithful) (taken : step e r ev = .ok t) : t.Faithful := by
  have fine : r.EndsWithBody ev := by
    obtain ⟨arrival, p, sound⟩ := ev
    cases arrival with
    | eof | failed => trivial
    | chunk bytes nonempty bounded =>
      intro live room served bare
      rw [(step_chunk e nonempty bounded sound faithful live room served).1 bare] at taken
      cases taken
  have after := (step_fine_iff e r ev faithful).mpr fine
  rw [taken] at after
  exact after

theorem step_calls (taken : step e r ev = .ok t) : r.calls <+: t.calls := by
  rw [step] at taken
  split at taken
  · cases taken
    exact List.prefix_refl _
  · split at taken
    · cases taken
    · cases taken
      exact List.prefix_append _ _

/-- A read takes all that it finds, or nothing. -/
theorem step_received (taken : step e r ev = .ok t) :
    t.received = r.received ∨ t.received = r.received ++ ev.arrival.result.getD [] := by
  rw [step] at taken
  split at taken
  · cases taken
    exact .inl rfl
  · split at taken
    · cases taken
    · cases taken
      dsimp only [Receiver.taken]
      split
      · split
        · exact .inr rfl
        · exact .inl (List.append_nil _)
      · exact .inl (List.append_nil _)

end Receiver

/-- One direction of a connection: the end that sends and the end that reads. -/
structure Link where
  sender : Sender
  receiver : Receiver

inductive LinkStep where
  | send (ev : SendEvent)
  | read (ev : ReadEvent)

namespace Link

def init (loop : Loop) : Link := ⟨.init loop, .init⟩

/-- The bytes on their way. -/
def transit (l : Link) : List UInt8 := l.sender.written.drop l.receiver.received.length

/-- A closed end does nothing any more. A read finds the oldest bytes on their way, as many as the
kernel has, or the end of the stream or an error at any time. -/
def step (e e' : Endpoint) (fd : Nat) (l : Link) : LinkStep → Except Fault Link
  | .send ev =>
    if l.sender.closed then .ok l
    else (l.sender.step e fd ev).map fun sender => { l with sender := sender }
  | .read ev =>
    if ev.arrival.result.getD [] <+: l.transit then
      (l.receiver.step e' ev).map fun receiver => { l with receiver := receiver }
    else .ok l

variable {e e' : Endpoint} {fd : Nat} {l t : Link}

/-- Both ends are in order, and what was read is what was written first. -/
structure Joined (l : Link) : Prop where
  exact : l.sender.Exact
  faithful : l.receiver.Faithful
  order : l.receiver.received <+: l.sender.written

theorem Joined.init (loop : Loop) : (Link.init loop).Joined where
  exact := Sender.Exact.init loop
  faithful := Receiver.init_faithful
  order := List.prefix_refl _

theorem step_cases {op : LinkStep} (taken : l.step e e' fd op = .ok t) :
    t = l ∨
      (∃ ev sender, op = .send ev ∧ l.sender.closed = false ∧
        l.sender.step e fd ev = .ok sender ∧ t = { l with sender := sender }) ∨
      ∃ ev receiver, op = .read ev ∧ ev.arrival.result.getD [] <+: l.transit ∧
        l.receiver.step e' ev = .ok receiver ∧ t = { l with receiver := receiver } := by
  cases op with
  | send ev =>
    rw [step] at taken
    split at taken
    next =>
      cases taken
      exact .inl rfl
    next live =>
      obtain ⟨sender, done, rfl⟩ := map_ok_inv taken
      exact .inr (.inl ⟨ev, sender, rfl, Bool.not_eq_true _ ▸ live, done, rfl⟩)
  | read ev =>
    rw [step] at taken
    split at taken
    next there =>
      obtain ⟨receiver, done, rfl⟩ := map_ok_inv taken
      exact .inr (.inr ⟨ev, receiver, rfl, there, done, rfl⟩)
    next =>
      cases taken
      exact .inl rfl

theorem step_send {ev : SendEvent} (taken : l.step e e' fd (.send ev) = .ok t) :
    t.receiver = l.receiver ∧ (t.sender.sent = l.sender.sent ∨
      ∃ data msgid, ev.action = .send data msgid ∧
        t.sender.sent = l.sender.sent ++ [(msgid, data)]) := by
  rcases step_cases taken with rfl | ⟨_, sender, own, -, done, rfl⟩ | ⟨_, _, other, -⟩
  · exact ⟨rfl, .inl rfl⟩
  · cases own
    exact ⟨rfl, Sender.step_sent done⟩
  · cases other

theorem step_read {ev : ReadEvent} (taken : l.step e e' fd (.read ev) = .ok t) :
    t.sender = l.sender ∧ l.receiver.calls <+: t.receiver.calls := by
  rcases step_cases taken with rfl | ⟨_, _, other, -⟩ | ⟨_, receiver, own, -, done, rfl⟩
  · exact ⟨rfl, List.prefix_refl _⟩
  · cases other
  · cases own
    exact ⟨rfl, Receiver.step_calls done⟩

/-- What a read finds follows what was read before. -/
theorem Joined.arriving (joined : l.Joined) {bytes : List UInt8} (there : bytes <+: l.transit) :
    l.receiver.received ++ bytes <+: l.sender.written := by
  obtain ⟨rest, whole⟩ := joined.order
  rw [transit, ← whole, List.drop_left] at there
  rw [← whole]
  exact (List.prefix_append_right_inj _).mpr there

theorem step_joined (l : Link) (op : LinkStep) (t : Link) (joined : l.Joined)
    (taken : l.step e e' fd op = .ok t) : t.Joined := by
  rcases step_cases taken with rfl | ⟨ev, sender, -, live, done, rfl⟩ |
    ⟨ev, receiver, -, there, done, rfl⟩
  · exact joined
  · exact ⟨Sender.step_exact joined.exact live done, joined.faithful,
      joined.order.trans (Sender.step_written done)⟩
  · refine ⟨joined.exact, Receiver.step_faithful joined.faithful done, ?_⟩
    rcases Receiver.step_received done with same | more
    · rw [same]
      exact joined.order
    · rw [more]
      exact joined.arriving there

/-! ### What arrives -/

/-- A body that fits into the buffer is announced as it is or rejected. -/
theorem msgCodec_announces {m : Int32 × List UInt8} (fits : m.2.length ≤ m8M) :
    msgCodec.Announces m := by
  have int : m.2.length < 2 ^ 31 := fits.trans_lt (by decide)
  by_cases small : m.2.length ≤ messageLengthLimit
  · exact .inl (msgCodec_admits small)
  · right
    rw [msgCodec_decode_encode m.1 int, if_neg small]

/-- The complete frames of a first part of what was written are messages that were sent. -/
theorem Joined.frames (joined : l.Joined) {bytes : List UInt8} (part : bytes <+: l.sender.written) :
    (msgCodec.split bytes).1 <+: l.sender.sent :=
  Framing.Codec.split_prefix (fun m member => msgCodec_announces (joined.exact.sizes m member))
    (part.trans joined.exact.written)

theorem Joined.calls (joined : l.Joined) :
    l.receiver.calls <+: l.sender.sent.map Call.ofMsg := by
  rw [joined.faithful.1]
  exact (joined.frames joined.order).map _

/-- Nothing is pending at an open sender, and nothing is on its way. -/
def Quiet (l : Link) : Prop :=
  l.sender.closed = false ∧ l.sender.obuf.length = 0 ∧ l.receiver.received = l.sender.written

theorem Joined.calls_of_quiet (joined : l.Joined) (quiet : l.Quiet)
    (sizes : ∀ m ∈ l.sender.sent, m.2.length ≤ messageLengthLimit) :
    l.receiver.calls = l.sender.sent.map Call.ofMsg := by
  obtain ⟨live, empty, all⟩ := quiet
  obtain ⟨pending, stream, held⟩ := joined.exact.stream
  have none : pending = [] := by
    rcases held live with holds | ⟨b, stored, -, more⟩
    · exact List.length_eq_zero_iff.mp (holds.length.symm.trans empty)
    · rw [stored] at empty
      exact absurd empty more
  rw [none, List.append_nil] at stream
  obtain ⟨rest, -, frames⟩ := Framing.Codec.split_stretch
    (fun m member => msgCodec_admits (sizes m member)) (List.prefix_refl _)
  rw [Framing.Codec.arrived_all] at frames
  rw [joined.faithful.1, all, stream, frames]

/-- Bodies that are not empty do not end a read with a bare head. -/
theorem Joined.read_fine (joined : l.Joined) (bodies : ∀ m ∈ l.sender.sent, m.2 ≠ [])
    (ev : ReadEvent) : Run.Fine (fun _ => True) (· = .exit) (l.step e e' fd (.read ev)) := by
  rw [step]
  split
  next there =>
    have fine : l.receiver.EndsWithBody ev := by
      obtain ⟨arrival, p, sound⟩ := ev
      cases arrival with
      | eof | failed => trivial
      | chunk bytes nonempty bounded =>
        intro live room served
        apply Framing.Codec.not_endsBare_of_bodies
        intro m member
        exact bodies m ((joined.frames (joined.arriving there)).subset member)
    have read := (Receiver.step_fine_iff e' l.receiver ev joined.faithful).mpr fine
    exact Run.Fine.map (read.mono fun _ _ => trivial)
  next => trivial

/-- In every run, whatever sizes the messages have and in whatever pieces they are written and
read: the calls of the router are the accepted messages from the first on, none twice, in their
order. With bodies up to the limit they are all of them when nothing is pending or on its way, and
with bodies that are not empty no read fails except at the limit of the pool. -/
theorem link_delivers (e e' : Endpoint) (fd : Nat) (loop : Loop) (ops : List LinkStep) :
    Run.Always (step e e' fd) (fun l =>
      l.receiver.calls <+: l.sender.sent.map Call.ofMsg ∧
      ((∀ m ∈ l.sender.sent, m.2.length ≤ messageLengthLimit) → l.Quiet →
        l.receiver.calls = l.sender.sent.map Call.ofMsg) ∧
      ((∀ m ∈ l.sender.sent, m.2 ≠ []) → ∀ ev,
        Run.Fine (fun _ => True) (· = .exit) (l.step e e' fd (.read ev)))) (.init loop) ops := by
  apply (Run.always_of_preserved step_joined (Joined.init loop)).mono
  intro l joined
  exact ⟨joined.calls, fun sizes quiet => joined.calls_of_quiet quiet sizes, joined.read_fine⟩

end Link

end Lars.Reactor
