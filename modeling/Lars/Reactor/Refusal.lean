import Lars.Reactor.Sender

/-!
# A message that is refused

`send_message` appends the head, then the body. If the body does not fit into
8 MB any more, it takes the head back, with a `pop` that takes bytes off the
other end of the buffer. Where unsent frames stand there, the peer would lose
the first bytes of one; as it is, the buffer does not start at its block any
more, and the next call fails an assertion.
-/
namespace Lars.Reactor

/-- Bytes were taken off the front, and the others have not been moved. -/
def ReactorBuf.Displaced (buf : ReactorBuf) : Prop :=
  ∃ b, buf = some b ∧ b.head ≠ 0 ∧ b.length ≠ 0

/-- Nothing is pending, or not even the head fits, or all of the message does. -/
def ReactorBuf.Undoable (data : List UInt8) (buf : ReactorBuf) : Prop :=
  buf.length = 0 ∨ m8M < buf.length + messageHeadLen ∨
    buf.length + messageHeadLen + data.length ≤ m8M

variable {p p' : BufPool} {buf buf' : ReactorBuf} {rest : List UInt8} {e : Endpoint} {fd : Nat}
  {o o' : Out}

theorem ReactorBuf.Displaced.not_holds (displaced : buf.Displaced) : ¬ buf.Holds rest := by
  obtain ⟨b, rfl, moved, -⟩ := displaced
  exact fun holds => moved holds.2.1

theorem ReactorBuf.pop_displaced (holds : buf.Holds rest) {n : Nat} (some : 0 < n)
    (less : n < rest.length) (done : buf.pop n p = .ok (buf', p')) : buf'.Displaced := by
  cases buf with
  | none => cases done
  | some b =>
    have size : b.length = rest.length := holds.keeps.length
    have left : (b.pop n).length ≠ 0 := by
      simp only [IoBuf.pop]
      omega
    simp only [pop, left, ↓reduceIte, show n ≤ b.length by omega] at done
    cases done
    refine ⟨b.pop n, rfl, ?_, left⟩
    simp only [IoBuf.pop]
    omega

theorem ReactorBuf.Displaced.sendMessage (displaced : o.obuf.Displaced) (data : List UInt8)
    (msgid : Int32) : sendMessage e fd data msgid o = .error .assertion := by
  obtain ⟨b, stored, moved, -⟩ := displaced
  have stopped : sendData (msgCodec.encode msgid data.length) o.obuf o.pool = .error .assertion := by
    simp only [sendData, stored, makeRoom, ne_eq, moved, not_false_eq_true, ↓reduceIte]
  simp only [Reactor.sendMessage, stopped]

theorem ReactorBuf.Displaced.doWrite (displaced : o.obuf.Displaced) (results : List WriteResult) :
    doWrite e fd results o = .error .assertion := by
  obtain ⟨b, stored, moved, more⟩ := displaced
  have stopped : writeLoop (results.length + 1) results o.obuf [] = .error .assertion := by
    simp only [writeLoop, stored, ReactorBuf.length, more, ↓reduceIte, ne_eq, moved,
      not_false_eq_true]
  simp only [Reactor.doWrite, stopped]

/-- A refused message leaves an empty buffer empty and moves the start of any other, unless the
head was refused already. -/
theorem sendMessage_refused_cases (ok : o.pool.Ok) (holds : o.obuf.Holds rest)
    {data : List UInt8} {msgid : Int32} (done : sendMessage e fd data msgid o = .ok (-1, o')) :
    (o'.obuf.Holds rest ∧ o.obuf.Undoable data) ∨
      (o'.obuf.Displaced ∧ ¬ o.obuf.Undoable data) := by
  have size : o.obuf.length = rest.length := holds.keeps.length
  have headLen : (msgCodec.encode msgid data.length).length = messageHeadLen := rfl
  rcases sendMessage_cases ok holds done with
    ⟨accepted, -⟩ | ⟨-, large, rfl⟩ | ⟨-, small, large, -, obuf, p, holds', popped⟩
  · cases accepted
  · exact .inl ⟨holds, .inr (.inl (by omega))⟩
  -- the head fitted and the body did not, so eight bytes were popped
  · by_cases empty : rest = []
    -- head and front of the buffer are the same bytes
    · rcases sendMessage_inv ok holds done with ⟨accepted, -⟩ | ⟨-, -, -, still⟩
      · cases accepted
      · refine .inl ⟨empty ▸ still empty, .inl ?_⟩
        rw [size, empty, List.length_nil]
    · have some : 0 < rest.length := List.length_pos_of_ne_nil empty
      refine .inr ⟨ReactorBuf.pop_displaced holds' (by decide) ?_ popped, ?_⟩
      · rw [List.length_append, headLen]
        omega
      · rintro (none | tooLarge | fits)
        · omega
        · omega
        · omega

/-- The property at one call. -/
theorem sendMessage_atomic_iff (ok : o.pool.Ok) (holds : o.obuf.Holds rest) {data : List UInt8}
    {msgid : Int32} {ret : Int} (done : sendMessage e fd data msgid o = .ok (ret, o')) :
    (ret = -1 → o'.obuf.Holds rest) ↔ o.obuf.Undoable data := by
  have size : o.obuf.length = rest.length := holds.keeps.length
  rcases sendMessage_inv ok holds done with ⟨rfl, fits, -⟩ | ⟨rfl, -⟩
  · refine iff_of_true (fun refused => ?_) (.inr (.inr (by omega)))
    cases refused
  · rcases sendMessage_refused_cases ok holds done with ⟨same, undoable⟩ | ⟨displaced, broken⟩
    · exact iff_of_true (fun _ => same) undoable
    · exact iff_of_false (fun same => displaced.not_holds (same rfl)) broken

/-- While the pool is far from its limit and lengths are `int`s, a body too many is refused, and
eight bytes go from the front. -/
theorem sendMessage_refused (e : Endpoint) (fd : Nat) (ok : o.pool.Ok) (holds : o.obuf.Holds rest)
    (spare : o.pool.Spare 1) (data : List UInt8) (msgid : Int32)
    (fits : rest.length + messageHeadLen ≤ m8M)
    (large : m8M < rest.length + messageHeadLen + data.length)
    (small : rest.length + messageHeadLen + data.length ≤ intMax) :
    ∃ o', sendMessage e fd data msgid o = .ok (-1, o') ∧
      o'.obuf.Keeps ((rest ++ msgCodec.encode msgid data.length).drop messageHeadLen) := by
  have headLen : (msgCodec.encode msgid data.length).length = messageHeadLen := rfl
  have size : (rest ++ msgCodec.encode msgid data.length).length = rest.length + messageHeadLen := by
    rw [List.length_append, headLen]
  obtain ⟨buf₁, p₁, head, -⟩ :=
    sendData_ok ok holds spare (msgCodec.encode msgid data.length) fits
  rcases sendData_inv ok holds head with ⟨-, -, holds₁, -⟩ | ⟨refused, -⟩
  · have body : sendData data buf₁ p₁ = .ok (-1, buf₁, p₁) := by
      simp only [sendData, ReactorBuf.makeRoom_none (p := p₁) holds₁ (n := data.length)
        (by omega) (by omega)]
    obtain ⟨buf₂, p₂, popped, keeps, -⟩ := ReactorBuf.pop_ok (p := p₁) holds₁.keeps
      (List.ne_nil_of_length_pos (by rw [size]; simp [messageHeadLen]))
      (n := messageHeadLen) (by omega)
    refine ⟨⟨buf₂, o.loop, p₂⟩, ?_, keeps⟩
    simp [sendMessage, head, body, popped]
  · cases refused

/-- `do_write` writes a first part of the pending bytes. The others stay, unless the connection is
closed; then the buffer is given back or left as it is. -/
theorem doWrite_inv (holds : o.obuf.Holds rest) {results : List WriteResult}
    {written : List UInt8} {closed : Bool}
    (done : doWrite e fd results o = .ok (written, closed, o')) :
    ∃ left, written ++ left = rest ∧ (closed = false → o'.obuf.Holds left) ∧
      ∃ kept, o'.obuf.Holds kept := by
  obtain ⟨buf, bytes, left, stopped, loop, parts, holds', -⟩ :=
    writeLoop_spec (results.length + 1) (Nat.lt_succ_self _) holds []
  rw [List.nil_append] at loop
  cases stopped with
  | false =>
    simp only [doWrite, loop] at done
    cases done
    exact ⟨left, parts, fun _ => holds', left, holds'⟩
  | true =>
    simp only [doWrite, loop] at done
    cases cleaned : cleanOut e fd { o with obuf := buf } with
    | error f =>
      simp only [cleaned] at done
      cases done
    | ok o₁ =>
      simp only [cleaned] at done
      cases done
      refine ⟨left, parts, fun running => absurd running Bool.true_eq_false.mp, ?_⟩
      cases e with
      -- `tcp_client` leaves its buffer as it is, `tcp_conn` gives it back
      | client =>
        cases cleaned
        exact ⟨left, holds'⟩
      | conn =>
        cases buf with
        | none =>
          cases cleaned
          exact ⟨[], rfl⟩
        | some b =>
          obtain ⟨p', back, -⟩ := BufPool.revert_ok (p := o.pool) holds'.1
          simp only [cleanOut, ReactorBuf.clear, back] at cleaned
          cases cleaned
          exact ⟨[], rfl⟩

namespace Sender

variable {s t : Sender} {ev : SendEvent} {pending : List UInt8}

/-- The buffer starts at its block, or it was displaced by a refused message. -/
def Known (s : Sender) : Prop := (∃ pending, s.obuf.Holds pending) ∨ s.obuf.Displaced

theorem step_known (known : s.Known) (taken : step e fd s ev = .ok t) : t.Known := by
  obtain ⟨action, p, sound⟩ := ev
  cases action with
  | send data msgid =>
    simp only [step] at taken
    rcases known with ⟨pending, holds⟩ | displaced
    · split at taken
      · cases taken
      next ret o' done =>
        cases taken
        rcases sendMessage_inv sound holds done with ⟨-, -, holds', -⟩ | ⟨rfl, -⟩
        · exact .inl ⟨_, holds'⟩
        · rcases sendMessage_refused_cases sound holds done with ⟨same, -⟩ | ⟨displaced, -⟩
          · exact .inl ⟨_, same⟩
          · exact .inr displaced
    -- a displaced buffer stops the next call, so it does not get worse
    · rw [ReactorBuf.Displaced.sendMessage displaced] at taken
      cases taken
  | write results =>
    simp only [step] at taken
    rcases known with ⟨pending, holds⟩ | displaced
    · split at taken
      · cases taken
      next written closed o' done =>
        cases taken
        obtain ⟨-, -, -, kept, holds'⟩ := doWrite_inv (o := s.out ⟨.write results, p, sound⟩)
          holds done
        exact .inl ⟨kept, holds'⟩
    · rw [ReactorBuf.Displaced.doWrite displaced] at taken
      cases taken
  | listen =>
    cases taken
    exact known

/-- The connection is open, and a message that is sent can be taken back if it is refused. -/
def Careful (s : Sender) (ev : SendEvent) : Prop :=
  s.closed = false ∧
    match ev.action with
    | .send data _ => s.obuf.Undoable data
    | .write _ | .listen => True

/-- What was written is a first part of the frames of the accepted messages, and on an open
connection the other part is pending. -/
def Whole (s : Sender) : Prop :=
  ∃ pending, s.written ++ pending = s.sent.flatMap msgCodec.frame ∧
    (s.closed = false → s.obuf.Holds pending)

theorem step_whole (whole : s.Whole) (careful : Careful s ev) (taken : step e fd s ev = .ok t) :
    t.Whole := by
  obtain ⟨pending, stream, holds⟩ := whole
  obtain ⟨live, undoable⟩ := careful
  specialize holds live
  obtain ⟨action, p, sound⟩ := ev
  cases action with
  | send data msgid =>
    simp only [step] at taken
    split at taken
    · cases taken
    next ret o' done =>
      cases taken
      rcases sendMessage_inv sound holds done with ⟨rfl, -, holds', -⟩ | ⟨rfl, -⟩
      · refine ⟨pending ++ msgCodec.frame (msgid, data), ?_, fun _ => holds'⟩
        simp only [↓reduceIte, List.flatMap_append, List.flatMap_singleton, ← stream,
          List.append_assoc]
      · exact ⟨pending, stream, fun _ =>
          (sendMessage_atomic_iff sound holds done).mpr undoable rfl⟩
  | write results =>
    simp only [step] at taken
    split at taken
    · cases taken
    next written closed o' done =>
      cases taken
      obtain ⟨left, parts, holds', -⟩ := doWrite_inv (o := s.out ⟨.write results, p, sound⟩)
        holds done
      refine ⟨left, ?_, holds'⟩
      rw [List.append_assoc, parts, stream]
  | listen =>
    cases taken
    exact ⟨pending, stream, fun _ => holds⟩

/-- In every state that any mixture of `send_message` and `do_write` reaches, a call that returns
-1 leaves the pending bytes as they were, from the start of the block, exactly if nothing was
pending or the head itself did not fit. While every message sent is of that kind or fits, what
is written to the peer are the frames of the accepted messages. -/
theorem refused_send_unchanged (loop : Loop) {evs : List SendEvent}
    (reached : Run.run (step e fd) (init loop) evs = .ok s) :
    (∀ data msgid p ret o, p.Ok →
      sendMessage e fd data msgid ⟨s.obuf, s.loop, p⟩ = .ok (ret, o) →
        ((ret = -1 → ∃ pending, s.obuf.Holds pending ∧ o.obuf.Holds pending) ↔
          s.obuf.Undoable data)) ∧
      (Run.Guarded (step e fd) Careful (init loop) evs →
        ∃ pending, s.written ++ pending = s.sent.flatMap msgCodec.frame ∧
          (s.closed = false → s.obuf.Holds pending)) := by
  constructor
  · intro data msgid p ret o ok done
    have start : (init loop).Known := .inl ⟨[], rfl⟩
    have known : s.Known := Run.run_preserves (fun _ _ _ => step_known) start reached
    rcases known with ⟨pending, holds⟩ | displaced
    · rw [← sendMessage_atomic_iff ok holds done]
      constructor
      · rintro same refused
        obtain ⟨bytes, before, after⟩ := same refused
        rwa [holds.unique before]
      · exact fun same refused => ⟨pending, holds, same refused⟩
    · rw [ReactorBuf.Displaced.sendMessage displaced] at done
      cases done
  · intro careful
    have start : (init loop).Whole := ⟨[], rfl, fun _ => rfl⟩
    exact (Run.always_of_guarded (fun _ _ _ => step_whole) start careful).last reached

/-! ### A frame of eight bytes, and a body that does not fit behind it -/

/-- A call, with the pool as its constructor leaves it. -/
private def fresh (action : SendAction) : SendEvent := ⟨action, .init, BufPool.init_ok⟩

private def idleLoop : Loop := ⟨fun _ => none, ∅, ⟨fun _ => true, fun _ => none⟩⟩

private theorem first_sent :
    ∃ s, Run.run (step .conn 3) (init idleLoop) [fresh (.send [] 7)] = .ok s ∧
      s.obuf.Holds (msgCodec.frame (7, [])) := by
  have empty : ReactorBuf.Holds (Out.obuf ⟨none, idleLoop, .init⟩) [] := rfl
  obtain ⟨o, done⟩ : ∃ o, sendMessage .conn 3 [] 7 ⟨none, idleLoop, .init⟩ = .ok (0, o) :=
    sendMessage_ok .conn 3 BufPool.init_ok empty (BufPool.init_spare.mono (by decide)) 7 (by decide)
  rcases sendMessage_inv BufPool.init_ok empty done with ⟨-, -, holds, -⟩ | ⟨refused, -⟩
  · refine ⟨⟨o.obuf, o.loop, [], [(7, [])], false⟩, ?_, holds⟩
    rw [Run.run_cons_ok (t := ⟨o.obuf, o.loop, [], [(7, [])], false⟩)]
    · rfl
    · simp only [step, fresh, out, init, done, ↓reduceIte, List.nil_append]
  · cases refused

/-- The message sent before is gone, and the head of the refused one would go to the peer. -/
theorem refused_send_displaces :
    ∃ s o, Run.run (step .conn 3) (init idleLoop) [fresh (.send [] 7)] = .ok s ∧
      sendMessage .conn 3 (List.replicate 8388593 0) 1 ⟨s.obuf, s.loop, .init⟩ = .ok (-1, o) ∧
      s.obuf.Holds (msgCodec.frame (7, [])) ∧ o.obuf.Keeps (msgCodec.encode 1 8388593) ∧
      ¬ ∃ pending, s.obuf.Holds pending ∧ o.obuf.Holds pending := by
  obtain ⟨s, reached, holds⟩ := first_sent
  have frameLen : (msgCodec.frame (7, [])).length = messageHeadLen := rfl
  have bodyLen : (List.replicate 8388593 (0 : UInt8)).length = 8388593 := List.length_replicate
  obtain ⟨o, refused, keeps⟩ := sendMessage_refused .conn 3 (o := ⟨s.obuf, s.loop, .init⟩)
    BufPool.init_ok holds (BufPool.init_spare.mono (by decide)) (List.replicate 8388593 0) 1
    (by rw [frameLen]; decide) (by rw [frameLen, bodyLen]; decide)
    (by rw [frameLen, bodyLen]; decide)
  refine ⟨s, o, reached, refused, holds, ?_, ?_⟩
  · rw [bodyLen, List.drop_left' frameLen] at keeps
    exact keeps
  · rintro ⟨pending, before, after⟩
    have size : s.obuf.length = messageHeadLen := holds.keeps.length
    have undoable := (sendMessage_atomic_iff BufPool.init_ok before refused).mp fun _ => after
    simp only [ReactorBuf.Undoable, size, bodyLen] at undoable
    exact absurd undoable (by decide)

theorem refused_send_unchanged_first :
    ∃ s, Run.run (step .conn 3) (init idleLoop) [fresh (.send [] 7)] = .ok s ∧
      (∀ data msgid p ret o, p.Ok →
        sendMessage .conn 3 data msgid ⟨s.obuf, s.loop, p⟩ = .ok (ret, o) →
          ((ret = -1 → ∃ pending, s.obuf.Holds pending ∧ o.obuf.Holds pending) ↔
            s.obuf.Undoable data)) ∧
      ∃ pending, s.written ++ pending = s.sent.flatMap msgCodec.frame ∧
        (s.closed = false → s.obuf.Holds pending) := by
  obtain ⟨s, reached, -⟩ := first_sent
  obtain ⟨exact, whole⟩ := refused_send_unchanged idleLoop reached
  exact ⟨s, reached, exact, whole ⟨⟨rfl, .inl rfl⟩, fun _ _ => trivial⟩⟩

end Sender

end Lars.Reactor
