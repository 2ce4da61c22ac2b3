import Lars.Reactor.Sender

/-!
# Setting up a client

`do_connect` registers `connection_succ` as the write callback of the socket.
It runs when the socket becomes writable, replaces itself by the callback for
reading, and starts the data. `send_message` uses the same slot of the event
loop for the callback that writes.
-/
namespace Lars.Reactor

/-- The messages that `_conn_start_cb` sends; `none` is the null pointer. -/
abbrev StartCb := Option (List (Int32 × List UInt8))

/-- One `send_message` after the other. The callers drop the return value; the messages that were
accepted are kept here. -/
def sendAll (fd : Nat) :
    List (Int32 × List UInt8) → Out → Except Fault (List (Int32 × List UInt8) × Out)
  | [], o => .ok ([], o)
  | (msgid, data) :: ms, o =>
    match sendMessage .client fd data msgid o with
    | .error f => .error f
    | .ok (ret, o) =>
      match sendAll fd ms o with
      | .error f => .error f
      | .ok (sent, o) => .ok (if ret = 0 then (msgid, data) :: sent else sent, o)

/-- `connection_succ`; `result` is the error that `getsockopt` reports. -/
def connectionSucc (fd : Nat) (result : Int) (start : StartCb) (o : Out) :
    Except Fault (List (Int32 × List UInt8) × Out) :=
  let o := { o with loop := o.loop.delIoEvent fd }
  -- on an error the socket stays out of the loop, and nobody connects again
  if result = 0 then
    match sendAll fd (start.getD []) o with
    | .error f => .error f
    | .ok (sent, o) =>
      let loop := o.loop.addIoEvent fd .read epollin ()
      let loop := if o.obuf.length ≠ 0 then loop.addIoEvent fd .write epollout () else loop
      .ok (sent, { o with loop := loop })
  else .ok ([], o)

inductive ConnectResult where
  | succeeded (result : Int)
  | inProgress
  | failed

/-- `do_connect`: `old` is the descriptor that `_sockfd` holds, `fd` the one that `socket`
returns. -/
def doConnect (old : Option Nat) (fd : Nat) (ret : ConnectResult) (start : StartCb) (o : Out) :
    Except Fault (List (Int32 × List UInt8) × Out) :=
  let loop :=
    match old with
    | none => o.loop
    | some old => o.loop.close old
  let loop := { loop with kernel := loop.kernel.create fd }
  match ret with
  | .succeeded result => connectionSucc fd result start { o with loop := loop }
  | .inProgress => .ok ([], { o with loop := loop.addIoEvent fd .connectionSucc epollout () })
  | .failed => .error .exit

/-! ### The client while it connects -/

/-- What the event loop runs on the socket after `EINPROGRESS`: messages sent by other callbacks,
and the writable event of the socket, whose connection has succeeded. -/
inductive ClientAction where
  | send (data : List UInt8) (msgid : Int32)
  | writable (results : List WriteResult)

structure ClientEvent where
  action : ClientAction
  pool : BufPool
  sound : pool.Ok

/-- A client with the number of runs of `connection_succ` and of the hook, and whether a writable
event has been dispatched. -/
structure Client where
  sender : Sender
  dispatched : Bool
  succRuns : Nat
  startRuns : Nat

namespace Client

/-- A new client after `do_connect` returned with `EINPROGRESS`. -/
def connecting (fd : Nat) (loop : Loop) : Client where
  sender := .init ({ loop with kernel := loop.kernel.create fd }.addIoEvent fd .connectionSucc epollout ())
  dispatched := false
  succRuns := 0
  startRuns := 0

def step (fd : Nat) (start : StartCb) (c : Client) (ev : ClientEvent) : Except Fault Client :=
  match ev.action with
  | .send data msgid =>
    match c.sender.step .client fd ⟨.send data msgid, ev.pool, ev.sound⟩ with
    | .error f => .error f
    | .ok sender => .ok { c with sender := sender }
  | .writable results =>
    -- the kernel reports only what is watched
    if ((c.sender.loop.kernel.interest fd).getD 0#32).Has epollout then
      match c.sender.loop.dispatch fd epollout with
      | .error f => .error f
      | .ok (some (.connectionSucc, _), loop) =>
        match connectionSucc fd 0 start ⟨c.sender.obuf, loop, ev.pool⟩ with
        | .error f => .error f
        | .ok (sent, o) =>
          .ok
            { sender := { c.sender with obuf := o.obuf, loop := o.loop, sent := c.sender.sent ++ sent }
              dispatched := true
              succRuns := c.succRuns + 1
              startRuns := if start.isSome then c.startRuns + 1 else c.startRuns }
      -- the slot was taken over by an earlier message
      | .ok (some (.write, _), loop) =>
        match { c.sender with loop := loop }.step .client fd
            ⟨.write results, ev.pool, ev.sound⟩ with
        | .error f => .error f
        | .ok sender => .ok { c with sender := sender, dispatched := true }
      | .ok (_, loop) => .ok { c with sender := { c.sender with loop := loop }, dispatched := true }
    else .ok c

theorem doConnect_inProgress (fd : Nat) (start : StartCb) (o : Out) :
    doConnect none fd .inProgress start o =
      .ok ([], { o with loop := (connecting fd o.loop).sender.loop }) := rfl

/-- No message is accepted before the writable event, and every one is after it; the hook's
messages are accepted, too, and no `write` fails for good. -/
def Allowed (fd : Nat) (start : StartCb) (c : Client) (ev : ClientEvent) : Prop :=
  match ev.action with
  | .send data msgid =>
    ∃ o, sendMessage .client fd data msgid ⟨c.sender.obuf, c.sender.loop, ev.pool⟩ =
      .ok (if c.dispatched then 0 else -1, o)
  | .writable results =>
    .failed ∉ results ∧ (c.dispatched = false →
      ∃ o, sendAll fd (start.getD []) ⟨c.sender.obuf, c.sender.loop.delIoEvent fd, ev.pool⟩ =
        .ok (start.getD [], o))

/-- The client reads from its socket. -/
def Reads (fd : Nat) (loop : Loop) : Prop :=
  loop.Watches fd epollin ∧ loop.reader fd = some .read

/-- What set-up is for: `connection_succ` and the hook ran once, the socket is read, and all that
was sent is written or pending with a write event. -/
structure Connected (fd : Nat) (start : StartCb) (c : Client) (pending : List UInt8) : Prop where
  succOnce : c.succRuns = 1
  hookOnce : c.startRuns = if start.isSome then 1 else 0
  reads : Reads fd c.sender.loop
  intact : Sender.Intact .client fd c.sender pending

/-- Before the writable event: nothing sent, and the slot still leads to `connection_succ`. -/
structure Waiting (fd : Nat) (c : Client) : Prop where
  empty : c.sender.obuf.Holds []
  unsent : c.sender.sent = []
  unwritten : c.sender.written = []
  inStep : c.sender.loop.InStep fd
  armed : c.sender.loop.Watches fd epollout
  slot : c.sender.loop.writer fd = some .connectionSucc
  noSucc : c.succRuns = 0
  noHook : c.startRuns = 0
  live : c.sender.closed = false

/-- The two phases of set-up. -/
def Phase (fd : Nat) (start : StartCb) (c : Client) : Prop :=
  if c.dispatched then ∃ pending, Connected fd start c pending else Waiting fd c

variable {fd : Nat} {start : StartCb} {c : Client} {loop : Loop}

theorem connecting_waiting (fresh : loop.ioEvs fd = none) : Waiting fd (connecting fd loop) := by
  have inStep : EventLoop.InStep fd { loop with kernel := loop.kernel.create fd } :=
    ⟨by simp [Kernel.create], by simp [Kernel.create, fresh]⟩
  obtain ⟨inStep', watches⟩ := inStep.addIoEvent Callback.connectionSucc epollout ()
  exact
    { empty := rfl
      unsent := rfl
      unwritten := rfl
      inStep := inStep'
      armed := (watches epollout).mpr (.inr (by decide))
      slot := EventLoop.writer_addIoEvent_out ..
      noSucc := rfl
      noHook := rfl
      live := rfl }

theorem Reads.armed (reads : Reads fd loop) (inStep : loop.InStep fd) (proc : Callback) :
    Reads fd (loop.addIoEvent fd proc epollout ()) :=
  ⟨((inStep.addIoEvent proc epollout ()).2 epollin).mpr (.inl reads.1),
    (EventLoop.reader_addIoEvent_out ..).trans reads.2⟩

theorem Reads.disarmed (reads : Reads fd loop) (inStep : loop.InStep fd) :
    Reads fd (loop.delIoEventMask fd epollout) :=
  ⟨((inStep.delIoEventMask epollout).2.2 epollin (by decide)).mpr reads.1,
    (EventLoop.reader_delIoEventMask inStep reads.1).trans reads.2⟩

private theorem sendAll_cons_inv {msgid : Int32} {data : List UInt8}
    {ms sent : List (Int32 × List UInt8)} {o o' : Out}
    (done : sendAll fd ((msgid, data) :: ms) o = .ok (sent, o')) :
    ∃ ret o₁ sent₁, sendMessage .client fd data msgid o = .ok (ret, o₁) ∧
      sendAll fd ms o₁ = .ok (sent₁, o') ∧
      sent = if ret = 0 then (msgid, data) :: sent₁ else sent₁ := by
  simp only [sendAll] at done
  cases first : sendMessage .client fd data msgid o with
  | error f =>
    simp only [first] at done
    cases done
  | ok result =>
    simp only [first] at done
    cases others : sendAll fd ms result.2 with
    | error f =>
      simp only [others] at done
      cases done
    | ok result' =>
      simp only [others] at done
      cases done
      exact ⟨result.1, result.2, result'.1, rfl, others, rfl⟩

private theorem sendAll_length {ms sent : List (Int32 × List UInt8)} {o o' : Out}
    (done : sendAll fd ms o = .ok (sent, o')) : sent.length ≤ ms.length := by
  induction ms generalizing sent o with
  | nil =>
    cases done
    exact Nat.le_refl _
  | cons m ms ih =>
    obtain ⟨ret, o₁, sent₁, -, others, rfl⟩ := sendAll_cons_inv done
    have shorter := ih others
    split
    · simpa using shorter
    · exact shorter.trans (by simp)

/-- The hook's messages keep the stream intact. -/
theorem sendAll_intact {s : Sender} {pending : List UInt8} {p : BufPool}
    (intact : Sender.Intact .client fd s pending) (sound : p.Ok)
    {ms : List (Int32 × List UInt8)} {o : Out}
    (done : sendAll fd ms ⟨s.obuf, s.loop, p⟩ = .ok (ms, o)) :
    ∃ rest, Sender.Intact .client fd
      { s with obuf := o.obuf, loop := o.loop, sent := s.sent ++ ms } rest := by
  induction ms generalizing s pending p with
  | nil =>
    cases done
    exact ⟨pending, by simpa using intact⟩
  | cons m ms ih =>
    obtain ⟨ret, o₁, sent₁, first, others, all⟩ := sendAll_cons_inv done
    -- all were accepted, or fewer would have been kept
    by_cases accepted : ret = 0
    · subst accepted
      simp only [↓reduceIte, List.cons.injEq, true_and] at all
      rw [← all] at others
      have kept : o₁.pool.Ok := by
        rcases sendMessage_inv sound intact.holds first with ⟨-, -, -, kept, -⟩ | ⟨refused, -⟩
        · exact kept
        · cases refused
      obtain ⟨rest, after⟩ := ih (intact.send sound first) kept others
      exact ⟨rest, by simpa using after⟩
    · have fewer := sendAll_length others
      rw [if_neg accepted] at all
      rw [← all, List.length_cons] at fewer
      omega

/-- From the writable event on, with nothing sent before it, the client is connected. -/
theorem Waiting.connected (waiting : Waiting fd c) {p : BufPool} (sound : p.Ok) {o : Out}
    (hook : sendAll fd (start.getD []) ⟨c.sender.obuf, c.sender.loop.delIoEvent fd, p⟩ =
      .ok (start.getD [], o)) :
    ∃ o' pending, connectionSucc fd 0 start ⟨c.sender.obuf, c.sender.loop, p⟩ =
        .ok (start.getD [], o') ∧
      Reads fd o'.loop ∧
      Sender.Intact .client fd { c.sender with
        obuf := o'.obuf, loop := o'.loop, sent := c.sender.sent ++ start.getD [] } pending := by
  -- `connection_succ` first takes its own registration away
  obtain ⟨inStep, unwatched⟩ := waiting.inStep.delIoEvent
  have cleared : Sender.Intact .client fd
      { c.sender with loop := c.sender.loop.delIoEvent fd } [] :=
    { holds := waiting.empty
      stream := by simp [waiting.unsent, waiting.unwritten]
      inStep := inStep
      armed := iff_of_false (unwatched epollout) (by simp)
      writer := by simp
      live := waiting.live }
  -- the hook sends, then reading is registered, then writing if the hook left bytes behind
  obtain ⟨pending, hooked⟩ := sendAll_intact cleared sound hook
  have listening := hooked.listen .read
  have reads : Reads fd (o.loop.addIoEvent fd .read epollin ()) :=
    ⟨((hooked.inStep.addIoEvent Callback.read epollin ()).2 epollin).mpr (.inr (by decide)),
      EventLoop.reader_addIoEvent_in ..⟩
  have size : o.obuf.length ≠ 0 ↔ pending ≠ [] := by
    rw [ne_eq, hooked.holds.keeps.length, List.length_eq_zero_iff]
  by_cases more : pending ≠ []
  · -- the write event is registered a second time
    obtain ⟨inStep', watches⟩ := listening.inStep.addIoEvent Callback.write epollout ()
    refine ⟨{ o with
      loop := (o.loop.addIoEvent fd .read epollin ()).addIoEvent fd .write epollout () }, pending,
      ?_, reads.armed listening.inStep .write, ?_⟩
    · simp only [connectionSucc, ↓reduceIte, hook, if_pos (size.mpr more)]
    · exact
        { listening with
          inStep := inStep'
          armed := iff_of_true ((watches epollout).mpr (.inr (by decide))) more
          writer := fun _ => EventLoop.writer_addIoEvent_out .. }
  · refine ⟨{ o with loop := o.loop.addIoEvent fd .read epollin () }, pending, ?_, reads, listening⟩
    simp only [connectionSucc, ↓reduceIte, hook, if_neg (mt size.mp more)]

private theorem watched_iff :
    ((loop.kernel.interest fd).getD 0#32).Has epollout ↔ loop.Watches fd epollout := by
  unfold EventLoop.Watches
  cases loop.kernel.interest fd with
  | none => simp [Mask.Has]
  | some mask => simp

/-- A message that is refused on an empty buffer leaves the slot alone. -/
theorem Waiting.refuse (waiting : Waiting fd c) {data : List UInt8} {msgid : Int32} {p : BufPool}
    (sound : p.Ok) {o : Out}
    (refused : sendMessage .client fd data msgid ⟨c.sender.obuf, c.sender.loop, p⟩ = .ok (-1, o)) :
    Waiting fd { c with sender := { c.sender with obuf := o.obuf, loop := o.loop } } := by
  rcases sendMessage_inv sound waiting.empty refused with ⟨accepted, -⟩ | ⟨-, -, loop, empty⟩
  · cases accepted
  · exact
      { waiting with
        empty := empty rfl
        inStep := by rw [loop]; exact waiting.inStep
        armed := by rw [loop]; exact waiting.armed
        slot := by rw [loop]; exact waiting.slot }

theorem Connected.send {pending : List UInt8} (connected : Connected fd start c pending)
    {data : List UInt8} {msgid : Int32} {p : BufPool} (sound : p.Ok) {o : Out}
    (accepted : sendMessage .client fd data msgid ⟨c.sender.obuf, c.sender.loop, p⟩ = .ok (0, o)) :
    Connected fd start { c with sender := { c.sender with
      obuf := o.obuf, loop := o.loop, sent := c.sender.sent ++ [(msgid, data)] } }
      (pending ++ msgCodec.frame (msgid, data)) := by
  have reads : Reads fd o.loop := by
    rcases sendMessage_inv sound connected.intact.holds accepted with
      ⟨-, -, -, -, loop⟩ | ⟨refused, -⟩
    · rw [loop]
      split
      · exact connected.reads.armed connected.intact.inStep _
      · exact connected.reads
    · cases refused
  exact ⟨connected.succOnce, connected.hookOnce, reads, connected.intact.send sound accepted⟩

/-- A write event keeps the client connected. -/
theorem Connected.write {pending : List UInt8} (connected : Connected fd start c pending)
    (ev : SendEvent) {results : List WriteResult} (fine : .failed ∉ results) :
    ∃ written rest o, doWrite .client fd results (c.sender.out ev) = .ok (written, false, o) ∧
      Connected fd start { c with sender := { c.sender with
        obuf := o.obuf, loop := o.loop, written := c.sender.written ++ written } } rest := by
  obtain ⟨written, rest, o, done, intact⟩ := connected.intact.write ev fine
  obtain ⟨written', rest', o', done', -, -, loop⟩ :=
    doWrite_spec (o := c.sender.out ev) .client fd connected.intact.holds fine
  cases done.symm.trans done'
  have reads : Reads fd o.loop := by
    rw [loop]
    split
    · exact connected.reads.disarmed connected.intact.inStep
    · exact connected.reads
  exact ⟨written, rest, o, done, connected.succOnce, connected.hookOnce, reads, intact⟩

/-- The writable event of a waiting client runs `connection_succ`. -/
theorem Waiting.writable (waiting : Waiting fd c) {p : BufPool} (sound : p.Ok)
    (results : List WriteResult) {o : Out}
    (hook : sendAll fd (start.getD []) ⟨c.sender.obuf, c.sender.loop.delIoEvent fd, p⟩ =
      .ok (start.getD [], o)) :
    ∃ c' pending, step fd start c ⟨.writable results, p, sound⟩ = .ok c' ∧ c'.dispatched = true ∧
      Connected fd start c' pending := by
  obtain ⟨o', pending, succ, reads, intact⟩ := waiting.connected sound hook
  obtain ⟨args, fired⟩ := EventLoop.dispatch_writable waiting.slot
  let c' : Client :=
    { sender := { c.sender with
        obuf := o'.obuf, loop := o'.loop, sent := c.sender.sent ++ start.getD [] }
      dispatched := true
      succRuns := c.succRuns + 1
      startRuns := if start.isSome then c.startRuns + 1 else c.startRuns }
  refine ⟨c', pending, ?_, rfl, ?_, ?_, reads, intact⟩
  · simp only [step, if_pos (watched_iff.mpr waiting.armed), fired, succ, c']
  · simp only [c', waiting.noSucc]
  · simp only [c', waiting.noHook, Nat.zero_add]

/-- A writable event of a connected client runs `do_write`, if it is watched for at all. -/
theorem Connected.writable {pending : List UInt8} (connected : Connected fd start c pending)
    (when : c.dispatched = true) {p : BufPool} (sound : p.Ok) {results : List WriteResult}
    (fine : .failed ∉ results) :
    ∃ c' rest, step fd start c ⟨.writable results, p, sound⟩ = .ok c' ∧ c'.dispatched = true ∧
      Connected fd start c' rest := by
  by_cases armed : c.sender.loop.Watches fd epollout
  · obtain ⟨args, fired⟩ :=
      EventLoop.dispatch_writable (connected.intact.writer (connected.intact.armed.mp armed))
    obtain ⟨written, rest, o, done, after⟩ := connected.write ⟨.write results, p, sound⟩ fine
    let sender : Sender :=
      ⟨o.obuf, o.loop, c.sender.written ++ written, c.sender.sent, false⟩
    have written' : c.sender.step .client fd ⟨.write results, p, sound⟩ = .ok sender := by
      simp only [Sender.step, done, sender]
    refine ⟨{ c with sender := sender, dispatched := true }, rest, ?_, rfl, ?_⟩
    · simp only [step, if_pos (watched_iff.mpr armed), fired, Endpoint.writeCallback, written']
    · exact ⟨after.succOnce, after.hookOnce, after.reads, { after.intact with live := rfl }⟩
  · exact ⟨c, pending, by simp only [step, if_neg (mt watched_iff.mp armed)], when, connected⟩

/-- Every allowed step leads from phase to phase. -/
theorem step_phase {ev : ClientEvent} (phase : Phase fd start c) (allowed : Allowed fd start c ev) :
    ∃ c', step fd start c ev = .ok c' ∧ Phase fd start c' := by
  obtain ⟨action, p, sound⟩ := ev
  cases when : c.dispatched with
  | false =>
    have waiting : Waiting fd c := by simpa [Phase, when] using phase
    cases action with
    | send data msgid =>
      -- by the condition it is refused as long as the connection is not there
      obtain ⟨o, done⟩ := allowed
      rw [when] at done
      refine ⟨{ c with sender := { c.sender with obuf := o.obuf, loop := o.loop } }, ?_, ?_⟩
      · simp [step, Sender.step, Sender.out, done]
      · simpa [Phase, when] using waiting.refuse sound done
    | writable results =>
      -- the first writable event is the end of the connecting, with what the hook sends
      obtain ⟨o, hooked⟩ := allowed.2 when
      obtain ⟨c', pending, done, after, connected⟩ := waiting.writable sound results hooked
      exact ⟨c', done, by rw [Phase, if_pos after]; exact ⟨pending, connected⟩⟩
  | true =>
    obtain ⟨pending, connected⟩ : ∃ pending, Connected fd start c pending := by
      simpa [Phase, when] using phase
    cases action with
    | send data msgid =>
      obtain ⟨o, done⟩ := allowed
      rw [when] at done
      refine ⟨{ c with sender := { c.sender with
        obuf := o.obuf, loop := o.loop, sent := c.sender.sent ++ [(msgid, data)] } }, ?_, ?_⟩
      · simp [step, Sender.step, Sender.out, done]
      · rw [Phase, if_pos when]
        exact ⟨_, connected.send sound done⟩
    | writable results =>
      obtain ⟨c', rest, done, after, connected'⟩ := connected.writable when sound allowed.1
      exact ⟨c', done, by rw [Phase, if_pos after]; exact ⟨rest, connected'⟩⟩

/-- In every run in which no message is accepted before the writable event: once that event has
been dispatched, `connection_succ` and the hook have run exactly once, the socket is read, and
every byte sent is written or pending with a write event. -/
theorem connected_after_writable {fd : Nat} {start : StartCb} {loop : Loop}
    (fresh : loop.ioEvs fd = none) {evs : List ClientEvent}
    (allowed : Run.Guarded (step fd start) (Allowed fd start) (connecting fd loop) evs)
    {pre : List ClientEvent} (part : pre <+: evs) :
    ∃ c, Run.run (step fd start) (connecting fd loop) pre = .ok c ∧
      (c.dispatched = true → ∃ pending, Connected fd start c pending) := by
  obtain ⟨later, rfl⟩ := part
  obtain ⟨c, done, phase⟩ := Run.run_ok_of_guarded (fun _ _ => step_phase)
    (show Phase fd start (connecting fd loop) from connecting_waiting fresh) allowed.left
  refine ⟨c, done, fun dispatched => ?_⟩
  rwa [Phase, if_pos dispatched] at phase

private def freshPool : BufPool := ⟨fun _ => [], 0, 0⟩

private theorem freshPool_ok : freshPool.Ok := fun c b member => by cases member

private def freshLoop : Loop := ⟨fun _ => none, ∅, ⟨fun _ => false, fun _ => none⟩⟩

private def sendOne : ClientEvent := ⟨.send [1] 7, freshPool, freshPool_ok⟩

private def writableOnce : ClientEvent := ⟨.writable [.accepted 9], freshPool, freshPool_ok⟩

/-- `do_connect` leaves the loop that the run starts with. -/
theorem connected_after_writable_then_send :
    (∃ o, doConnect none 3 .inProgress (some []) ⟨none, freshLoop, freshPool⟩ = .ok ([], o) ∧
      o.loop = (connecting 3 freshLoop).sender.loop) ∧
    ∃ c, Run.run (step 3 (some [])) (connecting 3 freshLoop) [writableOnce, sendOne] = .ok c ∧
      (c.dispatched = true → ∃ pending, Connected 3 (some []) c pending) := by
  have allowed : Run.Guarded (step 3 (some [])) (Allowed 3 (some [])) (connecting 3 freshLoop)
      [writableOnce, sendOne] := by
    refine ⟨⟨by decide, fun _ => ⟨_, rfl⟩⟩, fun c done => ?_⟩
    cases done
    exact ⟨⟨_, rfl⟩, fun _ _ => trivial⟩
  exact ⟨⟨_, doConnect_inProgress 3 (some []) ⟨none, freshLoop, freshPool⟩, rfl⟩,
    connected_after_writable rfl allowed (List.prefix_refl _)⟩

/-- A message sent before the writable event takes the slot of `connection_succ`: the event is
dispatched, the message is written, and the socket is left without any event. -/
theorem early_send_takes_the_slot :
    ∃ c, Run.run (step 3 (some [])) (connecting 3 freshLoop) [sendOne, writableOnce] = .ok c ∧
      c.dispatched = true ∧ c.succRuns = 0 ∧ c.startRuns = 0 ∧
      c.sender.loop.kernel.interest 3 = none := by
  exact ⟨_, rfl, rfl, rfl, rfl, rfl⟩

end Client

end Lars.Reactor
