import Lars.Reactor.DoRead
import Lars.Reactor.EventLoop

/-!
# The write path

`send_message` puts a head and a body into the output buffer and asks for write
events if the buffer was empty; `do_write` hands the buffer to the kernel and
gives the write events up once it is empty. `tcp_conn` and `tcp_client` have the
same code here, too, with their own callbacks.
-/
namespace Lars.Reactor

/-- The callbacks that the two classes register. -/
inductive Callback where
  | connRd
  | connWt
  | read
  | write
  | connectionSucc
  deriving DecidableEq

def Endpoint.writeCallback : Endpoint → Callback
  | .conn => .connWt
  | .client => .write

/-- The callbacks of one socket all get the object that owns it. -/
abbrev Loop := EventLoop Callback Unit

/-- What one socket needs for sending: `obuf` and the event loop, and the pool. -/
structure Out where
  obuf : ReactorBuf
  loop : Loop
  pool : BufPool

/-- `output_buf::send_data` -/
def sendData (data : List UInt8) (buf : ReactorBuf) (p : BufPool) :
    Except Fault (Int × ReactorBuf × BufPool) :=
  match ReactorBuf.makeRoom data.length buf p with
  | .error f => .error f
  | .ok none => .ok (-1, buf, p)
  | .ok (some (b, p)) =>
    if b.length + data.length > b.capacity then .error .outOfBounds
    else .ok (0, some (b.extend data), p)

/-- `send_message`, with its return value. -/
def sendMessage (e : Endpoint) (fd : Nat) (data : List UInt8) (msgid : Int32) (o : Out) :
    Except Fault (Int × Out) :=
  -- asked before anything is put into the buffer
  let activeEpollout := o.obuf.length = 0
  match sendData (msgCodec.encode msgid data.length) o.obuf o.pool with
  | .error f => .error f
  | .ok (ret, obuf, p) =>
    if ret ≠ 0 then .ok (-1, { o with obuf := obuf, pool := p })
    else
      match sendData data obuf p with
      | .error f => .error f
      | .ok (ret, obuf, p) =>
        if ret ≠ 0 then
          -- meant to take the head back, but a buffer is popped at its front
          match obuf.pop messageHeadLen p with
          | .error f => .error f
          | .ok (obuf, p) => .ok (-1, { o with obuf := obuf, pool := p })
        else
          let loop :=
            if activeEpollout then o.loop.addIoEvent fd e.writeCallback epollout () else o.loop
          .ok (0, ⟨obuf, loop, p⟩)

/-- What one `write` returns. It never takes more than it is offered. -/
inductive WriteResult where
  | accepted (n : Nat)
  | interrupted
  | again
  | failed
  deriving DecidableEq

/-- `output_buf::write2fd` on a buffer that is there, given the results of the next calls of
`write`: the return value, the bytes taken, the buffer and the results not yet used. After the
last result the socket is full. -/
def write2fd : List WriteResult → IoBuf → Int × List UInt8 × IoBuf × List WriteResult
  | [], b => (0, [], b, [])
  | .interrupted :: results, b => write2fd results b
  | .again :: results, b => (0, [], b, results)
  | .failed :: results, b => (-1, [], b, results)
  | .accepted n :: results, b =>
    let n := min n b.length
    if n > 0 then (n, b.data.take n, (b.pop n).adjust, results) else (0, [], b, results)

/-- The loop of `do_write`: the buffer, the bytes written and whether a `write` failed. Every
round but the last uses up a result. -/
def writeLoop : Nat → List WriteResult → ReactorBuf → List UInt8 →
    Except Fault (ReactorBuf × List UInt8 × Bool)
  | 0, _, buf, written => .ok (buf, written, false)
  | fuel + 1, results, buf, written =>
    if buf.length = 0 then .ok (buf, written, false)
    else
      match buf with
      | none => .error .assertion
      | some b =>
        if b.head ≠ 0 then .error .assertion
        else
          let (ret, bytes, b, results) := write2fd results b
          if ret = -1 then .ok (some b, written ++ bytes, true)
          -- not writable now; the write event stays registered
          else if ret = 0 then .ok (some b, written ++ bytes, false)
          else writeLoop fuel results (some b) (written ++ bytes)

/-- What `clean_conn` does to the sending side: only `tcp_conn` gives its buffer back. -/
def cleanOut (e : Endpoint) (fd : Nat) (o : Out) : Except Fault Out :=
  let loop := (o.loop.delIoEvent fd).close fd
  match e with
  | .client => .ok { o with loop := loop }
  | .conn =>
    match o.obuf.clear o.pool with
    | .error f => .error f
    | .ok (obuf, p) => .ok ⟨obuf, loop, p⟩

/-- `do_write`: the bytes written, whether the connection was closed, and what is left. -/
def doWrite (e : Endpoint) (fd : Nat) (results : List WriteResult) (o : Out) :
    Except Fault (List UInt8 × Bool × Out) :=
  match writeLoop (results.length + 1) results o.obuf [] with
  | .error f => .error f
  | .ok (obuf, written, true) =>
    match cleanOut e fd { o with obuf := obuf } with
    | .error f => .error f
    | .ok o => .ok (written, true, o)
  | .ok (obuf, written, false) =>
    let loop := if obuf.length = 0 then o.loop.delIoEventMask fd epollout else o.loop
    .ok (written, false, { o with obuf := obuf, loop := loop })

/-! ### What a call does to the pending bytes -/

variable {p : BufPool} {buf : ReactorBuf} {rest : List UInt8}

/-- `send_data` appends, or finds that 8 MB would be exceeded and does nothing. -/
theorem sendData_inv (ok : p.Ok) (holds : buf.Holds rest) {data : List UInt8} {ret : Int}
    {buf' : ReactorBuf} {p' : BufPool} (done : sendData data buf p = .ok (ret, buf', p')) :
    (ret = 0 ∧ rest.length + data.length ≤ m8M ∧ buf'.Holds (rest ++ data) ∧ p'.Ok) ∨
      (ret = -1 ∧ m8M < rest.length + data.length ∧ buf' = buf ∧ p' = p) := by
  by_cases large : m8M < rest.length + data.length
  · right
    rcases ReactorBuf.makeRoom_large (p := p) holds large with none | ⟨wraps, -⟩
    · simp only [sendData, none] at done
      cases done
      exact ⟨rfl, large, rfl, rfl⟩
    · simp only [sendData, wraps] at done
      cases done
  · left
    rcases ReactorBuf.makeRoom_cases ok holds (Nat.not_lt.mp large) with
      refused | ⟨b, p'', room, holds', space, ok'⟩
    · simp only [sendData, refused] at done
      cases done
    · simp only [sendData, room, gt_iff_lt, Nat.not_lt.mpr space, ↓reduceIte] at done
      cases done
      exact ⟨rfl, Nat.not_lt.mp large, holds'.extend space, ok'⟩

theorem sendData_ok (ok : p.Ok) (holds : buf.Holds rest) {k : Nat} (spare : p.Spare (k + 1))
    (data : List UInt8) (fits : rest.length + data.length ≤ m8M) :
    ∃ buf' p', sendData data buf p = .ok (0, buf', p') ∧ p'.Spare k := by
  rcases ReactorBuf.makeRoom_cases ok holds fits with refused | ⟨b, p', room, -, space, -⟩
  · exact absurd refused (ReactorBuf.makeRoom_available spare.available)
  · refine ⟨some (b.extend data), p', ?_, ReactorBuf.makeRoom_spare spare room⟩
    simp only [sendData, room, gt_iff_lt, Nat.not_lt.mpr space, ↓reduceIte]

/-- A `write` takes bytes off the front. It returns `-1` only for a failure, and a positive number
only at the cost of a result. -/
theorem write2fd_spec (results : List WriteResult) {b : IoBuf}
    (holds : ReactorBuf.Holds (some b) rest) :
    ∃ ret bytes b' left rest', write2fd results b = (ret, bytes, b', left) ∧
      bytes ++ rest' = rest ∧ ReactorBuf.Holds (some b') rest' ∧
      (ret = -1 ∧ .failed ∈ results ∨ ret = bytes.length) ∧ left ⊆ results ∧
      (0 < ret → left.length < results.length) := by
  induction results with
  | nil => exact ⟨0, [], b, [], rest, rfl, rfl, holds, .inr rfl, by simp, by simp⟩
  | cons result results ih =>
    cases result with
    | interrupted =>
      obtain ⟨ret, bytes, b', left, rest', done, parts, holds', value, subset, shorter⟩ := ih
      refine ⟨ret, bytes, b', left, rest', done, parts, holds', ?_, ?_, fun positive => ?_⟩
      · exact value.imp_left fun failure => ⟨failure.1, by simp [failure.2]⟩
      · exact List.Subset.trans subset (List.subset_cons_self _ _)
      · exact (shorter positive).trans (by simp)
    | again => exact ⟨0, [], b, results, rest, rfl, rfl, holds, .inr rfl, by simp, by simp⟩
    | failed => exact ⟨-1, [], b, results, rest, rfl, rfl, holds, .inl (by simp), by simp, by simp⟩
    | accepted n =>
      -- the kernel takes a first part of the window, and `adjust` moves the rest to the front
      by_cases some : min n b.length > 0
      · obtain ⟨good, start, rfl⟩ := holds
        have size := good.block
        have window := good.window
        have fits : min n b.length ≤ b.length := min_le_right _ _
        refine ⟨(min n b.length : Nat), b.data.take (min n b.length),
          (b.pop (min n b.length)).adjust, results, b.pending.drop (min n b.length),
          by simp only [write2fd, some, ↓reduceIte], ?_, ?_, .inr ?_, by simp, by simp⟩
        · have front : b.data.take (min n b.length) = b.pending.take (min n b.length) := by
            rw [IoBuf.pending, start, List.drop_zero, List.take_take, min_eq_left fits]
          rw [front, List.take_append_drop]
        · refine ⟨(good.pop fits).adjust, IoBuf.adjust_head, ?_⟩
          rw [IoBuf.pending_adjust (good.pop fits), IoBuf.pending_pop]
        · simp
          omega
      · exact ⟨0, [], b, results, rest, by simp only [write2fd, some, ↓reduceIte], rfl, holds,
          .inr rfl, by simp, by simp⟩

/-- The loop writes a first part of the pending bytes and keeps the others. -/
theorem writeLoop_spec (fuel : Nat) {results : List WriteResult} (enough : results.length < fuel)
    (holds : buf.Holds rest) (written : List UInt8) :
    ∃ buf' bytes rest' stopped,
      writeLoop fuel results buf written = .ok (buf', written ++ bytes, stopped) ∧
        bytes ++ rest' = rest ∧ buf'.Holds rest' ∧ (stopped = true → .failed ∈ results) := by
  induction fuel generalizing results buf rest written with
  | zero => omega
  | succ fuel ih =>
    by_cases empty : buf.length = 0
    · exact ⟨buf, [], rest, false, by simp [writeLoop, empty], rfl, holds, by simp⟩
    cases buf with
    | none => exact absurd rfl empty
    | some b =>
      obtain ⟨ret, bytes, b', left, rest', done, parts, holds', value, subset, shorter⟩ :=
        write2fd_spec results holds
      have start : b.head = 0 := holds.2.1
      rcases value with ⟨rfl, failure⟩ | value
      -- the call has failed, and the loop stops with what is left
      · exact ⟨some b', bytes, rest', true, by simp [writeLoop, empty, start, done], parts, holds',
          fun _ => failure⟩
      · by_cases full : ret = 0
        -- the socket takes no more; the rest waits for the next event
        · refine ⟨some b', bytes, rest', false, ?_, parts, holds', by simp⟩
          simp [writeLoop, empty, start, done, full]
        · -- some bytes went: the loop goes on with fewer results
          have positive : 0 < ret := by omega
          have fewer : left.length < fuel := by
            have := shorter positive
            omega
          obtain ⟨buf'', bytes', rest'', stopped, done', parts', holds'', failure⟩ :=
            ih fewer holds' (written ++ bytes)
          refine ⟨buf'', bytes ++ bytes', rest'', stopped, ?_, ?_, holds'', fun stop =>
            subset (failure stop)⟩
          · simp only [writeLoop, empty, ↓reduceIte, start, ne_eq, not_true_eq_false, done, full,
              show ¬ ret = -1 by omega, done', List.append_assoc]
          · rw [List.append_assoc, parts', parts]

section

variable {e : Endpoint} {fd : Nat} {o o' : Out}

/-- The three ways in which `send_message` returns: the message is appended as one frame and arms
the write event of an empty buffer; not even the head fits into 8 MB; or only the body does not,
and as many bytes as the head has are popped. -/
theorem sendMessage_cases (ok : o.pool.Ok) (holds : o.obuf.Holds rest) {data : List UInt8}
    {msgid : Int32} {ret : Int} (done : sendMessage e fd data msgid o = .ok (ret, o')) :
    (ret = 0 ∧ rest.length + (messageHeadLen + data.length) ≤ m8M ∧
        o'.obuf.Holds (rest ++ msgCodec.frame (msgid, data)) ∧ o'.pool.Ok ∧
        o'.loop =
          if rest = [] then o.loop.addIoEvent fd e.writeCallback epollout () else o.loop) ∨
      (ret = -1 ∧ m8M < rest.length + messageHeadLen ∧ o' = o) ∨
      (ret = -1 ∧ rest.length + messageHeadLen ≤ m8M ∧
        m8M < rest.length + (messageHeadLen + data.length) ∧ o'.loop = o.loop ∧
        ∃ obuf p, ReactorBuf.Holds obuf (rest ++ msgCodec.encode msgid data.length) ∧
          obuf.pop messageHeadLen p = .ok (o'.obuf, o'.pool)) := by
  have headLen : (msgCodec.encode msgid data.length).length = messageHeadLen := rfl
  have active : o.obuf.length = 0 ↔ rest = [] := by
    rw [holds.keeps.length, List.length_eq_zero_iff]
  simp only [sendMessage] at done
  cases head : sendData (msgCodec.encode msgid data.length) o.obuf o.pool with
  | error f =>
    simp only [head] at done
    cases done
  | ok result =>
    obtain ⟨ret₁, buf₁, p₁⟩ := result
    simp only [head] at done
    rcases sendData_inv ok holds head with ⟨rfl, small, holds₁, ok₁⟩ | ⟨rfl, large, rfl, rfl⟩
    -- head and body are appended by two calls, and the second may be refused
    · simp only [ne_eq, not_true_eq_false, ↓reduceIte] at done
      cases body : sendData data buf₁ p₁ with
      | error f =>
        simp only [body] at done
        cases done
      | ok result =>
        obtain ⟨ret₂, buf₂, p₂⟩ := result
        simp only [body] at done
        rcases sendData_inv ok₁ holds₁ body with ⟨rfl, fits, holds₂, ok₂⟩ | ⟨rfl, large, rfl, rfl⟩
        · simp only [↓reduceIte, active, not_true_eq_false] at done
          cases done
          rw [List.length_append, headLen] at fits
          refine .inl ⟨rfl, by omega, ?_, ok₂, rfl⟩
          rwa [List.append_assoc] at holds₂
        · simp only [Int.reduceNeg, neg_eq_zero, one_ne_zero, not_false_eq_true,
            ↓reduceIte] at done
          rw [List.length_append, headLen] at large
          split at done
          · cases done
          next obuf p popped =>
            cases done
            exact .inr (.inr ⟨rfl, by rwa [headLen] at small, by omega, rfl, buf₂, p₂, holds₁,
              popped⟩)
    · simp only [Int.reduceNeg, ne_eq, neg_eq_zero, one_ne_zero, not_false_eq_true,
        ↓reduceIte] at done
      cases done
      exact .inr (.inl ⟨rfl, by rwa [headLen] at large, rfl⟩)

/-- A message is refused only beyond 8 MB, and an empty buffer stays empty then. -/
theorem sendMessage_inv (ok : o.pool.Ok) (holds : o.obuf.Holds rest) {data : List UInt8}
    {msgid : Int32} {ret : Int} (done : sendMessage e fd data msgid o = .ok (ret, o')) :
    (ret = 0 ∧ rest.length + (messageHeadLen + data.length) ≤ m8M ∧
        o'.obuf.Holds (rest ++ msgCodec.frame (msgid, data)) ∧ o'.pool.Ok ∧
        o'.loop =
          if rest = [] then o.loop.addIoEvent fd e.writeCallback epollout () else o.loop) ∨
      (ret = -1 ∧ m8M < rest.length + (messageHeadLen + data.length) ∧ o'.loop = o.loop ∧
        (rest = [] → o'.obuf.Holds [])) := by
  rcases sendMessage_cases ok holds done with
    accepted | ⟨rfl, large, rfl⟩ | ⟨rfl, -, large, loop, obuf, p, holds', popped⟩
  · exact .inl accepted
  · exact .inr ⟨rfl, by omega, rfl, fun empty => by rwa [empty] at holds⟩
  · refine .inr ⟨rfl, large, loop, fun empty => ?_⟩
    subst empty
    obtain ⟨buf', p', popped', -, released⟩ :=
      ReactorBuf.pop_ok (p := p) holds'.keeps (List.cons_ne_nil _ _) (n := messageHeadLen) le_rfl
    rw [popped] at popped'
    cases popped'
    rw [released rfl]
    rfl

/-- While the pool is far from its limit, every message up to 8 MB is accepted. -/
theorem sendMessage_ok (e : Endpoint) (fd : Nat) (ok : o.pool.Ok) (holds : o.obuf.Holds rest)
    (spare : o.pool.Spare 2) {data : List UInt8} (msgid : Int32)
    (fits : rest.length + (messageHeadLen + data.length) ≤ m8M) :
    ∃ o', sendMessage e fd data msgid o = .ok (0, o') := by
  have headLen : (msgCodec.encode msgid data.length).length = messageHeadLen := rfl
  obtain ⟨buf₁, p₁, head, spare₁⟩ :=
    sendData_ok ok holds spare (msgCodec.encode msgid data.length) (by rw [headLen]; omega)
  rcases sendData_inv ok holds head with ⟨-, -, holds₁, ok₁⟩ | ⟨refused, -⟩
  · obtain ⟨buf₂, p₂, body, -⟩ :=
      sendData_ok ok₁ holds₁ spare₁ data (by rw [List.length_append, headLen]; omega)
    simp only [sendMessage, head, body, ne_eq, not_true_eq_false, ↓reduceIte]
    exact ⟨_, rfl⟩
  · cases refused

theorem doWrite_spec (e : Endpoint) (fd : Nat) (holds : o.obuf.Holds rest)
    {results : List WriteResult} (fine : .failed ∉ results) :
    ∃ written rest' o', doWrite e fd results o = .ok (written, false, o') ∧
      written ++ rest' = rest ∧ o'.obuf.Holds rest' ∧
      o'.loop = if rest' = [] then o.loop.delIoEventMask fd epollout else o.loop := by
  obtain ⟨buf', bytes, rest', stopped, done, parts, holds', failure⟩ :=
    writeLoop_spec (results.length + 1) (Nat.lt_succ_self _) holds []
  have running : stopped = false := by
    cases stopped with
    | false => rfl
    | true => exact absurd (failure rfl) fine
  subst running
  have empty : buf'.length = 0 ↔ rest' = [] := by
    rw [holds'.keeps.length, List.length_eq_zero_iff]
  refine ⟨bytes, rest',
    ⟨buf', if rest' = [] then o.loop.delIoEventMask fd epollout else o.loop, o.pool⟩, ?_, parts,
    holds', rfl⟩
  simp only [doWrite, done, List.nil_append, empty]

end

end Lars.Reactor
