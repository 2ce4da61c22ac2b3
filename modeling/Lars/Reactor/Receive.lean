import Lars.Lib.Run
import Lars.Reactor.DoRead

/-!
# The receiving side of a connection

A connection is read by one `do_read` after the other. The input buffer carries
over what was not complete; the pool may have been used by other connections in
between. Against this stands the stream as `Framing.Codec.split` sees it: the
calls of the router should be its complete frames.
-/
namespace Lars.Reactor

/-- What the kernel has for one `do_read`. `FIONREAD` announces what `read` then returns; a
receive buffer of the kernel is shorter than `INT_MAX / 2`. -/
inductive Arrival where
  | chunk (bytes : List UInt8) (nonempty : bytes ≠ []) (bounded : bytes.length < 2 ^ 30)
  /-- The peer has closed. -/
  | eof
  /-- `ioctl` or `read` fails. -/
  | failed (announced : Option Nat) (bounded : ∀ n ∈ announced, n < 2 ^ 30)

namespace Arrival

def needRead : Arrival → Option Nat
  | chunk bytes _ _ => some bytes.length
  | eof => some 0
  | failed announced _ => announced

def result : Arrival → Option (List UInt8)
  | chunk bytes _ _ => some bytes
  | eof => some []
  | failed _ _ => none

end Arrival

/-- One `do_read`: what arrives, and the pool as the other connections have left it. -/
structure ReadEvent where
  arrival : Arrival
  pool : BufPool
  sound : pool.Ok

/-- A connection with the history of what `read` returned and of the router's calls. -/
structure Receiver where
  ibuf : ReactorBuf
  received : List UInt8
  calls : List Call
  closed : Bool

namespace Receiver

def init : Receiver := ⟨none, [], [], false⟩

/-- The bytes that `read` puts into the buffer. -/
def taken (buf : ReactorBuf) (ev : ReadEvent) : List UInt8 :=
  match readData ev.arrival.needRead ev.arrival.result buf ev.pool with
  | .ok (ret, _, _) => if 0 < ret then ev.arrival.result.getD [] else []
  | .error _ => []

/-- After `clean_conn` the socket is out of the event loop. -/
def step (e : Endpoint) (r : Receiver) (ev : ReadEvent) : Except Fault Receiver :=
  if r.closed then .ok r
  else
    match doRead e ev.arrival.needRead ev.arrival.result r.ibuf ev.pool with
    | .error f => .error f
    | .ok o => .ok ⟨o.ibuf, r.received ++ taken r.ibuf ev, r.calls ++ o.calls, o.closed⟩

/-- The calls are the complete frames of what was received, a head out of range has closed the
connection, and an open connection holds the rest from the start of its buffer. -/
def Faithful (r : Receiver) : Prop :=
  r.calls = (msgCodec.split r.received).1.map Call.ofMsg ∧
    match (msgCodec.split r.received).2 with
    | .pending rest => r.closed = true ∨ r.ibuf.Holds rest
    | .malformed _ => r.closed = true

theorem init_faithful : init.Faithful := by
  simp only [Faithful, init, Framing.Codec.split_nil]
  exact ⟨rfl, .inr rfl⟩

end Receiver

/-! ### One read -/

variable {p : BufPool} {buf : ReactorBuf} {rest bytes : List UInt8}

theorem ReactorBuf.Holds.length (holds : buf.Holds rest) : buf.length = rest.length :=
  holds.keeps.length

/-- Beyond 8 MB `read_data` fails before it reads; otherwise the bytes join those held. -/
theorem readData_chunk (ok : p.Ok) (holds : buf.Holds rest) (nonempty : bytes ≠ [])
    (bounded : rest.length + bytes.length ≤ intMax) :
    (m8M < rest.length + bytes.length ∧
        readData (some bytes.length) (some bytes) buf p = .ok (-1, buf, p)) ∨
      (buf.makeRoom bytes.length p = .error .exit ∧
        readData (some bytes.length) (some bytes) buf p = .error .exit) ∨
      (rest.length + bytes.length ≤ m8M ∧ buf.makeRoom bytes.length p ≠ .error .exit ∧
        ∃ b p', readData (some bytes.length) (some bytes) buf p = .ok (bytes.length, some b, p') ∧
          ReactorBuf.Holds (some b) (rest ++ bytes)) := by
  by_cases large : m8M < rest.length + bytes.length
  · left
    refine ⟨large, ?_⟩
    simp only [readData, ReactorBuf.makeRoom_none holds large bounded]
  · right
    rcases ReactorBuf.makeRoom_cases ok holds (n := bytes.length) (by omega) with
      refused | ⟨b, p', room, holds', space, -⟩
    · exact .inl ⟨refused, by simp only [readData, refused]⟩
    · refine .inr ⟨by omega, by simp [room], b.extend bytes, p', ?_, ?_⟩
      · simp only [readData, room, nonempty, ↓reduceIte, gt_iff_lt, Nat.not_lt.mpr space,
          not_true_eq_false, and_false, ne_eq]
      · exact holds'.extend space

theorem handleFrames_spec (e : Endpoint) (keeps : buf.Keeps bytes) :
    (msgCodec.EndsBare bytes → handleFrames e buf p = .error .assertion) ∧
      (¬ msgCodec.EndsBare bytes →
        ∃ o, handleFrames e buf p = .ok o ∧
          o.calls = (msgCodec.split bytes).1.map Call.ofMsg ∧
          match (msgCodec.split bytes).2 with
          | .pending rest => o.closed = false ∧ o.ibuf.Holds rest
          | .malformed _ => o.closed = true) := by
  obtain ⟨fails, handles⟩ := readLoop_spec (p := p) e buf.length keeps keeps.length.ge []
  refine ⟨fun bare => by simp only [handleFrames, fails bare], fun fine => ?_⟩
  obtain ⟨o, done, calls, left⟩ := handles fine
  refine ⟨{ o with ibuf := o.ibuf.map IoBuf.adjust }, by simp only [handleFrames, done],
    by simpa using calls, ?_⟩
  cases tail : (msgCodec.split bytes).2 with
  | pending rest =>
    simp only [tail] at left
    exact ⟨left.1, ReactorBuf.Keeps.adjust left.2⟩
  | malformed rest =>
    simp only [tail] at left
    exact left

/-- A chunk that can be read is handled together with the bytes held. -/
theorem doRead_chunk (e : Endpoint) (ok : p.Ok) (holds : buf.Holds rest) (nonempty : bytes ≠ [])
    (fits : rest.length + bytes.length ≤ m8M)
    (served : buf.makeRoom bytes.length p ≠ .error .exit) :
    ∃ b p', doRead e (some bytes.length) (some bytes) buf p = handleFrames e (some b) p' ∧
      ReactorBuf.Holds (some b) (rest ++ bytes) := by
  have small : rest.length + bytes.length ≤ intMax := fits.trans (by decide)
  have positive := List.length_pos_iff.mpr nonempty
  rcases readData_chunk ok holds nonempty small with ⟨large, -⟩ | ⟨refused, -⟩ | ⟨-, -, b, p', read, held⟩
  · omega
  · exact absurd refused served
  · refine ⟨b, p', ?_, held⟩
    simp only [doRead, read]
    rw [if_neg (by omega), if_neg (by omega)]

/-- When nothing is read, the connection is closed and no call is made: what is left in the
buffer of a client is not a complete frame. -/
theorem doRead_closes (e : Endpoint) {needRead : Option Nat} {result : Option (List UInt8)}
    {ret : Int} {buf' : ReactorBuf} {p' : BufPool}
    (read : readData needRead result buf p = .ok (ret, buf', p')) (nothing : ret = -1 ∨ ret = 0)
    (keeps : buf'.Keeps rest) (alone : msgCodec.split rest = ([], .pending rest)) :
    ∃ o, doRead e needRead result buf p = .ok o ∧ o.calls = [] ∧ o.closed = true := by
  obtain ⟨buf'', p'', cleaned, left⟩ := cleanIbuf_ok (p := p') e keeps
  rcases nothing with rfl | rfl
  · exact ⟨⟨buf'', p'', [], true⟩, by simp only [doRead, read, ↓reduceIte, cleaned], rfl, rfl⟩
  -- the end of the stream: `do_read` goes on to the loop with what `clean_conn` left
  · obtain ⟨rest', keeps', alone'⟩ :
        ∃ rest', ReactorBuf.Keeps buf'' rest' ∧ msgCodec.split rest' = ([], .pending rest') := by
      rcases left with rfl | rfl
      · exact ⟨[], rfl, Framing.Codec.split_nil⟩
      · exact ⟨rest, keeps, alone⟩
    have fine : ¬ msgCodec.EndsBare rest' := by simp [Framing.Codec.EndsBare, alone']
    obtain ⟨o, done, calls, -⟩ := (handleFrames_spec (p := p'') e keeps').2 fine
    refine ⟨{ o with closed := true }, ?_, by simpa [alone'] using calls, rfl⟩
    simp [doRead, read, cleaned, done]

/-- The end of the stream and the failures of the system calls. -/
theorem readData_nothing (ok : p.Ok) (holds : buf.Holds rest) {n : Nat}
    (bounded : rest.length + n ≤ intMax) {result : Option (List UInt8)}
    (nothing : result = none ∨ result = some []) :
    readData (some n) result buf p = .error .exit ∨
      ∃ ret buf' p', readData (some n) result buf p = .ok (ret, buf', p') ∧ (ret = -1 ∨ ret = 0) ∧
        ReactorBuf.Keeps buf' rest := by
  by_cases large : m8M < rest.length + n
  · refine .inr ⟨-1, buf, p, ?_, .inl rfl, holds.keeps⟩
    simp only [readData, ReactorBuf.makeRoom_none holds large bounded]
  · rcases ReactorBuf.makeRoom_cases ok holds (Nat.not_lt.mp large) with
      refused | ⟨b, p', room, holds', -⟩
    · exact .inl (by simp only [readData, refused])
    · rcases nothing with rfl | rfl
      · exact .inr ⟨-1, some b, p', by simp only [readData, room], .inl rfl, holds'.keeps⟩
      · exact .inr ⟨0, some b, p', by simp only [readData, room, ↓reduceIte], .inr rfl, holds'.keeps⟩

namespace Receiver

/-- A read that brings bytes does not end exactly at the end of a frame without body. -/
def EndsWithBody (r : Receiver) (ev : ReadEvent) : Prop :=
  match ev.arrival with
  | .chunk bytes _ _ =>
    r.closed = false → r.ibuf.length + bytes.length ≤ m8M →
      r.ibuf.makeRoom bytes.length ev.pool ≠ .error .exit → ¬ msgCodec.EndsBare (r.received ++ bytes)
  | _ => True

/-- A read that closes the connection without a byte read or a call made. -/
private theorem fine_of_closing (e : Endpoint) {r : Receiver} {ev : ReadEvent}
    (faithful : r.Faithful) (live : r.closed = false)
    {ret : Int} {buf' : ReactorBuf} {p' : BufPool}
    (read : readData ev.arrival.needRead ev.arrival.result r.ibuf ev.pool = .ok (ret, buf', p'))
    (nothing : ret = -1 ∨ ret = 0) {rest : List UInt8} (keeps : buf'.Keeps rest)
    (alone : msgCodec.split rest = ([], .pending rest)) :
    Run.Fine Faithful (· = .exit) (step e r ev) := by
  obtain ⟨o, done, calls, closed⟩ := doRead_closes e read nothing keeps alone
  have untaken : taken r.ibuf ev = [] := by
    simp only [taken, read]
    rw [if_neg (by omega)]
  simp only [step, live, Bool.false_eq_true, ↓reduceIte, done, untaken, calls, closed,
    List.append_nil]
  refine ⟨faithful.1, ?_⟩
  cases (msgCodec.split r.received).2 with
  | pending rest => exact .inl rfl
  | malformed rest => rfl

theorem Faithful.held {r : Receiver} (faithful : r.Faithful) (live : r.closed = false) :
    ∃ rest, (msgCodec.split r.received).2 = .pending rest ∧ r.ibuf.Holds rest ∧
      rest.length < 2 ^ 16 := by
  obtain ⟨-, tail⟩ := faithful
  cases left : (msgCodec.split r.received).2 with
  | malformed rest => simp [left, live] at tail
  | pending rest =>
    exact ⟨rest, rfl, by simpa [left, live] using tail, (pending_small left).trans_le (by decide)⟩

/-- A chunk for which there is room: the loop fails on a bare head at the end, and otherwise the
frames completed by the chunk are called. -/
theorem step_chunk (e : Endpoint) {r : Receiver} {bytes : List UInt8} (nonempty : bytes ≠ [])
    (bounded : bytes.length < 2 ^ 30) {p : BufPool} (sound : p.Ok) (faithful : r.Faithful)
    (live : r.closed = false) (room : r.ibuf.length + bytes.length ≤ m8M)
    (served : r.ibuf.makeRoom bytes.length p ≠ .error .exit) :
    (msgCodec.EndsBare (r.received ++ bytes) →
        step e r ⟨.chunk bytes nonempty bounded, p, sound⟩ = .error .assertion) ∧
      (¬ msgCodec.EndsBare (r.received ++ bytes) →
        ∃ r', step e r ⟨.chunk bytes nonempty bounded, p, sound⟩ = .ok r' ∧ r'.Faithful ∧
          r'.received = r.received ++ bytes ∧
          ∀ rest, (msgCodec.split r'.received).2 = .pending rest → r'.closed = false) := by
  -- the buffer holds what follows the last complete frame
  obtain ⟨rest, tail, holds, small⟩ := faithful.held live
  rw [holds.length] at room
  have positive := List.length_pos_iff.mpr nonempty
  have got : taken r.ibuf ⟨.chunk bytes nonempty bounded, p, sound⟩ = bytes := by
    rcases readData_chunk sound holds nonempty (room.trans (by decide)) with
      ⟨large, -⟩ | ⟨refused, -⟩ | ⟨-, -, b, p', read, -⟩
    · omega
    · exact absurd refused served
    · simp only [taken, Arrival.needRead, Arrival.result, read, Option.getD_some]
      rw [if_pos (by omega)]
  obtain ⟨b, p', done, held⟩ := doRead_chunk e sound holds nonempty room served
  obtain ⟨fails, handles⟩ := handleFrames_spec (p := p') e held.keeps
  -- whether the stream ends with a bare head shows in these bytes alone
  rw [Framing.Codec.endsBare_append tail nonempty]
  constructor
  · intro bare
    simp only [step, live, Bool.false_eq_true, ↓reduceIte, Arrival.needRead, Arrival.result, done,
      fails bare]
  · intro fine
    obtain ⟨o, handled, calls, left⟩ := handles fine
    refine ⟨⟨o.ibuf, r.received ++ bytes, r.calls ++ o.calls, o.closed⟩, ?_, ?_, rfl, ?_⟩
    · simp only [step, live, Bool.false_eq_true, ↓reduceIte, Arrival.needRead, Arrival.result, done,
        handled, got]
    · simp only [Faithful, Framing.Codec.split_append_pending bytes tail]
      refine ⟨by rw [calls, faithful.1, List.map_append], ?_⟩
      cases after : (msgCodec.split (rest ++ bytes)).2 with
      | pending rest' =>
        simp only [after] at left
        exact .inr left.2
      | malformed rest' =>
        simp only [after] at left
        exact left
    · intro rest' after
      simp only [Framing.Codec.split_append_pending bytes tail] at after
      simp only [after] at left
      exact left.1

/-- The end of the stream and a failed system call close the connection, unless the buffer that
`read_data` asks for first is refused. -/
private theorem step_nothing (e : Endpoint) {r : Receiver} (faithful : r.Faithful)
    (live : r.closed = false) {ev : ReadEvent} {n : Nat} (announced : ev.arrival.needRead = some n)
    (bounded : n < 2 ^ 30) (nothing : ev.arrival.result = none ∨ ev.arrival.result = some []) :
    Run.Fine Faithful (· = .exit) (step e r ev) := by
  obtain ⟨rest, tail, holds, small⟩ := faithful.held live
  have fits : rest.length + n ≤ intMax := by
    simp only [intMax]
    omega
  rcases readData_nothing ev.sound holds fits nothing with
    refused | ⟨ret, buf', p', read, nothing, keeps⟩
  · simp only [step, live, Bool.false_eq_true, ↓reduceIte, doRead, announced, refused, Run.Fine]
  · rw [← announced] at read
    exact fine_of_closing e faithful live read nothing keeps (Framing.Codec.split_pending tail)

/-- A step keeps the connection faithful, or ends at the limit of the pool, exactly if it does
not end with a bare head. -/
theorem step_fine_iff (e : Endpoint) (r : Receiver) (ev : ReadEvent) (faithful : r.Faithful) :
    Run.Fine Faithful (· = .exit) (step e r ev) ↔ r.EndsWithBody ev := by
  cases live : r.closed with
  | true =>
    -- a closed connection reads nothing, so there is nothing to guard against
    have still : step e r ev = .ok r := by simp only [step, live, ↓reduceIte]
    rw [still]
    refine ⟨fun _ => ?_, fun _ => faithful⟩
    unfold EndsWithBody
    split
    · exact fun opened => by simp [live] at opened
    · trivial
  | false =>
    obtain ⟨arrival, p, sound⟩ := ev
    cases arrival with
    | eof =>
      exact ⟨fun _ => trivial, fun _ => step_nothing e faithful live rfl (by decide) (.inr rfl)⟩
    | failed announced bounded =>
      refine ⟨fun _ => trivial, fun _ => ?_⟩
      cases announced with
      | none =>
        obtain ⟨rest, tail, holds, -⟩ := faithful.held live
        exact fine_of_closing e faithful live rfl (.inl rfl) holds.keeps
          (Framing.Codec.split_pending tail)
      | some n => exact step_nothing e faithful live rfl (bounded n rfl) (.inl rfl)
    | chunk bytes nonempty bounded =>
      obtain ⟨rest, tail, holds, small⟩ := faithful.held live
      have fits : rest.length + bytes.length ≤ intMax := by
        simp only [intMax]
        omega
      simp only [EndsWithBody, live, forall_const]
      -- the buffer would pass 8 MB, the pool is at its limit, or the bytes are read
      rcases readData_chunk sound holds nonempty fits with
        ⟨large, read⟩ | ⟨refused, read⟩ | ⟨room, served, -⟩
      · refine ⟨fun _ within => by rw [holds.length] at within; omega, fun _ => ?_⟩
        exact fine_of_closing e faithful live read (.inl rfl) holds.keeps
          (Framing.Codec.split_pending tail)
      · refine ⟨fun _ _ served => absurd refused served, fun _ => ?_⟩
        simp only [step, live, Bool.false_eq_true, ↓reduceIte, doRead, Arrival.needRead,
          Arrival.result, read, Run.Fine]
      · rw [← holds.length] at room
        obtain ⟨fails, handles⟩ := step_chunk e nonempty bounded sound faithful live room served
        simp only [room, served, forall_const, ne_eq, not_false_eq_true]
        by_cases bare : msgCodec.EndsBare (r.received ++ bytes)
        · simp [fails bare, bare, Run.Fine]
        · obtain ⟨r', done, faithful', -⟩ := handles bare
          simp only [done, bare, not_false_eq_true, iff_true, Run.Fine]
          exact faithful'

/-- Every part of a run handles the stream as it should, or ends at the limit of the pool,
exactly if no read of the run ends with a frame that has no body. -/
theorem handles_stream_iff (e : Endpoint) (evs : List ReadEvent) :
    (∀ pre, pre <+: evs → Run.Fine Faithful (· = .exit) (Run.run (step e) init pre)) ↔
      Run.Guarded (step e) EndsWithBody init evs :=
  Run.fine_iff_guarded (step_fine_iff e) init_faithful

private theorem endsBare_bare (msgid : Int32) : msgCodec.EndsBare (msgCodec.frame (msgid, [])) := by
  have admits : msgCodec.Admits (msgid, []) := msgCodec_admits (Nat.zero_le _)
  have alone := Framing.Codec.split_frame_append admits []
  rw [List.append_nil] at alone
  simp [Framing.Codec.EndsBare, alone]

/-- A head that announces an empty body, and nothing after it, fails the assertion in `pop`. -/
theorem bare_head_fails_assertion :
    ∃ ev : ReadEvent, ev.arrival.result = some [1, 0, 0, 0, 0, 0, 0, 0] ∧
      ∀ e, Run.run (step e) init [ev] = .error .assertion := by
  refine ⟨⟨.chunk (msgCodec.frame (1, [])) (by decide) (by decide), BufPool.init, BufPool.init_ok⟩,
    by decide, fun e => Run.run_cons_error [] ?_⟩
  exact (step_chunk e _ _ BufPool.init_ok init_faithful rfl (by decide)
    (ReactorBuf.makeRoom_available BufPool.init_spare.available)).1 (endsBare_bare 1)

/-! ### A stream of messages in arbitrary pieces -/

end Receiver

/-- One read of a piece of the stream. -/
structure Chunk where
  bytes : List UInt8
  nonempty : bytes ≠ []
  bounded : bytes.length < 2 ^ 30
  pool : BufPool
  sound : pool.Ok

def Chunk.event (c : Chunk) : ReadEvent := ⟨.chunk c.bytes c.nonempty c.bounded, c.pool, c.sound⟩

namespace Receiver

def read (e : Endpoint) (r : Receiver) (c : Chunk) : Except Fault Receiver := step e r c.event

/-- The piece needs a buffer of at most 8 MB, and the pool has one. -/
def HasRoom (r : Receiver) (c : Chunk) : Prop :=
  r.ibuf.length + c.bytes.length ≤ m8M ∧ r.ibuf.makeRoom c.bytes.length c.pool ≠ .error .exit

private theorem run_closed (e : Endpoint) {r : Receiver} (closed : r.closed = true)
    (chunks : List Chunk) : Run.run (read e) r chunks = .ok r := by
  induction chunks with
  | nil => rfl
  | cons c chunks ih =>
    have still : read e r c = .ok r := by simp only [read, step, closed, ↓reduceIte]
    rw [Run.run_cons_ok chunks still]
    exact ih

/-- Pieces that leave no bare head at the end of a read: the connection stays open, and has read
all of them, exactly while no head is rejected. -/
theorem run_pieces (e : Endpoint) {r : Receiver} {chunks : List Chunk} (faithful : r.Faithful)
    (live : r.closed = false)
    (fine : ∀ pre, pre <+: chunks → pre ≠ [] →
      ¬ msgCodec.EndsBare (r.received ++ pre.flatMap Chunk.bytes))
    (room : Run.Guarded (read e) HasRoom r chunks) :
    ∃ r', Run.run (read e) r chunks = .ok r' ∧ r'.Faithful ∧
      match (msgCodec.split (r.received ++ chunks.flatMap Chunk.bytes)).2 with
      | .pending _ => r'.closed = false ∧ r'.received = r.received ++ chunks.flatMap Chunk.bytes
      | .malformed _ => r'.closed = true := by
  induction chunks generalizing r with
  | nil =>
    obtain ⟨rest, tail, -⟩ := faithful.held live
    refine ⟨r, rfl, faithful, ?_⟩
    simp only [List.flatMap_nil, List.append_nil, tail]
    exact ⟨live, trivial⟩
  | cons c chunks ih =>
    have first := fine [c] (List.cons_prefix_cons.mpr ⟨rfl, List.nil_prefix⟩) (by simp)
    rw [List.flatMap_cons, List.flatMap_nil, List.append_nil] at first
    obtain ⟨r', done, faithful', received, stays⟩ :=
      (step_chunk e c.nonempty c.bounded c.sound faithful live room.1.1 room.1.2).2 first
    have all : r.received ++ (c :: chunks).flatMap Chunk.bytes =
        r'.received ++ chunks.flatMap Chunk.bytes := by
      rw [received, List.flatMap_cons, List.append_assoc]
    rw [Run.run_cons_ok chunks (show read e r c = .ok r' from done), all]
    cases live' : r'.closed with
    | false =>
      refine ih faithful' live' (fun pre shorter nonempty => ?_) (room.2 r' done)
      have longer := fine (c :: pre) (List.cons_prefix_cons.mpr ⟨rfl, shorter⟩) (by simp)
      rwa [List.flatMap_cons, ← List.append_assoc, ← received] at longer
    | true =>
      -- only a rejected head closes, and it stays rejected
      refine ⟨r', run_closed e live' chunks, faithful', ?_⟩
      cases tail : (msgCodec.split r'.received).2 with
      | pending rest =>
        rw [stays rest tail] at live'
        cases live'
      | malformed rest =>
        rw [Framing.Codec.split_append_malformed _ tail]
        exact live'

section

variable {ms : List (Int32 × List UInt8)}
variable (bodies : ∀ m ∈ ms, 1 ≤ m.2.length ∧ m.2.length ≤ messageLengthLimit)

include bodies

private theorem stretch_has_bodies {bytes : List UInt8} (part : bytes <+: ms.flatMap msgCodec.frame) :
    ¬ msgCodec.EndsBare bytes := by
  obtain ⟨rest, -, frames⟩ :=
    Framing.Codec.split_stretch (fun m h => msgCodec_admits (bodies m h).2) part
  refine Framing.Codec.not_endsBare_of_bodies fun m member => ?_
  rw [frames] at member
  have := bodies m ((Framing.Codec.arrived_prefix _ _).subset member)
  exact List.ne_nil_of_length_pos (by omega)

/-- What a connection holds between two reads is less than one frame, so pieces that leave that
much of the 8 MB always find room. -/
theorem hasRoom_of_small (e : Endpoint) {r : Receiver} {chunks : List Chunk}
    (faithful : r.Faithful) (live : r.closed = false)
    (start : r.received ++ chunks.flatMap Chunk.bytes <+: ms.flatMap msgCodec.frame)
    (small : ∀ c ∈ chunks, c.bytes.length + 2 ^ 16 ≤ m8M ∧ c.pool.Available) :
    Run.Guarded (read e) HasRoom r chunks := by
  induction chunks generalizing r with
  | nil => trivial
  | cons c chunks ih =>
    rw [List.flatMap_cons, ← List.append_assoc] at start
    have part := (List.prefix_append _ _).trans start
    -- what is held back is an incomplete frame, hence below 2^16
    obtain ⟨rest, -, holds, short⟩ := faithful.held live
    obtain ⟨size, available⟩ := small c (by simp)
    have room : r.HasRoom c :=
      ⟨by rw [holds.length]; omega, ReactorBuf.makeRoom_available available⟩
    refine ⟨room, fun t done => ?_⟩
    obtain ⟨r', done', faithful', received, stays⟩ :=
      (step_chunk e c.nonempty c.bounded c.sound faithful live room.1 room.2).2
        (stretch_has_bodies bodies part)
    cases done.symm.trans done'
    obtain ⟨rest', -, frames⟩ :=
      Framing.Codec.split_stretch (fun m h => msgCodec_admits (bodies m h).2) part
    exact ih faithful' (stays rest' (by rw [received, frames])) (by rwa [received])
      fun c' member => small c' (by simp [member])

end

/-- After a stream of whole frames, however it is cut into reads, the connection stands between two
frames. -/
theorem between_frames (e : Endpoint) {ms : List (Int32 × List UInt8)}
    (bodies : ∀ m ∈ ms, 1 ≤ m.2.length ∧ m.2.length ≤ messageLengthLimit) {chunks : List Chunk}
    (stream : chunks.flatMap Chunk.bytes = ms.flatMap msgCodec.frame)
    (room : Run.Guarded (read e) HasRoom init chunks) :
    ∃ r, Run.run (read e) init chunks = .ok r ∧ r.Faithful ∧ r.closed = false ∧
      r.ibuf.Holds [] := by
  have stretch : chunks.flatMap Chunk.bytes <+: ms.flatMap msgCodec.frame :=
    stream ▸ List.prefix_refl _
  have fine : ∀ pre, pre <+: chunks → pre ≠ [] →
      ¬ msgCodec.EndsBare (init.received ++ pre.flatMap Chunk.bytes) := by
    rintro pre ⟨later, rfl⟩ -
    apply stretch_has_bodies bodies
    rw [← stream, List.flatMap_append]
    exact List.prefix_append _ _
  obtain ⟨r, done, faithful, all⟩ := run_pieces e init_faithful rfl fine room
  obtain ⟨rest, parts, frames⟩ := Framing.Codec.split_stretch
    (fun m member => msgCodec_admits (bodies m member).2) stretch
  rw [show init.received = [] from rfl, List.nil_append, frames] at all
  obtain ⟨live, received⟩ := all
  -- all messages have arrived, so nothing is left
  have nothing : rest = [] := by
    rw [stream, Framing.Codec.arrived_all] at parts
    exact List.append_right_eq_self.mp parts
  obtain ⟨left, tail, held, -⟩ := faithful.held live
  rw [received, frames, nothing] at tail
  cases tail
  exact ⟨r, done, faithful, live, held⟩

/-- However a stream of messages is cut into reads: after each of them the calls are exactly the
messages whose last byte has arrived, and the buffer holds the rest, in which no frame is
complete, from the start of its block. -/
theorem calls_are_arrived_messages (e : Endpoint) {ms : List (Int32 × List UInt8)}
    (bodies : ∀ m ∈ ms, 1 ≤ m.2.length ∧ m.2.length ≤ messageLengthLimit) {chunks : List Chunk}
    (stream : chunks.flatMap Chunk.bytes = ms.flatMap msgCodec.frame)
    (room : Run.Guarded (read e) HasRoom init chunks) {pre : List Chunk} (part : pre <+: chunks) :
    ∃ r undelivered, Run.run (read e) init pre = .ok r ∧ r.closed = false ∧
      r.calls = (msgCodec.arrived ms (pre.flatMap Chunk.bytes).length).map Call.ofMsg ∧
      (msgCodec.arrived ms (pre.flatMap Chunk.bytes).length).flatMap msgCodec.frame ++ undelivered =
        pre.flatMap Chunk.bytes ∧
      r.ibuf.Holds undelivered ∧ (msgCodec.split undelivered).1 = [] := by
  have stretch : ∀ first, first <+: chunks →
      first.flatMap Chunk.bytes <+: ms.flatMap msgCodec.frame := by
    rintro first ⟨later, rfl⟩
    rw [← stream, List.flatMap_append]
    exact List.prefix_append _ _
  -- every message has a body, so no read can end with a bare head
  have fine : ∀ first, first <+: pre → first ≠ [] →
      ¬ msgCodec.EndsBare (init.received ++ first.flatMap Chunk.bytes) := fun first shorter _ =>
    stretch_has_bodies bodies (stretch first (shorter.trans part))
  obtain ⟨undelivered, parts, frames⟩ := Framing.Codec.split_stretch
    (fun m h => msgCodec_admits (bodies m h).2) (stretch pre part)
  have roomHere : Run.Guarded (read e) HasRoom init pre := by
    obtain ⟨later, rfl⟩ := part
    exact room.left
  obtain ⟨r, done, ⟨calls, left⟩, all⟩ := run_pieces e init_faithful rfl fine roomHere
  rw [show init.received = [] from rfl, List.nil_append, frames] at all
  obtain ⟨live, received⟩ := all
  rw [received, frames] at calls left
  simp only [live, Bool.false_eq_true, false_or] at left
  refine ⟨r, undelivered, done, live, calls, parts, left, ?_⟩
  rw [Framing.Codec.split_pending (congrArg Prod.snd frames)]

/-- The first message and a part of the second one's head, and the rest. -/
private def twoPieces : List Chunk :=
  [⟨[7, 0, 0, 0, 3, 0, 0, 0, 1, 2, 3, 8, 0], by decide, by decide, BufPool.init,
      BufPool.init_ok⟩,
    ⟨[0, 0, 2, 0, 0, 0, 4, 5], by decide, by decide, BufPool.init, BufPool.init_ok⟩]

theorem calls_are_arrived_messages_two_pieces :
    (∃ r, Run.run (read .conn) init (twoPieces.take 1) = .ok r ∧
      r.calls = [⟨7, 3, [1, 2, 3]⟩]) ∧
      ∃ r, Run.run (read .conn) init twoPieces = .ok r ∧
        r.calls = [⟨7, 3, [1, 2, 3]⟩, ⟨8, 2, [4, 5]⟩] := by
  have bodies : ∀ m ∈ [((7 : Int32), ([1, 2, 3] : List UInt8)), (8, [4, 5])],
      1 ≤ m.2.length ∧ m.2.length ≤ messageLengthLimit := by decide
  have stream : twoPieces.flatMap Chunk.bytes =
      [(7, [1, 2, 3]), (8, [4, 5])].flatMap msgCodec.frame := by decide
  have room : Run.Guarded (read .conn) HasRoom init twoPieces :=
    hasRoom_of_small bodies .conn init_faithful rfl (by rw [← stream]; exact List.prefix_refl _) (by
      intro c member
      simp only [twoPieces, List.mem_cons, List.not_mem_nil, or_false] at member
      rcases member with rfl | rfl
      · exact ⟨by decide, BufPool.init_spare.available⟩
      · exact ⟨by decide, BufPool.init_spare.available⟩)
  constructor
  · obtain ⟨r, -, done, -, calls, -⟩ :=
      calls_are_arrived_messages .conn bodies stream room (List.take_prefix 1 twoPieces)
    exact ⟨r, done, calls.trans (by decide)⟩
  · obtain ⟨r, -, done, -, calls, -⟩ :=
      calls_are_arrived_messages .conn bodies stream room (List.prefix_refl twoPieces)
    exact ⟨r, done, calls.trans (by decide)⟩

end Receiver

end Lars.Reactor
