import Lars.Reactor.Buf
import Lars.Reactor.Message

/-!
# The read callback

`tcp_conn::do_read` and `tcp_client::do_read` are the same code but for
`clean_conn`: a connection of the server gives its input buffer back to the
pool, a client keeps it. One call reads what the kernel holds, hands every
complete message to the router and moves the rest to the start of the buffer.
-/
namespace Lars.Reactor

/-- The two classes that own a `do_read`. -/
inductive Endpoint where
  | conn
  | client
  deriving DecidableEq

/-- `input_buf::read_data`. `needRead` is what `FIONREAD` reports, `none` if the call fails;
`result` is what `read` returns once it is not interrupted, `none` for `-1`. -/
def readData (needRead : Option Nat) (result : Option (List UInt8)) (buf : ReactorBuf)
    (p : BufPool) : Except Fault (Int × ReactorBuf × BufPool) :=
  match needRead with
  | none => .ok (-1, buf, p)
  | some n =>
    match ReactorBuf.makeRoom n buf p with
    | .error e => .error e
    | .ok none => .ok (-1, buf, p)
    | .ok (some (b, p)) =>
      match result with
      | none => .ok (-1, some b, p)
      | some bytes =>
        if bytes = [] then .ok (0, some b, p)
        else if b.length + bytes.length > b.capacity then .error .outOfBounds
        -- `if (need_read != 0) assert(already_read == need_read)`
        else if n ≠ 0 ∧ bytes.length ≠ n then .error .assertion
        else .ok (bytes.length, some (b.extend bytes), p)

/-- The bytes from `ibuf.data()` on; the null pointer has none. -/
def ReactorBuf.data (buf : ReactorBuf) : List UInt8 :=
  match buf with
  | none => []
  | some b => b.data.drop b.head

/-- What `clean_conn` does to the input buffer. -/
def cleanIbuf (e : Endpoint) (buf : ReactorBuf) (p : BufPool) : Except Fault (ReactorBuf × BufPool) :=
  match e with
  | .conn => buf.clear p
  | .client => .ok (buf, p)

/-- After a call: the input buffer, the pool, the calls of the router and whether the
connection was closed. -/
structure Outcome where
  ibuf : ReactorBuf
  pool : BufPool
  calls : List Call
  closed : Bool

/-- The loop over the frames. Every round takes at least a head off the buffer, so the number
of bytes in it bounds the rounds. -/
def readLoop (e : Endpoint) : Nat → ReactorBuf → BufPool → List Call → Except Fault Outcome
  | 0, buf, p, calls => .ok ⟨buf, p, calls, false⟩
  | fuel + 1, buf, p, calls =>
    if buf.length < messageHeadLen then .ok ⟨buf, p, calls, false⟩
    else
      match msgCodec.decode (buf.data.take messageHeadLen) with
      | none =>
        match cleanIbuf e buf p with
        | .error f => .error f
        | .ok (buf, p) => .ok ⟨buf, p, calls, true⟩
      | some (msgid, msglen) =>
        if buf.length < messageHeadLen + msglen then .ok ⟨buf, p, calls, false⟩
        else
          match buf.pop messageHeadLen p with
          | .error f => .error f
          | .ok (buf, p) =>
            -- the router sees the body where it lies in the buffer
            let call : Call := ⟨msgid, msglen, buf.data.take msglen⟩
            match buf.pop msglen p with
            | .error f => .error f
            | .ok (buf, p) => readLoop e fuel buf p (calls ++ [call])

/-- The loop and the `adjust` after it. -/
def handleFrames (e : Endpoint) (buf : ReactorBuf) (p : BufPool) : Except Fault Outcome :=
  match readLoop e buf.length buf p [] with
  | .error f => .error f
  | .ok o => .ok { o with ibuf := o.ibuf.map IoBuf.adjust }

/-- After the peer has closed, `do_read` goes on to the loop. -/
def doRead (e : Endpoint) (needRead : Option Nat) (result : Option (List UInt8)) (buf : ReactorBuf)
    (p : BufPool) : Except Fault Outcome :=
  match readData needRead result buf p with
  | .error f => .error f
  | .ok (ret, buf, p) =>
    if ret = -1 then
      match cleanIbuf e buf p with
      | .error f => .error f
      | .ok (buf, p) => .ok ⟨buf, p, [], true⟩
    else if ret = 0 then
      match cleanIbuf e buf p with
      | .error f => .error f
      | .ok (buf, p) =>
        match handleFrames e buf p with
        | .error f => .error f
        | .ok o => .ok { o with closed := true }
    else handleFrames e buf p

def TcpConn.doRead := Reactor.doRead .conn

def TcpClient.doRead := Reactor.doRead .client

/-! ### The loop against the framed stream -/

variable {p : BufPool}

/-- The bytes of a buffer object, wherever its window stands. -/
def ReactorBuf.Keeps (buf : ReactorBuf) (bytes : List UInt8) : Prop :=
  match buf with
  | none => bytes = []
  | some b => b.Ok ∧ b.pending = bytes

theorem ReactorBuf.Holds.keeps {buf : ReactorBuf} {bytes : List UInt8} (holds : buf.Holds bytes) :
    buf.Keeps bytes := by
  cases buf with
  | none => exact holds
  | some b => exact ⟨holds.1, holds.2.2⟩

theorem ReactorBuf.Keeps.adjust {buf : ReactorBuf} {bytes : List UInt8} (keeps : buf.Keeps bytes) :
    Holds (buf.map IoBuf.adjust) bytes := by
  cases buf with
  | none => exact keeps
  | some b => exact ⟨keeps.1.adjust, IoBuf.adjust_head, (IoBuf.pending_adjust keeps.1).trans keeps.2⟩

theorem ReactorBuf.Keeps.length {buf : ReactorBuf} {bytes : List UInt8} (keeps : buf.Keeps bytes) :
    buf.length = bytes.length := by
  cases buf with
  | none => rw [show bytes = [] from keeps]; rfl
  | some b => rw [← keeps.2, IoBuf.pending_length keeps.1]; rfl

theorem ReactorBuf.Keeps.data {buf : ReactorBuf} {bytes : List UInt8} (keeps : buf.Keeps bytes)
    {n : Nat} (fits : n ≤ bytes.length) : buf.data.take n = bytes.take n := by
  cases buf with
  | none =>
    rw [show bytes = [] from keeps]
    rfl
  | some b =>
    have size := IoBuf.pending_length keeps.1
    rw [keeps.2] at size
    rw [← keeps.2, IoBuf.pending, List.take_take, min_eq_left (by omega)]
    rfl

/-- Taking bytes off a buffer that still has some: it is released when nothing is left. -/
theorem ReactorBuf.pop_ok {buf : ReactorBuf} {bytes : List UInt8} (keeps : buf.Keeps bytes)
    (nonempty : bytes ≠ []) {n : Nat} (fits : n ≤ bytes.length) :
    ∃ buf' p', buf.pop n p = .ok (buf', p') ∧ buf'.Keeps (bytes.drop n) ∧
      (n = bytes.length → buf' = none) := by
  cases buf with
  | none => exact absurd keeps nonempty
  | some b =>
    obtain ⟨ok, rfl⟩ := keeps
    have size := IoBuf.pending_length ok
    have fits' : n ≤ b.length := by omega
    by_cases empty : (b.pop n).length = 0
    -- the last byte is gone, and the buffer goes back to the pool
    · have all : n = b.length := by
        simp only [IoBuf.pop] at empty
        omega
      obtain ⟨p', back, -⟩ := BufPool.revert_ok (p := p) (ok.pop fits')
      refine ⟨none, p', ?_, List.drop_eq_nil_of_le (by omega), fun _ => rfl⟩
      simp only [pop, fits', ↓reduceIte, empty, clear, back]
    · refine ⟨some (b.pop n), p, ?_, ⟨ok.pop fits', IoBuf.pending_pop n⟩, fun all => ?_⟩
      · simp only [pop, fits', ↓reduceIte, empty]
      · exact absurd (by simp [IoBuf.pop]; omega) empty

theorem cleanIbuf_ok (e : Endpoint) {buf : ReactorBuf} {bytes : List UInt8}
    (keeps : buf.Keeps bytes) :
    ∃ buf' p', cleanIbuf e buf p = .ok (buf', p') ∧ (buf' = none ∨ buf' = buf) := by
  cases e with
  | client => exact ⟨buf, p, rfl, .inr rfl⟩
  | conn =>
    cases buf with
    | none => exact ⟨none, p, rfl, .inl rfl⟩
    | some b =>
      obtain ⟨p', back, -⟩ := BufPool.revert_ok (p := p) keeps.1
      exact ⟨none, p', by simp only [cleanIbuf, ReactorBuf.clear, back], .inl rfl⟩

/-- What the loop makes of `bytes`: the calls are the complete frames in order, a rejected head
closes the connection, and otherwise the rest stays in the buffer. -/
def Handled (bytes : List UInt8) (calls : List Call) (o : Outcome) : Prop :=
  o.calls = calls ++ (msgCodec.split bytes).1.map Call.ofMsg ∧
    match (msgCodec.split bytes).2 with
    | .pending rest => o.closed = false ∧ o.ibuf.Keeps rest
    | .malformed _ => o.closed = true

/-- One round on a complete frame. Where a head is all there is, its `pop` releases the buffer
and the `pop` of the body fails; otherwise the loop goes on behind the frame. -/
private theorem readLoop_frame (e : Endpoint) (fuel : Nat) {buf : ReactorBuf} {bytes : List UInt8}
    (keeps : buf.Keeps bytes) (calls : List Call) {msgid : Int32} {msglen : Nat}
    (head : msgCodec.decode (bytes.take messageHeadLen) = some (msgid, msglen))
    (whole : messageHeadLen + msglen ≤ bytes.length) :
    if bytes.length = messageHeadLen then readLoop e (fuel + 1) buf p calls = .error .assertion
    else
      ∃ buf' p', ReactorBuf.Keeps buf' (bytes.drop (messageHeadLen + msglen)) ∧
        readLoop e (fuel + 1) buf p calls =
          readLoop e fuel buf' p'
            (calls ++ [Call.ofMsg (msgid, (bytes.drop messageHeadLen).take msglen)]) := by
  have positive : 0 < messageHeadLen := by decide
  have size := keeps.length
  have long : ¬ bytes.length < messageHeadLen := by omega
  have uncut : ¬ bytes.length < messageHeadLen + msglen := by omega
  have headBytes : buf.data.take messageHeadLen = bytes.take messageHeadLen := keeps.data (by omega)
  obtain ⟨buf₁, p₁, popHead, keeps₁, released⟩ := ReactorBuf.pop_ok (p := p) keeps
    (List.ne_nil_of_length_pos (by omega)) (n := messageHeadLen) (by omega)
  split
  next only =>
    -- `_buf` is null when the body, of length 0, is to be popped
    have null := released only.symm
    subst null
    simp only [readLoop, size, long, ↓reduceIte, headBytes, head, uncut, popHead]
    rfl
  next more =>
    have left : bytes.drop messageHeadLen ≠ [] := by
      rw [ne_eq, List.drop_eq_nil_iff]
      omega
    obtain ⟨buf₂, p₂, popBody, keeps₂, -⟩ :=
      ReactorBuf.pop_ok (p := p₁) keeps₁ left (n := msglen) (by simp; omega)
    have body : buf₁.data.take msglen = (bytes.drop messageHeadLen).take msglen :=
      keeps₁.data (by simp; omega)
    have bodyLen : ((bytes.drop messageHeadLen).take msglen).length = msglen := by simp; omega
    refine ⟨buf₂, p₂, by rwa [List.drop_drop] at keeps₂, ?_⟩
    simp only [readLoop, size, long, ↓reduceIte, headBytes, head, uncut, popHead, body, popBody,
      Call.ofMsg, bodyLen]

/-- A frame that is followed by something, or has a body, leaves the question to the rest. -/
private theorem endsBare_of_frame {bytes : List UInt8} {msgid : Int32} {msglen : Nat}
    (head : msgCodec.decode (bytes.take messageHeadLen) = some (msgid, msglen))
    (whole : messageHeadLen + msglen ≤ bytes.length) :
    msgCodec.EndsBare bytes ↔
      if bytes.length = messageHeadLen then True
      else msgCodec.EndsBare (bytes.drop (messageHeadLen + msglen)) := by
  rw [Framing.Codec.endsBare_frame (c := msgCodec) head whole]
  change (if bytes.length = messageHeadLen + msglen then _ else _) ↔ _
  by_cases only : bytes.length = messageHeadLen
  · rw [if_pos only, if_pos (by omega)]
    simp only [iff_true]
    omega
  · rw [if_neg only]
    by_cases last : bytes.length = messageHeadLen + msglen
    · rw [if_pos last, List.drop_eq_nil_of_le (by omega)]
      simp only [Framing.Codec.EndsBare, Framing.Codec.split_nil]
      simp
      omega
    · rw [if_neg last]
      rfl

/-- The loop fails its assertion exactly on bytes that end with a frame without body. -/
theorem readLoop_spec (e : Endpoint) (fuel : Nat) {buf : ReactorBuf} {bytes : List UInt8}
    (keeps : buf.Keeps bytes) (enough : bytes.length ≤ fuel) (calls : List Call) :
    (msgCodec.EndsBare bytes → readLoop e fuel buf p calls = .error .assertion) ∧
      (¬ msgCodec.EndsBare bytes →
        ∃ o, readLoop e fuel buf p calls = .ok o ∧ Handled bytes calls o) := by
  induction fuel generalizing buf bytes p calls with
  | zero =>
    have empty : bytes = [] := List.eq_nil_of_length_eq_zero (by omega)
    have nothing : msgCodec.split bytes = ([], .pending bytes) := by
      rw [empty]
      exact Framing.Codec.split_nil
    refine ⟨fun bare => ?_, fun _ => ⟨_, rfl, ?_⟩⟩
    · simp [Framing.Codec.EndsBare, nothing] at bare
    · simpa [Handled, nothing] using keeps
  | succ fuel ih =>
    have positive : 0 < messageHeadLen := by decide
    have size := keeps.length
    -- two of the three ways to leave the loop keep everything
    have stays : msgCodec.split bytes = ([], .pending bytes) →
        readLoop e (fuel + 1) buf p calls = .ok ⟨buf, p, calls, false⟩ →
        (msgCodec.EndsBare bytes → readLoop e (fuel + 1) buf p calls = .error .assertion) ∧
          (¬ msgCodec.EndsBare bytes →
            ∃ o, readLoop e (fuel + 1) buf p calls = .ok o ∧ Handled bytes calls o) := by
      intro nothing stopped
      refine ⟨fun bare => ?_, fun _ => ⟨_, stopped, ?_⟩⟩
      · simp [Framing.Codec.EndsBare, nothing] at bare
      · simpa [Handled, nothing] using keeps
    by_cases short : bytes.length < messageHeadLen
    · exact stays (Framing.Codec.split_short (c := msgCodec) short)
        (by simp only [readLoop, size, short, ↓reduceIte])
    have headBytes : buf.data.take messageHeadLen = bytes.take messageHeadLen :=
      keeps.data (by omega)
    cases head : msgCodec.decode (bytes.take messageHeadLen) with
    | none =>
      have bad := Framing.Codec.split_malformed (c := msgCodec) (Nat.not_lt.mp short) head
      obtain ⟨buf', p', cleaned, -⟩ := cleanIbuf_ok (p := p) e keeps
      refine ⟨fun bare => ?_, fun _ => ⟨⟨buf', p', calls, true⟩, ?_, ?_⟩⟩
      · simp [Framing.Codec.EndsBare, bad] at bare
      · simp only [readLoop, size, short, ↓reduceIte, headBytes, head, cleaned]
      · simp [Handled, bad]
    | some msg =>
      obtain ⟨msgid, msglen⟩ := msg
      by_cases cut : bytes.length < messageHeadLen + msglen
      · exact stays (Framing.Codec.split_cut (c := msgCodec) (Nat.not_lt.mp short) head cut)
          (by simp only [readLoop, size, short, ↓reduceIte, headBytes, head, cut])
      have round := readLoop_frame (p := p) e fuel keeps calls head (Nat.not_lt.mp cut)
      rw [endsBare_of_frame head (Nat.not_lt.mp cut)]
      by_cases only : bytes.length = messageHeadLen
      · rw [if_pos only] at round
        simp [only, round]
      · rw [if_neg only] at round
        obtain ⟨buf', p', keeps', next⟩ := round
        -- behind the frame the buffer holds fewer bytes, and one unit of fuel is spent
        obtain ⟨fails, handles⟩ := ih (p := p') keeps' (by simp; omega)
          (calls ++ [Call.ofMsg (msgid, (bytes.drop messageHeadLen).take msglen)])
        rw [if_neg only, next]
        refine ⟨fails, fun fine => ?_⟩
        obtain ⟨o, done, handled⟩ := handles fine
        have frames := Framing.Codec.split_frame (c := msgCodec) head (Nat.not_lt.mp cut)
        refine ⟨o, done, ?_⟩
        rw [Handled, frames]
        exact ⟨by rw [handled.1]; simp [msgCodec], handled.2⟩

/-- Whatever the loop comes upon, it leaves a buffer in order. -/
theorem readLoop_keeps (e : Endpoint) (fuel : Nat) {buf : ReactorBuf} {bytes : List UInt8}
    (keeps : buf.Keeps bytes) {calls : List Call} {o : Outcome}
    (done : readLoop e fuel buf p calls = .ok o) : ∃ rest, o.ibuf.Keeps rest := by
  induction fuel generalizing buf bytes p calls with
  | zero =>
    cases done
    exact ⟨bytes, keeps⟩
  | succ fuel ih =>
    have size := keeps.length
    by_cases short : bytes.length < messageHeadLen
    · simp only [readLoop, size, short, ↓reduceIte] at done
      cases done
      exact ⟨bytes, keeps⟩
    have headBytes : buf.data.take messageHeadLen = bytes.take messageHeadLen :=
      keeps.data (by omega)
    cases head : msgCodec.decode (bytes.take messageHeadLen) with
    | none =>
      obtain ⟨buf', p', cleaned, left⟩ := cleanIbuf_ok (p := p) e keeps
      simp only [readLoop, size, short, ↓reduceIte, headBytes, head, cleaned] at done
      cases done
      rcases left with rfl | rfl
      · exact ⟨[], rfl⟩
      · exact ⟨bytes, keeps⟩
    | some msg =>
      obtain ⟨msgid, msglen⟩ := msg
      by_cases cut : bytes.length < messageHeadLen + msglen
      · simp only [readLoop, size, short, ↓reduceIte, headBytes, head, cut] at done
        cases done
        exact ⟨bytes, keeps⟩
      have round := readLoop_frame (p := p) e fuel keeps calls head (Nat.not_lt.mp cut)
      by_cases only : bytes.length = messageHeadLen
      · rw [if_pos only, done] at round
        cases round
      · rw [if_neg only] at round
        obtain ⟨buf', p', keeps', next⟩ := round
        rw [next] at done
        exact ih keeps' done

end Lars.Reactor
