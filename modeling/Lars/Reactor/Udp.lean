import Lars.Reactor.Message

/-!
# Datagrams

`udp_server` and `udp_client` read and write one message for each datagram,
through two arrays of `MESSAGE_LENGTH_LIMIT` bytes that live as long as the
object. What a datagram does not overwrite of `_read_buf` is left from earlier
ones. `judged` is the reading of a datagram by itself.
-/
namespace Lars.Reactor

/-- The two classes that own a UDP socket. -/
inductive UdpKind where
  | server
  | client
  deriving DecidableEq

variable {α : Type}

/-- `_read_buf`, `_write_buf` and `_client_addr`; a client is connected and keeps no address. -/
structure UdpSocket (α : Type) where
  readBuf : List UInt8
  writeBuf : List UInt8
  clientAddr : α
  readBuf_length : readBuf.length = messageLengthLimit
  writeBuf_length : writeBuf.length = messageLengthLimit

/-- The address that answers go to after a datagram from `src`. -/
def UdpKind.answerTo (kind : UdpKind) (src own : α) : α :=
  match kind with
  | .server => src
  | .client => own

/-- What the kernel answers to one `recvfrom`. -/
inductive Recv (α : Type) where
  | interrupted
  | again
  | failed
  | datagram (src : α) (bytes : List UInt8)

/-- The kernel cuts a datagram to the size it was asked for. -/
def cut (bytes : List UInt8) : List UInt8 := bytes.take messageLengthLimit

theorem cut_length (bytes : List UInt8) : (cut bytes).length ≤ messageLengthLimit := by
  rw [cut, List.length_take]
  exact Nat.min_le_left _ _

/-- The array after the datagram has been copied to its front. -/
def UdpSocket.store (s : UdpSocket α) (kind : UdpKind) (src : α) (bytes : List UInt8) :
    UdpSocket α where
  readBuf := cut bytes ++ s.readBuf.drop (cut bytes).length
  writeBuf := s.writeBuf
  clientAddr := kind.answerTo src s.clientAddr
  readBuf_length := by
    have small := cut_length bytes
    rw [List.length_append, List.length_drop, s.readBuf_length]
    omega
  writeBuf_length := s.writeBuf_length

/-- The check of the head and the call of the router, for `pkgLen` bytes just received. -/
def UdpSocket.dispatch (s : UdpSocket α) (pkgLen : Nat) : Option Call :=
  match msgCodec.decode (s.readBuf.take messageHeadLen) with
  | none => none
  | some (msgid, msglen) =>
    if msglen + messageHeadLen ≠ pkgLen then none
    else some ⟨msgid, msglen, (s.readBuf.drop messageHeadLen).take msglen⟩

/-- `do_read` against what the kernel answers, which has nothing more to give at the end of the
list. The address beside a call is the one an answer sent from it goes to. -/
def udpRead (kind : UdpKind) : List (Recv α) → UdpSocket α → List (α × Call) × UdpSocket α
  | [], s => ([], s)
  | .interrupted :: rest, s => udpRead kind rest s
  | .again :: _, s => ([], s)
  | .failed :: _, s => ([], s)
  | .datagram src bytes :: rest, s =>
    let s := s.store kind src bytes
    let call := (s.dispatch (cut bytes).length).map fun call => (s.clientAddr, call)
    let later := udpRead kind rest s
    (call.toList ++ later.1, later.2)

def UdpServer.doRead (answers : List (Recv α)) (s : UdpSocket α) := udpRead .server answers s

def UdpClient.doRead (answers : List (Recv α)) (s : UdpSocket α) := udpRead .client answers s

/-- What `sendto` is called with: a datagram, and where to; a client's goes to the address it is
connected to. -/
structure Sent (α : Type) where
  dest : Option α
  bytes : List UInt8

/-- The datagram that leaves; where `sendto` returns -1 there is none. -/
def leaving (ret : Int) (given : Option (Sent α)) : Option (Sent α) :=
  if ret = -1 then none else given

/-- `send_message` of `data`, where `sendto` would return `ret`: what it returns and what it calls
`sendto` with. -/
def udpSend (kind : UdpKind) (data : List UInt8) (msgid : Int32) (ret : Int) (s : UdpSocket α) :
    Except Fault (Int × Option (Sent α) × UdpSocket α) :=
  if data.length > messageLengthLimit then .ok (-1, none, s)
  else
    let message := msgCodec.encode msgid data.length ++ data
    if fits : message.length ≤ s.writeBuf.length then
      let s' : UdpSocket α :=
        { s with
          writeBuf := message ++ s.writeBuf.drop message.length
          writeBuf_length := by
            rw [List.length_append, List.length_drop, Nat.add_sub_cancel' fits, s.writeBuf_length] }
      let dest := match kind with
        | .server => some s.clientAddr
        | .client => none
      .ok (ret, some ⟨dest, s'.writeBuf.take (data.length + messageHeadLen)⟩, s')
    else .error .outOfBounds

def UdpServer.sendMessage (data : List UInt8) (msgid : Int32) (ret : Int) (s : UdpSocket α) :=
  udpSend .server data msgid ret s

def UdpClient.sendMessage (data : List UInt8) (msgid : Int32) (ret : Int) (s : UdpSocket α) :=
  udpSend .client data msgid ret s

/-! ### A datagram by itself -/

/-- The length that a datagram announces for its body. -/
def announced (d : List UInt8) : Int := (int32OfBytes ((d.drop 4).take 4)).toInt

/-- The call for a datagram that is a head and the body it announces. -/
def judged (d : List UInt8) : Option Call :=
  if messageHeadLen ≤ d.length ∧ announced d = d.length - messageHeadLen then
    some ⟨int32OfBytes (d.take 4), d.length - messageHeadLen, d.drop messageHeadLen⟩
  else none

/-- The test of `do_read` on a head, apart from the length of the datagram. -/
theorem decode_take (d : List UInt8) :
    msgCodec.decode (d.take messageHeadLen) =
      if announced d > messageLengthLimit ∨ announced d < 0 then none
      else some (int32OfBytes (d.take 4), (announced d).toNat) := by
  have msglen : (d.take messageHeadLen).drop 4 = (d.drop 4).take 4 := List.drop_take
  have msgid : (d.take messageHeadLen).take 4 = d.take 4 := by rw [List.take_take]; rfl
  simp only [msgCodec, msglen, msgid]
  rfl

/-- No stale byte counts: a head that is not all new is never long enough. -/
theorem dispatch_store (s : UdpSocket α) (kind : UdpKind) (src : α) (bytes : List UInt8) :
    (s.store kind src bytes).dispatch (cut bytes).length = judged (cut bytes) := by
  have small := cut_length bytes
  generalize stale : s.readBuf.drop (cut bytes).length = old
  simp only [UdpSocket.dispatch, UdpSocket.store, stale]
  generalize cut bytes = d at small
  by_cases short : d.length < messageHeadLen
  · rw [judged, if_neg (by omega)]
    cases msgCodec.decode ((d ++ old).take messageHeadLen) with
    | none => rfl
    | some head =>
      dsimp only
      rw [if_pos (by omega)]
  · have long : messageHeadLen ≤ d.length := Nat.not_lt.mp short
    rw [List.take_append_of_le_length long, decode_take, List.drop_append_of_le_length long]
    by_cases length : announced d = d.length - messageHeadLen
    · have body : (announced d).toNat = d.length - messageHeadLen := by omega
      have whole : (d.drop messageHeadLen ++ old).take (d.length - messageHeadLen) =
          d.drop messageHeadLen := by
        rw [← List.length_drop, List.take_left]
      have verdict : judged d =
          some ⟨int32OfBytes (d.take 4), d.length - messageHeadLen, d.drop messageHeadLen⟩ :=
        if_pos ⟨long, length⟩
      rw [verdict, if_neg (by omega)]
      dsimp only
      rw [body, if_neg (by omega), whole]
    · have verdict : judged d = none := if_neg fun both => length both.2
      rw [verdict]
      by_cases admitted : announced d > messageLengthLimit ∨ announced d < 0
      · rw [if_pos admitted]
      · rw [if_neg admitted]
        dsimp only
        rw [if_pos (by omega)]

/-! ### Whole runs -/

/-- The datagrams that one `do_read` takes, each with its source. -/
def received : List (Recv α) → List (α × List UInt8)
  | [] => []
  | .interrupted :: rest => received rest
  | .again :: _ => []
  | .failed :: _ => []
  | .datagram src bytes :: rest => (src, bytes) :: received rest

theorem mem_received {answers : List (Recv α)} {d : α × List UInt8} (member : d ∈ received answers) :
    Recv.datagram d.1 d.2 ∈ answers := by
  induction answers with
  | nil => cases member
  | cons answer rest ih =>
    cases answer with
    | interrupted => exact List.mem_cons_of_mem _ (ih member)
    | again => cases member
    | failed => cases member
    | datagram src bytes =>
      rcases List.mem_cons.mp member with rfl | later
      · exact List.mem_cons_self
      · exact List.mem_cons_of_mem _ (ih later)

/-- Wakeups one after the other, and what they leave. -/
def udpRun (kind : UdpKind) : List (List (Recv α)) → UdpSocket α → List (α × Call) × UdpSocket α
  | [], s => ([], s)
  | answers :: wakeups, s =>
    let first := udpRead kind answers s
    let later := udpRun kind wakeups first.2
    (first.1 ++ later.1, later.2)

/-- The call for what is in the array, and where its answer goes. -/
def answering (kind : UdpKind) (own : α) (d : α × List UInt8) : Option (α × Call) :=
  (judged (cut d.2)).map fun call => (kind.answerTo d.1 own, call)

theorem answering_answerTo (kind : UdpKind) (own src : α) :
    answering kind (kind.answerTo src own) = answering kind own := by
  cases kind <;> rfl

theorem udpRead_spec (kind : UdpKind) (answers : List (Recv α)) (s : UdpSocket α) :
    (udpRead kind answers s).1 = (received answers).filterMap (answering kind s.clientAddr) ∧
      answering kind (udpRead kind answers s).2.clientAddr = answering kind s.clientAddr := by
  induction answers generalizing s with
  | nil => exact ⟨rfl, rfl⟩
  | cons answer rest ih =>
    cases answer with
    | interrupted => exact ih s
    | again => exact ⟨rfl, rfl⟩
    | failed => exact ⟨rfl, rfl⟩
    | datagram src bytes =>
      obtain ⟨calls, own⟩ := ih (s.store kind src bytes)
      have stored : (s.store kind src bytes).clientAddr = kind.answerTo src s.clientAddr := rfl
      rw [stored, answering_answerTo] at calls own
      refine ⟨?_, own⟩
      simp only [udpRead, received, calls, dispatch_store, stored, List.filterMap_cons]
      cases verdict : judged (cut bytes) <;> simp [answering, verdict]

/-- The calls of a run are those of its datagrams, one by one. -/
theorem udpRun_spec (kind : UdpKind) (wakeups : List (List (Recv α))) (s : UdpSocket α) :
    (udpRun kind wakeups s).1 =
      (wakeups.flatMap received).filterMap (answering kind s.clientAddr) := by
  induction wakeups generalizing s with
  | nil => rfl
  | cons answers wakeups ih =>
    obtain ⟨calls, own⟩ := udpRead_spec kind answers s
    simp only [udpRun, calls, ih, own, List.flatMap_cons, List.filterMap_append]

/-- What earlier datagrams left in the array changes no call. -/
theorem udpRun_judged (kind : UdpKind) (wakeups : List (List (Recv α))) (s t : UdpSocket α)
    (fits : ∀ answers ∈ wakeups, ∀ src d, Recv.datagram src d ∈ answers →
      d.length ≤ messageLengthLimit) :
    (udpRun kind wakeups s).1.map (·.2) =
        (wakeups.flatMap received).filterMap (fun d => judged d.2) ∧
      (udpRun kind wakeups t).1.map (·.2) = (udpRun kind wakeups s).1.map (·.2) := by
  have calls (u : UdpSocket α) : (udpRun kind wakeups u).1.map (·.2) =
      (wakeups.flatMap received).filterMap (fun d => judged d.2) := by
    rw [udpRun_spec, List.map_filterMap]
    apply List.filterMap_congr
    intro d member
    obtain ⟨answers, wakeup, taken⟩ := List.mem_flatMap.mp member
    have whole : cut d.2 = d.2 :=
      List.take_of_length_le (fits answers wakeup d.1 d.2 (mem_received taken))
    rw [answering, whole]
    cases judged d.2 <;> rfl
  exact ⟨calls s, (calls t).trans (calls s).symm⟩

/-- A socket whose arrays hold the same byte throughout. -/
def UdpSocket.filled (b : UInt8) (addr : α) : UdpSocket α where
  readBuf := List.replicate messageLengthLimit b
  writeBuf := List.replicate messageLengthLimit b
  clientAddr := addr
  readBuf_length := List.length_replicate
  writeBuf_length := List.length_replicate

/-- A message of one byte, then a datagram of one byte over the head it left. -/
theorem udpRun_judged_short :
    let wakeups : List (List (Recv Unit)) :=
      [[.datagram () [1, 0, 0, 0, 1, 0, 0, 0, 7], .again], [.datagram () [9]]]
    (udpRun .server wakeups (.filled 0 ())).1.map (·.2) = [⟨1, 1, [7]⟩] ∧
      (udpRun .server wakeups (.filled 255 ())).1.map (·.2) = [⟨1, 1, [7]⟩] := by
  intro wakeups
  have both := udpRun_judged .server wakeups (.filled 0 ()) (.filled 255 ()) (by
    intro answers wakeup src d sent
    simp only [wakeups, List.mem_cons, List.not_mem_nil, or_false] at wakeup
    rcases wakeup with rfl | rfl <;> simp at sent <;> rw [sent] <;> decide)
  have calls : (wakeups.flatMap received).filterMap (fun d => judged d.2) = [⟨1, 1, [7]⟩] := by
    decide
  rw [calls] at both
  exact ⟨both.1, both.2.trans both.1⟩

/-! ### The way of a message -/

theorem message_length (msgid : Int32) (data : List UInt8) :
    (msgCodec.encode msgid data.length ++ data).length = data.length + messageHeadLen := by
  rw [List.length_append, msgCodec.encode_length, Nat.add_comm]
  rfl

theorem judged_message (msgid : Int32) {data : List UInt8} (int : data.length < 2 ^ 31) :
    judged (msgCodec.encode msgid data.length ++ data) = some ⟨msgid, data.length, data⟩ := by
  have total := message_length msgid data
  have head : (msgCodec.encode msgid data.length).length = messageHeadLen :=
    msgCodec.encode_length msgid data.length
  have id : (msgCodec.encode msgid data.length ++ data).take 4 = bytesOfInt32 msgid := rfl
  have length : announced (msgCodec.encode msgid data.length ++ data) = data.length := by
    have field : ((msgCodec.encode msgid data.length ++ data).drop 4).take 4 =
        bytesOfInt32 (Int32.ofNat data.length) := rfl
    rw [announced, field, int32OfBytes_bytesOfInt32, Int32.toInt_ofNat_of_lt int]
  have body : (msgCodec.encode msgid data.length ++ data).drop messageHeadLen = data := by
    rw [← head, List.drop_left]
  rw [judged, if_pos, id, int32OfBytes_bytesOfInt32, total, body, Nat.add_sub_cancel]
  rw [total, length]
  omega

/-- What `send_message` hands to the kernel, if it fits the array it is put together in. -/
theorem udpSend_fits (kind : UdpKind) {data : List UInt8} (msgid : Int32) (ret : Int)
    (s : UdpSocket α) (fits : data.length + messageHeadLen ≤ messageLengthLimit) :
    ∃ dest s', udpSend kind data msgid ret s =
      .ok (ret, some ⟨dest, msgCodec.encode msgid data.length ++ data⟩, s') := by
  have total := message_length msgid data
  have room : (msgCodec.encode msgid data.length ++ data).length ≤ s.writeBuf.length := by
    rw [total, s.writeBuf_length]
    exact fits
  have bytes (old : List UInt8) :
      (msgCodec.encode msgid data.length ++ data ++ old).take (data.length + messageHeadLen) =
        msgCodec.encode msgid data.length ++ data := by
    rw [← total, List.take_left]
  rw [udpSend.eq_def, if_neg (by omega)]
  dsimp only
  rw [dif_pos room, bytes]
  exact ⟨_, _, rfl⟩

theorem udpSend_overrun (kind : UdpKind) {data : List UInt8} (msgid : Int32) (ret : Int)
    (s : UdpSocket α) (admitted : data.length ≤ messageLengthLimit)
    (long : messageLengthLimit < data.length + messageHeadLen) :
    udpSend kind data msgid ret s = .error .outOfBounds := by
  rw [udpSend.eq_def, if_neg (by omega)]
  dsimp only
  rw [dif_neg]
  rw [message_length, s.writeBuf_length]
  omega

/-- A message that is not refused arrives as it was sent, whoever receives it. -/
def Arrives (kind : UdpKind) (data : List UInt8) (msgid : Int32) (ret : Int) (s : UdpSocket α) :
    Prop :=
  ∃ dest datagram s', udpSend kind data msgid ret s = .ok (ret, some ⟨dest, datagram⟩, s') ∧
    ∀ (kind' : UdpKind) (src : α) (r : UdpSocket α),
      (udpRead kind' [.datagram src datagram] r).1.map (·.2) = [⟨msgid, data.length, data⟩]

/-- Sender and receiver agree exactly on the messages that leave room for the head. -/
theorem udpSend_arrives_iff (kind : UdpKind) (data : List UInt8) (msgid : Int32) (ret : Int)
    (s : UdpSocket α) (admitted : data.length ≤ messageLengthLimit) :
    (messageHeadLen + data.length ≤ s.writeBuf.length ∧ Arrives kind data msgid ret s) ↔
      data.length ≤ messageLengthLimit - messageHeadLen := by
  have room : messageHeadLen ≤ messageLengthLimit := by decide
  constructor
  · rintro ⟨-, dest, datagram, s', sent, -⟩
    by_contra long
    rw [udpSend_overrun kind msgid ret s admitted (by omega)] at sent
    cases sent
  · intro small
    have fits : data.length + messageHeadLen ≤ messageLengthLimit := by omega
    refine ⟨by rw [s.writeBuf_length]; omega, ?_⟩
    obtain ⟨dest, s', sent⟩ := udpSend_fits kind msgid ret s fits
    refine ⟨dest, _, s', sent, ?_⟩
    intro kind' src r
    have whole : cut (msgCodec.encode msgid data.length ++ data) =
        msgCodec.encode msgid data.length ++ data :=
      List.take_of_length_le (by rw [message_length]; exact fits)
    have int : data.length < 2 ^ 31 := by
      simp only [messageLengthLimit, messageHeadLen] at admitted
      omega
    rw [(udpRead_spec kind' _ r).1]
    simp only [received, answering, List.filterMap_cons, List.filterMap_nil, whole,
      judged_message msgid int]
    rfl

/-- A message of one byte from a client. -/
theorem udpSend_arrives_small : Arrives .client [7] 1 9 (UdpSocket.filled 0 ()) :=
  ((udpSend_arrives_iff .client [7] 1 9 (.filled 0 ()) (by decide)).mpr (by decide)).2

/-- The largest body that is not refused. -/
theorem udpSend_largest :
    let data := List.replicate messageLengthLimit (0 : UInt8)
    let s := UdpSocket.filled 0 ()
    data.length ≤ messageLengthLimit ∧ udpSend .server data 1 0 s = .error .outOfBounds ∧
      ¬messageHeadLen + data.length ≤ s.writeBuf.length ∧ ¬Arrives .server data 1 0 s := by
  intro data s
  have length : data.length = messageLengthLimit := List.length_replicate
  have long : messageLengthLimit < data.length + messageHeadLen := by
    rw [length]
    decide
  have stopped := udpSend_overrun .server 1 0 s length.le long
  refine ⟨length.le, stopped, ?_, ?_⟩
  · rw [s.writeBuf_length]
    omega
  · rintro ⟨dest, datagram, s', sent, -⟩
    rw [stopped] at sent
    cases sent

end Lars.Reactor
