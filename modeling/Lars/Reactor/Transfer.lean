import Lars.Reactor.Receive
import Lars.Reactor.Sender

/-!
# One message from end to end

The sender's limit for a message comes from the largest buffer of the pool, the
receiver's from the test of the head. A message between the two limits is taken
from the caller and closes the connection at the other end.
-/
namespace Lars.Reactor

variable {msgid : Int32} {data : List UInt8}

private theorem decode_frame (int : data.length < 2 ^ 31) {part : List UInt8}
    (start : part <+: msgCodec.frame (msgid, data)) (long : messageHeadLen ≤ part.length) :
    msgCodec.decode (part.take messageHeadLen) =
      if data.length ≤ messageLengthLimit then some (msgid, data.length) else none := by
  obtain ⟨rest, whole⟩ := start
  have headLen : (msgCodec.encode msgid data.length).length = messageHeadLen := rfl
  have front := congrArg (List.take messageHeadLen) whole
  rw [List.take_append_of_le_length long, Framing.Codec.frame, List.take_left' headLen] at front
  rw [front, msgCodec_decode_encode msgid int]

/-- The frame of a message beyond the receiver's limit is rejected at its head. -/
theorem split_rejected (int : data.length < 2 ^ 31) (large : messageLengthLimit < data.length)
    {part : List UInt8} (start : part <+: msgCodec.frame (msgid, data))
    (long : messageHeadLen ≤ part.length) : msgCodec.split part = ([], .malformed part) := by
  apply Framing.Codec.split_malformed long
  have head := decode_frame int start long
  rwa [if_neg (by omega)] at head

/-- No read of a part of the frame ends with a bare head. -/
private theorem part_has_body (int : data.length < 2 ^ 31) (body : 1 ≤ data.length)
    {part : List UInt8} (start : part <+: msgCodec.frame (msgid, data)) :
    ¬ msgCodec.EndsBare part := by
  by_cases small : data.length ≤ messageLengthLimit
  · have admits : ∀ m ∈ [(msgid, data)], msgCodec.Admits m := by
      intro m member
      rw [List.mem_singleton.mp member]
      exact msgCodec_admits small
    obtain ⟨rest, -, frames⟩ := Framing.Codec.split_stretch admits (by simpa using start)
    refine Framing.Codec.not_endsBare_of_bodies fun m member => ?_
    rw [frames] at member
    rw [List.mem_singleton.mp ((Framing.Codec.arrived_prefix _ _).subset member)]
    exact List.ne_nil_of_length_pos body
  · apply Framing.Codec.not_endsBare_of_bodies
    intro m member
    by_cases short : part.length < messageHeadLen
    · rw [Framing.Codec.split_short (c := msgCodec) short] at member
      cases member
    · rw [split_rejected int (by omega) start (by omega)] at member
      cases member

namespace Receiver

/-- A peer that has handled all before the frame: it dispatches the message, or closes the
connection if the body is beyond the limit of the head test. -/
theorem run_frame (e : Endpoint) (int : data.length < 2 ^ 31) (body : 1 ≤ data.length)
    {r : Receiver} (faithful : r.Faithful) (live : r.closed = false) (boundary : r.ibuf.Holds [])
    {chunks : List Chunk} (frame : chunks.flatMap Chunk.bytes = msgCodec.frame (msgid, data))
    (room : Run.Guarded (read e) HasRoom r chunks) :
    ∃ r', Run.run (read e) r chunks = .ok r' ∧
      if data.length ≤ messageLengthLimit then
        r'.closed = false ∧ r'.calls = r.calls ++ [⟨msgid, data.length, data⟩]
      else r'.closed = true := by
  -- an empty buffer means that the stream so far ends with a whole frame
  have tail : (msgCodec.split r.received).2 = .pending [] := by
    obtain ⟨rest, tail, held, -⟩ := faithful.held live
    rwa [held.unique boundary] at tail
  have fine : ∀ pre, pre <+: chunks → pre ≠ [] →
      ¬ msgCodec.EndsBare (r.received ++ pre.flatMap Chunk.bytes) := by
    rintro pre ⟨later, rfl⟩ some
    have bytes : pre.flatMap Chunk.bytes ≠ [] := by
      obtain ⟨c, pre, rfl⟩ := List.exists_cons_of_ne_nil some
      simp [c.nonempty]
    rw [Framing.Codec.endsBare_append tail bytes]
    apply part_has_body int body
    rw [← frame, List.flatMap_append]
    exact List.prefix_append _ _
  obtain ⟨r', done, ⟨calls, -⟩, all⟩ := run_pieces e faithful live fine room
  rw [frame, Framing.Codec.split_append_pending _ tail, List.nil_append] at all
  refine ⟨r', done, ?_⟩
  split
  next small =>
    have alone := Framing.Codec.split_frame_append
      (msgCodec_admits (show (msgid, data).2.length ≤ messageLengthLimit from small)) []
    rw [List.append_nil, Framing.Codec.split_nil] at alone
    rw [alone] at all
    refine ⟨all.1, ?_⟩
    rw [calls, all.2, Framing.Codec.split_append_pending _ tail, List.nil_append, alone,
      List.map_append, ← faithful.1]
    rfl
  next large =>
    -- the head test refuses the length as soon as the head is complete
    rwa [split_rejected int (by omega) (List.prefix_refl _)
      (by rw [Framing.Codec.frame_length]; exact Nat.le_add_right _ _)] at all

/-- For every message that `send_message` accepts, and however its frame is cut into reads at a
peer that stands between two frames, as it does after any whole frames (`between_frames`): the peer
dispatches the message exactly if its body is within the limit of the head test. -/
theorem dispatched_iff_within_limit (e e' : Endpoint) {fd : Nat} {o o' : Out}
    {pending : List UInt8} (sound : o.pool.Ok) (holds : o.obuf.Holds pending) {msgid : Int32}
    {data : List UInt8} (body : 1 ≤ data.length)
    (accepted : sendMessage e fd data msgid o = .ok (0, o')) {r : Receiver} (faithful : r.Faithful)
    (live : r.closed = false) (boundary : r.ibuf.Holds []) {chunks : List Chunk}
    (whole : o'.obuf.Holds (pending ++ chunks.flatMap Chunk.bytes))
    (room : Run.Guarded (read e') HasRoom r chunks) :
    (∃ r', Run.run (read e') r chunks = .ok r' ∧ r'.closed = false ∧
        r'.calls = r.calls ++ [⟨msgid, data.length, data⟩]) ↔
      data.length ≤ messageLengthLimit := by
  rcases sendMessage_inv sound holds accepted with ⟨-, fits, sent, -⟩ | ⟨refused, -⟩
  · have int : data.length < 2 ^ 31 := by
      simp only [messageHeadLen, m8M] at fits
      omega
    -- the bytes behind what was pending are the frame of the message
    obtain ⟨r', done, result⟩ := run_frame e' int body faithful live boundary
      (List.append_cancel_left (whole.unique sent)) room
    by_cases small : data.length ≤ messageLengthLimit
    · rw [if_pos small] at result
      exact iff_of_true ⟨r', done, result⟩ small
    · rw [if_neg small] at result
      refine iff_of_false ?_ small
      rintro ⟨r'', done', live', -⟩
      cases done.symm.trans done'
      rw [result] at live'
      cases live'
  · cases refused

private def oneFrame : Chunk :=
  ⟨msgCodec.frame (7, [1, 2, 3]), by decide, by decide, BufPool.init, BufPool.init_ok⟩

private def nextFrame : Chunk :=
  ⟨msgCodec.frame (8, [4, 5]), by decide, by decide, BufPool.init, BufPool.init_ok⟩

private def idleOut : Out :=
  ⟨none, ⟨fun _ => none, ∅, ⟨fun _ => true, fun _ => none⟩⟩, BufPool.init⟩

/-- A second message behind one that was handled. -/
theorem dispatched_short_message :
    ∃ r r', Run.run (read .client) init [oneFrame] = .ok r ∧
      Run.run (read .client) r [nextFrame] = .ok r' ∧ r'.closed = false ∧
      r'.calls = r.calls ++ [⟨8, 2, [4, 5]⟩] := by
  have empty : idleOut.obuf.Holds [] := rfl
  obtain ⟨o', accepted⟩ := sendMessage_ok .conn 3 (o := idleOut) BufPool.init_ok empty
    (show BufPool.init.Spare 2 by unfold BufPool.Spare; decide) 8
    (show [].length + (messageHeadLen + [4, 5].length) ≤ m8M by decide)
  have first : Run.Guarded (read .client) HasRoom init [oneFrame] :=
    ⟨⟨by decide, ReactorBuf.makeRoom_available BufPool.init_spare.available⟩, fun _ _ => trivial⟩
  have stream : [oneFrame].flatMap Chunk.bytes = [(7, [1, 2, 3])].flatMap msgCodec.frame := by
    decide
  obtain ⟨r, handled, faithful, live, boundary⟩ :=
    between_frames .client (by decide) stream first
  rcases sendMessage_inv BufPool.init_ok empty accepted with ⟨-, -, sent, -⟩ | ⟨refused, -⟩
  · have room : Run.Guarded (read .client) HasRoom r [nextFrame] := by
      refine ⟨⟨?_, ReactorBuf.makeRoom_available BufPool.init_spare.available⟩, fun _ _ => trivial⟩
      rw [ReactorBuf.Holds.length boundary]
      decide
    have whole : o'.obuf.Holds ([] ++ [nextFrame].flatMap Chunk.bytes) := by
      simpa [nextFrame] using sent
    obtain ⟨r', done, dispatched⟩ :=
      (dispatched_iff_within_limit .conn .client BufPool.init_ok empty (by decide) accepted
        faithful live boundary whole room).mpr (by decide)
    exact ⟨r, r', handled, done, dispatched⟩
  · cases refused

end Receiver

end Lars.Reactor
