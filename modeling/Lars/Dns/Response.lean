import Lars.Wire
import Lars.Reactor.Transfer

/-!
# The answer of the DNS

`get_route` and `push_change_task` build the same answer from the hosts of a
module: one entry for every key of the set, however many there are.
-/
namespace Lars.Dns

open Reactor

/-- The host that a key of a `host_set` stands for. -/
def hostOfKey (ipPort : UInt64) : Proto.HostInfo where
  ip := (ipPort >>> 32).toUInt32.toInt32
  port := ipPort.toUInt32.toInt32

def routeResponse (modid cmdid : Int32) (hosts : List UInt64) : Proto.GetRouteResponse where
  modid := modid
  cmdid := cmdid
  host := hosts.map hostOfKey

private def quietLoop : Loop := ⟨fun _ => none, ∅, ⟨fun _ => true, fun _ => none⟩⟩

/-- An idle connection accepts a message beyond the limit of the head test, and a new peer that
gets all of it in one read closes. -/
private theorem large_message_closes (msgid : Int32) (data : List UInt8)
    (large : messageLengthLimit < data.length) (fits : messageHeadLen + data.length ≤ m8M) :
    ∃ (o' : Out) (c : Chunk) (r' : Receiver),
      sendMessage .conn 3 data msgid ⟨none, quietLoop, BufPool.init⟩ = .ok (0, o') ∧
      o'.obuf.Holds c.bytes ∧
      Run.run (Receiver.read .client) .init [c] = .ok r' ∧ r'.closed = true := by
  have empty : ReactorBuf.Holds none [] := rfl
  have spare : BufPool.init.Spare 2 := by
    unfold BufPool.Spare
    decide
  let o : Out := ⟨none, quietLoop, BufPool.init⟩
  obtain ⟨o', accepted⟩ := sendMessage_ok (o := o) .conn 3 BufPool.init_ok empty spare msgid
    (show ([] : List UInt8).length + (messageHeadLen + data.length) ≤ m8M by simpa using fits)
  have size : (msgCodec.frame (msgid, data)).length = messageHeadLen + data.length :=
    Framing.Codec.frame_length _
  have int : data.length < 2 ^ 30 := by
    simp only [m8M] at fits
    omega
  -- the whole frame arrives with one read
  let c : Chunk :=
    { bytes := msgCodec.frame (msgid, data)
      nonempty := Sender.frame_ne_nil _
      bounded := by
        rw [size]
        exact fits.trans_lt (by decide)
      pool := BufPool.init
      sound := BufPool.init_ok }
  have room : Run.Guarded (Receiver.read .client) Receiver.HasRoom .init [c] := by
    refine ⟨⟨?_, ReactorBuf.makeRoom_available BufPool.init_spare.available⟩, fun _ _ => trivial⟩
    change 0 + (msgCodec.frame (msgid, data)).length ≤ m8M
    rwa [size, Nat.zero_add]
  have frame : [c].flatMap Chunk.bytes = msgCodec.frame (msgid, data) := by simp [c]
  obtain ⟨r', done, closed⟩ := Receiver.run_frame .client (int.trans (by decide)) (by omega)
    Receiver.init_faithful rfl rfl frame room
  rw [if_neg (by omega)] at closed
  rcases sendMessage_inv BufPool.init_ok empty accepted with ⟨-, -, sent, -⟩ | ⟨refused, -⟩
  · exact ⟨o', c, r', accepted, sent, done, closed⟩
  · cases refused

/-- The keys of `n` hosts with one port and different addresses. -/
private def manyHosts (n : Nat) : List UInt64 :=
  (List.range n).map fun i => UInt64.ofNat (i * 2 ^ 32 + 80)

private theorem manyHosts_nodup {n : Nat} (bound : n ≤ 2 ^ 31) : (manyHosts n).Nodup := by
  apply List.Nodup.map_on _ List.nodup_range
  intro i hi j hj same
  rw [List.mem_range] at hi hj
  have values := congrArg UInt64.toNat same
  simp only [UInt64.toNat_ofNat'] at values
  omega

private theorem reply_closes {n : Nat} (many : messageLengthLimit < 2 * n)
    (few : messageHeadLen + (22 + 24 * n) ≤ m8M) :
    ∃ (o' : Out) (c : Chunk) (r' : Receiver), (manyHosts n).Nodup ∧
      sendMessage .conn 3 (routeResponse 1 1 (manyHosts n)).serialize Proto.idGetRouteResponse
        ⟨none, quietLoop, BufPool.init⟩ = .ok (0, o') ∧
      o'.obuf.Holds c.bytes ∧
      Run.run (Receiver.read .client) .init [c] = .ok r' ∧ r'.closed = true := by
  have count : (routeResponse 1 1 (manyHosts n)).host.length = n := by
    simp [routeResponse, manyHosts]
  obtain ⟨lower, upper⟩ := (routeResponse 1 1 (manyHosts n)).serialize_length
  rw [count] at lower upper
  obtain ⟨o', c, r', result⟩ := large_message_closes Proto.idGetRouteResponse
    (routeResponse 1 1 (manyHosts n)).serialize (by omega) (by omega)
  have bound : n ≤ 2 ^ 31 := by
    simp only [m8M] at few
    omega
  exact ⟨o', c, r', manyHosts_nodup bound, result⟩

/-- A module with 40000 hosts: the answer is accepted for sending and closes the connection at
the agent. -/
theorem large_reply_closes_connection :
    ∃ (o' : Out) (c : Chunk) (r' : Receiver), (manyHosts 40000).Nodup ∧
      sendMessage .conn 3 (routeResponse 1 1 (manyHosts 40000)).serialize Proto.idGetRouteResponse
        ⟨none, quietLoop, BufPool.init⟩ = .ok (0, o') ∧
      o'.obuf.Holds c.bytes ∧
      Run.run (Receiver.read .client) .init [c] = .ok r' ∧ r'.closed = true :=
  reply_closes (by decide) (by decide)

end Lars.Dns
