import Lars.Agent.DnsClient
import Lars.Lib.DottedQuad

/-!
# The client of the agent

`lars_client` has a socket for each of the three UDP servers of the agent and
picks one by the module. `get_host` and `get_route` wait for an answer on that
socket, `report` does not. Addresses are numbers in the messages and texts for
the caller.
-/
namespace Lars.Api

open Proto (retSucc retSystemError)
open Agent (shardOf Config LbAgent)
open DottedQuad (Quad)

/-! ### The C library on a little-endian machine -/

/-- `inet_ntoa`: the bytes of `s_addr` as they lie in memory. -/
def inetNtoa (sAddr : UInt32) : String := (Quad.memory sAddr).text

/-- `ntohl`: the number that has the bytes in memory in network order. -/
def ntohl (n : UInt32) : UInt32 := (Quad.memory n).number

/-! ### `lars_client` -/

structure LarsClient where
  seqid : UInt32

/-- What one `recvfrom` and the parsing after it give. -/
inductive Received (ρ : Type) where
  /-- `recvfrom` returns -1. -/
  | failed
  /-- The head has another message id than the answer. -/
  | otherMessage
  | malformed
  | answer (rsp : ρ)

/-- A call that has sent its request: what it returns and leaves unread on the socket. It still
waits as long as there is no result. -/
structure Call (κ ρ α : Type) where
  socket : Fin 3
  request : κ
  result : Option (Int32 × α)
  unread : List (Received ρ)

namespace LarsClient

/-- The loop of `get_host`: answers to earlier calls are passed over. -/
def awaitHost (seq : UInt32) : List (Received Proto.GetHostResponse) →
    Option (Except Int32 Proto.GetHostResponse) × List (Received Proto.GetHostResponse)
  | [] => (none, [])
  | .answer rsp :: rest => if rsp.seq < seq then awaitHost seq rest else (some (.ok rsp), rest)
  | _ :: rest => (some (.error retSystemError), rest)

/-- The host as `get_host` hands it over; the address is taken as it comes. -/
def hostEntry (host : Proto.HostInfo) : String × Int32 := (inetNtoa host.ip.toUInt32, host.port)

/-- The end of `get_host`. A host that is not set reads as zeros. -/
def takeHost (seq : UInt32) (modid cmdid : Int32) (rsp : Proto.GetHostResponse) :
    Int32 × Option (String × Int32) :=
  if rsp.seq ≠ seq ∨ rsp.modid ≠ modid ∨ rsp.cmdid ≠ cmdid then (retSystemError, none)
  else if rsp.retcode = retSucc then (rsp.retcode, some (hostEntry (rsp.host.getD ⟨0, 0⟩)))
  else (rsp.retcode, none)

/-- `get_host` with what will come in on each socket; `sent` is false if `sendto` fails. -/
def getHost (modid cmdid : Int32) (sent : Bool)
    (incoming : Fin 3 → List (Received Proto.GetHostResponse)) (c : LarsClient) : Except Fault
      (Call Proto.GetHostRequest Proto.GetHostResponse (Option (String × Int32)) × LarsClient) :=
  let seq := c.seqid
  match shardOf modid cmdid with
  | .error e => .error e
  | .ok index =>
    let request := ⟨seq, modid, cmdid⟩
    let next := ⟨seq + 1⟩
    if sent = false then .ok (⟨index, request, some (retSystemError, none), incoming index⟩, next)
    else
      match awaitHost seq (incoming index) with
      | (none, unread) => .ok (⟨index, request, none, unread⟩, next)
      | (some (.error ret), unread) => .ok (⟨index, request, some (ret, none), unread⟩, next)
      | (some (.ok rsp), unread) =>
        .ok (⟨index, request, some (takeHost seq modid cmdid rsp), unread⟩, next)

/-- `report`: the socket and the message. -/
def report (inetAton : String → UInt32) (modid cmdid : Int32) (ip : String)
    (port retcode : Int32) : Except Fault (Fin 3 × Proto.ReportRequest) :=
  let ipNum := (inetAton ip).toInt32
  match shardOf modid cmdid with
  | .error e => .error e
  | .ok index => .ok (index, ⟨modid, cmdid, ⟨ipNum, port⟩, retcode⟩)

/-- One round of the loop of `get_route`; the address goes through `ntohl` first. -/
def routeEntry (host : Proto.HostInfo) : String × Int32 :=
  (inetNtoa (ntohl host.ip.toUInt32), host.port)

/-- The end of `get_route`. -/
def takeRoute (modid cmdid : Int32) (rsp : Proto.GetRouteResponse) (route : List (String × Int32)) :
    Int32 × List (String × Int32) :=
  if rsp.modid ≠ modid ∨ rsp.cmdid ≠ cmdid then (retSystemError, route)
  else (retSucc, route ++ rsp.host.map routeEntry)

def getRoute (modid cmdid : Int32) (sent : Bool)
    (incoming : Fin 3 → List (Received Proto.GetRouteResponse)) (route : List (String × Int32)) :
    Except Fault (Call Proto.GetRouteRequest Proto.GetRouteResponse (List (String × Int32))) :=
  match shardOf modid cmdid with
  | .error e => .error e
  | .ok index =>
    let request := ⟨modid, cmdid⟩
    if sent = false then .ok ⟨index, request, some (retSystemError, route), incoming index⟩
    else
      match incoming index with
      | [] => .ok ⟨index, request, none, []⟩
      | .answer rsp :: unread =>
        .ok ⟨index, request, some (takeRoute modid cmdid rsp route), unread⟩
      | _ :: unread => .ok ⟨index, request, some (retSystemError, route), unread⟩

end LarsClient

/-! ### The servers of the agent -/

/-- The port that the constructor connects a socket to. -/
def connectPort (socket : Fin 3) : Nat := 8888 + socket

/-- The port of the server that `start_UDP_server` starts with this index. -/
def serverPort (index : Fin 3) : Nat := index + 8888

/-- The place in `r_lb` that `agent_server_main` gives its handlers. -/
def handlerIndex (port : Nat) : Nat := port - 8888

/-- A datagram from the socket is handled by the server that has its port. -/
def servedBy (socket : Fin 3) : List Nat :=
  ((List.finRange 3).filter fun index => serverPort index = connectPort socket).map
    fun index => handlerIndex (serverPort index)

theorem servedBy_eq (socket : Fin 3) : servedBy socket = [socket.val] := by
  decide +revert

/-! ### One table for each module -/

private theorem tmod_neg_iff (sum : Int) : sum.tmod 3 < 0 ↔ ¬ (0 ≤ sum ∨ 3 ∣ sum) := by
  rw [Int.tmod_eq_emod]
  split
  next whole =>
    have := Int.emod_nonneg sum (show (3 : Int) ≠ 0 by decide)
    constructor
    · intro below
      omega
    · exact fun part => absurd whole part
  next part =>
    have := Int.emod_lt_of_pos sum (show (0 : Int) < 3 by decide)
    exact ⟨fun _ => part, fun _ => by omega⟩

/-- The remainder is an index unless the sum overflows or is negative and not a multiple. -/
theorem shardOf_ok_iff (modid cmdid : Int32) :
    (∃ index, shardOf modid cmdid = .ok index) ↔
      -2 ^ 31 ≤ modid.toInt + cmdid.toInt ∧ modid.toInt + cmdid.toInt < 2 ^ 31 ∧
        (0 ≤ modid.toInt + cmdid.toInt ∨ 3 ∣ modid.toInt + cmdid.toInt) := by
  unfold shardOf
  dsimp only
  generalize modid.toInt + cmdid.toInt = sum
  have sign := tmod_neg_iff sum
  split
  next overflow =>
    constructor
    · rintro ⟨_, ⟨⟩⟩
    · omega
  next fits =>
    split
    next below =>
      constructor
      · rintro ⟨_, ⟨⟩⟩
      · rintro ⟨-, -, whole⟩
        exact absurd whole (sign.mp below)
    next inside =>
      have whole := not_not.mp (sign.not.mp inside)
      exact ⟨fun _ => ⟨by omega, by omega, whole⟩, fun _ => ⟨_, rfl⟩⟩

namespace LarsClient

variable {modid cmdid : Int32} {index : Fin 3}

theorem getHost_socket (shard : shardOf modid cmdid = .ok index) (sent : Bool)
    (incoming : Fin 3 → List (Received Proto.GetHostResponse)) (c : LarsClient) :
    ∃ call next, c.getHost modid cmdid sent incoming = .ok (call, next) ∧ call.socket = index := by
  simp only [getHost, shard]
  split
  · exact ⟨_, _, rfl, rfl⟩
  · split <;> exact ⟨_, _, rfl, rfl⟩

theorem getRoute_socket (shard : shardOf modid cmdid = .ok index) (sent : Bool)
    (incoming : Fin 3 → List (Received Proto.GetRouteResponse)) (route : List (String × Int32)) :
    ∃ call, getRoute modid cmdid sent incoming route = .ok call ∧ call.socket = index := by
  simp only [getRoute, shard]
  split
  · exact ⟨_, rfl, rfl⟩
  · split <;> exact ⟨_, rfl, rfl⟩

end LarsClient

/-- The three calls for a module go over one socket, behind it is the server with the table at
that place, and an answer of the DNS for the module goes to that very table. -/
structure ShardedAt (modid cmdid : Int32) (index : Fin 3) : Prop where
  getHost : ∀ sent incoming c, ∃ call next,
    LarsClient.getHost modid cmdid sent incoming c = .ok (call, next) ∧ call.socket = index
  report : ∀ inetAton ip port retcode, ∃ req,
    LarsClient.report inetAton modid cmdid ip port retcode = .ok (index, req)
  getRoute : ∀ sent incoming route, ∃ call,
    LarsClient.getRoute modid cmdid sent incoming route = .ok call ∧ call.socket = index
  served : servedBy index = [index.val]
  answer : ∀ (cfg : Config) now ts rsp (s : LbAgent), rsp.modid = modid → rsp.cmdid = cmdid →
    s.dealRecvRoute cfg now ts rsp =
      ((s.rLb index).updateHost cfg now ts modid cmdid rsp).map fun next => s.called index next []

/-- Requests and answers of a module meet at one table exactly when the sum of its numbers is an
`int` that is not negative or is a multiple of three. -/
theorem sharded_iff (modid cmdid : Int32) :
    (∃ index, ShardedAt modid cmdid index) ↔
      -2 ^ 31 ≤ modid.toInt + cmdid.toInt ∧ modid.toInt + cmdid.toInt < 2 ^ 31 ∧
        (0 ≤ modid.toInt + cmdid.toInt ∨ 3 ∣ modid.toInt + cmdid.toInt) := by
  rw [← shardOf_ok_iff]
  constructor
  · rintro ⟨index, sharded⟩
    obtain ⟨req, done⟩ := sharded.report (fun _ => 0) "" 0 0
    unfold LarsClient.report at done
    cases shard : shardOf modid cmdid with
    | error e => simp [shard] at done
    | ok index' => exact ⟨index', rfl⟩
  · rintro ⟨index, shard⟩
    refine ⟨index, LarsClient.getHost_socket shard, fun inetAton ip port retcode => ?_,
      LarsClient.getRoute_socket shard, servedBy_eq index, ?_⟩
    · simp only [LarsClient.report, shard]
      exact ⟨_, rfl⟩
    · rintro cfg now ts rsp s rfl rfl
      simp only [LbAgent.dealRecvRoute, shard]

/-- Module -1, command 0: the remainder is -1, and there is no such socket. -/
theorem negative_shard :
    (∀ inetAton ip port retcode,
      LarsClient.report inetAton (-1) 0 ip port retcode = .error .outOfBounds) ∧
    ¬ ∃ index, ShardedAt (-1) 0 index := by
  have outside : shardOf (-1) 0 = .error .outOfBounds := by decide
  refine ⟨fun inetAton ip port retcode => by simp only [LarsClient.report, outside], ?_⟩
  rintro ⟨index, sharded⟩
  obtain ⟨req, done⟩ := sharded.report (fun _ => 0) "" 0 0
  simp [LarsClient.report, outside] at done

end Lars.Api
