import Lars.Api.Server

/-!
# Calls over the wire

`lars_client` puts a request together in `write_buf`, sends it to a server of
the agent and parses what `recvfrom` puts into `read_buf`. Here the client, the
servers and the datagrams between them are one system; `DeskSession` is the
same system at the level of messages. The `sendto` of the client may fail, and
so may that of a server; then the request or the answer does not arrive.
-/
namespace Lars.Api

open Reactor
open Agent (Config RouteLb LbAgent shardOf)
open Proto (Message parseFromArray retSystemError)
open Protobuf (Runtime Small)

variable {α σ M : Type}

def writeBufLen : Nat := 4096

def readBufLen : Nat := 20 * 4096

/-- `write_buf` and `read_buf` as a call finds them on its stack. -/
structure Stack where
  writeBuf : List UInt8
  readBuf : List UInt8
  writeBuf_length : writeBuf.length = writeBufLen
  readBuf_length : readBuf.length = readBufLen

/-- One `recvfrom`: a datagram, or none where it returns -1. -/
abbrev Recvfrom := Option (List UInt8)

/-- `sendto` of a datagram on a socket: the world after it and what `recvfrom` will give from then
on; no such list where `sendto` returns -1. -/
abbrev Sendto (σ : Type) := Fin 3 → List UInt8 → Except Fault (σ × Option (List Recvfrom))

namespace Wire

variable (rt : Runtime)

/-- The request in `write_buf`: the head has its length from `ByteSizeLong`, and as many bytes are
sent. -/
def pack [Message M] (msgid : Int32) (req : M) (writeBuf : List UInt8) :
    Except Fault (List UInt8) :=
  let msglen := Message.byteSizeLong rt req
  let message := msgCodec.encode msgid msglen ++ Message.serialize rt req
  if message.length ≤ writeBuf.length then
    .ok ((message ++ writeBuf.drop message.length).take (msglen + messageHeadLen))
  else .error .outOfBounds

/-- One `recvfrom` and the parsing after it. The length in the head is not looked at; a datagram
without a whole head would make the size of its body negative. -/
def receive [Message M] (msgid : Int32) (d : Recvfrom) (readBuf : List UInt8) :
    Except Fault (Received M × List UInt8) :=
  match d with
  | none => .ok (.failed, readBuf)
  | some bytes =>
    let got := bytes.take readBufLen
    let readBuf := got ++ readBuf.drop got.length
    if int32OfBytes (readBuf.take 4) ≠ msgid then .ok (.otherMessage, readBuf)
    else if got.length < messageHeadLen then .error .outOfBounds
    else
      match parseFromArray rt (got.drop messageHeadLen) with
      | none => .ok (.malformed, readBuf)
      | some rsp => .ok (.answer rsp, readBuf)

/-- What a call returns, and how often it has called `recvfrom`. -/
structure Returned (β : Type) where
  socket : Fin 3
  result : Option (Int32 × β)
  reads : Nat

/-- The loop of `get_host`: its result and what it has left unread. -/
def awaitHost (rt : Runtime) (seq : UInt32) : List Recvfrom → List UInt8 →
    Except Fault (Option (Except Int32 Proto.GetHostResponse) × List Recvfrom)
  | [], _ => .ok (none, [])
  | d :: rest, readBuf =>
    match receive rt idGetHostResponse d readBuf with
    | .error e => .error e
    | .ok (.answer rsp, readBuf) =>
      if rsp.seq < seq then awaitHost rt seq rest readBuf else .ok (some (.ok rsp), rest)
    | .ok _ => .ok (some (.error retSystemError), rest)

def getHost (modid cmdid : Int32) (sendto : Sendto σ) (stack : Stack) (c : LarsClient) :
    Except Fault (σ × Returned (Option (String × Int32)) × LarsClient) :=
  let seq := c.seqid
  let next : LarsClient := ⟨seq + 1⟩
  let req : Proto.GetHostRequest := ⟨seq, modid, cmdid⟩
  match pack rt idGetHostRequest req stack.writeBuf with
  | .error e => .error e
  | .ok datagram =>
    match shardOf modid cmdid with
    | .error e => .error e
    | .ok index =>
      match sendto index datagram with
      | .error e => .error e
      | .ok (world, none) => .ok (world, ⟨index, some (retSystemError, none), 0⟩, next)
      | .ok (world, some incoming) =>
        match awaitHost rt seq incoming stack.readBuf with
        | .error e => .error e
        | .ok (none, unread) => .ok (world, ⟨index, none, incoming.length - unread.length⟩, next)
        | .ok (some (.error ret), unread) =>
          .ok (world, ⟨index, some (ret, none), incoming.length - unread.length⟩, next)
        | .ok (some (.ok rsp), unread) =>
          .ok (world, ⟨index, some (LarsClient.takeHost seq modid cmdid rsp),
            incoming.length - unread.length⟩, next)

/-- `report`; it does not wait for anything. -/
def report (inetAton : String → UInt32) (modid cmdid : Int32) (ip : String)
    (port retcode : Int32) (sendto : Sendto σ) (stack : Stack) : Except Fault (Fin 3 × σ) :=
  let req : Proto.ReportRequest := ⟨modid, cmdid, ⟨(inetAton ip).toInt32, port⟩, retcode⟩
  match pack rt idReportRequest req stack.writeBuf with
  | .error e => .error e
  | .ok datagram =>
    match shardOf modid cmdid with
    | .error e => .error e
    | .ok index => (sendto index datagram).map fun sent => (index, sent.1)

def getRoute (modid cmdid : Int32) (sendto : Sendto σ) (stack : Stack)
    (route : List (String × Int32)) : Except Fault (σ × Returned (List (String × Int32))) :=
  let req : Proto.GetRouteRequest := ⟨modid, cmdid⟩
  match pack rt idApiGetRouteRequest req stack.writeBuf with
  | .error e => .error e
  | .ok datagram =>
    match shardOf modid cmdid with
    | .error e => .error e
    | .ok index =>
      match sendto index datagram with
      | .error e => .error e
      | .ok (world, none) => .ok (world, ⟨index, some (retSystemError, route), 0⟩)
      | .ok (world, some []) => .ok (world, ⟨index, none, 0⟩)
      | .ok (world, some (d :: _)) =>
        match receive rt idApiGetRouteResponse d stack.readBuf with
        | .error e => .error e
        | .ok (.answer rsp, _) =>
          .ok (world, ⟨index, some (LarsClient.takeRoute modid cmdid rsp route), 1⟩)
        | .ok _ => .ok (world, ⟨index, some (retSystemError, route), 1⟩)

end Wire

/-! ### A client and the agent -/

/-- A client, the datagrams that wait on its sockets, the agent, and what the calls returned. -/
structure WireSession (α : Type) where
  client : LarsClient
  sockets : Fin 3 → List (List UInt8)
  agent : UdpAgent α
  results : List Outcome

/-- A call, or whatever else reaches the agent. `sent` is false if the `sendto` of the call fails,
`fails` is the read at which it is interrupted, and `ret` is what the server's `sendto` returns. -/
inductive WireOp (α : Type) where
  | getHost (modid cmdid : Int32) (sent : Bool) (fails : Option Nat) (clock : Clock) (ret : Int)
      (stack : Stack)
  | getRoute (modid cmdid : Int32) (sent : Bool) (fails : Option Nat)
      (route : List (String × Int32)) (clock : Clock) (ret : Int) (stack : Stack)
  | report (modid cmdid : Int32) (ip : String) (port retcode : Int32) (sent : Bool)
      (clock : Clock) (ret : Int) (stack : Stack)
  /-- Another client, whose answers go to itself, or another thread of the agent. -/
  | other (op : UdpAgentStep α)

/-- The calls of `recvfrom` one after the other, as in `recvs`. -/
def recvfroms (fails : Option Nat) (q : List (List UInt8)) : List Recvfrom :=
  match fails with
  | none => q.map some
  | some k => (q.take k).map some ++ none :: (q.drop k).map some

/-- What is left of `q` after `count` calls of `recvfrom`. -/
def remaining {δ : Type} (fails : Option Nat) (q : List δ) (count : Nat) : List δ :=
  if fails = some (count - 1) then q.drop (count - 1) else q.drop count

/-- The datagrams from a server to an address. -/
def arriving [DecidableEq α] (server : Fin 3) (addr : α) (sent : List (Fin 3 × Sent α)) :
    List (List UInt8) :=
  (sent.filter fun entry => entry.1 = server ∧ entry.2.dest = some addr).map (·.2.bytes)

/-- What a run of the system takes from outside: the runtime of the generated classes, the
configuration, what failed parses leave, the C library, and the addresses of the client's
sockets. -/
structure Setting (α : Type) where
  runtime : Runtime
  cfg : Config
  left : Leftover
  inetAton : String → UInt32
  addr : Fin 3 → α

namespace WireSession

variable [DecidableEq α] (env : Setting α)

/-- `sendto`: the server with the socket's port receives the datagram, and what leaves there comes
in behind the datagrams that wait. If it fails, nothing reaches the server. -/
def sendto (sent : Bool) (fails : Option Nat) (clock : Clock) (ret : Int) (s : WireSession α) :
    Sendto (UdpAgent α × List (List UInt8)) := fun index datagram =>
  if sent = false then .ok ((s.agent, s.sockets index), none)
  else
    (s.agent.recv env.runtime env.cfg env.left clock ret index (env.addr index) datagram).map
      fun agent =>
        let q := s.sockets index ++
          arriving index (env.addr index) (agent.sent.drop s.agent.sent.length)
        ((agent, q), some (recvfroms fails q))

def step (s : WireSession α) : WireOp α → Except Fault (WireSession α)
  | .getHost modid cmdid sent fails clock ret stack =>
    (Wire.getHost env.runtime modid cmdid (s.sendto env sent fails clock ret) stack s.client).map
      fun ((agent, q), call, client) =>
        { client
          sockets := Function.update s.sockets call.socket (remaining fails q call.reads)
          agent
          results := s.results ++ [.host call.result] }
  | .getRoute modid cmdid sent fails route clock ret stack =>
    (Wire.getRoute env.runtime modid cmdid (s.sendto env sent fails clock ret) stack route).map
      fun ((agent, q), call) =>
        { s with
          sockets := Function.update s.sockets call.socket (remaining fails q call.reads)
          agent
          results := s.results ++ [.route call.result] }
  | .report modid cmdid ip port retcode sent clock ret stack =>
    (Wire.report env.runtime env.inetAton modid cmdid ip port retcode
      (s.sendto env sent none clock ret) stack).map fun (index, agent, q) =>
        { s with sockets := Function.update s.sockets index q, agent }
  | .other op => (s.agent.step env.runtime env.cfg env.left op).map fun agent => { s with agent }

end WireSession

/-! ### The same in messages -/

namespace Session

/-- A call that fails before its first read. -/
def unsent (s : Session) (client : LarsClient) (own failure : Outcome) : Session :=
  { s with client, log := s.log ++ [⟨s.log.length, none, failure, own, failure⟩] }

/-- A `get_host` whose answer does not leave the agent. -/
def hostUnanswered (modid cmdid : Int32) (fails : Option Nat) (s : Session) :
    Except Fault Session :=
  match shardOf modid cmdid with
  | .error e => .error e
  | .ok index =>
    let incoming := fun socket => recvs Datagram.asHost fails (s.sockets socket)
    match s.client.getHost modid cmdid true incoming with
    | .error e => .error e
    | .ok (call, client) =>
      .ok (s.close client s.sockets index fails ((incoming index).length - call.unread.length)
        (.host call.result) (.host none) (.host (some (retSystemError, none))))

/-- A `get_route` whose answer does not leave the agent. -/
def routeUnanswered (modid cmdid : Int32) (fails : Option Nat) (route : List (String × Int32))
    (s : Session) : Except Fault Session :=
  match shardOf modid cmdid with
  | .error e => .error e
  | .ok index =>
    let incoming := fun socket => recvs Datagram.asRoute fails (s.sockets socket)
    match LarsClient.getRoute modid cmdid true incoming route with
    | .error e => .error e
    | .ok call =>
      .ok (s.close s.client s.sockets index fails ((incoming index).length - call.unread.length)
        (.route call.result) (.route none) (.route (some (retSystemError, route))))

end Session

/-- The session of a client and the desk that answers it. -/
structure DeskSession (α : Type) where
  desk : Desk α
  session : Session

namespace DeskSession

variable (env : Setting α)

def step (s : DeskSession α) : WireOp α → Except Fault (DeskSession α)
  | .getHost modid cmdid false _ _ _ _ =>
    (s.session.client.getHost modid cmdid false fun _ => []).map fun (call, client) =>
      { s with session := s.session.unsent client (.host none) (.host call.result) }
  | .getHost modid cmdid true fails clock ret _ =>
    match shardOf modid cmdid with
    | .error e => .error e
    | .ok index =>
      let req : Proto.GetHostRequest := ⟨s.session.client.seqid, modid, cmdid⟩
      match (s.desk.agent.rLb index).getHost env.cfg clock.now modid cmdid
          (getHostCb req 0 none) with
      | .error e => .error e
      | .ok reply =>
        let desk := { s.desk with agent := s.desk.agent.called index reply.next reply.sent }
        let answer := Answer.host reply.rsp
        if ret = -1 then
          (s.session.hostUnanswered modid cmdid fails).map fun session => ⟨desk, session⟩
        else
          (s.session.step (.getHost modid cmdid fails reply.rsp.retcode reply.rsp.host)).map
            fun session =>
              ⟨{ desk with answers := desk.answers ++ [(index, env.addr index, answer)] }, session⟩
  | .getRoute modid cmdid false _ route _ _ _ =>
    (LarsClient.getRoute modid cmdid false (fun _ => []) route).map fun call =>
      { s with
        session := s.session.unsent s.session.client (.route none) (.route call.result) }
  | .getRoute modid cmdid true fails route clock ret _ =>
    match shardOf modid cmdid with
    | .error e => .error e
    | .ok index =>
      match (s.desk.agent.rLb index).getRoute env.cfg clock.now modid cmdid
          (getRouteCb ⟨modid, cmdid⟩ []) with
      | .error e => .error e
      | .ok reply =>
        let desk := { s.desk with agent := s.desk.agent.called index reply.next reply.sent }
        let answer := Answer.route reply.rsp
        let size := (answer.body env.runtime).length
        if size > messageLengthLimit then
          (s.session.routeUnanswered modid cmdid fails route).map fun session => ⟨desk, session⟩
        else if size + messageHeadLen > messageLengthLimit then .error .outOfBounds
        else if ret = -1 then
          (s.session.routeUnanswered modid cmdid fails route).map fun session => ⟨desk, session⟩
        else
          (s.session.step (.getRoute modid cmdid fails reply.rsp.host route)).map fun session =>
            ⟨{ desk with answers := desk.answers ++ [(index, env.addr index, answer)] }, session⟩
  | .report modid cmdid ip port retcode sent clock ret _ =>
    match LarsClient.report env.inetAton modid cmdid ip port retcode with
    | .error e => .error e
    | .ok (index, req) =>
      if sent = false then .ok s
      else
        (s.desk.serve env.runtime env.cfg clock ret index (env.addr index) (.report req)).map
          fun desk => { s with desk }
  | .other op => (s.desk.step env.runtime env.cfg env.left op).map fun desk => { s with desk }

end DeskSession

/-! ### One call -/

/-- A request as one datagram. -/
def Wire.framed [Message M] (rt : Runtime) (msgid : Int32) (req : M) : List UInt8 :=
  msgCodec.encode msgid (Message.serialize rt req).length ++ Message.serialize rt req

theorem Wire.pack_eq {rt : Runtime} [Message M] (sized : Proto.Sized rt M) (msgid : Int32)
    (req : M) (stack : Stack)
    (small : (Message.serialize rt req).length + messageHeadLen ≤ writeBufLen) :
    Wire.pack rt msgid req stack.writeBuf = .ok (framed rt msgid req) := by
  have total := message_length msgid (Message.serialize rt req)
  unfold Wire.pack framed
  simp only [sized req]
  rw [if_pos (by rw [total, stack.writeBuf_length]; exact small), ← total, List.take_left]

/-- What a read gives, by the datagram's own bytes. -/
def seen [Message M] (rt : Runtime) (msgid : Int32) (d : Recvfrom) : Received M :=
  match d with
  | none => .failed
  | some bytes =>
    let got := bytes.take readBufLen
    if int32OfBytes (got.take 4) ≠ msgid then .otherMessage
    else
      match parseFromArray rt (got.drop messageHeadLen) with
      | none => .malformed
      | some rsp => .answer rsp

def Headed (d : Recvfrom) : Prop := ∀ bytes, d = some bytes → messageHeadLen ≤ bytes.length

/-- With a whole head no stale byte of `read_buf` counts. -/
theorem Wire.receive_eq [Message M] (rt : Runtime) (msgid : Int32) {d : Recvfrom}
    (headed : Headed d) (readBuf : List UInt8) :
    ∃ next, Wire.receive (M := M) rt msgid d readBuf = .ok (seen rt msgid d, next) := by
  cases d with
  | none => exact ⟨readBuf, rfl⟩
  | some bytes =>
    have long : messageHeadLen ≤ (bytes.take readBufLen).length := by
      have whole := headed bytes rfl
      have room : messageHeadLen ≤ readBufLen := by decide
      rw [List.length_take]
      omega
    have four : 4 ≤ (bytes.take readBufLen).length := Nat.le_trans (by decide) long
    simp only [Wire.receive, seen, List.take_append_of_le_length four,
      if_neg (Nat.not_lt.mpr long)]
    split
    · exact ⟨_, rfl⟩
    · split <;> exact ⟨_, rfl⟩

theorem Wire.awaitHost_eq (rt : Runtime) (seq : UInt32) {q : List Recvfrom}
    (headed : ∀ d ∈ q, Headed d) (readBuf : List UInt8) :
    ∃ unread, Wire.awaitHost rt seq q readBuf =
        .ok ((LarsClient.awaitHost seq (q.map (seen rt idGetHostResponse))).1, unread) ∧
      unread.length =
        (LarsClient.awaitHost seq (q.map (seen rt idGetHostResponse))).2.length := by
  induction q generalizing readBuf with
  | nil => exact ⟨[], rfl, rfl⟩
  | cons d q ih =>
    obtain ⟨next, got⟩ :=
      Wire.receive_eq (M := Proto.GetHostResponse) rt idGetHostResponse
        (headed d List.mem_cons_self) readBuf
    have later := ih (fun d member => headed d (List.mem_cons_of_mem _ member)) next
    simp only [Wire.awaitHost, got, List.map_cons]
    cases seen (M := Proto.GetHostResponse) rt idGetHostResponse d with
    | failed => exact ⟨q, rfl, (List.length_map ..).symm⟩
    | otherMessage => exact ⟨q, rfl, (List.length_map ..).symm⟩
    | malformed => exact ⟨q, rfl, (List.length_map ..).symm⟩
    | answer rsp =>
      simp only [LarsClient.awaitHost]
      split
      · exact later
      · exact ⟨q, rfl, (List.length_map ..).symm⟩

/-- What `get_host` makes of the end of its loop. -/
def hostResult (seq : UInt32) (modid cmdid : Int32)
    (awaited : Option (Except Int32 Proto.GetHostResponse)) :
    Option (Int32 × Option (String × Int32)) :=
  awaited.map fun
    | .error ret => (ret, none)
    | .ok rsp => LarsClient.takeHost seq modid cmdid rsp

/-- What `get_route` makes of its only read. -/
def routeResult (modid cmdid : Int32) (route : List (String × Int32))
    (read : Option (Received Proto.GetRouteResponse)) :
    Option (Int32 × List (String × Int32)) :=
  read.map (routeEnd modid cmdid route)

section sessions

variable {modid cmdid : Int32} {index : Fin 3}

theorem LarsClient.getHost_eq (shard : shardOf modid cmdid = .ok index)
    (incoming : Fin 3 → List (Received Proto.GetHostResponse)) (c : LarsClient) :
    c.getHost modid cmdid true incoming =
      .ok (⟨index, ⟨c.seqid, modid, cmdid⟩,
        hostResult c.seqid modid cmdid (awaitHost c.seqid (incoming index)).1,
        (awaitHost c.seqid (incoming index)).2⟩, ⟨c.seqid + 1⟩) := by
  simp only [LarsClient.getHost, shard, Bool.true_eq_false, ↓reduceIte]
  generalize awaitHost c.seqid (incoming index) = awaited
  obtain ⟨ended, unread⟩ := awaited
  cases ended with
  | none => rfl
  | some ending => cases ending <;> rfl

theorem LarsClient.getRoute_eq (shard : shardOf modid cmdid = .ok index)
    (incoming : Fin 3 → List (Received Proto.GetRouteResponse)) (route : List (String × Int32)) :
    LarsClient.getRoute modid cmdid true incoming route =
      .ok ⟨index, ⟨modid, cmdid⟩, routeResult modid cmdid route (incoming index).head?,
        (incoming index).tail⟩ := by
  simp only [LarsClient.getRoute, shard, Bool.true_eq_false, ↓reduceIte]
  cases incoming index with
  | nil => rfl
  | cons r unread => cases r <;> rfl

end sessions

section calls

variable {rt : Runtime} (documented : rt.Documented)

include documented

theorem getHostRequest_small (req : Proto.GetHostRequest) :
    (Message.serialize rt req).length + messageHeadLen ≤ writeBufLen := by
  have seq := Proto.uint32Field_length_le documented (show Small 1 by decide) req.seq
  have modid := Proto.int32Field_length_le documented (show Small 2 by decide) req.modid
  have cmdid := Proto.int32Field_length_le documented (show Small 3 by decide) req.cmdid
  simp only [Message.serialize, List.length_append, messageHeadLen, writeBufLen]
  omega

theorem getRouteRequest_small (req : Proto.GetRouteRequest) :
    (Message.serialize rt req).length + messageHeadLen ≤ writeBufLen := by
  have modid := Proto.int32Field_length_le documented (show Small 1 by decide) req.modid
  have cmdid := Proto.int32Field_length_le documented (show Small 2 by decide) req.cmdid
  simp only [Message.serialize, List.length_append, messageHeadLen, writeBufLen]
  omega

theorem reportRequest_small (req : Proto.ReportRequest) :
    (Message.serialize rt req).length + messageHeadLen ≤ writeBufLen := by
  have modid := Proto.int32Field_length_le documented (show Small 1 by decide) req.modid
  have cmdid := Proto.int32Field_length_le documented (show Small 2 by decide) req.cmdid
  have host := (Proto.hostField_length documented (show Small 3 by decide) req.host).2
  have retcode := Proto.int32Field_length_le documented (show Small 4 by decide) req.retcode
  simp only [Message.serialize, List.length_append, messageHeadLen, writeBufLen] at host ⊢
  omega

/-- An answer to `get_host` always fits. -/
theorem getHostResponse_small (rsp : Proto.GetHostResponse) :
    ((Answer.host rsp).body rt).length + messageHeadLen ≤ messageLengthLimit := by
  have seq := Proto.uint32Field_length_le documented (show Small 1 by decide) rsp.seq
  have modid := Proto.int32Field_length_le documented (show Small 2 by decide) rsp.modid
  have cmdid := Proto.int32Field_length_le documented (show Small 3 by decide) rsp.cmdid
  have retcode := Proto.int32Field_length_le documented (show Small 4 by decide) rsp.retcode
  have host : (rsp.host.toList.flatMap (Proto.messageField rt 5)).length ≤ 24 := by
    cases rsp.host with
    | none => exact Nat.zero_le 24
    | some h =>
      rw [Option.toList_some, List.flatMap_singleton]
      exact (Proto.hostField_length documented (show Small 5 by decide) h).2
  simp only [Answer.body, Message.serialize, List.length_append, messageHeadLen,
    messageLengthLimit] at host ⊢
  omega

theorem Wire.pack_getHost (req : Proto.GetHostRequest) (stack : Stack) :
    Wire.pack rt idGetHostRequest req stack.writeBuf = .ok (framed rt idGetHostRequest req) :=
  Wire.pack_eq (Proto.sized_getHostRequest documented) _ _ stack
    (getHostRequest_small documented req)

theorem Wire.pack_getRoute (req : Proto.GetRouteRequest) (stack : Stack) :
    Wire.pack rt idApiGetRouteRequest req stack.writeBuf =
      .ok (framed rt idApiGetRouteRequest req) :=
  Wire.pack_eq (Proto.sized_getRouteRequest documented) _ _ stack
    (getRouteRequest_small documented req)

theorem Wire.pack_report (req : Proto.ReportRequest) (stack : Stack) :
    Wire.pack rt idReportRequest req stack.writeBuf = .ok (framed rt idReportRequest req) :=
  Wire.pack_eq (Proto.sized_reportRequest documented) _ _ stack
    (reportRequest_small documented req)

variable {modid cmdid : Int32} {index : Fin 3} {sendto : Sendto σ} {world : σ} {q : List Recvfrom}

theorem Wire.getHost_eq (shard : shardOf modid cmdid = .ok index) (stack : Stack) (c : LarsClient)
    (sent : sendto index
      (framed rt idGetHostRequest (⟨c.seqid, modid, cmdid⟩ : Proto.GetHostRequest)) =
        .ok (world, some q))
    (headed : ∀ d ∈ q, Headed d) :
    Wire.getHost rt modid cmdid sendto stack c =
      .ok (world, ⟨index,
        hostResult c.seqid modid cmdid
          (LarsClient.awaitHost c.seqid (q.map (seen rt idGetHostResponse))).1,
        q.length - (LarsClient.awaitHost c.seqid (q.map (seen rt idGetHostResponse))).2.length⟩,
        ⟨c.seqid + 1⟩) := by
  obtain ⟨unread, awaited, length⟩ := Wire.awaitHost_eq rt c.seqid headed stack.readBuf
  simp only [Wire.getHost, Wire.pack_getHost documented, shard, sent, awaited, ← length]
  generalize (LarsClient.awaitHost c.seqid (q.map (seen rt idGetHostResponse))).1 = ended
  cases ended with
  | none => rfl
  | some ending => cases ending <;> rfl

theorem Wire.getRoute_eq (shard : shardOf modid cmdid = .ok index) (stack : Stack)
    (route : List (String × Int32))
    (sent : sendto index
      (framed rt idApiGetRouteRequest (⟨modid, cmdid⟩ : Proto.GetRouteRequest)) =
        .ok (world, some q))
    (headed : ∀ d ∈ q, Headed d) :
    Wire.getRoute rt modid cmdid sendto stack route =
      .ok (world, ⟨index,
        routeResult modid cmdid route (q.map (seen rt idApiGetRouteResponse)).head?,
        q.length -
          (q.map (seen (M := Proto.GetRouteResponse) rt idApiGetRouteResponse)).tail.length⟩) := by
  simp only [Wire.getRoute, Wire.pack_getRoute documented, shard, sent]
  cases q with
  | nil => rfl
  | cons d rest =>
    obtain ⟨next, got⟩ :=
      Wire.receive_eq (M := Proto.GetRouteResponse) rt idApiGetRouteResponse
        (headed d List.mem_cons_self) stack.readBuf
    have one : (d :: rest).length - rest.length = 1 := by
      rw [List.length_cons]
      omega
    simp only [got, List.map_cons, List.head?_cons, List.tail_cons, List.length_map, one]
    cases seen (M := Proto.GetRouteResponse) rt idApiGetRouteResponse d <;> rfl

end calls

/-! ### The datagrams of a session -/

namespace Answer

variable {rt : Runtime}

def Fits (rt : Runtime) (a : Answer) : Prop :=
  (a.body rt).length + messageHeadLen ≤ messageLengthLimit

theorem datagram_length (a : Answer) :
    (a.datagram rt).length = (a.body rt).length + messageHeadLen :=
  message_length a.msgid (a.body rt)

theorem seen_datagram [Message M] (msgid : Int32) {a : Answer} (fits : a.Fits rt) :
    seen (M := M) rt msgid (some (a.datagram rt)) =
      if a.msgid ≠ msgid then .otherMessage
      else
        match parseFromArray rt (a.body rt) with
        | none => .malformed
        | some rsp => .answer rsp := by
  have whole : (a.datagram rt).take readBufLen = a.datagram rt := by
    apply List.take_of_length_le
    rw [datagram_length]
    exact fits.trans (by decide)
  have id : int32OfBytes ((a.datagram rt).take 4) = a.msgid := int32OfBytes_bytesOfInt32 a.msgid
  have body : (a.datagram rt).drop messageHeadLen = a.body rt := rfl
  simp only [seen, whole, id, body]

/-- The two kinds of answers have their own ids and are parsed as they were sent. -/
theorem seen_asHost (documented : rt.Documented) {d : Datagram} (fits : d.answer.Fits rt) :
    seen rt idGetHostResponse (some (d.answer.datagram rt)) = d.asHost := by
  rw [seen_datagram idGetHostResponse fits, Datagram.asHost]
  cases d.answer with
  | host rsp => simp only [msgid, body, (Proto.roundTrips_getHostResponse documented).same, ne_eq,
      not_true_eq_false, ↓reduceIte]
  | route rsp => rfl

theorem seen_asRoute (documented : rt.Documented) {d : Datagram} (fits : d.answer.Fits rt) :
    seen rt idApiGetRouteResponse (some (d.answer.datagram rt)) = d.asRoute := by
  rw [seen_datagram idApiGetRouteResponse fits, Datagram.asRoute]
  cases d.answer with
  | host rsp => rfl
  | route rsp => simp only [msgid, body, (Proto.roundTrips_getRouteResponse documented).same,
      ne_eq, not_true_eq_false, ↓reduceIte]

end Answer

/-- The bytes that wait on a socket. -/
def bytesOf (rt : Runtime) (ds : List Datagram) : List (List UInt8) :=
  ds.map fun d => d.answer.datagram rt

section datagrams

variable {rt : Runtime}

theorem recvfroms_headed (fails : Option Nat) (ds : List Datagram) :
    ∀ d ∈ recvfroms fails (bytesOf rt ds), Headed d := by
  rintro d member bytes rfl
  have sent : bytes ∈ bytesOf rt ds := by
    cases fails with
    | none => simpa [recvfroms] using member
    | some k =>
      simp only [recvfroms, List.mem_append, List.mem_map, List.mem_cons, Option.some.injEq,
        exists_eq_right, reduceCtorEq, false_or] at member
      exact member.elim List.mem_of_mem_take List.mem_of_mem_drop
  obtain ⟨d, -, rfl⟩ := List.mem_map.mp sent
  rw [Answer.datagram_length]
  exact Nat.le_add_left ..

theorem map_recvfroms {ρ : Type} {read : Datagram → Received ρ} {see : Recvfrom → Received ρ}
    (failed : see none = .failed) (fails : Option Nat) {ds : List Datagram}
    (same : ∀ d ∈ ds, see (some (d.answer.datagram rt)) = read d) :
    (recvfroms fails (bytesOf rt ds)).map see = recvs read fails ds := by
  have all {part : List Datagram} (within : part ⊆ ds) :
      ((bytesOf rt part).map some).map see = part.map read := by
    simp only [bytesOf, List.map_map]
    exact List.map_congr_left fun d member => same d (within member)
  cases fails with
  | none => exact all (List.Subset.refl ds)
  | some k =>
    have front := all (List.take_subset k ds)
    have back := all (List.drop_subset k ds)
    simp only [bytesOf, List.map_take, List.map_drop] at front back
    simp only [recvfroms, recvs, bytesOf, List.map_append, List.map_cons, List.map_take,
      List.map_drop, failed]
    rw [front, back]

theorem recvfroms_length {ρ : Type} (read : Datagram → Received ρ) (fails : Option Nat)
    (ds : List Datagram) :
    (recvfroms fails (bytesOf rt ds)).length = (recvs read fails ds).length := by
  cases fails with
  | none => simp only [recvfroms, recvs, bytesOf, List.length_map]
  | some k =>
    simp only [recvfroms, recvs, bytesOf, List.length_append, List.length_cons, List.length_map,
      List.length_take, List.length_drop]

theorem remaining_bytesOf (fails : Option Nat) (ds : List Datagram) (count : Nat) :
    remaining fails (bytesOf rt ds) count = bytesOf rt (settle fails ds count).1 := by
  unfold remaining settle bytesOf
  split <;> simp only [List.map_drop]

theorem settle_subset (fails : Option Nat) (q : List Datagram) (count : Nat) :
    (settle fails q count).1 ⊆ q := by
  unfold settle
  split <;> exact List.drop_subset _ q

theorem remaining_zero {δ : Type} (fails : Option Nat) (q : List δ) : remaining fails q 0 = q := by
  unfold remaining
  split <;> rfl

end datagrams

end Lars.Api
