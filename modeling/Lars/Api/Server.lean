import Lars.Api.Pairing
import Lars.Codec
import Lars.Reactor.Router
import Lars.Reactor.Udp

/-!
# The UDP servers of the agent

Each of the three servers has a socket, a router with the callbacks of
`agent_udp_server.cpp` and one of the route tables. A callback reads its request
from the bytes at `data`, calls `route_lb` and sends what it has filled in as
one datagram.

`Desk` is the same agent at the level of messages: a datagram is the request it
holds, or nothing, and an answer is a message with an address.
-/
namespace Lars.Api

open Reactor
open Agent (Config RouteLb LbAgent LbAgentStep)
open Proto (Message parseFromArray)
open Protobuf (Runtime)

variable {α : Type}

def idGetHostRequest : Int32 := 4
def idGetHostResponse : Int32 := 5
def idReportRequest : Int32 := 6
def idApiGetRouteRequest : Int32 := 7
def idApiGetRouteResponse : Int32 := 8

/-- The three callbacks of `agent_udp_server.cpp`. -/
inductive Handler where
  | getHostCb
  | reportCb
  | getRouteCb
  deriving DecidableEq

/-- The router of a server as `agent_server_main` sets it up; the argument is the place of its
table in `r_lb`. -/
def agentRouter (server : Fin 3) : MsgRouter Handler (Fin 3) :=
  let r := MsgRouter.init
  let r := (r.registerMsgRouter idGetHostRequest .getHostCb server).2
  let r := (r.registerMsgRouter idReportRequest .reportCb server).2
  (r.registerMsgRouter idApiGetRouteRequest .getRouteCb server).2

/-- What `ParseFromArray` leaves in a request where it returns false: the callbacks do not look at
what it returns. -/
structure Leftover where
  getHost : List UInt8 → Proto.GetHostRequest
  report : List UInt8 → Proto.ReportRequest
  getRoute : List UInt8 → Proto.GetRouteRequest

/-- The request as a callback finds it after `ParseFromArray`. -/
def parsed {M : Type} [Message M] (rt : Runtime) (left : List UInt8 → M) (data : List UInt8) : M :=
  (parseFromArray rt data).getD (left data)

/-- The clock readings of one call: `now` for the table, `ts` for a host that becomes overloaded or
idle, `tc` for the status report. -/
structure Clock where
  now : Int
  ts : Int
  tc : Int

/-- The agent, the sockets of its servers, what has gone to `report_queue`, and the datagrams that
were sent, each with its server. -/
structure UdpAgent (α : Type) where
  agent : LbAgent
  sockets : Fin 3 → UdpSocket α
  reportQueue : List Proto.ReportStatusRequest
  sent : List (Fin 3 × Sent α)

inductive UdpAgentStep (α : Type) where
  /-- A datagram that `do_read` takes; `sendto` returns `ret` for the answer. -/
  | recv (server : Fin 3) (src : α) (bytes : List UInt8) (clock : Clock) (ret : Int)
  /-- The thread that talks to the DNS. -/
  | dns (op : LbAgentStep)

namespace UdpAgent

def setSocket (server : Fin 3) (socket : UdpSocket α) (s : UdpAgent α) : UdpAgent α :=
  { s with sockets := Function.update s.sockets server socket }

/-- `conn->send_message` in a callback of the server. -/
def sendMessage (server : Fin 3) (data : List UInt8) (msgid : Int32) (ret : Int) (s : UdpAgent α) :
    Except Fault (UdpAgent α) :=
  (UdpServer.sendMessage data msgid ret (s.sockets server)).map fun (ret, given, socket) =>
    { s.setSocket server socket with
      sent := s.sent ++ (leaving ret given).toList.map fun d => (server, d) }

variable (rt : Runtime) (cfg : Config) (left : Leftover) (clock : Clock) (ret : Int)

def getHostCb (server table : Fin 3) (data : List UInt8) (s : UdpAgent α) :
    Except Fault (UdpAgent α) :=
  let req := parsed rt left.getHost data
  let rsp : Proto.GetHostResponse := ⟨req.seq, req.modid, req.cmdid, 0, none⟩
  match (s.agent.rLb table).getHost cfg clock.now req.modid req.cmdid rsp with
  | .error e => .error e
  | .ok reply =>
    { s with agent := s.agent.called table reply.next reply.sent }.sendMessage server
      (Message.serialize rt reply.rsp) idGetHostResponse ret

def reportCb (table : Fin 3) (data : List UInt8) (s : UdpAgent α) : Except Fault (UdpAgent α) :=
  let req := parsed rt left.report data
  match (s.agent.rLb table).reportHost cfg clock.now clock.ts clock.tc req with
  | .error e => .error e
  | .ok (status, next) =>
    .ok { s with
      agent := s.agent.called table next []
      reportQueue := s.reportQueue ++ status.toList }

def getRouteCb (server table : Fin 3) (data : List UInt8) (s : UdpAgent α) :
    Except Fault (UdpAgent α) :=
  let req := parsed rt left.getRoute data
  let rsp : Proto.GetRouteResponse := ⟨req.modid, req.cmdid, []⟩
  match (s.agent.rLb table).getRoute cfg clock.now req.modid req.cmdid rsp with
  | .error e => .error e
  | .ok reply =>
    { s with agent := s.agent.called table reply.next reply.sent }.sendMessage server
      (Message.serialize rt reply.rsp) idApiGetRouteResponse ret

/-- One round of the loop of `do_read` with what `recvfrom` has put into the array. -/
def recv (server : Fin 3) (src : α) (bytes : List UInt8) (s : UdpAgent α) :
    Except Fault (UdpAgent α) :=
  let socket := (s.sockets server).store .server src bytes
  let s := s.setSocket server socket
  match socket.dispatch (cut bytes).length with
  | none => .ok s
  | some call =>
    match (agentRouter server).call call.msgid with
    | none => .ok s
    | some (.getHostCb, table) => s.getHostCb rt cfg left clock ret server table call.data
    | some (.reportCb, table) => s.reportCb rt cfg left clock table call.data
    | some (.getRouteCb, table) => s.getRouteCb rt cfg left clock ret server table call.data

def step (s : UdpAgent α) : UdpAgentStep α → Except Fault (UdpAgent α)
  | .recv server src bytes clock ret => s.recv rt cfg left clock ret server src bytes
  | .dns op => (s.agent.step cfg op).map fun agent => { s with agent }

end UdpAgent

/-! ### The level of messages -/

inductive Request where
  | getHost (req : Proto.GetHostRequest)
  | report (req : Proto.ReportRequest)
  | getRoute (req : Proto.GetRouteRequest)

/-- The request that a datagram holds, by its own bytes. -/
def requestOf (rt : Runtime) (left : Leftover) (bytes : List UInt8) : Option Request :=
  match judged (cut bytes) with
  | none => none
  | some call =>
    if call.msgid = idGetHostRequest then some (.getHost (parsed rt left.getHost call.data))
    else if call.msgid = idReportRequest then some (.report (parsed rt left.report call.data))
    else if call.msgid = idApiGetRouteRequest then
      some (.getRoute (parsed rt left.getRoute call.data))
    else none

namespace Answer

def msgid : Answer → Int32
  | .host _ => idGetHostResponse
  | .route _ => idApiGetRouteResponse

def body (rt : Runtime) : Answer → List UInt8
  | .host rsp => Message.serialize rt rsp
  | .route rsp => Message.serialize rt rsp

/-- The answer as one datagram. -/
def datagram (rt : Runtime) (a : Answer) : List UInt8 :=
  msgCodec.encode a.msgid (a.body rt).length ++ a.body rt

end Answer

/-- The agent without its sockets, and the answers it has given: by which server, and to whom. -/
structure Desk (α : Type) where
  agent : LbAgent
  reportQueue : List Proto.ReportStatusRequest
  answers : List (Fin 3 × α × Answer)

namespace Desk

/-- An answer that is too long is dropped, and so is one that `sendto` returns -1 for; one that is
too long only with its head does not fit the array it is put together in. -/
def answer (rt : Runtime) (server : Fin 3) (src : α) (a : Answer) (ret : Int) (s : Desk α) :
    Except Fault (Desk α) :=
  if (a.body rt).length > messageLengthLimit then .ok s
  else if (a.body rt).length + messageHeadLen > messageLengthLimit then .error .outOfBounds
  else if ret = -1 then .ok s
  else .ok { s with answers := s.answers ++ [(server, src, a)] }

variable (rt : Runtime) (cfg : Config) (left : Leftover) (clock : Clock) (ret : Int)

def serve (server : Fin 3) (src : α) (s : Desk α) : Request → Except Fault (Desk α)
  | .getHost req =>
    match (s.agent.rLb server).getHost cfg clock.now req.modid req.cmdid
        (Api.getHostCb req 0 none) with
    | .error e => .error e
    | .ok reply =>
      { s with agent := s.agent.called server reply.next reply.sent }.answer rt server src
        (.host reply.rsp) ret
  | .report req =>
    match (s.agent.rLb server).reportHost cfg clock.now clock.ts clock.tc req with
    | .error e => .error e
    | .ok (status, next) =>
      .ok { s with
        agent := s.agent.called server next []
        reportQueue := s.reportQueue ++ status.toList }
  | .getRoute req =>
    match (s.agent.rLb server).getRoute cfg clock.now req.modid req.cmdid
        (Api.getRouteCb req []) with
    | .error e => .error e
    | .ok reply =>
      { s with agent := s.agent.called server reply.next reply.sent }.answer rt server src
        (.route reply.rsp) ret

def step (s : Desk α) : UdpAgentStep α → Except Fault (Desk α)
  | .recv server src bytes clock ret =>
    match requestOf rt left bytes with
    | none => .ok s
    | some req => s.serve rt cfg clock ret server src req
  | .dns op => (s.agent.step cfg op).map fun agent => { s with agent }

end Desk

/-! ### The servers and the desk -/

theorem agentRouter_call (server : Fin 3) (msgid : Int32) :
    (agentRouter server).call msgid =
      if msgid = idGetHostRequest then some (.getHostCb, server)
      else if msgid = idReportRequest then some (.reportCb, server)
      else if msgid = idApiGetRouteRequest then some (.getRouteCb, server)
      else none := by
  simp only [agentRouter, MsgRouter.call_registerMsgRouter, MsgRouter.call_init]
  by_cases host : msgid = idGetHostRequest
  · subst host
    rfl
  · by_cases report : msgid = idReportRequest
    · subst report
      rfl
    · by_cases route : msgid = idApiGetRouteRequest
      · subst route
        rfl
      · simp only [if_neg host, if_neg report, if_neg route]

/-- The datagram of an answer that a server has sent. -/
def dispatched (rt : Runtime) (entry : Fin 3 × α × Answer) : Fin 3 × Sent α :=
  (entry.1, ⟨some entry.2.1, entry.2.2.datagram rt⟩)

/-- The two levels know the same tables and status reports, and what was sent are the answers. -/
structure Serves (rt : Runtime) (s : UdpAgent α) (d : Desk α) : Prop where
  agent : s.agent = d.agent
  reportQueue : s.reportQueue = d.reportQueue
  sent : s.sent = d.answers.map (dispatched rt)

theorem Serves.withAgent {rt : Runtime} {s : UdpAgent α} {d : Desk α} (serves : Serves rt s d)
    (agent : LbAgent) : Serves rt { s with agent } { d with agent } :=
  ⟨rfl, serves.reportQueue, serves.sent⟩

/-- An answer that fits goes to where the last datagram came from. -/
theorem sendMessage_fits {data : List UInt8} (msgid : Int32) (ret : Int) (s : UdpSocket α)
    (fits : data.length + messageHeadLen ≤ messageLengthLimit) :
    ∃ s', UdpServer.sendMessage data msgid ret s =
      .ok (ret, some ⟨some s.clientAddr, msgCodec.encode msgid data.length ++ data⟩, s') := by
  obtain ⟨dest, s', sent⟩ := udpSend_fits .server msgid ret s fits
  have admitted : ¬data.length > messageLengthLimit := by omega
  have room : (msgCodec.encode msgid data.length ++ data).length ≤ s.writeBuf.length := by
    rw [message_length, s.writeBuf_length]
    exact fits
  have caller : dest = some s.clientAddr := by
    have taken := sent
    rw [udpSend.eq_def, if_neg admitted] at taken
    dsimp only at taken
    rw [dif_pos room] at taken
    have dests := congrArg (fun out => out.2.1.map Sent.dest) (Except.ok.inj taken)
    exact (Option.some.inj dests).symm
  subst caller
  exact ⟨s', sent⟩

/-- `send_message` after a datagram from `src` has been stored. -/
theorem sendMessage_agrees {rt : Runtime} {s : UdpAgent α} {d : Desk α} (serves : Serves rt s d)
    (server : Fin 3) (src : α) (caller : (s.sockets server).clientAddr = src) (a : Answer)
    (ret : Int) :
    Run.Agree (Serves rt) (s.sendMessage server (a.body rt) a.msgid ret)
      (d.answer rt server src a ret) := by
  unfold UdpAgent.sendMessage Desk.answer
  split
  next refused =>
    have dropped : UdpServer.sendMessage (a.body rt) a.msgid ret (s.sockets server) =
        .ok (-1, none, s.sockets server) := by
      rw [UdpServer.sendMessage, udpSend.eq_def, if_pos refused]
    rw [dropped]
    constructor
    · exact serves.agent
    · exact serves.reportQueue
    · exact (List.append_nil s.sent).trans serves.sent
  next admitted =>
    split
    next long =>
      have overrun : UdpServer.sendMessage (a.body rt) a.msgid ret (s.sockets server) =
          .error .outOfBounds :=
        udpSend_overrun .server a.msgid ret (s.sockets server) (Nat.not_lt.mp admitted) long
      rw [overrun]
      rfl
    next fits =>
      obtain ⟨socket, sent⟩ :=
        sendMessage_fits a.msgid ret (s.sockets server) (Nat.not_lt.mp fits)
      rw [sent, caller]
      split
      next failed =>
        simp only [Except.map, leaving, if_pos failed]
        constructor
        · exact serves.agent
        · exact serves.reportQueue
        · exact (List.append_nil s.sent).trans serves.sent
      next left =>
        simp only [Except.map, leaving, if_neg left]
        constructor
        · exact serves.agent
        · exact serves.reportQueue
        · change s.sent ++ [_] = _
          rw [serves.sent, List.map_append]
          rfl

section callbacks

variable {rt : Runtime} (cfg : Config) (left : Leftover) (clock : Clock) (ret : Int)
  {server : Fin 3} {src : α} {s : UdpAgent α} {d : Desk α}

theorem getHostCb_agrees (serves : Serves rt s d) (caller : (s.sockets server).clientAddr = src)
    (data : List UInt8) :
    Run.Agree (Serves rt) (s.getHostCb rt cfg left clock ret server server data)
      (d.serve rt cfg clock ret server src (.getHost (parsed rt left.getHost data))) := by
  simp only [UdpAgent.getHostCb, Desk.serve, Api.getHostCb, serves.agent]
  split
  next => rfl
  next reply _ =>
    have called := serves.withAgent (d.agent.called server reply.next reply.sent)
    exact sendMessage_agrees called server src caller (.host reply.rsp) ret

theorem reportCb_agrees (serves : Serves rt s d) (data : List UInt8) :
    Run.Agree (Serves rt) (s.reportCb rt cfg left clock server data)
      (d.serve rt cfg clock ret server src (.report (parsed rt left.report data))) := by
  simp only [UdpAgent.reportCb, Desk.serve, serves.agent]
  split
  next => rfl
  next status next _ =>
    constructor
    · rfl
    · exact congrArg (· ++ status.toList) serves.reportQueue
    · exact serves.sent

theorem getRouteCb_agrees (serves : Serves rt s d) (caller : (s.sockets server).clientAddr = src)
    (data : List UInt8) :
    Run.Agree (Serves rt) (s.getRouteCb rt cfg left clock ret server server data)
      (d.serve rt cfg clock ret server src (.getRoute (parsed rt left.getRoute data))) := by
  simp only [UdpAgent.getRouteCb, Desk.serve, Api.getRouteCb, serves.agent]
  split
  next => rfl
  next reply _ =>
    have called := serves.withAgent (d.agent.called server reply.next reply.sent)
    exact sendMessage_agrees called server src caller (.route reply.rsp) ret

/-- The callbacks find the request that the datagram holds, and the address it came from. -/
theorem recv_agrees (server : Fin 3) (src : α) (serves : Serves rt s d) (bytes : List UInt8) :
    Run.Agree (Serves rt) (s.recv rt cfg left clock ret server src bytes)
      (d.step rt cfg left (.recv server src bytes clock ret)) := by
  have stored : Serves rt (s.setSocket server ((s.sockets server).store .server src bytes)) d :=
    ⟨serves.agent, serves.reportQueue, serves.sent⟩
  have caller : ((s.setSocket server ((s.sockets server).store .server src bytes)).sockets
      server).clientAddr = src := by
    simp only [UdpAgent.setSocket, Function.update_self]
    rfl
  simp only [UdpAgent.recv, Desk.step, requestOf, dispatch_store]
  cases judged (cut bytes) with
  | none => exact stored
  | some call =>
    dsimp only
    rw [agentRouter_call]
    by_cases host : call.msgid = idGetHostRequest
    · simp only [if_pos host]
      exact getHostCb_agrees cfg left clock ret stored caller call.data
    · by_cases report : call.msgid = idReportRequest
      · simp only [if_neg host, if_pos report]
        exact reportCb_agrees cfg left clock ret stored call.data
      · by_cases route : call.msgid = idApiGetRouteRequest
        · simp only [if_neg host, if_neg report, if_pos route]
          exact getRouteCb_agrees cfg left clock ret stored caller call.data
        · simp only [if_neg host, if_neg report, if_neg route]
          exact stored

theorem step_agrees (serves : Serves rt s d) (op : UdpAgentStep α) :
    Run.Agree (Serves rt) (s.step rt cfg left op) (d.step rt cfg left op) := by
  cases op with
  | recv server src bytes clock ret => exact recv_agrees cfg left clock ret server src serves bytes
  | dns op =>
    simp only [UdpAgent.step, Desk.step, serves.agent]
    cases d.agent.step cfg op with
    | error e => rfl
    | ok next => exact serves.withAgent next

end callbacks

/-- The agent when its servers start, with any bytes in their arrays. -/
def UdpAgent.init (sockets : Fin 3 → UdpSocket α) : UdpAgent α := ⟨.init, sockets, [], []⟩

def Desk.init : Desk α := ⟨.init, [], []⟩

/-- Whatever datagrams come in, at any server and from anywhere, and whatever the other threads do
in between: the tables, the status reports and the answers are those of the requests that the
datagrams hold, and each answer that `sendto` takes goes as one datagram to where its request came
from. -/
theorem servers_answer_requests (rt : Runtime) (cfg : Config) (left : Leftover)
    (sockets : Fin 3 → UdpSocket α) (ops : List (UdpAgentStep α)) :
    Run.Agree (Serves rt) (Run.run (UdpAgent.step rt cfg left) (.init sockets) ops)
      (Run.run (Desk.step rt cfg left) .init ops) := by
  apply Run.run_agree
  · intro s d op serves
    exact step_agrees cfg left serves op
  · exact ⟨rfl, rfl, rfl⟩

end Lars.Api
