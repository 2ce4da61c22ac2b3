import Lars.Api.Exchange

/-!
# The client and the agent in messages

A run over the wire and the same run in messages: at every step the tables, the
results and what waits on the sockets correspond. From it follows what
`get_host` returns when answers to earlier calls still wait.
-/
namespace Lars.Api

open Reactor
open Agent (Config RouteLb LbAgent shardOf)
open Proto (Message parseFromArray retSystemError)
open Protobuf (Runtime wire wire_documented)

variable {α M : Type}

/-! ### The two systems side by side -/

theorem judged_framed [Message M] {rt : Runtime} (msgid : Int32) {req : M}
    (small : (Message.serialize rt req).length + messageHeadLen ≤ writeBufLen) :
    judged (cut (Wire.framed rt msgid req)) =
      some ⟨msgid, (Message.serialize rt req).length, Message.serialize rt req⟩ := by
  have room : writeBufLen ≤ messageLengthLimit := by decide
  have whole : cut (Wire.framed rt msgid req) = Wire.framed rt msgid req := by
    apply List.take_of_length_le
    rw [Wire.framed, message_length]
    exact small.trans room
  have int : (Message.serialize rt req).length < 2 ^ 31 := by
    simp only [writeBufLen, messageHeadLen] at small
    omega
  rw [whole, Wire.framed, judged_message msgid int]

theorem parsed_serialize [Message M] {rt : Runtime} (trips : Proto.RoundTrips rt M)
    (left : List UInt8 → M) (m : M) : parsed rt left (Message.serialize rt m) = m := by
  rw [parsed, trips.same, Option.getD_some]

/-- The servers read the requests of the client as it has made them. -/
theorem requestOf_framed {rt : Runtime} (documented : rt.Documented) (left : Leftover) :
    (∀ req, requestOf rt left (Wire.framed rt idGetHostRequest req) = some (.getHost req)) ∧
      (∀ req, requestOf rt left (Wire.framed rt idReportRequest req) = some (.report req)) ∧
      ∀ req, requestOf rt left (Wire.framed rt idApiGetRouteRequest req) =
        some (.getRoute req) := by
  refine ⟨fun req => ?_, fun req => ?_, fun req => ?_⟩
  · rw [requestOf, judged_framed _ (getHostRequest_small documented req)]
    dsimp only
    rw [if_pos rfl, parsed_serialize (Proto.roundTrips_getHostRequest documented)]
  · rw [requestOf, judged_framed _ (reportRequest_small documented req)]
    dsimp only
    rw [if_neg (by decide), if_pos rfl,
      parsed_serialize (Proto.roundTrips_reportRequest documented)]
  · rw [requestOf, judged_framed _ (getRouteRequest_small documented req)]
    dsimp only
    rw [if_neg (by decide), if_neg (by decide), if_pos rfl,
      parsed_serialize (Proto.roundTrips_getRouteRequest documented)]

/-- What the client's own request leads to at the desk, and the datagrams that come back. -/
def Delivered (rt : Runtime) (s : WireSession α) (d : Desk α) (fails : Option Nat) (index : Fin 3)
    (addr : α) (x : (UdpAgent α × List (List UInt8)) × Option (List Recvfrom)) (t : Desk α) :
    Prop :=
  Serves rt x.1.1 t ∧ x.2 = some (recvfroms fails x.1.2) ∧
    ∀ entries, t.answers = d.answers ++ entries → (∀ e ∈ entries, e.1 = index ∧ e.2.1 = addr) →
      x.1.2 = s.sockets index ++ entries.map fun e => e.2.2.datagram rt

theorem sendto_agrees [DecidableEq α] (env : Setting α) {s : WireSession α} {d : Desk α}
    (serves : Serves env.runtime s.agent d) (fails : Option Nat) (clock : Clock) (ret : Int)
    (index : Fin 3) {datagram : List UInt8} {req : Request}
    (holds : requestOf env.runtime env.left datagram = some req) :
    Run.Agree (Delivered env.runtime s d fails index (env.addr index))
      (s.sendto env true fails clock ret index datagram)
      (d.serve env.runtime env.cfg clock ret index (env.addr index) req) := by
  have served := recv_agrees env.cfg env.left clock ret index (env.addr index) serves datagram
  simp only [Desk.step, holds] at served
  unfold WireSession.sendto
  rw [if_neg (by decide)]
  rcases served.cases with ⟨e, stopped, stopped'⟩ | ⟨agent, t, done, done', after⟩
  · rw [stopped, stopped']
    rfl
  · rw [done, done']
    refine ⟨after, rfl, ?_⟩
    intro entries answers own
    have new : agent.sent.drop s.agent.sent.length = entries.map (dispatched env.runtime) := by
      rw [after.sent, serves.sent, answers, List.map_append, List.drop_left]
    have all : (entries.map (dispatched env.runtime)).filter
        (fun entry => entry.1 = index ∧ entry.2.dest = some (env.addr index)) =
          entries.map (dispatched env.runtime) := by
      apply List.filter_eq_self.mpr
      intro entry member
      obtain ⟨e, from_desk, rfl⟩ := List.mem_map.mp member
      obtain ⟨server, caller⟩ := own e from_desk
      simp only [dispatched, server, caller, and_self, decide_true]
    simp only [arriving, new, all, List.map_map]
    rfl

/-- The tables, the client, the results and, as bytes, what waits on the sockets are the same. -/
structure Mirrors (rt : Runtime) (w : WireSession α) (m : DeskSession α) : Prop where
  serves : Serves rt w.agent m.desk
  client : w.client = m.session.client
  sockets : ∀ index, w.sockets index = bytesOf rt (m.session.sockets index)
  fit : ∀ index, ∀ d ∈ m.session.sockets index, d.answer.Fits rt
  results : w.results = m.session.log.map (·.result)

/-- `get_host` fills in the rest of the response. -/
theorem getHost_rsp {cfg : Config} {now : Int} {modid cmdid : Int32} {rsp : Proto.GetHostResponse}
    {s : RouteLb} {reply : Agent.Reply Proto.GetHostResponse}
    (done : s.getHost cfg now modid cmdid rsp = .ok reply) :
    reply.rsp = { rsp with retcode := reply.rsp.retcode, host := reply.rsp.host } := by
  unfold RouteLb.getHost at done
  split at done
  · split at done
    · cases done
      rfl
    · split at done
      · cases done
      · cases done
        rfl
  · cases done
    rfl

theorem getRoute_rsp {cfg : Config} {now : Int} {modid cmdid : Int32}
    {rsp : Proto.GetRouteResponse} {s : RouteLb} {reply : Agent.Reply Proto.GetRouteResponse}
    (done : s.getRoute cfg now modid cmdid rsp = .ok reply) :
    reply.rsp = { rsp with host := reply.rsp.host } := by
  unfold RouteLb.getRoute at done
  split at done
  · split at done
    · cases done
    · cases done
      rfl
  · cases done
    rfl

section closing

variable {rt : Runtime} {w : WireSession α} {m : DeskSession α}

/-- A call has returned: it has read some of the datagrams, and the rest waits. -/
theorem Mirrors.closed (mirrors : Mirrors rt w m) {agent : UdpAgent α} {desk : Desk α}
    (serves : Serves rt agent desk) (index : Fin 3) (client : LarsClient) {ds : List Datagram}
    (fits : ∀ d ∈ ds, d.answer.Fits rt) (fails : Option Nat) (count : Nat)
    (result own failure : Outcome) :
    Mirrors rt
      { client
        sockets := Function.update w.sockets index (remaining fails (bytesOf rt ds) count)
        agent
        results := w.results ++ [result] }
      ⟨desk, m.session.close client (Function.update m.session.sockets index ds) index fails count
        result own failure⟩ := by
  have rest_fits : ∀ d ∈ (settle fails ds count).1, d.answer.Fits rt :=
    fun d member => fits d (settle_subset fails ds count member)
  constructor
  · exact serves
  · rfl
  · intro socket
    simp only [Session.close, Function.update_self, Function.update_idem, Function.update_apply]
    split
    · exact remaining_bytesOf fails ds count
    · exact mirrors.sockets socket
  · intro socket
    simp only [Session.close, Function.update_self, Function.update_idem, Function.update_apply]
    split
    · exact rest_fits
    · exact mirrors.fit socket
  · simp only [Session.close, List.map_append, mirrors.results]
    rfl

/-- A call has failed before its first read. -/
theorem Mirrors.unsent (mirrors : Mirrors rt w m) (client : LarsClient) (index : Fin 3)
    (fails : Option Nat) (own failure : Outcome) :
    Mirrors rt
      { client
        sockets := Function.update w.sockets index (remaining fails (w.sockets index) 0)
        agent := w.agent
        results := w.results ++ [failure] }
      { m with session := m.session.unsent client own failure } := by
  constructor
  · exact mirrors.serves
  · rfl
  · intro socket
    simp only [remaining_zero, Function.update_eq_self]
    exact mirrors.sockets socket
  · exact mirrors.fit
  · simp only [Session.unsent, List.map_append, mirrors.results]
    rfl

/-- The answer to the call's own request comes behind what waits on the socket. -/
theorem Mirrors.arrived (mirrors : Mirrors rt w m) (index : Fin 3) {a : Answer}
    (fits : a.Fits rt) :
    w.sockets index ++ [a.datagram rt] =
        bytesOf rt (m.session.sockets index ++ [⟨m.session.log.length, a⟩]) ∧
      ∀ d ∈ m.session.sockets index ++ [⟨m.session.log.length, a⟩], d.answer.Fits rt := by
  constructor
  · rw [mirrors.sockets]
    simp only [bytesOf, List.map_append, List.map_cons, List.map_nil]
  · intro d member
    rcases List.mem_append.mp member with waiting | own
    · exact mirrors.fit index d waiting
    · rw [List.mem_singleton.mp own]
      exact fits

theorem Desk.answer_fits {a : Answer} (fits : a.Fits rt) (server : Fin 3) (src : α) (ret : Int)
    (d : Desk α) :
    d.answer rt server src a ret =
      if ret = -1 then .ok d
      else .ok { d with answers := d.answers ++ [(server, src, a)] } := by
  unfold Answer.Fits at fits
  rw [Desk.answer, if_neg (by omega), if_neg (by omega)]

end closing

section mirrors

variable {env : Setting α} {w : WireSession α} {m : DeskSession α}

/-- The datagrams that a call finds on its socket, with those that its request leads to. -/
theorem Mirrors.answered (mirrors : Mirrors env.runtime w m) {fails : Option Nat} {index : Fin 3}
    {x : (UdpAgent α × List (List UInt8)) × Option (List Recvfrom)} {t : Desk α}
    (delivered : Delivered env.runtime w m.desk fails index (env.addr index) x t) {a : Answer}
    (answers : t.answers = m.desk.answers ++ [(index, env.addr index, a)])
    (fits : a.Fits env.runtime) :
    ∃ agent, x = ((agent, bytesOf env.runtime (m.session.sockets index ++
          [⟨m.session.log.length, a⟩])),
        some (recvfroms fails (bytesOf env.runtime (m.session.sockets index ++
          [⟨m.session.log.length, a⟩])))) ∧ Serves env.runtime agent t := by
  obtain ⟨⟨agent, q⟩, given⟩ := x
  obtain ⟨serves, incoming, arrives⟩ := delivered
  have own := arrives _ answers (by
    intro e member
    rw [List.mem_singleton.mp member]
    exact ⟨rfl, rfl⟩)
  rw [List.map_singleton, (mirrors.arrived index fits).1] at own
  dsimp only at serves incoming own
  subst incoming own
  exact ⟨agent, rfl, serves⟩

theorem Mirrors.unanswered (mirrors : Mirrors env.runtime w m) {fails : Option Nat}
    {index : Fin 3} {x : (UdpAgent α × List (List UInt8)) × Option (List Recvfrom)} {t : Desk α}
    (delivered : Delivered env.runtime w m.desk fails index (env.addr index) x t)
    (answers : t.answers = m.desk.answers) :
    ∃ agent, x = ((agent, bytesOf env.runtime (m.session.sockets index)),
        some (recvfroms fails (bytesOf env.runtime (m.session.sockets index)))) ∧
      Serves env.runtime agent t := by
  obtain ⟨⟨agent, q⟩, given⟩ := x
  obtain ⟨serves, incoming, arrives⟩ := delivered
  have waiting := arrives [] (by rw [answers, List.append_nil]) fun e member => by cases member
  rw [List.map_nil, List.append_nil, mirrors.sockets] at waiting
  dsimp only at serves incoming waiting
  subst incoming waiting
  exact ⟨agent, rfl, serves⟩

variable [DecidableEq α] (documented : env.runtime.Documented)

include documented

/-- `get_host` reads on the socket where the datagrams `ds` have come in. -/
theorem Mirrors.readHost (mirrors : Mirrors env.runtime w m) {agent : UdpAgent α} {desk : Desk α}
    (serves : Serves env.runtime agent desk) {modid cmdid : Int32} {index : Fin 3}
    (shard : shardOf modid cmdid = .ok index) (stack : Stack) {fails : Option Nat} {clock : Clock}
    {ret : Int} {ds : List Datagram} (fits : ∀ d ∈ ds, d.answer.Fits env.runtime)
    (sent : w.sendto env true fails clock ret index (Wire.framed env.runtime idGetHostRequest
        (⟨m.session.client.seqid, modid, cmdid⟩ : Proto.GetHostRequest)) =
      .ok ((agent, bytesOf env.runtime ds), some (recvfroms fails (bytesOf env.runtime ds))))
    (own : Outcome) :
    ∃ t, w.step env (.getHost modid cmdid true fails clock ret stack) = .ok t ∧
      Mirrors env.runtime t ⟨desk, m.session.close ⟨m.session.client.seqid + 1⟩
        (Function.update m.session.sockets index ds) index fails
        ((recvs Datagram.asHost fails ds).length - (LarsClient.awaitHost m.session.client.seqid
          (recvs Datagram.asHost fails ds)).2.length)
        (.host (hostResult m.session.client.seqid modid cmdid
          (LarsClient.awaitHost m.session.client.seqid (recvs Datagram.asHost fails ds)).1)) own
        (.host (some (retSystemError, none)))⟩ := by
  rw [← mirrors.client] at sent ⊢
  have called := Wire.getHost_eq documented shard stack w.client sent (recvfroms_headed fails ds)
  rw [map_recvfroms rfl fails fun d member => Answer.seen_asHost documented (fits d member),
    recvfroms_length Datagram.asHost] at called
  refine ⟨_, by rw [WireSession.step, called]; rfl, ?_⟩
  exact mirrors.closed serves index _ fits fails _ _ _ _

/-- `get_route` reads on the socket where the datagrams `ds` have come in. -/
theorem Mirrors.readRoute (mirrors : Mirrors env.runtime w m) {agent : UdpAgent α} {desk : Desk α}
    (serves : Serves env.runtime agent desk) {modid cmdid : Int32} {index : Fin 3}
    (shard : shardOf modid cmdid = .ok index) (stack : Stack) (route : List (String × Int32))
    {fails : Option Nat} {clock : Clock} {ret : Int} {ds : List Datagram}
    (fits : ∀ d ∈ ds, d.answer.Fits env.runtime)
    (sent : w.sendto env true fails clock ret index (Wire.framed env.runtime idApiGetRouteRequest
        (⟨modid, cmdid⟩ : Proto.GetRouteRequest)) =
      .ok ((agent, bytesOf env.runtime ds), some (recvfroms fails (bytesOf env.runtime ds))))
    (own : Outcome) :
    ∃ t, w.step env (.getRoute modid cmdid true fails route clock ret stack) = .ok t ∧
      Mirrors env.runtime t ⟨desk, m.session.close m.session.client
        (Function.update m.session.sockets index ds) index fails
        ((recvs Datagram.asRoute fails ds).length - (recvs Datagram.asRoute fails ds).tail.length)
        (.route (routeResult modid cmdid route (recvs Datagram.asRoute fails ds).head?)) own
        (.route (some (retSystemError, route)))⟩ := by
  have called := Wire.getRoute_eq documented shard stack route sent (recvfroms_headed fails ds)
  rw [map_recvfroms rfl fails fun d member => Answer.seen_asRoute documented (fits d member),
    recvfroms_length Datagram.asRoute] at called
  refine ⟨_, by rw [WireSession.step, called]; rfl, ?_⟩
  have closed := mirrors.closed serves index m.session.client fits fails
    ((recvs Datagram.asRoute fails ds).length - (recvs Datagram.asRoute fails ds).tail.length)
    (.route (routeResult modid cmdid route (recvs Datagram.asRoute fails ds).head?)) own
    (.route (some (retSystemError, route)))
  rwa [← mirrors.client] at closed ⊢

section host

variable {modid cmdid : Int32} {index : Fin 3} {fails : Option Nat} {clock : Clock} {ret : Int}

/-- The call stops where `sendto` does. -/
theorem Mirrors.getHost_stops (mirrors : Mirrors env.runtime w m)
    (shard : shardOf modid cmdid = .ok index) (stack : Stack) {e : Fault}
    (agree : Run.Agree (Delivered env.runtime w m.desk fails index (env.addr index))
      (w.sendto env true fails clock ret index (Wire.framed env.runtime idGetHostRequest
        (⟨m.session.client.seqid, modid, cmdid⟩ : Proto.GetHostRequest))) (.error e)) :
    w.step env (.getHost modid cmdid true fails clock ret stack) = .error e := by
  rcases agree.cases with ⟨e', stopped, same⟩ | ⟨_, _, _, impossible, _⟩
  · cases same
    simp only [WireSession.step, Wire.getHost, Wire.pack_getHost documented, shard,
      mirrors.client, stopped]
    rfl
  · cases impossible

/-- No answer has left the agent: the call reads what waits on its socket. -/
theorem Mirrors.getHost_unanswered (mirrors : Mirrors env.runtime w m)
    (shard : shardOf modid cmdid = .ok index) (stack : Stack) {desk : Desk α}
    (agree : Run.Agree (Delivered env.runtime w m.desk fails index (env.addr index))
      (w.sendto env true fails clock ret index (Wire.framed env.runtime idGetHostRequest
        (⟨m.session.client.seqid, modid, cmdid⟩ : Proto.GetHostRequest))) (.ok desk))
    (silent : desk.answers = m.desk.answers) :
    Run.Agree (Mirrors env.runtime) (w.step env (.getHost modid cmdid true fails clock ret stack))
      ((m.session.hostUnanswered modid cmdid fails).map fun session => ⟨desk, session⟩) := by
  rcases agree.cases with ⟨_, _, impossible⟩ | ⟨x, t, sent, done, delivered⟩
  · cases impossible
  · cases done
    obtain ⟨agent, rfl, serves⟩ := mirrors.unanswered delivered silent
    obtain ⟨u, taken, after⟩ := mirrors.readHost documented serves shard stack
      (mirrors.fit index) sent (.host none)
    rw [Function.update_eq_self] at after
    rw [taken]
    simp only [Session.hostUnanswered, shard, LarsClient.getHost_eq shard]
    exact after

/-- The answer has left the agent and comes behind what waits on the socket. -/
theorem Mirrors.getHost_answered (mirrors : Mirrors env.runtime w m)
    (shard : shardOf modid cmdid = .ok index) (stack : Stack) {desk : Desk α}
    (agree : Run.Agree (Delivered env.runtime w m.desk fails index (env.addr index))
      (w.sendto env true fails clock ret index (Wire.framed env.runtime idGetHostRequest
        (⟨m.session.client.seqid, modid, cmdid⟩ : Proto.GetHostRequest))) (.ok desk))
    {rsp : Proto.GetHostResponse}
    (answers : desk.answers = m.desk.answers ++ [(index, env.addr index, .host rsp)])
    (named : getHostCb ⟨m.session.client.seqid, modid, cmdid⟩ rsp.retcode rsp.host = rsp) :
    Run.Agree (Mirrors env.runtime) (w.step env (.getHost modid cmdid true fails clock ret stack))
      ((m.session.step (.getHost modid cmdid fails rsp.retcode rsp.host)).map
        fun session => ⟨desk, session⟩) := by
  have fits : (Answer.host rsp).Fits env.runtime := getHostResponse_small documented rsp
  rcases agree.cases with ⟨_, _, impossible⟩ | ⟨x, t, sent, done, delivered⟩
  · cases impossible
  · cases done
    obtain ⟨agent, rfl, serves⟩ := mirrors.answered delivered answers fits
    obtain ⟨u, taken, after⟩ := mirrors.readHost documented serves shard stack
      (mirrors.arrived index fits).2 sent
      (.host (some (LarsClient.takeHost m.session.client.seqid modid cmdid rsp)))
    rw [taken]
    simp only [Session.step, shard, LarsClient.getHost_eq shard, Session.arrive, named,
      Function.update_self]
    exact after

end host

theorem getHost_mirrors (mirrors : Mirrors env.runtime w m) (modid cmdid : Int32) (sent : Bool)
    (fails : Option Nat) (clock : Clock) (ret : Int) (stack : Stack) :
    Run.Agree (Mirrors env.runtime) (w.step env (.getHost modid cmdid sent fails clock ret stack))
      (m.step env (.getHost modid cmdid sent fails clock ret stack)) := by
  cases sent with
  | false =>
    simp only [WireSession.step, DeskSession.step, Wire.getHost, LarsClient.getHost,
      Wire.pack_getHost documented, WireSession.sendto, ↓reduceIte]
    cases shardOf modid cmdid with
    | error e => rfl
    | ok index =>
      have failed := mirrors.unsent ⟨w.client.seqid + 1⟩ index fails (.host none)
        (.host (some (retSystemError, none)))
      rw [mirrors.client] at failed ⊢
      exact failed
  | true =>
    rw [DeskSession.step]
    cases shard : shardOf modid cmdid with
    | error e =>
      simp only [WireSession.step, Wire.getHost, Wire.pack_getHost documented, shard]
      rfl
    | ok index =>
      have agree := sendto_agrees env mirrors.serves fails clock ret index
        ((requestOf_framed documented env.left).1 ⟨m.session.client.seqid, modid, cmdid⟩)
      simp only [Desk.serve] at agree
      dsimp only
      cases reached : (m.desk.agent.rLb index).getHost env.cfg clock.now modid cmdid
          (getHostCb ⟨m.session.client.seqid, modid, cmdid⟩ 0 none) with
      | error e =>
        simp only [reached] at agree
        rw [mirrors.getHost_stops documented shard stack agree]
        rfl
      | ok reply =>
        have fits : (Answer.host reply.rsp).Fits env.runtime :=
          getHostResponse_small documented reply.rsp
        simp only [reached, Desk.answer_fits fits] at agree
        dsimp only
        split
        next failed =>
          rw [if_pos failed] at agree
          exact mirrors.getHost_unanswered documented shard stack agree rfl
        next left =>
          rw [if_neg left] at agree
          exact mirrors.getHost_answered documented shard stack agree rfl (getHost_rsp reached).symm

section route

variable {modid cmdid : Int32} {index : Fin 3} {fails : Option Nat} {clock : Clock} {ret : Int}

theorem Mirrors.getRoute_stops (shard : shardOf modid cmdid = .ok index) (stack : Stack)
    (route : List (String × Int32)) {e : Fault}
    (agree : Run.Agree (Delivered env.runtime w m.desk fails index (env.addr index))
      (w.sendto env true fails clock ret index (Wire.framed env.runtime idApiGetRouteRequest
        (⟨modid, cmdid⟩ : Proto.GetRouteRequest))) (.error e)) :
    w.step env (.getRoute modid cmdid true fails route clock ret stack) = .error e := by
  rcases agree.cases with ⟨e', stopped, same⟩ | ⟨_, _, _, impossible, _⟩
  · cases same
    simp only [WireSession.step, Wire.getRoute, Wire.pack_getRoute documented, shard, stopped]
    rfl
  · cases impossible

theorem Mirrors.getRoute_unanswered (mirrors : Mirrors env.runtime w m)
    (shard : shardOf modid cmdid = .ok index) (stack : Stack) (route : List (String × Int32))
    {desk : Desk α}
    (agree : Run.Agree (Delivered env.runtime w m.desk fails index (env.addr index))
      (w.sendto env true fails clock ret index (Wire.framed env.runtime idApiGetRouteRequest
        (⟨modid, cmdid⟩ : Proto.GetRouteRequest))) (.ok desk))
    (silent : desk.answers = m.desk.answers) :
    Run.Agree (Mirrors env.runtime)
      (w.step env (.getRoute modid cmdid true fails route clock ret stack))
      ((m.session.routeUnanswered modid cmdid fails route).map
        fun session => ⟨desk, session⟩) := by
  rcases agree.cases with ⟨_, _, impossible⟩ | ⟨x, t, sent, done, delivered⟩
  · cases impossible
  · cases done
    obtain ⟨agent, rfl, serves⟩ := mirrors.unanswered delivered silent
    obtain ⟨u, taken, after⟩ := mirrors.readRoute documented serves shard stack route
      (mirrors.fit index) sent (.route none)
    rw [Function.update_eq_self] at after
    rw [taken]
    simp only [Session.routeUnanswered, shard, LarsClient.getRoute_eq shard]
    exact after

theorem Mirrors.getRoute_answered (mirrors : Mirrors env.runtime w m)
    (shard : shardOf modid cmdid = .ok index) (stack : Stack) (route : List (String × Int32))
    {desk : Desk α}
    (agree : Run.Agree (Delivered env.runtime w m.desk fails index (env.addr index))
      (w.sendto env true fails clock ret index (Wire.framed env.runtime idApiGetRouteRequest
        (⟨modid, cmdid⟩ : Proto.GetRouteRequest))) (.ok desk))
    {rsp : Proto.GetRouteResponse}
    (answers : desk.answers = m.desk.answers ++ [(index, env.addr index, .route rsp)])
    (fits : (Answer.route rsp).Fits env.runtime)
    (named : getRouteCb ⟨modid, cmdid⟩ rsp.host = rsp) :
    Run.Agree (Mirrors env.runtime)
      (w.step env (.getRoute modid cmdid true fails route clock ret stack))
      ((m.session.step (.getRoute modid cmdid fails rsp.host route)).map
        fun session => ⟨desk, session⟩) := by
  rcases agree.cases with ⟨_, _, impossible⟩ | ⟨x, t, sent, done, delivered⟩
  · cases impossible
  · cases done
    obtain ⟨agent, rfl, serves⟩ := mirrors.answered delivered answers fits
    obtain ⟨u, taken, after⟩ := mirrors.readRoute documented serves shard stack route
      (mirrors.arrived index fits).2 sent
      (.route (some (LarsClient.takeRoute modid cmdid rsp route)))
    rw [taken]
    simp only [Session.step, shard, LarsClient.getRoute_eq shard, Session.arrive, named,
      Function.update_self]
    exact after

end route

theorem getRoute_mirrors (mirrors : Mirrors env.runtime w m) (modid cmdid : Int32) (sent : Bool)
    (fails : Option Nat) (route : List (String × Int32)) (clock : Clock) (ret : Int)
    (stack : Stack) :
    Run.Agree (Mirrors env.runtime)
      (w.step env (.getRoute modid cmdid sent fails route clock ret stack))
      (m.step env (.getRoute modid cmdid sent fails route clock ret stack)) := by
  cases sent with
  | false =>
    simp only [WireSession.step, DeskSession.step, Wire.getRoute, LarsClient.getRoute,
      Wire.pack_getRoute documented, WireSession.sendto, ↓reduceIte]
    cases shardOf modid cmdid with
    | error e => rfl
    | ok index =>
      rw [← mirrors.client]
      exact mirrors.unsent w.client index fails (.route none)
        (.route (some (retSystemError, route)))
  | true =>
    rw [DeskSession.step]
    cases shard : shardOf modid cmdid with
    | error e =>
      simp only [WireSession.step, Wire.getRoute, Wire.pack_getRoute documented, shard]
      rfl
    | ok index =>
      have agree := sendto_agrees env mirrors.serves fails clock ret index
        ((requestOf_framed documented env.left).2.2 ⟨modid, cmdid⟩)
      simp only [Desk.serve] at agree
      dsimp only
      cases reached : (m.desk.agent.rLb index).getRoute env.cfg clock.now modid cmdid
          (getRouteCb ⟨modid, cmdid⟩ []) with
      | error e =>
        simp only [reached] at agree
        rw [Mirrors.getRoute_stops documented shard stack route agree]
        rfl
      | ok reply =>
        simp only [reached, Desk.answer] at agree
        dsimp only
        split
        -- a route may be too long for a datagram
        next refused =>
          rw [if_pos refused] at agree
          exact mirrors.getRoute_unanswered documented shard stack route agree rfl
        next admitted =>
          rw [if_neg admitted] at agree
          split
          next overrun =>
            rw [if_pos overrun] at agree
            rw [Mirrors.getRoute_stops documented shard stack route agree]
            rfl
          next room =>
            rw [if_neg room] at agree
            have fits : (Answer.route reply.rsp).Fits env.runtime := Nat.not_lt.mp room
            split
            next failed =>
              rw [if_pos failed] at agree
              exact mirrors.getRoute_unanswered documented shard stack route agree rfl
            next left =>
              rw [if_neg left] at agree
              exact mirrors.getRoute_answered documented shard stack route agree rfl fits
                (getRoute_rsp reached).symm

theorem report_mirrors (mirrors : Mirrors env.runtime w m) (modid cmdid : Int32) (ip : String)
    (port retcode : Int32) (sent : Bool) (clock : Clock) (ret : Int) (stack : Stack) :
    Run.Agree (Mirrors env.runtime)
      (w.step env (.report modid cmdid ip port retcode sent clock ret stack))
      (m.step env (.report modid cmdid ip port retcode sent clock ret stack)) := by
  simp only [WireSession.step, DeskSession.step, Wire.report, LarsClient.report,
    Wire.pack_report documented]
  cases shardOf modid cmdid with
  | error e => rfl
  | ok index =>
    dsimp only
    cases sent with
    | false =>
      simp only [WireSession.sendto, Except.map, Function.update_eq_self, ↓reduceIte]
      exact mirrors
    | true =>
      rw [if_neg (by decide)]
      have agree := sendto_agrees env mirrors.serves none clock ret index
        ((requestOf_framed documented env.left).2.1
          ⟨modid, cmdid, ⟨(env.inetAton ip).toInt32, port⟩, retcode⟩)
      rcases agree.cases with ⟨e, stopped, stopped'⟩ | ⟨x, t, sent, done, delivered⟩
      · rw [stopped, stopped']
        rfl
      · rw [sent, done]
        have silent : t.answers = m.desk.answers := by
          simp only [Desk.serve] at done
          split at done
          · cases done
          · cases done
            rfl
        obtain ⟨agent, rfl, serves⟩ := mirrors.unanswered delivered silent
        constructor
        · exact serves
        · exact mirrors.client
        · intro socket
          simp only [← mirrors.sockets, Function.update_eq_self]
        · exact mirrors.fit
        · exact mirrors.results

theorem step_mirrors (mirrors : Mirrors env.runtime w m) (op : WireOp α) :
    Run.Agree (Mirrors env.runtime) (w.step env op) (m.step env op) := by
  cases op with
  | getHost modid cmdid sent fails clock ret stack =>
    exact getHost_mirrors documented mirrors modid cmdid sent fails clock ret stack
  | getRoute modid cmdid sent fails route clock ret stack =>
    exact getRoute_mirrors documented mirrors modid cmdid sent fails route clock ret stack
  | report modid cmdid ip port retcode sent clock ret stack =>
    exact report_mirrors documented mirrors modid cmdid ip port retcode sent clock ret stack
  | other op =>
    apply (step_agrees env.cfg env.left mirrors.serves op).map
    intro agent desk serves
    exact ⟨serves, mirrors.client, mirrors.sockets, mirrors.fit, mirrors.results⟩

theorem run_mirrors (mirrors : Mirrors env.runtime w m) (ops : List (WireOp α)) :
    Run.Agree (Mirrors env.runtime) (Run.run (WireSession.step env) w ops)
      (Run.run (DeskSession.step env) m ops) := by
  apply Run.run_agree _ mirrors
  intro w m op mirrors
  exact step_mirrors documented mirrors op

end mirrors

def WireSession.init (sockets : Fin 3 → UdpSocket α) : WireSession α :=
  ⟨⟨0⟩, fun _ => [], .init sockets, []⟩

def DeskSession.init : DeskSession α := ⟨.init, .init⟩

theorem init_mirrors (rt : Runtime) (sockets : Fin 3 → UdpSocket α) :
    Mirrors rt (WireSession.init sockets) DeskSession.init where
  serves := ⟨rfl, rfl, rfl⟩
  client := rfl
  sockets _ := rfl
  fit _ _ member := absurd member List.not_mem_nil
  results := rfl

/-- Over the wire every call returns what it returns in messages, and the agent does what it does
in messages, whatever the arrays on both sides held before, whichever sends fail and whoever else
talks to the agent. -/
theorem calls_over_wire [DecidableEq α] {env : Setting α} (documented : env.runtime.Documented)
    (sockets : Fin 3 → UdpSocket α) (ops : List (WireOp α)) :
    Run.Agree (Mirrors env.runtime) (Run.run (WireSession.step env) (.init sockets) ops)
      (Run.run (DeskSession.step env) .init ops) :=
  run_mirrors documented (init_mirrors env.runtime sockets) ops

private def blankStack : Stack where
  writeBuf := List.replicate writeBufLen 0
  readBuf := List.replicate readBufLen 0
  writeBuf_length := List.length_replicate
  readBuf_length := List.length_replicate

private def localSetting : Setting Unit where
  runtime := wire
  cfg := .default
  left := ⟨fun _ => ⟨0, 0, 0⟩, fun _ => ⟨0, 0, ⟨0, 0⟩, 0⟩, fun _ => ⟨0, 0⟩⟩
  inetAton _ := 0
  addr _ := ()

/-- The `sendto` of the client fails, a call times out, and the DNS sends the agent a host. -/
private def twoCalls : List (WireOp Unit) :=
  [.other (.dns (.connect true)), .getHost 1 2 false none ⟨0, 0, 0⟩ 0 blankStack,
    .getHost 1 2 true (some 0) ⟨0, 0, 0⟩ 0 blankStack, .other (.dns (.push ⟨1, 2, [⟨7, 80⟩]⟩))]

/-- The agent reads it, and its `sendto` fails at the next call. -/
private def failedCalls : List (WireOp Unit) :=
  twoCalls ++
    [.other (.dns (.read 0 fun _ => 0)), .getHost 1 2 true (some 0) ⟨0, 0, 0⟩ (-1) blankStack]

private def twiceCalled : DeskSession Unit :=
  match Run.run (DeskSession.step localSetting) .init twoCalls with
  | .ok m => m
  | .error _ => .init

private theorem failedCalls_ran :
    ∃ m, Run.run (DeskSession.step localSetting) .init failedCalls = .ok m ∧
      (∃ reply, (m.desk.agent.rLb 0).getHost .default 0 1 2
          ⟨m.session.client.seqid, 1, 2, 0, none⟩ = .ok reply ∧
        reply.rsp.retcode = 0 ∧ reply.rsp.host = some ⟨7, 80⟩) ∧
      m.session.log.map (·.result) = List.replicate 3 (.host (some (retSystemError, none))) := by
  have read : ∃ agent, twiceCalled.desk.agent.step .default (.read 0 fun _ => 0) = .ok agent ∧
      ∃ m, DeskSession.step localSetting ⟨{ twiceCalled.desk with agent }, twiceCalled.session⟩
          (.getHost 1 2 true (some 0) ⟨0, 0, 0⟩ (-1) blankStack) = .ok m ∧
        (∃ reply, (m.desk.agent.rLb 0).getHost .default 0 1 2
            ⟨m.session.client.seqid, 1, 2, 0, none⟩ = .ok reply ∧
          reply.rsp.retcode = 0 ∧ reply.rsp.host = some ⟨7, 80⟩) ∧
        m.session.log.map (·.result) = List.replicate 3 (.host (some (retSystemError, none))) := by
    refine ⟨_, (LbAgent.step_read rfl rfl ?_ 0 _).trans rfl, _, rfl, ⟨_, rfl, rfl, rfl⟩, rfl⟩
    decide
  obtain ⟨agent, heard, m, called, last⟩ := read
  have asked : Run.run (DeskSession.step localSetting) .init twoCalls = .ok twiceCalled := rfl
  have told : twiceCalled.step localSetting (.other (.dns (.read 0 fun _ => 0))) =
      .ok ⟨{ twiceCalled.desk with agent }, twiceCalled.session⟩ := by
    change ((twiceCalled.desk.agent.step .default (.read 0 fun _ => 0)).map _).map _ = _
    rw [heard]
    rfl
  refine ⟨m, ?_, last⟩
  rw [failedCalls, Run.run_append _ asked, Run.run_cons_ok _ told, Run.run_cons_ok _ called]
  rfl

theorem calls_over_wire_failed :
    ∃ w m, Run.run (WireSession.step localSetting) (.init fun _ => .filled 0 ()) failedCalls =
        .ok w ∧
      Run.run (DeskSession.step localSetting) .init failedCalls = .ok m ∧ Mirrors wire w m := by
  have documented : localSetting.runtime.Documented := wire_documented
  have agree := calls_over_wire documented fun _ => .filled 0 ()
  obtain ⟨m, ran, -⟩ := failedCalls_ran
  -- the list of calls as a variable, so that nothing is evaluated
  generalize failedCalls = calls at ran ⊢
  rcases (agree calls).cases with ⟨e, -, stopped⟩ | ⟨w, m', done, ran', mirrors⟩
  · cases ran.symm.trans stopped
  · exact ⟨w, m', done, ran', mirrors⟩

/-! ### The host that the agent has chosen -/

namespace Session

variable {s t : Session}

/-- The call has its number, and nothing new waits. -/
theorem Numbered.succ (numbered : s.Numbered) (seqid : t.client.seqid = s.client.seqid + 1)
    (longer : t.log.length = s.log.length + 1)
    (fewer : ∀ index, t.sockets index ⊆ s.sockets index) : t.Numbered := by
  constructor
  · intro index d member
    rw [longer]
    exact Nat.lt_succ_of_lt (numbered.known index d (fewer index member))
  · rw [seqid, longer, numbered.next, UInt32.ofNat_add]
    rfl
  · intro index d member
    exact numbered.waiting index d (fewer index member)

end Session

end Lars.Api
