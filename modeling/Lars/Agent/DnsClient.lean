import Lars.Agent.Pull
import Lars.Lib.Run
import Lars.Reactor.Message
import Lars.Wire

/-!
# The agent and the DNS

Three UDP servers, each with a `route_lb` of its own, and the one thread that
talks to the DNS. Requests go from `dns_queue` into the output buffer of the
client and from there to the DNS; answers, asked for or pushed, come back to the
`route_lb` of their module. Messages are whole here: one is in the output buffer
until its last byte is written, and in transit until its last byte is read.
-/
namespace Lars.Agent

open Reactor (messageLengthLimit)

/-- `(modid + cmdid) % 3` as an index into `r_lb`. -/
def shardOf (modid cmdid : Int32) : Except Fault (Fin 3) :=
  let sum := modid.toInt + cmdid.toInt
  if sum < -2 ^ 31 ∨ 2 ^ 31 ≤ sum then .error .intOverflow
  else if sum.tmod 3 < 0 then .error .outOfBounds
  else .ok (Fin.ofNat 3 (sum.tmod 3).toNat)

/-- Where the client's connection stands. -/
inductive Conn where
  /-- The client is not constructed yet. -/
  | absent
  /-- The connect is in progress, and `connection_succ` waits for the socket to be writable. -/
  | connecting
  /-- A message was sent before that, so that `write_callback` waits in its place. -/
  | early
  /-- `conn_init` is going through `r_lb` and has come to this one. -/
  | starting (next : Fin 3)
  | live
  /-- The connection is up, but `connection_succ` did not run and nobody reads. -/
  | deaf
  /-- `clean_conn` was called or the connect failed; there is no second attempt. -/
  | dead
  deriving DecidableEq

/-- There is a connection. -/
def Conn.isUp : Conn → Bool
  | .starting _ | .live | .deaf => true
  | .absent | .connecting | .early | .dead => false

structure LbAgent where
  rLb : Fin 3 → RouteLb
  dnsQueue : List Proto.GetRouteRequest
  conn : Conn
  obuf : List Proto.GetRouteRequest
  /-- Written, and not yet read by the DNS. -/
  requests : List Proto.GetRouteRequest
  /-- Sent by the DNS, and not yet read. -/
  responses : List Proto.GetRouteResponse

inductive LbAgentStep where
  | getHost (server : Fin 3) (now : Int) (modid cmdid : Int32) (rsp : Proto.GetHostResponse)
  | getRoute (server : Fin 3) (now : Int) (modid cmdid : Int32) (rsp : Proto.GetRouteResponse)
  | reportHost (server : Fin 3) (now ts tc : Int) (req : Proto.ReportRequest)
  /-- The constructor of the client; `atOnce` if `connect` returns 0. -/
  | connect (atOnce : Bool)
  /-- The socket of a connect in progress is writable, with or without an error. -/
  | writable (succ : Bool)
  /-- The next round of the loop in `conn_init`. -/
  | connInit
  /-- `new_dns_request`; the messages that `send_message` accepts. -/
  | newDnsRequest (accepted : List Proto.GetRouteRequest)
  | write
  /-- The DNS answers the oldest request; `sent` if its `send_message` accepts the answer. -/
  | reply (host : List Proto.HostInfo) (sent : Bool)
  | push (rsp : Proto.GetRouteResponse)
  /-- The client reads the oldest answer. -/
  | read (now : Int) (ts : Nat → Int)
  /-- The peer closes the connection, or it breaks. -/
  | lose

namespace LbAgent

def init : LbAgent := ⟨fun _ => .init, [], .absent, [], [], []⟩

/-- A call on one `route_lb` has returned; its pulls are in `dns_queue`. -/
def called (server : Fin 3) (next : RouteLb) (sent : List Proto.GetRouteRequest) (s : LbAgent) :
    LbAgent :=
  { s with rLb := Function.update s.rLb server next, dnsQueue := s.dnsQueue ++ sent }

/-- `clean_conn`: what was under way on the connection is gone, the output buffer stays. -/
def cleanConn (s : LbAgent) : LbAgent := { s with conn := .dead, requests := [], responses := [] }

/-- A message put into an empty output buffer has `write_callback` wait for the socket. -/
def sendMessages (accepted : List Proto.GetRouteRequest) (s : LbAgent) : LbAgent :=
  { s with
    dnsQueue := []
    obuf := s.obuf ++ accepted
    conn := if s.conn = .connecting ∧ accepted ≠ [] then .early else s.conn }

def dealRecvRoute (cfg : Config) (now : Int) (ts : Nat → Int) (rsp : Proto.GetRouteResponse)
    (s : LbAgent) : Except Fault LbAgent :=
  match shardOf rsp.modid rsp.cmdid with
  | .error e => .error e
  | .ok index =>
    ((s.rLb index).updateHost cfg now ts rsp.modid rsp.cmdid rsp).map fun next =>
      s.called index next []

def step (cfg : Config) (s : LbAgent) (op : LbAgentStep) : Except Fault LbAgent :=
  match op with
  | .getHost server now modid cmdid rsp =>
    ((s.rLb server).getHost cfg now modid cmdid rsp).map fun reply =>
      s.called server reply.next reply.sent
  | .getRoute server now modid cmdid rsp =>
    ((s.rLb server).getRoute cfg now modid cmdid rsp).map fun reply =>
      s.called server reply.next reply.sent
  | .reportHost server now ts tc req =>
    ((s.rLb server).reportHost cfg now ts tc req).map fun reported => s.called server reported.2 []
  | .connect atOnce =>
    match s.conn with
    -- the hook is set after the constructor, too late for a connect that succeeds at once
    | .absent => .ok { s with conn := if atOnce then .live else .connecting }
    | _ => .ok s
  | .writable succ =>
    match s.conn with
    | .connecting => .ok { s with conn := if succ then .starting 0 else .dead }
    -- `write_callback` runs instead of `connection_succ`
    | .early => .ok { s with conn := if succ then .deaf else .dead }
    | _ => .ok s
  | .connInit =>
    match s.conn with
    -- each `reset_lb_status` takes the lock of its own table
    | .starting i =>
      .ok { s with
        rLb := Function.update s.rLb i (s.rLb i).resetLbStatus
        conn := if i = 2 then .live else .starting (i + 1) }
    | _ => .ok s
  | .newDnsRequest accepted =>
    match s.conn with
    -- the callback is not set yet, or the thread is busy
    | .absent | .starting _ => .ok s
    | _ => if accepted.Sublist s.dnsQueue then .ok (s.sendMessages accepted) else .ok s
  | .write =>
    match s.conn, s.obuf with
    | .live, req :: rest | .deaf, req :: rest =>
      .ok { s with obuf := rest, requests := s.requests ++ [req] }
    | _, _ => .ok s
  | .reply host sent =>
    match s.requests with
    | req :: rest =>
      let rsp : Proto.GetRouteResponse := ⟨req.modid, req.cmdid, host⟩
      .ok { s with
        requests := rest
        responses := if sent then s.responses ++ [rsp] else s.responses }
    | [] => .ok s
  | .push rsp => if s.conn.isUp then .ok { s with responses := s.responses ++ [rsp] } else .ok s
  | .read now ts =>
    match s.conn, s.responses with
    -- only a connection set up by `connection_succ` has its read callback registered
    | .live, rsp :: rest =>
      -- `do_read` gives up on a message whose head announces too much
      if messageLengthLimit < rsp.serialize.length then .ok s.cleanConn
      else { s with responses := rest }.dealRecvRoute cfg now ts rsp
    | _, _ => .ok s
  | .lose =>
    match s.conn with
    | .live | .deaf => .ok s.cleanConn
    | _ => .ok s

/-- A request for the module is in `dns_queue`, in the output buffer of a client with a connection
or in transit, or an answer for it is on its way back. -/
def Underway (s : LbAgent) (req : Proto.GetRouteRequest) : Prop :=
  req ∈ s.dnsQueue ∨ (s.conn.isUp = true ∧ req ∈ s.obuf) ∨ req ∈ s.requests ∨
    ∃ rsp ∈ s.responses, rsp.modid = req.modid ∧ rsp.cmdid = req.cmdid

instance (s : LbAgent) (req : Proto.GetRouteRequest) : Decidable (s.Underway req) :=
  inferInstanceAs (Decidable (_ ∨ _ ∨ _ ∨ _))

/-- `P` holds of the module of every load balancer that is pulling. -/
def Pulling (s : LbAgent) (P : Proto.GetRouteRequest → Prop) : Prop :=
  ∀ i key lb, (s.rLb i).lbs.lookup key = some lb → lb.status = .pulling → P ⟨lb.modid, lb.cmdid⟩

/-- The condition on a step: a call comes to the server of its module, the queue is handed over
only to a client that has a connection and accepts it all, the DNS sends every answer, and when
the connection is lost every module that is pulling still has its request in the queue. -/
def Kept (s : LbAgent) (op : LbAgentStep) : Prop :=
  match op with
  | .getHost server _ modid cmdid _ => shardOf modid cmdid = .ok server
  | .getRoute server _ modid cmdid _ => shardOf modid cmdid = .ok server
  | .reportHost server _ _ _ req => shardOf req.modid req.cmdid = .ok server
  | .newDnsRequest accepted => s.dnsQueue = [] ∨ s.conn.isUp = true ∧ accepted = s.dnsQueue
  | .reply _ sent => sent = true
  | .read _ _ =>
    ∀ rsp ∈ s.responses.head?, messageLengthLimit < rsp.serialize.length →
      s.Pulling (· ∈ s.dnsQueue)
  | .lose => s.Pulling (· ∈ s.dnsQueue)
  | _ => True

variable {s t : LbAgent} {op : LbAgentStep}

theorem short_response {rsp : Proto.GetRouteResponse} (few : rsp.host.length ≤ 100) :
    ¬messageLengthLimit < rsp.serialize.length := by
  have most := rsp.serialize_length.2
  simp only [messageLengthLimit, Reactor.messageHeadLen]
  omega

/-- The oldest answer is read if it is not too long. -/
theorem step_read {cfg : Config} {rsp : Proto.GetRouteResponse}
    {rest : List Proto.GetRouteResponse} (live : s.conn = .live)
    (oldest : s.responses = rsp :: rest) (few : rsp.host.length ≤ 100) (now : Int)
    (ts : Nat → Int) :
    s.step cfg (.read now ts) = { s with responses := rest }.dealRecvRoute cfg now ts rsp := by
  simp only [step]
  split
  next rsp' rest' up oldest' =>
    rw [oldest] at oldest'
    cases oldest'
    rw [if_neg (short_response few)]
  next other => exact (other rsp rest live oldest).elim

/-- Every load balancer is in the table that the answers for its module go to, and one that is
pulling has something under way. -/
structure Orderly (s : LbAgent) : Prop where
  placed : ∀ i key lb, (s.rLb i).lbs.lookup key = some lb →
    key = packKey lb.modid lb.cmdid ∧ shardOf lb.modid lb.cmdid = .ok i
  underway : s.Pulling s.Underway

theorem Orderly.init : LbAgent.init.Orderly where
  placed := fun _ _ _ found => by cases found
  underway := fun _ _ _ found => by cases found

/-- Steps that leave the tables alone. -/
theorem Orderly.pass (orderly : s.Orderly) (tables : t.rLb = s.rLb)
    (still : ∀ req, s.Underway req → t.Underway req) : t.Orderly where
  placed := fun i key lb found => orderly.placed i key lb (by rwa [tables] at found)
  underway := fun i key lb found pulling =>
    still _ (orderly.underway i key lb (by rwa [tables] at found) pulling)

/-- A load balancer found after one table was replaced is in the new table or in an old one. -/
private theorem found_update {rLb : Fin 3 → RouteLb} {server i : Fin 3} {next : RouteLb}
    {key : UInt64} {lb : LoadBalance}
    (found : (Function.update rLb server next i).lbs.lookup key = some lb) :
    (i = server ∧ next.lbs.lookup key = some lb) ∨
      (i ≠ server ∧ (rLb i).lbs.lookup key = some lb) := by
  by_cases here : i = server
  · subst here
    rw [Function.update_self] at found
    exact .inl ⟨rfl, found⟩
  · rw [Function.update_of_ne here] at found
    exact .inr ⟨here, found⟩

theorem Orderly.called (orderly : s.Orderly) {server : Fin 3} {modid cmdid : Int32}
    {next : RouteLb} {sent : List Proto.GetRouteRequest} (right : shardOf modid cmdid = .ok server)
    (accounts : RouteLb.Accounts modid cmdid (s.rLb server) next sent) :
    (s.called server next sent).Orderly := by
  have still : ∀ req, s.Underway req → (s.called server next sent).Underway req := by
    rintro req (queued | other)
    · exact .inl (List.mem_append_left _ queued)
    · exact .inr other
  refine ⟨fun i key lb found => ?_, fun i key lb found pulling => ?_⟩
  · rcases found_update found with ⟨rfl, entry⟩ | ⟨-, before⟩
    · rcases accounts.known key lb entry with ⟨old, before, modid', cmdid'⟩ | ⟨rfl, rfl, rfl⟩
      · rw [modid', cmdid']
        exact orderly.placed i key old before
      · exact ⟨rfl, right⟩
    · exact orderly.placed i key lb before
  · rcases found_update found with ⟨rfl, entry⟩ | ⟨-, before⟩
    · rcases accounts.pulls key lb entry pulling with new | ⟨old, before, pulling', modid', cmdid'⟩
      · exact .inl (List.mem_append_right _ new)
      · rw [modid', cmdid']
        exact still _ (orderly.underway i key old before pulling')
    · exact still _ (orderly.underway i key lb before pulling)

/-- The answer that is read settles its module, which is in the table it goes to; what is under
way for another module is not this answer. -/
theorem Orderly.dealRecvRoute (orderly : s.Orderly) {cfg : Config} {now : Int} {ts : Nat → Int}
    {rsp : Proto.GetRouteResponse} {rest : List Proto.GetRouteResponse}
    (oldest : s.responses = rsp :: rest)
    (done : { s with responses := rest }.dealRecvRoute cfg now ts rsp = .ok t) : t.Orderly := by
  unfold LbAgent.dealRecvRoute at done
  split at done
  next => cases done
  next index right =>
    obtain ⟨next, updated, rfl⟩ := map_ok_inv done
    -- taking the oldest answer ends the wait of its own module and of no other
    have still : ∀ req, s.Underway req → ¬ (rsp.modid = req.modid ∧ rsp.cmdid = req.cmdid) →
        ({ s with responses := rest }.called index next []).Underway req := by
      rintro req (queued | held | written | ⟨other, back, same⟩) another
      · exact .inl (List.mem_append_left _ queued)
      · exact .inr (.inl held)
      · exact .inr (.inr (.inl written))
      · rw [oldest] at back
        rcases List.mem_cons.mp back with rfl | later
        · exact absurd same another
        · exact .inr (.inr (.inr ⟨other, later, same⟩))
    refine ⟨fun i key lb found => ?_, fun i key lb found pulling => ?_⟩
    · rcases found_update found with ⟨rfl, entry⟩ | ⟨-, before⟩
      · rcases RouteLb.updateHost_inv updated entry with ⟨-, before⟩ | ⟨-, old, before, modid, cmdid⟩
        · exact orderly.placed i key lb before
        · rw [modid, cmdid]
          exact orderly.placed i key old before
      · exact orderly.placed i key lb before
    · rcases found_update found with ⟨rfl, entry⟩ | ⟨elsewhere, before⟩
      · rcases RouteLb.updateHost_inv updated entry with ⟨other, before⟩ | ⟨settled, -⟩
        · -- another key of the same table, so another module
          apply still _ (orderly.underway i key lb before pulling)
          rintro ⟨modid, cmdid⟩
          apply other
          rw [modid, cmdid]
          exact (orderly.placed i key lb before).1
        · -- the module itself is not pulling any more
          rw [settled] at pulling
          cases pulling
      · -- a module of another table: the answer would have gone there
        apply still _ (orderly.underway i key lb before pulling)
        rintro ⟨modid, cmdid⟩
        apply elsewhere
        rw [modid, cmdid, (orderly.placed i key lb before).2] at right
        exact Except.ok.inj right

/-- A loss leaves only what is in the queue. -/
theorem Orderly.cleanConn (orderly : s.Orderly) (queued : s.Pulling (· ∈ s.dnsQueue)) :
    s.cleanConn.Orderly where
  placed := orderly.placed
  underway := fun i key lb found pulling => .inl (queued i key lb found pulling)

theorem Orderly.connInit (orderly : s.Orderly) (i : Fin 3) (conn : Conn) (up : conn.isUp = true) :
    Orderly { s with rLb := Function.update s.rLb i (s.rLb i).resetLbStatus, conn := conn } := by
  refine ⟨fun j key lb found => ?_, fun j key lb found pulling => ?_⟩
  · rcases found_update found with ⟨rfl, entry⟩ | ⟨-, before⟩
    · obtain ⟨-, old, before, modid, cmdid⟩ := RouteLb.resetLbStatus_inv entry
      rw [modid, cmdid]
      exact orderly.placed j key old before
    · exact orderly.placed j key lb before
  · rcases found_update found with ⟨rfl, entry⟩ | ⟨-, before⟩
    · rw [(RouteLb.resetLbStatus_inv entry).1] at pulling
      cases pulling
    · rcases orderly.underway j key lb before pulling with queued | held | other
      · exact .inl queued
      · exact .inr (.inl ⟨up, held.2⟩)
      · exact .inr (.inr other)

/-- The connection changes, and none is lost. -/
theorem Orderly.change (orderly : s.Orderly) (conn : Conn)
    (up : s.conn.isUp = true → conn.isUp = true) : Orderly { s with conn := conn } := by
  refine orderly.pass rfl ?_
  rintro req (queued | held | other)
  · exact .inl queued
  · exact .inr (.inl ⟨up held.1, held.2⟩)
  · exact .inr (.inr other)

/-- A connection that is up takes over the whole queue. -/
theorem Orderly.sendMessages (orderly : s.Orderly) {accepted : List Proto.GetRouteRequest}
    (kept : s.dnsQueue = [] ∨ s.conn.isUp = true ∧ accepted = s.dnsQueue) :
    (s.sendMessages accepted).Orderly := by
  have stays : s.conn.isUp = true → (s.sendMessages accepted).conn = s.conn := by
    intro up
    apply if_neg
    rintro ⟨connecting, -⟩
    rw [connecting] at up
    cases up
  refine orderly.pass rfl ?_
  rintro req (queued | ⟨up, held⟩ | other)
  · rcases kept with empty | ⟨up, rfl⟩
    · rw [empty] at queued
      cases queued
    · exact .inr (.inl ⟨(congrArg Conn.isUp (stays up)).trans up, List.mem_append_right _ queued⟩)
  · exact .inr (.inl ⟨(congrArg Conn.isUp (stays up)).trans up, List.mem_append_left _ held⟩)
  · exact .inr (.inr other)

theorem Orderly.write (orderly : s.Orderly) {req : Proto.GetRouteRequest}
    {rest : List Proto.GetRouteRequest} (oldest : s.obuf = req :: rest) :
    Orderly { s with obuf := rest, requests := s.requests ++ [req] } := by
  refine orderly.pass rfl ?_
  rintro other (queued | ⟨up, held⟩ | written | back)
  · exact .inl queued
  · rw [oldest] at held
    rcases List.mem_cons.mp held with rfl | later
    · exact .inr (.inr (.inl (List.mem_append_right _ (List.mem_singleton.mpr rfl))))
    · exact .inr (.inl ⟨up, later⟩)
  · exact .inr (.inr (.inl (List.mem_append_left _ written)))
  · exact .inr (.inr (.inr back))

theorem Orderly.reply (orderly : s.Orderly) {req : Proto.GetRouteRequest}
    {rest : List Proto.GetRouteRequest} (oldest : s.requests = req :: rest)
    (host : List Proto.HostInfo) :
    Orderly { s with
      requests := rest, responses := s.responses ++ [⟨req.modid, req.cmdid, host⟩] } := by
  refine orderly.pass rfl ?_
  rintro other (queued | held | written | ⟨rsp, back, same⟩)
  · exact .inl queued
  · exact .inr (.inl held)
  · rw [oldest] at written
    rcases List.mem_cons.mp written with rfl | later
    · exact .inr (.inr (.inr ⟨_, List.mem_append_right _ (List.mem_singleton.mpr rfl), rfl, rfl⟩))
    · exact .inr (.inr (.inl later))
  · exact .inr (.inr (.inr ⟨rsp, List.mem_append_left _ back, same⟩))

theorem Orderly.push (orderly : s.Orderly) (rsp : Proto.GetRouteResponse) :
    Orderly { s with responses := s.responses ++ [rsp] } := by
  refine orderly.pass rfl ?_
  rintro req (queued | held | written | ⟨other, back, same⟩)
  · exact .inl queued
  · exact .inr (.inl held)
  · exact .inr (.inr (.inl written))
  · exact .inr (.inr (.inr ⟨other, List.mem_append_left _ back, same⟩))

theorem step_orderly (cfg : Config) (s : LbAgent) (op : LbAgentStep) (t : LbAgent)
    (orderly : s.Orderly) (kept : s.Kept op) (done : s.step cfg op = .ok t) : t.Orderly := by
  cases op with
  | getHost server now modid cmdid rsp =>
    obtain ⟨reply, returned, rfl⟩ := map_ok_inv done
    exact orderly.called kept (RouteLb.getHost_accounts returned)
  | getRoute server now modid cmdid rsp =>
    obtain ⟨reply, returned, rfl⟩ := map_ok_inv done
    exact orderly.called kept (RouteLb.getRoute_accounts returned)
  | reportHost server now ts tc req =>
    obtain ⟨reported, returned, rfl⟩ := map_ok_inv done
    exact orderly.called kept (RouteLb.reportHost_accounts returned)
  | connect atOnce =>
    simp only [step] at done
    split at done
    next absent =>
      cases done
      exact orderly.change _ fun up => by simp [absent, Conn.isUp] at up
    next =>
      cases done
      exact orderly
  | writable succ =>
    simp only [step] at done
    split at done
    next connecting =>
      cases done
      exact orderly.change _ fun up => by simp [connecting, Conn.isUp] at up
    next early =>
      cases done
      exact orderly.change _ fun up => by simp [early, Conn.isUp] at up
    next =>
      cases done
      exact orderly
  | connInit =>
    simp only [step] at done
    split at done
    next i starting =>
      cases done
      apply orderly.connInit
      split <;> rfl
    next =>
      cases done
      exact orderly
  | newDnsRequest accepted =>
    simp only [step] at done
    split at done
    · cases done
      exact orderly
    · cases done
      exact orderly
    · split at done
      · cases done
        exact orderly.sendMessages kept
      · cases done
        exact orderly
  | write =>
    simp only [step] at done
    split at done
    next oldest =>
      cases done
      exact orderly.write oldest
    next oldest =>
      cases done
      exact orderly.write oldest
    next =>
      cases done
      exact orderly
  | reply host sent =>
    cases (kept : sent = true)
    simp only [step] at done
    split at done
    next oldest =>
      cases done
      exact orderly.reply oldest host
    next =>
      cases done
      exact orderly
  | push rsp =>
    simp only [step] at done
    split at done
    · cases done
      exact orderly.push rsp
    · cases done
      exact orderly
  | read now ts =>
    simp only [step] at done
    split at done
    next rsp rest live oldest =>
      split at done
      next large =>
        -- a message beyond the limit of the head test costs the connection
        cases done
        exact orderly.cleanConn (kept rsp (by simp [oldest]) large)
      next => exact orderly.dealRecvRoute oldest done
    next =>
      cases done
      exact orderly
  | lose =>
    simp only [step] at done
    split at done
    · cases done
      exact orderly.cleanConn kept
    · cases done
      exact orderly.cleanConn kept
    · cases done
      exact orderly

/-- In a run whose steps all meet the condition, every load balancer that is pulling has a request
or an answer under way, in every state reached. -/
theorem none_stuck (cfg : Config) {ops : List LbAgentStep}
    (kept : Run.Guarded (step cfg) Kept init ops) :
    Run.Always (step cfg) (fun s => s.Pulling s.Underway) init ops := by
  have always := Run.always_of_guarded (step_orderly cfg) Orderly.init kept
  exact always.mono fun s orderly => orderly.underway

private def firstPull : LbAgentStep := .getHost 2 0 1 1 ⟨0, 1, 1, 0, none⟩

private def pullAndAnswer : List LbAgentStep :=
  [.connect false, .writable true, .connInit, .connInit, .connInit, firstPull,
    .newDnsRequest [⟨1, 1⟩], .write, .reply [⟨1, 80⟩] true, .read 1 fun _ => 1]

theorem none_stuck_pull_and_answer :
    Run.Always (step .default) (fun s => s.Pulling s.Underway) init pullAndAnswer := by
  apply none_stuck
  refine ⟨trivial, fun s₁ done₁ => ⟨trivial, fun s₂ done₂ => ⟨trivial, fun s₃ done₃ =>
    ⟨trivial, fun s₄ done₄ => ⟨trivial, fun s₅ done₅ => ⟨rfl, fun s₆ done₆ => ?_⟩⟩⟩⟩⟩⟩
  cases done₁
  cases done₂
  cases done₃
  cases done₄
  cases done₅
  cases done₆
  refine ⟨.inr ⟨rfl, rfl⟩, fun s₇ done₇ => ⟨trivial, fun s₈ done₈ => ⟨rfl, fun s₉ done₉ => ?_⟩⟩⟩
  cases done₇
  cases done₈
  cases done₉
  refine ⟨fun rsp oldest large => ?_, fun _ _ => trivial⟩
  cases oldest
  exact absurd large (short_response (by decide))

private def connectionLost : List LbAgentStep :=
  [.connect true, firstPull, .newDnsRequest [⟨1, 1⟩], .write, .lose]

private def handedOverEarly : List LbAgentStep :=
  [.connect false, firstPull, .newDnsRequest [⟨1, 1⟩]]

/-- A request that was written when the connection broke is gone, and the module goes on pulling.
So does one whose request is in the buffer of a client that is not connected. -/
theorem left_pulling :
    (∃ s, Run.run (step .default) init connectionLost = .ok s ∧ ¬ s.Pulling s.Underway) ∧
    ∃ s, Run.run (step .default) init handedOverEarly = .ok s ∧ ¬ s.Pulling s.Underway := by
  refine ⟨⟨_, rfl, fun all => ?_⟩, ⟨_, rfl, fun all => ?_⟩⟩
  · exact absurd (all 2 (packKey 1 1) _ rfl rfl) (by decide)
  · exact absurd (all 2 (packKey 1 1) _ rfl rfl) (by decide)

end LbAgent

end Lars.Agent
