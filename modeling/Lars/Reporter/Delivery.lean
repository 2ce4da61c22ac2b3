import Lars.Codec
import Lars.Reactor.Link
import Lars.Reactor.Router
import Lars.Reporter.Store

/-!
# Reports on their way to the reporter

An agent puts its reports into `report_queue`, and the thread of
`report_client.cpp` sends them over the one connection it has. The server of the
reporter reads from the connections of all agents and hands each report to
`get_report_status`. On this way a report passes two queues, two buffers and the
network; it should arrive once, and in its turn.
-/
namespace Lars.Reporter

open Proto Reactor
open Protobuf (Runtime wire wire_documented varint_small)

def idReportStatusRequest : Int32 := 3

/-- The message that carries a report. -/
def message (rt : Runtime) (req : ReportStatusRequest) : Int32 × List UInt8 :=
  (idReportStatusRequest, Message.serialize rt req)

/-! ### The agent's end -/

/-- The thread of `report_client.cpp`, with its connection to the reporter. -/
structure ReportClient where
  reportQueue : ThreadQueue ReportStatusRequest
  /-- What `new_report_request` has taken from the queue and not sent yet. -/
  msgs : List ReportStatusRequest
  sockfd : Nat
  link : Link
  /-- All that was put into `report_queue`. -/
  reported : List ReportStatusRequest
  /-- How many reports `send_message` has not accepted. -/
  refused : Nat

namespace ReportClient

/-- The connection is made; nothing has been reported. -/
def init (sockfd : Nat) (loop : Loop) : ReportClient := ⟨.init, [], sockfd, .init loop, [], 0⟩

/-- `report_queue->send` in `load_balance::commit`. -/
def report (req : ReportStatusRequest) (refused : Bool) (c : ReportClient) : ReportClient :=
  { c with
    reportQueue := c.reportQueue.send refused req
    reported := c.reported ++ [req] }

/-- The start of `new_report_request`. The loop calls it when the eventfd is readable and its last
call has returned. -/
def newReportRequest (refused : Bool) (c : ReportClient) : ReportClient :=
  if c.msgs = [] ∧ 0 < c.reportQueue.evfd then
    let (msgs, rest) := c.reportQueue.recv refused []
    { c with reportQueue := rest, msgs := msgs }
  else c

/-- The next round of its loop, which does not look at what `send_message` returns. -/
def sendNext (rt : Runtime) (pool : BufPool) (sound : pool.Ok) (c : ReportClient) :
    Except Fault ReportClient :=
  match c.msgs with
  | [] => .ok c
  | req :: msgs =>
    let call := SendAction.send (Message.serialize rt req) idReportStatusRequest
    (c.link.step .client .conn c.sockfd (.send ⟨call, pool, sound⟩)).map fun link =>
      { c with
        msgs := msgs
        link := link
        refused := if link.sender.sent = c.link.sender.sent then c.refused + 1 else c.refused }

/-- `do_write`, between two calls of `new_report_request`. -/
def doWrite (results : List WriteResult) (pool : BufPool) (sound : pool.Ok) (c : ReportClient) :
    Except Fault ReportClient :=
  if c.msgs = [] then
    (c.link.step .client .conn c.sockfd (.send ⟨.write results, pool, sound⟩)).map fun link =>
      { c with link := link }
  else .ok c

end ReportClient

/-! ### The reporter -/

/-- The router that `main` sets up; `get_report_status` is its only callback. -/
def reporterRouter : MsgRouter Unit Unit :=
  (MsgRouter.init.registerMsgRouter idReportStatusRequest () ()).2

/-- The request that `get_report_status` finds after `ParseFromArray`, whose result it does not
look at: `left` is what a parse that returns false leaves. -/
def requestOf (rt : Runtime) (left : List UInt8 → ReportStatusRequest) (call : Call) :
    Option ReportStatusRequest :=
  (reporterRouter.call call.msgid).map fun _ =>
    (parseFromArray rt call.data).getD (left call.data)

/-- The agents, each with its connection, and the reporter, with the history of its calls. -/
structure Reporting (n : Nat) where
  clients : Nat → ReportClient
  service : Service n
  ops : List (Op n)
  /-- The calls of `get_report_status`, each with the agent of the connection. -/
  handled : List (Nat × ReportStatusRequest)

inductive ReportingStep (n : Nat) where
  | report (a : Nat) (req : ReportStatusRequest) (refused : Bool)
  | newReportRequest (a : Nat) (refused : Bool)
  | sendNext (a : Nat) (pool : BufPool) (sound : pool.Ok)
  | doWrite (a : Nat) (results : List WriteResult) (pool : BufPool) (sound : pool.Ok)
  /-- A `do_read` of the reporter; `refused i` is the outcome of the write to the eventfd in the
  call number `i`. -/
  | read (a : Nat) (ev : ReadEvent) (refused : Nat → Bool)
  | recv (i : Fin n) (refused : Bool)
  | insert (i : Fin n)

namespace Reporting

variable {n : Nat}

def setClient (a : Nat) (c : ReportClient) (s : Reporting n) : Reporting n :=
  { s with clients := Function.update s.clients a c }

/-- The service takes a few steps. -/
def serve (ops : List (Op n)) (s : Reporting n) : Reporting n :=
  { s with service := ops.foldl Service.step s.service, ops := s.ops ++ ops }

/-- The callbacks of one `do_read`. -/
def handle (a : Nat) (refused : Nat → Bool) (reqs : List ReportStatusRequest) (s : Reporting n) :
    Reporting n :=
  { s.serve (reqs.mapIdx fun i req => .getReportStatus req (refused i)) with
    handled := s.handled ++ reqs.map fun req => (a, req) }

def step (rt : Runtime) (left : List UInt8 → ReportStatusRequest) (s : Reporting n) :
    ReportingStep n → Except Fault (Reporting n)
  | .report a req refused => .ok (s.setClient a ((s.clients a).report req refused))
  | .newReportRequest a refused => .ok (s.setClient a ((s.clients a).newReportRequest refused))
  | .sendNext a pool sound => ((s.clients a).sendNext rt pool sound).map fun c => s.setClient a c
  | .doWrite a results pool sound =>
    ((s.clients a).doWrite results pool sound).map fun c => s.setClient a c
  | .read a ev refused =>
    let c := s.clients a
    (c.link.step .client .conn c.sockfd (.read ev)).map fun link =>
      let new := link.receiver.calls.drop c.link.receiver.calls.length
      (s.setClient a { c with link := link }).handle a refused (new.filterMap (requestOf rt left))
  | .recv i refused => .ok (s.serve [.recv i refused])
  | .insert i => .ok (s.serve [.insert i])

/-- The reporter has just started, and the agents have connected. -/
def init [NeZero n] (rows : RowKey → Option Row) (sockfds : Nat → Nat) (loops : Nat → Loop) :
    Reporting n :=
  ⟨fun a => .init (sockfds a) (loops a), .start n rows, [], []⟩

/-- The reports that have come from one agent. -/
def handledFrom (a : Nat) (s : Reporting n) : List ReportStatusRequest :=
  (s.handled.filter (·.1 = a)).map (·.2)

end Reporting

/-! ### One agent -/

section documented

variable {rt : Runtime} (documented : rt.Documented)

include documented

/-- The reporter finds in a message the report that was put into it. -/
theorem requestOf_message (left : List UInt8 → ReportStatusRequest) (req : ReportStatusRequest) :
    requestOf rt left (Call.ofMsg (message rt req)) = some req := by
  have read : parseFromArray rt (Message.serialize rt req) = some req :=
    (roundTrips_reportStatusRequest documented).same req
  rw [requestOf, reporterRouter, MsgRouter.call_registerMsgRouter]
  simp only [message, Call.ofMsg, ↓reduceIte, MsgRouter.call_init, read, Option.getD_some]
  rfl

theorem filterMap_requestOf (left : List UInt8 → ReportStatusRequest)
    (reqs : List ReportStatusRequest) :
    ((reqs.map (message rt)).map Call.ofMsg).filterMap (requestOf rt left) = reqs := by
  induction reqs with
  | nil => rfl
  | cons req reqs ih =>
    rw [List.map_cons, List.map_cons,
      List.filterMap_cons_some (requestOf_message documented left req), ih]

end documented

namespace ReportClient

variable {rt : Runtime} {c c' : ReportClient}

/-- The reports that were accepted for sending, the ones in the hands of `new_report_request` and
the ones in the queue were all put into the queue in this order. -/
structure Orderly (rt : Runtime) (c : ReportClient) : Prop where
  joined : c.link.Joined
  accepted : ∃ accepted, c.link.sender.sent = accepted.map (message rt) ∧
    (accepted ++ c.msgs ++ c.reportQueue.queue).Sublist c.reported ∧
    (accepted ++ c.msgs ++ c.reportQueue.queue).length + c.refused = c.reported.length

theorem Orderly.init (sockfd : Nat) (loop : Loop) : (ReportClient.init sockfd loop).Orderly rt where
  joined := Link.Joined.init loop
  accepted := ⟨[], rfl, List.Sublist.refl _, rfl⟩

theorem Orderly.report (orderly : c.Orderly rt) (req : ReportStatusRequest) (refused : Bool) :
    (c.report req refused).Orderly rt := by
  obtain ⟨accepted, sent, order, count⟩ := orderly.accepted
  refine ⟨orderly.joined, accepted, sent, ?_⟩
  change (accepted ++ c.msgs ++ (c.reportQueue.queue ++ [req])).Sublist (c.reported ++ [req]) ∧
    (accepted ++ c.msgs ++ (c.reportQueue.queue ++ [req])).length + c.refused =
      (c.reported ++ [req]).length
  rw [← List.append_assoc]
  refine ⟨order.append (List.Sublist.refl _), ?_⟩
  simp only [List.length_append, List.length_cons, List.length_nil] at count ⊢
  omega

theorem Orderly.newReportRequest (orderly : c.Orderly rt) (refused : Bool) :
    (c.newReportRequest refused).Orderly rt := by
  unfold ReportClient.newReportRequest
  split
  next free =>
    obtain ⟨accepted, sent, order⟩ := orderly.accepted
    refine ⟨orderly.joined, accepted, sent, ?_⟩
    rw [free.1, List.append_nil] at order
    change (accepted ++ c.reportQueue.queue ++ []).Sublist c.reported ∧
      (accepted ++ c.reportQueue.queue ++ []).length + c.refused = c.reported.length
    rwa [List.append_nil]
  next => exact orderly

theorem Orderly.sendNext (orderly : c.Orderly rt) {pool : BufPool} {sound : pool.Ok}
    (done : c.sendNext rt pool sound = .ok c') : c'.Orderly rt := by
  unfold ReportClient.sendNext at done
  split at done
  · cases done
    exact orderly
  next req msgs taken =>
    obtain ⟨link, moved, rfl⟩ := map_ok_inv done
    obtain ⟨accepted, sent, order, count⟩ := orderly.accepted
    rw [taken] at order count
    refine ⟨Link.step_joined _ _ _ orderly.joined moved, ?_⟩
    dsimp only
    rcases (Link.step_send moved).2 with refused | ⟨data, msgid, call, more⟩
    -- a refused report is lost, the others keep their order
    · rw [if_pos refused]
      refine ⟨accepted, refused.trans sent, List.Sublist.trans ?_ order, ?_⟩
      · exact ((List.Sublist.refl _).append (List.sublist_cons_self _ _)).append
          (List.Sublist.refl _)
      · rw [← count]
        simp only [List.length_append, List.length_cons]
        omega
    · cases call
      rw [if_neg (by simp [more])]
      refine ⟨accepted ++ [req], ?_, ?_⟩
      · rw [more, sent, List.map_append]
        rfl
      · rw [List.append_assoc accepted]
        exact ⟨order, count⟩

theorem Orderly.doWrite (orderly : c.Orderly rt) {results : List WriteResult} {pool : BufPool}
    {sound : pool.Ok} (done : c.doWrite results pool sound = .ok c') : c'.Orderly rt := by
  unfold ReportClient.doWrite at done
  split at done
  · obtain ⟨link, moved, rfl⟩ := map_ok_inv done
    obtain ⟨accepted, sent, order⟩ := orderly.accepted
    refine ⟨Link.step_joined _ _ _ orderly.joined moved, accepted, ?_, order⟩
    rcases (Link.step_send moved).2 with same | ⟨_, _, call, -⟩
    · exact same.trans sent
    · cases call
  · cases done
    exact orderly

theorem Orderly.read (orderly : c.Orderly rt) {ev : ReadEvent} {link : Link}
    (moved : c.link.step .client .conn c.sockfd (.read ev) = .ok link) :
    { c with link := link }.Orderly rt := by
  obtain ⟨accepted, sent, order⟩ := orderly.accepted
  refine ⟨Link.step_joined _ _ _ orderly.joined moved, accepted, ?_, order⟩
  rw [(Link.step_read moved).1]
  exact sent

theorem sendNext_receiver {pool : BufPool} {sound : pool.Ok}
    (done : c.sendNext rt pool sound = .ok c') : c'.link.receiver = c.link.receiver := by
  unfold ReportClient.sendNext at done
  split at done
  · cases done
    rfl
  · obtain ⟨link, moved, rfl⟩ := map_ok_inv done
    exact (Link.step_send moved).1

theorem doWrite_receiver {results : List WriteResult} {pool : BufPool} {sound : pool.Ok}
    (done : c.doWrite results pool sound = .ok c') : c'.link.receiver = c.link.receiver := by
  unfold ReportClient.doWrite at done
  split at done
  · obtain ⟨link, moved, rfl⟩ := map_ok_inv done
    exact (Link.step_send moved).1
  · cases done
    rfl

theorem newReportRequest_link (refused : Bool) (c : ReportClient) :
    (c.newReportRequest refused).link = c.link := by
  unfold ReportClient.newReportRequest
  split <;> rfl

/-- The queue is empty, all of it is sent and read. -/
def AtRest (c : ReportClient) : Prop :=
  c.reportQueue.queue = [] ∧ c.msgs = [] ∧ c.link.Quiet

end ReportClient

/-! ### All agents -/

namespace Reporting

variable {rt : Runtime} {n : Nat} [NeZero n] {left : List UInt8 → ReportStatusRequest}
  {rows : RowKey → Option Row} {s t : Reporting n}

/-- What has come from an agent is what its connection has delivered, and the service is where its
calls have brought it. -/
structure Kept (rt : Runtime) (left : List UInt8 → ReportStatusRequest) (rows : RowKey → Option Row)
    (s : Reporting n) : Prop where
  orderly : ∀ a, (s.clients a).Orderly rt
  handled : ∀ a, s.handledFrom a = (s.clients a).link.receiver.calls.filterMap (requestOf rt left)
  service : s.service = s.ops.foldl Service.step (.start n rows)
  received : received s.ops = s.handled.map (·.2)

theorem Kept.init (sockfds : Nat → Nat) (loops : Nat → Loop) :
    Kept rt left rows (.init (n := n) rows sockfds loops) where
  orderly a := ReportClient.Orderly.init (sockfds a) (loops a)
  handled _ := rfl
  service := rfl
  received := rfl

/-- An agent moves, and the reporter does not. -/
theorem Kept.setClient (kept : Kept rt left rows s) {a : Nat} {c : ReportClient}
    (orderly : c.Orderly rt) (same : c.link.receiver = (s.clients a).link.receiver) :
    Kept rt left rows (s.setClient a c) where
  orderly b := by
    change (Function.update s.clients a c b).Orderly rt
    by_cases own : b = a
    · rwa [own, Function.update_self]
    · rw [Function.update_of_ne own]
      exact kept.orderly b
  handled b := by
    change s.handledFrom b =
      (Function.update s.clients a c b).link.receiver.calls.filterMap (requestOf rt left)
    rw [kept.handled b]
    by_cases own : b = a
    · rw [own, Function.update_self, same]
    · rw [Function.update_of_ne own]
  service := kept.service
  received := kept.received

/-- A store thread moves. -/
theorem Kept.serve (kept : Kept rt left rows s) {ops : List (Op n)}
    (silent : Reporter.received ops = []) : Kept rt left rows (s.serve ops) where
  orderly := kept.orderly
  handled := kept.handled
  service := by
    change ops.foldl Service.step s.service = (s.ops ++ ops).foldl Service.step (.start n rows)
    rw [List.foldl_append, ← kept.service]
  received := by
    change Reporter.received (s.ops ++ ops) = s.handled.map (·.2)
    rw [Service.received_append, silent, List.append_nil, kept.received]

omit [NeZero n] in
theorem received_mapIdx (reqs : List ReportStatusRequest) (refused : Nat → Bool) :
    received (reqs.mapIdx fun i req => (.getReportStatus req (refused i) : Op n)) = reqs := by
  induction reqs generalizing refused with
  | nil => rfl
  | cons req reqs ih =>
    rw [List.mapIdx_cons, received]
    exact congrArg _ (ih fun i => refused (i + 1))

omit [NeZero n] in
theorem handledFrom_handle (a b : Nat) (refused : Nat → Bool) (reqs : List ReportStatusRequest)
    (s : Reporting n) :
    (s.handle a refused reqs).handledFrom b =
      if b = a then s.handledFrom b ++ reqs else s.handledFrom b := by
  have tagged : ((reqs.map fun req => (a, req)).filter (·.1 = b)).map (·.2) =
      if b = a then reqs else [] := by
    split
    next own =>
      rw [own, List.filter_eq_self.mpr (by simp), List.map_map]
      exact List.map_id _
    next other =>
      rw [List.filter_eq_nil_iff.mpr (by simp [Ne.symm other])]
      rfl
  change ((s.handled ++ reqs.map fun req => (a, req)).filter (·.1 = b)).map (·.2) = _
  rw [List.filter_append, List.map_append, tagged]
  split
  · rfl
  · rw [List.append_nil]
    rfl

/-- The reporter reads from a connection and handles what has become complete. -/
theorem Kept.read (kept : Kept rt left rows s) {a : Nat} {ev : ReadEvent} {link : Link}
    (refused : Nat → Bool)
    (moved : (s.clients a).link.step .client .conn (s.clients a).sockfd (.read ev) = .ok link) :
    Kept rt left rows ((s.setClient a { s.clients a with link := link }).handle a refused
      ((link.receiver.calls.drop (s.clients a).link.receiver.calls.length).filterMap
        (requestOf rt left))) where
  orderly b := by
    change (Function.update s.clients a _ b).Orderly rt
    by_cases own : b = a
    · rw [own, Function.update_self]
      exact (kept.orderly a).read moved
    · rw [Function.update_of_ne own]
      exact kept.orderly b
  handled b := by
    rw [handledFrom_handle]
    change (if b = a then s.handledFrom b ++ _ else s.handledFrom b) =
      (Function.update s.clients a _ b).link.receiver.calls.filterMap (requestOf rt left)
    split
    next own =>
      obtain ⟨new, calls⟩ := (Link.step_read moved).2
      rw [own, Function.update_self, kept.handled a, ← List.filterMap_append, ← calls,
        List.drop_left]
    next other => rw [Function.update_of_ne other, kept.handled b]
  service := by
    change List.foldl Service.step s.service _ =
      List.foldl Service.step (.start n rows) (s.ops ++ _)
    rw [List.foldl_append, ← kept.service]
  received := by
    change Reporter.received (s.ops ++ _) = (s.handled ++ _).map (·.2)
    rw [Service.received_append, received_mapIdx, kept.received, List.map_append, List.map_map]
    exact congrArg _ (List.map_id _).symm

theorem step_kept (s : Reporting n) (op : ReportingStep n) (t : Reporting n)
    (kept : Kept rt left rows s) (taken : s.step rt left op = .ok t) : Kept rt left rows t := by
  cases op with
  | report a req refused =>
    cases taken
    exact kept.setClient ((kept.orderly a).report req refused) rfl
  | newReportRequest a refused =>
    cases taken
    exact kept.setClient ((kept.orderly a).newReportRequest refused)
      (by rw [ReportClient.newReportRequest_link])
  | sendNext a pool sound =>
    obtain ⟨c, done, rfl⟩ := map_ok_inv taken
    exact kept.setClient ((kept.orderly a).sendNext done) (ReportClient.sendNext_receiver done)
  | doWrite a results pool sound =>
    obtain ⟨c, done, rfl⟩ := map_ok_inv taken
    exact kept.setClient ((kept.orderly a).doWrite done) (ReportClient.doWrite_receiver done)
  | read a ev refused =>
    obtain ⟨link, moved, rfl⟩ := map_ok_inv taken
    exact kept.read refused moved
  | recv i refused =>
    cases taken
    exact kept.serve rfl
  | insert i =>
    cases taken
    exact kept.serve rfl

/-- The reports that `send_message` has accepted have arrived from the first on, and at rest all of
them, unless a report is too long for the reporter. -/
theorem Kept.arrived (documented : rt.Documented) (kept : Kept rt left rows s) (a : Nat) :
    ∃ accepted, (s.clients a).link.sender.sent = accepted.map (message rt) ∧
      accepted.Sublist (s.clients a).reported ∧ s.handledFrom a <+: accepted ∧
      ((s.clients a).AtRest →
        (∀ req ∈ accepted, (Message.serialize rt req).length ≤ messageLengthLimit) →
        s.handledFrom a = accepted ∧
          ((s.clients a).refused = 0 → accepted = (s.clients a).reported)) := by
  obtain ⟨joined, accepted, sent, order, count⟩ := kept.orderly a
  have part : accepted.Sublist (s.clients a).reported := by
    rw [List.append_assoc] at order
    exact (List.sublist_append_left _ _).trans order
  refine ⟨accepted, sent, part, ?_, fun rest sizes => ?_⟩
  · have calls := joined.calls.filterMap (requestOf rt left)
    rwa [sent, filterMap_requestOf documented, ← kept.handled a] at calls
  · have all := joined.calls_of_quiet rest.2.2 (by
      rw [sent]
      intro m member
      obtain ⟨req, there, rfl⟩ := List.mem_map.mp member
      exact sizes req there)
    rw [kept.handled a, all, sent, filterMap_requestOf documented]
    refine ⟨rfl, fun none => part.eq_of_length ?_⟩
    rw [rest.1, rest.2.1, none, List.append_nil, List.append_nil] at count
    exact count

/-! ### The table -/

omit [NeZero n] in
theorem shareFrom_subset (first i : Fin n) (reqs : List ReportStatusRequest) :
    shareFrom first i reqs ⊆ reqs := by
  induction reqs generalizing first with
  | nil => exact List.Subset.refl _
  | cons req reqs ih =>
    rw [shareFrom]
    split
    · exact List.cons_subset_cons _ (ih _)
    · exact List.subset_cons_of_subset _ (ih _)

/-- A request that was handled was reported by the agent it came from. -/
theorem Kept.reported (documented : rt.Documented) (kept : Kept rt left rows s)
    {req : ReportStatusRequest} (member : req ∈ Reporter.received s.ops) :
    ∃ a, req ∈ (s.clients a).reported := by
  rw [kept.received] at member
  obtain ⟨⟨a, own⟩, handled, same⟩ := List.mem_map.mp member
  cases same
  obtain ⟨accepted, -, order, part, -⟩ := kept.arrived documented a
  have first : own ∈ s.handledFrom a :=
    List.mem_map.mpr ⟨(a, own), List.mem_filter.mpr ⟨handled, by simp⟩, rfl⟩
  exact ⟨a, order.subset (part.subset first)⟩

/-- What is in the table was there at the start or comes from a report. -/
theorem Kept.row (documented : rt.Documented) (kept : Kept rt left rows s) {key : RowKey}
    {row : Row} (found : s.service.serverCallStatus key = some row) :
    rows key = some row ∨ ∃ a, ∃ req ∈ (s.clients a).reported, (key, row) ∈ store req := by
  obtain ⟨log, stored⟩ := Service.run_stored (.start n rows) s.ops
  rw [kept.service, stored.table, Option.or_eq_some_iff] at found
  rcases found with written | ⟨-, before⟩
  · right
    obtain ⟨i, own⟩ := LastWrite.exists_part_last written
    -- what a thread has written is in its share of the requests
    have dealt : (key, row) ∈ (shareFrom 0 i (Reporter.received s.ops)).flatMap store := by
      have sent := stored.sent i
      change _ = (shareFrom 0 i (Reporter.received s.ops)).flatMap store at sent
      rw [← sent]
      exact List.mem_append_left _ (LastWrite.mem_of_last own)
    obtain ⟨req, member, statement⟩ := List.mem_flatMap.mp dealt
    obtain ⟨a, reported⟩ := kept.reported documented (shareFrom_subset 0 i _ member)
    exact ⟨a, req, reported, statement⟩
  · exact .inl before

/-! ### A single report -/

@[simp] theorem setClient_self {n : Nat} (a : Nat) (c : ReportClient) (s : Reporting n) :
    (s.setClient a c).clients a = c := Function.update_self ..

@[simp] theorem setClient_setClient {n : Nat} (a : Nat) (c d : ReportClient) (s : Reporting n) :
    (s.setClient a c).setClient a d = s.setClient a d := by
  simp only [setClient, Function.update_idem]

private def sparePool : BufPool := ⟨fun _ => [], 0, 0⟩

private theorem sparePool_ok : sparePool.Ok := fun c b member => by cases member

private def spareLoop : Loop := ⟨fun _ => none, ∅, ⟨fun _ => false, fun _ => none⟩⟩

/-- One overloaded host of a module. -/
private def aReport : ReportStatusRequest := ⟨1, 2, 0, [⟨7, 80, 5, 1, true⟩], 9⟩

private def itsBytes : List UInt8 :=
  [8, 1, 16, 2, 34, 10, 8, 7, 16, 80, 24, 5, 32, 1, 40, 1, 40, 9]

private theorem serialize_aReport : Message.serialize wire aReport = itsBytes := by
  simp only [Message.serialize, aReport, int32Field, uint32Field, messageField, boolField, wire,
    List.flatMap_cons, List.flatMap_nil]
  simp (disch := decide) only [varint_small]
  decide

private def itsArrival : ReadEvent :=
  ⟨.chunk (msgCodec.frame (idReportStatusRequest, itsBytes)) (by decide) (by decide),
    sparePool, sparePool_ok⟩

/-- It is made, taken from the queue, sent, written, read and stored by a thread. -/
private def oneReport (thread : Fin 2) : List (ReportingStep 2) :=
  [.report 0 aReport false, .newReportRequest 0 false, .sendNext 0 sparePool sparePool_ok,
    .doWrite 0 [.accepted 26] sparePool sparePool_ok, .read 0 itsArrival fun _ => false,
    .recv thread false, .insert thread]

/-- The reporter with its threads, and agents that have connected. -/
private def atStart (n : Nat) [NeZero n] : Reporting n :=
  .init (fun _ => none) (fun _ => 3) fun _ => spareLoop

/-- The client when it has made the report. -/
private def reporting (msgs : List ReportStatusRequest) (link : Link) : ReportClient :=
  ⟨.init, msgs, 3, link, [aReport], 0⟩

/-- The way over the connection. -/
private theorem itsBytes_cross : ∃ l₁ l₂ l₃ : Link,
    (Link.init spareLoop).step .client .conn 3
      (.send ⟨.send itsBytes idReportStatusRequest, sparePool, sparePool_ok⟩) = .ok l₁ ∧
    l₁.step .client .conn 3 (.send ⟨.write [.accepted 26], sparePool, sparePool_ok⟩) = .ok l₂ ∧
    l₂.step .client .conn 3 (.read itsArrival) = .ok l₃ ∧
    l₁.sender.sent ≠ (Link.init spareLoop).sender.sent ∧ l₂.receiver.calls = [] ∧
    l₃.receiver.calls = [Call.ofMsg (idReportStatusRequest, itsBytes)] ∧ l₃.Quiet :=
  ⟨_, _, _, rfl, rfl, rfl, by decide, rfl, rfl, rfl, rfl, rfl⟩

private theorem oneReport_ran :
    ∃ s, Run.run (step wire fun _ => Message.zero) (atStart 2) (oneReport 0) = .ok s ∧
      (s.clients 0).AtRest ∧ (s.clients 0).refused = 0 ∧ (s.clients 0).reported = [aReport] ∧
      s.service.Drained ∧ s.handled = [(0, aReport)] := by
  obtain ⟨l₁, l₂, l₃, sent, written, read, more, silent, called, quiet⟩ := itsBytes_cross
  have parsed : [Call.ofMsg (idReportStatusRequest, itsBytes)].filterMap
      (requestOf wire fun _ => Message.zero) = [aReport] := by
    rw [← serialize_aReport]
    exact filterMap_requestOf wire_documented _ [aReport]
  have taking : (((atStart 2).clients 0).report aReport false).newReportRequest false =
      reporting [aReport] (.init spareLoop) := rfl
  have sending : (reporting [aReport] (.init spareLoop)).sendNext wire sparePool sparePool_ok =
      .ok (reporting [] l₁) := by
    simp only [reporting, ReportClient.sendNext, serialize_aReport, sent, Except.map]
    exact congrArg (fun refused => Except.ok (ReportClient.mk .init [] 3 l₁ [aReport] refused))
      (if_neg more)
  have writing : (reporting [] l₁).doWrite [.accepted 26] sparePool sparePool_ok =
      .ok (reporting [] l₂) := by
    simp only [reporting, ReportClient.doWrite, written, Except.map, ↓reduceIte]
  refine ⟨((((atStart 2).setClient 0 (reporting [] l₃)).handle 0 (fun _ => false)
    [aReport]).serve [.recv 0 false]).serve [.insert 0], ?_, ⟨rfl, rfl, quiet⟩, rfl, rfl, ?_, rfl⟩
  · simp only [oneReport, Run.run, step, setClient_self, setClient_setClient, taking, sending,
      writing, Except.map]
    simp only [reporting, read, silent, called, List.length_nil, List.drop_zero, parsed]
  · exact Fin.forall_fin_two.mpr ⟨⟨rfl, rfl⟩, ⟨rfl, rfl⟩⟩

/-! ### Every run -/

/-- In every run, with any number of agents: the reports that come from an agent are those that it
could send, each once and in the order in which its load balancers have made them. When nothing is
left in its queue, in the buffers and on the way, they are all of those, and all that were made
unless one was refused. -/
theorem reports_arrive (documented : rt.Documented) (threads : Nat)
    (left : List UInt8 → ReportStatusRequest) (rows : RowKey → Option Row)
    (sockfds : Nat → Nat) (loops : Nat → Loop)
    (ops : List (ReportingStep (threads + 1))) :
    Run.Always (step rt left) (fun s => ∀ a,
      ∃ accepted, (s.clients a).link.sender.sent = accepted.map (message rt) ∧
        accepted.Sublist (s.clients a).reported ∧ s.handledFrom a <+: accepted ∧
        ((s.clients a).AtRest →
          (∀ req ∈ accepted, (Message.serialize rt req).length ≤ messageLengthLimit) →
          s.handledFrom a = accepted ∧
            ((s.clients a).refused = 0 → accepted = (s.clients a).reported)))
      (.init rows sockfds loops) ops := by
  have start : Kept rt left rows (.init (n := threads + 1) rows sockfds loops) :=
    Kept.init sockfds loops
  exact (Run.always_of_preserved step_kept start).mono fun _ kept =>
    kept.arrived documented

/-- The one report arrives. -/
theorem reports_arrive_one :
    ∃ s, Run.run (step wire fun _ => Message.zero) (atStart 2) (oneReport 0) = .ok s ∧
      s.handledFrom 0 = [aReport] := by
  obtain ⟨s, done, rest, none, reported, -⟩ := oneReport_ran
  obtain ⟨accepted, -, part, -, whole⟩ := (reports_arrive wire_documented 1 (fun _ => Message.zero)
    (fun _ => .none) (fun _ => 3) (fun _ => spareLoop) (oneReport 0)).last done 0
  have sizes : ∀ req ∈ accepted, (Message.serialize wire req).length ≤ messageLengthLimit := by
    intro req member
    have only := part.subset member
    rw [reported, List.mem_singleton] at only
    rw [only, serialize_aReport]
    decide
  obtain ⟨handled, all⟩ := whole rest sizes
  exact ⟨s, done, handled.trans ((all none).trans reported)⟩

end Reporting

end Lars.Reporter
