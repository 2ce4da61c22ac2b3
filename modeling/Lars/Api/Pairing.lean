import Lars.Api.Client
import Lars.Lib.Run

/-!
# Calls and their answers

The calls of a client share its sockets. The agent answers every request once
and in order, so an answer that a call did not wait for is the first thing the
next call on that socket reads. `get_host` passes over answers with a smaller
sequence number; it has no rule for answers of the other kind, and `get_route`
has no rule at all.
-/
namespace Lars.Api

open Proto (retSystemError)
open Agent (shardOf)

/-- `get_host_cb` copies the number and the module; `route_lb` fills in the rest. -/
def getHostCb (req : Proto.GetHostRequest) (retcode : Int32) (host : Option Proto.HostInfo) :
    Proto.GetHostResponse :=
  ⟨req.seq, req.modid, req.cmdid, retcode, host⟩

def getRouteCb (req : Proto.GetRouteRequest) (host : List Proto.HostInfo) :
    Proto.GetRouteResponse :=
  ⟨req.modid, req.cmdid, host⟩

inductive Answer where
  | host (rsp : Proto.GetHostResponse)
  | route (rsp : Proto.GetRouteResponse)

/-- An answer on its socket, with the number of the call whose request it answers. -/
structure Datagram where
  call : Nat
  answer : Answer

namespace Datagram

/-- What `get_host` sees when it reads the datagram. -/
def asHost (d : Datagram) : Received Proto.GetHostResponse :=
  match d.answer with
  | .host rsp => .answer rsp
  | .route _ => .otherMessage

/-- What `get_route` sees when it reads the datagram. -/
def asRoute (d : Datagram) : Received Proto.GetRouteResponse :=
  match d.answer with
  | .host _ => .otherMessage
  | .route rsp => .answer rsp

/-- The loop of `get_host` goes on to the next datagram. -/
def Skipped (seq : UInt32) (d : Datagram) : Prop := ∃ rsp, d.answer = .host rsp ∧ rsp.seq < seq

end Datagram

variable {ρ : Type}

/-- The calls of `recvfrom` one after the other. With `fails = some k` the one that finds `k`
datagrams read already returns -1. -/
def recvs (read : Datagram → Received ρ) (fails : Option Nat) (q : List Datagram) :
    List (Received ρ) :=
  match fails with
  | none => q.map read
  | some k => (q.take k).map read ++ .failed :: (q.drop k).map read

/-- What `count` calls of `recvfrom` leave on the socket, and whose answer the last of them has
read; none if it failed. -/
def settle (fails : Option Nat) (q : List Datagram) (count : Nat) : List Datagram × Option Nat :=
  if fails = some (count - 1) then (q.drop (count - 1), none)
  else (q.drop count, q[count - 1]?.map (·.call))

/-- What a call has returned; nothing while it waits. -/
inductive Outcome where
  | host (result : Option (Int32 × Option (String × Int32)))
  | route (result : Option (Int32 × List (String × Int32)))

/-- The end of a call, beside what it should be on either account. -/
structure Ending where
  call : Nat
  /-- Whose answer the call has ended with; none if a `recvfrom` failed. -/
  account : Option Nat
  result : Outcome
  /-- What the answer to the call's own request says. -/
  own : Outcome
  failure : Outcome

/-- The call fails because its own `recvfrom` does, or returns what the answer to its own
request says. -/
def Ending.Paired (e : Ending) : Prop :=
  e.account = none ∧ e.result = e.failure ∨ e.account = some e.call ∧ e.result = e.own

/-- A client, its sockets and the calls it has made. -/
structure Session where
  client : LarsClient
  sockets : Fin 3 → List Datagram
  log : List Ending

/-- A call, at which read it is interrupted, and what the agent's answer to it will hold. -/
inductive ClientOp where
  | getHost (modid cmdid : Int32) (fails : Option Nat) (retcode : Int32)
      (host : Option Proto.HostInfo)
  | getRoute (modid cmdid : Int32) (fails : Option Nat) (host : List Proto.HostInfo)
      (route : List (String × Int32))

namespace Session

def init : Session := ⟨⟨0⟩, fun _ => [], []⟩

/-- The answer to the next request reaches its socket. -/
def arrive (s : Session) (index : Fin 3) (answer : Answer) : Fin 3 → List Datagram :=
  Function.update s.sockets index (s.sockets index ++ [⟨s.log.length, answer⟩])

/-- The call has ended after `count` reads. -/
def close (s : Session) (client : LarsClient) (sockets : Fin 3 → List Datagram) (index : Fin 3)
    (fails : Option Nat) (count : Nat) (result own failure : Outcome) : Session :=
  let (rest, account) := settle fails (sockets index) count
  { client
    sockets := Function.update sockets index rest
    log := s.log ++ [⟨s.log.length, account, result, own, failure⟩] }

def step (s : Session) : ClientOp → Except Fault Session
  | .getHost modid cmdid fails retcode host =>
    match shardOf modid cmdid with
    | .error e => .error e
    | .ok index =>
      -- the answer comes behind whatever the socket holds by now
      let rsp := getHostCb ⟨s.client.seqid, modid, cmdid⟩ retcode host
      let sockets := s.arrive index (.host rsp)
      let incoming := fun socket => recvs Datagram.asHost fails (sockets socket)
      match s.client.getHost modid cmdid true incoming with
      | .error e => .error e
      | .ok (call, client) =>
        -- what the call has not left unread it has read
        .ok (s.close client sockets index fails ((incoming index).length - call.unread.length)
          (.host call.result)
          (.host (some (LarsClient.takeHost s.client.seqid modid cmdid rsp)))
          (.host (some (retSystemError, none))))
  | .getRoute modid cmdid fails host route =>
    match shardOf modid cmdid with
    | .error e => .error e
    | .ok index =>
      let rsp := getRouteCb ⟨modid, cmdid⟩ host
      let sockets := s.arrive index (.route rsp)
      let incoming := fun socket => recvs Datagram.asRoute fails (sockets socket)
      match LarsClient.getRoute modid cmdid true incoming route with
      | .error e => .error e
      | .ok call =>
        .ok (s.close s.client sockets index fails ((incoming index).length - call.unread.length)
          (.route call.result)
          (.route (some (LarsClient.takeRoute modid cmdid rsp route)))
          (.route (some (retSystemError, route))))

end Session

/-- The datagrams that are read before a `recvfrom` fails. -/
def reach (fails : Option Nat) (q : List Datagram) : List Datagram :=
  match fails with
  | none => q
  | some k => q.take k

theorem reach_subset (fails : Option Nat) (q : List Datagram) : reach fails q ⊆ q := by
  cases fails with
  | none => exact List.Subset.refl q
  | some k => exact List.take_subset k q

/-- What earlier calls have left on the socket does not stop this one: `get_route` finds nothing
there, and `get_host` only answers to earlier calls of `get_host`, with smaller numbers. -/
def Session.Undisturbed (s : Session) : ClientOp → Prop
  | .getHost modid cmdid fails _ _ => ∀ index, shardOf modid cmdid = .ok index →
    ∀ d ∈ reach fails (s.sockets index), d.Skipped s.client.seqid
  | .getRoute modid cmdid fails _ _ => ∀ index, shardOf modid cmdid = .ok index →
    reach fails (s.sockets index) = []

/-! ### Reading up to the datagram that ends a call -/

/-- The reads stop at the datagram `d`: those before it are passed over and none fails. -/
structure StopsAt (passes : Datagram → Prop) (fails : Option Nat) (q skipped : List Datagram)
    (d : Datagram) (rest : List Datagram) : Prop where
  split : q = skipped ++ d :: rest
  passed : ∀ p ∈ skipped, passes p
  stopped : ¬ passes d
  early : ∀ k, fails = some k → skipped.length < k

/-- Either nothing on the way is an obstacle, or the first obstacle ends the reading. -/
theorem passed_or_stops (passes : Datagram → Prop) (fails : Option Nat) (q : List Datagram) :
    (∀ d ∈ reach fails q, passes d) ∨ ∃ skipped d rest, StopsAt passes fails q skipped d rest := by
  -- by induction on what waits; the first obstacle is the first datagram or behind it
  induction q generalizing fails with
  | nil => exact .inl fun d member => by cases fails <;> simp [reach] at member
  | cons first q ih =>
    by_cases none_read : fails = some 0
    · exact .inl fun d member => by simp [reach, none_read] at member
    by_cases passed : passes first
    · -- one datagram on, a failure comes one read earlier
      rcases ih (fails.map (· - 1)) with all | ⟨skipped, d, rest, stops⟩
      · refine .inl fun d member => ?_
        cases fails with
        | none =>
          rcases List.mem_cons.mp member with rfl | later
          · exact passed
          · exact all d later
        | some k =>
          cases k with
          | zero => exact absurd rfl none_read
          | succ k =>
            rcases List.mem_cons.mp member with rfl | later
            · exact passed
            · exact all d later
      · refine .inr ⟨first :: skipped, d, rest, by rw [stops.split]; rfl, ?_, stops.stopped, ?_⟩
        · intro p member
          rcases List.mem_cons.mp member with rfl | later
          · exact passed
          · exact stops.passed p later
        · rintro k rfl
          have early := stops.early (k - 1) rfl
          rw [List.length_cons]
          omega
    · refine .inr ⟨[], first, q, rfl, fun p member => absurd member List.not_mem_nil, passed, ?_⟩
      rintro k rfl
      exact Nat.pos_of_ne_zero fun zero => none_read (congrArg some zero)

namespace StopsAt

variable {passes : Datagram → Prop} {fails : Option Nat} {q skipped rest : List Datagram}
  {d : Datagram}

theorem mem_reach (stops : StopsAt passes fails q skipped d rest) : d ∈ reach fails q := by
  rw [stops.split]
  cases fails with
  | none => exact List.mem_append_right _ List.mem_cons_self
  | some k =>
    have early := stops.early k rfl
    obtain ⟨more, rfl⟩ := Nat.exists_eq_add_of_lt early
    rw [reach, Nat.add_assoc, List.take_length_add_append, List.take_succ_cons]
    exact List.mem_append_right _ List.mem_cons_self

/-- What comes later does not matter. -/
theorem append (stops : StopsAt passes fails q skipped d rest) (more : List Datagram) :
    StopsAt passes fails (q ++ more) skipped d (rest ++ more) where
  split := by rw [stops.split, List.append_assoc, List.cons_append]
  passed := stops.passed
  stopped := stops.stopped
  early := stops.early

theorem recvs_eq (stops : StopsAt passes fails q skipped d rest) (read : Datagram → Received ρ) :
    ∃ unread, recvs read fails q = skipped.map read ++ read d :: unread := by
  rw [stops.split]
  cases fails with
  | none => exact ⟨rest.map read, by rw [recvs, List.map_append, List.map_cons]⟩
  | some k =>
    have early := stops.early k rfl
    obtain ⟨more, rfl⟩ := Nat.exists_eq_add_of_lt early
    refine ⟨(rest.take more).map read ++ .failed :: (rest.drop more).map read, ?_⟩
    rw [recvs, Nat.add_assoc, List.take_length_add_append, List.drop_length_add_append,
      List.take_succ_cons, List.drop_succ_cons, List.map_append, List.append_assoc, List.map_cons,
      List.cons_append]

theorem settle_eq (stops : StopsAt passes fails q skipped d rest) :
    settle fails q (skipped.length + 1) = (rest, some d.call) := by
  have read : fails ≠ some (skipped.length + 1 - 1) := fun failed =>
    absurd (stops.early _ failed) (Nat.lt_irrefl _)
  rw [settle, if_neg read, stops.split]
  simp

end StopsAt

theorem recvs_interrupted (read : Datagram → Received ρ) {k : Nat} {q : List Datagram}
    (within : k ≤ q.length) (more : List Datagram) :
    ∃ unread, recvs read (some k) (q ++ more) = (q.take k).map read ++ .failed :: unread :=
  ⟨_, by rw [recvs, List.take_append_of_le_length within]⟩

theorem settle_interrupted (k : Nat) (q : List Datagram) :
    settle (some k) q (k + 1) = (q.drop k, none) :=
  if_pos rfl

/-! ### How the two calls read -/

/-- The result of `get_host` when its last read gave `r`. -/
def hostEnd (seq : UInt32) (modid cmdid : Int32) (r : Received Proto.GetHostResponse) :
    Int32 × Option (String × Int32) :=
  match r with
  | .answer rsp => LarsClient.takeHost seq modid cmdid rsp
  | _ => (retSystemError, none)

theorem awaitHost_skipped {seq : UInt32} {skipped : List Datagram}
    (passed : ∀ d ∈ skipped, d.Skipped seq) (rest : List (Received Proto.GetHostResponse)) :
    LarsClient.awaitHost seq (skipped.map Datagram.asHost ++ rest) =
      LarsClient.awaitHost seq rest := by
  induction skipped with
  | nil => rfl
  | cons d skipped ih =>
    obtain ⟨rsp, kind, smaller⟩ := passed d List.mem_cons_self
    rw [List.map_cons, List.cons_append, Datagram.asHost, kind, LarsClient.awaitHost,
      if_pos smaller]
    exact ih fun d member => passed d (List.mem_cons_of_mem _ member)

/-- `get_host` when the first read that does not go on gives `r`. -/
theorem getHost_reads {modid cmdid : Int32} {index : Fin 3} {c : LarsClient}
    (incoming : Fin 3 → List (Received Proto.GetHostResponse)) {skipped : List Datagram}
    {r : Received Proto.GetHostResponse} {unread : List (Received Proto.GetHostResponse)}
    (shard : shardOf modid cmdid = .ok index) (passed : ∀ d ∈ skipped, d.Skipped c.seqid)
    (ends : ∀ rsp, r = .answer rsp → ¬ rsp.seq < c.seqid)
    (reads : incoming index = skipped.map Datagram.asHost ++ r :: unread) :
    ∃ call, c.getHost modid cmdid true incoming = .ok (call, ⟨c.seqid + 1⟩) ∧
      call.result = some (hostEnd c.seqid modid cmdid r) ∧ call.unread = unread := by
  have waited : LarsClient.awaitHost c.seqid (incoming index) =
      LarsClient.awaitHost c.seqid (r :: unread) := by
    rw [reads, awaitHost_skipped passed]
  simp only [LarsClient.getHost, shard, waited, Bool.true_eq_false, ↓reduceIte]
  cases r with
  | answer rsp =>
    simp only [LarsClient.awaitHost, if_neg (ends rsp rfl)]
    exact ⟨_, rfl, rfl, rfl⟩
  | failed => exact ⟨_, rfl, rfl, rfl⟩
  | otherMessage => exact ⟨_, rfl, rfl, rfl⟩
  | malformed => exact ⟨_, rfl, rfl, rfl⟩

def routeEnd (modid cmdid : Int32) (route : List (String × Int32))
    (r : Received Proto.GetRouteResponse) : Int32 × List (String × Int32) :=
  match r with
  | .answer rsp => LarsClient.takeRoute modid cmdid rsp route
  | _ => (retSystemError, route)

/-- `get_route` ends with its first read. -/
theorem getRoute_reads {modid cmdid : Int32} {index : Fin 3} (route : List (String × Int32))
    (incoming : Fin 3 → List (Received Proto.GetRouteResponse))
    {r : Received Proto.GetRouteResponse} {unread : List (Received Proto.GetRouteResponse)}
    (shard : shardOf modid cmdid = .ok index) (reads : incoming index = r :: unread) :
    ∃ call, LarsClient.getRoute modid cmdid true incoming route = .ok call ∧
      call.result = some (routeEnd modid cmdid route r) ∧ call.unread = unread := by
  simp only [LarsClient.getRoute, shard, reads, Bool.true_eq_false, ↓reduceIte]
  cases r <;> exact ⟨_, rfl, rfl, rfl⟩

namespace Session

/-- One call has been made over socket `index`: it has left `rest` there and ended as `e`. -/
structure Closed (s : Session) (index : Fin 3) (rest : List Datagram) (e : Ending) (t : Session) :
    Prop where
  log : t.log = s.log ++ [e]
  call : e.call = s.log.length
  sockets : t.sockets = Function.update s.sockets index rest

/-- What a call does, told by what it passes over: it goes through what waits on its socket and
then reads its own answer, and the first datagram it does not pass over ends it. -/
structure Reader (s : Session) (op : ClientOp) (index : Fin 3) (fails : Option Nat)
    (passes : Datagram → Prop) (own : Datagram) : Prop where
  call : own.call = s.log.length
  fresh : ¬ passes own
  stopped : ∀ skipped d rest,
    StopsAt passes fails (s.sockets index ++ [own]) skipped d rest →
      ∃ t e, s.step op = .ok t ∧ s.Closed index rest e t ∧ e.account = some d.call ∧
        (d = own → e.result = e.own)
  interrupted : ∀ k, fails = some k → k ≤ (s.sockets index).length →
    (∀ d ∈ (s.sockets index).take k, passes d) →
      ∃ t e, s.step op = .ok t ∧
        s.Closed index ((s.sockets index ++ [own]).drop k) e t ∧ e.account = none ∧
        e.result = e.failure

theorem arrive_self (s : Session) (index : Fin 3) (answer : Answer) :
    s.arrive index answer index = s.sockets index ++ [⟨s.log.length, answer⟩] :=
  Function.update_self ..

/-- The record of a call that `settle` gives `rest` and `account` for. -/
theorem close_closed {s : Session} {index : Fin 3} {fails : Option Nat} {count : Nat}
    {answer : Answer} {rest : List Datagram} {account : Option Nat}
    (settled : settle fails (s.sockets index ++ [⟨s.log.length, answer⟩]) count = (rest, account))
    (client : LarsClient) (result own failure : Outcome) :
    s.Closed index rest ⟨s.log.length, account, result, own, failure⟩
      (s.close client (s.arrive index answer) index fails count result own failure) := by
  rw [close, arrive_self, settled]
  exact ⟨rfl, rfl, Function.update_idem ..⟩

variable {s : Session} {modid cmdid : Int32} {index : Fin 3} {fails : Option Nat}

theorem step_getHost (retcode : Int32) (host : Option Proto.HostInfo) {skipped : List Datagram}
    {r : Received Proto.GetHostResponse} {unread : List (Received Proto.GetHostResponse)}
    (shard : shardOf modid cmdid = .ok index) (passed : ∀ d ∈ skipped, d.Skipped s.client.seqid)
    (ends : ∀ rsp, r = .answer rsp → ¬ rsp.seq < s.client.seqid)
    (reads : recvs Datagram.asHost fails (s.sockets index ++
      [⟨s.log.length, .host (getHostCb ⟨s.client.seqid, modid, cmdid⟩ retcode host)⟩]) =
        skipped.map Datagram.asHost ++ r :: unread) :
    s.step (.getHost modid cmdid fails retcode host) =
      .ok (s.close ⟨s.client.seqid + 1⟩
        (s.arrive index (.host (getHostCb ⟨s.client.seqid, modid, cmdid⟩ retcode host))) index fails
        (skipped.length + 1) (.host (some (hostEnd s.client.seqid modid cmdid r)))
        (.host (some (LarsClient.takeHost s.client.seqid modid cmdid
          (getHostCb ⟨s.client.seqid, modid, cmdid⟩ retcode host))))
        (.host (some (retSystemError, none)))) := by
  rw [← arrive_self] at reads
  obtain ⟨call, called, result, left⟩ := getHost_reads
    (fun socket => recvs Datagram.asHost fails (s.arrive index
      (.host (getHostCb ⟨s.client.seqid, modid, cmdid⟩ retcode host)) socket))
    shard passed ends reads
  have count : (skipped.map Datagram.asHost ++ r :: unread).length - unread.length =
      skipped.length + 1 := by
    rw [List.length_append, List.length_cons, List.length_map]
    omega
  simp only [step, shard, called, result, left, reads, count]

theorem step_getRoute {host : List Proto.HostInfo} {route : List (String × Int32)}
    {r : Received Proto.GetRouteResponse} {unread : List (Received Proto.GetRouteResponse)}
    (shard : shardOf modid cmdid = .ok index)
    (reads : recvs Datagram.asRoute fails (s.sockets index ++
      [⟨s.log.length, .route (getRouteCb ⟨modid, cmdid⟩ host)⟩]) = r :: unread) :
    s.step (.getRoute modid cmdid fails host route) =
      .ok (s.close s.client (s.arrive index (.route (getRouteCb ⟨modid, cmdid⟩ host))) index fails 1
        (.route (some (routeEnd modid cmdid route r)))
        (.route (some (LarsClient.takeRoute modid cmdid (getRouteCb ⟨modid, cmdid⟩ host) route)))
        (.route (some (retSystemError, route)))) := by
  rw [← arrive_self] at reads
  obtain ⟨call, called, result, left⟩ := getRoute_reads route
    (fun socket => recvs Datagram.asRoute fails (s.arrive index
      (.route (getRouteCb ⟨modid, cmdid⟩ host)) socket)) shard reads
  have count : (r :: unread).length - unread.length = 1 := by
    rw [List.length_cons]
    omega
  simp only [step, shard, called, result, left, reads, count]

theorem getHost_reader (retcode : Int32) (host : Option Proto.HostInfo)
    (shard : shardOf modid cmdid = .ok index) :
    s.Reader (.getHost modid cmdid fails retcode host) index fails (Datagram.Skipped s.client.seqid)
      ⟨s.log.length, .host (getHostCb ⟨s.client.seqid, modid, cmdid⟩ retcode host)⟩ where
  call := rfl
  fresh := by
    rintro ⟨rsp, kind, smaller⟩
    cases kind
    exact absurd smaller (UInt32.lt_irrefl _)
  stopped := by
    intro skipped d rest stops
    obtain ⟨unread, reads⟩ := stops.recvs_eq Datagram.asHost
    have ends : ∀ rsp, d.asHost = .answer rsp → ¬ rsp.seq < s.client.seqid := by
      intro rsp seen smaller
      unfold Datagram.asHost at seen
      split at seen
      next kind =>
        cases seen
        exact stops.stopped ⟨rsp, kind, smaller⟩
      next => cases seen
    refine ⟨_, _, step_getHost retcode host shard stops.passed ends reads,
      close_closed stops.settle_eq .., rfl, ?_⟩
    rintro rfl
    rfl
  interrupted := by
    rintro k rfl within passed
    obtain ⟨unread, reads⟩ := recvs_interrupted Datagram.asHost within _
    have taken := step_getHost retcode host shard passed (by rintro rsp ⟨⟩) reads
    rw [List.length_take_of_le within] at taken
    exact ⟨_, _, taken, close_closed (settle_interrupted k _) .., rfl, rfl⟩

theorem getRoute_reader (host : List Proto.HostInfo) (route : List (String × Int32))
    (shard : shardOf modid cmdid = .ok index) :
    s.Reader (.getRoute modid cmdid fails host route) index fails (fun _ => False)
      ⟨s.log.length, .route (getRouteCb ⟨modid, cmdid⟩ host)⟩ where
  call := rfl
  fresh := id
  stopped := by
    intro skipped d rest stops
    obtain rfl : skipped = [] := List.eq_nil_iff_forall_not_mem.mpr stops.passed
    obtain ⟨unread, reads⟩ := stops.recvs_eq Datagram.asRoute
    refine ⟨_, _, step_getRoute shard reads, close_closed stops.settle_eq .., rfl, ?_⟩
    rintro rfl
    rfl
  interrupted := by
    rintro k rfl within passed
    have none_read : (s.sockets index).take k = [] := List.eq_nil_iff_forall_not_mem.mpr passed
    have first : k = 0 := by rw [← List.length_take_of_le within, none_read, List.length_nil]
    obtain ⟨unread, reads⟩ := recvs_interrupted Datagram.asRoute within _
    rw [none_read, List.map_nil, List.nil_append] at reads
    subst first
    exact ⟨_, _, step_getRoute shard reads, close_closed (settle_interrupted 0 _) .., rfl, rfl⟩

/-! ### Whole sessions -/

/-- What waits on the sockets answers calls that were made. -/
def Known (s : Session) : Prop := ∀ index, ∀ d ∈ s.sockets index, d.call < s.log.length

/-- Every call so far has ended on its own account. -/
def Paired (s : Session) : Prop := ∀ e ∈ s.log, e.Paired

namespace Reader

variable {op : ClientOp} {passes : Datagram → Prop} {own : Datagram}

/-- The three ends of a call, each with the condition under which it comes to that end. -/
theorem cases (reader : s.Reader op index fails passes own) :
    ∃ t rest e, s.step op = .ok t ∧ s.Closed index rest e t ∧
      rest ⊆ s.sockets index ++ [own] ∧
      ((∀ d ∈ reach fails (s.sockets index), passes d) ∧ e.Paired ∨
        ∃ d ∈ reach fails (s.sockets index), ¬ passes d ∧ e.account = some d.call) := by
  rcases passed_or_stops passes fails (s.sockets index) with passed | ⟨skipped, d, rest, stops⟩
  · -- nothing stops the call: a read fails on the way, or it comes to its own answer
    by_cases within : ∃ k, fails = some k ∧ k ≤ (s.sockets index).length
    · obtain ⟨k, rfl, within⟩ := within
      obtain ⟨t, e, taken, closed, account, result⟩ := reader.interrupted k rfl within passed
      exact ⟨t, _, e, taken, closed, List.drop_subset k _, .inl ⟨passed, .inl ⟨account, result⟩⟩⟩
    · have late : ∀ k, fails = some k → (s.sockets index).length < k :=
        fun k failed => Nat.lt_of_not_le fun le => within ⟨k, failed, le⟩
      have all : ∀ d ∈ s.sockets index, passes d := by
        cases fails with
        | none => exact passed
        | some k =>
          rwa [reach, List.take_of_length_le (Nat.le_of_lt (late k rfl))] at passed
      obtain ⟨t, e, taken, closed, account, result⟩ :=
        reader.stopped _ own [] ⟨rfl, all, reader.fresh, late⟩
      rw [reader.call, ← closed.call] at account
      exact ⟨t, _, e, taken, closed, List.nil_subset _,
        .inl ⟨passed, .inr ⟨account, result rfl⟩⟩⟩
  · obtain ⟨t, e, taken, closed, account, -⟩ := reader.stopped _ d _ (stops.append [own])
    refine ⟨t, _, e, taken, closed, ?_, .inr ⟨d, stops.mem_reach, stops.stopped, account⟩⟩
    rw [stops.split]
    intro p member
    simp only [List.mem_append, List.mem_cons] at member ⊢
    tauto

theorem known (reader : s.Reader op index fails passes own) (known : s.Known) {t : Session}
    (taken : s.step op = .ok t) : t.Known := by
  obtain ⟨u, rest, e, done, closed, subset, -⟩ := reader.cases
  cases taken.symm.trans done
  intro socket d member
  rw [closed.sockets, Function.update_apply] at member
  rw [closed.log, List.length_append, List.length_singleton]
  split at member
  · rcases List.mem_append.mp (subset member) with before | new
    · exact Nat.lt_succ_of_lt (known index d before)
    · rw [List.mem_singleton.mp new, reader.call]
      exact Nat.lt_succ_self _
  · exact Nat.lt_succ_of_lt (known socket d member)

/-- A call ends on its own account exactly if it passes over all it finds. -/
theorem paired_iff (reader : s.Reader op index fails passes own) (known : s.Known)
    (before : s.Paired) :
    (∀ t, s.step op = .ok t → t.Paired) ↔ ∀ d ∈ reach fails (s.sockets index), passes d := by
  obtain ⟨t, rest, e, taken, closed, -, good | ⟨d, found, stops, account⟩⟩ := reader.cases
  · refine ⟨fun _ => good.1, fun _ u done => ?_⟩
    cases done.symm.trans taken
    rw [Paired, closed.log]
    intro e' member
    rcases List.mem_append.mp member with old | new
    · exact before e' old
    · exact List.mem_singleton.mp new ▸ good.2
  · refine ⟨fun all => ?_, fun passed => absurd (passed d found) stops⟩
    -- the datagram that has ended the call answers an earlier one
    have older := known index d (reach_subset fails _ found)
    have paired := all t taken e (by rw [closed.log]; exact List.mem_append_right _ (by simp))
    rcases paired with ⟨none, -⟩ | ⟨mine, -⟩
    · rw [account] at none
      cases none
    · rw [account, closed.call, Option.some.injEq] at mine
      exact absurd mine (Nat.ne_of_lt older)

end Reader

theorem exists_reader {op : ClientOp} {t : Session} (taken : s.step op = .ok t) :
    ∃ index fails passes own, s.Reader op index fails passes own := by
  cases op with
  | getHost modid cmdid fails retcode host =>
    cases shard : shardOf modid cmdid with
    | error e => simp only [step, shard, reduceCtorEq] at taken
    | ok index => exact ⟨_, _, _, _, getHost_reader retcode host shard⟩
  | getRoute modid cmdid fails host route =>
    cases shard : shardOf modid cmdid with
    | error e => simp only [step, shard, reduceCtorEq] at taken
    | ok index => exact ⟨_, _, _, _, getRoute_reader host route shard⟩

theorem step_known {op : ClientOp} {t : Session} (known : s.Known) (taken : s.step op = .ok t) :
    t.Known := by
  obtain ⟨index, fails, passes, own, reader⟩ := exists_reader taken
  exact reader.known known taken

theorem step_paired_iff (op : ClientOp) (known : s.Known) (before : s.Paired) :
    (∀ t, s.step op = .ok t → t.Paired) ↔ s.Undisturbed op := by
  cases op with
  | getHost modid cmdid fails retcode host =>
    cases shard : shardOf modid cmdid with
    | error e => simp only [step, Undisturbed, shard, reduceCtorEq, false_implies, implies_true]
    | ok index =>
      rw [(getHost_reader retcode host shard).paired_iff known before]
      simp only [Undisturbed, shard, Except.ok.injEq, forall_eq']
  | getRoute modid cmdid fails host route =>
    cases shard : shardOf modid cmdid with
    | error e => simp only [step, Undisturbed, shard, reduceCtorEq, false_implies, implies_true]
    | ok index =>
      rw [(getRoute_reader host route shard).paired_iff known before]
      simp only [Undisturbed, shard, Except.ok.injEq, forall_eq', List.eq_nil_iff_forall_not_mem]

theorem always_paired_iff (known : s.Known) (before : s.Paired) (ops : List ClientOp) :
    Run.Always step Paired s ops ↔ Run.Guarded step Undisturbed s ops :=
  Run.always_iff_guarded (fun _ _ _ known _ taken => step_known known taken)
    (fun _ op known before => step_paired_iff op known before) known before

theorem init_known : init.Known := fun _ _ member => absurd member List.not_mem_nil

theorem init_paired : init.Paired := fun _ member => absurd member List.not_mem_nil

/-- In every session all calls end on their own account exactly if no call is disturbed by what
the calls before it have left unread. -/
theorem calls_paired (ops : List ClientOp) :
    Run.Always step Paired init ops ↔ Run.Guarded step Undisturbed init ops :=
  always_paired_iff init_known init_paired ops

/-- `get_route` is interrupted before its answer comes. The next `get_host` finds that answer on
its socket and fails. -/
theorem route_answer_disturbs_host :
    ¬ ∀ ops, Run.Always step Paired init ops := by
  intro always
  have paired := always [.getRoute 1 2 (some 0) [⟨7, 80⟩] [], .getHost 1 2 none 0 (some ⟨7, 80⟩)]
  have last := ((paired.2 _ rfl).2 _ rfl) _ (List.mem_append_right _ List.mem_cons_self)
  -- call 1 has neither failed by itself nor read the answer to call 1
  rcases last with ⟨account, -⟩ | ⟨account, -⟩
  · cases account
  · cases account

/-! ### Sessions of `get_host` alone -/

def IsGetHost : ClientOp → Prop
  | .getHost .. => True
  | .getRoute .. => False

/-- Every answer that waits is one to `get_host`, numbered by its call, and so is the next. -/
structure Numbered (s : Session) : Prop where
  known : s.Known
  next : s.client.seqid = UInt32.ofNat s.log.length
  waiting : ∀ index, ∀ d ∈ s.sockets index,
    ∃ rsp, d.answer = .host rsp ∧ rsp.seq = UInt32.ofNat d.call

theorem getHost_seqid {sent : Bool} {incoming : Fin 3 → List (Received Proto.GetHostResponse)}
    {c next : LarsClient}
    {call : Call Proto.GetHostRequest Proto.GetHostResponse (Option (String × Int32))}
    (called : c.getHost modid cmdid sent incoming = .ok (call, next)) :
    next.seqid = c.seqid + 1 := by
  unfold LarsClient.getHost at called
  dsimp only at called
  split at called
  · cases called
  · split at called
    · cases called
      rfl
    · split at called <;> cases called <;> rfl

theorem step_seqid {retcode : Int32} {host : Option Proto.HostInfo} {t : Session}
    (taken : s.step (.getHost modid cmdid fails retcode host) = .ok t) :
    t.client.seqid = s.client.seqid + 1 := by
  unfold step at taken
  dsimp only at taken
  split at taken
  · cases taken
  · split at taken
    · cases taken
    next called =>
      cases taken
      exact getHost_seqid called

theorem step_length {op : ClientOp} {t : Session} (taken : s.step op = .ok t) :
    t.log.length = s.log.length + 1 := by
  obtain ⟨index, fails, passes, own, reader⟩ := exists_reader taken
  obtain ⟨u, rest, e, done, closed, -⟩ := reader.cases
  cases taken.symm.trans done
  rw [closed.log, List.length_append, List.length_singleton]

theorem step_numbered {retcode : Int32} {host : Option Proto.HostInfo} {t : Session}
    (numbered : s.Numbered) (taken : s.step (.getHost modid cmdid fails retcode host) = .ok t) :
    t.Numbered := by
  cases shard : shardOf modid cmdid with
  | error e => simp only [step, shard, reduceCtorEq] at taken
  | ok index =>
    have reader : s.Reader (.getHost modid cmdid fails retcode host) .. :=
      getHost_reader retcode host shard
    obtain ⟨u, rest, e, done, closed, subset, -⟩ := reader.cases
    cases taken.symm.trans done
    refine ⟨reader.known numbered.known taken, ?_, fun socket d member => ?_⟩
    · rw [step_seqid taken, numbered.next, closed.log, List.length_append, List.length_singleton,
        UInt32.ofNat_add]
      rfl
    · rw [closed.sockets, Function.update_apply] at member
      split at member
      · rcases List.mem_append.mp (subset member) with before | new
        · exact numbered.waiting index d before
        · rw [List.mem_singleton.mp new]
          exact ⟨_, rfl, numbered.next⟩
      · exact numbered.waiting socket d member

/-- As long as the number is that of the call, everything that waits has a smaller one. -/
theorem Numbered.undisturbed {op : ClientOp} (hosts : IsGetHost op) (numbered : s.Numbered)
    (few : s.log.length < 2 ^ 32) : s.Undisturbed op := by
  cases op with
  | getRoute => exact hosts.elim
  | getHost modid cmdid fails retcode host =>
    intro index _ d found
    have waits := reach_subset fails _ found
    obtain ⟨rsp, kind, number⟩ := numbered.waiting index d waits
    have older := numbered.known index d waits
    refine ⟨rsp, kind, ?_⟩
    rw [number, numbered.next, UInt32.lt_iff_toNat_lt, UInt32.toNat_ofNat_of_lt' (older.trans few),
      UInt32.toNat_ofNat_of_lt' few]
    exact older

theorem Numbered.guarded {ops : List ClientOp} (hosts : ∀ op ∈ ops, IsGetHost op)
    (numbered : s.Numbered) (few : s.log.length + ops.length ≤ 2 ^ 32) :
    Run.Guarded step Undisturbed s ops := by
  induction ops generalizing s with
  | nil => trivial
  | cons op ops ih =>
    rw [List.length_cons] at few
    have first := hosts op List.mem_cons_self
    refine ⟨numbered.undisturbed first (by omega), fun t taken => ?_⟩
    cases op with
    | getRoute => exact first.elim
    | getHost modid cmdid fails retcode host =>
      -- one call more in the log is one call less to come
      have longer := step_length taken
      exact ih (fun op member => hosts op (List.mem_cons_of_mem _ member))
        (step_numbered numbered taken) (by omega)

/-- Before the number wraps, `get_host` alone keeps a session in order. -/
theorem getHost_sessions_paired {ops : List ClientOp} (hosts : ∀ op ∈ ops, IsGetHost op)
    (few : ops.length ≤ 2 ^ 32) : Run.Always step Paired init ops := by
  have numbered : init.Numbered :=
    ⟨init_known, rfl, fun _ _ member => absurd member List.not_mem_nil⟩
  refine (always_paired_iff init_known init_paired ops).mpr (numbered.guarded hosts ?_)
  rwa [show init.log.length = 0 from rfl, Nat.zero_add]

/-- After the wrap nothing has a smaller number: any answer that waits disturbs the call. -/
theorem wrapped_getHost_disturbed (retcode : Int32) (host : Option Proto.HostInfo)
    (shard : shardOf modid cmdid = .ok index) (wrapped : s.client.seqid = 0)
    (waiting : s.sockets index ≠ []) :
    ¬ s.Undisturbed (.getHost modid cmdid none retcode host) := by
  intro undisturbed
  obtain ⟨d, found⟩ := List.exists_mem_of_ne_nil _ waiting
  obtain ⟨rsp, -, smaller⟩ := undisturbed index shard d found
  rw [wrapped] at smaller
  exact absurd smaller UInt32.not_lt_zero

end Session

end Lars.Api
