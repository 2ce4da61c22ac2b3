import Lars.Lib.Run
import Lars.Reactor.ThreadQueue
import Mathlib.Algebra.BigOperators.Group.Finset.Piecewise
import Mathlib.Data.Fintype.Basic

/-!
# Accepting connections

The accepting thread compares the number of connections with the limit and hands
the new descriptor to a worker through a `thread_queue`. The worker makes the
connection when it comes to it, and only then the number goes up.
-/
namespace Lars.Reactor

inductive TaskMsg where
  | newConn (connfd : Nat)
  | newTask
  deriving DecidableEq

/-- A thread of the pool: its queue, and the tasks that `deal_task` has taken from it. -/
structure Worker where
  queue : ThreadQueue TaskMsg
  newTaskQueue : List TaskMsg

structure ThreadPool (n : Nat) where
  workers : Fin n → Worker
  index : Nat

/-- The connections that a thread has still to make. -/
def Worker.handOvers (w : Worker) : Nat :=
  (w.newTaskQueue ++ w.queue.queue).countP fun task => task ≠ .newTask

/-- `get_thread`: the index is compared with the last one before it is used, so the last queue is
left out. -/
def ThreadPool.getThread {n : Nat} (p : ThreadPool n) : Except Fault (Fin n × ThreadPool n) :=
  let index := if p.index + 1 = n then 0 else p.index
  if bound : index < n then .ok (⟨index, bound⟩, { p with index := index + 1 })
  else .error .outOfBounds

theorem ThreadPool.getThread_workers {n : Nat} {p p' : ThreadPool n} {thread : Fin n}
    (done : p.getThread = .ok (thread, p')) : p'.workers = p.workers := by
  simp only [getThread] at done
  split_ifs at done
  all_goals
    cases done
    rfl

namespace Worker

variable {w : Worker}

theorem handOvers_send_newConn (refused : Bool) (connfd : Nat) :
    handOvers { w with queue := w.queue.send refused (.newConn connfd) } = w.handOvers + 1 := by
  simp [handOvers, ThreadQueue.send, Nat.add_assoc]

theorem handOvers_send_newTask (refused : Bool) :
    handOvers { w with queue := w.queue.send refused .newTask } = w.handOvers := by
  simp [handOvers, ThreadQueue.send]

theorem handOvers_recv {refused : Bool} (idle : w.newTaskQueue = []) :
    handOvers ⟨(w.queue.recv refused []).2, w.queue.queue⟩ = w.handOvers := by
  simp [handOvers, ThreadQueue.recv, idle]

theorem handOvers_newTask {rest : List TaskMsg} (order : w.newTaskQueue = .newTask :: rest) :
    handOvers { w with newTaskQueue := rest } = w.handOvers := by
  simp [handOvers, order]

theorem handOvers_newConn {connfd : Nat} {rest : List TaskMsg}
    (order : w.newTaskQueue = .newConn connfd :: rest) :
    w.handOvers = handOvers { w with newTaskQueue := rest } + 1 := by
  simp [handOvers, order]

end Worker

/-- The server with `n` threads; without threads there is no pool. `alive` are the connections
that were constructed and not cleaned, `accepted` is the descriptor that has passed the check. -/
structure TcpServer (n : Nat) where
  maxConns : Int
  currConns : Int
  alive : List Nat
  pool : ThreadPool n
  accepted : Option Nat

inductive ServerStep (n : Nat) where
  /-- `accept` returns a descriptor, and `do_accept` looks at the number of connections. -/
  | accept (connfd : Nat)
  /-- The rest of `do_accept`; `refused` if the write to the eventfd fails. -/
  | handOver (refused : Bool)
  /-- `send_task` gives a task to every thread. -/
  | sendTask (refused : Fin n → Bool)
  /-- `deal_task` takes the queue. -/
  | recv (thread : Fin n) (refused : Bool)
  /-- `deal_task` comes to the next task. -/
  | dealTask (thread : Fin n)
  | cleanConn (connfd : Nat)

namespace TcpServer

variable {n : Nat}

def init (n : Nat) (maxConns : Int) : TcpServer n :=
  ⟨maxConns, 0, [], ⟨fun _ => ⟨.init, []⟩, 0⟩, none⟩

/-- The size of `conns`. -/
def connsSize (s : TcpServer n) : Int := s.maxConns + 5 + 2 * n

/-- The constructor of `tcp_conn` with `increase_conn`. -/
def newConn (connfd : Nat) (s : TcpServer n) : Except Fault (TcpServer n) :=
  if s.connsSize ≤ connfd then .error .outOfBounds
  else .ok { s with currConns := s.currConns + 1, alive := s.alive ++ [connfd] }

def setWorker (thread : Fin n) (w : Worker) (s : TcpServer n) : TcpServer n :=
  { s with pool := { s.pool with workers := Function.update s.pool.workers thread w } }

def step (s : TcpServer n) : ServerStep n → Except Fault (TcpServer n)
  | .accept connfd =>
    match s.accepted with
    -- there is one accepting thread
    | some _ => .ok s
    -- too many connections: the descriptor is closed
    | none => if s.currConns ≥ s.maxConns then .ok s else .ok { s with accepted := some connfd }
  | .handOver refused =>
    match s.accepted with
    | none => .ok s
    | some connfd =>
      -- without a pool the accepting thread makes the connection itself
      if n = 0 then { s with accepted := none }.newConn connfd
      else
        match s.pool.getThread with
        | .error e => .error e
        | .ok (thread, pool) =>
          let w := pool.workers thread
          .ok ({ s with accepted := none, pool := pool }.setWorker thread
            { w with queue := w.queue.send refused (.newConn connfd) })
  | .sendTask refused =>
    .ok { s with pool := { s.pool with workers := fun i =>
      { s.pool.workers i with queue := (s.pool.workers i).queue.send (refused i) .newTask } } }
  | .recv thread refused =>
    let w := s.pool.workers thread
    -- the thread is still at the tasks of its last `recv`
    if w.newTaskQueue ≠ [] then .ok s
    else
      let (taken, queue) := w.queue.recv refused []
      .ok (s.setWorker thread ⟨queue, taken⟩)
  | .dealTask thread =>
    let w := s.pool.workers thread
    match w.newTaskQueue with
    | [] => .ok s
    | .newTask :: rest => .ok (s.setWorker thread { w with newTaskQueue := rest })
    | .newConn connfd :: rest =>
      (s.setWorker thread { w with newTaskQueue := rest }).newConn connfd
  | .cleanConn connfd =>
    if connfd ∈ s.alive then
      .ok { s with currConns := s.currConns - 1, alive := s.alive.erase connfd }
    else .ok s

/-! ### Connections that are on their way -/

/-- The connections that have passed the check and are not constructed yet. -/
def inFlight (s : TcpServer n) : Nat :=
  s.accepted.toList.length + ∑ i, (s.pool.workers i).handOvers

/-- A check that passes leaves room for the new connection beside those on their way. -/
def Admits (s : TcpServer n) : ServerStep n → Prop
  | .accept _ => s.accepted = none → s.currConns < s.maxConns →
      s.alive.length + s.inFlight < s.maxConns
  | _ => True

/-- The number is that of the connections, and those on their way still have room. -/
structure Roomy (maxConns : Int) (s : TcpServer n) : Prop where
  limit : s.maxConns = maxConns
  count : s.currConns = s.alive.length
  room : s.alive.length + s.inFlight ≤ maxConns

variable {maxConns : Int} {s t : TcpServer n}

theorem inFlight_setWorker (s : TcpServer n) (thread : Fin n) (w : Worker) :
    (s.setWorker thread w).inFlight + (s.pool.workers thread).handOvers =
      s.inFlight + w.handOvers := by
  have pointwise : (fun i => (Function.update s.pool.workers thread w i).handOvers) =
      Function.update (fun i => (s.pool.workers i).handOvers) thread w.handOvers := by
    funext i
    by_cases same : i = thread
    · subst same
      simp
    · simp [same]
  have others := Finset.sum_update_of_mem (Finset.mem_univ thread)
    (fun i => (s.pool.workers i).handOvers) w.handOvers
  have all := Finset.sum_update_of_mem (Finset.mem_univ thread)
    (fun i => (s.pool.workers i).handOvers) (s.pool.workers thread).handOvers
  rw [Function.update_eq_self] at all
  simp only [inFlight, setWorker]
  rw [pointwise, others, all]
  omega

/-- A thread that has as many connections to make as before. -/
theorem Roomy.setWorker (roomy : s.Roomy maxConns) {thread : Fin n} {w : Worker}
    (same : w.handOvers = (s.pool.workers thread).handOvers) :
    (s.setWorker thread w).Roomy maxConns := by
  have moved := inFlight_setWorker s thread w
  rw [same] at moved
  refine ⟨roomy.limit, roomy.count, ?_⟩
  rw [Nat.add_right_cancel moved]
  exact roomy.room

theorem newConn_inv {connfd : Nat} (done : s.newConn connfd = .ok t) :
    t = { s with currConns := s.currConns + 1, alive := s.alive ++ [connfd] } := by
  unfold newConn at done
  split at done
  · cases done
  · cases done
    rfl

/-- A connection that is constructed was on its way. -/
theorem Roomy.newConn {connfd : Nat} (limit : s.maxConns = maxConns)
    (count : s.currConns = s.alive.length) (room : s.alive.length + (s.inFlight + 1) ≤ maxConns)
    (done : s.newConn connfd = .ok t) : t.Roomy maxConns := by
  rw [newConn_inv done]
  refine ⟨limit, ?_, ?_⟩
  · simp only [count, List.length_append, List.length_singleton]
    omega
  · simp only [List.length_append, List.length_singleton]
    change _ + (s.inFlight : Int) ≤ _
    omega

/-- The one step that adds a connection to those on their way. -/
theorem Roomy.accept {connfd : Nat} (roomy : s.Roomy maxConns) (admits : s.Admits (.accept connfd))
    (taken : s.step (.accept connfd) = .ok t) : t.Roomy maxConns := by
  simp only [step] at taken
  split at taken
  · cases taken
    exact roomy
  next waiting =>
    split at taken
    · cases taken
      exact roomy
    next free =>
      cases taken
      obtain ⟨limit, count, room⟩ := roomy
      have admitted := admits waiting (by omega)
      refine ⟨limit, count, ?_⟩
      simp only [inFlight, waiting, Option.toList_none, Option.toList_some, List.length_nil,
        List.length_singleton] at admitted ⊢
      omega

/-- A connection goes from the accepting thread to a worker, or is made at once. -/
theorem Roomy.handOver {refused : Bool} (roomy : s.Roomy maxConns)
    (taken : s.step (.handOver refused) = .ok t) : t.Roomy maxConns := by
  obtain ⟨limit, count, room⟩ := roomy
  simp only [step] at taken
  split at taken
  · cases taken
    exact ⟨limit, count, room⟩
  next connfd waiting =>
    -- one connection less with the accepting thread
    have one : s.inFlight = TcpServer.inFlight { s with accepted := none } + 1 := by
      simp only [inFlight, waiting, Option.toList_none, Option.toList_some, List.length_nil,
        List.length_singleton]
      omega
    split at taken
    · exact .newConn (s := { s with accepted := none }) limit count
        (by rw [one] at room; exact_mod_cast room) taken
    · split at taken
      · cases taken
      next thread pool chosen =>
        cases taken
        have moved := inFlight_setWorker { s with accepted := none, pool := pool } thread
          { pool.workers thread with
            queue := (pool.workers thread).queue.send refused (.newConn connfd) }
        have same : TcpServer.inFlight { s with accepted := none, pool := pool } =
            TcpServer.inFlight { s with accepted := none } := by
          simp only [inFlight, ThreadPool.getThread_workers chosen]
        rw [Worker.handOvers_send_newConn, same, ← Nat.add_assoc, Nat.add_right_comm, ← one]
          at moved
        refine ⟨limit, count, ?_⟩
        rw [Nat.add_right_cancel moved]
        exact room

theorem Roomy.dealTask {thread : Fin n} (roomy : s.Roomy maxConns)
    (taken : s.step (.dealTask thread) = .ok t) : t.Roomy maxConns := by
  simp only [step] at taken
  split at taken
  · cases taken
    exact roomy
  next rest order =>
    cases taken
    exact roomy.setWorker (Worker.handOvers_newTask order)
  next connfd rest order =>
    -- from the thread's tasks to the connections; the sum stays
    obtain ⟨limit, count, room⟩ := roomy
    have moved := inFlight_setWorker s thread ⟨(s.pool.workers thread).queue, rest⟩
    rw [Worker.handOvers_newConn order] at moved
    refine .newConn (s := s.setWorker thread ⟨(s.pool.workers thread).queue, rest⟩) limit count
      ?_ taken
    change (s.alive.length : Int) + _ ≤ _
    omega

theorem Roomy.cleanConn {connfd : Nat} (roomy : s.Roomy maxConns)
    (taken : s.step (.cleanConn connfd) = .ok t) : t.Roomy maxConns := by
  simp only [step] at taken
  split at taken
  next member =>
    cases taken
    obtain ⟨limit, count, room⟩ := roomy
    have shorter := List.length_erase_of_mem member
    have some := List.length_pos_of_mem member
    refine ⟨limit, ?_, ?_⟩
    · simp only
      omega
    · change ((s.alive.erase connfd).length : Int) + (s.inFlight : Int) ≤ _
      omega
  · cases taken
    exact roomy

theorem step_roomy {op : ServerStep n} (roomy : s.Roomy maxConns) (admits : s.Admits op)
    (taken : s.step op = .ok t) : t.Roomy maxConns := by
  cases op with
  | accept connfd => exact roomy.accept admits taken
  | handOver refused => exact roomy.handOver taken
  | sendTask refused =>
    cases taken
    refine ⟨roomy.limit, roomy.count, ?_⟩
    simpa only [inFlight, Worker.handOvers_send_newTask] using roomy.room
  | recv thread refused =>
    simp only [step] at taken
    split at taken
    · cases taken
      exact roomy
    next idle =>
      cases taken
      exact roomy.setWorker (Worker.handOvers_recv (by simpa using idle))
  | dealTask thread => exact roomy.dealTask taken
  | cleanConn connfd => exact roomy.cleanConn taken

/-- While every check that passes leaves room for the connections that are on their way, there are
never more connections than the limit. -/
theorem connections_limited (n : Nat) {maxConns : Int} (limit : 0 ≤ maxConns)
    {ops : List (ServerStep n)} (admits : Run.Guarded step Admits (init n maxConns) ops) :
    Run.Always step (fun s => (s.alive.length : Int) ≤ maxConns ∧ s.currConns ≤ maxConns)
      (init n maxConns) ops := by
  have start : (init n maxConns).Roomy maxConns := by
    refine ⟨rfl, rfl, ?_⟩
    simpa [init, inFlight, Worker.handOvers, ThreadQueue.init] using limit
  refine (Run.always_of_guarded (fun _ _ _ => step_roomy) start admits).mono ?_
  rintro s ⟨-, count, room⟩
  have below : (s.alive.length : Int) ≤ maxConns := by omega
  exact ⟨below, by rw [count]; exact below⟩

/-- Two connections are accepted before a thread makes the first of them. -/
private def twoAccepts : List (ServerStep 2) :=
  [.accept 7, .handOver false, .accept 8, .handOver false, .recv 0 false, .dealTask 0, .dealTask 0]

theorem connections_exceed_limit :
    ∃ s, Run.run step (init 2 1) twoAccepts = .ok s ∧ s.maxConns = 1 ∧ s.alive = [7, 8] ∧
      s.currConns = 2 := ⟨_, rfl, rfl, rfl, rfl⟩

/-- The same connections, with the first made before the second is checked. -/
theorem connections_limited_in_turn :
    Run.Always step (fun s => (s.alive.length : Int) ≤ 1 ∧ s.currConns ≤ 1) (init 2 1)
      [.accept 7, .handOver false, .recv 0 false, .dealTask 0, .accept 8, .cleanConn 7,
        .accept 8] := by
  refine connections_limited 2 (by decide) ?_
  refine ⟨fun _ _ => by decide, fun _ done₁ => ?_⟩
  cases done₁
  refine ⟨trivial, fun _ done₂ => ?_⟩
  cases done₂
  refine ⟨trivial, fun _ done₃ => ?_⟩
  cases done₃
  refine ⟨trivial, fun _ done₄ => ?_⟩
  cases done₄
  refine ⟨fun _ full => absurd full (by decide), fun _ done₅ => ?_⟩
  cases done₅
  refine ⟨trivial, fun _ done₆ => ?_⟩
  cases done₆
  exact ⟨fun _ _ => by decide, fun _ _ => trivial⟩

end TcpServer

end Lars.Reactor
