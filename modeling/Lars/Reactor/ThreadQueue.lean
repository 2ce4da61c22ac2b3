import Lars.Base
import Lars.Lib.Run

/-!
# Tasks for another thread

A `thread_queue` takes tasks from any thread and gives them to the loop that
watches its eventfd. The tasks and the counter of the eventfd are two things:
a task is only seen if the counter says so. `send` and `recv` hold `_queue_mutex`
from their first line to their last, so each is one step.
-/
namespace Lars.Reactor

/-- The counter of an eventfd stops here. -/
def eventfdMax : Nat := 2 ^ 64 - 2

structure ThreadQueue (T : Type) where
  queue : List T
  /-- The counter of `_evfd`; the loop finds `_evfd` readable while it is positive. -/
  evfd : Nat

namespace ThreadQueue

variable {T : Type}

def init : ThreadQueue T := ⟨[], 0⟩

/-- `write` of a 1 to `_evfd`. It returns -1 at the limit, or for a reason of its own: `refused`. -/
def writeEvfd (refused : Bool) (counter : Nat) : Nat :=
  if refused ∨ eventfdMax < counter + 1 then counter else counter + 1

/-- `read` takes the whole counter and returns -1 if there is nothing to take. -/
def readEvfd (refused : Bool) (counter : Nat) : Nat :=
  if refused then counter else 0

def send (refused : Bool) (task : T) (q : ThreadQueue T) : ThreadQueue T where
  queue := q.queue ++ [task]
  evfd := writeEvfd refused q.evfd

/-- The caller's queue is swapped with `_queue`, whatever `read` returned. -/
def recv (refused : Bool) (queueMsgs : List T) (q : ThreadQueue T) : List T × ThreadQueue T :=
  (q.queue, { queue := queueMsgs, evfd := readEvfd refused q.evfd })

/-- What waits in the queue will be looked at: the callback for `_evfd` is due. -/
def Due (q : ThreadQueue T) : Prop := q.queue ≠ [] → 0 < q.evfd

theorem init_due : (init : ThreadQueue T).Due := fun waiting => absurd rfl waiting

theorem writeEvfd_pos {refused : Bool} {counter : Nat} (rule : refused = true → 0 < counter) :
    0 < writeEvfd refused counter := by
  unfold writeEvfd
  split
  next kept =>
    rcases kept with fails | full
    · exact rule fails
    -- a counter at its limit is positive
    · simp only [eventfdMax] at full
      omega
  next => omega

/-- A write that fails finds the counter positive already, so the new task is seen all the same. -/
theorem send_due {refused : Bool} {q : ThreadQueue T} (task : T)
    (rule : refused = true → 0 < q.evfd) : (q.send refused task).Due :=
  fun _ => writeEvfd_pos rule

theorem recv_due (refused : Bool) (q : ThreadQueue T) : (q.recv refused []).2.Due :=
  fun waiting => absurd rfl waiting

end ThreadQueue

/-! ### Any number of senders, one receiver -/

/-- A queue with what its loop has been given so far, one entry for each `recv`. -/
structure Exchange (T : Type) where
  tasks : ThreadQueue T
  received : List (List T)

inductive ExchangeStep (T : Type) where
  | send (thread : Nat) (task : T) (refused : Bool)
  /-- The callback for `_evfd`; it calls `recv` with a new queue. -/
  | recv (refused : Bool)

namespace Exchange

variable {T : Type}

def init : Exchange T := ⟨.init, []⟩

def step (s : Exchange T) : ExchangeStep T → Except Fault (Exchange T)
  | .send _ task refused => .ok { s with tasks := s.tasks.send refused task }
  | .recv refused =>
    let (batch, tasks) := s.tasks.recv refused []
    .ok { tasks, received := s.received ++ [batch] }

/-- A write to the eventfd fails only if the counter is positive already. -/
def WriteRule (s : Exchange T) : ExchangeStep T → Prop
  | .send _ _ refused => refused = true → 0 < s.tasks.evfd
  | .recv _ => True

/-- The tasks of a run, in the order of their sends. -/
def sentTasks : List (ExchangeStep T) → List T
  | [] => []
  | .send _ task _ :: ops => task :: sentTasks ops
  | .recv _ :: ops => sentTasks ops

/-- Everything sent so far is with the loop or in the queue. -/
def delivered (s : Exchange T) : List T := s.received.flatten ++ s.tasks.queue

theorem step_spec (s : Exchange T) (op : ExchangeStep T) :
    ∃ t, s.step op = .ok t ∧ t.delivered = s.delivered ++ sentTasks [op] ∧
      (WriteRule s op → t.tasks.Due) := by
  cases op with
  | send thread task refused =>
    refine ⟨_, rfl, ?_, ThreadQueue.send_due task⟩
    simp only [delivered, ThreadQueue.send, sentTasks, List.append_assoc]
  | recv refused =>
    refine ⟨_, rfl, ?_, fun _ => ThreadQueue.recv_due refused s.tasks⟩
    simp only [delivered, sentTasks, List.flatten_append, List.flatten_cons, List.flatten_nil,
      List.append_nil]

theorem sentTasks_cons (op : ExchangeStep T) (ops : List (ExchangeStep T)) :
    sentTasks (op :: ops) = sentTasks [op] ++ sentTasks ops := by
  cases op <;> rfl

/-- What a run delivers is what it began with and what was sent since, and it ends with the
callback due. -/
theorem run_delivered {s : Exchange T} {ops : List (ExchangeStep T)} (due : s.tasks.Due)
    (writes : Run.Guarded step WriteRule s ops) :
    ∃ t, Run.run step s ops = .ok t ∧ t.delivered = s.delivered ++ sentTasks ops ∧ t.tasks.Due := by
  induction ops generalizing s with
  | nil => exact ⟨s, rfl, by simp only [sentTasks, List.append_nil], due⟩
  | cons op ops ih =>
    obtain ⟨mid, taken, moved, next⟩ := step_spec s op
    obtain ⟨t, done, rest, last⟩ := ih (next writes.1) (writes.2 mid taken)
    refine ⟨t, by rw [Run.run_cons_ok ops taken]; exact done, ?_, last⟩
    rw [rest, moved, sentTasks_cons op ops, List.append_assoc]

/-- However sends and receives are interleaved, no task is lost, repeated or overtaken, and no
task waits in the queue unseen. -/
theorem threadQueue_delivers_once (ops : List (ExchangeStep T))
    (writes : Run.Guarded step WriteRule init ops) :
    ∀ sofar, sofar <+: ops → ∃ s, Run.run step init sofar = .ok s ∧
      s.received.flatten ++ s.tasks.queue = sentTasks sofar ∧
      (s.tasks.queue ≠ [] → 0 < s.tasks.evfd) := by
  rintro sofar ⟨rest, rfl⟩
  obtain ⟨s, done, moved, due⟩ := run_delivered ThreadQueue.init_due writes.left
  exact ⟨s, done, moved, due⟩

/-- Two threads send, a write fails while the counter is positive, and the loop receives twice. -/
theorem threadQueue_delivers_once_run :
    ∃ s, Run.run step init
        [.send 0 10 false, .send 1 11 true, .recv false, .send 0 12 false] = .ok s ∧
      s.received.flatten ++ s.tasks.queue = [10, 11, 12] ∧
      (s.tasks.queue ≠ [] → 0 < s.tasks.evfd) :=
  threadQueue_delivers_once
    [.send 0 10 false, .send 1 11 true, .recv false, .send 0 12 false]
    ⟨fun refused => absurd refused Bool.false_ne_true, fun
      | _, rfl => ⟨fun _ => by decide, fun
        | _, rfl => ⟨trivial, fun
          | _, rfl => ⟨fun refused => absurd refused Bool.false_ne_true, fun
            | _, rfl => trivial⟩⟩⟩⟩
    _ (List.prefix_refl _)

end Exchange

end Lars.Reactor
