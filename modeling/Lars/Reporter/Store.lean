import Mathlib.Data.List.FinRange
import Lars.Reactor.ThreadQueue
import Lars.Lib.LastWrite

/-!
# Reports on their way into the database

The callback of the reporter's server deals the requests out to the store
threads in turn. A thread takes what waits in its queue and sends one statement
for each result; the statement overwrites the row of its host. Two requests
about one host may be with two threads, and then nothing orders their statements.
-/
namespace Lars.Reporter

open Proto Reactor

/-- The primary key of `ServerCallStatus`; the three `%u` columns are unsigned. -/
structure RowKey where
  modid : Int32
  cmdid : Int32
  ip : UInt32
  port : UInt32
  caller : UInt32
  deriving DecidableEq, Repr

structure Row where
  succCnt : UInt32
  errCnt : UInt32
  ts : UInt32
  overload : Bool
  deriving DecidableEq, Repr

/-- The statements of `StoreReport::store`, in the order they are sent. -/
def store (req : ReportStatusRequest) : List (RowKey × Row) :=
  req.results.map fun result =>
    ({ modid := req.modid
       cmdid := req.cmdid
       ip := result.ip.toUInt32
       port := result.port.toUInt32
       caller := req.caller.toUInt32 },
     { succCnt := result.succ
       errCnt := result.err
       ts := req.ts
       overload := result.overload })

/-- What the last of the requests that mention a host says about it. -/
def lastStatus (key : RowKey) (reqs : List ReportStatusRequest) : Option Row :=
  LastWrite.last key (reqs.flatMap store)

/-- The reporter with `n` store threads. -/
structure Service (n : Nat) where
  reportQueues : Fin n → ThreadQueue ReportStatusRequest
  /-- The static variable of `get_report_status`. -/
  index : Fin n
  /-- The statements of the batch a thread has taken that it has not sent yet. -/
  pending : Fin n → List (RowKey × Row)
  serverCallStatus : RowKey → Option Row

inductive Op (n : Nat) where
  /-- A request arrives; `refused` is the outcome of the write to the eventfd. -/
  | getReportStatus (req : ReportStatusRequest) (refused : Bool)
  /-- The loop of a store thread calls `thread_report`, which begins with `recv`. -/
  | recv (i : Fin n) (refused : Bool)
  /-- A store thread sends its next statement. -/
  | insert (i : Fin n)

variable {n : Nat}

/-- `++index; index = index % thread_cnt;` -/
def nextIndex (index : Fin n) : Fin n := ⟨(index + 1) % n, Nat.mod_lt _ index.pos⟩

namespace Service

/-- A thread that has nothing to do at a step does nothing: its loop calls `thread_report` only
when the eventfd is readable and only after the last call has returned. -/
def step (s : Service n) : Op n → Service n
  | .getReportStatus req refused =>
    -- the request goes to one thread, whatever host it is about
    { s with
      reportQueues := Function.update s.reportQueues s.index
        ((s.reportQueues s.index).send refused req)
      index := nextIndex s.index }
  | .recv i refused =>
    if s.pending i = [] ∧ 0 < (s.reportQueues i).evfd then
      let (batch, rest) := (s.reportQueues i).recv refused []
      { s with
        reportQueues := Function.update s.reportQueues i rest
        pending := Function.update s.pending i (batch.flatMap store) }
    else s
  | .insert i =>
    match s.pending i with
    | [] => s
    | w :: ws =>
      { s with
        pending := Function.update s.pending i ws
        serverCallStatus := LastWrite.write s.serverCallStatus w }

/-- The reporter at its start, over what the table holds by then. -/
def start (n : Nat) [NeZero n] (rows : RowKey → Option Row) : Service n where
  reportQueues := fun _ => .init
  index := 0
  pending := fun _ => []
  serverCallStatus := rows

/-- Every queue is empty and every batch is stored. -/
def Drained (s : Service n) : Prop :=
  ∀ i, (s.reportQueues i).queue = [] ∧ s.pending i = []

end Service

/-- The requests of a run, in the order they arrive. -/
def received : List (Op n) → List ReportStatusRequest
  | [] => []
  | .getReportStatus req _ :: ops => req :: received ops
  | .recv .. :: ops => received ops
  | .insert .. :: ops => received ops

/-! ### Dealing -/

/-- The requests that fall to thread `i` if the first of them falls to `first`. -/
def shareFrom (first i : Fin n) : List ReportStatusRequest → List ReportStatusRequest
  | [] => []
  | req :: reqs =>
    if first = i then req :: shareFrom (nextIndex first) i reqs
    else shareFrom (nextIndex first) i reqs

def share [NeZero n] (i : Fin n) (reqs : List ReportStatusRequest) : List ReportStatusRequest :=
  shareFrom 0 i reqs

/-- The statements of the requests, each with the thread it falls to. -/
def dealt (first : Fin n) : List ReportStatusRequest → List (Fin n × RowKey × Row)
  | [] => []
  | req :: reqs => (store req).map (first, ·) ++ dealt (nextIndex first) reqs

theorem dealt_statements (first : Fin n) (reqs : List ReportStatusRequest) :
    (dealt first reqs).map (·.2) = reqs.flatMap store := by
  induction reqs generalizing first with
  | nil => rfl
  | cons req reqs ih =>
    rw [dealt, List.map_append, ih, List.flatMap_cons, List.map_map]
    exact congrArg (· ++ _) (List.map_id _)

theorem part_dealt (first i : Fin n) (reqs : List ReportStatusRequest) :
    LastWrite.part i (dealt first reqs) = (shareFrom first i reqs).flatMap store := by
  induction reqs generalizing first with
  | nil => rfl
  | cons req reqs ih =>
    rw [dealt, LastWrite.part_append, LastWrite.part_tagged, ih, shareFrom]
    split
    · rw [List.flatMap_cons]
    · rfl

/-- Whoever gets the last request about a host has it as the last in its share. -/
theorem exists_share_last [NeZero n] {key : RowKey} {row : Row} {reqs : List ReportStatusRequest}
    (mentioned : lastStatus key reqs = some row) :
    ∃ i : Fin n, lastStatus key (share i reqs) = some row := by
  rw [lastStatus, ← dealt_statements (0 : Fin n)] at mentioned
  obtain ⟨i, own⟩ := LastWrite.exists_part_last mentioned
  exact ⟨i, by rwa [part_dealt] at own⟩

/-- A host of some share is mentioned in the requests. -/
theorem lastStatus_of_share [NeZero n] {key : RowKey} {row : Row} {i : Fin n}
    {reqs : List ReportStatusRequest} (own : lastStatus key (share i reqs) = some row) :
    ∃ found, lastStatus key reqs = some found := by
  rw [lastStatus, share, ← part_dealt] at own
  obtain ⟨found, reached⟩ := LastWrite.last_of_part own
  exact ⟨found, by rwa [dealt_statements] at reached⟩

/-! ### What a run stores -/

namespace Service

/-- The statements a thread has still to send, those of its queue included. -/
def owed (i : Fin n) (s : Service n) : List (RowKey × Row) :=
  s.pending i ++ (s.reportQueues i).queue.flatMap store

/-- `log` is what happened between `s` and `t`: the statements that were sent, by which thread and
in which order. Each thread has sent the first of what it owed and was dealt since. -/
structure Stored (reqs : List ReportStatusRequest) (log : List (Fin n × RowKey × Row))
    (s t : Service n) : Prop where
  sent : ∀ i, LastWrite.part i log ++ t.owed i =
    s.owed i ++ (shareFrom s.index i reqs).flatMap store
  table : ∀ key, t.serverCallStatus key =
    (LastWrite.last key (log.map (·.2))).or (s.serverCallStatus key)

theorem step_stored (s : Service n) (op : Op n) :
    ∃ log, Stored (received [op]) log s (s.step op) := by
  cases op with
  | getReportStatus req refused =>
    refine ⟨[], fun i => ?_, fun key => rfl⟩
    change s.pending i ++ (Function.update s.reportQueues s.index _ i).queue.flatMap store = _
    simp only [received, shareFrom, owed, Function.update_apply, eq_comm (a := i)]
    split
    next own =>
      rw [own]
      simp only [ThreadQueue.send, List.flatMap_append, List.append_assoc]
    next => simp only [List.flatMap_nil, List.append_nil]
  | recv i refused =>
    refine ⟨[], fun j => ?_, fun key => ?_⟩
    · simp only [received, shareFrom, List.flatMap_nil, List.append_nil]
      change (s.step (.recv i refused)).owed j = s.owed j
      rw [step]
      split
      next free =>
        by_cases own : j = i
        · simp [owed, own, ThreadQueue.recv, free.1]
        · simp [owed, own]
      next => rfl
    · rw [step]
      split <;> rfl
  | insert i =>
    cases waiting : s.pending i with
    | nil =>
      have still : s.step (.insert i) = s := by simp only [step, waiting]
      refine ⟨[], fun j => ?_, fun key => ?_⟩
      · rw [still]
        simp [received, shareFrom, LastWrite.part]
      · rw [still]
        rfl
    | cons w ws =>
      refine ⟨[(i, w)], fun j => ?_, fun key => ?_⟩
      · simp only [step, waiting, received, shareFrom, List.flatMap_nil, List.append_nil, owed,
          LastWrite.part_single, Function.update_apply, eq_comm (a := j)]
        split
        next own =>
          rw [← own, waiting]
          rfl
        next => rfl
      · simp only [step, waiting]
        exact LastWrite.write_apply s.serverCallStatus w key

theorem step_index (s : Service n) (op : Op n) (i : Fin n) (ops : List (Op n)) :
    shareFrom s.index i (received (op :: ops)) = shareFrom s.index i (received [op]) ++
      shareFrom (s.step op).index i (received ops) := by
  cases op with
  | getReportStatus req refused =>
    simp only [received, shareFrom, step]
    split <;> rfl
  | recv j refused =>
    have same : (s.step (.recv j refused)).index = s.index := by
      rw [step]
      split <;> rfl
    rw [same]
    rfl
  | insert j =>
    have same : (s.step (.insert j)).index = s.index := by
      simp only [step]
      split <;> rfl
    rw [same]
    rfl

theorem run_stored (s : Service n) (ops : List (Op n)) :
    ∃ log, Stored (received ops) log s (ops.foldl step s) := by
  induction ops generalizing s with
  | nil => exact ⟨[], fun i => by simp [received, shareFrom, LastWrite.part], fun key => rfl⟩
  | cons op ops ih =>
    obtain ⟨log, first⟩ := step_stored s op
    obtain ⟨more, rest⟩ := ih (s.step op)
    -- the later statements come behind the earlier ones and win over them
    refine ⟨log ++ more, fun i => ?_, fun key => ?_⟩
    · rw [List.foldl_cons, LastWrite.part_append, List.append_assoc, rest.sent, ← List.append_assoc,
        first.sent, List.append_assoc, ← List.flatMap_append, ← step_index]
    · rw [List.foldl_cons, rest.table, first.table, List.map_append, LastWrite.last_append,
        Option.or_assoc]

/-! ### Threads that finish one after the other -/

/-- Nothing of what a thread was given is left. -/
def Finished (s : Service n) (i : Fin n) : Prop :=
  (s.reportQueues i).queue = [] ∧ s.pending i = []

/-- A thread between two calls of `thread_report`. -/
def Idle (s : Service n) (i : Fin n) : Prop :=
  (s.reportQueues i).Due ∧ s.pending i = []

/-- From `s` to `t` only thread `i` has moved. -/
def Spares (i : Fin n) (s t : Service n) : Prop :=
  ∀ j, j ≠ i → t.reportQueues j = s.reportQueues j ∧ t.pending j = s.pending j

theorem Finished.idle {s : Service n} {i : Fin n} (finished : s.Finished i) : s.Idle i :=
  ⟨fun waiting => absurd finished.1 waiting, finished.2⟩

theorem Finished.owed {s : Service n} {i : Fin n} (finished : s.Finished i) : s.owed i = [] := by
  rw [Service.owed, finished.1, finished.2]
  rfl

theorem received_inserts (i : Fin n) (count : Nat) :
    received (List.replicate count (Op.insert i)) = [] := by
  induction count with
  | zero => rfl
  | succ count ih => exact ih

theorem step_insert {s : Service n} {i : Fin n} {w : RowKey × Row} {ws : List (RowKey × Row)}
    (batch : s.pending i = w :: ws) : s.step (.insert i) = { s with
      pending := Function.update s.pending i ws
      serverCallStatus := LastWrite.write s.serverCallStatus w } := by
  simp only [step, batch]

theorem step_recv {s : Service n} {i : Fin n} (refused : Bool) (free : s.pending i = [])
    (readable : 0 < (s.reportQueues i).evfd) : s.step (.recv i refused) = { s with
      reportQueues := Function.update s.reportQueues i ((s.reportQueues i).recv refused []).2
      pending := Function.update s.pending i ((s.reportQueues i).queue.flatMap store) } :=
  if_pos ⟨free, readable⟩

/-- A thread sends its batch to the end. -/
theorem run_inserts (s : Service n) (i : Fin n) :
    let t := (List.replicate (s.pending i).length (Op.insert i)).foldl step s
    t.pending i = [] ∧ t.reportQueues i = s.reportQueues i ∧ Spares i s t := by
  generalize batch : s.pending i = ws
  induction ws generalizing s with
  | nil => exact ⟨batch, rfl, fun j _ => ⟨rfl, rfl⟩⟩
  | cons w ws ih =>
    have sent := step_insert batch
    rw [List.length_cons, List.replicate_succ, List.foldl_cons]
    have rest : (s.step (.insert i)).pending i = ws := by rw [sent]; exact Function.update_self ..
    obtain ⟨done, same, others⟩ := ih _ rest
    rw [sent] at same others
    refine ⟨done, by rw [sent]; exact same, fun j other => ?_⟩
    rw [sent, (others j other).1, (others j other).2]
    exact ⟨rfl, Function.update_of_ne other ws s.pending⟩

/-- An idle thread can do all it has to do while the others wait. -/
theorem exists_finish {s : Service n} {i : Fin n} (idle : s.Idle i) :
    ∃ ops, received ops = [] ∧ (ops.foldl step s).Finished i ∧ Spares i s (ops.foldl step s) := by
  by_cases waiting : (s.reportQueues i).queue = []
  · exact ⟨[], rfl, ⟨waiting, idle.2⟩, fun j _ => ⟨rfl, rfl⟩⟩
  · -- the eventfd is readable, so the thread takes its queue and sends the batch
    have taken := step_recv false idle.2 (idle.1 waiting)
    obtain ⟨done, same, others⟩ := run_inserts (s.step (.recv i false)) i
    refine ⟨.recv i false :: List.replicate _ (.insert i), received_inserts i _, ⟨?_, done⟩, ?_⟩
    · rw [List.foldl_cons, same, taken]
      simp only [ThreadQueue.recv, Function.update_self]
    · intro j other
      obtain ⟨queue, pending⟩ := others j other
      rw [List.foldl_cons, queue, pending, taken]
      exact ⟨Function.update_of_ne other _ _, Function.update_of_ne other _ _⟩

theorem received_append (ops more : List (Op n)) :
    received (ops ++ more) = received ops ++ received more := by
  induction ops with
  | nil => rfl
  | cons op ops ih => cases op <;> simp only [List.cons_append, received, ih]

/-- Threads finish one after the other; those that are not on the list do not move. -/
theorem exists_finish_list (is : List (Fin n)) {s : Service n} (idle : ∀ i, s.Idle i) :
    ∃ ops, received ops = [] ∧ (∀ i ∈ is, (ops.foldl step s).Finished i) ∧
      ∀ i ∉ is, (ops.foldl step s).reportQueues i = s.reportQueues i ∧
        (ops.foldl step s).pending i = s.pending i := by
  induction is generalizing s with
  | nil => exact ⟨[], rfl, fun i member => absurd member List.not_mem_nil, fun i _ => ⟨rfl, rfl⟩⟩
  | cons first is ih =>
    obtain ⟨ops, quiet, finished, spared⟩ := exists_finish (idle first)
    have still : ∀ i, (ops.foldl step s).Idle i := by
      intro i
      by_cases own : i = first
      · exact own ▸ finished.idle
      · obtain ⟨queue, pending⟩ := spared i own
        rw [Idle, queue, pending]
        exact idle i
    obtain ⟨more, quieter, all, others⟩ := ih still
    refine ⟨ops ++ more, by rw [received_append, quiet, quieter]; rfl, ?_, ?_⟩
    · rw [List.foldl_append]
      intro i member
      by_cases later : i ∈ is
      · exact all i later
      · have own : i = first := (List.mem_cons.mp member).resolve_right later
        obtain ⟨queue, pending⟩ := others i later
        rw [Finished, queue, pending, own]
        exact finished
    · rw [List.foldl_append]
      intro i absent
      obtain ⟨other, later⟩ := not_or.mp (mt List.mem_cons.mpr absent)
      obtain ⟨queue, pending⟩ := others i later
      rw [queue, pending]
      exact spared i other

/-- All requests arrive before a thread moves: each thread has its share in its queue. -/
theorem run_receives (reqs : List ReportStatusRequest) {s : Service n} (idle : ∀ i, s.Idle i) :
    let ops := reqs.map (Op.getReportStatus · false)
    received ops = reqs ∧ ∀ i, (ops.foldl step s).Idle i ∧
      ((ops.foldl step s).reportQueues i).queue =
        (s.reportQueues i).queue ++ shareFrom s.index i reqs := by
  induction reqs generalizing s with
  | nil => exact ⟨rfl, fun i => ⟨idle i, (List.append_nil _).symm⟩⟩
  | cons req reqs ih =>
    have still : ∀ i, (s.step (.getReportStatus req false)).Idle i := by
      intro i
      refine ⟨?_, (idle i).2⟩
      simp only [step, Function.update_apply]
      split
      · exact ThreadQueue.send_due req (fun refused => absurd refused Bool.false_ne_true)
      · exact (idle i).1
    obtain ⟨names, rest⟩ := ih still
    refine ⟨congrArg (req :: ·) names, fun i => ⟨(rest i).1, ?_⟩⟩
    rw [List.map_cons, List.foldl_cons, (rest i).2]
    simp only [step, Function.update_apply, shareFrom, eq_comm (a := i)]
    split
    next own => simp only [own, ThreadQueue.send, List.append_assoc, List.singleton_append]
    next => rfl

/-! ### The row of a host -/

variable [NeZero n]

/-- Once all is stored, the row of a host is the last status in the share of some thread. -/
theorem drained_row {rows : RowKey → Option Row} {ops : List (Op n)} {key : RowKey} {row : Row}
    (drained : (ops.foldl step (start n rows)).Drained)
    (mentioned : lastStatus key (received ops) = some row) :
    ∃ (i : Fin n) (found : Row), lastStatus key (share i (received ops)) = some found ∧
      (ops.foldl step (start n rows)).serverCallStatus key = some found := by
  obtain ⟨log, stored⟩ := run_stored (start n rows) ops
  -- as nothing is owed any more, each thread has sent its whole share
  have parts : ∀ i, LastWrite.part i log = (share i (received ops)).flatMap store := by
    intro i
    have sent := stored.sent i
    rwa [Finished.owed (drained i), List.append_nil] at sent
  obtain ⟨first, own⟩ := exists_share_last (n := n) mentioned
  rw [lastStatus, ← parts] at own
  obtain ⟨found, reached⟩ := LastWrite.last_of_part own
  obtain ⟨i, last⟩ := LastWrite.exists_part_last reached
  refine ⟨i, found, by rwa [parts] at last, ?_⟩
  rw [stored.table, reached]
  rfl

omit [NeZero n] in
/-- Where only thread `i` has anything to send, its last statement about a host is the row. -/
theorem sole_writer_row {s : Service n} {i : Fin n} {ops : List (Op n)} {key : RowKey} {row : Row}
    (others : ∀ j, j ≠ i → s.Finished j) (silent : received ops = [])
    (drained : (ops.foldl step s).Drained) (own : LastWrite.last key (s.owed i) = some row) :
    (ops.foldl step s).serverCallStatus key = some row := by
  obtain ⟨log, stored⟩ := run_stored s ops
  have parts : ∀ j, LastWrite.part j log = s.owed j := by
    intro j
    have sent := stored.sent j
    rw [silent, Finished.owed (drained j), List.append_nil] at sent
    simpa only [shareFrom, List.flatMap_nil, List.append_nil] using sent
  rw [← parts] at own
  obtain ⟨found, reached⟩ := LastWrite.last_of_part own
  obtain ⟨j, writer⟩ := LastWrite.exists_part_last reached
  -- somebody has written the row, and the others had nothing to write
  have same : j = i := by
    by_contra other
    rw [parts, (others j other).owed] at writer
    cases writer
  rw [same, own] at writer
  rw [stored.table, reached, ← writer]
  rfl

/-- Any thread can be the last to store. -/
theorem exists_last_thread (rows : RowKey → Option Row) (reqs : List ReportStatusRequest)
    (i : Fin n) : ∃ ops, received ops = reqs ∧ (ops.foldl step (start n rows)).Drained ∧
      ∀ key row, lastStatus key (share i reqs) = some row →
        (ops.foldl step (start n rows)).serverCallStatus key = some row := by
  have idle : ∀ j, (start n rows).Idle j := fun _ => ⟨ThreadQueue.init_due, rfl⟩
  obtain ⟨names, dealtOut⟩ := run_receives reqs idle
  set arrived := (reqs.map (Op.getReportStatus · false)).foldl step (start n rows) with arrivedEq
  -- all threads but `i` finish first
  obtain ⟨before, quiet, finished, waits⟩ :=
    exists_finish_list ((List.finRange n).filter (· ≠ i)) (fun j => (dealtOut j).1)
  set mid := before.foldl step arrived with midEq
  obtain ⟨queue, pending⟩ := waits i (by simp)
  have idleLast : mid.Idle i := by
    rw [Idle, queue, pending]
    exact (dealtOut i).1
  have others : ∀ j, j ≠ i → mid.Finished j := fun j other => finished j (by simp [other])
  obtain ⟨after, silent, last, spared⟩ := exists_finish idleLast
  have drained : (after.foldl step mid).Drained := by
    intro j
    by_cases own : j = i
    · exact own ▸ last
    · obtain ⟨sameQueue, samePending⟩ := spared j own
      rw [sameQueue, samePending]
      exact others j own
  refine ⟨reqs.map (Op.getReportStatus · false) ++ before ++ after, ?_, ?_, ?_⟩
  · rw [received_append, received_append, names, quiet, silent, List.append_nil, List.append_nil]
  · rwa [List.foldl_append, List.foldl_append, ← arrivedEq, ← midEq]
  · intro key row own
    rw [List.foldl_append, List.foldl_append, ← arrivedEq, ← midEq]
    apply sole_writer_row others silent drained
    rw [owed, idleLast.2, queue, (dealtOut i).2]
    exact own

/-- Whatever the threads do, each host ends with its latest status exactly if no thread's share
ends, for any host, with another status than the latest. -/
theorem latest_status_wins (rows : RowKey → Option Row) (reqs : List ReportStatusRequest) :
    (∀ ops : List (Op n), received ops = reqs → (ops.foldl step (start n rows)).Drained →
      ∀ key row, lastStatus key reqs = some row →
        (ops.foldl step (start n rows)).serverCallStatus key = some row) ↔
    ∀ key (i : Fin n) row, lastStatus key (share i reqs) = some row →
      lastStatus key reqs = some row := by
  constructor
  · intro wins key i row own
    obtain ⟨ops, names, drained, table⟩ := exists_last_thread rows reqs i
    obtain ⟨latest, mentioned⟩ := lastStatus_of_share own
    have stored := wins ops names drained key latest mentioned
    rw [table key row own] at stored
    rw [mentioned, stored]
  · rintro agree ops rfl drained key row mentioned
    obtain ⟨i, found, own, stored⟩ := drained_row drained mentioned
    rw [stored, ← agree key i found own, mentioned]

/-- Two threads and three requests; the two about one host are dealt to one thread. -/
theorem latest_status_wins_apart :
    share (0 : Fin 2) [⟨1, 1, 5, [⟨7, 80, 3, 0, false⟩], 100⟩,
        ⟨1, 1, 5, [⟨8, 80, 2, 1, false⟩], 100⟩, ⟨1, 1, 5, [⟨7, 80, 9, 0, true⟩], 101⟩] =
      [⟨1, 1, 5, [⟨7, 80, 3, 0, false⟩], 100⟩, ⟨1, 1, 5, [⟨7, 80, 9, 0, true⟩], 101⟩] ∧
    ∀ ops : List (Op 2),
      received ops = [⟨1, 1, 5, [⟨7, 80, 3, 0, false⟩], 100⟩,
        ⟨1, 1, 5, [⟨8, 80, 2, 1, false⟩], 100⟩, ⟨1, 1, 5, [⟨7, 80, 9, 0, true⟩], 101⟩] →
      (ops.foldl step (start 2 fun _ => none)).Drained →
      ∀ key row, lastStatus key [⟨1, 1, 5, [⟨7, 80, 3, 0, false⟩], 100⟩,
          ⟨1, 1, 5, [⟨8, 80, 2, 1, false⟩], 100⟩, ⟨1, 1, 5, [⟨7, 80, 9, 0, true⟩], 101⟩] =
            some row →
        (ops.foldl step (start 2 fun _ => none)).serverCallStatus key = some row := by
  refine ⟨rfl, (latest_status_wins (n := 2) _ _).mpr fun key => Fin.forall_fin_two.mpr ⟨?_, ?_⟩⟩
  · intro row own
    change LastWrite.last key [(⟨1, 1, 7, 80, 5⟩, _), (⟨1, 1, 7, 80, 5⟩, _)] = some row at own
    by_cases seven : (⟨1, 1, 7, 80, 5⟩ : RowKey) = key
    · subst seven
      exact own
    · simp only [LastWrite.last, if_neg seven, Option.or_none, reduceCtorEq] at own
  · intro row own
    change LastWrite.last key [(⟨1, 1, 8, 80, 5⟩, _)] = some row at own
    by_cases eight : (⟨1, 1, 8, 80, 5⟩ : RowKey) = key
    · subst eight
      exact own
    · simp only [LastWrite.last, if_neg eight, Option.or_none, reduceCtorEq] at own

/-- One agent reports on one host twice. The second request is with another thread, which stores it
first: the row ends with the older status. -/
theorem latest_status_lost :
    ¬ ∀ (reqs : List ReportStatusRequest) (ops : List (Op 2)), received ops = reqs →
      (ops.foldl step (start 2 fun _ => none)).Drained →
      ∀ key row, lastStatus key reqs = some row →
        (ops.foldl step (start 2 fun _ => none)).serverCallStatus key = some row := by
  intro wins
  have newer := wins
    [⟨1, 1, 5, [⟨7, 80, 3, 0, false⟩], 100⟩, ⟨1, 1, 5, [⟨7, 80, 1, 9, true⟩], 115⟩]
    [.getReportStatus ⟨1, 1, 5, [⟨7, 80, 3, 0, false⟩], 100⟩ false,
      .getReportStatus ⟨1, 1, 5, [⟨7, 80, 1, 9, true⟩], 115⟩ false,
      .recv 1 false, .insert 1, .recv 0 false, .insert 0]
    rfl (Fin.forall_fin_two.mpr ⟨⟨rfl, rfl⟩, rfl, rfl⟩) ⟨1, 1, 7, 80, 5⟩ ⟨1, 9, 115, true⟩ rfl
  revert newer
  decide

end Service

end Lars.Reporter
