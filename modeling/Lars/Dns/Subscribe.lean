import Lars.Lib.Run
import Lars.Dns.Route
import Lars.Dns.Response

/-!
# Subscriptions and pushes

`SubscribeList` notes in `_book_list` who has asked for a module and in
`_push_list` who is to be told of a change. A change is published from the
thread that polls the database; the threads that own the connections each run
`push_change_task`, which copies its part of `_push_list`, sends, and erases.
Copying is done under the lock, erasing is not, and the two are steps apart.
-/
namespace Lars.Dns

/-- `subscribe_map` -/
abbrev BookList := AList fun _ : UInt64 => List Nat

/-- `publish_map` -/
abbrev PushList := AList fun _ : Nat => List UInt64

namespace PushList

/-- The modules noted for a descriptor. -/
def of (fd : Nat) (list : PushList) : List UInt64 := (list.lookup fd).getD []

/-- `_push_list[fd].insert(mod)` -/
def add (list : PushList) (pair : Nat × UInt64) : PushList :=
  list.insert pair.1 ((list.of pair.1).insert pair.2)

end PushList

/-- A running `push_change_task`: what it still has to go through of `need_publish`, and whether
the answer for the first of it is already sent, so that the erasing comes next. -/
structure PushTask where
  todo : List (Nat × UInt64)
  /-- Set also when `send_message` has refused the answer. -/
  sent : Bool

/-- What the task will still send. -/
def PushTask.unsent (t : PushTask) : List (Nat × UInt64) := if t.sent then t.todo.tail else t.todo

/-- The answer that `push_change_task` builds for a key. -/
def pushResponse (mod : UInt64) (route : Route) : Proto.GetRouteResponse :=
  let modid := (mod >>> 32).toUInt32.toInt32
  let cmdid := mod.toUInt32.toInt32
  routeResponse modid cmdid (route.getHosts modid cmdid)

structure Service where
  bookList : BookList
  pushList : PushList
  route : Route
  /-- The worker thread of an open connection. -/
  home : Nat → Option Nat
  /-- The tasks in the queue of a worker thread. -/
  queued : Nat → Nat
  task : Nat → Option PushTask
  /-- The answers sent, oldest first. -/
  answers : List (Nat × Proto.GetRouteResponse)
  /-- Published for the connection that is open now, and not sent since. -/
  owed : Nat → UInt64 → Bool

inductive ServiceStep where
  | accept (fd worker : Nat)
  | close (fd : Nat)
  | subscribe (mod : UInt64) (fd : Nat)
  | unsubscribe (mod : UInt64) (fd : Nat)
  | swapRoute (route : Route)
  | publish (changeMods : List UInt64)
  /-- `get_listen_fds` and `make_publish_map`; the order in which the copy will be gone through
  is up to the hash map. -/
  | copy (worker : Nat) (todo : List (Nat × UInt64))
  /-- `send_message` takes the answer, or refuses it for want of room; nobody looks. -/
  | send (worker : Nat) (accepted : Bool)
  | erase (worker : Nat)

namespace Service

def subscribe (mod : UInt64) (fd : Nat) (list : BookList) : BookList :=
  list.insert mod (((list.lookup mod).getD []).insert fd)

def unsubscribe (mod : UInt64) (fd : Nat) (list : BookList) : BookList :=
  match list.lookup mod with
  | none => list
  | some fds => if fds.erase fd = [] then list.erase mod else list.insert mod (fds.erase fd)

/-- The pairs that `publish` puts into `_push_list`. -/
def published (changeMods : List UInt64) (s : Service) : List (Nat × UInt64) :=
  changeMods.flatMap fun mod => ((s.bookList.lookup mod).getD []).map fun fd => (fd, mod)

/-- The pairs that `make_publish_map` copies for the connections of a worker. -/
def needPublish (worker : Nat) (s : Service) : List (Nat × UInt64) :=
  (s.pushList.entries.filter fun entry => s.home entry.1 = some worker).flatMap fun entry =>
    entry.2.map fun mod => (entry.1, mod)

def step (s : Service) (op : ServiceStep) : Except Fault Service :=
  match op with
  | .accept fd worker =>
    if s.home fd = none then .ok { s with home := Function.update s.home fd (some worker) } else .ok s
  | .close fd =>
    .ok { s with
      home := Function.update s.home fd none
      owed := Function.update s.owed fd fun _ => false }
  | .subscribe mod fd => .ok { s with bookList := subscribe mod fd s.bookList }
  | .unsubscribe mod fd => .ok { s with bookList := unsubscribe mod fd s.bookList }
  | .swapRoute route => .ok { s with route := route }
  | .publish changeMods =>
    let pairs := s.published changeMods
    .ok { s with
      pushList := pairs.foldl PushList.add s.pushList
      -- `send_task` queues the task with every worker
      queued := fun worker => s.queued worker + 1
      owed := fun fd mod => s.owed fd mod || ((s.home fd).isSome && decide ((fd, mod) ∈ pairs)) }
  | .copy worker todo =>
    if s.task worker = none ∧ 0 < s.queued worker ∧ todo.Perm (s.needPublish worker) then
      .ok { s with
        queued := Function.update s.queued worker (s.queued worker - 1)
        task := Function.update s.task worker (if todo = [] then none else some ⟨todo, false⟩) }
    else .ok s
  | .send worker accepted =>
    -- `get_hosts` and `send_message`; a descriptor without a connection is passed over
    match s.task worker with
    | some ⟨(fd, mod) :: rest, false⟩ =>
      let s := { s with task := Function.update s.task worker (some ⟨(fd, mod) :: rest, true⟩) }
      if (s.home fd).isSome ∧ accepted = true then
        .ok { s with
          answers := s.answers ++ [(fd, pushResponse mod s.route)]
          owed := Function.update s.owed fd (Function.update (s.owed fd) mod false) }
      else .ok s
    | _ => .ok s
  | .erase worker =>
    -- the whole entry of the descriptor, not just the module that was sent
    match s.task worker with
    | some ⟨(fd, _) :: rest, true⟩ =>
      .ok { s with
        pushList := s.pushList.erase fd
        task := Function.update s.task worker (if rest = [] then none else some ⟨rest, false⟩) }
    | _ => .ok s

def init (route : Route) : Service :=
  ⟨∅, ∅, route, fun _ => none, fun _ => 0, fun _ => none, [], fun _ _ => false⟩

/-- A pair is published for an open connection only while no task that copied the descriptor's
entry before still has to erase it, unless the task is yet to send this very pair. -/
def Undisturbed (s : Service) (op : ServiceStep) : Prop :=
  match op with
  | .publish changeMods =>
    ∀ pair ∈ s.published changeMods, (s.home pair.1).isSome = true →
      ∀ worker t, s.task worker = some t → pair.1 ∈ t.todo.map Prod.fst → pair ∈ t.unsent
  | _ => True

/-- `send_message` takes what the task gives it. -/
def Taken (_ : Service) (op : ServiceStep) : Prop :=
  match op with
  | .send _ accepted => accepted = true
  | _ => True

/-- A pair that was published for an open connection and not sent since is still noted. -/
def Noted (s : Service) : Prop := ∀ fd mod, s.owed fd mod = true → mod ∈ s.pushList.of fd

/-- Some running task is going to send the pair. -/
def Carried (s : Service) (pair : Nat × UInt64) : Prop :=
  ∃ worker t, s.task worker = some t ∧ pair ∈ t.unsent

/-! ### The lists -/

theorem mem_add {list : PushList} {pair : Nat × UInt64} {fd : Nat} {mod : UInt64} :
    mod ∈ (list.add pair).of fd ↔ mod ∈ list.of fd ∨ (fd, mod) = pair := by
  obtain ⟨fd', mod'⟩ := pair
  by_cases same : fd = fd'
  · subst same
    simp [PushList.add, PushList.of, AList.lookup_insert, or_comm]
  · simp [PushList.add, PushList.of, AList.lookup_insert_ne same, same]

theorem mem_foldl_add {pairs : List (Nat × UInt64)} {list : PushList} {fd : Nat} {mod : UInt64} :
    mod ∈ (pairs.foldl PushList.add list).of fd ↔ mod ∈ list.of fd ∨ (fd, mod) ∈ pairs := by
  induction pairs generalizing list with
  | nil => simp
  | cons pair pairs ih => rw [List.foldl_cons, ih, mem_add, List.mem_cons, or_assoc]

theorem mem_erase {list : PushList} {fd fd' : Nat} {mod : UInt64} :
    mod ∈ PushList.of fd (list.erase fd') ↔ fd ≠ fd' ∧ mod ∈ list.of fd := by
  by_cases same : fd = fd'
  · subst same
    simp [PushList.of, AList.lookup_erase]
  · simp [PushList.of, AList.lookup_erase_ne same, same]

theorem mem_needPublish {s : Service} {worker fd : Nat} {mod : UInt64} :
    (fd, mod) ∈ s.needPublish worker ↔ s.home fd = some worker ∧ mod ∈ s.pushList.of fd := by
  simp only [needPublish, List.mem_flatMap, List.mem_filter, decide_eq_true_eq, List.mem_map,
    Prod.mk.injEq]
  constructor
  · rintro ⟨entry, ⟨member, here⟩, mod', inside, rfl, rfl⟩
    have found : s.pushList.lookup entry.1 = some entry.2 := AList.mem_lookup_iff.mpr member
    exact ⟨here, by rwa [PushList.of, found]⟩
  · rintro ⟨here, inside⟩
    cases found : s.pushList.lookup fd with
    | none => simp [PushList.of, found] at inside
    | some mods =>
      rw [PushList.of, found] at inside
      exact ⟨⟨fd, mods⟩, ⟨AList.mem_lookup_iff.mp found, here⟩, mod, inside, rfl, rfl⟩

/-- All that is noted for a descriptor of which anything is copied is copied. -/
private theorem mem_copied {s : Service} {worker : Nat} {todo : List (Nat × UInt64)}
    (copied : todo.Perm (s.needPublish worker)) {pair : Nat × UInt64}
    (some : pair.1 ∈ todo.map Prod.fst) (noted : pair.2 ∈ s.pushList.of pair.1) : pair ∈ todo := by
  obtain ⟨other, inside, same⟩ := List.mem_map.mp some
  obtain ⟨here, -⟩ := mem_needPublish.mp (copied.mem_iff.mp inside)
  rw [same] at here
  exact copied.mem_iff.mpr (mem_needPublish.mpr ⟨here, noted⟩)

/-! ### One step of each side -/

variable {s : Service}

private theorem update_some {tasks : Nat → Option PushTask} {worker w : Nat}
    {new : Option PushTask} {t : PushTask} (running : Function.update tasks worker new w = some t) :
    tasks w = some t ∨ (w = worker ∧ new = some t) := by
  by_cases same : w = worker
  · subst same
    rw [Function.update_self] at running
    exact .inr ⟨rfl, running⟩
  · rw [Function.update_of_ne same] at running
    exact .inl running

private theorem settled_iff {owed : Nat → UInt64 → Bool} {fd fd' : Nat} {mod mod' : UInt64} :
    Function.update owed fd (Function.update (owed fd) mod false) fd' mod' = true ↔
      (fd', mod') ≠ (fd, mod) ∧ owed fd' mod' = true := by
  by_cases same : fd' = fd
  · subst same
    by_cases same' : mod' = mod
    · simp [same']
    · simp [same']
  · simp [same]

/-- The steps that matter are the publishing and those of the tasks; every other one leaves the
list and the tasks alone and owes nothing new. -/
theorem step_cases {op : ServiceStep} {t : Service} (done : s.step op = .ok t) :
    (∃ changeMods, op = .publish changeMods) ∨ (∃ worker todo, op = .copy worker todo) ∨
      (∃ worker accepted, op = .send worker accepted) ∨ (∃ worker, op = .erase worker) ∨
      (t.pushList = s.pushList ∧ t.task = s.task ∧
        ∀ fd mod, t.owed fd mod = true → s.owed fd mod = true) := by
  cases op with
  | publish changeMods => exact .inl ⟨changeMods, rfl⟩
  | copy worker todo => exact .inr (.inl ⟨worker, todo, rfl⟩)
  | send worker accepted => exact .inr (.inr (.inl ⟨worker, accepted, rfl⟩))
  | erase worker => exact .inr (.inr (.inr (.inl ⟨worker, rfl⟩)))
  | accept fd worker =>
    simp only [step] at done
    split at done
    · cases done
      exact .inr (.inr (.inr (.inr ⟨rfl, rfl, fun _ _ owed => owed⟩)))
    · cases done
      exact .inr (.inr (.inr (.inr ⟨rfl, rfl, fun _ _ owed => owed⟩)))
  | close fd =>
    cases done
    refine .inr (.inr (.inr (.inr ⟨rfl, rfl, fun fd' mod owed => ?_⟩)))
    by_cases same : fd' = fd
    · simp [same] at owed
    · simpa [same] using owed
  | subscribe | unsubscribe | swapRoute =>
    cases done
    exact .inr (.inr (.inr (.inr ⟨rfl, rfl, fun _ _ owed => owed⟩)))

/-- Only open connections are owed anything. -/
def OwesOpen (s : Service) : Prop := ∀ fd mod, s.owed fd mod = true → (s.home fd).isSome = true

theorem step_owesOpen {op : ServiceStep} {t : Service} (opens : s.OwesOpen)
    (done : s.step op = .ok t) : t.OwesOpen := by
  cases op with
  | accept fd worker =>
    simp only [step] at done
    split at done
    · cases done
      intro fd' mod owed
      by_cases same : fd' = fd
      · simp [same]
      · simpa [same] using opens fd' mod owed
    · cases done
      exact opens
  | close fd =>
    cases done
    intro fd' mod owed
    by_cases same : fd' = fd
    -- what was owed to the connection is owed to nobody
    · simp [same] at owed
    · simp only [ne_eq, same, not_false_eq_true, Function.update_of_ne] at owed ⊢
      exact opens fd' mod owed
  | publish changeMods =>
    cases done
    intro fd mod owed
    simp only [Bool.or_eq_true, Bool.and_eq_true] at owed
    exact owed.elim (opens fd mod) And.left
  | copy worker todo =>
    simp only [step] at done
    split at done <;> cases done <;> exact opens
  | send worker accepted =>
    simp only [step] at done
    split at done
    · split at done
      · cases done
        intro fd' mod' owed
        exact opens fd' mod' (settled_iff.mp owed).2
      · cases done
        exact opens
    · cases done
      exact opens
  | erase worker =>
    simp only [step] at done
    split at done <;> cases done <;> exact opens
  | subscribe | unsubscribe | swapRoute =>
    cases done
    exact opens

/-- What a strict reading asks for: the pair is noted until it is sent. Every task that is busy
with a descriptor is about to send the one pair that can be owed to it. -/
structure Strict (s : Service) : Prop where
  noted : s.Noted
  opens : s.OwesOpen
  owing : ∀ worker t, s.task worker = some t → ∀ pair : Nat × UInt64,
    pair.1 ∈ t.todo.map Prod.fst → s.owed pair.1 pair.2 = true → pair ∈ t.unsent
  single : ∀ worker t, s.task worker = some t → (t.todo.map Prod.fst).Nodup

theorem Strict.init (route : Route) : (init route).Strict where
  noted := fun _ _ owed => by cases owed
  opens := fun _ _ owed => by cases owed
  owing := fun _ _ none => by cases none
  single := fun _ _ none => by cases none

variable {t : Service} {worker : Nat}

theorem Strict.publish (strict : s.Strict) {changeMods : List UInt64}
    (undisturbed : s.Undisturbed (.publish changeMods))
    (done : s.step (.publish changeMods) = .ok t) : t.Strict := by
  have opens := step_owesOpen strict.opens done
  cases done
  refine ⟨fun fd mod owed => ?_, opens, fun worker task running pair busy owed => ?_,
    strict.single⟩
  · rw [mem_foldl_add]
    simp only [Bool.or_eq_true, Bool.and_eq_true, decide_eq_true_eq] at owed
    exact owed.imp (strict.noted fd mod) And.right
  · simp only [Bool.or_eq_true, Bool.and_eq_true, decide_eq_true_eq] at owed
    rcases owed with before | ⟨here, new⟩
    · exact strict.owing worker task running pair busy before
    · exact undisturbed pair new here worker task running busy

theorem Strict.copy (strict : s.Strict) {todo : List (Nat × UInt64)}
    (one : (todo.map Prod.fst).Nodup) (done : s.step (.copy worker todo) = .ok t) : t.Strict := by
  have opens := step_owesOpen strict.opens done
  simp only [step] at done
  split at done
  next able =>
    cases done
    refine ⟨strict.noted, opens, fun w task running pair busy owed => ?_, fun w task running => ?_⟩
    · rcases update_some running with before | ⟨rfl, new⟩
      · exact strict.owing w task before pair busy owed
      · split at new
        -- an empty copy starts no task
        · cases new
        · cases new
          exact mem_copied able.2.2 busy (strict.noted _ _ owed)
    · rcases update_some running with before | ⟨rfl, new⟩
      · exact strict.single w task before
      · split at new
        · cases new
        · cases new
          exact one
  next =>
    cases done
    exact strict

/-- A sending moves the task on to the erasing, and afterwards nothing but the pair is settled. -/
theorem send_inv (opens : s.OwesOpen) (done : s.step (.send worker true) = .ok t) :
    t = s ∨ ∃ fd mod rest, s.task worker = some ⟨(fd, mod) :: rest, false⟩ ∧
      t.pushList = s.pushList ∧
      t.task = Function.update s.task worker (some ⟨(fd, mod) :: rest, true⟩) ∧
      ∀ pair : Nat × UInt64, t.owed pair.1 pair.2 = true →
        pair ≠ (fd, mod) ∧ s.owed pair.1 pair.2 = true := by
  simp only [step] at done
  split at done
  next fd mod rest working =>
    refine .inr ⟨fd, mod, rest, working, ?_⟩
    split at done
    next =>
      cases done
      exact ⟨rfl, rfl, fun pair owed => settled_iff.mp owed⟩
    next closed =>
      -- passed over: nothing is owed on a descriptor that is not open
      cases done
      refine ⟨rfl, rfl, fun pair owed => ⟨?_, owed⟩⟩
      rintro rfl
      exact closed ⟨opens fd mod owed, trivial⟩
  next =>
    cases done
    exact .inl rfl

/-- The pair sent is not owed any more, so what is owed is among the rest. -/
theorem Strict.send (strict : s.Strict) (done : s.step (.send worker true) = .ok t) :
    t.Strict := by
  have opens := step_owesOpen strict.opens done
  rcases send_inv strict.opens done with rfl | ⟨fd, mod, rest, working, list, tasks, settled⟩
  · exact strict
  · refine ⟨fun fd' mod' owed => ?_, opens, fun w task running pair busy owed => ?_,
      fun w task running => ?_⟩
    · rw [list]
      exact strict.noted fd' mod' (settled (fd', mod') owed).2
    · obtain ⟨other, before⟩ := settled pair owed
      rw [tasks] at running
      rcases update_some running with held | ⟨rfl, new⟩
      · exact strict.owing w task held pair busy before
      · cases new
        have inside := strict.owing w _ working pair busy before
        exact (List.mem_cons.mp inside).resolve_left other
    · rw [tasks] at running
      rcases update_some running with held | ⟨rfl, new⟩
      · exact strict.single w task held
      · cases new
        exact strict.single w ⟨(fd, mod) :: rest, false⟩ working

/-- Nothing is owed to a descriptor whose only pair has been sent, and its entry may go. -/
theorem Strict.erase (strict : s.Strict) (done : s.step (.erase worker) = .ok t) : t.Strict := by
  have opens := step_owesOpen strict.opens done
  simp only [step] at done
  split at done
  next fd mod rest working =>
    cases done
    have single := List.nodup_cons.mp (strict.single worker _ working)
    refine ⟨fun fd' mod' owed => ?_, opens, fun w task running pair busy owed => ?_,
      fun w task running => ?_⟩
    · refine mem_erase.mpr ⟨?_, strict.noted fd' mod' owed⟩
      -- a pair owed to this descriptor would come again later in the task
      rintro rfl
      have inside := strict.owing worker _ working (fd', mod') (by simp) owed
      exact single.1 (List.mem_map.mpr ⟨(fd', mod'), inside, rfl⟩)
    · rcases update_some running with before | ⟨rfl, new⟩
      · exact strict.owing w task before pair busy owed
      · split at new
        · cases new
        · cases new
          exact strict.owing w _ working pair (List.mem_cons_of_mem _ busy) owed
    · rcases update_some running with before | ⟨rfl, new⟩
      · exact strict.single w task before
      · split at new
        · cases new
        · cases new
          exact single.2
  next =>
    cases done
    exact strict

/-- Steps that leave the lists and the tasks alone and owe nothing new. -/
private theorem Strict.forget (strict : s.Strict) (opens : t.OwesOpen)
    (list : t.pushList = s.pushList) (tasks : t.task = s.task)
    (fewer : ∀ fd mod, t.owed fd mod = true → s.owed fd mod = true) : t.Strict where
  noted := fun fd mod owed => by
    rw [list]
    exact strict.noted fd mod (fewer fd mod owed)
  opens := opens
  owing := fun worker task running pair busy owed =>
    strict.owing worker task (tasks ▸ running) pair busy (fewer _ _ owed)
  single := fun worker task running => strict.single worker task (tasks ▸ running)

/-- The first erasing takes the whole entry, but what else was in it is carried by the task. -/
structure Safe (s : Service) : Prop where
  opens : s.OwesOpen
  kept : ∀ fd mod, s.owed fd mod = true → mod ∈ s.pushList.of fd ∨ s.Carried (fd, mod)
  busy : ∀ worker t, s.task worker = some t → ∀ pair : Nat × UInt64,
    pair.1 ∈ t.todo.map Prod.fst → pair.2 ∈ s.pushList.of pair.1 →
    s.owed pair.1 pair.2 = true → s.Carried pair

theorem Safe.init (route : Route) : (init route).Safe where
  opens := fun _ _ owed => by cases owed
  kept := fun _ _ owed => by cases owed
  busy := fun _ _ none => by cases none

private theorem Safe.forget (safe : s.Safe) (opens : t.OwesOpen) (list : t.pushList = s.pushList)
    (tasks : t.task = s.task)
    (fewer : ∀ fd mod, t.owed fd mod = true → s.owed fd mod = true) : t.Safe := by
  have carried : ∀ pair, s.Carried pair → t.Carried pair := by
    rintro pair ⟨worker, task, running, inside⟩
    exact ⟨worker, task, by rw [tasks]; exact running, inside⟩
  refine ⟨opens, fun fd mod owed => ?_, fun worker task running pair busy noted owed => ?_⟩
  · rw [list]
    exact (safe.kept fd mod (fewer fd mod owed)).imp_right (carried _)
  · rw [list] at noted
    rw [tasks] at running
    exact carried _ (safe.busy worker task running pair busy noted (fewer _ _ owed))

private theorem Safe.publish (safe : s.Safe) {changeMods : List UInt64}
    (undisturbed : s.Undisturbed (.publish changeMods))
    (done : s.step (.publish changeMods) = .ok t) : t.Safe := by
  have opens := step_owesOpen safe.opens done
  cases done
  refine ⟨opens, fun fd mod owed => ?_, fun worker task running pair busy noted owed => ?_⟩
  · simp only [Bool.or_eq_true, Bool.and_eq_true, decide_eq_true_eq] at owed
    rw [mem_foldl_add]
    rcases owed with before | ⟨-, new⟩
    · exact (safe.kept fd mod before).imp_left .inl
    · exact .inl (.inr new)
  · by_cases new : pair ∈ s.published changeMods
    · have here := opens _ _ owed
      exact ⟨worker, task, running, undisturbed pair new here worker task running busy⟩
    · simp only [new, decide_false, Bool.and_false, Bool.or_false] at owed
      have before := (mem_foldl_add.mp noted).resolve_right new
      exact safe.busy worker task running pair busy before owed

private theorem Safe.copy (safe : s.Safe) {todo : List (Nat × UInt64)}
    (done : s.step (.copy worker todo) = .ok t) : t.Safe := by
  have opens := step_owesOpen safe.opens done
  simp only [step] at done
  split at done
  next able =>
    cases done
    -- the worker was between two tasks, so what is carried is carried by others
    have carried : ∀ pair, s.Carried pair → Carried { s with
        queued := Function.update s.queued worker (s.queued worker - 1)
        task := Function.update s.task worker (if todo = [] then none else some ⟨todo, false⟩) }
        pair := by
      rintro pair ⟨w, task, running, inside⟩
      refine ⟨w, task, ?_, inside⟩
      dsimp only
      rw [Function.update_of_ne]
      · exact running
      · rintro rfl
        rw [able.1] at running
        cases running
    refine ⟨opens, fun fd mod owed => (safe.kept fd mod owed).imp_right (carried _),
      fun w task running pair busy noted owed => ?_⟩
    rcases update_some running with before | ⟨rfl, new⟩
    · exact carried _ (safe.busy w task before pair busy noted owed)
    · refine ⟨w, task, running, ?_⟩
      split at new
      · cases new
      · cases new
        exact mem_copied able.2.2 busy noted
  next =>
    cases done
    exact safe

/-- What a task carries is carried on if the task keeps it while it advances. -/
private theorem Carried.advance {pair : Nat × UInt64} {task : PushTask} {next : Option PushTask}
    (carried : s.Carried pair) (working : s.task worker = some task)
    (tasks : t.task = Function.update s.task worker next)
    (still : pair ∈ task.unsent → ∃ task', next = some task' ∧ pair ∈ task'.unsent) :
    t.Carried pair := by
  obtain ⟨w, held, running, inside⟩ := carried
  by_cases here : w = worker
  · subst here
    rw [working] at running
    cases running
    obtain ⟨task', going, left⟩ := still inside
    exact ⟨w, task', by rw [tasks, Function.update_self, going], left⟩
  · exact ⟨w, held, by rw [tasks, Function.update_of_ne here, running], inside⟩

private theorem Safe.send (safe : s.Safe) (done : s.step (.send worker true) = .ok t) :
    t.Safe := by
  have opens := step_owesOpen safe.opens done
  rcases send_inv safe.opens done with rfl | ⟨fd, mod, rest, working, list, tasks, settled⟩
  · exact safe
  · have carried : ∀ pair, pair ≠ (fd, mod) → s.Carried pair → t.Carried pair := by
      intro pair other before
      apply before.advance working tasks
      intro inside
      exact ⟨_, rfl, (List.mem_cons.mp inside).resolve_left other⟩
    refine ⟨opens, fun fd' mod' owed => ?_, fun w task running pair busy noted owed => ?_⟩
    · obtain ⟨other, before⟩ := settled (fd', mod') owed
      rw [list]
      exact (safe.kept fd' mod' before).imp_right (carried _ other)
    · obtain ⟨other, before⟩ := settled pair owed
      apply carried pair other
      rw [list] at noted
      rw [tasks] at running
      rcases update_some running with held | ⟨rfl, new⟩
      · exact safe.busy w task held pair busy noted before
      · cases new
        exact safe.busy w _ working pair busy noted before

private theorem Safe.erase (safe : s.Safe) (done : s.step (.erase worker) = .ok t) : t.Safe := by
  have opens := step_owesOpen safe.opens done
  simp only [step] at done
  split at done
  next fd mod rest working =>
    cases done
    -- the head was sent already, so the task drops nothing that it has yet to send
    have carried : ∀ pair, s.Carried pair → Carried { s with
        pushList := s.pushList.erase fd
        task := Function.update s.task worker (if rest = [] then none else some ⟨rest, false⟩) }
        pair := by
      intro pair before
      apply before.advance working rfl
      intro inside
      have more : rest ≠ [] := List.ne_nil_of_mem inside
      exact ⟨⟨rest, false⟩, if_neg more, inside⟩
    refine ⟨opens, fun fd' mod' owed => ?_, fun w task running pair busy noted owed => ?_⟩
    · rcases safe.kept fd' mod' owed with noted | before
      · by_cases same : fd' = fd
        · -- the entry goes, and the task that erases it carries what it still owes
          subst same
          have before := safe.busy worker _ working (fd', mod') (by simp) noted owed
          exact .inr (carried _ before)
        · exact .inl (mem_erase.mpr ⟨same, noted⟩)
      · exact .inr (carried _ before)
    · apply carried pair
      have before := (mem_erase.mp noted).2
      rcases update_some running with held | ⟨rfl, new⟩
      · exact safe.busy w task held pair busy before owed
      · split at new
        · cases new
        · cases new
          exact safe.busy w _ working pair (List.mem_cons_of_mem _ busy) before owed
  next =>
    cases done
    exact safe

theorem step_safe (s : Service) (op : ServiceStep) (t : Service) (safe : s.Safe)
    (allowed : s.Undisturbed op ∧ s.Taken op) (done : s.step op = .ok t) : t.Safe := by
  rcases step_cases done with ⟨changeMods, rfl⟩ | ⟨worker, todo, rfl⟩ | ⟨worker, accepted, rfl⟩ |
    ⟨worker, rfl⟩ | ⟨list, tasks, fewer⟩
  · exact safe.publish allowed.1 done
  · exact safe.copy done
  · cases allowed.2
    exact safe.send done
  · exact safe.erase done
  · exact safe.forget (step_owesOpen safe.opens done) list tasks fewer

/-- Entries with several modules lose nothing either: what leaves the list early is on its way. -/
theorem noted_or_carried (route : Route) {ops : List ServiceStep}
    (undisturbed : Run.Guarded step Undisturbed (init route) ops)
    (taken : Run.Guarded step Taken (init route) ops) :
    Run.Always step (fun s => ∀ fd mod, s.owed fd mod = true →
      mod ∈ s.pushList.of fd ∨ s.Carried (fd, mod)) (init route) ops :=
  (Run.always_of_guarded step_safe (Safe.init route) (undisturbed.and taken)).mono
    fun _ safe => safe.kept

/-! ### Main result -/

/-- Whatever is owed to a connection is carried by a task, or its worker has a task to come. -/
def Scheduled (s : Service) : Prop := ∀ fd mod worker, s.owed fd mod = true →
  s.home fd = some worker → 0 < s.queued worker ∨ s.Carried (fd, mod)

theorem Scheduled.init (route : Route) : (init route).Scheduled := fun _ _ _ owed => by cases owed

private theorem Scheduled.copy (scheduled : s.Scheduled) (safe : s.Safe)
    {todo : List (Nat × UInt64)} (done : s.step (.copy worker todo) = .ok t) : t.Scheduled := by
  simp only [step] at done
  split at done
  next able =>
    cases done
    intro fd mod w owed here
    dsimp only at owed here ⊢
    have others : s.Carried (fd, mod) → Carried { s with
        queued := Function.update s.queued worker (s.queued worker - 1)
        task := Function.update s.task worker (if todo = [] then none else some ⟨todo, false⟩) }
        (fd, mod) := by
      rintro ⟨w', task, running, inside⟩
      refine ⟨w', task, ?_, inside⟩
      dsimp only
      rw [Function.update_of_ne]
      · exact running
      · rintro rfl
        rw [able.1] at running
        cases running
    by_cases mine : w = worker
    · subst mine
      -- the copy has all that is noted for the connections of the worker
      rcases safe.kept fd mod owed with noted | carried
      · have copied : (fd, mod) ∈ todo := able.2.2.mem_iff.mpr (mem_needPublish.mpr ⟨here, noted⟩)
        refine .inr ⟨w, ⟨todo, false⟩, ?_, copied⟩
        dsimp only
        rw [Function.update_self, if_neg (List.ne_nil_of_mem copied)]
      · exact .inr (others carried)
    · rw [Function.update_of_ne mine]
      exact (scheduled fd mod w owed here).imp_right others
  next =>
    cases done
    exact scheduled

private theorem Scheduled.send (scheduled : s.Scheduled) (safe : s.Safe)
    (done : s.step (.send worker true) = .ok t) : t.Scheduled := by
  rcases send_inv safe.opens done with rfl | ⟨fd, mod, rest, working, -, tasks, settled⟩
  · exact scheduled
  · have same : t.queued = s.queued ∧ t.home = s.home := by
      simp only [step, working] at done
      split at done <;> cases done <;> exact ⟨rfl, rfl⟩
    intro fd' mod' w owed here
    obtain ⟨other, before⟩ := settled (fd', mod') owed
    rw [same.2] at here
    rw [same.1]
    apply (scheduled fd' mod' w before here).imp_right
    intro carried
    apply carried.advance working tasks
    intro inside
    exact ⟨_, rfl, (List.mem_cons.mp inside).resolve_left other⟩

private theorem Scheduled.erase (scheduled : s.Scheduled)
    (done : s.step (.erase worker) = .ok t) : t.Scheduled := by
  simp only [step] at done
  split at done
  next fd mod rest working =>
    cases done
    intro fd' mod' w owed here
    apply (scheduled fd' mod' w owed here).imp_right
    intro carried
    apply carried.advance working rfl
    intro inside
    have more : rest ≠ [] := List.ne_nil_of_mem inside
    exact ⟨⟨rest, false⟩, if_neg more, inside⟩
  next =>
    cases done
    exact scheduled

theorem step_scheduled (op : ServiceStep) (taken : s.Taken op) (safe : s.Safe)
    (scheduled : s.Scheduled) (done : s.step op = .ok t) : t.Scheduled := by
  cases op with
  | accept fd worker =>
    simp only [step] at done
    split at done
    next unused =>
      cases done
      intro fd' mod w owed here
      have known := safe.opens fd' mod owed
      dsimp only at here
      rw [Function.update_of_ne] at here
      · exact scheduled fd' mod w owed here
      · rintro rfl
        rw [unused] at known
        cases known
    next =>
      cases done
      exact scheduled
  | close fd =>
    cases done
    intro fd' mod w owed here
    by_cases same : fd' = fd
    · subst same
      simp at here
    · dsimp only at owed here
      rw [Function.update_of_ne same] at owed here
      exact scheduled fd' mod w owed here
  | subscribe | unsubscribe | swapRoute =>
    cases done
    exact scheduled
  | publish changeMods =>
    cases done
    exact fun _ _ _ _ _ => .inl (Nat.succ_pos _)
  | copy worker todo => exact scheduled.copy safe done
  | send worker accepted =>
    cases taken
    exact scheduled.send safe done
  | erase worker => exact scheduled.erase done

theorem unsent_subset (task : PushTask) : task.unsent ⊆ task.todo := by
  unfold PushTask.unsent
  split
  · exact List.tail_subset _
  · exact List.Subset.refl _

end Service

end Lars.Dns
