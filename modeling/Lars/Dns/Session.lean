import Lars.Dns.Answers
import Mathlib.Data.Finset.Basic

/-!
# Connections and their subscriptions

A connection of the DNS keeps the modules it has asked for in a set of its own,
and `_book_list` keeps the same under the module. `get_route` and `clean_conn`
go through both in several steps, in the thread of the connection, while other
threads do the same for theirs and the poller swaps the route and publishes. A
descriptor that is closed may be given to a later connection.
-/
namespace Lars.Dns

/-- The key of the module that a request names. -/
def requestMod (req : Proto.GetRouteRequest) : UInt64 := packKey req.modid req.cmdid

/-- A connection, with what `create_subscribe` hangs on it. -/
structure Session where
  /-- No two connections have the same, whatever their descriptors. -/
  id : Nat
  subList : Finset UInt64

/-- What a thread is doing for a connection. -/
inductive Activity where
  /-- `get_route` has put the module into the set of the connection. -/
  | inserted (fd : Nat) (req : Proto.GetRouteRequest)
  /-- The module is in both, and `get_hosts` comes next. -/
  | subscribed (fd : Nat) (req : Proto.GetRouteRequest)
  /-- The answer is built, from the snapshot with this number. -/
  | answering (fd : Nat) (req : Proto.GetRouteRequest) (generation : Nat)
      (rsp : Proto.GetRouteResponse)
  /-- `clear_subscribe` has these left. -/
  | closing (fd : Nat) (left : Finset UInt64)

/-- An answer of `get_route`. -/
structure RouteReply where
  session : Nat
  fd : Nat
  req : Proto.GetRouteRequest
  generation : Nat
  rsp : Proto.GetRouteResponse
  /-- Whether `send_message` has taken it. -/
  accepted : Bool

/-- A `publish` that has finished. -/
structure Round where
  generation : Nat
  changeMods : List UInt64
  /-- The pairs that it has put into `_push_list`. -/
  noted : List (Nat × UInt64)
  /-- The connections that had called `clean_conn` by that time. -/
  departed : Finset Nat
  /-- `_push_list` when it had finished. -/
  pushList : PushList

structure DnsServer where
  service : Service
  /-- The connection that holds a descriptor, or has held it last. -/
  session : Nat → Session
  activity : Nat → Option Activity
  nextSession : Nat
  /-- The snapshots put in place so far, oldest first. -/
  history : List Route
  /-- The modules that each connection has asked for. -/
  requested : List (Nat × UInt64)
  replies : List RouteReply
  rounds : List Round
  /-- The connections for which `clean_conn` has been called. -/
  departed : Finset Nat
  /-- The pushes, taken or refused: to which connection, and for which module. -/
  pushed : List (Nat × UInt64)

inductive DnsStep where
  /-- A `tcp_conn` is constructed, with `create_subscribe`. -/
  | accept (fd worker : Nat)
  /-- `get_route` up to the call of `subscribe`. -/
  | request (fd : Nat) (req : Proto.GetRouteRequest)
  | subscribe (worker : Nat)
  | getHosts (worker : Nat)
  | reply (worker : Nat) (accepted : Bool)
  /-- `clean_conn` is called. -/
  | cleanConn (fd : Nat)
  /-- The next round of `clear_subscribe`. -/
  | unsubscribe (worker : Nat) (mod : UInt64)
  /-- The rest of `clean_conn`. -/
  | closed (worker : Nat)
  | swap (route : Route)
  | publish (changeMods : List UInt64)
  | copy (worker : Nat) (todo : List (Nat × UInt64))
  | send (worker : Nat) (accepted : Bool)
  | erase (worker : Nat)

namespace DnsServer

def init (route : Route) : DnsServer where
  service := .init route
  session := fun _ => ⟨0, ∅⟩
  activity := fun _ => none
  nextSession := 0
  history := [route]
  requested := []
  replies := []
  rounds := []
  departed := ∅
  pushed := []

/-- The thread is back in its loop. -/
def Free (worker : Nat) (s : DnsServer) : Prop :=
  s.activity worker = none ∧ s.service.task worker = none

instance (worker : Nat) (s : DnsServer) : Decidable (s.Free worker) :=
  inferInstanceAs (Decidable (_ ∧ _))

def setActivity (worker : Nat) (activity : Option Activity) (s : DnsServer) : DnsServer :=
  { s with activity := Function.update s.activity worker activity }

/-- The connection that the next answer of a push task goes to, and the module of the answer. -/
def target (worker : Nat) (s : DnsServer) : Option (Nat × UInt64) :=
  match s.service.task worker with
  | some ⟨(fd, mod) :: _, false⟩ =>
    if (s.service.home fd).isSome then some ((s.session fd).id, mod) else none
  | _ => none

/-- A step of the tables. -/
def serve (op : ServiceStep) (s : DnsServer) (next : DnsServer → DnsServer) :
    Except Fault DnsServer :=
  (s.service.step op).map fun service => next { s with service := service }

def step (s : DnsServer) (op : DnsStep) : Except Fault DnsServer :=
  match op with
  | .accept fd worker =>
    if s.Free worker ∧ s.service.home fd = none then
      s.serve (.accept fd worker) fun s =>
        { s with
          session := Function.update s.session fd ⟨s.nextSession, ∅⟩
          nextSession := s.nextSession + 1 }
    else .ok s
  | .request fd req =>
    match s.service.home fd with
    | some worker =>
      if s.Free worker then
        let conn := s.session fd
        let s := { s with requested := s.requested ++ [(conn.id, requestMod req)] }
        if requestMod req ∈ conn.subList then .ok (s.setActivity worker (some (.subscribed fd req)))
        else
          let subscribed := { conn with subList := insert (requestMod req) conn.subList }
          .ok ({ s with session := Function.update s.session fd subscribed }.setActivity worker
            (some (.inserted fd req)))
      else .ok s
    | none => .ok s
  | .subscribe worker =>
    match s.activity worker with
    | some (.inserted fd req) =>
      s.serve (.subscribe (requestMod req) fd) (setActivity worker (some (.subscribed fd req)))
    | _ => .ok s
  | .getHosts worker =>
    match s.activity worker with
    | some (.subscribed fd req) =>
      let rsp := requestResponse req s.service.route
      .ok (s.setActivity worker (some (.answering fd req s.history.length rsp)))
    | _ => .ok s
  | .reply worker accepted =>
    match s.activity worker with
    | some (.answering fd req generation rsp) =>
      let reply : RouteReply := ⟨(s.session fd).id, fd, req, generation, rsp, accepted⟩
      .ok ({ s with replies := s.replies ++ [reply] }.setActivity worker none)
    | _ => .ok s
  | .cleanConn fd =>
    match s.service.home fd with
    | some worker =>
      if s.Free worker then
        .ok ({ s with departed := insert (s.session fd).id s.departed }.setActivity worker
          (some (.closing fd (s.session fd).subList)))
      else .ok s
    | none => .ok s
  | .unsubscribe worker mod =>
    match s.activity worker with
    | some (.closing fd left) =>
      if mod ∈ left then
        s.serve (.unsubscribe mod fd) (setActivity worker (some (.closing fd (left.erase mod))))
      else .ok s
    | _ => .ok s
  | .closed worker =>
    match s.activity worker with
    | some (.closing fd left) =>
      if left = ∅ then s.serve (.close fd) (setActivity worker none) else .ok s
    | _ => .ok s
  | .swap route =>
    s.serve (.swapRoute route) fun s => { s with history := s.history ++ [route] }
  | .publish changeMods =>
    let noted := s.service.published changeMods
    s.serve (.publish changeMods) fun s =>
      let round : Round := ⟨s.history.length, changeMods, noted, s.departed, s.service.pushList⟩
      { s with rounds := s.rounds ++ [round] }
  | .copy worker todo =>
    match s.activity worker with
    | none => s.serve (.copy worker todo) id
    | some _ => .ok s
  | .send worker accepted =>
    let pushed := s.pushed ++ (s.target worker).toList
    s.serve (.send worker accepted) fun s => { s with pushed := pushed }
  | .erase worker => s.serve (.erase worker) id

/-! ### What a step can do -/

/-- The ways in which a step changes the state, with what allows each. -/
inductive Effect (s : DnsServer) : DnsStep → DnsServer → Prop
  | accept {fd worker : Nat} (free : s.Free worker) (unused : s.service.home fd = none) :
    Effect s (.accept fd worker) { s with
      service := { s.service with home := Function.update s.service.home fd (some worker) }
      session := Function.update s.session fd ⟨s.nextSession, ∅⟩
      nextSession := s.nextSession + 1 }
  | again {fd worker : Nat} {req : Proto.GetRouteRequest}
      (here : s.service.home fd = some worker) (free : s.Free worker)
      (known : requestMod req ∈ (s.session fd).subList) :
    Effect s (.request fd req) ({ s with
      requested := s.requested ++ [((s.session fd).id, requestMod req)]
      }.setActivity worker (some (.subscribed fd req)))
  | first {fd worker : Nat} {req : Proto.GetRouteRequest}
      (here : s.service.home fd = some worker) (free : s.Free worker)
      (new : requestMod req ∉ (s.session fd).subList) :
    Effect s (.request fd req) ({ s with
      requested := s.requested ++ [((s.session fd).id, requestMod req)]
      session := Function.update s.session fd
        { s.session fd with subList := insert (requestMod req) (s.session fd).subList }
      }.setActivity worker (some (.inserted fd req)))
  | subscribe {fd worker : Nat} {req : Proto.GetRouteRequest}
      (busy : s.activity worker = some (.inserted fd req)) :
    Effect s (.subscribe worker) ({ s with
      service := { s.service with
        bookList := Service.subscribe (requestMod req) fd s.service.bookList }
      }.setActivity worker (some (.subscribed fd req)))
  | getHosts {fd worker : Nat} {req : Proto.GetRouteRequest}
      (busy : s.activity worker = some (.subscribed fd req)) :
    Effect s (.getHosts worker) (s.setActivity worker
      (some (.answering fd req s.history.length (requestResponse req s.service.route))))
  | reply {fd worker : Nat} {req : Proto.GetRouteRequest} {generation : Nat}
      {rsp : Proto.GetRouteResponse} {accepted : Bool}
      (busy : s.activity worker = some (.answering fd req generation rsp)) :
    Effect s (.reply worker accepted) ({ s with
      replies := s.replies ++
        [(⟨(s.session fd).id, fd, req, generation, rsp, accepted⟩ : RouteReply)]
      }.setActivity worker none)
  | cleanConn {fd worker : Nat} (here : s.service.home fd = some worker) (free : s.Free worker) :
    Effect s (.cleanConn fd) ({ s with departed := insert (s.session fd).id s.departed
      }.setActivity worker (some (.closing fd (s.session fd).subList)))
  | unsubscribe {fd worker : Nat} {left : Finset UInt64} {mod : UInt64}
      (busy : s.activity worker = some (.closing fd left)) :
    Effect s (.unsubscribe worker mod) ({ s with
      service := { s.service with
        bookList := Service.unsubscribe mod fd s.service.bookList }
      }.setActivity worker (some (.closing fd (left.erase mod))))
  | closed {fd worker : Nat} (busy : s.activity worker = some (.closing fd ∅)) :
    Effect s (.closed worker) ({ s with
      service := { s.service with
        home := Function.update s.service.home fd none
        owed := Function.update s.service.owed fd fun _ => false }
      }.setActivity worker none)
  | swap (route : Route) :
    Effect s (.swap route) { s with
      service := { s.service with route := route }
      history := s.history ++ [route] }
  | publish {changeMods : List UInt64} {service : Service}
      (taken : s.service.step (.publish changeMods) = .ok service) :
    Effect s (.publish changeMods) { s with
      service := service
      rounds := s.rounds ++ [(⟨s.history.length, changeMods, s.service.published changeMods,
        s.departed, service.pushList⟩ : Round)] }
  | copy {worker : Nat} {todo : List (Nat × UInt64)} {service : Service}
      (free : s.activity worker = none)
      (taken : s.service.step (.copy worker todo) = .ok service) :
    Effect s (.copy worker todo) { s with service := service }
  | send {worker : Nat} {accepted : Bool} {service : Service}
      (taken : s.service.step (.send worker accepted) = .ok service) :
    Effect s (.send worker accepted) { s with
      service := service
      pushed := s.pushed ++ (s.target worker).toList }
  | erase {worker : Nat} {service : Service}
      (taken : s.service.step (.erase worker) = .ok service) :
    Effect s (.erase worker) { s with service := service }

theorem step_effect {s t : DnsServer} {op : DnsStep} (done : s.step op = .ok t) :
    t = s ∨ Effect s op t := by
  cases op with
  | accept fd worker =>
    simp only [step] at done
    split at done
    next able =>
      obtain ⟨service, taken, rfl⟩ := map_ok_inv done
      simp only [Service.step, able.2, ↓reduceIte] at taken
      cases taken
      exact .inr (.accept able.1 able.2)
    · exact .inl (Except.ok.inj done).symm
  | request fd req =>
    simp only [step] at done
    split at done
    next worker here =>
      split at done
      next free =>
        split at done
        next known =>
          cases done
          exact .inr (.again here free known)
        next new =>
          cases done
          exact .inr (.first here free new)
      · exact .inl (Except.ok.inj done).symm
    · exact .inl (Except.ok.inj done).symm
  | subscribe worker =>
    simp only [step] at done
    split at done
    next busy =>
      cases done
      exact .inr (.subscribe busy)
    · exact .inl (Except.ok.inj done).symm
  | getHosts worker =>
    simp only [step] at done
    split at done
    next busy =>
      cases done
      exact .inr (.getHosts busy)
    · exact .inl (Except.ok.inj done).symm
  | reply worker accepted =>
    simp only [step] at done
    split at done
    next busy =>
      cases done
      exact .inr (.reply busy)
    · exact .inl (Except.ok.inj done).symm
  | cleanConn fd =>
    simp only [step] at done
    split at done
    next here =>
      split at done
      next free =>
        cases done
        exact .inr (.cleanConn here free)
      · exact .inl (Except.ok.inj done).symm
    · exact .inl (Except.ok.inj done).symm
  | unsubscribe worker mod =>
    simp only [step] at done
    split at done
    next busy =>
      split at done
      · cases done
        exact .inr (.unsubscribe busy)
      · exact .inl (Except.ok.inj done).symm
    · exact .inl (Except.ok.inj done).symm
  | closed worker =>
    simp only [step] at done
    split at done
    next busy =>
      split at done
      next empty =>
        cases done
        rw [empty] at busy
        exact .inr (.closed busy)
      · exact .inl (Except.ok.inj done).symm
    · exact .inl (Except.ok.inj done).symm
  | swap route =>
    cases done
    exact .inr (.swap route)
  | publish changeMods =>
    simp only [step] at done
    obtain ⟨service, taken, rfl⟩ := map_ok_inv done
    exact .inr (.publish taken)
  | copy worker todo =>
    simp only [step] at done
    split at done
    next free =>
      obtain ⟨service, taken, rfl⟩ := map_ok_inv done
      exact .inr (.copy free taken)
    · exact .inl (Except.ok.inj done).symm
  | send worker accepted =>
    simp only [step] at done
    obtain ⟨service, taken, rfl⟩ := map_ok_inv done
    exact .inr (.send taken)
  | erase worker =>
    obtain ⟨service, taken, rfl⟩ := map_ok_inv done
    exact .inr (.erase taken)

end DnsServer

/-! ### `_book_list` -/

namespace BookList

/-- The descriptors noted for a module. -/
def fds (mod : UInt64) (list : BookList) : List Nat := (list.lookup mod).getD []

/-- The entries are sets, and none is empty. -/
def Proper (list : BookList) : Prop :=
  ∀ mod fds, list.lookup mod = some fds → fds ≠ [] ∧ fds.Nodup

variable {list : BookList} {fd fd' : Nat} {mod mod' : UInt64}

theorem mem_subscribe :
    fd' ∈ fds mod' (Service.subscribe mod fd list) ↔
      fd' ∈ list.fds mod' ∨ (mod' = mod ∧ fd' = fd) := by
  by_cases same : mod' = mod
  · subst same
    simp [fds, Service.subscribe, AList.lookup_insert, or_comm]
  · simp [fds, Service.subscribe, AList.lookup_insert_ne same, same]

theorem Proper.fds_nodup (proper : list.Proper) (mod : UInt64) : (list.fds mod).Nodup := by
  cases found : list.lookup mod with
  | none => simp [fds, found]
  | some fds' => simpa [fds, found] using (proper mod fds' found).2

theorem Proper.subscribe (proper : list.Proper) (mod : UInt64) (fd : Nat) :
    Proper (Service.subscribe mod fd list) := by
  intro mod' fds' found
  by_cases same : mod' = mod
  · subst same
    rw [Service.subscribe, AList.lookup_insert] at found
    cases found
    have there : fd ∈ (list.fds mod').insert fd := by simp
    exact ⟨List.ne_nil_of_mem there, (proper.fds_nodup mod').insert⟩
  · rw [Service.subscribe, AList.lookup_insert_ne same] at found
    exact proper mod' fds' found

/-- An entry goes when its last descriptor does. -/
theorem lookup_unsubscribe :
    (Service.unsubscribe mod fd list).lookup mod' =
      if mod' = mod then (list.lookup mod).bind fun fds =>
        if fds.erase fd = [] then none else some (fds.erase fd)
      else list.lookup mod' := by
  unfold Service.unsubscribe
  split
  next none =>
    split
    next same => rw [same, none]; rfl
    · rfl
  next fds found =>
    split
    next last =>
      split
      next same => rw [same, AList.lookup_erase, found, Option.bind_some, if_pos last]
      next other => rw [AList.lookup_erase_ne other]
    next more =>
      split
      next same => rw [same, AList.lookup_insert, found, Option.bind_some, if_neg more]
      next other => rw [AList.lookup_insert_ne other]

theorem Proper.unsubscribe (proper : list.Proper) (mod : UInt64) (fd : Nat) :
    Proper (Service.unsubscribe mod fd list) := by
  intro mod' fds' found
  rw [lookup_unsubscribe] at found
  split at found
  · obtain ⟨fds, before, after⟩ := Option.bind_eq_some_iff.mp found
    split at after
    · cases after
    next more =>
      cases after
      exact ⟨more, (proper mod fds before).2.erase fd⟩
  · exact proper mod' fds' found

theorem Proper.mem_unsubscribe (proper : list.Proper) :
    fd' ∈ fds mod' (Service.unsubscribe mod fd list) ↔
      fd' ∈ list.fds mod' ∧ ¬ (mod' = mod ∧ fd' = fd) := by
  rw [fds, lookup_unsubscribe]
  split
  next same =>
    subst same
    cases found : list.lookup mod' with
    | none => simp [fds, found]
    | some fds' =>
      -- `erase` takes one copy out, and there is no second
      have nodup := (proper mod' fds' found).2
      have erased : fd' ∈ fds'.erase fd ↔ fd' ≠ fd ∧ fd' ∈ fds' := nodup.mem_erase_iff
      simp only [fds, found, Option.bind_some, Option.getD_some, true_and]
      split
      next last =>
        rw [last] at erased
        simp only [List.not_mem_nil, false_iff, Option.getD_none] at erased ⊢
        exact fun still => erased still.symm
      next => rw [Option.getD_some, erased, and_comm]
  next other => simp [fds, other]

end BookList

/-! ### The two tables -/

namespace Activity

/-- The descriptor that it is for. -/
def fd : Activity → Nat
  | inserted fd _ | subscribed fd _ | answering fd _ _ _ | closing fd _ => fd

/-- The module of a request is in the set of the connection by now, and so is what is left of it
on the way out. -/
def Asked (subList : Finset UInt64) : Activity → Prop
  | inserted _ req | subscribed _ req | answering _ req _ _ => requestMod req ∈ subList
  | closing _ left => left ⊆ subList

/-- What `_book_list` has of the set of a connection while its thread is busy. -/
def due (fd : Nat) (subList : Finset UInt64) : Option Activity → Finset UInt64
  | some (inserted fd' req) => if fd' = fd then subList.erase (requestMod req) else subList
  | some (closing fd' left) => if fd' = fd then left else subList
  | _ => subList

theorem due_of_ne {a : Activity} {fd : Nat} (other : a.fd ≠ fd) (subList : Finset UInt64) :
    due fd subList (some a) = subList := by
  cases a with
  | inserted fd' req => exact if_neg other
  | closing fd' left => exact if_neg other
  | subscribed | answering => rfl

end Activity

namespace DnsServer

/-- The modules that `_book_list` should have the descriptor under. -/
def listed (s : DnsServer) (fd : Nat) : Finset UInt64 :=
  match s.service.home fd with
  | some worker => Activity.due fd (s.session fd).subList (s.activity worker)
  | none => ∅

structure Agree (s : DnsServer) : Prop where
  proper : s.service.bookList.Proper
  booked : ∀ fd mod, fd ∈ s.service.bookList.fds mod ↔ mod ∈ s.listed fd
  own : ∀ worker a, s.activity worker = some a → s.service.home a.fd = some worker
  asked : ∀ worker a, s.activity worker = some a → a.Asked (s.session a.fd).subList

theorem Agree.init (route : Route) : (init route).Agree where
  proper := by simp [BookList.Proper, DnsServer.init, Service.init]
  booked := by simp [BookList.fds, listed, DnsServer.init, Service.init]
  own := by simp [DnsServer.init]
  asked := by simp [DnsServer.init]

variable {s t : DnsServer} {worker fd : Nat}

/-- Steps that leave `_book_list` alone and change nothing about what it should have. -/
theorem Agree.rearrange (agree : s.Agree) (book : t.service.bookList = s.service.bookList)
    (same : ∀ fd, t.listed fd = s.listed fd)
    (own : ∀ worker a, t.activity worker = some a → t.service.home a.fd = some worker)
    (asked : ∀ worker a, t.activity worker = some a → a.Asked (t.session a.fd).subList) :
    t.Agree where
  proper := by
    rw [book]
    exact agree.proper
  booked := by
    intro fd mod
    rw [book, same]
    exact agree.booked fd mod
  own := own
  asked := asked

theorem Agree.frame (agree : s.Agree) (book : t.service.bookList = s.service.bookList)
    (home : t.service.home = s.service.home) (session : t.session = s.session)
    (activity : t.activity = s.activity) : t.Agree := by
  apply agree.rearrange book
  · intro fd
    rw [listed, listed, home, session, activity]
  · rw [activity, home]
    exact agree.own
  · rw [activity, session]
    exact agree.asked

theorem setActivity_some {next : Option Activity} {w : Nat} {a : Activity}
    (busy : (s.setActivity worker next).activity w = some a) :
    (w = worker ∧ next = some a) ∨ (w ≠ worker ∧ s.activity w = some a) := by
  by_cases mine : w = worker
  · subst mine
    exact .inl ⟨rfl, by simpa [DnsServer.setActivity] using busy⟩
  · exact .inr ⟨mine, by simpa [DnsServer.setActivity, Function.update_of_ne mine] using busy⟩

theorem Agree.own_setActivity (agree : s.Agree) {next : Option Activity}
    (own : ∀ a ∈ next, s.service.home a.fd = some worker) {w : Nat} {a : Activity}
    (busy : (s.setActivity worker next).activity w = some a) : s.service.home a.fd = some w := by
  rcases setActivity_some busy with ⟨rfl, new⟩ | ⟨-, before⟩
  · exact own a new
  · exact agree.own w a before

theorem Agree.asked_setActivity (agree : s.Agree) {next : Option Activity}
    (asked : ∀ a ∈ next, a.Asked (s.session a.fd).subList) {w : Nat} {a : Activity}
    (busy : (s.setActivity worker next).activity w = some a) :
    a.Asked (s.session a.fd).subList := by
  rcases setActivity_some busy with ⟨rfl, new⟩ | ⟨-, before⟩
  · exact asked a new
  · exact agree.asked w a before

/-- Two threads are never at work on one connection. -/
theorem Agree.apart (agree : s.Agree) {w : Nat} {a : Activity} (busy : s.activity w = some a)
    (here : s.service.home fd = some worker) (other : w ≠ worker) : a.fd ≠ fd := by
  rintro rfl
  rw [agree.own w a busy, Option.some.injEq] at here
  exact other here

/-- A thread goes on to another activity for one of its connections. -/
theorem Agree.setActivity (agree : s.Agree) {next : Option Activity}
    (same : ∀ fd, s.service.home fd = some worker →
      Activity.due fd (s.session fd).subList next =
        Activity.due fd (s.session fd).subList (s.activity worker))
    (own : ∀ a ∈ next, s.service.home a.fd = some worker)
    (asked : ∀ a ∈ next, a.Asked (s.session a.fd).subList) : (s.setActivity worker next).Agree := by
  refine agree.rearrange rfl ?_ ?_ ?_
  · intro fd
    simp only [listed, DnsServer.setActivity]
    cases at_ : s.service.home fd with
    | none => rfl
    | some w =>
      by_cases here : w = worker
      · subst here
        simpa using same fd at_
      · simp [Function.update_of_ne here]
  · exact fun w a busy => agree.own_setActivity own busy
  · exact fun w a busy => agree.asked_setActivity asked busy

/-- The steps of the poller and of the push tasks. -/
def isQuiet : ServiceStep → Bool
  | .swapRoute _ | .publish _ | .copy _ _ | .send _ _ | .erase _ => true
  | _ => false

/-- They touch neither the subscriptions nor the connections. -/
theorem service_frame {s t : Service} {op : ServiceStep} (done : s.step op = .ok t)
    (quiet : isQuiet op = true) : t.bookList = s.bookList ∧ t.home = s.home := by
  cases op with
  | swapRoute | publish =>
    cases done
    exact ⟨rfl, rfl⟩
  | copy worker todo =>
    simp only [Service.step] at done
    split at done <;> cases done <;> exact ⟨rfl, rfl⟩
  | send worker =>
    simp only [Service.step] at done
    split at done
    · split at done <;> cases done <;> exact ⟨rfl, rfl⟩
    · cases done
      exact ⟨rfl, rfl⟩
  | erase worker =>
    simp only [Service.step] at done
    split at done <;> cases done <;> exact ⟨rfl, rfl⟩
  | accept | close | subscribe | unsubscribe => cases quiet

/-- A new connection has asked for nothing, and the descriptor is noted for nothing. -/
theorem Agree.accept (agree : s.Agree) (free : s.Free worker) (unused : s.service.home fd = none) :
    Agree { s with
      service := { s.service with home := Function.update s.service.home fd (some worker) }
      session := Function.update s.session fd ⟨s.nextSession, ∅⟩
      nextSession := s.nextSession + 1 } := by
  -- nobody is at work on a descriptor that is not open
  have other : ∀ w a, s.activity w = some a → a.fd ≠ fd := by
    rintro w a busy rfl
    rw [agree.own w a busy] at unused
    cases unused
  refine agree.rearrange rfl ?_ ?_ ?_
  · intro fd'
    by_cases same : fd' = fd
    · subst same
      simp [listed, unused, free.1, Activity.due]
    · simp [listed, Function.update_of_ne same]
  · intro w a busy
    have apart := other w a busy
    dsimp only
    rw [Function.update_of_ne apart]
    exact agree.own w a busy
  · intro w a busy
    have apart := other w a busy
    dsimp only
    rw [Function.update_of_ne apart]
    exact agree.asked w a busy

/-- The first request for a module: the set of the connection is ahead by the module. -/
theorem Agree.insert (agree : s.Agree) (free : s.Free worker)
    (here : s.service.home fd = some worker) {req : Proto.GetRouteRequest}
    (first : requestMod req ∉ (s.session fd).subList) :
    Agree ({ s with
      session := Function.update s.session fd
        { s.session fd with subList := insert (requestMod req) (s.session fd).subList }
      }.setActivity worker (some (.inserted fd req))) := by
  refine agree.rearrange rfl ?_ ?_ ?_
  · intro fd'
    by_cases same : fd' = fd
    -- the set has the module and `_book_list` is not due to have it yet
    · subst same
      simp [listed, DnsServer.setActivity, here, free.1, Activity.due, Finset.erase_insert first]
    · cases at_ : s.service.home fd' with
      | none => simp [listed, DnsServer.setActivity, at_]
      | some w =>
        by_cases busy : w = worker
        · subst busy
          simp [listed, DnsServer.setActivity, at_, free.1, Activity.due, Ne.symm same, same]
        · simp [listed, DnsServer.setActivity, at_, busy, same]
  · intro w a busy
    rcases setActivity_some busy with ⟨rfl, new⟩ | ⟨-, before⟩
    · cases new
      exact here
    · exact agree.own w a before
  · intro w a busy
    rcases setActivity_some busy with ⟨rfl, new⟩ | ⟨mine, before⟩
    · cases new
      simp [Activity.Asked, Activity.fd, DnsServer.setActivity]
    · have apart := agree.apart before here mine
      have asked := agree.asked w a before
      simpa [DnsServer.setActivity, Function.update_of_ne apart] using asked

/-- What is done for one connection does not show in the others. -/
theorem listed_of_ne {a : Activity} {fd' : Nat} (busy : s.activity worker = some a)
    (apart : a.fd ≠ fd') (next : Option Activity) (next_apart : ∀ b ∈ next, b.fd ≠ fd') :
    (s.setActivity worker next).listed fd' = s.listed fd' := by
  simp only [listed, DnsServer.setActivity]
  cases at_ : s.service.home fd' with
  | none => rfl
  | some w =>
    dsimp only
    by_cases mine : w = worker
    · subst mine
      rw [Function.update_self, busy, Activity.due_of_ne apart]
      cases next with
      | none => rfl
      | some b => exact Activity.due_of_ne (next_apart b rfl) _
    · rw [Function.update_of_ne mine]

/-- `subscribe` makes up for what the set was ahead. -/
theorem Agree.subscribe (agree : s.Agree) {req : Proto.GetRouteRequest}
    (busy : s.activity worker = some (.inserted fd req)) :
    Agree ({ s with
      service := { s.service with
        bookList := Service.subscribe (requestMod req) fd s.service.bookList }
      }.setActivity worker (some (.subscribed fd req))) := by
  have here := agree.own worker _ busy
  have asked : requestMod req ∈ (s.session fd).subList := agree.asked worker _ busy
  change s.service.home fd = some worker at here
  refine ⟨agree.proper.subscribe _ _, fun fd' mod => ?_, fun w a busy' => ?_, fun w a busy' => ?_⟩
  · apply BookList.mem_subscribe.trans
    rw [agree.booked]
    by_cases same : fd' = fd
    -- the module was left out so far, and now it is due like the others
    · subst same
      simp only [listed, DnsServer.setActivity, here, busy, Activity.due, ↓reduceIte, and_true,
        Function.update_self, Finset.mem_erase]
      constructor
      · rintro (⟨-, member⟩ | rfl)
        · exact member
        · exact asked
      · intro member
        by_cases new : mod = requestMod req
        · exact .inr new
        · exact .inl ⟨new, member⟩
    · have unchanged := listed_of_ne busy (Ne.symm same) (some (.subscribed fd req)) (by
        rintro b ⟨⟩
        exact Ne.symm same)
      simp only [same, and_false, or_false]
      rw [← unchanged]
      rfl
  · refine agree.own_setActivity ?_ busy'
    rintro b ⟨⟩
    exact here
  · refine agree.asked_setActivity ?_ busy'
    rintro b ⟨⟩
    exact asked

theorem Agree.unsubscribe (agree : s.Agree) {left : Finset UInt64}
    (busy : s.activity worker = some (.closing fd left)) (mod : UInt64) :
    Agree ({ s with
      service := { s.service with
        bookList := Service.unsubscribe mod fd s.service.bookList }
      }.setActivity worker (some (.closing fd (left.erase mod)))) := by
  have here := agree.own worker _ busy
  change s.service.home fd = some worker at here
  refine ⟨agree.proper.unsubscribe _ _, fun fd' mod' => ?_, fun w a busy' => ?_, fun w a busy' => ?_⟩
  · apply agree.proper.mem_unsubscribe.trans
    rw [agree.booked]
    by_cases same : fd' = fd
    -- `left` and `_book_list` lose the module together
    · subst same
      simp only [listed, DnsServer.setActivity, here, busy, Activity.due, ↓reduceIte, and_true,
        Function.update_self, Finset.mem_erase]
      exact and_comm
    · have unchanged := listed_of_ne busy (Ne.symm same) (some (.closing fd (left.erase mod))) (by
        rintro b ⟨⟩
        exact Ne.symm same)
      simp only [same, and_false, not_false_eq_true, and_true]
      rw [← unchanged]
      rfl
  · refine agree.own_setActivity ?_ busy'
    rintro b ⟨⟩
    exact here
  · refine agree.asked_setActivity ?_ busy'
    rintro b ⟨⟩
    have rest : left ⊆ (s.session fd).subList := agree.asked worker _ busy
    exact (Finset.erase_subset mod left).trans rest

/-- The connection is gone once nothing of it is noted any more. -/
theorem Agree.closed (agree : s.Agree) (busy : s.activity worker = some (.closing fd ∅)) :
    Agree ({ s with
      service := { s.service with
        home := Function.update s.service.home fd none
        owed := Function.update s.service.owed fd fun _ => false }
      }.setActivity worker none) := by
  have here := agree.own worker _ busy
  change s.service.home fd = some worker at here
  refine agree.rearrange rfl ?_ ?_ ?_
  · intro fd'
    by_cases same : fd' = fd
    -- nothing was left, and a descriptor that is not open is due nothing
    · subst same
      simp [listed, DnsServer.setActivity, here, busy, Activity.due]
    · have unchanged := listed_of_ne busy (Ne.symm same) none (by rintro b ⟨⟩)
      rw [← unchanged]
      simp [listed, DnsServer.setActivity, Function.update_of_ne same]
  · intro w a busy'
    rcases setActivity_some busy' with ⟨rfl, ⟨⟩⟩ | ⟨mine, before⟩
    have apart := agree.apart before here mine
    have own := agree.own w a before
    simpa [DnsServer.setActivity, Function.update_of_ne apart] using own
  · intro w a busy'
    exact agree.asked_setActivity (by rintro b ⟨⟩) busy'

/-- What is noted for a descriptor is in the set of an open connection. -/
theorem Agree.of_listed (agree : s.Agree) {mod : UInt64} (member : mod ∈ s.listed fd) :
    (s.service.home fd).isSome = true ∧ mod ∈ (s.session fd).subList := by
  unfold listed at member
  cases here : s.service.home fd with
  | none => simp [here] at member
  | some worker =>
    refine ⟨rfl, ?_⟩
    rw [here] at member
    dsimp only at member
    cases busy : s.activity worker with
    | none =>
      rw [busy] at member
      exact member
    | some a =>
      rw [busy] at member
      by_cases mine : a.fd = fd
      · subst mine
        have asked := agree.asked worker a busy
        cases a with
        | inserted fd req =>
          simp only [Activity.due, Activity.fd, ↓reduceIte] at member
          exact Finset.mem_of_mem_erase member
        | subscribed | answering => exact member
        | closing fd left =>
          simp only [Activity.due, Activity.fd, ↓reduceIte] at member
          exact asked member
      · rwa [Activity.due_of_ne mine] at member

/-- The poller and the push tasks change only their own part. -/
theorem Agree.quiet (agree : s.Agree) {op : ServiceStep} {service : Service}
    (taken : s.service.step op = .ok service) (quiet : isQuiet op = true) :
    Agree { s with service := service } := by
  obtain ⟨book, home⟩ := service_frame taken quiet
  exact agree.frame book home rfl rfl

theorem step_agree (s : DnsServer) (op : DnsStep) (t : DnsServer) (agree : s.Agree)
    (done : s.step op = .ok t) : t.Agree := by
  rcases step_effect done with rfl | effect
  · exact agree
  cases effect with
  | accept free unused => exact agree.accept free unused
  | @again fd worker req here free known =>
    have busy : (s.setActivity worker (some (.subscribed fd req))).Agree := by
      refine agree.setActivity ?_ ?_ ?_
      · intro fd' _
        rw [free.1]
        rfl
      · rintro a ⟨⟩
        exact here
      · rintro a ⟨⟩
        exact known
    exact busy.frame rfl rfl rfl rfl
  | first here free new => exact (agree.insert free here new).frame rfl rfl rfl rfl
  | subscribe busy => exact agree.subscribe busy
  | @getHosts fd worker req busy =>
    refine agree.setActivity ?_ ?_ ?_
    · intro fd' _
      rw [busy]
      rfl
    · rintro a ⟨⟩
      exact agree.own worker (.subscribed fd req) busy
    · rintro a ⟨⟩
      exact agree.asked worker (.subscribed fd req) busy
  | @reply fd worker req generation rsp accepted busy =>
    have idle : (s.setActivity worker none).Agree := by
      refine agree.setActivity ?_ (by rintro a ⟨⟩) (by rintro a ⟨⟩)
      intro fd' _
      rw [busy]
      rfl
    exact idle.frame rfl rfl rfl rfl
  | @cleanConn fd worker here free =>
    have leaving : (s.setActivity worker (some (.closing fd (s.session fd).subList))).Agree := by
      refine agree.setActivity ?_ ?_ ?_
      -- nothing is unsubscribed yet, so all of the set is left
      · intro fd' _
        rw [free.1, Activity.due]
        split
        next same => rw [same]; rfl
        · rfl
      · rintro a ⟨⟩
        exact here
      · rintro a ⟨⟩
        exact Finset.Subset.refl _
    exact leaving.frame rfl rfl rfl rfl
  | unsubscribe busy => exact agree.unsubscribe busy _
  | closed busy => exact agree.closed busy
  | swap route => exact agree.frame rfl rfl rfl rfl
  | publish taken => exact (agree.quiet taken rfl).frame rfl rfl rfl rfl
  | copy _ taken => exact agree.quiet taken rfl
  | send taken => exact (agree.quiet taken rfl).frame rfl rfl rfl rfl
  | erase taken => exact agree.quiet taken rfl

/-! ### Main result -/

/-- `get_route` has put the module into the set of the connection and not called `subscribe`. -/
def Inserting (s : DnsServer) (fd : Nat) (mod : UInt64) : Prop :=
  ∃ worker req, s.activity worker = some (.inserted fd req) ∧ requestMod req = mod

/-- `clear_subscribe` is at work on the descriptor, with these modules left. -/
def Closing (s : DnsServer) (fd : Nat) (left : Finset UInt64) : Prop :=
  ∃ worker, s.activity worker = some (.closing fd left)

/-- The two tables agree: `_book_list` has a descriptor under a module exactly if the connection
that holds it is open and has the module in its set. -/
structure TablesAgree (s : DnsServer) : Prop where
  subscribed : ∀ fd mod, ¬ s.Inserting fd mod → (∀ left, ¬ s.Closing fd left) →
    (fd ∈ s.service.bookList.fds mod ↔
      (s.service.home fd).isSome = true ∧ mod ∈ (s.session fd).subList)
  /-- On the way out, what is left in the one is left in the other. -/
  closing : ∀ fd left, s.Closing fd left → ∀ mod, fd ∈ s.service.bookList.fds mod ↔ mod ∈ left
  nonempty : ∀ mod, s.service.bookList.lookup mod ≠ some []

theorem Agree.tables (agree : s.Agree) : s.TablesAgree where
  subscribed := by
    intro fd mod settled open_
    rw [agree.booked, listed]
    cases here : s.service.home fd with
    | none => simp
    | some worker =>
      simp only [Option.isSome_some, true_and]
      cases busy : s.activity worker with
      | none => rfl
      | some a =>
        by_cases mine : a.fd = fd
        · subst mine
          cases a with
          | inserted fd req =>
            have other : mod ≠ requestMod req := by
              rintro rfl
              exact settled ⟨worker, req, busy, rfl⟩
            simp [Activity.due, Activity.fd, other]
          | subscribed | answering => rfl
          | closing fd left => exact absurd ⟨worker, busy⟩ (open_ left)
        · rw [Activity.due_of_ne mine]
  closing := by
    rintro fd left ⟨worker, busy⟩ mod
    have here : s.service.home fd = some worker := agree.own worker _ busy
    rw [agree.booked, listed, here]
    simp [busy, Activity.due]
  nonempty := fun mod empty => (agree.proper mod [] empty).1 rfl

/-- In every run, on any connections and with descriptors used again, the tables agree. -/
theorem tables_agree_throughout (route : Route) (ops : List DnsStep) :
    Run.Always step TablesAgree (init route) ops :=
  (Run.always_of_preserved step_agree (Agree.init route)).mono fun _ agree => agree.tables

/-- A connection asks for two modules and closes; `clear_subscribe` has come as far as the
first. -/
private def closesHalfway : List DnsStep :=
  [.accept 5 0, .request 5 ⟨0, 1⟩, .subscribe 0, .getHosts 0, .reply 0 true, .request 5 ⟨0, 2⟩,
   .subscribe 0, .getHosts 0, .reply 0 true, .cleanConn 5, .unsubscribe 0 1]

/-- Whether the connection counts as open or not, one of the modules is at odds. -/
theorem half_unsubscribed :
    ∃ s, Run.run step (init ⟨0, ∅, ∅⟩) closesHalfway = .ok s ∧ (∀ mod, ¬ s.Inserting 5 mod) ∧
      ∀ isOpen : Prop, ¬ ∀ mod, 5 ∈ s.service.bookList.fds mod ↔
        isOpen ∧ mod ∈ (s.session 5).subList := by
  have done : Run.run step (init ⟨0, ∅, ∅⟩) closesHalfway = .ok _ := rfl
  refine ⟨_, done, ?_, fun isOpen agree => ?_⟩
  · rintro mod ⟨worker, req, busy, -⟩
    -- the worker is the one that the connection belongs to, and that one is closing it
    have reached := Run.run_preserves step_agree (Agree.init _) done
    have here : some 0 = some worker := reached.own worker _ busy
    cases here
    exact absurd busy (by simp [DnsServer.setActivity])
  · have first := (agree 1).mpr.mt (by decide)
    have second := (agree 2).mp (by decide)
    exact first ⟨second.1, by decide⟩

end DnsServer

end Lars.Dns
