import Lars.Dns.Rounds
import Lars.Dns.Targets

/-!
# What a connection is told, in order

The answers and the pushes of a connection come from different callbacks of its
thread, and the snapshot is replaced by another thread in between. `Timeline`
is the server with a record of everything it has sent: each message carries the
number of the snapshot it was built from. What `send_message` refuses is told to
nobody.
-/
namespace Lars.Dns.DnsServer

/-- A message to a connection. -/
structure Telling where
  session : Nat
  /-- What was asked for, or noted. -/
  mod : UInt64
  /-- The number of the snapshot that its hosts are from. -/
  generation : Nat
  rsp : Proto.GetRouteResponse

/-- The key of the module that a message names. -/
def Telling.key (m : Telling) : UInt64 := packKey m.rsp.modid m.rsp.cmdid

/-- The messages that a step sends and `send_message` takes. -/
def tells (s : DnsServer) : DnsStep → List Telling
  | .reply worker true =>
    match s.activity worker with
    | some (.answering fd req generation rsp) =>
      [⟨(s.session fd).id, requestMod req, generation, rsp⟩]
    | _ => []
  | .send worker true =>
    (s.target worker).toList.map fun (session, mod) =>
      ⟨session, mod, s.history.length, pushResponse mod s.service.route⟩
  | _ => []

structure Timeline where
  server : DnsServer
  told : List Telling

namespace Timeline

def init (route : Route) : Timeline := ⟨.init route, []⟩

def step (x : Timeline) (op : DnsStep) : Except Fault Timeline :=
  (x.server.step op).map fun server => ⟨server, x.told ++ x.server.tells op⟩

/-- The last message to the connection that names the module. -/
def lastTold (session : Nat) (key : UInt64) (x : Timeline) : Option Telling :=
  (x.told.filter fun m => m.session = session ∧ m.key = key).getLast?

end Timeline

/-! ### Who works on which connection -/

/-- A thread does one thing at a time and only for its own connections, and no two open connections
have the same number. -/
structure Placed (s : DnsServer) : Prop where
  exclusive : ∀ worker a, s.activity worker = some a → s.service.task worker = none
  carried : ∀ worker task, s.service.task worker = some task → ∀ pair ∈ task.todo,
    s.service.home pair.1 = some worker
  distinct : ∀ fd fd', (s.service.home fd).isSome = true → (s.service.home fd').isSome = true →
    (s.session fd).id = (s.session fd').id → fd = fd'
  older : ∀ fd, (s.service.home fd).isSome = true → (s.session fd).id < s.nextSession

theorem Placed.init (route : Route) : (init route).Placed where
  exclusive := by simp [DnsServer.init]
  carried := by simp [DnsServer.init, Service.init]
  distinct := by simp [DnsServer.init, Service.init]
  older := by simp [DnsServer.init, Service.init]

variable {s t : DnsServer} {worker fd : Nat} {op : DnsStep}

/-- Steps that keep the connections, and whose threads had no task when they turned to them. -/
theorem Placed.frame (placed : s.Placed)
    (tasks : ∀ w task, t.service.task w = some task →
      ∃ before, s.service.task w = some before ∧ task.todo ⊆ before.todo)
    (home : t.service.home = s.service.home)
    (ids : ∀ fd, (t.session fd).id = (s.session fd).id) (next : t.nextSession = s.nextSession)
    (free : ∀ w a, t.activity w = some a → s.service.task w = none) : t.Placed where
  exclusive := by
    intro w a busy
    cases running : t.service.task w with
    | none => rfl
    | some task =>
      obtain ⟨before, held, -⟩ := tasks w task running
      rw [free w a busy] at held
      cases held
  carried := by
    intro w task running pair member
    obtain ⟨before, held, subset⟩ := tasks w task running
    rw [home]
    exact placed.carried w before held pair (subset member)
  distinct := by
    intro fd fd' here there same
    rw [home] at here there
    rw [ids, ids] at same
    exact placed.distinct fd fd' here there same
  older := by
    intro fd here
    rw [home] at here
    rw [ids, next]
    exact placed.older fd here

/-- A thread without a task turns to one of its connections, or is done with it. -/
theorem Placed.turn (placed : s.Placed) {next : Option Activity}
    (free : s.service.task worker = none) (tasks : t.service.task = s.service.task)
    (home : t.service.home = s.service.home)
    (ids : ∀ fd, (t.session fd).id = (s.session fd).id) (new : t.nextSession = s.nextSession)
    (activity : t.activity = (s.setActivity worker next).activity) : t.Placed := by
  apply placed.frame
  · intro w task running
    rw [tasks] at running
    exact ⟨task, running, List.Subset.refl _⟩
  · exact home
  · exact ids
  · exact new
  · intro w a busy
    rw [activity] at busy
    rcases setActivity_some busy with ⟨rfl, -⟩ | ⟨-, before⟩
    · exact free
    · exact placed.exclusive w a before

theorem Placed.accept (placed : s.Placed) (unused : s.service.home fd = none) :
    Placed { s with
      service := { s.service with home := Function.update s.service.home fd (some worker) }
      session := Function.update s.session fd ⟨s.nextSession, ∅⟩
      nextSession := s.nextSession + 1 } where
  exclusive := placed.exclusive
  carried := by
    intro w task running pair member
    have here := placed.carried w task running pair member
    dsimp only
    rw [Function.update_of_ne]
    · exact here
    · rintro rfl
      rw [unused] at here
      cases here
  distinct := by
    intro fd₁ fd₂ here there same
    -- the new number is larger than all that are in use
    by_cases first : fd₁ = fd
    · by_cases second : fd₂ = fd
      · rw [first, second]
      · simp only [first, Function.update_self, Function.update_of_ne second] at same there
        exact absurd same.symm (placed.older fd₂ there).ne
    · by_cases second : fd₂ = fd
      · simp only [second, Function.update_self, Function.update_of_ne first] at same here
        exact absurd same (placed.older fd₁ here).ne
      · simp only [Function.update_of_ne first, Function.update_of_ne second] at same here there
        exact placed.distinct fd₁ fd₂ here there same
  older := by
    intro fd' here
    by_cases same : fd' = fd
    · simp [same]
    · simp only [Function.update_of_ne same] at here ⊢
      exact (placed.older fd' here).trans (Nat.lt_succ_self _)

theorem Placed.closed (placed : s.Placed) (agree : s.Agree)
    (busy : s.activity worker = some (.closing fd ∅)) :
    Placed ({ s with
      service := { s.service with
        home := Function.update s.service.home fd none
        owed := Function.update s.service.owed fd fun _ => false }
      }.setActivity worker none) := by
  have here : s.service.home fd = some worker := agree.own worker _ busy
  have open_ {fd' : Nat} (there : (Function.update s.service.home fd none fd').isSome = true) :
      (s.service.home fd').isSome = true := by
    by_cases same : fd' = fd
    · subst same
      simp at there
    · rwa [Function.update_of_ne same] at there
  constructor
  · intro w a busy'
    rcases setActivity_some busy' with ⟨-, ⟨⟩⟩ | ⟨-, before⟩
    exact placed.exclusive w a before
  · intro w task running pair member
    have there := placed.carried w task running pair member
    simp only [DnsServer.setActivity]
    rw [Function.update_of_ne]
    · exact there
    · -- the thread that closes the connection has no task
      rintro rfl
      rw [here, Option.some.injEq] at there
      subst there
      have free := placed.exclusive worker _ busy
      exact absurd (free.symm.trans running) (by simp)
  · intro fd₁ fd₂ first second same
    exact placed.distinct fd₁ fd₂ (open_ first) (open_ second) same
  · intro fd' there
    exact placed.older fd' (open_ there)

theorem step_placed (agree : s.Agree) (placed : s.Placed) (done : s.step op = .ok t) :
    t.Placed := by
  have origin {op : ServiceStep} {service : Service} (taken : s.service.step op = .ok service)
      (other : ∀ w todo, op ≠ .copy w todo) (w : Nat) (task : PushTask)
      (running : service.task w = some task) :
      ∃ before, s.service.task w = some before ∧ task.todo ⊆ before.todo := by
    rcases Service.task_origin taken running with before | ⟨todo, copied, -⟩
    · exact before
    · exact absurd copied (other w todo)
  rcases step_effect done with rfl | effect
  · exact placed
  cases effect with
  | accept free unused => exact placed.accept unused
  | again here free known => exact placed.turn free.2 rfl rfl (fun _ => rfl) rfl rfl
  | @first fd worker req here free new =>
    refine placed.turn free.2 rfl rfl ?_ rfl rfl
    intro fd'
    by_cases same : fd' = fd
    · subst same
      simp [DnsServer.setActivity]
    · simp [DnsServer.setActivity, Function.update_of_ne same]
  | subscribe busy | getHosts busy | reply busy | unsubscribe busy =>
    exact placed.turn (placed.exclusive _ _ busy) rfl rfl (fun _ => rfl) rfl rfl
  | cleanConn here free => exact placed.turn free.2 rfl rfl (fun _ => rfl) rfl rfl
  | closed busy => exact placed.closed agree busy
  | swap route =>
    exact placed.frame (fun w task running => ⟨task, running, List.Subset.refl _⟩) rfl
      (fun _ => rfl) rfl placed.exclusive
  | publish taken | send taken | erase taken =>
    exact placed.frame (origin taken (by simp)) (service_frame taken rfl).2 (fun _ => rfl) rfl
      placed.exclusive
  | @copy worker todo service free taken =>
    have home := (service_frame taken rfl).2
    constructor
    · intro w a busy
      cases running : service.task w with
      | none => rfl
      | some task =>
        rcases Service.task_origin taken running with ⟨before, held, -⟩ | ⟨_, ⟨⟩, -⟩
        · rw [placed.exclusive w a busy] at held
          cases held
        · exact absurd (free.symm.trans busy) (by simp)
    · intro w task running pair member
      dsimp only at running ⊢
      rw [home]
      rcases Service.task_origin taken running with ⟨before, held, rest⟩ | ⟨_, ⟨⟩, copied⟩
      · exact placed.carried w before held pair (rest member)
      · exact (Service.mem_needPublish.mp (copied member)).1
    · dsimp only
      rw [home]
      exact placed.distinct
    · dsimp only
      rw [home]
      exact placed.older

/-! ### What a step leaves behind -/

theorem step_history (done : s.step op = .ok t) : s.history <+: t.history := by
  rcases step_effect done with rfl | effect
  · exact List.prefix_refl _
  · cases effect with
    | swap route => exact List.prefix_append _ _
    | _ => exact List.prefix_refl _

/-- An answer on its way was so before, or has just been built from the snapshot in place. -/
theorem answering_origin (agree : s.Agree) (done : s.step op = .ok t) {w : Nat}
    {req : Proto.GetRouteRequest} {generation : Nat} {rsp : Proto.GetRouteResponse}
    (busy : t.activity w = some (.answering fd req generation rsp)) :
    (s.activity w = some (.answering fd req generation rsp) ∧
      (t.session fd).id = (s.session fd).id) ∨
    (op = .getHosts w ∧ generation = s.history.length ∧ t = s.setActivity w
      (some (.answering fd req generation rsp))) := by
  rcases step_effect done with rfl | effect
  · exact .inl ⟨busy, rfl⟩
  cases effect with
  | @accept fd' worker free unused =>
    refine .inl ⟨busy, ?_⟩
    have apart : fd ≠ fd' := by
      rintro rfl
      have here : s.service.home fd = some w := agree.own w _ busy
      rw [unused] at here
      cases here
    simp [Function.update_of_ne apart]
  | @first fd' worker req' here free new =>
    refine .inl ⟨answering_setActivity (by simp) busy, ?_⟩
    by_cases same : fd = fd'
    · subst same
      simp [DnsServer.setActivity]
    · simp [DnsServer.setActivity, Function.update_of_ne same]
  | again | subscribe | reply | cleanConn | unsubscribe | closed =>
    exact .inl ⟨answering_setActivity (by simp) busy, rfl⟩
  | @getHosts fd' worker req' before =>
    rcases setActivity_some busy with ⟨rfl, new⟩ | ⟨-, held⟩
    · cases new
      exact .inr ⟨rfl, rfl, rfl⟩
    · exact .inl ⟨held, rfl⟩
  | swap | publish | copy | send | erase => exact .inl ⟨busy, rfl⟩

/-- A message goes to a connection of the thread that sends it: an answer that was on its way, or
a push while the thread has nothing else to do. -/
theorem mem_tells (placed : s.Placed) {m : Telling} (sent : m ∈ s.tells op) :
    ∃ worker fd, m.session = (s.session fd).id ∧
      ((∃ req, op = .reply worker true ∧ m.mod = requestMod req ∧
          s.activity worker = some (.answering fd req m.generation m.rsp)) ∨
        (op = .send worker true ∧ s.service.home fd = some worker ∧
          s.target worker = some (m.session, m.mod) ∧ s.activity worker = none ∧
          m.generation = s.history.length ∧ m.rsp = pushResponse m.mod s.service.route)) := by
  unfold tells at sent
  split at sent
  next worker =>
    split at sent
    next fd req generation rsp busy =>
      rw [List.mem_singleton] at sent
      subst sent
      exact ⟨worker, fd, rfl, .inl ⟨req, rfl, rfl, busy⟩⟩
    · cases sent
  next worker =>
    obtain ⟨⟨session, mod⟩, target, rfl⟩ := List.mem_map.mp sent
    have aims := Option.mem_toList.mp target
    have found := aims
    unfold DnsServer.target at found
    split at found
    next fd mod' rest working =>
      split at found
      · cases found
        refine ⟨worker, fd, rfl, .inr ⟨rfl, ?_, aims, ?_, rfl, rfl⟩⟩
        · exact placed.carried worker _ working (fd, mod) List.mem_cons_self
        · cases busy : s.activity worker with
          | none => rfl
          | some a =>
            rw [placed.exclusive worker a busy] at working
            cases working
      · cases found
    · cases found
  · cases sent

/-! ### Messages in order -/

/-- The message has the hosts of its module in the snapshot with its number. -/
def FromSnapshot (s : DnsServer) (m : Telling) : Prop :=
  ∃ route, s.history[m.generation - 1]? = some route ∧
    (m.rsp = pushResponse m.mod route ∨
      ∃ req, requestMod req = m.mod ∧ m.rsp = requestResponse req route)

theorem FromSnapshot.mono {m : Telling} (built : s.FromSnapshot m)
    (longer : s.history <+: t.history) : t.FromSnapshot m := by
  obtain ⟨route, there, same⟩ := built
  obtain ⟨more, whole⟩ := longer
  refine ⟨route, ?_, same⟩
  rw [← whole, List.getElem?_append_left (List.getElem?_eq_some_iff.mp there).1]
  exact there

/-- A message is the answer to a request for the module that it names. -/
theorem answers_itself {m : Telling} (built : s.FromSnapshot m) :
    ∃ snapshot, s.history[m.generation - 1]? = some snapshot ∧
      m.rsp = requestResponse ⟨m.rsp.modid, m.rsp.cmdid⟩ snapshot := by
  obtain ⟨snapshot, there, pushed | ⟨req, -, answered⟩⟩ := built
  · refine ⟨snapshot, there, ?_⟩
    rw [pushed]
    rfl
  · refine ⟨snapshot, there, ?_⟩
    rw [answered]
    rfl

/-- The halves of a key make it up again unless the low one is negative. -/
theorem packKey_halves {key : UInt64} (positive : 0 ≤ key.toUInt32.toInt32.toInt) :
    packKey (key >>> 32).toUInt32.toInt32 key.toUInt32.toInt32 = key := by
  have whole := packKey_toNat (key >>> 32).toUInt32.toInt32 key.toUInt32.toInt32
  have amount : UInt64.toNat 32 % 64 = 32 := by decide
  have small := key.toNat_lt
  apply UInt64.toNat_inj.mp
  apply Int.natCast_inj.mp
  rw [toInt_toInt32, UInt64.toNat_toUInt32, Int.bmod_def] at positive
  rw [whole, toInt_toInt32, toInt_toInt32, UInt64.toNat_toUInt32, UInt64.toNat_toUInt32,
    UInt64.toNat_shiftRight, amount, Nat.shiftRight_eq_div_pow, Int.bmod_def, Int.bmod_def]
  push_cast at positive ⊢
  split at positive <;> split <;> omega

/-- A message about a module with a cmdid that is not negative also names it. -/
theorem key_eq_iff {m : Telling} (built : s.FromSnapshot m) {req : Proto.GetRouteRequest}
    (positive : 0 ≤ req.cmdid.toInt) : m.key = requestMod req ↔ m.mod = requestMod req := by
  obtain ⟨snapshot, -, pushed | ⟨asked, mod, answered⟩⟩ := built
  · have halves : m.key = packKey (m.mod >>> 32).toUInt32.toInt32 m.mod.toUInt32.toInt32 := by
      rw [Telling.key, pushed]
      rfl
    rw [halves]
    constructor
    · intro same
      obtain ⟨-, low⟩ := packKey_inj same
      rw [← same, packKey_halves (by rwa [low])]
    · intro same
      have unsigned : ¬ req.cmdid.toInt < 0 := by omega
      rw [same, requestMod, high_packKey, low_packKey, if_neg unsigned]
  · have same : m.key = m.mod := by
      rw [Telling.key, answered, ← mod]
      rfl
    rw [same]

structure InOrder (x : Timeline) : Prop where
  known : ∀ m ∈ x.told, m.generation ≤ x.server.history.length
  order : x.told.Pairwise fun a b => a.session = b.session → a.generation ≤ b.generation
  /-- An answer on its way is not behind what the connection was told. -/
  pending : ∀ worker fd req generation rsp,
    x.server.activity worker = some (.answering fd req generation rsp) →
      generation ≤ x.server.history.length ∧
      ∀ m ∈ x.told, m.session = (x.server.session fd).id → m.generation ≤ generation
  built : ∀ m ∈ x.told, x.server.FromSnapshot m

theorem InOrder.init (route : Route) : InOrder (.init route) where
  known := by simp [Timeline.init]
  order := List.Pairwise.nil
  pending := by simp [Timeline.init, DnsServer.init]
  built := by simp [Timeline.init]

/-- What the ordering of the messages rests on. -/
structure Traced (x : Timeline) : Prop where
  agree : x.server.Agree
  gapless : x.server.Gapless
  placed : x.server.Placed
  inOrder : InOrder x

variable {x y : Timeline}

/-- A message that is sent while an answer is on its way goes to another connection. -/
theorem Traced.apart (traced : Traced x) (done : x.server.step op = .ok t) {m : Telling}
    (sent : m ∈ x.server.tells op) {w : Nat} {req : Proto.GetRouteRequest} {generation : Nat}
    {rsp : Proto.GetRouteResponse}
    (busy : x.server.activity w = some (.answering fd req generation rsp))
    (after : t.activity w = some (.answering fd req generation rsp)) :
    m.session ≠ (x.server.session fd).id := by
  intro same
  have here : x.server.service.home fd = some w := traced.agree.own w _ busy
  obtain ⟨worker, fd', session, ⟨req', rfl, -, answers⟩ | ⟨rfl, there, -, free, -⟩⟩ :=
    mem_tells traced.placed sent
  · have there : x.server.service.home fd' = some worker := traced.agree.own worker _ answers
    have fds := traced.placed.distinct fd' fd (by rw [there]; rfl) (by rw [here]; rfl)
      (session.symm.trans same)
    subst fds
    rw [here, Option.some.injEq] at there
    subst there
    -- the thread that has answered is back in its loop
    simp only [step, answers] at done
    cases done
    simp [DnsServer.setActivity] at after
  · have fds := traced.placed.distinct fd' fd (by rw [there]; rfl) (by rw [here]; rfl)
      (session.symm.trans same)
    subst fds
    rw [here, Option.some.injEq] at there
    subst there
    exact absurd (free.symm.trans busy) (by simp)

/-- What a step sends is at least as recent as all that its connection was told before. -/
theorem Traced.newest (traced : Traced x) {m : Telling} (sent : m ∈ x.server.tells op) :
    m.generation ≤ x.server.history.length ∧ x.server.FromSnapshot m ∧
      ∀ a ∈ x.told, a.session = m.session → a.generation ≤ m.generation := by
  obtain ⟨worker, fd, session, ⟨req, -, mod, busy⟩ | ⟨-, -, -, -, generation, rsp⟩⟩ :=
    mem_tells traced.placed sent
  · obtain ⟨known, older⟩ := traced.inOrder.pending worker fd req m.generation m.rsp busy
    obtain ⟨route, there, built⟩ := (traced.gapless.answering worker fd req _ _ busy).1
    refine ⟨known, ⟨route, there, .inr ⟨req, mod.symm, built⟩⟩, ?_⟩
    intro a before same
    exact older a before (same.trans session)
  · refine ⟨generation.le, ⟨x.server.service.route, ?_, .inl rsp⟩, ?_⟩
    · rw [generation, ← List.getLast?_eq_getElem?]
      exact traced.gapless.latest
    · intro a before _
      rw [generation]
      exact traced.inOrder.known a before

theorem tells_length (s : DnsServer) (op : DnsStep) : (s.tells op).length ≤ 1 := by
  unfold tells
  split
  next worker =>
    split
    · exact Nat.le_refl 1
    · exact Nat.zero_le 1
  next worker =>
    rw [List.length_map]
    cases s.target worker with
    | none => exact Nat.zero_le 1
    | some target => exact Nat.le_refl 1
  · exact Nat.zero_le 1

theorem step_inOrder (traced : Traced x) (done : x.server.step op = .ok t) :
    InOrder ⟨t, x.told ++ x.server.tells op⟩ := by
  have history := step_history done
  constructor
  · intro m member
    rcases List.mem_append.mp member with before | sent
    · exact (traced.inOrder.known m before).trans history.length_le
    · exact (traced.newest sent).1.trans history.length_le
  · rw [List.pairwise_append]
    refine ⟨traced.inOrder.order, ?_, ?_⟩
    · have short := tells_length x.server op
      generalize x.server.tells op = sent at short
      match sent with
      | [] => exact List.Pairwise.nil
      | [m] => exact List.pairwise_singleton _ m
      | _ :: _ :: _ => simp at short
    · intro a before m sent
      exact (traced.newest sent).2.2 a before
  · intro w fd req generation rsp busy
    rcases answering_origin traced.agree done busy with ⟨before, same⟩ | ⟨rfl, rfl, rfl⟩
    · obtain ⟨known, older⟩ := traced.inOrder.pending w fd req generation rsp before
      refine ⟨known.trans history.length_le, ?_⟩
      dsimp only
      rw [same]
      intro m member session
      rcases List.mem_append.mp member with told | sent
      · exact older m told session
      · exact absurd session (traced.apart done sent before busy)
    · refine ⟨Nat.le_refl _, ?_⟩
      intro m member _
      rcases List.mem_append.mp member with told | sent
      · exact traced.inOrder.known m told
      · cases sent
  · intro m member
    rcases List.mem_append.mp member with before | sent
    · exact (traced.inOrder.built m before).mono history
    · exact (traced.newest sent).2.1.mono history

theorem step_traced (x : Timeline) (op : DnsStep) (y : Timeline) (traced : Traced x)
    (taken : x.step op = .ok y) : Traced y := by
  obtain ⟨t, done, rfl⟩ := map_ok_inv taken
  obtain ⟨agree, gapless⟩ := step_gapless x.server op t ⟨traced.agree, traced.gapless⟩ done
  exact ⟨agree, gapless, step_placed traced.agree traced.placed done, step_inOrder traced done⟩

theorem Traced.init (route : Route) : Traced (.init route) :=
  ⟨Agree.init route, Gapless.init route, Placed.init route, InOrder.init route⟩

/-- In every run, whatever the poller and the other threads do in between: every message that a
connection gets has the hosts of its module in one of the snapshots, and no message is from an
older snapshot than one before it on the same connection. -/
theorem tellings_in_order (route : Route) (ops : List DnsStep) :
    Run.Always Timeline.step (fun x => (∀ m ∈ x.told, x.server.FromSnapshot m) ∧
      x.told.Pairwise fun a b => a.session = b.session → a.generation ≤ b.generation)
      (.init route) ops :=
  (Run.always_of_preserved step_traced (Traced.init route)).mono fun _ traced =>
    ⟨traced.inOrder.built, traced.inOrder.order⟩

/-! ### Nobody is left behind -/

/-- What the poller publishes goes into no entry that a task is about to erase. -/
def PublishesApart (s : DnsServer) (op : DnsStep) : Prop :=
  match op with
  | .publish changeMods => s.service.Undisturbed (.publish changeMods)
  | _ => True

/-- `send_message` takes every push. -/
def PushesTaken (_ : DnsServer) (op : DnsStep) : Prop :=
  match op with
  | .send _ accepted => accepted = true
  | _ => True

/-- A step of the server is a step of its tables, and meets the conditions of one. -/
theorem step_service (done : s.step op = .ok t) (apart : s.PublishesApart op)
    (takes : s.PushesTaken op) :
    t.service = s.service ∨ ∃ tables, s.service.step tables = .ok t.service ∧
      s.service.Undisturbed tables ∧ s.service.Taken tables := by
  rcases step_effect done with rfl | effect
  · exact .inl rfl
  cases effect with
  | @accept fd worker free unused =>
    refine .inr ⟨.accept fd worker, ?_, trivial, trivial⟩
    simp only [Service.step, unused, ↓reduceIte]
  | again | first | getHosts | reply | cleanConn => exact .inl rfl
  | @subscribe fd worker req busy =>
    exact .inr ⟨.subscribe (requestMod req) fd, rfl, trivial, trivial⟩
  | @unsubscribe fd worker left mod busy =>
    exact .inr ⟨.unsubscribe mod fd, rfl, trivial, trivial⟩
  | @closed fd worker busy => exact .inr ⟨.close fd, rfl, trivial, trivial⟩
  | swap route => exact .inr ⟨.swapRoute route, rfl, trivial, trivial⟩
  | publish taken => exact .inr ⟨_, taken, apart, trivial⟩
  | copy free taken => exact .inr ⟨_, taken, trivial, trivial⟩
  | send taken => exact .inr ⟨_, taken, trivial, takes⟩
  | erase taken => exact .inr ⟨_, taken, trivial, trivial⟩

/-- What is owed stays owed until it is sent or the connection is closed. -/
theorem owed_until {mod : UInt64} (done : s.step op = .ok t)
    (owed : s.service.owed fd mod = true) :
    t.service.owed fd mod = true ∨
      (∃ worker, op = .send worker true ∧ s.target worker = some ((s.session fd).id, mod)) ∨
      ∃ worker, s.activity worker = some (.closing fd ∅) := by
  rcases step_effect done with rfl | effect
  · exact .inl owed
  cases effect with
  | accept | again | first | subscribe | getHosts | reply | cleanConn | unsubscribe | swap =>
    exact .inl owed
  | @closed fd' worker busy =>
    by_cases same : fd = fd'
    · subst same
      exact .inr (.inr ⟨worker, busy⟩)
    · left
      simpa [DnsServer.setActivity, Function.update_of_ne same] using owed
  | publish taken =>
    cases taken
    left
    simp only [owed, Bool.true_or]
  | copy free taken =>
    left
    simp only [Service.step] at taken
    split at taken <;> cases taken <;> exact owed
  | @send worker accepted service taken =>
    simp only [Service.step] at taken
    split at taken
    next fd' mod' rest working =>
      split at taken
      next here =>
        cases taken
        obtain ⟨there, rfl⟩ := here
        by_cases same : fd = fd' ∧ mod = mod'
        · obtain ⟨rfl, rfl⟩ := same
          refine .inr (.inl ⟨worker, rfl, ?_⟩)
          simp only [target, working]
          rw [if_pos there]
        · left
          dsimp only
          by_cases first : fd = fd'
          · subst first
            have second : mod ≠ mod' := fun equal => same ⟨rfl, equal⟩
            rw [Function.update_self, Function.update_of_ne second]
            exact owed
          · rw [Function.update_of_ne first]
            exact owed
      · cases taken
        exact .inl owed
    · cases taken
      exact .inl owed
  | erase taken =>
    left
    simp only [Service.step] at taken
    split at taken <;> cases taken <;> exact owed

/-- A new round names the modules that it has published. -/
theorem rounds_origin (done : s.step op = .ok t) {round : Round} (member : round ∈ t.rounds) :
    round ∈ s.rounds ∨ ∃ changeMods, op = .publish changeMods ∧ round.changeMods = changeMods ∧
      ∀ fd mod, mod ∈ changeMods → fd ∈ s.service.bookList.fds mod →
        (s.service.home fd).isSome = true → t.service.owed fd mod = true := by
  rcases step_effect done with rfl | effect
  · exact .inl member
  cases effect with
  | @publish changeMods service taken =>
    rcases List.mem_append.mp member with before | new
    · exact .inl before
    · rw [List.mem_singleton] at new
      subst new
      refine .inr ⟨changeMods, rfl, rfl, fun fd mod changed booked here => ?_⟩
      cases taken
      have pair : (fd, mod) ∈ s.service.published changeMods := by
        simp only [Service.published, List.mem_flatMap, List.mem_map]
        exact ⟨mod, changed, fd, booked, rfl⟩
      simp only [here, pair, decide_true, Bool.and_self, Bool.or_true]
  | _ => exact .inl member

theorem replies_origin (done : s.step op = .ok t) {reply : RouteReply}
    (member : reply ∈ t.replies) :
    reply ∈ s.replies ∨ ∃ worker, op = .reply worker reply.accepted ∧
      reply.session = (s.session reply.fd).id ∧
      s.activity worker = some (.answering reply.fd reply.req reply.generation reply.rsp) := by
  rcases step_effect done with rfl | effect
  · exact .inl member
  cases effect with
  | reply busy =>
    rcases List.mem_append.mp member with before | new
    · exact .inl before
    · rw [List.mem_singleton] at new
      subst new
      exact .inr ⟨_, rfl, rfl, busy⟩
  | _ => exact .inl member

/-- The connection was told about the module from the snapshot of the round or a later one. -/
def InformedOf (x : Timeline) (session : Nat) (mod : UInt64) (round : Round) : Prop :=
  ∃ m ∈ x.told, m.session = session ∧ m.mod = mod ∧ round.generation ≤ m.generation

/-- Who was sent an answer is told of every later round, or is still owed a push. -/
structure Informed (x : Timeline) : Prop where
  answering : ∀ worker fd req generation rsp,
    x.server.activity worker = some (.answering fd req generation rsp) →
      ∀ round ∈ x.server.rounds, requestMod req ∈ round.changeMods →
        round.generation ≤ generation ∨ x.server.service.owed fd (requestMod req) = true
  replied : ∀ reply ∈ x.server.replies, reply.accepted = true →
    reply.session ∉ x.server.departed → ∀ round ∈ x.server.rounds,
      requestMod reply.req ∈ round.changeMods →
        InformedOf x reply.session (requestMod reply.req) round ∨
          x.server.service.owed reply.fd (requestMod reply.req) = true

theorem Informed.init (route : Route) : Informed (.init route) where
  answering := by simp [Timeline.init, DnsServer.init]
  replied := by simp [Timeline.init, DnsServer.init]

theorem InformedOf.later {round : Round} {session : Nat} {mod : UInt64}
    (informed : InformedOf x session mod round) (sent : List Telling) :
    InformedOf ⟨t, x.told ++ sent⟩ session mod round := by
  obtain ⟨m, told, rest⟩ := informed
  exact ⟨m, List.mem_append_left _ told, rest⟩

/-- A push that has a target is a message to it. -/
theorem target_tells {session : Nat} {mod : UInt64}
    (aims : s.target worker = some (session, mod)) :
    (⟨session, mod, s.history.length, pushResponse mod s.service.route⟩ : Telling) ∈
      s.tells (.send worker true) := by
  simp only [tells, aims, Option.toList_some, List.map_singleton, List.mem_singleton]

/-- The thread that builds an answer has its connection noted for the module. -/
theorem Agree.booked_answering (agree : s.Agree) {req : Proto.GetRouteRequest} {generation : Nat}
    {rsp : Proto.GetRouteResponse}
    (busy : s.activity worker = some (.answering fd req generation rsp)) :
    fd ∈ s.service.bookList.fds (requestMod req) := by
  have here : s.service.home fd = some worker := agree.own worker _ busy
  rw [agree.booked, listed, here]
  dsimp only
  rw [busy]
  exact agree.asked worker _ busy

theorem Informed.step_answering (informed : Informed x) (traced : Traced x)
    (done : x.server.step op = .ok t) {w : Nat} {req : Proto.GetRouteRequest} {generation : Nat}
    {rsp : Proto.GetRouteResponse} (busy : t.activity w = some (.answering fd req generation rsp))
    {round : Round} (member : round ∈ t.rounds) (changed : requestMod req ∈ round.changeMods) :
    round.generation ≤ generation ∨ t.service.owed fd (requestMod req) = true := by
  rcases answering_origin traced.agree done busy with ⟨before, -⟩ | ⟨rfl, rfl, rfl⟩
  · have here : x.server.service.home fd = some w := traced.agree.own w _ before
    rcases rounds_origin done member with old | ⟨changeMods, rfl, rfl, publishes⟩
    · rcases informed.answering w fd req generation rsp before round old changed with
        ahead | owed
      · exact .inl ahead
      · right
        rcases owed_until done owed with still | ⟨worker, rfl, aims⟩ | ⟨worker, closing⟩
        · exact still
        · exact absurd rfl (traced.apart done (target_tells aims) before busy)
        · have there : x.server.service.home fd = some worker := traced.agree.own worker _ closing
          rw [here, Option.some.injEq] at there
          subst there
          exact absurd (closing.symm.trans before) (by simp)
    · right
      exact publishes fd _ changed (traced.agree.booked_answering before) (by rw [here]; rfl)
  · exact .inl (traced.gapless.current round member)

theorem Informed.step_replied (informed : Informed x) (traced : Traced x)
    (done : x.server.step op = .ok t) {reply : RouteReply} (answered : reply ∈ t.replies)
    (accepted : reply.accepted = true)
    (present : reply.session ∉ t.departed) {round : Round} (member : round ∈ t.rounds)
    (changed : requestMod reply.req ∈ round.changeMods) :
    InformedOf ⟨t, x.told ++ x.server.tells op⟩ reply.session (requestMod reply.req) round ∨
      t.service.owed reply.fd (requestMod reply.req) = true := by
  have before : reply.session ∉ x.server.departed := fun gone => present (step_departed done gone)
  rcases replies_origin done answered with old | ⟨worker, rfl, session, busy⟩
  · obtain ⟨live, booked⟩ := traced.gapless.staying reply old before
    rcases rounds_origin done member with past | ⟨changeMods, rfl, rfl, publishes⟩
    · rcases informed.replied reply old accepted before round past changed with told | owed
      · exact .inl (told.later _)
      · rcases owed_until done owed with still | ⟨worker, rfl, aims⟩ | ⟨worker, closing⟩
        · exact .inr still
        · -- the push that settles it is from the snapshot in place
          left
          exact ⟨_, List.mem_append_right _ (target_tells aims), live.same, rfl,
            traced.gapless.current round past⟩
        · exact absurd rfl (live.ne_of_closing traced.agree closing)
    · obtain ⟨worker, here, -⟩ := live.staying
      exact .inr (publishes reply.fd _ changed booked (by rw [here]; rfl))
  · -- the answer itself, or what is owed since it was built
    rcases rounds_origin done member with past | ⟨_, ⟨⟩, -⟩
    rcases informed.answering worker _ _ _ _ busy round past changed with ahead | owed
    · have sent : (⟨(x.server.session reply.fd).id, requestMod reply.req, reply.generation,
          reply.rsp⟩ : Telling) ∈ x.server.tells (.reply worker reply.accepted) := by
        simp only [accepted, tells, busy, List.mem_singleton]
      exact .inl ⟨_, List.mem_append_right _ sent, session.symm, rfl, ahead⟩
    · right
      simp only [step, busy] at done
      cases done
      exact owed

/-- Everything that a message depends on, and the tables behind the pushes. -/
structure Settling (x : Timeline) : Prop where
  traced : Traced x
  informed : Informed x
  safe : x.server.service.Safe
  scheduled : x.server.service.Scheduled

theorem step_settling (x : Timeline) (op : DnsStep) (y : Timeline) (settling : Settling x)
    (allowed : x.server.PublishesApart op ∧ x.server.PushesTaken op) (taken : x.step op = .ok y) :
    Settling y := by
  obtain ⟨t, done, rfl⟩ := map_ok_inv taken
  have tables : t.service.Safe ∧ t.service.Scheduled := by
    rcases step_service done allowed.1 allowed.2 with same | ⟨tables, serves, apart, takes⟩
    · rw [same]
      exact ⟨settling.safe, settling.scheduled⟩
    · exact ⟨Service.step_safe _ _ _ settling.safe ⟨apart, takes⟩ serves,
        Service.step_scheduled _ takes settling.safe settling.scheduled serves⟩
  have informed : Informed ⟨t, x.told ++ x.server.tells op⟩ :=
    ⟨fun _ _ _ _ _ busy _ => settling.informed.step_answering settling.traced done busy,
      fun _ answered accepted present _ =>
        settling.informed.step_replied settling.traced done answered accepted present⟩
  exact ⟨step_traced x op _ settling.traced taken, informed, tables.1, tables.2⟩

theorem Settling.init (route : Route) : Settling (.init route) :=
  ⟨Traced.init route, Informed.init route, Service.Safe.init route, Service.Scheduled.init route⟩

/-- No thread that has a connection has a push task queued or running. -/
def AtRest (s : DnsServer) : Prop := ∀ fd worker, s.service.home fd = some worker →
  s.service.task worker = none ∧ s.service.queued worker = 0

theorem AtRest.nothing_owed (rest : s.AtRest) (scheduled : s.service.Scheduled)
    (opens : s.service.OwesOpen) (placed : s.Placed) (fd : Nat) (mod : UInt64) :
    s.service.owed fd mod = false := by
  cases owed : s.service.owed fd mod with
  | false => rfl
  | true =>
    obtain ⟨worker, here⟩ := Option.isSome_iff_exists.mp (opens fd mod owed)
    obtain ⟨idle, empty⟩ := rest fd worker here
    rcases scheduled fd mod worker owed here with queued | ⟨w, task, running, unsent⟩
    · rw [empty] at queued
      cases queued
    · have there := placed.carried w task running _ (Service.unsent_subset task unsent)
      rw [here, Option.some.injEq] at there
      subst there
      rw [idle] at running
      cases running

/-- The last message is at least as recent as any other. -/
theorem InformedOf.last {round : Round} {session : Nat} {req : Proto.GetRouteRequest}
    (informed : InformedOf x session (requestMod req) round) (inOrder : InOrder x)
    (positive : 0 ≤ req.cmdid.toInt) :
    ∃ m snapshot, x.lastTold session (requestMod req) = some m ∧
      round.generation ≤ m.generation ∧
      x.server.history[m.generation - 1]? = some snapshot ∧
      m.rsp = requestResponse req snapshot := by
  obtain ⟨m₀, told, connection, module, ahead⟩ := informed
  have names := (key_eq_iff (inOrder.built m₀ told) positive).mpr module
  have chosen : m₀ ∈ x.told.filter fun m => m.session = session ∧ m.key = requestMod req := by
    rw [List.mem_filter]
    exact ⟨told, by simp [connection, names]⟩
  have order := inOrder.order.filter fun m =>
    decide (m.session = session ∧ m.key = requestMod req)
  cases last : x.lastTold session (requestMod req) with
  | none =>
    rw [Timeline.lastTold, List.getLast?_eq_none_iff] at last
    rw [last] at chosen
    cases chosen
  | some m =>
    obtain ⟨member, kept⟩ := List.mem_filter.mp (List.mem_of_getLast? last)
    simp only [decide_eq_true_eq] at kept
    obtain ⟨front, split⟩ := List.getLast?_eq_some_iff.mp last
    rw [split] at chosen order
    obtain ⟨snapshot, there, answer⟩ := answers_itself (inOrder.built m member)
    obtain ⟨modid, cmdid⟩ := packKey_inj kept.2
    rw [modid, cmdid] at answer
    refine ⟨m, snapshot, rfl, ?_, there, answer⟩
    rcases List.mem_append.mp chosen with earlier | same
    · have older := (List.pairwise_append.mp order).2.2 m₀ earlier m List.mem_cons_self
      exact ahead.trans (older (connection.trans kept.1.symm))
    · rw [List.mem_singleton] at same
      rw [← same]
      exact ahead

theorem Settling.told_latest (settling : Settling x) (rest : x.server.AtRest) {reply : RouteReply}
    (answered : reply ∈ x.server.replies) (accepted : reply.accepted = true)
    (present : reply.session ∉ x.server.departed) (positive : 0 ≤ reply.req.cmdid.toInt)
    {round : Round} (member : round ∈ x.server.rounds)
    (changed : requestMod reply.req ∈ round.changeMods) :
    ∃ m snapshot, x.lastTold reply.session (requestMod reply.req) = some m ∧
      round.generation ≤ m.generation ∧
      x.server.history[m.generation - 1]? = some snapshot ∧
      m.rsp = requestResponse reply.req snapshot := by
  rcases settling.informed.replied reply answered accepted present round member changed with
    told | owed
  · exact told.last settling.traced.inOrder positive
  · have nothing := rest.nothing_owed settling.scheduled settling.safe.opens
      settling.traced.placed reply.fd (requestMod reply.req)
    rw [owed] at nothing
    cases nothing

/-- In a run that publishes nothing into an entry that a task is about to erase and in which no
push is refused: whenever no push task is queued or running in a thread that has connections, the
last message that names a module, to a connection that is still there and was sent an answer for
it, has the hosts of the snapshot of the last round for the module, or of a later one. -/
theorem told_latest_at_rest (route : Route) {ops : List DnsStep}
    (apart : Run.Guarded Timeline.step (fun x => x.server.PublishesApart) (.init route) ops)
    (takes : Run.Guarded Timeline.step (fun x => x.server.PushesTaken) (.init route) ops) :
    Run.Always Timeline.step (fun x => x.server.AtRest → ∀ reply ∈ x.server.replies,
      reply.accepted = true → reply.session ∉ x.server.departed → 0 ≤ reply.req.cmdid.toInt →
        ∀ round ∈ x.server.rounds, requestMod reply.req ∈ round.changeMods →
          ∃ m snapshot, x.lastTold reply.session (requestMod reply.req) = some m ∧
            round.generation ≤ m.generation ∧
            x.server.history[m.generation - 1]? = some snapshot ∧
            m.rsp = requestResponse reply.req snapshot) (.init route) ops := by
  apply (Run.always_of_guarded step_settling (Settling.init route) (apart.and takes)).mono
  intro x settling rest reply answered accepted present positive round member changed
  exact settling.told_latest rest answered accepted present positive member changed

private def noHosts : Route := ⟨0, ∅, ∅⟩

/-- A connection asks for module 0, command 1; a new snapshot comes in place, the module is
published and pushed. -/
private def askAndPush : List DnsStep :=
  [.accept 5 0, .request 5 ⟨0, 1⟩, .subscribe 0, .getHosts 0, .reply 0 true, .swap noHosts,
    .publish [1], .copy 0 [(5, 1)], .send 0 true, .erase 0]

theorem told_latest_at_rest_once :
    ∃ x, Run.run Timeline.step (.init noHosts) askAndPush = .ok x ∧ x.server.AtRest ∧
      ∃ m snapshot, x.lastTold 0 1 = some m ∧ 2 ≤ m.generation ∧
        x.server.history[m.generation - 1]? = some snapshot ∧
        m.rsp = requestResponse ⟨0, 1⟩ snapshot := by
  have apart : Run.Guarded Timeline.step (fun x => x.server.PublishesApart) (.init noHosts)
      askAndPush := by
    refine ⟨trivial, fun x₁ done₁ => ⟨trivial, fun x₂ done₂ => ⟨trivial, fun x₃ done₃ =>
      ⟨trivial, fun x₄ done₄ => ⟨trivial, fun x₅ done₅ => ⟨trivial, fun x₆ done₆ => ?_⟩⟩⟩⟩⟩⟩
    cases done₁
    cases done₂
    cases done₃
    cases done₄
    cases done₅
    cases done₆
    -- no task is running when the module is published
    refine ⟨fun _ _ _ _ _ running => (by cases running), fun _ _ => ?_⟩
    exact ⟨trivial, fun _ _ => ⟨trivial, fun _ _ => ⟨trivial, fun _ _ => trivial⟩⟩⟩
  have takes : Run.Guarded Timeline.step (fun x => x.server.PushesTaken) (.init noHosts)
      askAndPush := by
    refine ⟨trivial, fun _ _ => ⟨trivial, fun _ _ => ⟨trivial, fun _ _ => ⟨trivial, ?_⟩⟩⟩⟩
    refine fun _ _ => ⟨trivial, fun _ _ => ⟨trivial, fun _ _ => ⟨trivial, fun _ _ => ?_⟩⟩⟩
    exact ⟨trivial, fun _ _ => ⟨rfl, fun _ _ => ⟨trivial, fun _ _ => trivial⟩⟩⟩
  have done : Run.run Timeline.step (.init noHosts) askAndPush = .ok _ := rfl
  have told := (told_latest_at_rest noHosts apart takes).last done
  refine ⟨_, done, ?rest,
    told ?rest _ List.mem_cons_self rfl (by decide) (by decide) _ List.mem_cons_self (by decide)⟩
  intro fd worker here
  change Function.update (fun _ => none) 5 (some 0) fd = some worker at here
  by_cases same : fd = 5
  · subst same
    cases here
    exact ⟨rfl, rfl⟩
  · rw [Function.update_of_ne same] at here
    cases here

end Lars.Dns.DnsServer
