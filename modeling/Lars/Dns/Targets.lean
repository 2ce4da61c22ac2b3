import Lars.Dns.Session

/-!
# Where the pushes go

`_push_list` is kept under descriptors. `clean_conn` takes a connection out of
`_book_list` and leaves what is noted for it in `_push_list`, so a connection
that is given the same descriptor inherits it.
-/
namespace Lars.Dns

namespace Service

variable {s t : Service} {op : ServiceStep}

/-- Pairs come into `_push_list` by `publish` only. -/
theorem pushList_origin (done : s.step op = .ok t) {fd : Nat} {mod : UInt64}
    (noted : mod ∈ t.pushList.of fd) :
    mod ∈ s.pushList.of fd ∨ ∃ changeMods, op = .publish changeMods ∧
      (fd, mod) ∈ s.published changeMods := by
  rcases step_cases done with ⟨changeMods, rfl⟩ | ⟨worker, todo, rfl⟩ | ⟨worker, accepted, rfl⟩ |
    ⟨worker, rfl⟩ | ⟨list, -, -⟩
  · cases done
    exact (mem_foldl_add.mp noted).imp_right fun new => ⟨changeMods, rfl, new⟩
  · simp only [step] at done
    split at done <;> cases done <;> exact .inl noted
  · simp only [step] at done
    split at done
    · split at done <;> cases done <;> exact .inl noted
    · cases done
      exact .inl noted
  · simp only [step] at done
    split at done
    · cases done
      exact .inl (mem_erase.mp noted).2
    · cases done
      exact .inl noted
  · rw [list] at noted
    exact .inl noted

/-- A task goes through what it has copied of `_push_list`. -/
theorem task_origin (done : s.step op = .ok t) {worker : Nat} {task : PushTask}
    (running : t.task worker = some task) :
    (∃ before, s.task worker = some before ∧ task.todo ⊆ before.todo) ∨
      ∃ todo, op = .copy worker todo ∧ task.todo ⊆ s.needPublish worker := by
  have kept : t.task = s.task → ∃ before, s.task worker = some before ∧
      task.todo ⊆ before.todo := by
    intro same
    rw [same] at running
    exact ⟨task, running, List.Subset.refl _⟩
  rcases step_cases done with ⟨changeMods, rfl⟩ | ⟨w, todo, rfl⟩ | ⟨w, accepted, rfl⟩ |
    ⟨w, rfl⟩ | ⟨-, tasks, -⟩
  · cases done
    exact .inl (kept rfl)
  · simp only [step] at done
    split at done
    next able =>
      cases done
      by_cases mine : worker = w
      · subst mine
        simp only [Function.update_self] at running
        split at running
        · cases running
        · cases running
          exact .inr ⟨todo, rfl, able.2.2.subset⟩
      · simp only [Function.update_of_ne mine] at running
        exact .inl ⟨task, running, List.Subset.refl _⟩
    · cases done
      exact .inl (kept rfl)
  · -- a send leaves the pair at the head until it is erased
    simp only [step] at done
    split at done
    next fd mod rest working =>
      have advanced : t.task = Function.update s.task w (some ⟨(fd, mod) :: rest, true⟩) := by
        split at done <;> cases done <;> rfl
      rw [advanced] at running
      by_cases mine : worker = w
      · subst mine
        simp only [Function.update_self, Option.some.injEq] at running
        subst running
        exact .inl ⟨_, working, List.Subset.refl _⟩
      · rw [Function.update_of_ne mine] at running
        exact .inl ⟨task, running, List.Subset.refl _⟩
    · cases done
      exact .inl (kept rfl)
  · simp only [step] at done
    split at done
    next fd mod rest working =>
      cases done
      by_cases mine : worker = w
      · subst mine
        simp only [Function.update_self] at running
        split at running
        · cases running
        · cases running
          exact .inl ⟨_, working, List.subset_cons_self _ _⟩
      · simp only [Function.update_of_ne mine] at running
        exact .inl ⟨task, running, List.Subset.refl _⟩
    · cases done
      exact .inl (kept rfl)
  · exact .inl (kept tasks)

end Service

namespace DnsServer

/-- The connection on a descriptor has itself asked for the module. -/
def Requests (s : DnsServer) (fd : Nat) (mod : UInt64) : Prop :=
  ((s.session fd).id, mod) ∈ s.requested

/-- Whatever is kept for an open connection is something it has asked for. -/
structure Targeted (s : DnsServer) : Prop where
  exclusive : ∀ worker a, s.activity worker = some a → s.service.task worker = none
  subscribed : ∀ fd mod, (s.service.home fd).isSome = true → mod ∈ (s.session fd).subList →
    s.Requests fd mod
  noted : ∀ fd mod, (s.service.home fd).isSome = true → mod ∈ s.service.pushList.of fd →
    s.Requests fd mod
  carried : ∀ worker task, s.service.task worker = some task → ∀ pair ∈ task.todo,
    s.service.home pair.1 = some worker ∧ s.Requests pair.1 pair.2
  pushed : ∀ push ∈ s.pushed, push ∈ s.requested

theorem Targeted.init (route : Route) : (init route).Targeted where
  exclusive := by simp [DnsServer.init]
  subscribed := by simp [DnsServer.init]
  noted := by simp [DnsServer.init, Service.init]
  carried := by simp [DnsServer.init, Service.init]
  pushed := by simp [DnsServer.init]

variable {s t : DnsServer} {worker fd : Nat}

/-- Steps that note nothing, open and close nothing and push nothing. -/
theorem Targeted.frame (targeted : s.Targeted)
    (exclusive : ∀ worker a, t.activity worker = some a → t.service.task worker = none)
    (list : ∀ fd, t.service.pushList.of fd ⊆ s.service.pushList.of fd)
    (tasks : ∀ worker task, t.service.task worker = some task →
      ∃ before, s.service.task worker = some before ∧ task.todo ⊆ before.todo)
    (home : t.service.home = s.service.home) (session : t.session = s.session)
    (requested : t.requested = s.requested) (pushed : t.pushed = s.pushed) : t.Targeted := by
  have requests : ∀ fd mod, s.Requests fd mod → t.Requests fd mod := by
    intro fd mod asked
    rw [Requests, session, requested]
    exact asked
  refine ⟨exclusive, fun fd mod there member => ?_, fun fd mod there member => ?_,
    fun worker task running pair member => ?_, fun push member => ?_⟩
  · rw [home] at there
    rw [session] at member
    exact requests fd mod (targeted.subscribed fd mod there member)
  · rw [home] at there
    exact requests fd mod (targeted.noted fd mod there (list fd member))
  · obtain ⟨before, held, rest⟩ := tasks worker task running
    obtain ⟨here, asked⟩ := targeted.carried worker before held pair (rest member)
    rw [home]
    exact ⟨here, requests _ _ asked⟩
  · rw [pushed] at member
    rw [requested]
    exact targeted.pushed push member

theorem Targeted.congr (targeted : s.Targeted) (service : t.service = s.service)
    (activity : t.activity = s.activity) (session : t.session = s.session)
    (requested : t.requested = s.requested) (pushed : t.pushed = s.pushed) : t.Targeted := by
  refine targeted.frame ?_ (fun fd => ?_) (fun worker task running => ?_) (by rw [service]) session
    requested pushed
  · rw [activity, service]
    exact targeted.exclusive
  · rw [service]
    exact List.Subset.refl _
  · rw [service] at running
    exact ⟨task, running, List.Subset.refl _⟩

/-- A thread goes on to another activity while nothing else changes. -/
theorem Targeted.setActivity (targeted : s.Targeted) {next : Option Activity}
    (idle : s.service.task worker = none) : (s.setActivity worker next).Targeted := by
  refine targeted.frame ?_ (fun _ => List.Subset.refl _)
    (fun _ task running => ⟨task, running, List.Subset.refl _⟩) rfl rfl rfl rfl
  intro w a busy
  rcases setActivity_some busy with ⟨rfl, -⟩ | ⟨-, before⟩
  · exact idle
  · exact targeted.exclusive w a before

/-- A step of the tables that is neither `publish` nor `copy` and keeps the connections. -/
theorem Targeted.serve (targeted : s.Targeted) {op : ServiceStep} {service : Service}
    (taken : s.service.step op = .ok service) (home : service.home = s.service.home)
    (noPublish : ∀ changeMods, op ≠ .publish changeMods)
    (noCopy : ∀ worker todo, op ≠ .copy worker todo) :
    Targeted { s with service := service } := by
  have tasks : ∀ worker task, service.task worker = some task →
      ∃ before, s.service.task worker = some before ∧ task.todo ⊆ before.todo := by
    intro worker task running
    rcases Service.task_origin taken running with before | ⟨todo, copied, -⟩
    · exact before
    · exact absurd copied (noCopy worker todo)
  refine targeted.frame ?_ ?_ tasks home rfl rfl rfl
  · intro worker a busy
    cases running : service.task worker with
    | none => rfl
    | some task =>
      obtain ⟨before, held, -⟩ := tasks worker task running
      rw [targeted.exclusive worker a busy] at held
      cases held
  · intro fd mod member
    rcases Service.pushList_origin taken member with before | ⟨changeMods, published, -⟩
    · exact before
    · exact absurd published (noPublish changeMods)

theorem Targeted.accept (targeted : s.Targeted) (unused : s.service.home fd = none)
    (clean : s.service.pushList.of fd = []) :
    Targeted { s with
      service := { s.service with home := Function.update s.service.home fd (some worker) }
      session := Function.update s.session fd ⟨s.nextSession, ∅⟩
      nextSession := s.nextSession + 1 } := by
  refine ⟨targeted.exclusive, fun fd' mod there member => ?_, fun fd' mod there member => ?_,
    fun w task running pair member => ?_, targeted.pushed⟩
  · by_cases same : fd' = fd
    · simp [same] at member
    · simp only [Requests, Function.update_of_ne same] at there member ⊢
      exact targeted.subscribed fd' mod there member
  · by_cases same : fd' = fd
    -- here the new connection would inherit what is noted for the descriptor
    · rw [same, clean] at member
      cases member
    · simp only [Requests, Function.update_of_ne same] at there ⊢
      exact targeted.noted fd' mod there member
  · obtain ⟨here, asked⟩ := targeted.carried w task running pair member
    -- a task holds pairs of open descriptors, and this one was not open
    have apart : pair.1 ≠ fd := by
      rintro rfl
      rw [unused] at here
      cases here
    simp only [Requests, Function.update_of_ne apart]
    exact ⟨here, asked⟩

/-- A request is recorded before anything of it is noted. -/
theorem Targeted.request (targeted : s.Targeted) {mod : UInt64} {subList : Finset UInt64}
    (grown : subList ⊆ insert mod (s.session fd).subList) :
    Targeted { s with
      requested := s.requested ++ [((s.session fd).id, mod)]
      session := Function.update s.session fd { s.session fd with subList := subList } } := by
  -- the set may grow, but the connection is the same one
  have ids : ∀ fd', (Function.update s.session fd { s.session fd with subList := subList } fd').id =
      (s.session fd').id := by
    intro fd'
    by_cases same : fd' = fd
    · simp [same]
    · rw [Function.update_of_ne same]
  have requests : ∀ fd' mod', s.Requests fd' mod' → Requests { s with
      requested := s.requested ++ [((s.session fd).id, mod)]
      session := Function.update s.session fd { s.session fd with subList := subList } } fd' mod' := by
    intro fd' mod' asked
    simp only [Requests, ids]
    exact List.mem_append_left _ asked
  refine ⟨targeted.exclusive, fun fd' mod' there member => ?_, fun fd' mod' there member => ?_,
    fun w task running pair member => ?_, fun push member => ?_⟩
  · by_cases same : fd' = fd
    · subst same
      simp only [Function.update_self] at member
      rcases Finset.mem_insert.mp (grown member) with rfl | before
      · simp [Requests]
      · exact requests _ _ (targeted.subscribed fd' mod' there before)
    · simp only [Function.update_of_ne same] at member
      exact requests _ _ (targeted.subscribed fd' mod' there member)
  · exact requests _ _ (targeted.noted fd' mod' there member)
  · obtain ⟨here, asked⟩ := targeted.carried w task running pair member
    exact ⟨here, requests _ _ asked⟩
  · exact List.mem_append_left _ (targeted.pushed push member)

/-- No task is under way for a connection whose thread is closing it. -/
theorem Targeted.closed (targeted : s.Targeted) (agree : s.Agree)
    (busy : s.activity worker = some (.closing fd ∅)) :
    Targeted ({ s with
      service := { s.service with
        home := Function.update s.service.home fd none
        owed := Function.update s.service.owed fd fun _ => false }
      }.setActivity worker none) := by
  have here : s.service.home fd = some worker := agree.own worker _ busy
  have idle := targeted.exclusive worker _ busy
  refine ⟨fun w a busy' => ?_, fun fd' mod there member => ?_, fun fd' mod there member => ?_,
    fun w task running pair member => ?_, targeted.pushed⟩
  · rcases setActivity_some busy' with ⟨rfl, ⟨⟩⟩ | ⟨-, before⟩
    exact targeted.exclusive w a before
  · by_cases same : fd' = fd
    · simp [DnsServer.setActivity, same] at there
    · simp only [DnsServer.setActivity, Function.update_of_ne same] at there
      exact targeted.subscribed fd' mod there member
  · by_cases same : fd' = fd
    · simp [DnsServer.setActivity, same] at there
    · simp only [DnsServer.setActivity, Function.update_of_ne same] at there
      exact targeted.noted fd' mod there member
  · obtain ⟨home, asked⟩ := targeted.carried w task running pair member
    -- the thread of the connection is busy closing it and runs no task
    have apart : pair.1 ≠ fd := by
      rintro rfl
      rw [here, Option.some.injEq] at home
      subst home
      change s.service.task worker = some task at running
      rw [idle] at running
      cases running
    simp only [DnsServer.setActivity, Function.update_of_ne apart]
    exact ⟨home, asked⟩

/-- What is published goes to descriptors that are subscribed. -/
theorem Targeted.publish (targeted : s.Targeted) (agree : s.Agree) {changeMods : List UInt64}
    {service : Service} (taken : s.service.step (.publish changeMods) = .ok service) :
    Targeted { s with service := service } := by
  have home := (service_frame taken rfl).2
  have tasks : service.task = s.service.task := by
    cases taken
    rfl
  refine ⟨fun w a busy => ?_, fun fd mod there member => ?_, fun fd mod there member => ?_,
    fun w task running => ?_, targeted.pushed⟩
  · rw [tasks]
    exact targeted.exclusive w a busy
  · dsimp only at there
    rw [home] at there
    exact targeted.subscribed fd mod there member
  · dsimp only at there
    rw [home] at there
    rcases Service.pushList_origin taken member with before | ⟨_, ⟨⟩, new⟩
    · exact targeted.noted fd mod there before
    -- a new pair comes out of `_book_list`, which agrees with the set of the connection
    · simp only [Service.published, List.mem_flatMap, List.mem_map, Prod.mk.injEq] at new
      obtain ⟨mod', -, fd', booked, rfl, rfl⟩ := new
      have listed := (agree.booked fd' mod').mp booked
      exact targeted.subscribed fd' mod' there (agree.of_listed listed).2
  · dsimp only at running ⊢
    rw [tasks] at running
    rw [home]
    exact targeted.carried w task running

theorem Targeted.copy (targeted : s.Targeted) {todo : List (Nat × UInt64)} {service : Service}
    (free : s.activity worker = none)
    (taken : s.service.step (.copy worker todo) = .ok service) :
    Targeted { s with service := service } := by
  have home := (service_frame taken rfl).2
  refine ⟨fun w a busy => ?_, fun fd mod there member => ?_, fun fd mod there member => ?_,
    fun w task running pair member => ?_, targeted.pushed⟩
  · cases running : service.task w with
    | none => rfl
    | some task =>
      rcases Service.task_origin taken running with ⟨before, held, -⟩ | ⟨_, ⟨⟩, -⟩
      · rw [targeted.exclusive w a busy] at held
        cases held
      -- the thread that has copied was doing nothing else
      · rw [free] at busy
        cases busy
  · dsimp only at there
    rw [home] at there
    exact targeted.subscribed fd mod there member
  · dsimp only at there
    rw [home] at there
    rcases Service.pushList_origin taken member with before | ⟨_, ⟨⟩, -⟩
    exact targeted.noted fd mod there before
  · dsimp only at running ⊢
    rw [home]
    rcases Service.task_origin taken running with ⟨before, held, rest⟩ | ⟨_, ⟨⟩, copied⟩
    · exact targeted.carried w before held pair (rest member)
    · obtain ⟨here, noted⟩ := Service.mem_needPublish.mp (copied member)
      exact ⟨here, targeted.noted pair.1 pair.2 (by rw [here]; rfl) noted⟩

/-- The connection that a task sends to is the one for which it has copied. -/
theorem Targeted.target (targeted : s.Targeted) {push : Nat × UInt64}
    (sends : s.target worker = some push) : push ∈ s.requested := by
  unfold DnsServer.target at sends
  split at sends
  next fd mod rest working =>
    split at sends
    · cases sends
      exact (targeted.carried worker _ working (fd, mod) (by simp)).2
    · cases sends
  · cases sends

end DnsServer

end Lars.Dns
