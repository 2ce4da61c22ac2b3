import Lars.Dns.Session

/-!
# Nothing is missed between asking and publishing

`get_route` subscribes before it looks the hosts up, and the poller swaps the
route before it publishes. A change is therefore in the answer, or it finds the
subscription.
-/
namespace Lars.Dns.DnsServer

variable {s t : DnsServer} {worker fd id : Nat}

/-! ### Connections that stay -/

/-- The connection is open on the descriptor, and not on its way out. -/
structure Live (s : DnsServer) (fd id : Nat) : Prop where
  same : (s.session fd).id = id
  staying : ∃ worker, s.service.home fd = some worker ∧
    ∀ left, s.activity worker ≠ some (.closing fd left)

theorem Live.frame (live : s.Live fd id) (home : t.service.home = s.service.home)
    (session : t.session = s.session) (activity : t.activity = s.activity) : t.Live fd id := by
  constructor
  · rw [session]
    exact live.same
  · rw [home, activity]
    exact live.staying

theorem Live.setActivity (live : s.Live fd id) (worker : Nat) {next : Option Activity}
    (staying : ∀ left, next ≠ some (.closing fd left)) :
    (s.setActivity worker next).Live fd id := by
  obtain ⟨w, here, busy⟩ := live.staying
  refine ⟨live.same, w, here, fun left leaving => ?_⟩
  rcases setActivity_some leaving with ⟨-, new⟩ | ⟨-, before⟩
  · exact staying left new
  · exact busy left before

/-- A thread that closes a connection is not at work on one that stays. -/
theorem Live.ne_of_closing (live : s.Live fd id) (agree : s.Agree) {fd' : Nat}
    {left : Finset UInt64} (busy : s.activity worker = some (.closing fd' left)) : fd ≠ fd' := by
  rintro rfl
  obtain ⟨w, here, staying⟩ := live.staying
  have home : s.service.home fd = some worker := agree.own worker _ busy
  rw [home, Option.some.injEq] at here
  subst here
  exact staying left busy

/-- The connection stays open, and all that is noted for it stays noted. -/
structure Stays (s t : DnsServer) (fd id : Nat) : Prop where
  live : t.Live fd id
  noted : ∀ mod, fd ∈ s.service.bookList.fds mod → fd ∈ t.service.bookList.fds mod

/-- The poller and the push tasks keep all connections. -/
theorem Stays.quiet (live : s.Live fd id) {op : ServiceStep} {service : Service}
    (taken : s.service.step op = .ok service) (quiet : isQuiet op = true)
    (kept : t.service = service) (session : t.session = s.session)
    (activity : t.activity = s.activity) : Stays s t fd id := by
  obtain ⟨book, home⟩ := service_frame taken quiet
  refine ⟨live.frame ?_ session activity, ?_⟩
  · rw [kept]
    exact home
  · rw [kept, book]
    exact fun _ noted => noted

/-- In one step a connection calls `clean_conn`, or it stays. -/
theorem step_live {op : DnsStep} (agree : s.Agree) (done : s.step op = .ok t)
    (live : s.Live fd id) : id ∈ t.departed ∨ Stays s t fd id := by
  rcases step_effect done with rfl | effect
  · exact .inr ⟨live, fun _ noted => noted⟩
  cases effect with
  | @accept fd' worker free unused =>
    obtain ⟨w, here, staying⟩ := live.staying
    -- an open descriptor is not given away
    have apart : fd ≠ fd' := by
      rintro rfl
      rw [unused] at here
      cases here
    refine .inr ⟨⟨?_, w, ?_, staying⟩, fun _ noted => noted⟩
    · simpa [Function.update_of_ne apart] using live.same
    · simpa [Function.update_of_ne apart] using here
  | @again fd' worker req here free known =>
    have busy : (s.setActivity worker (some (.subscribed fd' req))).Live fd id :=
      live.setActivity worker (by simp)
    exact .inr ⟨busy.frame rfl rfl rfl, fun _ noted => noted⟩
  | @first fd' worker req here free new =>
    have busy : (s.setActivity worker (some (.inserted fd' req))).Live fd id :=
      live.setActivity worker (by simp)
    refine .inr ⟨⟨?_, busy.staying⟩, fun _ noted => noted⟩
    by_cases same : fd = fd'
    · subst same
      simpa [DnsServer.setActivity] using live.same
    · simpa [DnsServer.setActivity, Function.update_of_ne same] using live.same
  | @subscribe fd' worker req busy =>
    have settled : (s.setActivity worker (some (.subscribed fd' req))).Live fd id :=
      live.setActivity worker (by simp)
    refine .inr ⟨settled.frame rfl rfl rfl, fun mod noted => ?_⟩
    exact BookList.mem_subscribe.mpr (.inl noted)
  | getHosts busy => exact .inr ⟨live.setActivity _ (by simp), fun _ noted => noted⟩
  | @reply fd' worker req generation rsp accepted busy =>
    have idle : (s.setActivity worker none).Live fd id := live.setActivity worker (by simp)
    exact .inr ⟨idle.frame rfl rfl rfl, fun _ noted => noted⟩
  | @cleanConn fd' worker here free =>
    by_cases same : fd = fd'
    -- the one step by which a connection departs
    · subst same
      exact .inl (Finset.mem_insert.mpr (.inl live.same.symm))
    · have leaving : (s.setActivity worker
          (some (.closing fd' (s.session fd').subList))).Live fd id := by
        apply live.setActivity worker
        rintro left ⟨⟩
        exact same rfl
      exact .inr ⟨leaving.frame rfl rfl rfl, fun _ noted => noted⟩
  | @unsubscribe fd' worker left mod busy =>
    have apart := live.ne_of_closing agree busy
    have leaving : (s.setActivity worker (some (.closing fd' (left.erase mod)))).Live fd id := by
      apply live.setActivity worker
      rintro rest ⟨⟩
      exact apart rfl
    refine .inr ⟨leaving.frame rfl rfl rfl, fun mod' noted => ?_⟩
    exact agree.proper.mem_unsubscribe.mpr ⟨noted, fun same => apart same.2⟩
  | @closed fd' worker busy =>
    have apart := live.ne_of_closing agree busy
    have gone : (s.setActivity worker none).Live fd id := live.setActivity worker (by simp)
    obtain ⟨w, here, staying⟩ := gone.staying
    refine .inr ⟨⟨live.same, w, ?_, staying⟩, fun _ noted => noted⟩
    simp only [DnsServer.setActivity] at here ⊢
    rw [Function.update_of_ne apart]
    exact here
  | swap route => exact .inr ⟨live.frame rfl rfl rfl, fun _ noted => noted⟩
  | publish taken => exact .inr (.quiet live taken rfl rfl rfl rfl)
  | copy _ taken => exact .inr (.quiet live taken rfl rfl rfl rfl)
  | send taken => exact .inr (.quiet live taken rfl rfl rfl rfl)
  | erase taken => exact .inr (.quiet live taken rfl rfl rfl rfl)

/-- A connection that has called `clean_conn` has called it. -/
theorem step_departed {op : DnsStep} (done : s.step op = .ok t) : s.departed ⊆ t.departed := by
  rcases step_effect done with rfl | effect
  · exact Finset.Subset.refl _
  cases effect with
  | cleanConn => exact Finset.subset_insert _ _
  | accept | again | first | subscribe | getHosts | reply | unsubscribe | closed | swap | publish |
    copy | send | erase => exact Finset.Subset.refl _

/-! ### Answers and rounds -/

/-- What a round has noted is what it has put into `_push_list`. -/
theorem publish_notes {changeMods : List UInt64} {service : Service}
    (taken : s.service.step (.publish changeMods) = .ok service) (fd : Nat) (mod : UInt64) :
    mod ∈ service.pushList.of fd ↔
      mod ∈ s.service.pushList.of fd ∨ (fd, mod) ∈ s.service.published changeMods := by
  cases taken
  exact Service.mem_foldl_add

/-- A round that concerns the module of an answer is behind the answer, has noted the connection,
or came after the connection had called `clean_conn`. -/
def Told (round : Round) (session fd : Nat) (req : Proto.GetRouteRequest) (generation : Nat) :
    Prop :=
  requestMod req ∈ round.changeMods → session ∉ round.departed →
    round.generation ≤ generation ∨ (fd, requestMod req) ∈ round.noted

/-- The answer comes from the snapshot with this number. -/
def BuiltFrom (s : DnsServer) (req : Proto.GetRouteRequest) (generation : Nat)
    (rsp : Proto.GetRouteResponse) : Prop :=
  ∃ route, s.history[generation - 1]? = some route ∧ rsp = requestResponse req route

structure Gapless (s : DnsServer) : Prop where
  latest : s.history.getLast? = some s.service.route
  current : ∀ round ∈ s.rounds, round.generation ≤ s.history.length
  kept : ∀ round ∈ s.rounds, ∀ pair ∈ round.noted, pair.2 ∈ round.pushList.of pair.1
  answering : ∀ worker fd req generation rsp,
    s.activity worker = some (.answering fd req generation rsp) →
      s.BuiltFrom req generation rsp ∧
      ∀ round ∈ s.rounds, Told round (s.session fd).id fd req generation
  replied : ∀ reply ∈ s.replies, s.BuiltFrom reply.req reply.generation reply.rsp ∧
    ∀ round ∈ s.rounds, Told round reply.session reply.fd reply.req reply.generation
  staying : ∀ reply ∈ s.replies, reply.session ∉ s.departed →
    s.Live reply.fd reply.session ∧ reply.fd ∈ s.service.bookList.fds (requestMod reply.req)

theorem Gapless.init (route : Route) : (init route).Gapless where
  latest := rfl
  current := by simp [DnsServer.init]
  kept := by simp [DnsServer.init]
  answering := by simp [DnsServer.init]
  replied := by simp [DnsServer.init]
  staying := by simp [DnsServer.init]

theorem BuiltFrom.mono {req : Proto.GetRouteRequest} {generation : Nat}
    {rsp : Proto.GetRouteResponse} (built : s.BuiltFrom req generation rsp)
    (longer : s.history <+: t.history) : t.BuiltFrom req generation rsp := by
  obtain ⟨route, there, same⟩ := built
  obtain ⟨more, whole⟩ := longer
  refine ⟨route, ?_, same⟩
  rw [← whole, List.getElem?_append_left (List.getElem?_eq_some_iff.mp there).1]
  exact there

/-- What holds of the connection of an answer goes on to hold until it calls `clean_conn`. -/
theorem Gapless.stays {op : DnsStep} (gapless : s.Gapless) (agree : s.Agree)
    (done : s.step op = .ok t) {reply : RouteReply} (member : reply ∈ s.replies)
    (present : reply.session ∉ t.departed) :
    t.Live reply.fd reply.session ∧ reply.fd ∈ t.service.bookList.fds (requestMod reply.req) := by
  have before : reply.session ∉ s.departed := fun gone => present (step_departed done gone)
  obtain ⟨live, noted⟩ := gapless.staying reply member before
  rcases step_live agree done live with gone | stays
  · exact absurd gone present
  · exact ⟨stays.live, stays.noted _ noted⟩

/-- Steps that answer nothing and publish nothing. -/
theorem Gapless.carry {op : DnsStep} (gapless : s.Gapless) (agree : s.Agree)
    (done : s.step op = .ok t) (latest : t.history.getLast? = some t.service.route)
    (history : s.history <+: t.history) (rounds : t.rounds = s.rounds)
    (replies : t.replies = s.replies)
    (answering : ∀ worker fd req generation rsp,
      t.activity worker = some (.answering fd req generation rsp) →
        s.activity worker = some (.answering fd req generation rsp) ∧
          (t.session fd).id = (s.session fd).id) : t.Gapless where
  latest := latest
  current := by
    intro round member
    rw [rounds] at member
    exact (gapless.current round member).trans history.length_le
  kept := by
    rw [rounds]
    exact gapless.kept
  answering := by
    intro worker fd req generation rsp busy
    obtain ⟨before, same⟩ := answering worker fd req generation rsp busy
    obtain ⟨built, told⟩ := gapless.answering worker fd req generation rsp before
    rw [rounds, same]
    exact ⟨built.mono history, told⟩
  replied := by
    intro reply member
    rw [replies] at member
    obtain ⟨built, told⟩ := gapless.replied reply member
    rw [rounds]
    exact ⟨built.mono history, told⟩
  staying := by
    intro reply member
    rw [replies] at member
    exact gapless.stays agree done member

/-- A thread that goes on to anything but an answer leaves the answers of the others. -/
theorem answering_setActivity {next : Option Activity}
    (other : ∀ fd req generation rsp, next ≠ some (.answering fd req generation rsp))
    {w fd : Nat} {req : Proto.GetRouteRequest} {generation : Nat} {rsp : Proto.GetRouteResponse}
    (busy : (s.setActivity worker next).activity w = some (.answering fd req generation rsp)) :
    s.activity w = some (.answering fd req generation rsp) := by
  rcases setActivity_some busy with ⟨-, new⟩ | ⟨-, before⟩
  · exact absurd new (other fd req generation rsp)
  · exact before

/-- The hosts are looked up in the snapshot in place, which no round is ahead of. -/
theorem Gapless.getHosts (gapless : s.Gapless) (agree : s.Agree) {req : Proto.GetRouteRequest}
    (done : s.step (.getHosts worker) = .ok (s.setActivity worker
      (some (.answering fd req s.history.length (requestResponse req s.service.route))))) :
    (s.setActivity worker
      (some (.answering fd req s.history.length (requestResponse req s.service.route)))).Gapless where
  latest := gapless.latest
  current := gapless.current
  kept := gapless.kept
  answering := by
    intro w fd' req' generation rsp busy
    rcases setActivity_some busy with ⟨-, new⟩ | ⟨-, before⟩
    · cases new
      refine ⟨⟨s.service.route, ?_, rfl⟩, ?_⟩
      · have latest := gapless.latest
        rwa [List.getLast?_eq_getElem?] at latest
      -- no round has been published for a snapshot to come
      · exact fun round member _ _ => .inl (gapless.current round member)
    · exact gapless.answering w fd' req' generation rsp before
  replied := gapless.replied
  staying := fun reply member => gapless.stays agree done member

/-- By the time an answer is sent its connection is subscribed. -/
theorem Gapless.reply (gapless : s.Gapless) (agree : s.Agree) {req : Proto.GetRouteRequest}
    {generation : Nat} {rsp : Proto.GetRouteResponse} {accepted : Bool}
    (busy : s.activity worker = some (.answering fd req generation rsp))
    (done : s.step (.reply worker accepted) = .ok ({ s with
      replies := s.replies ++
        [(⟨(s.session fd).id, fd, req, generation, rsp, accepted⟩ : RouteReply)]
      }.setActivity worker none)) :
    Gapless ({ s with
      replies := s.replies ++
        [(⟨(s.session fd).id, fd, req, generation, rsp, accepted⟩ : RouteReply)]
      }.setActivity worker none) where
  latest := gapless.latest
  current := gapless.current
  kept := gapless.kept
  answering := fun w fd' req' generation' rsp' busy' =>
    gapless.answering w fd' req' generation' rsp' (answering_setActivity (by simp) busy')
  replied := by
    intro reply member
    rcases List.mem_append.mp member with before | new
    · exact gapless.replied reply before
    · rw [List.mem_singleton] at new
      subst new
      exact gapless.answering worker fd req generation rsp busy
  staying := by
    intro reply member present
    rcases List.mem_append.mp member with before | new
    · exact gapless.stays agree done before present
    · rw [List.mem_singleton] at new
      subst new
      have here : s.service.home fd = some worker := agree.own worker _ busy
      -- a repeated request skips `subscribe`: its module is noted from the first time
      have asked : requestMod req ∈ (s.session fd).subList := agree.asked worker _ busy
      have live : s.Live fd (s.session fd).id := ⟨rfl, worker, here, by simp [busy]⟩
      have idle : (s.setActivity worker none).Live fd (s.session fd).id :=
        live.setActivity worker (by simp)
      refine ⟨idle.frame rfl rfl rfl, (agree.booked fd _).mpr ?_⟩
      simp only [listed, here, busy, Activity.due]
      exact asked

/-- A round that is published now finds the subscriptions of all answers so far. -/
theorem Gapless.publish (gapless : s.Gapless) (agree : s.Agree) {changeMods : List UInt64}
    {service : Service} (taken : s.service.step (.publish changeMods) = .ok service)
    (done : s.step (.publish changeMods) = .ok { s with
      service := service
      rounds := s.rounds ++ [(⟨s.history.length, changeMods, s.service.published changeMods,
        s.departed, service.pushList⟩ : Round)] }) :
    Gapless { s with
      service := service
      rounds := s.rounds ++ [(⟨s.history.length, changeMods, s.service.published changeMods,
        s.departed, service.pushList⟩ : Round)] } := by
  have published : ∀ fd mod, mod ∈ changeMods → fd ∈ s.service.bookList.fds mod →
      (fd, mod) ∈ s.service.published changeMods := by
    intro fd mod changed booked
    exact List.mem_flatMap.mpr ⟨mod, changed, List.mem_map.mpr ⟨fd, booked, rfl⟩⟩
  refine ⟨?_, fun round member => ?_, fun round member pair => ?_,
    fun w fd req generation rsp busy => ?_, fun reply member => ?_,
    fun reply member => gapless.stays agree done member⟩
  · have route : service.route = s.service.route := by
      cases taken
      rfl
    dsimp only
    rw [route]
    exact gapless.latest
  · rcases List.mem_append.mp member with before | new
    · exact gapless.current round before
    · rw [List.mem_singleton] at new
      subst new
      exact le_rfl
  · rcases List.mem_append.mp member with before | new
    · exact gapless.kept round before pair
    · rw [List.mem_singleton] at new
      subst new
      exact fun noted => (publish_notes taken pair.1 pair.2).mpr (.inr noted)
  · obtain ⟨built, told⟩ := gapless.answering w fd req generation rsp busy
    refine ⟨built, fun round member => ?_⟩
    rcases List.mem_append.mp member with before | new
    · exact told round before
    · rw [List.mem_singleton] at new
      subst new
      intro changed _
      -- the answer is from an older snapshot perhaps, so the subscription has to be there
      refine .inr (published fd _ changed ((agree.booked fd _).mpr ?_))
      have here : s.service.home fd = some w := agree.own w _ busy
      simp only [listed, here]
      rw [show s.activity w = _ from busy]
      exact agree.asked w _ busy
  · obtain ⟨built, told⟩ := gapless.replied reply member
    refine ⟨built, fun round member' => ?_⟩
    rcases List.mem_append.mp member' with before | new
    · exact told round before
    · rw [List.mem_singleton] at new
      subst new
      intro changed present
      exact .inr (published _ _ changed (gapless.staying reply member present).2)

theorem service_route {s t : Service} {op : ServiceStep} (done : s.step op = .ok t)
    (other : ∀ route, op ≠ .swapRoute route) : t.route = s.route := by
  cases op with
  | swapRoute route => exact absurd rfl (other route)
  | close | subscribe | unsubscribe | publish =>
    cases done
    rfl
  | accept fd worker =>
    simp only [Service.step] at done
    split at done <;> cases done <;> rfl
  | copy worker todo =>
    simp only [Service.step] at done
    split at done <;> cases done <;> rfl
  | send worker =>
    simp only [Service.step] at done
    split at done
    · split at done <;> cases done <;> rfl
    · cases done
      rfl
  | erase worker =>
    simp only [Service.step] at done
    split at done <;> cases done <;> rfl

theorem step_gapless (s : DnsServer) (op : DnsStep) (t : DnsServer)
    (inv : s.Agree ∧ s.Gapless) (done : s.step op = .ok t) : t.Agree ∧ t.Gapless := by
  refine ⟨step_agree s op t inv.1 done, ?_⟩
  obtain ⟨agree, gapless⟩ := inv
  have unmoved : ∀ {op : ServiceStep} {service : Service}, s.service.step op = .ok service →
      (∀ route, op ≠ .swapRoute route) → s.history.getLast? = some service.route := by
    intro op service taken other
    rw [service_route taken other]
    exact gapless.latest
  rcases step_effect done with rfl | effect
  · exact gapless
  cases effect with
  | @accept fd worker free unused =>
    refine gapless.carry agree done gapless.latest (List.prefix_refl _) rfl rfl ?_
    intro w fd' req generation rsp busy
    refine ⟨busy, ?_⟩
    have apart : fd' ≠ fd := by
      rintro rfl
      have here : s.service.home fd' = some w := agree.own w _ busy
      rw [unused] at here
      cases here
    simp [Function.update_of_ne apart]
  | again | subscribe | unsubscribe | cleanConn | closed =>
    -- the thread turns to something that is no answer
    refine gapless.carry agree done gapless.latest (List.prefix_refl _) rfl rfl ?_
    intro w fd' req generation rsp busy
    exact ⟨answering_setActivity (by simp) busy, rfl⟩
  | @first fd worker req here free new =>
    refine gapless.carry agree done gapless.latest (List.prefix_refl _) rfl rfl ?_
    intro w fd' req generation rsp busy
    refine ⟨answering_setActivity (by simp) busy, ?_⟩
    by_cases same : fd' = fd
    · subst same
      simp [DnsServer.setActivity]
    · simp [DnsServer.setActivity, Function.update_of_ne same]
  | getHosts busy => exact gapless.getHosts agree done
  | reply busy => exact gapless.reply agree busy done
  | swap route =>
    -- the new snapshot is the last of the history by now
    refine gapless.carry agree done (by simp) (List.prefix_append _ _) rfl rfl ?_
    exact fun _ _ _ _ _ busy => ⟨busy, rfl⟩
  | publish taken => exact gapless.publish agree taken done
  | copy _ taken | send taken | erase taken =>
    refine gapless.carry agree done (unmoved taken (by simp)) (List.prefix_refl _) rfl rfl ?_
    exact fun _ _ _ _ _ busy => ⟨busy, rfl⟩

/-! ### Main result -/

/-- For every answer that has been sent and every round that has been published for its module,
unless the connection had called `clean_conn` by then: the answer was built from the snapshot that
the round has announced or a later one, or the round has noted the connection for a push, and
`_push_list` had the module for it when the round had finished. -/
theorem answered_or_noted (route : Route) (ops : List DnsStep) :
    Run.Always step (fun s => ∀ reply ∈ s.replies, ∀ round ∈ s.rounds,
      requestMod reply.req ∈ round.changeMods → reply.session ∉ round.departed →
        (∃ route ∈ s.history.drop (round.generation - 1),
          reply.rsp = requestResponse reply.req route) ∨
        ((reply.fd, requestMod reply.req) ∈ round.noted ∧
          requestMod reply.req ∈ round.pushList.of reply.fd)) (init route) ops := by
  have always : Run.Always step (fun s => s.Agree ∧ s.Gapless) (init route) ops :=
    Run.always_of_preserved step_gapless ⟨Agree.init route, Gapless.init route⟩
  refine always.mono fun s inv reply answered round published changed present => ?_
  obtain ⟨⟨later, there, same⟩, told⟩ := inv.2.replied reply answered
  rcases told round published changed present with ahead | noted
  · refine .inl ⟨later, ?_, same⟩
    apply List.mem_of_getElem? (i := reply.generation - 1 - (round.generation - 1))
    rw [List.getElem?_drop, ← there]
    congr 1
    omega
  · exact .inr ⟨noted, inv.2.kept round published _ noted⟩

private def oneHost : Route := .init ⟨[⟨0, 1, 10, 80⟩], 0, []⟩

private def twoHosts : Route := .init ⟨[⟨0, 1, 10, 80⟩, ⟨0, 1, 20, 80⟩], 1, []⟩

/-- The new snapshot comes in place while the answer is built from the old one, so it is the round
that has to note the connection. -/
example : ∃ s reply round, Run.run step (init oneHost)
      [.accept 5 0, .request 5 ⟨0, 1⟩, .subscribe 0, .getHosts 0, .swap twoHosts, .reply 0 true,
        .publish [1]] = .ok s ∧
    s.replies = [reply] ∧ s.rounds = [round] ∧ reply.rsp.host = [⟨10, 80⟩] ∧
    s.history.drop (round.generation - 1) = [twoHosts] ∧ round.noted = [(5, 1)] ∧
    round.pushList.of 5 = [1] :=
  ⟨_, _, _, rfl, rfl, rfl, by decide, rfl, by decide, by decide⟩

end Lars.Dns.DnsServer
