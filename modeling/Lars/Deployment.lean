import Lars.Agent.Holding
import Lars.Dns.Timeline

/-!
# Agents and their DNS

Any number of agents, each with the one connection that it makes in its life,
and the DNS they are connected to. A connection keeps the order of its messages;
what is under way when it ends is lost. The calls of the APIs come to the agents
at any time, the tables of the DNS change at any time.
-/
namespace Lars

open Agent (Config LbAgent LbAgentStep LoadBalance shardOf)
open Dns (DnsServer DnsStep Route requestMod pushResponse requestResponse)
open Dns.DnsServer (Telling Timeline Traced Settling FromSnapshot answers_itself)

/-- The last of the messages about a module. -/
def lastAbout (key : UInt64) (ms : List Telling) : Option Telling :=
  (ms.filter (·.key = key)).getLast?

structure Deployment where
  dns : Timeline
  agent : Nat → LbAgent
  /-- The number of the agent's connection, once the DNS has accepted it. -/
  session : Nat → Option Nat
  /-- What `send_message` has taken for the agent and the agent has not read. -/
  mail : Nat → List Telling
  /-- What the agent has read. -/
  read : Nat → List Telling

inductive Event where
  /-- A step of an agent, the calls of its APIs among them. -/
  | agent (a : Nat) (op : LbAgentStep)
  | accept (a fd worker : Nat)
  /-- The DNS reads a request from the connection of an agent. -/
  | request (a fd : Nat) (req : Proto.GetRouteRequest)
  /-- Any other step of the DNS. -/
  | dns (op : DnsStep)

namespace Deployment

def init (route : Route) : Deployment :=
  ⟨.init route, fun _ => .init, fun _ => none, fun _ => [], fun _ => []⟩

/-- Those of the messages that go to an agent. -/
def inbox (session : Option Nat) (ms : List Telling) : List Telling :=
  ms.filter fun m => session = some m.session

/-- An agent that has given up its connection gets nothing more. -/
def deliver (ms : List Telling) (d : Deployment) : Deployment :=
  { d with
    agent := fun a =>
      if (d.agent a).conn = .dead then d.agent a
      else { d.agent a with
        responses := (d.agent a).responses ++ (inbox (d.session a) ms).map (·.rsp) }
    mail := fun a =>
      if (d.agent a).conn = .dead then d.mail a else d.mail a ++ inbox (d.session a) ms }

/-- What the DNS reads next from an agent. What was in transit when the agent gave up may arrive
or not. -/
def Arrives (s : LbAgent) (req : Proto.GetRouteRequest) : Prop :=
  s.requests.head? = some req ∨ s.conn = .dead

instance (s : LbAgent) (req : Proto.GetRouteRequest) : Decidable (Arrives s req) :=
  inferInstanceAs (Decidable (_ ∨ _))

/-- The messages that a step of the agent reads to their end. -/
def newlyRead (s : LbAgent) (op : LbAgentStep) (mail : List Telling) : List Telling :=
  mail.take (s.takes op).toList.length

/-- The messages that a step of the agent leaves in transit. -/
def stillUnderWay (s t : LbAgent) (mail : List Telling) : List Telling :=
  mail.drop (s.responses.length - t.responses.length)

def step (cfg : Config) (d : Deployment) (event : Event) : Except Fault Deployment :=
  match event with
  | .agent a op =>
    if LbAgent.byDns op then .ok d
    else ((d.agent a).step cfg op).map fun next =>
      { d with
        agent := Function.update d.agent a next
        mail := Function.update d.mail a (stillUnderWay (d.agent a) next (d.mail a))
        read := Function.update d.read a (d.read a ++ newlyRead (d.agent a) op (d.mail a)) }
  | .accept a fd worker =>
    if d.session a = none ∧ (d.agent a).conn ≠ .absent ∧ d.dns.server.Free worker ∧
        d.dns.server.service.home fd = none then
      (d.dns.step (.accept fd worker)).map fun dns =>
        { d with
          dns := dns
          session := Function.update d.session a (some d.dns.server.nextSession) }
    else .ok d
  | .request a fd req =>
    match d.dns.server.service.home fd with
    | some worker =>
      if d.dns.server.Free worker ∧ d.session a = some (d.dns.server.session fd).id ∧
          Arrives (d.agent a) req then
        (d.dns.step (.request fd req)).map fun dns =>
          { d with
            dns := dns
            agent := Function.update d.agent a
              { d.agent a with requests := (d.agent a).requests.tail } }
      else .ok d
    | none => .ok d
  | .dns op =>
    match op with
    | .accept .. | .request .. => .ok d
    | op => (d.dns.step op).map fun dns => { d with dns := dns }.deliver (d.dns.server.tells op)

/-! ### One agent -/

theorem lastAbout_append (key : UInt64) (ms : List Telling) (m : Telling) :
    lastAbout key (ms ++ [m]) = if m.key = key then some m else lastAbout key ms := by
  unfold lastAbout
  by_cases same : m.key = key
  · simp [List.filter_append, same]
  · simp [List.filter_append, same]

/-- The last answers, as the agent has read them. -/
def latest (read : List Telling) (key : UInt64) : Option Proto.GetRouteResponse :=
  (lastAbout key read).map (·.rsp)

theorem latest_append (read : List Telling) (m : Telling) :
    latest (read ++ [m]) = LbAgent.learn (some m.rsp) (latest read) := by
  funext key
  rw [latest, lastAbout_append, LbAgent.learn]
  by_cases same : m.key = key
  · subst same
    rw [if_pos rfl, Telling.key, Function.update_self, Option.map_some]
  · rw [if_neg same, Function.update_of_ne]
    · rfl
    · exact Ne.symm same

/-- An agent and what it is told: `told` is everything that the DNS has sent to anybody. -/
structure Served (session : Option Nat) (told : List Telling) (s : LbAgent)
    (mail read : List Telling) : Prop where
  arriving : s.responses = mail.map (·.rsp)
  addressed : ∀ m ∈ read ++ mail, session = some m.session
  inOrder : (read ++ mail).Sublist told
  holds : s.Holds (latest read)

variable {cfg : Config} {session : Option Nat} {told mail read : List Telling} {s t : LbAgent}

theorem Served.init : Served none [] LbAgent.init [] [] :=
  ⟨rfl, fun _ member => absurd member List.not_mem_nil, List.Sublist.refl _, LbAgent.Holds.init _⟩

theorem Served.step (served : Served session told s mail read) {op : LbAgentStep}
    (own : LbAgent.byDns op = false) (done : s.step cfg op = .ok t) :
    Served session told t (stillUnderWay s t mail) (read ++ newlyRead s op mail) := by
  have holds := LbAgent.step_holds served.holds done
  rcases LbAgent.step_responses own done with ⟨rsp, taken, oldest, -⟩ | ⟨nothing, kept⟩
  · -- the oldest message goes from the one list to the other
    have count : s.responses.length - t.responses.length = 1 := by
      rw [oldest, List.length_cons]
      omega
    rw [served.arriving] at oldest
    obtain ⟨m, rest, rfl, rfl, later⟩ := List.map_eq_cons_iff.mp oldest
    have both : (read ++ [m]) ++ rest = read ++ m :: rest := by simp
    rw [taken] at holds
    rw [newlyRead, stillUnderWay, taken, count]
    refine ⟨later.symm, ?_, ?_, ?_⟩
    · exact fun m' member => served.addressed m' (both ▸ member)
    · exact both ▸ served.inOrder
    · exact (latest_append read m).symm ▸ holds
  · have none : newlyRead s op mail = [] := by
      rw [newlyRead, nothing]
      rfl
    rw [nothing] at holds
    rw [none, List.append_nil]
    have rest : t.responses = (stillUnderWay s t mail).map (·.rsp) := by
      rcases kept with ⟨same, -⟩ | ⟨lost, -⟩
      · rw [stillUnderWay, same, Nat.sub_self, List.drop_zero, served.arriving]
      · rw [stillUnderWay, lost, served.arriving, List.length_map, List.length_nil, Nat.sub_zero,
          List.drop_length, List.map_nil]
    have fewer : (read ++ stillUnderWay s t mail).Sublist (read ++ mail) :=
      (List.Sublist.refl read).append (List.drop_sublist _ mail)
    exact ⟨rest, fun m member => served.addressed m (fewer.subset member),
      fewer.trans served.inOrder, holds⟩

/-- More is told, and some of it to the agent. -/
theorem Served.deliver (served : Served session told s mail read) (ms : List Telling) :
    Served session (told ++ ms)
      { s with responses := s.responses ++ (inbox session ms).map (·.rsp) }
      (mail ++ inbox session ms) read where
  arriving := by rw [List.map_append, served.arriving]
  addressed := by
    intro m member
    rw [← List.append_assoc] at member
    rcases List.mem_append.mp member with before | new
    · exact served.addressed m before
    · exact of_decide_eq_true (List.mem_filter.mp new).2
  inOrder := by
    rw [← List.append_assoc]
    exact served.inOrder.append List.filter_sublist
  holds := served.holds.pass rfl

theorem Served.elsewhere (served : Served session told s mail read) (sent : List Telling) :
    Served session (told ++ sent) s mail read :=
  ⟨served.arriving, served.addressed, served.inOrder.trans (List.sublist_append_left _ _),
    served.holds⟩

/-- An agent whose connection is not accepted yet was told nothing. -/
theorem Served.nothing (served : Served none told s mail read) : read ++ mail = [] := by
  apply List.eq_nil_iff_forall_not_mem.mpr
  intro m member
  cases served.addressed m member

theorem Served.accept (served : Served none told s mail read) (id : Nat) :
    Served (some id) told s mail read :=
  ⟨served.arriving, by simp [served.nothing], served.inOrder, served.holds⟩

/-! ### All together -/

/-- The DNS tells its connections in order, and every agent gets what its connection is told. -/
structure Linked (d : Deployment) : Prop where
  traced : Traced d.dns
  served : ∀ a, Served (d.session a) d.dns.told (d.agent a) (d.mail a) (d.read a)

theorem Linked.init (route : Route) : Linked (.init route) :=
  ⟨Traced.init route, fun _ => Served.init⟩

variable {d d' : Deployment}

theorem told_step {x y : Timeline} {op : DnsStep} (taken : x.step op = .ok y) :
    y.told = x.told ++ x.server.tells op := by
  obtain ⟨server, -, rfl⟩ := map_ok_inv taken
  rfl

/-- The ways in which an event changes the deployment. -/
inductive Effect (cfg : Config) (d : Deployment) : Event → Deployment → Prop
  | agent {a : Nat} {op : LbAgentStep} {next : LbAgent} (own : LbAgent.byDns op = false)
      (done : (d.agent a).step cfg op = .ok next) :
    Effect cfg d (.agent a op) { d with
      agent := Function.update d.agent a next
      mail := Function.update d.mail a (stillUnderWay (d.agent a) next (d.mail a))
      read := Function.update d.read a (d.read a ++ newlyRead (d.agent a) op (d.mail a)) }
  | accept {a fd worker : Nat} {dns : Timeline} (new : d.session a = none)
      (free : d.dns.server.Free worker) (unused : d.dns.server.service.home fd = none)
      (done : d.dns.step (.accept fd worker) = .ok dns) :
    Effect cfg d (.accept a fd worker) { d with
      dns := dns
      session := Function.update d.session a (some d.dns.server.nextSession) }
  | request {a fd : Nat} {req : Proto.GetRouteRequest} {dns : Timeline}
      (done : d.dns.step (.request fd req) = .ok dns) :
    Effect cfg d (.request a fd req) { d with
      dns := dns
      agent := Function.update d.agent a
        { d.agent a with requests := (d.agent a).requests.tail } }
  | dns {op : DnsStep} {dns : Timeline} (other : ∀ fd worker, op ≠ .accept fd worker)
      (done : d.dns.step op = .ok dns) :
    Effect cfg d (.dns op) ({ d with dns := dns }.deliver (d.dns.server.tells op))

theorem step_effect {event : Event} (done : d.step cfg event = .ok d') :
    d' = d ∨ Effect cfg d event d' := by
  cases event with
  | agent a op =>
    simp only [step] at done
    split at done
    · cases done
      exact .inl rfl
    next own =>
      obtain ⟨next, stepped, rfl⟩ := map_ok_inv done
      exact .inr (.agent (Bool.eq_false_iff.mpr own) stepped)
  | accept a fd worker =>
    simp only [step] at done
    split at done
    next able =>
      obtain ⟨dns, stepped, rfl⟩ := map_ok_inv done
      exact .inr (.accept able.1 able.2.2.1 able.2.2.2 stepped)
    · cases done
      exact .inl rfl
  | request a fd req =>
    simp only [step] at done
    split at done
    · split at done
      · obtain ⟨dns, stepped, rfl⟩ := map_ok_inv done
        exact .inr (.request stepped)
      · cases done
        exact .inl rfl
    · cases done
      exact .inl rfl
  | dns op =>
    simp only [step] at done
    split at done
    · cases done
      exact .inl rfl
    · cases done
      exact .inl rfl
    next others _ =>
      obtain ⟨dns, stepped, rfl⟩ := map_ok_inv done
      exact .inr (.dns others stepped)

theorem step_linked (d : Deployment) (event : Event) (d' : Deployment) (linked : Linked d)
    (done : d.step cfg event = .ok d') : Linked d' := by
  rcases step_effect done with rfl | effect
  · exact linked
  cases effect with
  | @agent a op next own stepped =>
    refine ⟨linked.traced, fun b => ?_⟩
    by_cases same : b = a
    · subst same
      simpa only [Function.update_self] using (linked.served b).step own stepped
    · simpa only [Function.update_of_ne same] using linked.served b
  | @accept a fd worker dns new free unused stepped =>
    refine ⟨Dns.DnsServer.step_traced _ _ _ linked.traced stepped, fun b => ?_⟩
    rw [told_step stepped]
    apply Served.elsewhere
    by_cases same : b = a
    · subst same
      have served := linked.served b
      rw [new] at served
      simpa only [Function.update_self] using served.accept d.dns.server.nextSession
    · simpa only [Function.update_of_ne same] using linked.served b
  | @request a fd req dns stepped =>
    refine ⟨Dns.DnsServer.step_traced _ _ _ linked.traced stepped, fun b => ?_⟩
    rw [told_step stepped]
    apply Served.elsewhere
    by_cases same : b = a
    · subst same
      have served := linked.served b
      simp only [Function.update_self]
      exact ⟨served.arriving, served.addressed, served.inOrder, served.holds.pass rfl⟩
    · simpa only [Function.update_of_ne same] using linked.served b
  | dns other stepped =>
    refine ⟨Dns.DnsServer.step_traced _ _ _ linked.traced stepped, fun b => ?_⟩
    simp only [deliver]
    rw [told_step stepped]
    split
    · exact (linked.served b).elsewhere _
    · exact (linked.served b).deliver _

/-! ### From the tables to the API -/

/-- The agent has its hosts from the snapshots of the DNS and does not go back to an older one. -/
structure Follows (cfg : Config) (a : Nat) (d : Deployment) : Prop where
  forward : (d.read a).Pairwise fun m m' => m.generation ≤ m'.generation
  hosts : ∀ i key lb, ((d.agent a).rLb i).lbs.lookup key = some lb → lb.empty = true ∨
    ∃ m, lastAbout key (d.read a) = some m ∧ d.dns.server.FromSnapshot m ∧ lb.Carries m.rsp
  given : ∀ i now modid cmdid rsp reply,
    ((d.agent a).rLb i).getHost cfg now modid cmdid rsp = .ok reply →
      reply.rsp.retcode = Proto.retSucc → ∃ m snapshot h,
        lastAbout (packKey modid cmdid) (d.read a) = some m ∧
        d.dns.server.history[m.generation - 1]? = some snapshot ∧
        h ∈ (requestResponse ⟨modid, cmdid⟩ snapshot).host ∧ reply.rsp.host = some h

theorem mem_of_lastAbout {key : UInt64} {ms : List Telling} {m : Telling}
    (last : lastAbout key ms = some m) : m ∈ ms ∧ m.key = key := by
  obtain ⟨member, about⟩ := List.mem_filter.mp (List.mem_of_getLast? last)
  exact ⟨member, of_decide_eq_true about⟩

theorem Linked.hosts (linked : Linked d) {a : Nat} {i : Fin 3} {key : UInt64} {lb : LoadBalance}
    (found : ((d.agent a).rLb i).lbs.lookup key = some lb) : lb.empty = true ∨
      ∃ m, lastAbout key (d.read a) = some m ∧ d.dns.server.FromSnapshot m ∧ lb.Carries m.rsp := by
  have served := linked.served a
  rcases (served.holds i key lb found).2 with none | ⟨rsp, known, -, -, carries⟩
  · exact .inl none
  · obtain ⟨m, last, rfl⟩ := Option.map_eq_some_iff.mp known
    have told := served.inOrder.subset (List.mem_append_left _ (mem_of_lastAbout last).1)
    exact .inr ⟨m, last, linked.traced.inOrder.built m told, carries⟩

theorem Linked.follows (linked : Linked d) (a : Nat) : d.Follows cfg a where
  forward := by
    have served := linked.served a
    have mine : (d.read a).Sublist d.dns.told :=
      (List.sublist_append_left _ _).trans served.inOrder
    apply (linked.traced.inOrder.order.sublist mine).imp_of_mem
    intro m m' first second order
    have same := (served.addressed m (List.mem_append_left _ first)).symm.trans
      (served.addressed m' (List.mem_append_left _ second))
    exact order (Option.some.inj same)
  hosts := fun _ _ _ => linked.hosts
  given := by
    intro i now modid cmdid rsp reply done success
    have sound lb (found : ((d.agent a).rLb i).lbs.lookup (packKey modid cmdid) = some lb) :=
      ((linked.served a).holds i _ lb found).1
    obtain ⟨lb, h, found, hosts, given, serves⟩ := Agent.RouteLb.getHost_given sound done success
    rcases linked.hosts found with none | ⟨m, last, built, carries⟩
    · rw [hosts] at none
      cases none
    · obtain ⟨snapshot, there, answer⟩ := answers_itself built
      obtain ⟨modid', cmdid'⟩ := packKey_inj (mem_of_lastAbout last).2
      obtain ⟨h', member, same⟩ := List.mem_map.mp ((carries h.key).mp serves).1
      rw [answer, modid', cmdid', Proto.HostInfo.key_inj same] at member
      exact ⟨m, snapshot, h, last, there, member, given⟩

/-- Whatever the order in which agents, DNS and the tables take their steps: an agent has the hosts
of a module from the last message it has read about it, each message has the hosts of the module in
a snapshot of the DNS, a later one in no older snapshot, and a host that `get_host` gives out is
one of them. -/
theorem agents_follow_dns (cfg : Config) (route : Route) (events : List Event) :
    Run.Always (step cfg) (fun d => ∀ a, d.Follows cfg a) (.init route) events :=
  (Run.always_of_preserved step_linked (Linked.init route)).mono fun _ linked => linked.follows

/-! ### Nothing on its way -/

/-- Only connections that were accepted are told anything. -/
def Issued (x : Timeline) : Prop := ∀ m ∈ x.told, m.session < x.server.nextSession

/-- The condition on an event: the DNS publishes nothing into an entry that a task is about to
erase, and no push is refused. -/
def Delivers (d : Deployment) : Event → Prop
  | .dns op => d.dns.server.PublishesApart op ∧ d.dns.server.PushesTaken op
  | _ => True

/-- An agent that has not given up its connection has got, or is getting, all that it was told. -/
structure Current (d : Deployment) : Prop where
  linked : Linked d
  settling : Settling d.dns
  issued : Issued d.dns
  complete : ∀ a id, d.session a = some id → (d.agent a).conn ≠ .dead →
    d.read a ++ d.mail a = inbox (some id) d.dns.told

theorem Current.init (route : Route) : Current (.init route) where
  linked := Linked.init route
  settling := Settling.init route
  issued := fun _ member => absurd member List.not_mem_nil
  complete := fun _ _ accepted => by cases accepted

theorem Current.agent (current : Current d) {a : Nat} {op : LbAgentStep} {next : LbAgent}
    (own : LbAgent.byDns op = false) (done : (d.agent a).step cfg op = .ok next) {id : Nat}
    (accepted : d.session a = some id) (alive : next.conn ≠ .dead) :
    d.read a ++ newlyRead (d.agent a) op (d.mail a) ++ stillUnderWay (d.agent a) next (d.mail a) =
      inbox (some id) d.dns.told := by
  rcases LbAgent.step_responses own done with ⟨rsp, taken, oldest, -⟩ | ⟨nothing, kept⟩
  · have before : (d.agent a).conn ≠ .dead := by
      intro dead
      unfold LbAgent.takes at taken
      split at taken
      · simp [dead] at taken
      · cases taken
    have count : (rsp :: next.responses).length - next.responses.length = 1 := by simp
    rw [← current.complete a id accepted before, newlyRead, stillUnderWay, taken, oldest, count,
      List.append_assoc]
    exact congrArg _ (List.take_append_drop 1 (d.mail a))
  · rcases kept with ⟨same, dead⟩ | ⟨-, dead⟩
    · rw [← current.complete a id accepted fun before => alive (dead before), newlyRead,
        stillUnderWay, nothing, same]
      simp
    · exact absurd dead alive

/-- What the agent was told last about a module is the last message to its connection that names
the module. -/
theorem lastAbout_inbox (x : Timeline) (id : Nat) (key : UInt64) :
    lastAbout key (inbox (some id) x.told) = x.lastTold id key := by
  rw [lastAbout, Timeline.lastTold, inbox, List.filter_filter]
  congr 1
  apply List.filter_congr
  intro m _
  rw [← Bool.decide_and, decide_eq_decide, Option.some.injEq, and_comm, eq_comm (a := id)]

/-- With no push pending and all mail read, a load balancer that has hosts has those of a snapshot
that is not older than any round for its module. -/
theorem Current.carries (current : Current d) (rest : d.dns.server.AtRest) {a : Nat}
    {reply : Dns.RouteReply} (mine : d.session a = some reply.session)
    (alive : (d.agent a).conn ≠ .dead) (present : reply.session ∉ d.dns.server.departed)
    (empty : d.mail a = []) (answered : reply ∈ d.dns.server.replies)
    (accepted : reply.accepted = true) (positive : 0 ≤ reply.req.cmdid.toInt) {i : Fin 3}
    {lb : LoadBalance}
    (found : ((d.agent a).rLb i).lbs.lookup (requestMod reply.req) = some lb) :
    lb.empty = true ∨ ∃ generation snapshot,
      (∀ round ∈ d.dns.server.rounds, requestMod reply.req ∈ round.changeMods →
        round.generation ≤ generation) ∧
      d.dns.server.history[generation - 1]? = some snapshot ∧
      lb.Carries (requestResponse reply.req snapshot) := by
  rcases current.linked.hosts found with none | ⟨m, last, built, carries⟩
  · exact .inl none
  right
  obtain ⟨snapshot, there, answer⟩ := answers_itself built
  obtain ⟨modid, cmdid⟩ := packKey_inj (mem_of_lastAbout last).2
  rw [modid, cmdid] at answer
  refine ⟨m.generation, snapshot, fun round member changed => ?_, there, answer ▸ carries⟩
  -- the message that the agent has read last is the one that the DNS has sent last
  have all := current.complete a _ mine alive
  rw [empty, List.append_nil] at all
  rw [all, lastAbout_inbox] at last
  obtain ⟨m', -, told, ahead, -⟩ :=
    current.settling.told_latest rest answered accepted present positive member changed
  rw [last, Option.some.injEq] at told
  rw [told]
  exact ahead

/-- An agent reads a message that is not too long. -/
theorem step_read {a : Nat} {now : Int} {ts : Nat → Int} {m : Telling} {mail : List Telling}
    {rest : List Proto.GetRouteResponse} {next : LbAgent} (live : (d.agent a).conn = .live)
    (there : d.mail a = m :: mail) (arriving : (d.agent a).responses = m.rsp :: rest)
    (few : m.rsp.host.length ≤ 100)
    (dealt : { d.agent a with responses := rest }.dealRecvRoute cfg now ts m.rsp = .ok next)
    (after : next.responses = rest) :
    d.step cfg (.agent a (.read now ts)) = .ok { d with
      agent := Function.update d.agent a next
      mail := Function.update d.mail a mail
      read := Function.update d.read a (d.read a ++ [m]) } := by
  have stepped : (d.agent a).step cfg (.read now ts) = .ok next :=
    (LbAgent.step_read live arriving few now ts).trans dealt
  have taken : (d.agent a).takes (.read now ts) = some m.rsp := by
    simp only [LbAgent.takes, live, arriving, LbAgent.short_response few, ↓reduceIte]
  have count : (m.rsp :: rest).length - rest.length = 1 := by simp
  simp only [step, LbAgent.byDns, Bool.false_eq_true, ↓reduceIte, stepped, Except.map, newlyRead,
    stillUnderWay, taken, there, arriving, after, count]
  rfl

private def older : Route := .init ⟨[⟨1, 1, 10, 80⟩], 0, []⟩

private def newer : Route := .init ⟨[⟨1, 1, 10, 80⟩, ⟨1, 1, 20, 80⟩], 1, []⟩

/-- An agent asks for module 1, command 1. A second host comes in and the module is pushed. -/
private def joinAndPush : List Event :=
  [.agent 0 (.connect true), .accept 0 5 0, .agent 0 (.getHost (.last 2) 0 1 1 ⟨0, 1, 1, 0, none⟩),
    .agent 0 (.newDnsRequest [⟨1, 1⟩]), .agent 0 .write, .request 0 5 ⟨1, 1⟩,
    .dns (.subscribe 0), .dns (.getHosts 0), .dns (.reply 0 true), .dns (.swap newer),
    .dns (.publish [packKey 1 1]), .dns (.copy 0 [(5, packKey 1 1)]), .dns (.send 0 true),
    .dns (.erase 0)]

private def pushed : Deployment :=
  match Run.run (step .default) (.init older) joinAndPush with
  | .ok d => d
  | .error _ => .init older

end Deployment

end Lars
