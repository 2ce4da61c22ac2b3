import Lars.Agent.DnsClient
import Lars.Agent.Serving

/-!
# What an agent has from the DNS

A load balancer has hosts because an answer has named them. Whatever calls come
in between, and also where stale entries are about, it goes on with the hosts of
the last answer that the client has read for the module.
-/
namespace Lars.Agent

open LoadBalance (Sound Alike)
open Reactor (messageLengthLimit)

namespace LoadBalance

variable {lb lb' : LoadBalance}

/-- The hosts of the answer are handed out, those with a stale entry apart. -/
def Carries (rsp : Proto.GetRouteResponse) (lb : LoadBalance) : Prop :=
  ∀ k, lb.Serves k ↔ k ∈ rsp.host.map Proto.HostInfo.key ∧ ¬ lb.Stale k

theorem Alike.carries {rsp : Proto.GetRouteResponse} (alike : Alike lb lb')
    (carries : lb.Carries rsp) : lb'.Carries rsp := by
  intro k
  rw [alike.serves, alike.stale]
  exact carries k

theorem Alike.empty (alike : Alike lb lb') : lb'.empty = lb.empty := by
  rw [LoadBalance.empty, alike.map]
  rfl

/-- After an answer that was taken in, what is handed out is from this answer. -/
theorem update_carries (sound : Sound lb) {cfg : Config} {now : Int} {ts : Nat → Int}
    {rsp : Proto.GetRouteResponse} (done : lb.update cfg now ts rsp = .ok lb') :
    Sound lb' ∧ lb'.Carries rsp := by
  obtain ⟨sound', map, stale⟩ := update_returns sound done
  have members := (insertHosts_spec sound cfg ts 0 rsp.host).2.1
  refine ⟨sound', fun k => ?_⟩
  rw [sound'.serves_iff, map]
  constructor
  · rintro ⟨known, live⟩
    refine ⟨?_, live⟩
    -- an entry that the answer does not name would have been deleted
    by_contra unnamed
    exact live ((stale k).mpr (.inr ⟨known, unnamed⟩))
  · rintro ⟨named, live⟩
    exact ⟨(members k).mpr (.inr named), live⟩

end LoadBalance

/-! ### Calls of the API -/

namespace RouteLb

variable {s s' : RouteLb}

/-- Every load balancer of `s'` is without hosts or hands out what it did in `s`. -/
def Continues (s s' : RouteLb) : Prop :=
  ∀ key lb', s'.lbs.lookup key = some lb' → (Sound lb' ∧ lb'.empty = true) ∨
    ∃ lb, s.lbs.lookup key = some lb ∧ (Sound lb → Sound lb' ∧ LoadBalance.Alike lb lb')

theorem Continues.refl (s : RouteLb) : s.Continues s := by
  intro key lb found
  exact .inr ⟨lb, found, fun sound => ⟨sound, ⟨fun _ => Iff.rfl, fun _ => Iff.rfl, rfl⟩⟩⟩

/-- One load balancer is replaced. -/
theorem Continues.insert {key : UInt64} {lb' : LoadBalance}
    (replaced : (Sound lb' ∧ lb'.empty = true) ∨
      ∃ lb, s.lbs.lookup key = some lb ∧ (Sound lb → Sound lb' ∧ LoadBalance.Alike lb lb')) :
    s.Continues ⟨s.lbs.insert key lb'⟩ := by
  intro other lb found
  by_cases same : other = key
  · subst same
    rw [AList.lookup_insert, Option.some.injEq] at found
    exact found ▸ replaced
  · rw [AList.lookup_insert_ne same] at found
    exact Continues.refl s other lb found

theorem pullNew_continues (now : Int) (modid cmdid : Int32) :
    s.Continues (s.pullNew now modid cmdid).1 :=
  .insert (.inl ⟨(Sound.init modid cmdid now).mark .pulling now, rfl⟩)

variable {cfg : Config} {now : Int} {modid cmdid : Int32}

theorem getHost_continues {rsp : Proto.GetHostResponse} {reply : Reply Proto.GetHostResponse}
    (done : s.getHost cfg now modid cmdid rsp = .ok reply) : s.Continues reply.next := by
  unfold getHost at done
  split at done
  next lb found =>
    split at done
    · cases done
      exact .refl s
    · split at done
      · cases done
      next ret host mid chose =>
        cases done
        refine .insert (.inr ⟨lb, found, fun sound => ?_⟩)
        have chosen := LoadBalance.choiceOneHost_spec sound cfg chose
        obtain ⟨sound', pulled⟩ := pullIfOld_alike cfg now chosen.sound
        exact ⟨sound', Alike.trans (chosen.retains.alike sound chosen.sound) pulled⟩
  next =>
    cases done
    exact pullNew_continues now modid cmdid

/-- `get_host` succeeds only with a host that its load balancer hands out. -/
theorem getHost_given {rsp : Proto.GetHostResponse} {reply : Reply Proto.GetHostResponse}
    (sound : ∀ lb, s.lbs.lookup (packKey modid cmdid) = some lb → Sound lb)
    (done : s.getHost cfg now modid cmdid rsp = .ok reply)
    (success : reply.rsp.retcode = Proto.retSucc) :
    ∃ lb h, s.lbs.lookup (packKey modid cmdid) = some lb ∧ lb.empty = false ∧
      reply.rsp.host = some h ∧ lb.Serves h.key := by
  unfold getHost at done
  split at done
  next lb found =>
    split at done
    · cases done
      cases success
    next hosts =>
      split at done
      · cases done
      next ret host mid chose =>
        cases done
        have chosen := LoadBalance.choiceOneHost_spec (sound lb found) cfg chose
        obtain ⟨h, given⟩ := Option.isSome_iff_exists.mp (chosen.given success)
        exact ⟨lb, h, found, Bool.eq_false_iff.mpr hosts, by simp [given], chosen.served h given⟩
  next =>
    cases done
    cases success

theorem getRoute_continues {rsp : Proto.GetRouteResponse} {reply : Reply Proto.GetRouteResponse}
    (done : s.getRoute cfg now modid cmdid rsp = .ok reply) : s.Continues reply.next := by
  unfold getRoute at done
  split at done
  next lb found =>
    split at done
    · cases done
    · cases done
      exact .insert (.inr ⟨lb, found, pullIfOld_alike cfg now⟩)
  next =>
    cases done
    exact pullNew_continues now modid cmdid

theorem reportHost_continues {ts tc : Int} {req : Proto.ReportRequest}
    {reported : Option Proto.ReportStatusRequest × RouteLb}
    (done : s.reportHost cfg now ts tc req = .ok reported) : s.Continues reported.2 := by
  unfold reportHost at done
  split at done
  · cases done
    exact .refl s
  next lb found =>
    split at done
    · cases done
    next mid counted =>
      split at done
      · cases done
      · cases done
        refine .insert (.inr ⟨lb, found, fun sound => ?_⟩)
        have live : ¬ lb.Stale (packKey req.host.ip req.host.port) := by
          intro stale
          rw [LoadBalance.report_stale cfg now ts _ _ _ stale] at counted
          cases counted
        obtain ⟨lb'', same, sound', retains⟩ := LoadBalance.report_spec sound cfg now ts
          req.host.ip req.host.port req.retcode live
        rw [counted] at same
        cases same
        exact ⟨sound', retains.alike sound sound'⟩

theorem resetLbStatus_continues (s : RouteLb) : s.Continues s.resetLbStatus := by
  intro key lb' found
  obtain ⟨⟨key', lb⟩, inside, same⟩ := List.mem_map.mp (AList.mem_lookup_iff.mp found)
  cases same
  exact .inr ⟨lb, AList.mem_lookup_iff.mpr inside, fun sound =>
    ⟨sound.mark .new lb.lastUpdateTime, ⟨fun _ => Iff.rfl, fun _ => Iff.rfl, rfl⟩⟩⟩

/-- What an answer does to a load balancer of the table. -/
theorem updateHost_carries {ts : Nat → Int} {rsp : Proto.GetRouteResponse}
    (done : s.updateHost cfg now ts modid cmdid rsp = .ok s') {key : UInt64} {lb' : LoadBalance}
    (found : s'.lbs.lookup key = some lb') :
    ∃ lb, s.lbs.lookup key = some lb ∧ ((key ≠ packKey modid cmdid ∧ lb' = lb) ∨
      (key = packKey modid cmdid ∧ (Sound lb → Sound lb' ∧ lb'.Carries rsp))) := by
  unfold updateHost at done
  split at done
  next absent =>
    cases done
    refine ⟨lb', found, .inl ⟨?_, rfl⟩⟩
    rintro rfl
    rw [absent] at found
    cases found
  next lb before =>
    split at done
    · cases done
      by_cases same : key = packKey modid cmdid
      · subst same
        rw [AList.lookup_erase] at found
        cases found
      · rw [AList.lookup_erase_ne same] at found
        exact ⟨lb', found, .inl ⟨same, rfl⟩⟩
    · split at done
      next mid updated =>
        cases done
        by_cases same : key = packKey modid cmdid
        · subst same
          rw [AList.lookup_insert, Option.some.injEq] at found
          subst found
          exact ⟨lb, before, .inr ⟨rfl, fun sound => LoadBalance.update_carries sound updated⟩⟩
        · rw [AList.lookup_insert_ne same] at found
          exact ⟨lb', found, .inl ⟨same, rfl⟩⟩
      · cases done

end RouteLb

/-! ### Steps of the agent -/

namespace LbAgent

variable {s t : LbAgent} {cfg : Config} {op : LbAgentStep}

/-- The answer that a step reads and hands on; one beyond the limit of the head test is not. -/
def takes (s : LbAgent) : LbAgentStep → Option Proto.GetRouteResponse
  | .read _ _ =>
    match s.conn, s.responses with
    | .live, rsp :: _ => if messageLengthLimit < rsp.serialize.length then none else some rsp
    | _, _ => none
  | _ => none

/-- The agent answers an API from what the DNS has said last: `last` has the last answer read for
each module. -/
def Holds (last : UInt64 → Option Proto.GetRouteResponse) (s : LbAgent) : Prop :=
  ∀ i key lb, (s.rLb i).lbs.lookup key = some lb → Sound lb ∧ (lb.empty = true ∨
    ∃ rsp, last key = some rsp ∧ packKey rsp.modid rsp.cmdid = key ∧
      shardOf rsp.modid rsp.cmdid = .ok i ∧ lb.Carries rsp)

/-- With the answer that was read. -/
def learn (rsp : Option Proto.GetRouteResponse) (last : UInt64 → Option Proto.GetRouteResponse) :
    UInt64 → Option Proto.GetRouteResponse :=
  match rsp with
  | some rsp => Function.update last (packKey rsp.modid rsp.cmdid) (some rsp)
  | none => last

variable {last : UInt64 → Option Proto.GetRouteResponse}

theorem Holds.init (last : UInt64 → Option Proto.GetRouteResponse) : LbAgent.init.Holds last :=
  fun _ _ _ found => by cases found

theorem Holds.pass (holds : s.Holds last) (tables : t.rLb = s.rLb) : t.Holds last := by
  intro i key lb found
  rw [tables] at found
  exact holds i key lb found

/-- A table is replaced by one that continues it. -/
theorem Holds.replace (holds : s.Holds last) {server : Fin 3} {next : RouteLb}
    (continues : (s.rLb server).Continues next)
    (tables : t.rLb = Function.update s.rLb server next) : t.Holds last := by
  intro i key lb' found
  rw [tables] at found
  by_cases here : i = server
  · subst here
    rw [Function.update_self] at found
    rcases continues key lb' found with fresh | ⟨lb, before, same⟩
    · exact ⟨fresh.1, .inl fresh.2⟩
    · obtain ⟨sound, hosts⟩ := holds i key lb before
      obtain ⟨sound', alike⟩ := same sound
      refine ⟨sound', ?_⟩
      rcases hosts with none | ⟨rsp, known, filed, shard, carries⟩
      · exact .inl (alike.empty.trans none)
      · exact .inr ⟨rsp, known, filed, shard, alike.carries carries⟩
  · rw [Function.update_of_ne here] at found
    exact holds i key lb' found

/-- The answer replaces the hosts of its module, which are in no other table. -/
theorem Holds.dealRecvRoute (holds : s.Holds last) {now : Int} {ts : Nat → Int}
    {rsp : Proto.GetRouteResponse} (done : s.dealRecvRoute cfg now ts rsp = .ok t) :
    t.Holds (learn (some rsp) last) := by
  unfold LbAgent.dealRecvRoute at done
  split at done
  · cases done
  next index shard =>
    obtain ⟨next, updated, rfl⟩ := map_ok_inv done
    -- a load balancer that the answer does not change keeps what it has
    have keeps {i : Fin 3} {key : UInt64} {lb : LoadBalance}
        (found : (s.rLb i).lbs.lookup key = some lb)
        (other : i = index → key ≠ packKey rsp.modid rsp.cmdid) :
        Sound lb ∧ (lb.empty = true ∨ ∃ rsp', learn (some rsp) last key = some rsp' ∧
          packKey rsp'.modid rsp'.cmdid = key ∧ shardOf rsp'.modid rsp'.cmdid = .ok i ∧
          lb.Carries rsp') := by
      obtain ⟨sound, hosts⟩ := holds i key lb found
      refine ⟨sound, hosts.imp_right ?_⟩
      rintro ⟨rsp', known, filed, there, carries⟩
      refine ⟨rsp', ?_, filed, there, carries⟩
      rw [learn, Function.update_of_ne]
      · exact known
      · intro same
        obtain ⟨modid, cmdid⟩ := packKey_inj (filed.trans same)
        rw [modid, cmdid, shard] at there
        exact other (Except.ok.inj there).symm same
    intro i key lb' found
    change (Function.update s.rLb index next i).lbs.lookup key = some lb' at found
    by_cases here : i = index
    · subst here
      rw [Function.update_self] at found
      obtain ⟨lb, before, ⟨other, rfl⟩ | ⟨rfl, answered⟩⟩ :=
        RouteLb.updateHost_carries updated found
      · exact keeps before fun _ => other
      · obtain ⟨sound', carries⟩ := answered (holds i _ lb before).1
        exact ⟨sound', .inr ⟨rsp, Function.update_self .., rfl, shard, carries⟩⟩
    · rw [Function.update_of_ne here] at found
      exact keeps found fun same => absurd same here

/-- An answer is taken in, or none is and the connection may be given up. -/
theorem read_cases {now : Int} {ts : Nat → Int} (done : s.step cfg (.read now ts) = .ok t) :
    (∃ rsp rest, s.conn = .live ∧ s.responses = rsp :: rest ∧
      s.takes (.read now ts) = some rsp ∧
      { s with responses := rest }.dealRecvRoute cfg now ts rsp = .ok t) ∨
    (s.takes (.read now ts) = none ∧ (t = s ∨ t = s.cleanConn)) := by
  simp only [step] at done
  split at done
  next rsp rest live oldest =>
    have head : s.takes (.read now ts) =
        if messageLengthLimit < rsp.serialize.length then none else some rsp := by
      simp only [takes, live, oldest]
    split at done
    next large =>
      cases done
      exact .inr ⟨head.trans (if_pos large), .inr rfl⟩
    next small => exact .inl ⟨rsp, rest, live, oldest, head.trans (if_neg small), done⟩
  next =>
    cases done
    refine .inr ⟨?_, .inl rfl⟩
    simp only [takes]

theorem step_holds (holds : s.Holds last) (done : s.step cfg op = .ok t) :
    t.Holds (learn (s.takes op) last) := by
  cases op with
  | getHost server now modid cmdid rsp =>
    obtain ⟨reply, returned, rfl⟩ := map_ok_inv done
    exact holds.replace (RouteLb.getHost_continues returned) rfl
  | getRoute server now modid cmdid rsp =>
    obtain ⟨reply, returned, rfl⟩ := map_ok_inv done
    exact holds.replace (RouteLb.getRoute_continues returned) rfl
  | reportHost server now ts tc req =>
    obtain ⟨reported, returned, rfl⟩ := map_ok_inv done
    exact holds.replace (RouteLb.reportHost_continues returned) rfl
  | connInit =>
    simp only [step] at done
    split at done
    next i starting =>
      cases done
      exact holds.replace (s.rLb i).resetLbStatus_continues rfl
    next =>
      cases done
      exact holds
  | read now ts =>
    rcases read_cases done with ⟨rsp, rest, -, -, taken, dealt⟩ | ⟨nothing, rfl | rfl⟩
    · rw [taken]
      exact Holds.dealRecvRoute (s := { s with responses := rest }) holds dealt
    · rw [nothing]
      exact holds
    · rw [nothing]
      exact holds.pass rfl
  | connect | writable | newDnsRequest | write | reply | push | lose =>
    have tables : t.rLb = s.rLb := by
      simp only [step] at done
      repeat' split at done
      all_goals
        cases done
        rfl
    exact holds.pass tables

/-- The DNS does the step and not the agent. -/
def byDns : LbAgentStep → Bool
  | .reply .. | .push .. => true
  | _ => false

/-- Answers are taken in one after the other, or all are lost with the connection. -/
theorem step_responses (own : byDns op = false) (done : s.step cfg op = .ok t) :
    (∃ rsp, s.takes op = some rsp ∧ s.responses = rsp :: t.responses ∧ t.conn ≠ .dead) ∨
      (s.takes op = none ∧ ((t.responses = s.responses ∧ (s.conn = .dead → t.conn = .dead)) ∨
        (t.responses = [] ∧ t.conn = .dead))) := by
  cases op with
  | read now ts =>
    rcases read_cases done with ⟨rsp, rest, live, oldest, taken, dealt⟩ | ⟨nothing, rfl | rfl⟩
    · left
      unfold LbAgent.dealRecvRoute at dealt
      split at dealt
      · cases dealt
      · obtain ⟨next, -, rfl⟩ := map_ok_inv dealt
        exact ⟨rsp, taken, oldest, fun dead => by cases live.symm.trans dead⟩
    · exact .inr ⟨nothing, .inl ⟨rfl, id⟩⟩
    · exact .inr ⟨nothing, .inr ⟨rfl, rfl⟩⟩
  | lose =>
    refine .inr ⟨rfl, ?_⟩
    simp only [step] at done
    split at done
    · cases done
      exact .inr ⟨rfl, rfl⟩
    · cases done
      exact .inr ⟨rfl, rfl⟩
    · cases done
      exact .inl ⟨rfl, id⟩
  | getHost | getRoute | reportHost =>
    obtain ⟨_, -, rfl⟩ := map_ok_inv done
    exact .inr ⟨rfl, .inl ⟨rfl, id⟩⟩
  | reply | push => cases own
  | connect | writable | connInit | newDnsRequest | write =>
    refine .inr ⟨rfl, .inl ?_⟩
    simp only [step] at done
    repeat' split at done
    all_goals
      cases done
      simp_all [sendMessages]

end LbAgent

end Lars.Agent
