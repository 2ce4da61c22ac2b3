import Lars.Agent.RouteLb
import Lars.Agent.Update
import Mathlib.Data.List.Dedup

/-!
# What a module serves

Runs of the operations of `route_lb` on one module. An operation is *clear* when
it meets no stale entry of `_host_map`; as long as all are, every host that the
module hands out is one of the last answer that reached its load balancer.
-/
namespace Lars.Agent

open Proto (retSucc)

namespace LoadBalance

variable {lb : LoadBalance}

/-- What holds of a load balancer between two operations: where the map is not empty there is
a host to hand out. -/
structure Ready (lb : LoadBalance) : Prop where
  sound : Sound lb
  serving : lb.empty = true ∨ ∃ k, lb.Serves k

/-- `lb'` hands out the same hosts and has the same entries, stale ones included. -/
structure Alike (lb lb' : LoadBalance) : Prop where
  serves : ∀ k, lb'.Serves k ↔ lb.Serves k
  stale : ∀ k, lb'.Stale k ↔ lb.Stale k
  map : lb'.hostMap = lb.hostMap

theorem Retains.alike {lb' : LoadBalance} (retains : Retains lb lb') (sound : Sound lb)
    (sound' : Sound lb') : Alike lb lb' where
  serves := by simp [sound.serves_iff, sound'.serves_iff, retains.map, retains.stale_iff]
  stale := retains.stale_iff
  map := retains.map

theorem Alike.ready {lb' : LoadBalance} (alike : Alike lb lb') (ready : Ready lb)
    (sound' : Sound lb') : Ready lb' where
  sound := sound'
  serving := by
    have same : lb'.empty = lb.empty := by rw [LoadBalance.empty, alike.map]; rfl
    rw [same]
    exact ready.serving.imp_right fun ⟨k, serves⟩ => ⟨k, (alike.serves k).mpr serves⟩

theorem Ready.init (modid cmdid : Int32) (now : Int) : Ready (LoadBalance.init modid cmdid now) :=
  ⟨Sound.init modid cmdid now, .inl rfl⟩

theorem readAll_ok {ps : List Ptr} (live : ∀ p ∈ ps, ∃ hi, lb.heap p = some hi) :
    ∃ his, lb.readAll ps = .ok his := by
  induction ps with
  | nil => exact ⟨[], rfl⟩
  | cons p ps ih =>
    obtain ⟨hi, cell⟩ := live p (by simp)
    obtain ⟨his, rest⟩ := ih (fun q hq => live q (by simp [hq]))
    exact ⟨hi :: his, by simp only [readAll, cell, rest]⟩

theorem readAll_inv {ps : List Ptr} {his : List HostInfo} (done : lb.readAll ps = .ok his) :
    List.Forall₂ (fun p hi => lb.heap p = some hi) ps his := by
  induction ps generalizing his with
  | nil =>
    cases done
    exact .nil
  | cons p ps ih =>
    cases cell : lb.heap p with
    | none => simp [readAll, cell] at done
    | some hi =>
      cases rest : lb.readAll ps with
      | error e => simp [readAll, cell, rest] at done
      | ok his' =>
        simp only [readAll, cell, rest, Except.ok.injEq] at done
        subst done
        exact .cons cell (ih rest)

/-- The records behind distinct pointers have distinct addresses, if the map leads back from
each record to its pointer. -/
theorem nodup_hosts {ps : List Ptr} {his : List HostInfo}
    (read : List.Forall₂ (fun p hi => lb.heap p = some hi) ps his) (nodup : ps.Nodup)
    (owned : ∀ p ∈ ps, ∀ hi, lb.heap p = some hi → lb.hostMap.lookup hi.key = some p) :
    (his.map HostInfo.toProto).Nodup ∧
      ∀ h, h ∈ his.map HostInfo.toProto ↔ ∃ p ∈ ps, ∃ hi, lb.heap p = some hi ∧ hi.key = h.key := by
  induction read with
  | nil => simp
  | @cons p hi ps his cell rest ih =>
    obtain ⟨fresh, later⟩ := List.nodup_cons.mp nodup
    obtain ⟨distinct, members⟩ := ih later fun q onList => owned q (List.mem_cons_of_mem p onList)
    refine ⟨List.nodup_cons.mpr ⟨?_, distinct⟩, fun h => ?_⟩
    · rw [members]
      rintro ⟨q, onList, hi', cell', same⟩
      -- two records with one address would be filed under one key
      have first := owned p List.mem_cons_self hi cell
      have second := owned q (List.mem_cons_of_mem p onList) hi' cell'
      rw [same, key_toProto, first] at second
      cases second
      exact fresh onList
    · rw [List.map_cons, List.mem_cons, members]
      constructor
      · rintro (rfl | ⟨q, onList, rest⟩)
        · exact ⟨p, by simp, hi, cell, rfl⟩
        · exact ⟨q, by simp [onList], rest⟩
      · rintro ⟨q, onList, hi', cell', same⟩
        rcases List.mem_cons.mp onList with rfl | onList
        · rw [cell] at cell'
          cases cell'
          exact .inl (Proto.HostInfo.key_inj same.symm)
        · exact .inr ⟨q, onList, hi', cell', same⟩

/-- The hosts on the two lists together, as messages name them. -/
theorem Sound.read_lists (sound : Sound lb) :
    ∃ his, lb.readAll (lb.idleList ++ lb.overloadList) = .ok his ∧
      (his.map HostInfo.toProto).Nodup ∧ ∀ h, h ∈ his.map HostInfo.toProto ↔ lb.Serves h.key := by
  obtain ⟨his, done⟩ := readAll_ok fun p => (sound.listed p).mp
  exact ⟨his, done, nodup_hosts (readAll_inv done) sound.nodup fun p _ => sound.owned p⟩

theorem commit_ok (sound : Sound lb) (now : Int) : ∃ sent, lb.commit now = .ok sent := by
  unfold commit
  split
  · exact ⟨none, rfl⟩
  · obtain ⟨idle, first⟩ : ∃ his, lb.readAll lb.idleList = .ok his :=
      readAll_ok fun p hp => (sound.listed p).mp (List.mem_append_left _ hp)
    obtain ⟨busy, second⟩ : ∃ his, lb.readAll lb.overloadList = .ok his :=
      readAll_ok fun p hp => (sound.listed p).mp (List.mem_append_right _ hp)
    simp only [first, second]
    exact ⟨_, rfl⟩

theorem getAllHosts_ok (sound : Sound lb) (live : ∀ k, ¬ lb.Stale k) :
    ∃ his, lb.readAll lb.getAllHosts = .ok his := by
  apply readAll_ok
  intro p member
  obtain ⟨⟨k, q⟩, entry, rfl⟩ := List.mem_map.mp member
  have found : lb.hostMap.lookup k = some q := AList.mem_lookup_iff.mpr entry
  obtain ⟨hi, cell, -⟩ := sound.find found (live k)
  exact ⟨hi, cell⟩

theorem Ready.listed (ready : Ready lb) (hosts : ¬ lb.empty = true) :
    lb.idleList ++ lb.overloadList ≠ [] := by
  obtain ⟨k, p, onList, -⟩ := ready.serving.resolve_left hosts
  exact List.ne_nil_of_mem onList

end LoadBalance

namespace RouteLb

open LoadBalance (Sound Ready Alike)

variable {modid cmdid : Int32} {s : RouteLb}

/-- The load balancer of a module, if it has one. -/
def find (modid cmdid : Int32) (s : RouteLb) : Option LoadBalance :=
  s.lbs.lookup (packKey modid cmdid)

theorem find_insert (lb : LoadBalance) (m : AList (fun _ : UInt64 => LoadBalance)) :
    (RouteLb.mk (m.insert (packKey modid cmdid) lb)).find modid cmdid = some lb :=
  AList.lookup_insert m

theorem find_erase (m : AList (fun _ : UInt64 => LoadBalance)) :
    (RouteLb.mk (m.erase (packKey modid cmdid))).find modid cmdid = none :=
  AList.lookup_erase _ m

/-- The operations on one module, each with the clock readings it makes. -/
inductive Op where
  | updateHost (now : Int) (ts : Nat → Int) (rsp : Proto.GetRouteResponse)
  | getHost (now : Int) (rsp : Proto.GetHostResponse)
  | reportHost (now ts tc : Int) (host : Proto.HostInfo) (retcode : Int32)
  | getRoute (now : Int) (rsp : Proto.GetRouteResponse)

def step (cfg : Config) (modid cmdid : Int32) (s : RouteLb) : Op → Except Fault RouteLb
  | .updateHost now ts rsp => s.updateHost cfg now ts modid cmdid rsp
  | .getHost now rsp => (s.getHost cfg now modid cmdid rsp).map (·.next)
  | .reportHost now ts tc host retcode =>
    (s.reportHost cfg now ts tc ⟨modid, cmdid, host, retcode⟩).map (·.2)
  | .getRoute now rsp => (s.getRoute cfg now modid cmdid rsp).map (·.next)

/-- The operation meets no stale entry. A non-empty answer and `get_route` go through the whole
map, a report looks up one key, `get_host` reads the lists only. -/
def Clear (modid cmdid : Int32) (s : RouteLb) : Op → Prop
  | .updateHost _ _ rsp => rsp.host ≠ [] → ∀ lb ∈ s.find modid cmdid, ∀ k, ¬ lb.Stale k
  | .getHost _ _ => True
  | .reportHost _ _ _ host _ => ∀ lb ∈ s.find modid cmdid, ¬ lb.Stale host.key
  | .getRoute _ _ => ∀ lb ∈ s.find modid cmdid, ∀ k, ¬ lb.Stale k

/-- The load balancer of the module, where there is one, is ready. -/
def ModuleReady (modid cmdid : Int32) (s : RouteLb) : Prop :=
  ∀ lb ∈ s.find modid cmdid, Ready lb

theorem moduleReady_of_find {lb : LoadBalance} (found : s.find modid cmdid = some lb)
    (ready : Ready lb) : ModuleReady modid cmdid s := by
  intro lb' member
  rw [found, Option.mem_some_iff] at member
  exact member ▸ ready

theorem pullIfOld_alike (cfg : Config) (now : Int) {lb : LoadBalance} (sound : Sound lb) :
    Sound (pullIfOld cfg now lb).1 ∧ Alike lb (pullIfOld cfg now lb).1 := by
  unfold pullIfOld
  split
  · exact ⟨sound.mark .pulling lb.lastUpdateTime, ⟨fun _ => Iff.rfl, fun _ => Iff.rfl, rfl⟩⟩
  · exact ⟨sound, ⟨fun _ => Iff.rfl, fun _ => Iff.rfl, rfl⟩⟩

theorem Alike.trans {a b c : LoadBalance} (first : Alike a b) (second : Alike b c) : Alike a c where
  serves k := (second.serves k).trans (first.serves k)
  stale k := (second.stale k).trans (first.stale k)
  map := second.map.trans first.map

/-- `get_host` on a ready load balancer returns; what it hands out is on the lists. -/
theorem getHost_spec (cfg : Config) (now : Int) (rsp : Proto.GetHostResponse) {lb : LoadBalance}
    (found : s.find modid cmdid = some lb) (ready : Ready lb) :
    ∃ reply lb', s.getHost cfg now modid cmdid rsp = .ok reply ∧
      reply.next.find modid cmdid = some lb' ∧ Ready lb' ∧ Alike lb lb' ∧
      (reply.rsp.retcode = retSucc → ∃ h, reply.rsp.host = some h ∧ lb.Serves h.key) := by
  have entry : s.lbs.lookup (packKey modid cmdid) = some lb := found
  unfold getHost
  by_cases hosts : lb.empty = true
  -- without hosts the code is `RET_NOEXIST`, and nothing is promised
  · simp only [entry, hosts, ↓reduceIte]
    refine ⟨_, lb, rfl, found, ready, ⟨fun _ => Iff.rfl, fun _ => Iff.rfl, rfl⟩, ?_⟩
    simp [retSucc, Proto.retNoexist]
  · obtain ⟨⟨ret, host, mid⟩, done⟩ :=
      LoadBalance.choiceOneHost_ok ready.sound cfg (ready.listed hosts)
    have chosen := LoadBalance.choiceOneHost_spec ready.sound cfg done
    have alike := chosen.retains.alike ready.sound chosen.sound
    obtain ⟨sound', pulled⟩ := pullIfOld_alike cfg now chosen.sound
    have whole := Alike.trans alike pulled
    simp only [entry, hosts, done]
    refine ⟨_, _, rfl, find_insert _ _, whole.ready ready sound', whole, ?_⟩
    intro success
    obtain ⟨h, given⟩ := Option.isSome_iff_exists.mp (chosen.given success)
    exact ⟨h, by simp [given], chosen.served h given⟩

/-- Every operation other than an answer keeps the hosts of the module's load balancer. -/
theorem step_keeps_hosts (cfg : Config) {op : Op} {lb : LoadBalance}
    (found : s.find modid cmdid = some lb) (ready : Ready lb) (clear : s.Clear modid cmdid op)
    (other : ∀ now ts rsp, op ≠ .updateHost now ts rsp) :
    ∃ s' lb', s.step cfg modid cmdid op = .ok s' ∧ s'.find modid cmdid = some lb' ∧ Ready lb' ∧
      Alike lb lb' := by
  have entry : s.lbs.lookup (packKey modid cmdid) = some lb := found
  cases op with
  | updateHost now ts rsp => exact absurd rfl (other now ts rsp)
  | getHost now rsp =>
    obtain ⟨reply, lb', done, found', ready', alike, -⟩ := getHost_spec cfg now rsp found ready
    exact ⟨reply.next, lb', by simp [step, done, Except.map], found', ready', alike⟩
  | reportHost now ts tc host retcode =>
    obtain ⟨mid, done, sound', retains⟩ := LoadBalance.report_spec ready.sound cfg now ts
      host.ip host.port retcode (clear lb found)
    obtain ⟨sent, committed⟩ := LoadBalance.commit_ok sound' tc
    have alike := retains.alike ready.sound sound'
    refine ⟨⟨s.lbs.insert (packKey modid cmdid) mid⟩, mid, ?_, find_insert _ _,
      alike.ready ready sound', alike⟩
    simp only [step, reportHost, entry, done, committed, Except.map]
  | getRoute now rsp =>
    obtain ⟨his, done⟩ := LoadBalance.getAllHosts_ok ready.sound (clear lb found)
    obtain ⟨sound', alike⟩ := pullIfOld_alike cfg now ready.sound
    refine ⟨⟨s.lbs.insert (packKey modid cmdid) (pullIfOld cfg now lb).1⟩, _, ?_, find_insert _ _,
      alike.ready ready sound', alike⟩
    simp only [step, getRoute, entry, done, Except.map]

/-- A non-empty answer that finds the load balancer replaces the hosts it hands out. -/
theorem updateHost_spec (cfg : Config) (now : Int) (ts : Nat → Int) {rsp : Proto.GetRouteResponse}
    {lb : LoadBalance} (found : s.find modid cmdid = some lb) (ready : Ready lb)
    (live : ∀ k, ¬ lb.Stale k) (nonempty : rsp.host ≠ []) :
    ∃ s' lb', s.updateHost cfg now ts modid cmdid rsp = .ok s' ∧ s'.find modid cmdid = some lb' ∧
      Ready lb' ∧ ∀ k, lb'.Serves k ↔ k ∈ rsp.host.map Proto.HostInfo.key := by
  have entry : s.lbs.lookup (packKey modid cmdid) = some lb := found
  obtain ⟨lb', done, sound', -, -, serves⟩ :=
    LoadBalance.update_spec ready.sound live cfg now ts nonempty
  refine ⟨⟨s.lbs.insert (packKey modid cmdid) lb'⟩, lb', ?_, find_insert _ _, ⟨sound', ?_⟩, serves⟩
  · simp only [updateHost, entry, nonempty, ↓reduceIte, done]
  · obtain ⟨h, rest, order⟩ := List.exists_cons_of_ne_nil nonempty
    exact .inr ⟨h.key, (serves h.key).mpr (by simp [order])⟩

/-- A clear operation returns and leaves the module ready. -/
theorem step_ready (cfg : Config) (op : Op) (ready : ModuleReady modid cmdid s)
    (clear : s.Clear modid cmdid op) :
    ∃ s', s.step cfg modid cmdid op = .ok s' ∧ ModuleReady modid cmdid s' := by
  cases found : s.find modid cmdid with
  | none =>
    -- a request creates the load balancer, an answer or a report finds nothing
    have entry : s.lbs.lookup (packKey modid cmdid) = none := found
    have absent : ModuleReady modid cmdid s := by simp [ModuleReady, found]
    have created : ∀ now, ModuleReady modid cmdid (s.pullNew now modid cmdid).1 := by
      intro now
      have fresh := LoadBalance.Ready.init modid cmdid now
      exact moduleReady_of_find (find_insert _ _) ⟨fresh.sound.mark .pulling now, fresh.serving⟩
    cases op with
    | updateHost now ts rsp => exact ⟨s, by simp [step, updateHost, entry], absent⟩
    | getHost now rsp => exact ⟨_, by simp only [step, getHost, entry, Except.map], created now⟩
    | reportHost now ts tc host retcode =>
      exact ⟨s, by simp [step, reportHost, entry, Except.map], absent⟩
    | getRoute now rsp => exact ⟨_, by simp only [step, getRoute, entry, Except.map], created now⟩
  | some lb =>
    have here := ready lb found
    -- answers apart, `step_keeps_hosts` covers every operation at once
    by_cases answer : ∃ now ts rsp, op = .updateHost now ts rsp
    · obtain ⟨now, ts, rsp, rfl⟩ := answer
      by_cases nonempty : rsp.host = []
      · have entry : s.lbs.lookup (packKey modid cmdid) = some lb := found
        refine ⟨⟨s.lbs.erase (packKey modid cmdid)⟩, ?_, ?_⟩
        · simp only [step, updateHost, entry, nonempty, ↓reduceIte]
        · simp [ModuleReady, find_erase]
      · obtain ⟨s', lb', done, found', ready', -⟩ :=
          updateHost_spec cfg now ts found here (clear nonempty lb found) nonempty
        exact ⟨s', done, moduleReady_of_find found' ready'⟩
    · obtain ⟨s', lb', done, found', ready', -⟩ := step_keeps_hosts cfg found here clear
        (fun now ts rsp same => answer ⟨now, ts, rsp, same⟩)
      exact ⟨s', done, moduleReady_of_find found' ready'⟩

theorem moduleReady_init : ModuleReady modid cmdid init := by
  simp [ModuleReady, find, init]

/-- Operations other than answers, all of them clear, return and keep the hosts. -/
theorem run_keeps_hosts (cfg : Config) {ops : List Op} {lb : LoadBalance}
    (found : s.find modid cmdid = some lb) (ready : Ready lb)
    (clear : Run.Guarded (step cfg modid cmdid) (Clear modid cmdid) s ops)
    (others : ∀ op ∈ ops, ∀ now ts rsp, op ≠ .updateHost now ts rsp) :
    ∃ s' lb', Run.run (step cfg modid cmdid) s ops = .ok s' ∧ s'.find modid cmdid = some lb' ∧
      Ready lb' ∧ ∀ k, lb'.Serves k ↔ lb.Serves k := by
  induction ops generalizing s lb with
  | nil => exact ⟨s, lb, rfl, found, ready, fun _ => Iff.rfl⟩
  | cons op ops ih =>
    obtain ⟨mid, lb', taken, found', ready', alike⟩ :=
      step_keeps_hosts cfg found ready clear.1 (others op (by simp))
    obtain ⟨s', lb'', done, found'', ready'', serves⟩ := ih found' ready' (clear.2 mid taken)
      (fun op' member => others op' (by simp [member]))
    refine ⟨s', lb'', by rw [Run.run_cons_ok ops taken, done], found'', ready'', fun k => ?_⟩
    exact (serves k).trans (alike.serves k)

/-- In a run that meets no stale entry, take the most recent answer. If it named hosts and the
module was in the table when it came, then ever since the two lists together hold exactly its
distinct hosts; `get_host` returns, and what it hands out with `RET_SUCC` is one of them. -/
theorem serves_last_answer (cfg : Config) (modid cmdid : Int32) (before after : List Op)
    (now : Int) (ts : Nat → Int) (rsp : Proto.GetRouteResponse) (nonempty : rsp.host ≠ [])
    (last : ∀ op ∈ after, ∀ now ts rsp, op ≠ .updateHost now ts rsp)
    (clear : Run.Guarded (step cfg modid cmdid) (Clear modid cmdid) init
      (before ++ .updateHost now ts rsp :: after))
    (known : ∀ s, Run.run (step cfg modid cmdid) init before = .ok s →
      (s.find modid cmdid).isSome = true) :
    ∃ s lb his, Run.run (step cfg modid cmdid) init (before ++ .updateHost now ts rsp :: after) = .ok s ∧
      s.find modid cmdid = some lb ∧
      lb.readAll (lb.idleList ++ lb.overloadList) = .ok his ∧
      (his.map HostInfo.toProto).Perm rsp.host.dedup ∧
      ∀ now' req, ∃ reply, s.getHost cfg now' modid cmdid req = .ok reply ∧
        (reply.rsp.retcode = retSucc → ∃ h ∈ rsp.host, reply.rsp.host = some h) := by
  -- up to the answer: the operations return and the module is ready
  obtain ⟨s₀, first, ready₀⟩ := Run.run_ok_of_guarded (fun s op => step_ready cfg op)
    moduleReady_init (Run.Guarded.left clear)
  obtain ⟨lb₀, found₀⟩ := Option.isSome_iff_exists.mp (known s₀ first)
  have later := Run.Guarded.right first clear
  obtain ⟨s₁, lb₁, answered, found₁, ready₁, serves₁⟩ := updateHost_spec cfg now ts found₀
    (ready₀ lb₀ found₀) (later.1 nonempty lb₀ found₀) nonempty
  -- after it: no operation changes what is handed out
  obtain ⟨s, lb, rest, found, ready, serves⟩ :=
    run_keeps_hosts cfg found₁ ready₁ (later.2 s₁ answered) last
  have hosts : ∀ h : Proto.HostInfo, lb.Serves h.key ↔ h ∈ rsp.host := by
    intro h
    rw [serves, serves₁, List.mem_map]
    exact ⟨fun ⟨g, member, same⟩ => Proto.HostInfo.key_inj same ▸ member, fun member => ⟨h, member, rfl⟩⟩
  obtain ⟨his, read, distinct, members⟩ := ready.sound.read_lists
  refine ⟨s, lb, his, ?_, found, read, ?_, fun now' req => ?_⟩
  · rw [Run.run_append _ first, Run.run_cons_ok _ answered, rest]
  · refine (List.perm_ext_iff_of_nodup distinct (List.nodup_dedup _)).mpr fun h => ?_
    rw [members, hosts, List.mem_dedup]
  · obtain ⟨reply, -, done, -, -, -, given⟩ := getHost_spec cfg now' req found ready
    refine ⟨reply, done, fun success => ?_⟩
    obtain ⟨h, host, served⟩ := given success
    exact ⟨h, (hosts h).mp served, host⟩

/-- Two requests of the API around one answer. -/
theorem serves_last_answer_once :
    ∃ s lb his, Run.run (step .default 1 1) init
        ([.getHost 0 ⟨0, 1, 1, 0, none⟩] ++
          .updateHost 1 (fun _ => 1) ⟨1, 1, [⟨1, 80⟩, ⟨2, 80⟩]⟩ :: [.getHost 2 ⟨1, 1, 1, 0, none⟩]) =
          .ok s ∧
      s.find 1 1 = some lb ∧ lb.readAll (lb.idleList ++ lb.overloadList) = .ok his ∧
      (his.map HostInfo.toProto).Perm ([⟨1, 80⟩, ⟨2, 80⟩] : List Proto.HostInfo).dedup ∧
      ∀ now' req, ∃ reply, s.getHost .default now' 1 1 req = .ok reply ∧
        (reply.rsp.retcode = retSucc → ∃ h ∈ ([⟨1, 80⟩, ⟨2, 80⟩] : List Proto.HostInfo),
          reply.rsp.host = some h) := by
  refine serves_last_answer .default 1 1 [.getHost 0 ⟨0, 1, 1, 0, none⟩]
    [.getHost 2 ⟨1, 1, 1, 0, none⟩] 1 (fun _ => 1) ⟨1, 1, [⟨1, 80⟩, ⟨2, 80⟩]⟩ (by simp) (by simp)
    ?_ ?_
  · refine ⟨trivial, fun s taken => ⟨fun _ lb found k stale => ?_, fun _ _ => ⟨trivial, fun _ _ => trivial⟩⟩⟩
    cases taken
    cases found
    obtain ⟨p, entry, -⟩ := stale
    cases entry
  · intro s done
    cases done
    decide

/-- An answer for a module that is not in the table is ignored: the module asked for next has
no hosts although the most recent answer named one. And a host that leaves the route and comes
back is not listed again: both lists are empty, and the eleventh request reads the head of an
empty list. -/
theorem last_answer_not_served :
    (∃ s lb, Run.run (step .default 1 1) init
        [.updateHost 0 (fun _ => 0) ⟨1, 1, [⟨1, 80⟩]⟩, .getHost 1 ⟨0, 1, 1, 0, none⟩] = .ok s ∧
      s.find 1 1 = some lb ∧ lb.idleList ++ lb.overloadList = []) ∧
    (∃ s lb, Run.run (step .default 1 1) init
        [.getHost 0 ⟨0, 1, 1, 0, none⟩, .updateHost 1 (fun _ => 1) ⟨1, 1, [⟨1, 80⟩]⟩,
          .updateHost 2 (fun _ => 2) ⟨1, 1, [⟨2, 80⟩]⟩,
          .updateHost 3 (fun _ => 3) ⟨1, 1, [⟨1, 80⟩]⟩] = .ok s ∧
      s.find 1 1 = some lb ∧ lb.idleList ++ lb.overloadList = [] ∧
      Run.run (step .default 1 1) s (List.replicate 11 (.getHost 4 ⟨1, 1, 1, 0, none⟩)) =
        .error .emptyFront) :=
  ⟨⟨_, _, rfl, rfl, rfl⟩, ⟨_, _, rfl, rfl, rfl, rfl⟩⟩

end RouteLb

end Lars.Agent
