import Lars.Agent.Twins

/-!
# Modules do not see each other

As long as no operation follows an entry whose record was deleted, the table on
the shared heap does what the table with a heap for every load balancer does:
its load balancers mirror those of the other, and no two of them share a
record. What holds of the entries there holds of the modules here.
-/
namespace Lars.Agent

open LoadBalance (Sound Mirrors Within FreshAt)

namespace LoadBalance

variable {x y : LoadBalance}

/-! ### Moving a mirror -/

/-- The heap may change wherever the lists do not lead. -/
theorem Mirrors.rehome (mirrors : Mirrors x y) {heap : Ptr → Option HostInfo}
    (same : ∀ p ∈ x.idleList ++ x.overloadList, heap p = x.heap p) :
    Mirrors { x with heap := heap } y := by
  have stays {ps qs : List Ptr} (part : ps ⊆ x.idleList ++ x.overloadList)
      (twins : List.Forall₂ (Twin x y) ps qs) :
      List.Forall₂ (Twin { x with heap := heap } y) ps qs := by
    rw [List.forall₂_iff_zip] at twins ⊢
    refine ⟨twins.1, fun {p q} together => ?_⟩
    obtain ⟨hi, there, rest⟩ := twins.2 together
    exact ⟨hi, (same p (part (List.of_mem_zip together).1)).trans there, rest⟩
  exact { mirrors with
    idle := stays (List.subset_append_left _ _) mirrors.idle
    overloaded := stays (List.subset_append_right _ _) mirrors.overloaded }

theorem Mirrors.cells (mirrors : Mirrors x y) {p : Ptr}
    (member : p ∈ x.idleList ++ x.overloadList) : ∃ hi, x.heap p = some hi := by
  obtain ⟨q, -, hi, there, -⟩ := exists_right mirrors.listed member
  exact ⟨hi, there⟩

theorem Mirrors.init (heap : Ptr → Option HostInfo) (modid cmdid : Int32) (now : Int) :
    Mirrors { LoadBalance.init modid cmdid now with heap := heap }
      (LoadBalance.init modid cmdid now) :=
  ⟨rfl, rfl, rfl, rfl, rfl, rfl, .nil, .nil⟩

theorem Mirrors.pullIfOld (mirrors : Mirrors x y) (cfg : Config) (now : Int) :
    (RouteLb.pullIfOld cfg now x).2 = (RouteLb.pullIfOld cfg now y).2 ∧
      Mirrors (RouteLb.pullIfOld cfg now x).1 (RouteLb.pullIfOld cfg now y).1 := by
  unfold RouteLb.pullIfOld
  rw [mirrors.status, mirrors.lastUpdateTime]
  split
  · exact ⟨by simp only [pull, mirrors.modid, mirrors.cmdid], { mirrors with status := rfl }⟩
  · exact ⟨rfl, mirrors⟩

theorem Mirrors.contents_eq (mirrors : Mirrors x y) : x.contents = y.contents := by
  have same {ps qs : List Ptr} (twins : List.Forall₂ (Twin x y) ps qs) :
      ps.map x.heap = qs.map y.heap := by
    induction twins with
    | nil => rfl
    | cons twin _ ih =>
      obtain ⟨hi, there, here, -⟩ := twin
      rw [List.map_cons, List.map_cons, there, here, ih]
  simp only [contents, mirrors.status, mirrors.lastUpdateTime, mirrors.modid, mirrors.cmdid,
    mirrors.keys, same mirrors.idle, same mirrors.overloaded, mirrors.accessCnt]

theorem pullIfOld_within (cfg : Config) (now : Int) {x' : LoadBalance} (within : Within x x') :
    Within x (RouteLb.pullIfOld cfg now x').1 := by
  unfold RouteLb.pullIfOld
  split
  · exact ⟨within.others, within.lists⟩
  · exact within

/-! ### When the calls return -/

variable {lb : LoadBalance}

/-- `update` returns exactly if no entry that the answer does not name is stale. -/
theorem update_returns_iff (sound : Sound lb) (cfg : Config) (now : Int) (ts : Nat → Int)
    {rsp : Proto.GetRouteResponse} (nonempty : rsp.host ≠ []) :
    (∃ lb', lb.update cfg now ts rsp = .ok lb') ↔
      ∀ k ∈ lb.hostMap, k ∉ rsp.host.map Proto.HostInfo.key → ¬ lb.Stale k := by
  obtain ⟨inserted, members, stale⟩ := insertHosts_spec sound cfg ts 0 rsp.host
  have drop : ∀ k, k ∈ (lb.insertHosts cfg ts 0 rsp.host).needDelete
      (rsp.host.map Proto.HostInfo.key) ↔
        k ∈ lb.hostMap ∧ k ∉ rsp.host.map Proto.HostInfo.key := by
    intro k
    have split := members k
    rw [AList.mem_keys] at split
    simp only [needDelete, List.mem_filter, decide_eq_true_eq, split]
    tauto
  simp only [update, nonempty, ↓reduceIte]
  constructor
  · rintro ⟨lb', done⟩ k member unnamed
    split at done
    next deleted =>
      rw [← stale]
      exact (deleteHosts_returns inserted deleted).2.2.1 k ((drop k).mpr ⟨member, unnamed⟩)
    · cases done
  · intro live
    obtain ⟨lb', deleted, -⟩ := deleteHosts_spec inserted
      ((lb.insertHosts cfg ts 0 rsp.host).hostMap.keys_nodup.filter _)
      (fun k member => AList.mem_keys.mpr (List.mem_filter.mp member).1)
      (fun k member => by
        rw [stale]
        obtain ⟨old, unnamed⟩ := (drop k).mp member
        exact live k old unnamed)
    have unfolded : (lb.insertHosts cfg ts 0 rsp.host).deleteHosts
        ((lb.insertHosts cfg ts 0 rsp.host).needDelete (rsp.host.map Proto.HostInfo.key)) =
          .ok lb' := deleted
    simp only [unfolded]
    exact ⟨_, rfl⟩

/-- `choice_one_host` returns unless it takes the first of an empty list. -/
theorem choiceOneHost_returns_iff (sound : Sound lb) (cfg : Config) :
    (∃ result, lb.choiceOneHost cfg = .ok result) ↔
      (lb.idleList = [] → lb.overloadList = [] → lb.accessCnt < cfg.probeNum) := by
  constructor
  · rintro ⟨result, done⟩ noIdle noOverload
    by_contra counted
    simp [choiceOneHost, noIdle, noOverload, not_lt.mp counted, probeOverload,
      getHostFromList] at done
  · intro low
    by_cases nonempty : lb.idleList ++ lb.overloadList = []
    · obtain ⟨noIdle, noOverload⟩ := List.append_eq_nil_iff.mp nonempty
      have counted := not_le.mpr (low noIdle noOverload)
      simp only [choiceOneHost, noIdle, ↓reduceIte, ge_iff_le, counted]
      exact ⟨_, rfl⟩
    · exact choiceOneHost_ok sound cfg nonempty

theorem getAllHosts_returns_iff :
    (∃ his, lb.readAll lb.getAllHosts = .ok his) ↔ ∀ k ∈ lb.hostMap, ¬ lb.Stale k := by
  constructor
  · rintro ⟨his, done⟩ k - ⟨p, entry, gone⟩
    have member : p ∈ lb.getAllHosts :=
      List.mem_map.mpr ⟨⟨k, p⟩, AList.mem_lookup_iff.mp entry, rfl⟩
    obtain ⟨hi, -, cell⟩ := exists_right (readAll_inv done) member
    rw [gone] at cell
    cases cell
  · intro live
    apply readAll_ok
    intro p member
    obtain ⟨⟨k, q⟩, inside, rfl⟩ := List.mem_map.mp member
    have entry : lb.hostMap.lookup k = some q := AList.mem_lookup_iff.mpr inside
    cases cell : lb.heap q with
    | none => exact absurd ⟨q, entry, cell⟩ (live k (mem_hostMap.mpr ⟨q, entry⟩))
    | some hi => exact ⟨hi, rfl⟩

/-- A report and its commit return exactly if the entry of the host is not stale. -/
theorem report_returns_iff (sound : Sound lb) (cfg : Config) (now ts tc : Int)
    (ip port retcode : Int32) :
    (∃ lb' sent, lb.report cfg now ts ip port retcode = .ok lb' ∧ lb'.commit tc = .ok sent) ↔
      ¬ lb.Stale (packKey ip port) := by
  constructor
  · rintro ⟨lb', sent, done, -⟩ stale
    rw [report_stale cfg now ts ip port retcode stale] at done
    cases done
  · intro live
    obtain ⟨lb', done, sound', -⟩ := report_spec sound cfg now ts ip port retcode live
    obtain ⟨sent, committed⟩ := commit_ok sound' tc
    exact ⟨lb', sent, done, committed⟩

end LoadBalance

namespace RouteLb

variable {u v : RouteLb} {cfg : Config}

/-! ### The table with a heap for every load balancer -/

def AllSound (u : RouteLb) : Prop := ∀ key lb, u.lbs.lookup key = some lb → Sound lb

theorem AllSound.continues (sound : u.AllSound) (continues : u.Continues v) : v.AllSound := by
  intro key lb' found
  rcases continues key lb' found with fresh | ⟨lb, before, kept⟩
  · exact fresh.1
  · exact (kept (sound key lb before)).1

theorem AllSound.serve (sound : u.AllSound) {op : RouteOp} {answer : Answer}
    (done : u.serve cfg op = .ok (answer, v)) : v.AllSound := by
  cases op with
  | getHost now modid cmdid rsp =>
    obtain ⟨reply, returned, same⟩ := map_ok_inv done
    cases same
    exact sound.continues (getHost_continues returned)
  | getRoute now modid cmdid rsp =>
    obtain ⟨reply, returned, same⟩ := map_ok_inv done
    cases same
    exact sound.continues (getRoute_continues returned)
  | updateHost now ts modid cmdid rsp =>
    obtain ⟨next, returned, same⟩ := map_ok_inv done
    cases same
    intro key lb' found
    obtain ⟨lb, before, ⟨-, rfl⟩ | ⟨-, kept⟩⟩ := updateHost_carries returned found
    · exact sound key lb' before
    · exact (kept (sound key lb before)).1
  | reportHost now ts tc req =>
    obtain ⟨reported, returned, same⟩ := map_ok_inv done
    cases same
    exact sound.continues (reportHost_continues returned)
  | resetLbStatus =>
    cases done
    exact sound.continues (resetLbStatus_continues u)

theorem returns_map {α β γ : Type} {x : Except Fault α} {f : α → β × γ} :
    (∃ b c, x.map f = .ok (b, c)) ↔ ∃ a, x = .ok a := by
  constructor
  · rintro ⟨b, c, done⟩
    obtain ⟨a, returned, -⟩ := map_ok_inv done
    exact ⟨a, returned⟩
  · rintro ⟨a, rfl⟩
    exact ⟨(f a).1, (f a).2, rfl⟩

variable {now : Int} {modid cmdid : Int32} {lb : LoadBalance}

theorem getHost_returns_iff {rsp : Proto.GetHostResponse} (sound : Sound lb)
    (found : u.lbs.lookup (packKey modid cmdid) = some lb) :
    (∃ reply, u.getHost cfg now modid cmdid rsp = .ok reply) ↔ (lb.empty = false →
      lb.idleList = [] → lb.overloadList = [] → lb.accessCnt < cfg.probeNum) := by
  rw [← Bool.not_eq_true, ← LoadBalance.choiceOneHost_returns_iff sound]
  simp only [getHost, found]
  split
  next hostless => exact ⟨fun _ hosts => absurd hostless hosts, fun _ => ⟨_, rfl⟩⟩
  next hosts =>
    cases lb.choiceOneHost cfg with
    | error e => simp [hosts]
    | ok chosen => exact ⟨fun _ _ => ⟨chosen, rfl⟩, fun _ => ⟨_, rfl⟩⟩

theorem getRoute_returns_iff {rsp : Proto.GetRouteResponse}
    (found : u.lbs.lookup (packKey modid cmdid) = some lb) :
    (∃ reply, u.getRoute cfg now modid cmdid rsp = .ok reply) ↔
      ∀ k ∈ lb.hostMap, ¬ lb.Stale k := by
  rw [← LoadBalance.getAllHosts_returns_iff]
  simp only [getRoute, found]
  cases lb.readAll lb.getAllHosts with
  | error e => simp
  | ok hosts => exact ⟨fun _ => ⟨hosts, rfl⟩, fun _ => ⟨_, rfl⟩⟩

theorem updateHost_returns_iff {ts : Nat → Int} {rsp : Proto.GetRouteResponse} (sound : Sound lb)
    (found : u.lbs.lookup (packKey modid cmdid) = some lb) :
    (∃ v, u.updateHost cfg now ts modid cmdid rsp = .ok v) ↔ (rsp.host ≠ [] →
      ∀ k ∈ lb.hostMap, k ∉ rsp.host.map Proto.HostInfo.key → ¬ lb.Stale k) := by
  simp only [updateHost, found]
  split
  next hostless => exact ⟨fun _ hosts => absurd hostless hosts, fun _ => ⟨_, rfl⟩⟩
  next hosts =>
    rw [← LoadBalance.update_returns_iff sound cfg now ts hosts]
    cases lb.update cfg now ts rsp with
    | error e => simp [hosts]
    | ok updated => exact ⟨fun _ _ => ⟨updated, rfl⟩, fun _ => ⟨_, rfl⟩⟩

theorem reportHost_returns_iff {ts tc : Int} {req : Proto.ReportRequest} (sound : Sound lb)
    (found : u.lbs.lookup (packKey req.modid req.cmdid) = some lb) :
    (∃ reported, u.reportHost cfg now ts tc req = .ok reported) ↔
      ¬ lb.Stale (packKey req.host.ip req.host.port) := by
  rw [← LoadBalance.report_returns_iff sound cfg now ts tc _ _ req.retcode]
  simp only [reportHost, found]
  cases lb.report cfg now ts req.host.ip req.host.port req.retcode with
  | error e => simp
  | ok counted =>
    dsimp only
    cases committed : counted.commit tc with
    | error e => simp [committed]
    | ok sent => exact ⟨fun _ => ⟨counted, sent, rfl, committed⟩, fun _ => ⟨_, rfl⟩⟩

end RouteLb

namespace HeapRouteLb

open RouteLb (AllSound)

variable {s t : HeapRouteLb} {u v : RouteLb} {cfg : Config} {key : UInt64}

/-- The load balancers of the shared heap mirror those with heaps of their own, and no two of them
have a record in common. -/
structure Pictures (s : HeapRouteLb) (u : RouteLb) : Prop where
  entries : ∀ key, Option.Rel (fun o lb => Mirrors (o.on s.heap) lb)
    (s.lbs.lookup key) (u.lbs.lookup key)
  apart : ∀ {key key' o o'}, s.lbs.lookup key = some o → s.lbs.lookup key' = some o' →
    key ≠ key' → ∀ p ∈ o.idleList ++ o.overloadList, p ∉ o'.idleList ++ o'.overloadList

/-- Apart from the entry under the key, all entries are as they were, and so are the records on
their lists. -/
structure Spares (key : UInt64) (s t : HeapRouteLb) : Prop where
  members : ∀ other, other ≠ key → t.lbs.lookup other = s.lbs.lookup other
  records : ∀ other o, other ≠ key → s.lbs.lookup other = some o →
    ∀ p ∈ o.idleList ++ o.overloadList, t.heap p = s.heap p

theorem Spares.refl (key : UInt64) (s : HeapRouteLb) : Spares key s s :=
  ⟨fun _ _ => rfl, fun _ _ _ _ _ _ => rfl⟩

theorem rel_cases {α β : Type} {R : α → β → Prop} {a : Option α} {b : Option β}
    (related : Option.Rel R a b) :
    (a = none ∧ b = none) ∨ ∃ x y, a = some x ∧ b = some y ∧ R x y := by
  cases related with
  | none => exact .inl ⟨rfl, rfl⟩
  | some both => exact .inr ⟨_, _, rfl, rfl, both⟩

/-- The module is in neither table, or in both. -/
theorem Pictures.cases (pictures : Pictures s u) (key : UInt64) :
    (s.lbs.lookup key = none ∧ u.lbs.lookup key = none) ∨
      ∃ o lb, s.lbs.lookup key = some o ∧ u.lbs.lookup key = some lb ∧
        Mirrors (o.on s.heap) lb :=
  rel_cases (pictures.entries key)

theorem Pictures.found (pictures : Pictures s u) {o : Members}
    (found : s.lbs.lookup key = some o) :
    ∃ lb, u.lbs.lookup key = some lb ∧ Mirrors (o.on s.heap) lb := by
  rcases pictures.cases key with ⟨absent, -⟩ | ⟨o', lb, found', there, mirrors⟩
  · rw [found] at absent
    cases absent
  · rw [found, Option.some.injEq] at found'
    subst found'
    exact ⟨lb, there, mirrors⟩

/-- What is stored under a key mirrors again, and the others are spared. -/
theorem Pictures.insert (pictures : Pictures s u) {x y : LoadBalance} (mirrors : Mirrors x y)
    (spared : ∀ other o, other ≠ key → s.lbs.lookup other = some o →
      ∀ p ∈ o.idleList ++ o.overloadList, x.heap p = s.heap p ∧
        p ∉ x.idleList ++ x.overloadList) :
    Pictures (s.store key x) ⟨u.lbs.insert key y⟩ ∧ Spares key s (s.store key x) := by
  refine ⟨⟨fun other => ?_, ?_⟩, fun other apart => AList.lookup_insert_ne apart,
    fun other o apart found p onList => (spared other o apart found p onList).1⟩
  · by_cases here : other = key
    · subst here
      simp only [store, AList.lookup_insert]
      exact .some { mirrors with }
    · simp only [store, AList.lookup_insert_ne here]
      rcases pictures.cases other with ⟨absent, absent'⟩ | ⟨o, lb, found, found', mirrors'⟩
      · rw [absent, absent']
        exact .none
      · rw [found, found']
        exact .some (mirrors'.rehome fun p onList => (spared other o here found p onList).1)
  · intro one two o o' found found' different p onList onList'
    simp only [store] at found found'
    by_cases first : one = key
    · subst first
      rw [AList.lookup_insert, Option.some.injEq] at found
      rw [AList.lookup_insert_ne (Ne.symm different)] at found'
      subst found
      exact (spared two o' (Ne.symm different) found' p onList').2 onList
    · rw [AList.lookup_insert_ne first] at found
      by_cases second : two = key
      · subst second
        rw [AList.lookup_insert, Option.some.injEq] at found'
        subst found'
        exact (spared one o first found p onList).2 onList'
      · rw [AList.lookup_insert_ne second] at found'
        exact pictures.apart found found' different p onList onList'

/-- A load balancer that stays within its own records and what was not in use spares the others. -/
theorem Pictures.store (pictures : Pictures s u) {o : Members} (found : s.lbs.lookup key = some o)
    {x y : LoadBalance} (mirrors : Mirrors x y) (within : Within (o.on s.heap) x) :
    Pictures (s.store key x) ⟨u.lbs.insert key y⟩ ∧ Spares key s (s.store key x) := by
  refine pictures.insert mirrors fun other o' apart found' p onList => ?_
  obtain ⟨lb, -, mirrors'⟩ := pictures.found found'
  obtain ⟨hi, cell⟩ := mirrors'.cells onList
  have cell' : s.heap p = some hi := cell
  have off := pictures.apart found' found apart p onList
  refine ⟨(within.others p hi cell off).trans cell.symm, fun again => ?_⟩
  rcases within.lists p again with before | free
  · exact off before
  · have free' : s.heap p = none := free
    rw [free'] at cell'
    cases cell'

/-- The load balancer of a new module has no records. -/
theorem Pictures.pullNew (pictures : Pictures s u) (now : Int) (modid cmdid : Int32) :
    Pictures (s.pullNew now modid cmdid).1 (u.pullNew now modid cmdid).1 ∧
      Spares (packKey modid cmdid) s (s.pullNew now modid cmdid).1 :=
  pictures.insert
    (x := { (LoadBalance.init modid cmdid now).pull.1 with heap := s.heap })
    (y := (LoadBalance.init modid cmdid now).pull.1)
    { Mirrors.init s.heap modid cmdid now with status := rfl }
    fun _ _ _ _ _ _ => ⟨rfl, List.not_mem_nil⟩

theorem Pictures.erase (pictures : Pictures s u) (key : UInt64) :
    Pictures { s with lbs := s.lbs.erase key } ⟨u.lbs.erase key⟩ ∧
      Spares key s { s with lbs := s.lbs.erase key } := by
  refine ⟨⟨fun other => ?_, ?_⟩, fun other apart => AList.lookup_erase_ne apart,
    fun _ _ _ _ _ _ => rfl⟩
  · by_cases here : other = key
    · subst here
      simp only [AList.lookup_erase]
      exact .none
    · simp only [AList.lookup_erase_ne here]
      exact pictures.entries other
  · intro one two o o' found found' different
    have kept {other : UInt64} {o : Members} (found : (s.lbs.erase key).lookup other = some o) :
        s.lbs.lookup other = some o := by
      by_cases here : other = key
      · subst here
        rw [AList.lookup_erase] at found
        cases found
      · rwa [AList.lookup_erase_ne here] at found
    exact pictures.apart (kept found) (kept found') different

theorem lookup_resetLbStatus (s : HeapRouteLb) (key : UInt64) :
    s.resetLbStatus.lbs.lookup key =
      (s.lbs.lookup key).map fun o => { o with status := .new } :=
  List.dlookup_map₂ (l := s.lbs.entries)
    (f := fun _ (o : Members) => ({ o with status := .new } : Members)) key

theorem Pictures.resetLbStatus (pictures : Pictures s u) :
    Pictures s.resetLbStatus u.resetLbStatus := by
  have private_lookup : ∀ key, u.resetLbStatus.lbs.lookup key =
      (u.lbs.lookup key).map fun lb => { lb with status := .new } := fun key =>
    List.dlookup_map₂ (l := u.lbs.entries)
      (f := fun _ (lb : LoadBalance) => ({ lb with status := .new } : LoadBalance)) key
  refine ⟨fun key => ?_, ?_⟩
  · rw [lookup_resetLbStatus, private_lookup]
    rcases pictures.cases key with ⟨absent, absent'⟩ | ⟨o, lb, found, found', mirrors⟩
    · rw [absent, absent']
      exact .none
    · rw [found, found']
      exact .some { mirrors with status := rfl }
  · intro one two o o' found found' different
    rw [lookup_resetLbStatus, Option.map_eq_some_iff] at found found'
    obtain ⟨before, there, rfl⟩ := found
    obtain ⟨before', there', rfl⟩ := found'
    -- the status apart, the entries are those from before
    have apart : ∀ p ∈ before.idleList ++ before.overloadList,
        p ∉ before'.idleList ++ before'.overloadList := pictures.apart there there' different
    exact apart

/-! ### One operation -/

variable {now : Int} {modid cmdid : Int32}

theorem Pictures.getHost (pictures : Pictures s u) {rsp : Proto.GetHostResponse}
    {reply : Reply Proto.GetHostResponse}
    (returned : u.getHost cfg now modid cmdid rsp = .ok reply) :
    ∃ t, s.getHost cfg now modid cmdid rsp = .ok (.host reply.ret reply.rsp reply.sent, t) ∧
      Pictures t reply.next ∧ Spares (packKey modid cmdid) s t := by
  unfold RouteLb.getHost at returned
  unfold HeapRouteLb.getHost
  rcases pictures.cases (packKey modid cmdid) with
    ⟨absent, absent'⟩ | ⟨o, lb, found, found', mirrors⟩
  · rw [absent'] at returned
    rw [absent]
    cases returned
    exact ⟨_, rfl, pictures.pullNew now modid cmdid⟩
  · rw [found'] at returned
    rw [found]
    dsimp only at returned ⊢
    rw [mirrors.empty]
    split at returned
    next hostless =>
      cases returned
      rw [if_pos hostless]
      exact ⟨s, rfl, pictures, .refl _ _⟩
    next hosts =>
      rw [if_neg hosts]
      rcases (mirrors.choiceOneHost cfg).cases with
        ⟨e, chose, chose'⟩ | ⟨⟨ret, host, x⟩, ⟨ret', host', y⟩, chose, chose', choice⟩
      · rw [chose'] at returned
        cases returned
      · rw [chose'] at returned
        rw [chose]
        cases returned
        obtain ⟨rfl, rfl, chosen, -, -⟩ := id choice
        obtain ⟨sent, pulled⟩ := chosen.pullIfOld cfg now
        dsimp only
        rw [sent]
        exact ⟨_, rfl, pictures.store found pulled
          (LoadBalance.pullIfOld_within cfg now choice.within)⟩

theorem Pictures.getRoute (pictures : Pictures s u) (sound : u.AllSound)
    {rsp : Proto.GetRouteResponse} {reply : Reply Proto.GetRouteResponse}
    (returned : u.getRoute cfg now modid cmdid rsp = .ok reply) :
    ∃ t, s.getRoute cfg now modid cmdid rsp = .ok (.route reply.ret reply.rsp reply.sent, t) ∧
      Pictures t reply.next ∧ Spares (packKey modid cmdid) s t := by
  unfold RouteLb.getRoute at returned
  unfold HeapRouteLb.getRoute
  rcases pictures.cases (packKey modid cmdid) with
    ⟨absent, absent'⟩ | ⟨o, lb, found, found', mirrors⟩
  · rw [absent'] at returned
    rw [absent]
    cases returned
    exact ⟨_, rfl, pictures.pullNew now modid cmdid⟩
  · rw [found'] at returned
    rw [found]
    dsimp only at returned ⊢
    split at returned
    · cases returned
    next hosts read =>
      cases returned
      rw [mirrors.readAll_getAllHosts (sound _ lb found') read]
      obtain ⟨sent, pulled⟩ := mirrors.pullIfOld cfg now
      dsimp only
      rw [sent]
      exact ⟨_, rfl, pictures.store found pulled (LoadBalance.pullIfOld_within cfg now (.refl _))⟩

theorem Pictures.updateHost (pictures : Pictures s u) (sound : u.AllSound) {ts : Nat → Int}
    {addr : Nat → Ptr} {rsp : Proto.GetRouteResponse}
    (free : ∀ lb, s.entry (modid, cmdid) = some lb → lb.FreshAt cfg ts addr 0 rsp.host)
    (returned : u.updateHost cfg now ts modid cmdid rsp = .ok v) :
    ∃ t, s.updateHost cfg now ts addr modid cmdid rsp = .ok t ∧ Pictures t v ∧
      Spares (packKey modid cmdid) s t := by
  unfold RouteLb.updateHost at returned
  unfold HeapRouteLb.updateHost
  rcases pictures.cases (packKey modid cmdid) with
    ⟨absent, absent'⟩ | ⟨o, lb, found, found', mirrors⟩
  · rw [absent'] at returned
    rw [absent]
    cases returned
    exact ⟨s, rfl, pictures, .refl _ _⟩
  · rw [found'] at returned
    rw [found]
    dsimp only at returned ⊢
    split at returned
    next hostless =>
      cases returned
      rw [if_pos hostless]
      exact ⟨_, rfl, pictures.erase (packKey modid cmdid)⟩
    next hosts =>
      rw [if_neg hosts]
      split at returned
      next y updated =>
        cases returned
        obtain ⟨x, updated', mirrors', within⟩ := mirrors.update (sound _ lb found')
          (free (o.on s.heap) (by simp only [HeapRouteLb.entry, found, Option.map_some])) updated
        rw [updated']
        exact ⟨_, rfl, pictures.store found mirrors' within⟩
      · cases returned

theorem Pictures.reportHost (pictures : Pictures s u) (sound : u.AllSound) {ts tc : Int}
    {req : Proto.ReportRequest} {reported : Option Proto.ReportStatusRequest × RouteLb}
    (returned : u.reportHost cfg now ts tc req = .ok reported) :
    ∃ t, s.reportHost cfg now ts tc req = .ok (.reported reported.1, t) ∧
      Pictures t reported.2 ∧ Spares (packKey req.modid req.cmdid) s t := by
  unfold RouteLb.reportHost at returned
  unfold HeapRouteLb.reportHost
  rcases pictures.cases (packKey req.modid req.cmdid) with
    ⟨absent, absent'⟩ | ⟨o, lb, found, found', mirrors⟩
  · rw [absent'] at returned
    rw [absent]
    cases returned
    exact ⟨s, rfl, pictures, .refl _ _⟩
  · rw [found'] at returned
    rw [found]
    dsimp only at returned ⊢
    split at returned
    · cases returned
    next y counted =>
      split at returned
      · cases returned
      next sent committed =>
        cases returned
        obtain ⟨x, counted', mirrors', within⟩ :=
          mirrors.report (sound _ lb found') cfg ⟨now, ts, req.retcode⟩ counted
        rw [counted']
        dsimp only
        rw [mirrors'.commit, committed]
        exact ⟨_, rfl, pictures.store found mirrors' within⟩

/-- What returns with private heaps returns the same on the shared one. -/
theorem Pictures.serve (pictures : Pictures s u) (sound : u.AllSound) {op : HeapOp}
    (fresh : s.Fresh cfg op) {answer : Answer} (done : u.serve cfg op.op = .ok (answer, v)) :
    ∃ t, s.serve cfg op = .ok (answer, t) ∧ Pictures t v ∧
      ∀ m, op.op.module = some m → Spares (packKey m.1 m.2) s t := by
  obtain ⟨op, addr⟩ := op
  cases op with
  | getHost now modid cmdid rsp =>
    obtain ⟨reply, returned, same⟩ := map_ok_inv done
    cases same
    obtain ⟨t, here, next, spares⟩ := pictures.getHost returned
    exact ⟨t, here, next, fun _ owner => by cases owner; exact spares⟩
  | getRoute now modid cmdid rsp =>
    obtain ⟨reply, returned, same⟩ := map_ok_inv done
    cases same
    obtain ⟨t, here, next, spares⟩ := pictures.getRoute sound returned
    exact ⟨t, here, next, fun _ owner => by cases owner; exact spares⟩
  | updateHost now ts modid cmdid rsp =>
    obtain ⟨next, returned, same⟩ := map_ok_inv done
    cases same
    obtain ⟨t, here, next, spares⟩ := pictures.updateHost sound fresh returned
    refine ⟨t, ?_, next, fun _ owner => by cases owner; exact spares⟩
    simp only [HeapRouteLb.serve, here, Except.map]
  | reportHost now ts tc req =>
    obtain ⟨reported, returned, same⟩ := map_ok_inv done
    cases same
    obtain ⟨t, here, next, spares⟩ := pictures.reportHost sound returned
    exact ⟨t, here, next, fun _ owner => by cases owner; exact spares⟩
  | resetLbStatus =>
    cases done
    exact ⟨_, rfl, pictures.resetLbStatus, fun _ owner => by cases owner⟩

/-- The condition is that the operation returns with private heaps. -/
theorem Pictures.intact_iff (pictures : Pictures s u) (sound : u.AllSound) (op : HeapOp) :
    s.Intact cfg op ↔ ∃ answer v, u.serve cfg op.op = .ok (answer, v) := by
  obtain ⟨op, addr⟩ := op
  cases op with
  | getHost now modid cmdid rsp =>
    simp only [RouteLb.serve, RouteLb.returns_map, Intact, HeapRouteLb.entry]
    rcases pictures.cases (packKey modid cmdid) with
      ⟨absent, absent'⟩ | ⟨o, lb, found, found', mirrors⟩
    · simp [absent, RouteLb.getHost, absent']
    · rw [RouteLb.getHost_returns_iff (sound _ lb found') found']
      simp only [found, Option.map_some, Option.some.injEq, forall_eq']
      rw [mirrors.empty, mirrors.accessCnt, mirrors.idle_nil, mirrors.overload_nil]
  | getRoute now modid cmdid rsp =>
    simp only [RouteLb.serve, RouteLb.returns_map, Intact, HeapRouteLb.entry]
    rcases pictures.cases (packKey modid cmdid) with
      ⟨absent, absent'⟩ | ⟨o, lb, found, found', mirrors⟩
    · simp [absent, RouteLb.getRoute, absent']
    · rw [RouteLb.getRoute_returns_iff found']
      simp only [found, Option.map_some, Option.some.injEq, forall_eq']
      refine forall_congr' fun k => ?_
      rw [mirrors.mem_hostMap]
      exact forall_congr' fun known => mirrors.live_iff (sound _ lb found') known
  | updateHost now ts modid cmdid rsp =>
    simp only [RouteLb.serve, RouteLb.returns_map, Intact, HeapRouteLb.entry]
    rcases pictures.cases (packKey modid cmdid) with
      ⟨absent, absent'⟩ | ⟨o, lb, found, found', mirrors⟩
    · simp [absent, RouteLb.updateHost, absent']
    · rw [RouteLb.updateHost_returns_iff (sound _ lb found') found']
      simp only [found, Option.map_some, Option.some.injEq, forall_eq']
      refine imp_congr_right fun _ => forall_congr' fun k => ?_
      rw [mirrors.mem_hostMap]
      exact forall_congr' fun known => imp_congr_right fun _ =>
        mirrors.live_iff (sound _ lb found') known
  | reportHost now ts tc req =>
    simp only [RouteLb.serve, RouteLb.returns_map, Intact, HeapRouteLb.entry]
    rcases pictures.cases (packKey req.modid req.cmdid) with
      ⟨absent, absent'⟩ | ⟨o, lb, found, found', mirrors⟩
    · simp [absent, RouteLb.reportHost, absent']
    · rw [RouteLb.reportHost_returns_iff (sound _ lb found') found']
      simp only [found, Option.map_some, Option.some.injEq, forall_eq']
      rw [mirrors.mem_hostMap]
      constructor
      · intro live stale
        obtain ⟨p, entry, -⟩ := id stale
        have known := LoadBalance.mem_hostMap.mpr ⟨p, entry⟩
        exact (mirrors.live_iff (sound _ lb found') known).mp (live known) stale
      · exact fun live known => (mirrors.live_iff (sound _ lb found') known).mpr live
  | resetLbStatus => exact ⟨fun _ => ⟨_, _, rfl⟩, fun _ => trivial⟩

/-! ### What a module has -/

theorem Pictures.contents_eq (pictures : Pictures s u) (m : Int32 × Int32) :
    s.contents m = (u.entry m).map LoadBalance.contents := by
  have found : u.entry m = u.lbs.lookup (packKey m.1 m.2) := rfl
  unfold HeapRouteLb.contents HeapRouteLb.entry
  rw [found]
  rcases pictures.cases (packKey m.1 m.2) with ⟨absent, absent'⟩ | ⟨o, lb, here, there, mirrors⟩
  · rw [absent, absent']
    rfl
  · rw [here, there]
    exact congrArg some mirrors.contents_eq

theorem Spares.contents_eq {m n : Int32 × Int32} (different : m ≠ n)
    (spares : Spares (packKey m.1 m.2) s t) : t.contents n = s.contents n := by
  have apart := RouteLb.packKey_ne different
  unfold HeapRouteLb.contents HeapRouteLb.entry
  rw [spares.members _ apart]
  cases found : s.lbs.lookup (packKey n.1 n.2) with
  | none => rfl
  | some o =>
    have same := spares.records _ o apart found
    have idle : o.idleList.map t.heap = o.idleList.map s.heap :=
      List.map_congr_left fun p onList => same p (List.mem_append_left _ onList)
    have overloaded : o.overloadList.map t.heap = o.overloadList.map s.heap :=
      List.map_congr_left fun p onList => same p (List.mem_append_right _ onList)
    simp only [Option.map_some, LoadBalance.contents, Members.on, idle, overloaded]

/-! ### Runs -/

theorem step_of_serve {op : HeapOp} {answer : Answer} (done : s.serve cfg op = .ok (answer, t)) :
    s.step cfg op = .ok t := by
  simp only [step, done, Except.map]

/-- The run on the shared heap logs what the run with private heaps logs. -/
theorem Pictures.log (pictures : Pictures s u) (sound : u.AllSound) {ops : List HeapOp}
    (fresh : Run.Guarded (step cfg) (Fresh cfg) s ops) {log : List (RouteOp × Answer)}
    (done : Unwinding.log (RouteLb.serve cfg) u (ops.map HeapOp.op) = .ok (log, v)) :
    ∃ log' t, Unwinding.log (HeapRouteLb.serve cfg) s ops = .ok (log', t) ∧
      log'.map (fun e => (e.1.op, e.2)) = log ∧ Pictures t v := by
  induction ops generalizing s u log with
  | nil =>
    cases done
    exact ⟨[], s, rfl, rfl, pictures⟩
  | cons op ops ih =>
    obtain ⟨answer, mid, rest, first, later, rfl⟩ := Unwinding.log_cons_inv done
    obtain ⟨next, first', pictures', -⟩ := pictures.serve sound fresh.1 first
    obtain ⟨rest', t, later', same, last⟩ :=
      ih pictures' (sound.serve first) (fresh.2 next (step_of_serve first')) later
    exact ⟨(op, answer) :: rest', t, Unwinding.log_cons_ok first' later',
      by rw [List.map_cons, same], last⟩

/-- No operation of the run follows a stale entry exactly if the run with private heaps returns. -/
theorem Pictures.intact_iff_returns (pictures : Pictures s u) (sound : u.AllSound)
    {ops : List HeapOp} (fresh : Run.Guarded (step cfg) (Fresh cfg) s ops) :
    Run.Guarded (step cfg) (Intact cfg) s ops ↔
      ∃ log v, Unwinding.log (RouteLb.serve cfg) u (ops.map HeapOp.op) = .ok (log, v) := by
  induction ops generalizing s u with
  | nil => exact ⟨fun _ => ⟨[], u, rfl⟩, fun _ => trivial⟩
  | cons op ops ih =>
    constructor
    · rintro ⟨live, rest⟩
      obtain ⟨answer, mid, first⟩ := (pictures.intact_iff sound op).mp live
      obtain ⟨next, first', pictures', -⟩ := pictures.serve sound fresh.1 first
      have taken := step_of_serve first'
      obtain ⟨log, v, later⟩ :=
        (ih pictures' (sound.serve first) (fresh.2 next taken)).mp (rest next taken)
      exact ⟨_, v, Unwinding.log_cons_ok first later⟩
    · rintro ⟨log, v, done⟩
      obtain ⟨answer, mid, rest, first, later, -⟩ := Unwinding.log_cons_inv done
      refine ⟨(pictures.intact_iff sound op).mpr ⟨answer, mid, first⟩, fun next' taken' => ?_⟩
      obtain ⟨next, first', pictures', -⟩ := pictures.serve sound fresh.1 first
      rw [step_of_serve first', Except.ok.injEq] at taken'
      subst taken'
      exact (ih pictures' (sound.serve first) (fresh.2 next (step_of_serve first'))).mpr
        ⟨rest, v, later⟩

theorem pictures_init : Pictures init RouteLb.init where
  entries := fun _ => .none
  apart := fun found => by cases found

theorem allSound_init : RouteLb.init.AllSound := fun _ _ found => by cases found

/-- In every state of a run that follows no stale entry, the shared heap holds what private heaps
would. -/
theorem pictures_throughout (cfg : Config) {ops : List HeapOp}
    (fresh : Run.Guarded (step cfg) (Fresh cfg) init ops)
    (intact : Run.Guarded (step cfg) (Intact cfg) init ops) :
    Run.Always (step cfg) (fun s => ∃ u, Pictures s u ∧ u.AllSound) init ops := by
  refine Run.always_of_guarded ?_ ⟨_, pictures_init, allSound_init⟩ (fresh.and intact)
  rintro s op t ⟨u, pictures, sound⟩ ⟨free, live⟩ taken
  obtain ⟨answer, v, done⟩ := (pictures.intact_iff sound op).mp live
  obtain ⟨t', done', pictures', -⟩ := pictures.serve sound free done
  rw [step_of_serve done', Except.ok.injEq] at taken
  subst taken
  exact ⟨v, pictures', sound.serve done⟩

/-- As long as no operation follows a stale entry, an operation for one module leaves the load
balancer of another as it is, and the other gets the answers that it gets without the first. Where
the records lie may differ then. -/
theorem module_isolation (cfg : Config) {ops : List HeapOp}
    (fresh : Run.Guarded (step cfg) (Fresh cfg) init ops)
    (intact : Run.Guarded (step cfg) (Intact cfg) init ops) {m n : Int32 × Int32}
    (different : m ≠ n) :
    Run.Always (step cfg) (fun s => ∀ op : HeapOp, op.op.isFor m = true → s.Fresh cfg op →
      s.Intact cfg op → ∃ answer t, s.serve cfg op = .ok (answer, t) ∧
        t.lbs.lookup (packKey n.1 n.2) = s.lbs.lookup (packKey n.1 n.2) ∧
        t.contents n = s.contents n) init ops ∧
    ∀ purged : List HeapOp, purged.map HeapOp.op = (ops.map HeapOp.op).filter (!·.isFor m) →
      Run.Guarded (step cfg) (Fresh cfg) init purged →
      ∃ log t log' t', Unwinding.log (serve cfg) init ops = .ok (log, t) ∧
        Unwinding.log (serve cfg) init purged = .ok (log', t') ∧
        answersFor n log' = answersFor n log ∧ t'.contents n = t.contents n := by
  constructor
  · refine (pictures_throughout cfg fresh intact).mono ?_
    rintro s ⟨u, pictures, sound⟩ op mine free live
    obtain ⟨answer, v, done⟩ := (pictures.intact_iff sound op).mp live
    obtain ⟨t, done', -, spares⟩ := pictures.serve sound free done
    have spared := spares m (by simpa [RouteOp.isFor] using mine)
    exact ⟨answer, t, done', spared.members _ (RouteLb.packKey_ne different),
      spared.contents_eq different⟩
  · intro purged same fresh'
    obtain ⟨log, v, done⟩ := (pictures_init.intact_iff_returns allSound_init fresh).mp intact
    obtain ⟨logₚ, vₚ, doneₚ, alike, final⟩ := RouteLb.log_purged cfg RouteLb.init different done
    rw [← same] at doneₚ
    obtain ⟨log₁, t₁, done₁, rfl, pictures₁⟩ := pictures_init.log allSound_init fresh done
    obtain ⟨log₂, t₂, done₂, rfl, pictures₂⟩ := pictures_init.log allSound_init fresh' doneₚ
    refine ⟨log₁, t₁, log₂, t₂, done₁, done₂, ?_, ?_⟩
    · have answers (l : List (HeapOp × Answer)) : answersFor n l =
          (l.map fun e => (e.1.op, e.2)).filter (·.1.isFor n) := by
        rw [List.filter_map]
        rfl
      rw [answers, answers, alike]
    · rw [pictures₂.contents_eq, pictures₁.contents_eq, final]

/-- The new records are put at an address and those after it. -/
private def putAt (p : Ptr) (op : RouteOp) : HeapOp := ⟨op, (p + ·)⟩

/-- The only host of a module is replaced, and its address goes to a host of another. -/
private def reused : List HeapOp :=
  [putAt 0 (.getHost 0 1 (-1) ⟨7, 1, -1, 0, none⟩), putAt 0 (.getHost 0 0 5 ⟨8, 0, 5, 0, none⟩),
    putAt 0 (.updateHost 1 (fun _ => 1) 1 (-1) ⟨1, -1, [⟨1, 80⟩]⟩),
    putAt 1 (.updateHost 2 (fun _ => 2) 1 (-1) ⟨1, -1, [⟨2, 80⟩]⟩),
    putAt 0 (.updateHost 3 (fun _ => 3) 0 5 ⟨0, 5, [⟨3, 80⟩]⟩)]

/-- The other module without the first; its host lies elsewhere. -/
private def alone : List HeapOp :=
  [putAt 0 (.getHost 0 0 5 ⟨8, 0, 5, 0, none⟩),
    putAt 6 (.updateHost 3 (fun _ => 3) 0 5 ⟨0, 5, [⟨3, 80⟩]⟩)]

/-- A success of the other module. -/
private def success : HeapOp := putAt 0 (.reportHost 5 5 5 ⟨0, 5, ⟨3, 80⟩, 0⟩)

/-- A success at the host that the first module has lost. -/
private def astray : HeapOp := putAt 0 (.reportHost 4 4 4 ⟨1, -1, ⟨1, 80⟩, 0⟩)

private theorem reused_fresh {last : List HeapOp}
    (reports : ∀ op ∈ last, ∀ s : HeapRouteLb, s.Fresh .default op) :
    Run.Guarded (step .default) (Fresh .default) init (reused ++ last) := by
  refine ⟨trivial, ?_⟩
  rintro _ ⟨⟩
  refine ⟨trivial, ?_⟩
  rintro _ ⟨⟩
  refine ⟨?_, ?_⟩
  · rintro lb ⟨⟩
    exact ⟨fun _ => rfl, trivial⟩
  rintro _ ⟨⟩
  refine ⟨?_, ?_⟩
  · rintro lb ⟨⟩
    exact ⟨fun _ => rfl, trivial⟩
  rintro _ ⟨⟩
  refine ⟨?_, ?_⟩
  -- the host that was deleted has left address 0 free
  · rintro lb ⟨⟩
    exact ⟨fun _ => rfl, trivial⟩
  rintro _ ⟨⟩
  exact Run.guarded_of_forall reports

private theorem alone_fresh : Run.Guarded (step .default) (Fresh .default) init
    (alone ++ [success]) := by
  refine ⟨trivial, ?_⟩
  rintro _ ⟨⟩
  refine ⟨?_, ?_⟩
  · rintro lb ⟨⟩
    exact ⟨fun _ => rfl, trivial⟩
  rintro _ ⟨⟩
  exact ⟨trivial, fun _ _ => trivial⟩

private theorem success_fresh : ∀ op ∈ [success], ∀ s : HeapRouteLb, s.Fresh .default op := by
  intro op member s
  rw [List.mem_singleton.mp member]
  trivial

/-- The stale entry is there, but nothing follows it. -/
theorem module_isolation_reused :
    ∃ log t log' t', Unwinding.log (serve .default) init (reused ++ [success]) = .ok (log, t) ∧
      Unwinding.log (serve .default) init (alone ++ [success]) = .ok (log', t') ∧
      answersFor (0, 5) log' = answersFor (0, 5) log ∧ t'.contents (0, 5) = t.contents (0, 5) := by
  have fresh := reused_fresh success_fresh
  have intact : Run.Guarded (step .default) (Intact .default) init (reused ++ [success]) :=
    (pictures_init.intact_iff_returns allSound_init fresh).mpr ⟨_, _, rfl⟩
  exact (module_isolation .default fresh intact (by decide : ((1, -1) : Int32 × Int32) ≠ (0, 5))).2
    (alone ++ [success]) rfl alone_fresh

/-- A report that follows the stale entry counts at the host of the other module, whose own report
then tells of a success that it did not have. If the address is not given out again, the report
uses a freed record and ends the run. -/
theorem isolation_breaks :
    (Run.Guarded (step .default) (Fresh .default) init (reused ++ [astray, success]) ∧
      Run.Guarded (step .default) (Fresh .default) init (alone ++ [success]) ∧
      (alone ++ [success]).map HeapOp.op =
        ((reused ++ [astray, success]).map HeapOp.op).filter (!·.isFor (1, -1)) ∧
      ∃ log t log' t',
        Unwinding.log (serve .default) init (reused ++ [astray, success]) = .ok (log, t) ∧
        Unwinding.log (serve .default) init (alone ++ [success]) = .ok (log', t') ∧
        answersFor (0, 5) log' ≠ answersFor (0, 5) log) ∧
    (∃ s t, Run.run (step .default) init reused = .ok s ∧
      Run.run (step .default) init (reused ++ [astray]) = .ok t ∧
      t.contents (0, 5) ≠ s.contents (0, 5)) ∧
    Unwinding.log (serve .default) init (reused.take 4 ++ [astray]) = .error .useAfterFree := by
  have reports : ∀ op ∈ [astray, success], ∀ s : HeapRouteLb, s.Fresh .default op := by
    intro op member s
    rcases List.mem_pair.mp member with rfl | rfl <;> trivial
  refine ⟨⟨reused_fresh reports, alone_fresh, rfl, _, _, _, _, rfl, rfl, ?_⟩,
    ⟨_, _, rfl, rfl, ?_⟩, rfl⟩
  · intro same
    have told := congrArg (List.map Prod.snd) same
    revert told
    decide
  · intro same
    have told := congrArg (Option.map LoadBalance.Contents.idle) same
    revert told
    decide

end HeapRouteLb

end Lars.Agent
