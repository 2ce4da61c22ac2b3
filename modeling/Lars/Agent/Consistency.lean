import Lars.Agent.LoadBalance
import Lars.Lib.Run

/-!
# The map, the lists and the flags

`update` frees the record of a host that has left the route but keeps its entry
in `_host_map`. Such an entry is *stale*. `Sound` is what every operation keeps
as long as it touches no stale entry; together with the absence of stale
entries it is the agreement of the three containers.
-/
namespace Lars.Agent.LoadBalance

open Proto (retSucc)

/-- The entry of `_host_map` outlives its record. -/
def Stale (lb : LoadBalance) (key : UInt64) : Prop :=
  ∃ p, lb.hostMap.lookup key = some p ∧ lb.heap p = none

/-- The records in use are filed under their own keys and are exactly those on the lists. -/
structure Sound (lb : LoadBalance) : Prop where
  owned : ∀ p hi, lb.heap p = some hi → lb.hostMap.lookup hi.key = some p
  distinct : ∀ k k' p, lb.hostMap.lookup k = some p → lb.hostMap.lookup k' = some p → k = k'
  bounded : ∀ k p, lb.hostMap.lookup k = some p → p < lb.nextPtr
  listed : ∀ p, p ∈ lb.idleList ++ lb.overloadList ↔ ∃ hi, lb.heap p = some hi
  nodup : (lb.idleList ++ lb.overloadList).Nodup
  flag : ∀ p hi, lb.heap p = some hi → (p ∈ lb.overloadList ↔ hi.overload = true)

/-- The keys of `_host_map` are the keys of the hosts on the two lists, every host is on them
once, a host is filed under its own address, and the overload flag names the list. -/
structure Agrees (lb : LoadBalance) : Prop where
  keys : ∀ k, k ∈ lb.hostMap ↔
    ∃ p ∈ lb.idleList ++ lb.overloadList, ∃ hi, lb.heap p = some hi ∧ hi.key = k
  once : ∀ p ∈ lb.idleList ++ lb.overloadList, (lb.idleList ++ lb.overloadList).count p = 1
  filed : ∀ ip port p, lb.hostMap.lookup (packKey ip port) = some p →
    p ∈ lb.idleList ++ lb.overloadList ∧
      ∃ hi, lb.heap p = some hi ∧ hi.ip = ip.toUInt32 ∧ hi.port = port
  flagged : ∀ p ∈ lb.idleList ++ lb.overloadList,
    ∃ hi, lb.heap p = some hi ∧ (p ∈ lb.overloadList ↔ hi.overload = true)

@[simp] theorem mem_remove {l : List Ptr} {p q : Ptr} : q ∈ remove l p ↔ q ∈ l ∧ q ≠ p := by
  simp [remove]

/-! ### Keys of records -/

@[simp] theorem key_setOverload (cfg : Config) (ts : Int) (hi : HostInfo) :
    (hi.setOverload cfg ts).key = hi.key := rfl

@[simp] theorem key_setIdle (cfg : Config) (ts : Int) (hi : HostInfo) :
    (hi.setIdle cfg ts).key = hi.key := rfl

@[simp] theorem key_count (retcode : Int32) (hi : HostInfo) :
    (hi.count retcode).key = hi.key := by
  unfold HostInfo.count
  split <;> rfl

@[simp] theorem overload_count (retcode : Int32) (hi : HostInfo) :
    (hi.count retcode).overload = hi.overload := by
  unfold HostInfo.count
  split <;> rfl

@[simp] theorem key_new (h : Proto.HostInfo) (initSucc : Int32) (ts : Int) :
    (HostInfo.new h.ip.toUInt32 h.port initSucc ts).key = h.key := by
  simp [HostInfo.key, HostInfo.new, Proto.HostInfo.key]

theorem key_toProto (hi : HostInfo) : hi.toProto.key = hi.key := rfl

theorem ip_port_of_key {hi : HostInfo} {ip port : Int32} (same : hi.key = packKey ip port) :
    hi.ip = ip.toUInt32 ∧ hi.port = port := by
  obtain ⟨high, low⟩ := packKey_inj same
  exact ⟨by rw [← high]; simp, low⟩

theorem mem_hostMap {m : AList (fun _ : UInt64 => Ptr)} {k : UInt64} :
    k ∈ m ↔ ∃ p, m.lookup k = some p := by
  rw [← AList.lookup_isSome, Option.isSome_iff_exists]

/-! ### `Sound` and `Agrees` -/

theorem Sound.init (modid cmdid : Int32) (now : Int) : Sound (init modid cmdid now) where
  owned := by simp [LoadBalance.init]
  distinct := by simp [LoadBalance.init]
  bounded := by simp [LoadBalance.init]
  listed := by simp [LoadBalance.init]
  nodup := by simp [LoadBalance.init]
  flag := by simp [LoadBalance.init]

theorem not_stale_init (modid cmdid : Int32) (now : Int) (k : UInt64) :
    ¬ (LoadBalance.init modid cmdid now).Stale k := by
  simp [Stale, LoadBalance.init]

variable {lb : LoadBalance}

/-- The status and the time of the last answer are no part of it. -/
theorem Sound.mark (sound : Sound lb) (status : Status) (time : Int) :
    Sound { lb with status := status, lastUpdateTime := time } :=
  ⟨sound.owned, sound.distinct, sound.bounded, sound.listed, sound.nodup, sound.flag⟩

theorem not_stale {key : UInt64} {p : Ptr} {hi : HostInfo}
    (entry : lb.hostMap.lookup key = some p) (cell : lb.heap p = some hi) : ¬ lb.Stale key := by
  rintro ⟨q, again, gone⟩
  rw [entry] at again
  cases again
  rw [cell] at gone
  cases gone

/-- An entry that is not stale leads to the record with that key. -/
theorem Sound.find (sound : Sound lb) {k : UInt64} {p : Ptr}
    (entry : lb.hostMap.lookup k = some p) (live : ¬ lb.Stale k) :
    ∃ hi, lb.heap p = some hi ∧ hi.key = k := by
  cases cell : lb.heap p with
  | none => exact absurd ⟨p, entry, cell⟩ live
  | some hi => exact ⟨hi, rfl, sound.distinct _ _ p (sound.owned p hi cell) entry⟩

theorem Sound.mem_idle (sound : Sound lb) {p : Ptr} {hi : HostInfo} (cell : lb.heap p = some hi) :
    p ∈ lb.idleList ↔ hi.overload = false := by
  have either := (sound.listed p).mpr ⟨hi, cell⟩
  have flag := sound.flag p hi cell
  have apart := List.nodup_append.mp sound.nodup
  rw [List.mem_append] at either
  constructor
  · intro idle
    by_contra overloaded
    have other := flag.mpr (by simpa using overloaded)
    exact apart.2.2 p idle p other rfl
  · intro idle
    have := flag.not.mpr (by simp [idle])
    tauto

theorem Sound.agrees_iff (sound : Sound lb) : Agrees lb ↔ ∀ k, ¬ lb.Stale k := by
  constructor
  · rintro agrees k ⟨p, entry, gone⟩
    -- the listed host with this key has a record, and the map has only one pointer for the key
    obtain ⟨q, onList, hi, cell, same⟩ := (agrees.keys k).mp (mem_hostMap.mpr ⟨p, entry⟩)
    have entry' := sound.owned q hi cell
    rw [same, entry] at entry'
    cases entry'
    rw [gone] at cell
    cases cell
  · intro live
    refine ⟨?_, ?_, ?_, ?_⟩
    · intro k
      constructor
      · intro member
        obtain ⟨p, entry⟩ := mem_hostMap.mp member
        obtain ⟨hi, cell, same⟩ := sound.find entry (live k)
        exact ⟨p, (sound.listed p).mpr ⟨hi, cell⟩, hi, cell, same⟩
      · rintro ⟨p, -, hi, cell, rfl⟩
        exact mem_hostMap.mpr ⟨p, sound.owned p hi cell⟩
    · exact fun p onList => List.count_eq_one_of_mem sound.nodup onList
    · intro ip port p entry
      obtain ⟨hi, cell, same⟩ := sound.find entry (live _)
      exact ⟨(sound.listed p).mpr ⟨hi, cell⟩, hi, cell, ip_port_of_key same⟩
    · intro p onList
      obtain ⟨hi, cell⟩ := (sound.listed p).mp onList
      exact ⟨hi, cell, sound.flag p hi cell⟩

/-! ### Changing one record -/

/-- A record may be rewritten under its own key if its pointer ends up on the list that its new
flag names and no other pointer moves. -/
theorem Sound.rewrite (sound : Sound lb) {p : Ptr} {old hi : HostInfo} (cell : lb.heap p = some old)
    (same : hi.key = old.key) {idle overloaded : List Ptr}
    (idleOthers : ∀ q, q ≠ p → (q ∈ idle ↔ q ∈ lb.idleList))
    (overloadOthers : ∀ q, q ≠ p → (q ∈ overloaded ↔ q ∈ lb.overloadList))
    (here : p ∈ idle ++ overloaded) (flag : p ∈ overloaded ↔ hi.overload = true)
    (nodup : (idle ++ overloaded).Nodup) :
    Sound { lb.store p hi with idleList := idle, overloadList := overloaded } where
  owned := by
    intro q hi' cell'
    by_cases eq : q = p
    · subst eq
      simp only [store, Function.update_self, Option.some.injEq] at cell'
      subst cell'
      rw [same]
      exact sound.owned q old cell
    · simp only [store, Function.update_of_ne eq] at cell'
      exact sound.owned q hi' cell'
  distinct := sound.distinct
  bounded := sound.bounded
  listed := by
    intro q
    by_cases eq : q = p
    · subst eq
      simp [store, here]
    · have others := sound.listed q
      simp only [List.mem_append] at others
      simp only [store, Function.update_of_ne eq, List.mem_append, idleOthers q eq,
        overloadOthers q eq, others]
  nodup := nodup
  flag := by
    intro q hi' cell'
    by_cases eq : q = p
    · subst eq
      simp only [store, Function.update_self, Option.some.injEq] at cell'
      subst cell'
      exact flag
    · simp only [store, Function.update_of_ne eq] at cell'
      exact (overloadOthers q eq).trans (sound.flag q hi' cell')

theorem Sound.store (sound : Sound lb) {p : Ptr} {old hi : HostInfo} (cell : lb.heap p = some old)
    (same : hi.key = old.key) (flag : hi.overload = old.overload) : Sound (lb.store p hi) :=
  sound.rewrite cell same (fun _ _ => Iff.rfl) (fun _ _ => Iff.rfl)
    ((sound.listed p).mpr ⟨old, cell⟩) (by rw [flag]; exact sound.flag p old cell) sound.nodup

/-- Moving the last copy of a pointer from one list to the end of the other repeats nothing. -/
private theorem nodup_move {l m : List Ptr} {p : Ptr} (nodup : (l ++ m).Nodup) (absent : p ∉ m) :
    (remove l p ++ (m ++ [p])).Nodup := by
  have parts := List.nodup_append.mp nodup
  refine List.nodup_append.mpr ⟨parts.1.filter _, ?_, ?_⟩
  · exact List.nodup_append.mpr ⟨parts.2.1, List.nodup_singleton p, by
      intro a ha b hb eq
      exact absent (by rw [← List.mem_singleton.mp hb, ← eq]; exact ha)⟩
  · intro a ha b hb eq
    obtain ⟨member, ne⟩ := mem_remove.mp ha
    rcases List.mem_append.mp hb with hb | hb
    · exact parts.2.2 a member b hb eq
    · exact ne (eq.trans (List.mem_singleton.mp hb))

theorem Sound.toOverload (sound : Sound lb) (cfg : Config) (ts : Int) {p : Ptr} {old hi : HostInfo}
    (cell : lb.heap p = some old) (same : hi.key = old.key) (idle : old.overload = false) :
    Sound (lb.toOverload cfg ts p hi) := by
  -- an idle record is not on the other list, so appending it there repeats nothing
  have absent : p ∉ lb.overloadList := by simp [sound.flag p old cell, idle]
  refine sound.rewrite cell (by simpa using same) ?_ ?_ (by simp) ?_ ?_
  · intro q ne
    simp [ne]
  · intro q ne
    simp [ne]
  · simp [HostInfo.setOverload]
  · exact nodup_move sound.nodup absent

theorem Sound.toIdle (sound : Sound lb) (cfg : Config) (ts : Int) {p : Ptr} {old hi : HostInfo}
    (cell : lb.heap p = some old) (same : hi.key = old.key) (overloaded : old.overload = true) :
    Sound (lb.toIdle cfg ts p hi) := by
  have absent : p ∉ lb.idleList := by simp [sound.mem_idle cell, overloaded]
  refine sound.rewrite cell (by simpa using same) ?_ ?_ (by simp) ?_ ?_
  · intro q ne
    simp [ne]
  · intro q ne
    simp [ne]
  · simp [HostInfo.setIdle]
  · -- the same move with the two lists in the other order
    have swapped := nodup_move (List.nodup_append_comm.mp sound.nodup) absent
    exact List.nodup_append_comm.mp swapped

/-! ### `report` -/

/-- No entry is added and no record freed, so exactly the same entries are stale. -/
structure Retains (lb lb' : LoadBalance) : Prop where
  map : lb'.hostMap = lb.hostMap
  cells : ∀ p, lb'.heap p = none ↔ lb.heap p = none

theorem Retains.refl (lb : LoadBalance) : Retains lb lb := ⟨rfl, fun _ => Iff.rfl⟩

theorem Retains.stale_iff {lb' : LoadBalance} (retains : Retains lb lb') (k : UInt64) :
    lb'.Stale k ↔ lb.Stale k := by
  simp only [Stale, retains.map, retains.cells]

theorem retains_store {p : Ptr} {old : HostInfo} (cell : lb.heap p = some old) (hi : HostInfo)
    (idle overloaded : List Ptr) :
    Retains lb { lb.store p hi with idleList := idle, overloadList := overloaded } where
  map := rfl
  cells := by
    intro q
    by_cases eq : q = p
    · subst eq
      simp [store, cell]
    · simp [store, Function.update_of_ne eq]

theorem checkTimeout_spec (sound : Sound lb) (cfg : Config) (now ts : Int) {p : Ptr}
    {old hi : HostInfo} (cell : lb.heap p = some old) (same : hi.key = old.key)
    (flag : hi.overload = old.overload) :
    Sound (lb.checkTimeout cfg now ts p hi) ∧ Retains lb (lb.checkTimeout cfg now ts p hi) := by
  unfold checkTimeout
  split
  next idle =>
    split
    -- a new window: the record is reset and stays idle
    · exact ⟨sound.store cell (by simpa using same) (by rw [← flag, idle]; rfl),
        retains_store cell _ _ _⟩
    · exact ⟨sound.store cell same flag, retains_store cell _ _ _⟩
  next busy =>
    split
    · have overloaded : old.overload = true := by rw [← flag]; simpa using busy
      exact ⟨sound.toIdle cfg ts cell same overloaded, retains_store cell _ _ _⟩
    · exact ⟨sound.store cell same flag, retains_store cell _ _ _⟩

theorem judge_spec (sound : Sound lb) (cfg : Config) (now ts : Int) (retcode : Int32) {p : Ptr}
    {old hi : HostInfo} (cell : lb.heap p = some old) (same : hi.key = old.key)
    (flag : hi.overload = old.overload) :
    Sound (lb.judge cfg now ts retcode p hi) ∧ Retains lb (lb.judge cfg now ts retcode p hi) := by
  have timeout := checkTimeout_spec sound cfg now ts cell same flag
  unfold judge
  split
  next failed =>
    split
    · exact ⟨sound.toOverload cfg ts cell same (by rw [← flag]; exact failed.1),
        retains_store cell _ _ _⟩
    · exact timeout
  next =>
    split
    next recovered =>
      split
      · exact ⟨sound.toIdle cfg ts cell same (by rw [← flag]; exact recovered.1),
          retains_store cell _ _ _⟩
      · exact timeout
    next => exact timeout

/-- A report returns unless the entry it finds is stale. -/
theorem report_spec (sound : Sound lb) (cfg : Config) (now ts : Int) (ip port retcode : Int32)
    (live : ¬ lb.Stale (packKey ip port)) :
    ∃ lb', lb.report cfg now ts ip port retcode = .ok lb' ∧ Sound lb' ∧ Retains lb lb' := by
  unfold report
  cases entry : lb.hostMap.lookup (packKey ip port) with
  | none => exact ⟨lb, rfl, sound, .refl lb⟩
  | some p =>
    obtain ⟨old, cell, -⟩ := sound.find entry live
    have judged := judge_spec sound cfg now ts retcode cell (key_count retcode old)
      (overload_count retcode old)
    exact ⟨_, by simp only [cell], judged⟩

theorem report_stale (cfg : Config) (now ts : Int) (ip port retcode : Int32)
    (stale : lb.Stale (packKey ip port)) :
    lb.report cfg now ts ip port retcode = .error .useAfterFree := by
  obtain ⟨p, entry, gone⟩ := stale
  simp only [report, entry, gone]

/-! ### `choice_one_host` -/

/-- A host that can be handed out. -/
def Serves (lb : LoadBalance) (k : UInt64) : Prop :=
  ∃ p ∈ lb.idleList ++ lb.overloadList, ∃ hi, lb.heap p = some hi ∧ hi.key = k

theorem Sound.serves_iff (sound : Sound lb) (k : UInt64) :
    lb.Serves k ↔ k ∈ lb.hostMap ∧ ¬ lb.Stale k := by
  constructor
  · rintro ⟨p, -, hi, cell, rfl⟩
    have entry := sound.owned p hi cell
    refine ⟨mem_hostMap.mpr ⟨p, entry⟩, ?_⟩
    rintro ⟨q, entry', gone⟩
    rw [entry] at entry'
    cases entry'
    rw [gone] at cell
    cases cell
  · rintro ⟨member, live⟩
    obtain ⟨p, entry⟩ := mem_hostMap.mp member
    obtain ⟨hi, cell, same⟩ := sound.find entry live
    exact ⟨p, (sound.listed p).mpr ⟨hi, cell⟩, hi, cell, same⟩

/-- Rotating a list, or counting an access, keeps every fact about the containers. -/
theorem Sound.reorder (sound : Sound lb) {idle overloaded : List Ptr}
    (sameIdle : idle.Perm lb.idleList) (sameOverload : overloaded.Perm lb.overloadList)
    (cnt : Int) :
    Sound { lb with idleList := idle, overloadList := overloaded, accessCnt := cnt } where
  owned := sound.owned
  distinct := sound.distinct
  bounded := sound.bounded
  listed := fun p => ((sameIdle.append sameOverload).mem_iff).trans (sound.listed p)
  nodup := ((sameIdle.append sameOverload).nodup_iff).mpr sound.nodup
  flag := fun p hi cell => sameOverload.mem_iff.trans (sound.flag p hi cell)

/-- What one call may do: the containers change their order only, and a host that is
handed out comes from them. -/
structure Chosen (lb : LoadBalance) (ret : Int32) (host : Option Proto.HostInfo)
    (lb' : LoadBalance) : Prop where
  sound : Sound lb'
  retains : Retains lb lb'
  served : ∀ h, host = some h → lb.Serves h.key
  given : ret = retSucc → host.isSome = true

theorem getHostFromList_inv {l l' : List Ptr} {h : Proto.HostInfo}
    (done : lb.getHostFromList l = .ok (h, l')) :
    ∃ p rest hi, l = p :: rest ∧ l' = rest ++ [p] ∧ lb.heap p = some hi ∧ h = hi.toProto := by
  cases l with
  | nil => simp [getHostFromList] at done
  | cons p rest =>
    cases cell : lb.heap p with
    | none => simp [getHostFromList, cell] at done
    | some hi =>
      simp only [getHostFromList, cell, Except.ok.injEq, Prod.mk.injEq] at done
      exact ⟨p, rest, hi, rfl, done.2.symm, cell, done.1.symm⟩

private theorem probeOverload_spec (sound : Sound lb) {ret : Int32} {host : Option Proto.HostInfo}
    {lb' : LoadBalance} (done : lb.probeOverload = .ok (ret, host, lb')) :
    Chosen lb ret host lb' := by
  unfold probeOverload at done
  cases taken : lb.getHostFromList lb.overloadList with
  | error e => simp [taken] at done
  | ok given =>
    obtain ⟨h, l⟩ := given
    obtain ⟨p, rest, hi, order, rotated, cell, rfl⟩ := getHostFromList_inv taken
    simp only [taken, Except.ok.injEq, Prod.mk.injEq] at done
    obtain ⟨rfl, rfl, rfl⟩ := done
    refine ⟨sound.reorder (.refl _) ?_ 0, ⟨rfl, fun _ => Iff.rfl⟩, ?_, fun _ => rfl⟩
    -- the head has moved to the end of its list
    · rw [rotated, order]
      exact List.perm_append_singleton p rest
    · rintro _ ⟨⟩
      exact ⟨p, by simp [order], hi, cell, rfl⟩

private theorem serveIdle_spec (sound : Sound lb) {ret : Int32} {host : Option Proto.HostInfo}
    {lb' : LoadBalance} (done : lb.serveIdle = .ok (ret, host, lb')) : Chosen lb ret host lb' := by
  unfold serveIdle at done
  cases taken : lb.getHostFromList lb.idleList with
  | error e => simp [taken] at done
  | ok given =>
    obtain ⟨h, l⟩ := given
    obtain ⟨p, rest, hi, order, rotated, cell, rfl⟩ := getHostFromList_inv taken
    simp only [taken, Except.ok.injEq, Prod.mk.injEq] at done
    obtain ⟨rfl, rfl, rfl⟩ := done
    refine ⟨sound.reorder ?_ (.refl _) lb.accessCnt, ⟨rfl, fun _ => Iff.rfl⟩, ?_, fun _ => rfl⟩
    · rw [rotated, order]
      exact List.perm_append_singleton p rest
    · rintro _ ⟨⟩
      exact ⟨p, by simp [order], hi, cell, rfl⟩

theorem choiceOneHost_spec (sound : Sound lb) (cfg : Config) {ret : Int32}
    {host : Option Proto.HostInfo} {lb' : LoadBalance}
    (done : lb.choiceOneHost cfg = .ok (ret, host, lb')) : Chosen lb ret host lb' := by
  -- the two branches that do not probe count the access first
  have counted := sound.reorder (.refl lb.idleList) (.refl lb.overloadList) (lb.accessCnt + 1)
  unfold choiceOneHost at done
  split at done
  · split at done
    · exact probeOverload_spec sound done
    · simp only [Except.ok.injEq, Prod.mk.injEq] at done
      obtain ⟨rfl, rfl, rfl⟩ := done
      exact ⟨counted, ⟨rfl, fun _ => Iff.rfl⟩, by simp, by simp [retSucc, Proto.retOverload]⟩
  · split at done
    · exact serveIdle_spec sound done
    · split at done
      · exact probeOverload_spec sound done
      · have chosen := serveIdle_spec counted done
        exact ⟨chosen.sound, ⟨chosen.retains.map, chosen.retains.cells⟩, chosen.served, chosen.given⟩

/-- Beside the order of the lists only the number of accesses changes. -/
theorem choiceOneHost_frame {cfg : Config} {ret : Int32} {host : Option Proto.HostInfo}
    {lb' : LoadBalance} (done : lb.choiceOneHost cfg = .ok (ret, host, lb')) :
    ∃ idle overloaded cnt,
      lb' = { lb with idleList := idle, overloadList := overloaded, accessCnt := cnt } := by
  have probe : ∀ {lb' : LoadBalance}, lb.probeOverload = .ok (ret, host, lb') →
      ∃ idle overloaded cnt,
        lb' = { lb with idleList := idle, overloadList := overloaded, accessCnt := cnt } := by
    intro lb' probed
    unfold probeOverload at probed
    split at probed <;> cases probed
    exact ⟨_, _, _, rfl⟩
  have serve : ∀ {cnt : Int} {lb' : LoadBalance},
      { lb with accessCnt := cnt }.serveIdle = .ok (ret, host, lb') →
      ∃ idle overloaded cnt,
        lb' = { lb with idleList := idle, overloadList := overloaded, accessCnt := cnt } := by
    intro cnt lb' served
    unfold serveIdle at served
    split at served <;> cases served
    exact ⟨_, _, _, rfl⟩
  unfold choiceOneHost at done
  split at done
  · split at done
    · exact probe done
    · cases done
      exact ⟨_, _, _, rfl⟩
  · split at done
    · exact serve done
    · split at done
      · exact probe done
      · exact serve done

theorem getHostFromList_ok (sound : Sound lb) {l : List Ptr} (nonempty : l ≠ [])
    (listed : ∀ p ∈ l, p ∈ lb.idleList ++ lb.overloadList) :
    ∃ given, lb.getHostFromList l = .ok given := by
  obtain ⟨p, rest, rfl⟩ := List.exists_cons_of_ne_nil nonempty
  obtain ⟨hi, cell⟩ := (sound.listed p).mp (listed p (by simp))
  simp only [getHostFromList, cell]
  exact ⟨_, rfl⟩

/-- With a host on some list no call fails, whichever list the branch reads. -/
theorem choiceOneHost_ok (sound : Sound lb) (cfg : Config)
    (nonempty : lb.idleList ++ lb.overloadList ≠ []) :
    ∃ result, lb.choiceOneHost cfg = .ok result := by
  have probe : lb.overloadList ≠ [] → ∃ result, lb.probeOverload = .ok result := by
    intro some
    obtain ⟨⟨h, l⟩, taken⟩ := getHostFromList_ok sound some (by simp +contextual)
    simp only [probeOverload, taken]
    exact ⟨_, rfl⟩
  have serve : ∀ cnt, lb.idleList ≠ [] →
      ∃ result, { lb with accessCnt := cnt }.serveIdle = .ok result := by
    intro cnt some
    obtain ⟨⟨h, l⟩, taken⟩ := getHostFromList_ok
      (sound.reorder (.refl lb.idleList) (.refl lb.overloadList) cnt) some (by simp +contextual)
    simp only [serveIdle, taken]
    exact ⟨_, rfl⟩
  unfold choiceOneHost
  split
  next noIdle =>
    split
    -- without an idle host the probe finds the list that the hypothesis promises
    · exact probe (by simpa [noIdle] using nonempty)
    · exact ⟨_, rfl⟩
  next idle =>
    split
    · exact serve lb.accessCnt idle
    next busy =>
      split
      · exact probe busy
      · exact serve _ idle

end Lars.Agent.LoadBalance
