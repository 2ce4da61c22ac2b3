import Lars.Agent.Independence
import Lars.Agent.Serving

/-!
# What goes to the reporter

After every report the agent sends the counters of all hosts of the module to the
reporter. `report` may have reset the counters of the one host by then, with a
change of its state or the end of its window, and so the result that caused this
is sent nowhere.
-/
namespace Lars.Agent

open Proto (retSucc)

/-- The key of the host that an entry is about. -/
def resultKey (res : Proto.HostCallResult) : UInt64 := packKey res.ip res.port

/-- The counter that a result goes to. -/
def counter (retcode : Int32) (succ err : UInt32) : UInt32 :=
  if retcode = retSucc then succ else err

namespace HostInfo

/-- A report with this result changes no state and ends no window. -/
def Steady (cfg : Config) (now : Int) (retcode : Int32) (hi : HostInfo) : Prop :=
  if hi.overload then
    ¬(retcode = retSucc ∧ (hi.count retcode).isIdle cfg) ∧ now - hi.overloadTs < cfg.overloadTimeout
  else
    ¬(retcode ≠ retSucc ∧ (hi.count retcode).isOverload cfg) ∧ now - hi.idleTs < cfg.idleTimeout

/-- The counter of such results does not wrap around. -/
def Countable (retcode : Int32) (hi : HostInfo) : Prop :=
  (counter retcode hi.rsucc hi.rerr).toNat + 1 < 2 ^ 32

instance (cfg : Config) (now : Int) (retcode : Int32) (hi : HostInfo) :
    Decidable (hi.Steady cfg now retcode) :=
  inferInstanceAs (Decidable (if hi.overload = true then _ ∧ _ else _ ∧ _))

instance (retcode : Int32) (hi : HostInfo) : Decidable (hi.Countable retcode) :=
  inferInstanceAs (Decidable (_ < _))

theorem count_overloadTs (retcode : Int32) (hi : HostInfo) :
    (hi.count retcode).overloadTs = hi.overloadTs := by
  unfold count
  split <;> rfl

theorem count_idleTs (retcode : Int32) (hi : HostInfo) :
    (hi.count retcode).idleTs = hi.idleTs := by
  unfold count
  split <;> rfl

/-- The record after a report: with the result counted, or reset. -/
theorem reported_cases (cfg : Config) (r : Report) (hi : HostInfo) :
    (hi.Steady cfg r.now r.retcode ∧ hi.reported cfg r = hi.count r.retcode) ∨
      (¬hi.Steady cfg r.now r.retcode ∧ (hi.reported cfg r).rsucc = 0 ∧
        (hi.reported cfg r).rerr = 0) := by
  simp only [Steady, reported, judged, LoadBalance.overload_count, count_overloadTs, count_idleTs]
  cases hi.overload with
  | false =>
    simp only [Bool.false_eq_true, ↓reduceIte]
    split
    next fails => exact .inr ⟨fun steady => steady.1 fails, rfl, rfl⟩
    next kept =>
      split
      next late => exact .inr ⟨fun steady => absurd steady.2 (not_lt.mpr late), rfl, rfl⟩
      next early => exact .inl ⟨⟨kept, not_le.mp early⟩, rfl⟩
  | true =>
    simp only [↓reduceIte]
    split
    next moved =>
      refine .inr ⟨?_, rfl, rfl⟩
      rintro ⟨kept, early⟩
      rcases moved with recovers | late
      · exact kept recovers
      · exact absurd early (not_lt.mpr late)
    next kept =>
      rw [not_or] at kept
      exact .inl ⟨⟨kept.1, not_le.mp kept.2⟩, rfl⟩

theorem key_reported (cfg : Config) (r : Report) (hi : HostInfo) :
    (hi.reported cfg r).key = hi.key := by
  have counted : (hi.count r.retcode).key = hi.key := LoadBalance.key_count r.retcode hi
  unfold reported judged
  split_ifs <;> exact counted

/-- The result is in the counters exactly if nothing was reset and nothing wrapped around. -/
theorem counted_iff (cfg : Config) (r : Report) (hi : HostInfo) :
    1 ≤ (counter r.retcode (hi.reported cfg r).rsucc (hi.reported cfg r).rerr).toNat ↔
      hi.Steady cfg r.now r.retcode ∧ hi.Countable r.retcode := by
  rcases reported_cases cfg r hi with ⟨steady, counted⟩ | ⟨moved, rsucc, rerr⟩
  · have wraps (n : UInt32) : 1 ≤ (n + 1).toNat ↔ n.toNat + 1 < 2 ^ 32 := by
      have bound := n.toNat_lt
      rw [UInt32.toNat_add]
      simp only [UInt32.toNat_one]
      omega
    rw [counted, and_iff_right steady]
    by_cases good : r.retcode = retSucc
    · simp only [counter, Countable, count, if_pos good]
      exact wraps hi.rsucc
    · simp only [counter, Countable, count, if_neg good]
      exact wraps hi.rerr
  · rw [rsucc, rerr, counter, ite_self]
    exact ⟨fun one => absurd one (by decide), fun both => absurd both.1 moved⟩

end HostInfo

/-! ### One report and what is sent for it -/

/-- The report to the reporter, after a result for the host `key` has left `lb`: each host has one
entry with its flag, and that of `key` has the result in it. -/
structure Tells (key : UInt64) (retcode : Int32) (lb : LoadBalance)
    (sent : Proto.ReportStatusRequest) : Prop where
  once : (sent.results.map resultKey).Nodup
  hosts : ∀ k, k ∈ sent.results.map resultKey ↔ k ∈ lb.hostMap
  flags : ∀ res ∈ sent.results, ∃ p hi, lb.hostMap.lookup (resultKey res) = some p ∧
    lb.heap p = some hi ∧ res.overload = hi.overload
  counts : ∀ res ∈ sent.results, resultKey res = key → 1 ≤ (counter retcode res.succ res.err).toNat

namespace LoadBalance

variable {lb : LoadBalance}

/-- Every pointer on the lists is one of the map. -/
def Mapped (lb : LoadBalance) : Prop :=
  ∀ p ∈ lb.idleList ++ lb.overloadList, ∃ k, lb.hostMap.lookup k = some p

theorem Sound.mapped (sound : Sound lb) : lb.Mapped := by
  intro p onList
  obtain ⟨hi, cell⟩ := (sound.listed p).mp onList
  exact ⟨hi.key, sound.owned p hi cell⟩

/-- The map leads back from a record on the lists to its pointer. -/
theorem Agrees.owned (agrees : Agrees lb) (mapped : lb.Mapped) {p : Ptr}
    (onList : p ∈ lb.idleList ++ lb.overloadList) {hi : HostInfo} (cell : lb.heap p = some hi) :
    lb.hostMap.lookup hi.key = some p := by
  obtain ⟨k, entry⟩ := mapped p onList
  -- the key is made of an address, which is that of the record
  obtain ⟨_, -, other, -, rfl⟩ := (agrees.keys k).mp (mem_hostMap.mpr ⟨p, entry⟩)
  obtain ⟨-, hi', cell', isIp, isPort⟩ := agrees.filed other.ip.toInt32 other.port p entry
  rw [cell] at cell'
  cases cell'
  have same : hi.key = other.key := by
    rw [HostInfo.key, HostInfo.key, isIp, isPort]
    simp
  rw [same]
  exact entry

theorem mem_read {ps : List Ptr} {his : List HostInfo}
    (read : List.Forall₂ (fun p hi => lb.heap p = some hi) ps his) {hi : HostInfo} :
    hi ∈ his ↔ ∃ p ∈ ps, lb.heap p = some hi := by
  induction read with
  | nil => simp
  | cons cell rest ih =>
    rw [List.mem_cons, ih, List.exists_mem_cons_iff, cell, Option.some.injEq, eq_comm]

theorem Agrees.live (agrees : Agrees lb) {p : Ptr}
    (onList : p ∈ lb.idleList ++ lb.overloadList) : ∃ hi, lb.heap p = some hi := by
  obtain ⟨hi, cell, -⟩ := agrees.flagged p onList
  exact ⟨hi, cell⟩

/-- The list that a host is on is the one of its flag. -/
theorem Agrees.flag_eq (agrees : Agrees lb) {p : Ptr} {hi : HostInfo} (cell : lb.heap p = some hi) :
    (p ∈ lb.idleList → hi.overload = false) ∧ (p ∈ lb.overloadList → hi.overload = true) := by
  have apart := (List.nodup_append.mp agrees.nodup).2.2
  constructor
  · intro idle
    obtain ⟨hi', cell', flag⟩ := agrees.flagged p (List.mem_append_left _ idle)
    cases cell.symm.trans cell'
    by_contra overloaded
    exact apart p idle p (flag.mpr (by simpa using overloaded)) rfl
  · intro overloaded
    obtain ⟨hi', cell', flag⟩ := agrees.flagged p (List.mem_append_right _ overloaded)
    cases cell.symm.trans cell'
    exact flag.mp overloaded

/-- What `commit` sends while map and lists agree. -/
theorem commit_tells (agrees : Agrees lb) (mapped : lb.Mapped) (nonempty : lb.empty = false)
    (now : Int) :
    ∃ sent, lb.commit now = .ok (some sent) ∧ (sent.results.map resultKey).Nodup ∧
      (∀ k, k ∈ sent.results.map resultKey ↔ k ∈ lb.hostMap) ∧
      ∀ res ∈ sent.results, ∃ p hi, lb.hostMap.lookup (resultKey res) = some p ∧
        lb.heap p = some hi ∧ res = callResult hi.overload hi := by
  obtain ⟨idle, first⟩ := readAll_ok fun p member => agrees.live (List.mem_append_left _ member)
  obtain ⟨busy, second⟩ := readAll_ok fun p member => agrees.live (List.mem_append_right _ member)
  have read := List.rel_append (readAll_inv first) (readAll_inv second)
  have distinct := (nodup_hosts read agrees.nodup fun p onList hi => agrees.owned mapped onList).1
  have keys : (idle.map (callResult false) ++ busy.map (callResult true)).map resultKey =
      ((idle ++ busy).map HostInfo.toProto).map Proto.HostInfo.key := by
    simp only [List.map_append, List.map_map]
    rfl
  refine ⟨_, by simp only [commit, nonempty, first, second]; rfl, ?_, ?_, ?_⟩
  · rw [keys]
    exact distinct.map fun _ _ => Proto.HostInfo.key_inj
  · intro k
    rw [keys, agrees.keys k]
    simp only [List.mem_map, mem_read read]
    constructor
    · rintro ⟨_, ⟨hi, ⟨p, onList, cell⟩, rfl⟩, rfl⟩
      exact ⟨p, onList, hi, cell, rfl⟩
    · rintro ⟨p, onList, hi, cell, rfl⟩
      exact ⟨_, ⟨hi, ⟨p, onList, cell⟩, rfl⟩, rfl⟩
  · intro res member
    rcases List.mem_append.mp member with inIdle | inBusy
    · obtain ⟨hi, among, rfl⟩ := List.mem_map.mp inIdle
      obtain ⟨p, onIdle, cell⟩ := (mem_read (readAll_inv first)).mp among
      have entry := agrees.owned mapped (List.mem_append_left _ onIdle) cell
      exact ⟨p, hi, entry, cell, by rw [(agrees.flag_eq cell).1 onIdle]⟩
    · obtain ⟨hi, among, rfl⟩ := List.mem_map.mp inBusy
      obtain ⟨p, onBusy, cell⟩ := (mem_read (readAll_inv second)).mp among
      have entry := agrees.owned mapped (List.mem_append_right _ onBusy) cell
      exact ⟨p, hi, entry, cell, by rw [(agrees.flag_eq cell).2 onBusy]⟩

end LoadBalance

namespace RouteLb

variable {s : RouteLb} {lb : LoadBalance} {p : Ptr} {hi : HostInfo}

/-- `report_host` on a host that the module holds: the balancer it leaves and what it sends. -/
theorem reportHost_found (cfg : Config) (now ts tc : Int) {req : Proto.ReportRequest}
    (found : s.lbs.lookup (packKey req.modid req.cmdid) = some lb) (agrees : LoadBalance.Agrees lb)
    (mapped : lb.Mapped) (entry : lb.hostMap.lookup req.host.key = some p)
    (cell : lb.heap p = some hi) :
    ∃ sent, s.reportHost cfg now ts tc req = .ok (some sent,
        ⟨s.lbs.insert (packKey req.modid req.cmdid)
          (lb.put p hi (hi.reported cfg ⟨now, ts, req.retcode⟩))⟩) ∧
      (sent.results.map resultKey).Nodup ∧
      (∀ k, k ∈ sent.results.map resultKey ↔ k ∈ lb.hostMap) ∧
      ∀ res ∈ sent.results, ∃ q hi', lb.hostMap.lookup (resultKey res) = some q ∧
        (lb.put p hi (hi.reported cfg ⟨now, ts, req.retcode⟩)).heap q = some hi' ∧
        res = LoadBalance.callResult hi'.overload hi' := by
  have onList := (agrees.filed _ _ p entry).1
  have reported := LoadBalance.report_found cfg ⟨now, ts, req.retcode⟩ entry cell
  have same := HostInfo.key_reported cfg ⟨now, ts, req.retcode⟩ hi
  have perm := agrees.put_perm onList cell (hi.reported cfg ⟨now, ts, req.retcode⟩)
  have mapped' : (lb.put p hi (hi.reported cfg ⟨now, ts, req.retcode⟩)).Mapped :=
    fun q member => mapped q (perm.mem_iff.mp member)
  have nonempty : (lb.put p hi (hi.reported cfg ⟨now, ts, req.retcode⟩)).empty = false := by
    change lb.hostMap.entries.isEmpty = false
    cases entries : lb.hostMap.entries with
    | nil =>
      simp only [AList.lookup, entries] at entry
      cases entry
    | cons _ _ => rfl
  obtain ⟨sent, committed, once, hosts, results⟩ :=
    LoadBalance.commit_tells (agrees.put onList cell same) mapped' nonempty tc
  refine ⟨sent, ?_, once, hosts, results⟩
  simp only [reportHost, found, reported, committed]

/-- The report is part of what is sent for it exactly if it changes no state, ends no window and
wraps no counter around. -/
theorem reportHost_told_iff (cfg : Config) (now ts tc : Int) (req : Proto.ReportRequest)
    (found : s.lbs.lookup (packKey req.modid req.cmdid) = some lb) (agrees : LoadBalance.Agrees lb)
    (mapped : lb.Mapped) (entry : lb.hostMap.lookup req.host.key = some p)
    (cell : lb.heap p = some hi) :
    (∃ sent s' lb', s.reportHost cfg now ts tc req = .ok (some sent, s') ∧
      s'.lbs.lookup (packKey req.modid req.cmdid) = some lb' ∧ lb'.hostMap = lb.hostMap ∧
      Tells req.host.key req.retcode lb' sent) ↔
    hi.Steady cfg now req.retcode ∧ hi.Countable req.retcode := by
  obtain ⟨sent, done, once, hosts, results⟩ := reportHost_found cfg now ts tc found agrees mapped
    entry cell
  set after := hi.reported cfg ⟨now, ts, req.retcode⟩ with isAfter
  have counted := HostInfo.counted_iff cfg ⟨now, ts, req.retcode⟩ hi
  rw [← isAfter] at counted
  rw [← counted]
  -- the entry of the host is its record after the report
  have own : ∀ res ∈ sent.results, resultKey res = req.host.key →
      res.succ = after.rsucc ∧ res.err = after.rerr := by
    intro res member isHost
    obtain ⟨q, hi', entry', cell', rfl⟩ := results res member
    rw [isHost, entry] at entry'
    cases entry'
    have here : (lb.put p hi after).heap p = some after := Function.update_self ..
    rw [here] at cell'
    cases cell'
    exact ⟨rfl, rfl⟩
  constructor
  · rintro ⟨sent', s', lb', done', -, -, tells⟩
    rw [done] at done'
    cases done'
    have among := (hosts req.host.key).mpr (LoadBalance.mem_hostMap.mpr ⟨p, entry⟩)
    obtain ⟨res, member, isHost⟩ := List.mem_map.mp among
    obtain ⟨succ, err⟩ := own res member isHost
    have one := tells.counts res member isHost
    rwa [succ, err] at one
  · intro one
    refine ⟨sent, _, lb.put p hi after, done, AList.lookup_insert _, rfl, once, hosts, ?_, ?_⟩
    · intro res member
      obtain ⟨q, hi', entry', cell', rfl⟩ := results res member
      exact ⟨q, hi', entry', cell', rfl⟩
    · intro res member isHost
      obtain ⟨succ, err⟩ := own res member isHost
      rwa [succ, err]

/-- A module with two hosts that it learnt of at time 5. -/
def oneModule : RouteLb := ⟨(∅ : AList _).insert (packKey 1 1) .newPair⟩

/-- A success on a host at time 6. -/
theorem reportHost_told_success : ∃ sent s' lb',
    oneModule.reportHost .default 6 6 6 ⟨1, 1, ⟨1, 80⟩, 0⟩ = .ok (some sent, s') ∧
      s'.lbs.lookup (packKey 1 1) = some lb' ∧ Tells (packKey 1 80) 0 lb' sent := by
  have told := @reportHost_told_iff oneModule .newPair 0 (HostInfo.new 1 80 180 5) .default 6 6 6
    ⟨1, 1, ⟨1, 80⟩, 0⟩ rfl LoadBalance.newPair_agrees LoadBalance.newPair_sound.mapped rfl rfl
  obtain ⟨sent, s', lb', done, entry, -, tells⟩ := told.mpr ⟨by decide, by decide⟩
  exact ⟨sent, s', lb', done, entry, tells⟩

/-- The same success at time 20, when the window of 15 seconds is over. -/
theorem reportHost_lost :
    oneModule.lbs.lookup (packKey 1 1) = some .newPair ∧ LoadBalance.Agrees .newPair ∧
      LoadBalance.Mapped .newPair ∧ LoadBalance.newPair.hostMap.lookup (packKey 1 80) = some 0 ∧
      (oneModule.reportHost .default 20 20 20 ⟨1, 1, ⟨1, 80⟩, 0⟩).map (·.1.map (·.results)) =
        .ok (some [⟨1, 80, 0, 0, false⟩, ⟨2, 80, 0, 0, false⟩]) ∧
      ¬∃ sent s' lb',
        oneModule.reportHost .default 20 20 20 ⟨1, 1, ⟨1, 80⟩, 0⟩ = .ok (some sent, s') ∧
          Tells (packKey 1 80) 0 lb' sent := by
  refine ⟨rfl, LoadBalance.newPair_agrees, LoadBalance.newPair_sound.mapped, rfl, rfl, ?_⟩
  rintro ⟨sent, s', lb', done, tells⟩
  cases done
  have none := tells.counts ⟨1, 80, 0, 0, false⟩ List.mem_cons_self rfl
  exact absurd none (by decide)

end RouteLb

end Lars.Agent
