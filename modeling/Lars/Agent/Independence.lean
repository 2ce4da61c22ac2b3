import Lars.Agent.History

/-!
# Reports on different hosts

A report rewrites one record and, when the flag of that record changes, moves its
pointer to the end of the other list: `put` says so once for all branches of
`report`. Where a pointer is after that does not depend on the other hosts, so
reports on two hosts can be swapped; only the order in which two hosts join the
same list tells which came first.
-/
namespace Lars.Agent.LoadBalance

variable {lb : LoadBalance}

/-! ### Where a pointer is -/

theorem mem_relist_idle {before after : Bool} {p q : Ptr} {lists : List Ptr × List Ptr} :
    q ∈ (relist before after p lists).1 ↔
      if q = p ∧ before ≠ after then after = false else q ∈ lists.1 := by
  by_cases own : q = p <;> cases before <;> cases after <;> simp [relist, own]

theorem mem_relist_overload {before after : Bool} {p q : Ptr} {lists : List Ptr × List Ptr} :
    q ∈ (relist before after p lists).2 ↔
      if q = p ∧ before ≠ after then after = true else q ∈ lists.2 := by
  by_cases own : q = p <;> cases before <;> cases after <;> simp [relist, own]

/-- The others keep their order. -/
theorem filter_relist (before after : Bool) (p : Ptr) (lists : List Ptr × List Ptr) :
    (relist before after p lists).1.filter (· ≠ p) = lists.1.filter (· ≠ p) ∧
      (relist before after p lists).2.filter (· ≠ p) = lists.2.filter (· ≠ p) := by
  cases before <;> cases after <;> simp [relist, remove]

/-! ### One report -/

theorem report_absent (cfg : Config) (r : Report) {ip port : Int32}
    (absent : lb.hostMap.lookup (packKey ip port) = none) :
    lb.report cfg r.now r.ts ip port r.retcode = .ok lb := by
  simp only [report, absent]

theorem report_found (cfg : Config) (r : Report) {ip port : Int32} {p : Ptr} {hi : HostInfo}
    (entry : lb.hostMap.lookup (packKey ip port) = some p) (cell : lb.heap p = some hi) :
    lb.report cfg r.now r.ts ip port r.retcode = .ok (lb.put p hi (hi.reported cfg r)) := by
  have flag : (hi.count r.retcode).overload = hi.overload := overload_count r.retcode hi
  simp only [report, entry, cell, judge_eq, put, flag]
  rfl

/-- What a report on the host with this key leaves alone. -/
structure Spares (key : UInt64) (lb lb' : LoadBalance) : Prop where
  map : lb'.hostMap = lb.hostMap
  records : ∀ k p, k ≠ key → lb.hostMap.lookup k = some p → lb'.heap p = lb.heap p
  idle : lb'.idleList.filter (fun p => lb.hostMap.lookup key ≠ some p) =
    lb.idleList.filter fun p => lb.hostMap.lookup key ≠ some p
  overloaded : lb'.overloadList.filter (fun p => lb.hostMap.lookup key ≠ some p) =
    lb.overloadList.filter fun p => lb.hostMap.lookup key ≠ some p

/-- Two keys do not share a pointer: the record has one address. -/
theorem Agrees.apart (agrees : Agrees lb) {ip port ip' port' : Int32} {p : Ptr}
    (entry : lb.hostMap.lookup (packKey ip port) = some p)
    (entry' : lb.hostMap.lookup (packKey ip' port') = some p) : ip = ip' ∧ port = port' := by
  obtain ⟨-, hi, cell, isIp, isPort⟩ := agrees.filed ip port p entry
  obtain ⟨-, hi', cell', isIp', isPort'⟩ := agrees.filed ip' port' p entry'
  rw [cell] at cell'
  cases cell'
  refine ⟨?_, isPort.symm.trans isPort'⟩
  have same := congrArg UInt32.toInt32 (isIp.symm.trans isIp')
  simpa using same

theorem put_spares (agrees : Agrees lb) {ip port : Int32} {p : Ptr}
    (entry : lb.hostMap.lookup (packKey ip port) = some p) (before after : HostInfo) :
    Spares (packKey ip port) lb (lb.put p before after) := by
  have others : (fun q => decide (lb.hostMap.lookup (packKey ip port) ≠ some q)) =
      fun q => decide (q ≠ p) := by
    funext q
    rw [entry]
    simp [eq_comm]
  have lists := filter_relist before.overload after.overload p (lb.idleList, lb.overloadList)
  constructor
  case map => rfl
  case records =>
    intro k q other entry'
    -- the key of another host is made of its own address
    obtain ⟨_, _, hi, _, rfl⟩ := (agrees.keys k).mp (mem_hostMap.mpr ⟨q, entry'⟩)
    have distinct : q ≠ p := by
      rintro rfl
      obtain ⟨sameIp, samePort⟩ := agrees.apart entry entry'
      exact other (by rw [HostInfo.key, ← sameIp, ← samePort])
    exact Function.update_of_ne distinct ..
  case idle =>
    rw [others]
    exact lists.1
  case overloaded =>
    rw [others]
    exact lists.2

theorem report_spares (agrees : Agrees lb) (cfg : Config) (r : Report) (ip port : Int32) :
    ∃ lb', lb.report cfg r.now r.ts ip port r.retcode = .ok lb' ∧
      Spares (packKey ip port) lb lb' := by
  cases entry : lb.hostMap.lookup (packKey ip port) with
  | none =>
    exact ⟨lb, report_absent cfg r entry, ⟨rfl, fun _ _ _ _ => rfl, rfl, rfl⟩⟩
  | some p =>
    obtain ⟨-, hi, cell, -⟩ := agrees.filed ip port p entry
    exact ⟨_, report_found cfg r entry cell, put_spares agrees entry hi (hi.reported cfg r)⟩

/-- A pointer that was on one of the lists once is so again. -/
theorem relist_perm {before after : Bool} {p : Ptr} {lists : List Ptr × List Ptr}
    (nodup : (lists.1 ++ lists.2).Nodup) (here : p ∈ if before then lists.2 else lists.1) :
    ((relist before after p lists).1 ++ (relist before after p lists).2).Perm
      (lists.1 ++ lists.2) := by
  obtain ⟨idle, overloaded⟩ := lists
  have parts := List.nodup_append.mp nodup
  have taken {l : List Ptr} (distinct : l.Nodup) (member : p ∈ l) : l.Perm (p :: remove l p) := by
    have removed : remove l p = l.erase p := by
      rw [distinct.erase_eq_filter, remove]
      apply List.filter_congr
      intro q _
      rw [bne, Bool.beq_eq_decide_eq, decide_not]
    rw [removed]
    exact List.perm_cons_erase member
  cases before <;> cases after
  · exact .refl _
  · -- it leaves the idle ones and comes last
    have moved := taken parts.1 here
    calc (remove idle p ++ (overloaded ++ [p])).Perm (remove idle p ++ p :: overloaded) :=
          (List.perm_append_singleton p overloaded).append_left _
      List.Perm _ (p :: (remove idle p ++ overloaded)) := List.perm_middle
      List.Perm _ (idle ++ overloaded) := moved.symm.append_right overloaded
  · have moved := taken parts.2.1 here
    calc ((idle ++ [p]) ++ remove overloaded p).Perm (idle ++ p :: remove overloaded p) := by
          rw [List.append_assoc, List.singleton_append]
      List.Perm _ (idle ++ overloaded) := moved.symm.append_left idle
  · exact .refl _

theorem Agrees.nodup (agrees : Agrees lb) : (lb.idleList ++ lb.overloadList).Nodup :=
  List.nodup_iff_count_eq_one.mpr agrees.once

/-- A host is on the list that its flag names. -/
theorem Agrees.here (agrees : Agrees lb) {p : Ptr} {hi : HostInfo}
    (onList : p ∈ lb.idleList ++ lb.overloadList) (cell : lb.heap p = some hi) :
    p ∈ if hi.overload then lb.overloadList else lb.idleList := by
  obtain ⟨hi', cell', flag⟩ := agrees.flagged p onList
  rw [cell] at cell'
  cases cell'
  split
  next overloaded => exact flag.mpr overloaded
  next idle => exact (List.mem_append.mp onList).resolve_right fun other => idle (flag.mp other)

variable {p : Ptr} {before after : HostInfo}

theorem Agrees.put_perm (agrees : Agrees lb) (onList : p ∈ lb.idleList ++ lb.overloadList)
    (cell : lb.heap p = some before) (after : HostInfo) :
    ((lb.put p before after).idleList ++ (lb.put p before after).overloadList).Perm
      (lb.idleList ++ lb.overloadList) :=
  relist_perm agrees.nodup (agrees.here onList cell)

/-- The record behind a pointer keeps its key. -/
theorem put_keys (cell : lb.heap p = some before) (same : after.key = before.key) (q : Ptr)
    (k : UInt64) :
    (∃ hi, (lb.put p before after).heap q = some hi ∧ hi.key = k) ↔
      ∃ hi, lb.heap q = some hi ∧ hi.key = k := by
  by_cases own : q = p
  · subst own
    simp [put, cell, same]
  · simp [put, Function.update_of_ne own]

/-- Map, lists and flags agree after a record has been replaced. -/
theorem Agrees.put (agrees : Agrees lb) (onList : p ∈ lb.idleList ++ lb.overloadList)
    (cell : lb.heap p = some before) (same : after.key = before.key) :
    Agrees (lb.put p before after) := by
  have perm := agrees.put_perm onList cell after
  constructor
  case keys =>
    intro k
    simp only [perm.mem_iff, put_keys cell same]
    exact agrees.keys k
  case once =>
    intro q member
    rw [perm.count_eq]
    exact agrees.once q (perm.mem_iff.mp member)
  case filed =>
    intro ip port q entry
    obtain ⟨member, hi, found, isIp, isPort⟩ := agrees.filed ip port q entry
    have key : hi.key = packKey ip port := by
      rw [HostInfo.key, isIp, isPort]
      simp
    obtain ⟨hi', found', key'⟩ := (put_keys cell same q (packKey ip port)).mpr ⟨hi, found, key⟩
    exact ⟨perm.mem_iff.mpr member, hi', found', ip_port_of_key key'⟩
  case flagged =>
    intro q member
    obtain ⟨hi, found, flag⟩ := agrees.flagged q (perm.mem_iff.mp member)
    by_cases own : q = p
    · subst own
      rw [cell] at found
      cases found
      refine ⟨after, Function.update_self .., ?_⟩
      simp only [LoadBalance.put, mem_relist_overload]
      split
      · rfl
      next kept =>
        have steady : before.overload = after.overload := by simpa using kept
        rw [← steady]
        exact flag
    · refine ⟨hi, (Function.update_of_ne own ..).trans found, ?_⟩
      simp only [LoadBalance.put, mem_relist_overload, own, false_and, if_false]
      exact flag

/-! ### Two reports -/

/-- The same hosts with the same records, and the same of them overloaded. -/
structure SameHosts (lb lb' : LoadBalance) : Prop where
  map : lb'.hostMap = lb.hostMap
  records : ∀ k p, lb.hostMap.lookup k = some p → lb'.heap p = lb.heap p
  idle : ∀ p, p ∈ lb'.idleList ↔ p ∈ lb.idleList
  overloaded : ∀ p, p ∈ lb'.overloadList ↔ p ∈ lb.overloadList

theorem SameHosts.refl (lb : LoadBalance) : SameHosts lb lb :=
  ⟨rfl, fun _ _ _ => rfl, fun _ => Iff.rfl, fun _ => Iff.rfl⟩

/-- Where one host goes has nothing to do with where the other goes. -/
theorem put_comm {p q : Ptr} (apart : p ≠ q) (pBefore pAfter qBefore qAfter : HostInfo) :
    SameHosts ((lb.put p pBefore pAfter).put q qBefore qAfter)
      ((lb.put q qBefore qAfter).put p pBefore pAfter) := by
  constructor
  case map => rfl
  case records =>
    intro k o _
    exact congrFun (Function.update_comm apart.symm _ _ _) o
  case idle =>
    intro o
    simp only [put, mem_relist_idle]
    by_cases isP : o = p
    · simp [isP, apart]
    · simp [isP]
  case overloaded =>
    intro o
    simp only [put, mem_relist_overload]
    by_cases isP : o = p
    · simp [isP, apart]
    · simp [isP]

/-- Reports on two hosts, in either order. -/
theorem reports_independent (agrees : Agrees lb) (cfg : Config) (r₁ r₂ : Report)
    {ip₁ port₁ ip₂ port₂ : Int32} (apart : (ip₁, port₁) ≠ (ip₂, port₂)) :
    ∃ lb₁ lb₂ lb₁₂ lb₂₁,
      lb.report cfg r₁.now r₁.ts ip₁ port₁ r₁.retcode = .ok lb₁ ∧
      lb.report cfg r₂.now r₂.ts ip₂ port₂ r₂.retcode = .ok lb₂ ∧
      lb₁.report cfg r₂.now r₂.ts ip₂ port₂ r₂.retcode = .ok lb₁₂ ∧
      lb₂.report cfg r₁.now r₁.ts ip₁ port₁ r₁.retcode = .ok lb₂₁ ∧
      SameHosts lb₁₂ lb₂₁ ∧
      Spares (packKey ip₁ port₁) lb lb₁ ∧ Spares (packKey ip₂ port₂) lb lb₂ := by
  obtain ⟨lb₁, first, spares₁⟩ := report_spares agrees cfg r₁ ip₁ port₁
  obtain ⟨lb₂, second, spares₂⟩ := report_spares agrees cfg r₂ ip₂ port₂
  cases entry₁ : lb.hostMap.lookup (packKey ip₁ port₁) with
  | none =>
    -- the first report finds no host, in either order
    obtain rfl : lb = lb₁ := Except.ok.inj ((report_absent cfg r₁ entry₁).symm.trans first)
    have again := report_absent cfg r₁ (by rwa [spares₂.map])
    exact ⟨lb, lb₂, lb₂, lb₂, first, second, second, again, .refl lb₂, spares₁, spares₂⟩
  | some p =>
    cases entry₂ : lb.hostMap.lookup (packKey ip₂ port₂) with
    | none =>
      obtain rfl : lb = lb₂ := Except.ok.inj ((report_absent cfg r₂ entry₂).symm.trans second)
      have again := report_absent cfg r₂ (by rwa [spares₁.map])
      exact ⟨lb₁, lb, lb₁, lb₁, first, second, again, first, .refl lb₁, spares₁, spares₂⟩
    | some q =>
      obtain ⟨-, hi₁, cell₁, -⟩ := agrees.filed ip₁ port₁ p entry₁
      obtain ⟨-, hi₂, cell₂, -⟩ := agrees.filed ip₂ port₂ q entry₂
      have distinct : p ≠ q := by
        rintro rfl
        obtain ⟨rfl, rfl⟩ := agrees.apart entry₁ entry₂
        exact apart rfl
      have first' := report_found cfg r₁ entry₁ cell₁
      have second' := report_found cfg r₂ entry₂ cell₂
      have cell₂' : (lb.put p hi₁ (hi₁.reported cfg r₁)).heap q = some hi₂ :=
        (Function.update_of_ne distinct.symm ..).trans cell₂
      have cell₁' : (lb.put q hi₂ (hi₂.reported cfg r₂)).heap p = some hi₁ :=
        (Function.update_of_ne distinct ..).trans cell₁
      obtain rfl := Except.ok.inj (first'.symm.trans first)
      obtain rfl := Except.ok.inj (second'.symm.trans second)
      exact ⟨_, _, _, _, first', second', report_found cfg r₂ entry₂ cell₂',
        report_found cfg r₁ entry₁ cell₁', put_comm distinct .., spares₁, spares₂⟩

/-- A module that has just learnt of two hosts. -/
def newPair : LoadBalance :=
  (init 1 1 0).insertHosts .default (fun _ => 5) 0 [⟨1, 80⟩, ⟨2, 80⟩]

theorem newPair_sound : Sound newPair :=
  (insertHosts_spec (Sound.init 1 1 0) .default (fun _ => 5) 0 [⟨1, 80⟩, ⟨2, 80⟩]).1

theorem newPair_agrees : Agrees newPair := by
  obtain ⟨sound, -, stale⟩ :=
    insertHosts_spec (Sound.init 1 1 0) .default (fun _ => 5) 0 [⟨1, 80⟩, ⟨2, 80⟩]
  apply sound.agrees_iff.mpr
  intro k
  rw [stale]
  exact not_stale_init 1 1 0 k

/-- A failure on the one and a success on the other. -/
theorem reports_independent_two : ∃ lb₁ lb₂ lb₁₂ lb₂₁,
    newPair.report .default 6 6 1 80 1 = .ok lb₁ ∧
      newPair.report .default 6 6 2 80 0 = .ok lb₂ ∧
      lb₁.report .default 6 6 2 80 0 = .ok lb₁₂ ∧ lb₂.report .default 6 6 1 80 1 = .ok lb₂₁ ∧
      SameHosts lb₁₂ lb₂₁ := by
  obtain ⟨lb₁, lb₂, lb₁₂, lb₂₁, first, second, both, both', same, -⟩ :=
    reports_independent newPair_agrees .default ⟨6, 6, 1⟩ ⟨6, 6, 0⟩
      (show ((1 : Int32), (80 : Int32)) ≠ (2, 80) by decide)
  exact ⟨lb₁, lb₂, lb₁₂, lb₂₁, first, second, both, both', same⟩

end Lars.Agent.LoadBalance
