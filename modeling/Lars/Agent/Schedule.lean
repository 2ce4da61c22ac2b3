import Lars.Agent.Update
import Mathlib.Data.Int.CardIntervalMod
import Mathlib.Data.List.Rotate

/-!
# The schedule of `choice_one_host`

Between two reports or answers of the DNS the calls only rotate the two lists
and count. After any number of them the lists are where the numbers of probes
and of other calls have turned them, and the count says when the next probe is.
-/
namespace Lars.Agent.LoadBalance

open Proto (retSucc retOverload)

/-- The branch that serves an overloaded host is taken. -/
def probes (cfg : Config) (lb : LoadBalance) : Bool :=
  decide (lb.accessCnt ≥ cfg.probeNum ∧ (lb.idleList = [] ∨ lb.overloadList ≠ []))

/-- One call: whether it probed, what it returned and the host it set. -/
structure Choice where
  probed : Bool
  ret : Int32
  host : Option Proto.HostInfo

/-- Calls one after the other. -/
def choices (cfg : Config) (lb : LoadBalance) : Nat → Except Fault (List Choice × LoadBalance)
  | 0 => .ok ([], lb)
  | k + 1 =>
    match lb.choices cfg k with
    | .error e => .error e
    | .ok (calls, lb') =>
      match lb'.choiceOneHost cfg with
      | .error e => .error e
      | .ok (ret, host, lb'') => .ok (calls ++ [⟨lb'.probes cfg, ret, host⟩], lb'')

/-- `host` is the `j`-th of a list that is gone through again and again. -/
def Gives (lb : LoadBalance) (l : List Ptr) (j : Nat) (host : Option Proto.HostInfo) : Prop :=
  ∃ p hi, l[j % l.length]? = some p ∧ lb.heap p = some hi ∧ host = some hi.toProto

/-- What a call returns after the calls `before`: a probe the next overloaded host, any other call
the next idle one. -/
def Expected (lb : LoadBalance) (before : List Choice) (c : Choice) : Prop :=
  if c.probed then
    c.ret = retSucc ∧ lb.Gives lb.overloadList (before.countP (·.probed)) c.host
  else if lb.idleList = [] then c.ret = retOverload ∧ c.host = none
  else c.ret = retSucc ∧ lb.Gives lb.idleList (before.countP (!·.probed)) c.host

/-- The lists turned `x` and `y` times, and a count of accesses. -/
def turned (x y : Nat) (cnt : Int) (lb : LoadBalance) : LoadBalance :=
  { lb with
    idleList := lb.idleList.rotate x, overloadList := lb.overloadList.rotate y, accessCnt := cnt }

variable {lb : LoadBalance} {cfg : Config} {cnt : Int}

/-! ### One call -/

theorem getHostFromList_rotate (sound : Sound lb) {l : List Ptr} (some : l ≠ [])
    (listed : ∀ p ∈ l, p ∈ lb.idleList ++ lb.overloadList) (j : Nat) :
    ∃ h, lb.Gives l j (.some h) ∧ lb.getHostFromList (l.rotate j) = .ok (h, l.rotate (j + 1)) := by
  cases order : l.rotate j with
  | nil => exact absurd (List.rotate_eq_nil_iff.mp order) some
  | cons p rest =>
    have first : l[j % l.length]? = Option.some p := by
      have head := List.getElem?_rotate (n := j) (List.length_pos_of_ne_nil some)
      rw [order, Nat.zero_add] at head
      exact head.symm
    obtain ⟨hi, cell⟩ := (sound.listed p).mp (listed p (List.mem_of_getElem? first))
    refine ⟨hi.toProto, ⟨p, hi, first, cell, rfl⟩, ?_⟩
    rw [← List.rotate_rotate, order]
    simp only [getHostFromList, cell, List.rotate_cons_succ, List.rotate_zero]

theorem choiceOneHost_probe (sound : Sound lb) (overloaded : lb.overloadList ≠ [])
    (due : cnt ≥ cfg.probeNum) (x y : Nat) :
    (lb.turned x y cnt).probes cfg = true ∧ ∃ h, lb.Gives lb.overloadList y (some h) ∧
      (lb.turned x y cnt).choiceOneHost cfg =
        .ok (retSucc, some h, lb.turned x (y + 1) 0) := by
  obtain ⟨h, gives, taken⟩ :=
    getHostFromList_rotate sound overloaded (fun p member => List.mem_append_right _ member) y
  have served : (lb.turned x y cnt).probeOverload =
      .ok (retSucc, some h, lb.turned x (y + 1) 0) := by
    have same : (lb.turned x y cnt).getHostFromList (lb.turned x y cnt).overloadList =
        .ok (h, lb.overloadList.rotate (y + 1)) := taken
    simp only [probeOverload, same]
    rfl
  refine ⟨?_, h, gives, ?_⟩
  · simp only [probes, turned, decide_eq_true_eq, ne_eq, List.rotate_eq_nil_iff]
    exact ⟨due, .inr overloaded⟩
  · unfold choiceOneHost
    rw [served]
    simp only [turned, List.rotate_eq_nil_iff, overloaded, ↓reduceIte, due, ite_self]

private theorem serveIdle_turned (sound : Sound lb) (idle : lb.idleList ≠ []) (x y : Nat)
    (cnt : Int) :
    ∃ h, lb.Gives lb.idleList x (some h) ∧
      (lb.turned x y cnt).serveIdle = .ok (retSucc, some h, lb.turned (x + 1) y cnt) := by
  obtain ⟨h, gives, taken⟩ :=
    getHostFromList_rotate sound idle (fun p member => List.mem_append_left _ member) x
  have same : (lb.turned x y cnt).getHostFromList (lb.turned x y cnt).idleList =
      .ok (h, lb.idleList.rotate (x + 1)) := taken
  refine ⟨h, gives, ?_⟩
  simp only [serveIdle, same]
  rfl

theorem choiceOneHost_idle (sound : Sound lb) (idle : lb.idleList ≠ [])
    (early : lb.overloadList = [] ∨ cnt < cfg.probeNum) (x y : Nat) :
    (lb.turned x y cnt).probes cfg = false ∧ ∃ h, lb.Gives lb.idleList x (some h) ∧
      (lb.turned x y cnt).choiceOneHost cfg =
        .ok (retSucc, some h,
          lb.turned (x + 1) y (if lb.overloadList = [] then cnt else cnt + 1)) := by
  have unprobed : (lb.turned x y cnt).probes cfg = false := by
    simp only [probes, turned, decide_eq_false_iff_not, ne_eq, List.rotate_eq_nil_iff, not_and,
      idle, false_or, not_not]
    intro due
    exact early.resolve_right (Int.not_lt.mpr due)
  by_cases alone : lb.overloadList = []
  · obtain ⟨h, gives, served⟩ := serveIdle_turned sound idle x y cnt
    refine ⟨unprobed, h, gives, ?_⟩
    unfold choiceOneHost
    rw [served]
    simp only [turned, List.rotate_eq_nil_iff, idle, alone, List.rotate_nil, ↓reduceIte]
  · obtain ⟨h, gives, served⟩ := serveIdle_turned sound idle x y (cnt + 1)
    have due : ¬ cnt ≥ cfg.probeNum := Int.not_le.mpr (early.resolve_left alone)
    refine ⟨unprobed, h, gives, ?_⟩
    unfold choiceOneHost
    simp only [turned, List.rotate_eq_nil_iff, idle, alone, due, ↓reduceIte] at served ⊢
    exact served

theorem choiceOneHost_refused (none : lb.idleList = []) (early : cnt < cfg.probeNum)
    (x y : Nat) :
    (lb.turned x y cnt).probes cfg = false ∧
      (lb.turned x y cnt).choiceOneHost cfg =
        .ok (retOverload, .none, lb.turned x y (cnt + 1)) := by
  have due : ¬ cnt ≥ cfg.probeNum := Int.not_le.mpr early
  constructor
  · simp only [probes, turned, due, false_and, decide_false]
  · simp only [choiceOneHost, turned, none, List.rotate_nil, ↓reduceIte, due]

/-! ### Many calls -/

/-- Where `k` calls have got to. -/
structure Scheduled (lb : LoadBalance) (N a k : Nat) (calls : List Choice) : Prop where
  length : calls.length = k
  expected : ∀ i c, calls[i]? = some c → lb.Expected (calls.take i) c
  probed : calls.countP (·.probed) = if lb.overloadList = [] then 0 else (a + k) / (N + 1)

/-- The state that goes with the calls. -/
def after (N a : Nat) (calls : List Choice) (lb : LoadBalance) : LoadBalance :=
  lb.turned (calls.countP (!·.probed)) (calls.countP (·.probed))
    (if lb.overloadList = [] then a else ((a + calls.length) % (N + 1) : Nat))

theorem expected_snoc {calls : List Choice} {c : Choice} :
    (∀ i d, (calls ++ [c])[i]? = some d → lb.Expected ((calls ++ [c]).take i) d) ↔
      (∀ i d, calls[i]? = some d → lb.Expected (calls.take i) d) ∧ lb.Expected calls c := by
  constructor
  · intro expected
    constructor
    · intro i d found
      have before := (List.getElem?_eq_some_iff.mp found).1
      have same := expected i d (by rwa [List.getElem?_append_left before])
      rwa [List.take_append_of_le_length before.le] at same
    · have last := expected calls.length c (List.getElem?_concat_length ..)
      rwa [List.take_left] at last
  · rintro ⟨earlier, last⟩ i d found
    rcases Nat.lt_trichotomy i calls.length with before | here | beyond
    · rw [List.getElem?_append_left before] at found
      rw [List.take_append_of_le_length before.le]
      exact earlier i d found
    · subst here
      rw [List.getElem?_concat_length] at found
      cases found
      rwa [List.take_left]
    · rw [List.getElem?_eq_none (by rw [List.length_append, List.length_singleton]; omega)] at found
      cases found

/-- The count reaches its limit and starts anew with one probe more. -/
private theorem probe_due {N n : Nat} (due : n % (N + 1) = N) :
    (n + 1) / (N + 1) = n / (N + 1) + 1 ∧ (n + 1) % (N + 1) = 0 := by
  have parts := Nat.mod_add_div n (N + 1)
  have limit : 0 < N + 1 := Nat.succ_pos N
  refine (Nat.div_mod_unique limit).mpr ⟨?_, limit⟩
  rw [Nat.mul_add, Nat.mul_one]
  omega

private theorem probe_early {N n : Nat} (early : n % (N + 1) < N) :
    (n + 1) / (N + 1) = n / (N + 1) ∧ (n + 1) % (N + 1) = n % (N + 1) + 1 := by
  have parts := Nat.mod_add_div n (N + 1)
  have limit : 0 < N + 1 := Nat.succ_pos N
  refine (Nat.div_mod_unique limit).mpr ⟨?_, Nat.succ_lt_succ early⟩
  omega

/-- One call more, if it comes as expected and probes just when the quotient grows. -/
theorem Scheduled.snoc {N a k : Nat} {calls : List Choice} {c : Choice}
    (scheduled : Scheduled lb N a k calls) (last : lb.Expected calls c)
    (alone : lb.overloadList = [] → c.probed = false)
    (turn : lb.overloadList ≠ [] →
      (a + k + 1) / (N + 1) = (a + k) / (N + 1) + if c.probed then 1 else 0) :
    Scheduled lb N a (k + 1) (calls ++ [c]) := by
  obtain ⟨length, expected, probed⟩ := scheduled
  constructor
  · rw [List.length_append, length, List.length_singleton]
  · exact expected_snoc.mpr ⟨expected, last⟩
  · rw [List.countP_append, List.countP_singleton, probed]
    by_cases empty : lb.overloadList = []
    · simp only [empty, alone empty, Bool.false_eq_true, ↓reduceIte]
    · simp only [if_neg empty, ← Nat.add_assoc, turn empty]

/-- With no host to probe, the count stands still. -/
theorem choice_alone (sound : Sound lb) (idle : lb.idleList ≠ []) (alone : lb.overloadList = [])
    {N a k : Nat} {calls : List Choice} (scheduled : Scheduled lb N a k calls) :
    ∃ c, (lb.after N a calls).probes cfg = c.probed ∧
      (lb.after N a calls).choiceOneHost cfg =
        .ok (c.ret, c.host, lb.after N a (calls ++ [c])) ∧
      Scheduled lb N a (k + 1) (calls ++ [c]) := by
  have early : lb.overloadList = [] ∨ (a : Int) < cfg.probeNum := .inl alone
  obtain ⟨unprobed, h, gives, served⟩ := choiceOneHost_idle sound idle early
    (calls.countP (!·.probed)) (calls.countP (·.probed))
  refine ⟨⟨false, retSucc, some h⟩, ?_, ?_, scheduled.snoc ?_ ?_ ?_⟩
  · simpa [after, alone] using unprobed
  · simpa [after, alone] using served
  · simpa [Expected, idle] using gives
  · exact fun _ => rfl
  · exact fun some => absurd alone some

/-- The next call: what it returns, and that the state follows. -/
theorem choice_scheduled (sound : Sound lb) (nonempty : lb.idleList ++ lb.overloadList ≠ [])
    {N a k : Nat} (threshold : cfg.probeNum = N) {calls : List Choice}
    (scheduled : Scheduled lb N a k calls) :
    ∃ c, (lb.after N a calls).probes cfg = c.probed ∧
      (lb.after N a calls).choiceOneHost cfg =
        .ok (c.ret, c.host, lb.after N a (calls ++ [c])) ∧
      Scheduled lb N a (k + 1) (calls ++ [c]) := by
  by_cases alone : lb.overloadList = []
  · have idle : lb.idleList ≠ [] := by simpa [alone] using nonempty
    exact choice_alone sound idle alone scheduled
  have length := scheduled.length
  have within : (a + k) % (N + 1) < N + 1 := Nat.mod_lt _ (Nat.succ_pos N)
  by_cases due : (a + k) % (N + 1) = N
  · -- the count is at its limit: an overloaded host, and the count starts anew
    obtain ⟨more, zero⟩ := probe_due due
    have full : (((a + k) % (N + 1) : Nat) : Int) ≥ cfg.probeNum := by omega
    obtain ⟨probes, h, gives, served⟩ := choiceOneHost_probe sound alone full
      (calls.countP (!·.probed)) (calls.countP (·.probed))
    refine ⟨⟨true, retSucc, some h⟩, ?_, ?_, scheduled.snoc ?_ ?_ ?_⟩
    · simpa [after, alone, length] using probes
    · simpa [after, alone, length, ← Nat.add_assoc, zero] using served
    · simpa [Expected] using gives
    · exact fun empty => absurd empty alone
    · exact fun _ => more
  · have early : (((a + k) % (N + 1) : Nat) : Int) < cfg.probeNum := by omega
    obtain ⟨same, next⟩ := probe_early (Nat.lt_of_le_of_ne (Nat.le_of_lt_succ within) due)
    by_cases idle : lb.idleList = []
    · -- nobody to return, but the call counts
      obtain ⟨unprobed, refused⟩ := choiceOneHost_refused idle early
        (calls.countP (!·.probed)) (calls.countP (·.probed))
      refine ⟨⟨false, retOverload, none⟩, ?_, ?_, scheduled.snoc ?_ ?_ ?_⟩
      · simpa [after, alone, length] using unprobed
      · -- an empty list looks the same however often it is turned
        simpa [after, alone, length, ← Nat.add_assoc, next, turned, idle] using refused
      · simp [Expected, idle]
      · exact fun _ => rfl
      · exact fun _ => same
    · obtain ⟨unprobed, h, gives, served⟩ := choiceOneHost_idle sound idle (.inr early)
        (calls.countP (!·.probed)) (calls.countP (·.probed))
      refine ⟨⟨false, retSucc, some h⟩, ?_, ?_, scheduled.snoc ?_ ?_ ?_⟩
      · simpa [after, alone, length] using unprobed
      · simpa [after, alone, length, ← Nat.add_assoc, next] using served
      · simpa [Expected, idle] using gives
      · exact fun _ => rfl
      · exact fun _ => same

theorem choices_scheduled (sound : Sound lb) (nonempty : lb.idleList ++ lb.overloadList ≠ [])
    {N a : Nat} (threshold : cfg.probeNum = N) (count : lb.accessCnt = a) (small : a ≤ N)
    (k : Nat) :
    ∃ calls, lb.choices cfg k = .ok (calls, lb.after N a calls) ∧ Scheduled lb N a k calls := by
  induction k with
  | zero =>
    refine ⟨[], ?_, rfl, by simp, ?_⟩
    · simp only [choices, after, turned, List.countP_nil, List.rotate_zero, List.length_nil,
        Nat.add_zero, Nat.mod_eq_of_lt (Nat.lt_succ_of_le small), ite_self, ← count]
    · simp only [List.countP_nil, Nat.add_zero, Nat.div_eq_of_lt (Nat.lt_succ_of_le small),
        ite_self]
  | succ k ih =>
    obtain ⟨calls, done, scheduled⟩ := ih
    obtain ⟨c, probed, chosen, next⟩ := choice_scheduled sound nonempty threshold scheduled
    refine ⟨calls ++ [c], ?_, next⟩
    simp only [choices, done, chosen, probed]

/-! ### Fairness -/

/-- The host behind a pointer. -/
def hostOf (lb : LoadBalance) (p : Ptr) : Option Proto.HostInfo :=
  (lb.heap p).map HostInfo.toProto

theorem Sound.hostOf_inj (sound : Sound lb) {p q : Ptr} {hi hj : HostInfo}
    (cell : lb.heap p = some hi) (cell' : lb.heap q = some hj) (same : hi.toProto = hj.toProto) :
    p = q := by
  have key : hi.key = hj.key := by rw [← key_toProto, same, key_toProto]
  have entry := sound.owned p hi cell
  rw [key, sound.owned q hj cell'] at entry
  exact (Option.some.inj entry).symm

/-- A call returns an idle host exactly if it is no probe and it is the host's turn. -/
theorem returns_idle_iff (sound : Sound lb) {p : Ptr} (idle : p ∈ lb.idleList)
    {calls : List Choice} {c : Choice} (last : lb.Expected calls c) :
    c.host = lb.hostOf p ↔ c.probed = false ∧
      lb.idleList[calls.countP (!·.probed) % lb.idleList.length]? = some p := by
  obtain ⟨hi, cell⟩ := (sound.listed p).mp (List.mem_append_left _ idle)
  have host : lb.hostOf p = some hi.toProto := by rw [hostOf, cell]; rfl
  have nonempty : lb.idleList ≠ [] := List.ne_nil_of_mem idle
  cases probed : c.probed with
  | true =>
    -- a probe returns an overloaded host, and no idle one
    simp only [Expected, probed, ↓reduceIte] at last
    obtain ⟨-, q, hj, among, cell', given⟩ := last
    have other : c.host ≠ lb.hostOf p := by
      rw [given, host]
      intro same
      have twin := sound.hostOf_inj cell' cell (Option.some.inj same)
      have overloaded := List.mem_of_getElem? among
      exact (List.nodup_append.mp sound.nodup).2.2 p idle q overloaded twin.symm
    simp [other]
  | false =>
    simp only [Expected, probed, Bool.false_eq_true, ↓reduceIte, nonempty] at last
    obtain ⟨-, q, hj, among, cell', given⟩ := last
    rw [given, host, among]
    constructor
    · intro same
      rw [sound.hostOf_inj cell' cell (Option.some.inj same)]
      exact ⟨rfl, rfl⟩
    · rintro ⟨-, same⟩
      cases same
      rw [cell] at cell'
      cases cell'
      rfl

/-- The calls that return an idle host are the rounds in which it is its turn. -/
theorem count_idle (sound : Sound lb) {p : Ptr} (idle : p ∈ lb.idleList) {calls : List Choice}
    (expected : ∀ i c, calls[i]? = some c → lb.Expected (calls.take i) c) :
    calls.countP (·.host = lb.hostOf p) =
      Nat.count (fun t => lb.idleList[t % lb.idleList.length]? = some p)
        (calls.countP (!·.probed)) := by
  induction calls using List.reverseRecOn with
  | nil => rfl
  | append_singleton calls c ih =>
    obtain ⟨earlier, last⟩ := expected_snoc.mp expected
    have turn := returns_idle_iff sound idle last
    rw [List.countP_append, List.countP_append, ih earlier, List.countP_singleton,
      List.countP_singleton]
    cases probed : c.probed with
    | true => simp [turn, probed]
    | false => simp [turn, probed, Nat.count_succ]

theorem count_turns (sound : Sound lb) {p : Ptr} (idle : p ∈ lb.idleList) (b : Nat) :
    b / lb.idleList.length ≤
        Nat.count (fun t => lb.idleList[t % lb.idleList.length]? = some p) b ∧
      Nat.count (fun t => lb.idleList[t % lb.idleList.length]? = some p) b ≤
        b / lb.idleList.length + 1 := by
  obtain ⟨v, bound, here⟩ := List.mem_iff_getElem.mp idle
  have some : 0 < lb.idleList.length := Nat.zero_lt_of_lt bound
  have nodup := (List.nodup_append.mp sound.nodup).1
  -- it is the turn of the host at position `v` in the rounds that leave the remainder `v`
  have turn : ∀ t, lb.idleList[t % lb.idleList.length]? = .some p ↔
      t ≡ v [MOD lb.idleList.length] := by
    intro t
    have position : lb.idleList[v]? = .some p := List.getElem?_eq_some_iff.mpr ⟨bound, here⟩
    rw [Nat.ModEq, Nat.mod_eq_of_lt bound]
    constructor
    · intro found
      exact (List.getElem?_inj (Nat.mod_lt t some) nodup).mp (found.trans position.symm)
    · intro same
      rw [same, position]
  simp only [turn]
  rw [Nat.count_modEq_card _ some]
  split <;> omega

/-- Consecutive calls from any count up to the threshold. With overloaded hosts, one call in
`probeNum + 1` is a probe; the probes go through the overloaded hosts and the other calls through
the idle ones in their order, so that no idle host is returned twice more than another. Without
overloaded hosts nothing is counted. The calls rotate the lists and change no record. -/
theorem choice_schedule (sound : Sound lb) (nonempty : lb.idleList ++ lb.overloadList ≠ [])
    {N a : Nat} (threshold : cfg.probeNum = N) (count : lb.accessCnt = a) (small : a ≤ N)
    (k : Nat) :
    ∃ calls lb', lb.choices cfg k = .ok (calls, lb') ∧ calls.length = k ∧
      calls.countP (·.probed) = (if lb.overloadList = [] then 0 else (a + k) / (N + 1)) ∧
      (∀ i c, calls[i]? = some c → lb.Expected (calls.take i) c) ∧
      (∀ p ∈ lb.idleList, ∀ q ∈ lb.idleList,
        calls.countP (·.host = lb.hostOf p) ≤ calls.countP (·.host = lb.hostOf q) + 1) ∧
      (lb.overloadList = [] → lb'.accessCnt = lb.accessCnt) ∧
      lb'.idleList ~r lb.idleList ∧ lb'.overloadList ~r lb.overloadList ∧ lb'.heap = lb.heap ∧
      0 ≤ lb'.accessCnt ∧ lb'.accessCnt ≤ cfg.probeNum := by
  obtain ⟨calls, done, length, expected, probed⟩ :=
    choices_scheduled sound nonempty threshold count small k
  refine ⟨calls, lb.after N a calls, done, length, probed, expected, ?_, ?_, ?_, ?_, rfl, ?_⟩
  · intro p idle q idle'
    rw [count_idle sound idle expected, count_idle sound idle' expected]
    exact (count_turns sound idle _).2.trans (Nat.add_le_add_right (count_turns sound idle' _).1 1)
  · intro alone
    simp only [after, turned, alone, ↓reduceIte, count]
  · exact List.IsRotated.forall _ _
  · exact List.IsRotated.forall _ _
  · have within : (a + calls.length) % (N + 1) < N + 1 := Nat.mod_lt _ (Nat.succ_pos N)
    simp only [after, turned]
    split <;> omega

private def idleHost : HostInfo := .new 2 80 Config.default.initSuccCnt 0

/-- One idle and one overloaded host. -/
private def twoHosts : LoadBalance :=
  (((init 1 1 0).insertHost .default 0 ⟨1, 80⟩).insertHost .default 0 ⟨2, 80⟩).toOverload
    .default 0 1 idleHost

private theorem twoHosts_sound : Sound twoHosts := by
  have both := ((Sound.init 1 1 0).insertHost .default 0 ⟨1, 80⟩).insertHost .default 0 ⟨2, 80⟩
  exact both.toOverload .default 0 (show _ = some idleHost from rfl) rfl rfl

/-- Of twenty-five calls two are probes. -/
theorem choice_schedule_two_hosts :
    ∃ calls lb', twoHosts.choices .default 25 = .ok (calls, lb') ∧ calls.length = 25 ∧
      calls.countP (·.probed) = 2 ∧
      (∀ i c, calls[i]? = some c → twoHosts.Expected (calls.take i) c) := by
  obtain ⟨calls, lb', done, length, probed, expected, -⟩ := choice_schedule twoHosts_sound
    (show twoHosts.idleList ++ twoHosts.overloadList ≠ [] by decide)
    (show Config.default.probeNum = (10 : Nat) from rfl)
    (show twoHosts.accessCnt = (0 : Nat) from rfl) (Nat.zero_le 10) 25
  refine ⟨calls, lb', done, length, ?_, expected⟩
  rw [probed, if_neg (by decide)]

end Lars.Agent.LoadBalance
