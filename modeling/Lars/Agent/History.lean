import Lars.Agent.Update
import Mathlib.Algebra.Order.Field.Rat
import Mathlib.Data.List.TakeWhile

/-!
# The reports on one host

What a `host_info` holds is a matter of the reports on the host alone. `Standing`
is a host as its reports describe it: whether it counts as overloaded, since when,
and the results that have come in since then. The record has six counters and two
times in their place. They agree as long as no counter wraps around.
-/
namespace Lars.Agent

open Proto (retSucc)

/-- One call of `report` on a host, with its two readings of the clock. -/
structure Report where
  now : Int
  ts : Int
  retcode : Int32
  deriving DecidableEq, Repr

/-! ### The abstract host -/

/-- `window` holds the results since the last reset, which was at `since`, the latest first. -/
structure Standing where
  overloaded : Bool
  since : Int
  window : List Bool
  deriving DecidableEq, Repr

namespace Standing

def successes (st : Standing) : Nat := st.window.count true

def failures (st : Standing) : Nat := st.window.count false

/-- How many of the latest results in a row were `result`. -/
def trailing (st : Standing) (result : Bool) : Nat := (st.window.takeWhile (· == result)).length

/-- An idle host starts with successes on its account, an overloaded one with failures. -/
def vsucc (cfg : Config) (st : Standing) : Int :=
  st.successes + if st.overloaded then 0 else cfg.initSuccCnt.toInt

def verr (cfg : Config) (st : Standing) : Int :=
  st.failures + if st.overloaded then cfg.initErrCnt.toInt else 0

def count (r : Report) (st : Standing) : Standing :=
  { st with window := decide (r.retcode = retSucc) :: st.window }

@[simp] theorem overloaded_count (r : Report) (st : Standing) :
    (st.count r).overloaded = st.overloaded := rfl

end Standing

/-- A share above the rate, or a run that reaches the limit. -/
def Reaches (rate : ℚ) (limit part total : Int) (run : Nat) : Prop :=
  rate < (part : ℚ) / total ∨ limit ≤ run

instance (rate : ℚ) (limit part total : Int) (run : Nat) :
    Decidable (Reaches rate limit part total run) :=
  inferInstanceAs (Decidable (_ ∨ _))

/-- A limit of the configuration as `report` compares it: cast to `uint32_t`. -/
def castLimit (limit : Int32) : Int := limit.toUInt32.toNat

namespace Standing

/-- The failures of an idle host make it overloaded. -/
def TooManyErrors (cfg : Config) (errRate : ℚ) (limit : Int) (st : Standing) : Prop :=
  Reaches errRate limit (st.verr cfg) (st.vsucc cfg + st.verr cfg) (st.trailing false)

/-- The successes of an overloaded host make it idle. -/
def EnoughSuccesses (cfg : Config) (succRate : ℚ) (limit : Int) (st : Standing) : Prop :=
  Reaches succRate limit (st.vsucc cfg) (st.vsucc cfg + st.verr cfg) (st.trailing true)

instance (cfg : Config) (rate : ℚ) (limit : Int) (st : Standing) :
    Decidable (st.TooManyErrors cfg rate limit) :=
  inferInstanceAs (Decidable (Reaches ..))

instance (cfg : Config) (rate : ℚ) (limit : Int) (st : Standing) :
    Decidable (st.EnoughSuccesses cfg rate limit) :=
  inferInstanceAs (Decidable (Reaches ..))

/-- The host after one more report. A change of state and the end of an idle host's period start
a new window; the report itself is not part of it. -/
def next (cfg : Config) (errRate succRate : ℚ) (st : Standing) (r : Report) : Standing :=
  if st.overloaded then
    if (r.retcode = retSucc ∧
          (st.count r).EnoughSuccesses cfg succRate (castLimit cfg.continSuccLimit)) ∨
        cfg.overloadTimeout ≤ r.now - st.since then ⟨false, r.ts, []⟩
    else st.count r
  else if r.retcode ≠ retSucc ∧
      (st.count r).TooManyErrors cfg errRate (castLimit cfg.continErrLimit) then ⟨true, r.ts, []⟩
  else if cfg.idleTimeout ≤ r.now - st.since then ⟨false, r.ts, []⟩
  else st.count r

end Standing

/-! ### The record -/

/-- The record holds what the reports say. -/
structure Holds (cfg : Config) (hi : HostInfo) (st : Standing) : Prop where
  flag : hi.overload = st.overloaded
  since : (if hi.overload then hi.overloadTs else hi.idleTs) = st.since
  rsucc : hi.rsucc.toNat = st.successes
  rerr : hi.rerr.toNat = st.failures
  vsucc : (hi.vsucc.toNat : Int) = st.vsucc cfg
  verr : (hi.verr.toNat : Int) = st.verr cfg
  continSucc : hi.continSucc.toNat = st.trailing true
  continErr : hi.continErr.toNat = st.trailing false

/-- What `judge` makes of the record with the result counted. -/
def HostInfo.judged (cfg : Config) (r : Report) (hi : HostInfo) : HostInfo :=
  if hi.overload then
    if (r.retcode = retSucc ∧ hi.isIdle cfg) ∨ r.now - hi.overloadTs ≥ cfg.overloadTimeout then
      hi.setIdle cfg r.ts
    else hi
  else if r.retcode ≠ retSucc ∧ hi.isOverload cfg then hi.setOverload cfg r.ts
  else if r.now - hi.idleTs ≥ cfg.idleTimeout then hi.setIdle cfg r.ts
  else hi

/-- The record that a report leaves behind. -/
def HostInfo.reported (cfg : Config) (hi : HostInfo) (r : Report) : HostInfo :=
  (hi.count r.retcode).judged cfg r

/-- The two lists after the flag of `p` has gone from `before` to `after`. -/
def LoadBalance.relist (before after : Bool) (p : Ptr) (lists : List Ptr × List Ptr) :
    List Ptr × List Ptr :=
  if before = after then lists
  else if after then (remove lists.1 p, lists.2 ++ [p])
  else (lists.1 ++ [p], remove lists.2 p)

/-- The record at `p` is replaced, and `p` is where its flag says. -/
def LoadBalance.put (p : Ptr) (before after : HostInfo) (lb : LoadBalance) : LoadBalance :=
  let lists := relist before.overload after.overload p (lb.idleList, lb.overloadList)
  { lb with
    heap := Function.update lb.heap p (some after)
    idleList := lists.1
    overloadList := lists.2 }

/-- Every branch of `report` comes to this. -/
theorem LoadBalance.judge_eq (lb : LoadBalance) (cfg : Config) (r : Report) (p : Ptr)
    (hi : HostInfo) :
    lb.judge cfg r.now r.ts r.retcode p hi = lb.put p hi (hi.judged cfg r) := by
  unfold judge HostInfo.judged checkTimeout
  cases state : hi.overload with
  | false =>
    have stays : lb.store p (hi.setIdle cfg r.ts) = lb.put p hi (hi.setIdle cfg r.ts) := by
      simp only [put, relist, state]
      rfl
    have same : lb.store p hi = lb.put p hi hi := by
      simp only [put, relist]
      rfl
    have moves : lb.toOverload cfg r.ts p hi = lb.put p hi (hi.setOverload cfg r.ts) := by
      simp only [put, relist, state]
      rfl
    by_cases good : r.retcode = retSucc
    · simp only [good, ne_eq, not_true_eq_false, and_false, false_and, Bool.false_eq_true,
        ↓reduceIte, stays, same]
      split <;> rfl
    · simp only [good, ne_eq, not_false_eq_true, and_self, true_and, Bool.false_eq_true,
        ↓reduceIte, stays, same, moves]
      split
      · rfl
      · split <;> rfl
  | true =>
    have same : lb.store p hi = lb.put p hi hi := by
      simp only [put, relist]
      rfl
    have moves : lb.toIdle cfg r.ts p hi = lb.put p hi (hi.setIdle cfg r.ts) := by
      simp only [put, relist, state]
      rfl
    by_cases good : r.retcode = retSucc
    · simp only [good, Bool.true_eq_false, false_and, true_and, ↓reduceIte, same, moves]
      split
      next recovers => simp only [recovers, true_or, ↓reduceIte]
      next recovers =>
        simp only [recovers, Bool.false_eq_true, false_or]
        split <;> rfl
    · simp only [good, Bool.true_eq_false, false_and, and_false, false_or, ↓reduceIte, same, moves]
      split <;> rfl

/-- A count that is not negative survives the conversion to `uint32_t`. -/
theorem toNat_toUInt32 {n : Int32} (nonneg : 0 ≤ n.toInt) : (n.toUInt32.toNat : Int) = n.toInt := by
  have value : n.toInt = Int.bmod n.toUInt32.toNat (2 ^ 32) := by
    rw [← toInt_toInt32]
    simp
  have bound := n.toUInt32.toNat_lt
  rw [Int.bmod_def] at value
  split at value <;> omega

/-- Initial counts that are not negative, and rates taken as exact rationals. -/
structure Config.Exact (cfg : Config) (errRate succRate : ℚ) : Prop where
  initSucc : 0 ≤ cfg.initSuccCnt.toInt
  initErr : 0 ≤ cfg.initErrCnt.toInt
  errRate : cfg.errRate = .exact errRate
  succRate : cfg.succRate = .exact succRate

variable {cfg : Config} {errRate succRate : ℚ} {hi : HostInfo} {st : Standing}

theorem Holds.new (exact : cfg.Exact errRate succRate) (ip : UInt32) (port : Int32) (ts : Int) :
    Holds cfg (HostInfo.new ip port cfg.initSuccCnt ts) ⟨false, ts, []⟩ where
  flag := rfl
  since := rfl
  rsucc := rfl
  rerr := rfl
  vsucc := by simp [HostInfo.new, Standing.vsucc, Standing.successes, toNat_toUInt32 exact.initSucc]
  verr := rfl
  continSucc := rfl
  continErr := rfl

theorem Holds.setIdle (exact : cfg.Exact errRate succRate) (hi : HostInfo) (ts : Int) :
    Holds cfg (hi.setIdle cfg ts) ⟨false, ts, []⟩ where
  flag := rfl
  since := rfl
  rsucc := rfl
  rerr := rfl
  vsucc := by
    simp [HostInfo.setIdle, Standing.vsucc, Standing.successes, toNat_toUInt32 exact.initSucc]
  verr := rfl
  continSucc := rfl
  continErr := rfl

theorem Holds.setOverload (exact : cfg.Exact errRate succRate) (hi : HostInfo) (ts : Int) :
    Holds cfg (hi.setOverload cfg ts) ⟨true, ts, []⟩ where
  flag := rfl
  since := rfl
  rsucc := rfl
  rerr := rfl
  vsucc := rfl
  verr := by
    simp [HostInfo.setOverload, Standing.verr, Standing.failures, toNat_toUInt32 exact.initErr]
  continSucc := rfl
  continErr := rfl

/-- No counter of the record wraps around when one more result is counted. -/
def HostInfo.Fits (hi : HostInfo) : Prop := hi.vsucc.toNat + hi.verr.toNat + 1 < 2 ^ 32

instance (hi : HostInfo) : Decidable hi.Fits := inferInstanceAs (Decidable (_ < _))

theorem toNat_succ {n : UInt32} (fits : n.toNat + 1 < 2 ^ 32) : (n + 1).toNat = n.toNat + 1 := by
  rw [UInt32.toNat_add]
  exact Nat.mod_eq_of_lt fits

theorem Standing.trailing_le (st : Standing) (result : Bool) :
    st.trailing result ≤ st.window.count result := by
  have alike : (st.window.takeWhile (· == result)).count result = st.trailing result := by
    refine List.count_eq_length.mpr fun other member => ?_
    have same := List.mem_takeWhile_imp (p := (· == result)) member
    exact (eq_of_beq same).symm
  rw [← alike]
  exact (List.takeWhile_sublist _).count_le result

/-- The virtual counters bound the others. -/
theorem Holds.bounds (holds : Holds cfg hi st) (exact : cfg.Exact errRate succRate) :
    hi.rsucc.toNat ≤ hi.vsucc.toNat ∧ hi.rerr.toNat ≤ hi.verr.toNat ∧
      hi.continSucc.toNat ≤ hi.vsucc.toNat ∧ hi.continErr.toNat ≤ hi.verr.toNat := by
  have good := st.trailing_le true
  have bad := st.trailing_le false
  have vsucc := holds.vsucc
  have verr := holds.verr
  have rsucc := holds.rsucc
  have rerr := holds.rerr
  have continSucc := holds.continSucc
  have continErr := holds.continErr
  have initSucc := exact.initSucc
  have initErr := exact.initErr
  simp only [Standing.vsucc, Standing.verr, Standing.successes, Standing.failures] at *
  split at vsucc <;> split at verr <;> omega

theorem Holds.count (holds : Holds cfg hi st) (exact : cfg.Exact errRate succRate)
    (fits : hi.Fits) (r : Report) :
    Holds cfg (hi.count r.retcode) (st.count r) := by
  obtain ⟨rsucc, rerr, continSucc, continErr⟩ := holds.bounds exact
  unfold HostInfo.Fits at fits
  unfold HostInfo.count Standing.count
  by_cases good : r.retcode = retSucc
  · simp only [good, ↓reduceIte, decide_true]
    constructor
    case flag => exact holds.flag
    case since => exact holds.since
    case rsucc =>
      rw [toNat_succ (by omega), holds.rsucc]
      simp [Standing.successes]
    case rerr =>
      rw [holds.rerr]
      simp [Standing.failures]
    case vsucc =>
      rw [toNat_succ (by omega), Nat.cast_add, holds.vsucc]
      simp [Standing.vsucc, Standing.successes]
      omega
    case verr =>
      rw [holds.verr]
      simp [Standing.verr, Standing.failures]
    case continSucc =>
      rw [toNat_succ (by omega), holds.continSucc]
      simp [Standing.trailing]
    case continErr => simp [Standing.trailing]
  · simp only [good, ↓reduceIte, decide_false]
    constructor
    case flag => exact holds.flag
    case since => exact holds.since
    case rsucc =>
      rw [holds.rsucc]
      simp [Standing.successes]
    case rerr =>
      rw [toNat_succ (by omega), holds.rerr]
      simp [Standing.failures]
    case vsucc =>
      rw [holds.vsucc]
      simp [Standing.vsucc, Standing.successes]
    case verr =>
      rw [toNat_succ (by omega), Nat.cast_add, holds.verr]
      simp [Standing.verr, Standing.failures]
      omega
    case continSucc => simp [Standing.trailing]
    case continErr =>
      rw [toNat_succ (by omega), holds.continErr]
      simp [Standing.trailing]

/-- The exact quotient and the test of the code, where there is something to divide by. -/
theorem exceededBy_exact {rate : ℚ} {n d : UInt32} (pos : 0 < d.toNat) :
    (Rate.exact rate).exceededBy n d = true ↔ rate < (n.toNat : ℚ) / d.toNat := by
  have nonzero : d ≠ 0 := by
    rintro rfl
    simp at pos
  have above : (0 : ℚ) < d.toNat := by exact_mod_cast pos
  simp only [Rate.exact, nonzero, ↓reduceIte, decide_eq_true_eq]
  exact (lt_div_iff₀ above).symm

/-- The two tests of `report` have one form. -/
theorem reaches_iff {rate : ℚ} {limit : Int32} {part total run : UInt32} (pos : 0 < total.toNat) :
    ((Rate.exact rate).exceededBy part total || decide (run ≥ limit.toUInt32)) = true ↔
      Reaches rate (castLimit limit) part.toNat total.toNat run.toNat := by
  rw [Bool.or_eq_true, exceededBy_exact pos, decide_eq_true_eq, ge_iff_le, UInt32.le_iff_toNat_le]
  simp only [Reaches, castLimit, Int.cast_natCast, Nat.cast_le]

theorem HostInfo.count_total (fits : hi.Fits) (retcode : Int32) :
    (hi.count retcode).vsucc.toNat + (hi.count retcode).verr.toNat =
      hi.vsucc.toNat + hi.verr.toNat + 1 := by
  unfold HostInfo.Fits at fits
  unfold HostInfo.count
  split
  · dsimp only
    rw [toNat_succ (by omega)]
    omega
  · dsimp only
    rw [toNat_succ (by omega)]
    omega

section Tests

variable (holds : Holds cfg hi st) (exact : cfg.Exact errRate succRate)
  (fits : hi.vsucc.toNat + hi.verr.toNat < 2 ^ 32) (pos : 0 < hi.vsucc.toNat + hi.verr.toNat)
include holds exact fits pos

theorem Holds.isOverload_iff :
    hi.isOverload cfg = true ↔ st.TooManyErrors cfg errRate (castLimit cfg.continErrLimit) := by
  have total : (hi.vsucc + hi.verr).toNat = hi.vsucc.toNat + hi.verr.toNat := by
    rw [UInt32.toNat_add]
    exact Nat.mod_eq_of_lt fits
  rw [HostInfo.isOverload, exact.errRate, reaches_iff (by omega), total, Standing.TooManyErrors,
    ← holds.vsucc, ← holds.verr, ← holds.continErr]
  push_cast
  rfl

theorem Holds.isIdle_iff :
    hi.isIdle cfg = true ↔ st.EnoughSuccesses cfg succRate (castLimit cfg.continSuccLimit) := by
  have total : (hi.vsucc + hi.verr).toNat = hi.vsucc.toNat + hi.verr.toNat := by
    rw [UInt32.toNat_add]
    exact Nat.mod_eq_of_lt fits
  rw [HostInfo.isIdle, exact.succRate, reaches_iff (by omega), total, Standing.EnoughSuccesses,
    ← holds.vsucc, ← holds.verr, ← holds.continSucc]
  push_cast
  rfl

end Tests

/-- One report: the record goes the way of the abstract host. -/
theorem Holds.reported (holds : Holds cfg hi st) (exact : cfg.Exact errRate succRate)
    (fits : hi.Fits) (r : Report) :
    Holds cfg (hi.reported cfg r) (st.next cfg errRate succRate r) := by
  have counted := holds.count exact fits r
  -- a result has just been counted, so neither quotient is by zero
  have total := HostInfo.count_total fits r.retcode
  have overload := counted.isOverload_iff exact (by unfold HostInfo.Fits at fits; omega) (by omega)
  have idle := counted.isIdle_iff exact (by unfold HostInfo.Fits at fits; omega) (by omega)
  have flag : (hi.count r.retcode).overload = st.overloaded := counted.flag
  have since := counted.since
  unfold HostInfo.reported HostInfo.judged Standing.next
  simp only [flag] at since ⊢
  cases state : st.overloaded with
  | true =>
    simp only [state, ↓reduceIte] at since ⊢
    have same : st.since = (hi.count r.retcode).overloadTs := since.symm
    simp only [idle, same, ge_iff_le]
    split
    · exact .setIdle exact _ r.ts
    · exact counted
  | false =>
    simp only [state, Bool.false_eq_true, ↓reduceIte] at since ⊢
    have same : st.since = (hi.count r.retcode).idleTs := since.symm
    simp only [overload, same, ge_iff_le]
    split
    · exact .setOverload exact _ r.ts
    · split
      · exact .setIdle exact _ r.ts
      · exact counted

/-! ### Its cell on the heap -/

namespace LoadBalance

variable {lb lb' : LoadBalance} {p : Ptr} {k : UInt64}

theorem insertHosts_cell (cfg : Config) (ts : Nat → Int) (i : Nat) (hs : List Proto.HostInfo)
    (old : p < lb.nextPtr) : (lb.insertHosts cfg ts i hs).heap p = lb.heap p := by
  induction hs generalizing lb i with
  | nil => rfl
  | cons h hs ih =>
    rw [insertHosts]
    unfold insertHost
    cases lb.hostMap.lookup h.key with
    | some q => exact ih (i + 1) old
    | none =>
      rw [ih (i + 1) (Nat.lt_succ_of_lt old)]
      exact Function.update_of_ne old.ne _ _

end LoadBalance

end Lars.Agent
