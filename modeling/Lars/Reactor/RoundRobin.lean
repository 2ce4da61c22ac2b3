import Lars.Reactor.Server

/-!
# Which thread gets a connection

`get_thread` goes round the queues of the pool for one accepted connection after
another. The index is set back when it stands at the last queue, before that
queue has been used: with `n > 1` threads the calls go round the first `n - 1`
queues, and with one thread the second call reads past the end.
-/
namespace Lars.Reactor

namespace ThreadPool

variable {n : Nat}

/-- The constructor; it does not return if there is to be no thread. -/
def create (threadCnt : Int) : Except Fault (ThreadPool threadCnt.toNat) :=
  if threadCnt ≤ 0 then .error .exit
  else .ok ⟨fun _ => ⟨ThreadQueue.init, []⟩, 0⟩

/-- `k` calls of `get_thread`, one after the other. -/
def getThreads : Nat → ThreadPool n → Except Fault (List (Fin n) × ThreadPool n)
  | 0, p => .ok ([], p)
  | k + 1, p =>
    match p.getThread with
    | .error e => .error e
    | .ok (thread, p) =>
      match getThreads k p with
      | .error e => .error e
      | .ok (threads, p) => .ok (thread :: threads, p)

/-- Every one of the `k` calls returns a queue of the pool, and any `n` calls in a row return
each queue once. -/
def RoundRobin (p : ThreadPool n) (k : Nat) : Prop :=
  ∃ threads p', p.getThreads k = .ok (threads, p') ∧
    ∀ start, start + n ≤ k → ∀ thread, ((threads.drop start).take n).count thread = 1

theorem getThread_eq {p : ThreadPool n} (several : 1 < n) (bound : p.index ≤ n - 1) :
    ∃ thread : Fin n, thread.val = p.index % (n - 1) ∧
      p.getThread = .ok (thread, { p with index := p.index % (n - 1) + 1 }) := by
  have small : p.index % (n - 1) < n - 1 := Nat.mod_lt _ (by omega)
  have inside : p.index % (n - 1) < n := by omega
  refine ⟨⟨p.index % (n - 1), inside⟩, rfl, ?_⟩
  have wrapped : (if p.index + 1 = n then 0 else p.index) = p.index % (n - 1) := by
    split
    next last => rw [show p.index = n - 1 by omega, Nat.mod_self]
    next => rw [Nat.mod_eq_of_lt (by omega)]
  simp only [getThread, wrapped, dif_pos inside]

/-- The calls go round the queues but the last. -/
theorem getThreads_eq (several : 1 < n) (k : Nat) (p : ThreadPool n) (bound : p.index ≤ n - 1) :
    ∃ threads p', p.getThreads k = .ok (threads, p') ∧ threads.length = k ∧
      ∀ i thread, threads[i]? = some thread → thread.val = (p.index + i) % (n - 1) := by
  induction k generalizing p with
  | zero =>
    refine ⟨[], p, rfl, rfl, ?_⟩
    intro i thread found
    cases found
  | succ k ih =>
    obtain ⟨first, value, taken⟩ := getThread_eq several bound
    have next : p.index % (n - 1) + 1 ≤ n - 1 := Nat.mod_lt p.index (by omega)
    obtain ⟨threads, p', done, length, values⟩ :=
      ih { p with index := p.index % (n - 1) + 1 } next
    refine ⟨first :: threads, p', ?_, by rw [List.length_cons, length], ?_⟩
    · simp only [getThreads, taken, done]
    · intro i thread found
      cases i with
      | zero =>
        cases found
        rw [value, Nat.add_zero]
      | succ i =>
        rw [values i thread found, Nat.add_assoc, Nat.mod_add_mod, Nat.add_comm 1 i]

theorem getThreads_single {p : ThreadPool 1} (fresh : p.index = 0) (k : Nat) :
    p.getThreads (k + 2) = .error .outOfBounds := by
  simp [getThreads, getThread, fresh]

/-- The pool goes round as it should only until the last queue is due. -/
theorem roundRobin_iff (threadCnt : Int) (positive : 1 ≤ threadCnt) (k : Nat) :
    ∃ p, create threadCnt = .ok p ∧ (p.RoundRobin k ↔ k < max threadCnt.toNat 2) := by
  have some : 1 ≤ threadCnt.toNat := by omega
  refine ⟨⟨fun _ => ⟨ThreadQueue.init, []⟩, 0⟩, if_neg (by omega), ?_⟩
  generalize threadCnt.toNat = n at some
  rcases Nat.eq_or_lt_of_le some with rfl | several
  · -- one thread
    constructor
    · rintro ⟨threads, p', done, -⟩
      by_contra more
      obtain ⟨j, rfl⟩ : ∃ j, k = j + 2 := ⟨k - 2, by omega⟩
      rw [getThreads_single rfl] at done
      cases done
    · intro few
      obtain rfl | rfl : k = 0 ∨ k = 1 := by omega
      · exact ⟨[], _, rfl, by intros; omega⟩
      · refine ⟨[0], _, rfl, ?_⟩
        intro start inside thread
        obtain rfl : start = 0 := by omega
        rw [Subsingleton.elim thread 0]
        rfl
  · obtain ⟨threads, p', done, length, values⟩ :=
      getThreads_eq several k ⟨fun _ => ⟨ThreadQueue.init, []⟩, 0⟩ (Nat.zero_le _)
    constructor
    · rintro ⟨threads', p'', done', windows⟩
      rw [done] at done'
      cases done'
      by_contra more
      -- the last queue is in no window
      have once := windows 0 (by omega) ⟨n - 1, by omega⟩
      have member := List.count_pos_iff.mp (Nat.lt_of_lt_of_eq Nat.zero_lt_one once.symm)
      obtain ⟨i, found⟩ := List.getElem?_of_mem (List.mem_of_mem_drop (List.mem_of_mem_take member))
      have value := values i _ found
      have small := Nat.mod_lt (0 + i) (show 0 < n - 1 by omega)
      exact absurd value (by simp only; omega)
    · intro few
      exact ⟨threads, p', done, fun start inside => by omega⟩

/-- Three threads, the default, and two connections. -/
theorem roundRobin_two_of_three : ∃ p, create 3 = .ok p ∧ p.RoundRobin 2 := by
  obtain ⟨p, created, iff⟩ := roundRobin_iff 3 (by decide) 2
  exact ⟨p, created, iff.mpr (by decide)⟩

/-- The third connection goes to the first thread again. -/
theorem not_roundRobin_three : ∃ p, create 3 = .ok p ∧
    (p.getThreads 3).map (·.1) = .ok [⟨0, by decide⟩, ⟨1, by decide⟩, ⟨0, by decide⟩] ∧
    ¬p.RoundRobin 3 := by
  refine ⟨_, rfl, rfl, ?_⟩
  rintro ⟨threads, p', done, windows⟩
  cases done
  exact absurd (windows 0 (by decide) ⟨2, by decide⟩) (by decide)

end ThreadPool

end Lars.Reactor
