import Mathlib.Data.List.Nodup

/-!
# Linked lists in memory

A list in memory is a pointer to its first node, and every node points to the
one behind it or nowhere. `Linked` says which nodes are met on the way from a
pointer to the null pointer. A node has one successor, so the way is unique; it
ends, so it meets no node twice.
-/
namespace Linked

variable {α : Type*} {next next' : α → Option α} {head : Option α} {xs ys : List α}

/-- Following `next` from `head` meets the nodes `xs` and then the null pointer. -/
def Path (next : α → Option α) : Option α → List α → Prop
  | head, [] => head = none
  | head, a :: as => head = some a ∧ Path next (next a) as

theorem Path.unique (path : Path next head xs) (other : Path next head ys) : xs = ys := by
  induction xs generalizing head ys with
  | nil =>
    cases ys with
    | nil => rfl
    | cons b bs => exact absurd (other.1.symm.trans path) (Option.some_ne_none b)
  | cons a as ih =>
    cases ys with
    | nil => exact absurd (path.1.symm.trans other) (Option.some_ne_none a)
    | cons b bs =>
      obtain rfl : a = b := Option.some.inj (path.1.symm.trans other.1)
      rw [ih path.2 other.2]

/-- The way goes on from every node on it. -/
theorem Path.from_mem {a : α} (path : Path next head xs) (member : a ∈ xs) :
    ∃ rest, Path next (some a) (a :: rest) ∧ rest.length < xs.length := by
  induction xs generalizing head with
  | nil => exact absurd member List.not_mem_nil
  | cons b bs ih =>
    rcases List.mem_cons.mp member with rfl | later
    · exact ⟨bs, ⟨rfl, path.2⟩, Nat.lt_succ_self _⟩
    · obtain ⟨rest, onward, shorter⟩ := ih path.2 later
      exact ⟨rest, onward, Nat.lt_succ_of_lt shorter⟩

/-- A way that ends has no cycle. -/
theorem Path.nodup (path : Path next head xs) : xs.Nodup := by
  induction xs generalizing head with
  | nil => exact List.nodup_nil
  | cons a as ih =>
    refine List.nodup_cons.mpr ⟨fun again => ?_, ih path.2⟩
    -- from the second visit on the way would be as long as from the first
    obtain ⟨rest, onward, shorter⟩ := path.2.from_mem again
    have first : Path next (some a) (a :: as) := ⟨rfl, path.2⟩
    rw [(List.cons.inj (first.unique onward)).2] at shorter
    exact Nat.lt_irrefl _ shorter

/-- Pointers that are not on the way do not matter. -/
theorem Path.congr (path : Path next head xs) (same : ∀ a ∈ xs, next' a = next a) :
    Path next' head xs := by
  induction xs generalizing head with
  | nil => exact path
  | cons a as ih =>
    refine ⟨path.1, ?_⟩
    rw [same a List.mem_cons_self]
    exact ih path.2 fun b member => same b (List.mem_cons_of_mem _ member)

theorem Path.push {a : α} (path : Path next head xs) (same : ∀ b ∈ xs, next' b = next b)
    (points : next' a = head) : Path next' (some a) (a :: xs) :=
  ⟨rfl, points ▸ path.congr same⟩

/-- A pointer that is not null leads to a first node and a list behind it. -/
theorem Path.cons_of_some {a : α} (path : Path next (some a) xs) :
    ∃ rest, xs = a :: rest ∧ Path next (next a) rest := by
  cases xs with
  | nil => exact absurd path (Option.some_ne_none a)
  | cons b bs =>
    obtain rfl := Option.some.inj path.1
    exact ⟨bs, rfl, path.2⟩

theorem Path.eq_nil_of_none (path : Path next none xs) : xs = [] := by
  cases xs with
  | nil => rfl
  | cons a as => exact absurd path.1.symm (Option.some_ne_none a)

/-- Nodes that lie one behind the other, each pointing to its neighbour. -/
theorem path_range' {next : Nat → Option Nat} {start n : Nat}
    (neighbour : ∀ i < n, next (start + i) = some (start + i + 1))
    (last : next (start + n) = none) :
    Path next (some start) (List.range' start (n + 1)) := by
  induction n generalizing start with
  | zero => exact ⟨rfl, last⟩
  | succ n ih =>
    rw [List.range'_succ]
    refine ⟨rfl, ?_⟩
    have first := neighbour 0 (Nat.succ_pos n)
    rw [Nat.add_zero] at first
    rw [first]
    apply ih
    · intro i bound
      have behind := neighbour (i + 1) (Nat.succ_lt_succ bound)
      rw [show start + (i + 1) = start + 1 + i by omega] at behind
      exact behind
    · rw [show start + 1 + n = start + (n + 1) by omega]
      exact last

end Linked
