import Mathlib.Data.List.Induction
import Mathlib.Logic.Function.Basic

/-!
# Writes to a keyed table

A table holds one value for each key and a write replaces it. After a list of
writes a key holds what the last write to it brought. When the list is merged
from those of several writers, that last write is the last of one of them, and
of which one depends on the merge.
-/
namespace LastWrite

variable {κ ν ι : Type*} [DecidableEq κ]

/-- What the last write to `key` brings. -/
def last (key : κ) : List (κ × ν) → Option ν
  | [] => none
  | w :: ws => (last key ws).or (if w.1 = key then some w.2 else none)

def write (table : κ → Option ν) (w : κ × ν) : κ → Option ν :=
  Function.update table w.1 (some w.2)

theorem last_append (key : κ) (ws us : List (κ × ν)) :
    last key (ws ++ us) = (last key us).or (last key ws) := by
  induction ws with
  | nil => simp only [List.nil_append, last, Option.or_none]
  | cons w ws ih => simp only [List.cons_append, last, ih, Option.or_assoc]

theorem mem_of_last {key : κ} {v : ν} {ws : List (κ × ν)} (reached : last key ws = some v) :
    (key, v) ∈ ws := by
  induction ws with
  | nil => cases reached
  | cons w ws ih =>
    rw [last, Option.or_eq_some_iff] at reached
    rcases reached with later | ⟨-, first⟩
    · exact List.mem_cons_of_mem _ (ih later)
    · split at first
      next own =>
        cases first
        exact own ▸ List.mem_cons_self
      next => cases first

theorem write_apply (table : κ → Option ν) (w : κ × ν) (key : κ) :
    write table w key = (last key [w]).or (table key) := by
  simp only [write, last, Option.none_or, Function.update_apply, eq_comm (a := key)]
  split <;> rfl

/-- A write that reaches `key` in a part of the list reaches it in the whole. -/
theorem last_append_some {key : κ} {ws us : List (κ × ν)}
    (reached : (∃ v, last key ws = some v) ∨ ∃ v, last key us = some v) :
    ∃ v, last key (ws ++ us) = some v := by
  rw [last_append]
  rcases reached with ⟨v, first⟩ | ⟨v, second⟩
  · cases later : last key us with
    | none => exact ⟨v, first⟩
    | some u => exact ⟨u, rfl⟩
  · exact ⟨v, by rw [second]; rfl⟩

/-! ### Several writers -/

variable [DecidableEq ι]

/-- The writes of one writer, out of a log of all of them. -/
def part (i : ι) (log : List (ι × κ × ν)) : List (κ × ν) :=
  (log.filter (·.1 = i)).map (·.2)

omit [DecidableEq κ] in
theorem part_append (i : ι) (log more : List (ι × κ × ν)) :
    part i (log ++ more) = part i log ++ part i more := by
  simp only [part, List.filter_append, List.map_append]

omit [DecidableEq κ] in
/-- What one writer writes is its own part and nobody else's. -/
theorem part_tagged (i j : ι) (ws : List (κ × ν)) :
    part i (ws.map (j, ·)) = if j = i then ws else [] := by
  by_cases own : j = i <;> simp [part, List.filter_map, Function.comp_def, own]

omit [DecidableEq κ] in
theorem part_single (i j : ι) (w : κ × ν) : part i [(j, w)] = if j = i then [w] else [] :=
  part_tagged i j [w]

/-- The last write of the log is the last write of some writer. -/
theorem exists_part_last {key : κ} {v : ν} {log : List (ι × κ × ν)}
    (reached : last key (log.map (·.2)) = some v) : ∃ i, last key (part i log) = some v := by
  induction log using List.reverseRecOn with
  | nil => cases reached
  | append_singleton log entry ih =>
    obtain ⟨j, w⟩ := entry
    rw [List.map_append, last_append] at reached
    cases newest : last key [w] with
    | some u =>
      refine ⟨j, ?_⟩
      rw [part_append, part_single, if_pos rfl, last_append, newest]
      simpa only [List.map_cons, List.map_nil, newest, Option.some_or] using reached
    | none =>
      -- the newest write goes to another key, so it hides nothing
      simp only [List.map_cons, List.map_nil, newest, Option.none_or] at reached
      obtain ⟨i, before⟩ := ih reached
      refine ⟨i, ?_⟩
      rw [part_append, part_single, last_append, before]
      split
      next => rw [newest, Option.none_or]
      next => rfl

/-- A writer that reaches `key` makes the log reach it. -/
theorem last_of_part {key : κ} {i : ι} {v : ν} {log : List (ι × κ × ν)}
    (reached : last key (part i log) = some v) : ∃ u, last key (log.map (·.2)) = some u := by
  induction log using List.reverseRecOn with
  | nil => cases reached
  | append_singleton log entry ih =>
    obtain ⟨j, w⟩ := entry
    rw [part_append, part_single, last_append] at reached
    rw [List.map_append]
    apply last_append_some
    cases newest : last key [w] with
    | some u => exact .inr ⟨u, newest⟩
    | none =>
      left
      apply ih
      split at reached
      next => rwa [newest, Option.none_or] at reached
      next => exact reached

end LastWrite
