import Mathlib.Data.List.Basic

/-!
# Unwinding

A system answers inputs one after the other. Some inputs are *hidden*, and a
relation says which two states differ in nothing but what hidden inputs have
done. If a hidden input stays within the relation, and any other input is
answered alike in related states and leads to related states again, then a log
of answers shows of the hidden inputs nothing but themselves: without them the
other answers are the same.
-/
namespace Unwinding

variable {σ α β ε : Type*}

/-- The inputs with their answers, and the last state. -/
def log (step : σ → α → Except ε (β × σ)) (s : σ) : List α → Except ε (List (α × β) × σ)
  | [] => .ok ([], s)
  | a :: as =>
    match step s a with
    | .error e => .error e
    | .ok (b, t) =>
      match log step t as with
      | .error e => .error e
      | .ok (rest, last) => .ok ((a, b) :: rest, last)

variable {step : σ → α → Except ε (β × σ)}

theorem log_cons_ok {s t u : σ} {a : α} {b : β} {as : List α} {rest : List (α × β)}
    (first : step s a = .ok (b, t)) (later : log step t as = .ok (rest, u)) :
    log step s (a :: as) = .ok ((a, b) :: rest, u) := by
  simp only [log, first, later]

theorem log_cons_inv {s u : σ} {a : α} {as : List α} {whole : List (α × β)}
    (done : log step s (a :: as) = .ok (whole, u)) :
    ∃ b t rest, step s a = .ok (b, t) ∧ log step t as = .ok (rest, u) ∧ whole = (a, b) :: rest := by
  unfold log at done
  split at done
  · cases done
  next b t first =>
    split at done
    · cases done
    next rest last later =>
      cases done
      exact ⟨b, t, rest, first, later, rfl⟩

/-- The unwinding theorem. -/
theorem log_purge (R : σ → σ → Prop) (hidden : α → Bool)
    (respects : ∀ {s t u a b}, hidden a = true → R s u → step s a = .ok (b, t) → R t u)
    (consistent : ∀ {s t u a b}, hidden a = false → R s u → step s a = .ok (b, t) →
      ∃ v, step u a = .ok (b, v) ∧ R t v)
    {s t u : σ} {as : List α} {whole : List (α × β)} (related : R s u)
    (done : log step s as = .ok (whole, t)) :
    ∃ v, log step u (as.filter (!hidden ·)) = .ok (whole.filter (!hidden ·.1), v) ∧ R t v := by
  induction as generalizing s u whole with
  | nil =>
    cases done
    exact ⟨u, rfl, related⟩
  | cons a as ih =>
    obtain ⟨b, mid, rest, first, later, rfl⟩ := log_cons_inv done
    cases secret : hidden a with
    | true =>
      obtain ⟨v, purged, final⟩ := ih (respects secret related first) later
      refine ⟨v, ?_, final⟩
      rwa [List.filter_cons_of_neg (by simp [secret]), List.filter_cons_of_neg (by simp [secret])]
    | false =>
      obtain ⟨u', same, next⟩ := consistent secret related first
      obtain ⟨v, purged, final⟩ := ih next later
      refine ⟨v, ?_, final⟩
      rw [List.filter_cons_of_pos (by simp [secret]), List.filter_cons_of_pos (by simp [secret])]
      exact log_cons_ok same purged

end Unwinding
