import Mathlib.Data.List.Basic
import Mathlib.Data.List.TakeDrop
import Mathlib.Data.List.Infix

/-!
# Framed streams

A stream of frames, each a head of fixed length that announces a label and the
length of the body that follows. `split` takes the complete frames off the front
of a stretch of the stream. What it leaves is either the beginning of a frame or
a head that the codec rejects. The laws say that cutting the stream and splitting
the pieces one after the other gives the frames of the whole.
-/
namespace Framing

variable {ι β : Type*}

/-- Heads of a fixed positive length. `decode` rejects a head by `none`. -/
structure Codec (ι β : Type*) where
  headLen : Nat
  headLen_pos : 0 < headLen
  encode : ι → Nat → List β
  encode_length : ∀ label n, (encode label n).length = headLen
  decode : List β → Option (ι × Nat)

/-- What is left when no complete frame is. -/
inductive Tail (β : Type*) where
  | pending (rest : List β)
  | malformed (rest : List β)

namespace Codec

variable (c : Codec ι β)

/-- The bytes of one message. -/
def frame (m : ι × List β) : List β := c.encode m.1 m.2.length ++ m.2

/-- The head of the message is accepted and read as it was written. -/
def Admits (m : ι × List β) : Prop :=
  c.decode (c.encode m.1 m.2.length) = some (m.1, m.2.length)

/-- The complete frames at the front, and what follows them. -/
def split (bytes : List β) : List (ι × List β) × Tail β :=
  if bytes.length < c.headLen then ([], .pending bytes)
  else
    match c.decode (bytes.take c.headLen) with
    | none => ([], .malformed bytes)
    | some (label, n) =>
      if bytes.length < c.headLen + n then ([], .pending bytes)
      else
        let rest := split (bytes.drop (c.headLen + n))
        ((label, (bytes.drop c.headLen).take n) :: rest.1, rest.2)
  termination_by bytes.length
  decreasing_by
    have := c.headLen_pos
    simp only [List.length_drop]
    omega

/-- The messages of a stream whose last byte is among its first `n` bytes. -/
def arrived : List (ι × List β) → Nat → List (ι × List β)
  | [], _ => []
  | m :: ms, n =>
    if (c.frame m).length ≤ n then m :: arrived ms (n - (c.frame m).length) else []

variable {c}

theorem frame_length (m : ι × List β) : (c.frame m).length = c.headLen + m.2.length := by
  simp [frame, c.encode_length]

theorem arrived_prefix (ms : List (ι × List β)) (n : Nat) : c.arrived ms n <+: ms := by
  induction ms generalizing n with
  | nil => exact List.prefix_refl _
  | cons m ms ih =>
    unfold arrived
    split
    · exact List.cons_prefix_cons.mpr ⟨rfl, ih _⟩
    · exact List.nil_prefix

/-! ### The four shapes of a stretch -/

theorem split_short {bytes : List β} (short : bytes.length < c.headLen) :
    c.split bytes = ([], .pending bytes) := by
  rw [split, if_pos short]

theorem split_malformed {bytes : List β} (long : c.headLen ≤ bytes.length)
    (rejected : c.decode (bytes.take c.headLen) = none) :
    c.split bytes = ([], .malformed bytes) := by
  rw [split, if_neg (by omega)]
  simp only [rejected]

theorem split_cut {bytes : List β} {label : ι} {n : Nat} (long : c.headLen ≤ bytes.length)
    (head : c.decode (bytes.take c.headLen) = some (label, n))
    (cut : bytes.length < c.headLen + n) : c.split bytes = ([], .pending bytes) := by
  rw [split, if_neg (by omega)]
  simp only [head, if_pos cut]

theorem split_frame {bytes : List β} {label : ι} {n : Nat}
    (head : c.decode (bytes.take c.headLen) = some (label, n))
    (whole : c.headLen + n ≤ bytes.length) :
    c.split bytes =
      ((label, (bytes.drop c.headLen).take n) :: (c.split (bytes.drop (c.headLen + n))).1,
        (c.split (bytes.drop (c.headLen + n))).2) := by
  rw [split, if_neg (by omega)]
  simp only [head, if_neg (by omega : ¬ bytes.length < c.headLen + n)]

@[simp] theorem split_nil : c.split [] = ([], .pending []) := split_short c.headLen_pos

/-! ### Cutting the stream -/

/-- What is pending holds no complete frame. -/
theorem split_pending {bytes rest : List β} (left : (c.split bytes).2 = .pending rest) :
    c.split rest = ([], .pending rest) := by
  induction bytes using split.induct (c := c) with
  | case1 bytes short =>
    rw [split_short short] at left
    cases left
    exact split_short short
  | case2 bytes long rejected =>
    rw [split_malformed (by omega) rejected] at left
    cases left
  | case3 bytes long label n head cut =>
    rw [split_cut (by omega) head cut] at left
    cases left
    exact split_cut (by omega) head cut
  | case4 bytes long label n head whole ih =>
    rw [split_frame head (by omega)] at left
    exact ih left

/-- A complete frame comes off first, whatever follows the stretch. -/
private theorem split_frame_more {bytes : List β} {label : ι} {n : Nat} (more : List β)
    (head : c.decode (bytes.take c.headLen) = some (label, n))
    (whole : c.headLen + n ≤ bytes.length) :
    c.split (bytes ++ more) =
      ((label, (bytes.drop c.headLen).take n) ::
        (c.split (bytes.drop (c.headLen + n) ++ more)).1,
        (c.split (bytes.drop (c.headLen + n) ++ more)).2) := by
  have head' : c.decode ((bytes ++ more).take c.headLen) = some (label, n) := by
    rw [List.take_append_of_le_length (by omega), head]
  rw [split_frame head' (by simp; omega), List.drop_append_of_le_length (by omega),
    List.drop_append_of_le_length (by omega), List.take_append_of_le_length (by simp; omega)]

theorem split_append_pending {bytes rest : List β} (more : List β)
    (left : (c.split bytes).2 = .pending rest) :
    c.split (bytes ++ more) =
      ((c.split bytes).1 ++ (c.split (rest ++ more)).1, (c.split (rest ++ more)).2) := by
  induction bytes using split.induct (c := c) with
  | case1 bytes short =>
    rw [split_short short] at left ⊢
    cases left
    rfl
  | case2 bytes long rejected =>
    rw [split_malformed (by omega) rejected] at left
    cases left
  | case3 bytes long label n head cut =>
    rw [split_cut (by omega) head cut] at left ⊢
    cases left
    rfl
  | case4 bytes long label n head whole ih =>
    rw [split_frame head (by omega)] at left
    rw [split_frame_more more head (by omega), split_frame head (by omega), ih left]
    rfl

theorem split_append_malformed {bytes rest : List β} (more : List β)
    (left : (c.split bytes).2 = .malformed rest) :
    c.split (bytes ++ more) = ((c.split bytes).1, .malformed (rest ++ more)) := by
  induction bytes using split.induct (c := c) with
  | case1 bytes short =>
    rw [split_short short] at left
    cases left
  | case2 bytes long rejected =>
    rw [split_malformed (by omega) rejected] at left
    cases left
    rw [split_malformed (by omega) rejected, split_malformed (by simp; omega)]
    rwa [List.take_append_of_le_length (by omega)]
  | case3 bytes long label n head cut =>
    rw [split_cut (by omega) head cut] at left
    cases left
  | case4 bytes long label n head whole ih =>
    rw [split_frame head (by omega)] at left
    rw [split_frame_more more head (by omega), split_frame head (by omega), ih left]

/-- Where no frame comes off, everything is left. -/
theorem pending_of_no_frames {bytes rest : List β} (none : (c.split bytes).1 = [])
    (left : (c.split bytes).2 = .pending rest) : rest = bytes := by
  induction bytes using split.induct (c := c) with
  | case1 bytes short =>
    rw [split_short short] at left
    cases left
    rfl
  | case2 bytes long rejected =>
    rw [split_malformed (by omega) rejected] at left
    cases left
  | case3 bytes long label n head cut =>
    rw [split_cut (by omega) head cut] at left
    cases left
    rfl
  | case4 bytes long label n head whole ih =>
    rw [split_frame head (by omega)] at none
    cases none

/-- The stretch ends exactly at the end of a frame that has no body. -/
def EndsBare (c : Codec ι β) (bytes : List β) : Prop :=
  (c.split bytes).2 = .pending [] ∧ ∃ m ∈ (c.split bytes).1.getLast?, m.2 = []

/-- A frame at the very end of the stretch decides; any other frame leaves it to the rest. -/
theorem endsBare_frame {bytes : List β} {label : ι} {n : Nat}
    (head : c.decode (bytes.take c.headLen) = some (label, n))
    (whole : c.headLen + n ≤ bytes.length) :
    c.EndsBare bytes ↔
      if bytes.length = c.headLen + n then n = 0 else c.EndsBare (bytes.drop (c.headLen + n)) := by
  rw [EndsBare, split_frame head whole]
  by_cases last : bytes.length = c.headLen + n
  · have rest : bytes.drop (c.headLen + n) = [] := List.drop_eq_nil_of_le (by omega)
    rw [if_pos last, rest, split_nil]
    have size : ((bytes.drop c.headLen).take n).length = n := by
      rw [List.length_take, List.length_drop]
      omega
    simp [← List.length_eq_zero_iff, size]
  · rw [if_neg last, EndsBare]
    refine and_congr_right fun left => ?_
    -- something follows the frame and nothing is left over, so there is a later frame
    have more : (c.split (bytes.drop (c.headLen + n))).1 ≠ [] := by
      intro none
      have rest := congrArg List.length (pending_of_no_frames none left)
      rw [List.length_nil, List.length_drop] at rest
      omega
    rw [List.getLast?_cons, List.getLast?_eq_some_getLast more]
    simp

/-- Only the bytes since the last complete frame matter for how the stretch ends. -/
theorem endsBare_append {bytes rest more : List β} (left : (c.split bytes).2 = .pending rest)
    (nonempty : more ≠ []) : c.EndsBare (bytes ++ more) ↔ c.EndsBare (rest ++ more) := by
  rw [EndsBare, split_append_pending more left, EndsBare]
  refine and_congr_right fun done => ?_
  have frames : (c.split (rest ++ more)).1 ≠ [] := by
    intro none
    have whole := pending_of_no_frames none done
    simp [nonempty] at whole
  rw [List.getLast?_append_of_ne_nil _ frames]

theorem not_endsBare_of_bodies {bytes : List β} (bodies : ∀ m ∈ (c.split bytes).1, m.2 ≠ []) :
    ¬ c.EndsBare bytes := by
  rintro ⟨-, m, last, bare⟩
  exact bodies m (List.mem_of_getLast? last) bare

/-! ### Streams that were written by the codec -/

theorem split_frame_append {m : ι × List β} (admits : c.Admits m) (more : List β) :
    c.split (c.frame m ++ more) = (m :: (c.split more).1, (c.split more).2) := by
  have size := c.encode_length m.1 m.2.length
  have head : c.decode ((c.frame m ++ more).take c.headLen) = some (m.1, m.2.length) := by
    rw [frame, List.append_assoc, List.take_left' size]
    exact admits
  have skip : (c.frame m ++ more).drop (c.headLen + m.2.length) = more := by
    rw [List.drop_left' (frame_length m)]
  have body : ((c.frame m ++ more).drop c.headLen).take m.2.length = m.2 := by
    rw [frame, List.append_assoc, List.drop_left' size, List.take_left' rfl]
  rw [split_frame head (by simp [frame_length]), skip, body]

/-- The beginning of a frame is pending. -/
theorem split_partial_frame {m : ι × List β} (admits : c.Admits m) {bytes : List β}
    (start : bytes <+: c.frame m) (cut : bytes.length < (c.frame m).length) :
    c.split bytes = ([], .pending bytes) := by
  rw [frame_length] at cut
  by_cases short : bytes.length < c.headLen
  · exact split_short short
  · have size := c.encode_length m.1 m.2.length
    have head : bytes.take c.headLen = c.encode m.1 m.2.length := by
      obtain ⟨rest, whole⟩ := start
      have front := congrArg (List.take c.headLen) whole
      rwa [List.take_append_of_le_length (by omega), frame, List.take_left' size] at front
    exact split_cut (by omega) (by rw [head]; exact admits) cut

/-- Of any stretch of a stream of accepted messages `split` takes off exactly the messages whose
last byte is in it. -/
theorem split_stretch {ms : List (ι × List β)} (admits : ∀ m ∈ ms, c.Admits m) {bytes : List β}
    (start : bytes <+: ms.flatMap c.frame) :
    ∃ rest, (c.arrived ms bytes.length).flatMap c.frame ++ rest = bytes ∧
      c.split bytes = (c.arrived ms bytes.length, .pending rest) := by
  induction ms generalizing bytes with
  | nil =>
    have none : bytes = [] := by simpa using start
    subst none
    exact ⟨[], rfl, split_nil⟩
  | cons m ms ih =>
    rw [List.flatMap_cons] at start
    by_cases whole : (c.frame m).length ≤ bytes.length
    -- the first frame is whole: the induction goes on behind it
    · obtain ⟨more, rfl⟩ := List.prefix_of_prefix_length_le (List.prefix_append _ _) start whole
      have later : more <+: ms.flatMap c.frame := (List.prefix_append_right_inj _).mp start
      obtain ⟨rest, parts, frames⟩ := ih (fun m' h => admits m' (by simp [h])) later
      refine ⟨rest, ?_, ?_⟩
      · simp [arrived, parts]
      · rw [split_frame_append (admits m (by simp)), frames]
        simp [arrived]
    · have first : bytes <+: c.frame m :=
        List.prefix_of_prefix_length_le start (List.prefix_append _ _) (by omega)
      refine ⟨bytes, by simp [arrived, whole], ?_⟩
      rw [split_partial_frame (admits m (by simp)) first (by omega)]
      simp [arrived, whole]

/-- The head of the message is read as it was written, or rejected. -/
def Announces (c : Codec ι β) (m : ι × List β) : Prop :=
  c.Admits m ∨ c.decode (c.encode m.1 m.2.length) = none

/-- A stretch of the stream gives its first messages, up to the first that is rejected. -/
theorem split_prefix {ms : List (ι × List β)} (announces : ∀ m ∈ ms, c.Announces m)
    {bytes : List β} (start : bytes <+: ms.flatMap c.frame) : (c.split bytes).1 <+: ms := by
  induction ms generalizing bytes with
  | nil =>
    have none : bytes = [] := by simpa using start
    subst none
    rw [split_nil]
  | cons m ms ih =>
    rw [List.flatMap_cons] at start
    rcases announces m List.mem_cons_self with admits | rejected
    · by_cases whole : (c.frame m).length ≤ bytes.length
      · obtain ⟨more, rfl⟩ := List.prefix_of_prefix_length_le (List.prefix_append _ _) start whole
        have later : more <+: ms.flatMap c.frame := (List.prefix_append_right_inj _).mp start
        rw [split_frame_append admits]
        exact List.cons_prefix_cons.mpr
          ⟨rfl, ih (fun m' member => announces m' (List.mem_cons_of_mem _ member)) later⟩
      · have first : bytes <+: c.frame m :=
          List.prefix_of_prefix_length_le start (List.prefix_append _ _) (by omega)
        rw [split_partial_frame admits first (by omega)]
        exact List.nil_prefix
    -- nothing comes off a stretch that begins with a rejected head
    · by_cases short : bytes.length < c.headLen
      · rw [split_short short]
        exact List.nil_prefix
      · have size := c.encode_length m.1 m.2.length
        have head : bytes.take c.headLen = c.encode m.1 m.2.length := by
          obtain ⟨rest, whole⟩ := start
          have front := congrArg (List.take c.headLen) whole
          rwa [List.take_append_of_le_length (by omega), frame, List.append_assoc,
            List.take_left' size] at front
        rw [split_malformed (by omega) (by rw [head]; exact rejected)]
        exact List.nil_prefix

theorem arrived_all (ms : List (ι × List β)) :
    c.arrived ms (ms.flatMap c.frame).length = ms := by
  induction ms with
  | nil => rfl
  | cons m ms ih =>
    rw [List.flatMap_cons, List.length_append, arrived, if_pos (Nat.le_add_right _ _),
      Nat.add_sub_cancel_left, ih]

end Codec

end Framing
