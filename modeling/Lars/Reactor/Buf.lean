import Lars.Base
import Mathlib.Data.List.TakeDrop
import Mathlib.Tactic.Push

/-!
# Buffers and the buffer pool

An `io_buf` is a block of memory with a window `[head, head + length)` of bytes
that are still to be handled. Buffers come from the shared `buf_pool` in seven
sizes and go back to it; a buffer that comes back keeps its old bytes, only the
window is closed.
-/
namespace Lars.Reactor

/-! ### `io_buf` -/

structure IoBuf where
  addr : Nat
  capacity : Nat
  length : Nat
  head : Nat
  data : List UInt8

namespace IoBuf

/-- The constructor; the bytes of a new block are whatever they are. -/
def new (addr size : Nat) (raw : List UInt8) : IoBuf :=
  ⟨addr, size, 0, 0, raw⟩

def pop (len : Nat) (b : IoBuf) : IoBuf :=
  { b with length := b.length - len, head := b.head + len }

/-- The window moves to the start of the block. -/
def adjust (b : IoBuf) : IoBuf :=
  if b.head ≠ 0 then
    if b.length ≠ 0 then
      { b with head := 0, data := (b.data.drop b.head).take b.length ++ b.data.drop b.length }
    else { b with head := 0 }
  else b

/-- `copy`: take over the window of another buffer. -/
def copy (b other : IoBuf) : IoBuf :=
  { b with
    data := (other.data.drop other.head).take other.length ++ b.data.drop other.length
    head := 0, length := other.length }

/-- The `memcpy` or `read` to `data + length` and the `length +=` that follows it. -/
def extend (bytes : List UInt8) (b : IoBuf) : IoBuf :=
  { b with
    data := b.data.take b.length ++ bytes ++ b.data.drop (b.length + bytes.length)
    length := b.length + bytes.length }

/-- The bytes still to be handled. -/
def pending (b : IoBuf) : List UInt8 := (b.data.drop b.head).take b.length

end IoBuf

/-! ### `buf_pool` -/

def m4K : Nat := 4096
def m16K : Nat := 16384
def m64K : Nat := 65536
def m256K : Nat := 262144
def m1M : Nat := 1048576
def m4M : Nat := 4194304
def m8M : Nat := 8388608

/-- The sizes for which the constructor of the pool makes a list. -/
def sizes : List Nat := [m4K, m16K, m64K, m256K, m1M, m4M, m8M]

/-- The limit of the pool in kilobytes. -/
def memLimit : Nat := 5 * 1024 * 1024

def intMax : Nat := 2147483647

/-- Window and block of a buffer fit together, and its size is one of the pool's. -/
structure IoBuf.Ok (b : IoBuf) : Prop where
  size : b.capacity ∈ sizes
  block : b.data.length = b.capacity
  window : b.head + b.length ≤ b.capacity

/-- `_pool` with its linked lists as lists, `_total_mem`, and the number of buffers created. -/
structure BufPool where
  pool : Nat → List IoBuf
  totalMem : Nat
  created : Nat

namespace BufPool

/-- The list that a request for `N` bytes is served from. -/
def sizeClass (N : Nat) : Option Nat :=
  if N ≤ m4K then some m4K
  else if N ≤ m16K then some m16K
  else if N ≤ m64K then some m64K
  else if N ≤ m256K then some m256K
  else if N ≤ m1M then some m1M
  else if N ≤ m4M then some m4M
  else if N ≤ m8M then some m8M
  else none

/-- `alloc_buf`: `none` is the null pointer. The block of a new buffer is not initialised; it
is taken to be zero here, which no reader of a window can tell. -/
def allocBuf (N : Nat) (p : BufPool) : Except Fault (Option (IoBuf × BufPool)) :=
  match sizeClass N with
  | none => .ok none
  | some index =>
    match p.pool index with
    | [] =>
      -- more than 5 GB in all: the process gives up
      if p.totalMem + index / 1024 ≥ memLimit then .error .exit
      else
        .ok (some (IoBuf.new p.created index (List.replicate index 0),
          { p with totalMem := p.totalMem + index / 1024, created := p.created + 1 }))
    | target :: rest => .ok (some (target, { p with pool := Function.update p.pool index rest }))

def revert (b : IoBuf) (p : BufPool) : Except Fault BufPool :=
  if b.capacity ∈ sizes then
    let closed := { b with length := 0, head := 0 }
    .ok { p with pool := Function.update p.pool b.capacity (closed :: p.pool b.capacity) }
  else .error .assertion

/-- `make_io_buf_list` -/
def makeIoBufList (cap num : Nat) (p : BufPool) : BufPool where
  pool := Function.update p.pool cap
    ((List.range num).map fun i => IoBuf.new (p.created + i) cap (List.replicate cap 0))
  totalMem := p.totalMem + cap / 1024 * num
  created := p.created + num

/-- The constructor of the pool. -/
def init : BufPool :=
  makeIoBufList m8M 10 <| makeIoBufList m4M 20 <| makeIoBufList m1M 50 <|
    makeIoBufList m256K 200 <| makeIoBufList m64K 500 <| makeIoBufList m16K 1000 <|
      makeIoBufList m4K 5000 ⟨fun _ => [], 0, 0⟩

/-- Every free buffer is empty and sits in the list of its size. -/
def Ok (p : BufPool) : Prop :=
  ∀ c, ∀ b ∈ p.pool c, b.capacity = c ∧ b.data.length = c ∧ b.length = 0 ∧ b.head = 0

/-- A request of any size finds a free buffer or may still create one. -/
def Available (p : BufPool) : Prop :=
  ∀ c ∈ sizes, p.pool c ≠ [] ∨ p.totalMem + c / 1024 < memLimit

/-- The pool may still create `k` buffers of the largest size. -/
def Spare (k : Nat) (p : BufPool) : Prop := p.totalMem + k * (m8M / 1024) < memLimit

end BufPool

/-! ### `reactor_buf` -/

/-- `_buf` of a `reactor_buf`; `none` is the null pointer. -/
abbrev ReactorBuf := Option IoBuf

namespace ReactorBuf

def length (buf : ReactorBuf) : Nat :=
  match buf with
  | none => 0
  | some b => b.length

def clear (buf : ReactorBuf) (p : BufPool) : Except Fault (ReactorBuf × BufPool) :=
  match buf with
  | none => .ok (none, p)
  | some b =>
    match p.revert b with
    | .ok p => .ok (none, p)
    | .error e => .error e

def pop (len : Nat) (buf : ReactorBuf) (p : BufPool) : Except Fault (ReactorBuf × BufPool) :=
  match buf with
  | none => .error .assertion
  | some b =>
    if len ≤ b.length then
      if (b.pop len).length = 0 then clear (some (b.pop len)) p else .ok (some (b.pop len), p)
    else .error .assertion

/-- The first part of `read_data` and of `send_data`: a buffer with room for `n` more bytes.
`none` is the failure to get one; `_buf` is unchanged then. -/
def makeRoom (n : Nat) (buf : ReactorBuf) (p : BufPool) : Except Fault (Option (IoBuf × BufPool)) :=
  match buf with
  | none => p.allocBuf n
  | some b =>
    if b.head ≠ 0 then .error .assertion
    else if b.capacity - b.length < n then
      -- the sum is an `int` in the source
      if n + b.length > intMax then .error .intOverflow
      else
        match p.allocBuf (n + b.length) with
        | .error e => .error e
        | .ok none => .ok none
        | .ok (some (newBuf, p)) =>
          match p.revert b with
          | .ok p => .ok (some (newBuf.copy b, p))
          | .error e => .error e
    else .ok (some (b, p))

end ReactorBuf

/-- No buffer is larger than 8 MB. -/
theorem le_of_mem_sizes {c : Nat} (member : c ∈ sizes) : c ≤ m8M := by
  revert c
  decide

/-! ### Windows -/

namespace IoBuf

variable {b : IoBuf}

theorem pending_length (ok : b.Ok) : b.pending.length = b.length := by
  have := ok.block
  have := ok.window
  simp [pending]
  omega

theorem pending_pop (len : Nat) : (b.pop len).pending = b.pending.drop len := by
  simp [pending, pop, List.drop_take, List.drop_drop]

theorem Ok.pop (ok : b.Ok) {len : Nat} (fits : len ≤ b.length) : (b.pop len).Ok where
  size := ok.size
  block := ok.block
  window := by
    have := ok.window
    simp only [IoBuf.pop]
    omega

@[simp] theorem adjust_head : b.adjust.head = 0 := by
  unfold adjust
  split
  · split <;> rfl
  next zero => simpa using zero

theorem pending_adjust (ok : b.Ok) : b.adjust.pending = b.pending := by
  have := ok.block
  have := ok.window
  unfold adjust
  split
  · split
    · simp only [pending, List.drop_zero]
      rw [List.take_left' (by simp; omega)]
    next empty =>
      have none : b.length = 0 := by simpa using empty
      simp [pending, none]
  · rfl

theorem Ok.adjust (ok : b.Ok) : b.adjust.Ok := by
  have := ok.block
  have := ok.window
  unfold IoBuf.adjust
  split
  · split
    · exact ⟨ok.size, by simp; omega, by simp; omega⟩
    · exact ⟨ok.size, ok.block, by simp; omega⟩
  · exact ok

theorem pending_copy {other : IoBuf} (ok : other.Ok) : (b.copy other).pending = other.pending := by
  have := ok.block
  have := ok.window
  simp only [pending, copy, List.drop_zero]
  rw [List.take_left' (by simp; omega)]

theorem Ok.copy {other : IoBuf} (ok : b.Ok) (ok' : other.Ok) (fits : other.length ≤ b.capacity) :
    (b.copy other).Ok where
  size := ok.size
  block := by
    have := ok.block
    have := ok'.block
    have := ok'.window
    simp [IoBuf.copy]
    omega
  window := by simpa [IoBuf.copy] using fits

theorem pending_extend (ok : b.Ok) (start : b.head = 0) {bytes : List UInt8}
    (fits : b.length + bytes.length ≤ b.capacity) :
    (b.extend bytes).pending = b.pending ++ bytes := by
  have := ok.block
  simp only [pending, extend, start, List.drop_zero, List.append_assoc]
  rw [← List.append_assoc, List.take_left' (by simp; omega)]

theorem Ok.extend (ok : b.Ok) (start : b.head = 0) {bytes : List UInt8}
    (fits : b.length + bytes.length ≤ b.capacity) : (b.extend bytes).Ok where
  size := ok.size
  block := by
    have := ok.block
    simp [IoBuf.extend]
    omega
  window := by simpa [IoBuf.extend, start] using fits

theorem Ok.capacity_le (ok : b.Ok) : b.capacity ≤ m8M := le_of_mem_sizes ok.size

end IoBuf

namespace BufPool

variable {p : BufPool}

private theorem find_le_cons (N c : Nat) (cs : List Nat) :
    (c :: cs).find? (N ≤ ·) = if N ≤ c then some c else cs.find? (N ≤ ·) := by
  by_cases small : N ≤ c
  · rw [if_pos small, List.find?_cons_of_pos]
    exact decide_eq_true small
  · rw [if_neg small, List.find?_cons_of_neg]
    simpa using small

/-- The cascade of comparisons looks for the first size that is large enough. -/
theorem sizeClass_eq_find (N : Nat) : sizeClass N = sizes.find? (N ≤ ·) := by
  simp only [sizes, find_le_cons, List.find?_nil]
  rfl

/-- The class chosen for `N` holds `N` bytes; there is none beyond 8 MB. -/
theorem sizeClass_cases (N : Nat) :
    (∃ c ∈ sizes, sizeClass N = some c ∧ N ≤ c ∧ N ≤ m8M) ∨ (sizeClass N = none ∧ m8M < N) := by
  rw [sizeClass_eq_find]
  cases found : sizes.find? (N ≤ ·) with
  | none =>
    have above := List.find?_eq_none.mp found m8M (by decide)
    exact .inr ⟨rfl, by simpa using above⟩
  | some c =>
    have member := List.mem_of_find?_eq_some found
    have fits : N ≤ c := by simpa using List.find?_some found
    exact .inl ⟨c, member, rfl, fits, fits.trans (le_of_mem_sizes member)⟩

/-- It is the smallest that does, as the sizes grow along the list. -/
theorem sizeClass_least {N c : Nat} (chosen : sizeClass N = some c) :
    N ≤ c ∧ c ∈ sizes ∧ ∀ c' ∈ sizes, N ≤ c' → c ≤ c' := by
  rw [sizeClass_eq_find] at chosen
  refine ⟨by simpa using List.find?_some chosen, List.mem_of_find?_eq_some chosen, ?_⟩
  obtain ⟨-, before, behind, order, refused⟩ := List.find?_eq_some_iff_append.mp chosen
  have sorted : sizes.Pairwise (· ≤ ·) := by decide
  rw [order] at sorted ⊢
  intro c' member enough
  rcases List.mem_append.mp member with earlier | later
  · have small := refused c' earlier
    simp [enough] at small
  · rcases List.mem_cons.mp later with rfl | later
    · exact Nat.le_refl c'
    · exact (List.pairwise_cons.mp (List.pairwise_append.mp sorted).2.1).1 c' later

theorem allocBuf_none (large : m8M < N) : p.allocBuf N = .ok none := by
  rcases sizeClass_cases N with ⟨c, -, -, -, small⟩ | ⟨none, -⟩
  · omega
  · simp only [allocBuf, none]

/-- Taking a buffer off a list, or changing the counters, leaves a pool in order. -/
private theorem Ok.shrink (ok : p.Ok) {p' : BufPool} (fewer : ∀ c, p'.pool c ⊆ p.pool c) : p'.Ok :=
  fun c b member => ok c b (fewer c member)

/-- A buffer that `alloc_buf` hands out is empty and large enough. -/
theorem allocBuf_some (ok : p.Ok) {N : Nat} {b : IoBuf} {p' : BufPool}
    (done : p.allocBuf N = .ok (some (b, p'))) :
    b.Ok ∧ b.length = 0 ∧ b.head = 0 ∧ N ≤ b.capacity ∧ p'.Ok := by
  rcases sizeClass_cases N with ⟨c, member, chosen, enough, -⟩ | ⟨none, -⟩
  · simp only [allocBuf, chosen] at done
    split at done
    · split at done
      · cases done
      · cases done
        exact ⟨⟨member, by simp [IoBuf.new], by simp [IoBuf.new]⟩, rfl, rfl, enough,
          ok.shrink fun c => List.Subset.refl _⟩
    next target rest order =>
      cases done
      -- a buffer that came back was closed by `revert`
      obtain ⟨cap, block, len, head⟩ := ok c b (by simp [order])
      refine ⟨⟨cap ▸ member, block.trans cap.symm, by omega⟩, len, head, by omega, ok.shrink ?_⟩
      intro c'
      by_cases same : c' = c
      · subst same
        simp [order]
      · simp [same]
  · simp [allocBuf, none] at done

/-- Up to 8 MB a request is served unless the pool has reached its limit. -/
theorem allocBuf_cases {N : Nat} (small : N ≤ m8M) :
    p.allocBuf N = .error .exit ∨ ∃ b p', p.allocBuf N = .ok (some (b, p')) := by
  rcases sizeClass_cases N with ⟨c, -, chosen, -⟩ | ⟨-, large⟩
  · simp only [allocBuf, chosen]
    cases p.pool c with
    | nil =>
      dsimp only
      split
      · exact .inl rfl
      · exact .inr ⟨_, _, rfl⟩
    | cons target rest => exact .inr ⟨_, _, rfl⟩
  · omega

theorem Available.allocBuf (available : p.Available) {N : Nat} : p.allocBuf N ≠ .error .exit := by
  rcases sizeClass_cases N with ⟨c, member, chosen, -⟩ | ⟨none, -⟩
  · simp only [BufPool.allocBuf, chosen]
    cases order : p.pool c with
    | nil =>
      have room := (available c member).resolve_left (by simp [order])
      simp only [ge_iff_le, Nat.not_le.mpr room, ↓reduceIte]
      exact fun served => by cases served
    | cons target rest => exact fun served => by cases served
  · simp only [BufPool.allocBuf, none]
    exact fun served => by cases served

theorem revert_ok {b : IoBuf} (good : b.Ok) : ∃ p', p.revert b = .ok p' ∧ (p.Ok → p'.Ok) := by
  simp only [revert, good.size, ↓reduceIte]
  refine ⟨_, rfl, fun ok c b' member => ?_⟩
  dsimp only at member
  by_cases same : c = b.capacity
  · subst same
    rw [Function.update_self, List.mem_cons] at member
    rcases member with rfl | old
    · exact ⟨rfl, good.block, rfl, rfl⟩
    · exact ok _ b' old
  · rw [Function.update_of_ne same] at member
    exact ok c b' member

/-- The constructor leaves the pool in order. -/
theorem init_ok : init.Ok := by
  have step : ∀ cap num (p : BufPool), p.Ok → (makeIoBufList cap num p).Ok := by
    intro cap num p ok c b member
    simp only [makeIoBufList] at member
    by_cases same : c = cap
    · subst same
      rw [Function.update_self] at member
      obtain ⟨i, -, rfl⟩ := List.mem_map.mp member
      simp [IoBuf.new]
    · rw [Function.update_of_ne same] at member
      exact ok c b member
  have empty : Ok ⟨fun _ => [], 0, 0⟩ := by simp [Ok]
  exact step _ _ _ <| step _ _ _ <| step _ _ _ <| step _ _ _ <| step _ _ _ <| step _ _ _ <|
    step _ _ _ empty

theorem init_spare : init.Spare 500 := by
  unfold Spare
  decide

theorem Spare.mono {k l : Nat} (spare : p.Spare k) (fewer : l ≤ k) : p.Spare l :=
  Nat.lt_of_le_of_lt (Nat.add_le_add_left (Nat.mul_le_mul_right _ fewer) _) spare

theorem Spare.available {k : Nat} (spare : p.Spare (k + 1)) : p.Available := by
  intro c member
  have := Nat.div_le_div_right (c := 1024) (le_of_mem_sizes member)
  simp only [Spare, Nat.succ_mul] at spare
  exact .inr (by omega)

theorem Spare.allocBuf {k N : Nat} (spare : p.Spare (k + 1)) {b : IoBuf} {p' : BufPool}
    (done : p.allocBuf N = .ok (some (b, p'))) : p'.Spare k := by
  rcases sizeClass_cases N with ⟨c, member, chosen, -⟩ | ⟨none, -⟩
  · have := Nat.div_le_div_right (c := 1024) (le_of_mem_sizes member)
    simp only [Spare, Nat.succ_mul] at spare ⊢
    simp only [BufPool.allocBuf, chosen] at done
    split at done
    · split at done
      · cases done
      · cases done
        dsimp only
        omega
    · cases done
      dsimp only
      omega
  · simp only [BufPool.allocBuf, none] at done
    cases done

theorem Spare.revert {k : Nat} (spare : p.Spare k) {b : IoBuf} {p' : BufPool}
    (done : p.revert b = .ok p') : p'.Spare k := by
  simp only [BufPool.revert] at done
  split at done
  · cases done
    exact spare
  · cases done

end BufPool

namespace ReactorBuf

variable {p : BufPool}

/-- The buffer object holds the bytes `bytes`, from the start of its block if it has one. -/
def Holds (buf : ReactorBuf) (bytes : List UInt8) : Prop :=
  match buf with
  | none => bytes = []
  | some b => b.Ok ∧ b.head = 0 ∧ b.pending = bytes

theorem Holds.unique {buf : ReactorBuf} {bytes bytes' : List UInt8} (holds : Holds buf bytes)
    (holds' : Holds buf bytes') : bytes = bytes' := by
  cases buf with
  | none => exact Eq.trans holds (Eq.symm holds')
  | some b => exact holds.2.2.symm.trans holds'.2.2

theorem Holds.extend {b : IoBuf} {bytes more : List UInt8} (holds : Holds (some b) bytes)
    (space : b.length + more.length ≤ b.capacity) : Holds (some (b.extend more)) (bytes ++ more) := by
  obtain ⟨good, start, pending⟩ := holds
  exact ⟨good.extend start space, start, by rw [IoBuf.pending_extend good start space, pending]⟩

/-! The outcomes of `makeRoom` on a buffer whose window is at the front. -/

section MakeRoom

variable {b : IoBuf} {n : Nat}

theorem makeRoom_roomy (start : b.head = 0) (room : ¬ b.capacity - b.length < n) :
    makeRoom n (some b) p = .ok (some (b, p)) := by
  simp only [makeRoom, if_neg (not_not.mpr start), if_neg room]

theorem makeRoom_wraps (start : b.head = 0) (tight : b.capacity - b.length < n)
    (wraps : n + b.length > intMax) : makeRoom n (some b) p = .error .intOverflow := by
  simp only [makeRoom, if_neg (not_not.mpr start), if_pos tight, if_pos wraps]

/-- A larger buffer takes over the window, and the old one goes back. -/
theorem makeRoom_grows (start : b.head = 0) (tight : b.capacity - b.length < n)
    (fits : ¬ n + b.length > intMax) :
    makeRoom n (some b) p =
      match p.allocBuf (n + b.length) with
      | .error e => .error e
      | .ok none => .ok none
      | .ok (some (newBuf, p)) =>
        match p.revert b with
        | .ok p => .ok (some (newBuf.copy b, p))
        | .error e => .error e := by
  simp only [makeRoom, if_neg (not_not.mpr start), if_pos tight, if_neg fits]

end MakeRoom

/-- With room up to 8 MB a buffer is found that holds the same bytes and can take the new ones,
unless the pool has reached its limit. -/
theorem makeRoom_cases (ok : p.Ok) {buf : ReactorBuf} {bytes : List UInt8}
    (holds : Holds buf bytes) {n : Nat} (fits : bytes.length + n ≤ m8M) :
    makeRoom n buf p = .error .exit ∨
      ∃ b p', makeRoom n buf p = .ok (some (b, p')) ∧ Holds (some b) bytes ∧
        b.length + n ≤ b.capacity ∧ p'.Ok := by
  cases buf with
  | none =>
    cases holds
    refine (BufPool.allocBuf_cases (p := p) (N := n) (by simpa using fits)).imp_right ?_
    rintro ⟨b, p', done⟩
    obtain ⟨good, empty, start, enough, ok'⟩ := BufPool.allocBuf_some ok done
    exact ⟨b, p', done, ⟨good, start, by simp [IoBuf.pending, empty]⟩, by omega, ok'⟩
  | some b =>
    obtain ⟨good, start, rfl⟩ := holds
    have size := IoBuf.pending_length good
    have window := good.window
    by_cases tight : b.capacity - b.length < n
    · have small : ¬ n + b.length > intMax := by
        simp only [m8M] at fits
        simp only [intMax]
        omega
      rcases BufPool.allocBuf_cases (p := p) (N := n + b.length) (by omega) with
        refused | ⟨b', p', done⟩
      · left
        rw [makeRoom_grows start tight small, refused]
      · obtain ⟨good', -, -, enough, ok'⟩ := BufPool.allocBuf_some ok done
        obtain ⟨p'', back, ok''⟩ := BufPool.revert_ok (p := p') good
        refine .inr ⟨b'.copy b, p'', ?_,
          ⟨good'.copy good (by omega), rfl, IoBuf.pending_copy good⟩, ?_, ok'' ok'⟩
        · simp only [makeRoom_grows start tight small, done, back]
        · simp only [IoBuf.copy]
          omega
    · exact .inr ⟨b, p, makeRoom_roomy start tight, ⟨good, start, rfl⟩, by omega, ok⟩

theorem makeRoom_available (available : p.Available) {buf : ReactorBuf} {n : Nat} :
    makeRoom n buf p ≠ .error .exit := by
  cases buf with
  | none => exact available.allocBuf
  | some b =>
    intro refused
    simp only [makeRoom] at refused
    split at refused
    · cases refused
    split at refused
    · split at refused
      · cases refused
      · split at refused
        next f served =>
          cases refused
          exact available.allocBuf served
        next => cases refused
        next newBuf p' served =>
          simp only [BufPool.revert] at refused
          split_ifs at refused
          cases refused
    · cases refused

theorem makeRoom_spare {k n : Nat} (spare : p.Spare (k + 1)) {buf : ReactorBuf} {b : IoBuf}
    {p' : BufPool} (done : makeRoom n buf p = .ok (some (b, p'))) : p'.Spare k := by
  cases buf with
  | none => exact spare.allocBuf done
  | some old =>
    simp only [makeRoom] at done
    split at done
    · cases done
    split at done
    · split at done
      · cases done
      · split at done
        next => cases done
        next => cases done
        next newBuf p₁ served =>
          cases back : BufPool.revert old p₁ with
          | error f =>
            simp only [back] at done
            cases done
          | ok p₂ =>
            simp only [back] at done
            cases done
            exact (spare.allocBuf served).revert back
    -- a buffer that is large enough already costs nothing
    · cases done
      exact spare.mono (Nat.le_succ k)

/-- Beyond 8 MB no buffer is found, or the sum of the lengths is not an `int` any more. -/
theorem makeRoom_large {buf : ReactorBuf} {bytes : List UInt8} (holds : Holds buf bytes) {n : Nat}
    (large : m8M < bytes.length + n) :
    makeRoom n buf p = .ok none ∨
      (makeRoom n buf p = .error .intOverflow ∧ intMax < bytes.length + n) := by
  cases buf with
  | none =>
    cases holds
    exact .inl (BufPool.allocBuf_none (by simpa using large))
  | some b =>
    obtain ⟨good, start, rfl⟩ := holds
    have size := IoBuf.pending_length good
    have bound := good.capacity_le
    have window := good.window
    -- no buffer is larger than 8 MB, so the present one is too small as well
    have none := BufPool.allocBuf_none (p := p) (N := n + b.length) (by omega)
    have tight : b.capacity - b.length < n := by omega
    by_cases wraps : n + b.length > intMax
    · exact .inr ⟨makeRoom_wraps start tight wraps, by omega⟩
    · left
      rw [makeRoom_grows start tight wraps, none]

theorem makeRoom_none {buf : ReactorBuf} {bytes : List UInt8} (holds : Holds buf bytes) {n : Nat}
    (large : m8M < bytes.length + n) (small : bytes.length + n ≤ intMax) :
    makeRoom n buf p = .ok none :=
  (makeRoom_large holds large).resolve_right fun wraps => by omega

end ReactorBuf

end Lars.Reactor
