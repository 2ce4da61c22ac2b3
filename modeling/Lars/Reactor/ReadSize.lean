import Lars.Reactor.Receive

/-!
# How much is read at a time

`read_data` asks with `FIONREAD` how much there is, makes room for that and
reads it. When nothing is announced it reads up to 4 KB all the same, and has
made no room for them: they fit into a new buffer, but not always behind the
partial frame that an earlier read has left.
-/
namespace Lars.Reactor

/-- The size that `read` is called with. -/
def requested (needRead : Nat) : Nat := if needRead = 0 then m4K else needRead

/-- What the kernel answers during one `do_read`. Bytes may arrive between `ioctl` and `read`, so
the two need not agree. -/
structure KernelRead where
  needRead : Option Nat
  result : Option (List UInt8)
  pool : BufPool
  sound : pool.Ok
  int : ∀ n ∈ needRead, n ≤ intMax
  asked : ∀ n ∈ needRead, ∀ bytes ∈ result, bytes.length ≤ requested n

namespace InputBuf

/-- One `do_read` and the buffer it leaves. A client keeps its buffer when it is closed, so the
next one may belong to its next connection. -/
def step (e : Endpoint) (buf : ReactorBuf) (k : KernelRead) : Except Fault ReactorBuf :=
  (doRead e k.needRead k.result buf k.pool).map (·.ibuf)

/-- `read` is asked for no more than the buffer has room for. -/
def Fits (buf : ReactorBuf) (k : KernelRead) : Prop :=
  ∀ n b p, k.needRead = some n → buf.makeRoom n k.pool = .ok (some (b, p)) →
    requested n ≤ b.capacity - b.length

/-- Something is announced, or a buffer that is there already has 4 KB left. -/
def Roomy (buf : ReactorBuf) (k : KernelRead) : Prop :=
  k.needRead = some 0 → ∀ b, buf = some b → m4K ≤ b.capacity - b.length

def InOrder (buf : ReactorBuf) : Prop := ∃ bytes, buf.Holds bytes

def Within (buf : ReactorBuf) : Prop := ∀ b, buf = some b → b.length ≤ b.capacity

theorem InOrder.within {buf : ReactorBuf} (inOrder : InOrder buf) : Within buf := by
  rintro b rfl
  obtain ⟨bytes, good, start, -⟩ := inOrder
  have window := good.window
  omega

variable {buf : ReactorBuf} {bytes : List UInt8} {p : BufPool}

/-- The outcomes of making room, with what each leaves. -/
theorem makeRoom_outcome (ok : p.Ok) (holds : buf.Holds bytes) (n : Nat) :
    (∃ f, buf.makeRoom n p = .error f ∧ f ≠ .outOfBounds) ∨ buf.makeRoom n p = .ok none ∨
      ∃ b p', buf.makeRoom n p = .ok (some (b, p')) ∧ ReactorBuf.Holds (some b) bytes ∧
        b.length + n ≤ b.capacity := by
  by_cases large : m8M < bytes.length + n
  · rcases ReactorBuf.makeRoom_large (p := p) holds large with nothing | ⟨wraps, -⟩
    · exact .inr (.inl nothing)
    · exact .inl ⟨_, wraps, by decide⟩
  · rcases ReactorBuf.makeRoom_cases ok holds (Nat.not_lt.mp large) with
      refused | ⟨b, p', room, holds', space, -⟩
    · exact .inl ⟨_, refused, by decide⟩
    · exact .inr (.inr ⟨b, p', room, holds', space⟩)

/-- A new buffer has room for 4 KB. -/
theorem room_of_new (ok : p.Ok) {b : IoBuf} {p' : BufPool}
    (made : ReactorBuf.makeRoom 0 none p = .ok (some (b, p'))) : m4K ≤ b.capacity - b.length := by
  have served : p.allocBuf 0 = .ok (some (b, p')) := made
  obtain ⟨good, empty, -⟩ := BufPool.allocBuf_some ok served
  have least : m4K ≤ b.capacity := by
    have member := good.size
    revert member
    generalize b.capacity = c
    revert c
    decide
  omega

/-- With a buffer in order, what is asked for fits exactly if the condition holds. -/
theorem fits_iff_roomy {k : KernelRead} (inOrder : InOrder buf) : Fits buf k ↔ Roomy buf k := by
  obtain ⟨bytes, holds⟩ := inOrder
  constructor
  · rintro fits announced b rfl
    have room := ReactorBuf.makeRoom_roomy (n := 0) (p := k.pool) holds.2.1 (Nat.not_lt_zero _)
    exact fits 0 b k.pool announced room
  · intro roomy n b p' announced made
    by_cases nothing : n = 0
    · subst nothing
      rw [requested, if_pos rfl]
      cases buf with
      | none => exact room_of_new k.sound made
      | some old =>
        have room := ReactorBuf.makeRoom_roomy (n := 0) (p := k.pool) holds.2.1 (Nat.not_lt_zero _)
        rw [room] at made
        cases made
        exact roomy announced b rfl
    · rw [requested, if_neg nothing]
      rcases makeRoom_outcome k.sound holds n with
        ⟨f, failed, -⟩ | none | ⟨b', p'', made', -, space⟩
      · rw [failed] at made
        cases made
      · rw [none] at made
        cases made
      · rw [made'] at made
        cases made
        omega

/-! ### One read -/

/-- A fault that is no write past the buffer, unless too much was asked for. -/
def Excused (buf : ReactorBuf) (k : KernelRead) (f : Fault) : Prop :=
  f = .outOfBounds → ¬Fits buf k

theorem excused_assertion {k : KernelRead} : Excused buf k .assertion := by
  intro same
  cases same

theorem readData_fine {k : KernelRead} (holds : buf.Holds bytes) :
    Run.Fine (fun r => InOrder r.2.1) (Excused buf k)
      (readData k.needRead k.result buf k.pool) := by
  cases announced : k.needRead with
  | none => exact ⟨bytes, holds⟩
  | some n =>
    rcases makeRoom_outcome k.sound holds n with
      ⟨f, failed, other⟩ | none | ⟨b, p', made, holds', -⟩
    · simp only [readData, failed]
      exact fun same => absurd same other
    · simp only [readData, none]
      exact ⟨bytes, holds⟩
    · cases read : k.result with
      | none =>
        simp only [readData, made]
        exact ⟨bytes, holds'⟩
      | some more =>
        have small := k.asked n announced more read
        have window := InOrder.within ⟨bytes, holds'⟩ b rfl
        simp only [readData, made]
        split
        · exact ⟨bytes, holds'⟩
        · split
          next beyond =>
            intro _ fits
            have room := fits n b p' announced made
            omega
          next inside =>
            split
            · exact excused_assertion
            · exact ⟨bytes ++ more, holds'.extend (Nat.not_lt.mp inside)⟩

theorem handleFrames_fine (e : Endpoint) (k : KernelRead) (before : ReactorBuf)
    (keeps : buf.Keeps bytes) :
    Run.Fine (fun o => InOrder o.ibuf) (Excused before k) (handleFrames e buf p) := by
  obtain ⟨fails, handles⟩ := handleFrames_spec (p := p) e keeps
  by_cases bare : msgCodec.EndsBare bytes
  · rw [fails bare]
    exact excused_assertion
  · obtain ⟨o, done, -⟩ := handles bare
    rw [done]
    simp only [handleFrames] at done
    cases loop : readLoop e buf.length buf p [] with
    | error f =>
      rw [loop] at done
      cases done
    | ok left =>
      rw [loop] at done
      cases done
      obtain ⟨rest, keeps'⟩ := readLoop_keeps e buf.length keeps loop
      exact ⟨rest, keeps'.adjust⟩

theorem doRead_fine (e : Endpoint) (k : KernelRead) (inOrder : InOrder buf) :
    Run.Fine (fun o => InOrder o.ibuf) (Excused buf k)
      (doRead e k.needRead k.result buf k.pool) := by
  obtain ⟨bytes, holds⟩ := inOrder
  have read := readData_fine (k := k) holds
  cases outcome : readData k.needRead k.result buf k.pool with
  | error f =>
    rw [outcome] at read
    simp only [doRead, outcome]
    exact read
  | ok r =>
    obtain ⟨ret, buf', p'⟩ := r
    rw [outcome] at read
    obtain ⟨rest, holds'⟩ : InOrder buf' := read
    obtain ⟨buf'', p'', cleaned, left⟩ := cleanIbuf_ok (p := p') e holds'.keeps
    have inOrder' : InOrder buf'' := by
      rcases left with rfl | rfl
      · exact ⟨[], rfl⟩
      · exact ⟨rest, holds'⟩
    simp only [doRead, outcome, cleaned]
    split
    · exact inOrder'
    · split
      · -- the peer has closed: the loop runs on what `clean_conn` has left
        obtain ⟨rest', holds''⟩ := inOrder'
        have frames := handleFrames_fine (p := p'') e k buf holds''.keeps
        cases handled : handleFrames e buf'' p'' with
        | error f =>
          rw [handled] at frames
          exact frames
        | ok o =>
          rw [handled] at frames
          exact frames
      · exact handleFrames_fine e k buf holds'.keeps

theorem step_fine (e : Endpoint) (k : KernelRead) (inOrder : InOrder buf) :
    Run.Fine InOrder (Excused buf k) (step e buf k) :=
  (doRead_fine e k inOrder).map

/-! ### Every run -/

theorem step_inOrder (e : Endpoint) (buf : ReactorBuf) (k : KernelRead) (buf' : ReactorBuf)
    (inOrder : InOrder buf) (taken : step e buf k = .ok buf') : InOrder buf' := by
  have fine := step_fine e k inOrder
  rw [taken] at fine
  exact fine

theorem step_roomy (e : Endpoint) (buf : ReactorBuf) (k : KernelRead) (inOrder : InOrder buf)
    (roomy : Roomy buf k) : Run.Fine InOrder (· ≠ .outOfBounds) (step e buf k) := by
  have fine := step_fine e k inOrder
  cases taken : step e buf k with
  | ok buf' =>
    rw [taken] at fine
    exact fine
  | error f =>
    rw [taken] at fine
    exact fun same => fine same ((fits_iff_roomy inOrder).mpr roomy)

end InputBuf

end Lars.Reactor
