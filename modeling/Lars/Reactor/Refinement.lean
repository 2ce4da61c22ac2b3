import Lars.Reactor.Ownership

/-!
# Buffers as values

`Buf`, `DoRead` and `Send` treat a buffer as a value: a `reactor_buf` has the
contents of its buffer, a free list those of its nodes. In memory there are
pointers. As no buffer has two owners, what is written through one pointer is
seen through no other, and the two views agree on every operation: on what it
returns, on what it leaves behind and on how it fails.
-/
namespace Lars.Reactor

open Linked (Path)

namespace Memory

variable {m m' : Memory} {out : Set Nat} {a : Nat} {p : BufPool} {b old : IoBuf}

/-- The contents of the buffer at an address. -/
def bufAt (m : Memory) (a : Nat) : Option IoBuf := m.nodes[a]?.map (·.buf)

/-- `p` is what one finds in the free lists of `m`. -/
structure Pictures (m : Memory) (p : BufPool) : Prop where
  lists : ∀ c xs, Path m.next (m.pool c) xs → xs.map m.bufAt = (p.pool c).map some
  totalMem : p.totalMem = m.totalMem
  created : p.created = m.nodes.length

/-- What is in the buffers `out` is the same as before. -/
def Spares (out : Set Nat) (m m' : Memory) : Prop := ∀ x ∈ out, m'.bufAt x = m.bufAt x

theorem bufAt_eq {node : Node} (there : m.nodes[a]? = some node) : m.bufAt a = some node.buf := by
  rw [bufAt, there]
  rfl

theorem get_eq (there : m.bufAt a = some b) : m.get a = .ok b := by
  obtain ⟨node, found, rfl⟩ := Option.map_eq_some_iff.mp there
  simp only [get, found]

/-! ### Writing to a buffer in hand -/

theorem bufAt_put (there : m.bufAt a = some old) : (m.put a b).bufAt a = some b := by
  obtain ⟨node, found, rfl⟩ := Option.map_eq_some_iff.mp there
  simp only [put, found, bufAt]
  rw [List.getElem?_set_self (List.getElem?_eq_some_iff.mp found).1]
  rfl

theorem bufAt_put_ne {x : Nat} (other : x ≠ a) : (m.put a b).bufAt x = m.bufAt x := by
  simp only [put, bufAt]
  split
  · rfl
  · rw [List.getElem?_set_ne (Ne.symm other)]

theorem next_put : (m.put a b).next = m.next := by
  funext x
  simp only [put, next]
  split
  next => rfl
  next node found =>
    dsimp only
    by_cases own : a = x
    · subst own
      rw [List.getElem?_set_self (List.getElem?_eq_some_iff.mp found).1, found]
      rfl
    · rw [List.getElem?_set_ne own]

theorem put_pool : (m.put a b).pool = m.pool := by
  unfold put
  split <;> rfl

/-- The free lists do not see the write. -/
theorem Pictures.put (pictures : m.Pictures p) (owned : m.Owned (some a) out) :
    (m.put a b).Pictures p := by
  obtain ⟨-, free, acc⟩ := owned
  constructor
  case lists =>
    intro c xs path
    rw [next_put, put_pool] at path
    rw [← pictures.lists c xs path]
    refine List.map_congr_left fun x member => bufAt_put_ne ?_
    -- the buffer in hand is in no list
    rintro rfl
    rw [path.unique (acc.linked c)] at member
    exact (acc.empty c x member).1 (Set.mem_insert x out)
  case totalMem =>
    rw [pictures.totalMem]
    unfold Memory.put
    split <;> rfl
  case created =>
    rw [pictures.created]
    unfold Memory.put
    split
    · rfl
    · exact (List.length_set ..).symm

theorem spares_put (mine : a ∉ out) : Spares out m (m.put a b) :=
  fun _ held => bufAt_put_ne fun same => mine (same ▸ held)

/-! ### `alloc_buf` and `revert` -/

/-- In the picture of an accounted memory it is enough to look at the known lists. -/
theorem pictures_of {free : Nat → List Nat} (acc : Accounted m free out)
    (lists : ∀ c, (free c).map m.bufAt = (p.pool c).map some) (totalMem : p.totalMem = m.totalMem)
    (created : p.created = m.nodes.length) : m.Pictures p where
  lists c _ path := path.unique (acc.linked c) ▸ lists c
  totalMem := totalMem
  created := created

/-- A buffer that is created. -/
theorem create_pictures {free : Nat → List Nat} (acc : Accounted m free out)
    (pictures : m.Pictures p) (node : Node) (size : node.buf.capacity ∈ sizes)
    (room : m.totalMem + node.buf.capacity / 1024 < memLimit) :
    Pictures { m with nodes := m.nodes ++ [node]
                      totalMem := m.totalMem + node.buf.capacity / 1024 }
      { p with totalMem := p.totalMem + node.buf.capacity / 1024, created := p.created + 1 } ∧
    Spares out m { m with nodes := m.nodes ++ [node]
                          totalMem := m.totalMem + node.buf.capacity / 1024 } := by
  refine ⟨pictures_of (acc.create node size room).2 (fun c => ?_) ?_ ?_, fun x held => ?_⟩
  · rw [← pictures.lists c _ (acc.linked c)]
    refine List.map_congr_left fun x member => ?_
    exact congrArg (Option.map _) (acc.old_nodes [node] member)
  · exact congrArg (· + _) pictures.totalMem
  · simp only [pictures.created, List.length_append, List.length_singleton]
  · exact congrArg (Option.map _) (List.getElem?_append_left (acc.valid x held))

/-- A buffer that is taken off its list; only its pointer is changed. -/
theorem take_pictures {free : Nat → List Nat} (acc : Accounted m free out) (pictures : m.Pictures p)
    {index : Nat} {node : Node} (first : m.pool index = some a) (there : m.nodes[a]? = some node) :
    ∃ rest, p.pool index = node.buf :: rest ∧
      Pictures { m with nodes := m.nodes.set a { node with next := none }
                        pool := Function.update m.pool index node.next }
        { p with pool := Function.update p.pool index rest } ∧
      ∀ x, bufAt { m with nodes := m.nodes.set a { node with next := none }
                          pool := Function.update m.pool index node.next } x = m.bufAt x := by
  obtain ⟨behind, order, unused, taken⟩ := acc.take first
  rw [next_eq there] at taken
  have written := taken.write { node with next := none } (Set.mem_insert a out) there rfl
  have same : ∀ x, bufAt { m with nodes := m.nodes.set a { node with next := none }
                                  pool := Function.update m.pool index node.next } x = m.bufAt x := by
    intro x
    by_cases own : a = x
    · subst own
      rw [bufAt_eq there, bufAt, List.getElem?_set_self (List.getElem?_eq_some_iff.mp there).1]
      rfl
    · rw [bufAt, List.getElem?_set_ne own]
      rfl
  -- the first node and the first value of the list belong together, and so do the rests
  have lists := pictures.lists index _ (acc.linked index)
  rw [order, List.map_cons, bufAt_eq there] at lists
  obtain ⟨rest, pool⟩ : ∃ rest, p.pool index = node.buf :: rest := by
    cases values : p.pool index with
    | nil => simp [values] at lists
    | cons value rest =>
      rw [values, List.map_cons] at lists
      exact ⟨rest, by rw [Option.some.inj (List.cons.inj lists).1]⟩
  rw [pool, List.map_cons] at lists
  refine ⟨rest, pool, pictures_of written (fun c => ?_) pictures.totalMem ?_, same⟩
  · rw [List.map_congr_left fun x _ => same x]
    simp only [Function.update_apply]
    split
    · exact (List.cons.inj lists).2
    · exact pictures.lists c _ (acc.linked c)
  · exact pictures.created.trans (List.length_set ..).symm

/-- The two sides of `alloc_buf`: the same fault, the null pointer on both, or a buffer that holds
the value. -/
theorem allocBuf_pictures (owned : m.Owned none out) (pictures : m.Pictures p) (N : Nat) :
    (∃ e, m.allocBuf N = .error e ∧ p.allocBuf N = .error e) ∨
    (m.allocBuf N = .ok (none, m) ∧ p.allocBuf N = .ok none) ∨
    ∃ a m' b p', m.allocBuf N = .ok (some a, m') ∧ p.allocBuf N = .ok (some (b, p')) ∧
      m'.Pictures p' ∧ m'.bufAt a = some b ∧ Spares out m m' := by
  obtain ⟨free, acc⟩ := owned
  rcases BufPool.sizeClass_cases N with ⟨index, size, chosen, -⟩ | ⟨refused, -⟩
  · cases first : m.pool index with
    | none =>
      have lists := pictures.lists index [] first
      have none_free : p.pool index = [] := List.map_eq_nil_iff.mp lists.symm
      by_cases full : m.totalMem + index / 1024 ≥ memLimit
      · refine .inl ⟨.exit, ?_, ?_⟩
        · simp only [allocBuf, Int.toNat_natCast, chosen, first, full, ↓reduceIte]
        · simp only [BufPool.allocBuf, chosen, none_free, pictures.totalMem, full, ↓reduceIte]
      · obtain ⟨created, spares⟩ := create_pictures acc pictures
          ⟨IoBuf.new m.nodes.length index (List.replicate index 0), none⟩ size
          (Nat.lt_of_not_le full)
        refine .inr (.inr ⟨m.nodes.length, _,
          IoBuf.new m.nodes.length index (List.replicate index 0), _, ?_, ?_, created, ?_, spares⟩)
        · simp only [allocBuf, Int.toNat_natCast, chosen, first, full, ↓reduceIte, IoBuf.new]
        · simp only [BufPool.allocBuf, chosen, none_free, pictures.totalMem, pictures.created, full,
            ↓reduceIte, IoBuf.new]
        · rw [bufAt, List.getElem?_concat_length]
          rfl
    | some target =>
      obtain ⟨behind, order, -⟩ := acc.take first
      obtain ⟨-, node, there, -⟩ := acc.empty index target (order ▸ List.mem_cons_self)
      obtain ⟨rest, pool, taken, same⟩ := take_pictures acc pictures first there
      refine .inr (.inr ⟨target, _, node.buf, _, ?_, ?_, taken, ?_, fun x _ => same x⟩)
      · simp only [allocBuf, Int.toNat_natCast, chosen, first, there]
      · simp only [BufPool.allocBuf, chosen, pool]
      · rw [same, bufAt_eq there]
  · refine .inr (.inl ⟨?_, ?_⟩)
    · simp only [allocBuf, Int.toNat_natCast, refused]
    · simp only [BufPool.allocBuf, refused]

/-- The two sides of `revert`. -/
theorem revert_pictures (owned : m.Owned (some a) out) (pictures : m.Pictures p)
    (there : m.bufAt a = some b) :
    (∃ e, m.revert a = .error e ∧ p.revert b = .error e) ∨
    ∃ m' p', m.revert a = .ok m' ∧ p.revert b = .ok p' ∧ m'.Pictures p' ∧ Spares out m m' := by
  obtain ⟨mine, free, acc⟩ := owned
  obtain ⟨node, found, rfl⟩ := Option.map_eq_some_iff.mp there
  by_cases size : node.buf.capacity ∈ sizes
  · right
    let shut : Node := ⟨{ node.buf with length := 0, head := 0 }, m.pool node.buf.capacity⟩
    have bound := (List.getElem?_eq_some_iff.mp found).1
    have closed := acc.write shut (Set.mem_insert a out) found rfl
    have given := closed.give mine (List.getElem?_set_self bound) rfl rfl rfl
    have other : ∀ x ≠ a, (m.nodes.set a shut)[x]?.map (·.buf) = m.bufAt x := by
      intro x differs
      rw [List.getElem?_set_ne (Ne.symm differs)]
      rfl
    -- the buffer was in no list, so the lists do not see that it is emptied
    have apart : ∀ c, ∀ x ∈ free c, x ≠ a := by
      rintro c x member rfl
      exact (acc.empty c x member).1 (Set.mem_insert x out)
    have old : ∀ c, (free c).map (fun x => (m.nodes.set a shut)[x]?.map (·.buf)) =
        (p.pool c).map some := by
      intro c
      rw [← pictures.lists c _ (acc.linked c)]
      exact List.map_congr_left fun x member => other x (apart c x member)
    let lists := Function.update p.pool node.buf.capacity (shut.buf :: p.pool node.buf.capacity)
    refine ⟨_, { p with pool := lists }, ?_, ?_,
      pictures_of given (fun c => ?_) pictures.totalMem ?_, fun x held => ?_⟩
    · simp only [revert, found, size, ↓reduceIte]
      rfl
    · simp only [BufPool.revert, size, ↓reduceIte]
      rfl
    · dsimp only [lists]
      rw [Function.update_apply, Function.update_apply]
      split
      next same =>
        rw [List.map_cons, List.map_cons, ← old]
        refine congrArg (· :: _) ?_
        exact bufAt_eq (List.getElem?_set_self bound)
      next => exact old c
    · exact pictures.created.trans (List.length_set ..).symm
    · exact other x fun same => mine (same ▸ held)
  · refine .inl ⟨.assertion, ?_, ?_⟩
    · simp only [revert, found, size, ↓reduceIte]
    · simp only [BufPool.revert, size, ↓reduceIte]

/-! ### One object and the pool -/

/-- The pointer of an object and the value that stands for it. -/
def Points (m : Memory) : Option Nat → ReactorBuf → Prop
  | none, none => True
  | some a, some b => m.bufAt a = some b
  | _, _ => False

/-- An object and the pool, in memory and as values; the buffers `out` belong to others. -/
structure View (m : Memory) (buf : Option Nat) (out : Set Nat) (value : ReactorBuf)
    (p : BufPool) : Prop where
  owned : m.Owned buf out
  pictures : m.Pictures p
  points : Points m buf value

/-- The two outcomes of an operation that began in `m`. -/
def Same (out : Set Nat) (m : Memory) :
    Except Fault (Option Nat × Memory) → Except Fault (ReactorBuf × BufPool) → Prop :=
  Run.Agree fun r r' => View r.2 r.1 out r'.1 r'.2 ∧ Spares out m r.2

variable {buf : Option Nat} {value : ReactorBuf}

theorem Spares.refl : Spares out m m := fun _ _ => rfl

theorem Spares.trans {m'' : Memory} (first : Spares out m m') (second : Spares out m' m'') :
    Spares out m m'' :=
  fun x held => (second x held).trans (first x held)

/-- A pointer is null exactly if its value is. -/
theorem View.cases (view : View m buf out value p) :
    (buf = none ∧ value = none) ∨ ∃ a b, buf = some a ∧ value = some b ∧ m.bufAt a = some b := by
  obtain ⟨-, -, points⟩ := view
  cases buf with
  | none =>
    cases value with
    | none => exact .inl ⟨rfl, rfl⟩
    | some b => exact points.elim
  | some a =>
    cases value with
    | none => exact points.elim
    | some b => exact .inr ⟨a, b, rfl, rfl, points⟩

/-- The object changes what is in its buffer. -/
theorem View.put (view : View m (some a) out (some old) p) (same : b.capacity = old.capacity) :
    View (m.put a b) (some a) out (some b) p ∧ Spares out m (m.put a b) :=
  ⟨⟨put_owned view.owned (get_eq view.points) same, view.pictures.put view.owned,
    bufAt_put view.points⟩, spares_put view.owned.1⟩

theorem clear_same (view : View m buf out value p) : Same out m (m.clear buf) (value.clear p) := by
  rcases view.cases with ⟨rfl, rfl⟩ | ⟨a, b, rfl, rfl, there⟩
  · exact ⟨view, Spares.refl⟩
  · rcases revert_pictures view.owned view.pictures there with
      ⟨e, failed, failed'⟩ | ⟨m', p', back, back', pictures, spares⟩
    · simp only [clear, ReactorBuf.clear, failed, failed']
      rfl
    · simp only [clear, ReactorBuf.clear, back, back']
      exact ⟨⟨revert_owned view.owned back, pictures, trivial⟩, spares⟩

theorem pop_same (view : View m buf out value p) (len : Nat) :
    Same out m (m.pop len buf) (value.pop len p) := by
  rcases view.cases with ⟨rfl, rfl⟩ | ⟨a, b, rfl, rfl, there⟩
  · rfl
  · obtain ⟨popped, spares⟩ := view.put (b := b.pop len) rfl
    simp only [pop, ReactorBuf.pop, get_eq there]
    split
    next =>
      split
      next => exact (clear_same popped).mono fun _ _ done => ⟨done.1, spares.trans done.2⟩
      next => exact ⟨popped, spares⟩
    next => rfl

theorem adjust_same (view : View m buf out value p) :
    Same out m (m.adjust buf) (.ok (value.map IoBuf.adjust, p)) := by
  rcases view.cases with ⟨rfl, rfl⟩ | ⟨a, b, rfl, rfl, there⟩
  · exact ⟨view, Spares.refl⟩
  · simp only [adjust, get_eq there]
    exact view.put (adjust_capacity b)

/-- The two outcomes of `makeRoom`: no buffer on either side, or one that holds the value. -/
def Rooms (out : Set Nat) (m : Memory) :
    Except Fault (Option (Nat × Memory)) → Except Fault (Option (IoBuf × BufPool)) → Prop :=
  Run.Agree fun r r' => (r = none ∧ r' = none) ∨ ∃ a m' b p, r = some (a, m') ∧ r' = some (b, p) ∧
    View m' (some a) out (some b) p ∧ Spares out m m'

/-- The old buffer is given back once its contents are in the new one. -/
theorem grow_rooms {n : Nat} (view : View m (some a) out (some b) p) (head : ¬ b.head ≠ 0)
    (tight : b.capacity - b.length < n) (fits : ¬ n + b.length > intMax) :
    Rooms out m (m.makeRoom n (some a)) (ReactorBuf.makeRoom n (some b) p) := by
  obtain ⟨mine, lent⟩ := view.owned
  simp only [makeRoom, get_eq view.points, ReactorBuf.makeRoom, head, tight, fits, ↓reduceIte]
  rcases allocBuf_pictures lent view.pictures (n + b.length) with
    ⟨e, failed, failed'⟩ | ⟨refused, refused'⟩ |
      ⟨new, m₁, newBuf, p₁, served, served', pictures, there, spares⟩
  · rw [failed, failed']
    rfl
  · rw [refused, refused']
    exact .inl ⟨rfl, rfl⟩
  · have both := (allocBuf_some lent served).1
    obtain ⟨filled, spares'⟩ := View.put (b := newBuf.copy b) ⟨both, pictures, there⟩ rfl
    have swapped := filled.owned.swap mine
    -- neither the allocation nor the copy has touched the old buffer
    have still : (m₁.put new (newBuf.copy b)).bufAt a = some b := by
      rw [spares' a (Set.mem_insert a out), spares a (Set.mem_insert a out)]
      exact view.points
    rw [served, served']
    simp only [get_eq there]
    rcases revert_pictures swapped filled.pictures still with
      ⟨e, failed, failed'⟩ | ⟨m₂, p₂, back, back', pictures', spares''⟩
    · rw [failed, failed']
      rfl
    · rw [back, back']
      refine .inr ⟨new, m₂, newBuf.copy b, p₂, rfl, rfl,
        ⟨⟨?_, revert_owned swapped back⟩, pictures', ?_⟩, fun x held => ?_⟩
      · exact fun held => both.1 (Set.mem_insert_of_mem a held)
      · exact (spares'' new (Set.mem_insert new out)).trans filled.points
      · rw [spares'' x (Set.mem_insert_of_mem new held), spares' x (Set.mem_insert_of_mem a held),
          spares x (Set.mem_insert_of_mem a held)]

theorem makeRoom_rooms (view : View m buf out value p) (n : Nat) :
    Rooms out m (m.makeRoom n buf) (value.makeRoom n p) := by
  rcases view.cases with ⟨rfl, rfl⟩ | ⟨a, b, rfl, rfl, there⟩
  · rcases allocBuf_pictures view.owned view.pictures n with
      ⟨e, failed, failed'⟩ | ⟨refused, refused'⟩ |
        ⟨a, m', b, p', served, served', pictures, there, spares⟩
    · simp only [makeRoom, failed, ReactorBuf.makeRoom, failed']
      rfl
    · simp only [makeRoom, refused, ReactorBuf.makeRoom, refused']
      exact .inl ⟨rfl, rfl⟩
    · simp only [makeRoom, served, ReactorBuf.makeRoom, served']
      exact .inr ⟨a, m', b, p', rfl, rfl,
        ⟨(allocBuf_some view.owned served).1, pictures, there⟩, spares⟩
  · by_cases head : b.head ≠ 0
    · simp only [makeRoom, get_eq there, ReactorBuf.makeRoom, if_pos head]
      rfl
    by_cases tight : b.capacity - b.length < n
    · by_cases fits : n + b.length > intMax
      · simp only [makeRoom, get_eq there, ReactorBuf.makeRoom, head, tight, fits, ↓reduceIte]
        rfl
      · exact grow_rooms view head tight fits
    · simp only [makeRoom, get_eq there, ReactorBuf.makeRoom, head, tight, ↓reduceIte]
      exact .inr ⟨a, m, b, p, rfl, rfl, view, Spares.refl⟩

/-- The outcomes of an operation with a return value. -/
def Matches (out : Set Nat) (m : Memory) :
    Except Fault (Int × Option Nat × Memory) → Except Fault (Int × ReactorBuf × BufPool) → Prop :=
  Run.Agree fun r r' => r.1 = r'.1 ∧ View r.2.2 r.2.1 out r'.2.1 r'.2.2 ∧ Spares out m r.2.2

theorem Same.matches {x : Except Fault (Option Nat × Memory)}
    {y : Except Fault (ReactorBuf × BufPool)} (same : Same out m x y) :
    Matches out m (x.map (0, ·)) (y.map (0, ·)) :=
  same.map fun _ _ done => ⟨rfl, done⟩

theorem readData_matches (view : View m buf out value p) (needRead : Option Nat)
    (result : Option (List UInt8)) :
    Matches out m (m.readData needRead result buf) (Reactor.readData needRead result value p) := by
  cases needRead with
  | none => exact ⟨rfl, view, Spares.refl⟩
  | some n =>
    rcases (makeRoom_rooms view n).cases with ⟨e, failed, failed'⟩ |
      ⟨_, _, room, room', ⟨rfl, rfl⟩ | ⟨a, m', b, p', rfl, rfl, view', spares⟩⟩
    · simp only [readData, failed, Reactor.readData, failed']
      rfl
    · simp only [readData, room, Reactor.readData, room']
      exact ⟨rfl, view, Spares.refl⟩
    · simp only [readData, room, Reactor.readData, room', get_eq view'.points]
      cases result with
      | none => exact ⟨rfl, view', spares⟩
      | some bytes =>
        dsimp only
        split
        next => exact ⟨rfl, view', spares⟩
        split
        next => rfl
        split
        next => rfl
        next =>
          obtain ⟨filled, spares'⟩ := view'.put (b := b.extend bytes) rfl
          exact ⟨rfl, filled, spares.trans spares'⟩

theorem sendData_matches (view : View m buf out value p) (data : List UInt8) :
    Matches out m (m.sendData data buf) (Reactor.sendData data value p) := by
  rcases (makeRoom_rooms view data.length).cases with ⟨e, failed, failed'⟩ |
    ⟨_, _, room, room', ⟨rfl, rfl⟩ | ⟨a, m', b, p', rfl, rfl, view', spares⟩⟩
  · simp only [sendData, failed, Reactor.sendData, failed']
    rfl
  · simp only [sendData, room, Reactor.sendData, room']
    exact ⟨rfl, view, Spares.refl⟩
  · simp only [sendData, room, Reactor.sendData, room', get_eq view'.points]
    split
    next => rfl
    next =>
      obtain ⟨filled, spares'⟩ := view'.put (b := b.extend data) rfl
      exact ⟨rfl, filled, spares.trans spares'⟩

end Memory

/-! ### All objects together -/

/-- `write2fd` of an object, with its assertion. -/
def ReactorBuf.write2fd (results : List WriteResult) (value : ReactorBuf) (p : BufPool) :
    Except Fault (Int × ReactorBuf × BufPool) :=
  match value with
  | none => .error .assertion
  | some b =>
    if b.head ≠ 0 then .error .assertion
    else
      let (ret, _, b, _) := Reactor.write2fd results b
      .ok (ret, some b, p)

/-- The same operation on values. -/
def BufOp.actValue (value : ReactorBuf) (p : BufPool) :
    BufOp → Except Fault (Int × ReactorBuf × BufPool)
  | readData _ needRead result => Reactor.readData needRead result value p
  | adjust _ => .ok (0, value.map IoBuf.adjust, p)
  | sendData _ data => Reactor.sendData data value p
  | write2fd _ results => value.write2fd results p
  | pop _ len => (value.pop len p).map (0, ·)
  | clear _ => (value.clear p).map (0, ·)
  | destroy _ => (value.clear p).map (0, ·)

theorem BufOp.act_matches {m : Memory} {buf : Option Nat} {out : Set Nat} {value : ReactorBuf}
    {p : BufPool} (view : m.View buf out value p) (op : BufOp) :
    Memory.Matches out m (op.act buf m) (op.actValue value p) := by
  cases op with
  | readData id needRead result => exact Memory.readData_matches view needRead result
  | adjust id => exact (Memory.adjust_same view).matches
  | sendData id data => exact Memory.sendData_matches view data
  | write2fd id results =>
    rcases view.cases with ⟨rfl, rfl⟩ | ⟨a, b, rfl, rfl, there⟩
    · rfl
    · simp only [act, actValue, Memory.write2fd, ReactorBuf.write2fd, Memory.get_eq there]
      split
      next => rfl
      next => exact ⟨rfl, view.put (Memory.write2fd_capacity results b)⟩
  | pop who len => exact (Memory.pop_same view len).matches
  | clear who => exact (Memory.clear_same view).matches
  | destroy who => exact (Memory.clear_same view).matches

/-- The pool and every `reactor_buf`, as values. -/
structure Values where
  pool : BufPool
  held : Owner → ReactorBuf

def Values.init : Values := ⟨BufPool.init, fun _ => none⟩

def Values.step (v : Values) (op : BufOp) : Except Fault Values :=
  match op.actValue (v.held op.owner) v.pool with
  | .error e => .error e
  | .ok (_, value, p) => .ok ⟨p, Function.update v.held op.owner value⟩

namespace Buffers

/-- The values are what the pointers lead to. -/
structure Shows (s : Buffers) (v : Values) : Prop where
  apart : s.Apart
  pictures : s.memory.Pictures v.pool
  points : ∀ who, s.memory.Points (s.held who) (v.held who)

/-- A pointer to a buffer that is spared leads to the same value. -/
theorem points_of_spares {m m' : Memory} {out : Set Nat} {buf : Option Nat} {value : ReactorBuf}
    (spares : Memory.Spares out m m') (held : ∀ a, buf = some a → a ∈ out)
    (points : m.Points buf value) : m'.Points buf value := by
  cases buf with
  | none => cases value <;> exact points
  | some a =>
    cases value with
    | none => exact points
    | some b => exact (spares a (held a rfl)).trans points

theorem step_agrees {s : Buffers} {v : Values} (shows : s.Shows v) (op : BufOp) :
    Run.Agree Shows (s.step op) (v.step op) := by
  have view : s.memory.View (s.held op.owner) (s.others op.owner) (v.held op.owner) v.pool :=
    ⟨shows.apart.owned op.owner, shows.pictures, shows.points op.owner⟩
  unfold step Values.step
  rcases (BufOp.act_matches view op).cases with
    ⟨e, failed, failed'⟩ | ⟨⟨ret, buf, m⟩, ⟨ret', value, p⟩, acted, acted', -, after, spares⟩
  · rw [failed, failed']
    rfl
  · rw [acted, acted']
    refine ⟨apart_of_owned shows.apart after.owned, after.pictures, fun who => ?_⟩
    by_cases own : who = op.owner
    · subst own
      simp only [Function.update_self]
      exact after.points
    · -- the operation has spared what the other objects hold
      simp only [Function.update_of_ne own]
      exact points_of_spares spares (fun a holds => ⟨who, own, holds⟩) (shows.points who)

/-- A memory without buffers in use, and its picture. -/
def Built (m : Memory) (p : BufPool) : Prop := ∃ free, m.Accounted free ∅ ∧ m.Pictures p

theorem Built.makeIoBufList {m : Memory} {p : BufPool} (built : Built m p) (cap n : Nat)
    (size : cap ∈ sizes) (absent : m.pool cap = none)
    (room : (m.makeIoBufList cap (n + 1)).totalMem < memLimit) :
    Built (m.makeIoBufList cap (n + 1)) (p.makeIoBufList cap (n + 1)) := by
  obtain ⟨free, acc, pictures⟩ := built
  have made := acc.makeIoBufList cap n size absent room
  refine ⟨_, made, Memory.pictures_of made (fun c => ?_) ?_ ?_⟩
  · simp only [BufPool.makeIoBufList, Function.update_apply]
    split
    next =>
      rw [List.range'_eq_map_range, List.map_map, List.map_map, pictures.created]
      refine List.map_congr_left fun i member => ?_
      exact Memory.bufAt_eq (m.makeIoBufList_nodes cap (List.mem_range.mp member))
    next =>
      rw [← pictures.lists c _ (acc.linked c)]
      exact List.map_congr_left fun x member => congrArg (Option.map _) (acc.old_nodes _ member)
  · exact congrArg (· + _) pictures.totalMem
  · simp [BufPool.makeIoBufList, Memory.makeIoBufList, pictures.created]

theorem init_shows : init.Shows Values.init := by
  have start : Built ⟨[], fun _ => none, 0⟩ ⟨fun _ => [], 0, 0⟩ := by
    refine ⟨_, Memory.empty_accounted, Memory.pictures_of Memory.empty_accounted ?_ rfl rfl⟩
    exact fun _ => rfl
  have list4K := start.makeIoBufList m4K 4999 (by decide) rfl (by decide)
  have list16K := list4K.makeIoBufList m16K 999 (by decide) rfl (by decide)
  have list64K := list16K.makeIoBufList m64K 499 (by decide) rfl (by decide)
  have list256K := list64K.makeIoBufList m256K 199 (by decide) rfl (by decide)
  have list1M := list256K.makeIoBufList m1M 49 (by decide) rfl (by decide)
  have list4M := list1M.makeIoBufList m4M 19 (by decide) rfl (by decide)
  obtain ⟨free, -, pictures⟩ := list4M.makeIoBufList m8M 9 (by decide) rfl (by decide)
  exact ⟨init_apart, pictures, fun _ => trivial⟩

/-- Every run in memory and the run on values with the same operations come to the same end. -/
theorem run_agrees (ops : List BufOp) :
    Run.Agree Shows (Run.run step init ops) (Run.run Values.step Values.init ops) :=
  Run.run_agree (fun _ _ op shows => step_agrees shows op) init_shows

end Buffers

end Lars.Reactor
