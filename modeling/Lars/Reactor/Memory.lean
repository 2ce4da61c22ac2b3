import Lars.Reactor.Send

/-!
# The pool in memory

In memory an `io_buf` is a node: a buffer and a pointer to the next node of the
free list it is in. `_pool` has a pointer to the first node of each list, and a
`reactor_buf` is a pointer to the buffer it works on. Nothing but the code keeps
two of these pointers from meeting at one node.
-/
namespace Lars.Reactor

structure Node where
  buf : IoBuf
  next : Option Nat

/-- Every `io_buf` created so far, by address, and `buf_pool`. No buffer is ever deleted. -/
structure Memory where
  nodes : List Node
  pool : Nat → Option Nat
  totalMem : Nat

namespace Memory

/-- `a->next` -/
def next (m : Memory) (a : Nat) : Option Nat := m.nodes[a]?.bind Node.next

/-- The buffer behind a pointer. -/
def get (a : Nat) (m : Memory) : Except Fault IoBuf :=
  match m.nodes[a]? with
  | none => .error .nullDeref
  | some node => .ok node.buf

/-- A buffer is changed in place; its pointer stays. -/
def put (a : Nat) (b : IoBuf) (m : Memory) : Memory :=
  match m.nodes[a]? with
  | none => m
  | some node => { m with nodes := m.nodes.set a { node with buf := b } }

/-! ### `buf_pool` -/

/-- `alloc_buf`; a negative `N` is served from the smallest list as well. -/
def allocBuf (N : Int) (m : Memory) : Except Fault (Option Nat × Memory) :=
  match BufPool.sizeClass N.toNat with
  | none => .ok (none, m)
  | some index =>
    match m.pool index with
    -- nothing of this size is free: a new `io_buf`, if the limit allows it
    | none =>
      if m.totalMem + index / 1024 ≥ memLimit then .error .exit
      else
        let newBuf : Node := ⟨IoBuf.new m.nodes.length index (List.replicate index 0), none⟩
        .ok (some m.nodes.length,
          { m with nodes := m.nodes ++ [newBuf], totalMem := m.totalMem + index / 1024 })
    -- the first node leaves its list and forgets what was behind it
    | some target =>
      match m.nodes[target]? with
      | none => .error .nullDeref
      | some node =>
        .ok (some target,
          { m with
            nodes := m.nodes.set target { node with next := none }
            pool := Function.update m.pool index node.next })

def revert (a : Nat) (m : Memory) : Except Fault Memory :=
  match m.nodes[a]? with
  | none => .error .nullDeref
  | some node =>
    let index := node.buf.capacity
    -- the constructor has made a list for each of the sizes and for no other key
    if index ∈ sizes then
      .ok { m with
        nodes := m.nodes.set a ⟨{ node.buf with length := 0, head := 0 }, m.pool index⟩
        pool := Function.update m.pool index (some a) }
    else .error .assertion

/-- `make_io_buf_list`: a first node and `num - 1` rounds of the loop. -/
def makeIoBufList (cap num : Nat) (m : Memory) : Memory where
  nodes := m.nodes ++ (List.range (num - 1 + 1)).map fun i =>
    ⟨IoBuf.new (m.nodes.length + i) cap (List.replicate cap 0),
      if i < num - 1 then some (m.nodes.length + i + 1) else none⟩
  pool := Function.update m.pool cap (some m.nodes.length)
  totalMem := m.totalMem + cap / 1024 * num

/-- The constructor of the pool. -/
def init : Memory :=
  makeIoBufList m8M 10 <| makeIoBufList m4M 20 <| makeIoBufList m1M 50 <|
    makeIoBufList m256K 200 <| makeIoBufList m64K 500 <| makeIoBufList m16K 1000 <|
      makeIoBufList m4K 5000 ⟨[], fun _ => none, 0⟩

/-! ### `reactor_buf`, `input_buf`, `output_buf`

Each takes `_buf`, a pointer that may be null, and gives it back. -/

def clear (buf : Option Nat) (m : Memory) : Except Fault (Option Nat × Memory) :=
  match buf with
  | none => .ok (none, m)
  | some a =>
    match m.revert a with
    | .ok m => .ok (none, m)
    | .error e => .error e

def pop (len : Nat) (buf : Option Nat) (m : Memory) : Except Fault (Option Nat × Memory) :=
  match buf with
  | none => .error .assertion
  | some a =>
    match m.get a with
    | .error e => .error e
    | .ok b =>
      if len ≤ b.length then
        let m := m.put a (b.pop len)
        if (b.pop len).length = 0 then clear (some a) m else .ok (some a, m)
      else .error .assertion

/-- The first part of `read_data` and of `send_data`; `none` if `alloc_buf` gives the null
pointer. -/
def makeRoom (n : Nat) (buf : Option Nat) (m : Memory) : Except Fault (Option (Nat × Memory)) :=
  match buf with
  | none =>
    match m.allocBuf n with
    | .error e => .error e
    | .ok (none, _) => .ok none
    | .ok (some a, m) => .ok (some (a, m))
  | some a =>
    match m.get a with
    | .error e => .error e
    | .ok b =>
      if b.head ≠ 0 then .error .assertion
      else if b.capacity - b.length < n then
        -- the old buffer is reverted when the new one has its contents
        if n + b.length > intMax then .error .intOverflow
        else
          match m.allocBuf (n + b.length : Nat) with
          | .error e => .error e
          | .ok (none, _) => .ok none
          | .ok (some new, m) =>
            match m.get new with
            | .error e => .error e
            | .ok newBuf =>
              match (m.put new (newBuf.copy b)).revert a with
              | .ok m => .ok (some (new, m))
              | .error e => .error e
      else .ok (some (a, m))

def readData (needRead : Option Nat) (result : Option (List UInt8)) (buf : Option Nat)
    (m : Memory) : Except Fault (Int × Option Nat × Memory) :=
  match needRead with
  -- `ioctl` has failed
  | none => .ok (-1, buf, m)
  | some n =>
    match makeRoom n buf m with
    | .error e => .error e
    | .ok none => .ok (-1, buf, m)
    | .ok (some (a, m)) =>
      match m.get a with
      | .error e => .error e
      | .ok b =>
        match result with
        -- `read` has failed; a buffer that was taken for it is kept
        | none => .ok (-1, some a, m)
        | some bytes =>
          if bytes = [] then .ok (0, some a, m)
          else if b.length + bytes.length > b.capacity then .error .outOfBounds
          else if n ≠ 0 ∧ bytes.length ≠ n then .error .assertion
          else .ok (bytes.length, some a, m.put a (b.extend bytes))

def adjust (buf : Option Nat) (m : Memory) : Except Fault (Option Nat × Memory) :=
  match buf with
  | none => .ok (none, m)
  | some a =>
    match m.get a with
    | .error e => .error e
    | .ok b => .ok (some a, m.put a b.adjust)

def sendData (data : List UInt8) (buf : Option Nat) (m : Memory) :
    Except Fault (Int × Option Nat × Memory) :=
  match makeRoom data.length buf m with
  | .error e => .error e
  | .ok none => .ok (-1, buf, m)
  | .ok (some (a, m)) =>
    match m.get a with
    | .error e => .error e
    | .ok b =>
      if b.length + data.length > b.capacity then .error .outOfBounds
      else .ok (0, some a, m.put a (b.extend data))

def write2fd (results : List WriteResult) (buf : Option Nat) (m : Memory) :
    Except Fault (Int × Option Nat × Memory) :=
  match buf with
  | none => .error .assertion
  | some a =>
    match m.get a with
    | .error e => .error e
    | .ok b =>
      if b.head ≠ 0 then .error .assertion
      else
        let (ret, _, b, _) := Reactor.write2fd results b
        .ok (ret, some a, m.put a b)

end Memory

end Lars.Reactor
