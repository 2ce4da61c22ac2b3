import Mathlib.Data.Set.Insert
import Lars.Lib.Linked
import Lars.Lib.Run
import Lars.Reactor.Memory

/-!
# Who holds a buffer

Any number of `reactor_buf`s share the pool. Every buffer is with exactly one of
them or in exactly one free list: `alloc_buf` and `revert` move it from one side
to the other, everything else works on a buffer that its caller holds.
-/
namespace Lars.Reactor

open Linked (Path)

namespace Memory

variable {m m' : Memory} {free : Nat → List Nat} {out : Set Nat} {a : Nat}

def capacities (m : Memory) : List Nat := m.nodes.map (·.buf.capacity)

/-- The free lists are `free` and the buffers `out` are with somebody. -/
structure Accounted (m : Memory) (free : Nat → List Nat) (out : Set Nat) : Prop where
  linked : ∀ c, Path m.next (m.pool c) (free c)
  empty : ∀ c, ∀ a ∈ free c, a ∉ out ∧ ∃ node, m.nodes[a]? = some node ∧
    node.buf.capacity = c ∧ node.buf.length = 0 ∧ node.buf.head = 0
  complete : ∀ a < m.nodes.length, a ∉ out → ∃ c, a ∈ free c
  valid : ∀ a ∈ out, a < m.nodes.length
  sized : ∀ c ∈ m.capacities, c ∈ sizes
  total : m.totalMem = (m.capacities.map (· / 1024)).sum
  limit : m.totalMem < memLimit

theorem next_eq {node : Node} (there : m.nodes[a]? = some node) : m.next a = node.next := by
  rw [next, there]
  rfl

/-- The nodes that `make_io_buf_list` creates lie one behind the other. -/
theorem makeIoBufList_nodes (m : Memory) (cap : Nat) {n i : Nat} (bound : i < n + 1) :
    (m.makeIoBufList cap (n + 1)).nodes[m.nodes.length + i]? =
      some ⟨IoBuf.new (m.nodes.length + i) cap (List.replicate cap 0),
        if i < n then some (m.nodes.length + i + 1) else none⟩ := by
  rw [makeIoBufList, List.getElem?_append_right (Nat.le_add_right _ _), Nat.add_sub_cancel_left,
    List.getElem?_map, List.getElem?_range (by omega)]
  rfl

/-- Only the node at `a` is another. -/
theorem capacities_set {old node : Node} (there : m.nodes[a]? = some old)
    (same : node.buf.capacity = old.buf.capacity) :
    (m.nodes.set a node).map (·.buf.capacity) = m.capacities := by
  apply List.ext_getElem?
  intro i
  rw [capacities, List.getElem?_map, List.getElem?_map]
  by_cases own : a = i
  · subst own
    rw [List.getElem?_set_self (List.getElem?_eq_some_iff.mp there).1, there]
    exact congrArg some same
  · rw [List.getElem?_set_ne own]

namespace Accounted

theorem lt_length (acc : Accounted m free out) {c : Nat} (member : a ∈ free c) :
    a < m.nodes.length := by
  obtain ⟨-, node, there, -⟩ := acc.empty c a member
  exact (List.getElem?_eq_some_iff.mp there).1

/-- A buffer is in the list of its size and in no other. -/
theorem list_unique (acc : Accounted m free out) {c c' : Nat} (member : a ∈ free c)
    (member' : a ∈ free c') : c = c' := by
  obtain ⟨-, node, there, size, -⟩ := acc.empty c a member
  obtain ⟨-, node', there', size', -⟩ := acc.empty c' a member'
  cases there.symm.trans there'
  exact size.symm.trans size'

/-- Whoever holds a buffer may write to it, as long as its size stays. -/
theorem write (acc : Accounted m free out) (node : Node) (held : a ∈ out) {old : Node}
    (there : m.nodes[a]? = some old) (same : node.buf.capacity = old.buf.capacity) :
    Accounted { m with nodes := m.nodes.set a node } free out := by
  have apart : ∀ c, ∀ b ∈ free c, (m.nodes.set a node)[b]? = m.nodes[b]? := by
    intro c b member
    apply List.getElem?_set_ne
    rintro rfl
    exact (acc.empty c a member).1 held
  have caps := capacities_set there same
  constructor
  case linked =>
    intro c
    apply (acc.linked c).congr
    intro b member
    rw [next, apart c b member]
    rfl
  case empty =>
    intro c b member
    rw [apart c b member]
    exact acc.empty c b member
  case complete => simpa only [List.length_set] using acc.complete
  case valid => simpa only [List.length_set] using acc.valid
  case sized =>
    intro c member
    exact acc.sized c (caps ▸ member)
  case total => exact acc.total.trans (congrArg (fun caps => (caps.map (· / 1024)).sum) caps.symm)
  case limit => exact acc.limit

/-- The first buffer of a list is taken off. -/
theorem take (acc : Accounted m free out) {index : Nat} (first : m.pool index = some a) :
    ∃ rest, free index = a :: rest ∧ a ∉ out ∧
      Accounted { m with pool := Function.update m.pool index (m.next a) }
        (Function.update free index rest) (insert a out) := by
  have path := acc.linked index
  rw [first] at path
  obtain ⟨rest, order, behind⟩ := path.cons_of_some
  have member : a ∈ free index := by rw [order]; exact List.mem_cons_self
  have fresh : a ∉ rest := by
    have nodup := (acc.linked index).nodup
    rw [order] at nodup
    exact (List.nodup_cons.mp nodup).1
  -- what is still free was free before, and it is not the node that was taken
  have still : ∀ c b, b ∈ Function.update free index rest c → b ∈ free c ∧ b ≠ a := by
    intro c b there
    rw [Function.update_apply] at there
    split at there
    next same =>
      rw [same, order]
      exact ⟨List.mem_cons_of_mem _ there, fun again => fresh (again ▸ there)⟩
    next other =>
      refine ⟨there, ?_⟩
      rintro rfl
      exact other (acc.list_unique there member)
  refine ⟨rest, order, (acc.empty index a member).1, ?_⟩
  constructor
  case linked =>
    intro c
    change Path m.next _ _
    simp only [Function.update_apply]
    split
    · exact behind
    · exact acc.linked c
  case empty =>
    intro c b there
    obtain ⟨old, other⟩ := still c b there
    obtain ⟨inside, rest⟩ := acc.empty c b old
    exact ⟨fun held => (Set.mem_insert_iff.mp held).elim other inside, rest⟩
  case complete =>
    intro b bound absent
    obtain ⟨other, inside⟩ := not_or.mp (mt Set.mem_insert_iff.mpr absent)
    obtain ⟨c, old⟩ := acc.complete b bound inside
    refine ⟨c, ?_⟩
    rw [Function.update_apply]
    split
    next same =>
      rw [same, order] at old
      exact (List.mem_cons.mp old).resolve_left other
    next => exact old
  case valid =>
    intro b held
    rcases Set.mem_insert_iff.mp held with rfl | old
    · exact acc.lt_length member
    · exact acc.valid b old
  case sized => exact acc.sized
  case total => exact acc.total
  case limit => exact acc.limit

/-- An empty buffer that points to the first of its list becomes the first. -/
theorem give (acc : Accounted m free (insert a out)) (mine : a ∉ out) {node : Node}
    (there : m.nodes[a]? = some node) (length : node.buf.length = 0) (head : node.buf.head = 0)
    (points : node.next = m.pool node.buf.capacity) :
    Accounted { m with pool := Function.update m.pool node.buf.capacity (some a) }
      (Function.update free node.buf.capacity (a :: free node.buf.capacity)) out := by
  have other : ∀ c, ∀ b ∈ free c, b ∉ out := fun c b member held =>
    (acc.empty c b member).1 (Set.mem_insert_of_mem a held)
  constructor
  case linked =>
    intro c
    change Path m.next _ _
    simp only [Function.update_apply]
    split
    · exact (acc.linked _).push (fun _ _ => rfl) ((next_eq there).trans points)
    · exact acc.linked c
  case empty =>
    intro c b member
    rw [Function.update_apply] at member
    split at member
    next same =>
      subst same
      rcases List.mem_cons.mp member with rfl | old
      · exact ⟨mine, node, there, rfl, length, head⟩
      · exact ⟨other _ b old, (acc.empty _ b old).2⟩
    next => exact ⟨other c b member, (acc.empty c b member).2⟩
  case complete =>
    intro b bound absent
    by_cases own : b = a
    · exact ⟨node.buf.capacity, by rw [Function.update_self, own]; exact List.mem_cons_self⟩
    · obtain ⟨c, old⟩ := acc.complete b bound
        fun held => (Set.mem_insert_iff.mp held).elim own absent
      refine ⟨c, ?_⟩
      rw [Function.update_apply]
      split
      next same => exact List.mem_cons_of_mem _ (same ▸ old)
      next => exact old
  case valid => exact fun b held => acc.valid b (Set.mem_insert_of_mem a held)
  case sized => exact acc.sized
  case total => exact acc.total
  case limit => exact acc.limit

/-- What is known of the old buffers stays true when new ones are created behind them. -/
theorem old_nodes (acc : Accounted m free out) (more : List Node) {c : Nat} (member : a ∈ free c) :
    (m.nodes ++ more)[a]? = m.nodes[a]? :=
  List.getElem?_append_left (acc.lt_length member)

theorem create (acc : Accounted m free out) (node : Node) (size : node.buf.capacity ∈ sizes)
    (room : m.totalMem + node.buf.capacity / 1024 < memLimit) :
    m.nodes.length ∉ out ∧
      Accounted { m with nodes := m.nodes ++ [node]
                         totalMem := m.totalMem + node.buf.capacity / 1024 }
        free (insert m.nodes.length out) := by
  have unused : m.nodes.length ∉ out := fun held => Nat.lt_irrefl _ (acc.valid _ held)
  refine ⟨unused, ?_⟩
  constructor
  case linked =>
    intro c
    apply (acc.linked c).congr
    intro b member
    rw [next, acc.old_nodes [node] member]
    rfl
  case empty =>
    intro c b member
    obtain ⟨inside, there⟩ := acc.empty c b member
    refine ⟨fun held => ?_, by rwa [acc.old_nodes [node] member]⟩
    exact (Set.mem_insert_iff.mp held).elim (Nat.ne_of_lt (acc.lt_length member)) inside
  case complete =>
    intro b bound absent
    obtain ⟨other, inside⟩ := not_or.mp (mt Set.mem_insert_iff.mpr absent)
    rw [List.length_append, List.length_singleton] at bound
    exact acc.complete b (by omega) inside
  case valid =>
    intro b held
    rw [List.length_append, List.length_singleton]
    rcases Set.mem_insert_iff.mp held with rfl | old
    · exact Nat.lt_succ_self _
    · exact Nat.lt_succ_of_lt (acc.valid b old)
  case sized =>
    intro c member
    simp only [capacities, List.map_append, List.mem_append, List.map_cons, List.map_nil,
      List.mem_singleton] at member
    rcases member with old | rfl
    · exact acc.sized c old
    · exact size
  case total =>
    rw [capacities, List.map_append, List.map_append, List.sum_append]
    change m.totalMem + _ = (m.capacities.map _).sum + _
    rw [acc.total]
    simp
  case limit => exact room

/-- The constructor's list of one size, where there is none yet. -/
theorem makeIoBufList (acc : Accounted m free out) (cap n : Nat) (size : cap ∈ sizes)
    (absent : m.pool cap = none) (room : (m.makeIoBufList cap (n + 1)).totalMem < memLimit) :
    Accounted (m.makeIoBufList cap (n + 1))
      (Function.update free cap (List.range' m.nodes.length (n + 1))) out := by
  have none_before : free cap = [] := by
    have path := acc.linked cap
    rw [absent] at path
    exact path.eq_nil_of_none
  have old : ∀ c, ∀ b ∈ free c, (m.makeIoBufList cap (n + 1)).nodes[b]? = m.nodes[b]? :=
    fun c b member => acc.old_nodes _ member
  have length : (m.makeIoBufList cap (n + 1)).nodes.length = m.nodes.length + (n + 1) := by
    simp [Memory.makeIoBufList]
  have caps : (m.makeIoBufList cap (n + 1)).capacities =
      m.capacities ++ List.replicate (n + 1) cap := by
    simp [Memory.makeIoBufList, capacities, IoBuf.new, Function.comp_def, List.map_const']
  constructor
  case linked =>
    intro c
    change Path _ (Function.update m.pool cap (some m.nodes.length) c) _
    rw [Function.update_apply, Function.update_apply]
    split
    next =>
      refine Linked.path_range' (fun i bound => ?_) ?_
      · rw [next_eq (makeIoBufList_nodes m cap (Nat.lt_succ_of_lt bound)), if_pos bound]
      · rw [next_eq (makeIoBufList_nodes m cap (Nat.lt_succ_self n)), if_neg (Nat.lt_irrefl n)]
    next =>
      refine (acc.linked c).congr fun b member => ?_
      exact congrArg (Option.bind · Node.next) (old c b member)
  case empty =>
    intro c b member
    rw [Function.update_apply] at member
    split at member
    next same =>
      obtain ⟨above, below⟩ := List.mem_range'_1.mp member
      obtain ⟨i, rfl⟩ := Nat.exists_eq_add_of_le above
      exact ⟨fun held => absurd (acc.valid _ held) (by omega), _,
        makeIoBufList_nodes m cap (by omega), same.symm, rfl, rfl⟩
    next => exact old c b member ▸ acc.empty c b member
  case complete =>
    intro b bound inside
    rw [length] at bound
    by_cases before : b < m.nodes.length
    · obtain ⟨c, member⟩ := acc.complete b before inside
      refine ⟨c, ?_⟩
      rw [Function.update_of_ne]
      · exact member
      · rintro rfl
        rw [none_before] at member
        exact List.not_mem_nil member
    · refine ⟨cap, ?_⟩
      rw [Function.update_self]
      exact List.mem_range'_1.mpr ⟨Nat.not_lt.mp before, bound⟩
  case valid =>
    intro b held
    rw [length]
    exact Nat.lt_of_lt_of_le (acc.valid b held) (Nat.le_add_right _ _)
  case sized =>
    intro c member
    rw [caps] at member
    rcases List.mem_append.mp member with older | new
    · exact acc.sized c older
    · exact List.eq_of_mem_replicate new ▸ size
  case total =>
    rw [caps, List.map_append, List.sum_append, ← acc.total, List.map_replicate,
      List.sum_replicate_nat, Nat.mul_comm]
    rfl
  case limit => exact room

end Accounted

/-! ### One caller's pointer -/

/-- Beside the buffers `out` of the others, somebody holds the one that `buf` points to. -/
def Owned (m : Memory) (buf : Option Nat) (out : Set Nat) : Prop :=
  match buf with
  | none => ∃ free, Accounted m free out
  | some a => a ∉ out ∧ ∃ free, Accounted m free (insert a out)

variable {N : Int} {b old : IoBuf}

/-- What `alloc_buf` hands out was free or did not exist, and is empty. -/
theorem allocBuf_some (owned : m.Owned none out) (done : m.allocBuf N = .ok (some a, m')) :
    m'.Owned (some a) out ∧ ∃ node, m'.nodes[a]? = some node ∧ node.buf.length = 0 ∧
      node.buf.head = 0 ∧ BufPool.sizeClass N.toNat = some node.buf.capacity := by
  obtain ⟨free, acc⟩ := owned
  rcases BufPool.sizeClass_cases N.toNat with ⟨index, size, chosen, -⟩ | ⟨refused, -⟩
  · simp only [allocBuf, chosen] at done
    split at done
    next =>
      split at done
      next => cases done
      next room =>
        cases done
        obtain ⟨unused, acc'⟩ := acc.create
          ⟨IoBuf.new m.nodes.length index (List.replicate index 0), none⟩ size
          (Nat.lt_of_not_le room)
        exact ⟨⟨unused, free, acc'⟩, _, List.getElem?_concat_length, rfl, rfl, chosen⟩
    next first =>
      split at done
      next => cases done
      next node there =>
        cases done
        obtain ⟨rest, order, unused, acc'⟩ := acc.take first
        obtain ⟨-, node', there', cap, length, head⟩ :=
          acc.empty index a (order ▸ List.mem_cons_self)
        cases there.symm.trans there'
        rw [next_eq there] at acc'
        refine ⟨⟨unused, _, acc'.write _ (Set.mem_insert a out) there rfl⟩,
          { node with next := none }, ?_, length, head, cap ▸ chosen⟩
        exact List.getElem?_set_self (List.getElem?_eq_some_iff.mp there).1
  · simp [allocBuf, refused] at done

theorem allocBuf_none_iff : (∃ m', m.allocBuf N = .ok (none, m')) ↔ (m8M : Int) < N := by
  rcases BufPool.sizeClass_cases N.toNat with ⟨index, -, chosen, -, small⟩ | ⟨refused, large⟩
  · simp only [allocBuf, chosen]
    refine ⟨?_, fun above => by omega⟩
    rintro ⟨m', done⟩
    split at done
    · split at done <;> cases done
    · split at done <;> cases done
  · simp only [allocBuf, refused]
    exact ⟨fun _ => by omega, fun _ => ⟨m, rfl⟩⟩

/-- No buffer of this size is free, and a new one would reach the limit. -/
def Exhausted (index : Nat) (m : Memory) : Prop :=
  m.pool index = none ∧ memLimit ≤ m.totalMem + index / 1024

/-- Up to 8 MB `alloc_buf` gives a buffer, or it ends the program. -/
theorem allocBuf_granted (owned : m.Owned none out) (small : N ≤ m8M) :
    ∃ index, BufPool.sizeClass N.toNat = some index ∧
      ((∃ a m', m.allocBuf N = .ok (some a, m')) ↔ ¬ m.Exhausted index) ∧
      (m.allocBuf N = .error .exit ↔ m.Exhausted index) := by
  obtain ⟨free, acc⟩ := owned
  rcases BufPool.sizeClass_cases N.toNat with ⟨index, -, chosen, -⟩ | ⟨-, large⟩
  · refine ⟨index, chosen, ?_⟩
    simp only [allocBuf, chosen, Exhausted]
    cases first : m.pool index with
    | none =>
      by_cases full : memLimit ≤ m.totalMem + index / 1024
      · simp [full]
      · simp [full]
    | some target =>
      -- the head of a list is a buffer
      obtain ⟨behind, order, -⟩ := acc.take first
      obtain ⟨-, node, there, -⟩ := acc.empty index target (order ▸ List.mem_cons_self)
      simp [there]
  · omega

theorem revert_owned (owned : m.Owned (some a) out) (done : m.revert a = .ok m') :
    m'.Owned none out := by
  obtain ⟨mine, free, acc⟩ := owned
  unfold revert at done
  split at done
  next => cases done
  next node there =>
    dsimp only at done
    split at done
    next size =>
      cases done
      -- the buffer is closed while it is still held, and then given away
      let shut : Node := ⟨{ node.buf with length := 0, head := 0 }, m.pool node.buf.capacity⟩
      have closed := acc.write shut (Set.mem_insert a out) there rfl
      have inside : (m.nodes.set a shut)[a]? = some shut :=
        List.getElem?_set_self (List.getElem?_eq_some_iff.mp there).1
      have given := closed.give mine inside rfl rfl rfl
      exact ⟨_, given⟩
    next => cases done

theorem get_inv (done : m.get a = .ok b) : ∃ node, m.nodes[a]? = some node ∧ node.buf = b := by
  unfold get at done
  split at done
  next => cases done
  next node there =>
    cases done
    exact ⟨node, there, rfl⟩

theorem put_owned (owned : m.Owned (some a) out) (found : m.get a = .ok old)
    (same : b.capacity = old.capacity) : (m.put a b).Owned (some a) out := by
  obtain ⟨mine, free, acc⟩ := owned
  obtain ⟨node, there, rfl⟩ := get_inv found
  refine ⟨mine, free, ?_⟩
  simp only [put, there]
  exact acc.write _ (Set.mem_insert a out) there same

/-- Of two buffers in hand, the other one is looked at. -/
theorem Owned.swap {a' : Nat} (owned : m.Owned (some a) (insert a' out)) (mine : a' ∉ out) :
    m.Owned (some a') (insert a out) := by
  obtain ⟨other, free, acc⟩ := owned
  rw [Set.insert_comm] at acc
  refine ⟨fun held => ?_, free, acc⟩
  rcases Set.mem_insert_iff.mp held with rfl | inside
  · exact other (Set.mem_insert _ _)
  · exact mine inside

/-! ### The operations of a `reactor_buf` -/

variable {buf buf' : Option Nat} {ret : Int}

theorem adjust_capacity (b : IoBuf) : b.adjust.capacity = b.capacity := by
  unfold IoBuf.adjust
  split
  · split <;> rfl
  · rfl

theorem write2fd_capacity (results : List WriteResult) (b : IoBuf) :
    (Reactor.write2fd results b).2.2.1.capacity = b.capacity := by
  -- each interruption is one more call of `write`
  induction results with
  | nil => rfl
  | cons result results ih =>
    cases result with
    | interrupted => exact ih
    | again => rfl
    | failed => rfl
    | accepted n =>
      simp only [Reactor.write2fd]
      split
      · exact adjust_capacity _
      · rfl

/-- Before the constructor has made its lists there is nothing to account for. -/
theorem empty_accounted : Accounted ⟨[], fun _ => none, 0⟩ (fun _ => []) ∅ := by
  refine ⟨fun _ => rfl, ?_, ?_, ?_, ?_, rfl, by decide⟩
  · exact fun _ _ member => absurd member List.not_mem_nil
  · exact fun _ bound => absurd bound (Nat.not_lt_zero _)
  · exact fun _ held => absurd held (Set.notMem_empty _)
  · exact fun _ member => absurd member List.not_mem_nil

theorem init_owned : init.Owned none ∅ := by
  have list4K := empty_accounted.makeIoBufList m4K 4999 (by decide) rfl (by decide)
  have list16K := list4K.makeIoBufList m16K 999 (by decide) rfl (by decide)
  have list64K := list16K.makeIoBufList m64K 499 (by decide) rfl (by decide)
  have list256K := list64K.makeIoBufList m256K 199 (by decide) rfl (by decide)
  have list1M := list256K.makeIoBufList m1M 49 (by decide) rfl (by decide)
  have list4M := list1M.makeIoBufList m4M 19 (by decide) rfl (by decide)
  exact ⟨_, list4M.makeIoBufList m8M 9 (by decide) rfl (by decide)⟩

end Memory

/-! ### All buffer objects together -/

/-- The objects that have a `_buf`. -/
inductive Owner where
  | input (id : Nat)
  | output (id : Nat)
  deriving DecidableEq

inductive BufOp where
  | readData (id : Nat) (needRead : Option Nat) (result : Option (List UInt8))
  | adjust (id : Nat)
  | sendData (id : Nat) (data : List UInt8)
  | write2fd (id : Nat) (results : List WriteResult)
  | pop (who : Owner) (len : Nat)
  | clear (who : Owner)
  /-- The destructor calls `clear`; an object made anew has the null pointer. -/
  | destroy (who : Owner)

namespace BufOp

def owner : BufOp → Owner
  | readData id _ _ => .input id
  | adjust id => .input id
  | sendData id _ => .output id
  | write2fd id _ => .output id
  | pop who _ => who
  | clear who => who
  | destroy who => who

/-- What the operation returns (0 where it is `void`) and does to `_buf` and the memory. -/
def act (buf : Option Nat) (m : Memory) : BufOp → Except Fault (Int × Option Nat × Memory)
  | readData _ needRead result => m.readData needRead result buf
  | adjust _ => (m.adjust buf).map (0, ·)
  | sendData _ data => m.sendData data buf
  | write2fd _ results => m.write2fd results buf
  | pop _ len => (m.pop len buf).map (0, ·)
  | clear _ => (m.clear buf).map (0, ·)
  | destroy _ => (m.clear buf).map (0, ·)

end BufOp

/-- The pool and every `reactor_buf` there is. -/
structure Buffers where
  memory : Memory
  held : Owner → Option Nat

namespace Buffers

def init : Buffers := ⟨Memory.init, fun _ => none⟩

def step (s : Buffers) (op : BufOp) : Except Fault Buffers :=
  match op.act (s.held op.owner) s.memory with
  | .error e => .error e
  | .ok (_, buf, m) => .ok ⟨m, Function.update s.held op.owner buf⟩

/-- Where a buffer can be. -/
inductive Place where
  | held (who : Owner)
  | free (index : Nat)

def At (s : Buffers) (a : Nat) : Place → Prop
  | .held who => s.held who = some a
  | .free index => ∃ xs, Path s.memory.next (s.memory.pool index) xs ∧ a ∈ xs

/-- The pool is in order. -/
structure Sound (s : Buffers) : Prop where
  /-- Every buffer is with one object or in one free list. -/
  place : ∀ a < s.memory.nodes.length, ∃! place, s.At a place
  created : ∀ who a, s.held who = some a → a < s.memory.nodes.length
  acyclic : ∀ index, ∃ xs, Path s.memory.next (s.memory.pool index) xs ∧ xs.Nodup
  empty : ∀ index a, s.At a (.free index) → ∃ node, s.memory.nodes[a]? = some node ∧
    node.buf.capacity = index ∧ node.buf.length = 0 ∧ node.buf.head = 0
  /-- The null pointer is the answer to more than 8 MB and to nothing else. -/
  refused : ∀ N, (∃ m, s.memory.allocBuf N = .ok (none, m)) ↔ (m8M : Int) < N
  /-- Up to 8 MB there is a buffer, or the program ends. -/
  granted : ∀ N, N ≤ (m8M : Int) → ∃ index, BufPool.sizeClass N.toNat = some index ∧
    ((∃ a m, s.memory.allocBuf N = .ok (some a, m)) ↔ ¬ s.memory.Exhausted index) ∧
    (s.memory.allocBuf N = .error .exit ↔ s.memory.Exhausted index)
  served : ∀ N a m, s.memory.allocBuf N = .ok (some a, m) → ∃ node, m.nodes[a]? = some node ∧
    node.buf.length = 0 ∧ node.buf.head = 0 ∧ node.buf.capacity ∈ sizes ∧
    N ≤ node.buf.capacity ∧ ∀ c ∈ sizes, N ≤ c → node.buf.capacity ≤ c
  total : s.memory.totalMem = (s.memory.nodes.map fun node => node.buf.capacity / 1024).sum
  limit : s.memory.totalMem < memLimit

/-- Everything that some object holds. -/
def inUse (s : Buffers) : Set Nat := { a | ∃ who, s.held who = some a }

/-- What the objects other than `who` hold. -/
def others (s : Buffers) (who : Owner) : Set Nat :=
  { a | ∃ other, other ≠ who ∧ s.held other = some a }

/-- No buffer has two holders, and the free lists have the rest. -/
structure Apart (s : Buffers) : Prop where
  alone : ∀ who other a, s.held who = some a → s.held other = some a → who = other
  accounted : ∃ free, s.memory.Accounted free s.inUse

theorem inUse_eq (s : Buffers) (who : Owner) : s.inUse =
    match s.held who with
    | none => s.others who
    | some a => insert a (s.others who) := by
  ext b
  have split : b ∈ s.inUse ↔ s.held who = some b ∨ b ∈ s.others who := by
    constructor
    · rintro ⟨other, holds⟩
      by_cases own : other = who
      · exact .inl (own ▸ holds)
      · exact .inr ⟨other, own, holds⟩
    · rintro (holds | ⟨other, -, holds⟩)
      · exact ⟨who, holds⟩
      · exact ⟨other, holds⟩
  rw [split]
  cases s.held who with
  | none => simp
  | some a => simp [eq_comm]

theorem Apart.owned {s : Buffers} (apart : s.Apart) (who : Owner) :
    s.memory.Owned (s.held who) (s.others who) := by
  obtain ⟨free, acc⟩ := apart.accounted
  rw [inUse_eq s who] at acc
  cases mine : s.held who with
  | none =>
    rw [mine] at acc
    exact ⟨free, acc⟩
  | some a =>
    rw [mine] at acc
    exact ⟨fun ⟨other, differs, holds⟩ => differs (apart.alone other who a holds mine), free, acc⟩

/-- The others keep what they have, and the caller has something that is not theirs. -/
theorem apart_of_owned {s : Buffers} {who : Owner} {m : Memory} {buf : Option Nat} (apart : s.Apart)
    (owned : m.Owned buf (s.others who)) : Apart ⟨m, Function.update s.held who buf⟩ := by
  have mine : Function.update s.held who buf who = buf := Function.update_self ..
  have same : Buffers.others ⟨m, Function.update s.held who buf⟩ who = s.others who := by
    ext a
    refine exists_congr fun other => and_congr_right fun differs => ?_
    change Function.update s.held who buf other = _ ↔ _
    rw [Function.update_of_ne differs]
  have foreign : ∀ a, buf = some a → a ∉ s.others who := by
    rintro a rfl
    exact owned.1
  constructor
  · -- of two holders one is the caller, or both held the buffer before
    intro first second a holds holds'
    dsimp only at holds holds'
    by_contra differs
    by_cases own : first = who
    · subst own
      rw [mine] at holds
      rw [Function.update_of_ne (Ne.symm differs)] at holds'
      exact foreign a holds ⟨second, Ne.symm differs, holds'⟩
    · rw [Function.update_of_ne own] at holds
      by_cases own' : second = who
      · subst own'
        rw [mine] at holds'
        exact foreign a holds' ⟨first, own, holds⟩
      · rw [Function.update_of_ne own'] at holds'
        exact differs (apart.alone first second a holds holds')
  · rw [inUse_eq _ who, same]
    dsimp only
    rw [mine]
    cases buf with
    | none => exact owned
    | some a => exact owned.2

theorem init_apart : init.Apart := by
  refine ⟨fun _ _ _ holds => absurd holds.symm (Option.some_ne_none _), ?_⟩
  rw [inUse_eq init (.input 0)]
  obtain ⟨free, acc⟩ := Memory.init_owned
  refine ⟨free, ?_⟩
  have none_held : init.others (.input 0) = ∅ :=
    Set.eq_empty_iff_forall_notMem.mpr fun _ ⟨_, _, holds⟩ => Option.some_ne_none _ holds.symm
  exact none_held ▸ acc

theorem Apart.sound {s : Buffers} (apart : s.Apart) : s.Sound := by
  obtain ⟨free, acc⟩ := apart.accounted
  have at_free : ∀ a index, s.At a (.free index) ↔ a ∈ free index := by
    intro a index
    constructor
    · rintro ⟨xs, path, member⟩
      exact path.unique (acc.linked index) ▸ member
    · exact fun member => ⟨_, acc.linked index, member⟩
  refine ⟨?_, fun who a holds => acc.valid a ⟨who, holds⟩,
    fun index => ⟨_, acc.linked index, (acc.linked index).nodup⟩, ?_,
    fun N => Memory.allocBuf_none_iff,
    fun N small => Memory.allocBuf_granted ⟨free, acc⟩ small, ?_, ?_, acc.limit⟩
  · -- a buffer in use is in no list, and a free one is in the list of its size only
    intro a bound
    by_cases used : a ∈ s.inUse
    · obtain ⟨who, holds⟩ := used
      refine ⟨.held who, holds, ?_⟩
      rintro (other | index) there
      · rw [apart.alone other who a there holds]
      · exact absurd ⟨who, holds⟩ (acc.empty index a ((at_free a index).mp there)).1
    · obtain ⟨index, member⟩ := acc.complete a bound used
      refine ⟨.free index, (at_free a index).mpr member, ?_⟩
      rintro (other | index') there
      · exact absurd ⟨other, there⟩ used
      · rw [acc.list_unique ((at_free a index').mp there) member]
  · intro index a there
    exact (acc.empty index a ((at_free a index).mp there)).2
  · intro N a m done
    obtain ⟨-, node, there, length, head, chosen⟩ := Memory.allocBuf_some ⟨free, acc⟩ done
    obtain ⟨fits, size, least⟩ := BufPool.sizeClass_least chosen
    refine ⟨node, there, length, head, size, by omega, fun c member above => ?_⟩
    exact least c member (by omega)
  · rw [acc.total, Memory.capacities, List.map_map]
    rfl

end Buffers

end Lars.Reactor
