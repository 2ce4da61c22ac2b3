import Lars.Base
import Mathlib.Data.Finset.Basic

/-!
# The event loop

`event_loop` keeps, for every descriptor it watches, a mask and one callback
slot for reading and one for writing. The kernel keeps its own mask per
descriptor, which `epoll_ctl` changes and which `close` drops.
-/
namespace Lars.Reactor

abbrev Mask := BitVec 32

def epollin : Mask := 0x001#32
def epollout : Mask := 0x004#32
def epollerr : Mask := 0x008#32
def epollhup : Mask := 0x010#32

/-- A condition is in a mask. -/
def Mask.Has (mask bits : Mask) : Prop := mask &&& bits ≠ 0#32

instance (mask bits : Mask) : Decidable (mask.Has bits) := inferInstanceAs (Decidable (_ ≠ _))

/-! ### The kernel's side -/

inductive EpollOp where
  | add
  | mod
  | del

structure Kernel where
  isOpen : Nat → Bool
  interest : Nat → Option Mask

namespace Kernel

/-- `epoll_ctl`; `none` is its failure. -/
def epollCtl (op : EpollOp) (fd : Nat) (events : Mask) (k : Kernel) : Option Kernel :=
  if k.isOpen fd then
    match op, k.interest fd with
    | .add, none => some { k with interest := Function.update k.interest fd (some events) }
    | .mod, some _ => some { k with interest := Function.update k.interest fd (some events) }
    | .del, some _ => some { k with interest := Function.update k.interest fd none }
    -- `EEXIST` and `ENOENT`
    | _, _ => none
  else none

/-- `socket` or `accept` returns a new descriptor. -/
def create (fd : Nat) (k : Kernel) : Kernel where
  isOpen := Function.update k.isOpen fd true
  interest := Function.update k.interest fd none

def close (fd : Nat) (k : Kernel) : Kernel where
  isOpen := Function.update k.isOpen fd false
  interest := Function.update k.interest fd none

end Kernel

/-! ### `event_loop` -/

variable {κ α : Type}

/-- `io_event`, over the callbacks and their arguments. -/
structure IoEvent (κ α : Type) where
  mask : Mask := 0#32
  readCallback : Option κ := none
  writeCallback : Option κ := none
  rcbArgs : Option α := none
  wcbArgs : Option α := none

structure EventLoop (κ α : Type) where
  ioEvs : Nat → Option (IoEvent κ α)
  listenFds : Finset Nat
  kernel : Kernel

namespace EventLoop

def addIoEvent (fd : Nat) (proc : κ) (mask : Mask) (args : α) (loop : EventLoop κ α) :
    EventLoop κ α :=
  let (op, finalMask) :=
    match loop.ioEvs fd with
    | none => (EpollOp.add, mask)
    | some ev => (EpollOp.mod, ev.mask ||| mask)
  -- `_io_evs[fd]` makes an empty event where there is none
  let ev := (loop.ioEvs fd).getD {}
  let ev :=
    if mask.Has epollin then { ev with readCallback := some proc, rcbArgs := some args }
    else if mask.Has epollout then { ev with writeCallback := some proc, wcbArgs := some args }
    else ev
  let ioEvs := Function.update loop.ioEvs fd (some { ev with mask := finalMask })
  match loop.kernel.epollCtl op fd finalMask with
  -- the table keeps its new entry, the descriptor does not join `listen_fds`
  | none => { loop with ioEvs := ioEvs }
  | some kernel => { ioEvs := ioEvs, listenFds := insert fd loop.listenFds, kernel := kernel }

/-- `del_io_event(fd)` -/
def delIoEvent (fd : Nat) (loop : EventLoop κ α) : EventLoop κ α where
  ioEvs := Function.update loop.ioEvs fd none
  listenFds := loop.listenFds.erase fd
  kernel := (loop.kernel.epollCtl .del fd 0#32).getD loop.kernel

/-- `del_io_event(fd, mask)` -/
def delIoEventMask (fd : Nat) (mask : Mask) (loop : EventLoop κ α) : EventLoop κ α :=
  match loop.ioEvs fd with
  | none => loop
  | some ev =>
    let oMask := ev.mask &&& ~~~mask
    let loop := { loop with ioEvs := Function.update loop.ioEvs fd (some { ev with mask := oMask }) }
    -- nothing is left to wait for
    if oMask = 0#32 then loop.delIoEvent fd
    else { loop with kernel := (loop.kernel.epollCtl .mod fd oMask).getD loop.kernel }

def close (fd : Nat) (loop : EventLoop κ α) : EventLoop κ α :=
  { loop with kernel := loop.kernel.close fd }

/-- What `event_process` does with one fired event: the callback it runs, if any. The iterator is
used without a test, and so are the callbacks of the first two branches. -/
def dispatch (fd : Nat) (events : Mask) (loop : EventLoop κ α) :
    Except Fault (Option (κ × Option α) × EventLoop κ α) :=
  match loop.ioEvs fd with
  | none => .error .nullDeref
  | some ev =>
    if events.Has epollin then
      match ev.readCallback with
      | none => .error .nullDeref
      | some proc => .ok (some (proc, ev.rcbArgs), loop)
    else if events.Has epollout then
      match ev.writeCallback with
      | none => .error .nullDeref
      | some proc => .ok (some (proc, ev.wcbArgs), loop)
    else if events.Has (epollhup ||| epollerr) then
      match ev.readCallback, ev.writeCallback with
      | some proc, _ => .ok (some (proc, ev.rcbArgs), loop)
      | none, some proc => .ok (some (proc, ev.wcbArgs), loop)
      | none, none => .ok (none, loop.delIoEvent fd)
    else .ok (none, loop)

end EventLoop

/-! ### Masks -/

theorem Mask.has_or {mask more bits : Mask} :
    (mask ||| more).Has bits ↔ mask.Has bits ∨ more.Has bits := by
  simp only [Mask.Has, ne_eq, BitVec.and_or_distrib_right, BitVec.or_eq_zero_iff]
  tauto

theorem Mask.not_has_and_not {mask bits : Mask} : ¬ (mask &&& ~~~bits).Has bits := by
  simp [Mask.Has, BitVec.and_assoc]

theorem Mask.has_and_not {mask less bits : Mask} (apart : ~~~less &&& bits = bits) :
    (mask &&& ~~~less).Has bits ↔ mask.Has bits := by
  simp only [Mask.Has, BitVec.and_assoc, apart]

/-! ### One descriptor of the loop -/

namespace EventLoop

variable {fd : Nat} {loop : EventLoop κ α}

/-- The descriptor is open, and the kernel watches it for what the table says. -/
structure InStep (fd : Nat) (loop : EventLoop κ α) : Prop where
  live : loop.kernel.isOpen fd = true
  masks : loop.kernel.interest fd = (loop.ioEvs fd).map IoEvent.mask

/-- The kernel reports the conditions `bits` of the descriptor. -/
def Watches (fd : Nat) (bits : Mask) (loop : EventLoop κ α) : Prop :=
  ∃ mask ∈ loop.kernel.interest fd, Mask.Has mask bits

/-- The callback that a writable descriptor runs. -/
def writer (fd : Nat) (loop : EventLoop κ α) : Option κ := (loop.ioEvs fd).bind IoEvent.writeCallback

def reader (fd : Nat) (loop : EventLoop κ α) : Option κ := (loop.ioEvs fd).bind IoEvent.readCallback

/-- A registration adds its conditions to those watched. -/
theorem InStep.addIoEvent (inStep : loop.InStep fd) (proc : κ) (mask : Mask) (args : α) :
    (loop.addIoEvent fd proc mask args).InStep fd ∧
      ∀ bits, (loop.addIoEvent fd proc mask args).Watches fd bits ↔
        loop.Watches fd bits ∨ mask.Has bits := by
  obtain ⟨live, masks⟩ := inStep
  -- kernel and table agree, so `EPOLL_CTL_ADD` and `EPOLL_CTL_MOD` are each used where they work
  cases entry : loop.ioEvs fd with
  | none =>
    rw [entry, Option.map_none] at masks
    have added : loop.kernel.epollCtl .add fd mask =
        some { loop.kernel with interest := Function.update loop.kernel.interest fd (some mask) } := by
      simp only [Kernel.epollCtl, live, ↓reduceIte, masks]
    refine ⟨⟨?_, ?_⟩, fun bits => ?_⟩
    · simpa only [EventLoop.addIoEvent, entry, added] using live
    · simp only [EventLoop.addIoEvent, entry, added, Function.update_self, Option.map_some]
    · simp [EventLoop.addIoEvent, Watches, entry, added, masks]
  | some ev =>
    rw [entry, Option.map_some] at masks
    have changed : loop.kernel.epollCtl .mod fd (ev.mask ||| mask) =
        some { loop.kernel with
          interest := Function.update loop.kernel.interest fd (some (ev.mask ||| mask)) } := by
      simp only [Kernel.epollCtl, live, ↓reduceIte, masks]
    refine ⟨⟨?_, ?_⟩, fun bits => ?_⟩
    · simpa only [EventLoop.addIoEvent, entry, changed] using live
    · simp only [EventLoop.addIoEvent, entry, changed, Function.update_self, Option.map_some]
    · simp [EventLoop.addIoEvent, Watches, entry, changed, masks, Mask.has_or]

/-- The table entry does not depend on what the kernel says. -/
theorem addIoEvent_entry (fd : Nat) (loop : EventLoop κ α) (proc : κ) (mask : Mask) (args : α) :
    ∃ finalMask, (loop.addIoEvent fd proc mask args).ioEvs fd =
      some { (if mask.Has epollin then
          { (loop.ioEvs fd).getD {} with readCallback := some proc, rcbArgs := some args }
        else if mask.Has epollout then
          { (loop.ioEvs fd).getD {} with writeCallback := some proc, wcbArgs := some args }
        else (loop.ioEvs fd).getD {}) with mask := finalMask } := by
  simp only [addIoEvent]
  split
  · exact ⟨_, Function.update_self ..⟩
  · exact ⟨_, Function.update_self ..⟩

@[simp] theorem writer_addIoEvent_out (proc : κ) (args : α) :
    (loop.addIoEvent fd proc epollout args).writer fd = some proc := by
  obtain ⟨mask, entry⟩ := addIoEvent_entry fd loop proc epollout args
  simp only [writer, entry]
  rfl

@[simp] theorem reader_addIoEvent_out (proc : κ) (args : α) :
    (loop.addIoEvent fd proc epollout args).reader fd = loop.reader fd := by
  obtain ⟨mask, entry⟩ := addIoEvent_entry fd loop proc epollout args
  simp only [reader, entry]
  cases loop.ioEvs fd <;> rfl

@[simp] theorem reader_addIoEvent_in (proc : κ) (args : α) :
    (loop.addIoEvent fd proc epollin args).reader fd = some proc := by
  obtain ⟨mask, entry⟩ := addIoEvent_entry fd loop proc epollin args
  simp only [reader, entry]
  rfl

@[simp] theorem writer_addIoEvent_in (proc : κ) (args : α) :
    (loop.addIoEvent fd proc epollin args).writer fd = loop.writer fd := by
  obtain ⟨mask, entry⟩ := addIoEvent_entry fd loop proc epollin args
  simp only [writer, entry]
  cases loop.ioEvs fd <;> rfl

theorem InStep.delIoEvent (inStep : loop.InStep fd) :
    (loop.delIoEvent fd).InStep fd ∧ ∀ bits, ¬ (loop.delIoEvent fd).Watches fd bits := by
  obtain ⟨live, masks⟩ := inStep
  have gone : ((loop.kernel.epollCtl .del fd 0#32).getD loop.kernel).interest fd = none ∧
      ((loop.kernel.epollCtl .del fd 0#32).getD loop.kernel).isOpen fd = true := by
    cases watched : loop.kernel.interest fd with
    | none => simp [Kernel.epollCtl, live, watched]
    | some mask => simp [Kernel.epollCtl, live, watched]
  refine ⟨⟨gone.2, ?_⟩, fun bits => ?_⟩
  · simp only [EventLoop.delIoEvent, gone.1, Function.update_self, Option.map_none]
  · rintro ⟨mask, watched, -⟩
    rw [show (loop.delIoEvent fd).kernel.interest fd = none from gone.1] at watched
    cases watched

/-- Where something else is still watched, removing a condition changes the masks only. -/
private theorem delIoEventMask_kept (inStep : loop.InStep fd) {ev : IoEvent κ α} {mask : Mask}
    (entry : loop.ioEvs fd = some ev) (left : ev.mask &&& ~~~mask ≠ 0#32) :
    loop.delIoEventMask fd mask =
      { ioEvs := Function.update loop.ioEvs fd (some { ev with mask := ev.mask &&& ~~~mask })
        listenFds := loop.listenFds
        kernel := { loop.kernel with
          interest := Function.update loop.kernel.interest fd (some (ev.mask &&& ~~~mask)) } } := by
  obtain ⟨live, masks⟩ := inStep
  rw [entry, Option.map_some] at masks
  simp only [delIoEventMask, entry, left, ↓reduceIte, Kernel.epollCtl, live, masks,
    Option.getD_some]

/-- Removing a condition leaves the others. -/
theorem InStep.delIoEventMask (inStep : loop.InStep fd) (mask : Mask) :
    (loop.delIoEventMask fd mask).InStep fd ∧ ¬ (loop.delIoEventMask fd mask).Watches fd mask ∧
      ∀ bits, ~~~mask &&& bits = bits →
        ((loop.delIoEventMask fd mask).Watches fd bits ↔ loop.Watches fd bits) := by
  have masks := inStep.masks
  cases entry : loop.ioEvs fd with
  | none =>
    rw [entry, Option.map_none] at masks
    have same : loop.delIoEventMask fd mask = loop := by simp only [EventLoop.delIoEventMask, entry]
    rw [same]
    exact ⟨inStep, by simp [Watches, masks], fun _ _ => Iff.rfl⟩
  | some ev =>
    rw [entry, Option.map_some] at masks
    by_cases left : ev.mask &&& ~~~mask = 0#32
    · -- nothing is left, and the whole entry goes
      have all : loop.delIoEventMask fd mask = loop.delIoEvent fd := by
        simp [EventLoop.delIoEventMask, entry, left, EventLoop.delIoEvent]
      rw [all]
      refine ⟨inStep.delIoEvent.1, inStep.delIoEvent.2 mask, fun bits apart => ?_⟩
      refine iff_of_false (inStep.delIoEvent.2 bits) ?_
      rintro ⟨old, watched, has⟩
      cases masks.symm.trans watched
      rw [← Mask.has_and_not apart, left] at has
      exact has (BitVec.zero_and)
    · -- the entry and the set of `epoll` both lose the bits of the mask and no others
      rw [delIoEventMask_kept inStep entry left]
      refine ⟨⟨inStep.live, ?_⟩, ?_, fun bits apart => ?_⟩
      · simp only [Function.update_self, Option.map_some]
      · simp [Watches, Mask.not_has_and_not]
      · simp [Watches, masks, Mask.has_and_not apart]

/-- The callback for reading stays as long as reading is watched for. -/
theorem reader_delIoEventMask (inStep : loop.InStep fd) (watched : loop.Watches fd epollin) :
    (loop.delIoEventMask fd epollout).reader fd = loop.reader fd := by
  obtain ⟨mask, member, has⟩ := watched
  cases entry : loop.ioEvs fd with
  | none =>
    rw [inStep.masks, entry] at member
    cases member
  | some ev =>
    rw [inStep.masks, entry] at member
    cases member
    -- with `EPOLLIN` in the mask, something is left and the entry stays
    have apart : ~~~epollout &&& epollin = epollin := by decide
    have left : ev.mask &&& ~~~epollout ≠ 0#32 := by
      intro none
      rw [← Mask.has_and_not apart, none] at has
      exact has (by decide)
    rw [delIoEventMask_kept inStep entry left]
    simp [reader, entry]

/-- A writable descriptor runs the callback of its slot. -/
theorem dispatch_writable {proc : κ} (slot : loop.writer fd = some proc) :
    ∃ args, loop.dispatch fd epollout = .ok (some (proc, args), loop) := by
  have noRead : ¬ epollout.Has epollin := by decide
  have canWrite : epollout.Has epollout := by decide
  cases entry : loop.ioEvs fd with
  | none => simp [writer, entry] at slot
  | some ev =>
    have callback : ev.writeCallback = some proc := by simpa [writer, entry] using slot
    exact ⟨ev.wcbArgs, by simp only [dispatch, entry, noRead, canWrite, ↓reduceIte, callback]⟩

end EventLoop

end Lars.Reactor
