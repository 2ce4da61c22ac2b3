import Lars.Lib.Run
import Lars.Reactor.EventLoop

/-!
# The event table and its dispatcher

A registration is kept three times: in `_io_evs`, in `listen_fds` and in the
kernel. While descriptors are taken out of the loop before they are closed, the
three agree. `event_process` then goes through the events that one `epoll_wait`
has reported, and the callbacks it runs change the table under it: what it needs
for the rest of the batch is that nobody else removes an entry.
-/
namespace Lars.Reactor

variable {κ α : Type}

/-- What callbacks, tasks and constructors do to a loop. -/
inductive LoopOp (κ α : Type) where
  | addIoEvent (fd : Nat) (proc : κ) (mask : Mask) (args : α)
  | delIoEvent (fd : Nat)
  | delIoEventMask (fd : Nat) (mask : Mask)
  /-- The kernel hands out a descriptor that is not in use. -/
  | create (fd : Nat)
  | close (fd : Nat)

/-- An event of a batch, with what its callback will do to the loop. -/
structure Fired (κ α : Type) where
  fd : Nat
  events : Mask
  ops : List (LoopOp κ α)

/-- Between two batches tasks and other code change the loop. -/
inductive LoopTurn (κ α : Type) where
  | op (op : LoopOp κ α)
  | batch (fired : List (Fired κ α))

/-- Something is waited for, it is reading or writing, and the callback for it is there. -/
structure IoEvent.Good (ev : IoEvent κ α) : Prop where
  some : ev.mask ≠ 0#32
  known : ev.mask &&& ~~~(epollin ||| epollout) = 0#32
  reads : ev.mask.Has epollin → ev.readCallback ≠ none
  writes : ev.mask.Has epollout → ev.writeCallback ≠ none

theorem Mask.has_of_and {mask less bits : Mask} (has : (mask &&& less).Has bits) :
    mask.Has bits := by
  intro zero
  apply has
  rw [BitVec.and_assoc, BitVec.and_comm less, ← BitVec.and_assoc, zero, BitVec.zero_and]

theorem Mask.eq_and_of_within {mask whole : Mask} (within : mask &&& ~~~whole = 0#32) :
    mask = mask &&& whole := by
  ext i bound
  have bit := congrArg (·[i]) within
  simp only [BitVec.getElem_and, BitVec.getElem_not, BitVec.getElem_zero] at bit ⊢
  cases inside : whole[i] with
  | false => simpa [inside] using bit
  | true => simp

/-- A condition that is reported is waited for, unless it is an error or a hang-up. -/
theorem Mask.has_of_within {events mask bits : Mask}
    (within : events &&& ~~~(mask ||| epollhup ||| epollerr) = 0#32) (has : events.Has bits)
    (apart : (epollhup ||| epollerr) &&& bits = 0#32) : mask.Has bits := by
  intro zero
  apply has
  rw [Mask.eq_and_of_within within, BitVec.and_assoc, BitVec.or_assoc, BitVec.and_or_distrib_right,
    zero, apart, BitVec.or_self, BitVec.and_zero]

/-- A mask of the two conditions that is not empty has one of them. -/
theorem Mask.has_one_of {mask : Mask} (some : mask ≠ 0#32)
    (known : mask &&& ~~~(epollin ||| epollout) = 0#32) : mask.Has epollin ∨ mask.Has epollout := by
  by_contra neither
  rw [not_or, Mask.Has, Mask.Has, not_not, not_not] at neither
  apply some
  rw [Mask.eq_and_of_within known, BitVec.and_or_distrib_left, neither.1, neither.2, BitVec.or_self]

/-- With fewer conditions an entry is still good, as long as one is left. -/
theorem IoEvent.Good.less {ev : IoEvent κ α} (good : ev.Good) {mask : Mask}
    (left : ev.mask &&& ~~~mask ≠ 0#32) : Good { ev with mask := ev.mask &&& ~~~mask } where
  some := left
  known := by
    change ev.mask &&& ~~~mask &&& _ = _
    rw [BitVec.and_assoc, BitVec.and_comm (~~~mask), ← BitVec.and_assoc, good.known,
      BitVec.zero_and]
  reads := fun has => good.reads (Mask.has_of_and has)
  writes := fun has => good.writes (Mask.has_of_and has)

namespace EventLoop

def apply (loop : EventLoop κ α) : LoopOp κ α → Except Fault (EventLoop κ α)
  | .addIoEvent fd proc mask args => .ok (loop.addIoEvent fd proc mask args)
  | .delIoEvent fd => .ok (loop.delIoEvent fd)
  | .delIoEventMask fd mask => .ok (loop.delIoEventMask fd mask)
  | .create fd => .ok { loop with kernel := loop.kernel.create fd }
  | .close fd => .ok (loop.close fd)

/-- One round of the loop over `_fired_evs`. -/
def processFired (loop : EventLoop κ α) (f : Fired κ α) : Except Fault (EventLoop κ α) :=
  match loop.dispatch f.fd f.events with
  | .error e => .error e
  | .ok (none, loop) => .ok loop
  | .ok (some _, loop) => Run.run apply loop f.ops

def turn (loop : EventLoop κ α) : LoopTurn κ α → Except Fault (EventLoop κ α)
  | .op op => loop.apply op
  | .batch fired => Run.run processFired loop fired

/-! ### What is asked of the callers and of the kernel -/

/-- A registration is for reading or for writing and on an open descriptor, so that `epoll_ctl`
succeeds; a new descriptor was not open; a descriptor is closed after it has left the loop. -/
def Proper (loop : EventLoop κ α) : LoopOp κ α → Prop
  | .addIoEvent fd _ mask _ => (mask = epollin ∨ mask = epollout) ∧ loop.kernel.isOpen fd = true
  | .delIoEvent _ | .delIoEventMask _ _ => True
  | .create fd => loop.kernel.isOpen fd = false
  | .close fd => loop.ioEvs fd = none

/-- No entry but that of `own` is removed, neither at once nor with its last condition. -/
def Spares (own : Nat) (loop : EventLoop κ α) : LoopOp κ α → Prop
  | .delIoEvent fd => fd = own ∨ loop.ioEvs fd = none
  | .delIoEventMask fd mask =>
    fd = own ∨ ∀ ev, loop.ioEvs fd = some ev → ev.mask &&& ~~~mask ≠ 0#32
  | .addIoEvent .. | .create _ | .close _ => True

/-- `epoll_wait` reports what is waited for, errors and hang-ups. -/
def Reported (loop : EventLoop κ α) (f : Fired κ α) : Prop :=
  ∃ mask, loop.kernel.interest f.fd = some mask ∧
    f.events &&& ~~~(mask ||| epollhup ||| epollerr) = 0#32

/-- A batch names registered descriptors, each once, and its callbacks spare the others. -/
def TurnRule (loop : EventLoop κ α) : LoopTurn κ α → Prop
  | .op op => loop.Proper op
  | .batch fired =>
    (fired.map Fired.fd).Nodup ∧ (∀ f ∈ fired, loop.Reported f) ∧
      Run.Guarded processFired (fun loop f =>
        Run.Guarded apply (fun loop op => loop.Proper op ∧ loop.Spares f.fd op) loop f.ops)
        loop fired

/-! ### The invariant -/

/-- Table, `listen_fds` and kernel say the same of one descriptor, and it is open if it is in
them. -/
structure AgreeOn (fd : Nat) (loop : EventLoop κ α) : Prop where
  listed : fd ∈ loop.listenFds ↔ (loop.ioEvs fd).isSome = true
  masks : loop.kernel.interest fd = (loop.ioEvs fd).map IoEvent.mask
  live : (loop.ioEvs fd).isSome = true → loop.kernel.isOpen fd = true
  good : ∀ ev, loop.ioEvs fd = some ev → ev.Good

def Consistent (loop : EventLoop κ α) : Prop := ∀ fd, loop.AgreeOn fd

/-- The constructor, with whatever descriptors are open. -/
def init (isOpen : Nat → Bool) : EventLoop κ α := ⟨fun _ => none, ∅, ⟨isOpen, fun _ => none⟩⟩

theorem init_consistent (isOpen : Nat → Bool) : (init isOpen : EventLoop κ α).Consistent :=
  fun fd => ⟨by simp [init], by simp [init], by simp [init], by simp [init]⟩

/-- The entry of a descriptor changed in all three places. -/
def setEntry (fd : Nat) (entry : Option (IoEvent κ α)) (loop : EventLoop κ α) : EventLoop κ α where
  ioEvs := Function.update loop.ioEvs fd entry
  listenFds := if entry.isSome then insert fd loop.listenFds else loop.listenFds.erase fd
  kernel := { loop.kernel with
    interest := Function.update loop.kernel.interest fd (entry.map IoEvent.mask) }

variable {loop loop' : EventLoop κ α} {fd : Nat}

@[simp] theorem setEntry_ioEvs {entry : Option (IoEvent κ α)} :
    (loop.setEntry fd entry).ioEvs fd = entry := Function.update_self ..

@[simp] theorem setEntry_interest {entry : Option (IoEvent κ α)} :
    (loop.setEntry fd entry).kernel.interest fd = entry.map IoEvent.mask := Function.update_self ..

@[simp] theorem mem_setEntry_listenFds {entry : Option (IoEvent κ α)} :
    fd ∈ (loop.setEntry fd entry).listenFds ↔ entry.isSome = true := by
  cases entry with
  | none => simp [setEntry]
  | some ev => simp [setEntry]

theorem Consistent.setEntry (consistent : loop.Consistent) {entry : Option (IoEvent κ α)}
    (good : ∀ ev, entry = some ev → ev.Good ∧ loop.kernel.isOpen fd = true) :
    (loop.setEntry fd entry).Consistent := by
  intro g
  by_cases same : g = fd
  · subst same
    constructor
    · rw [mem_setEntry_listenFds, setEntry_ioEvs]
    · rw [setEntry_interest, setEntry_ioEvs]
    · rw [setEntry_ioEvs]
      intro present
      obtain ⟨ev, entry⟩ := Option.isSome_iff_exists.mp present
      exact (good ev entry).2
    · rw [setEntry_ioEvs]
      exact fun ev entry => (good ev entry).1
  · -- the other descriptors are not touched
    have table : (loop.setEntry fd entry).ioEvs g = loop.ioEvs g := Function.update_of_ne same ..
    have watched : (loop.setEntry fd entry).kernel.interest g = loop.kernel.interest g :=
      Function.update_of_ne same ..
    have listed : g ∈ (loop.setEntry fd entry).listenFds ↔ g ∈ loop.listenFds := by
      simp only [EventLoop.setEntry]
      split <;> simp [same]
    obtain ⟨first, second, third, fourth⟩ := consistent g
    constructor
    · rw [listed, table, first]
    · rw [watched, table, second]
    · rwa [table]
    · rwa [table]

/-! ### One operation -/

/-- The entry that a registration makes. -/
def registered (proc : κ) (mask : Mask) (args : α) (entry : Option (IoEvent κ α)) : IoEvent κ α :=
  let ev := entry.getD {}
  let ev :=
    if mask.Has epollin then { ev with readCallback := some proc, rcbArgs := some args }
    else if mask.Has epollout then { ev with writeCallback := some proc, wcbArgs := some args }
    else ev
  { ev with mask := ev.mask ||| mask }

theorem Consistent.addIoEvent_eq (consistent : loop.Consistent)
    (isOpen : loop.kernel.isOpen fd = true) (proc : κ) (mask : Mask) (args : α) :
    loop.addIoEvent fd proc mask args =
      loop.setEntry fd (some (registered proc mask args (loop.ioEvs fd))) := by
  have masks := (consistent fd).masks
  cases entry : loop.ioEvs fd with
  | none =>
    -- no entry on either side, so `EPOLL_CTL_ADD` succeeds
    rw [entry, Option.map_none] at masks
    simp only [addIoEvent, entry, Kernel.epollCtl, isOpen, ↓reduceIte, masks, registered,
      Option.getD_none]
    split_ifs <;> simp [EventLoop.setEntry]
  | some ev =>
    -- an entry on both sides, so `EPOLL_CTL_MOD` does
    rw [entry, Option.map_some] at masks
    simp only [addIoEvent, entry, Kernel.epollCtl, isOpen, ↓reduceIte, masks, registered,
      Option.getD_some]
    split_ifs <;> rfl

/-- An entry that had a callback for each of its conditions has one for the new condition too. -/
theorem good_registered {entry : Option (IoEvent κ α)} (old : ∀ ev, entry = some ev → ev.Good)
    (proc : κ) {mask : Mask} (args : α) (single : mask = epollin ∨ mask = epollout) :
    (registered proc mask args entry).Good := by
  have inNotOut : ¬ epollin.Has epollout := by decide
  have outNotIn : ¬ epollout.Has epollin := by decide
  have slots : ((entry.getD {}).mask.Has epollin → (entry.getD {}).readCallback ≠ none) ∧
      ((entry.getD {}).mask.Has epollout → (entry.getD {}).writeCallback ≠ none) ∧
      (entry.getD {}).mask &&& ~~~(epollin ||| epollout) = 0#32 := by
    cases entry with
    | none =>
      exact ⟨fun has => absurd BitVec.zero_and has, fun has => absurd BitVec.zero_and has,
        BitVec.zero_and⟩
    | some ev => exact ⟨(old ev rfl).reads, (old ev rfl).writes, (old ev rfl).known⟩
  obtain ⟨reads, writes, known⟩ := slots
  -- the slot of the new condition has just been filled, the other was right before
  rcases single with rfl | rfl
  · simp only [registered, show epollin.Has epollin by decide, ↓reduceIte]
    refine ⟨fun zero => ?_, ?_, fun _ => by simp, fun has => ?_⟩
    · exact absurd (BitVec.or_eq_zero_iff.mp zero).2 (by decide)
    · rw [BitVec.and_or_distrib_right, known]
      decide
    · exact writes ((Mask.has_or.mp has).resolve_right inNotOut)
  · simp only [registered, outNotIn, show epollout.Has epollout by decide, ↓reduceIte]
    refine ⟨fun zero => ?_, ?_, fun has => ?_, fun _ => by simp⟩
    · exact absurd (BitVec.or_eq_zero_iff.mp zero).2 (by decide)
    · rw [BitVec.and_or_distrib_right, known]
      decide
    · exact reads ((Mask.has_or.mp has).resolve_right outNotIn)

theorem Consistent.delIoEvent_eq (consistent : loop.Consistent) (fd : Nat) :
    loop.delIoEvent fd = loop.setEntry fd none := by
  obtain ⟨-, masks, live, -⟩ := consistent fd
  cases entry : loop.ioEvs fd with
  | none =>
    -- the kernel has nothing to remove, and refuses
    rw [entry, Option.map_none] at masks
    have same : Function.update loop.kernel.interest fd none = loop.kernel.interest := by
      rw [← masks, Function.update_eq_self]
    have refused : loop.kernel.epollCtl .del fd 0#32 = none := by
      simp only [Kernel.epollCtl, masks]
      split <;> rfl
    simp only [delIoEvent, refused, Option.getD_none, EventLoop.setEntry, Option.map_none, same]
    rfl
  | some ev =>
    rw [entry, Option.map_some] at masks
    simp only [delIoEvent, Kernel.epollCtl, live (by rw [entry]; rfl), ↓reduceIte, masks,
      Option.getD_some, EventLoop.setEntry, Option.map_none]
    rfl

/-- Taking conditions off an entry leaves the callbacks. -/
theorem Consistent.delIoEventMask_cases (consistent : loop.Consistent) (fd : Nat) (mask : Mask) :
    (loop.ioEvs fd = none ∧ loop.delIoEventMask fd mask = loop) ∨
      ∃ ev, loop.ioEvs fd = some ev ∧
        (ev.mask &&& ~~~mask = 0#32 ∧ loop.delIoEventMask fd mask = loop.setEntry fd none ∨
          ev.mask &&& ~~~mask ≠ 0#32 ∧
            loop.delIoEventMask fd mask =
              loop.setEntry fd (some { ev with mask := ev.mask &&& ~~~mask })) := by
  obtain ⟨listed, masks, live, -⟩ := consistent fd
  cases entry : loop.ioEvs fd with
  | none => exact .inl ⟨rfl, by simp only [delIoEventMask, entry]⟩
  | some ev =>
    refine .inr ⟨ev, rfl, ?_⟩
    by_cases left : ev.mask &&& ~~~mask = 0#32
    · refine .inl ⟨left, ?_⟩
      rw [← consistent.delIoEvent_eq]
      simp [delIoEventMask, entry, left, delIoEvent]
    · refine .inr ⟨left, ?_⟩
      have member : fd ∈ loop.listenFds := listed.mpr (by rw [entry]; rfl)
      rw [entry, Option.map_some] at masks
      simp only [delIoEventMask, entry, left, ↓reduceIte, Kernel.epollCtl,
        live (by rw [entry]; rfl), masks, Option.getD_some, EventLoop.setEntry,
        Option.isSome_some, Finset.insert_eq_of_mem member, Option.map_some]

/-- The kernel opens or closes a descriptor that is not in the table. -/
theorem Consistent.reopen (consistent : loop.Consistent) (absent : loop.ioEvs fd = none)
    {kernel : Kernel} (unwatched : kernel.interest fd = none)
    (others : ∀ g, g ≠ fd → kernel.interest g = loop.kernel.interest g ∧
      kernel.isOpen g = loop.kernel.isOpen g) : Consistent { loop with kernel := kernel } := by
  intro g
  obtain ⟨listed, masks, live, good⟩ := consistent g
  by_cases same : g = fd
  · subst same
    constructor
    case listed => exact listed
    case masks => rw [unwatched, absent, Option.map_none]
    case live => simp [absent]
    case good => exact good
  · obtain ⟨interest, isOpen⟩ := others g same
    constructor
    case listed => exact listed
    case masks => rw [interest, masks]
    case live => rwa [isOpen]
    case good => exact good

theorem apply_consistent (consistent : loop.Consistent) {op : LoopOp κ α}
    (proper : loop.Proper op) : ∃ loop', loop.apply op = .ok loop' ∧ loop'.Consistent := by
  cases op with
  | addIoEvent fd proc mask args =>
    obtain ⟨single, isOpen⟩ := proper
    refine ⟨_, rfl, ?_⟩
    rw [consistent.addIoEvent_eq isOpen]
    refine consistent.setEntry fun ev same => ?_
    cases same
    exact ⟨good_registered (consistent fd).good proc args single, isOpen⟩
  | delIoEvent fd =>
    refine ⟨_, rfl, ?_⟩
    rw [consistent.delIoEvent_eq]
    exact consistent.setEntry fun ev same => by cases same
  | delIoEventMask fd mask =>
    refine ⟨_, rfl, ?_⟩
    rcases consistent.delIoEventMask_cases fd mask with
      ⟨-, same⟩ | ⟨ev, entry, ⟨-, gone⟩ | ⟨left, less⟩⟩
    · rw [same]
      exact consistent
    · rw [gone]
      exact consistent.setEntry fun ev same => by cases same
    · rw [less]
      refine consistent.setEntry fun ev' same => ?_
      cases same
      exact ⟨((consistent fd).good ev entry).less left,
        (consistent fd).live (by rw [entry]; rfl)⟩
  | create fd =>
    -- a descriptor that was not open had no entry
    have absent : loop.ioEvs fd = none := by
      by_contra present
      have isOpen := (consistent fd).live (Option.isSome_iff_ne_none.mpr present)
      rw [show loop.kernel.isOpen fd = false from proper] at isOpen
      cases isOpen
    refine ⟨_, rfl, consistent.reopen absent ?_ fun g other => ?_⟩
    · simp [Kernel.create]
    · simp [Kernel.create, other]
  | close fd =>
    refine ⟨_, rfl, consistent.reopen proper ?_ fun g other => ?_⟩
    · simp [Kernel.close]
    · simp [Kernel.close, other]

/-! ### A batch -/

/-- The dispatcher has an entry for the event, and whatever branch it takes finds a callback. -/
def Ready (f : Fired κ α) (loop : EventLoop κ α) : Prop :=
  ∃ ev, loop.ioEvs f.fd = some ev ∧ (f.events.Has epollin → ev.readCallback ≠ none) ∧
    (f.events.Has epollout → ev.writeCallback ≠ none) ∧
    (ev.readCallback ≠ none ∨ ev.writeCallback ≠ none)

theorem Consistent.ready (consistent : loop.Consistent) {f : Fired κ α}
    (reported : loop.Reported f) : loop.Ready f := by
  obtain ⟨mask, watched, within⟩ := reported
  obtain ⟨-, masks, -, good⟩ := consistent f.fd
  cases entry : loop.ioEvs f.fd with
  | none =>
    rw [entry, watched] at masks
    cases masks
  | some ev =>
    rw [entry, watched] at masks
    cases masks
    have well := good ev entry
    refine ⟨ev, entry, fun has => well.reads ?_, fun has => well.writes ?_, ?_⟩
    · exact Mask.has_of_within within has (by decide)
    · exact Mask.has_of_within within has (by decide)
    · rcases Mask.has_one_of well.some well.known with reads | writes
      · exact .inl (well.reads reads)
      · exact .inr (well.writes writes)

/-- The dispatcher runs a callback or does nothing; it removes no entry itself. -/
theorem Ready.dispatch {f : Fired κ α} (ready : loop.Ready f) :
    ∃ called, loop.dispatch f.fd f.events = .ok (called, loop) := by
  obtain ⟨ev, entry, reads, writes, either⟩ := ready
  simp only [EventLoop.dispatch, entry]
  split
  next has =>
    obtain ⟨proc, slot⟩ := Option.ne_none_iff_exists'.mp (reads has)
    exact ⟨some (proc, ev.rcbArgs), by rw [slot]⟩
  next =>
    split
    next has =>
      obtain ⟨proc, slot⟩ := Option.ne_none_iff_exists'.mp (writes has)
      exact ⟨some (proc, ev.wcbArgs), by rw [slot]⟩
    next =>
      -- an error or a hang-up goes to the reading callback first
      split
      · cases reader : ev.readCallback with
        | some proc => exact ⟨_, rfl⟩
        | none =>
          obtain ⟨proc, slot⟩ :=
            Option.ne_none_iff_exists'.mp (either.resolve_left (by simp [reader]))
          exact ⟨some (proc, ev.wcbArgs), by rw [slot]⟩
      · exact ⟨none, rfl⟩

/-- An entry stays ready if no slot is emptied. -/
theorem Ready.setEntry {f : Fired κ α} (ready : loop.Ready f) {entry : Option (IoEvent κ α)}
    (fuller : f.fd = fd → ∀ ev, loop.ioEvs fd = some ev → ∃ ev', entry = some ev' ∧
      (ev.readCallback ≠ none → ev'.readCallback ≠ none) ∧
      (ev.writeCallback ≠ none → ev'.writeCallback ≠ none)) : (loop.setEntry fd entry).Ready f := by
  obtain ⟨ev, found, reads, writes, either⟩ := ready
  by_cases same : f.fd = fd
  · subst same
    obtain ⟨ev', rfl, read, write⟩ := fuller rfl ev found
    exact ⟨ev', Function.update_self .., fun has => read (reads has), fun has => write (writes has),
      either.imp read write⟩
  · exact ⟨ev, (Function.update_of_ne same ..).trans found, reads, writes, either⟩

/-- What a callback for another descriptor does leaves the entry, and it never empties a slot. -/
theorem Ready.apply (consistent : loop.Consistent) {f : Fired κ α} (ready : loop.Ready f)
    {own : Nat} (other : f.fd ≠ own) {op : LoopOp κ α} (proper : loop.Proper op)
    (spares : loop.Spares own op) (taken : loop.apply op = .ok loop') : loop'.Ready f := by
  cases op with
  | addIoEvent fd proc mask args =>
    cases taken
    rw [consistent.addIoEvent_eq proper.2]
    refine ready.setEntry fun _ ev found => ⟨_, rfl, ?_⟩
    simp only [registered, found, Option.getD_some]
    split_ifs <;> simp
  | delIoEvent fd =>
    cases taken
    rw [consistent.delIoEvent_eq]
    refine ready.setEntry fun same ev found => ?_
    rcases spares with mine | absent
    · exact absurd (same.trans mine) other
    · rw [absent] at found
      cases found
  | delIoEventMask fd mask =>
    cases taken
    rcases consistent.delIoEventMask_cases fd mask with
      ⟨-, same⟩ | ⟨ev, entry, ⟨zero, gone⟩ | ⟨-, less⟩⟩
    · rwa [same]
    · -- the last condition of another descriptor may not go
      rw [gone]
      refine ready.setEntry fun same ev' found => ?_
      rcases spares with mine | left
      · exact absurd (same.trans mine) other
      · exact absurd zero (left ev entry)
    · rw [less]
      refine ready.setEntry fun _ ev' found => ⟨_, rfl, ?_⟩
      rw [entry] at found
      cases found
      exact ⟨id, id⟩
  | create fd =>
    cases taken
    exact ready
  | close fd =>
    cases taken
    exact ready

/-- A whole callback. -/
theorem processFired_ready (consistent : loop.Consistent) {f : Fired κ α} (ready : loop.Ready f)
    {later : List (Fired κ α)} (others : ∀ g ∈ later, g.fd ≠ f.fd ∧ loop.Ready g)
    (polite : Run.Guarded apply (fun loop op => loop.Proper op ∧ loop.Spares f.fd op) loop f.ops) :
    ∃ loop', loop.processFired f = .ok loop' ∧ loop'.Consistent ∧ ∀ g ∈ later, loop'.Ready g := by
  obtain ⟨called, dispatched⟩ := ready.dispatch
  cases called with
  | none =>
    exact ⟨loop, by simp only [processFired, dispatched], consistent, fun g member =>
      (others g member).2⟩
  | some callback =>
    -- whatever the callback does, the events behind its own stay ready
    have progress : ∀ (s : EventLoop κ α) op,
        (s.Consistent ∧ ∀ g ∈ later, s.Ready g) → s.Proper op ∧ s.Spares f.fd op →
          ∃ t, s.apply op = .ok t ∧ t.Consistent ∧ ∀ g ∈ later, t.Ready g := by
      rintro s op ⟨sound, still⟩ ⟨proper, spares⟩
      obtain ⟨t, taken, sound'⟩ := apply_consistent sound proper
      exact ⟨t, taken, sound', fun g member =>
        Ready.apply sound (still g member) (others g member).1 proper spares taken⟩
    obtain ⟨t, done, sound, still⟩ := Run.run_ok_of_guarded progress
      ⟨consistent, fun g member => (others g member).2⟩ polite
    exact ⟨t, by simp only [processFired, dispatched, done], sound, still⟩

/-- The batch: the induction carries that every event still to come is ready. -/
theorem batch_ready {fired : List (Fired κ α)} (consistent : loop.Consistent)
    (distinct : (fired.map Fired.fd).Nodup) (ready : ∀ f ∈ fired, loop.Ready f)
    (polite : Run.Guarded processFired (fun loop f =>
      Run.Guarded apply (fun loop op => loop.Proper op ∧ loop.Spares f.fd op) loop f.ops)
      loop fired) :
    ∃ loop', Run.run processFired loop fired = .ok loop' ∧ loop'.Consistent := by
  induction fired generalizing loop with
  | nil => exact ⟨loop, rfl, consistent⟩
  | cons f later ih =>
    rw [List.map_cons, List.nodup_cons] at distinct
    have others : ∀ g ∈ later, g.fd ≠ f.fd ∧ loop.Ready g := by
      intro g member
      refine ⟨fun same => distinct.1 ?_, ready g (List.mem_cons_of_mem f member)⟩
      rw [← same]
      exact List.mem_map_of_mem member
    obtain ⟨mid, taken, sound, still⟩ :=
      processFired_ready consistent (ready f List.mem_cons_self) others polite.1
    obtain ⟨last, done, final⟩ := ih sound distinct.2 still (polite.2 mid taken)
    exact ⟨last, by rw [Run.run_cons_ok later taken]; exact done, final⟩

theorem turn_consistent (consistent : loop.Consistent) {t : LoopTurn κ α} (rule : loop.TurnRule t) :
    ∃ loop', loop.turn t = .ok loop' ∧ loop'.Consistent := by
  cases t with
  | op op => exact apply_consistent consistent rule
  | batch fired =>
    obtain ⟨distinct, reported, polite⟩ := rule
    exact batch_ready consistent distinct (fun f member => consistent.ready (reported f member))
      polite

/-- In every run of registrations, deletions and batches the three views of the table agree, every
mask is non-empty and has its callbacks, and no batch meets a missing entry or a null callback. -/
theorem eventTable_consistent (isOpen : Nat → Bool) {turns : List (LoopTurn κ α)}
    (rules : Run.Guarded turn TurnRule (init isOpen) turns) {sofar : List (LoopTurn κ α)}
    (part : sofar <+: turns) :
    ∃ loop, Run.run turn (init isOpen) sofar = .ok loop ∧
      (∀ fd, fd ∈ loop.listenFds ↔ (loop.ioEvs fd).isSome = true) ∧
      (∀ fd, loop.kernel.interest fd = (loop.ioEvs fd).map IoEvent.mask) ∧
      (∀ fd ev, loop.ioEvs fd = some ev → ev.Good) ∧
      ∀ fired, loop.TurnRule (.batch fired) →
        ∃ loop', Run.run processFired loop fired = .ok loop' := by
  obtain ⟨rest, rfl⟩ := part
  obtain ⟨loop, done, consistent⟩ :=
    Run.run_ok_of_guarded (fun _ _ sound rule => turn_consistent sound rule)
      (init_consistent isOpen) rules.left
  refine ⟨loop, done, fun fd => (consistent fd).listed, fun fd => (consistent fd).masks,
    fun fd => (consistent fd).good, fun fired rule => ?_⟩
  obtain ⟨loop', processed, -⟩ := turn_consistent consistent rule
  exact ⟨loop', processed⟩

private def someTurns : List (LoopTurn Nat Unit) :=
  [.op (.create 5), .op (.addIoEvent 5 1 epollin ()), .op (.create 6),
    .op (.addIoEvent 6 2 epollout ()), .op (.addIoEvent 6 3 epollin ()),
    .batch [⟨5, epollin, [.delIoEventMask 6 epollin, .delIoEvent 5, .close 5]⟩,
      ⟨6, epollin ||| epollhup, [.delIoEventMask 6 epollout]⟩]]

/-- The first callback leaves the loop and stops another descriptor's reading, whose event is the
next of the batch. -/
theorem eventTable_consistent_batch :
    ∃ loop : EventLoop Nat Unit, Run.run turn (init fun _ => false) someTurns = .ok loop ∧
      (∀ fd, fd ∈ loop.listenFds ↔ (loop.ioEvs fd).isSome = true) := by
  have rules : Run.Guarded turn TurnRule (init fun _ => false) someTurns := by
    refine ⟨rfl, fun _ done₁ => ?_⟩
    cases done₁
    refine ⟨⟨.inl rfl, rfl⟩, fun _ done₂ => ?_⟩
    cases done₂
    refine ⟨rfl, fun _ done₃ => ?_⟩
    cases done₃
    refine ⟨⟨.inr rfl, rfl⟩, fun _ done₄ => ?_⟩
    cases done₄
    refine ⟨⟨.inl rfl, rfl⟩, fun _ done₅ => ?_⟩
    cases done₅
    refine ⟨⟨by decide, ?_, ?_⟩, fun _ _ => trivial⟩
    · intro f member
      simp only [List.mem_cons, List.not_mem_nil, or_false] at member
      rcases member with rfl | rfl
      · exact ⟨epollin, rfl, by decide⟩
      · exact ⟨epollout ||| epollin, rfl, by decide⟩
    · refine ⟨?_, fun _ done₆ => ?_⟩
      · refine ⟨⟨trivial, .inr fun ev found => ?_⟩, fun _ done₇ => ?_⟩
        · cases found
          decide
        cases done₇
        refine ⟨⟨trivial, .inl rfl⟩, fun _ done₈ => ?_⟩
        cases done₈
        exact ⟨⟨rfl, trivial⟩, fun _ _ => trivial⟩
      cases done₆
      exact ⟨⟨⟨trivial, .inl rfl⟩, fun _ _ => trivial⟩, fun _ _ => trivial⟩
  obtain ⟨loop, done, listed, -⟩ := eventTable_consistent _ rules (List.prefix_refl _)
  exact ⟨loop, done, listed⟩

end EventLoop

end Lars.Reactor
