import Lars.Reactor.EventTable

/-!
# Registrations that fail

`add_io_event` writes the table before it calls `epoll_ctl` and does not take
the entry back when the call fails. The table decides between `EPOLL_CTL_ADD`
and `EPOLL_CTL_MOD`, so an entry that stays behind makes the kernel refuse the
next descriptor of that number.
-/
namespace Lars.Reactor

variable {κ α : Type}

namespace EventLoop

variable {fd : Nat} {loop : EventLoop κ α}

/-- What `add_io_event` asks `epoll_ctl` for. -/
def issued (fd : Nat) (mask : Mask) (loop : EventLoop κ α) : EpollOp × Mask :=
  match loop.ioEvs fd with
  | none => (.add, mask)
  | some ev => (.mod, ev.mask ||| mask)

/-- `add_io_event` whatever `epoll_ctl` answers; it may also fail for reasons the kernel of the
model does not have. -/
def addIoEventOn (answer : Option Kernel) (fd : Nat) (proc : κ) (mask : Mask) (args : α)
    (loop : EventLoop κ α) : EventLoop κ α :=
  let ioEvs := Function.update loop.ioEvs fd (some (registered proc mask args (loop.ioEvs fd)))
  match answer with
  | none => { loop with ioEvs := ioEvs }
  | some kernel => { ioEvs := ioEvs, listenFds := insert fd loop.listenFds, kernel := kernel }

theorem addIoEvent_eq_on (proc : κ) (mask : Mask) (args : α) :
    loop.addIoEvent fd proc mask args =
      loop.addIoEventOn
        (loop.kernel.epollCtl (loop.issued fd mask).1 fd (loop.issued fd mask).2)
        fd proc mask args := by
  cases entry : loop.ioEvs fd with
  | none =>
    cases answer : loop.kernel.epollCtl .add fd mask <;>
      simp only [addIoEvent, addIoEventOn, issued, registered, entry, Option.getD_none, answer] <;>
      -- the mask of an empty event adds nothing
      split_ifs <;> simp only [BitVec.zero_or]
  | some ev =>
    simp only [addIoEvent, addIoEventOn, issued, registered, entry, Option.getD_some]
    split_ifs <;> rfl

/-- The call has left table and set as they were, so that a descriptor which had no entry is still
one to be added. -/
structure NoTrace (fd : Nat) (before after : EventLoop κ α) : Prop where
  ioEvs : after.ioEvs = before.ioEvs
  listenFds : after.listenFds = before.listenFds
  adds : before.ioEvs fd = none → ∀ mask, (after.issued fd mask).1 = .add

/-- The entry is what the registration would make of it: its conditions are waited for and its
callback is in the slot it goes to. -/
def Carries (ev : IoEvent κ α) (proc : κ) (mask : Mask) (args : α) : Prop :=
  ev.mask ||| mask = ev.mask ∧
    if mask.Has epollin then ev.readCallback = some proc ∧ ev.rcbArgs = some args
    else mask.Has epollout → ev.writeCallback = some proc ∧ ev.wcbArgs = some args

theorem registered_eq_self {ev : IoEvent κ α} {proc : κ} {mask : Mask} {args : α} :
    registered proc mask args (some ev) = ev ↔ Carries ev proc mask args := by
  obtain ⟨evMask, readCallback, writeCallback, rcbArgs, wcbArgs⟩ := ev
  simp only [registered, Carries, Option.getD_some]
  by_cases reads : mask.Has epollin
  · simp [reads]
    tauto
  · by_cases writes : mask.Has epollout
    · simp [reads, writes]
      tauto
    · simp [reads, writes]

/-- A failed registration leaves no trace only where it repeats one that is in the table. -/
theorem noTrace_iff (loop : EventLoop κ α) (fd : Nat) (proc : κ) (mask : Mask) (args : α) :
    NoTrace fd loop (loop.addIoEventOn none fd proc mask args) ↔
      ∃ ev, loop.ioEvs fd = some ev ∧ Carries ev proc mask args := by
  have entry : (loop.addIoEventOn none fd proc mask args).ioEvs fd =
      some (registered proc mask args (loop.ioEvs fd)) := Function.update_self ..
  constructor
  · rintro ⟨same, -, -⟩
    rw [same] at entry
    refine ⟨_, entry, registered_eq_self.mp ?_⟩
    rw [← entry]
  · rintro ⟨ev, found, carries⟩
    have kept : registered proc mask args (loop.ioEvs fd) = ev := by
      rw [found, registered_eq_self.mpr carries]
    constructor
    case ioEvs =>
      change Function.update loop.ioEvs fd (some (registered proc mask args (loop.ioEvs fd))) = _
      rw [kept, ← found, Function.update_eq_self]
    case listenFds => rfl
    case adds =>
      intro absent
      rw [found] at absent
      cases absent

/-- A stale entry: the kernel refuses to change what it does not watch, and nothing is watched. -/
theorem addIoEvent_stale (loop : EventLoop κ α) (fd : Nat) (stale : loop.ioEvs fd ≠ none)
    (unwatched : loop.kernel.interest fd = none) (proc : κ) (mask : Mask) (args : α) :
    (loop.issued fd mask).1 = .mod ∧
      (loop.addIoEvent fd proc mask args).kernel = loop.kernel ∧
      (loop.addIoEvent fd proc mask args).listenFds = loop.listenFds := by
  obtain ⟨ev, found⟩ := Option.ne_none_iff_exists'.mp stale
  have refused (events : Mask) : loop.kernel.epollCtl .mod fd events = none := by
    simp only [Kernel.epollCtl, unwatched]
    split <;> rfl
  have asks : (loop.issued fd mask).1 = .mod := by simp only [issued, found]
  refine ⟨asks, ?_⟩
  rw [addIoEvent_eq_on, asks, refused]
  exact ⟨rfl, rfl⟩

/-- The client's descriptor 5 is closed when its write event is registered. Opened again it is
registered with `EPOLL_CTL_MOD`, and the loop never hears of it. -/
theorem addIoEvent_closed :
    let loop : EventLoop Unit Unit := ⟨fun _ => none, ∅, ⟨fun _ => false, fun _ => none⟩⟩
    let failed := loop.addIoEvent 5 () epollout ()
    let again := { failed with kernel := failed.kernel.create 5 }
    ¬NoTrace 5 loop failed ∧ (again.issued 5 epollin).1 = .mod ∧
      (again.addIoEvent 5 () epollin ()).kernel.interest 5 = none ∧
      (again.addIoEvent 5 () epollin ()).listenFds = ∅ := by
  intro loop failed again
  have trace : failed.ioEvs 5 ≠ none := by
    intro absent
    cases absent
  constructor
  · rintro ⟨same, -, -⟩
    exact trace (congrFun same 5)
  · obtain ⟨asks, kernel, listenFds⟩ :=
      addIoEvent_stale again 5 trace rfl () epollin ()
    exact ⟨asks, by rw [kernel]; rfl, by rw [listenFds]; rfl⟩

end EventLoop

end Lars.Reactor
