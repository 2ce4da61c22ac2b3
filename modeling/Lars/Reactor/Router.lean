import Lars.Reactor.Message
import Mathlib.Data.List.AList

/-!
# Message routing

`msg_router` keeps a callback and its argument for each message id, in two maps
with the same keys. The first registration of an id stays; a message with an id
that nobody has registered is dropped.
-/
namespace Lars.Reactor

variable {β γ : Type}

/-- `_router` and `_args` -/
structure MsgRouter (β γ : Type) where
  router : AList (fun _ : Int32 => β)
  args : AList (fun _ : Int32 => γ)
  same_keys : ∀ msgid, msgid ∈ args ↔ msgid ∈ router

namespace MsgRouter

def init : MsgRouter β γ := ⟨∅, ∅, fun _ => Iff.rfl⟩

/-- `register_msg_router`, with what it returns. -/
def registerMsgRouter (msgid : Int32) (cb : β) (userData : γ) (r : MsgRouter β γ) :
    Int × MsgRouter β γ :=
  if msgid ∈ r.router then (-1, r)
  else
    (0,
      { router := r.router.insert msgid cb
        args := r.args.insert msgid userData
        same_keys := by
          intro id
          rw [AList.mem_insert, AList.mem_insert, r.same_keys] })

/-- The callback that `call` runs, and the argument it gives it. -/
def call (msgid : Int32) (r : MsgRouter β γ) : Option (β × γ) :=
  match r.router.lookup msgid, r.args.lookup msgid with
  | some callback, some userData => some (callback, userData)
  | _, _ => none

theorem call_init (msgid : Int32) : (init : MsgRouter β γ).call msgid = none := rfl

theorem call_isSome (r : MsgRouter β γ) (msgid : Int32) :
    (r.call msgid).isSome ↔ msgid ∈ r.router := by
  have keys := r.same_keys msgid
  rw [← AList.lookup_isSome, ← AList.lookup_isSome] at keys
  rw [← AList.lookup_isSome, call]
  cases found : r.router.lookup msgid with
  | none => simp
  | some cb =>
    rw [found] at keys
    obtain ⟨arg, has⟩ := Option.isSome_iff_exists.mp (keys.mpr rfl)
    simp [has]

/-- A registration concerns its own id, and only if it is the first. -/
theorem call_registerMsgRouter (r : MsgRouter β γ) (msgid id : Int32) (cb : β) (userData : γ) :
    (r.registerMsgRouter msgid cb userData).2.call id =
      if id = msgid then r.call id <|> some (cb, userData) else r.call id := by
  unfold registerMsgRouter
  by_cases taken : msgid ∈ r.router
  · rw [if_pos taken]
    split
    next same =>
      subst same
      obtain ⟨entry, found⟩ := Option.isSome_iff_exists.mp ((r.call_isSome id).mpr taken)
      dsimp only
      rw [found]
      rfl
    next => rfl
  · rw [if_neg taken]
    split
    next same =>
      subst same
      have none : r.call id = none := by
        rw [← Option.not_isSome_iff_eq_none, call_isSome]
        exact taken
      rw [none]
      simp only [call, AList.lookup_insert]
      rfl
    next other => simp only [call, AList.lookup_insert_ne other]

end MsgRouter

end Lars.Reactor
