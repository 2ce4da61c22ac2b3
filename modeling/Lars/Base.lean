import Mathlib.Data.Int.ModEq
import Mathlib.Data.List.Basic

/-!
# Faults, packed keys and messages

Every component of Lars keeps its tables under one 64-bit key made of two C
`int`s, and talks to the others in the protobuf messages of `lars.proto`. A
call that the C++ standard gives no meaning, that fails an `assert` or that
leaves the process through `exit(1)` is a `Fault`.
-/
namespace Lars

/-- The ways in which a call does not return. -/
inductive Fault where
  | assertion
  | useAfterFree
  | nullDeref
  | emptyFront
  | intOverflow
  | outOfBounds
  | exit
  deriving DecidableEq, Repr

theorem map_ok_inv {α β : Type} {x : Except Fault α} {f : α → β} {b : β}
    (done : x.map f = .ok b) : ∃ a, x = .ok a ∧ f a = b := by
  cases x with
  | error e => cases done
  | ok a => exact ⟨a, rfl, Except.ok.inj done⟩

/-! ### `((uint64_t)hi << 32) + lo` -/

/-- The key of a pair of C `int`s; both halves are sign-extended before the sum. -/
def packKey (hi lo : Int32) : UInt64 :=
  (hi.toInt64.toUInt64 <<< 32) + lo.toInt64.toUInt64

theorem signExtended_toNat (x : Int32) :
    (x.toInt64.toUInt64.toNat : Int) = x.toInt % 2 ^ 64 := by
  have same : x.toInt64.toInt = x.toInt := by simp
  rw [← same, Int64.toInt, BitVec.toInt_eq_toNat_bmod]
  change _ = Int.bmod _ (2 ^ 64) % ((2 ^ 64 : Nat) : Int)
  rw [Int.bmod_emod]
  have bound := x.toInt64.toUInt64.toNat_lt
  change _ = (x.toInt64.toUInt64.toNat : Int) % _
  push_cast
  omega

theorem packKey_toNat (hi lo : Int32) :
    ((packKey hi lo).toNat : Int) = (hi.toInt * 2 ^ 32 + lo.toInt) % 2 ^ 64 := by
  have high := signExtended_toNat hi
  have low := signExtended_toNat lo
  have amount : UInt64.toNat 32 % 64 = 32 := by decide
  rw [packKey, UInt64.toNat_add, UInt64.toNat_shiftLeft, amount, Nat.shiftLeft_eq]
  push_cast
  rw [high, low]
  omega

/-- A negative low half borrows from the high half, yet no two pairs share a key. -/
theorem packKey_inj {a b c d : Int32} (same : packKey a b = packKey c d) : a = c ∧ b = d := by
  have sums := congrArg (fun key => (key.toNat : Int)) same
  simp only [packKey_toNat] at sums
  have := a.toInt_lt; have := a.le_toInt
  have := b.toInt_lt; have := b.le_toInt
  have := c.toInt_lt; have := c.le_toInt
  have := d.toInt_lt; have := d.le_toInt
  constructor <;> apply Int32.toInt_inj.mp <;> omega

theorem toInt_toInt32 (x : UInt32) : x.toInt32.toInt = Int.bmod x.toNat (2 ^ 32) :=
  BitVec.toInt_eq_toNat_bmod x.toBitVec

theorem low_packKey (hi lo : Int32) : (packKey hi lo).toUInt32.toInt32 = lo := by
  have key := packKey_toNat hi lo
  have := lo.toInt_lt; have := lo.le_toInt
  apply Int32.toInt_inj.mp
  rw [toInt_toInt32, UInt64.toNat_toUInt32, Int.bmod_def]
  push_cast
  rw [key]
  split <;> omega

/-- Taking the high half does not give back what a negative low half has borrowed. -/
theorem high_packKey (hi lo : Int32) :
    (packKey hi lo >>> 32).toUInt32.toInt32 = if lo.toInt < 0 then hi - 1 else hi := by
  have key := packKey_toNat hi lo
  have := lo.toInt_lt; have := lo.le_toInt
  have := hi.toInt_lt; have := hi.le_toInt
  have amount : UInt64.toNat 32 % 64 = 32 := by decide
  have value : (packKey hi lo >>> 32).toUInt32.toInt32.toInt =
      Int.bmod (hi.toInt + if lo.toInt < 0 then -1 else 0) (2 ^ 32) := by
    rw [toInt_toInt32, UInt64.toNat_toUInt32, UInt64.toNat_shiftRight, amount,
      Nat.shiftRight_eq_div_pow]
    push_cast
    rw [key]
    split <;> simp only [Int.bmod_def] <;> omega
  apply Int32.toInt_inj.mp
  rw [value]
  split
  · rw [Int32.toInt_sub]
    rfl
  · rw [Int.bmod_def]
    split <;> omega

theorem packKey_eq_iff {a b c d : Int32} : packKey a b = packKey c d ↔ a = c ∧ b = d :=
  ⟨packKey_inj, by rintro ⟨rfl, rfl⟩; rfl⟩

/-! ### The messages of `lars.proto` -/

namespace Proto

def retSucc : Int32 := 0
def retOverload : Int32 := 1
def retSystemError : Int32 := 2
def retNoexist : Int32 := 3

def idGetRouteRequest : Int32 := 1
def idGetRouteResponse : Int32 := 2

structure HostInfo where
  ip : Int32
  port : Int32
  deriving DecidableEq, Repr

/-- The key under which every table files the host. -/
def HostInfo.key (h : HostInfo) : UInt64 := packKey h.ip h.port

theorem HostInfo.key_inj {g h : HostInfo} (same : g.key = h.key) : g = h := by
  cases g
  cases h
  simpa [HostInfo.key, packKey_eq_iff] using same

structure GetRouteRequest where
  modid : Int32
  cmdid : Int32
  deriving DecidableEq, Repr

structure GetRouteResponse where
  modid : Int32
  cmdid : Int32
  host : List HostInfo
  deriving DecidableEq, Repr

structure HostCallResult where
  ip : Int32
  port : Int32
  succ : UInt32
  err : UInt32
  overload : Bool
  deriving DecidableEq, Repr

structure ReportStatusRequest where
  modid : Int32
  cmdid : Int32
  caller : Int32
  results : List HostCallResult
  ts : UInt32
  deriving DecidableEq, Repr

structure GetHostRequest where
  seq : UInt32
  modid : Int32
  cmdid : Int32
  deriving DecidableEq, Repr

/-- `host` stays unset until `mutable_host` is called. -/
structure GetHostResponse where
  seq : UInt32
  modid : Int32
  cmdid : Int32
  retcode : Int32
  host : Option HostInfo
  deriving DecidableEq, Repr

structure ReportRequest where
  modid : Int32
  cmdid : Int32
  host : HostInfo
  retcode : Int32
  deriving DecidableEq, Repr

end Proto

end Lars
