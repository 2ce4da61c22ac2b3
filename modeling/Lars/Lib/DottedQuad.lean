import Mathlib.Data.List.Basic
import Mathlib.Data.UInt

/-!
# Dotted quads

An IPv4 address as four octets, as a text, as the number that network order
makes of it, and as the four bytes that a little-endian machine keeps of a number.
-/
namespace Lars.DottedQuad

/-- The address that is written `a.b.c.d`. -/
structure Quad where
  a : UInt8
  b : UInt8
  c : UInt8
  d : UInt8
  deriving DecidableEq, Repr

namespace Quad

def reverse (q : Quad) : Quad := ⟨q.d, q.c, q.b, q.a⟩

@[simp] theorem reverse_reverse (q : Quad) : q.reverse.reverse = q := rfl

theorem reverse_eq_iff (q : Quad) : q.reverse = q ↔ q.a = q.d ∧ q.b = q.c := by
  cases q
  simp only [reverse, mk.injEq]
  constructor
  · rintro ⟨ends, middle, -, -⟩
    exact ⟨ends.symm, middle.symm⟩
  · rintro ⟨rfl, rfl⟩
    exact ⟨rfl, rfl, rfl, rfl⟩

/-! ### Numbers -/

/-- The number with these bytes, the first one most significant. -/
def number (q : Quad) : UInt32 :=
  UInt32.ofNat (q.a.toNat * 2 ^ 24 + q.b.toNat * 2 ^ 16 + q.c.toNat * 2 ^ 8 + q.d.toNat)

/-- The bytes of a number in the order of their addresses, the least significant one first. -/
def memory (n : UInt32) : Quad :=
  ⟨n.toUInt8, (n >>> 8).toUInt8, (n >>> 16).toUInt8, (n >>> 24).toUInt8⟩

theorem memory_number (q : Quad) : memory q.number = q.reverse := by
  obtain ⟨a, b, c, d⟩ := q
  have := a.toNat_lt; have := b.toNat_lt
  have := c.toNat_lt; have := d.toNat_lt
  have size : (number ⟨a, b, c, d⟩).toNat =
      a.toNat * 2 ^ 24 + b.toNat * 2 ^ 16 + c.toNat * 2 ^ 8 + d.toNat := by
    rw [number, UInt32.toNat_ofNat']
    dsimp only
    omega
  simp only [memory, reverse, mk.injEq, ← UInt8.toNat_inj, UInt32.toNat_toUInt8,
    UInt32.toNat_shiftRight, Nat.shiftRight_eq_div_pow, size]
  refine ⟨?_, ?_, ?_, ?_⟩
  · omega
  · change _ / 2 ^ 8 % _ = _
    omega
  · change _ / 2 ^ 16 % _ = _
    omega
  · change _ / 2 ^ 24 % _ = _
    omega

theorem number_reverse_memory (n : UInt32) : (memory n).reverse.number = n := by
  have bound := n.toNat_lt
  apply UInt32.toNat_inj.mp
  simp only [number, memory, reverse, UInt32.toNat_ofNat', UInt32.toNat_toUInt8,
    UInt32.toNat_shiftRight, Nat.shiftRight_eq_div_pow]
  change (n.toNat / 2 ^ 24 % _ * _ + n.toNat / 2 ^ 16 % _ * _ + n.toNat / 2 ^ 8 % _ * _ + _) % _ = _
  omega

/-! ### Texts -/

def digits (x : UInt8) : List Char := Nat.toDigits 10 x.toNat

/-- The text `a.b.c.d`. -/
def text (q : Quad) : String :=
  String.ofList (['.'].intercalate ([q.a, q.b, q.c, q.d].map digits))

/-- The octet that the digits stand for, without signs, blanks or leading zeros. -/
def readOctet (cs : List Char) : Option UInt8 :=
  let n := Nat.ofDigitChars 10 cs 0
  if n < 256 ∧ Nat.toDigits 10 n = cs then some (UInt8.ofNat n) else none

/-- The address that a text stands for. -/
def parse (s : String) : Option Quad :=
  match s.toList.splitOn '.' with
  | [w, x, y, z] =>
    match readOctet w, readOctet x, readOctet y, readOctet z with
    | some a, some b, some c, some d => some ⟨a, b, c, d⟩
    | _, _, _, _ => none
  | _ => none

private theorem readOctet_digits (x : UInt8) : readOctet (digits x) = some x := by
  have bound := x.toNat_lt
  rw [readOctet, digits, Nat.ofDigitChars_ten_toDigits]
  simp only [and_true]
  rw [if_pos bound]
  simp

theorem notMem_digits {c : Char} (other : c.isDigit = false) (x : UInt8) : c ∉ digits x := by
  intro member
  have digit := Nat.isDigit_of_mem_toDigits (by decide) (by decide) member
  rw [other] at digit
  cases digit

theorem readOctet_other {c : Char} (other : c.isDigit = false) {cs : List Char} (member : c ∈ cs) :
    readOctet cs = none := by
  rw [readOctet]
  split
  next same =>
    rw [← same.2] at member
    have digit := Nat.isDigit_of_mem_toDigits (by decide) (by decide) member
    rw [other] at digit
    cases digit
  next => rfl

theorem parse_text (q : Quad) : parse q.text = some q := by
  have parts : q.text.toList.splitOn '.' = [digits q.a, digits q.b, digits q.c, digits q.d] := by
    rw [text, String.toList_ofList]
    apply List.splitOn_intercalate
    · simp [notMem_digits (c := '.') rfl]
    · simp
  simp only [parse, parts, readOctet_digits]

theorem text_inj {q r : Quad} (same : q.text = r.text) : q = r := by
  have read := congrArg parse same
  rw [parse_text, parse_text] at read
  exact Option.some.inj read

end Quad

end Lars.DottedQuad
