import Lars.Base
import Lars.Lib.Framing

/-!
# Message heads

A message goes over the wire as a `msg_head`, two `int`s in the byte order of
the machine (least significant byte first), followed by its body.
-/
namespace Lars.Reactor

def messageHeadLen : Nat := 8

def messageLengthLimit : Nat := 65535 - messageHeadLen

/-- The bytes of an `int` in memory. -/
def bytesOfInt32 (x : Int32) : List UInt8 :=
  let n := x.toUInt32.toNat
  [UInt8.ofNat n, UInt8.ofNat (n / 256), UInt8.ofNat (n / 65536), UInt8.ofNat (n / 16777216)]

/-- The `int` that four bytes of memory hold. -/
def int32OfBytes (bytes : List UInt8) : Int32 :=
  (UInt32.ofNat (bytes.foldr (fun b n => b.toNat + 256 * n) 0)).toInt32

theorem int32OfBytes_bytesOfInt32 (x : Int32) : int32OfBytes (bytesOfInt32 x) = x := by
  have bound := x.toUInt32.toNat_lt
  have sum : (bytesOfInt32 x).foldr (fun b n => b.toNat + 256 * n) 0 = x.toUInt32.toNat := by
    simp only [bytesOfInt32, List.foldr_cons, List.foldr_nil, UInt8.toNat_ofNat']
    omega
  simp [int32OfBytes, sum]

/-- `msg_head` as it stands in the stream, and the test that `do_read` applies to it. -/
def msgCodec : Framing.Codec Int32 UInt8 where
  headLen := messageHeadLen
  headLen_pos := by decide
  encode msgid n := bytesOfInt32 msgid ++ bytesOfInt32 (Int32.ofNat n)
  encode_length msgid n := rfl
  decode head :=
    let msglen := (int32OfBytes (head.drop 4)).toInt
    if msglen > messageLengthLimit ∨ msglen < 0 then none
    else some (int32OfBytes (head.take 4), msglen.toNat)

/-- A body up to the limit is announced as it is; a longer one, as long as its length is an
`int`, is rejected. -/
theorem msgCodec_decode_encode (msgid : Int32) {n : Nat} (int : n < 2 ^ 31) :
    msgCodec.decode (msgCodec.encode msgid n) =
      if n ≤ messageLengthLimit then some (msgid, n) else none := by
  have value : (Int32.ofNat n).toInt = n := Int32.toInt_ofNat_of_lt int
  have first : (bytesOfInt32 msgid ++ bytesOfInt32 (Int32.ofNat n)).take 4 = bytesOfInt32 msgid := rfl
  have second : (bytesOfInt32 msgid ++ bytesOfInt32 (Int32.ofNat n)).drop 4 =
      bytesOfInt32 (Int32.ofNat n) := rfl
  simp only [msgCodec, first, second, int32OfBytes_bytesOfInt32, value, Int.toNat_natCast]
  by_cases small : n ≤ messageLengthLimit
  · rw [if_neg (by omega), if_pos small]
  · rw [if_pos (by omega), if_neg small]

theorem msgCodec_admits {m : Int32 × List UInt8} (small : m.2.length ≤ messageLengthLimit) :
    msgCodec.Admits m := by
  have int : m.2.length < 2 ^ 31 := by
    simp only [messageLengthLimit, messageHeadLen] at small
    omega
  rw [Framing.Codec.Admits, msgCodec_decode_encode m.1 int, if_pos small]

/-- What waits for its remaining bytes is shorter than the longest frame. -/
theorem pending_small {bytes rest : List UInt8} (left : (msgCodec.split bytes).2 = .pending rest) :
    rest.length < messageHeadLen + messageLengthLimit := by
  have alone := Framing.Codec.split_pending left
  by_cases short : rest.length < messageHeadLen
  · omega
  · have long : msgCodec.headLen ≤ rest.length := Nat.not_lt.mp short
    -- with a whole head the rest is refused, too short, or no rest at all
    cases head : msgCodec.decode (rest.take msgCodec.headLen) with
    | none =>
      rw [Framing.Codec.split_malformed long head] at alone
      cases alone
    | some msg =>
      obtain ⟨msgid, n⟩ := msg
      have bound : n ≤ messageLengthLimit := by
        simp only [msgCodec] at head
        split at head
        · cases head
        · cases head
          omega
      by_cases cut : rest.length < msgCodec.headLen + n
      · exact cut.trans_le (Nat.add_le_add_left bound _)
      · rw [Framing.Codec.split_frame head (Nat.not_lt.mp cut)] at alone
        cases alone

/-- The arguments of one `router.call`: the id, the length and the bytes found at `data`. -/
structure Call where
  msgid : Int32
  msglen : Nat
  data : List UInt8
  deriving DecidableEq

/-- The call that a message should lead to. -/
def Call.ofMsg (m : Int32 × List UInt8) : Call := ⟨m.1, m.2.length, m.2⟩

end Lars.Reactor
