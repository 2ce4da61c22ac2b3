import Lars.Lib.Protobuf
import Mathlib.Data.Nat.Log
import Mathlib.Tactic.Ring

/-!
# The documented encoding

A runtime that does what the documentation of the protobuf encoding says, as an
instance of `Runtime`: numbers in groups of seven bits, a tag with the number of
the field and the kind of the value, nested messages with their length in front.
-/
namespace Protobuf

/-! ### Varints -/

/-- Seven bits a byte, the lowest first; all bytes but the last have their top bit set. -/
def varint (n : Nat) : List UInt8 :=
  if n < 128 then [UInt8.ofNat n] else UInt8.ofNat (n % 128 + 128) :: varint (n / 128)

theorem varint_small {n : Nat} (small : n < 128) : varint n = [UInt8.ofNat n] := by
  rw [varint, if_pos small]

/-- A number of at most `room` bytes, and the bytes after it. -/
def readVarint : Nat → List UInt8 → Option (Nat × List UInt8)
  | 0, _ => none
  | _ + 1, [] => none
  | room + 1, b :: rest =>
    if b.toNat < 128 then some (b.toNat, rest)
    else
      match readVarint room rest with
      | none => none
      | some (n, rest) => some (b.toNat - 128 + 128 * n, rest)

theorem readVarint_shorter {room n : Nat} {bytes rest : List UInt8}
    (read : readVarint room bytes = some (n, rest)) : rest.length < bytes.length := by
  induction room generalizing bytes n with
  | zero => cases read
  | succ room ih =>
    cases bytes with
    | nil => cases read
    | cons b bytes =>
      simp only [readVarint] at read
      split at read
      · cases read
        exact Nat.lt_succ_self _
      · split at read
        · cases read
        next more =>
          cases read
          exact Nat.lt_succ_of_lt (ih more)

theorem readVarint_varint {room n : Nat} (small : n < 128 ^ (room + 1)) (rest : List UInt8) :
    readVarint (room + 1) (varint n ++ rest) = some (n, rest) := by
  induction room generalizing n with
  | zero =>
    have last : n < 128 := by simpa using small
    have byte : (UInt8.ofNat n).toNat = n := by
      rw [UInt8.toNat_ofNat']
      omega
    rw [varint_small last, List.singleton_append, readVarint, byte, if_pos last]
  | succ room ih =>
    rw [varint]
    split
    next last =>
      have byte : (UInt8.ofNat n).toNat = n := by
        rw [UInt8.toNat_ofNat']
        omega
      rw [List.singleton_append, readVarint, byte, if_pos last]
    next more =>
      have byte : (UInt8.ofNat (n % 128 + 128)).toNat = n % 128 + 128 := by
        rw [UInt8.toNat_ofNat']
        omega
      have fewer : n / 128 < 128 ^ (room + 1) := by
        rw [Nat.div_lt_iff_lt_mul (by decide)]
        rwa [pow_succ] at small
      rw [List.cons_append, readVarint, byte, if_neg (by omega), ih fewer]
      simp only [Option.some.injEq, Prod.mk.injEq, and_true]
      omega

/-- `VarintSize32` and `VarintSize64` -/
def varintSize (n : Nat) : Nat := n.log2 / 7 + 1

theorem varint_length (n : Nat) : (varint n).length = varintSize n := by
  unfold varintSize
  induction n using Nat.strongRecOn with
  | ind n ih =>
    rw [varint]
    split
    next last =>
      have bits : n.log2 < 7 := by
        by_cases zero : n = 0
        · subst zero
          decide
        · exact (Nat.log2_lt zero).mpr last
      rw [Nat.div_eq_of_lt bits]
      rfl
    next more =>
      have nonzero : n / 128 ≠ 0 := by omega
      have halves : (n / 128).log2 = n.log2 - 7 := by
        rw [Nat.log2_eq_log_two, Nat.log2_eq_log_two, show 128 = 2 ^ 7 from rfl,
          Nat.log_div_base_pow]
      have bits : 7 ≤ n.log2 := (Nat.le_log2 (by omega)).mpr (by omega)
      rw [List.length_cons, ih (n / 128) (by omega), halves]
      omega

theorem varintSize_le {n k : Nat} (small : n < 2 ^ (7 * k + 7)) : varintSize n ≤ k + 1 := by
  unfold varintSize
  by_cases zero : n = 0
  · subst zero
    simp
  · have bits := (Nat.log2_lt zero).mpr small
    omega

/-! ### Reading -/

/-- A tag has 32 bits, the lowest three for the kind of the value; no field has the number 0. -/
def readTag (bytes : List UInt8) : Option (UInt32 × List UInt8) :=
  match readVarint 10 bytes with
  | none => none
  | some (n, rest) => if n % 2 ^ 32 / 8 = 0 then none else some (UInt32.ofNat n, rest)

def readDelimited (bytes : List UInt8) : Option (List UInt8 × List UInt8) :=
  match readVarint 10 bytes with
  | none => none
  | some (n, rest) =>
    if n % 2 ^ 64 < 2 ^ 31 ∧ n % 2 ^ 64 ≤ rest.length then
      some (rest.take (n % 2 ^ 64), rest.drop (n % 2 ^ 64))
    else none

/-- The bytes after a value that is no group, by its kind. -/
def skipPlain (kind : Nat) (bytes : List UInt8) : Option (List UInt8) :=
  match kind with
  | 0 => (readVarint 10 bytes).map (·.2)
  | 1 => if bytes.length < 8 then none else some (bytes.drop 8)
  | 2 => (readDelimited bytes).map (·.2)
  | 5 => if bytes.length < 4 then none else some (bytes.drop 4)
  | _ => none

/-- How deep groups may be nested. -/
def depthLimit : Nat := 100

/-- The bytes after the groups whose numbers are in `inside`, the innermost first, within `room`
fields. -/
def skipGroups : Nat → List Nat → List UInt8 → Option (List UInt8)
  | _, [], bytes => some bytes
  | 0, _ :: _, _ => none
  | room + 1, innermost :: outer, bytes =>
    match readTag bytes with
    | none => none
    | some (tag, rest) =>
      if tag.toNat % 8 = 3 then
        if outer.length + 1 < depthLimit then
          skipGroups room (tag.toNat / 8 :: innermost :: outer) rest
        else none
      else if tag.toNat % 8 = 4 then
        if tag.toNat / 8 = innermost then skipGroups room outer rest else none
      else
        match skipPlain (tag.toNat % 8) rest with
        | none => none
        | some rest => skipGroups room (innermost :: outer) rest

def skipValue (tag : UInt32) (bytes : List UInt8) : Option (List UInt8) :=
  if tag.toNat % 8 = 3 then skipGroups bytes.length [tag.toNat / 8] bytes
  else skipPlain (tag.toNat % 8) bytes

theorem readTag_shorter {bytes rest : List UInt8} {tag : UInt32}
    (read : readTag bytes = some (tag, rest)) : rest.length < bytes.length := by
  simp only [readTag] at read
  split at read
  · cases read
  next number =>
    split at read
    · cases read
    · cases read
      exact readVarint_shorter number

theorem readDelimited_shorter {bytes body rest : List UInt8}
    (read : readDelimited bytes = some (body, rest)) : rest.length ≤ bytes.length := by
  simp only [readDelimited] at read
  split at read
  · cases read
  next number =>
    split at read
    · cases read
      have := readVarint_shorter number
      rw [List.length_drop]
      omega
    · cases read

theorem skipPlain_shorter {kind : Nat} {bytes rest : List UInt8}
    (skipped : skipPlain kind bytes = some rest) : rest.length ≤ bytes.length := by
  unfold skipPlain at skipped
  split at skipped
  · obtain ⟨⟨n, after⟩, number, rfl⟩ := Option.map_eq_some_iff.mp skipped
    exact (readVarint_shorter number).le
  · split at skipped
    · cases skipped
    · cases skipped
      simp
  · obtain ⟨⟨body, after⟩, delimited, rfl⟩ := Option.map_eq_some_iff.mp skipped
    exact readDelimited_shorter delimited
  · split at skipped
    · cases skipped
    · cases skipped
      simp
  · cases skipped

theorem skipGroups_shorter {room : Nat} {inside : List Nat} {bytes rest : List UInt8}
    (skipped : skipGroups room inside bytes = some rest) : rest.length ≤ bytes.length := by
  induction room generalizing inside bytes with
  | zero =>
    cases inside with
    | nil =>
      cases skipped
      exact le_rfl
    | cons => cases skipped
  | succ room ih =>
    cases inside with
    | nil =>
      cases skipped
      exact le_rfl
    | cons innermost outer =>
      simp only [skipGroups] at skipped
      split at skipped
      · cases skipped
      next tag =>
        have := readTag_shorter tag
        split_ifs at skipped
        · exact (ih skipped).trans this.le
        · exact (ih skipped).trans this.le
        · split at skipped
          · cases skipped
          next value => exact (ih skipped).trans ((skipPlain_shorter value).trans this.le)

theorem skipValue_shorter {tag : UInt32} {bytes rest : List UInt8}
    (skipped : skipValue tag bytes = some rest) : rest.length ≤ bytes.length := by
  unfold skipValue at skipped
  split at skipped
  · exact skipGroups_shorter skipped
  · exact skipPlain_shorter skipped

/-! ### The runtime -/

def wire : Runtime where
  readTag := readTag
  readInt32 bytes := (readVarint 10 bytes).map fun got =>
    ((UInt64.ofNat got.1).toUInt32.toInt32, got.2)
  readUInt32 bytes := (readVarint 10 bytes).map fun got => ((UInt64.ofNat got.1).toUInt32, got.2)
  readBool bytes := (readVarint 10 bytes).map fun got => (UInt64.ofNat got.1 != 0, got.2)
  readMessage := readDelimited
  skipField tag bytes := (skipValue tag bytes).map fun rest => ((), rest)
  writeInt32 number x := varint (makeTag number 0).toNat ++ varint x.toInt64.toUInt64.toNat
  writeUInt32 number x := varint (makeTag number 0).toNat ++ varint x.toNat
  writeBool number x := varint (makeTag number 0).toNat ++ varint x.toNat
  writeMessage number body := varint (makeTag number 2).toNat ++ varint body.length ++ body
  int32Size x := varintSize x.toInt64.toUInt64.toNat
  uint32Size x := varintSize x.toNat
  messageSize size := varintSize size + size
  readTag_forward := readTag_shorter
  readInt32_forward := by
    intro bytes x rest read
    obtain ⟨got, number, same⟩ := Option.map_eq_some_iff.mp read
    cases same
    exact (readVarint_shorter number).le
  readUInt32_forward := by
    intro bytes x rest read
    obtain ⟨got, number, same⟩ := Option.map_eq_some_iff.mp read
    cases same
    exact (readVarint_shorter number).le
  readBool_forward := by
    intro bytes x rest read
    obtain ⟨got, number, same⟩ := Option.map_eq_some_iff.mp read
    cases same
    exact (readVarint_shorter number).le
  readMessage_forward := readDelimited_shorter
  skipField_forward := by
    intro tag bytes x rest skipped
    obtain ⟨after, value, same⟩ := Option.map_eq_some_iff.mp skipped
    cases same
    exact skipValue_shorter value

/-! ### It does as documented -/

theorem makeTag_toNat {number kind : Nat} (small : Small number) (known : kind < 8) :
    (makeTag number kind).toNat = 8 * number + kind := by
  obtain ⟨-, high⟩ := small
  rw [makeTag, UInt32.toNat_ofNat']
  omega

theorem readTag_makeTag {number kind : Nat} (small : Small number) (known : kind < 8)
    (rest : List UInt8) :
    readTag (varint (makeTag number kind).toNat ++ rest) = some (makeTag number kind, rest) := by
  have value := makeTag_toNat small known
  obtain ⟨low, high⟩ := small
  have tag : readVarint 10 (varint (8 * number + kind) ++ rest) =
      some (8 * number + kind, rest) :=
    readVarint_varint (by omega) rest
  rw [value]
  simp only [readTag, tag]
  rw [if_neg (by omega)]
  rfl

/-- A number behind its tag. -/
theorem wire_holds {α : Type} {number : Nat} (small : Small number) (f : Nat → α) {n : Nat}
    (word : n < 2 ^ 64) :
    wire.Holds (makeTag number 0)
      (fun bytes => (readVarint 10 bytes).map fun got => (f got.1, got.2)) (f n)
      (varint (makeTag number 0).toNat ++ varint n) := by
  intro rest
  refine ⟨varint n ++ rest, ?_, ?_⟩
  · rw [List.append_assoc]
    exact readTag_makeTag small (by decide) _
  · have value : readVarint 10 (varint n ++ rest) = some (n, rest) :=
      readVarint_varint (word.trans (by decide)) rest
    simp only [value, Option.map_some]

theorem int32_extended (x : Int32) :
    (UInt64.ofNat x.toInt64.toUInt64.toNat).toUInt32.toInt32 = x := by
  have low (b : BitVec 32) : BitVec.setWidth 32 (BitVec.signExtend 64 b) = b := by
    ext i inside
    rw [BitVec.getElem_setWidth, BitVec.getLsbD_signExtend, BitVec.getLsbD_eq_getElem inside]
    simp [inside]
    omega
  rw [UInt64.ofNat_toNat]
  apply Int32.toBitVec_inj.mp
  simp [low]

theorem tag_length {number kind : Nat} (small : Small number) (known : kind < 8) :
    (varint (makeTag number kind).toNat).length = 1 := by
  have value := makeTag_toNat small known
  obtain ⟨low, high⟩ := small
  rw [value, varint_small (by omega)]
  rfl

theorem wire_documented : wire.Documented where
  int32 := by
    intro number small x
    have holds := wire_holds small (fun n => (UInt64.ofNat n).toUInt32.toInt32)
      x.toInt64.toUInt64.toNat_lt
    rwa [int32_extended] at holds
  uint32 := by
    intro number small x
    have holds := wire_holds small (fun n => (UInt64.ofNat n).toUInt32)
      (x.toNat_lt.trans (by decide))
    have same : (UInt64.ofNat x.toNat).toUInt32 = x := by
      rw [← UInt32.toNat_toUInt64, UInt64.ofNat_toNat, UInt32.toUInt32_toUInt64]
    rwa [same] at holds
  bool := by
    intro number small x
    have holds := wire_holds small (fun n => UInt64.ofNat n != 0) (n := x.toNat)
      (by cases x <;> decide)
    have same : (UInt64.ofNat x.toNat != 0) = x := by cases x <;> rfl
    rwa [same] at holds
  message := by
    intro number small body int rest
    refine ⟨varint body.length ++ (body ++ rest), ?_, ?_⟩
    · change readTag (varint (makeTag number 2).toNat ++ varint body.length ++ body ++ rest) = _
      rw [List.append_assoc, List.append_assoc]
      exact readTag_makeTag small (by decide) _
    · have length : readVarint 10 (varint body.length ++ (body ++ rest)) =
          some (body.length, body ++ rest) :=
        readVarint_varint (int.trans (by decide)) (body ++ rest)
      have word : body.length % 2 ^ 64 = body.length := Nat.mod_eq_of_lt (int.trans (by decide))
      change readDelimited (varint body.length ++ (body ++ rest)) = _
      simp only [readDelimited, length, word]
      rw [if_pos ⟨int, by simp⟩, List.take_left, List.drop_left]
  int32_length := by
    intro number small x
    change (varint _ ++ varint _).length = _
    rw [List.length_append, tag_length small (by decide), varint_length]
    rfl
  uint32_length := by
    intro number small x
    change (varint _ ++ varint _).length = _
    rw [List.length_append, tag_length small (by decide), varint_length]
    rfl
  bool_length := by
    intro number small x
    change (varint _ ++ varint _).length = _
    rw [List.length_append, tag_length small (by decide), varint_length]
    cases x <;> rfl
  message_length := by
    intro number small body
    change (varint _ ++ varint _ ++ body).length = _
    rw [List.length_append, List.length_append, tag_length small (by decide), varint_length,
      Nat.add_assoc]
    rfl
  int32_size x := varintSize_le (k := 9) (x.toInt64.toUInt64.toNat_lt.trans (by decide))
  uint32_size x := varintSize_le (k := 4) (x.toNat_lt.trans (by decide))
  message_size := by
    intro size small
    have one : varintSize size = 1 := by
      rw [← varint_length, varint, if_pos small]
      rfl
    change varintSize size + size = 1 + size
    rw [one]

end Protobuf
