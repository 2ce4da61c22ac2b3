import Mathlib.Algebra.Group.Nat.Defs
import Mathlib.Data.List.Basic

/-!
# Generated message classes

The classes that the protobuf compiler generates know the fields of their
message; for tags, values and sizes they call a runtime library. `Runtime` has
these calls, and `Documented` what the documentation of the encoding says of
them. `Format` is a message type by its fields, `merge` the loop that reads
them. `Acts` is the meaning of a stretch of bytes: the change it makes to the
message that is being read.
-/
namespace Protobuf

/-- What is left after a read is no longer than what was there. -/
def Forward {α : Type} (read : List UInt8 → Option (α × List UInt8)) : Prop :=
  ∀ {bytes x rest}, read bytes = some (x, rest) → rest.length ≤ bytes.length

/-- The calls that generated code makes. A read gives what it has read and the bytes after it. -/
structure Runtime where
  /-- `ReadTagWithCutoffNoLastTag`; none where it gives the tag 0. -/
  readTag : List UInt8 → Option (UInt32 × List UInt8)
  readInt32 : List UInt8 → Option (Int32 × List UInt8)
  readUInt32 : List UInt8 → Option (UInt32 × List UInt8)
  readBool : List UInt8 → Option (Bool × List UInt8)
  /-- The bytes that `ReadMessage` gives to the class of the nested message. -/
  readMessage : List UInt8 → Option (List UInt8 × List UInt8)
  skipField : UInt32 → List UInt8 → Option (Unit × List UInt8)
  writeInt32 : Nat → Int32 → List UInt8
  writeUInt32 : Nat → UInt32 → List UInt8
  writeBool : Nat → Bool → List UInt8
  /-- `WriteMessage`, with the bytes that the nested message writes. -/
  writeMessage : Nat → List UInt8 → List UInt8
  int32Size : Int32 → Nat
  uint32Size : UInt32 → Nat
  /-- `MessageSize`, from the `ByteSizeLong` of the nested message. -/
  messageSize : Nat → Nat
  readTag_forward : ∀ {bytes tag rest}, readTag bytes = some (tag, rest) →
    rest.length < bytes.length
  readInt32_forward : Forward readInt32
  readUInt32_forward : Forward readUInt32
  readBool_forward : Forward readBool
  readMessage_forward : Forward readMessage
  skipField_forward : ∀ tag, Forward (skipField tag)

/-- `MakeTag`: the number of a field and the kind of its value. -/
def makeTag (number kind : Nat) : UInt32 := UInt32.ofNat (8 * number + kind)

/-- The numbers whose tags take one byte. -/
def Small (number : Nat) : Prop := 1 ≤ number ∧ number < 16

instance (number : Nat) : Decidable (Small number) := inferInstanceAs (Decidable (_ ∧ _))

namespace Runtime

/-- The bytes are a field with this tag, and `read` finds the value, whatever follows. -/
def Holds (rt : Runtime) {α : Type} (tag : UInt32) (read : List UInt8 → Option (α × List UInt8))
    (x : α) (bytes : List UInt8) : Prop :=
  ∀ rest, ∃ value, rt.readTag (bytes ++ rest) = some (tag, value) ∧ read value = some (x, rest)

/-- What the documentation of the encoding says: a field that was written is read as it was, a
nested message within the range of an `int`; and how many bytes there are. -/
structure Documented (rt : Runtime) : Prop where
  int32 : ∀ {number}, Small number → ∀ x,
    rt.Holds (makeTag number 0) rt.readInt32 x (rt.writeInt32 number x)
  uint32 : ∀ {number}, Small number → ∀ x,
    rt.Holds (makeTag number 0) rt.readUInt32 x (rt.writeUInt32 number x)
  bool : ∀ {number}, Small number → ∀ x,
    rt.Holds (makeTag number 0) rt.readBool x (rt.writeBool number x)
  message : ∀ {number}, Small number → ∀ {body : List UInt8}, body.length < 2 ^ 31 →
    rt.Holds (makeTag number 2) rt.readMessage body (rt.writeMessage number body)
  int32_length : ∀ {number}, Small number → ∀ x,
    (rt.writeInt32 number x).length = 1 + rt.int32Size x
  uint32_length : ∀ {number}, Small number → ∀ x,
    (rt.writeUInt32 number x).length = 1 + rt.uint32Size x
  bool_length : ∀ {number}, Small number → ∀ x, (rt.writeBool number x).length = 2
  message_length : ∀ {number}, Small number → ∀ body : List UInt8,
    (rt.writeMessage number body).length = 1 + rt.messageSize body.length
  /-- An `int32` is extended to 64 bits, and a byte has seven of them. -/
  int32_size : ∀ x, rt.int32Size x ≤ 10
  uint32_size : ∀ x, rt.uint32Size x ≤ 5
  /-- A length below 128 takes one byte. -/
  message_size : ∀ {size}, size < 128 → rt.messageSize size = 1 + size

end Runtime

/-! ### Messages -/

/-- How a declared field is read into the message. Reading a nested message may fail. -/
inductive Slot (M : Type) where
  | int32 (set : Int32 → M → M)
  | uint32 (set : UInt32 → M → M)
  | bool (set : Bool → M → M)
  | message (merge : List UInt8 → M → Option M)

namespace Slot

variable {M : Type} (rt : Runtime)

/-- One `case` of the loop. -/
def read : Slot M → List UInt8 → M → Option (M × List UInt8)
  | .int32 set, bytes, m => (rt.readInt32 bytes).map fun got => (set got.1 m, got.2)
  | .uint32 set, bytes, m => (rt.readUInt32 bytes).map fun got => (set got.1 m, got.2)
  | .bool set, bytes, m => (rt.readBool bytes).map fun got => (set got.1 m, got.2)
  | .message merge, bytes, m =>
    match rt.readMessage bytes with
    | none => none
    | some (body, rest) => (merge body m).map fun m => (m, rest)

theorem read_forward {slot : Slot M} {bytes rest : List UInt8} {m m' : M}
    (done : slot.read rt bytes m = some (m', rest)) : rest.length ≤ bytes.length := by
  cases slot with
  | int32 set =>
    obtain ⟨⟨x, after⟩, got, same⟩ := Option.map_eq_some_iff.mp done
    cases same
    exact rt.readInt32_forward got
  | uint32 set =>
    obtain ⟨⟨x, after⟩, got, same⟩ := Option.map_eq_some_iff.mp done
    cases same
    exact rt.readUInt32_forward got
  | bool set =>
    obtain ⟨⟨x, after⟩, got, same⟩ := Option.map_eq_some_iff.mp done
    cases same
    exact rt.readBool_forward got
  | message merge =>
    simp only [read] at done
    split at done
    · cases done
    next body after got =>
      obtain ⟨next, -, same⟩ := Option.map_eq_some_iff.mp done
      cases same
      exact rt.readMessage_forward got

end Slot

/-- A message type: the tags it declares. -/
structure Format (M : Type) where
  slots : UInt32 → Option (Slot M)

namespace Format

variable {M : Type} (rt : Runtime) (f : Format M)

/-- A field behind its tag; one that is not declared is skipped. -/
def take (tag : UInt32) (bytes : List UInt8) (m : M) : Option (M × List UInt8) :=
  match f.slots tag with
  | some slot => slot.read rt bytes m
  | none => (rt.skipField tag bytes).map fun got => (m, got.2)

theorem take_forward {tag : UInt32} {bytes rest : List UInt8} {m m' : M}
    (done : f.take rt tag bytes m = some (m', rest)) : rest.length ≤ bytes.length := by
  unfold take at done
  split at done
  · exact Slot.read_forward rt done
  · obtain ⟨⟨_, after⟩, got, same⟩ := Option.map_eq_some_iff.mp done
    cases same
    exact rt.skipField_forward tag got

/-- `MergePartialFromCodedStream` of all of `bytes` into the message `m`. -/
def merge (bytes : List UInt8) (m : M) : Option M :=
  if bytes = [] then some m
  else
    match tagged : rt.readTag bytes with
    | none => none
    | some (tag, value) =>
      match taken : f.take rt tag value m with
      | none => none
      | some (m, rest) =>
        have _ := rt.readTag_forward tagged
        have _ := f.take_forward rt taken
        merge rest m
termination_by bytes.length

/-- Reading `bytes` in front of anything changes the message by `change`. -/
def Acts (bytes : List UInt8) (change : M → M) : Prop :=
  ∀ rest m, f.merge rt (bytes ++ rest) m = f.merge rt rest (change m)

variable {rt f}

@[simp] theorem merge_nil (m : M) : f.merge rt [] m = some m := by
  rw [merge, if_pos rfl]

/-- One round of the loop. -/
theorem merge_field {bytes value rest : List UInt8} {tag : UInt32} {m m' : M}
    (tagged : rt.readTag bytes = some (tag, value))
    (taken : f.take rt tag value m = some (m', rest)) :
    f.merge rt bytes m = f.merge rt rest m' := by
  have nonempty : bytes ≠ [] := by
    rintro rfl
    have shorter := rt.readTag_forward tagged
    exact absurd shorter (Nat.not_lt_zero _)
  rw [merge, if_neg nonempty]
  split
  next none =>
    rw [tagged] at none
    cases none
  next tag' value' tagged' =>
    rw [tagged, Option.some.injEq, Prod.mk.injEq] at tagged'
    obtain ⟨rfl, rfl⟩ := tagged'
    split
    next none =>
      rw [taken] at none
      cases none
    next next rest' taken' =>
      rw [taken, Option.some.injEq, Prod.mk.injEq] at taken'
      obtain ⟨rfl, rfl⟩ := taken'
      rfl

namespace Acts

theorem merge_eq {bytes : List UInt8} {change : M → M} (acts : f.Acts rt bytes change) (m : M) :
    f.merge rt bytes m = some (change m) := by
  have whole := acts [] m
  rwa [List.append_nil, merge_nil] at whole

theorem congr {bytes : List UInt8} {change change' : M → M} (acts : f.Acts rt bytes change)
    (same : ∀ m, change m = change' m) : f.Acts rt bytes change' := by
  intro rest m
  rw [acts, same]

theorem nil : f.Acts rt [] id := fun _ _ => rfl

theorem append {front back : List UInt8} {first second : M → M} (acts : f.Acts rt front first)
    (acts' : f.Acts rt back second) : f.Acts rt (front ++ back) (second ∘ first) := by
  intro rest m
  rw [List.append_assoc, acts, acts']
  rfl

variable {tag : UInt32} {bytes : List UInt8}

theorem int32 {x : Int32} {set : Int32 → M → M} (holds : rt.Holds tag rt.readInt32 x bytes)
    (declared : f.slots tag = some (.int32 set)) : f.Acts rt bytes (set x) := by
  intro rest m
  obtain ⟨value, tagged, found⟩ := holds rest
  apply merge_field tagged
  simp only [take, declared, Slot.read, found, Option.map_some]

theorem uint32 {x : UInt32} {set : UInt32 → M → M} (holds : rt.Holds tag rt.readUInt32 x bytes)
    (declared : f.slots tag = some (.uint32 set)) : f.Acts rt bytes (set x) := by
  intro rest m
  obtain ⟨value, tagged, found⟩ := holds rest
  apply merge_field tagged
  simp only [take, declared, Slot.read, found, Option.map_some]

theorem bool {x : Bool} {set : Bool → M → M} (holds : rt.Holds tag rt.readBool x bytes)
    (declared : f.slots tag = some (.bool set)) : f.Acts rt bytes (set x) := by
  intro rest m
  obtain ⟨value, tagged, found⟩ := holds rest
  apply merge_field tagged
  simp only [take, declared, Slot.read, found, Option.map_some]

theorem message {body : List UInt8} {merge : List UInt8 → M → Option M} {change : M → M}
    (holds : rt.Holds tag rt.readMessage body bytes)
    (declared : f.slots tag = some (.message merge))
    (merges : ∀ m, merge body m = some (change m)) : f.Acts rt bytes change := by
  intro rest m
  obtain ⟨value, tagged, found⟩ := holds rest
  apply merge_field tagged
  simp only [take, declared, Slot.read, found, merges, Option.map_some]

/-- A field that the type does not declare. -/
theorem unknown (holds : rt.Holds tag (rt.skipField tag) () bytes)
    (undeclared : f.slots tag = none) : f.Acts rt bytes id := by
  intro rest m
  obtain ⟨value, tagged, skipped⟩ := holds rest
  apply merge_field tagged
  simp only [take, undeclared, skipped, Option.map_some, id]

/-- A repeated field. -/
theorem flatMap {α : Type} {encode : α → List UInt8} {change : α → M → M} {xs : List α}
    (acts : ∀ x ∈ xs, f.Acts rt (encode x) (change x)) :
    f.Acts rt (xs.flatMap encode) fun m => xs.foldl (fun m x => change x m) m := by
  induction xs with
  | nil => exact nil
  | cons x xs ih =>
    have first := acts x List.mem_cons_self
    have others := ih fun y member => acts y (List.mem_cons_of_mem x member)
    exact first.append others

end Acts

end Format

end Protobuf
