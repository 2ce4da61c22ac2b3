import Lars.Base
import Lars.Lib.ProtobufWire

/-!
# Messages and bytes

The generated classes of `lars.proto`: `SerializeToString`, `ParseFromArray`,
`MergeFrom` and `ByteSizeLong` of each message, over any runtime library. A
message type says which tags it declares, and how; the loop over the fields is
`Format.merge`. What a message keeps of the fields that it does not declare is
not modelled, since no part of the program sends a message on.
-/
namespace Lars.Proto

open Protobuf (Runtime Format Slot Small makeTag wire wire_documented)

/-- What the generated class of a message has. `zero` is what `Clear` leaves. -/
class Message (M : Type) where
  zero : M
  format : Runtime → Format M
  serialize : Runtime → M → List UInt8
  mergeFrom : M → M → M
  byteSizeLong : Runtime → M → Nat

section fields

variable (rt : Runtime)

/-- `ParseFromArray`, where it returns true. -/
def parseFromArray {M : Type} [Message M] (data : List UInt8) : Option M :=
  (Message.format rt).merge rt data Message.zero

/-! ### Fields -/

def int32Field (number : Nat) (x : Int32) : List UInt8 :=
  if x ≠ 0 then rt.writeInt32 number x else []

def uint32Field (number : Nat) (x : UInt32) : List UInt8 :=
  if x ≠ 0 then rt.writeUInt32 number x else []

def boolField (number : Nat) (x : Bool) : List UInt8 := if x then rt.writeBool number x else []

/-- A message inside a message. -/
def messageField {M : Type} [Message M] (number : Nat) (m : M) : List UInt8 :=
  rt.writeMessage number (Message.serialize rt m)

def int32Size (x : Int32) : Nat := if x ≠ 0 then 1 + rt.int32Size x else 0

def uint32Size (x : UInt32) : Nat := if x ≠ 0 then 1 + rt.uint32Size x else 0

def boolSize (x : Bool) : Nat := if x then 1 + 1 else 0

def messageSize {M : Type} [Message M] (m : M) : Nat :=
  1 + rt.messageSize (Message.byteSizeLong rt m)

end fields

/-- A field of the other message replaces this one unless it is zero. -/
def orOld {α : Type} [DecidableEq α] [OfNat α 0] (old new : α) : α :=
  if new ≠ 0 then new else old

/-! ### The messages -/

instance : Message HostInfo where
  zero := ⟨0, 0⟩
  format _ := { slots := fun
    | 8 => some (.int32 fun x m => { m with ip := x })
    | 16 => some (.int32 fun x m => { m with port := x })
    | _ => none }
  serialize rt h := int32Field rt 1 h.ip ++ int32Field rt 2 h.port
  mergeFrom old new := ⟨orOld old.ip new.ip, orOld old.port new.port⟩
  byteSizeLong rt h := int32Size rt h.ip + int32Size rt h.port

instance : Message GetRouteRequest where
  zero := ⟨0, 0⟩
  format _ := { slots := fun
    | 8 => some (.int32 fun x m => { m with modid := x })
    | 16 => some (.int32 fun x m => { m with cmdid := x })
    | _ => none }
  serialize rt req := int32Field rt 1 req.modid ++ int32Field rt 2 req.cmdid
  mergeFrom old new := ⟨orOld old.modid new.modid, orOld old.cmdid new.cmdid⟩
  byteSizeLong rt req := int32Size rt req.modid + int32Size rt req.cmdid

instance : Message GetRouteResponse where
  zero := ⟨0, 0, []⟩
  format rt := { slots := fun
    | 8 => some (.int32 fun x m => { m with modid := x })
    | 16 => some (.int32 fun x m => { m with cmdid := x })
    | 26 => some (.message fun body m =>
      (parseFromArray rt body).map fun h => { m with host := m.host ++ [h] })
    | _ => none }
  serialize rt rsp := int32Field rt 1 rsp.modid ++ int32Field rt 2 rsp.cmdid ++
    rsp.host.flatMap (messageField rt 3)
  mergeFrom old new :=
    ⟨orOld old.modid new.modid, orOld old.cmdid new.cmdid, old.host ++ new.host⟩
  byteSizeLong rt rsp :=
    (rsp.host.map (messageSize rt)).sum + int32Size rt rsp.modid + int32Size rt rsp.cmdid

instance : Message HostCallResult where
  zero := ⟨0, 0, 0, 0, false⟩
  format _ := { slots := fun
    | 8 => some (.int32 fun x m => { m with ip := x })
    | 16 => some (.int32 fun x m => { m with port := x })
    | 24 => some (.uint32 fun x m => { m with succ := x })
    | 32 => some (.uint32 fun x m => { m with err := x })
    | 40 => some (.bool fun x m => { m with overload := x })
    | _ => none }
  serialize rt res := int32Field rt 1 res.ip ++ int32Field rt 2 res.port ++
    uint32Field rt 3 res.succ ++ uint32Field rt 4 res.err ++ boolField rt 5 res.overload
  mergeFrom old new := ⟨orOld old.ip new.ip, orOld old.port new.port, orOld old.succ new.succ,
    orOld old.err new.err, if new.overload then new.overload else old.overload⟩
  byteSizeLong rt res := int32Size rt res.ip + int32Size rt res.port + uint32Size rt res.succ +
    uint32Size rt res.err + boolSize res.overload

instance : Message ReportStatusRequest where
  zero := ⟨0, 0, 0, [], 0⟩
  format rt := { slots := fun
    | 8 => some (.int32 fun x m => { m with modid := x })
    | 16 => some (.int32 fun x m => { m with cmdid := x })
    | 24 => some (.int32 fun x m => { m with caller := x })
    | 34 => some (.message fun body m =>
      (parseFromArray rt body).map fun res => { m with results := m.results ++ [res] })
    | 40 => some (.uint32 fun x m => { m with ts := x })
    | _ => none }
  serialize rt req := int32Field rt 1 req.modid ++ int32Field rt 2 req.cmdid ++
    int32Field rt 3 req.caller ++ req.results.flatMap (messageField rt 4) ++
    uint32Field rt 5 req.ts
  mergeFrom old new := ⟨orOld old.modid new.modid, orOld old.cmdid new.cmdid,
    orOld old.caller new.caller, old.results ++ new.results, orOld old.ts new.ts⟩
  byteSizeLong rt req := (req.results.map (messageSize rt)).sum + int32Size rt req.modid +
    int32Size rt req.cmdid + int32Size rt req.caller + uint32Size rt req.ts

instance : Message GetHostRequest where
  zero := ⟨0, 0, 0⟩
  format _ := { slots := fun
    | 8 => some (.uint32 fun x m => { m with seq := x })
    | 16 => some (.int32 fun x m => { m with modid := x })
    | 24 => some (.int32 fun x m => { m with cmdid := x })
    | _ => none }
  serialize rt req := uint32Field rt 1 req.seq ++ int32Field rt 2 req.modid ++
    int32Field rt 3 req.cmdid
  mergeFrom old new :=
    ⟨orOld old.seq new.seq, orOld old.modid new.modid, orOld old.cmdid new.cmdid⟩
  byteSizeLong rt req := uint32Size rt req.seq + int32Size rt req.modid + int32Size rt req.cmdid

/-- `mutable_host()->MergeFrom`: a host that is not set counts as zeros. -/
def mergeHost (old : Option HostInfo) (new : HostInfo) : HostInfo :=
  Message.mergeFrom (old.getD Message.zero) new

instance : Message GetHostResponse where
  zero := ⟨0, 0, 0, 0, none⟩
  format rt := { slots := fun
    | 8 => some (.uint32 fun x m => { m with seq := x })
    | 16 => some (.int32 fun x m => { m with modid := x })
    | 24 => some (.int32 fun x m => { m with cmdid := x })
    | 32 => some (.int32 fun x m => { m with retcode := x })
    | 42 => some (.message fun body m =>
      ((Message.format rt).merge rt body (m.host.getD Message.zero)).map fun h =>
        { m with host := some h })
    | _ => none }
  serialize rt rsp := uint32Field rt 1 rsp.seq ++ int32Field rt 2 rsp.modid ++
    int32Field rt 3 rsp.cmdid ++ int32Field rt 4 rsp.retcode ++
    rsp.host.toList.flatMap (messageField rt 5)
  mergeFrom old new := ⟨orOld old.seq new.seq, orOld old.modid new.modid,
    orOld old.cmdid new.cmdid, orOld old.retcode new.retcode,
    match new.host with
    | none => old.host
    | some h => some (mergeHost old.host h)⟩
  byteSizeLong rt rsp := (rsp.host.toList.map (messageSize rt)).sum + uint32Size rt rsp.seq +
    int32Size rt rsp.modid + int32Size rt rsp.cmdid + int32Size rt rsp.retcode

/-- The host is always set: `report` calls `mutable_host`, and one that is missing reads as
zeros. -/
instance : Message ReportRequest where
  zero := ⟨0, 0, ⟨0, 0⟩, 0⟩
  format rt := { slots := fun
    | 8 => some (.int32 fun x m => { m with modid := x })
    | 16 => some (.int32 fun x m => { m with cmdid := x })
    | 26 => some (.message fun body m =>
      ((Message.format rt).merge rt body m.host).map fun h => { m with host := h })
    | 32 => some (.int32 fun x m => { m with retcode := x })
    | _ => none }
  serialize rt req := int32Field rt 1 req.modid ++ int32Field rt 2 req.cmdid ++
    messageField rt 3 req.host ++ int32Field rt 4 req.retcode
  mergeFrom old new := ⟨orOld old.modid new.modid, orOld old.cmdid new.cmdid,
    mergeHost (some old.host) new.host, orOld old.retcode new.retcode⟩
  byteSizeLong rt req := messageSize rt req.host + int32Size rt req.modid +
    int32Size rt req.cmdid + int32Size rt req.retcode

/-! ### What the fields do -/

section acts

variable {rt : Runtime} (documented : rt.Documented) {M : Type} (f : Format M) {number : Nat}
  (small : Small number)

include documented small

theorem acts_int32Field (set : Int32 → M → M)
    (declared : f.slots (makeTag number 0) = some (.int32 set)) (x : Int32) :
    f.Acts rt (int32Field rt number x) fun m => if x ≠ 0 then set x m else m := by
  unfold int32Field
  split
  · exact .int32 (documented.int32 small x) declared
  · exact .nil

theorem acts_uint32Field (set : UInt32 → M → M)
    (declared : f.slots (makeTag number 0) = some (.uint32 set)) (x : UInt32) :
    f.Acts rt (uint32Field rt number x) fun m => if x ≠ 0 then set x m else m := by
  unfold uint32Field
  split
  · exact .uint32 (documented.uint32 small x) declared
  · exact .nil

theorem acts_boolField (set : Bool → M → M)
    (declared : f.slots (makeTag number 0) = some (.bool set)) (x : Bool) :
    f.Acts rt (boolField rt number x) fun m => if x then set x m else m := by
  unfold boolField
  split
  · exact .bool (documented.bool small x) declared
  · exact .nil

theorem acts_messageField {N : Type} [Message N] {new : N}
    (int : (Message.serialize rt new).length < 2 ^ 31) {merge : List UInt8 → M → Option M}
    {change : M → M} (declared : f.slots (makeTag number 2) = some (.message merge))
    (merges : ∀ m, merge (Message.serialize rt new) m = some (change m)) :
    f.Acts rt (messageField rt number new) change :=
  .message (documented.message small int) declared merges

end acts

/-! ### What the messages do -/

/-- Reading the bytes of a message is merging it in. -/
def Reads (rt : Runtime) (M : Type) [Message M] : Prop :=
  ∀ new : M, (Message.format rt).Acts rt (Message.serialize rt new) (Message.mergeFrom · new)

/-- A cleared message takes over all of the other. -/
def Starts (M : Type) [Message M] : Prop := ∀ m : M, Message.mergeFrom Message.zero m = m

theorem orOld_zero {α : Type} [DecidableEq α] [OfNat α 0] (x : α) : orOld 0 x = x := by
  unfold orOld
  split
  next => rfl
  next zero => exact (not_not.mp zero).symm

theorem starts_hostInfo : Starts HostInfo := by
  intro h
  simp only [Message.mergeFrom, Message.zero, orOld_zero]

theorem starts_hostCallResult : Starts HostCallResult := by
  intro res
  obtain ⟨ip, port, succ, err, overload⟩ := res
  simp only [Message.mergeFrom, Message.zero, orOld_zero]
  cases overload <;> rfl

/-- The appended entries of a repeated field. -/
theorem foldl_append {α β : Type} (xs : List α) (build : List α → β) (old : List α)
    (add : β → α → β) (adds : ∀ l x, add (build l) x = build (l ++ [x])) :
    xs.foldl add (build old) = build (old ++ xs) := by
  induction xs generalizing old with
  | nil => simp
  | cons x xs ih =>
    rw [List.foldl_cons, adds, ih, List.append_assoc]
    rfl

section messages

variable {rt : Runtime} (documented : rt.Documented)

include documented

theorem int32Field_length_le {number : Nat} (small : Small number) (x : Int32) :
    (int32Field rt number x).length ≤ 11 := by
  unfold int32Field
  split
  · have size := documented.int32_size x
    rw [documented.int32_length small]
    omega
  · exact Nat.zero_le 11

theorem uint32Field_length_le {number : Nat} (small : Small number) (x : UInt32) :
    (uint32Field rt number x).length ≤ 6 := by
  unfold uint32Field
  split
  · have size := documented.uint32_size x
    rw [documented.uint32_length small]
    omega
  · exact Nat.zero_le 6

theorem boolField_length_le {number : Nat} (small : Small number) (x : Bool) :
    (boolField rt number x).length ≤ 2 := by
  unfold boolField
  split
  · exact (documented.bool_length small x).le
  · exact Nat.zero_le 2

theorem host_length (h : HostInfo) : (Message.serialize rt h).length ≤ 22 := by
  have ip := int32Field_length_le documented (show Small 1 by decide) h.ip
  have port := int32Field_length_le documented (show Small 2 by decide) h.port
  simp only [Message.serialize, List.length_append]
  omega

theorem result_length (res : HostCallResult) : (Message.serialize rt res).length ≤ 36 := by
  have ip := int32Field_length_le documented (show Small 1 by decide) res.ip
  have port := int32Field_length_le documented (show Small 2 by decide) res.port
  have succ := uint32Field_length_le documented (show Small 3 by decide) res.succ
  have err := uint32Field_length_le documented (show Small 4 by decide) res.err
  have overload := boolField_length_le documented (show Small 5 by decide) res.overload
  simp only [Message.serialize, List.length_append]
  omega

/-- A host inside a message takes at least two bytes, and at most twenty-four. -/
theorem hostField_length {number : Nat} (small : Small number) (h : HostInfo) :
    2 ≤ (messageField rt number h).length ∧ (messageField rt number h).length ≤ 24 := by
  have body := host_length documented h
  rw [messageField, documented.message_length small, documented.message_size (by omega)]
  omega

theorem reads_hostInfo : Reads rt HostInfo := by
  intro new
  have ip := acts_int32Field documented (Message.format rt) (show Small 1 by decide)
    (fun x (m : HostInfo) => { m with ip := x }) rfl new.ip
  have port := acts_int32Field documented (Message.format rt) (show Small 2 by decide)
    (fun x (m : HostInfo) => { m with port := x }) rfl new.port
  apply (ip.append port).congr
  intro old
  simp only [Function.comp, Message.mergeFrom, orOld]
  split_ifs <;> rfl

theorem reads_getRouteRequest : Reads rt GetRouteRequest := by
  intro new
  have modid := acts_int32Field documented (Message.format rt) (show Small 1 by decide)
    (fun x (m : GetRouteRequest) => { m with modid := x }) rfl new.modid
  have cmdid := acts_int32Field documented (Message.format rt) (show Small 2 by decide)
    (fun x (m : GetRouteRequest) => { m with cmdid := x }) rfl new.cmdid
  apply (modid.append cmdid).congr
  intro old
  simp only [Function.comp, Message.mergeFrom, orOld]
  split_ifs <;> rfl

theorem reads_getHostRequest : Reads rt GetHostRequest := by
  intro new
  have seq := acts_uint32Field documented (Message.format rt) (show Small 1 by decide)
    (fun x (m : GetHostRequest) => { m with seq := x }) rfl new.seq
  have modid := acts_int32Field documented (Message.format rt) (show Small 2 by decide)
    (fun x (m : GetHostRequest) => { m with modid := x }) rfl new.modid
  have cmdid := acts_int32Field documented (Message.format rt) (show Small 3 by decide)
    (fun x (m : GetHostRequest) => { m with cmdid := x }) rfl new.cmdid
  apply ((seq.append modid).append cmdid).congr
  intro old
  simp only [Function.comp, Message.mergeFrom, orOld]
  split_ifs <;> rfl

theorem reads_hostCallResult : Reads rt HostCallResult := by
  intro new
  have ip := acts_int32Field documented (Message.format rt) (show Small 1 by decide)
    (fun x (m : HostCallResult) => { m with ip := x }) rfl new.ip
  have port := acts_int32Field documented (Message.format rt) (show Small 2 by decide)
    (fun x (m : HostCallResult) => { m with port := x }) rfl new.port
  have succ := acts_uint32Field documented (Message.format rt) (show Small 3 by decide)
    (fun x (m : HostCallResult) => { m with succ := x }) rfl new.succ
  have err := acts_uint32Field documented (Message.format rt) (show Small 4 by decide)
    (fun x (m : HostCallResult) => { m with err := x }) rfl new.err
  have overload := acts_boolField documented (Message.format rt) (show Small 5 by decide)
    (fun x (m : HostCallResult) => { m with overload := x }) rfl new.overload
  apply ((((ip.append port).append succ).append err).append overload).congr
  intro old
  simp only [Function.comp, Message.mergeFrom, orOld]
  split_ifs <;> rfl

theorem reads_getRouteResponse : Reads rt GetRouteResponse := by
  intro new
  have modid := acts_int32Field documented (Message.format rt) (show Small 1 by decide)
    (fun x (m : GetRouteResponse) => { m with modid := x }) rfl new.modid
  have cmdid := acts_int32Field documented (Message.format rt) (show Small 2 by decide)
    (fun x (m : GetRouteResponse) => { m with cmdid := x }) rfl new.cmdid
  have host : ∀ h ∈ new.host, (Message.format rt).Acts rt (messageField rt 3 h)
      fun (m : GetRouteResponse) => { m with host := m.host ++ [h] } := by
    intro h _
    apply acts_messageField documented _ (show Small 3 by decide)
      ((host_length documented h).trans_lt (by decide)) rfl
    intro m
    rw [parseFromArray, (reads_hostInfo documented h).merge_eq, starts_hostInfo]
    rfl
  apply ((modid.append cmdid).append (Format.Acts.flatMap host)).congr
  intro old
  simp only [Function.comp, Message.mergeFrom, orOld]
  split_ifs
  all_goals
    exact foldl_append new.host (fun l => GetRouteResponse.mk _ _ l) old.host _ fun _ _ => rfl

theorem reads_reportStatusRequest : Reads rt ReportStatusRequest := by
  intro new
  have modid := acts_int32Field documented (Message.format rt) (show Small 1 by decide)
    (fun x (m : ReportStatusRequest) => { m with modid := x }) rfl new.modid
  have cmdid := acts_int32Field documented (Message.format rt) (show Small 2 by decide)
    (fun x (m : ReportStatusRequest) => { m with cmdid := x }) rfl new.cmdid
  have caller := acts_int32Field documented (Message.format rt) (show Small 3 by decide)
    (fun x (m : ReportStatusRequest) => { m with caller := x }) rfl new.caller
  have ts := acts_uint32Field documented (Message.format rt) (show Small 5 by decide)
    (fun x (m : ReportStatusRequest) => { m with ts := x }) rfl new.ts
  have results : ∀ res ∈ new.results, (Message.format rt).Acts rt (messageField rt 4 res)
      fun (m : ReportStatusRequest) => { m with results := m.results ++ [res] } := by
    intro res _
    apply acts_messageField documented _ (show Small 4 by decide)
      ((result_length documented res).trans_lt (by decide)) rfl
    intro m
    rw [parseFromArray, (reads_hostCallResult documented res).merge_eq, starts_hostCallResult]
    rfl
  apply ((((modid.append cmdid).append caller).append
    (Format.Acts.flatMap results)).append ts).congr
  intro old
  have entries (m : ReportStatusRequest) :
      new.results.foldl (fun m res => { m with results := m.results ++ [res] }) m =
        { m with results := m.results ++ new.results } :=
    foldl_append new.results (fun l => { m with results := l }) m.results _ fun _ _ => rfl
  simp only [Function.comp, Message.mergeFrom, orOld, entries]
  split_ifs <;> rfl

/-- A host that is read into a host, as nested messages are. -/
theorem merge_host (old new : HostInfo) :
    (Message.format rt).merge rt (Message.serialize rt new) old =
      some (Message.mergeFrom old new) :=
  (reads_hostInfo documented new).merge_eq old

theorem reads_getHostResponse : Reads rt GetHostResponse := by
  intro new
  have seq := acts_uint32Field documented (Message.format rt) (show Small 1 by decide)
    (fun x (m : GetHostResponse) => { m with seq := x }) rfl new.seq
  have modid := acts_int32Field documented (Message.format rt) (show Small 2 by decide)
    (fun x (m : GetHostResponse) => { m with modid := x }) rfl new.modid
  have cmdid := acts_int32Field documented (Message.format rt) (show Small 3 by decide)
    (fun x (m : GetHostResponse) => { m with cmdid := x }) rfl new.cmdid
  have retcode := acts_int32Field documented (Message.format rt) (show Small 4 by decide)
    (fun x (m : GetHostResponse) => { m with retcode := x }) rfl new.retcode
  have host : ∀ h ∈ new.host.toList, (Message.format rt).Acts rt (messageField rt 5 h)
      fun (m : GetHostResponse) => { m with host := some (mergeHost m.host h) } := by
    intro h _
    apply acts_messageField documented _ (show Small 5 by decide)
      ((host_length documented h).trans_lt (by decide)) rfl
    intro m
    rw [merge_host documented]
    rfl
  apply ((((seq.append modid).append cmdid).append retcode).append
    (Format.Acts.flatMap host)).congr
  intro old
  simp only [Function.comp, Message.mergeFrom, orOld]
  cases new.host <;> split_ifs <;> rfl

theorem reads_reportRequest : Reads rt ReportRequest := by
  intro new
  have modid := acts_int32Field documented (Message.format rt) (show Small 1 by decide)
    (fun x (m : ReportRequest) => { m with modid := x }) rfl new.modid
  have cmdid := acts_int32Field documented (Message.format rt) (show Small 2 by decide)
    (fun x (m : ReportRequest) => { m with cmdid := x }) rfl new.cmdid
  have retcode := acts_int32Field documented (Message.format rt) (show Small 4 by decide)
    (fun x (m : ReportRequest) => { m with retcode := x }) rfl new.retcode
  have host : (Message.format rt).Acts rt (messageField rt 3 new.host)
      fun (m : ReportRequest) => { m with host := mergeHost (some m.host) new.host } := by
    apply acts_messageField documented _ (show Small 3 by decide)
      ((host_length documented new.host).trans_lt (by decide)) rfl
    intro m
    rw [merge_host documented]
    rfl
  apply (((modid.append cmdid).append host).append retcode).congr
  intro old
  simp only [Function.comp, Message.mergeFrom, orOld]
  split_ifs <;> rfl

end messages

/-! ### There and back -/

/-- Whole fields that the message type does not declare, as a later version of it may send. -/
def Undeclared (rt : Runtime) (M : Type) [Message M] (bytes : List UInt8) : Prop :=
  ∃ chunks : List (List UInt8), bytes = chunks.flatten ∧ ∀ chunk ∈ chunks, ∃ tag,
    rt.Holds tag (rt.skipField tag) () chunk ∧ (Message.format rt : Format M).slots tag = none

theorem Undeclared.acts {rt : Runtime} {M : Type} [Message M] {bytes : List UInt8}
    (extra : Undeclared rt M bytes) : (Message.format rt : Format M).Acts rt bytes id := by
  obtain ⟨chunks, rfl, fields⟩ := extra
  induction chunks with
  | nil => exact .nil
  | cons chunk chunks ih =>
    obtain ⟨tag, holds, undeclared⟩ := fields chunk List.mem_cons_self
    have first := Format.Acts.unknown holds undeclared
    have others := ih fun other member => fields other (List.mem_cons_of_mem chunk member)
    exact first.append others

/-- A message is read as it was written, and two in a row, with undeclared fields around and
between them, as the one merged into the other. -/
structure RoundTrips (rt : Runtime) (M : Type) [Message M] : Prop where
  same : ∀ m : M, parseFromArray rt (Message.serialize rt m) = some m
  merged : ∀ (a b : M) (before between after : List UInt8), Undeclared rt M before →
    Undeclared rt M between → Undeclared rt M after →
      parseFromArray rt (before ++ Message.serialize rt a ++ between ++ Message.serialize rt b ++
        after) = some (Message.mergeFrom a b)

theorem Reads.roundTrips {rt : Runtime} {M : Type} [Message M] (reads : Reads rt M)
    (starts : Starts M) : RoundTrips rt M := by
  constructor
  case same =>
    intro m
    rw [parseFromArray, (reads m).merge_eq, starts]
  case merged =>
    intro a b before between after front middle back
    have whole := (((front.acts.append (reads a)).append middle.acts).append (reads b)).append
      back.acts
    rw [parseFromArray, whole.merge_eq]
    simp only [Function.comp, id, starts a]

section messages

variable {rt : Runtime} (documented : rt.Documented)

include documented

theorem roundTrips_hostInfo : RoundTrips rt HostInfo :=
  (reads_hostInfo documented).roundTrips starts_hostInfo

theorem roundTrips_hostCallResult : RoundTrips rt HostCallResult :=
  (reads_hostCallResult documented).roundTrips starts_hostCallResult

theorem roundTrips_getRouteRequest : RoundTrips rt GetRouteRequest := by
  apply (reads_getRouteRequest documented).roundTrips
  intro req
  simp only [Message.mergeFrom, Message.zero, orOld_zero]

theorem roundTrips_getRouteResponse : RoundTrips rt GetRouteResponse := by
  apply (reads_getRouteResponse documented).roundTrips
  intro rsp
  simp only [Message.mergeFrom, Message.zero, orOld_zero, List.nil_append]

theorem roundTrips_reportStatusRequest : RoundTrips rt ReportStatusRequest := by
  apply (reads_reportStatusRequest documented).roundTrips
  intro req
  simp only [Message.mergeFrom, Message.zero, orOld_zero, List.nil_append]

theorem roundTrips_getHostRequest : RoundTrips rt GetHostRequest := by
  apply (reads_getHostRequest documented).roundTrips
  intro req
  simp only [Message.mergeFrom, Message.zero, orOld_zero]

theorem roundTrips_getHostResponse : RoundTrips rt GetHostResponse := by
  apply (reads_getHostResponse documented).roundTrips
  intro rsp
  obtain ⟨seq, modid, cmdid, retcode, host⟩ := rsp
  cases host with
  | none => simp only [Message.mergeFrom, Message.zero, orOld_zero]
  | some h =>
    have kept : mergeHost none h = h := starts_hostInfo h
    simp only [Message.mergeFrom, Message.zero, orOld_zero, kept]

theorem roundTrips_reportRequest : RoundTrips rt ReportRequest := by
  apply (reads_reportRequest documented).roundTrips
  intro req
  have kept : mergeHost (some ⟨0, 0⟩) req.host = req.host := starts_hostInfo req.host
  simp only [Message.mergeFrom, Message.zero, orOld_zero, kept]

end messages

/-- Every message of `lars.proto`, over a runtime that does as its documentation says. -/
theorem messages_round_trip {rt : Runtime} (documented : rt.Documented) :
    RoundTrips rt HostInfo ∧ RoundTrips rt GetRouteRequest ∧ RoundTrips rt GetRouteResponse ∧
      RoundTrips rt HostCallResult ∧ RoundTrips rt ReportStatusRequest ∧
      RoundTrips rt GetHostRequest ∧ RoundTrips rt GetHostResponse ∧
      RoundTrips rt ReportRequest :=
  ⟨roundTrips_hostInfo documented, roundTrips_getRouteRequest documented,
    roundTrips_getRouteResponse documented, roundTrips_hostCallResult documented,
    roundTrips_reportStatusRequest documented, roundTrips_getHostRequest documented,
    roundTrips_getHostResponse documented, roundTrips_reportRequest documented⟩

theorem messages_round_trip_wire :
    RoundTrips wire HostInfo ∧ RoundTrips wire GetRouteRequest ∧
      RoundTrips wire GetRouteResponse ∧ RoundTrips wire HostCallResult ∧
      RoundTrips wire ReportStatusRequest ∧ RoundTrips wire GetHostRequest ∧
      RoundTrips wire GetHostResponse ∧ RoundTrips wire ReportRequest :=
  messages_round_trip wire_documented

/-! ### Sizes -/

/-- `ByteSizeLong` is the length of what is written. -/
def Sized (rt : Runtime) (M : Type) [Message M] : Prop :=
  ∀ m : M, Message.byteSizeLong rt m = (Message.serialize rt m).length

section sizes

variable {rt : Runtime} (documented : rt.Documented) {number : Nat} (small : Small number)

include documented

section fields

include small

theorem int32Field_size (x : Int32) : (int32Field rt number x).length = int32Size rt x := by
  unfold int32Field int32Size
  split
  · exact documented.int32_length small x
  · rfl

theorem uint32Field_size (x : UInt32) : (uint32Field rt number x).length = uint32Size rt x := by
  unfold uint32Field uint32Size
  split
  · exact documented.uint32_length small x
  · rfl

theorem boolField_size (x : Bool) : (boolField rt number x).length = boolSize x := by
  unfold boolField boolSize
  split
  · exact documented.bool_length small x
  · rfl

theorem messageField_size {M : Type} [Message M] (sized : Sized rt M) (m : M) :
    (messageField rt number m).length = messageSize rt m := by
  rw [messageField, messageSize, documented.message_length small, sized m]

/-- The entries of a repeated field. -/
theorem messageFields_size {M : Type} [Message M] (sized : Sized rt M) (ms : List M) :
    (ms.flatMap (messageField rt number)).length = (ms.map (messageSize rt)).sum := by
  rw [List.length_flatMap]
  congr 1
  exact List.map_congr_left fun m _ => messageField_size documented small sized m

end fields

theorem sized_hostInfo : Sized rt HostInfo := by
  intro h
  have ip := int32Field_size documented (show Small 1 by decide) h.ip
  have port := int32Field_size documented (show Small 2 by decide) h.port
  simp only [Message.byteSizeLong, Message.serialize, List.length_append, ip, port]

theorem sized_hostCallResult : Sized rt HostCallResult := by
  intro res
  have ip := int32Field_size documented (show Small 1 by decide) res.ip
  have port := int32Field_size documented (show Small 2 by decide) res.port
  have succ := uint32Field_size documented (show Small 3 by decide) res.succ
  have err := uint32Field_size documented (show Small 4 by decide) res.err
  have overload := boolField_size documented (show Small 5 by decide) res.overload
  simp only [Message.byteSizeLong, Message.serialize, List.length_append, ip, port, succ, err,
    overload]

theorem sized_getRouteRequest : Sized rt GetRouteRequest := by
  intro req
  have modid := int32Field_size documented (show Small 1 by decide) req.modid
  have cmdid := int32Field_size documented (show Small 2 by decide) req.cmdid
  simp only [Message.byteSizeLong, Message.serialize, List.length_append, modid, cmdid]

theorem sized_getRouteResponse : Sized rt GetRouteResponse := by
  intro rsp
  have modid := int32Field_size documented (show Small 1 by decide) rsp.modid
  have cmdid := int32Field_size documented (show Small 2 by decide) rsp.cmdid
  have host := messageFields_size documented (show Small 3 by decide) (sized_hostInfo documented)
    rsp.host
  simp only [Message.byteSizeLong, Message.serialize, List.length_append, modid, cmdid, host]
  omega

theorem sized_reportStatusRequest : Sized rt ReportStatusRequest := by
  intro req
  have modid := int32Field_size documented (show Small 1 by decide) req.modid
  have cmdid := int32Field_size documented (show Small 2 by decide) req.cmdid
  have caller := int32Field_size documented (show Small 3 by decide) req.caller
  have results := messageFields_size documented (show Small 4 by decide)
    (sized_hostCallResult documented) req.results
  have ts := uint32Field_size documented (show Small 5 by decide) req.ts
  simp only [Message.byteSizeLong, Message.serialize, List.length_append, modid, cmdid, caller,
    results, ts]
  omega

theorem sized_getHostRequest : Sized rt GetHostRequest := by
  intro req
  have seq := uint32Field_size documented (show Small 1 by decide) req.seq
  have modid := int32Field_size documented (show Small 2 by decide) req.modid
  have cmdid := int32Field_size documented (show Small 3 by decide) req.cmdid
  simp only [Message.byteSizeLong, Message.serialize, List.length_append, seq, modid, cmdid]

theorem sized_getHostResponse : Sized rt GetHostResponse := by
  intro rsp
  have seq := uint32Field_size documented (show Small 1 by decide) rsp.seq
  have modid := int32Field_size documented (show Small 2 by decide) rsp.modid
  have cmdid := int32Field_size documented (show Small 3 by decide) rsp.cmdid
  have retcode := int32Field_size documented (show Small 4 by decide) rsp.retcode
  have host := messageFields_size documented (show Small 5 by decide) (sized_hostInfo documented)
    rsp.host.toList
  simp only [Message.byteSizeLong, Message.serialize, List.length_append, seq, modid, cmdid,
    retcode, host]
  omega

theorem sized_reportRequest : Sized rt ReportRequest := by
  intro req
  have modid := int32Field_size documented (show Small 1 by decide) req.modid
  have cmdid := int32Field_size documented (show Small 2 by decide) req.cmdid
  have host := messageField_size documented (show Small 3 by decide) (sized_hostInfo documented)
    req.host
  have retcode := int32Field_size documented (show Small 4 by decide) req.retcode
  simp only [Message.byteSizeLong, Message.serialize, List.length_append, modid, cmdid, host,
    retcode]
  omega

end sizes

theorem messages_sized {rt : Runtime} (documented : rt.Documented) :
    Sized rt HostInfo ∧ Sized rt GetRouteRequest ∧ Sized rt GetRouteResponse ∧
      Sized rt HostCallResult ∧ Sized rt ReportStatusRequest ∧ Sized rt GetHostRequest ∧
      Sized rt GetHostResponse ∧ Sized rt ReportRequest :=
  ⟨sized_hostInfo documented, sized_getRouteRequest documented,
    sized_getRouteResponse documented, sized_hostCallResult documented,
    sized_reportStatusRequest documented, sized_getHostRequest documented,
    sized_getHostResponse documented, sized_reportRequest documented⟩

theorem messages_sized_wire :
    Sized wire HostInfo ∧ Sized wire GetRouteRequest ∧ Sized wire GetRouteResponse ∧
      Sized wire HostCallResult ∧ Sized wire ReportStatusRequest ∧ Sized wire GetHostRequest ∧
      Sized wire GetHostResponse ∧ Sized wire ReportRequest :=
  messages_sized wire_documented

end Lars.Proto
