import Lars.Codec

/-!
# The size of a route

The answer to a request for a route is the one message whose size depends on
the tables. Where that size decides what the program does, it is the size in
the documented encoding.
-/
namespace Lars.Proto

open Protobuf (Small wire wire_documented)

def GetRouteResponse.serialize (rsp : GetRouteResponse) : List UInt8 := Message.serialize wire rsp

/-- A response takes at least two bytes for every host, and at most twenty-four. -/
theorem GetRouteResponse.serialize_length (rsp : GetRouteResponse) :
    2 * rsp.host.length ≤ rsp.serialize.length ∧
      rsp.serialize.length ≤ 22 + 24 * rsp.host.length := by
  have hosts : ∀ hs : List HostInfo,
      2 * hs.length ≤ (hs.flatMap (messageField wire 3)).length ∧
        (hs.flatMap (messageField wire 3)).length ≤ 24 * hs.length := by
    intro hs
    induction hs with
    | nil => simp
    | cons h hs ih =>
      have one := hostField_length wire_documented (show Small 3 by decide) h
      rw [List.flatMap_cons, List.length_append, List.length_cons]
      omega
  have modid := int32Field_length_le wire_documented (show Small 1 by decide) rsp.modid
  have cmdid := int32Field_length_le wire_documented (show Small 2 by decide) rsp.cmdid
  have := hosts rsp.host
  simp only [GetRouteResponse.serialize, Message.serialize, List.length_append]
  omega

end Lars.Proto
