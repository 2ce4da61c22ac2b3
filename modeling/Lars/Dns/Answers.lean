import Lars.Dns.Subscribe

/-!
# Keys taken apart again

A request names its module by two numbers, a push finds the module under one
key and takes the numbers out of it. Hosts go through a key on both ways.
-/
namespace Lars.Dns

/-! ### Hosts -/

/-- The address is shifted out of the word, so it does not matter whether it was signed. -/
theorem value_eq_packKey (row : RouteDataRow) :
    row.value = packKey row.serverip.toInt32 (atoi row.serverport) := by
  have key := packKey_toNat row.serverip.toInt32 (atoi row.serverport)
  have port := signExtended_toNat (atoi row.serverport)
  have amount : UInt64.toNat 32 % 64 = 32 := by decide
  have small := row.serverip.toNat_lt
  have address := toInt_toInt32 row.serverip
  rw [Int.bmod_def] at address
  apply UInt64.toNat_inj.mp
  apply Int.natCast_inj.mp
  rw [key, RouteDataRow.value, UInt64.toNat_add, UInt64.toNat_shiftLeft, amount,
    Nat.shiftLeft_eq, UInt32.toNat_toUInt64]
  push_cast
  rw [port]
  split at address <;> omega

theorem hostOfKey_packKey {ip port : Int32} (positive : 0 ≤ port.toInt) :
    hostOfKey (packKey ip port) = ⟨ip, port⟩ := by
  have unsigned : ¬ port.toInt < 0 := by omega
  rw [hostOfKey, high_packKey, low_packKey, if_neg unsigned]

/-- A port that an `int` holds leaves the address alone. -/
theorem hostOfKey_value {row : RouteDataRow} (port : row.serverport.toNat < 2 ^ 31) :
    hostOfKey row.value = ⟨row.serverip.toInt32, row.serverport.toInt32⟩ := by
  have positive : 0 ≤ (atoi row.serverport).toInt := by
    have negative := atoi_neg_iff row.serverport
    omega
  rw [value_eq_packKey, hostOfKey_packKey positive, atoi]

/-! ### Modules -/

/-- The answer of `get_route` to a request. -/
def requestResponse (req : Proto.GetRouteRequest) (route : Route) : Proto.GetRouteResponse :=
  routeResponse req.modid req.cmdid (route.getHosts req.modid req.cmdid)

/-- The push is the answer to a request, but for a negative cmdid it is one for the module
before. -/
theorem pushResponse_packKey (modid cmdid : Int32) (route : Route) :
    pushResponse (packKey modid cmdid) route =
      requestResponse ⟨if cmdid.toInt < 0 then modid - 1 else modid, cmdid⟩ route := by
  rw [pushResponse, requestResponse, high_packKey, low_packKey]

private theorem pred_ne (n : Int32) : n - 1 ≠ n := by
  intro same
  have value := congrArg Int32.toInt same
  have one : Int32.toInt 1 = 1 := rfl
  have := n.toInt_lt; have := n.le_toInt
  rw [Int32.toInt_sub, one, Int.bmod_def] at value
  split at value <;> omega

/-- The push for a module of `RouteChange` names the module and the hosts that the answer to a
request for the module names. -/
structure PushesLikeRequest (modid cmdid : UInt32) (route : Route) : Prop where
  sameModid : (pushResponse (moduleKey modid cmdid) route).modid = atoi modid
  sameCmdid : (pushResponse (moduleKey modid cmdid) route).cmdid = atoi cmdid
  hosts : ∀ h, h ∈ (pushResponse (moduleKey modid cmdid) route).host ↔
    h ∈ (requestResponse ⟨atoi modid, atoi cmdid⟩ route).host

/-- A push answers like a request exactly when the column of the cmdid holds a number that an
`int` holds. -/
theorem pushesLikeRequest_iff (modid cmdid : UInt32) (route : Route) :
    PushesLikeRequest modid cmdid route ↔ cmdid.toNat < 2 ^ 31 := by
  have negative := atoi_neg_iff cmdid
  have push := pushResponse_packKey (atoi modid) (atoi cmdid) route
  constructor
  · intro alike
    by_contra large
    have same := alike.sameModid
    rw [moduleKey, push, if_pos (by omega)] at same
    exact pred_ne _ same
  · intro small
    rw [if_neg (by omega)] at push
    refine ⟨?_, ?_, fun h => ?_⟩
    · rw [moduleKey, push]
      rfl
    · rw [moduleKey, push]
      rfl
    · rw [moduleKey, push]

/-- Module 1 with the largest cmdid of the column: the push is for module 0, which has another
host. -/
theorem push_names_another_module :
    let route := Route.init ⟨[⟨1, 4294967295, 10, 80⟩, ⟨0, 4294967295, 20, 80⟩], 0, []⟩
    pushResponse (moduleKey 1 4294967295) route = ⟨0, -1, [⟨20, 80⟩]⟩ ∧
      requestResponse ⟨atoi 1, atoi 4294967295⟩ route = ⟨1, -1, [⟨10, 80⟩]⟩ ∧
      ¬ PushesLikeRequest 1 4294967295 route := by
  refine ⟨by decide, by decide, fun alike => ?_⟩
  exact absurd alike.sameModid (by decide)

end Lars.Dns
