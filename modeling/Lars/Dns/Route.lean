import Lars.Base
import Mathlib.Data.List.AList

/-!
# The routes of the DNS

The tables that the web console writes and `Route` reads, and the two maps of
`Route`: requests are answered from one while the other is being filled.
-/
namespace Lars.Dns

/-- `atoi` on the decimal text of an unsigned column. -/
def atoi (n : UInt32) : Int32 := n.toInt32

theorem atoi_le (n : UInt32) : (atoi n).toInt ≤ n.toNat := by
  have small := n.toNat_lt
  rw [atoi, toInt_toInt32, Int.bmod_def]
  split <;> omega

/-- Columns from 2^31 on are read as negative numbers. -/
theorem atoi_neg_iff (n : UInt32) : (atoi n).toInt < 0 ↔ 2 ^ 31 ≤ n.toNat := by
  have small := n.toNat_lt
  rw [atoi, toInt_toInt32, Int.bmod_def]
  split <;> omega

/-! ### The tables -/

structure RouteDataRow where
  modid : UInt32
  cmdid : UInt32
  serverip : UInt32
  serverport : UInt32
  deriving DecidableEq

structure RouteChangeRow where
  modid : UInt32
  cmdid : UInt32
  version : UInt32
  deriving DecidableEq

/-- The committed tables; `RouteVersion` has the one row that the installation puts into it. -/
structure Tables where
  routeData : List RouteDataRow
  routeVersion : UInt32
  routeChange : List RouteChangeRow

/-- The key of a module, as the rows of the tables give it. -/
def moduleKey (modid cmdid : UInt32) : UInt64 := packKey (atoi modid) (atoi cmdid)

/-- The key of a host: the address is unsigned here, the port is an `int`. -/
def RouteDataRow.value (row : RouteDataRow) : UInt64 :=
  (row.serverip.toUInt64 <<< 32) + (atoi row.serverport).toInt64.toUInt64

/-! ### `Route` -/

/-- `route_map`: modules to sets of hosts. -/
abbrev RouteMap := AList fun _ : UInt64 => List UInt64

/-- `(*map)[key].insert(value)` -/
def RouteMap.add (map : RouteMap) (row : RouteDataRow) : RouteMap :=
  let key := moduleKey row.modid row.cmdid
  map.insert key (((map.lookup key).getD []).insert row.value)

structure Route where
  version : Int
  dataPointer : RouteMap
  tempPointer : RouteMap

namespace Route

def loadRouteData (t : Tables) (r : Route) : Route :=
  { r with tempPointer := t.routeData.foldl RouteMap.add ∅ }

/-- The constructor, with `build_maps`. -/
def init (t : Tables) : Route where
  version := 0
  dataPointer := t.routeData.foldl RouteMap.add ∅
  tempPointer := ∅

def swap (r : Route) : Route :=
  { r with dataPointer := r.tempPointer, tempPointer := r.dataPointer }

def getHosts (modid cmdid : Int32) (r : Route) : List UInt64 :=
  (r.dataPointer.lookup (packKey modid cmdid)).getD []

/-- `load_version`, with its return value. -/
def loadVersion (t : Tables) (r : Route) : Int × Route :=
  let newVersion := (atoi t.routeVersion).toInt
  if newVersion = r.version then (0, r) else (1, { r with version := newVersion })

/-- `load_changes`: the modules of all rows that are not older than the version remembered. -/
def loadChanges (t : Tables) (r : Route) : List UInt64 :=
  (t.routeChange.filter fun row => r.version ≤ row.version.toNat).map
    fun row => moduleKey row.modid row.cmdid

end Route

end Lars.Dns
