import Lars.Base
import Mathlib.Data.List.AList
import Mathlib.Data.Rat.Defs
import Mathlib.Algebra.Order.Ring.Rat

/-!
# The load balancer of one module

`load_balance` keeps the hosts of one modid/cmdid pair. The host records live
on the heap; the map and the two lists hold pointers to them, so a pointer can
outlive its record. The heap is therefore part of the model: `new` takes a
fresh address, `delete` empties its cell, and following a pointer to an empty
cell is a fault.

Every call of `time(NULL)` is an argument of the operation that makes it.
-/
namespace Lars.Agent

open Proto (retSucc retOverload)

/-- A threshold of the configuration, as the one question the code asks about it: is
`n * 1.0 / d` above it? The comparison is made in doubles, so it is left open here. -/
structure Rate where
  exceededBy : UInt32 → UInt32 → Bool

/-- The threshold taken as an exact rational. A quotient by zero is infinite, or not a
number when its numerator is zero too, and only the former is above the threshold. -/
def Rate.exact (q : ℚ) : Rate where
  exceededBy n d := if d = 0 then n != 0 else decide (q * (d.toNat : ℚ) < (n.toNat : ℚ))

/-- `load_balance_config` -/
structure Config where
  probeNum : Int
  initSuccCnt : Int32
  initErrCnt : Int32
  errRate : Rate
  succRate : Rate
  continErrLimit : Int32
  continSuccLimit : Int32
  idleTimeout : Int
  overloadTimeout : Int
  updateTimeout : Int

/-- The defaults of `init_lb_agent`. -/
def Config.default : Config where
  probeNum := 10
  initSuccCnt := 180
  initErrCnt := 5
  errRate := .exact (1 / 10)
  succRate := .exact (95 / 100)
  continErrLimit := 10
  continSuccLimit := 10
  idleTimeout := 15
  overloadTimeout := 15
  updateTimeout := 15

/-! ### `host_info` -/

structure HostInfo where
  ip : UInt32
  port : Int32
  vsucc : UInt32
  verr : UInt32
  rsucc : UInt32
  rerr : UInt32
  continSucc : UInt32
  continErr : UInt32
  idleTs : Int
  overloadTs : Int
  overload : Bool
  deriving DecidableEq, Repr

namespace HostInfo

/-- The constructor. It leaves `overload_ts` unset; no branch reads that field before
`set_overload` has written it. -/
def new (ip : UInt32) (port : Int32) (initSucc : Int32) (ts : Int) : HostInfo where
  ip := ip
  port := port
  vsucc := initSucc.toUInt32
  verr := 0
  rsucc := 0
  rerr := 0
  continSucc := 0
  continErr := 0
  idleTs := ts
  overloadTs := 0
  overload := false

def setOverload (cfg : Config) (ts : Int) (hi : HostInfo) : HostInfo :=
  { hi with
    vsucc := 0, verr := cfg.initErrCnt.toUInt32, rsucc := 0, rerr := 0
    continSucc := 0, continErr := 0, overload := true, overloadTs := ts }

def setIdle (cfg : Config) (ts : Int) (hi : HostInfo) : HostInfo :=
  { hi with
    vsucc := cfg.initSuccCnt.toUInt32, verr := 0, rsucc := 0, rerr := 0
    continSucc := 0, continErr := 0, overload := false, idleTs := ts }

/-- The key under which the host is filed. -/
def key (hi : HostInfo) : UInt64 := packKey hi.ip.toInt32 hi.port

/-- The host as a message names it. -/
def toProto (hi : HostInfo) : Proto.HostInfo := ⟨hi.ip.toInt32, hi.port⟩

/-- First part of `report`: count the result and the run of equal results it continues. -/
def count (retcode : Int32) (hi : HostInfo) : HostInfo :=
  if retcode = retSucc then
    { hi with
      vsucc := hi.vsucc + 1, rsucc := hi.rsucc + 1
      continSucc := hi.continSucc + 1, continErr := 0 }
  else
    { hi with
      verr := hi.verr + 1, rerr := hi.rerr + 1
      continErr := hi.continErr + 1, continSucc := 0 }

/-- An idle host has failed too often. -/
def isOverload (cfg : Config) (hi : HostInfo) : Bool :=
  cfg.errRate.exceededBy hi.verr (hi.vsucc + hi.verr) ||
    decide (hi.continErr ≥ cfg.continErrLimit.toUInt32)

/-- An overloaded host has succeeded often enough. -/
def isIdle (cfg : Config) (hi : HostInfo) : Bool :=
  cfg.succRate.exceededBy hi.vsucc (hi.vsucc + hi.verr) ||
    decide (hi.continSucc ≥ cfg.continSuccLimit.toUInt32)

end HostInfo

/-! ### `load_balance` -/

inductive Status where
  | pulling
  | new
  deriving DecidableEq, Repr

/-- The address of a `host_info`. -/
abbrev Ptr := Nat

structure LoadBalance where
  status : Status
  lastUpdateTime : Int
  modid : Int32
  cmdid : Int32
  hostMap : AList (fun _ : UInt64 => Ptr)
  idleList : List Ptr
  overloadList : List Ptr
  accessCnt : Int
  heap : Ptr → Option HostInfo
  nextPtr : Ptr

namespace LoadBalance

/-- The constructor. -/
def init (modid cmdid : Int32) (now : Int) : LoadBalance where
  status := .new
  lastUpdateTime := now
  modid := modid
  cmdid := cmdid
  hostMap := ∅
  idleList := []
  overloadList := []
  accessCnt := 0
  heap := fun _ => none
  nextPtr := 0

def empty (lb : LoadBalance) : Bool := lb.hostMap.entries.isEmpty

/-- Write a record through its pointer. -/
def store (lb : LoadBalance) (p : Ptr) (hi : HostInfo) : LoadBalance :=
  { lb with heap := Function.update lb.heap p (some hi) }

/-- `std::list::remove`: drop every occurrence. -/
def remove (l : List Ptr) (p : Ptr) : List Ptr := l.filter (· ≠ p)

/-- `pull`: the request goes to `dns_queue`. -/
def pull (lb : LoadBalance) : LoadBalance × Proto.GetRouteRequest :=
  ({ lb with status := .pulling }, ⟨lb.modid, lb.cmdid⟩)

/-! #### `update` -/

/-- One round of the first loop of `update`: a host that the map does not know is new. -/
def insertHost (cfg : Config) (ts : Int) (h : Proto.HostInfo) (lb : LoadBalance) : LoadBalance :=
  match lb.hostMap.lookup h.key with
  | some _ => lb
  | none =>
    { lb with
      heap := Function.update lb.heap lb.nextPtr
        (some (HostInfo.new h.ip.toUInt32 h.port cfg.initSuccCnt ts))
      nextPtr := lb.nextPtr + 1
      hostMap := lb.hostMap.insert h.key lb.nextPtr
      idleList := lb.idleList ++ [lb.nextPtr] }

/-- The first loop; the constructor of the `i`-th new record reads the clock as `ts i`. -/
def insertHosts (cfg : Config) (ts : Nat → Int) : Nat → List Proto.HostInfo → LoadBalance → LoadBalance
  | _, [], lb => lb
  | i, h :: hs, lb => insertHosts cfg ts (i + 1) hs (lb.insertHost cfg (ts i) h)

/-- The second loop: the keys that the answer does not name. -/
def needDelete (remoteHosts : List UInt64) (lb : LoadBalance) : List UInt64 :=
  lb.hostMap.keys.filter (· ∉ remoteHosts)

/-- One round of the third loop. The record is deleted and taken off its list; the entry of
`_host_map` stays. -/
def deleteHost (lb : LoadBalance) (key : UInt64) : Except Fault LoadBalance :=
  match lb.hostMap.lookup key with
  | none => .error .useAfterFree
  | some p =>
    match lb.heap p with
    | none => .error .useAfterFree
    | some hi =>
      .ok <|
        if hi.overload then
          { lb with
            overloadList := remove lb.overloadList p, heap := Function.update lb.heap p none }
        else
          { lb with idleList := remove lb.idleList p, heap := Function.update lb.heap p none }

/-- The third loop. -/
def deleteHosts : List UInt64 → LoadBalance → Except Fault LoadBalance
  | [], lb => .ok lb
  | key :: keys, lb =>
    match lb.deleteHost key with
    | .ok lb => deleteHosts keys lb
    | .error e => .error e

def update (cfg : Config) (now : Int) (ts : Nat → Int) (rsp : Proto.GetRouteResponse)
    (lb : LoadBalance) : Except Fault LoadBalance :=
  if rsp.host = [] then .error .assertion
  else
    let remoteHosts := rsp.host.map Proto.HostInfo.key
    let inserted := lb.insertHosts cfg ts 0 rsp.host
    match inserted.deleteHosts (inserted.needDelete remoteHosts) with
    | .ok lb => .ok { lb with lastUpdateTime := now, status := .new }
    | .error e => .error e

/-! #### `choice_one_host` -/

/-- `get_host_from_list`: the head of the list, which moves to its end. -/
def getHostFromList (lb : LoadBalance) (l : List Ptr) : Except Fault (Proto.HostInfo × List Ptr) :=
  match l with
  | [] => .error .emptyFront
  | p :: rest =>
    match lb.heap p with
    | none => .error .useAfterFree
    | some hi => .ok (hi.toProto, rest ++ [p])

/-- Serve the head of the overload list and start counting anew. -/
def probeOverload (lb : LoadBalance) : Except Fault (Int32 × Option Proto.HostInfo × LoadBalance) :=
  match lb.getHostFromList lb.overloadList with
  | .ok (h, l) => .ok (retSucc, some h, { lb with accessCnt := 0, overloadList := l })
  | .error e => .error e

/-- Serve the head of the idle list. -/
def serveIdle (lb : LoadBalance) : Except Fault (Int32 × Option Proto.HostInfo × LoadBalance) :=
  match lb.getHostFromList lb.idleList with
  | .ok (h, l) => .ok (retSucc, some h, { lb with idleList := l })
  | .error e => .error e

def choiceOneHost (cfg : Config) (lb : LoadBalance) :
    Except Fault (Int32 × Option Proto.HostInfo × LoadBalance) :=
  if lb.idleList = [] then
    if lb.accessCnt ≥ cfg.probeNum then lb.probeOverload
    else .ok (retOverload, none, { lb with accessCnt := lb.accessCnt + 1 })
  else if lb.overloadList = [] then lb.serveIdle
  else if lb.accessCnt ≥ cfg.probeNum then lb.probeOverload
  else { lb with accessCnt := lb.accessCnt + 1 }.serveIdle

/-! #### `get_all_hosts` -/

/-- Follow a list of pointers and read each record. -/
def readAll (lb : LoadBalance) : List Ptr → Except Fault (List HostInfo)
  | [] => .ok []
  | p :: ps =>
    match lb.heap p, lb.readAll ps with
    | some hi, .ok his => .ok (hi :: his)
    | none, _ => .error .useAfterFree
    | some _, .error e => .error e

/-- The pointers in the order of the map. -/
def getAllHosts (lb : LoadBalance) : List Ptr := lb.hostMap.entries.map (·.2)

/-! #### `report` -/

/-- The idle host `p` becomes overloaded. -/
def toOverload (cfg : Config) (ts : Int) (p : Ptr) (hi : HostInfo) (lb : LoadBalance) : LoadBalance :=
  { lb.store p (hi.setOverload cfg ts) with
    idleList := remove lb.idleList p, overloadList := lb.overloadList ++ [p] }

/-- The overloaded host `p` becomes idle. -/
def toIdle (cfg : Config) (ts : Int) (p : Ptr) (hi : HostInfo) (lb : LoadBalance) : LoadBalance :=
  { lb.store p (hi.setIdle cfg ts) with
    overloadList := remove lb.overloadList p, idleList := lb.idleList ++ [p] }

/-- Last part of `report`: an idle host starts a new window, an overloaded one is tried again. -/
def checkTimeout (cfg : Config) (now ts : Int) (p : Ptr) (hi : HostInfo) (lb : LoadBalance) :
    LoadBalance :=
  if hi.overload = false then
    if now - hi.idleTs ≥ cfg.idleTimeout then lb.store p (hi.setIdle cfg ts) else lb.store p hi
  else if now - hi.overloadTs ≥ cfg.overloadTimeout then lb.toIdle cfg ts p hi
  else lb.store p hi

/-- The part of `report` after the counters: `hi` is the record with the result counted. -/
def judge (cfg : Config) (now ts : Int) (retcode : Int32) (p : Ptr) (hi : HostInfo)
    (lb : LoadBalance) : LoadBalance :=
  if hi.overload = false ∧ retcode ≠ retSucc then
    if hi.isOverload cfg then lb.toOverload cfg ts p hi else lb.checkTimeout cfg now ts p hi
  else if hi.overload = true ∧ retcode = retSucc then
    if hi.isIdle cfg then lb.toIdle cfg ts p hi else lb.checkTimeout cfg now ts p hi
  else lb.checkTimeout cfg now ts p hi

def report (cfg : Config) (now ts : Int) (ip port retcode : Int32) (lb : LoadBalance) :
    Except Fault LoadBalance :=
  match lb.hostMap.lookup (packKey ip port) with
  | none => .ok lb
  | some p =>
    match lb.heap p with
    | none => .error .useAfterFree
    | some hi => .ok (lb.judge cfg now ts retcode p (hi.count retcode))

/-! #### `commit` -/

/-- One entry of the report; the flag is that of the list, not of the record. -/
def callResult (overload : Bool) (hi : HostInfo) : Proto.HostCallResult :=
  ⟨hi.ip.toInt32, hi.port, hi.rsucc, hi.rerr, overload⟩

/-- `commit`: what is sent to `report_queue`, if anything. -/
def commit (now : Int) (lb : LoadBalance) : Except Fault (Option Proto.ReportStatusRequest) :=
  if lb.empty then .ok none
  else
    match lb.readAll lb.idleList, lb.readAll lb.overloadList with
    | .ok idle, .ok overloaded =>
      .ok <| some
        { modid := lb.modid, cmdid := lb.cmdid, caller := 127, ts := UInt32.ofInt now
          results := idle.map (callResult false) ++ overloaded.map (callResult true) }
    | .error e, _ => .error e
    | .ok _, .error e => .error e

end LoadBalance

end Lars.Agent
