import Lars.Agent.Isolation
import Lars.Lib.Run

/-!
# The load balancers of a process on one heap

The records of all modules are on the heap of the process. An address that is
freed for one module may be given to another, and an entry of `_host_map` that
outlives its record then leads to a record of the other. The addresses that the
allocator finds are part of the operation that needs them.
-/
namespace Lars.Agent

open Proto (retSucc retNoexist)

/-- The members of a `load_balance`; its records are elsewhere. -/
structure Members where
  status : Status
  lastUpdateTime : Int
  modid : Int32
  cmdid : Int32
  hostMap : AList (fun _ : UInt64 => Ptr)
  idleList : List Ptr
  overloadList : List Ptr
  accessCnt : Int

/-- The load balancer with these members, on a heap. -/
def Members.on (heap : Ptr → Option HostInfo) (o : Members) : LoadBalance where
  status := o.status
  lastUpdateTime := o.lastUpdateTime
  modid := o.modid
  cmdid := o.cmdid
  hostMap := o.hostMap
  idleList := o.idleList
  overloadList := o.overloadList
  accessCnt := o.accessCnt
  heap := heap
  nextPtr := 0

namespace LoadBalance

def members (lb : LoadBalance) : Members where
  status := lb.status
  lastUpdateTime := lb.lastUpdateTime
  modid := lb.modid
  cmdid := lb.cmdid
  hostMap := lb.hostMap
  idleList := lb.idleList
  overloadList := lb.overloadList
  accessCnt := lb.accessCnt

/-- `new host_info` where the allocator has found room for it. -/
def insertHostAt (cfg : Config) (ts : Int) (p : Ptr) (h : Proto.HostInfo) (lb : LoadBalance) :
    LoadBalance :=
  { lb with nextPtr := p }.insertHost cfg ts h

/-- The first loop of `update`; the `i`-th record is put at `addr i`. -/
def insertHostsAt (cfg : Config) (ts : Nat → Int) (addr : Nat → Ptr) :
    Nat → List Proto.HostInfo → LoadBalance → LoadBalance
  | _, [], lb => lb
  | i, h :: hs, lb => insertHostsAt cfg ts addr (i + 1) hs (lb.insertHostAt cfg (ts i) (addr i) h)

def updateAt (cfg : Config) (now : Int) (ts : Nat → Int) (addr : Nat → Ptr)
    (rsp : Proto.GetRouteResponse) (lb : LoadBalance) : Except Fault LoadBalance :=
  if rsp.host = [] then .error .assertion
  else
    let remoteHosts := rsp.host.map Proto.HostInfo.key
    let inserted := lb.insertHostsAt cfg ts addr 0 rsp.host
    match inserted.deleteHosts (inserted.needDelete remoteHosts) with
    | .ok lb => .ok { lb with lastUpdateTime := now, status := .new }
    | .error e => .error e

/-- The addresses that the loop uses are not in use. -/
def FreshAt (cfg : Config) (ts : Nat → Int) (addr : Nat → Ptr) :
    Nat → List Proto.HostInfo → LoadBalance → Prop
  | _, [], _ => True
  | i, h :: hs, lb => (h.key ∉ lb.hostMap → lb.heap (addr i) = none) ∧
    FreshAt cfg ts addr (i + 1) hs (lb.insertHostAt cfg (ts i) (addr i) h)

/-- What a load balancer has, wherever on the heap it is. -/
structure Contents where
  status : Status
  lastUpdateTime : Int
  modid : Int32
  cmdid : Int32
  keys : List UInt64
  idle : List (Option HostInfo)
  overloaded : List (Option HostInfo)
  accessCnt : Int

def contents (lb : LoadBalance) : Contents where
  status := lb.status
  lastUpdateTime := lb.lastUpdateTime
  modid := lb.modid
  cmdid := lb.cmdid
  keys := lb.hostMap.keys
  idle := lb.idleList.map lb.heap
  overloaded := lb.overloadList.map lb.heap
  accessCnt := lb.accessCnt

/-- The entry of `_host_map` leads to the record of its host, which is on one of the lists. -/
def Live (lb : LoadBalance) (key : UInt64) : Prop :=
  ∃ p ∈ lb.idleList ++ lb.overloadList, lb.hostMap.lookup key = some p ∧
    ∃ hi, lb.heap p = some hi ∧ hi.key = key

end LoadBalance

/-- `_route_lb_map`, and the heap that it shares with whatever else has records. -/
structure HeapRouteLb where
  lbs : AList (fun _ : UInt64 => Members)
  heap : Ptr → Option HostInfo

/-- An operation, with the addresses at which the allocator puts new records. -/
structure HeapOp where
  op : RouteOp
  addr : Nat → Ptr

namespace HeapRouteLb

def init : HeapRouteLb := ⟨∅, fun _ => none⟩

/-- What an operation leaves of the load balancer that is filed under the key. -/
def store (key : UInt64) (s : HeapRouteLb) (lb : LoadBalance) : HeapRouteLb :=
  ⟨s.lbs.insert key lb.members, lb.heap⟩

def updateHost (cfg : Config) (now : Int) (ts : Nat → Int) (addr : Nat → Ptr)
    (modid cmdid : Int32) (rsp : Proto.GetRouteResponse) (s : HeapRouteLb) :
    Except Fault HeapRouteLb :=
  match s.lbs.lookup (packKey modid cmdid) with
  | none => .ok s
  | some o =>
    -- `delete lb` destroys the map and the lists, and no record
    if rsp.host = [] then .ok { s with lbs := s.lbs.erase (packKey modid cmdid) }
    else ((o.on s.heap).updateAt cfg now ts addr rsp).map (s.store (packKey modid cmdid))

/-- The branch of `get_host` and `get_route` for a module that is not in the table. -/
def pullNew (now : Int) (modid cmdid : Int32) (s : HeapRouteLb) :
    HeapRouteLb × List Proto.GetRouteRequest :=
  let pulled := (LoadBalance.init modid cmdid now).pull
  ({ s with lbs := s.lbs.insert (packKey modid cmdid) pulled.1.members }, [pulled.2])

def getHost (cfg : Config) (now : Int) (modid cmdid : Int32) (rsp : Proto.GetHostResponse)
    (s : HeapRouteLb) : Except Fault (Answer × HeapRouteLb) :=
  match s.lbs.lookup (packKey modid cmdid) with
  | some o =>
    if (o.on s.heap).empty then .ok (.host retSucc { rsp with retcode := retNoexist } [], s)
    else
      match (o.on s.heap).choiceOneHost cfg with
      | .error e => .error e
      | .ok (ret, host, lb) =>
        let (lb, sent) := RouteLb.pullIfOld cfg now lb
        .ok (.host ret { rsp with retcode := ret, host := host <|> rsp.host } sent,
          s.store (packKey modid cmdid) lb)
  | none =>
    let (s, sent) := s.pullNew now modid cmdid
    .ok (.host retNoexist { rsp with retcode := retNoexist } sent, s)

def reportHost (cfg : Config) (now ts tc : Int) (req : Proto.ReportRequest) (s : HeapRouteLb) :
    Except Fault (Answer × HeapRouteLb) :=
  match s.lbs.lookup (packKey req.modid req.cmdid) with
  | none => .ok (.reported none, s)
  | some o =>
    match (o.on s.heap).report cfg now ts req.host.ip req.host.port req.retcode with
    | .error e => .error e
    | .ok lb =>
      match lb.commit tc with
      | .error e => .error e
      | .ok sent => .ok (.reported sent, s.store (packKey req.modid req.cmdid) lb)

def resetLbStatus (s : HeapRouteLb) : HeapRouteLb where
  lbs :=
    { entries := s.lbs.entries.map fun e => ⟨e.1, { e.2 with status := .new }⟩
      nodupKeys := by
        have same : (s.lbs.entries.map fun e : (_ : UInt64) × Members =>
            (⟨e.1, { e.2 with status := .new }⟩ : (_ : UInt64) × Members)).keys =
              s.lbs.entries.keys := by
          simp [List.keys, Function.comp_def]
        rw [List.NodupKeys, same]
        exact s.lbs.nodupKeys }
  heap := s.heap

def getRoute (cfg : Config) (now : Int) (modid cmdid : Int32) (rsp : Proto.GetRouteResponse)
    (s : HeapRouteLb) : Except Fault (Answer × HeapRouteLb) :=
  match s.lbs.lookup (packKey modid cmdid) with
  | some o =>
    match (o.on s.heap).readAll (o.on s.heap).getAllHosts with
    | .error e => .error e
    | .ok hosts =>
      let (lb, sent) := RouteLb.pullIfOld cfg now (o.on s.heap)
      .ok (.route retSucc { rsp with host := rsp.host ++ hosts.map HostInfo.toProto } sent,
        s.store (packKey modid cmdid) lb)
  | none =>
    let (s, sent) := s.pullNew now modid cmdid
    .ok (.route retNoexist rsp sent, s)

def serve (cfg : Config) (s : HeapRouteLb) (op : HeapOp) : Except Fault (Answer × HeapRouteLb) :=
  match op.op with
  | .getHost now modid cmdid rsp => s.getHost cfg now modid cmdid rsp
  | .getRoute now modid cmdid rsp => s.getRoute cfg now modid cmdid rsp
  | .updateHost now ts modid cmdid rsp =>
    (s.updateHost cfg now ts op.addr modid cmdid rsp).map fun t => (.updated, t)
  | .reportHost now ts tc req => s.reportHost cfg now ts tc req
  | .resetLbStatus => .ok (.reset, s.resetLbStatus)

def step (cfg : Config) (s : HeapRouteLb) (op : HeapOp) : Except Fault HeapRouteLb :=
  (s.serve cfg op).map Prod.snd

/-- The load balancer of a module. -/
def entry (s : HeapRouteLb) (m : Int32 × Int32) : Option LoadBalance :=
  (s.lbs.lookup (packKey m.1 m.2)).map (·.on s.heap)

def contents (s : HeapRouteLb) (m : Int32 × Int32) : Option LoadBalance.Contents :=
  (s.entry m).map LoadBalance.contents

/-- The operations for a module, with what they were answered. -/
def answersFor (m : Int32 × Int32) (log : List (HeapOp × Answer)) : List (RouteOp × Answer) :=
  (log.filter (·.1.op.isFor m)).map fun e => (e.1.op, e.2)

/-- The allocator gives out no address that is in use. -/
def Fresh (cfg : Config) (s : HeapRouteLb) (op : HeapOp) : Prop :=
  match op.op with
  | .updateHost _ ts modid cmdid rsp => ∀ lb, s.entry (modid, cmdid) = some lb →
    lb.FreshAt cfg ts op.addr 0 rsp.host
  | _ => True

/-- The condition on an operation: it follows no entry of `_host_map` whose record was deleted.
`report_host` follows the entry of its host, `update_host` those that the answer does not name,
`get_route` all of them. And `get_host` does not take the first of an empty list, to which it comes
if all hosts of the map were deleted. -/
def Intact (cfg : Config) (s : HeapRouteLb) (op : HeapOp) : Prop :=
  match op.op with
  | .getHost _ modid cmdid _ => ∀ lb, s.entry (modid, cmdid) = some lb → lb.empty = false →
    lb.idleList = [] → lb.overloadList = [] → lb.accessCnt < cfg.probeNum
  | .getRoute _ modid cmdid _ => ∀ lb, s.entry (modid, cmdid) = some lb →
    ∀ k ∈ lb.hostMap, lb.Live k
  | .updateHost _ _ modid cmdid rsp => ∀ lb, s.entry (modid, cmdid) = some lb → rsp.host ≠ [] →
    ∀ k ∈ lb.hostMap, k ∉ rsp.host.map Proto.HostInfo.key → lb.Live k
  | .reportHost _ _ _ req => ∀ lb, s.entry (req.modid, req.cmdid) = some lb →
    packKey req.host.ip req.host.port ∈ lb.hostMap → lb.Live (packKey req.host.ip req.host.port)
  | .resetLbStatus => True

end HeapRouteLb

end Lars.Agent
