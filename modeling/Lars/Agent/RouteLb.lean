import Lars.Agent.LoadBalance

/-!
# The route table of one UDP server

`route_lb` keeps one `load_balance` per module. Each operation runs under
`_mutex`, so it is one step. A request for the DNS that `pull` puts into
`dns_queue`, and a status report that `commit` puts into `report_queue`, are
part of what the operation returns.
-/
namespace Lars.Agent

open Proto (retSucc retNoexist)

/-- `_route_lb_map` -/
structure RouteLb where
  lbs : AList (fun _ : UInt64 => LoadBalance)

/-- What an operation on behalf of the API gives back: its own return value, the response as
filled in, the requests sent to `dns_queue` and the table afterwards. -/
structure Reply (ρ : Type) where
  ret : Int32
  rsp : ρ
  sent : List Proto.GetRouteRequest
  next : RouteLb

namespace RouteLb

def init : RouteLb := ⟨∅⟩

def updateHost (cfg : Config) (now : Int) (ts : Nat → Int) (modid cmdid : Int32)
    (rsp : Proto.GetRouteResponse) (s : RouteLb) : Except Fault RouteLb :=
  match s.lbs.lookup (packKey modid cmdid) with
  | none => .ok s
  | some lb =>
    if rsp.host = [] then .ok ⟨s.lbs.erase (packKey modid cmdid)⟩
    else
      match lb.update cfg now ts rsp with
      | .ok lb => .ok ⟨s.lbs.insert (packKey modid cmdid) lb⟩
      | .error e => .error e

/-- The pull that `get_host` and `get_route` make when the route is old. -/
def pullIfOld (cfg : Config) (now : Int) (lb : LoadBalance) :
    LoadBalance × List Proto.GetRouteRequest :=
  if lb.status = .new ∧ now - lb.lastUpdateTime > cfg.updateTimeout then
    (lb.pull.1, [lb.pull.2])
  else (lb, [])

/-- The branch of `get_host` and `get_route` for a module that is not in the table. -/
def pullNew (now : Int) (modid cmdid : Int32) (s : RouteLb) : RouteLb × List Proto.GetRouteRequest :=
  let pulled := (LoadBalance.init modid cmdid now).pull
  (⟨s.lbs.insert (packKey modid cmdid) pulled.1⟩, [pulled.2])

/-- A load balancer without hosts answers `RET_NOEXIST` in the response; the return value of
the call itself stays `RET_SUCC`. -/
def getHost (cfg : Config) (now : Int) (modid cmdid : Int32) (rsp : Proto.GetHostResponse)
    (s : RouteLb) : Except Fault (Reply Proto.GetHostResponse) :=
  match s.lbs.lookup (packKey modid cmdid) with
  | some lb =>
    if lb.empty then .ok ⟨retSucc, { rsp with retcode := retNoexist }, [], s⟩
    else
      match lb.choiceOneHost cfg with
      | .error e => .error e
      | .ok (ret, host, lb) =>
        let (lb, sent) := pullIfOld cfg now lb
        .ok ⟨ret, { rsp with retcode := ret, host := host <|> rsp.host }, sent,
          ⟨s.lbs.insert (packKey modid cmdid) lb⟩⟩
  | none =>
    let (s, sent) := s.pullNew now modid cmdid
    .ok ⟨retNoexist, { rsp with retcode := retNoexist }, sent, s⟩

/-- `report_host`: the status report is what goes to `report_queue`; `tc` is the clock reading
that stamps it. -/
def reportHost (cfg : Config) (now ts tc : Int) (req : Proto.ReportRequest) (s : RouteLb) :
    Except Fault (Option Proto.ReportStatusRequest × RouteLb) :=
  match s.lbs.lookup (packKey req.modid req.cmdid) with
  | none => .ok (none, s)
  | some lb =>
    match lb.report cfg now ts req.host.ip req.host.port req.retcode with
    | .error e => .error e
    | .ok lb =>
      match lb.commit tc with
      | .error e => .error e
      | .ok sent => .ok (sent, ⟨s.lbs.insert (packKey req.modid req.cmdid) lb⟩)

/-- `reset_lb_status`: every load balancer may pull again. -/
def resetLbStatus (s : RouteLb) : RouteLb where
  lbs :=
    { entries := s.lbs.entries.map fun e => ⟨e.1, { e.2 with status := .new }⟩
      nodupKeys := by
        have same : (s.lbs.entries.map fun e : (_ : UInt64) × LoadBalance =>
            (⟨e.1, { e.2 with status := .new }⟩ : (_ : UInt64) × LoadBalance)).keys =
              s.lbs.entries.keys := by
          simp [List.keys, Function.comp_def]
        rw [List.NodupKeys, same]
        exact s.lbs.nodupKeys }

def getRoute (cfg : Config) (now : Int) (modid cmdid : Int32) (rsp : Proto.GetRouteResponse)
    (s : RouteLb) : Except Fault (Reply Proto.GetRouteResponse) :=
  match s.lbs.lookup (packKey modid cmdid) with
  | some lb =>
    match lb.readAll lb.getAllHosts with
    | .error e => .error e
    | .ok hosts =>
      let (lb, sent) := pullIfOld cfg now lb
      .ok ⟨retSucc, { rsp with host := rsp.host ++ hosts.map HostInfo.toProto }, sent,
        ⟨s.lbs.insert (packKey modid cmdid) lb⟩⟩
  | none =>
    let (s, sent) := s.pullNew now modid cmdid
    .ok ⟨retNoexist, rsp, sent, s⟩

end RouteLb

end Lars.Agent
