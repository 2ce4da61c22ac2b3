import Lars.Agent.RouteLb
import Lars.Lib.Unwinding

/-!
# Entries do not see each other

Every operation of `route_lb` on behalf of a module reads and writes the one
entry of `_route_lb_map` that is filed under the packed key of that module, and
no two modules share a key. `reset_lb_status` is on behalf of no module. Here
each load balancer has a heap of its own.
-/
namespace Lars.Agent

/-- The operations of `route_lb`, each with the clock readings it makes. -/
inductive RouteOp where
  | getHost (now : Int) (modid cmdid : Int32) (rsp : Proto.GetHostResponse)
  | getRoute (now : Int) (modid cmdid : Int32) (rsp : Proto.GetRouteResponse)
  | updateHost (now : Int) (ts : Nat → Int) (modid cmdid : Int32) (rsp : Proto.GetRouteResponse)
  | reportHost (now ts tc : Int) (req : Proto.ReportRequest)
  | resetLbStatus

/-- What an operation gives to its caller and puts into the queues. -/
inductive Answer where
  | host (ret : Int32) (rsp : Proto.GetHostResponse) (sent : List Proto.GetRouteRequest)
  | route (ret : Int32) (rsp : Proto.GetRouteResponse) (sent : List Proto.GetRouteRequest)
  | updated
  | reported (sent : Option Proto.ReportStatusRequest)
  | reset
  deriving DecidableEq

/-- The module on whose behalf the operation is. -/
def RouteOp.module : RouteOp → Option (Int32 × Int32)
  | .getHost _ modid cmdid _ => some (modid, cmdid)
  | .getRoute _ modid cmdid _ => some (modid, cmdid)
  | .updateHost _ _ modid cmdid _ => some (modid, cmdid)
  | .reportHost _ _ _ req => some (req.modid, req.cmdid)
  | .resetLbStatus => none

def RouteOp.isFor (m : Int32 × Int32) (op : RouteOp) : Bool := decide (op.module = some m)

namespace RouteLb

def serve (cfg : Config) (s : RouteLb) : RouteOp → Except Fault (Answer × RouteLb)
  | .getHost now modid cmdid rsp =>
    (s.getHost cfg now modid cmdid rsp).map fun r => (.host r.ret r.rsp r.sent, r.next)
  | .getRoute now modid cmdid rsp =>
    (s.getRoute cfg now modid cmdid rsp).map fun r => (.route r.ret r.rsp r.sent, r.next)
  | .updateHost now ts modid cmdid rsp =>
    (s.updateHost cfg now ts modid cmdid rsp).map fun t => (.updated, t)
  | .reportHost now ts tc req =>
    (s.reportHost cfg now ts tc req).map fun r => (.reported r.1, r.2)
  | .resetLbStatus => .ok (.reset, s.resetLbStatus)

/-- The entry of a module. -/
def entry (s : RouteLb) (m : Int32 × Int32) : Option LoadBalance :=
  s.lbs.lookup (packKey m.1 m.2)

variable {cfg : Config} {s t u v : RouteLb} {m n : Int32 × Int32}

theorem packKey_ne (different : m ≠ n) : packKey n.1 n.2 ≠ packKey m.1 m.2 := by
  intro same
  obtain ⟨first, second⟩ := packKey_inj same
  exact different (Prod.ext first.symm second.symm)

/-- The outcomes of one operation on two tables: the same fault, or the same answer and the same
new entry for `m`, with every other entry of either table as it was. -/
def Alike (m : Int32 × Int32) (s u : RouteLb) :
    Except Fault (Answer × RouteLb) → Except Fault (Answer × RouteLb) → Prop
  | .ok (answer, t), .ok (answer', v) =>
    answer = answer' ∧ t.entry m = v.entry m ∧
      ∀ n, m ≠ n → t.entry n = s.entry n ∧ v.entry n = u.entry n
  | .error e, .error e' => e = e'
  | _, _ => False

theorem Alike.unchanged (answer : Answer) (same : s.entry m = u.entry m) :
    Alike m s u (.ok (answer, s)) (.ok (answer, u)) :=
  ⟨rfl, same, fun _ _ => ⟨rfl, rfl⟩⟩

theorem Alike.insert (answer : Answer) (lb : LoadBalance) :
    Alike m s u (.ok (answer, ⟨s.lbs.insert (packKey m.1 m.2) lb⟩))
      (.ok (answer, ⟨u.lbs.insert (packKey m.1 m.2) lb⟩)) := by
  refine ⟨rfl, ?_, fun n different => ?_⟩
  · simp only [entry, AList.lookup_insert]
  · simp only [entry, AList.lookup_insert_ne (packKey_ne different), and_self]

theorem Alike.erase (answer : Answer) :
    Alike m s u (.ok (answer, ⟨s.lbs.erase (packKey m.1 m.2)⟩))
      (.ok (answer, ⟨u.lbs.erase (packKey m.1 m.2)⟩)) := by
  refine ⟨rfl, ?_, fun n different => ?_⟩
  · simp only [entry, AList.lookup_erase]
  · simp only [entry, AList.lookup_erase_ne (packKey_ne different), and_self]

/-! ### One operation -/

/-- An operation on a module depends on the entry of that module alone and writes no other. -/
theorem serve_alike (cfg : Config) {op : RouteOp} (owner : op.module = some m)
    (same : s.entry m = u.entry m) : Alike m s u (s.serve cfg op) (u.serve cfg op) := by
  cases op with
  | getHost now modid cmdid rsp =>
    cases owner
    have found : s.lbs.lookup (packKey modid cmdid) = u.lbs.lookup (packKey modid cmdid) := same
    simp only [serve, getHost, found]
    cases u.lbs.lookup (packKey modid cmdid) with
    -- the first request for a module makes its entry
    | none => exact .insert _ _
    | some lb =>
      dsimp only
      split
      · exact .unchanged _ same
      · cases lb.choiceOneHost cfg with
        | error e => exact rfl
        | ok chosen => exact .insert _ _
  | getRoute now modid cmdid rsp =>
    cases owner
    have found : s.lbs.lookup (packKey modid cmdid) = u.lbs.lookup (packKey modid cmdid) := same
    simp only [serve, getRoute, found]
    cases u.lbs.lookup (packKey modid cmdid) with
    | none => exact .insert _ _
    | some lb =>
      dsimp only
      cases lb.readAll lb.getAllHosts with
      | error e => exact rfl
      | ok hosts => exact .insert _ _
  | updateHost now ts modid cmdid rsp =>
    cases owner
    have found : s.lbs.lookup (packKey modid cmdid) = u.lbs.lookup (packKey modid cmdid) := same
    simp only [serve, updateHost, found]
    cases u.lbs.lookup (packKey modid cmdid) with
    | none => exact .unchanged _ same
    | some lb =>
      dsimp only
      split
      -- an answer without hosts removes the module
      · exact .erase _
      · cases lb.update cfg now ts rsp with
        | error e => exact rfl
        | ok updated => exact .insert _ _
  | reportHost now ts tc req =>
    cases owner
    have found : s.lbs.lookup (packKey req.modid req.cmdid) =
        u.lbs.lookup (packKey req.modid req.cmdid) := same
    simp only [serve, reportHost, found]
    cases u.lbs.lookup (packKey req.modid req.cmdid) with
    | none => exact .unchanged _ same
    | some lb =>
      dsimp only
      cases lb.report cfg now ts req.host.ip req.host.port req.retcode with
      | error e => exact rfl
      | ok reported =>
        dsimp only
        cases reported.commit tc with
        | error e => exact rfl
        | ok sent => exact .insert _ _
  | resetLbStatus => cases owner

/-- The entry of every other module is as it was. -/
theorem serve_frame {op : RouteOp} {answer : Answer} (owner : op.module = some m)
    (different : m ≠ n) (taken : s.serve cfg op = .ok (answer, t)) : t.entry n = s.entry n := by
  have alike := serve_alike (s := s) (u := s) cfg owner rfl
  rw [taken] at alike
  exact (alike.2.2 n different).1

theorem serve_own {op : RouteOp} {answer : Answer} (owner : op.module = some m)
    (same : s.entry m = u.entry m) (taken : s.serve cfg op = .ok (answer, t)) :
    ∃ v, u.serve cfg op = .ok (answer, v) ∧ t.entry m = v.entry m := by
  have alike := serve_alike cfg owner same
  rw [taken] at alike
  cases other : u.serve cfg op with
  | error e =>
    rw [other] at alike
    exact alike.elim
  | ok result =>
    rw [other] at alike
    exact ⟨result.2, by rw [alike.1], alike.2.1⟩

theorem entry_resetLbStatus (s : RouteLb) (n : Int32 × Int32) :
    s.resetLbStatus.entry n = (s.entry n).map fun lb => { lb with status := .new } :=
  List.dlookup_map₂ (l := s.lbs.entries)
    (f := fun _ (lb : LoadBalance) => ({ lb with status := .new } : LoadBalance)) (packKey n.1 n.2)

/-! ### Runs -/

/-- The tables differ in the entry of `m` at most. -/
def SameBut (m : Int32 × Int32) (s u : RouteLb) : Prop := ∀ n, m ≠ n → s.entry n = u.entry n

theorem serve_hidden {op : RouteOp} {answer : Answer} (mine : op.isFor m = true)
    (same : SameBut m s u) (taken : s.serve cfg op = .ok (answer, t)) : SameBut m t u := by
  intro n different
  rw [serve_frame (by simpa [RouteOp.isFor] using mine) different taken, same n different]

theorem serve_sameBut {op : RouteOp} {answer : Answer} (other : op.isFor m = false)
    (same : SameBut m s u) (taken : s.serve cfg op = .ok (answer, t)) :
    ∃ v, u.serve cfg op = .ok (answer, v) ∧ SameBut m t v := by
  cases owner : op.module with
  | none =>
    -- only `reset_lb_status` belongs to nobody; it treats all entries alike
    cases op <;> cases owner
    cases taken
    refine ⟨u.resetLbStatus, rfl, fun n different => ?_⟩
    rw [entry_resetLbStatus, entry_resetLbStatus, same n different]
  | some o =>
    have apart : m ≠ o := by
      rintro rfl
      simp [RouteOp.isFor, owner] at other
    obtain ⟨v, taken', own⟩ := serve_own owner (same o apart) taken
    refine ⟨v, taken', fun n different => ?_⟩
    by_cases here : o = n
    · rw [← here, own]
    · rw [serve_frame owner here taken, serve_frame owner here taken', same n different]

/-- In a run that returns, the answers for a module and its load balancer are those of the same run
without the operations for another. -/
theorem log_purged (cfg : Config) (s : RouteLb) {m n : Int32 × Int32} (different : m ≠ n)
    {ops : List RouteOp} {log : List (RouteOp × Answer)} {t : RouteLb}
    (done : Unwinding.log (serve cfg) s ops = .ok (log, t)) :
    ∃ log' t', Unwinding.log (serve cfg) s (ops.filter (!·.isFor m)) = .ok (log', t') ∧
      log'.filter (·.1.isFor n) = log.filter (·.1.isFor n) ∧ t'.entry n = t.entry n := by
  obtain ⟨t', purged, same⟩ := Unwinding.log_purge (SameBut m) (RouteOp.isFor m)
    serve_hidden serve_sameBut (fun _ _ => rfl) done
  refine ⟨_, t', purged, ?_, (same n different).symm⟩
  -- an operation for the second module is not one for the first
  rw [List.filter_filter]
  refine List.filter_congr fun e _ => ?_
  cases mine : e.1.isFor n with
  | false => rfl
  | true =>
    simp only [RouteOp.isFor, decide_eq_true_eq] at mine
    simp [RouteOp.isFor, mine, Ne.symm different]

end RouteLb

end Lars.Agent
