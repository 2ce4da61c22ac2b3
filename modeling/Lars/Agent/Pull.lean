import Lars.Agent.Consistency
import Lars.Agent.RouteLb

/-!
# Who is pulling

A load balancer that pulls waits for an answer and does not pull again. Here is
what each operation of `route_lb` does to the status of the load balancers and
to the module they belong to, whatever it does to their hosts.
-/
namespace Lars.Agent

namespace LoadBalance

variable {lb lb' : LoadBalance}

/-- `lb'` belongs to the same module and has the same status. -/
structure Kin (lb lb' : LoadBalance) : Prop where
  modid : lb'.modid = lb.modid
  cmdid : lb'.cmdid = lb.cmdid
  status : lb'.status = lb.status

theorem Kin.refl (lb : LoadBalance) : Kin lb lb := ⟨rfl, rfl, rfl⟩

theorem Kin.trans {lb'' : LoadBalance} (first : Kin lb lb') (second : Kin lb' lb'') : Kin lb lb'' where
  modid := second.modid.trans first.modid
  cmdid := second.cmdid.trans first.cmdid
  status := second.status.trans first.status

theorem insertHost_kin (cfg : Config) (ts : Int) (h : Proto.HostInfo) :
    Kin lb (lb.insertHost cfg ts h) := by
  unfold insertHost
  split <;> exact ⟨rfl, rfl, rfl⟩

theorem insertHosts_kin (cfg : Config) (ts : Nat → Int) (i : Nat) (hs : List Proto.HostInfo) :
    Kin lb (lb.insertHosts cfg ts i hs) := by
  induction hs generalizing i lb with
  | nil => exact .refl lb
  | cons h hs ih => exact (insertHost_kin cfg (ts i) h).trans (ih (i + 1))

theorem deleteHost_kin {key : UInt64} (done : lb.deleteHost key = .ok lb') : Kin lb lb' := by
  unfold deleteHost at done
  split at done
  · cases done
  · split at done
    · cases done
    · cases done
      split <;> exact ⟨rfl, rfl, rfl⟩

theorem deleteHosts_kin {keys : List UInt64} (done : lb.deleteHosts keys = .ok lb') :
    Kin lb lb' := by
  induction keys generalizing lb with
  | nil =>
    cases done
    exact .refl _
  | cons key keys ih =>
    unfold deleteHosts at done
    split at done
    next mid first => exact (deleteHost_kin first).trans (ih done)
    next => cases done

/-- An answer ends the pulling. -/
theorem update_inv {cfg : Config} {now : Int} {ts : Nat → Int} {rsp : Proto.GetRouteResponse}
    (done : lb.update cfg now ts rsp = .ok lb') :
    lb'.modid = lb.modid ∧ lb'.cmdid = lb.cmdid ∧ lb'.status = .new := by
  unfold update at done
  split at done
  · cases done
  · dsimp only at done
    split at done
    next mid deleted =>
      have kin := (insertHosts_kin cfg ts 0 rsp.host).trans (deleteHosts_kin deleted)
      cases done
      exact ⟨kin.modid, kin.cmdid, rfl⟩
    next => cases done

theorem choiceOneHost_kin {cfg : Config} {ret : Int32} {host : Option Proto.HostInfo}
    (done : lb.choiceOneHost cfg = .ok (ret, host, lb')) : Kin lb lb' := by
  obtain ⟨idle, overloaded, cnt, rfl⟩ := choiceOneHost_frame done
  exact ⟨rfl, rfl, rfl⟩

private theorem checkTimeout_kin (cfg : Config) (now ts : Int) (p : Ptr) (hi : HostInfo) :
    Kin lb (lb.checkTimeout cfg now ts p hi) := by
  unfold checkTimeout
  split
  · split <;> exact ⟨rfl, rfl, rfl⟩
  · split <;> exact ⟨rfl, rfl, rfl⟩

theorem report_kin {cfg : Config} {now ts : Int} {ip port retcode : Int32}
    (done : lb.report cfg now ts ip port retcode = .ok lb') : Kin lb lb' := by
  unfold report at done
  split at done
  · cases done
    exact .refl lb
  · split at done
    · cases done
    · cases done
      unfold judge
      split
      · split
        · exact ⟨rfl, rfl, rfl⟩
        · exact checkTimeout_kin cfg now ts _ _
      · split
        · split
          · exact ⟨rfl, rfl, rfl⟩
          · exact checkTimeout_kin cfg now ts _ _
        · exact checkTimeout_kin cfg now ts _ _

end LoadBalance

namespace RouteLb

open LoadBalance (Kin)

variable {s s' : RouteLb} {modid cmdid : Int32}

/-- What an operation for one module may do to the table: a load balancer it leaves there was in
the table before or is the module's new one, and one that is pulling was pulling before or has its
request among those sent. -/
structure Accounts (modid cmdid : Int32) (s s' : RouteLb) (sent : List Proto.GetRouteRequest) :
    Prop where
  known : ∀ key lb', s'.lbs.lookup key = some lb' →
    (∃ lb, s.lbs.lookup key = some lb ∧ lb'.modid = lb.modid ∧ lb'.cmdid = lb.cmdid) ∨
      key = packKey modid cmdid ∧ lb'.modid = modid ∧ lb'.cmdid = cmdid
  pulls : ∀ key lb', s'.lbs.lookup key = some lb' → lb'.status = .pulling →
    ⟨lb'.modid, lb'.cmdid⟩ ∈ sent ∨ ∃ lb, s.lbs.lookup key = some lb ∧ lb.status = .pulling ∧
      lb'.modid = lb.modid ∧ lb'.cmdid = lb.cmdid

theorem Accounts.refl (s : RouteLb) : Accounts modid cmdid s s [] where
  known := fun _ lb found => .inl ⟨lb, found, rfl, rfl⟩
  pulls := fun _ lb found pulling => .inr ⟨lb, found, pulling, rfl, rfl⟩

/-- The load balancer of the module is written back, perhaps after a pull. -/
private theorem Accounts.insert {lb lb' : LoadBalance} {sent : List Proto.GetRouteRequest}
    (found : s.lbs.lookup (packKey modid cmdid) = some lb)
    (same : lb'.modid = lb.modid ∧ lb'.cmdid = lb.cmdid)
    (pulled : lb'.status = .pulling → ⟨lb'.modid, lb'.cmdid⟩ ∈ sent ∨ lb.status = .pulling) :
    Accounts modid cmdid s ⟨s.lbs.insert (packKey modid cmdid) lb'⟩ sent := by
  refine ⟨fun key other entry => .inl ?_, fun key other entry pulling => ?_⟩
  · by_cases here : key = packKey modid cmdid
    · subst here
      rw [AList.lookup_insert] at entry
      cases entry
      exact ⟨lb, found, same⟩
    · rw [AList.lookup_insert_ne here] at entry
      exact ⟨other, entry, rfl, rfl⟩
  · by_cases here : key = packKey modid cmdid
    · subst here
      rw [AList.lookup_insert] at entry
      cases entry
      exact (pulled pulling).imp_right fun before => ⟨lb, found, before, same⟩
    · rw [AList.lookup_insert_ne here] at entry
      exact .inr ⟨other, entry, pulling, rfl, rfl⟩

private theorem accounts_pullIfOld (cfg : Config) (now : Int) {lb lb' : LoadBalance}
    (found : s.lbs.lookup (packKey modid cmdid) = some lb) (kin : Kin lb lb') :
    Accounts modid cmdid s ⟨s.lbs.insert (packKey modid cmdid) (pullIfOld cfg now lb').1⟩
      (pullIfOld cfg now lb').2 := by
  unfold pullIfOld
  split
  · exact .insert found ⟨kin.modid, kin.cmdid⟩ fun _ => .inl (List.mem_singleton.mpr rfl)
  · exact .insert found ⟨kin.modid, kin.cmdid⟩ fun pulling => .inr (kin.status.symm.trans pulling)

private theorem accounts_pullNew (now : Int) :
    Accounts modid cmdid s (s.pullNew now modid cmdid).1 (s.pullNew now modid cmdid).2 := by
  refine ⟨fun key lb' entry => ?_, fun key lb' entry pulling => ?_⟩
  · by_cases here : key = packKey modid cmdid
    · subst here
      rw [pullNew, AList.lookup_insert] at entry
      cases entry
      exact .inr ⟨rfl, rfl, rfl⟩
    · rw [pullNew, AList.lookup_insert_ne here] at entry
      exact .inl ⟨lb', entry, rfl, rfl⟩
  · by_cases here : key = packKey modid cmdid
    · subst here
      rw [pullNew, AList.lookup_insert] at entry
      cases entry
      exact .inl (List.mem_singleton.mpr rfl)
    · rw [pullNew, AList.lookup_insert_ne here] at entry
      exact .inr ⟨lb', entry, pulling, rfl, rfl⟩

theorem getHost_accounts {cfg : Config} {now : Int} {rsp : Proto.GetHostResponse}
    {reply : Reply Proto.GetHostResponse} (done : s.getHost cfg now modid cmdid rsp = .ok reply) :
    Accounts modid cmdid s reply.next reply.sent := by
  unfold getHost at done
  split at done
  next lb found =>
    split at done
    · cases done
      exact .refl s
    · split at done
      · cases done
      next chosen =>
        cases done
        exact accounts_pullIfOld cfg now found (LoadBalance.choiceOneHost_kin chosen)
  next =>
    cases done
    exact accounts_pullNew now

theorem getRoute_accounts {cfg : Config} {now : Int} {rsp : Proto.GetRouteResponse}
    {reply : Reply Proto.GetRouteResponse} (done : s.getRoute cfg now modid cmdid rsp = .ok reply) :
    Accounts modid cmdid s reply.next reply.sent := by
  unfold getRoute at done
  split at done
  next lb found =>
    split at done
    · cases done
    · cases done
      exact accounts_pullIfOld cfg now found (.refl lb)
  next =>
    cases done
    exact accounts_pullNew now

theorem reportHost_accounts {cfg : Config} {now ts tc : Int} {req : Proto.ReportRequest}
    {sent : Option Proto.ReportStatusRequest}
    (done : s.reportHost cfg now ts tc req = .ok (sent, s')) :
    Accounts req.modid req.cmdid s s' [] := by
  unfold reportHost at done
  split at done
  · cases done
    exact .refl s
  next lb found =>
    split at done
    · cases done
    next reported =>
      split at done
      · cases done
      · cases done
        have kin := LoadBalance.report_kin reported
        exact .insert found ⟨kin.modid, kin.cmdid⟩ fun pulling =>
          .inr (kin.status.symm.trans pulling)

/-- After an answer the module is not pulling, and no other module has changed. -/
theorem updateHost_inv {cfg : Config} {now : Int} {ts : Nat → Int} {rsp : Proto.GetRouteResponse}
    (done : s.updateHost cfg now ts modid cmdid rsp = .ok s') {key : UInt64} {lb' : LoadBalance}
    (entry : s'.lbs.lookup key = some lb') :
    (key ≠ packKey modid cmdid ∧ s.lbs.lookup key = some lb') ∨
      lb'.status = .new ∧ ∃ lb, s.lbs.lookup key = some lb ∧ lb'.modid = lb.modid ∧
        lb'.cmdid = lb.cmdid := by
  by_cases here : key = packKey modid cmdid
  -- the module itself: ignored if unknown, removed by an empty answer, else up to date
  · subst here
    right
    unfold updateHost at done
    split at done
    next absent =>
      cases done
      rw [absent] at entry
      cases entry
    next lb found =>
      split at done
      · cases done
        rw [AList.lookup_erase] at entry
        cases entry
      · split at done
        next updated =>
          cases done
          rw [AList.lookup_insert] at entry
          cases entry
          obtain ⟨modid', cmdid', status⟩ := LoadBalance.update_inv updated
          exact ⟨status, lb, found, modid', cmdid'⟩
        next => cases done
  · refine .inl ⟨here, ?_⟩
    unfold updateHost at done
    split at done
    · cases done
      exact entry
    · split at done
      · cases done
        rwa [AList.lookup_erase_ne here] at entry
      · split at done
        · cases done
          rwa [AList.lookup_insert_ne here] at entry
        · cases done

/-- After a reset nobody is pulling. -/
theorem resetLbStatus_inv {key : UInt64} {lb' : LoadBalance}
    (entry : s.resetLbStatus.lbs.lookup key = some lb') :
    lb'.status = .new ∧ ∃ lb, s.lbs.lookup key = some lb ∧ lb'.modid = lb.modid ∧
      lb'.cmdid = lb.cmdid := by
  have member := AList.mem_lookup_iff.mp entry
  obtain ⟨⟨key', lb⟩, inside, same⟩ := List.mem_map.mp member
  cases same
  exact ⟨rfl, lb, AList.mem_lookup_iff.mpr inside, rfl, rfl⟩

end RouteLb

end Lars.Agent
