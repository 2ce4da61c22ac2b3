import Lars.Api.Client
import Lars.Agent.Update
import Lars.Dns.Answers
import Lars.Web.Console

/-!
# One host from the console to the caller

A host is entered as a text, stored as a number, packed into a key by the DNS,
unpacked, packed again by the agent, and turned back into a text by the client.
-/
namespace Lars.Api

open Proto (retSucc)
open Agent (Config LoadBalance HostInfo)
open Agent.LoadBalance (Sound KeepsEntries)
open Dns (RouteDataRow hostOfKey)
open DottedQuad (Quad)
open LarsClient (takeHost takeRoute hostEntry routeEntry)

/-! ### The texts -/

/-- The host that was entered with this address and has come through unchanged. -/
def enteredHost (q : Quad) (port : Int32) : Proto.HostInfo :=
  ⟨(UInt32.ofNat (Web.inetAtoN q.text)).toInt32, port⟩

/-- The stored number has the first octet on top, and memory has the last one first. -/
theorem hostEntry_entered (q : Quad) (port : Int32) :
    hostEntry (enteredHost q port) = (q.reverse.text, port) := by
  simp only [hostEntry, enteredHost, Web.inetAtoN_text, UInt32.toUInt32_toInt32, inetNtoa,
    Quad.memory_number]

/-- The second reversal undoes the first. -/
theorem routeEntry_entered (q : Quad) (port : Int32) :
    routeEntry (enteredHost q port) = (q.text, port) := by
  simp only [routeEntry, enteredHost, Web.inetAtoN_text, UInt32.toUInt32_toInt32, inetNtoa, ntohl,
    Quad.memory_number, Quad.reverse_reverse]

/-- Both calls give the host the text that was entered. -/
structure NamedAsEntered (q : Quad) (port : Int32) : Prop where
  getHost : ∀ seq modid cmdid,
    takeHost seq modid cmdid ⟨seq, modid, cmdid, retSucc, some (enteredHost q port)⟩ =
      (retSucc, some (q.text, port))
  getRoute : ∀ (rsp : Proto.GetRouteResponse) (i : Nat), rsp.host[i]? = some (enteredHost q port) →
    (takeRoute rsp.modid rsp.cmdid rsp []).2[i]? = some (q.text, port)

/-- The two calls agree with the console, and so with each other, exactly on the addresses that
read the same from behind. -/
theorem namedAsEntered_iff (q : Quad) (port : Int32) :
    NamedAsEntered q port ↔ q.a = q.d ∧ q.b = q.c := by
  rw [← Quad.reverse_eq_iff]
  constructor
  · intro named
    have text := named.getHost 0 0 0
    simp only [takeHost, ne_eq, not_true_eq_false, or_self, ↓reduceIte, Option.getD_some,
      hostEntry_entered, Prod.mk.injEq, Option.some.injEq, true_and, and_true] at text
    exact Quad.text_inj text
  · intro palindrome
    refine ⟨fun seq modid cmdid => ?_, fun rsp i there => ?_⟩
    · simp only [takeHost, ne_eq, not_true_eq_false, or_self, ↓reduceIte, Option.getD_some,
        hostEntry_entered, palindrome]
    · simp [takeRoute, there, routeEntry_entered]

/-- 10.0.0.1 comes out of `get_host` as 1.0.0.10. -/
theorem reversed_address :
    takeHost 0 1 1 ⟨0, 1, 1, retSucc, some (enteredHost ⟨10, 0, 0, 1⟩ 80)⟩ =
      (retSucc, some ("1.0.0.10", 80)) ∧
    routeEntry (enteredHost ⟨10, 0, 0, 1⟩ 80) = ("10.0.0.1", 80) ∧
    ¬ NamedAsEntered ⟨10, 0, 0, 1⟩ 80 := by
  have text : hostEntry (enteredHost ⟨10, 0, 0, 1⟩ 80) = ("1.0.0.10", 80) := by
    rw [hostEntry_entered]
    decide
  have route : routeEntry (enteredHost ⟨10, 0, 0, 1⟩ 80) = ("10.0.0.1", 80) := by
    rw [routeEntry_entered]
    decide
  have given : takeHost 0 1 1 ⟨0, 1, 1, retSucc, some (enteredHost ⟨10, 0, 0, 1⟩ 80)⟩ =
      (retSucc, some ("1.0.0.10", 80)) := by
    simp only [takeHost, ne_eq, not_true_eq_false, or_self, ↓reduceIte, Option.getD_some, text]
  refine ⟨given, route, fun named => ?_⟩
  have same := given.symm.trans (named.getHost 0 1 1)
  exact absurd same (by decide)

/-! ### The key -/

variable {inetAton : String → UInt32}

/-- The message of `report` for a host that `get_host` has given names that host. -/
theorem report_hostEntry (inverts : ∀ n, inetAton (inetNtoa n) = n) {h : Proto.HostInfo}
    {modid cmdid retcode : Int32} {index : Fin 3} {req : Proto.ReportRequest}
    (sent : LarsClient.report inetAton modid cmdid (hostEntry h).1 (hostEntry h).2 retcode =
      .ok (index, req)) : req.host = h ∧ req.retcode = retcode := by
  unfold LarsClient.report at sent
  simp only [hostEntry, inverts, Int32.toInt32_toUInt32] at sent
  split at sent
  · cases sent
  · cases sent
    exact ⟨rfl, rfl⟩

/-- The key of a row at the places it passes through. -/
structure OneKey (inetAton : String → UInt32) (row : RouteDataRow) : Prop where
  /-- The DNS unpacks it for an answer, and `update` packs it again. -/
  packed : (hostOfKey row.value).key = row.value
  /-- A host that is not filed yet is filed under it, as the host that `get_host` will return. -/
  filed : ∀ (cfg : Config) ts (lb : LoadBalance), row.value ∉ lb.hostMap → ∃ p hi,
    (lb.insertHost cfg ts (hostOfKey row.value)).hostMap.lookup row.value = some p ∧
    (lb.insertHost cfg ts (hostOfKey row.value)).heap p = some hi ∧
    hi.toProto = hostOfKey row.value
  /-- The client makes a text of the host and a host of the text. -/
  reported : ∀ modid cmdid retcode index req,
    LarsClient.report inetAton modid cmdid (hostEntry (hostOfKey row.value)).1
      (hostEntry (hostOfKey row.value)).2 retcode = .ok (index, req) →
    packKey req.host.ip req.host.port = row.value

theorem oneKey (inverts : ∀ n, inetAton (inetNtoa n) = n) {row : RouteDataRow}
    (port : row.serverport.toNat < 2 ^ 31) : OneKey inetAton row := by
  have packed : (hostOfKey row.value).key = row.value := by
    rw [Dns.hostOfKey_value port, Dns.value_eq_packKey]
    rfl
  refine ⟨packed, fun cfg ts lb new => ?_, fun modid cmdid retcode index req sent => ?_⟩
  · have free : lb.hostMap.lookup (hostOfKey row.value).key = none := by
      rwa [packed, AList.lookup_eq_none]
    refine ⟨lb.nextPtr,
      .new (hostOfKey row.value).ip.toUInt32 (hostOfKey row.value).port cfg.initSuccCnt ts, ?_⟩
    simp only [LoadBalance.insertHost, free]
    refine ⟨?_, Function.update_self .., ?_⟩
    · rw [packed, AList.lookup_insert]
    · simp [HostInfo.toProto, HostInfo.new]
  · obtain ⟨same, -⟩ := report_hostEntry inverts sent
    rw [same]
    exact packed

theorem value_inj {row row' : RouteDataRow} (same : row.value = row'.value) :
    row.serverip = row'.serverip ∧ row.serverport = row'.serverport := by
  rw [Dns.value_eq_packKey, Dns.value_eq_packKey] at same
  obtain ⟨ip, port⟩ := packKey_inj same
  constructor
  · simpa using congrArg Int32.toUInt32 ip
  · simpa [Dns.atoi] using congrArg Int32.toUInt32 port

/-- A host that `choice_one_host` hands out has a record, filed under the key of the host. -/
theorem choiceOneHost_record {cfg : Config} {lb lb' : LoadBalance} (sound : Sound lb) {ret : Int32}
    {h : Proto.HostInfo} (chosen : lb.choiceOneHost cfg = .ok (ret, some h, lb')) :
    ∃ p hi, lb'.hostMap.lookup h.key = some p ∧ lb'.heap p = some hi ∧ hi.toProto = h := by
  have spec := LoadBalance.choiceOneHost_spec sound cfg chosen
  obtain ⟨q, -, hi, cell, same⟩ := spec.served h rfl
  have entry : lb'.hostMap.lookup h.key = some q := by
    rw [spec.retains.map, ← same]
    exact sound.owned q hi cell
  have live : ¬ lb.Stale h.key := by
    rw [← same]
    exact LoadBalance.not_stale (sound.owned q hi cell) cell
  obtain ⟨hi', cell', same'⟩ :=
    spec.sound.find entry ((spec.retains.stale_iff h.key).not.mpr live)
  exact ⟨q, hi', entry, cell', Proto.HostInfo.key_inj same'⟩

/-- A row of `RouteData` has one key all the way to the report and back, rows with different hosts
have different keys, and a report on a host that a load balancer has handed out finds the record
of this host, as long as there is one. -/
theorem host_keeps_identity (inverts : ∀ n, inetAton (inetNtoa n) = n) :
    (∀ row : RouteDataRow, row.serverport.toNat < 2 ^ 31 → OneKey inetAton row) ∧
    (∀ row row' : RouteDataRow, row.value = row'.value →
      row.serverip = row'.serverip ∧ row.serverport = row'.serverport) ∧
    ∀ (cfg : Config) modid cmdid now before lb ret h lb',
      Run.run (LoadBalance.step cfg) (.init modid cmdid now) before = .ok lb →
      lb.choiceOneHost cfg = .ok (ret, some h, lb') →
      ∃ p hi, lb'.heap p = some hi ∧ hi.toProto = h ∧
        ∀ modid cmdid retcode index req,
          LarsClient.report inetAton modid cmdid (hostEntry h).1 (hostEntry h).2 retcode =
            .ok (index, req) →
          (∀ now ts, lb'.report cfg now ts req.host.ip req.host.port req.retcode =
            .ok (lb'.judge cfg now ts retcode p (hi.count retcode))) ∧
          ∀ after lb'', Run.run (LoadBalance.step cfg) lb' after = .ok lb'' →
            lb''.hostMap.lookup (packKey req.host.ip req.host.port) = some p ∧
            ∀ hi', lb''.heap p = some hi' → hi'.toProto = h := by
  refine ⟨fun row port => oneKey inverts port, fun row row' => value_inj, ?_⟩
  intro cfg modid cmdid now before lb ret h lb' reached chosen
  have sound := (LoadBalance.run_returns cfg (Sound.init modid cmdid now) reached).1
  have sound' := (LoadBalance.choiceOneHost_spec sound cfg chosen).sound
  obtain ⟨p, hi, entry, cell, same⟩ := choiceOneHost_record sound chosen
  refine ⟨p, hi, cell, same, fun modid cmdid retcode index req sent => ?_⟩
  obtain ⟨host, code⟩ := report_hostEntry inverts sent
  rw [host, code]
  refine ⟨fun now ts => ?_, fun after lb'' later => ?_⟩
  · unfold LoadBalance.report
    change lb'.hostMap.lookup (packKey h.ip h.port) = some p at entry
    simp only [entry, cell]
  · obtain ⟨final, keeps⟩ := LoadBalance.run_returns cfg sound' later
    have entry'' := keeps h.key p entry
    refine ⟨entry'', fun hi' cell' => ?_⟩
    -- the entry of the record that is there now is the entry of the host
    exact Proto.HostInfo.key_inj (final.distinct _ _ p (final.owned p hi' cell') entry'')

/-- As long as all answers of the DNS name the host, the record is there for its report. -/
theorem named_host_found (inverts : ∀ n, inetAton (inetNtoa n) = n) {cfg : Config}
    {modid cmdid : Int32} {now : Int} {before after : List LoadBalance.Op}
    {lb lb' lb'' : LoadBalance} {ret : Int32} {h : Proto.HostInfo}
    (reached : Run.run (LoadBalance.step cfg) (.init modid cmdid now) before = .ok lb)
    (chosen : lb.choiceOneHost cfg = .ok (ret, some h, lb'))
    (names : ∀ op ∈ after, LoadBalance.Names h.key op)
    (later : Run.run (LoadBalance.step cfg) lb' after = .ok lb'') {retcode : Int32}
    {index : Fin 3} {req : Proto.ReportRequest}
    (sent : LarsClient.report inetAton modid cmdid (hostEntry h).1 (hostEntry h).2 retcode =
      .ok (index, req)) :
    ∃ p hi, lb''.heap p = some hi ∧ hi.toProto = h ∧
      ∀ now ts, lb''.report cfg now ts req.host.ip req.host.port req.retcode =
        .ok (lb''.judge cfg now ts retcode p (hi.count retcode)) := by
  have sound := (LoadBalance.run_returns cfg (Sound.init modid cmdid now) reached).1
  have sound' := (LoadBalance.choiceOneHost_spec sound cfg chosen).sound
  obtain ⟨p, hi, entry, cell, -⟩ := choiceOneHost_record sound chosen
  have live : ¬ lb'.Stale h.key := LoadBalance.not_stale entry cell
  obtain ⟨sound'', keeps⟩ := LoadBalance.run_returns cfg sound' later
  have entry'' := keeps h.key p entry
  obtain ⟨hi'', cell'', same⟩ :=
    sound''.find entry'' (LoadBalance.run_names cfg sound' names live later)
  refine ⟨p, hi'', cell'', Proto.HostInfo.key_inj same, fun now ts => ?_⟩
  obtain ⟨host, code⟩ := report_hostEntry inverts sent
  rw [host, code]
  unfold LoadBalance.report
  change lb''.hostMap.lookup (packKey h.ip h.port) = some p at entry''
  simp only [entry'', cell'']

/-- `inet_aton` on dotted texts. -/
private def dottedAton (s : String) : UInt32 := ((Quad.parse s).map (·.reverse.number)).getD 0

private theorem dottedAton_inverts (n : UInt32) : dottedAton (inetNtoa n) = n := by
  simp only [dottedAton, inetNtoa, Quad.parse_text, Option.map_some, Option.getD_some,
    Quad.number_reverse_memory]

/-- Host 192.168.1.1:80, whose number is negative as an `int`, from its row to its record. -/
theorem host_keeps_identity_negative_ip :
    OneKey dottedAton ⟨1, 1, 3232235777, 80⟩ ∧
    hostOfKey (RouteDataRow.value ⟨1, 1, 3232235777, 80⟩) = ⟨-1062731519, 80⟩ ∧
    ∃ lb lb' p hi,
      Run.run (LoadBalance.step .default) (.init 1 1 0)
        [.update 0 (fun _ => 0) ⟨1, 1, [⟨-1062731519, 80⟩]⟩ (by simp)] = .ok lb ∧
      lb.choiceOneHost .default = .ok (retSucc, some ⟨-1062731519, 80⟩, lb') ∧
      lb'.heap p = some hi ∧ hi.toProto = ⟨-1062731519, 80⟩ := by
  obtain ⟨keys, -, found⟩ := host_keeps_identity dottedAton_inverts
  refine ⟨keys ⟨1, 1, 3232235777, 80⟩ (by decide), by decide, ?_⟩
  obtain ⟨p, hi, cell, same, -⟩ := found .default 1 1 0
    [.update 0 (fun _ => 0) ⟨1, 1, [⟨-1062731519, 80⟩]⟩ (by simp)] _ retSucc ⟨-1062731519, 80⟩ _
    rfl rfl
  exact ⟨_, _, p, hi, rfl, rfl, cell, same⟩

end Lars.Api
