import Lars.Agent.Consistency
import Lars.Lib.Run

/-!
# `update` and the runs of one load balancer

From a state without stale entries `update` serves exactly the hosts of the
answer, and the entries it leaves stale are those of the hosts the answer drops.
A stale entry never goes away, so the containers agree throughout a run exactly
when no answer of the run drops a host.
-/
namespace Lars.Agent.LoadBalance

variable {lb : LoadBalance}

/-! ### New hosts -/

/-- The address that `new` hands out is not in use. -/
theorem Sound.nextPtr_free (sound : Sound lb) : lb.heap lb.nextPtr = none := by
  cases cell : lb.heap lb.nextPtr with
  | none => rfl
  | some hi => exact absurd (sound.bounded _ _ (sound.owned _ hi cell)) (lt_irrefl _)

private theorem lookup_insert (k k' : UInt64) (p : Ptr) (m : AList (fun _ : UInt64 => Ptr)) :
    (m.insert k p).lookup k' = if k' = k then some p else m.lookup k' := by
  split
  next eq =>
    subst eq
    exact AList.lookup_insert m
  next ne => exact AList.lookup_insert_ne ne

theorem Sound.insertHost (sound : Sound lb) (cfg : Config) (ts : Int) (h : Proto.HostInfo) :
    Sound (lb.insertHost cfg ts h) := by
  unfold LoadBalance.insertHost
  cases entry : lb.hostMap.lookup h.key with
  | some p => exact sound
  | none =>
    have free := sound.nextPtr_free
    have unlisted : lb.nextPtr ∉ lb.idleList ++ lb.overloadList := by
      simp [sound.listed, free]
    -- an entry from before has neither the new key nor the new address
    have old : ∀ {k p}, lb.hostMap.lookup k = some p → k ≠ h.key ∧ p ≠ lb.nextPtr := by
      intro k p found
      refine ⟨?_, (sound.bounded k p found).ne⟩
      rintro rfl
      rw [entry] at found
      cases found
    constructor
    case owned =>
      intro p hi cell
      by_cases eq : p = lb.nextPtr
      · subst eq
        simp only [Function.update_self, Option.some.injEq] at cell
        subst cell
        rw [key_new]
        exact AList.lookup_insert lb.hostMap
      · simp only [Function.update_of_ne eq] at cell
        have found := sound.owned p hi cell
        simp only [lookup_insert, (old found).1, ↓reduceIte, found]
    case distinct =>
      intro k k' p found found'
      simp only [lookup_insert] at found found'
      split at found <;> split at found'
      · simp_all
      · cases found
        exact absurd rfl (old found').2
      · cases found'
        exact absurd rfl (old found).2
      · exact sound.distinct k k' p found found'
    case bounded =>
      intro k p found
      simp only [lookup_insert] at found
      split at found
      · cases found
        exact Nat.lt_succ_self _
      · exact (sound.bounded k p found).trans (Nat.lt_succ_self _)
    case listed =>
      intro p
      by_cases eq : p = lb.nextPtr
      · subst eq
        simp
      · have others := sound.listed p
        simp only [List.mem_append] at others
        simp only [Function.update_of_ne eq, List.mem_append, List.mem_singleton, eq, or_false,
          others]
    case nodup =>
      have moved : (lb.idleList ++ [lb.nextPtr] ++ lb.overloadList).Perm
          (lb.nextPtr :: (lb.idleList ++ lb.overloadList)) := by
        simp [List.perm_middle]
      exact moved.nodup_iff.mpr (List.nodup_cons.mpr ⟨unlisted, sound.nodup⟩)
    case flag =>
      intro p hi cell
      by_cases eq : p = lb.nextPtr
      · subst eq
        simp only [Function.update_self, Option.some.injEq] at cell
        have absent : lb.nextPtr ∉ lb.overloadList := fun h => unlisted (List.mem_append_right _ h)
        simp [← cell, HostInfo.new, absent]
      · simp only [Function.update_of_ne eq] at cell
        exact sound.flag p hi cell

theorem mem_insertHost (cfg : Config) (ts : Int) (h : Proto.HostInfo) (k : UInt64) :
    k ∈ (lb.insertHost cfg ts h).hostMap ↔ k ∈ lb.hostMap ∨ k = h.key := by
  unfold LoadBalance.insertHost
  cases entry : lb.hostMap.lookup h.key with
  | some p =>
    have member : h.key ∈ lb.hostMap := mem_hostMap.mpr ⟨p, entry⟩
    constructor
    · exact .inl
    · rintro (old | rfl)
      · exact old
      · exact member
  | none => simp [AList.mem_insert, or_comm]

theorem stale_insertHost (sound : Sound lb) (cfg : Config) (ts : Int) (h : Proto.HostInfo)
    (k : UInt64) : (lb.insertHost cfg ts h).Stale k ↔ lb.Stale k := by
  unfold LoadBalance.insertHost
  cases entry : lb.hostMap.lookup h.key with
  | some p => exact Iff.rfl
  | none =>
    simp only [Stale, lookup_insert]
    by_cases eq : k = h.key
    · subst eq
      simp [entry]
    · -- the new address is above every one that the map holds
      simp only [eq, ↓reduceIte]
      constructor <;> rintro ⟨p, found, gone⟩ <;> refine ⟨p, found, ?_⟩
      · rwa [Function.update_of_ne (sound.bounded k p found).ne] at gone
      · rwa [Function.update_of_ne (sound.bounded k p found).ne]

theorem insertHosts_spec (sound : Sound lb) (cfg : Config) (ts : Nat → Int) (i : Nat)
    (hs : List Proto.HostInfo) :
    Sound (lb.insertHosts cfg ts i hs) ∧
      (∀ k, k ∈ (lb.insertHosts cfg ts i hs).hostMap ↔
        k ∈ lb.hostMap ∨ k ∈ hs.map Proto.HostInfo.key) ∧
      ∀ k, (lb.insertHosts cfg ts i hs).Stale k ↔ lb.Stale k := by
  induction hs generalizing lb i with
  | nil => exact ⟨sound, fun k => by simp [insertHosts], fun k => Iff.rfl⟩
  | cons h hs ih =>
    obtain ⟨final, members, stale⟩ := ih (sound.insertHost cfg (ts i) h) (i + 1)
    refine ⟨final, fun k => ?_, fun k => (stale k).trans (stale_insertHost sound cfg _ h k)⟩
    rw [insertHosts, members, mem_insertHost, List.map_cons, List.mem_cons, or_assoc]

/-! ### Dropped hosts -/

/-- A record may be freed once its pointer is on neither list. -/
theorem Sound.free (sound : Sound lb) {p : Ptr} {il ol : List Ptr}
    (idles : ∀ q, q ∈ il ↔ q ∈ lb.idleList ∧ q ≠ p)
    (overloads : ∀ q, q ∈ ol ↔ q ∈ lb.overloadList ∧ q ≠ p) (nodup : (il ++ ol).Nodup) :
    Sound { lb with
      idleList := il, overloadList := ol, heap := Function.update lb.heap p none } := by
  have kept : ∀ q h, Function.update lb.heap p none q = some h → q ≠ p ∧ lb.heap q = some h := by
    intro q h found
    by_cases eq : q = p
    · subst eq
      simp at found
    · exact ⟨eq, by rwa [Function.update_of_ne eq] at found⟩
  refine ⟨fun q h found => sound.owned q h (kept q h found).2, sound.distinct, sound.bounded,
    ?_, nodup, ?_⟩
  · intro q
    have listed := sound.listed q
    simp only [List.mem_append] at listed
    by_cases eq : q = p
    · subst eq
      simp [idles, overloads]
    · simp only [List.mem_append, idles, overloads, eq, ne_eq, not_false_eq_true, and_true,
        Function.update_of_ne, listed]
  · intro q h found
    obtain ⟨ne, cell⟩ := kept q h found
    simp only [overloads, ne, ne_eq, not_false_eq_true, and_true]
    exact sound.flag q h cell

theorem stale_free (sound : Sound lb) {key : UInt64} {p : Ptr} {hi : HostInfo}
    (entry : lb.hostMap.lookup key = some p) (cell : lb.heap p = some hi) (il ol : List Ptr)
    (k : UInt64) :
    { lb with
      idleList := il, overloadList := ol, heap := Function.update lb.heap p none }.Stale k ↔
      lb.Stale k ∨ k = key := by
  constructor
  · rintro ⟨q, found, gone⟩
    by_cases eq : q = p
    · subst eq
      exact .inr (sound.distinct k key q found entry)
    · exact .inl ⟨q, found, by simpa [Function.update_of_ne eq] using gone⟩
  · rintro (⟨q, found, gone⟩ | rfl)
    · refine ⟨q, found, ?_⟩
      have ne : q ≠ p := by
        rintro rfl
        rw [gone] at cell
        cases cell
      simpa [Function.update_of_ne ne] using gone
    · exact ⟨p, entry, by simp⟩

/-- Deleting a host takes its record off its list; its entry is stale from then on. -/
theorem deleteHost_spec (sound : Sound lb) {key : UInt64} (member : key ∈ lb.hostMap)
    (live : ¬ lb.Stale key) :
    ∃ lb', lb.deleteHost key = .ok lb' ∧ Sound lb' ∧ lb'.hostMap = lb.hostMap ∧
      ∀ k, lb'.Stale k ↔ lb.Stale k ∨ k = key := by
  obtain ⟨p, entry⟩ := mem_hostMap.mp member
  obtain ⟨hi, cell, same⟩ := sound.find entry live
  have parts := List.nodup_append.mp sound.nodup
  -- the flag says which list holds `p`; the other one does not, so both end up without it
  by_cases flag : hi.overload = true
  · have absent : p ∉ lb.idleList := by simp [sound.mem_idle cell, flag]
    refine ⟨{ lb with
      overloadList := remove lb.overloadList p, heap := Function.update lb.heap p none },
      by simp only [deleteHost, entry, cell, flag, ↓reduceIte], ?_, rfl,
      stale_free sound entry cell _ _⟩
    refine sound.free (fun q => ⟨fun h => ⟨h, ?_⟩, And.left⟩) (fun q => mem_remove) ?_
    · rintro rfl
      exact absent h
    · exact List.nodup_append.mpr ⟨parts.1, parts.2.1.filter _, fun a ha b hb =>
        parts.2.2 a ha b (mem_remove.mp hb).1⟩
  · have absent : p ∉ lb.overloadList := by simp [sound.flag p hi cell, flag]
    refine ⟨{ lb with
      idleList := remove lb.idleList p, heap := Function.update lb.heap p none },
      by simp only [deleteHost, entry, cell, flag]; rfl, ?_, rfl,
      stale_free sound entry cell _ _⟩
    refine sound.free (fun q => mem_remove) (fun q => ⟨fun h => ⟨h, ?_⟩, And.left⟩) ?_
    · rintro rfl
      exact absent h
    · exact List.nodup_append.mpr ⟨parts.1.filter _, parts.2.1, fun a ha b hb =>
        parts.2.2 a (mem_remove.mp ha).1 b hb⟩

theorem deleteHosts_spec (sound : Sound lb) {keys : List UInt64} (nodup : keys.Nodup)
    (members : ∀ k ∈ keys, k ∈ lb.hostMap) (live : ∀ k ∈ keys, ¬ lb.Stale k) :
    ∃ lb', lb.deleteHosts keys = .ok lb' ∧ Sound lb' ∧ lb'.hostMap = lb.hostMap ∧
      ∀ k, lb'.Stale k ↔ lb.Stale k ∨ k ∈ keys := by
  induction keys generalizing lb with
  | nil => exact ⟨lb, rfl, sound, rfl, by simp⟩
  | cons key keys ih =>
    -- the keys are distinct: none of the later ones is stale after the first deletion
    obtain ⟨fresh, rest⟩ := List.nodup_cons.mp nodup
    obtain ⟨mid, done, midSound, midMap, midStale⟩ :=
      deleteHost_spec sound (members key (by simp)) (live key (by simp))
    obtain ⟨lb', done', sound', map', stale'⟩ := ih midSound rest
      (fun k hk => by rw [midMap]; exact members k (by simp [hk]))
      (fun k hk => by
        rw [midStale]
        rintro (stale | rfl)
        · exact live k (by simp [hk]) stale
        · exact fresh hk)
    refine ⟨lb', by simp only [deleteHosts, done, done'], sound', map'.trans midMap, fun k => ?_⟩
    rw [stale', midStale, List.mem_cons, or_assoc]

/-! ### `update` -/

/-- From a state without stale entries `update` returns; it serves the hosts of the answer and
leaves stale the entries of the others. -/
theorem update_spec (sound : Sound lb) (live : ∀ k, ¬ lb.Stale k) (cfg : Config) (now : Int)
    (ts : Nat → Int) {rsp : Proto.GetRouteResponse} (nonempty : rsp.host ≠ []) :
    ∃ lb', lb.update cfg now ts rsp = .ok lb' ∧ Sound lb' ∧ lb'.status = .new ∧
      (∀ k, lb'.Stale k ↔ k ∈ lb.hostMap ∧ k ∉ rsp.host.map Proto.HostInfo.key) ∧
      ∀ k, lb'.Serves k ↔ k ∈ rsp.host.map Proto.HostInfo.key := by
  obtain ⟨inserted, members, stale⟩ := insertHosts_spec sound cfg ts 0 rsp.host
  set mid := lb.insertHosts cfg ts 0 rsp.host
  set remote := rsp.host.map Proto.HostInfo.key
  -- the hosts of the answer are in the map by now, so only older ones are up for deletion
  have drop : ∀ k, k ∈ mid.needDelete remote ↔ k ∈ lb.hostMap ∧ k ∉ remote := by
    intro k
    have split := members k
    rw [AList.mem_keys] at split
    simp only [needDelete, List.mem_filter, decide_eq_true_eq, split]
    tauto
  have distinct : (mid.needDelete remote).Nodup := mid.hostMap.keys_nodup.filter _
  obtain ⟨lb', done, sound', map', stale'⟩ := deleteHosts_spec inserted distinct
    (fun k hk => AList.mem_keys.mpr (List.mem_filter.mp hk).1)
    (fun k _ => by rw [stale]; exact live k)
  have staleNow : ∀ k, lb'.Stale k ↔ k ∈ lb.hostMap ∧ k ∉ remote := by
    intro k
    rw [stale', stale, drop]
    exact or_iff_right (live k)
  refine ⟨{ lb' with lastUpdateTime := now, status := .new }, ?_, ?_, rfl, staleNow, ?_⟩
  · have unfolded : mid.deleteHosts (mid.needDelete remote) = .ok lb' := done
    simp only [update, nonempty, ↓reduceIte, mid, remote] at unfolded ⊢
    simp only [unfolded]
  · exact sound'.mark .new now
  · intro k
    change lb'.Serves k ↔ _
    rw [sound'.serves_iff, staleNow, map', members]
    tauto

/-! ### Runs -/

/-- The calls on one load balancer, each with the clock readings it makes. -/
inductive Op where
  | update (now : Int) (ts : Nat → Int) (rsp : Proto.GetRouteResponse) (nonempty : rsp.host ≠ [])
  | report (now ts : Int) (ip port retcode : Int32)
  | choiceOneHost
  | commit (now : Int)

def step (cfg : Config) (lb : LoadBalance) : Op → Except Fault LoadBalance
  | .update now ts rsp _ => lb.update cfg now ts rsp
  | .report now ts ip port retcode => lb.report cfg now ts ip port retcode
  | .choiceOneHost => (lb.choiceOneHost cfg).map fun result => result.2.2
  | .commit now => (lb.commit now).map fun _ => lb

/-- An answer of the DNS names every host that the map holds. -/
def Keeps (lb : LoadBalance) : Op → Prop
  | .update _ _ rsp _ => ∀ k ∈ lb.hostMap, k ∈ rsp.host.map Proto.HostInfo.key
  | _ => True

/-- From a state without stale entries every call that returns leaves the lists sound, and only
an answer that drops hosts leaves a stale entry. -/
theorem step_spec (cfg : Config) (sound : Sound lb) (live : ∀ k, ¬ lb.Stale k) {op : Op}
    {lb' : LoadBalance} (taken : lb.step cfg op = .ok lb') :
    Sound lb' ∧ ((∀ k, ¬ lb'.Stale k) ↔ lb.Keeps op) := by
  have unchanged : Retains lb lb' → ((∀ k, ¬ lb'.Stale k) ↔ True) := by
    intro retains
    simpa [retains.stale_iff] using live
  cases op with
  | update now ts rsp nonempty =>
    obtain ⟨lb'', done, sound', -, stale, -⟩ := update_spec sound live cfg now ts nonempty
    rw [step, done] at taken
    cases taken
    refine ⟨sound', ?_⟩
    simp only [stale, not_and, not_not]
    exact Iff.rfl
  | report now ts ip port retcode =>
    obtain ⟨lb'', done, sound', retains⟩ :=
      report_spec sound cfg now ts ip port retcode (live _)
    rw [step, done] at taken
    cases taken
    exact ⟨sound', unchanged retains⟩
  | choiceOneHost =>
    obtain ⟨⟨ret, host, lb''⟩, done, rfl⟩ := map_ok_inv taken
    have chosen := choiceOneHost_spec sound cfg done
    exact ⟨chosen.sound, unchanged chosen.retains⟩
  | commit now =>
    obtain ⟨sent, done, rfl⟩ := map_ok_inv taken
    exact ⟨sound, unchanged (.refl lb)⟩

/-! ### Calls that return -/

/-- Every entry of the map leads where it led before. -/
def KeepsEntries (lb lb' : LoadBalance) : Prop :=
  ∀ k p, lb.hostMap.lookup k = some p → lb'.hostMap.lookup k = some p

theorem keepsEntries_insertHosts (cfg : Config) (ts : Nat → Int) (i : Nat)
    (hs : List Proto.HostInfo) : KeepsEntries lb (lb.insertHosts cfg ts i hs) := by
  induction hs generalizing lb i with
  | nil => exact fun _ _ entry => entry
  | cons h hs ih =>
    intro k p entry
    apply ih
    unfold LoadBalance.insertHost
    cases found : lb.hostMap.lookup h.key with
    | some q => exact entry
    | none =>
      have other : k ≠ h.key := by
        rintro rfl
        rw [found] at entry
        cases entry
      rwa [AList.lookup_insert_ne other]

/-- A deletion that returns has found a record. -/
theorem deleteHost_found {key : UInt64} {lb' : LoadBalance} (done : lb.deleteHost key = .ok lb') :
    key ∈ lb.hostMap ∧ ¬ lb.Stale key := by
  unfold deleteHost at done
  split at done
  · cases done
  next p found =>
    split at done
    · cases done
    next hi cell => exact ⟨mem_hostMap.mpr ⟨p, found⟩, not_stale found cell⟩

/-- Deletions that return have found records for all their keys, and leave the entries of these
stale, beside those that were. -/
theorem deleteHosts_returns (sound : Sound lb) {keys : List UInt64} {lb' : LoadBalance}
    (done : lb.deleteHosts keys = .ok lb') :
    Sound lb' ∧ lb'.hostMap = lb.hostMap ∧ (∀ k ∈ keys, ¬ lb.Stale k) ∧
      ∀ k, lb'.Stale k ↔ lb.Stale k ∨ k ∈ keys := by
  induction keys generalizing lb with
  | nil =>
    cases done
    exact ⟨sound, rfl, by simp, by simp⟩
  | cons key keys ih =>
    cases first : lb.deleteHost key with
    | error e => simp [deleteHosts, first] at done
    | ok mid =>
      simp only [deleteHosts, first] at done
      obtain ⟨member, live⟩ := deleteHost_found first
      obtain ⟨mid', same, midSound, midMap, midStale⟩ := deleteHost_spec sound member live
      rw [first] at same
      cases same
      obtain ⟨sound', map, live', stale⟩ := ih midSound done
      refine ⟨sound', map.trans midMap, ?_, fun k => ?_⟩
      · rintro k (_ | ⟨_, later⟩)
        · exact live
        · exact fun before => live' k later ((midStale k).mpr (.inl before))
      · rw [stale, midStale, List.mem_cons, or_assoc]

/-- An `update` that returns has deleted what the answer does not name. -/
theorem update_returns (sound : Sound lb) {cfg : Config} {now : Int} {ts : Nat → Int}
    {rsp : Proto.GetRouteResponse} {lb' : LoadBalance}
    (done : lb.update cfg now ts rsp = .ok lb') :
    Sound lb' ∧ lb'.hostMap = (lb.insertHosts cfg ts 0 rsp.host).hostMap ∧
      ∀ k, lb'.Stale k ↔ lb.Stale k ∨
        k ∈ (lb.insertHosts cfg ts 0 rsp.host).hostMap ∧
          k ∉ rsp.host.map Proto.HostInfo.key := by
  simp only [LoadBalance.update] at done
  split at done
  · cases done
  · split at done
    next mid deleted =>
      cases done
      obtain ⟨inserted, -, stale⟩ := insertHosts_spec sound cfg ts 0 rsp.host
      obtain ⟨sound', map, -, stale'⟩ := deleteHosts_returns inserted deleted
      refine ⟨sound'.mark .new now, map, fun k => ?_⟩
      change mid.Stale k ↔ _
      rw [stale', stale, needDelete, List.mem_filter, ← AList.mem_keys, decide_eq_true_eq]
    · cases done

/-- The other calls keep the entries and the records behind them. -/
theorem step_retains (cfg : Config) (sound : Sound lb) {op : Op} {lb' : LoadBalance}
    (other : ∀ now ts rsp nonempty, op ≠ .update now ts rsp nonempty)
    (taken : lb.step cfg op = .ok lb') : Sound lb' ∧ Retains lb lb' := by
  cases op with
  | update now ts rsp nonempty => exact absurd rfl (other now ts rsp nonempty)
  | report now ts ip port retcode =>
    -- on a stale entry the call would not have returned
    have live : ¬ lb.Stale (packKey ip port) := by
      intro stale
      simp only [step, report_stale cfg now ts ip port retcode stale] at taken
      cases taken
    obtain ⟨lb'', done, sound', retains⟩ := report_spec sound cfg now ts ip port retcode live
    rw [step, done] at taken
    cases taken
    exact ⟨sound', retains⟩
  | choiceOneHost =>
    obtain ⟨⟨ret, host, lb''⟩, done, rfl⟩ := map_ok_inv taken
    have chosen := choiceOneHost_spec sound cfg done
    exact ⟨chosen.sound, chosen.retains⟩
  | commit now =>
    obtain ⟨sent, done, rfl⟩ := map_ok_inv taken
    exact ⟨sound, .refl lb⟩

/-- A call that returns, stale entries or not, leaves the lists sound and the entries alone. -/
theorem step_returns (cfg : Config) (sound : Sound lb) {op : Op} {lb' : LoadBalance}
    (taken : lb.step cfg op = .ok lb') : Sound lb' ∧ KeepsEntries lb lb' := by
  cases op with
  | update now ts rsp nonempty =>
    obtain ⟨sound', map, -⟩ := update_returns sound taken
    refine ⟨sound', fun k p entry => ?_⟩
    rw [map]
    exact keepsEntries_insertHosts cfg ts 0 rsp.host k p entry
  | report | choiceOneHost | commit =>
    obtain ⟨sound', retains⟩ := step_retains cfg sound (by rintro _ _ _ _ ⟨⟩) taken
    exact ⟨sound', fun k p entry => by rwa [retains.map]⟩

theorem run_returns (cfg : Config) (sound : Sound lb) {ops : List Op} {lb' : LoadBalance}
    (done : Run.run (step cfg) lb ops = .ok lb') : Sound lb' ∧ KeepsEntries lb lb' := by
  refine Run.run_preserves (P := fun s => Sound s ∧ KeepsEntries lb s) ?_
    ⟨sound, fun _ _ entry => entry⟩ done
  rintro s op t ⟨sound, keeps⟩ taken
  obtain ⟨sound', keeps'⟩ := step_returns cfg sound taken
  exact ⟨sound', fun k p entry => keeps' k p (keeps k p entry)⟩

/-- An answer of the DNS names the host with this key. -/
def Names (key : UInt64) : Op → Prop
  | .update _ _ rsp _ => key ∈ rsp.host.map Proto.HostInfo.key
  | _ => True

/-- The record of a host that is named stays, whatever else is stale. -/
theorem step_names (cfg : Config) (sound : Sound lb) {op : Op} {lb' : LoadBalance} {key : UInt64}
    (names : Names key op) (live : ¬ lb.Stale key) (taken : lb.step cfg op = .ok lb') :
    ¬ lb'.Stale key := by
  cases op with
  | update now ts rsp nonempty =>
    rw [(update_returns sound taken).2.2]
    rintro (before | ⟨-, unnamed⟩)
    · exact live before
    · exact unnamed names
  | report | choiceOneHost | commit =>
    obtain ⟨-, retains⟩ := step_retains cfg sound (by rintro _ _ _ _ ⟨⟩) taken
    rwa [retains.stale_iff]

theorem run_names (cfg : Config) (sound : Sound lb) {ops : List Op} {lb' : LoadBalance}
    {key : UInt64} (names : ∀ op ∈ ops, Names key op) (live : ¬ lb.Stale key)
    (done : Run.run (step cfg) lb ops = .ok lb') : ¬ lb'.Stale key := by
  induction ops generalizing lb with
  | nil =>
    cases done
    exact live
  | cons op ops ih =>
    obtain ⟨mid, taken, rest⟩ := Run.run_cons_inv done
    have live' := step_names cfg sound (names op List.mem_cons_self) live taken
    exact ih (step_returns cfg sound taken).1
      (fun op member => names op (List.mem_cons_of_mem _ member)) live' rest

/-! ### Agreement throughout a run -/

/-- The containers of a load balancer agree in every state of a run exactly when every answer
of the run still names all the hosts that the map holds when it arrives. -/
theorem agrees_throughout_iff (cfg : Config) (modid cmdid : Int32) (now : Int) (ops : List Op) :
    Run.Always (step cfg) Agrees (init modid cmdid now) ops ↔
      Run.Guarded (step cfg) Keeps (init modid cmdid now) ops := by
  have initial := Sound.init modid cmdid now
  apply Run.always_iff_guarded (I := Sound) _ _ initial
    (initial.agrees_iff.mpr (not_stale_init modid cmdid now))
  · intro lb op lb' sound agrees taken
    exact (step_spec cfg sound (sound.agrees_iff.mp agrees) taken).1
  · intro lb op sound agrees
    have live := sound.agrees_iff.mp agrees
    have outcome : ∀ lb', lb.step cfg op = .ok lb' → (Agrees lb' ↔ lb.Keeps op) := by
      intro lb' taken
      obtain ⟨sound', stale⟩ := step_spec cfg sound live taken
      exact sound'.agrees_iff.trans stale
    constructor
    · intro good
      -- only an answer can break the guard, and from here an answer always goes through
      cases op with
      | update now ts rsp nonempty =>
        obtain ⟨lb', done, -⟩ := update_spec sound live cfg now ts nonempty
        exact (outcome lb' done).mp (good lb' done)
      | _ => trivial
    · exact fun keeps lb' taken => (outcome lb' taken).mpr keeps

/-- The keys of the hosts on the two lists. -/
def listedKeys (lb : LoadBalance) : List UInt64 :=
  (lb.idleList ++ lb.overloadList).filterMap fun p => (lb.heap p).map HostInfo.key

/-- Two records on the lists are two hosts. -/
theorem Sound.listedKeys_nodup (sound : Sound lb) : lb.listedKeys.Nodup := by
  apply List.Nodup.filterMap _ sound.nodup
  intro p q key ofP ofQ
  obtain ⟨hi, cell, rfl⟩ := Option.map_eq_some_iff.mp ofP
  obtain ⟨hi', cell', same⟩ := Option.map_eq_some_iff.mp ofQ
  have filed := sound.owned p hi cell
  have filed' := sound.owned q hi' cell'
  rw [same] at filed'
  exact Option.some.inj (filed.symm.trans filed')

/-- By its key too, every host is on the lists once in every state of a run, whatever the answers
name. -/
theorem keys_listed_once (cfg : Config) (modid cmdid : Int32) (now : Int) (ops : List Op) :
    Run.Always (step cfg) (fun lb => lb.listedKeys.Nodup) (init modid cmdid now) ops := by
  have sound : Run.Always (step cfg) Sound (init modid cmdid now) ops :=
    Run.always_of_preserved (fun _ _ _ sound taken => (step_returns cfg sound taken).1)
      (Sound.init modid cmdid now)
  exact sound.mono fun _ => Sound.listedKeys_nodup

/-- Host 1:80 is replaced by host 2:80. Its entry stays in the map and points to a freed record. -/
theorem replaced_host_breaks_agreement :
    ∃ lb, Run.run (step .default) (init 1 1 0)
        [.update 0 (fun _ => 0) ⟨1, 1, [⟨1, 80⟩]⟩ (by simp),
         .update 1 (fun _ => 1) ⟨1, 1, [⟨2, 80⟩]⟩ (by simp)] = .ok lb ∧
      lb.hostMap.lookup (packKey 1 80) = some 0 ∧ lb.heap 0 = none ∧ ¬ Agrees lb := by
  refine ⟨_, rfl, by decide, by decide, fun agrees => ?_⟩
  obtain ⟨-, hi, cell, -⟩ := agrees.filed 1 80 0 (by decide)
  exact Option.some_ne_none hi (cell.symm.trans (by decide))

end Lars.Agent.LoadBalance
