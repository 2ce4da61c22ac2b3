import Lars.Agent.History

/-!
# One answer of the DNS, to the last record

From a state in which the containers agree, `update` takes the hosts that the
answer does not name off their lists and appends the ones the map does not know
to the idle list, each once, however often the answer repeats it. Every other
host stays where it is, with its record.
-/
namespace Lars.Agent.LoadBalance

variable {lb lb' : LoadBalance}

/-- The hosts that the map does not know, in the order in which they are first named. -/
def newHosts (hs : List Proto.HostInfo) (lb : LoadBalance) : List Proto.HostInfo :=
  (hs.filter fun h => h.key ∉ lb.hostMap).eraseDups

/-- The record behind a pointer is that of a host of the answer. -/
def named (rsp : Proto.GetRouteResponse) (lb : LoadBalance) (p : Ptr) : Bool :=
  (lb.heap p).any fun hi => hi.toProto ∈ rsp.host

/-- A host before its first report. -/
structure Starts (cfg : Config) (h : Proto.HostInfo) (hi : HostInfo) : Prop where
  host : hi.toProto = h
  idle : hi.overload = false
  vsucc : hi.vsucc = cfg.initSuccCnt.toUInt32
  verr : hi.verr = 0
  rsucc : hi.rsucc = 0
  rerr : hi.rerr = 0
  continSucc : hi.continSucc = 0
  continErr : hi.continErr = 0

theorem starts_new (cfg : Config) (h : Proto.HostInfo) (ts : Int) :
    Starts cfg h (HostInfo.new h.ip.toUInt32 h.port cfg.initSuccCnt ts) where
  host := by simp [HostInfo.toProto, HostInfo.new]
  idle := rfl
  vsucc := rfl
  verr := rfl
  rsucc := rfl
  rerr := rfl
  continSucc := rfl
  continErr := rfl

theorem named_of_cell {rsp : Proto.GetRouteResponse} {p : Ptr} {hi : HostInfo}
    (cell : lb.heap p = some hi) : lb.named rsp p = decide (hi.toProto ∈ rsp.host) := by
  rw [named, cell]
  rfl

/-! ### The first loop -/

theorem newHosts_known {h : Proto.HostInfo} (known : h.key ∈ lb.hostMap)
    (hs : List Proto.HostInfo) : lb.newHosts (h :: hs) = lb.newHosts hs := by
  rw [newHosts, List.filter_cons_of_neg (by simpa using known)]
  rfl

/-- After the first mention of a new host the later ones count as known. -/
theorem newHosts_unknown (cfg : Config) (ts : Int) {h : Proto.HostInfo}
    (unknown : h.key ∉ lb.hostMap) (hs : List Proto.HostInfo) :
    lb.newHosts (h :: hs) = h :: (lb.insertHost cfg ts h).newHosts hs := by
  rw [newHosts, List.filter_cons_of_pos (by simpa using unknown), List.eraseDups_cons,
    List.filter_filter, newHosts]
  congr 2
  refine List.filter_congr fun g _ => ?_
  have same : g.key = h.key ↔ g = h := ⟨Proto.HostInfo.key_inj, congrArg _⟩
  simp only [mem_insertHost, same, not_or, Bool.decide_and, decide_not, Bool.beq_eq_decide_eq]
  exact Bool.and_comm _ _

theorem insertHosts_lists (sound : Sound lb) (cfg : Config) (ts : Nat → Int) (i : Nat)
    (hs : List Proto.HostInfo) :
    ∃ added, (lb.insertHosts cfg ts i hs).idleList = lb.idleList ++ added ∧
      (lb.insertHosts cfg ts i hs).overloadList = lb.overloadList ∧
      (lb.insertHosts cfg ts i hs).accessCnt = lb.accessCnt ∧
      List.Forall₂ (fun p h => ∃ hi, (lb.insertHosts cfg ts i hs).heap p = some hi ∧
        Starts cfg h hi) added (lb.newHosts hs) := by
  induction hs generalizing lb i with
  | nil => exact ⟨[], by rw [List.append_nil]; rfl, rfl, rfl, .nil⟩
  | cons h hs ih =>
    obtain ⟨added, idle, overloaded, cnt, records⟩ := ih (sound.insertHost cfg (ts i) h) (i + 1)
    cases entry : lb.hostMap.lookup h.key with
    | some p =>
      have same : lb.insertHost cfg (ts i) h = lb := by
        simp only [insertHost, entry]
      rw [same] at idle overloaded cnt records
      refine ⟨added, ?_⟩
      rw [insertHosts, same, newHosts_known (mem_hostMap.mpr ⟨p, entry⟩)]
      exact ⟨idle, overloaded, cnt, records⟩
    | none =>
      have unknown : h.key ∉ lb.hostMap := by
        rw [mem_hostMap]
        rintro ⟨p, found⟩
        rw [entry] at found
        cases found
      rw [newHosts_unknown cfg (ts i) unknown, insertHosts]
      -- the new record is not touched again, for later ones take later addresses
      have here : ((lb.insertHost cfg (ts i) h).insertHosts cfg ts (i + 1) hs).heap lb.nextPtr =
          some (HostInfo.new h.ip.toUInt32 h.port cfg.initSuccCnt (ts i)) := by
        rw [insertHosts_cell cfg ts (i + 1) hs (by simp [insertHost, entry])]
        simp [insertHost, entry]
      refine ⟨lb.nextPtr :: added, ?_, ?_, ?_, .cons ⟨_, here, starts_new cfg h (ts i)⟩ records⟩
      · rw [idle]
        simp [insertHost, entry]
      · rw [overloaded]
        simp [insertHost, entry]
      · rw [cnt]
        simp [insertHost, entry]

/-! ### The third loop -/

/-- The record is taken off the list that its flag names and is on no other. -/
theorem deleteHost_lists (sound : Sound lb) {key : UInt64} {p : Ptr} {hi : HostInfo}
    (entry : lb.hostMap.lookup key = some p) (cell : lb.heap p = some hi)
    (done : lb.deleteHost key = .ok lb') :
    lb'.idleList = remove lb.idleList p ∧ lb'.overloadList = remove lb.overloadList p ∧
      lb'.heap = Function.update lb.heap p none ∧ lb'.accessCnt = lb.accessCnt := by
  have untouched : ∀ {l : List Ptr}, p ∉ l → l = remove l p := by
    intro l absent
    refine (List.filter_eq_self.mpr fun q member => ?_).symm
    have other : q ≠ p := fun same => absent (same ▸ member)
    simpa using other
  simp only [deleteHost, entry, cell] at done
  cases done
  split
  next flag =>
    have absent : p ∉ lb.idleList := by simp [sound.mem_idle cell, flag]
    exact ⟨untouched absent, rfl, rfl, rfl⟩
  next flag =>
    have absent : p ∉ lb.overloadList := by simp [sound.flag p hi cell, flag]
    exact ⟨rfl, untouched absent, rfl, rfl⟩

/-- The pointers that the map has for the keys. -/
def pointers (keys : List UInt64) (lb : LoadBalance) : List Ptr :=
  keys.filterMap lb.hostMap.lookup

theorem deleteHosts_lists (sound : Sound lb) {keys : List UInt64} (nodup : keys.Nodup)
    (live : ∀ k ∈ keys, ¬ lb.Stale k) (done : lb.deleteHosts keys = .ok lb') :
    lb'.idleList = lb.idleList.filter (· ∉ lb.pointers keys) ∧
      lb'.overloadList = lb.overloadList.filter (· ∉ lb.pointers keys) ∧
      (∀ p ∉ lb.pointers keys, lb'.heap p = lb.heap p) ∧ lb'.accessCnt = lb.accessCnt := by
  induction keys generalizing lb with
  | nil =>
    cases done
    simp [pointers]
  | cons key keys ih =>
    obtain ⟨fresh, rest⟩ := List.nodup_cons.mp nodup
    cases entry : lb.hostMap.lookup key with
    | none => simp [deleteHosts, deleteHost, entry] at done
    | some p =>
      obtain ⟨hi, cell, -⟩ := sound.find entry (live key (by simp))
      obtain ⟨mid, first, midSound, midMap, midStale⟩ :=
        deleteHost_spec sound (mem_hostMap.mpr ⟨p, entry⟩) (live key (by simp))
      obtain ⟨idle, overloaded, heap, cnt⟩ := deleteHost_lists sound entry cell first
      simp only [deleteHosts, first] at done
      obtain ⟨idle', overloaded', heap', cnt'⟩ := ih midSound rest
        (fun k member => by
          rw [midStale]
          rintro (stale | rfl)
          · exact live k (by simp [member]) stale
          · exact fresh member) done
      have first : lb.pointers (key :: keys) = p :: mid.pointers keys := by
        simp only [pointers, List.filterMap_cons, entry, midMap]
      -- taking `p` off and then the others is taking all of them off
      have both : ∀ l : List Ptr, (remove l p).filter (· ∉ mid.pointers keys) =
          l.filter (· ∉ lb.pointers (key :: keys)) := by
        intro l
        rw [remove, List.filter_filter, first]
        refine List.filter_congr fun q _ => ?_
        simp only [List.mem_cons, not_or, Bool.decide_and]
        exact Bool.and_comm _ _
      refine ⟨by rw [idle', idle, both], by rw [overloaded', overloaded, both], ?_,
        cnt'.trans cnt⟩
      intro q kept
      rw [first, List.mem_cons, not_or] at kept
      rw [heap' q kept.2, heap, Function.update_of_ne kept.1]

/-! ### `update` -/

private theorem mem_related {α β : Type} {R : α → β → Prop} {l : List α} {m : List β} {a : α}
    (related : List.Forall₂ R l m) (member : a ∈ l) : ∃ b ∈ m, R a b := by
  induction related with
  | nil => cases member
  | @cons a' b l m here _ ih =>
    rcases List.mem_cons.mp member with rfl | later
    · exact ⟨b, by simp, here⟩
    · obtain ⟨b', among, there⟩ := ih later
      exact ⟨b', by simp [among], there⟩

/-- A record goes exactly if the answer does not name its host. -/
theorem mem_pointers_needDelete (sound : Sound lb) (rsp : Proto.GetRouteResponse) {p : Ptr}
    {hi : HostInfo} (cell : lb.heap p = some hi) :
    p ∈ lb.pointers (lb.needDelete (rsp.host.map Proto.HostInfo.key)) ↔
      hi.toProto ∉ rsp.host := by
  have entry := sound.owned p hi cell
  have asked : hi.key ∈ rsp.host.map Proto.HostInfo.key ↔ hi.toProto ∈ rsp.host := by
    rw [← key_toProto]
    exact List.mem_map_of_injective fun _ _ => Proto.HostInfo.key_inj
  simp only [pointers, needDelete, List.mem_filterMap, List.mem_filter, decide_eq_true_eq]
  constructor
  · rintro ⟨k, ⟨-, absent⟩, found⟩
    rw [sound.distinct k hi.key p found entry, asked] at absent
    exact absent
  · intro absent
    exact ⟨hi.key, ⟨AList.mem_keys.mpr (mem_hostMap.mpr ⟨p, entry⟩), asked.not.mpr absent⟩, entry⟩

/-- What the third loop leaves of a list of records that were there before the first. -/
theorem filter_named {mid : LoadBalance} (sound : Sound mid) (rsp : Proto.GetRouteResponse)
    {l : List Ptr} (old : ∀ p ∈ l, ∃ hi, lb.heap p = some hi ∧ mid.heap p = some hi) :
    l.filter (· ∉ mid.pointers (mid.needDelete (rsp.host.map Proto.HostInfo.key))) =
      l.filter (lb.named rsp) := by
  refine List.filter_congr fun p member => Bool.eq_iff_iff.mpr ?_
  obtain ⟨hi, cell, same⟩ := old p member
  rw [decide_eq_true_iff, mem_pointers_needDelete sound rsp same, not_not, named_of_cell cell,
    decide_eq_true_iff]

/-- A record that was added for a host of the answer stays. -/
theorem added_stays {mid : LoadBalance} (sound : Sound mid) {cfg : Config}
    {rsp : Proto.GetRouteResponse} {added : List Ptr}
    (records : List.Forall₂ (fun p h => ∃ hi, mid.heap p = some hi ∧ Starts cfg h hi) added
      (lb.newHosts rsp.host)) {p : Ptr} (member : p ∈ added) :
    p ∉ mid.pointers (mid.needDelete (rsp.host.map Proto.HostInfo.key)) := by
  obtain ⟨h, among, hi, cell, starts⟩ := mem_related records member
  have asked : h ∈ rsp.host := (List.mem_filter.mp (List.mem_eraseDups.mp among)).1
  rw [mem_pointers_needDelete sound rsp cell, not_not, starts.host]
  exact asked

/-- The first loop only adds records. -/
theorem insertHosts_old (sound : Sound lb) (cfg : Config) (ts : Nat → Int) (i : Nat)
    (hs : List Proto.HostInfo) {p : Ptr} (listed : p ∈ lb.idleList ++ lb.overloadList) :
    ∃ hi, lb.heap p = some hi ∧ (lb.insertHosts cfg ts i hs).heap p = some hi := by
  obtain ⟨hi, cell⟩ := (sound.listed p).mp listed
  refine ⟨hi, cell, ?_⟩
  rw [insertHosts_cell cfg ts i hs (sound.bounded _ p (sound.owned p hi cell)), cell]

/-- The other two loops, on what the first has made of the state: the records that the answer does
not name leave their lists, and nothing else moves. -/
theorem update_lists (sound : Sound lb) (live : ∀ k, ¬ lb.Stale k) (cfg : Config) (now : Int)
    (ts : Nat → Int) {rsp : Proto.GetRouteResponse} (nonempty : rsp.host ≠ []) :
    let mid := lb.insertHosts cfg ts 0 rsp.host
    let gone := mid.pointers (mid.needDelete (rsp.host.map Proto.HostInfo.key))
    ∃ lb', lb.update cfg now ts rsp = .ok lb' ∧
      lb'.idleList = mid.idleList.filter (· ∉ gone) ∧
      lb'.overloadList = mid.overloadList.filter (· ∉ gone) ∧
      (∀ p ∉ gone, lb'.heap p = mid.heap p) ∧ lb'.accessCnt = mid.accessCnt := by
  intro mid gone
  obtain ⟨inserted, -, stale⟩ : Sound mid ∧ _ ∧ ∀ k, mid.Stale k ↔ lb.Stale k :=
    insertHosts_spec sound cfg ts 0 rsp.host
  -- no key of the map is stale, so every deletion finds a record
  have drop : ∀ k ∈ mid.needDelete (rsp.host.map Proto.HostInfo.key), ¬ mid.Stale k :=
    fun k _ => by rw [stale]; exact live k
  have distinct : (mid.needDelete (rsp.host.map Proto.HostInfo.key)).Nodup :=
    mid.hostMap.keys_nodup.filter _
  obtain ⟨last, deleted, -⟩ := deleteHosts_spec inserted distinct
    (fun k member => AList.mem_keys.mpr (List.mem_filter.mp member).1) drop
  have lists := deleteHosts_lists inserted distinct drop deleted
  refine ⟨{ last with lastUpdateTime := now, status := .new }, ?_, lists⟩
  rw [update, if_neg nonempty]
  dsimp only
  rw [deleted]

/-- From a state in which map, lists and flags agree: both lists lose the hosts that the answer
does not name and keep their order, the new hosts follow the idle ones, each once, and start
from nothing, and the other records and the count of accesses are as before. -/
theorem update_from_agreement (sound : Sound lb) (agrees : Agrees lb) (cfg : Config) (now : Int)
    (ts : Nat → Int) {rsp : Proto.GetRouteResponse} (nonempty : rsp.host ≠ []) :
    ∃ lb' added, lb.update cfg now ts rsp = .ok lb' ∧
      lb'.overloadList = lb.overloadList.filter (lb.named rsp) ∧
      lb'.idleList = lb.idleList.filter (lb.named rsp) ++ added ∧
      List.Forall₂ (fun p h => ∃ hi, lb'.heap p = some hi ∧ Starts cfg h hi) added
        (lb.newHosts rsp.host) ∧
      (∀ p ∈ (lb.idleList ++ lb.overloadList).filter (lb.named rsp), lb'.heap p = lb.heap p) ∧
      lb'.accessCnt = lb.accessCnt := by
  obtain ⟨inserted, -⟩ := insertHosts_spec sound cfg ts 0 rsp.host
  obtain ⟨added, idle, overloaded, cnt, records⟩ := insertHosts_lists sound cfg ts 0 rsp.host
  have old : ∀ p ∈ lb.idleList ++ lb.overloadList, ∃ hi, lb.heap p = some hi ∧
      (lb.insertHosts cfg ts 0 rsp.host).heap p = some hi :=
    fun p listed => insertHosts_old sound cfg ts 0 rsp.host listed
  obtain ⟨lb', updated, idle', overloaded', heap', cnt'⟩ :=
    update_lists sound (sound.agrees_iff.mp agrees) cfg now ts nonempty
  refine ⟨lb', added, updated, ?_, ?_, ?_, ?_, cnt'.trans cnt⟩
  · rw [overloaded', overloaded,
      filter_named inserted rsp fun p member => old p (List.mem_append_right _ member)]
  · rw [idle', idle, List.filter_append,
      filter_named inserted rsp fun p member => old p (List.mem_append_left _ member)]
    congr 1
    exact List.filter_eq_self.mpr fun p member => by
      simpa using added_stays inserted records member
  · have stay := (List.forall₂_and_left added _).mpr
      ⟨fun p member => added_stays inserted records member, records⟩
    apply stay.imp
    rintro p h ⟨kept, hi, cell, starts⟩
    exact ⟨hi, (heap' p kept).trans cell, starts⟩
  · intro p member
    rw [← filter_named inserted rsp old, List.mem_filter, decide_eq_true_iff] at member
    obtain ⟨hi, cell, same⟩ := old p member.1
    rw [cell, ← same]
    exact heap' p member.2

private def firstAnswer : Proto.GetRouteResponse := ⟨1, 1, [⟨1, 80⟩, ⟨2, 80⟩]⟩

/-- It drops a host, keeps one and names a new one twice. -/
private def secondAnswer : Proto.GetRouteResponse := ⟨1, 1, [⟨2, 80⟩, ⟨3, 80⟩, ⟨3, 80⟩]⟩

theorem update_from_agreement_second :
    ∃ lb lb' added, (init 1 1 0).update .default 5 (fun _ => 5) firstAnswer = .ok lb ∧
      lb.update .default 6 (fun _ => 6) secondAnswer = .ok lb' ∧
      lb'.overloadList = lb.overloadList.filter (lb.named secondAnswer) ∧
      lb'.idleList = lb.idleList.filter (lb.named secondAnswer) ++ added ∧
      List.Forall₂ (fun p h => ∃ hi, lb'.heap p = some hi ∧ Starts .default h hi) added
        (lb.newHosts secondAnswer.host) ∧
      (∀ p ∈ (lb.idleList ++ lb.overloadList).filter (lb.named secondAnswer),
        lb'.heap p = lb.heap p) ∧
      lb'.accessCnt = lb.accessCnt := by
  obtain ⟨lb, done, sound, -, stale, -⟩ := update_spec (Sound.init 1 1 0) (not_stale_init 1 1 0)
    .default 5 (fun _ => 5) (show firstAnswer.host ≠ [] by decide)
  have live : ∀ k, ¬ lb.Stale k := by
    simp [stale, LoadBalance.init]
  obtain ⟨lb', added, done', lists⟩ := update_from_agreement sound (sound.agrees_iff.mpr live)
    .default 6 (fun _ => 6) (show secondAnswer.host ≠ [] by decide)
  exact ⟨lb, lb', added, done, done', lists⟩

end Lars.Agent.LoadBalance
