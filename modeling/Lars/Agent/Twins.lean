import Lars.Agent.Holding
import Lars.Agent.Independence
import Lars.Agent.SharedHeap
import Lars.Agent.Statistics
import Mathlib.Data.List.Forall2

/-!
# The same load balancer elsewhere on the heap

Where the records of a load balancer lie shows in nothing that it does, as long
as it follows no stale entry. Two load balancers *mirror* each other if they
differ in the addresses alone: pointer by pointer their lists lead to equal
records. The one may lie on a heap that it shares with others and get its
addresses from the allocator; the other has a heap of its own.
-/
namespace Lars.Agent.LoadBalance

variable {x y : LoadBalance} {p q : Ptr}

/-- Pointers to equal records, each filed under the key of its record. -/
def Twin (x y : LoadBalance) (p q : Ptr) : Prop :=
  ∃ hi, x.heap p = some hi ∧ y.heap q = some hi ∧
    x.hostMap.lookup hi.key = some p ∧ y.hostMap.lookup hi.key = some q

structure Mirrors (x y : LoadBalance) : Prop where
  status : x.status = y.status
  lastUpdateTime : x.lastUpdateTime = y.lastUpdateTime
  modid : x.modid = y.modid
  cmdid : x.cmdid = y.cmdid
  accessCnt : x.accessCnt = y.accessCnt
  keys : x.hostMap.keys = y.hostMap.keys
  idle : List.Forall₂ (Twin x y) x.idleList y.idleList
  overloaded : List.Forall₂ (Twin x y) x.overloadList y.overloadList

/-- Of the heap only the records on the lists change, and what is new on the lists was not in
use. -/
structure Within (x x' : LoadBalance) : Prop where
  others : ∀ p hi, x.heap p = some hi → p ∉ x.idleList ++ x.overloadList → x'.heap p = some hi
  lists : ∀ p ∈ x'.idleList ++ x'.overloadList,
    p ∈ x.idleList ++ x.overloadList ∨ x.heap p = none

theorem Within.refl (x : LoadBalance) : Within x x := ⟨fun _ _ cell _ => cell, fun _ => .inl⟩

theorem Within.trans {x' x'' : LoadBalance} (first : Within x x') (second : Within x' x'') :
    Within x x'' where
  others := by
    intro p hi cell off
    apply second.others p hi (first.others p hi cell off)
    intro again
    rcases first.lists p again with before | free
    · exact off before
    · rw [free] at cell
      cases cell
  lists := by
    intro p member
    rcases second.lists p member with before | free
    · exact first.lists p before
    · by_cases mine : p ∈ x.idleList ++ x.overloadList
      · exact .inl mine
      · cases cell : x.heap p with
        | none => exact .inr rfl
        | some hi =>
          rw [first.others p hi cell mine] at free
          cases free

/-! ### Twins -/

theorem Twin.eq_iff {p' q' : Ptr} (first : Twin x y p q) (second : Twin x y p' q') :
    p' = p ↔ q' = q := by
  obtain ⟨hi, cell, cell', back, back'⟩ := first
  obtain ⟨ho, other, other', turn, turn'⟩ := second
  constructor
  · rintro rfl
    rw [cell, Option.some.injEq] at other
    subst other
    exact Option.some.inj (turn'.symm.trans back')
  · rintro rfl
    rw [cell', Option.some.injEq] at other'
    subst other'
    exact Option.some.inj (turn.symm.trans back)

theorem exists_left {α β : Type} {R : α → β → Prop} {as : List α} {bs : List β}
    (pairs : List.Forall₂ R as bs) {b : β} (member : b ∈ bs) : ∃ a ∈ as, R a b := by
  induction pairs with
  | nil => cases member
  | cons related _ ih =>
    rcases List.mem_cons.mp member with rfl | later
    · exact ⟨_, List.mem_cons_self, related⟩
    · obtain ⟨a, inside, same⟩ := ih later
      exact ⟨a, List.mem_cons_of_mem _ inside, same⟩

theorem exists_right {α β : Type} {R : α → β → Prop} {as : List α} {bs : List β}
    (pairs : List.Forall₂ R as bs) {a : α} (member : a ∈ as) : ∃ b ∈ bs, R a b :=
  exists_left (R := flip R) pairs.flip member

theorem Mirrors.listed (mirrors : Mirrors x y) :
    List.Forall₂ (Twin x y) (x.idleList ++ x.overloadList) (y.idleList ++ y.overloadList) :=
  List.rel_append mirrors.idle mirrors.overloaded

theorem Mirrors.mem_hostMap (mirrors : Mirrors x y) (key : UInt64) :
    key ∈ x.hostMap ↔ key ∈ y.hostMap := by
  change key ∈ x.hostMap.keys ↔ key ∈ y.hostMap.keys
  rw [mirrors.keys]

theorem Mirrors.empty (mirrors : Mirrors x y) : x.empty = y.empty := by
  have keys := congrArg List.isEmpty mirrors.keys
  simpa only [LoadBalance.empty, AList.keys, List.keys, List.isEmpty_map] using keys

theorem Mirrors.idle_nil (mirrors : Mirrors x y) : x.idleList = [] ↔ y.idleList = [] := by
  rw [← List.length_eq_zero_iff, mirrors.idle.length_eq, List.length_eq_zero_iff]

theorem Mirrors.overload_nil (mirrors : Mirrors x y) :
    x.overloadList = [] ↔ y.overloadList = [] := by
  rw [← List.length_eq_zero_iff, mirrors.overloaded.length_eq, List.length_eq_zero_iff]

/-- The record of an entry that is not stale has a twin. -/
theorem Mirrors.find (mirrors : Mirrors x y) (sound : Sound y) {key : UInt64} {hi : HostInfo}
    (entry : y.hostMap.lookup key = some q) (cell : y.heap q = some hi) :
    hi.key = key ∧ ∃ p ∈ x.idleList ++ x.overloadList, Twin x y p q ∧
      x.heap p = some hi ∧ x.hostMap.lookup key = some p := by
  have same : hi.key = key := sound.distinct _ _ q (sound.owned q hi cell) entry
  obtain ⟨p, member, twin⟩ := exists_left mirrors.listed ((sound.listed q).mpr ⟨hi, cell⟩)
  refine ⟨same, p, member, twin, ?_⟩
  obtain ⟨ho, there, here, back, -⟩ := twin
  rw [cell, Option.some.injEq] at here
  subst here
  exact ⟨there, same ▸ back⟩

theorem Mirrors.live_iff (mirrors : Mirrors x y) (sound : Sound y) {key : UInt64}
    (known : key ∈ y.hostMap) : x.Live key ↔ ¬ y.Stale key := by
  constructor
  · rintro ⟨p, member, -, hi, cell, rfl⟩ ⟨q, entry, gone⟩
    obtain ⟨q', -, ho, there, here, -, back⟩ := exists_right mirrors.listed member
    rw [cell, Option.some.injEq] at there
    subst there
    rw [entry, Option.some.injEq] at back
    subst back
    rw [gone] at here
    cases here
  · intro live
    obtain ⟨q, entry⟩ := LoadBalance.mem_hostMap.mp known
    obtain ⟨hi, cell, same⟩ := sound.find entry live
    obtain ⟨-, p, member, -, there, found⟩ := mirrors.find sound entry cell
    exact ⟨p, member, found, hi, there, same⟩

/-! ### Reading -/

theorem readAll_twins {ps qs : List Ptr} (twins : List.Forall₂ (Twin x y) ps qs) :
    x.readAll ps = y.readAll qs := by
  induction twins with
  | nil => rfl
  | cons twin _ ih =>
    obtain ⟨hi, there, here, -⟩ := twin
    simp only [readAll, there, here, ih]

theorem Mirrors.commit (mirrors : Mirrors x y) (now : Int) : x.commit now = y.commit now := by
  simp only [LoadBalance.commit, mirrors.empty, readAll_twins mirrors.idle,
    readAll_twins mirrors.overloaded, mirrors.modid, mirrors.cmdid]

/-- All of the map can be read where all of its mirror can. -/
theorem Mirrors.readAll_getAllHosts (mirrors : Mirrors x y) (sound : Sound y)
    {his : List HostInfo} (done : y.readAll y.getAllHosts = .ok his) :
    x.readAll x.getAllHosts = .ok his := by
  rw [← done]
  apply readAll_twins
  have live : ∀ q ∈ y.getAllHosts, ∃ hi, y.heap q = some hi := by
    generalize y.getAllHosts = qs at done
    induction qs generalizing his with
    | nil => exact fun q member => absurd member List.not_mem_nil
    | cons q qs ih =>
      unfold LoadBalance.readAll at done
      split at done
      next hi rest cell later =>
        rintro q' (_ | ⟨_, member⟩)
        · exact ⟨hi, cell⟩
        · exact ih later q' member
      · cases done
      · cases done
  have pairs : List.Forall₂ (fun e e' : (_ : UInt64) × Ptr => e.1 = e'.1)
      x.hostMap.entries y.hostMap.entries := by
    have keys : x.hostMap.entries.map Sigma.fst = y.hostMap.entries.map Sigma.fst := mirrors.keys
    rw [← List.forall₂_eq_eq_eq, List.forall₂_map_left_iff, List.forall₂_map_right_iff] at keys
    exact keys
  rw [getAllHosts, getAllHosts, List.forall₂_map_left_iff, List.forall₂_map_right_iff,
    List.forall₂_iff_zip]
  refine ⟨pairs.length_eq, fun {e e'} together => ?_⟩
  have same := List.forall₂_zip pairs together
  have left : x.hostMap.lookup e.1 = some e.2 :=
    AList.mem_lookup_iff.mpr (List.of_mem_zip together).1
  have right : y.hostMap.lookup e'.1 = some e'.2 :=
    AList.mem_lookup_iff.mpr (List.of_mem_zip together).2
  obtain ⟨hi, cell⟩ := live e'.2 (List.mem_map_of_mem (List.of_mem_zip together).2)
  obtain ⟨-, p, -, twin, -, found⟩ := mirrors.find sound right cell
  rw [← same, left, Option.some.injEq] at found
  exact found ▸ twin

/-! ### `choice_one_host` -/

/-- What two mirrored calls that choose a host have in common. -/
structure Chooses (x : LoadBalance) (r r' : Int32 × Option Proto.HostInfo × LoadBalance) :
    Prop where
  ret : r.1 = r'.1
  host : r.2.1 = r'.2.1
  mirrors : Mirrors r.2.2 r'.2.2
  heap : r.2.2.heap = x.heap
  lists : ∀ p ∈ r.2.2.idleList ++ r.2.2.overloadList, p ∈ x.idleList ++ x.overloadList

theorem Chooses.within {r r' : Int32 × Option Proto.HostInfo × LoadBalance}
    (chooses : Chooses x r r') : Within x r.2.2 where
  others := by
    intro p hi cell _
    rw [chooses.heap]
    exact cell
  lists := fun p member => .inl (chooses.lists p member)

theorem getHostFromList_twins {ps qs : List Ptr} (twins : List.Forall₂ (Twin x y) ps qs) :
    Run.Agree (fun r r' => r.1 = r'.1 ∧ List.Forall₂ (Twin x y) r.2 r'.2 ∧ r.2 ⊆ ps)
      (x.getHostFromList ps) (y.getHostFromList qs) := by
  cases twins with
  | nil => rfl
  | @cons p q ps qs twin rest =>
    obtain ⟨hi, there, here, back⟩ := twin
    simp only [getHostFromList, there, here]
    refine ⟨rfl, List.rel_append rest (.cons ⟨hi, there, here, back⟩ .nil), ?_⟩
    intro a member
    rcases List.mem_append.mp member with later | head
    · exact List.mem_cons_of_mem _ later
    · rw [List.mem_singleton.mp head]
      exact List.mem_cons_self

theorem Mirrors.probeOverload (mirrors : Mirrors x y) :
    Run.Agree (Chooses x) x.probeOverload y.probeOverload := by
  unfold LoadBalance.probeOverload
  rcases (getHostFromList_twins mirrors.overloaded).cases with
    ⟨e, left, right⟩ | ⟨r, r', left, right, host, twins, fewer⟩
  · rw [left, right]
    rfl
  · rw [left, right]
    refine ⟨rfl, congrArg some host, { mirrors with accessCnt := rfl, overloaded := twins },
      rfl, ?_⟩
    intro p member
    rw [List.mem_append] at member ⊢
    exact member.imp_right fun rotated => fewer rotated

theorem Mirrors.serveIdle (mirrors : Mirrors x y) :
    Run.Agree (Chooses x) x.serveIdle y.serveIdle := by
  unfold LoadBalance.serveIdle
  rcases (getHostFromList_twins mirrors.idle).cases with
    ⟨e, left, right⟩ | ⟨r, r', left, right, host, twins, fewer⟩
  · rw [left, right]
    rfl
  · rw [left, right]
    refine ⟨rfl, congrArg some host, { mirrors with idle := twins }, rfl, ?_⟩
    intro p member
    rw [List.mem_append] at member ⊢
    exact member.imp_left fun rotated => fewer rotated

theorem Mirrors.choiceOneHost (mirrors : Mirrors x y) (cfg : Config) :
    Run.Agree (Chooses x) (x.choiceOneHost cfg) (y.choiceOneHost cfg) := by
  have counted : Mirrors { x with accessCnt := y.accessCnt + 1 }
      { y with accessCnt := y.accessCnt + 1 } := { mirrors with accessCnt := rfl }
  simp only [LoadBalance.choiceOneHost, mirrors.idle_nil, mirrors.overload_nil, mirrors.accessCnt]
  split
  · split
    · exact mirrors.probeOverload
    · exact ⟨rfl, rfl, counted, rfl, fun _ member => member⟩
  · split
    · exact mirrors.serveIdle
    · split
      · exact mirrors.probeOverload
      · exact counted.serveIdle.mono fun r r' chooses =>
          ⟨chooses.ret, chooses.host, chooses.mirrors, chooses.heap, chooses.lists⟩

/-! ### `report` -/

/-- The list without a pointer, on both sides. -/
theorem remove_twins {R : Ptr → Ptr → Prop} {ps qs : List Ptr} (twins : List.Forall₂ R ps qs)
    (same : ∀ p' ∈ ps, ∀ q', R p' q' → (p' = p ↔ q' = q)) :
    List.Forall₂ (fun p' q' => R p' q' ∧ q' ≠ q) (remove ps p) (remove qs q) := by
  induction twins with
  | nil => exact .nil
  | @cons p' q' ps qs twin _ ih =>
    have rest := ih fun a member => same a (List.mem_cons_of_mem _ member)
    have here := same p' List.mem_cons_self q' twin
    unfold remove at rest ⊢
    by_cases gone : q' = q
    · rw [List.filter_cons_of_neg (by simp [here.mpr gone]),
        List.filter_cons_of_neg (by simp [gone])]
      exact rest
    · have stays : p' ≠ p := fun equal => gone (here.mp equal)
      rw [List.filter_cons_of_pos (by simp [stays]), List.filter_cons_of_pos (by simp [gone])]
      exact .cons ⟨twin, gone⟩ rest

/-- A record is replaced by one for the same host, and so is its twin. -/
theorem Mirrors.put (mirrors : Mirrors x y) (twin : Twin x y p q) {before after : HostInfo}
    (cell : x.heap p = some before) (same : after.key = before.key) :
    Mirrors (x.put p before after) (y.put q before after) := by
  have stays : ∀ p' q', Twin x y p' q' →
      Twin (x.put p before after) (y.put q before after) p' q' := by
    intro p' q' other
    have together := twin.eq_iff other
    obtain ⟨ho, there, here, back, back'⟩ := other
    by_cases moved : p' = p
    · obtain rfl := together.mp moved
      subst moved
      rw [cell, Option.some.injEq] at there
      subst there
      rw [← same] at back back'
      exact ⟨after, Function.update_self .., Function.update_self .., back, back'⟩
    · have moved' : q' ≠ q := fun equal => moved (together.mpr equal)
      refine ⟨ho, ?_, ?_, back, back'⟩
      · exact (Function.update_of_ne moved ..).trans there
      · exact (Function.update_of_ne moved' ..).trans here
  have dropped {ps qs : List Ptr} (twins : List.Forall₂ (Twin x y) ps qs) :
      List.Forall₂ (Twin (x.put p before after) (y.put q before after)) (remove ps p)
        (remove qs q) :=
    (remove_twins twins fun _ _ _ other => twin.eq_iff other).imp fun p' q' both =>
      stays p' q' both.1
  have appended {ps qs : List Ptr} (twins : List.Forall₂ (Twin x y) ps qs) :
      List.Forall₂ (Twin (x.put p before after) (y.put q before after)) (ps ++ [p]) (qs ++ [q]) :=
    List.rel_append (twins.imp stays) (.cons (stays p q twin) .nil)
  have lists : List.Forall₂ (Twin (x.put p before after) (y.put q before after))
        (x.put p before after).idleList (y.put q before after).idleList ∧
      List.Forall₂ (Twin (x.put p before after) (y.put q before after))
        (x.put p before after).overloadList (y.put q before after).overloadList := by
    simp only [LoadBalance.put, relist]
    split
    · exact ⟨mirrors.idle.imp stays, mirrors.overloaded.imp stays⟩
    · split
      · exact ⟨dropped mirrors.idle, appended mirrors.overloaded⟩
      · exact ⟨appended mirrors.idle, dropped mirrors.overloaded⟩
  exact { mirrors with idle := lists.1, overloaded := lists.2 }

theorem within_put (onList : p ∈ x.idleList ++ x.overloadList) (before after : HostInfo) :
    Within x (x.put p before after) where
  others := by
    intro p' hi cell off
    have apart : p' ≠ p := by
      rintro rfl
      exact off onList
    exact (Function.update_of_ne apart ..).trans cell
  lists := by
    intro p' member
    left
    by_cases own : p' = p
    · exact own ▸ onList
    · simpa [LoadBalance.put, mem_relist_idle, mem_relist_overload, own] using member

theorem Mirrors.report (mirrors : Mirrors x y) (sound : Sound y) (cfg : Config) (r : Report)
    {ip port : Int32} {y' : LoadBalance}
    (done : y.report cfg r.now r.ts ip port r.retcode = .ok y') :
    ∃ x', x.report cfg r.now r.ts ip port r.retcode = .ok x' ∧ Mirrors x' y' ∧ Within x x' := by
  cases entry : y.hostMap.lookup (packKey ip port) with
  | none =>
    have absent : x.hostMap.lookup (packKey ip port) = none := by
      rw [AList.lookup_eq_none] at entry ⊢
      exact fun known => entry ((mirrors.mem_hostMap _).mp known)
    rw [report_absent cfg r entry] at done
    cases done
    exact ⟨x, report_absent cfg r absent, mirrors, .refl x⟩
  | some q =>
    cases cell : y.heap q with
    | none =>
      rw [report_stale cfg r.now r.ts ip port r.retcode ⟨q, entry, cell⟩] at done
      cases done
    | some hi =>
      obtain ⟨-, p, onList, twin, there, found⟩ := mirrors.find sound entry cell
      rw [report_found cfg r entry cell] at done
      cases done
      exact ⟨_, report_found cfg r found there,
        mirrors.put twin there (HostInfo.key_reported cfg r hi), within_put onList _ _⟩

/-! ### `update` -/

theorem Mirrors.insertHost (mirrors : Mirrors x y) (sound : Sound y) (cfg : Config) (ts : Int)
    {h : Proto.HostInfo} (fresh : h.key ∉ x.hostMap → x.heap p = none) :
    Mirrors (x.insertHostAt cfg ts p h) (y.insertHost cfg ts h) ∧
      Within x (x.insertHostAt cfg ts p h) := by
  unfold LoadBalance.insertHostAt LoadBalance.insertHost
  cases known : x.hostMap.lookup h.key with
  | some there =>
    have member := (mirrors.mem_hostMap h.key).mp (LoadBalance.mem_hostMap.mpr ⟨there, known⟩)
    obtain ⟨here, known'⟩ := LoadBalance.mem_hostMap.mp member
    simp only [known']
    exact ⟨{ mirrors with }, ⟨fun _ _ cell _ => cell, fun _ => .inl⟩⟩
  | none =>
    have absent := AList.lookup_eq_none.mp known
    have absent' : h.key ∉ y.hostMap := fun member =>
      absent ((mirrors.mem_hostMap h.key).mpr member)
    have free : x.heap p = none := fresh absent
    have free' := sound.nextPtr_free
    simp only [AList.lookup_eq_none.mpr absent']
    -- the records that were there have neither the new key nor the new address
    have stays : ∀ p' q', Twin x y p' q' → Twin
        { x with
          heap := Function.update x.heap p
            (some (HostInfo.new h.ip.toUInt32 h.port cfg.initSuccCnt ts))
          nextPtr := p + 1, hostMap := x.hostMap.insert h.key p, idleList := x.idleList ++ [p] }
        { y with
          heap := Function.update y.heap y.nextPtr
            (some (HostInfo.new h.ip.toUInt32 h.port cfg.initSuccCnt ts))
          nextPtr := y.nextPtr + 1, hostMap := y.hostMap.insert h.key y.nextPtr
          idleList := y.idleList ++ [y.nextPtr] } p' q' := by
      rintro p' q' ⟨ho, there, here, back, back'⟩
      have apart : p' ≠ p := by
        rintro rfl
        rw [free] at there
        cases there
      have apart' : q' ≠ y.nextPtr := by
        rintro rfl
        rw [free'] at here
        cases here
      have other : ho.key ≠ h.key := by
        intro same
        rw [same, known] at back
        cases back
      refine ⟨ho, ?_, ?_, ?_, ?_⟩
      · exact (Function.update_of_ne apart ..).trans there
      · exact (Function.update_of_ne apart' ..).trans here
      · exact (AList.lookup_insert_ne other).trans back
      · exact (AList.lookup_insert_ne other).trans back'
    refine ⟨{ mirrors with keys := ?_, idle := ?_, overloaded := mirrors.overloaded.imp stays }, ?_⟩
    · dsimp only
      rw [AList.keys_insert, AList.keys_insert, mirrors.keys]
    · refine List.rel_append (mirrors.idle.imp stays) (.cons ⟨_, Function.update_self ..,
        Function.update_self .., ?_, ?_⟩ .nil)
      · rw [key_new]
        exact AList.lookup_insert _
      · rw [key_new]
        exact AList.lookup_insert _
    · constructor
      · intro p' hi cell _
        have apart : p' ≠ p := by
          rintro rfl
          rw [free] at cell
          cases cell
        exact (Function.update_of_ne apart ..).trans cell
      · intro p' member
        simp only [List.mem_append, List.mem_singleton] at member ⊢
        rcases member with (idle | rfl) | overloaded
        · exact .inl (.inl idle)
        · exact .inr free
        · exact .inl (.inr overloaded)

theorem Mirrors.insertHosts (mirrors : Mirrors x y) (sound : Sound y) (cfg : Config)
    (ts : Nat → Int) (addr : Nat → Ptr) {i : Nat} {hs : List Proto.HostInfo}
    (fresh : FreshAt cfg ts addr i hs x) :
    Mirrors (x.insertHostsAt cfg ts addr i hs) (y.insertHosts cfg ts i hs) ∧
      Within x (x.insertHostsAt cfg ts addr i hs) := by
  induction hs generalizing i x y with
  | nil => exact ⟨mirrors, .refl x⟩
  | cons h hs ih =>
    obtain ⟨first, within⟩ := mirrors.insertHost sound cfg (ts i) fresh.1
    obtain ⟨rest, later⟩ := ih first (sound.insertHost cfg (ts i) h) fresh.2
    exact ⟨rest, within.trans later⟩

/-- Twins are freed, and are off the lists by then. -/
theorem Mirrors.free (mirrors : Mirrors x y) (twin : Twin x y p q)
    {idle idle' overloaded overloaded' : List Ptr}
    (idles : List.Forall₂ (fun p' q' => Twin x y p' q' ∧ q' ≠ q) idle idle')
    (busy : List.Forall₂ (fun p' q' => Twin x y p' q' ∧ q' ≠ q) overloaded overloaded') :
    Mirrors
      { x with
        idleList := idle, overloadList := overloaded, heap := Function.update x.heap p none }
      { y with
        idleList := idle'
        overloadList := overloaded'
        heap := Function.update y.heap q none } := by
  have stays : ∀ p' q', Twin x y p' q' ∧ q' ≠ q → Twin
      { x with
        idleList := idle, overloadList := overloaded, heap := Function.update x.heap p none }
      { y with
        idleList := idle', overloadList := overloaded', heap := Function.update y.heap q none }
      p' q' := by
    rintro p' q' ⟨other, apart'⟩
    have apart : p' ≠ p := fun equal => apart' ((twin.eq_iff other).mp equal)
    obtain ⟨ho, there, here, back⟩ := other
    refine ⟨ho, ?_, ?_, back⟩
    · exact (Function.update_of_ne apart ..).trans there
    · exact (Function.update_of_ne apart' ..).trans here
  exact { mirrors with idle := idles.imp stays, overloaded := busy.imp stays }

theorem within_free (onList : p ∈ x.idleList ++ x.overloadList) {idle overloaded : List Ptr}
    (fewer : idle ++ overloaded ⊆ x.idleList ++ x.overloadList) :
    Within x { x with
      idleList := idle, overloadList := overloaded, heap := Function.update x.heap p none } where
  others := by
    intro p' hi cell off
    have apart : p' ≠ p := by
      rintro rfl
      exact off onList
    exact (Function.update_of_ne apart ..).trans cell
  lists := fun _ member => .inl (fewer member)

/-- The record of a host goes on both sides. -/
theorem Mirrors.deleteHost (mirrors : Mirrors x y) (sound : Sound y) {key : UInt64}
    {y' : LoadBalance} (done : y.deleteHost key = .ok y') :
    ∃ x', x.deleteHost key = .ok x' ∧ Mirrors x' y' ∧ Within x x' := by
  obtain ⟨member, live⟩ := deleteHost_found done
  obtain ⟨q, entry⟩ := LoadBalance.mem_hostMap.mp member
  obtain ⟨hi, cell, -⟩ := sound.find entry live
  obtain ⟨-, p, onList, twin, there, found⟩ := mirrors.find sound entry cell
  simp only [LoadBalance.deleteHost, entry, cell, Except.ok.injEq] at done
  simp only [LoadBalance.deleteHost, found, there]
  have dropped {ps qs : List Ptr} (twins : List.Forall₂ (Twin x y) ps qs) :=
    remove_twins twins fun _ _ _ other => twin.eq_iff other
  have kept {ps qs : List Ptr} (twins : List.Forall₂ (Twin x y) ps qs) (absent : q ∉ qs) :
      List.Forall₂ (fun p' q' => Twin x y p' q' ∧ q' ≠ q) ps qs := by
    rw [List.forall₂_iff_zip] at twins ⊢
    refine ⟨twins.1, fun together => ⟨twins.2 together, ?_⟩⟩
    rintro rfl
    exact absent (List.of_mem_zip together).2
  by_cases flag : hi.overload = true
  · have absent : q ∉ y.idleList := by simp [sound.mem_idle cell, flag]
    rw [if_pos flag] at done ⊢
    subst done
    refine ⟨_, rfl, mirrors.free twin (kept mirrors.idle absent) (dropped mirrors.overloaded),
      within_free onList fun p' member => ?_⟩
    simp only [List.mem_append, mem_remove] at member ⊢
    exact member.imp_right And.left
  · have absent : q ∉ y.overloadList := by simp [sound.flag q hi cell, flag]
    rw [if_neg flag] at done ⊢
    subst done
    refine ⟨_, rfl, mirrors.free twin (dropped mirrors.idle) (kept mirrors.overloaded absent),
      within_free onList fun p' member => ?_⟩
    simp only [List.mem_append, mem_remove] at member ⊢
    exact member.imp_left And.left

theorem Mirrors.deleteHosts (mirrors : Mirrors x y) (sound : Sound y) {keys : List UInt64}
    {y' : LoadBalance} (done : y.deleteHosts keys = .ok y') :
    ∃ x', x.deleteHosts keys = .ok x' ∧ Mirrors x' y' ∧ Within x x' := by
  induction keys generalizing x y with
  | nil =>
    cases done
    exact ⟨x, rfl, mirrors, .refl x⟩
  | cons key keys ih =>
    cases first : y.deleteHost key with
    | error e => simp [LoadBalance.deleteHosts, first] at done
    | ok mid =>
      simp only [LoadBalance.deleteHosts, first] at done
      obtain ⟨mid', deleted, next, within⟩ := mirrors.deleteHost sound first
      obtain ⟨member, live⟩ := deleteHost_found first
      obtain ⟨mid'', same, soundMid, -⟩ := deleteHost_spec sound member live
      rw [first, Except.ok.injEq] at same
      subst same
      obtain ⟨x', rest, mirrors', within'⟩ := ih next soundMid done
      exact ⟨x', by simp only [LoadBalance.deleteHosts, deleted, rest], mirrors',
        within.trans within'⟩

theorem Mirrors.update (mirrors : Mirrors x y) (sound : Sound y) {cfg : Config} {now : Int}
    {ts : Nat → Int} {addr : Nat → Ptr} {rsp : Proto.GetRouteResponse} {y' : LoadBalance}
    (fresh : FreshAt cfg ts addr 0 rsp.host x) (done : y.update cfg now ts rsp = .ok y') :
    ∃ x', x.updateAt cfg now ts addr rsp = .ok x' ∧ Mirrors x' y' ∧ Within x x' := by
  unfold LoadBalance.update at done
  unfold LoadBalance.updateAt
  split at done
  · cases done
  next some =>
    rw [if_neg some]
    obtain ⟨inserted, within⟩ := mirrors.insertHosts sound cfg ts addr fresh
    dsimp only at done
    split at done
    next y₁ deleted =>
      cases done
      have same : (x.insertHostsAt cfg ts addr 0 rsp.host).needDelete
          (rsp.host.map Proto.HostInfo.key) = (y.insertHosts cfg ts 0 rsp.host).needDelete
            (rsp.host.map Proto.HostInfo.key) := by
        simp only [LoadBalance.needDelete, inserted.keys]
      obtain ⟨x₁, deleted', mirrors', within'⟩ :=
        inserted.deleteHosts (insertHosts_spec sound cfg ts 0 rsp.host).1 deleted
      dsimp only
      rw [same, deleted']
      exact ⟨_, rfl, { mirrors' with lastUpdateTime := rfl, status := rfl },
        within.trans ⟨within'.others, within'.lists⟩⟩
    · cases done

end Lars.Agent.LoadBalance
