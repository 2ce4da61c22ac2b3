import Lars.Lib.Run
import Lars.Dns.Route

/-!
# Reading the route while it is loaded

`get_hosts` runs in the worker threads under the read lock, `load_route_data`
in the thread that polls the database without any lock, row by row, and `swap`
under the write lock. Here the two maps are objects, the pointers say which is
which, and every access is a step of its own. An iterator into a map whose entry
has gone is a fault.
-/
namespace Lars.Dns

/-- Where `load_route_data` stands. -/
inductive Loading where
  | idle
  /-- `_temp_pointer` is cleared, the query comes next. -/
  | cleared
  /-- What is left of the result, and the whole of it. -/
  | filling (rest result : List RouteDataRow)

/-- How far a `get_hosts` has come; it holds the read lock. -/
inductive Reading where
  | locked
  /-- The iterator that `find` has returned: the map, and whether it points to an entry. -/
  | found (map present : Bool)
  | copied (hosts : List UInt64)

structure Reader where
  modid : Int32
  cmdid : Int32
  reading : Reading

/-- A `get_hosts` that has returned, with the rows that were in place then. -/
structure HostsRead where
  modid : Int32
  cmdid : Int32
  hosts : List UInt64
  rows : List RouteDataRow

structure RouteObject where
  /-- The two maps. -/
  maps : Bool → RouteMap
  /-- The map that `_data_pointer` points to; `_temp_pointer` points to the other. -/
  data : Bool
  loading : Loading
  /-- The threads that hold the read lock. -/
  readers : AList fun _ : Nat => Reader
  /-- The result that `build_maps` or the last `swap` has put in place. -/
  inPlace : List RouteDataRow
  returned : List HostsRead

inductive RouteStep where
  | clear
  /-- The result of the query, unless it fails. -/
  | query (result : Option (List RouteDataRow))
  | fetchRow
  | swap
  | rdlock (reader : Nat) (modid cmdid : Int32)
  | find (reader : Nat)
  | copy (reader : Nat)
  | unlock (reader : Nat)

/-- The reader whose step it is; the others are those of the loading thread. -/
def RouteStep.reader : RouteStep → Option Nat
  | .rdlock i _ _ | .find i | .copy i | .unlock i => some i
  | .clear | .query _ | .fetchRow | .swap => none

namespace RouteObject

/-- The constructor, with `build_maps`. -/
def init (rows : List RouteDataRow) : RouteObject where
  maps := fun map => if map then ∅ else rows.foldl RouteMap.add ∅
  data := false
  loading := .idle
  readers := ∅
  inPlace := rows
  returned := []

/-- Write the map that `_temp_pointer` points to. -/
def writeTemp (map : RouteMap) (r : RouteObject) : Bool → RouteMap :=
  Function.update r.maps (!r.data) map

def step (r : RouteObject) (op : RouteStep) : Except Fault RouteObject :=
  match op with
  | .clear =>
    match r.loading with
    | .idle => .ok { r with maps := r.writeTemp ∅, loading := .cleared }
    | _ => .ok r
  | .query result =>
    match r.loading, result with
    | .cleared, some rows => .ok { r with loading := .filling rows rows }
    | .cleared, none => .error .exit
    | _, _ => .ok r
  | .fetchRow =>
    match r.loading with
    | .filling (row :: rest) result =>
      .ok { r with
        maps := r.writeTemp ((r.maps (!r.data)).add row)
        loading := .filling rest result }
    | _ => .ok r
  | .swap =>
    match r.loading with
    -- the write lock is free once no reader holds the lock
    | .filling [] result =>
      if r.readers.entries = [] then
        .ok { r with data := !r.data, loading := .idle, inPlace := result }
      else .ok r
    | _ => .ok r
  | .rdlock reader modid cmdid =>
    match r.readers.lookup reader with
    | none => .ok { r with readers := r.readers.insert reader ⟨modid, cmdid, .locked⟩ }
    | some _ => .ok r
  | .find reader =>
    match r.readers.lookup reader with
    | some ⟨modid, cmdid, .locked⟩ =>
      let present := ((r.maps r.data).lookup (packKey modid cmdid)).isSome
      .ok { r with readers := r.readers.insert reader ⟨modid, cmdid, .found r.data present⟩ }
    | _ => .ok r
  | .copy reader =>
    match r.readers.lookup reader with
    | some ⟨modid, cmdid, .found map present⟩ =>
      match present, (r.maps map).lookup (packKey modid cmdid) with
      | false, _ => .ok { r with readers := r.readers.insert reader ⟨modid, cmdid, .copied []⟩ }
      | true, some hosts =>
        .ok { r with readers := r.readers.insert reader ⟨modid, cmdid, .copied hosts⟩ }
      | true, none => .error .useAfterFree
    | _ => .ok r
  | .unlock reader =>
    match r.readers.lookup reader with
    | some ⟨modid, cmdid, .copied hosts⟩ =>
      .ok { r with
        readers := r.readers.erase reader
        returned := r.returned ++ [⟨modid, cmdid, hosts, r.inPlace⟩] }
    | _ => .ok r

end RouteObject

/-! ### What is in a loaded map -/

/-- The hosts of a module, as the rows of a result have them. -/
def hostsOf (rows : List RouteDataRow) (modid cmdid : Int32) : Set UInt64 :=
  {value | ∃ row ∈ rows, atoi row.modid = modid ∧ atoi row.cmdid = cmdid ∧ row.value = value}

namespace RouteMap

/-- The hosts that a map has under a key. -/
def hosts (map : RouteMap) (key : UInt64) : List UInt64 := (map.lookup key).getD []

theorem mem_hosts_add {map : RouteMap} {row : RouteDataRow} {key value : UInt64} :
    value ∈ (map.add row).hosts key ↔
      value ∈ map.hosts key ∨ (moduleKey row.modid row.cmdid = key ∧ row.value = value) := by
  by_cases same : key = moduleKey row.modid row.cmdid
  · subst same
    simp [hosts, add, AList.lookup_insert, or_comm, eq_comm]
  · simp [hosts, add, AList.lookup_insert_ne same, Ne.symm same]

theorem mem_hosts_foldl {rows : List RouteDataRow} {map : RouteMap} {key value : UInt64} :
    value ∈ (rows.foldl add map).hosts key ↔ value ∈ map.hosts key ∨
      ∃ row ∈ rows, moduleKey row.modid row.cmdid = key ∧ row.value = value := by
  induction rows generalizing map with
  | nil => simp
  | cons row rows ih =>
    rw [List.foldl_cons, ih, mem_hosts_add]
    simp only [List.mem_cons, exists_eq_or_imp, or_assoc]

/-- No two pairs of numbers share a key, so the rows of other modules do not show. -/
theorem mem_hosts_loaded {rows : List RouteDataRow} {modid cmdid : Int32} {value : UInt64} :
    value ∈ (rows.foldl add ∅).hosts (packKey modid cmdid) ↔ value ∈ hostsOf rows modid cmdid := by
  have empty : value ∉ hosts ∅ (packKey modid cmdid) := by simp [hosts]
  rw [mem_hosts_foldl, or_iff_right empty]
  simp [moduleKey, packKey_eq_iff, hostsOf, and_assoc]

end RouteMap

/-! ### The invariant -/

/-- A reader is ahead of nothing: what it has got so far is what the map has. -/
def Reader.Follows (reader : Reader) (data : Bool) (map : RouteMap) : Prop :=
  match reader.reading with
  | .locked => True
  | .found which present =>
    which = data ∧ present = (map.lookup (packKey reader.modid reader.cmdid)).isSome
  | .copied hosts => hosts = map.hosts (packKey reader.modid reader.cmdid)

/-- The map that is not read has the rows of the result up to here. -/
def Loading.Describes (loading : Loading) (temp : RouteMap) : Prop :=
  match loading with
  | .idle => True
  | .cleared => temp = ∅
  | .filling rest result => ∃ before, result = before ++ rest ∧ temp = before.foldl RouteMap.add ∅

namespace RouteObject

structure Consistent (r : RouteObject) : Prop where
  inPlace : r.maps r.data = r.inPlace.foldl RouteMap.add ∅
  loading : r.loading.Describes (r.maps (!r.data))
  reading : ∀ i reader, r.readers.lookup i = some reader → reader.Follows r.data (r.maps r.data)
  returned : ∀ read ∈ r.returned,
    read.hosts = (read.rows.foldl RouteMap.add ∅).hosts (packKey read.modid read.cmdid)

theorem Consistent.init (rows : List RouteDataRow) : (init rows).Consistent where
  inPlace := rfl
  loading := trivial
  reading := by simp [RouteObject.init]
  returned := by simp [RouteObject.init]

variable {r : RouteObject}

theorem writeTemp_data (map : RouteMap) : r.writeTemp map r.data = r.maps r.data := by
  cases here : r.data <;> simp [writeTemp, here]

theorem writeTemp_temp (map : RouteMap) : r.writeTemp map (!r.data) = map := by
  simp [writeTemp]

/-- The loading thread writes the map that nobody reads. -/
theorem Consistent.load (consistent : r.Consistent) {map : RouteMap} {loading : Loading}
    (describes : loading.Describes map) :
    Consistent { r with maps := r.writeTemp map, loading := loading } where
  inPlace := (writeTemp_data map).trans consistent.inPlace
  loading := by
    dsimp only
    rwa [writeTemp_temp]
  reading := by
    dsimp only
    rw [writeTemp_data]
    exact consistent.reading
  returned := consistent.returned

/-- A reader takes its next step without disturbing anybody. -/
theorem Consistent.read (consistent : r.Consistent) (i : Nat) {reader : Reader}
    (follows : reader.Follows r.data (r.maps r.data)) :
    Consistent { r with readers := r.readers.insert i reader } where
  inPlace := consistent.inPlace
  loading := consistent.loading
  reading := by
    intro j other there
    by_cases same : j = i
    · rw [same, AList.lookup_insert] at there
      cases there
      exact follows
    · rw [AList.lookup_insert_ne same] at there
      exact consistent.reading j other there
  returned := consistent.returned

theorem Consistent.fetchRow (consistent : r.Consistent) {row : RouteDataRow}
    {rest result : List RouteDataRow} (filling : r.loading = .filling (row :: rest) result) :
    Consistent { r with
      maps := r.writeTemp ((r.maps (!r.data)).add row)
      loading := .filling rest result } := by
  have describes := consistent.loading
  rw [filling] at describes
  obtain ⟨before, whole, temp⟩ := describes
  apply consistent.load
  refine ⟨before ++ [row], by rw [whole, List.append_assoc]; rfl, ?_⟩
  rw [temp, List.foldl_append]
  rfl

/-- With no reader inside, the filled map may take the place of the other. -/
theorem Consistent.swap (consistent : r.Consistent) {result : List RouteDataRow}
    (filled : r.loading = .filling [] result) (free : r.readers.entries = []) :
    Consistent { r with data := !r.data, loading := .idle, inPlace := result } where
  inPlace := by
    have describes := consistent.loading
    rw [filled] at describes
    obtain ⟨before, whole, temp⟩ := describes
    rw [List.append_nil] at whole
    rw [whole]
    exact temp
  loading := trivial
  reading := by
    intro i reader there
    -- the write lock is taken while no reader is inside
    have member := AList.mem_lookup_iff.mp there
    rw [free] at member
    cases member
  returned := consistent.returned

theorem Consistent.unlock (consistent : r.Consistent) {i : Nat} {modid cmdid : Int32}
    {hosts : List UInt64} (copied : r.readers.lookup i = some ⟨modid, cmdid, .copied hosts⟩) :
    Consistent { r with
      readers := r.readers.erase i
      returned := r.returned ++ [⟨modid, cmdid, hosts, r.inPlace⟩] } where
  inPlace := consistent.inPlace
  loading := consistent.loading
  reading := by
    intro j other there
    by_cases same : j = i
    · rw [same, AList.lookup_erase] at there
      cases there
    · rw [AList.lookup_erase_ne same] at there
      exact consistent.reading j other there
  returned := by
    intro read member
    rcases List.mem_append.mp member with before | new
    · exact consistent.returned read before
    · rw [List.mem_singleton] at new
      subst new
      -- no swap has come in between: the reader has held the lock
      have follows : hosts = _ := consistent.reading i _ copied
      rw [follows, consistent.inPlace]

/-- Whatever comes next, the maps stay consistent, and only the failing of the query ends it. -/
theorem step_consistent (consistent : r.Consistent) (op : RouteStep) :
    Run.Fine Consistent (fun e => e = .exit ∧ op = .query none) (r.step op) := by
  cases op with
  | clear =>
    simp only [step]
    split
    · exact consistent.load rfl
    · exact consistent
  | query result =>
    simp only [step]
    split
    next rows cleared =>
      have temp := consistent.loading
      rw [cleared] at temp
      exact ⟨consistent.inPlace, ⟨[], rfl, temp⟩, consistent.reading, consistent.returned⟩
    · exact ⟨rfl, rfl⟩
    · exact consistent
  | fetchRow =>
    simp only [step]
    split
    next filling => exact consistent.fetchRow filling
    · exact consistent
  | swap =>
    simp only [step]
    split
    next filled =>
      split
      next free => exact consistent.swap filled free
      · exact consistent
    · exact consistent
  | rdlock reader modid cmdid =>
    simp only [step]
    split
    · exact consistent.read reader trivial
    · exact consistent
  | find reader =>
    simp only [step]
    split
    · exact consistent.read reader ⟨rfl, rfl⟩
    · exact consistent
  | copy reader =>
    simp only [step]
    split
    next modid cmdid which present found =>
      -- the iterator points into the map that is in place
      obtain ⟨here, entry⟩ : which = r.data ∧ present = _ := consistent.reading reader _ found
      subst here
      split
      next absent =>
        have none := Option.isNone_iff_eq_none.mp (by simpa using entry.symm)
        exact consistent.read reader (by simp [Reader.Follows, RouteMap.hosts, none])
      next hosts there =>
        exact consistent.read reader (by simp [Reader.Follows, RouteMap.hosts, there])
      next gone =>
        rw [gone] at entry
        cases entry
    · exact consistent
  | unlock reader =>
    simp only [step]
    split
    next copied => exact consistent.unlock copied
    · exact consistent

/-- In one piece: a `get_hosts` that was spread over all these steps returns what `Route.getHosts`
returns once the rows have been loaded and swapped in. -/
theorem Consistent.getHosts (consistent : r.Consistent) {read : HostsRead}
    (member : read ∈ r.returned) {t : Tables} (loaded : t.routeData = read.rows) (route : Route) :
    read.hosts = (route.loadRouteData t).swap.getHosts read.modid read.cmdid := by
  rw [consistent.returned read member, ← loaded]
  rfl

theorem Consistent.step_ok (consistent : r.Consistent) {op : RouteStep}
    (answered : op ≠ .query none) :
    ∃ t, r.step op = .ok t ∧ t.Consistent := by
  have fine := step_consistent consistent op
  cases done : r.step op with
  | ok t =>
    rw [done] at fine
    exact ⟨t, rfl, fine⟩
  | error e =>
    rw [done] at fine
    exact absurd fine.2 answered

/-! ### Every call comes to its end -/

/-- A step of another thread, and not a query that fails. -/
def Beside (i : Nat) (op : RouteStep) : Prop := op.reader ≠ some i ∧ op ≠ .query none

/-- The reader holds the lock since `r`. -/
structure Inside (r : RouteObject) (i : Nat) (reader : Reader) (t : RouteObject) : Prop where
  consistent : t.Consistent
  there : t.readers.lookup i = some reader
  inPlace : t.inPlace = r.inPlace
  returned : r.returned <+: t.returned

variable {t : RouteObject} {i : Nat} {reader : Reader}

/-- The others do not touch what a reader has, and no swap comes in between. -/
theorem step_beside {op : RouteStep} (other : op.reader ≠ some i)
    (there : r.readers.lookup i = some reader) (done : r.step op = .ok t) :
    t.readers.lookup i = some reader ∧ t.inPlace = r.inPlace ∧ r.returned <+: t.returned := by
  have insert (j : Nat) (next : Reader) (apart : some j ≠ some i) :
      (r.readers.insert j next).lookup i = some reader := by
    rw [AList.lookup_insert_ne fun same => apart (congrArg some same.symm)]
    exact there
  cases op with
  | clear | query | fetchRow =>
    simp only [step] at done
    split at done <;> cases done <;> exact ⟨there, rfl, List.prefix_refl _⟩
  | swap =>
    simp only [step] at done
    split at done
    · split at done
      next free =>
        -- the reader keeps the write lock away
        have member := AList.mem_lookup_iff.mp there
        rw [free] at member
        cases member
      · cases done
        exact ⟨there, rfl, List.prefix_refl _⟩
    · cases done
      exact ⟨there, rfl, List.prefix_refl _⟩
  | rdlock j modid cmdid =>
    simp only [step] at done
    split at done <;> cases done
    · exact ⟨insert j _ other, rfl, List.prefix_refl _⟩
    · exact ⟨there, rfl, List.prefix_refl _⟩
  | find j =>
    simp only [step] at done
    split at done <;> cases done
    · exact ⟨insert j _ other, rfl, List.prefix_refl _⟩
    · exact ⟨there, rfl, List.prefix_refl _⟩
  | copy j =>
    simp only [step] at done
    split at done
    · split at done <;> cases done <;> exact ⟨insert j _ other, rfl, List.prefix_refl _⟩
    · cases done
      exact ⟨there, rfl, List.prefix_refl _⟩
  | unlock j =>
    simp only [step] at done
    split at done <;> cases done
    · refine ⟨?_, rfl, List.prefix_append _ _⟩
      dsimp only
      rw [AList.lookup_erase_ne fun same => other (congrArg some same.symm)]
      exact there
    · exact ⟨there, rfl, List.prefix_refl _⟩

theorem Inside.run {ops : List RouteStep} (inside : Inside r i reader t)
    (beside : ∀ op ∈ ops, Beside i op) :
    ∃ u, Run.run step t ops = .ok u ∧ Inside r i reader u := by
  refine Run.run_ok_of_guarded (G := fun _ => Beside i) (fun s op inside beside => ?_) inside
    (Run.guarded_of_forall fun op member _ => beside op member)
  obtain ⟨u, done, consistent⟩ := inside.consistent.step_ok beside.2
  obtain ⟨there, inPlace, returned⟩ := step_beside beside.1 inside.there done
  exact ⟨u, done, consistent, there, inPlace.trans inside.inPlace,
    inside.returned.trans returned⟩

/-- A call of `get_hosts`, with what the other threads do between its steps. -/
def getHostsSteps (i : Nat) (modid cmdid : Int32) (first second third : List RouteStep) :
    List RouteStep :=
  .rdlock i modid cmdid :: (first ++ .find i :: (second ++ .copy i :: (third ++ [.unlock i])))

/-- A call that begins now returns the hosts that the rows in place have for its module. -/
theorem Consistent.getHosts_returns (consistent : r.Consistent) {modid cmdid : Int32}
    (outside : r.readers.lookup i = none) {first second third : List RouteStep}
    (beside : ∀ op ∈ first ++ second ++ third, Beside i op) :
    ∃ t others hosts, Run.run step r (getHostsSteps i modid cmdid first second third) = .ok t ∧
      t.returned = r.returned ++ others ++ [⟨modid, cmdid, hosts, r.inPlace⟩] ∧
      {value | value ∈ hosts} = hostsOf r.inPlace modid cmdid := by
  simp only [List.mem_append, or_assoc] at beside
  -- the lock is taken
  obtain ⟨r₁, locked, consistent₁⟩ :=
    consistent.step_ok (show RouteStep.rdlock i modid cmdid ≠ .query none by simp)
  have inside₁ : Inside r i ⟨modid, cmdid, .locked⟩ r₁ := by
    simp only [step, outside] at locked
    cases locked
    exact ⟨consistent₁, AList.lookup_insert _, rfl, List.prefix_refl _⟩
  obtain ⟨r₂, ran₂, inside₂⟩ := inside₁.run fun op member => beside op (.inl member)
  -- the iterator is found
  obtain ⟨r₃, found, consistent₃⟩ :=
    inside₂.consistent.step_ok (show RouteStep.find i ≠ .query none by simp)
  obtain ⟨present, inside₃⟩ :
      ∃ present, Inside r i ⟨modid, cmdid, .found r₂.data present⟩ r₃ := by
    simp only [step, inside₂.there] at found
    cases found
    exact ⟨_, consistent₃, AList.lookup_insert _, inside₂.inPlace, inside₂.returned⟩
  obtain ⟨r₄, ran₄, inside₄⟩ := inside₃.run fun op member => beside op (.inr (.inl member))
  -- the hosts are copied
  obtain ⟨r₅, copied, consistent₅⟩ :=
    inside₄.consistent.step_ok (show RouteStep.copy i ≠ .query none by simp)
  obtain ⟨hosts, inside₅⟩ : ∃ hosts, Inside r i ⟨modid, cmdid, .copied hosts⟩ r₅ := by
    simp only [step, inside₄.there] at copied
    split at copied <;> cases copied <;>
      exact ⟨_, consistent₅, AList.lookup_insert _, inside₄.inPlace, inside₄.returned⟩
  obtain ⟨r₆, ran₆, inside₆⟩ := inside₅.run fun op member => beside op (.inr (.inr member))
  obtain ⟨others, before⟩ := inside₆.returned
  -- the lock is released
  obtain ⟨r₇, unlocked, consistent₇⟩ :=
    inside₆.consistent.step_ok (show RouteStep.unlock i ≠ .query none by simp)
  have returned : r₇.returned = r.returned ++ others ++ [⟨modid, cmdid, hosts, r.inPlace⟩] := by
    simp only [step, inside₆.there] at unlocked
    cases unlocked
    dsimp only
    rw [inside₆.inPlace, before]
  refine ⟨r₇, others, hosts, ?_, returned, ?_⟩
  · rw [getHostsSteps, Run.run_cons_ok _ locked, Run.run_append _ ran₂, Run.run_cons_ok _ found,
      Run.run_append _ ran₄, Run.run_cons_ok _ copied, Run.run_append _ ran₆, Run.run_single,
      unlocked]
  · have follows := consistent₇.returned ⟨modid, cmdid, hosts, r.inPlace⟩ (by simp [returned])
    dsimp only at follows
    rw [follows]
    exact Set.ext fun value => RouteMap.mem_hosts_loaded

/-- The readers leave the loading alone. -/
theorem step_loading {op : RouteStep} {j : Nat} (reads : op.reader = some j)
    (done : r.step op = .ok t) : t.loading = r.loading ∧ t.inPlace = r.inPlace := by
  cases op with
  | clear | query | fetchRow | swap => cases reads
  | rdlock | find | unlock =>
    simp only [step] at done
    split at done <;> cases done <;> exact ⟨rfl, rfl⟩
  | copy =>
    simp only [step] at done
    split at done
    · split at done <;> cases done <;> exact ⟨rfl, rfl⟩
    · cases done
      exact ⟨rfl, rfl⟩

/-- The steps of `load_route_data` for a result of the query. -/
def loadSteps (result : List RouteDataRow) : List RouteStep :=
  .clear :: .query (some result) :: .replicate result.length .fetchRow

theorem Consistent.readers_run (consistent : r.Consistent) {ops : List RouteStep}
    (reads : ∀ op ∈ ops, ¬ op.reader.isNone = true) :
    ∃ t, Run.run step r ops = .ok t ∧ t.Consistent ∧ t.loading = r.loading ∧
      t.inPlace = r.inPlace := by
  refine Run.run_ok_of_guarded (G := fun _ op => ¬ op.reader.isNone = true)
    (P := fun t : RouteObject => t.Consistent ∧ t.loading = r.loading ∧ t.inPlace = r.inPlace)
    (fun s op before reads => ?_) ⟨consistent, rfl, rfl⟩
    (Run.guarded_of_forall fun op member _ => reads op member)
  rw [Option.isNone_iff_eq_none] at reads
  obtain ⟨j, mine⟩ := Option.ne_none_iff_exists'.mp reads
  have answered : op ≠ .query none := by
    rintro rfl
    cases mine
  obtain ⟨t, done, consistent⟩ := before.1.step_ok answered
  obtain ⟨loading, inPlace⟩ := step_loading mine done
  exact ⟨t, done, consistent, loading.trans before.2.1, inPlace.trans before.2.2⟩

/-- The readers come in between the steps of the loading thread, the first of which is next. -/
theorem Consistent.next_load (consistent : r.Consistent) {ops steps : List RouteStep}
    {op : RouteStep} (order : ops.filter (·.reader.isNone) = op :: steps)
    (answered : op ≠ .query none) :
    ∃ (s t : RouteObject) (rest : List RouteStep),
      s.loading = r.loading ∧ s.inPlace = r.inPlace ∧ s.step op = .ok t ∧ t.Consistent ∧
      rest.filter (·.reader.isNone) = steps ∧
      Run.run step r ops = Run.run step t rest := by
  obtain ⟨before, rest, rfl, reads, -, order⟩ := List.filter_eq_cons_iff.mp order
  obtain ⟨s, ran, consistent, loading, inPlace⟩ := consistent.readers_run reads
  obtain ⟨t, done, consistent⟩ := consistent.step_ok answered
  refine ⟨s, t, rest, loading, inPlace, done, consistent, order, ?_⟩
  rw [Run.run_append _ ran, Run.run_cons_ok _ done]

/-- Row by row the result gets into the map. -/
theorem Consistent.fills (consistent : r.Consistent) {rest result : List RouteDataRow}
    (filling : r.loading = .filling rest result) {ops : List RouteStep}
    (order : ops.filter (·.reader.isNone) = .replicate rest.length .fetchRow) :
    ∃ t, Run.run step r ops = .ok t ∧ t.loading = .filling [] result ∧
      t.inPlace = r.inPlace := by
  induction rest generalizing r ops with
  | nil =>
    obtain ⟨t, ran, -, loading, inPlace⟩ :=
      consistent.readers_run (List.filter_eq_nil_iff.mp order)
    exact ⟨t, ran, loading.trans filling, inPlace⟩
  | cons row rest ih =>
    obtain ⟨s, t, later, loading, inPlace, done, consistent, order, same⟩ :=
      consistent.next_load order (by simp)
    rw [filling] at loading
    simp only [step, loading] at done
    cases done
    obtain ⟨u, ran, filled, kept⟩ := ih consistent rfl order
    exact ⟨u, same.trans ran, filled, kept.trans inPlace⟩

/-- `load_route_data` loads the whole result, and shows nothing of it. -/
theorem Consistent.loads (consistent : r.Consistent) (idle : r.loading = .idle)
    {result : List RouteDataRow} {ops : List RouteStep}
    (order : ops.filter (·.reader.isNone) = loadSteps result) :
    ∃ t, Run.run step r ops = .ok t ∧ t.loading = .filling [] result ∧
      t.inPlace = r.inPlace := by
  obtain ⟨s₁, t₁, rest₁, loading₁, inPlace₁, cleared, consistent₁, order₁, same₁⟩ :=
    consistent.next_load order (by simp)
  rw [idle] at loading₁
  simp only [step, loading₁] at cleared
  cases cleared
  obtain ⟨s₂, t₂, rest₂, loading₂, inPlace₂, answered, consistent₂, order₂, same₂⟩ :=
    consistent₁.next_load order₁ (by simp)
  simp only [step, loading₂] at answered
  cases answered
  obtain ⟨u, ran, filled, inPlace⟩ := consistent₂.fills rfl order₂
  exact ⟨u, (same₁.trans same₂).trans ran, filled, (inPlace.trans inPlace₂).trans inPlace₁⟩

/-- Only `swap` puts another result in place. -/
theorem step_inPlace {op : RouteStep} (other : op ≠ .swap) (done : r.step op = .ok t) :
    t.inPlace = r.inPlace := by
  cases op with
  | swap => exact absurd rfl other
  | clear | query | fetchRow =>
    simp only [step] at done
    split at done <;> cases done <;> rfl
  | rdlock i | find i | copy i | unlock i => exact (step_loading (j := i) rfl done).2

/-! ### Main result -/

/-- What `get_hosts` returns is a snapshot, every call of it returns, and what it is a snapshot of
is the result that was loaded and swapped in last. -/
structure Snapshots (r : RouteObject) : Prop where
  faithful : ∀ read ∈ r.returned,
    {value | value ∈ read.hosts} = hostsOf read.rows read.modid read.cmdid
  returns : ∀ i modid cmdid first second third, r.readers.lookup i = none →
    (∀ op ∈ first ++ second ++ third, Beside i op) →
    ∃ t others hosts, Run.run step r (getHostsSteps i modid cmdid first second third) = .ok t ∧
      t.returned = r.returned ++ others ++ [⟨modid, cmdid, hosts, r.inPlace⟩] ∧
      {value | value ∈ hosts} = hostsOf r.inPlace modid cmdid
  loads : ∀ result ops, r.loading = .idle → ops.filter (·.reader.isNone) = loadSteps result →
    ∃ t, Run.run step r ops = .ok t ∧ t.inPlace = r.inPlace ∧
      (t.readers.entries = [] → ∃ u, t.step .swap = .ok u ∧ u.inPlace = result)
  stays : ∀ op t, op ≠ .swap → r.step op = .ok t → t.inPlace = r.inPlace

theorem Consistent.snapshots (consistent : r.Consistent) : r.Snapshots where
  faithful := by
    intro read member
    rw [consistent.returned read member]
    exact Set.ext fun value => RouteMap.mem_hosts_loaded
  returns := fun _ _ _ _ _ _ outside beside => consistent.getHosts_returns outside beside
  loads := by
    intro result ops idle order
    obtain ⟨t, ran, filled, inPlace⟩ := consistent.loads idle order
    refine ⟨t, ran, inPlace, fun free => ?_⟩
    simp only [step, filled, free, ↓reduceIte]
    exact ⟨_, rfl, rfl⟩
  stays := fun _ _ other done => step_inPlace other done

/-- In every interleaving of the threads a `get_hosts` returns, and it returns the hosts which the
result in place has for its module; no iterator is used after its entry has gone, and only the
failing of a query ends the run. -/
theorem reads_are_snapshots (rows : List RouteDataRow) (ops : List RouteStep) :
    Run.Fine Snapshots (fun e => e = .exit ∧ .query none ∈ ops)
      (Run.run step (init rows) ops) := by
  have fine : Run.Fine Consistent (fun e => e = .exit ∧ .query none ∈ ops)
      (Run.run step (init rows) ops) := by
    refine Run.fine_of_guarded (G := fun _ op => op ∈ ops) (fun s op consistent member => ?_)
      (Consistent.init rows) (Run.guarded_of_forall fun _ member _ => member) ops
      (List.prefix_refl _)
    have first := step_consistent consistent op
    cases done : s.step op with
    | ok t =>
      rw [done] at first
      exact first
    | error e =>
      rw [done] at first
      exact ⟨first.1, first.2 ▸ member⟩
  exact fine.mono fun _ consistent => consistent.snapshots

/-- Two hosts are loaded beside the one in place. The first reader is inside when `swap` is called
and has its host from before; the second comes after the swap. -/
private def loadSwapRead : List RouteStep :=
  [.clear, .rdlock 0 1 1, .query (some [⟨1, 1, 20, 80⟩, ⟨1, 1, 30, 80⟩]), .fetchRow, .find 0,
    .fetchRow, .swap, .copy 0, .unlock 0, .swap, .rdlock 1 1 1, .find 1, .clear, .copy 1, .unlock 1]

theorem reads_are_snapshots_swapped :
    ∃ r, Run.run step (init [⟨1, 1, 10, 80⟩]) loadSwapRead = .ok r ∧ r.Snapshots ∧
      r.returned.map (·.hosts) = [[packKey 10 80], [packKey 30 80, packKey 20 80]] := by
  have done : Run.run step (init [⟨1, 1, 10, 80⟩]) loadSwapRead = .ok _ := rfl
  have snapshots := reads_are_snapshots [⟨1, 1, 10, 80⟩] loadSwapRead
  rw [done] at snapshots
  exact ⟨_, done, snapshots, by decide⟩

end RouteObject

end Lars.Dns
