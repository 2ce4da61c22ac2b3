import Lars.Deployment
import Lars.Dns.Poller
import Lars.Dns.Snapshot

/-!
# From the console to the agents

The web console writes the tables, the poller of the DNS reads them and
announces what has changed, the DNS pushes it and the agents take it in. Nobody
waits for anybody on this way. Whenever it has come to rest, the agents have
what is in the tables.
-/
namespace Lars

open Agent (Config LoadBalance)
open Dns (DnsServer DnsStep System SystemStep Tables Route RouteDataRow RouteMap Edit Phase
  moduleKey hostOfKey atoi atoi_le requestMod requestResponse)

/-- The console with its tables, the poller, and the DNS with its agents. -/
structure Site where
  system : System
  /-- The change list that was read and is not published yet. -/
  announcing : Option (List UInt64)
  deployment : Deployment

inductive SiteStep where
  /-- The next statement of the console. -/
  | console (op : SystemStep)
  /-- The next call of `check_route_changes`. -/
  | poll (timeUp : Bool)
  | event (event : Event)

/-- Only the poller swaps the maps and publishes. -/
def Event.byPoller : Event → Bool
  | .dns (.swap _) | .dns (.publish _) => true
  | _ => false

namespace Site

def init (tables : Tables) : Site :=
  ⟨System.init tables, none, Deployment.init (Route.init tables)⟩

def step (cfg : Config) (s : Site) (op : SiteStep) : Except Fault Site :=
  match op with
  | .console op =>
    match op with
    | .poll _ => .ok s
    | op => (s.system.step op).map fun system => { s with system := system }
  | .poll timeUp =>
    match s.announcing with
    | some changes =>
      (s.deployment.step cfg (.dns (.publish changes))).map fun deployment =>
        { s with announcing := none, deployment := deployment }
    | none =>
      let next := { s with system := s.system.poll timeUp }
      match s.system.phase with
      | .swapData | .reswap =>
        (s.deployment.step cfg (.dns (.swap s.system.route.swap))).map fun deployment =>
          { next with deployment := deployment }
      | .loadChanges =>
        .ok { next with announcing := some (s.system.route.loadChanges s.system.tables) }
      | _ => .ok next
  | .event event =>
    if event.byPoller then .ok s
    else (s.deployment.step cfg event).map fun deployment => { s with deployment := deployment }

/-- The condition on a step. A modification changes the rows of one module. A version is set when
the poller does not have it yet, and while no modification with another version waits for the
poller. The DNS publishes nothing into an entry that a task is about to erase, and no push is
refused. -/
def Orderly (s : Site) : SiteStep → Prop
  | .console op =>
    match op, s.system.console with
    | .changeData rows modid cmdid, .idle =>
      ∀ row : RouteDataRow, moduleKey row.modid row.cmdid ≠ moduleKey modid cmdid →
        (row ∈ rows ↔ row ∈ s.system.tables.routeData)
    | .updateVersion now, .inserted edit =>
      now = edit.row.version ∧ s.system.route.version ≠ (atoi now).toInt ∧
        ∀ e ∈ s.system.edits, e.due = false → e.covered = false → e.row.version = now
    | _, _ => True
  | .poll _ => ∀ changes, s.announcing = some changes →
    s.deployment.dns.server.PublishesApart (.publish changes)
  | .event event => s.deployment.Delivers event

/-! ### Versions -/

/-- A modification that is complete and not announced yet is covered by the iteration under way,
or its version is in the table and the poller does not have it. -/
structure Versioned (s : System) : Prop where
  pending : ∀ edit, s.console = .inserted edit →
    edit.row ∈ s.tables.routeChange ∧ edit.covered = false ∧ edit.due = false
  recorded : ∀ e ∈ s.edits, e.row ∈ s.tables.routeChange
  flying : ∀ e ∈ s.edits, e.due = false → e.covered = true →
    s.phase.inFlight = true ∧ s.route.version ≤ e.row.version.toNat
  waiting : ∀ e ∈ s.edits, e.due = false → e.covered = false →
    e.row.version = s.tables.routeVersion ∧
      s.route.version ≠ (atoi s.tables.routeVersion).toInt

theorem Versioned.init (tables : Tables) : Versioned (System.init tables) where
  pending := fun _ inserted => by cases inserted
  recorded := fun _ member => by cases member
  flying := fun _ member => by cases member
  waiting := fun _ member => by cases member

variable {sys : System} {e : Edit}

/-- Without anything new to see, everything complete has been announced. -/
theorem Versioned.all_due (versioned : Versioned sys) (landed : sys.phase.inFlight = false)
    (same : sys.route.version = (atoi sys.tables.routeVersion).toInt) (member : e ∈ sys.edits) :
    e.due = true := by
  cases due : e.due with
  | true => rfl
  | false =>
    cases covered : e.covered with
    | true =>
      have flying := (versioned.flying e member due covered).1
      rw [landed] at flying
      cases flying
    | false => exact absurd same (versioned.waiting e member due covered).2

/-- The calls that only move the two maps around. -/
theorem Versioned.move (versioned : Versioned sys) {route : Route} {phase : Phase}
    (version : route.version = sys.route.version)
    (flight : phase.inFlight = sys.phase.inFlight) :
    Versioned { sys with route := route, phase := phase } where
  pending := versioned.pending
  recorded := versioned.recorded
  flying := by
    intro e member due covered
    dsimp only
    rw [flight, version]
    exact versioned.flying e member due covered
  waiting := by
    intro e member due covered
    dsimp only
    rw [version]
    exact versioned.waiting e member due covered

/-- An iteration ends: what it has covered is announced. -/
theorem Versioned.finished (versioned : Versioned sys) {route : Route} {console : Dns.Console}
    {edits : List Edit} (version : route.version = sys.route.version)
    (pending : ∀ edit, console = .inserted edit →
      edit.row ∈ sys.tables.routeChange ∧ edit.covered = false ∧ edit.due = false)
    (ended : ∀ e ∈ edits, ∃ old ∈ sys.edits, e.row = old.row ∧
      e.due = (old.due || old.covered) ∧ e.covered = false) :
    Versioned { sys with
      route := route, phase := .sleeping, console := console, edits := edits } where
  pending := pending
  recorded := by
    intro e member
    obtain ⟨old, before, row, -⟩ := ended e member
    rw [row]
    exact versioned.recorded old before
  flying := by
    intro e member due covered
    obtain ⟨old, -, -, -, uncovered⟩ := ended e member
    rw [uncovered] at covered
    cases covered
  waiting := by
    intro e member due covered
    obtain ⟨old, before, row, flag, -⟩ := ended e member
    rw [flag, Bool.or_eq_false_iff] at due
    dsimp only
    rw [row, version]
    exact versioned.waiting old before due.1 due.2

/-- The beginning of an iteration. -/
theorem Versioned.started (versioned : Versioned sys) (landed : sys.phase.inFlight = false) :
    Versioned { sys with
      route := { sys.route with version := (atoi sys.tables.routeVersion).toInt }
      phase := .loadData, edits := sys.edits.map System.start } where
  pending := versioned.pending
  recorded := by
    intro e member
    obtain ⟨old, before, rfl⟩ := List.mem_map.mp member
    exact versioned.recorded old before
  flying := by
    intro e member due covered
    obtain ⟨old, before, rfl⟩ := List.mem_map.mp member
    refine ⟨rfl, ?_⟩
    cases was : old.covered with
    | true =>
      have flying := (versioned.flying old before due was).1
      rw [landed] at flying
      cases flying
    | false =>
      -- what waits has the version that has just been read
      change (atoi sys.tables.routeVersion).toInt ≤ old.row.version.toNat
      rw [(versioned.waiting old before due was).1]
      exact atoi_le _
  waiting := by
    intro e member due covered
    obtain ⟨old, before, rfl⟩ := List.mem_map.mp member
    cases covered

/-- With everything announced there is nothing to keep. -/
theorem Versioned.of_due {next : System}
    (pending : ∀ edit, next.console = .inserted edit →
      edit.row ∈ next.tables.routeChange ∧ edit.covered = false ∧ edit.due = false)
    (recorded : ∀ e ∈ next.edits, e.row ∈ next.tables.routeChange ∧ e.due = true) :
    Versioned next where
  pending := pending
  recorded := fun e member => (recorded e member).1
  flying := fun e member due => by
    rw [(recorded e member).2] at due
    cases due
  waiting := fun e member due => by
    rw [(recorded e member).2] at due
    cases due

theorem Versioned.poll (versioned : Versioned sys) (timeUp : Bool) :
    Versioned (sys.poll timeUp) := by
  cases phase : sys.phase with
  | sleeping =>
    have landed : sys.phase.inFlight = false := by rw [phase]; rfl
    by_cases same : (atoi sys.tables.routeVersion).toInt = sys.route.version
    · -- nothing new is seen, and nothing waits
      have known (e) (member : e ∈ sys.edits) : e.row ∈ sys.tables.routeChange ∧ e.due = true :=
        ⟨versioned.recorded e member, versioned.all_due landed same.symm member⟩
      cases timeUp with
      | true =>
        simp only [System.poll, phase, Route.loadVersion, same, ↓reduceIte, zero_ne_one]
        refine .of_due versioned.pending fun e member => ?_
        obtain ⟨old, before, rfl⟩ := List.mem_map.mp member
        exact known old before
      | false =>
        simp only [System.poll, phase, Route.loadVersion, same, ↓reduceIte, zero_ne_one,
          Bool.false_eq_true]
        refine .of_due versioned.pending fun e member => ?_
        simp only [List.map_map, List.mem_map] at member
        obtain ⟨old, before, rfl⟩ := member
        obtain ⟨row, due⟩ := known old before
        exact ⟨row, by simp [System.finish, System.start, due]⟩
    · simp only [System.poll, phase, Route.loadVersion, same, ↓reduceIte]
      exact versioned.started landed
  | loadData =>
    simp only [System.poll, phase]
    exact versioned.move rfl (by rw [phase]; rfl)
  | swapData =>
    simp only [System.poll, phase]
    exact versioned.move rfl (by rw [phase]; rfl)
  | loadChanges =>
    simp only [System.poll, phase]
    apply versioned.finished (show sys.route.version = sys.route.version from rfl)
    · intro edit inserted
      cases console : sys.console with
      | idle => simp [console] at inserted
      | changed modid cmdid => simp [console] at inserted
      | inserted old =>
        simp only [console, Dns.Console.inserted.injEq] at inserted
        subst inserted
        exact versioned.pending old console
    · intro e member
      simp only [List.map_map, List.mem_map] at member
      obtain ⟨old, before, rfl⟩ := member
      exact ⟨old, before, rfl, rfl, rfl⟩
  | reload =>
    simp only [System.poll, phase]
    exact versioned.move rfl (by rw [phase]; rfl)
  | reswap =>
    simp only [System.poll, phase]
    apply versioned.finished (show sys.route.swap.version = sys.route.version from rfl)
      versioned.pending
    intro e member
    obtain ⟨old, before, rfl⟩ := List.mem_map.mp member
    exact ⟨old, before, rfl, rfl, rfl⟩

/-! ### Where a module stands -/

/-- The map has, for the module, the hosts of the rows. -/
def Shows (rows : List RouteDataRow) (map : RouteMap) (key : UInt64) : Prop :=
  ∀ value, value ∈ map.hosts key ↔
    ∃ row ∈ rows, moduleKey row.modid row.cmdid = key ∧ row.value = value

theorem shows_loaded (rows : List RouteDataRow) (key : UInt64) :
    Shows rows (rows.foldl RouteMap.add ∅) key := by
  intro value
  have empty : value ∉ RouteMap.hosts ∅ key := by simp [RouteMap.hosts]
  rw [RouteMap.mem_hosts_foldl, or_iff_right empty]

/-- The rows of other modules do not count. -/
theorem Shows.congr {rows rows' : List RouteDataRow} {map : RouteMap} {key : UInt64}
    (shows : Shows rows map key) (same : ∀ row : RouteDataRow,
      moduleKey row.modid row.cmdid = key → (row ∈ rows' ↔ row ∈ rows)) :
    Shows rows' map key := by
  intro value
  rw [shows value]
  constructor
  · rintro ⟨row, member, module, there⟩
    exact ⟨row, (same row module).mpr member, module, there⟩
  · rintro ⟨row, member, module, there⟩
    exact ⟨row, (same row module).mp member, module, there⟩

/-- A modification of the module is under way at the console. -/
def AtConsole (s : System) (key : UInt64) : Prop :=
  (∃ modid cmdid, s.console = .changed modid cmdid ∧ moduleKey modid cmdid = key) ∨
  ∃ edit, s.console = .inserted edit ∧ edit.key = key

/-- It is, or no iteration has begun since it was complete. -/
def Busy (s : System) (key : UInt64) : Prop :=
  AtConsole s key ∨ ∃ e ∈ s.edits, e.key = key ∧ e.due = false ∧ e.covered = false

/-- The iteration under way began when a modification of the module was complete. -/
def Covering (s : System) (key : UInt64) : Prop :=
  ∃ e ∈ s.edits, e.key = key ∧ e.due = false ∧ e.covered = true

/-- The map in place. -/
def ShowsLast (s : Site) (key : UInt64) : Prop :=
  ∃ route, s.deployment.dns.server.history.getLast? = some route ∧
    Shows s.system.tables.routeData route.dataPointer key

/-- What was published last about the module, or from the beginning, is what is in the table, and
stays so with the next map. -/
structure Settled (s : Site) (key : UInt64) (generation : Nat) : Prop where
  published : generation ≤ 1 ∨ ∃ round ∈ s.deployment.dns.server.rounds,
    round.generation = generation ∧ key ∈ round.changeMods
  snapshots : ∀ n route, generation ≤ n + 1 →
    s.deployment.dns.server.history[n]? = some route →
      Shows s.system.tables.routeData route.dataPointer key
  next : s.system.phase = .swapData ∨ s.system.phase = .reswap →
    Shows s.system.tables.routeData s.system.route.tempPointer key

/-- The way of a module from the console to the subscribers. -/
inductive Stage (s : Site) (key : UInt64) : Prop
  | busy (busy : Busy s.system key)
  | begun (phase : s.system.phase = .loadData) (covering : Covering s.system key)
  | loaded (phase : s.system.phase = .swapData) (covering : Covering s.system key)
      (shows : Shows s.system.tables.routeData s.system.route.tempPointer key)
  | swapped (phase : s.system.phase = .loadChanges) (covering : Covering s.system key)
      (shows : s.ShowsLast key)
  | announced {changes : List UInt64} (read : s.announcing = some changes) (named : key ∈ changes)
      (shows : s.ShowsLast key)
  | settled (generation : Nat) (settled : s.Settled key generation)

theorem Stage.init (tables : Tables) (key : UInt64) : Stage (init tables) key := by
  apply Stage.settled 1
  refine ⟨.inl (Nat.le_refl 1), fun n route _ there => ?_, fun phase => ?_⟩
  · cases n with
    | zero =>
      cases there
      exact shows_loaded tables.routeData key
    | succ n => cases there
  · rcases phase with phase | phase <;> cases phase

variable {cfg : Config} {s t : Site} {key : UInt64}

/-- The poller and the maps stand still, and the rows of the module do. -/
theorem Stage.frame (stage : Stage s key)
    (history : t.deployment.dns.server.history = s.deployment.dns.server.history)
    (rounds : t.deployment.dns.server.rounds = s.deployment.dns.server.rounds)
    (announcing : t.announcing = s.announcing) (phase : t.system.phase = s.system.phase)
    (route : t.system.route = s.system.route) (busy : Busy s.system key → Busy t.system key)
    (covering : Covering s.system key → Covering t.system key)
    (rows : ∀ map, Shows s.system.tables.routeData map key →
      Shows t.system.tables.routeData map key) : Stage t key := by
  have last : s.ShowsLast key → t.ShowsLast key := by
    rintro ⟨inPlace, there, shows⟩
    exact ⟨inPlace, history ▸ there, rows _ shows⟩
  cases stage with
  | busy here => exact .busy (busy here)
  | begun at_ covers => exact .begun (phase.trans at_) (covering covers)
  | loaded at_ covers shows =>
    exact .loaded (phase.trans at_) (covering covers) (by rw [route]; exact rows _ shows)
  | swapped at_ covers shows => exact .swapped (phase.trans at_) (covering covers) (last shows)
  | announced read named shows => exact .announced (announcing.trans read) named (last shows)
  | settled generation settled =>
    apply Stage.settled generation
    constructor
    · rw [rounds]
      exact settled.published
    · intro n inPlace recent there
      rw [history] at there
      exact rows _ (settled.snapshots n inPlace recent there)
    · intro next
      rw [phase] at next
      rw [route]
      exact rows _ (settled.next next)

theorem Stage.console (stage : Stage s key) (versioned : Versioned s.system) {op : SystemStep}
    {system : System} (other : ∀ timeUp, op ≠ .poll timeUp) (orderly : s.Orderly (.console op))
    (done : s.system.step op = .ok system) : Stage { s with system := system } key := by
  unfold System.step at done
  split at done
  next rows modid cmdid idle =>
    cases done
    by_cases here : moduleKey modid cmdid = key
    · exact .busy (.inl (.inl ⟨modid, cmdid, rfl, here⟩))
    · simp only [Orderly, idle] at orderly
      refine stage.frame rfl rfl rfl rfl rfl ?_ ?_ ?_
      · rintro ((⟨_, _, changed, -⟩ | ⟨_, inserted, -⟩) | waiting)
        · rw [idle] at changed
          cases changed
        · rw [idle] at inserted
          cases inserted
        · exact .inr waiting
      · exact id
      · intro map shows
        apply shows.congr
        intro row module
        exact orderly row fun same => here (same.symm.trans module)
  next now modid cmdid changed =>
    cases done
    refine stage.frame rfl rfl rfl rfl rfl ?_ ?_ ?_
    · rintro ((⟨modid', cmdid', changed', here⟩ | ⟨_, inserted, -⟩) | waiting)
      · rw [changed] at changed'
        cases changed'
        exact .inl (.inr ⟨_, rfl, here⟩)
      · rw [changed] at inserted
        cases inserted
      · exact .inr waiting
    · exact id
    · exact fun _ => id
  next now edit inserted =>
    cases done
    refine stage.frame rfl rfl rfl rfl rfl ?_ ?_ ?_
    · rintro ((⟨_, _, changed, -⟩ | ⟨edit', inserted', here⟩) | ⟨e, member, rest⟩)
      · rw [inserted] at changed
        cases changed
      · rw [inserted] at inserted'
        cases inserted'
        obtain ⟨-, covered, due⟩ := versioned.pending edit inserted
        have last : edit ∈ s.system.edits ++ [edit] := by simp
        exact .inr ⟨edit, last, here, due, covered⟩
      · exact .inr ⟨e, List.mem_append_left _ member, rest⟩
    · rintro ⟨e, member, rest⟩
      exact ⟨e, List.mem_append_left _ member, rest⟩
    · exact fun _ => id
  next timeUp => exact absurd rfl (other timeUp)
  next =>
    cases done
    exact stage

/-! ### The poller's calls -/

section

variable {d d' : Deployment}

theorem step_swap {route : Route} (done : d.step cfg (.dns (.swap route)) = .ok d') :
    d'.dns.server.history = d.dns.server.history ++ [route] ∧
      d'.dns.server.rounds = d.dns.server.rounds := by
  simp only [Deployment.step] at done
  obtain ⟨dns, stepped, rfl⟩ := map_ok_inv done
  obtain ⟨server, served, rfl⟩ := map_ok_inv stepped
  simp only [DnsServer.step, DnsServer.serve] at served
  obtain ⟨service, -, rfl⟩ := map_ok_inv served
  exact ⟨rfl, rfl⟩

theorem step_publish {changes : List UInt64}
    (done : d.step cfg (.dns (.publish changes)) = .ok d') :
    d'.dns.server.history = d.dns.server.history ∧ ∃ round : Dns.Round,
      d'.dns.server.rounds = d.dns.server.rounds ++ [round] ∧
      round.generation = d.dns.server.history.length ∧ round.changeMods = changes := by
  simp only [Deployment.step] at done
  obtain ⟨dns, stepped, rfl⟩ := map_ok_inv done
  obtain ⟨server, served, rfl⟩ := map_ok_inv stepped
  simp only [DnsServer.step, DnsServer.serve] at served
  obtain ⟨service, -, rfl⟩ := map_ok_inv served
  exact ⟨rfl, _, rfl, rfl, rfl⟩

end

/-- A call that leaves the maps and the rounds alone and ends in a phase without a map to come. -/
theorem Settled.keep {generation : Nat} (settled : s.Settled key generation)
    (history : t.deployment.dns.server.history = s.deployment.dns.server.history)
    (rounds : s.deployment.dns.server.rounds ⊆ t.deployment.dns.server.rounds)
    (rows : t.system.tables.routeData = s.system.tables.routeData)
    (next : t.system.phase = .swapData ∨ t.system.phase = .reswap →
      Shows t.system.tables.routeData t.system.route.tempPointer key) :
    t.Settled key generation where
  published := by
    rcases settled.published with early | ⟨round, member, rest⟩
    · exact .inl early
    · exact .inr ⟨round, rounds member, rest⟩
  snapshots := by
    rw [history, rows]
    exact settled.snapshots
  next := next

/-- The map that was loaded is put in place. -/
theorem Settled.swap {generation : Nat} (settled : s.Settled key generation)
    (phase : s.system.phase = .swapData ∨ s.system.phase = .reswap)
    (history : t.deployment.dns.server.history =
      s.deployment.dns.server.history ++ [s.system.route.swap])
    (rounds : t.deployment.dns.server.rounds = s.deployment.dns.server.rounds)
    (rows : t.system.tables.routeData = s.system.tables.routeData)
    (done : ¬ (t.system.phase = .swapData ∨ t.system.phase = .reswap)) :
    t.Settled key generation where
  published := by
    rw [rounds]
    exact settled.published
  snapshots := by
    intro n route recent there
    rw [history, List.getElem?_append] at there
    rw [rows]
    split at there
    · exact settled.snapshots n route recent there
    · have same := List.mem_singleton.mp (List.mem_of_getElem? there)
      rw [same]
      exact settled.next phase
  next := fun next => absurd next done

/-- The poller does not touch what the console is doing. -/
theorem AtConsole.poll (here : AtConsole sys key) (timeUp : Bool) :
    AtConsole (sys.poll timeUp) key := by
  cases phase : sys.phase with
  | sleeping =>
    have same : (sys.poll timeUp).console = sys.console := by
      simp only [System.poll, phase]
      split
      · rfl
      · split <;> rfl
    unfold AtConsole
    rw [same]
    exact here
  | loadChanges =>
    simp only [System.poll, phase]
    rcases here with ⟨modid, cmdid, changed, named⟩ | ⟨edit, inserted, named⟩
    · exact .inl ⟨modid, cmdid, by simp only [changed], named⟩
    · exact .inr ⟨System.announce (sys.route.loadChanges sys.tables) edit,
        by simp only [inserted], named⟩
  | loadData | swapData | reload | reswap =>
    simp only [System.poll, phase]
    exact here

/-- An iteration begins: it covers what is complete. -/
theorem Stage.start (stage : Stage s key) (versioned : Versioned s.system)
    (phase : s.system.phase = .sleeping) (none : s.announcing = none) (timeUp : Bool) :
    Stage { s with system := s.system.poll timeUp } key := by
  cases stage with
  | busy busy =>
    rcases busy with here | ⟨e, member, here, due, covered⟩
    · exact .busy (.inl (here.poll timeUp))
    · -- its version is new to the poller
      have unseen := Ne.symm (versioned.waiting e member due covered).2
      apply Stage.begun
      · simp only [System.poll, phase, Route.loadVersion, unseen, ↓reduceIte]
      · simp only [System.poll, phase, Route.loadVersion, unseen, ↓reduceIte]
        exact ⟨System.start e, List.mem_map_of_mem member, here, due, rfl⟩
  | begun at_ => cases phase.symm.trans at_
  | loaded at_ => cases phase.symm.trans at_
  | swapped at_ => cases phase.symm.trans at_
  | announced read => cases none.symm.trans read
  | settled generation settled =>
    refine .settled generation (settled.keep rfl (List.Subset.refl _) ?_ ?_)
    · simp only [System.poll, phase]
      split
      · rfl
      · split <;> rfl
    · intro next
      simp only [System.poll, phase] at next
      split at next
      · simp at next
      · split at next
        · simp at next
        · simp at next

/-- The table is read into the map that is not in use. -/
theorem Stage.load (stage : Stage s key) (none : s.announcing = none) {after : Phase}
    (phase : s.system.phase = .loadData ∧ after = .swapData ∨
      s.system.phase = .reload ∧ after = .reswap) :
    Stage { s with system := { s.system with
      route := s.system.route.loadRouteData s.system.tables, phase := after } } key := by
  have fresh : Shows s.system.tables.routeData
      (s.system.route.loadRouteData s.system.tables).tempPointer key := shows_loaded _ _
  cases stage with
  | busy busy => exact .busy busy
  | begun at_ covering =>
    rcases phase with ⟨-, rfl⟩ | ⟨phase, -⟩
    · exact .loaded rfl covering fresh
    · cases phase.symm.trans at_
  | loaded at_ => rcases phase with ⟨phase, -⟩ | ⟨phase, -⟩ <;> cases phase.symm.trans at_
  | swapped at_ => rcases phase with ⟨phase, -⟩ | ⟨phase, -⟩ <;> cases phase.symm.trans at_
  | announced read => cases none.symm.trans read
  | settled generation settled =>
    exact .settled generation (settled.keep rfl (List.Subset.refl _) rfl fun _ => fresh)

/-- The change list names what the iteration has covered. -/
theorem Stage.list (stage : Stage s key) (versioned : Versioned s.system)
    (phase : s.system.phase = .loadChanges) (none : s.announcing = none) (timeUp : Bool) :
    Stage { s with
      system := s.system.poll timeUp
      announcing := some (s.system.route.loadChanges s.system.tables) } key := by
  cases stage with
  | busy busy =>
    rcases busy with here | ⟨e, member, here, due, covered⟩
    · exact .busy (.inl (here.poll timeUp))
    · let announced := System.announce (s.system.route.loadChanges s.system.tables) e
      refine .busy (.inr ⟨System.finish announced, ?_, here, ?_, rfl⟩)
      · simp only [System.poll, phase]
        exact List.mem_map_of_mem (List.mem_map_of_mem member)
      · simp only [announced, System.finish, System.announce, due, covered, Bool.or_self]
  | begun at_ => cases phase.symm.trans at_
  | loaded at_ => cases phase.symm.trans at_
  | swapped at_ covering shows =>
    obtain ⟨e, member, here, due, covered⟩ := covering
    have named := System.mem_loadChanges (versioned.recorded e member)
      (versioned.flying e member due covered).2
    refine .announced rfl (here ▸ named) ?_
    obtain ⟨inPlace, there, shows⟩ := shows
    refine ⟨inPlace, there, ?_⟩
    simpa only [System.poll, phase] using shows
  | announced read => cases none.symm.trans read
  | settled generation settled =>
    refine .settled generation (settled.keep rfl (List.Subset.refl _) ?_ ?_)
    · simp only [System.poll, phase]
    · intro next
      simp [System.poll, phase] at next

/-- The maps are exchanged. -/
theorem Stage.swap (stage : Stage s key) (none : s.announcing = none)
    (phase : s.system.phase = .swapData ∨ s.system.phase = .reswap) (timeUp : Bool)
    {deployment : Deployment}
    (done : s.deployment.step cfg (.dns (.swap s.system.route.swap)) = .ok deployment) :
    Stage { s with system := s.system.poll timeUp, deployment := deployment } key := by
  obtain ⟨history, rounds⟩ := step_swap done
  have rows : (s.system.poll timeUp).tables = s.system.tables := by
    rcases phase with phase | phase <;> simp only [System.poll, phase]
  cases stage with
  | busy busy =>
    rcases busy with here | ⟨e, member, here, due, covered⟩
    · exact .busy (.inl (here.poll timeUp))
    · rcases phase with phase | phase
      · refine .busy (.inr ⟨e, ?_, here, due, covered⟩)
        simpa only [System.poll, phase] using member
      · refine .busy (.inr ⟨System.finish e, ?_, here, ?_, rfl⟩)
        · simp only [System.poll, phase]
          exact List.mem_map_of_mem member
        · simp only [System.finish, due, covered, Bool.or_self]
  | begun at_ => rcases phase with phase | phase <;> cases phase.symm.trans at_
  | loaded at_ covering shows =>
    apply Stage.swapped
    · simp only [System.poll, at_]
    · simp only [System.poll, at_]
      exact covering
    · refine ⟨s.system.route.swap, ?_, ?_⟩
      · rw [history, List.getLast?_concat]
      · rw [rows]
        exact shows
  | swapped at_ => rcases phase with phase | phase <;> cases phase.symm.trans at_
  | announced read => cases none.symm.trans read
  | settled generation settled =>
    refine .settled generation (settled.swap phase history rounds (by rw [rows]) ?_)
    rcases phase with phase | phase <;> simp [System.poll, phase]

/-- The change list goes out with the map in place. -/
theorem Stage.publish (stage : Stage s key) {changes : List UInt64}
    (read : s.announcing = some changes) (phase : s.system.phase = .sleeping)
    {deployment : Deployment}
    (done : s.deployment.step cfg (.dns (.publish changes)) = .ok deployment) :
    Stage { s with announcing := none, deployment := deployment } key := by
  obtain ⟨history, round, rounds, generation, named⟩ := step_publish done
  cases stage with
  | busy busy => exact .busy busy
  | begun at_ => cases phase.symm.trans at_
  | loaded at_ => cases phase.symm.trans at_
  | swapped at_ => cases phase.symm.trans at_
  | announced read' member shows =>
    rw [read] at read'
    cases read'
    obtain ⟨inPlace, last, shows⟩ := shows
    apply Stage.settled s.deployment.dns.server.history.length
    constructor
    · refine .inr ⟨round, ?_, generation, named ▸ member⟩
      rw [rounds]
      exact List.mem_append_right _ (List.mem_singleton.mpr rfl)
    · intro n route recent there
      dsimp only at there
      rw [history] at there
      -- only the map in place is as recent as this
      have bound := (List.getElem?_eq_some_iff.mp there).1
      have position : n = s.deployment.dns.server.history.length - 1 := by omega
      rw [List.getLast?_eq_getElem?, ← position, there] at last
      cases last
      exact shows
    · intro next
      simp [phase] at next
  | settled generation settled =>
    refine .settled generation (settled.keep history ?_ rfl ?_)
    · rw [rounds]
      exact List.subset_append_left _ _
    · intro next
      simp [phase] at next

/-! ### Whole runs -/

/-- Every module is somewhere on its way, and the agents get what the DNS says. -/
structure Tracked (s : Site) : Prop where
  versioned : Versioned s.system
  /-- The poller goes to sleep only when it has published. -/
  resting : ∀ changes, s.announcing = some changes → s.system.phase = .sleeping
  stages : ∀ key, Stage s key
  current : s.deployment.Current

theorem Tracked.init (tables : Tables) : Tracked (init tables) where
  versioned := Versioned.init tables
  resting := fun _ read => by cases read
  stages := Stage.init tables
  current := Deployment.Current.init (Route.init tables)

/-- A version that is set as the condition demands waits for the poller. -/
theorem Versioned.update (versioned : Versioned sys) {edit : Edit}
    (inserted : sys.console = .inserted edit)
    (unseen : sys.route.version ≠ (atoi edit.row.version).toInt)
    (others : ∀ e ∈ sys.edits, e.due = false → e.covered = false →
      e.row.version = edit.row.version) :
    Versioned { sys with
      tables := { sys.tables with routeVersion := edit.row.version }
      console := .idle, edits := sys.edits ++ [edit] } := by
  obtain ⟨recorded, uncovered, -⟩ := versioned.pending edit inserted
  constructor
  · intro other console
    cases console
  · intro e member
    rcases List.mem_append.mp member with before | new
    · exact versioned.recorded e before
    · rw [List.mem_singleton.mp new]
      exact recorded
  · intro e member due covered
    rcases List.mem_append.mp member with before | new
    · exact versioned.flying e before due covered
    · rw [List.mem_singleton.mp new, uncovered] at covered
      cases covered
  · intro e member due covered
    rcases List.mem_append.mp member with before | new
    · exact ⟨others e before due covered, unseen⟩
    · exact ⟨by rw [List.mem_singleton.mp new], unseen⟩

theorem Versioned.console (versioned : Versioned s.system) {op : SystemStep} {system : System}
    (other : ∀ timeUp, op ≠ .poll timeUp) (orderly : s.Orderly (.console op))
    (done : s.system.step op = .ok system) :
    Versioned system ∧ system.phase = s.system.phase := by
  unfold System.step at done
  split at done
  next rows modid cmdid idle =>
    cases done
    exact ⟨⟨fun _ inserted => (by cases inserted), versioned.recorded, versioned.flying,
      versioned.waiting⟩, rfl⟩
  next now modid cmdid changed =>
    cases done
    refine ⟨⟨?_, ?_, versioned.flying, versioned.waiting⟩, rfl⟩
    · intro edit inserted
      cases inserted
      exact ⟨by simp, rfl, rfl⟩
    · exact fun e member => List.mem_append_left _ (versioned.recorded e member)
  next now edit inserted =>
    cases done
    simp only [Orderly, inserted] at orderly
    obtain ⟨rfl, unseen, others⟩ := orderly
    exact ⟨versioned.update inserted unseen others, rfl⟩
  next timeUp => exact absurd rfl (other timeUp)
  next =>
    cases done
    exact ⟨versioned, rfl⟩

theorem Tracked.console (tracked : Tracked s) {op : SystemStep} {system : System}
    (other : ∀ timeUp, op ≠ .poll timeUp) (orderly : s.Orderly (.console op))
    (done : s.system.step op = .ok system) : Tracked { s with system := system } := by
  obtain ⟨versioned, phase⟩ := tracked.versioned.console other orderly done
  refine ⟨versioned, fun changes read => ?_, fun key => ?_, tracked.current⟩
  · exact phase.trans (tracked.resting changes read)
  · exact (tracked.stages key).console tracked.versioned other orderly done

/-- The console is done, the poller has seen the version and published what it has read, and no
push is pending. -/
structure AtRest (s : Site) : Prop where
  console : s.system.console = .idle
  phase : s.system.phase = .sleeping
  announced : s.announcing = none
  seen : s.system.route.version = (atoi s.system.tables.routeVersion).toInt
  pushed : s.deployment.dns.server.AtRest

theorem AtRest.settled (rest : s.AtRest) (tracked : Tracked s) (key : UInt64) :
    ∃ generation, s.Settled key generation := by
  cases tracked.stages key with
  | busy busy =>
    rcases busy with (⟨_, _, changed, -⟩ | ⟨_, inserted, -⟩) | ⟨e, member, -, due, -⟩
    · cases rest.console.symm.trans changed
    · cases rest.console.symm.trans inserted
    · have landed : s.system.phase.inFlight = false := by rw [rest.phase]; rfl
      rw [tracked.versioned.all_due landed rest.seen member] at due
      cases due
  | begun at_ => cases rest.phase.symm.trans at_
  | loaded at_ => cases rest.phase.symm.trans at_
  | swapped at_ => cases rest.phase.symm.trans at_
  | announced read => cases rest.announced.symm.trans read
  | settled generation settled => exact ⟨generation, settled⟩

private def oneHost : Tables := ⟨[⟨1, 1, 10, 80⟩], 0, []⟩

/-- An agent asks for module 1, command 1. The console adds a host, the poller sees the version
and publishes, the DNS pushes. -/
private def addHost : List SiteStep :=
  [.event (.agent 0 (.connect true)), .event (.accept 0 5 0),
    .event (.agent 0 (.getHost (.last 2) 0 1 1 ⟨0, 1, 1, 0, none⟩)),
    .event (.agent 0 (.newDnsRequest [⟨1, 1⟩])), .event (.agent 0 .write),
    .event (.request 0 5 ⟨1, 1⟩), .event (.dns (.subscribe 0)), .event (.dns (.getHosts 0)),
    .event (.dns (.reply 0 true)),
    .console (.changeData [⟨1, 1, 10, 80⟩, ⟨1, 1, 20, 80⟩] 1 1),
    .console (.insertRouteChange 100), .console (.updateVersion 100),
    .poll false, .poll false, .poll false, .poll false, .poll false,
    .event (.dns (.copy 0 [(5, packKey 1 1)])), .event (.dns (.send 0 true)),
    .event (.dns (.erase 0))]

private def added : Site :=
  match Run.run (step .default) (.init oneHost) addHost with
  | .ok s => s
  | .error _ => .init oneHost

end Site

end Lars
