import Lars.Lib.Run
import Lars.Dns.Route

/-!
# The console and the poller

The web console changes the routes in three statements: it changes `RouteData`,
adds a row to `RouteChange` and sets `RouteVersion`, the last two stamped with
the clock in seconds. `check_route_changes` looks at `RouteVersion` again and
again and announces the rows that are not older than the version it has seen.
The statements of the two sides may fall in any order.
-/
namespace Lars.Dns

/-- Where `check_route_changes` stands: between two iterations, in an iteration that has seen a
new version, or in one that reloads the table because its time is up. -/
inductive Phase where
  | sleeping
  | loadData
  | swapData
  | loadChanges
  | reload
  | reswap
  deriving DecidableEq

/-- A new version has been seen, and the changes have not been read yet. -/
def Phase.inFlight : Phase → Bool
  | .loadData | .swapData | .loadChanges => true
  | .sleeping | .reload | .reswap => false

/-- A modification whose row is in `RouteChange`: whether a later change list named its module,
whether the present iteration began after its completion, and whether one that did has ended. -/
structure Edit where
  row : RouteChangeRow
  listed : Bool
  covered : Bool
  due : Bool
  deriving DecidableEq

def Edit.key (e : Edit) : UInt64 := moduleKey e.row.modid e.row.cmdid

/-- The console works on one modification after the other. -/
inductive Console where
  | idle
  | changed (modid cmdid : UInt32)
  | inserted (edit : Edit)
  deriving DecidableEq

structure System where
  tables : Tables
  route : Route
  phase : Phase
  console : Console
  /-- The modifications that are complete. -/
  edits : List Edit

/-- The statements of the console, with the rows or the clock, and the next call that
`check_route_changes` makes. -/
inductive SystemStep where
  | changeData (rows : List RouteDataRow) (modid cmdid : UInt32)
  | insertRouteChange (now : UInt32)
  | updateVersion (now : UInt32)
  | poll (timeUp : Bool)

namespace System

def init (t : Tables) : System := ⟨t, Route.init t, .sleeping, .idle, []⟩

/-- A change list has been read. -/
def announce (changes : List UInt64) (e : Edit) : Edit :=
  { e with listed := e.listed || decide (e.key ∈ changes) }

def start (e : Edit) : Edit := { e with covered := true }

/-- The iteration ends. -/
def finish (e : Edit) : Edit := { e with due := e.due || e.covered, covered := false }

def poll (timeUp : Bool) (s : System) : System :=
  match s.phase with
  | .sleeping =>
    let (ret, route) := s.route.loadVersion s.tables
    let edits := s.edits.map start
    if ret = 1 then { s with route := route, phase := .loadData, edits := edits }
    else if timeUp then { s with route := route, phase := .reload, edits := edits }
    else { s with route := route, edits := edits.map finish }
  | .loadData => { s with route := s.route.loadRouteData s.tables, phase := .swapData }
  | .swapData => { s with route := s.route.swap, phase := .loadChanges }
  | .loadChanges =>
    let changes := s.route.loadChanges s.tables
    let console :=
      match s.console with
      | .inserted edit => .inserted (announce changes edit)
      | other => other
    { s with phase := .sleeping, console := console
             edits := (s.edits.map (announce changes)).map finish }
  | .reload => { s with route := s.route.loadRouteData s.tables, phase := .reswap }
  | .reswap => { s with route := s.route.swap, phase := .sleeping, edits := s.edits.map finish }

def step (s : System) (op : SystemStep) : Except Fault System :=
  match op, s.console with
  | .changeData rows modid cmdid, .idle =>
    .ok { s with tables := { s.tables with routeData := rows }, console := .changed modid cmdid }
  | .insertRouteChange now, .changed modid cmdid =>
    let row : RouteChangeRow := ⟨modid, cmdid, now⟩
    .ok { s with tables := { s.tables with routeChange := s.tables.routeChange ++ [row] }
                 console := .inserted ⟨row, false, false, false⟩ }
  | .updateVersion now, .inserted edit =>
    .ok { s with tables := { s.tables with routeVersion := now }
                 console := .idle, edits := s.edits ++ [edit] }
  | .poll timeUp, _ => .ok (s.poll timeUp)
  -- the console does not go on to its next statement
  | _, _ => .ok s

/-- Both statements of a modification read the same second, and the clock does not go back. -/
def Clock (s : System) (op : SystemStep) : Prop :=
  match op, s.console with
  | .insertRouteChange now, .changed _ _ => s.tables.routeVersion ≤ now
  | .updateVersion now, .inserted edit => now = edit.row.version
  | _, _ => True

/-- When a version is set, the poller is about to read the changes anyway, or it has not seen this
version yet and no older modification still waits to be listed. -/
def InTime (s : System) (op : SystemStep) : Prop :=
  match op, s.console with
  | .updateVersion now, .inserted edit =>
    s.phase.inFlight = true ∨
      ((edit.listed = true ∨ s.route.version ≠ (atoi now).toInt) ∧
        ∀ e ∈ s.edits, e.listed = false → e.row.version = now)
  | _, _ => True

/-! ### What holds between the two sides -/

/-- A complete modification that no list has named yet is going to be named: by the changes about
to be read, or because its version is the one in the table and has not been seen. -/
structure Kept (s : System) (e : Edit) : Prop where
  recorded : e.row ∈ s.tables.routeChange
  waiting : e.listed = false →
    if s.phase.inFlight then s.route.version ≤ e.row.version.toNat
    else e.row.version = s.tables.routeVersion ∧
      s.route.version ≠ (atoi s.tables.routeVersion).toInt
  covered : e.covered = true → e.listed = false → s.phase.inFlight = true
  due : e.due = true → e.listed = true

structure Sound (s : System) : Prop where
  /-- The version remembered was in the table before. -/
  seen : ∃ u, s.route.version = (atoi u).toInt ∧ u ≤ s.tables.routeVersion
  pending : ∀ edit, s.console = .inserted edit →
    edit.row ∈ s.tables.routeChange ∧ s.tables.routeVersion ≤ edit.row.version ∧
      edit.covered = false ∧ edit.due = false
  edits : ∀ e ∈ s.edits, s.Kept e

variable {s : System} {e : Edit}

theorem Kept.of_listed (recorded : e.row ∈ s.tables.routeChange) (listed : e.listed = true) :
    s.Kept e where
  recorded := recorded
  waiting := fun unlisted => by simp [listed] at unlisted
  covered := fun _ unlisted => by simp [listed] at unlisted
  due := fun _ => listed

theorem mem_loadChanges {row : RouteChangeRow} (member : row ∈ s.tables.routeChange)
    (recent : s.route.version ≤ row.version.toNat) :
    moduleKey row.modid row.cmdid ∈ s.route.loadChanges s.tables := by
  apply List.mem_map.mpr
  exact ⟨row, List.mem_filter.mpr ⟨member, by simpa using recent⟩, rfl⟩

theorem Sound.init (t : Tables) : (init t).Sound where
  seen := ⟨0, rfl, UInt32.le_iff_toNat_le.mpr (Nat.zero_le _)⟩
  pending := fun _ inserted => by cases inserted
  edits := fun _ member => by cases member

/-- The version remembered is not newer than a version that may still be written. -/
theorem Sound.version_le (sound : s.Sound) {v : UInt32} (later : s.tables.routeVersion ≤ v) :
    s.route.version ≤ v.toNat := by
  obtain ⟨u, version, old⟩ := sound.seen
  have order := UInt32.le_iff_toNat_le.mp (UInt32.le_trans old later)
  have value := atoi_le u
  omega

/-- With nothing new in the table, everything complete has been listed. -/
theorem Sound.all_listed (sound : s.Sound) (landed : s.phase.inFlight = false)
    (same : s.route.version = (atoi s.tables.routeVersion).toInt) (member : e ∈ s.edits) :
    e.listed = true := by
  cases listed : e.listed with
  | true => rfl
  | false =>
    have waiting := (sound.edits e member).waiting listed
    rw [landed] at waiting
    exact absurd same waiting.2

/-- The calls that only move the two maps around. -/
private theorem Sound.move (sound : s.Sound) {route : Route} {phase : Phase}
    (version : route.version = s.route.version) (flight : phase.inFlight = s.phase.inFlight) :
    Sound { s with route := route, phase := phase } where
  seen := by
    rw [version]
    exact sound.seen
  pending := sound.pending
  edits := fun e member => by
    have kept := sound.edits e member
    refine ⟨kept.recorded, fun unlisted => ?_, fun covered unlisted => ?_, kept.due⟩
    · have waiting := kept.waiting unlisted
      rwa [← flight, ← version] at waiting
    · exact flight.trans (kept.covered covered unlisted)

/-- The end of an iteration that was not in flight: what it covered had been listed before. -/
private theorem Sound.finished (sound : s.Sound) (landed : s.phase.inFlight = false) :
    Sound { s with phase := .sleeping, edits := s.edits.map finish } where
  seen := sound.seen
  pending := sound.pending
  edits := fun e member => by
    obtain ⟨old, oldMember, rfl⟩ := List.mem_map.mp member
    have kept := sound.edits old oldMember
    refine ⟨kept.recorded, fun unlisted => ?_, fun covered => (by cases covered), fun due => ?_⟩
    · have waiting := kept.waiting unlisted
      rwa [landed] at waiting
    · simp only [finish, Bool.or_eq_true] at due
      rcases due with due | covered
      · exact kept.due due
      · cases listed : old.listed with
        | true => exact listed
        | false =>
          have flying := kept.covered covered listed
          rw [landed] at flying
          cases flying

/-- The beginning of an iteration that finds no new version. -/
private theorem Sound.started (sound : s.Sound) (landed : s.phase.inFlight = false)
    (same : s.route.version = (atoi s.tables.routeVersion).toInt) :
    Sound { s with edits := s.edits.map start } where
  seen := sound.seen
  pending := sound.pending
  edits := fun e member => by
    obtain ⟨old, oldMember, rfl⟩ := List.mem_map.mp member
    have listed := sound.all_listed landed same oldMember
    exact Kept.of_listed (e := start old) (sound.edits old oldMember).recorded listed

/-- The beginning of an iteration that finds a new version: whatever waits has just that version. -/
private theorem Sound.sees (sound : s.Sound) (landed : s.phase.inFlight = false) :
    Sound { s with
      route := { s.route with version := (atoi s.tables.routeVersion).toInt }
      phase := .loadData, edits := s.edits.map start } where
  seen := ⟨s.tables.routeVersion, rfl, UInt32.le_refl _⟩
  pending := sound.pending
  edits := fun e member => by
    obtain ⟨old, oldMember, rfl⟩ := List.mem_map.mp member
    have kept := sound.edits old oldMember
    refine ⟨kept.recorded, fun unlisted => ?_, fun _ _ => rfl, kept.due⟩
    -- what waits has the version of the table, which is the one the query will ask for
    have waiting := kept.waiting unlisted
    rw [landed] at waiting
    change (atoi s.tables.routeVersion).toInt ≤ old.row.version.toNat
    rw [waiting.1]
    exact atoi_le _

/-- Reading the changes lists every row that is there. -/
private theorem Sound.lists (sound : s.Sound) (phase : s.phase = .loadChanges) :
    (s.poll false).Sound := by
  have flying : s.phase.inFlight = true := by rw [phase]; rfl
  simp only [poll, phase]
  refine ⟨sound.seen, fun edit inserted => ?_, fun e member => ?_⟩
  · cases console : s.console with
    | idle => simp [console] at inserted
    | changed modid cmdid => simp [console] at inserted
    | inserted old =>
      simp only [console, Console.inserted.injEq] at inserted
      subst inserted
      exact sound.pending old console
  · obtain ⟨mid, midMember, rfl⟩ := List.mem_map.mp member
    obtain ⟨old, oldMember, rfl⟩ := List.mem_map.mp midMember
    have kept := sound.edits old oldMember
    refine Kept.of_listed (e := finish (announce _ old)) kept.recorded ?_
    cases listed : old.listed with
    | true => simp [finish, announce, listed]
    | false =>
      -- its row is as new as the version that `load_version` has just read
      have recent := kept.waiting listed
      rw [flying] at recent
      simp [finish, announce, Edit.key, mem_loadChanges kept.recorded recent]

theorem Sound.poll (sound : s.Sound) (timeUp : Bool) : (s.poll timeUp).Sound := by
  cases phase : s.phase with
  | sleeping =>
    have landed : s.phase.inFlight = false := by rw [phase]; rfl
    by_cases same : (atoi s.tables.routeVersion).toInt = s.route.version
    -- nothing new is seen: the iteration ends, or reloads the table first
    · have started := sound.started landed same.symm
      cases timeUp with
      | true =>
        simp only [System.poll, phase, Route.loadVersion, same, ↓reduceIte, zero_ne_one]
        exact started.move rfl (by rw [phase]; rfl)
      | false =>
        simp only [System.poll, phase, Route.loadVersion, same, ↓reduceIte, zero_ne_one,
          Bool.false_eq_true]
        exact started.finished landed
    · simp only [System.poll, phase, Route.loadVersion, same, ↓reduceIte]
      exact sound.sees landed
  | loadData =>
    simp only [System.poll, phase]
    exact sound.move rfl (by rw [phase]; rfl)
  | swapData =>
    simp only [System.poll, phase]
    exact sound.move rfl (by rw [phase]; rfl)
  | loadChanges =>
    have listed := sound.lists phase
    simp only [System.poll, phase] at listed ⊢
    exact listed
  | reload =>
    simp only [System.poll, phase]
    exact sound.move rfl (by rw [phase]; rfl)
  | reswap =>
    have swapped : Sound { s with route := s.route.swap, phase := .reswap } :=
      sound.move rfl (by rw [phase])
    simp only [System.poll, phase]
    exact swapped.finished rfl

theorem Sound.insert (sound : s.Sound) {modid cmdid now : UInt32}
    (later : s.tables.routeVersion ≤ now) :
    Sound { s with
      tables := { s.tables with routeChange := s.tables.routeChange ++ [⟨modid, cmdid, now⟩] }
      console := .inserted ⟨⟨modid, cmdid, now⟩, false, false, false⟩ } where
  seen := sound.seen
  pending := fun edit inserted => by
    cases inserted
    exact ⟨by simp, later, rfl, rfl⟩
  edits := fun e member => by
    have kept := sound.edits e member
    exact ⟨List.mem_append_left _ kept.recorded, kept.waiting, kept.covered, kept.due⟩

/-- A version that is set in time leaves nothing behind that would not be listed. -/
theorem Sound.update (sound : s.Sound) {edit : Edit} (console : s.console = .inserted edit)
    (inTime : s.phase.inFlight = true ∨
      ((edit.listed = true ∨ s.route.version ≠ (atoi edit.row.version).toInt) ∧
        ∀ e ∈ s.edits, e.listed = false → e.row.version = edit.row.version)) :
    Sound { s with
      tables := { s.tables with routeVersion := edit.row.version }
      console := .idle, edits := s.edits ++ [edit] } := by
  obtain ⟨recorded, later, uncovered, undue⟩ := sound.pending edit console
  obtain ⟨u, version, old⟩ := sound.seen
  refine ⟨⟨u, version, UInt32.le_trans old later⟩, fun _ inserted => (by cases inserted), ?_⟩
  intro e member
  cases flight : s.phase.inFlight with
  | true =>
    -- the changes are about to be read, and the row is already there
    rcases List.mem_append.mp member with before | new
    · have kept := sound.edits e before
      refine ⟨kept.recorded, fun unlisted => ?_, fun _ _ => flight, kept.due⟩
      have recent := kept.waiting unlisted
      rw [flight] at recent
      simpa only [flight, ↓reduceIte] using recent
    · rw [List.mem_singleton.mp new]
      refine ⟨recorded, fun _ => ?_, fun _ _ => flight, fun due => by simp [undue] at due⟩
      simpa only [flight, ↓reduceIte] using sound.version_le later
  | false =>
    obtain ⟨fresh, others⟩ := inTime.resolve_left (by simp [flight])
    rcases List.mem_append.mp member with before | new
    · have kept := sound.edits e before
      refine ⟨kept.recorded, fun unlisted => ?_, fun covered unlisted => ?_, kept.due⟩
      · have waiting := kept.waiting unlisted
        rw [flight] at waiting
        -- an older one that waits has the same version, so the table does not change
        have same := others e before unlisted
        rw [← same]
        simpa only [flight, waiting.1, Bool.false_eq_true, ↓reduceIte, true_and] using waiting.2
      · have flying := kept.covered covered unlisted
        rw [flight] at flying
        cases flying
    · rw [List.mem_singleton.mp new]
      refine ⟨recorded, fun unlisted => ?_, fun covered => by simp [uncovered] at covered,
        fun due => by simp [undue] at due⟩
      have unseen := fresh.resolve_left (by simp [unlisted])
      simpa only [flight, Bool.false_eq_true, ↓reduceIte, true_and] using unseen

theorem step_sound (s : System) (op : SystemStep) (t : System) (sound : s.Sound)
    (allowed : s.Clock op ∧ s.InTime op) (done : s.step op = .ok t) : t.Sound := by
  obtain ⟨clock, inTime⟩ := allowed
  unfold step at done
  split at done
  next rows modid cmdid console =>
    cases done
    refine ⟨sound.seen, fun _ inserted => (by cases inserted), fun e member => ?_⟩
    have kept := sound.edits e member
    exact ⟨kept.recorded, kept.waiting, kept.covered, kept.due⟩
  next now modid cmdid console =>
    cases done
    simp only [Clock, console] at clock
    exact sound.insert clock
  next now edit console =>
    cases done
    simp only [Clock, console] at clock
    subst clock
    simp only [InTime, console] at inTime
    exact sound.update console inTime
  next console timeUp =>
    cases done
    exact sound.poll timeUp
  next =>
    cases done
    exact sound

/-- In every run whose versions are all set in time: whenever an iteration that began after a
modification was complete has ended, a change list read after the modification's row was there
has named its module. -/
theorem no_change_missed (t : Tables) {ops : List SystemStep}
    (allowed : Run.Guarded step (fun s op => s.Clock op ∧ s.InTime op) (init t) ops) :
    Run.Always step (fun s => ∀ e ∈ s.edits, e.due = true → e.listed = true) (init t) ops := by
  have always := Run.always_of_guarded step_sound (Sound.init t) allowed
  exact always.mono fun s sound e member => (sound.edits e member).due

private def emptyTables : Tables := ⟨[], 0, []⟩

/-- A modification of module `(m, 1)` in second `now`. -/
private def edit (m now : UInt32) : List SystemStep :=
  [.changeData [⟨m, 1, 1, 80⟩] m 1, .insertRouteChange now, .updateVersion now]

private def iteration : List SystemStep := [.poll false, .poll false, .poll false, .poll false]

private def editThenPoll : List SystemStep := edit 1 100 ++ iteration

theorem no_change_missed_one_edit :
    Run.Always step (fun s => ∀ e ∈ s.edits, e.due = true → e.listed = true) (init emptyTables)
      editThenPoll := by
  apply no_change_missed
  refine ⟨⟨trivial, trivial⟩, fun _ done => ?_⟩
  cases done
  refine ⟨⟨(by decide : (0 : UInt32) ≤ 100), trivial⟩, fun _ done => ?_⟩
  cases done
  have unseen : (0 : Int) ≠ (atoi 100).toInt := by decide
  refine ⟨⟨rfl, .inr ⟨.inr unseen, fun _ none => (by cases none)⟩⟩, fun _ done => ?_⟩
  cases done
  exact ⟨⟨trivial, trivial⟩, fun _ _ => ⟨⟨trivial, trivial⟩, fun _ _ =>
    ⟨⟨trivial, trivial⟩, fun _ _ => ⟨⟨trivial, trivial⟩, fun _ _ => trivial⟩⟩⟩⟩

/-- Two modifications in different seconds between two looks at the version: the first is never
listed. So is a modification in the second that the poller has just seen. -/
theorem changes_missed :
    (∃ s, Run.run step (init emptyTables) (edit 1 100 ++ edit 2 101 ++ iteration) = .ok s ∧
      ∃ e ∈ s.edits, e.due = true ∧ e.listed = false) ∧
    ∃ s, Run.run step (init emptyTables) (edit 1 100 ++ iteration ++ edit 2 100 ++ iteration) = .ok s ∧
      ∃ e ∈ s.edits, e.due = true ∧ e.listed = false := by
  refine ⟨⟨_, rfl, ?_⟩, ⟨_, rfl, ?_⟩⟩
  · decide
  · decide

end System

end Lars.Dns
