import Lars.Dns.Route
import Lars.Lib.Ipv6

/-!
# The web console

The handlers that edit `RouteData`. The DNS learns of an edit from
`RouteVersion` and reads in `RouteChange` which modules it concerns, so an edit
comes with a row there and a new version. Both are stamped with the time, each
with its own reading of the clock.
-/
namespace Lars.Web

open Dns (RouteDataRow RouteChangeRow Route Tables)
open DottedQuad (Quad)

/-! ### `utils` -/

/-- `net.ParseIP(ip).To4()`: the bytes of an IPv4 address, dotted or mapped to IPv6. -/
def to4 (ip : String) : List UInt8 :=
  match (Quad.parse ip).or ((Ipv6.parse ip).bind Ipv6.mapped) with
  | some q => [q.a, q.b, q.c, q.d]
  | none => []

/-- The number whose bytes, most significant first, `SetBytes` is given. -/
def inetAtoN (ip : String) : Nat := (to4 ip).foldl (fun n x => n * 256 + x.toNat) 0

theorem inetAtoN_text (q : Quad) : UInt32.ofNat (inetAtoN q.text) = q.number := by
  have value : inetAtoN q.text =
      q.a.toNat * 2 ^ 24 + q.b.toNat * 2 ^ 16 + q.c.toNat * 2 ^ 8 + q.d.toNat := by
    rw [inetAtoN, to4, Quad.parse_text]
    simp only [Option.some_or, List.foldl_cons, List.foldl_nil]
    omega
  rw [value, Quad.number]

/-- The mapped form of an address is the same number. -/
theorem inetAtoN_mapped (q : Quad) : inetAtoN ("::ffff:" ++ q.text) = inetAtoN q.text := by
  have plain : Quad.parse ("::ffff:" ++ q.text) = none := Ipv6.not_dotted q
  rw [inetAtoN, inetAtoN, to4, to4, plain, Quad.parse_text, Ipv6.parse_mapped, Option.none_or,
    Option.bind_some, Ipv6.mapped_quadWords, Option.some_or]

/-! ### The tables -/

/-- `RouteData` under its primary key, and the two tables that announce its changes. -/
structure Database where
  routeData : AList fun _ : Nat => RouteDataRow
  /-- `AUTO_INCREMENT` -/
  nextId : Nat
  fresh : ∀ id, nextId ≤ id → routeData.lookup id = none
  routeVersion : UInt32
  routeChange : List RouteChangeRow

/-- What `models` sends to the database. -/
inductive Statement where
  | addRoute (row : RouteDataRow)
  | updateRoute (id : Nat) (row : RouteDataRow)
  | deleteRoute (id : Nat)
  | insertRouteChange (modid cmdid version : UInt32)
  | updateVersion (version : UInt32)
  deriving DecidableEq

namespace Database

def exec (db : Database) : Statement → Database
  | .addRoute row =>
    { db with
      routeData := db.routeData.insert db.nextId row
      nextId := db.nextId + 1
      fresh := by
        intro id above
        rw [AList.lookup_insert_ne (by omega)]
        exact db.fresh id (by omega) }
  | .updateRoute id row =>
    match found : db.routeData.lookup id with
    | none => db
    | some _ =>
      { db with
        routeData := db.routeData.insert id row
        fresh := by
          intro id' above
          have free := db.fresh id' above
          rw [AList.lookup_insert_ne, free]
          rintro rfl
          rw [free] at found
          cases found }
  | .deleteRoute id =>
    { db with
      routeData := db.routeData.erase id
      fresh := by
        intro id' above
        by_cases same : id' = id
        · rw [same, AList.lookup_erase]
        · rw [AList.lookup_erase_ne same]
          exact db.fresh id' above }
  | .insertRouteChange modid cmdid version =>
    { db with routeChange := db.routeChange ++ [⟨modid, cmdid, version⟩] }
  | .updateVersion version => { db with routeVersion := version }

def run (db : Database) (statements : List Statement) : Database := statements.foldl exec db

/-- Some row of `RouteData` has these columns. -/
def Lists (db : Database) (row : RouteDataRow) : Prop := ∃ id, db.routeData.lookup id = some row

/-- Some row other than this one has these columns. -/
def ListsBeside (db : Database) (id : Nat) (row : RouteDataRow) : Prop :=
  ∃ id', id' ≠ id ∧ db.routeData.lookup id' = some row

/-- The hosts of a module. -/
def hosts (db : Database) (modid cmdid : UInt32) : Set (UInt32 × UInt32) :=
  {host | db.Lists ⟨modid, cmdid, host.1, host.2⟩}

/-- What the DNS reads. -/
def tables (db : Database) : Tables where
  routeData := db.routeData.entries.map (·.2)
  routeVersion := db.routeVersion
  routeChange := db.routeChange

end Database

/-! ### The handlers -/

/-- The fields of a form; a number that does not parse is missing. -/
structure RouteForm where
  modid : Option UInt32
  cmdid : Option UInt32
  serverip : String
  serverport : Option UInt32

/-- The row that the form asks for, if it is filled in. -/
def RouteForm.row (form : RouteForm) : Option RouteDataRow :=
  match form.modid, form.cmdid, form.serverport with
  | some modid, some cmdid, some serverport =>
    if form.serverip = "" then none
    else some ⟨modid, cmdid, UInt32.ofNat (inetAtoN form.serverip), serverport⟩
  | _, _, _ => none

/-- The two readings of the clock, for the row of `RouteChange` and for `RouteVersion`. -/
structure Clock where
  change : UInt32
  version : UInt32
  ordered : change ≤ version

inductive Request where
  | add (form : RouteForm)
  | update (id : Option Nat) (form : RouteForm)
  | delete (id : Option Nat)

/-- `HandleAddRoute`: the statements that take effect. Only the failing of the first one ends the
handler. -/
def handleAddRoute (form : RouteForm) (clock : Clock) (succeeds : Statement → Bool) :
    List Statement :=
  match form.row with
  | none => []
  | some row =>
    if succeeds (.addRoute row) then
      .addRoute row ::
        [.insertRouteChange row.modid row.cmdid clock.change, .updateVersion clock.version].filter
          succeeds
    else []

/-- `HandleUpdate` goes on after every error. -/
def handleUpdate (id : Option Nat) (form : RouteForm) (clock : Clock)
    (succeeds : Statement → Bool) : List Statement :=
  match id, form.row with
  | some id, some row =>
    [.updateRoute id row, .insertRouteChange row.modid row.cmdid clock.change,
      .updateVersion clock.version].filter succeeds
  | _, _ => []

/-- `HandlerDelete`, which tells the DNS nothing. -/
def handlerDelete (id : Option Nat) (succeeds : Statement → Bool) : List Statement :=
  match id with
  | none => []
  | some id => [.deleteRoute id].filter succeeds

def Request.handle (clock : Clock) (succeeds : Statement → Bool) : Request → List Statement
  | .add form => handleAddRoute form clock succeeds
  | .update id form => handleUpdate id form clock succeeds
  | .delete id => handlerDelete id succeeds

/-- The statements of a run in which none fails. -/
def Request.statements (clock : Clock) (req : Request) : List Statement :=
  req.handle clock fun _ => true

/-! ### What an edit lists -/

namespace Database

variable {db : Database} {id : Nat} {row old : RouteDataRow}

theorem lists_iff_beside (found : db.routeData.lookup id = some old) :
    db.Lists row ↔ db.ListsBeside id row ∨ row = old := by
  constructor
  · rintro ⟨id', there⟩
    by_cases same : id' = id
    · rw [same, found] at there
      exact .inr (Option.some.inj there).symm
    · exact .inl ⟨id', same, there⟩
  · rintro (⟨id', -, there⟩ | rfl)
    · exact ⟨id', there⟩
    · exact ⟨id, found⟩

theorem listsBeside_iff (missing : db.routeData.lookup id = none) :
    db.ListsBeside id row ↔ db.Lists row := by
  constructor
  · rintro ⟨id', -, there⟩
    exact ⟨id', there⟩
  · rintro ⟨id', there⟩
    refine ⟨id', ?_, there⟩
    rintro rfl
    rw [missing] at there
    cases there

theorem lists_insert {map : AList fun _ : Nat => RouteDataRow} (new : RouteDataRow) :
    (∃ id', (map.insert id new).lookup id' = some row) ↔
      (∃ id', id' ≠ id ∧ map.lookup id' = some row) ∨ row = new := by
  constructor
  · rintro ⟨id', there⟩
    by_cases same : id' = id
    · rw [same, AList.lookup_insert] at there
      exact .inr (Option.some.inj there).symm
    · rw [AList.lookup_insert_ne same] at there
      exact .inl ⟨id', same, there⟩
  · rintro (⟨id', other, there⟩ | rfl)
    · exact ⟨id', by rw [AList.lookup_insert_ne other, there]⟩
    · exact ⟨id, AList.lookup_insert map⟩

theorem lists_addRoute (new : RouteDataRow) :
    (db.exec (.addRoute new)).Lists row ↔ db.Lists row ∨ row = new := by
  have free := db.fresh _ le_rfl
  exact (lists_insert new).trans (or_congr_left (listsBeside_iff free))

theorem exec_updateRoute_none (missing : db.routeData.lookup id = none) (new : RouteDataRow) :
    db.exec (.updateRoute id new) = db := by
  simp only [exec]
  split
  · rfl
  next found =>
    rw [missing] at found
    cases found

theorem lists_updateRoute (found : db.routeData.lookup id = some old) (new : RouteDataRow) :
    (db.exec (.updateRoute id new)).Lists row ↔ db.ListsBeside id row ∨ row = new := by
  simp only [exec]
  split
  next missing =>
    rw [missing] at found
    cases found
  · exact lists_insert new

theorem lists_deleteRoute : (db.exec (.deleteRoute id)).Lists row ↔ db.ListsBeside id row := by
  constructor
  · rintro ⟨id', there⟩
    change (db.routeData.erase id).lookup id' = some row at there
    by_cases same : id' = id
    · rw [same, AList.lookup_erase] at there
      cases there
    · rw [AList.lookup_erase_ne same] at there
      exact ⟨id', same, there⟩
  · rintro ⟨id', other, there⟩
    refine ⟨id', ?_⟩
    change (db.routeData.erase id).lookup id' = some row
    rw [AList.lookup_erase_ne other, there]

/-- The hosts of a module differ exactly if some row of the module is in one table only. -/
theorem hosts_ne_iff {db db' : Database} {modid cmdid : UInt32} :
    db.hosts modid cmdid ≠ db'.hosts modid cmdid ↔
      ∃ row, row.modid = modid ∧ row.cmdid = cmdid ∧ ¬ (db.Lists row ↔ db'.Lists row) := by
  rw [ne_eq, Set.ext_iff, not_forall]
  constructor
  · rintro ⟨host, differs⟩
    exact ⟨_, rfl, rfl, differs⟩
  · rintro ⟨row, rfl, rfl, differs⟩
    exact ⟨(row.serverip, row.serverport), differs⟩

/-- Every module whose hosts a run changes gets a row in `RouteChange` that is not older than the
version which the run leaves behind, and the run sets the version. -/
def Announces (db : Database) (statements : List Statement) : Prop :=
  ∀ modid cmdid, db.hosts modid cmdid ≠ (db.run statements).hosts modid cmdid →
    (∃ version, .insertRouteChange modid cmdid version ∈ statements ∧
      (db.run statements).routeVersion ≤ version) ∧
    ∃ version, .updateVersion version ∈ statements

/-- An edit that is followed by both stamps is announced if it changes only the module it names,
at one reading of the clock. -/
theorem announces_iff_stamped (db : Database) (clock : Clock) (edit : Statement)
    (data : ∀ modid cmdid version, edit ≠ .insertRouteChange modid cmdid version)
    (named : RouteDataRow) :
    db.Announces [edit, .insertRouteChange named.modid named.cmdid clock.change,
        .updateVersion clock.version] ↔
      ∀ row, ¬ (db.Lists row ↔ (db.exec edit).Lists row) →
        (row.modid = named.modid ∧ row.cmdid = named.cmdid) ∧ clock.change = clock.version := by
  -- the row is stamped first, so it is recent enough only within one second
  have latest : clock.version ≤ clock.change ↔ clock.change = clock.version :=
    ⟨fun le => UInt32.le_antisymm clock.ordered le, fun same => by rw [same]; exact UInt32.le_refl _⟩
  have chosen : ∀ modid cmdid version, Statement.insertRouteChange modid cmdid version ∈
      [edit, .insertRouteChange named.modid named.cmdid clock.change,
        .updateVersion clock.version] ↔
      modid = named.modid ∧ cmdid = named.cmdid ∧ version = clock.change := by
    intro modid cmdid version
    have other := (data modid cmdid version).symm
    simp [other]
  have lists : ∀ row, (db.run [edit, .insertRouteChange named.modid named.cmdid clock.change,
      .updateVersion clock.version]).Lists row ↔ (db.exec edit).Lists row := fun _ => Iff.rfl
  constructor
  · intro announces row differs
    obtain ⟨⟨version, inserted, recent⟩, -⟩ := announces row.modid row.cmdid
      (hosts_ne_iff.mpr ⟨row, rfl, rfl, by rwa [lists]⟩)
    obtain ⟨modid, cmdid, rfl⟩ := (chosen _ _ _).mp inserted
    exact ⟨⟨modid, cmdid⟩, latest.mp recent⟩
  · intro covered modid cmdid differs
    obtain ⟨row, rfl, rfl, one⟩ := hosts_ne_iff.mp differs
    rw [lists] at one
    obtain ⟨⟨modid, cmdid⟩, same⟩ := covered row one
    exact ⟨⟨clock.change, (chosen _ _ _).mpr ⟨modid, cmdid, rfl⟩, latest.mpr same⟩,
      clock.version, by simp⟩

/-- The edits that are announced, from the rows that the table has before. -/
def Covers (db : Database) (clock : Clock) : Request → Prop
  | .add form => ∀ row ∈ form.row, db.Lists row ∨ clock.change = clock.version
  | .update id form => ∀ i ∈ id, ∀ row ∈ form.row, ∀ old ∈ db.routeData.lookup i,
      -- the old host is still listed, or its module is the one that is named
      (db.ListsBeside i old ∨ row = old ∨ (old.modid = row.modid ∧ old.cmdid = row.cmdid)) ∧
      -- and nothing comes or goes between two readings of the clock
      (((db.ListsBeside i old ∨ row = old) ∧ db.Lists row) ∨ clock.change = clock.version)
  | .delete id => ∀ i ∈ id, ∀ old ∈ db.routeData.lookup i, db.ListsBeside i old

/-! ### Main result -/

private theorem statements_add {form : RouteForm} {row : RouteDataRow} (filled : form.row = some row)
    (clock : Clock) : (Request.add form).statements clock =
      [.addRoute row, .insertRouteChange row.modid row.cmdid clock.change,
        .updateVersion clock.version] := by
  simp [Request.statements, Request.handle, handleAddRoute, filled]

private theorem statements_update {form : RouteForm} {row : RouteDataRow}
    (filled : form.row = some row) (id : Nat) (clock : Clock) :
    (Request.update (some id) form).statements clock =
      [.updateRoute id row, .insertRouteChange row.modid row.cmdid clock.change,
        .updateVersion clock.version] := by
  simp [Request.statements, Request.handle, handleUpdate, filled]

private theorem announces_nothing (db : Database) : db.Announces [] :=
  fun _ _ differs => absurd rfl differs

private theorem announces_add_iff (db : Database) (clock : Clock) (row : RouteDataRow) :
    db.Announces [.addRoute row, .insertRouteChange row.modid row.cmdid clock.change,
      .updateVersion clock.version] ↔ db.Lists row ∨ clock.change = clock.version := by
  rw [announces_iff_stamped db clock (.addRoute row) (by simp)]
  constructor
  · intro named
    by_cases before : db.Lists row
    · exact .inl before
    · have new : ¬ (db.Lists row ↔ (db.exec (.addRoute row)).Lists row) := by
        simp [lists_addRoute, before]
      exact .inr (named row new).2
  · intro covered other differs
    rw [lists_addRoute] at differs
    have same : other = row := by
      by_contra another
      simp [another] at differs
    subst same
    refine ⟨⟨rfl, rfl⟩, covered.resolve_left fun before => ?_⟩
    simp [before] at differs

private theorem announces_update_iff (db : Database) (clock : Clock) {id : Nat}
    {old : RouteDataRow} (found : db.routeData.lookup id = some old) (row : RouteDataRow) :
    db.Announces [.updateRoute id row, .insertRouteChange row.modid row.cmdid clock.change,
      .updateVersion clock.version] ↔
      (db.ListsBeside id old ∨ row = old ∨ (old.modid = row.modid ∧ old.cmdid = row.cmdid)) ∧
      (((db.ListsBeside id old ∨ row = old) ∧ db.Lists row) ∨ clock.change = clock.version) := by
  rw [announces_iff_stamped db clock (.updateRoute id row) (by simp)]
  simp only [lists_iff_beside found, lists_updateRoute found]
  constructor
  · intro named
    -- the row that goes and the row that comes are the only ones to look at
    have gone := named old
    have come := named row
    simp only [or_true, true_iff, iff_true] at gone come
    constructor
    · by_cases kept : db.ListsBeside id old ∨ old = row
      · exact kept.imp_right fun same => .inl same.symm
      · exact .inr (.inr (gone kept).1)
    · by_cases kept : db.ListsBeside id old ∨ old = row
      · by_cases listed : db.ListsBeside id row ∨ row = old
        · exact .inl ⟨kept.imp_right Eq.symm, listed⟩
        · exact .inr (come listed).2
      · exact .inr (gone kept).2
  · rintro ⟨stays, stamped⟩ other differs
    have either : other = old ∨ other = row := by
      by_contra neither
      exact differs (by simp [not_or.mp neither])
    rcases either with rfl | rfl
    · -- the row that goes: nothing else keeps its host
      obtain ⟨alone, changes⟩ : ¬ db.ListsBeside id other ∧ ¬ other = row := by simpa using differs
      refine ⟨(stays.resolve_left alone).resolve_left (Ne.symm changes), ?_⟩
      exact stamped.resolve_left fun kept => kept.1.elim alone (Ne.symm changes)
    · -- the row that comes: its host was not there before
      have new : ¬ (db.ListsBeside id other ∨ other = old) := by simpa using differs
      exact ⟨⟨rfl, rfl⟩, stamped.resolve_left fun kept => new kept.2⟩

private theorem announces_delete_iff (db : Database) {id : Nat} {old : RouteDataRow}
    (found : db.routeData.lookup id = some old) :
    db.Announces [.deleteRoute id] ↔ db.ListsBeside id old := by
  constructor
  · intro announces
    by_contra gone
    have differs : ¬ (db.Lists old ↔ (db.run [.deleteRoute id]).Lists old) := by
      change ¬ (_ ↔ (db.exec (.deleteRoute id)).Lists old)
      rw [lists_iff_beside found, lists_deleteRoute]
      simp [gone]
    obtain ⟨⟨version, inserted, -⟩, -⟩ := announces old.modid old.cmdid
      (hosts_ne_iff.mpr ⟨old, rfl, rfl, differs⟩)
    simp at inserted
  · intro beside modid cmdid differs
    obtain ⟨row, -, -, one⟩ := hosts_ne_iff.mp differs
    change ¬ (_ ↔ (db.exec (.deleteRoute id)).Lists row) at one
    rw [lists_iff_beside found, lists_deleteRoute] at one
    have same : row = old := by
      by_contra other
      exact one (by simp [other])
    subst same
    simp [beside] at one

/-- A run of a handler in which no statement fails announces what it changes exactly when the
edit is a covered one. -/
theorem announces_iff_covers (db : Database) (clock : Clock) (req : Request) :
    db.Announces (req.statements clock) ↔ db.Covers clock req := by
  cases req with
  | add form =>
    cases filled : form.row with
    | none =>
      simp [Request.statements, Request.handle, handleAddRoute, filled, announces_nothing, Covers]
    | some row =>
      rw [statements_add filled]
      simpa [Covers, filled] using announces_add_iff db clock row
  | update id form =>
    cases id with
    | none => simp [Request.statements, Request.handle, handleUpdate, announces_nothing, Covers]
    | some id =>
      cases filled : form.row with
      | none =>
        simp [Request.statements, Request.handle, handleUpdate, filled, announces_nothing, Covers]
      | some row =>
        rw [statements_update filled]
        cases found : db.routeData.lookup id with
        | none =>
          -- no such row: both stamps are written, and nothing has changed
          have same : db.exec (.updateRoute id row) = db := exec_updateRoute_none found row
          have announced := announces_iff_stamped db clock (.updateRoute id row) (by simp) row
          simpa [Covers, filled, same, found] using announced
        | some old => simpa [Covers, filled, found] using announces_update_iff db clock found row
  | delete id =>
    simp only [Request.statements, Request.handle, handlerDelete, Covers]
    cases id with
    | none => simp [announces_nothing]
    | some id =>
      cases found : db.routeData.lookup id with
      | none =>
        have announced : db.Announces [.deleteRoute id] := by
          intro modid cmdid differs
          obtain ⟨row, -, -, one⟩ := hosts_ne_iff.mp differs
          change ¬ (_ ↔ (db.exec (.deleteRoute id)).Lists row) at one
          rw [lists_deleteRoute] at one
          exact absurd (listsBeside_iff found).symm one
        simpa [found] using announced
      | some old => simpa [found] using announces_delete_iff db found

/-- Rows of `RouteChange` are only ever added. -/
private theorem exec_routeChange (db : Database) (statement : Statement) :
    db.routeChange ⊆ (db.exec statement).routeChange := by
  cases statement with
  | insertRouteChange modid cmdid version => exact List.subset_append_left _ _
  | updateRoute id row =>
    simp only [exec]
    split <;> exact List.Subset.refl _
  | addRoute | deleteRoute | updateVersion => exact List.Subset.refl _

theorem run_routeChange (db : Database) (statements : List Statement) :
    db.routeChange ⊆ (db.run statements).routeChange := by
  induction statements generalizing db with
  | nil => exact List.Subset.refl _
  | cons statement statements ih =>
    exact List.Subset.trans (exec_routeChange db statement) (ih (db.exec statement))

theorem mem_routeChange_run {db : Database} {statements : List Statement}
    {modid cmdid version : UInt32}
    (inserted : .insertRouteChange modid cmdid version ∈ statements) :
    ⟨modid, cmdid, version⟩ ∈ (db.run statements).routeChange := by
  induction statements generalizing db with
  | nil => cases inserted
  | cons statement statements ih =>
    rcases List.mem_cons.mp inserted with rfl | later
    · apply run_routeChange (db.exec _) statements
      simp [exec]
    · exact ih later

/-- What is announced is loaded: `load_changes` after the new version gives every module whose
hosts the run has changed. -/
theorem Announces.loaded {db : Database} {statements : List Statement}
    (announces : db.Announces statements) {route : Route}
    (remembered : route.version = (Dns.atoi (db.run statements).routeVersion).toInt)
    {modid cmdid : UInt32}
    (changed : db.hosts modid cmdid ≠ (db.run statements).hosts modid cmdid) :
    Dns.moduleKey modid cmdid ∈ route.loadChanges (db.run statements).tables := by
  obtain ⟨⟨version, inserted, recent⟩, -⟩ := announces modid cmdid changed
  have here : ⟨modid, cmdid, version⟩ ∈ (db.run statements).routeChange :=
    mem_routeChange_run inserted
  apply List.mem_map.mpr
  refine ⟨⟨modid, cmdid, version⟩, List.mem_filter.mpr ⟨here, ?_⟩, rfl⟩
  have le := Dns.atoi_le (db.run statements).routeVersion
  have recent' : (db.run statements).routeVersion.toNat ≤ version.toNat := recent
  rw [decide_eq_true_eq, remembered]
  dsimp only
  omega

/-! ### Edits that are missed -/

/-- One host, 10:80, for module 1, command 1. -/
private def oneHost : Database where
  routeData := (∅ : AList fun _ : Nat => RouteDataRow).insert 1 ⟨1, 1, 10, 80⟩
  nextId := 2
  fresh := by
    intro id above
    rw [AList.lookup_insert_ne (by omega)]
    rfl
  routeVersion := 0
  routeChange := []

private def moved : RouteForm := ⟨some 2, some 1, "0.0.0.10", some 80⟩

/-- Nothing is announced when the host is deleted; the module it was in is not announced when it
is moved to module 2; and a host added across a change of the second has a row that is older than
the version. -/
theorem edits_missed :
    ¬ oneHost.Announces (Request.statements ⟨7, 7, by decide⟩ (.delete (some 1))) ∧
    ¬ oneHost.Announces (Request.statements ⟨7, 7, by decide⟩ (.update (some 1) moved)) ∧
    ¬ oneHost.Announces (Request.statements ⟨7, 8, by decide⟩ (.add moved)) := by
  have found : oneHost.routeData.lookup 1 = some ⟨1, 1, 10, 80⟩ := by decide
  have alone : ∀ row, ¬ oneHost.ListsBeside 1 row := by
    rintro row ⟨id, other, there⟩
    change AList.lookup id (AList.insert 1 _ _) = _ at there
    rw [AList.lookup_insert_ne other] at there
    cases there
  have row : moved.row = some ⟨2, 1, 10, 80⟩ := by decide
  refine ⟨fun announces => ?_, fun announces => ?_, fun announces => ?_⟩
  · exact alone _ ((announces_delete_iff oneHost found).mp announces)
  · rw [statements_update row] at announces
    have kept := ((announces_update_iff oneHost ⟨7, 7, by decide⟩ found _).mp announces).1
    exact absurd (kept.resolve_left (alone _)) (by decide)
  · rw [statements_add row] at announces
    rcases (announces_add_iff oneHost ⟨7, 8, by decide⟩ _).mp announces with listed | same
    · exact absurd ((lists_iff_beside found).mp listed) (by simp [alone])
    · exact absurd same (by decide)

end Database

end Lars.Web
