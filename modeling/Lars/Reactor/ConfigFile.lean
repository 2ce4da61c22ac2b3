import Lars.Base
import Lars.Lib.Run
import Lars.Lib.Text

/-!
# Configuration files

`config_file` reads an INI text line by line into a map of sections. While it
reads, `m` points to the map of the section whose header came last, and is NULL
before the first header. `Assigns`, `Under` and `Sets` say what a text means
without the loop; the invariant `Loaded` is that the lines read so far mean
what has been stored.
-/
namespace Lars.Reactor

/-- A `std::string`. The bytes from 128 on are characters like any other that `isspace` refuses. -/
abbrev Str := List Char

/-- `isspace` in the "C" locale: blank, tab, newline, vertical tab, form feed, return. -/
def isspace (c : Char) : Bool := c = ' ' || (9 ≤ c.toNat && c.toNat ≤ 13)

def trimLeft (s : Str) : Str := s.drop (s.findIdx (!isspace ·))

/-- The loop walks from the end. -/
def trimRight (s : Str) : Str := s.take (s.length - s.reverse.findIdx (!isspace ·))

def trim (s : Str) : Str := trimLeft (trimRight s)

/-- The name in a header line. -/
def isSection (line : Str) : Option Str :=
  let sec := trim line
  if sec = [] ∨ sec.length ≤ 2 then none
  else if sec.head? ≠ some '[' ∨ sec.getLast? ≠ some ']' then none
  else some (trim ((sec.drop 1).take (sec.length - 2)))

/-- `_map`: each section with its own map of keys. -/
structure ConfigFile where
  map : Str → Option (Str → Option Str)

namespace ConfigFile

def new : ConfigFile := ⟨fun _ => none⟩

def getString (file : ConfigFile) (sec key default : Str) : Str :=
  match file.map sec with
  | some m => (m key).getD default
  | none => default

/-- The header branch of `Load`: a section that is not there yet gets an empty map. -/
def openSection (file : ConfigFile) (sec : Str) : ConfigFile :=
  match file.map sec with
  | none => ⟨Function.update file.map sec (some fun _ => none)⟩
  | some _ => file

/-- The assignment `(*m)[key] = value`, where `m` is the map of `sec`. -/
def assign (file : ConfigFile) (sec key value : Str) : ConfigFile :=
  ⟨Function.update file.map sec
    ((file.map sec).map fun m => Function.update m key (some value))⟩

end ConfigFile

/-- The variables of the loop in `Load`. `m` is the section whose map the pointer is at. -/
structure Loading where
  file : ConfigFile
  m : Option Str

/-- One round of the loop in `Load`. -/
def loadLine (st : Loading) (line : Str) : Except Fault Loading :=
  match isSection line with
  | some sec => .ok ⟨st.file.openSection sec, some sec⟩
  | none =>
    match line.findIdx? (· = '=') with
    | none => .ok st
    | some equPos =>
      let key := trim (line.take equPos)
      let value := trim (line.drop (equPos + 1))
      if key = [] then .ok st
      else if key.head? = some '#' ∨ key.head? = some ';' then .ok st
      else
        match st.m with
        | none => .error .nullDeref
        | some sec => .ok { st with file := st.file.assign sec key value }

/-- The line `getline` reads and what it leaves, `none` once it has met the end of the file. -/
def getline : Str → Str × Option Str
  | [] => ([], none)
  | c :: rest =>
    if c = '\n' then ([], some rest)
    else (c :: (getline rest).1, (getline rest).2)

/-- What a stream has left to read; the end of the file counts as one more round. -/
def unread (stream : Option Str) : Nat := stream.elim 0 (·.length + 1)

theorem getline_shorter (text : Str) : unread (getline text).2 < unread (some text) := by
  induction text with
  | nil => exact Nat.zero_lt_one
  | cons c text ih =>
    simp only [getline]
    split
    · exact Nat.lt_succ_self _
    · exact Nat.lt_succ_of_lt ih

/-- The loop of `Load`; the stream is `none` when `eof` is set. -/
def loadLoop (st : Loading) : Option Str → Except Fault Loading
  | none => .ok st
  | some text =>
    match loadLine st (getline text).1 with
    | .error e => .error e
    | .ok next => loadLoop next (getline text).2
termination_by stream => unread stream
decreasing_by exact getline_shorter text

/-- `Load` on the content of the file, `none` where it does not open. -/
def ConfigFile.load (file : ConfigFile) : Option Str → Except Fault (Bool × ConfigFile)
  | none => .ok (false, file)
  | some text => (loadLoop ⟨file, none⟩ (some text)).map fun st => (true, st.file)

/-! ### What a line says -/

theorem trim_eq_iff {s t : Str} : trim s = t ↔ Text.Trimmed isspace s t := by
  have left (s : Str) : trimLeft s = s.dropWhile isspace := by
    rw [trimLeft, List.dropWhile_eq_drop_findIdx_not]
  have right (s : Str) : trimRight s = s.rdropWhile isspace := by
    rw [trimRight, List.rdropWhile, List.dropWhile_eq_drop_findIdx_not, List.reverse_drop,
      List.reverse_reverse, List.length_reverse]
  rw [trim, right, left, Text.trimmed_iff]

/-- Trimmed, the line is something in brackets, and `sec` is that something trimmed. -/
def Header (line sec : Str) : Prop :=
  ∃ inner, inner ≠ [] ∧ Text.Trimmed isspace line ('[' :: inner ++ [']']) ∧
    Text.Trimmed isspace inner sec

/-- The line is no header, and what stands before and after its first `=` is `key` and `value`
with blanks around them; an empty key and one that marks a comment assign nothing. -/
def Assigns (line key value : Str) : Prop :=
  (∀ sec, ¬Header line sec) ∧
    ∃ left right, line = left ++ '=' :: right ∧ '=' ∉ left ∧
      Text.Trimmed isspace left key ∧ Text.Trimmed isspace right value ∧
      key ≠ [] ∧ key.head? ≠ some '#' ∧ key.head? ≠ some ';'

theorem bracketed {sec : Str} (long : ¬sec.length ≤ 2) (first : sec.head? = some '[')
    (last : sec.getLast? = some ']') :
    sec = '[' :: (sec.drop 1).take (sec.length - 2) ++ [']'] := by
  cases sec with
  | nil => cases first
  | cons c rest =>
    cases first
    induction rest using List.reverseRecOn with
    | nil => exact absurd (by decide) long
    | append_singleton rest d _ =>
      rw [← List.cons_append, List.getLast?_concat] at last
      cases last
      simp

theorem isSection_eq_some {line sec : Str} : isSection line = some sec ↔ Header line sec := by
  simp only [isSection]
  constructor
  · intro found
    split at found
    · cases found
    next long =>
      split at found
      · cases found
      next brackets =>
        simp only [ne_eq, not_or, not_not] at long brackets
        cases found
        have shape := bracketed long.2 brackets.1 brackets.2
        refine ⟨_, ?_, trim_eq_iff.mp shape, trim_eq_iff.mp rfl⟩
        intro empty
        rw [empty] at shape
        exact long.2 (by rw [shape]; decide)
  · rintro ⟨inner, nonempty, outside, inside⟩
    have positive := List.length_pos_iff.mpr nonempty
    have last : ('[' :: inner ++ [']']).getLast? = some ']' := List.getLast?_concat
    rw [trim_eq_iff.mpr outside, if_neg, if_neg]
    · simp [trim_eq_iff.mpr inside]
    · rw [last]
      simp
    · simp
      omega

theorem isSection_eq_none {line : Str} : isSection line = none ↔ ∀ sec, ¬Header line sec := by
  rw [Option.eq_none_iff_forall_ne_some]
  exact forall_congr' fun sec => not_congr isSection_eq_some

/-- `find('=')` cuts the line at its first `=`. -/
theorem find_equals {line : Str} {n : Nat} :
    line.findIdx? (· = '=') = some n ↔
      line = line.take n ++ '=' :: line.drop (n + 1) ∧ '=' ∉ line.take n ∧ n < line.length := by
  rw [List.findIdx?_eq_some_iff_getElem]
  constructor
  · rintro ⟨inside, equals, before⟩
    refine ⟨?_, ?_, inside⟩
    · have cut := List.take_append_drop n line
      rw [List.drop_eq_getElem_cons inside, of_decide_eq_true equals] at cut
      exact cut.symm
    · intro member
      obtain ⟨i, bound, found⟩ := List.mem_take_iff_getElem.mp member
      exact before i (by omega) (decide_eq_true found)
  · rintro ⟨cut, before, inside⟩
    refine ⟨inside, ?_, ?_⟩
    · have here := List.take_append_drop n line
      rw [List.drop_eq_getElem_cons inside] at here
      have same := List.append_cancel_left (here.trans cut)
      exact decide_eq_true (List.cons.inj same).1
    · intro i earlier equals
      apply before
      rw [← of_decide_eq_true equals]
      exact List.mem_take_iff_getElem.mpr ⟨i, by omega, rfl⟩

theorem loadLine_header {st : Loading} {line sec : Str} (header : Header line sec) :
    loadLine st line = .ok ⟨st.file.openSection sec, some sec⟩ := by
  simp only [loadLine, isSection_eq_some.mpr header]

theorem loadLine_assigns {st : Loading} {line key value : Str} (assigns : Assigns line key value) :
    loadLine st line =
      match st.m with
      | none => .error .nullDeref
      | some sec => .ok { st with file := st.file.assign sec key value } := by
  obtain ⟨noHeader, left, right, rfl, before, keyTrimmed, valueTrimmed, nonempty, hash, semicolon⟩ :=
    assigns
  have equals : (left ++ '=' :: right).findIdx? (· = '=') = some left.length := by
    apply find_equals.mpr
    simp [before]
  have after : (left ++ '=' :: right).drop (left.length + 1) = right := by
    rw [← List.drop_drop, List.drop_left, List.drop_one, List.tail_cons]
  simp only [loadLine, isSection_eq_none.mpr noHeader, equals, List.take_left, after,
    trim_eq_iff.mpr keyTrimmed, trim_eq_iff.mpr valueTrimmed, if_neg nonempty, hash, semicolon,
    or_self, if_false]

theorem loadLine_other {st : Loading} {line : Str} (noHeader : ∀ sec, ¬Header line sec)
    (noAssign : ∀ key value, ¬Assigns line key value) : loadLine st line = .ok st := by
  simp only [loadLine, isSection_eq_none.mpr noHeader]
  cases equals : line.findIdx? (· = '=') with
  | none => rfl
  | some n =>
    obtain ⟨cut, before, -⟩ := find_equals.mp equals
    dsimp only
    split
    · rfl
    next nonempty =>
      split
      · rfl
      next marked =>
        -- a key that is neither empty nor a comment mark would be assigned
        rw [not_or] at marked
        exact absurd ⟨noHeader, _, _, cut, before, trim_eq_iff.mp rfl, trim_eq_iff.mp rfl,
          nonempty, marked.1, marked.2⟩ (noAssign _ _)

theorem Header.unique {line sec sec' : Str} (header : Header line sec) (header' : Header line sec') :
    sec = sec' :=
  Option.some.inj ((isSection_eq_some.mpr header).symm.trans (isSection_eq_some.mpr header'))

theorem cut_unique {left right left' right' : Str} (before : '=' ∉ left) (before' : '=' ∉ left')
    (same : left ++ '=' :: right = left' ++ '=' :: right') : left = left' ∧ right = right' := by
  induction left generalizing left' with
  | nil =>
    cases left' with
    | nil => exact ⟨rfl, (List.cons.inj same).2⟩
    | cons c left' => exact absurd (by rw [(List.cons.inj same).1]; exact List.mem_cons_self) before'
  | cons c left ih =>
    cases left' with
    | nil => exact absurd (by rw [(List.cons.inj same).1]; exact List.mem_cons_self) before
    | cons d left' =>
      obtain ⟨rfl, tails⟩ := List.cons.inj same
      obtain ⟨rfl, rfl⟩ := ih (fun member => before (List.mem_cons_of_mem c member))
        (fun member => before' (List.mem_cons_of_mem c member)) tails
      exact ⟨rfl, rfl⟩

theorem Assigns.unique {line key value key' value' : Str} (assigns : Assigns line key value)
    (assigns' : Assigns line key' value') : key = key' ∧ value = value' := by
  obtain ⟨-, left, right, rfl, before, keyTrimmed, valueTrimmed, -⟩ := assigns
  obtain ⟨-, left', right', same, before', keyTrimmed', valueTrimmed', -⟩ := assigns'
  obtain ⟨rfl, rfl⟩ := cut_unique before before' same
  constructor
  · exact (trim_eq_iff.mpr keyTrimmed).symm.trans (trim_eq_iff.mpr keyTrimmed')
  · exact (trim_eq_iff.mpr valueTrimmed).symm.trans (trim_eq_iff.mpr valueTrimmed')

/-! ### What a text says -/

/-- The last header above line `i` names `sec`. -/
def Under (lines : List Str) (i : Nat) (sec : Str) : Prop :=
  ∃ (j : Nat) (header : Str), j < i ∧ lines[j]? = some header ∧ Header header sec ∧
    ∀ (k : Nat) (line name : Str), j < k → k < i → lines[k]? = some line → ¬Header line name

/-- Line `i` assigns `value` to `key` in the section `sec`. -/
def Sets (lines : List Str) (sec key : Str) (i : Nat) (value : Str) : Prop :=
  ∃ line, lines[i]? = some line ∧ Assigns line key value ∧ Under lines i sec

/-- Every assignment stands below a header. -/
def Headed (lines : List Str) : Prop :=
  ∀ (i : Nat) (line key value : Str), lines[i]? = some line → Assigns line key value →
    ∃ (j : Nat) (header sec : Str), j < i ∧ lines[j]? = some header ∧ Header header sec

theorem getElem?_snoc {lines : List Str} {line other : Str} {i : Nat} :
    (lines ++ [line])[i]? = some other ↔
      lines[i]? = some other ∨ i = lines.length ∧ line = other := by
  rcases Nat.lt_trichotomy i lines.length with inside | rfl | outside
  · rw [List.getElem?_append_left inside]
    simp [Nat.ne_of_lt inside]
  · simp
  · rw [List.getElem?_eq_none (by simp; omega), List.getElem?_eq_none (by omega)]
    simp [Nat.ne_of_gt outside]

theorem under_snoc {lines : List Str} {line sec : Str} {i : Nat} (old : i ≤ lines.length) :
    Under (lines ++ [line]) i sec ↔ Under lines i sec := by
  -- the new line stands below everything that counts for line `i`
  have same (j : Nat) (other : Str) (above : j < i) :
      (lines ++ [line])[j]? = some other ↔ lines[j]? = some other := by
    rw [List.getElem?_append_left (by omega)]
  constructor
  · rintro ⟨j, header, above, found, names, none⟩
    refine ⟨j, header, above, (same j header above).mp found, names, ?_⟩
    intro k other name after before there
    exact none k other name after before ((same k other before).mpr there)
  · rintro ⟨j, header, above, found, names, none⟩
    refine ⟨j, header, above, (same j header above).mpr found, names, ?_⟩
    intro k other name after before there
    exact none k other name after before ((same k other before).mp there)

/-- The section in force after one more line. -/
theorem under_next {lines : List Str} {line sec : Str} :
    Under (lines ++ [line]) (lines.length + 1) sec ↔
      Header line sec ∨ (∀ name, ¬Header line name) ∧ Under lines lines.length sec := by
  constructor
  · rintro ⟨j, header, above, found, names, none⟩
    rcases getElem?_snoc.mp found with old | ⟨rfl, rfl⟩
    · right
      have inside : j < lines.length := (List.getElem?_eq_some_iff.mp old).1
      constructor
      · intro name
        exact none lines.length line name inside (Nat.lt_succ_self _) (by simp)
      · refine ⟨j, header, inside, old, names, ?_⟩
        intro k other name after before there
        exact none k other name after (by omega) (getElem?_snoc.mpr (.inl there))
    · exact .inl names
  · rintro (names | ⟨noHeader, j, header, above, found, names, none⟩)
    · exact ⟨lines.length, line, Nat.lt_succ_self _, by simp, names, by intros; omega⟩
    · refine ⟨j, header, by omega, getElem?_snoc.mpr (.inl found), names, ?_⟩
      intro k other name after before there
      rcases getElem?_snoc.mp there with old | ⟨rfl, rfl⟩
      · exact none k other name after (List.getElem?_eq_some_iff.mp old).1 old
      · exact noHeader name

theorem sets_snoc {lines : List Str} {line sec key value : Str} {i : Nat} :
    Sets (lines ++ [line]) sec key i value ↔
      Sets lines sec key i value ∨
        i = lines.length ∧ Assigns line key value ∧ Under lines lines.length sec := by
  constructor
  · rintro ⟨other, found, assigns, under⟩
    rcases getElem?_snoc.mp found with old | ⟨rfl, rfl⟩
    · have inside := (List.getElem?_eq_some_iff.mp old).1
      exact .inl ⟨other, old, assigns, (under_snoc (Nat.le_of_lt inside)).mp under⟩
    · exact .inr ⟨rfl, assigns, (under_snoc (Nat.le_refl _)).mp under⟩
  · rintro (⟨other, old, assigns, under⟩ | ⟨rfl, assigns, under⟩)
    · have inside := (List.getElem?_eq_some_iff.mp old).1
      exact ⟨other, getElem?_snoc.mpr (.inl old), assigns,
        (under_snoc (Nat.le_of_lt inside)).mpr under⟩
    · exact ⟨line, getElem?_snoc.mpr (.inr ⟨rfl, rfl⟩), assigns,
        (under_snoc (Nat.le_refl _)).mpr under⟩

/-- What the last line to assign `key` under `sec` assigns. -/
def LastSet (lines : List Str) (sec key value : Str) : Prop :=
  ∃ i, Sets lines sec key i value ∧ ∀ j other, Sets lines sec key j other → j ≤ i

theorem Sets.inside {lines : List Str} {sec key value : Str} {i : Nat}
    (sets : Sets lines sec key i value) : i < lines.length := by
  obtain ⟨line, found, -⟩ := sets
  exact (List.getElem?_eq_some_iff.mp found).1

/-! ### The lines read so far -/

namespace ConfigFile

/-- What is stored under a section and a key. -/
def value (file : ConfigFile) (sec key : Str) : Option Str := (file.map sec).bind (· key)

theorem getString_eq (file : ConfigFile) (sec key default : Str) :
    file.getString sec key default = (file.value sec key).getD default := by
  simp only [getString, value]
  cases file.map sec <;> rfl

@[simp] theorem value_openSection (file : ConfigFile) (sec sec' key : Str) :
    (file.openSection sec).value sec' key = file.value sec' key := by
  simp only [openSection]
  split
  next absent =>
    by_cases same : sec' = sec
    · subst same
      simp [value, absent]
    · simp [value, same]
  · rfl

theorem openSection_isSome (file : ConfigFile) (sec : Str) :
    ((file.openSection sec).map sec).isSome := by
  simp only [openSection]
  split
  · simp
  next m found => simp [found]

theorem value_assign {file : ConfigFile} {sec : Str} (opened : (file.map sec).isSome)
    (key value sec' key' : Str) :
    (file.assign sec key value).value sec' key' =
      if sec' = sec ∧ key' = key then some value else file.value sec' key' := by
  obtain ⟨m, found⟩ := Option.isSome_iff_exists.mp opened
  by_cases sameSec : sec' = sec
  · subst sameSec
    by_cases sameKey : key' = key <;> simp [assign, ConfigFile.value, found, sameKey]
  · simp [assign, ConfigFile.value, sameSec]

theorem assign_isSome {file : ConfigFile} {sec : Str} (opened : (file.map sec).isSome)
    (key value : Str) : ((file.assign sec key value).map sec).isSome := by
  simpa [assign] using opened

end ConfigFile

/-- The state of the loop after `lines` is what these lines say. -/
structure Loaded (lines : List Str) (st : Loading) : Prop where
  current : ∀ sec, st.m = some sec ↔ Under lines lines.length sec
  unheaded : st.m = none → ∀ header ∈ lines, ∀ sec, ¬Header header sec
  opened : ∀ sec, st.m = some sec → (st.file.map sec).isSome
  stored : ∀ sec key value, LastSet lines sec key value → st.file.value sec key = some value
  missing : ∀ sec key, (∀ i value, ¬Sets lines sec key i value) → st.file.value sec key = none

theorem loaded_nil : Loaded [] ⟨ConfigFile.new, none⟩ where
  current sec := by
    constructor
    · intro set
      cases set
    · rintro ⟨j, header, above, -⟩
      exact absurd above (Nat.not_lt_zero j)
  unheaded _ header member := by cases member
  opened sec set := by cases set
  stored sec key value last := by
    obtain ⟨i, sets, -⟩ := last
    exact absurd sets.inside (Nat.not_lt_zero i)
  missing sec key _ := rfl

/-- A line that assigns nothing leaves what the lines above it set. -/
theorem sets_snoc_idle {lines : List Str} {line : Str}
    (noAssign : ∀ key value, ¬Assigns line key value) {sec key value : Str} {i : Nat} :
    Sets (lines ++ [line]) sec key i value ↔ Sets lines sec key i value := by
  rw [sets_snoc]
  exact or_iff_left fun new => noAssign key value new.2.1

theorem lastSet_snoc_idle {lines : List Str} {line : Str}
    (noAssign : ∀ key value, ¬Assigns line key value) {sec key value : Str} :
    LastSet (lines ++ [line]) sec key value ↔ LastSet lines sec key value := by
  simp only [LastSet, sets_snoc_idle noAssign]

variable {lines : List Str} {line : Str} {st : Loading}

theorem Loaded.header (loaded : Loaded lines st) {sec : Str} (header : Header line sec) :
    Loaded (lines ++ [line]) ⟨st.file.openSection sec, some sec⟩ := by
  have noAssign : ∀ key value, ¬Assigns line key value := fun _ _ assigns => assigns.1 sec header
  constructor
  case current =>
    intro sec'
    rw [List.length_append, List.length_singleton, under_next]
    constructor
    · intro set
      cases set
      exact .inl header
    · rintro (header' | ⟨noHeader, -⟩)
      · rw [header.unique header']
      · exact absurd header (noHeader sec)
  case unheaded => exact fun absent => by cases absent
  case opened =>
    intro sec' set
    cases set
    exact st.file.openSection_isSome sec
  case stored =>
    intro sec' key value last
    rw [ConfigFile.value_openSection]
    exact loaded.stored sec' key value ((lastSet_snoc_idle noAssign).mp last)
  case missing =>
    intro sec' key never
    rw [ConfigFile.value_openSection]
    apply loaded.missing
    intro i value sets
    exact never i value ((sets_snoc_idle noAssign).mpr sets)

/-- The section in force stays the one it was. -/
theorem Loaded.current_snoc (loaded : Loaded lines st) (noHeader : ∀ sec, ¬Header line sec)
    (sec : Str) : st.m = some sec ↔ Under (lines ++ [line]) (lines ++ [line]).length sec := by
  rw [List.length_append, List.length_singleton, under_next, loaded.current sec]
  exact ⟨fun under => .inr ⟨noHeader, under⟩, fun either => either.elim
    (fun header => absurd header (noHeader sec)) (fun both => both.2)⟩

theorem Loaded.unheaded_snoc (loaded : Loaded lines st) (noHeader : ∀ sec, ¬Header line sec)
    (absent : st.m = none) : ∀ header ∈ lines ++ [line], ∀ sec, ¬Header header sec := by
  intro header member
  rcases List.mem_append.mp member with old | new
  · exact loaded.unheaded absent header old
  · rw [List.mem_singleton.mp new]
    exact noHeader

theorem Loaded.other (loaded : Loaded lines st) (noHeader : ∀ sec, ¬Header line sec)
    (noAssign : ∀ key value, ¬Assigns line key value) : Loaded (lines ++ [line]) st where
  current := loaded.current_snoc noHeader
  unheaded := loaded.unheaded_snoc noHeader
  opened := loaded.opened
  stored sec key value last :=
    loaded.stored sec key value ((lastSet_snoc_idle noAssign).mp last)
  missing sec key never :=
    loaded.missing sec key fun i value sets => never i value ((sets_snoc_idle noAssign).mpr sets)

theorem Loaded.assigns (loaded : Loaded lines st) {sec key value : Str} (inForce : st.m = some sec)
    (assigns : Assigns line key value) :
    Loaded (lines ++ [line]) { st with file := st.file.assign sec key value } := by
  have opened := loaded.opened sec inForce
  have under := (loaded.current sec).mp inForce
  -- the new line sets this key in this section and nothing else
  have new {sec' key' value' : Str} {i : Nat} :
      Sets (lines ++ [line]) sec' key' i value' ↔ Sets lines sec' key' i value' ∨
        i = lines.length ∧ sec' = sec ∧ key' = key ∧ value' = value := by
    rw [sets_snoc]
    apply or_congr_right
    constructor
    · rintro ⟨rfl, assigns', under'⟩
      have same := (loaded.current sec').mpr under'
      rw [inForce] at same
      obtain ⟨rfl, rfl⟩ := assigns.unique assigns'
      exact ⟨rfl, (Option.some.inj same).symm, rfl, rfl⟩
    · rintro ⟨rfl, rfl, rfl, rfl⟩
      exact ⟨rfl, assigns, under⟩
  constructor
  case current => exact loaded.current_snoc assigns.1
  case unheaded => exact loaded.unheaded_snoc assigns.1
  case opened =>
    intro sec' set
    cases inForce.symm.trans set
    exact ConfigFile.assign_isSome opened key value
  case stored =>
    rintro sec' key' value' ⟨i, sets, latest⟩
    rw [ConfigFile.value_assign opened]
    rcases new.mp sets with old | ⟨-, rfl, rfl, rfl⟩
    · split
      next target =>
        -- then the new line sets the key as well, below the last line to do so
        have below := latest lines.length value (new.mpr (.inr ⟨rfl, target.1, target.2, rfl⟩))
        exact absurd old.inside (by omega)
      next =>
        apply loaded.stored sec' key' value'
        exact ⟨i, old, fun j other sets' => latest j other (new.mpr (.inl sets'))⟩
    · rw [if_pos ⟨rfl, rfl⟩]
  case missing =>
    intro sec' key' never
    rw [ConfigFile.value_assign opened, if_neg]
    · exact loaded.missing sec' key' fun i value' sets => never i value' (new.mpr (.inl sets))
    · rintro ⟨rfl, rfl⟩
      exact never lines.length value (new.mpr (.inr ⟨rfl, rfl, rfl, rfl⟩))

theorem headed_snoc : Headed (lines ++ [line]) ↔ Headed lines ∧
    ((∃ key value, Assigns line key value) → ∃ header ∈ lines, ∃ sec, Header header sec) := by
  constructor
  · intro headed
    constructor
    · intro i other key value found assigns
      have inside := (List.getElem?_eq_some_iff.mp found).1
      obtain ⟨j, header, sec, above, there, names⟩ :=
        headed i other key value (getElem?_snoc.mpr (.inl found)) assigns
      rw [List.getElem?_append_left (by omega)] at there
      exact ⟨j, header, sec, above, there, names⟩
    · rintro ⟨key, value, assigns⟩
      obtain ⟨j, header, sec, above, there, names⟩ :=
        headed lines.length line key value (getElem?_snoc.mpr (.inr ⟨rfl, rfl⟩)) assigns
      rw [List.getElem?_append_left above] at there
      exact ⟨header, List.mem_of_getElem? there, sec, names⟩
  · rintro ⟨old, new⟩ i other key value found assigns
    rcases getElem?_snoc.mp found with before | ⟨rfl, rfl⟩
    · obtain ⟨j, header, sec, above, there, names⟩ := old i other key value before assigns
      exact ⟨j, header, sec, above, getElem?_snoc.mpr (.inl there), names⟩
    · obtain ⟨header, member, sec, names⟩ := new ⟨key, value, assigns⟩
      obtain ⟨j, there⟩ := List.getElem?_of_mem member
      exact ⟨j, header, sec, (List.getElem?_eq_some_iff.mp there).1,
        getElem?_snoc.mpr (.inl there), names⟩

/-- One more line: the loop goes on, or the line assigns a key and there was no header. -/
theorem Loaded.next (loaded : Loaded lines st) (line : Str) :
    (∃ next, loadLine st line = .ok next ∧ Loaded (lines ++ [line]) next ∧
      ((∃ key value, Assigns line key value) → ∃ header ∈ lines, ∃ sec, Header header sec)) ∨
    (loadLine st line = .error .nullDeref ∧ (∃ key value, Assigns line key value) ∧
      ∀ header ∈ lines, ∀ sec, ¬Header header sec) := by
  by_cases isHeader : ∃ sec, Header line sec
  · obtain ⟨sec, header⟩ := isHeader
    refine .inl ⟨_, loadLine_header header, loaded.header header, ?_⟩
    rintro ⟨key, value, assigns⟩
    exact absurd header (assigns.1 sec)
  · have noHeader := not_exists.mp isHeader
    by_cases isAssign : ∃ key value, Assigns line key value
    · obtain ⟨key, value, assigns⟩ := isAssign
      cases inForce : st.m with
      | none =>
        have stopped : loadLine st line = .error .nullDeref := by
          simp only [loadLine_assigns assigns, inForce]
        exact .inr ⟨stopped, ⟨key, value, assigns⟩, loaded.unheaded inForce⟩
      | some sec =>
        have result : loadLine st line =
            .ok { st with file := st.file.assign sec key value } := by
          simp only [loadLine_assigns assigns, inForce]
        refine .inl ⟨_, result, loaded.assigns inForce assigns, fun _ => ?_⟩
        obtain ⟨j, header, -, there, names, -⟩ := (loaded.current sec).mp inForce
        exact ⟨header, List.mem_of_getElem? there, sec, names⟩
    · have noAssign : ∀ key value, ¬Assigns line key value :=
        fun key value assigns => isAssign ⟨key, value, assigns⟩
      refine .inl ⟨st, loadLine_other noHeader noAssign, loaded.other noHeader noAssign, ?_⟩
      exact fun assigns => absurd assigns isAssign

/-- The loop reads all lines if each assignment stands below a header, and stops at NULL if not. -/
theorem run_loadLine (lines : List Str) :
    (Headed lines ∧
      ∃ st, Run.run loadLine ⟨ConfigFile.new, none⟩ lines = .ok st ∧ Loaded lines st) ∨
    (¬Headed lines ∧ Run.run loadLine ⟨ConfigFile.new, none⟩ lines = .error .nullDeref) := by
  induction lines using List.reverseRecOn with
  | nil =>
    refine .inl ⟨?_, _, rfl, loaded_nil⟩
    intro i line key value found
    cases found
  | append_singleton lines line ih =>
    rw [headed_snoc]
    rcases ih with ⟨headed, st, done, loaded⟩ | ⟨unheaded, stopped⟩
    · rw [Run.run_append [line] done, Run.run_single]
      rcases loaded.next line with ⟨next, taken, loaded', above⟩ | ⟨stopped, assigns, nothing⟩
      · exact .inl ⟨⟨headed, above⟩, next, taken, loaded'⟩
      · refine .inr ⟨?_, stopped⟩
        rintro ⟨-, above⟩
        obtain ⟨header, member, sec, names⟩ := above assigns
        exact nothing header member sec names
    · exact .inr ⟨fun both => unheaded both.1, Run.run_append_error [line] stopped⟩

/-- The lines a stream still has: what newlines set apart, with an empty last one where the text
ends with a newline. -/
def linesOf (stream : Option Str) : List Str := stream.elim [] (·.splitOn '\n')

theorem linesOf_getline (text : Str) :
    linesOf (some text) = (getline text).1 :: linesOf (getline text).2 := by
  induction text with
  | nil => rfl
  | cons c text ih =>
    simp only [linesOf, Option.elim_some, List.splitOn_cons_eq_if_modifyHead, getline] at ih ⊢
    by_cases newline : c = '\n'
    · simp [newline]
    · simp [newline, ih]

theorem loadLoop_eq_run (st : Loading) (stream : Option Str) :
    loadLoop st stream = Run.run loadLine st (linesOf stream) := by
  induction st, stream using loadLoop.induct with
  | case1 st => rw [loadLoop]; rfl
  | case2 st text e stopped =>
    rw [loadLoop, linesOf_getline, Run.run_cons_error _ stopped, stopped]
  | case3 st text next taken ih =>
    rw [loadLoop, linesOf_getline, Run.run_cons_ok _ taken, taken]
    exact ih

theorem load_eq_run (file : ConfigFile) (text : Str) :
    file.load (some text) =
      (Run.run loadLine ⟨file, none⟩ (text.splitOn '\n')).map fun st => (true, st.file) := by
  rw [ConfigFile.load, loadLoop_eq_run]
  rfl

/-- After `Load`, a key has what the last line that sets it in its section says. -/
theorem getString_load (text : Str) (headed : Headed (text.splitOn '\n')) :
    (∀ line sec, isSection line = some sec ↔ Header line sec) ∧
    ∃ file, ConfigFile.new.load (some text) = .ok (true, file) ∧ ∀ sec key default,
      (∀ value, LastSet (text.splitOn '\n') sec key value →
        file.getString sec key default = value) ∧
      ((∀ i value, ¬Sets (text.splitOn '\n') sec key i value) →
        file.getString sec key default = default) := by
  refine ⟨fun line sec => isSection_eq_some, ?_⟩
  rcases run_loadLine (text.splitOn '\n') with ⟨-, st, done, loaded⟩ | ⟨unheaded, -⟩
  · refine ⟨st.file, by rw [load_eq_run, done]; rfl, fun sec key default => ⟨?_, ?_⟩⟩
    · intro value last
      rw [ConfigFile.getString_eq, loaded.stored sec key value last]
      rfl
    · intro never
      rw [ConfigFile.getString_eq, loaded.missing sec key never]
      rfl
  · exact absurd headed unheaded

/-- Two blocks of one section, in the second of which the key is set again. -/
theorem getString_load_twice : ∃ file,
    ConfigFile.new.load (some ['[', 'a', ']', '\n', 'k', '=', '1', '\n',
      ' ', '[', 'a', ' ', ']', '\n', 'k', ' ', '=', '=', '2', ' ']) = .ok (true, file) ∧
    file.getString ['a'] ['k'] [] = ['=', '2'] := by
  have headed : Headed [['[', 'a', ']'], ['k', '=', '1'], [' ', '[', 'a', ' ', ']'],
      ['k', ' ', '=', '=', '2', ' ']] := by
    rintro (- | i) line key value found assigns
    · cases found
      exact absurd (isSection_eq_some.mp rfl) (assigns.1 ['a'])
    · exact ⟨0, _, ['a'], Nat.succ_pos i, rfl, isSection_eq_some.mp rfl⟩
  obtain ⟨-, file, done, holds⟩ := getString_load ['[', 'a', ']', '\n', 'k', '=', '1', '\n',
    ' ', '[', 'a', ' ', ']', '\n', 'k', ' ', '=', '=', '2', ' '] headed
  refine ⟨file, done, (holds ['a'] ['k'] []).1 ['=', '2'] ⟨3, ⟨_, rfl, ?_, ?_⟩, ?_⟩⟩
  · refine ⟨isSection_eq_none.mp rfl, ['k', ' '], ['=', '2', ' '], rfl, by decide,
      trim_eq_iff.mp rfl, trim_eq_iff.mp rfl, by decide, by decide, by decide⟩
  · exact ⟨2, _, by decide, rfl, isSection_eq_some.mp rfl, by intros; omega⟩
  · intro j other sets
    exact Nat.le_of_lt_succ sets.inside

/-- `Load` reaches its end exactly on texts whose assignments all stand below a header. -/
theorem load_ok_iff (content : Option Str) :
    ((∃ result, ConfigFile.new.load content = .ok result) ∧
      ConfigFile.new.load content ≠ .error .nullDeref) ↔
    ∀ text, content = some text → Headed (text.splitOn '\n') := by
  cases content with
  | none =>
    constructor
    · intro _ text same
      cases same
    · intro _
      refine ⟨⟨_, rfl⟩, ?_⟩
      intro stopped
      cases stopped
  | some text =>
    rcases run_loadLine (text.splitOn '\n') with ⟨headed, st, done, -⟩ | ⟨unheaded, stopped⟩
    · rw [load_eq_run, done]
      constructor
      · intro _ other same
        cases same
        exact headed
      · intro _
        refine ⟨⟨_, rfl⟩, ?_⟩
        intro fault
        cases fault
    · rw [load_eq_run, stopped]
      constructor
      · rintro ⟨⟨result, done⟩, -⟩
        cases done
      · exact fun all => absurd (all text rfl) unheaded

/-- A text that begins with an assignment. -/
theorem load_null :
    ConfigFile.new.load (some ['a', '=', '1']) = .error .nullDeref ∧
      ¬∃ result, ConfigFile.new.load (some ['a', '=', '1']) = .ok result := by
  have stopped : ConfigFile.new.load (some ['a', '=', '1']) = .error .nullDeref := by
    rw [load_eq_run]
    rfl
  refine ⟨stopped, ?_⟩
  rintro ⟨result, done⟩
  rw [stopped] at done
  cases done

/-! ### Lists of strings -/

/-- The first position from `pos` on whose character satisfies `p`. -/
def findFrom (p : Char → Bool) (str : Str) (pos : Nat) : Option Nat :=
  ((str.drop pos).findIdx? p).map (pos + ·)

def listSep : Str := [',', ' ', '\t']

def isSep (c : Char) : Bool := listSep.contains c

def findFirstOf (str : Str) (pos : Nat) : Option Nat := findFrom isSep str pos

def findFirstNotOf (str : Str) (pos : Nat) : Option Nat := findFrom (!isSep ·) str pos

/-- A position that is found cuts the rest of the string. -/
theorem findFrom_some {p : Char → Bool} {str : Str} {pos i : Nat}
    (found : findFrom p str pos = some i) :
    ∃ c, p c = true ∧ pos ≤ i ∧ i < str.length ∧ str.drop i = c :: str.drop (i + 1) ∧
      str.drop pos = (str.drop pos).take (i - pos) ++ str.drop i ∧
      ∀ d ∈ (str.drop pos).take (i - pos), p d = false := by
  obtain ⟨n, here, rfl⟩ := Option.map_eq_some_iff.mp found
  obtain ⟨inside, holds, before⟩ := List.findIdx?_eq_some_iff_getElem.mp here
  rw [List.length_drop] at inside
  have bound : pos + n < str.length := by omega
  refine ⟨str[pos + n], by simpa using holds, Nat.le_add_right _ _, bound,
    List.drop_eq_getElem_cons bound, ?_, ?_⟩
  · rw [Nat.add_sub_cancel_left, ← List.drop_drop, List.take_append_drop]
  · intro d member
    rw [Nat.add_sub_cancel_left] at member
    obtain ⟨k, small, rfl⟩ := List.mem_take_iff_getElem.mp member
    simpa using before k (by omega)

theorem findFrom_none {p : Char → Bool} {str : Str} {pos : Nat}
    (absent : findFrom p str pos = none) : ∀ d ∈ str.drop pos, p d = false := by
  have nothing := Option.map_eq_none_iff.mp absent
  simpa [List.findIdx?_eq_none_iff] using nothing

/-- Each round of the loop starts past the separator that ended the last one. -/
theorem start_past {str : Str} {start index start' : Nat}
    (atSep : findFirstOf str start = some index)
    (next : findFirstNotOf str index = some start') : str.length - start' < str.length - start := by
  obtain ⟨c, separates, after, bound, here, -⟩ := findFrom_some atSep
  obtain ⟨d, other, later, bound', there, -⟩ := findFrom_some next
  have past : index ≠ start' := by
    rintro rfl
    rw [here] at there
    obtain ⟨rfl, -⟩ := List.cons.inj there
    rw [separates] at other
    cases other
  omega

/-- The loop of `GetStringList`. -/
def listLoop (str : Str) (start : Nat) (v : List Str) : List Str :=
  match atSep : findFirstOf str start with
  | none => v ++ [str.drop start]
  | some index =>
    let v := v ++ [(str.drop start).take (index - start)]
    match next : findFirstNotOf str index with
    | none => v
    | some start' =>
      have := start_past atSep next
      listLoop str start' v
termination_by str.length - start

def ConfigFile.getStringList (file : ConfigFile) (sec key : Str) : List Str :=
  listLoop (file.getString sec key []) 0 []

/-- The empty string that a front without a word brings. -/
def lead (str : Str) : List Str :=
  match str with
  | [] => [[]]
  | c :: _ => if isSep c then [[]] else []

theorem lead_words {w : Str} (inside : ∀ c ∈ w, isSep c = false) (tail : Str)
    (stops : ∀ c ∈ tail.head?, isSep c = true) :
    lead (w ++ tail) ++ Text.words isSep (w ++ tail) = w :: Text.words isSep tail := by
  cases w with
  | nil =>
    cases tail with
    | nil => rfl
    | cons c tail =>
      simp only [List.nil_append, lead, stops c rfl, if_true]
      rfl
  | cons d w =>
    have first : lead (d :: w ++ tail) = [] := by
      simp [lead, inside d List.mem_cons_self]
    rw [first, List.nil_append]
    cases tail with
    | nil =>
      rw [List.append_nil, Text.words_single inside (List.cons_ne_nil d w)]
      rfl
    | cons c tail =>
      rw [Text.words_cons inside (List.cons_ne_nil d w) (stops c rfl),
        Text.words_separator (stops c rfl)]

/-- A round of the loop: the piece up to the separator is the first word, or the empty front. -/
theorem lead_words_index {str : Str} {start index : Nat}
    (atSep : findFirstOf str start = some index) :
    lead (str.drop start) ++ Text.words isSep (str.drop start) =
      (str.drop start).take (index - start) :: Text.words isSep (str.drop index) := by
  obtain ⟨c, separates, -, -, here, cut, before⟩ := findFrom_some atSep
  have parts := lead_words before (str.drop index) (by
    rw [here]
    intro d first
    cases first
    exact separates)
  rwa [← cut] at parts

theorem listLoop_last {str : Str} {start : Nat} (absent : findFirstOf str start = none)
    (v : List Str) : listLoop str start v = v ++ [str.drop start] := by
  rw [listLoop]
  split
  · rfl
  next atSep =>
    rw [absent] at atSep
    cases atSep

theorem listLoop_index {str : Str} {start index : Nat} (atSep : findFirstOf str start = some index)
    (v : List Str) :
    listLoop str start v =
      match findFirstNotOf str index with
      | none => v ++ [(str.drop start).take (index - start)]
      | some start' => listLoop str start' (v ++ [(str.drop start).take (index - start)]) := by
  rw [listLoop]
  split
  next absent =>
    rw [atSep] at absent
    cases absent
  next atSep' =>
    cases atSep.symm.trans atSep'
    dsimp only
    split
    next absent => simp only [absent]
    next later => simp only [later]

theorem listLoop_eq (str : Str) (start : Nat) (v : List Str) :
    listLoop str start v = v ++ (lead (str.drop start) ++ Text.words isSep (str.drop start)) := by
  induction start, v using listLoop.induct str with
  | case1 start v absent =>
    have last := lead_words (findFrom_none absent) [] (by intro c first; cases first)
    rw [List.append_nil, Text.words_nil] at last
    rw [listLoop_last absent, last]
  | case2 start v index atSep next =>
    -- nothing but separators follow
    have separate : ∀ c ∈ str.drop index, isSep c = true := by simpa using findFrom_none next
    have rest := Text.words_separators separate []
    rw [List.append_nil, Text.words_nil] at rest
    rw [listLoop_index atSep, lead_words_index atSep, rest]
    simp only [next]
  | case3 start v index atSep pieces start' next _ ih =>
    obtain ⟨d, other, -, -, there, cut, separate⟩ := findFrom_some next
    -- the next round starts with a word
    have noLead : lead (str.drop start') = [] := by
      rw [there]
      simpa [lead] using other
    have rest : Text.words isSep (str.drop index) = Text.words isSep (str.drop start') := by
      rw [cut]
      exact Text.words_separators (by simpa using separate) _
    rw [listLoop_index atSep, lead_words_index atSep, rest]
    simp only [next]
    rw [ih, noLead, List.nil_append, List.append_assoc]
    rfl

/-- The words of the string, exactly where it begins with one. -/
theorem getStringList_eq_words_iff (file : ConfigFile) (sec key : Str) :
    file.getStringList sec key = Text.words isSep (file.getString sec key []) ↔
      ∃ c rest, file.getString sec key [] = c :: rest ∧ isSep c = false := by
  rw [ConfigFile.getStringList, listLoop_eq, List.drop_zero, List.nil_append]
  generalize file.getString sec key [] = str
  rw [List.append_left_eq_self]
  cases str with
  | nil => simp [lead]
  | cons c rest => cases separates : isSep c <;> simp [lead, separates]

/-- The key of an empty file. -/
theorem getStringList_absent :
    ConfigFile.new.getStringList ['a'] ['k'] = [[]] ∧
      Text.words isSep (ConfigFile.new.getString ['a'] ['k'] []) = [] := by
  refine ⟨?_, rfl⟩
  rw [ConfigFile.getStringList, listLoop_eq]
  rfl

end Lars.Reactor
