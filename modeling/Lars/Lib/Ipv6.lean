import Lars.Lib.DottedQuad

/-!
# IPv6 addresses as texts

Eight words in hexadecimal between colons. Once, `::` may stand for words that
are zero, and the last two words may be written as a dotted quad.
-/
namespace Lars.Ipv6

open DottedQuad (Quad)

def hexDigit (c : Char) : Option Nat :=
  if '0' ≤ c ∧ c ≤ '9' then some (c.toNat - '0'.toNat)
  else if 'a' ≤ c ∧ c ≤ 'f' then some (c.toNat - 'a'.toNat + 10)
  else if 'A' ≤ c ∧ c ≤ 'F' then some (c.toNat - 'A'.toNat + 10)
  else none

/-- A word has one to four digits. -/
def readWord (cs : List Char) : Option Nat :=
  if 1 ≤ cs.length ∧ cs.length ≤ 4 then
    cs.foldlM (fun n c => (hexDigit c).map (n * 16 + ·)) 0
  else none

/-- The two words of a dotted quad. -/
def quadWords (q : Quad) : List Nat :=
  [q.a.toNat * 256 + q.b.toNat, q.c.toNat * 256 + q.d.toNat]

/-- The words between colons. Only at the end of the whole text may a dotted quad stand. -/
def readWords (atEnd : Bool) : List (List Char) → Option (List Nat)
  | [] => some []
  | cs :: rest =>
    match (if atEnd ∧ rest = [] then Quad.parse (String.ofList cs) else none), readWord cs,
      readWords atEnd rest with
    | some q, _, _ => some (quadWords q)
    | none, some word, some words => some (word :: words)
    | none, _, _ => none

/-- What is in front of the first `::` and what is behind it. -/
def splitDouble : List Char → Option (List Char × List Char)
  | ':' :: ':' :: back => some ([], back)
  | c :: cs => (splitDouble cs).map fun parts => (c :: parts.1, parts.2)
  | [] => none

def fields (cs : List Char) : List (List Char) := if cs = [] then [] else cs.splitOn ':'

/-- The eight words of the address that a text stands for. -/
def parse (s : String) : Option (List Nat) :=
  match splitDouble s.toList with
  | none => (readWords true (fields s.toList)).filter (·.length = 8)
  | some (front, back) =>
    match readWords false (fields front), readWords true (fields back) with
    | some high, some low =>
      -- the double colon stands for at least one word
      if high.length + low.length < 8 then
        some (high ++ List.replicate (8 - high.length - low.length) 0 ++ low)
      else none
    | _, _ => none

/-- The quad of an address that is mapped from IPv4. -/
def mapped (words : List Nat) : Option Quad :=
  match words with
  | [0, 0, 0, 0, 0, 0xffff, high, low] =>
    some ⟨UInt8.ofNat (high / 256), UInt8.ofNat high, UInt8.ofNat (low / 256), UInt8.ofNat low⟩
  | _ => none

theorem mapped_quadWords (q : Quad) : mapped ([0, 0, 0, 0, 0, 0xffff] ++ quadWords q) = some q := by
  obtain ⟨a, b, c, d⟩ := q
  have word (x y : UInt8) : UInt8.ofNat ((x.toNat * 256 + y.toNat) / 256) = x ∧
      UInt8.ofNat (x.toNat * 256 + y.toNat) = y := by
    have := x.toNat_lt
    have := y.toNat_lt
    constructor <;> apply UInt8.toNat_inj.mp <;> rw [UInt8.toNat_ofNat'] <;> omega
  simp only [quadWords, mapped, List.cons_append, List.nil_append, word]

theorem colon_notMem_text (q : Quad) : ':' ∉ q.text.toList := by
  rw [Quad.text, String.toList_ofList]
  simp [List.intercalate, Quad.notMem_digits (c := ':') rfl]

/-- The form `::ffff:a.b.c.d`. -/
theorem parse_mapped (q : Quad) :
    parse ("::ffff:" ++ q.text) = some ([0, 0, 0, 0, 0, 0xffff] ++ quadWords q) := by
  have text : ("::ffff:" ++ q.text).toList =
      ':' :: ':' :: (['f', 'f', 'f', 'f'] ++ ':' :: q.text.toList) := by
    rw [String.toList_append]
    rfl
  have parts : fields (['f', 'f', 'f', 'f'] ++ ':' :: q.text.toList) =
      [['f', 'f', 'f', 'f'], q.text.toList] := by
    have joined : ['f', 'f', 'f', 'f'] ++ ':' :: q.text.toList =
        [':'].intercalate [['f', 'f', 'f', 'f'], q.text.toList] := by
      simp [List.intercalate]
    rw [fields, if_neg (by simp), joined]
    apply List.splitOn_intercalate
    · simp [colon_notMem_text]
    · simp
  have word : readWord ['f', 'f', 'f', 'f'] = some 0xffff := by decide
  have back : readWords true [['f', 'f', 'f', 'f'], q.text.toList] =
      some (0xffff :: quadWords q) := by
    simp only [readWords, word, String.ofList_toList, Quad.parse_text, and_self, ↓reduceIte,
      reduceCtorEq, and_false]
  rw [parse, text]
  simp only [splitDouble, parts, back]
  rfl

/-- The mapped form is no dotted quad itself. -/
theorem not_dotted (q : Quad) : Quad.parse ("::ffff:" ++ q.text) = none := by
  have text : ("::ffff:" ++ q.text).toList = ['.'].intercalate
      ["::ffff:".toList ++ Quad.digits q.a, Quad.digits q.b, Quad.digits q.c, Quad.digits q.d] := by
    rw [String.toList_append, Quad.text, String.toList_ofList]
    simp [List.intercalate]
  have parts : ("::ffff:" ++ q.text).toList.splitOn '.' =
      ["::ffff:".toList ++ Quad.digits q.a, Quad.digits q.b, Quad.digits q.c,
        Quad.digits q.d] := by
    rw [text]
    apply List.splitOn_intercalate
    · simp [Quad.notMem_digits (c := '.') rfl]
    · simp
  have first : Quad.readOctet ("::ffff:".toList ++ Quad.digits q.a) = none :=
    Quad.readOctet_other (c := ':') rfl (by simp)
  simp only [Quad.parse, parts, first]

end Lars.Ipv6
