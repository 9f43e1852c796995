import TypedSchema.Proofs.Text.Unambiguous
import TypedSchema.Python.Expression

/-!
# The grammar of emitted source

What the texts of declarations look like, stated on the texts alone: names, literals, types, lines
and blocks.  A block has one of four forms (`Python.BlockForm`), and its text shows which
(`Python.IsBlock.form_unique`): a class begins with a word that is no name, the two kinds of classes
differ in what stands behind the first word of their bodies, and the two kinds of assignments in
what is called or subscripted.
-/

namespace TypedSchema
namespace Python

/-! ## Names -/

/-- An ASCII letter. -/
def IsLetter (c : Char) : Prop := 'a' ≤ c ∧ c ≤ 'z' ∨ 'A' ≤ c ∧ c ≤ 'Z'

/-- A decimal digit. -/
def IsDigit (c : Char) : Prop := '0' ≤ c ∧ c ≤ '9'

/-- A hexadecimal digit. -/
def IsHexDigit (c : Char) : Prop := IsDigit c ∨ 'a' ≤ c ∧ c ≤ 'f' ∨ 'A' ≤ c ∧ c ≤ 'F'

/-- A name: a letter or an underscore, then letters, digits and underscores, and no keyword. -/
def IsName (s : String) : Prop :=
  (∃ c rest, s.toList = c :: rest ∧ (IsLetter c ∨ c = '_') ∧
    ∀ d ∈ rest, IsLetter d ∨ IsDigit d ∨ d = '_') ∧ s ∉ keywords

/-! ## Literals -/

/-- A character that stands for itself in a string: no quote, no backslash and no control. -/
def IsPlain (c : Char) : Prop :=
  c ≠ '\x27' ∧ c ≠ '\x5c' ∧ 0x20 ≤ c.toNat ∧ ¬(0x7F ≤ c.toNat ∧ c.toNat ≤ 0x9F)

/-- What stands between the quotes of a string on one line. -/
inductive IsStringBody : List Char → Prop
  | nil : IsStringBody []
  | plain {c : Char} {rest : List Char} (hc : IsPlain c) (h : IsStringBody rest) :
    IsStringBody (c :: rest)
  | escape {c : Char} {rest : List Char} (hc : c ∈ ['\x5c', '\x27', 'n', 'r', 't'])
    (h : IsStringBody rest) : IsStringBody ('\x5c' :: c :: rest)
  | hex {high low : Char} {rest : List Char} (hhigh : IsHexDigit high) (hlow : IsHexDigit low)
    (h : IsStringBody rest) : IsStringBody ('\x5c' :: 'x' :: high :: low :: rest)

/-- A string between single quotes, on one line. -/
def IsString (s : String) : Prop :=
  ∃ body, IsStringBody body ∧ s.toList = '\x27' :: body ++ ['\x27']

/-- A run of digits. -/
def IsDigits (digits : List Char) : Prop := digits ≠ [] ∧ ∀ d ∈ digits, IsDigit d

/-- A number without a sign: an integer without leading zeros, or digits around a point. -/
inductive IsNumeral : List Char → Prop
  | integer {digits : List Char} (h : IsDigits digits)
    (leading : digits.head? = some '0' → digits = ['0']) : IsNumeral digits
  | decimal {whole fraction : List Char} (hwhole : IsDigits whole) (hfraction : IsDigits fraction) :
    IsNumeral (whole ++ '.' :: fraction)

/-- A literal. -/
inductive IsLiteral : String → Prop
  | word {s : String} (h : s ∈ ["None", "True", "False"]) : IsLiteral s
  | number {s : String} (h : IsNumeral s.toList) : IsLiteral s
  | negative {s : String} {digits : List Char} (hs : s.toList = '-' :: digits)
    (h : IsNumeral digits) : IsLiteral s
  | string {s : String} (h : IsString s) : IsLiteral s

/-! ## Types -/

/-- The name of a declared type inside a type. -/
def IsReference : NameStyle → String → Prop
  | .bare, s => IsName s
  | .quoted, s => ∃ name, IsName name ∧ s = "\x27" ++ name ++ "\x27"

/-- A type; `union` says whether it is a union.  One family and not two mutual ones, so that
induction applies as it is. -/
inductive IsType (style : NameStyle) : (union : Bool) → String → Prop
  | builtin {s : String} (h : s ∈ ["bool", "int", "float", "str", "None", "dict"]) :
    IsType style false s
  | name {s : String} (h : IsReference style s) : IsType style false s
  | list {union : Bool} {s : String} (h : IsType style union s) :
    IsType style false ("list[" ++ s ++ "]")
  | union {ss : List String} (several : 2 ≤ ss.length) (h : ∀ s ∈ ss, IsType style false s) :
    IsType style true ("Union[" ++ ", ".intercalate ss ++ "]")
  | literals {ss : List String} (nonempty : ss ≠ []) (h : ∀ s ∈ ss, IsLiteral s) :
    IsType style false ("Literal[" ++ ", ".intercalate ss ++ "]")

/-- The type of a field, which may be marked. -/
inductive IsFieldType (style : NameStyle) : String → Prop
  | required {union : Bool} {s : String} (h : IsType style union s) : IsFieldType style s
  | optional {union : Bool} {s : String} (h : IsType style union s) :
    IsFieldType style ("NotRequired[" ++ s ++ "]")

/-! ## Blocks -/

/-- A field in a class. -/
inductive IsFieldLine : String → Prop
  | intro {name ty : String} (hname : IsName name) (hty : IsFieldType .bare ty) :
    IsFieldLine ("    " ++ name ++ ": " ++ ty ++ "\n")

/-- A field in a dictionary. -/
inductive IsEntryLine : String → Prop
  | intro {key ty : String} (hkey : IsString key) (hty : IsFieldType .quoted ty) :
    IsEntryLine ("    " ++ key ++ ": " ++ ty ++ ",\n")

/-- The body of a class with fields. -/
inductive IsRecordBody : String → Prop
  | pass : IsRecordBody "    pass\n"
  | fields {lines : List String} (nonempty : lines ≠ []) (h : ∀ l ∈ lines, IsFieldLine l) :
    IsRecordBody (String.join lines)

/-- The line of a member of an enumeration. -/
def memberLine (member : String × String) : String :=
  "    " ++ member.1 ++ " = " ++ member.2 ++ "\n"

/-- The forms of blocks. -/
inductive BlockForm where
  | recordClass
  | enumClass
  | call
  | literals
  deriving DecidableEq

/-- A block that declares a name. -/
inductive IsBlock : BlockForm → (name : String) → String → Prop
  | recordClass {name : String} {bases : List String} {body : String} (hname : IsName name)
    (nonempty : bases ≠ []) (hbases : ∀ base ∈ bases, IsName base) (hbody : IsRecordBody body) :
    IsBlock .recordClass name
      ("class " ++ name ++ "(" ++ ", ".intercalate bases ++ "):\n" ++ body)
  | enumClass {name : String} {members : List (String × String)} (hname : IsName name)
    (nonempty : members ≠ []) (distinct : (members.map Prod.fst).Nodup)
    (hmembers : ∀ m ∈ members, IsName m.1 ∧ IsString m.2) :
    IsBlock .enumClass name
      ("class " ++ name ++ "(Enum):\n" ++ String.join (members.map memberLine))
  | call {name key : String} {lines : List String} (hname : IsName name) (hkey : IsString key)
    (nonempty : lines ≠ []) (hlines : ∀ l ∈ lines, IsEntryLine l) :
    IsBlock .call name
      (name ++ " = TypedDict(" ++ key ++ ", \x7b\n" ++ String.join lines ++ "\x7d, total=True)\n")
  | literals {name : String} {values : List String} (hname : IsName name) (nonempty : values ≠ [])
    (hvalues : ∀ v ∈ values, IsLiteral v) :
    IsBlock .literals name (name ++ " = Literal[" ++ ", ".intercalate values ++ "]\n")

/-! ## Names and identifiers -/

lemma isDigit_iff {c : Char} : c.isDigit = true ↔ IsDigit c := by
  simp only [Char.isDigit, IsDigit, Bool.and_eq_true, decide_eq_true_eq, Char.le_def]

lemma isAlpha_iff {c : Char} : c.isAlpha = true ↔ IsLetter c := by
  show (decide ('A' ≤ c ∧ c ≤ 'Z') || (decide ('a' ≤ c) && decide (c ≤ 'z'))) = true ↔ IsLetter c
  simp only [IsLetter, Bool.or_eq_true, Bool.and_eq_true, decide_eq_true_eq]
  exact or_comm

lemma isIdentifierStart_iff {c : Char} : isIdentifierStart c = true ↔ IsLetter c ∨ c = '_' := by
  simp only [isIdentifierStart, isAlpha_iff, Bool.or_eq_true, beq_iff_eq]

lemma isIdentifierChar_iff {c : Char} :
    isIdentifierChar c = true ↔ IsLetter c ∨ IsDigit c ∨ c = '_' := by
  have hstart := isIdentifierStart_iff (c := c)
  have hdigit := isDigit_iff (c := c)
  simp only [isIdentifierStart, isIdentifierChar, Char.isAlphanum, Bool.or_eq_true] at hstart ⊢
  tauto

/-- Names are the texts that are accepted as identifiers. -/
theorem isName_iff {s : String} : IsName s ↔ isIdentifier s = true := by
  rw [IsName, isIdentifier, Bool.and_eq_true, Bool.not_eq_true', List.contains_eq_mem,
    decide_eq_false_iff_not]
  refine and_congr_left fun _ => ?_
  cases s.toList with
  | nil => simp [isWord]
  | cons c rest =>
    simp only [isWord, Bool.and_eq_true, List.all_eq_true, isIdentifierStart_iff,
      isIdentifierChar_iff, List.cons.injEq]
    constructor
    · rintro ⟨_, _, ⟨rfl, rfl⟩, hstart, hrest⟩
      exact ⟨hstart, hrest⟩
    · exact fun ⟨hstart, hrest⟩ => ⟨c, rest, ⟨rfl, rfl⟩, hstart, hrest⟩

lemma IsName.forall_mem {s : String} (h : IsName s) :
    ∀ c ∈ s.toList, isIdentifierChar c = true := by
  obtain ⟨⟨c, rest, hs, hstart, hrest⟩, -⟩ := h
  rw [hs]
  refine List.forall_mem_cons.2 ⟨isIdentifierChar_iff.2 ?_, fun d hd =>
    isIdentifierChar_iff.2 (hrest d hd)⟩
  exact hstart.imp_right .inr

/-! ## A block shows its form -/

section
variable {name : String} {c : Char} {u : List Char}

/-- A name ends before the next character that cannot stand in one. -/
lemma takeWhile_name (h : IsName name) (hc : isIdentifierChar c = false) :
    (name.toList ++ c :: u).takeWhile isIdentifierChar = name.toList := by
  rw [List.takeWhile_append_of_pos h.forall_mem, List.takeWhile_cons_of_neg (by simp [hc]),
    List.append_nil]

lemma dropWhile_name (h : IsName name) (hc : isIdentifierChar c = false) :
    (name.toList ++ c :: u).dropWhile isIdentifierChar = c :: u := by
  rw [List.dropWhile_append_of_pos h.forall_mem, List.dropWhile_cons_of_neg (by simp [hc])]

lemma IsName.ne_class (h : IsName name) : name.toList ≠ "class".toList := fun heq =>
  h.2 (String.toList_inj.1 heq ▸ by decide)

end

/-- The character behind the first word of the body of a class. -/
def bodyMark (text : List Char) : Option Char :=
  (((text.dropWhile (· != '\n')).drop 5).dropWhile isIdentifierChar).head?

/-- The form of a block, from its text. -/
def shownForm (text : List Char) : BlockForm :=
  if text.takeWhile isIdentifierChar = "class".toList then
    if bodyMark text = some ' ' then .enumClass else .recordClass
  else if (text.dropWhile isIdentifierChar)[3]? = some 'T' then .call
  else .literals

lemma ne_newline_of_isIdentifierChar {c : Char} (h : isIdentifierChar c = true) : c ≠ '\n' := by
  rintro rfl
  exact absurd h (by decide)

lemma ne_newline_of_mem_intercalate {bases : List String} (hbases : ∀ base ∈ bases, IsName base) :
    ∀ c ∈ (", ".intercalate bases).toList, c ≠ '\n' := by
  rw [← Text.join_eq_intercalate]
  cases bases with
  | nil => exact fun _ hc => absurd hc List.not_mem_nil
  | cons base rest =>
    intro c hc
    rw [Text.toList_join_cons] at hc
    obtain ⟨hbase, hrest⟩ := List.forall_mem_cons.1 hbases
    rcases List.mem_append.1 hc with hc | hc
    · exact ne_newline_of_isIdentifierChar (hbase.forall_mem c hc)
    · obtain ⟨s, hs, hc⟩ := List.mem_flatMap.1 hc
      obtain ⟨next, hnext, rfl⟩ := List.mem_map.1 hs
      rw [String.toList_append, List.mem_append] at hc
      rcases hc with hc | hc
      · rcases List.mem_pair.1 hc with rfl | rfl <;> decide
      · exact ne_newline_of_isIdentifierChar ((hrest next hnext).forall_mem c hc)

lemma shownForm_class {name bases body : String} {rest : List Char} (hname : IsName name)
    (hbases : ∀ c ∈ bases.toList, c ≠ '\n') (hbody : body.toList = "    ".toList ++ rest) :
    shownForm ("class " ++ name ++ "(" ++ bases ++ "):\n" ++ body).toList =
      if (rest.dropWhile isIdentifierChar).head? = some ' ' then .enumClass else .recordClass := by
  have htext : ("class " ++ name ++ "(" ++ bases ++ "):\n" ++ body).toList =
      ("class ".toList ++ (name.toList ++ ("(".toList ++ (bases.toList ++ "):".toList)))) ++
        '\n' :: ("    ".toList ++ rest) := by
    simp only [String.toList_append, hbody, List.append_assoc]
    rfl
  have hheader : ∀ c ∈ "class ".toList ++ (name.toList ++ ("(".toList ++ (bases.toList ++
      "):".toList))), (c != '\n') = true := by
    simp only [List.forall_mem_append]
    refine ⟨List.all_eq_true.1 rfl, fun c hc => ?_, List.all_eq_true.1 rfl, fun c hc => ?_,
      List.all_eq_true.1 rfl⟩
    · exact bne_iff_ne.2 (ne_newline_of_isIdentifierChar (hname.forall_mem c hc))
    · exact bne_iff_ne.2 (hbases c hc)
  have hmark : bodyMark ("class " ++ name ++ "(" ++ bases ++ "):\n" ++ body).toList =
      (rest.dropWhile isIdentifierChar).head? := by
    rw [htext, bodyMark, List.dropWhile_append_of_pos hheader]
    rfl
  have hword : ("class " ++ name ++ "(" ++ bases ++ "):\n" ++ body).toList.takeWhile
      isIdentifierChar = "class".toList := by
    rw [htext]
    rfl
  rw [shownForm, if_pos hword, hmark]

lemma shownForm_assignment {name : String} {c : Char} {rest : List Char} (hname : IsName name) :
    shownForm (name.toList ++ (" = ".toList ++ c :: rest)) =
      if c = 'T' then .call else .literals := by
  have hword : (name.toList ++ (" = ".toList ++ c :: rest)).takeWhile isIdentifierChar ≠
      "class".toList := by
    rw [show " = ".toList ++ c :: rest = ' ' :: ("= ".toList ++ c :: rest) from rfl,
      takeWhile_name hname (by decide)]
    exact hname.ne_class
  have hthird : ((name.toList ++ (" = ".toList ++ c :: rest)).dropWhile isIdentifierChar)[3]? =
      some c := by
    rw [show " = ".toList ++ c :: rest = ' ' :: ("= ".toList ++ c :: rest) from rfl,
      dropWhile_name hname (by decide)]
    rfl
  rw [shownForm, if_neg hword, hthird]
  simp only [Option.some.injEq]

lemma exists_mark_of_isRecordBody {body : String} (h : IsRecordBody body) :
    ∃ rest, body.toList = "    ".toList ++ rest ∧
      (rest.dropWhile isIdentifierChar).head? ≠ some ' ' := by
  cases h with
  | pass => exact ⟨"pass\n".toList, rfl, by decide⟩
  | @fields lines nonempty h =>
    obtain ⟨line, lines, rfl⟩ := List.exists_cons_of_ne_nil nonempty
    obtain ⟨⟨hname, hty⟩, -⟩ := List.forall_mem_cons.1 h
    rename_i name ty
    refine ⟨name.toList ++ ':' :: (" ".toList ++ (ty.toList ++ ("\n".toList ++
      lines.flatMap String.toList))), ?_, ?_⟩
    · simp only [String.toList_join, List.flatMap_cons, String.toList_append, List.append_assoc]
      rfl
    · rw [dropWhile_name hname (by decide)]
      exact fun h => absurd (Option.some.inj h) (by decide)

lemma exists_mark_of_members {members : List (String × String)} (nonempty : members ≠ [])
    (h : ∀ m ∈ members, IsName m.1) :
    ∃ rest, (String.join (members.map memberLine)).toList = "    ".toList ++ rest ∧
      (rest.dropWhile isIdentifierChar).head? = some ' ' := by
  obtain ⟨m, members, rfl⟩ := List.exists_cons_of_ne_nil nonempty
  have hname := h m List.mem_cons_self
  refine ⟨m.1.toList ++ ' ' :: ("= ".toList ++ (m.2.toList ++ ("\n".toList ++
    (members.map memberLine).flatMap String.toList))), ?_, ?_⟩
  · simp only [String.toList_join, List.map_cons, List.flatMap_cons, memberLine,
      String.toList_append, List.append_assoc]
    rfl
  · rw [dropWhile_name hname (by decide)]
    rfl

/-- The text of a block shows the form. -/
lemma IsBlock.shownForm_eq {form : BlockForm} {name text : String} (h : IsBlock form name text) :
    shownForm text.toList = form := by
  cases h with
  | recordClass hname nonempty hbases hbody =>
    obtain ⟨rest, hrest, hmark⟩ := exists_mark_of_isRecordBody hbody
    rw [shownForm_class hname (ne_newline_of_mem_intercalate hbases) hrest, if_neg hmark]
  | enumClass hname nonempty distinct hmembers =>
    obtain ⟨rest, hrest, hmark⟩ := exists_mark_of_members nonempty fun m hm => (hmembers m hm).1
    have htext : ("class " ++ name ++ "(Enum):\n" : String) =
        "class " ++ name ++ "(" ++ "Enum" ++ "):\n" := by
      rw [← String.toList_inj]
      simp only [String.toList_append, List.append_assoc]
      rfl
    have hbase : IsName "Enum" := isName_iff.2 (by decide)
    have hline : ∀ c ∈ "Enum".toList, c ≠ '\n' := fun c hc =>
      ne_newline_of_isIdentifierChar (hbase.forall_mem c hc)
    rw [htext, shownForm_class hname hline hrest, if_pos hmark]
  | call hname =>
    simp only [String.toList_append, List.append_assoc]
    exact shownForm_assignment hname
  | literals hname =>
    simp only [String.toList_append, List.append_assoc]
    exact shownForm_assignment hname

/-- A text is a block of one form only. -/
theorem IsBlock.form_unique {form form' : BlockForm} {name name' text : String}
    (h : IsBlock form name text) (h' : IsBlock form' name' text) : form = form' := by
  rw [← h.shownForm_eq, h'.shownForm_eq]

end Python
end TypedSchema
