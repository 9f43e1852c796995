import TypedSchema.Proofs.Python.Expression
import TypedSchema.Python.Source

/-!
# The blocks that declarations are written as

A declaration is written as a class with a body of lines, as a call with a dictionary, or as a set
of literals (`Python.Block`).  Records and enumerations can both be classes, but no line of a record
body is a line of an enumeration body, and a record always has one.

A block determines what is written in it and where it ends, before the end of the text or an empty
line (`Python.Block.Writes.unambiguous`).
-/

namespace TypedSchema

/-- Whether two fields are equal up to names of builtin types. -/
def Field.Alike (f g : Field) : Prop := f.name = g.name ∧ f.ty.Alike g.ty ∧ f.required = g.required

namespace Python

/-! ## Lines of a class -/

/-- A line of the body of a class. -/
inductive Line where
  | pass
  | field (field : Field)
  | member (name : String)

namespace Line

/-- The text of a line. -/
def write : Line → Except Fault String
  | .pass => .ok (indent ++ "pass\n")
  | .field f => do
    let name ← checkedName .declaration f.name
    let ty ← fieldType .bare f
    return indent ++ name ++ ": " ++ ty ++ "\n"
  | .member name => do
    let name ← checkedName .declaration name
    return indent ++ name ++ " = " ++ quote name ++ "\n"

/-- Whether two lines say the same, up to names of builtin types. -/
def Alike : Line → Line → Prop
  | .pass, .pass => True
  | .field f, .field g => f.Alike g
  | .member m, .member n => m = n
  | _, _ => False

/-- The first word of a line. -/
def word : Line → String
  | .pass => "pass"
  | .field f => f.name
  | .member name => name

/-- The character behind the first word of a line. -/
def mark : Line → Char
  | .pass => '\n'
  | .field _ => ':'
  | .member _ => ' '

lemma isIdentifierChar_of_mem_word {l : Line} {s : String} (h : l.write = .ok s) :
    ∀ c ∈ l.word.toList, isIdentifierChar c = true := by
  cases l with
  | pass => exact List.all_eq_true.1 rfl
  | field f =>
    simp only [write, bind_eq_ok, checkedName_eq_ok] at h
    obtain ⟨_, ⟨hname, _⟩, _⟩ := h
    exact isIdentifierChar_of_mem hname
  | member name =>
    simp only [write, bind_eq_ok, checkedName_eq_ok] at h
    obtain ⟨_, ⟨hname, _⟩, _⟩ := h
    exact isIdentifierChar_of_mem hname

/-- What stands behind the first word of a line and the character behind it. -/
def rest : Line → Except Fault String
  | .pass => .ok ""
  | .field f => (fieldType .bare f).map fun ty => " " ++ ty ++ "\n"
  | .member name => .ok ("= " ++ quote name ++ "\n")

lemma exists_rest {l : Line} {s : String} (h : l.write = .ok s) :
    ∃ t, l.rest = .ok t ∧
      s.toList = indent.toList ++ (l.word.toList ++ l.mark :: t.toList) := by
  cases l with
  | pass =>
    cases h
    exact ⟨_, rfl, rfl⟩
  | field f =>
    simp only [write, bind_eq_ok, pure_eq_ok, checkedName_eq_ok] at h
    obtain ⟨_, ⟨_, rfl⟩, ty, hty, rfl⟩ := h
    refine ⟨_, map_eq_ok.2 ⟨ty, hty, rfl⟩, ?_⟩
    simp only [String.toList_append, List.append_assoc]
    rfl
  | member name =>
    simp only [write, bind_eq_ok, pure_eq_ok, checkedName_eq_ok] at h
    obtain ⟨_, ⟨_, rfl⟩, rfl⟩ := h
    refine ⟨_, rfl, ?_⟩
    simp only [String.toList_append, List.append_assoc]
    rfl

/-- A line says itself where it ends. -/
theorem unambiguous (l : Line) : Text.Unambiguous write Alike (fun _ => True) l := by
  intro l' s s' hs hs' u v _ _ heq
  obtain ⟨t, ht, hst⟩ := exists_rest hs
  obtain ⟨t', ht', hst'⟩ := exists_rest hs'
  have hmark : ∀ l : Line, isIdentifierChar l.mark = false := by
    intro l
    cases l <;> rfl
  rw [hst, hst', List.append_assoc, List.append_assoc, List.append_assoc, List.append_assoc] at heq
  obtain ⟨hword, hbehind⟩ := Text.append_inj_of_all (isIdentifierChar_of_mem_word hs)
    (isIdentifierChar_of_mem_word hs') (by rintro c ⟨⟩; exact hmark l)
    (by rintro c ⟨⟩; exact hmark l') (List.append_cancel_left heq)
  obtain ⟨hmarks, htail⟩ : l.mark = l'.mark ∧ t.toList ++ u = t'.toList ++ v :=
    List.cons.inj hbehind
  have hnames : l.word = l'.word := String.toList_inj.1 hword
  cases l <;> cases l' <;> simp [mark] at hmarks
  case pass.pass =>
    cases ht
    cases ht'
    exact ⟨trivial, htail⟩
  case field.field f g =>
    obtain ⟨ty, hty, rfl⟩ := map_eq_ok.1 ht
    obtain ⟨ty', hty', rfl⟩ := map_eq_ok.1 ht'
    simp only [String.toList_append, List.append_assoc] at htail
    obtain ⟨⟨halike, hrequired⟩, huv⟩ := unambiguous_fieldType .bare f hty hty'
      (.inr (.inr rfl)) (.inr (.inr rfl)) (List.append_cancel_left htail)
    exact ⟨⟨hnames, halike, hrequired⟩, List.append_cancel_left huv⟩
  case member.member m n =>
    cases ht
    cases ht'
    obtain rfl : m = n := hnames
    exact ⟨rfl, List.append_cancel_left htail⟩

lemma head?_write {l : Line} {s : String} (h : l.write = .ok s) : s.toList.head? = some ' ' := by
  obtain ⟨t, _, hst⟩ := exists_rest h
  rw [hst]
  rfl

end Line

/-! ## Lines of a dictionary -/

/-- The text of a field in a dictionary. -/
def dictLine (field : Field) : Except Fault String :=
  (fieldType .quoted field).map fun ty => indent ++ quote field.name ++ ": " ++ ty ++ ",\n"

lemma head?_dictLine {field : Field} {s : String} (h : dictLine field = .ok s) :
    s.toList.head? = some ' ' := by
  obtain ⟨ty, _, rfl⟩ := map_eq_ok.1 h
  simp only [String.toList_append, List.append_assoc]
  rfl

lemma unambiguous_dictLine (field : Field) :
    Text.Unambiguous dictLine Field.Alike (fun _ => True) field := by
  intro field' s s' hs hs' u v _ _ heq
  obtain ⟨ty, hty, rfl⟩ := map_eq_ok.1 hs
  obtain ⟨ty', hty', rfl⟩ := map_eq_ok.1 hs'
  simp only [String.toList_append, List.append_assoc, toList_quote] at heq
  obtain ⟨hname, hbehind⟩ := quoteChars_append_inj (List.append_cancel_left heq)
  obtain ⟨⟨halike, hrequired⟩, huv⟩ := unambiguous_fieldType .quoted field hty hty'
    (.inl rfl) (.inl rfl) (List.append_cancel_left hbehind)
  exact ⟨⟨String.toList_inj.1 hname, halike, hrequired⟩, List.append_cancel_left huv⟩

/-! ## Blocks -/

/-- What a declaration is written as. -/
inductive Block where
  | cls (name : String) (bases : List String) (lines : List Line)
  | call (name : String) (fields : List Field)
  | literals (name : String) (values : List Literal)

namespace Block

/-- The texts of a block that can be written. -/
inductive Writes : Block → String → Prop
  | cls {name : String} {bases : List String} {lines : List Line} {texts : List String}
    (name_ok : isIdentifier name = true) (bases_ok : ∀ base ∈ bases, isIdentifier base = true)
    (lines_ok : List.Forall₂ (fun l s => Line.write l = .ok s) lines texts) :
    Writes (.cls name bases lines)
      ("class " ++ name ++ "(" ++ Text.join ", " bases ++ "):\n" ++ String.join texts)
  | call {name : String} {fields : List Field} {texts : List String}
    (name_ok : isIdentifier name = true)
    (fields_ok : List.Forall₂ (fun f s => dictLine f = .ok s) fields texts) :
    Writes (.call name fields)
      (name ++ " = TypedDict(" ++ quote name ++ ", \x7b\n" ++ String.join texts
        ++ "\x7d, total=True)\n")
  | literals {name : String} {values : List Literal} (name_ok : isIdentifier name = true) :
    Writes (.literals name values) (name ++ " = " ++ literalSet values ++ "\n")

/-- Whether two blocks say the same, up to names of builtin types. -/
def Alike : Block → Block → Prop
  | .cls m as ls, .cls n bs ks => m = n ∧ as = bs ∧ List.Forall₂ Line.Alike ls ks
  | .call m fs, .call n gs => m = n ∧ List.Forall₂ Field.Alike fs gs
  | .literals m as, .literals n bs => m = n ∧ (as == bs) = true
  | _, _ => False

/-- Two words with something behind them that cannot stand in a word are the same. -/
lemma word_append_inj {a b : String} (ha : ∀ c ∈ a.toList, isIdentifierChar c = true)
    (hb : ∀ c ∈ b.toList, isIdentifierChar c = true) {c d : Char}
    (hc : isIdentifierChar c = false) (hd : isIdentifierChar d = false) {u v : List Char}
    (h : a.toList ++ c :: u = b.toList ++ d :: v) : a = b ∧ u = v := by
  obtain ⟨hword, hbehind⟩ := Text.append_inj_of_all ha hb (by rintro _ ⟨⟩; exact hc)
    (by rintro _ ⟨⟩; exact hd) h
  exact ⟨String.toList_inj.1 hword, (List.cons.inj hbehind).2⟩

/-- The first word of a block. -/
def word : Block → String
  | .cls _ _ _ => "class"
  | .call name _ => name
  | .literals name _ => name

/-- What stands behind the first word of a block that can be written, and the blank behind it. -/
inductive Tail : Block → List Char → Prop
  | cls {name : String} {bases : List String} {lines : List Line} {texts : List String}
    (name_ok : isIdentifier name = true) (bases_ok : ∀ base ∈ bases, isIdentifier base = true)
    (lines_ok : List.Forall₂ (fun l s => Line.write l = .ok s) lines texts) :
    Tail (.cls name bases lines)
      (name.toList ++ '(' :: ((Text.join ", " bases).toList ++
        ')' :: (":\n".toList ++ texts.flatMap String.toList)))
  | call {name : String} {fields : List Field} {texts : List String}
    (name_ok : isIdentifier name = true)
    (fields_ok : List.Forall₂ (fun f s => dictLine f = .ok s) fields texts) :
    Tail (.call name fields)
      ("= TypedDict(".toList ++ (quoteChars name.toList ++
        (", \x7b\n".toList ++ (texts.flatMap String.toList ++ "\x7d, total=True)\n".toList))))
  | literals {name : String} {values : List Literal} (name_ok : isIdentifier name = true) :
    Tail (.literals name values) ("= ".toList ++ ((literalSet values).toList ++ "\n".toList))

lemma Writes.exists_tail {b : Block} {s : String} (h : b.Writes s) :
    ∃ t, b.Tail t ∧ s.toList = b.word.toList ++ ' ' :: t := by
  cases h with
  | cls hname hbases hlines =>
    refine ⟨_, .cls hname hbases hlines, ?_⟩
    simp only [word, String.toList_append, List.append_assoc, String.toList_join]
    rfl
  | call hname hfields =>
    refine ⟨_, .call hname hfields, ?_⟩
    simp only [String.toList_append, List.append_assoc, String.toList_join, toList_quote]
    rfl
  | literals hname =>
    refine ⟨_, .literals hname, ?_⟩
    simp only [String.toList_append, List.append_assoc]
    rfl

lemma Tail.isIdentifierChar_of_mem_word {b : Block} {t : List Char} (h : b.Tail t) :
    ∀ c ∈ b.word.toList, isIdentifierChar c = true := by
  cases h with
  | cls =>
    have hclass : "class".toList.all isIdentifierChar = true := rfl
    exact List.all_eq_true.1 hclass
  | call hname => exact isIdentifierChar_of_mem hname
  | literals hname => exact isIdentifierChar_of_mem hname

lemma head?_brace (u : List Char) : ("\x7d, total=True)\n".toList ++ u).head? ≠ some ' ' :=
  fun h => absurd (Option.some.inj h) (by decide)

lemma call_ne_literals (values : List Literal) (u v : List Char) :
    "= TypedDict(".toList ++ u ≠ "= ".toList ++ ((literalSet values).toList ++ v) := by
  rw [literalSet, String.toList_append, String.toList_append, List.append_assoc, List.append_assoc]
  intro h
  have hthird : some 'T' = some 'L' := congrArg (fun text => text[2]?) h
  exact absurd hthird (by decide)

lemma unambiguous_checkedName (role : NameRole) (name : String) :
    Text.Unambiguous (checkedName role) Eq
      (fun u => u.head? = some ',' ∨ u.head? = some ')') name := by
  intro name' s s' hs hs' u v hu hv heq
  obtain ⟨hname, rfl⟩ := checkedName_eq_ok.1 hs
  obtain ⟨hname', rfl⟩ := checkedName_eq_ok.1 hs'
  have hend : ∀ {w : List Char}, w.head? = some ',' ∨ w.head? = some ')' →
      ∀ c ∈ w.head?, isIdentifierChar c = false := by
    intro w hw c hc
    rcases hw with hw | hw <;> rw [hw] at hc <;> cases hc <;> rfl
  obtain ⟨hword, huv⟩ := Text.append_inj_of_all (isIdentifierChar_of_mem hname)
    (isIdentifierChar_of_mem hname') (hend hu) (hend hv) heq
  exact ⟨String.toList_inj.1 hword, huv⟩

lemma forall₂_checkedName {names : List String} (h : ∀ name ∈ names, isIdentifier name = true) :
    List.Forall₂ (fun name s => checkedName .base name = .ok s) names names :=
  List.forall₂_same.2 fun name hname => checkedName_eq_ok.2 ⟨h name hname, rfl⟩

lemma ne_class_of_isIdentifier {name : String} (h : isIdentifier name = true) : name ≠ "class" :=
  ne_keyword_of_isIdentifier h (by decide)

lemma unambiguous_cls {name name' : String} {bases bases' texts texts' : List String}
    {lines lines' : List Line} (hname : isIdentifier name = true)
    (hname' : isIdentifier name' = true) (hbases : ∀ base ∈ bases, isIdentifier base = true)
    (hbases' : ∀ base ∈ bases', isIdentifier base = true)
    (hlines : List.Forall₂ (fun l s => Line.write l = .ok s) lines texts)
    (hlines' : List.Forall₂ (fun l s => Line.write l = .ok s) lines' texts')
    {u v : List Char} (hu : u.head? ≠ some ' ') (hv : v.head? ≠ some ' ')
    (heq : name.toList ++ '(' :: ((Text.join ", " bases).toList ++
        ')' :: (":\n".toList ++ (texts.flatMap String.toList ++ u))) =
      name'.toList ++ '(' :: ((Text.join ", " bases').toList ++
        ')' :: (":\n".toList ++ (texts'.flatMap String.toList ++ v)))) :
    (Block.cls name bases lines).Alike (.cls name' bases' lines') ∧ u = v := by
  have hstart : ∀ (name s : String), checkedName .base name = .ok s →
      ∃ c rest, s.toList = c :: rest ∧ c ≠ ')' := by
    intro name s hs
    obtain ⟨hname, rfl⟩ := checkedName_eq_ok.1 hs
    obtain ⟨c, rest, hlist, hstart, _⟩ := exists_of_isIdentifier hname
    refine ⟨c, rest, hlist, ?_⟩
    rintro rfl
    exact absurd hstart (by decide)
  obtain ⟨hnames, heq⟩ := word_append_inj (isIdentifierChar_of_mem hname)
    (isIdentifierChar_of_mem hname') (by decide) (by decide) heq
  obtain ⟨hbase, heq⟩ := Text.forall₂_of_join rfl (fun base _ => unambiguous_checkedName .base base)
    hstart (fun _ h => .inl h) (fun _ h => .inr h) (by decide) (forall₂_checkedName hbases)
    (forall₂_checkedName hbases') heq
  obtain ⟨hline, huv⟩ := Text.forall₂_of_concat (fun l _ => Line.unambiguous l)
    (fun _ _ h => Line.head?_write h) (fun _ _ => trivial) hlines hlines' trivial trivial hu hv
    (List.append_cancel_left heq)
  exact ⟨⟨hnames, List.forall₂_eq_eq_eq ▸ hbase, hline⟩, huv⟩

lemma unambiguous_call {name : String} {fields fields' : List Field} {texts texts' : List String}
    (hfields : List.Forall₂ (fun f s => dictLine f = .ok s) fields texts)
    (hfields' : List.Forall₂ (fun f s => dictLine f = .ok s) fields' texts') {u v : List Char}
    (heq : texts.flatMap String.toList ++ ("\x7d, total=True)\n".toList ++ u) =
      texts'.flatMap String.toList ++ ("\x7d, total=True)\n".toList ++ v)) :
    (Block.call name fields).Alike (.call name fields') ∧ u = v := by
  obtain ⟨halike, huv⟩ := Text.forall₂_of_concat (fun f _ => unambiguous_dictLine f)
    (fun _ _ h => head?_dictLine h) (fun _ _ => trivial) hfields hfields' trivial trivial
    (head?_brace u) (head?_brace v) heq
  exact ⟨⟨rfl, halike⟩, List.append_cancel_left huv⟩

/-- Behind equal first words, the rest of a block says what the block is and where it ends. -/
lemma Tail.unambiguous {b b' : Block} {t t' : List Char} (h : b.Tail t) (h' : b'.Tail t')
    (hword : b.word = b'.word) {u v : List Char} (hu : u.head? ≠ some ' ')
    (hv : v.head? ≠ some ' ') (heq : t ++ u = t' ++ v) : b.Alike b' ∧ u = v := by
  cases h with
  | cls hname hbases hlines =>
    cases h' with
    | cls hname' hbases' hlines' =>
      simp only [List.append_assoc, List.cons_append] at heq
      exact unambiguous_cls hname hname' hbases hbases' hlines hlines' hu hv heq
    | call hname' => exact absurd hword.symm (ne_class_of_isIdentifier hname')
    | literals hname' => exact absurd hword.symm (ne_class_of_isIdentifier hname')
  | call hname hfields =>
    cases h' with
    | cls => exact absurd hword (ne_class_of_isIdentifier hname)
    | call hname' hfields' =>
      simp only [List.append_assoc] at heq
      obtain ⟨_, hbehind⟩ := quoteChars_append_inj (List.append_cancel_left heq)
      cases hword
      exact unambiguous_call hfields hfields' (List.append_cancel_left hbehind)
    | literals =>
      simp only [List.append_assoc] at heq
      exact absurd heq (call_ne_literals _ _ _)
  | literals hname =>
    cases h' with
    | cls => exact absurd hword (ne_class_of_isIdentifier hname)
    | call =>
      simp only [List.append_assoc] at heq
      exact absurd heq.symm (call_ne_literals _ _ _)
    | literals =>
      simp only [List.append_assoc] at heq
      obtain ⟨hvalues, huv⟩ := literalSet_append_inj (List.append_cancel_left heq)
      exact ⟨⟨hword, hvalues⟩, List.append_cancel_left huv⟩

/-- A block says itself where it ends, if no line of a class body can follow. -/
theorem Writes.unambiguous {b b' : Block} {s s' : String} (h : b.Writes s) (h' : b'.Writes s')
    {u v : List Char} (hu : u.head? ≠ some ' ') (hv : v.head? ≠ some ' ')
    (heq : s.toList ++ u = s'.toList ++ v) : b.Alike b' ∧ u = v := by
  obtain ⟨t, ht, hs⟩ := h.exists_tail
  obtain ⟨t', ht', hs'⟩ := h'.exists_tail
  rw [hs, hs', List.append_assoc, List.append_assoc] at heq
  obtain ⟨hword, htail⟩ := word_append_inj ht.isIdentifierChar_of_mem_word
    ht'.isIdentifierChar_of_mem_word (by decide) (by decide) heq
  exact ht.unambiguous ht' hword hu hv htail

end Block
end Python
end TypedSchema
