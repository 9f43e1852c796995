import TypedSchema.Proofs.Induction
import TypedSchema.Proofs.Python.Literal
import TypedSchema.Proofs.Schema.Equality
import TypedSchema.Python.Expression

/-!
# The text of a type determines the type

A declared type may have the name of a builtin one, and then its bare name is also the text of the
builtin type.  Nothing else is written alike: types of one text are equal once every such name is
taken for the builtin type (`Ty.Alike`), and a type is told apart from what follows it in source
(`Python.unambiguous_expression`).

The text of a type begins with a quoted name, a word, or a word with a bracket behind it
(`Python.Head`), and that beginning shows which of the ways to write a type was taken.
-/

namespace TypedSchema

/-! ## Types that are written alike -/

/-- The builtin type of a name that a declared type can have. -/
def Ty.builtin? : String → Option Ty
  | "bool" => some (.primitive .boolean)
  | "int" => some (.primitive .integer)
  | "float" => some (.primitive .number)
  | "str" => some (.primitive .string)
  | "dict" => some .anyObject
  | _ => none

mutual

/-- The type with every name of a builtin type taken for the builtin type. -/
def Ty.plain : Ty → Ty
  | .primitive kind => .primitive kind
  | .named name => (Ty.builtin? name).getD (.named name)
  | .anyObject => .anyObject
  | .listOf element => .listOf element.plain
  | .unionOf members => .unionOf (Ty.plainList members)
  | .literalEnum values => .literalEnum values

/-- The types of a list, with every name of a builtin type taken for the builtin type. -/
def Ty.plainList : List Ty → List Ty
  | [] => []
  | t :: rest => t.plain :: Ty.plainList rest

end

/-- Whether two types are equal up to names of builtin types. -/
def Ty.Alike (t u : Ty) : Prop := (t.plain == u.plain) = true

lemma Ty.alike_of_plain_eq {t u : Ty} (h : t.plain = u.plain) : t.Alike u := by
  rw [Ty.Alike, h]
  exact BEq.rfl

lemma Ty.alike_unionOf {ts us : List Ty} (h : List.Forall₂ Ty.Alike ts us) :
    (Ty.unionOf ts).Alike (.unionOf us) := by
  show Ty.sameList (Ty.plainList ts) (Ty.plainList us) = true
  induction h with
  | nil => rfl
  | cons htu _ ih =>
    rw [Ty.plainList, Ty.plainList, Ty.sameList, Bool.and_eq_true]
    exact ⟨htu, ih⟩

namespace Python

/-! ## Names -/

lemma checkedName_eq_ok {role : NameRole} {name checked : String} :
    checkedName role name = .ok checked ↔ isIdentifier name = true ∧ name = checked := by
  unfold checkedName
  split <;> simp_all

lemma isIdentifierChar_of_isIdentifierStart {c : Char} (h : isIdentifierStart c = true) :
    isIdentifierChar c = true := by
  simp only [isIdentifierStart, isIdentifierChar, Char.isAlphanum, Bool.or_eq_true] at h ⊢
  exact h.imp_left .inl

lemma exists_of_isIdentifier {name : String} (h : isIdentifier name = true) :
    ∃ c rest, name.toList = c :: rest ∧ isIdentifierStart c = true ∧
      ∀ d ∈ c :: rest, isIdentifierChar d = true := by
  rw [isIdentifier, Bool.and_eq_true] at h
  obtain ⟨hword, _⟩ := h
  cases hlist : name.toList with
  | nil =>
    rw [hlist] at hword
    exact absurd hword Bool.false_ne_true
  | cons c rest =>
    rw [hlist, isWord, Bool.and_eq_true, List.all_eq_true] at hword
    exact ⟨c, rest, rfl, hword.1,
      List.forall_mem_cons.2 ⟨isIdentifierChar_of_isIdentifierStart hword.1, hword.2⟩⟩

lemma isIdentifierChar_of_mem {name : String} (h : isIdentifier name = true) :
    ∀ c ∈ name.toList, isIdentifierChar c = true := by
  obtain ⟨c, rest, hlist, _, hall⟩ := exists_of_isIdentifier h
  rw [hlist]
  exact hall

lemma ne_keyword_of_isIdentifier {name : String} (h : isIdentifier name = true) {keyword : String}
    (hkeyword : keyword ∈ keywords) : name ≠ keyword := by
  rw [isIdentifier, Bool.and_eq_true] at h
  rintro rfl
  simp [hkeyword] at h

/-! ## Beginnings -/

/-- What may stand behind a type in source. -/
def EndsType (u : List Char) : Prop := u.head? = some ',' ∨ u.head? = some ']' ∨ u.head? = some '\n'

/-- How the text of a type begins. -/
inductive Head where
  | quote
  | word (word : List Char)
  | bracket (word : List Char)

/-- The beginning of a text. -/
def headOf (text : List Char) : Head :=
  if text.head? = some '\x27' then .quote
  else if (text.dropWhile isIdentifierChar).head? = some '[' then
    .bracket (text.takeWhile isIdentifierChar)
  else .word (text.takeWhile isIdentifierChar)

/-- The beginning of the text of a type. -/
def typeHead (style : NameStyle) : Ty → Head
  | .primitive kind => .word (kindName kind).toList
  | .named name =>
    match style with
    | .bare => .word name.toList
    | .quoted => .quote
  | .anyObject => .word "dict".toList
  | .listOf _ => .bracket "list".toList
  | .unionOf _ => .bracket "Union".toList
  | .literalEnum _ => .bracket "Literal".toList

/-- The type that a word is written for. -/
def wordType (word : String) : Ty :=
  if word = "None" then .primitive .null else (Ty.builtin? word).getD (.named word)

lemma EndsType.isIdentifierChar_eq_false {u : List Char} (h : EndsType u) :
    ∀ c ∈ u.head?, isIdentifierChar c = false := by
  intro c hc
  rcases h with h | h | h <;> rw [h] at hc <;> cases hc <;> rfl

lemma EndsType.head?_ne_bracket {u : List Char} (h : EndsType u) : u.head? ≠ some '[' := by
  rcases h with h | h | h <;> rw [h] <;> decide

lemma headOf_word {word u : List Char} (hne : word ≠ [])
    (hword : ∀ c ∈ word, isIdentifierChar c = true) (hu : EndsType u) :
    headOf (word ++ u) = .word word := by
  obtain ⟨c, rest, rfl⟩ := List.exists_cons_of_ne_nil hne
  have hc : (c :: rest ++ u).head? ≠ some '\x27' := by
    rintro h
    have hquote := hword c List.mem_cons_self
    rw [show c = '\x27' from Option.some.inj h] at hquote
    exact absurd hquote (by decide)
  have hdrop : u.dropWhile isIdentifierChar = u := by
    cases u with
    | nil => rfl
    | cons d u =>
      have hd := hu.isIdentifierChar_eq_false d rfl
      exact List.dropWhile_cons_of_neg (by simp [hd])
  have htake : u.takeWhile isIdentifierChar = [] := by
    cases u with
    | nil => rfl
    | cons d u =>
      have hd := hu.isIdentifierChar_eq_false d rfl
      exact List.takeWhile_cons_of_neg (by simp [hd])
  unfold headOf
  rw [if_neg hc, List.dropWhile_append_of_pos hword, hdrop, if_neg hu.head?_ne_bracket,
    List.takeWhile_append_of_pos hword, htake, List.append_nil]

lemma kindName_isWord (kind : Kind) :
    (kindName kind).toList ≠ [] ∧ ∀ c ∈ (kindName kind).toList, isIdentifierChar c = true := by
  cases kind <;> exact ⟨by decide, List.all_eq_true.1 rfl⟩

lemma expressions_eq_ok {style : NameStyle} {ts : List Ty} {ss : List String} :
    expressions style ts = .ok ss ↔
      List.Forall₂ (fun t s => expression style t = .ok s) ts ss := by
  induction ts generalizing ss with
  | nil => cases ss <;> simp [expressions]
  | cons t ts ih => cases ss <;> simp [expressions, ih]

/-- The text of a type begins as the type says. -/
lemma headOf_expression {style : NameStyle} {t : Ty} {s : String} (h : expression style t = .ok s)
    {u : List Char} (hu : EndsType u) : headOf (s.toList ++ u) = typeHead style t := by
  cases t with
  | primitive kind =>
    cases h
    exact headOf_word (kindName_isWord kind).1 (kindName_isWord kind).2 hu
  | named name =>
    simp only [expression, reference, bind_eq_ok, pure_eq_ok, checkedName_eq_ok] at h
    obtain ⟨_, ⟨hname, rfl⟩, rfl⟩ := h
    obtain ⟨c, rest, hlist, -, -⟩ := exists_of_isIdentifier hname
    cases style with
    | bare =>
      exact headOf_word (hlist ▸ List.cons_ne_nil _ _) (isIdentifierChar_of_mem hname) hu
    | quoted =>
      show headOf ((quote name).toList ++ u) = .quote
      rw [toList_quote]
      rfl
  | anyObject =>
    cases h
    exact headOf_word (by decide) (List.all_eq_true.1 rfl) hu
  | listOf element =>
    simp only [expression, bind_eq_ok, pure_eq_ok] at h
    obtain ⟨e, _, rfl⟩ := h
    rw [String.toList_append, String.toList_append, List.append_assoc, List.append_assoc]
    rfl
  | unionOf members =>
    simp only [expression, bind_eq_ok, pure_eq_ok] at h
    obtain ⟨ss, _, rfl⟩ := h
    rw [String.toList_append, String.toList_append, List.append_assoc, List.append_assoc]
    rfl
  | literalEnum values =>
    cases h
    rw [literalSet, String.toList_append, String.toList_append, List.append_assoc,
      List.append_assoc]
    rfl

/-! ## Types -/

lemma eq_word_of_typeHead {style : NameStyle} {t : Ty} {s : String} {word : List Char}
    (h : expression style t = .ok s) (hhead : typeHead style t = .word word) :
    s.toList = word ∧ t.plain = wordType s := by
  cases t with
  | primitive kind =>
    cases h
    cases hhead
    exact ⟨rfl, by cases kind <;> rfl⟩
  | named name =>
    simp only [expression, reference, bind_eq_ok, pure_eq_ok, checkedName_eq_ok] at h
    obtain ⟨_, ⟨hname, rfl⟩, rfl⟩ := h
    cases style with
    | bare =>
      cases hhead
      have hnone : name ≠ "None" := ne_keyword_of_isIdentifier hname (by decide)
      exact ⟨rfl, by rw [Ty.plain, wordType, if_neg hnone]⟩
    | quoted => cases hhead
  | anyObject =>
    cases h
    cases hhead
    exact ⟨rfl, rfl⟩
  | _ => cases hhead

lemma eq_named_of_typeHead {style : NameStyle} {t : Ty} {s : String}
    (h : expression style t = .ok s) (hhead : typeHead style t = .quote) :
    ∃ name, t = .named name ∧ s = quote name := by
  cases t with
  | named name =>
    simp only [expression, reference, bind_eq_ok, pure_eq_ok, checkedName_eq_ok] at h
    obtain ⟨_, ⟨_, rfl⟩, rfl⟩ := h
    cases style with
    | bare => cases hhead
    | quoted => exact ⟨name, rfl, rfl⟩
  | _ => cases hhead

/-- Types that begin with a word or a quoted name are told apart. -/
lemma unambiguous_of_ne_bracket {style : NameStyle} {t : Ty}
    (hhead : ∀ word, typeHead style t ≠ .bracket word) :
    Text.Unambiguous (expression style) Ty.Alike EndsType t := by
  intro t' s s' hs hs' u v hu hv heq
  have hheads : typeHead style t = typeHead style t' := by
    rw [← headOf_expression hs hu, heq, headOf_expression hs' hv]
  cases hword : typeHead style t with
  | quote =>
    obtain ⟨name, rfl, rfl⟩ := eq_named_of_typeHead hs hword
    obtain ⟨name', rfl, rfl⟩ := eq_named_of_typeHead hs' (hheads ▸ hword)
    rw [toList_quote, toList_quote] at heq
    obtain ⟨hname, huv⟩ := quoteChars_append_inj heq
    rw [String.toList_inj.1 hname]
    exact ⟨BEq.rfl, huv⟩
  | word word =>
    obtain ⟨htext, hplain⟩ := eq_word_of_typeHead hs hword
    obtain ⟨htext', hplain'⟩ := eq_word_of_typeHead hs' (hheads ▸ hword)
    have hss' : s = s' := String.toList_inj.1 (htext.trans htext'.symm)
    subst hss'
    exact ⟨Ty.alike_of_plain_eq (hplain.trans hplain'.symm), List.append_cancel_left heq⟩
  | bracket word => exact absurd hword (hhead word)

lemma eq_listOf_of_typeHead {style : NameStyle} {t : Ty}
    (h : typeHead style t = .bracket "list".toList) : ∃ element, t = .listOf element := by
  cases t with
  | listOf element => exact ⟨element, rfl⟩
  | named name => cases style <;> cases h
  | _ => simp [typeHead] at h

lemma eq_unionOf_of_typeHead {style : NameStyle} {t : Ty}
    (h : typeHead style t = .bracket "Union".toList) : ∃ members, t = .unionOf members := by
  cases t with
  | unionOf members => exact ⟨members, rfl⟩
  | named name => cases style <;> cases h
  | _ => simp [typeHead] at h

lemma eq_literalEnum_of_typeHead {style : NameStyle} {t : Ty}
    (h : typeHead style t = .bracket "Literal".toList) : ∃ values, t = .literalEnum values := by
  cases t with
  | literalEnum values => exact ⟨values, rfl⟩
  | named name => cases style <;> cases h
  | _ => simp [typeHead] at h

/-- The text of a type does not begin with a closing bracket. -/
lemma exists_head_expression {style : NameStyle} {t : Ty} {s : String}
    (h : expression style t = .ok s) : ∃ c rest, s.toList = c :: rest ∧ c ≠ ']' := by
  cases t with
  | primitive kind =>
    cases h
    cases kind <;> exact ⟨_, _, rfl, by decide⟩
  | named name =>
    simp only [expression, reference, bind_eq_ok, pure_eq_ok, checkedName_eq_ok] at h
    obtain ⟨_, ⟨hname, rfl⟩, rfl⟩ := h
    cases style with
    | bare =>
      obtain ⟨c, rest, hlist, hstart, _⟩ := exists_of_isIdentifier hname
      refine ⟨c, rest, hlist, ?_⟩
      rintro rfl
      exact absurd hstart (by decide)
    | quoted => exact ⟨'\x27', _, toList_quote name, by decide⟩
  | anyObject =>
    cases h
    exact ⟨'d', _, rfl, by decide⟩
  | listOf element =>
    simp only [expression, bind_eq_ok, pure_eq_ok] at h
    obtain ⟨e, _, rfl⟩ := h
    rw [String.toList_append, String.toList_append]
    exact ⟨'l', _, rfl, by decide⟩
  | unionOf members =>
    simp only [expression, bind_eq_ok, pure_eq_ok] at h
    obtain ⟨ss, _, rfl⟩ := h
    rw [String.toList_append, String.toList_append]
    exact ⟨'U', _, rfl, by decide⟩
  | literalEnum values =>
    cases h
    rw [literalSet, String.toList_append, String.toList_append]
    exact ⟨'L', _, rfl, by decide⟩

/-- A type is told apart from what follows it. -/
theorem unambiguous_expression (style : NameStyle) :
    ∀ t, Text.Unambiguous (expression style) Ty.Alike EndsType t := by
  refine Ty.induction ?primitive ?named ?anyObject ?listOf ?unionOf ?literalEnum
  case primitive => exact fun kind => unambiguous_of_ne_bracket nofun
  case named =>
    intro name
    cases style <;> exact unambiguous_of_ne_bracket nofun
  case anyObject => exact unambiguous_of_ne_bracket nofun
  case listOf =>
    intro element ih t' s s' hs hs' u v hu hv heq
    have hheads : typeHead style (.listOf element) = typeHead style t' := by
      rw [← headOf_expression hs hu, heq, headOf_expression hs' hv]
    obtain ⟨element', rfl⟩ := eq_listOf_of_typeHead hheads.symm
    simp only [expression, bind_eq_ok, pure_eq_ok] at hs hs'
    obtain ⟨e, he, rfl⟩ := hs
    obtain ⟨e', he', rfl⟩ := hs'
    simp only [String.toList_append, List.append_assoc] at heq
    obtain ⟨halike, huv⟩ := ih he he' (.inr (.inl rfl)) (.inr (.inl rfl))
      (List.append_cancel_left heq)
    exact ⟨halike, List.append_cancel_left huv⟩
  case unionOf =>
    intro members ih t' s s' hs hs' u v hu hv heq
    have hheads : typeHead style (.unionOf members) = typeHead style t' := by
      rw [← headOf_expression hs hu, heq, headOf_expression hs' hv]
    obtain ⟨members', rfl⟩ := eq_unionOf_of_typeHead hheads.symm
    simp only [expression, bind_eq_ok, pure_eq_ok, expressions_eq_ok] at hs hs'
    obtain ⟨ss, hss, rfl⟩ := hs
    obtain ⟨ss', hss', rfl⟩ := hs'
    simp only [String.toList_append, List.append_assoc] at heq
    obtain ⟨halike, huv⟩ := Text.forall₂_of_join rfl ih (fun _ _ h => exists_head_expression h)
      (fun _ h => .inl h) (fun _ h => .inr (.inl h)) (by decide) hss hss'
      (List.append_cancel_left heq)
    exact ⟨Ty.alike_unionOf halike, huv⟩
  case literalEnum =>
    intro values t' s s' hs hs' u v hu hv heq
    have hheads : typeHead style (.literalEnum values) = typeHead style t' := by
      rw [← headOf_expression hs hu, heq, headOf_expression hs' hv]
    obtain ⟨values', rfl⟩ := eq_literalEnum_of_typeHead hheads.symm
    cases hs
    cases hs'
    exact literalSet_append_inj heq

/-! ## Types of fields -/

lemma typeHead_ne_notRequired {style : NameStyle} (t : Ty) :
    typeHead style t ≠ .bracket "NotRequired".toList := by
  cases t with
  | named name => cases style <;> exact nofun
  | _ => simp [typeHead]

/-- The type of a field and whether the field is required are told apart from what follows. -/
theorem unambiguous_fieldType (style : NameStyle) (field : Field) :
    Text.Unambiguous (fieldType style)
      (fun f g => f.ty.Alike g.ty ∧ f.required = g.required) EndsType field := by
  intro field' s s' hs hs' u v hu hv heq
  simp only [fieldType, bind_eq_ok, pure_eq_ok] at hs hs'
  obtain ⟨t, ht, rfl⟩ := hs
  obtain ⟨t', ht', rfl⟩ := hs'
  have hmark : ∀ (text : String) (w : List Char),
      headOf (("NotRequired[" ++ text ++ "]").toList ++ w) = .bracket "NotRequired".toList := by
    intro text w
    rw [String.toList_append, String.toList_append, List.append_assoc, List.append_assoc]
    rfl
  cases hrequired : field.required <;> cases hrequired' : field'.required <;>
    simp only [hrequired, hrequired', Bool.false_eq_true, if_true, if_false] at heq ⊢
  case true.true =>
    obtain ⟨halike, huv⟩ := unambiguous_expression style _ ht ht' hu hv heq
    exact ⟨⟨halike, trivial⟩, huv⟩
  case false.false =>
    simp only [String.toList_append, List.append_assoc] at heq
    obtain ⟨halike, huv⟩ := unambiguous_expression style _ ht ht' (.inr (.inl rfl))
      (.inr (.inl rfl)) (List.append_cancel_left heq)
    exact ⟨⟨halike, trivial⟩, List.append_cancel_left huv⟩
  case true.false =>
    have hhead := headOf_expression ht hu
    rw [heq, hmark] at hhead
    exact absurd hhead.symm (typeHead_ne_notRequired field.ty)
  case false.true =>
    have hhead := headOf_expression ht' hv
    rw [← heq, hmark] at hhead
    exact absurd hhead.symm (typeHead_ne_notRequired field'.ty)

end Python
end TypedSchema
