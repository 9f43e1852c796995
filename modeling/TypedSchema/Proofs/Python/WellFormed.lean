import TypedSchema.Proofs.Binary64.Rounding
import TypedSchema.Proofs.Declaration.Module
import TypedSchema.Proofs.Python.Grammar
import TypedSchema.Proofs.Python.Source

/-!
# Emitted source follows the grammar

A module of schemas that list finite numbers, as those of a document do
(`Schema.WellFormed.listsFinite`), is written as the import lines and then, for each of its
declarations in order, an empty line and one block of the grammar
(`Python.Emitter.emit_wellFormed`).  No schema can break out of it: names are checked, strings are
escaped, and what would leave a union, a set of literals or a body empty never gets this far,
because the declarations of an assembled module are in normal form.
-/

namespace TypedSchema
namespace Python

/-! ## Strings -/

lemma isHexDigit_hexDigit {n : Nat} (h : n < 16) : IsHexDigit (Json.hexDigit n) := by
  have hall : ∀ n < 16, ('0' ≤ Json.hexDigit n ∧ Json.hexDigit n ≤ '9') ∨
      'a' ≤ Json.hexDigit n ∧ Json.hexDigit n ≤ 'f' := by decide
  exact (hall n h).imp_right .inl

lemma isPlain_of_not_isControl {c : Char} (hquote : c ≠ '\x27') (hbackslash : c ≠ '\x5c')
    (h : ¬isControl c = true) : IsPlain c := by
  refine ⟨hquote, hbackslash, ?_⟩
  simp only [isControl, Bool.or_eq_true, Bool.and_eq_true, decide_eq_true_eq] at h
  omega

/-- What stands for a character can stand in a string. -/
lemma isStringBody_escapeChar (c : Char) {rest : List Char} (h : IsStringBody rest) :
    IsStringBody (escapeChar c ++ rest) := by
  unfold escapeChar
  split_ifs with hbackslash hquote hnewline hreturn htab hcontrol
  case pos | pos | pos | pos | pos => exact .escape (by decide) h
  case pos =>
    have hlt : c.toNat < 160 := by
      simp only [isControl, Bool.or_eq_true, Bool.and_eq_true, decide_eq_true_eq] at hcontrol
      omega
    exact .hex (isHexDigit_hexDigit (by omega)) (isHexDigit_hexDigit (by omega)) h
  case neg => exact .plain (isPlain_of_not_isControl hquote hbackslash hcontrol) h

lemma isString_quote (s : String) : IsString (quote s) := by
  refine ⟨s.toList.flatMap escapeChar, ?_, toList_quote s⟩
  induction s.toList with
  | nil => exact .nil
  | cons c rest ih =>
    rw [List.flatMap_cons]
    exact isStringBody_escapeChar c ih

lemma toNat_of_isIdentifierChar {c : Char} (h : isIdentifierChar c = true) :
    0x30 ≤ c.toNat ∧ c.toNat ≤ 0x7A := by
  rw [isIdentifierChar_iff] at h
  simp only [IsLetter, IsDigit, Char.le_def, UInt32.le_iff_toNat_le] at h
  rcases h with (⟨hlow, hhigh⟩ | ⟨hlow, hhigh⟩) | ⟨hlow, hhigh⟩ | rfl
  · exact ⟨Nat.le_trans (by decide) hlow, Nat.le_trans hhigh (by decide)⟩
  · exact ⟨Nat.le_trans (by decide) hlow, Nat.le_trans hhigh (by decide)⟩
  · exact ⟨Nat.le_trans (by decide) hlow, Nat.le_trans hhigh (by decide)⟩
  · decide

lemma escapeChar_of_isIdentifierChar {c : Char} (h : isIdentifierChar c = true) :
    escapeChar c = [c] := by
  have hne : ∀ d, isIdentifierChar d = false → c ≠ d := by
    rintro d hd rfl
    exact absurd (h.symm.trans hd) (by decide)
  have hcontrol : ¬isControl c = true := by
    have hbounds := toNat_of_isIdentifierChar h
    simp only [isControl, Bool.or_eq_true, Bool.and_eq_true, decide_eq_true_eq]
    omega
  rw [escapeChar, if_neg (hne _ (by decide)), if_neg (hne _ (by decide)),
    if_neg (hne _ (by decide)), if_neg (hne _ (by decide)), if_neg (hne _ (by decide)),
    if_neg hcontrol]

lemma flatMap_escapeChar {s : List Char} (h : ∀ c ∈ s, isIdentifierChar c = true) :
    s.flatMap escapeChar = s := by
  induction s with
  | nil => rfl
  | cons c rest ih =>
    obtain ⟨hc, hrest⟩ := List.forall_mem_cons.1 h
    rw [List.flatMap_cons, escapeChar_of_isIdentifierChar hc, ih hrest, List.singleton_append]

/-- A name between quotes has nothing to escape. -/
lemma quote_of_isName {name : String} (h : IsName name) :
    quote name = "\x27" ++ name ++ "\x27" := by
  rw [← String.toList_inj, toList_quote, quoteChars, flatMap_escapeChar h.forall_mem]
  simp only [String.toList_append]
  rfl

/-! ## Numbers -/

lemma isDigits_toDigits (n : Nat) : IsDigits (Nat.toDigits 10 n) :=
  ⟨Nat.toDigits_ne_nil, fun c hc => isDigit_iff.1 (Layout.isDigit_of_mem_toDigits c hc)⟩

lemma isLiteral_integer (n : Int) : IsLiteral (Json.integerText n) := by
  have hnumeral : IsNumeral (Nat.toDigits 10 n.natAbs) :=
    .integer (isDigits_toDigits _) Decimal.toDigits_eq_zero_of_head?
  have htext := Json.integerText_eq n
  split at htext
  · exact .negative htext hnumeral
  · exact .number (htext ▸ hnumeral)

lemma IsDigits.append {as bs : List Char} (has : IsDigits as) (hbs : ∀ b ∈ bs, IsDigit b) :
    IsDigits (as ++ bs) :=
  ⟨List.append_ne_nil_of_left_ne_nil has.1 bs, List.forall_mem_append.2 ⟨has.2, hbs⟩⟩

lemma isDigits_zero : IsDigits ['0'] :=
  ⟨List.cons_ne_nil _ _, List.forall_mem_singleton.2 ⟨by decide, by decide⟩⟩

/-- A positional text that keeps its point has digits on both sides of it. -/
lemma isNumeral_positionalText {layout : Layout} (hzero : layout.pointZero = true) (n : Nat)
    (e : Int) : IsNumeral (layout.positionalText (Nat.repr n) e).toList := by
  have hdigits := isDigits_toDigits n
  have hzeros : ∀ k, ∀ c ∈ List.replicate k '0', IsDigit c := fun k c hc =>
    isDigit_iff.1 (Layout.isDigit_of_mem_zeros c hc)
  have hlength : (Nat.repr n).length = (Nat.toDigits 10 n).length := by
    rw [← String.length_toList, Nat.toList_repr]
  unfold Layout.positionalText
  rw [if_pos hzero]
  split
  · simp only [String.toList_append, Nat.toList_repr, Layout.toList_zeros]
    exact .decimal (hdigits.append (hzeros _)) isDigits_zero
  · rename_i hnegative
    dsimp only
    rw [hlength]
    split
    · rename_i hplaces
      unfold Layout.pointAfter
      simp only [String.toList_append, String.toList_ofList, Nat.toList_repr, List.append_assoc]
      show IsNumeral (List.take _ _ ++ '.' :: List.drop _ _)
      refine .decimal ⟨?_, fun c hc => hdigits.2 c (List.mem_of_mem_take hc)⟩
        ⟨?_, fun c hc => hdigits.2 c (List.mem_of_mem_drop hc)⟩
      · rw [Ne, List.take_eq_nil_iff]
        rintro (h | h)
        · omega
        · exact hdigits.1 h
      · rw [Ne, List.drop_eq_nil_iff]
        omega
    · simp only [String.toList_append, Nat.toList_repr, Layout.toList_zeros, List.append_assoc]
      show IsNumeral (['0'] ++ '.' :: (List.replicate _ '0' ++ Nat.toDigits 10 n))
      refine .decimal isDigits_zero ⟨List.append_ne_nil_of_right_ne_nil _ hdigits.1, ?_⟩
      exact List.forall_mem_append.2 ⟨hzeros _, hdigits.2⟩

lemma isLiteral_float {x : Binary64} (h : x.isFinite = true) : IsLiteral (float x) := by
  cases x with
  | nan => cases h
  | infinity => cases h
  | finite negative rank =>
    have hnumeral : IsNumeral (floatLayout.magnitudeText rank).toList := by
      rw [Layout.magnitudeText_of_positional floatLayout_positional]
      exact isNumeral_positionalText rfl _ _
    have htext := Layout.toList_text floatLayout negative rank
    split at htext
    · exact .negative htext hnumeral
    · exact .number (htext ▸ hnumeral)

lemma isLiteral_literal {l : Literal} (h : l.IsFinite) : IsLiteral (literal l) := by
  cases l with
  | null => exact .word (by decide)
  | boolean b => cases b <;> exact .word (by decide)
  | integer n => exact isLiteral_integer n
  | number x => exact isLiteral_float h
  | string s => exact .string (isString_quote s)

/-! ## Types -/

lemma isLiterals_map {values : List Literal} (h : ∀ l ∈ values, l.IsFinite) :
    ∀ s ∈ values.map literal, IsLiteral s :=
  List.forall_mem_map.2 fun l hl => isLiteral_literal (h l hl)

lemma isReference_reference {style : NameStyle} {name s : String}
    (h : reference style name = .ok s) : IsReference style s := by
  simp only [reference, bind_eq_ok, pure_eq_ok, checkedName_eq_ok] at h
  obtain ⟨_, ⟨hname, rfl⟩, rfl⟩ := h
  cases style with
  | bare => exact isName_iff.2 hname
  | quoted => exact ⟨name, isName_iff.2 hname, quote_of_isName (isName_iff.2 hname)⟩

/-- The text of a type in normal form is a type of the grammar, and a union only if the type is. -/
theorem isType_expression {style : NameStyle} {t : Ty} (ht : t.Normal) :
    ∀ {s : String}, expression style t = .ok s → IsType style t.isUnion s := by
  induction ht with
  | primitive kind =>
    intro s h
    cases h
    exact .builtin (by cases kind <;> decide)
  | named name => exact fun h => .name (isReference_reference h)
  | anyObject =>
    intro s h
    cases h
    exact .builtin (by decide)
  | listOf _ ih =>
    intro s h
    simp only [expression, bind_eq_ok, pure_eq_ok] at h
    obtain ⟨element, helement, rfl⟩ := h
    exact .list (ih helement)
  | @unionOf members several flat _ ih =>
    intro s h
    simp only [expression, bind_eq_ok, pure_eq_ok, expressions_eq_ok] at h
    obtain ⟨ss, hss, rfl⟩ := h
    rw [Text.join_eq_intercalate]
    refine .union (hss.length_eq ▸ several) fun member hmember => ?_
    obtain ⟨t, ht, hmember⟩ := exists_of_forall₂ hss hmember
    exact flat t ht ▸ ih t ht hmember
  | literalEnum nonempty finite =>
    intro s h
    cases h
    rw [literalSet, Text.join_eq_intercalate]
    exact .literals (by simpa using nonempty) (isLiterals_map finite)

lemma isFieldType_fieldType {style : NameStyle} {field : Field} {s : String}
    (hfield : field.ty.Normal) (h : fieldType style field = .ok s) : IsFieldType style s := by
  simp only [fieldType, bind_eq_ok, pure_eq_ok] at h
  obtain ⟨ty, hty, rfl⟩ := h
  split
  · exact .required (isType_expression hfield hty)
  · exact .optional (isType_expression hfield hty)

/-! ## Lines -/

lemma isFieldLine_write {field : Field} {s : String} (hfield : field.ty.Normal)
    (h : (Line.field field).write = .ok s) : IsFieldLine s := by
  simp only [Line.write, bind_eq_ok, pure_eq_ok, checkedName_eq_ok] at h
  obtain ⟨_, ⟨hname, rfl⟩, ty, hty, rfl⟩ := h
  exact .intro (isName_iff.2 hname) (isFieldType_fieldType hfield hty)

lemma isEntryLine_dictLine {field : Field} {s : String} (hfield : field.ty.Normal)
    (h : dictLine field = .ok s) : IsEntryLine s := by
  obtain ⟨ty, hty, rfl⟩ := map_eq_ok.1 h
  exact .intro (isString_quote field.name) (isFieldType_fieldType hfield hty)

lemma isRecordBody_recordLines {fields : List Field} {texts : List String}
    (hfields : ∀ f ∈ fields, f.ty.Normal)
    (h : List.Forall₂ (fun l s => Line.write l = .ok s) (recordLines fields) texts) :
    IsRecordBody (String.join texts) := by
  cases fields with
  | nil =>
    obtain _ | ⟨⟨⟩, ⟨⟩⟩ := h
    have htext : String.join [indent ++ "pass\n"] = "    pass\n" := by decide
    rw [htext]
    exact .pass
  | cons f fields =>
    have h : List.Forall₂ (fun l s => Line.write l = .ok s) ((f :: fields).map .field) texts := h
    refine .fields ?_ fun text htext => ?_
    · rintro rfl
      cases h
    · rw [List.forall₂_map_left_iff] at h
      obtain ⟨field, hfield, hwrite⟩ := exists_of_forall₂ h htext
      exact isFieldLine_write (hfields field hfield) hwrite

/-! ## Blocks -/

lemma writtenBases_ne_nil (r : Record) : r.writtenBases ≠ [] := by
  unfold Record.writtenBases
  split
  · exact List.cons_ne_nil _ _
  · rename_i hbases
    simpa using hbases

lemma exists_isBlock_record {r : Record} (hr : ∀ f ∈ r.fields, f.ty.Normal) {s : String}
    (h : recordSource r = .ok s) : ∃ form, IsBlock form r.name s := by
  have hwrites : (blockOf .literal (.record r)).Writes s := writes_record h
  rw [blockOf] at hwrites
  split at hwrites
  · cases hwrites with
    | cls hname hbases hlines =>
      rw [Text.join_eq_intercalate]
      exact ⟨.recordClass, .recordClass (isName_iff.2 hname) (writtenBases_ne_nil r)
        (fun base hbase => isName_iff.2 (hbases base hbase)) (isRecordBody_recordLines hr hlines)⟩
  · rename_i hfields
    cases hwrites with
    | call hname hlines =>
      refine ⟨.call, .call (isName_iff.2 hname) (isString_quote r.name) ?_ fun line hline => ?_⟩
      · -- a field name that is no identifier is the name of a field
        rintro rfl
        rw [List.forall₂_nil_right_iff] at hlines
        exact hfields (by rw [hlines]; rfl)
      · obtain ⟨field, hfield, hwrite⟩ := exists_of_forall₂ hlines hline
        exact isEntryLine_dictLine (hr field hfield) hwrite

lemma exists_isBlock_enum {style : EnumStyle} {e : Enumeration} (hne : e.values ≠ [])
    (hfinite : ∀ l ∈ e.values, l.IsFinite) {s : String} (h : enumSource style e = .ok s) :
    ∃ form, IsBlock form e.name s := by
  simp only [enumSource, discard_eq_ok, bind_eq_ok, checkedName_eq_ok] at h
  obtain ⟨_, ⟨_, hname, _⟩, h⟩ := h
  cases style with
  | literal =>
    cases h
    have htext : e.name ++ " = " ++ literalSet e.values ++ "\n" =
        e.name ++ " = Literal[" ++ ", ".intercalate (e.values.map literal) ++ "]\n" := by
      rw [← String.toList_inj, literalSet, Text.join_eq_intercalate]
      simp only [String.toList_append, List.append_assoc]
      rfl
    rw [htext]
    exact ⟨.literals, .literals (isName_iff.2 hname) (by simpa using hne) (isLiterals_map hfinite)⟩
  | enumClass =>
    simp only [enumClassSource, bind_eq_ok, pure_eq_ok] at h
    obtain ⟨names, hnames, rfl⟩ := h
    obtain ⟨hvalues, hidentifiers⟩ := eq_of_memberNames hnames
    have hlines : (names.map fun name => indent ++ name ++ " = " ++ quote name ++ "\n") =
        (names.map fun name => (name, quote name)).map memberLine := by
      rw [List.map_map]
      rfl
    rw [hlines]
    refine ⟨.enumClass, .enumClass (isName_iff.2 hname) ?_ ?_ (List.forall_mem_map.2 ?_)⟩
    · rintro hnil
      rw [List.map_eq_nil_iff] at hnil
      exact hne (by rw [hvalues, hnil, List.map_nil])
    · rw [List.map_map]
      exact (List.map_id names).symm ▸ (nodup_memberNames hnames).1
    · exact fun name hmem => ⟨isName_iff.2 (hidentifiers name hmem), isString_quote name⟩

/-- A declaration in normal form is written as a block, in one of the forms only. -/
theorem existsUnique_isBlock {style : EnumStyle} {d : Declaration} (hd : d.Normal) {s : String}
    (h : declarationSource style d = .ok s) : ∃! form, IsBlock form d.name s := by
  have hblock : ∃ form, IsBlock form d.name s := by
    cases hd with
    | record fields => exact exists_isBlock_record fields h
    | enum nonempty finite => exact exists_isBlock_enum nonempty finite h
  obtain ⟨form, hform⟩ := hblock
  exact ⟨form, hform, fun form' hform' => hform'.form_unique hform⟩

/-! ## Modules -/

/-- The import lines of a module that asks for all facilities. -/
def importText : String :=
  "from __future__ import annotations\n" ++ "from enum import Enum\n" ++
    "from typing import Literal, Union\n" ++
    "from typing_extensions import NotRequired, TypedDict\n"

lemma importLines_all : importLines ImportRole.all = importText := by
  decide

/-- A module of schemas that list finite numbers is written as the import lines and one block of the
grammar for each declaration. -/
theorem Emitter.emit_wellFormed (style : EnumStyle) {schemas : List Schema}
    (hfinite : ∀ s ∈ schemas, s.ListsFinite) {m : Module}
    (hm : (Module.assemble schemas).outcome = .ok m) {written : Emitter}
    (h : Emitter.emit ⟨style, ""⟩ m = .ok written) :
    ∃ blocks : List String,
      written.buffer = importText ++ String.join (blocks.map ("\n\n" ++ ·)) ∧
      List.Forall₂ (fun d block => ∃! form, IsBlock form d.name block) m.declarations blocks := by
  simp only [Emitter.emit, moduleSource, bind_eq_ok, pure_eq_ok] at h
  obtain ⟨_, ⟨source, hsource, rfl⟩, rfl⟩ := h
  obtain ⟨blocks, hblocks, rfl⟩ := declarationsSource_eq_ok hsource
  obtain ⟨_, _, himports, _⟩ := Module.assemble_eq_ok hm
  refine ⟨blocks, ?_, ?_⟩
  · rw [himports, importLines_all]
    exact String.empty_append
  · have hnormal := Module.assemble_normal hfinite hm
    exact ((List.forall₂_and_left _ _).2 ⟨hnormal, hblocks⟩).imp fun d block hd =>
      existsUnique_isBlock hd.1 hd.2

/-- An integer, nothing, or the number two. -/
def petSize : Schema :=
  .anyOf [.multiType [.integer, .null],
    .primitive ⟨none, .number, some [.number (Binary64.ofInt 2)]⟩]

/-- A record with a choice, a record with a field name that is no identifier, and an enumeration
with a quote in a value. -/
def pets : List Schema :=
  [.object
      { id := some "#Pet"
        properties := [("name", .ofKind .string), ("size", petSize)]
        required := some ["name"] },
    .object { id := some "#Tag", properties := [("last seen", .array [.ref "#Pet"])] },
    .primitive ⟨some "#Sound", .string, some [.string "meow", .string "it\x27s"]⟩]

lemma listsFinite_pets : ∀ s ∈ pets, s.ListsFinite := by
  have hlisted {id : Option String} {kind : Kind} {values : List Literal}
      (h : ∀ l ∈ values, l.IsFinite) : (Schema.primitive ⟨id, kind, some values⟩).ListsFinite :=
    .primitive fun _ hvalues => Option.some.inj hvalues ▸ h
  have htwo : (Literal.number (Binary64.ofInt 2)).IsFinite :=
    Binary64.isFinite_ofInt (by decide) (by decide)
  have hsize : petSize.ListsFinite := .anyOf (List.forall_mem_cons.2
    ⟨.multiType _, List.forall_mem_singleton.2 (hlisted (List.forall_mem_singleton.2 htwo))⟩)
  have hpet : ∀ entry ∈ [("name", Schema.ofKind .string), ("size", petSize)], entry.2.ListsFinite :=
    List.forall_mem_cons.2 ⟨.primitive nofun, List.forall_mem_singleton.2 hsize⟩
  have htag : ∀ entry ∈ [("last seen", Schema.array [.ref "#Pet"])], entry.2.ListsFinite :=
    List.forall_mem_singleton.2 (.array (List.forall_mem_singleton.2 (.ref _)))
  have hsound : ∀ l ∈ [Literal.string "meow", .string "it\x27s"], l.IsFinite :=
    List.forall_mem_cons.2 ⟨trivial, List.forall_mem_singleton.2 trivial⟩
  exact List.forall_mem_cons.2 ⟨.object (.intro hpet nofun), List.forall_mem_cons.2
    ⟨.object (.intro htag nofun), List.forall_mem_singleton.2 (hlisted hsound)⟩⟩

theorem Emitter.emit_wellFormed_pets :
    ∃ m written, (Module.assemble pets).outcome = .ok m ∧
      Emitter.emit ⟨.literal, ""⟩ m = .ok written ∧
      ∃ blocks : List String,
        written.buffer = importText ++ String.join (blocks.map ("\n\n" ++ ·)) ∧
        List.Forall₂ (fun d block => ∃! form, IsBlock form d.name block) m.declarations blocks :=
  ⟨_, _, rfl, rfl, Emitter.emit_wellFormed .literal listsFinite_pets rfl rfl⟩

end Python
end TypedSchema
