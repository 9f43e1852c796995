import TypedSchema.Proofs.Python.Block

/-!
# The source of a module determines the module

Every declaration that can be written is written as one block (`Python.blockOf`), and the blocks
follow one another behind empty lines, so the source of a module can be taken apart in one way only.
What is lost is little: a declared name may be that of a builtin type, and a record without bases is
written like one whose only base is called `TypedDict` (`Declaration.Alike`).
-/

namespace TypedSchema

/-! ## Declarations that are written alike -/

/-- The bases of a record in source, which always has one. -/
def Record.writtenBases (r : Record) : List String :=
  if r.bases.isEmpty then ["TypedDict"] else r.bases

/-- Whether two declarations are equal up to names of builtin types and a sole base `TypedDict`. -/
def Declaration.Alike : Declaration → Declaration → Prop
  | .record r, .record s =>
    r.name = s.name ∧ r.writtenBases = s.writtenBases ∧ List.Forall₂ Field.Alike r.fields s.fields
  | .enum e, .enum f => e.name = f.name ∧ (e.values == f.values) = true
  | _, _ => False

namespace Python

/-! ## Lists of names and lines -/

lemma exists_checkedNames_iff {role : NameRole} {names : List String} :
    (∃ checked, checkedNames role names = .ok checked) ↔
      ∀ name ∈ names, isIdentifier name = true := by
  rw [exists_ok_iff_forall (checkedNames role) (checkedName role) (fun _ name rest => name :: rest)
    rfl fun _ _ => rfl]
  simp only [checkedName_eq_ok, exists_and_left, exists_eq', and_true]

lemma forall₂_of_classFields {fields : List Field} {texts : List String}
    (hnames : ∀ f ∈ fields, isIdentifier f.name = true) (h : classFields fields = .ok texts) :
    List.Forall₂ (fun l s => Line.write l = .ok s) (fields.map .field) texts := by
  induction fields generalizing texts with
  | nil =>
    cases h
    exact .nil
  | cons f fields ih =>
    simp only [classFields, bind_eq_ok, pure_eq_ok] at h
    obtain ⟨ty, hty, rest, hrest, rfl⟩ := h
    obtain ⟨hname, hnames⟩ := List.forall_mem_cons.1 hnames
    refine .cons ?_ (ih hnames hrest)
    simp only [Line.write, bind_eq_ok, pure_eq_ok, checkedName_eq_ok]
    exact ⟨f.name, ⟨hname, rfl⟩, ty, hty, rfl⟩

lemma forall₂_of_dictFields {fields : List Field} {texts : List String}
    (h : dictFields fields = .ok texts) :
    List.Forall₂ (fun f s => dictLine f = .ok s) fields texts := by
  induction fields generalizing texts with
  | nil =>
    cases h
    exact .nil
  | cons f fields ih =>
    simp only [dictFields, bind_eq_ok, pure_eq_ok] at h
    obtain ⟨ty, hty, rest, hrest, rfl⟩ := h
    exact .cons (map_eq_ok.2 ⟨ty, hty, rfl⟩) (ih hrest)

lemma memberName?_eq_some {value : Literal} {name : String} :
    memberName? value = some name ↔ value = .string name ∧ isIdentifier name = true := by
  cases value with
  | string s =>
    simp only [memberName?, Option.ite_none_right_eq_some, Option.some.injEq, Literal.string.injEq]
    constructor
    · rintro ⟨h, rfl⟩
      exact ⟨rfl, h⟩
    · rintro ⟨rfl, h⟩
      exact ⟨h, rfl⟩
  | _ => simp [memberName?]

lemma eq_of_memberNames {enumeration : String} {seen names : List String} {values : List Literal}
    (h : memberNames enumeration seen values = .ok names) :
    values = names.map .string ∧ ∀ name ∈ names, isIdentifier name = true := by
  induction values generalizing seen names with
  | nil =>
    cases h
    exact ⟨rfl, fun _ hname => absurd hname List.not_mem_nil⟩
  | cons value values ih =>
    unfold memberNames at h
    split at h
    · cases h
    · rename_i name hname
      obtain ⟨rfl, hidentifier⟩ := memberName?_eq_some.1 hname
      split at h
      · cases h
      · obtain ⟨rest, hrest, rfl⟩ := map_eq_ok.1 h
        obtain ⟨rfl, hall⟩ := ih hrest
        exact ⟨rfl, List.forall_mem_cons.2 ⟨hidentifier, hall⟩⟩

/-- The members of an enumeration that is a class are distinct. -/
lemma nodup_memberNames {enumeration : String} {seen names : List String} {values : List Literal}
    (h : memberNames enumeration seen values = .ok names) :
    names.Nodup ∧ ∀ name ∈ names, name ∉ seen := by
  induction values generalizing seen names with
  | nil =>
    cases h
    exact ⟨List.nodup_nil, fun _ hname => absurd hname List.not_mem_nil⟩
  | cons value values ih =>
    unfold memberNames at h
    split at h
    · cases h
    · rename_i name _
      split at h
      · cases h
      · rename_i hseen
        obtain ⟨rest, hrest, rfl⟩ := map_eq_ok.1 h
        obtain ⟨hnodup, hfresh⟩ := ih hrest
        have hname : name ∉ seen := by simpa using hseen
        refine ⟨List.nodup_cons.2 ⟨fun hmem => ?_, hnodup⟩, List.forall_mem_cons.2 ⟨hname, ?_⟩⟩
        · exact hfresh name hmem (List.mem_append_right seen (List.mem_singleton_self name))
        · exact fun other hother hmem => hfresh other hother (List.mem_append_left [name] hmem)

/-! ## Declarations as blocks -/

/-- The lines of a record that is a class. -/
def recordLines (fields : List Field) : List Line :=
  if fields.isEmpty then [.pass] else fields.map .field

/-- The block that a declaration is written as. -/
def blockOf (style : EnumStyle) : Declaration → Block
  | .record r =>
    if r.fields.all fun field => isIdentifier field.name then
      .cls r.name r.writtenBases (recordLines r.fields)
    else .call r.name r.fields
  | .enum e =>
    match style with
    | .literal => .literals e.name e.values
    | .enumClass => .cls e.name ["Enum"] ((e.values.filterMap memberName?).map .member)

lemma writes_recordClass {r : Record} {s : String} (hname : isIdentifier r.name = true)
    (hbases : ∀ base ∈ r.bases, isIdentifier base = true)
    (hfields : ∀ f ∈ r.fields, isIdentifier f.name = true) (h : recordClass r = .ok s) :
    (Block.cls r.name r.writtenBases (recordLines r.fields)).Writes s := by
  simp only [recordClass, bind_eq_ok, pure_eq_ok] at h
  obtain ⟨lines, hlines, rfl⟩ := h
  have hbasesText : (if r.bases.isEmpty then "TypedDict" else Text.join ", " r.bases) =
      Text.join ", " r.writtenBases := by
    unfold Record.writtenBases
    split <;> rfl
  have hwrittenBases : ∀ base ∈ r.writtenBases, isIdentifier base = true := by
    unfold Record.writtenBases
    split
    · exact List.forall_mem_singleton.2 (by decide)
    · exact hbases
  rw [hbasesText]
  unfold recordLines
  split
  case isTrue =>
    have htext : indent ++ "pass\n" = String.join [indent ++ "pass\n"] := by decide
    rw [htext]
    exact .cls hname hwrittenBases (.cons rfl .nil)
  case isFalse =>
    exact .cls hname hwrittenBases (forall₂_of_classFields hfields hlines)

lemma writes_record {style : EnumStyle} {r : Record} {s : String} (h : recordSource r = .ok s) :
    (blockOf style (.record r)).Writes s := by
  simp only [recordSource, discard_eq_ok, bind_eq_ok, checkedName_eq_ok] at h
  obtain ⟨_, ⟨_, hname, _⟩, _, hbases, h⟩ := h
  rw [blockOf]
  split at h
  case isTrue hfields =>
    rw [if_pos hfields]
    exact writes_recordClass hname (exists_checkedNames_iff.1 hbases) (List.all_eq_true.1 hfields) h
  case isFalse hfields =>
    rw [if_neg hfields]
    split at h
    · cases h
    · simp only [recordCall, bind_eq_ok, pure_eq_ok] at h
      obtain ⟨lines, hlines, rfl⟩ := h
      exact .call hname (forall₂_of_dictFields hlines)

lemma filterMap_memberName? {names : List String} (h : ∀ name ∈ names, isIdentifier name = true) :
    (names.map Literal.string).filterMap memberName? = names := by
  rw [List.filterMap_map]
  refine (List.filterMap_congr fun name hname => ?_).trans List.filterMap_some
  exact memberName?_eq_some.2 ⟨rfl, h name hname⟩

lemma writes_enum {style : EnumStyle} {e : Enumeration} {s : String}
    (h : enumSource style e = .ok s) : (blockOf style (.enum e)).Writes s := by
  simp only [enumSource, discard_eq_ok, bind_eq_ok, checkedName_eq_ok] at h
  obtain ⟨_, ⟨_, hname, _⟩, h⟩ := h
  cases style with
  | literal =>
    cases h
    exact .literals hname
  | enumClass =>
    simp only [enumClassSource, bind_eq_ok, pure_eq_ok] at h
    obtain ⟨names, hnames, rfl⟩ := h
    obtain ⟨hvalues, hidentifiers⟩ := eq_of_memberNames hnames
    rw [blockOf, hvalues, filterMap_memberName? hidentifiers]
    have hlines : List.Forall₂ (fun l s => Line.write l = .ok s) (names.map .member)
        (names.map fun name => indent ++ name ++ " = " ++ quote name ++ "\n") := by
      rw [List.forall₂_map_left_iff, List.forall₂_map_right_iff, List.forall₂_same]
      intro name hname
      simp only [Line.write, bind_eq_ok, checkedName_eq_ok, pure_eq_ok]
      exact ⟨name, ⟨hidentifiers name hname, rfl⟩, rfl⟩
    have htext : "class " ++ e.name ++ "(Enum):\n" =
        "class " ++ e.name ++ "(" ++ Text.join ", " ["Enum"] ++ "):\n" := by
      rw [← String.toList_inj]
      simp only [String.toList_append, List.append_assoc]
      rfl
    rw [htext]
    exact .cls hname (List.forall_mem_singleton.2 (by decide)) hlines

/-- A declaration is written as its block. -/
theorem writes_declaration {style : EnumStyle} {d : Declaration} {s : String}
    (h : declarationSource style d = .ok s) : (blockOf style d).Writes s := by
  cases d with
  | record r => exact writes_record h
  | enum e => exact writes_enum h

/-! ## Blocks that say the same -/

lemma alike_of_recordLines {fs gs : List Field}
    (h : List.Forall₂ Line.Alike (recordLines fs) (recordLines gs)) :
    List.Forall₂ Field.Alike fs gs := by
  cases fs with
  | nil =>
    cases gs with
    | nil => exact .nil
    | cons g gs =>
      cases h with
      | cons hline _ => exact hline.elim
  | cons f fs =>
    cases gs with
    | nil =>
      cases h with
      | cons hline _ => exact hline.elim
    | cons g gs =>
      have h : List.Forall₂ Line.Alike ((f :: fs).map .field) ((g :: gs).map .field) := h
      rw [List.forall₂_map_left_iff, List.forall₂_map_right_iff] at h
      exact h

lemma eq_of_memberLines {ms ns : List String}
    (h : List.Forall₂ Line.Alike (ms.map .member) (ns.map .member)) : ms = ns := by
  rw [List.forall₂_map_left_iff, List.forall₂_map_right_iff] at h
  exact List.forall₂_eq_eq_eq ▸ h

/-- The body of a record is not that of an enumeration: it has a line, which is no member. -/
lemma not_alike_record_members {fs : List Field} {names : List String} :
    ¬ List.Forall₂ Line.Alike (recordLines fs) (names.map .member) ∧
      ¬ List.Forall₂ Line.Alike (names.map .member) (recordLines fs) := by
  constructor
  all_goals
    intro h
    cases fs <;> cases names <;> cases h
    all_goals
      rename_i hline _
      exact hline.elim

/-- A record with a field name that cannot be written as such has no bases. -/
lemma bases_of_recordSource {r : Record} {s : String} (h : recordSource r = .ok s)
    (hfields : ¬ (r.fields.all fun field => isIdentifier field.name) = true) : r.bases = [] := by
  simp only [recordSource, bind_eq_ok] at h
  obtain ⟨_, _, _, _, h⟩ := h
  rw [if_neg hfields] at h
  split at h
  · cases h
  · rename_i hempty
    simpa using hempty

/-- The values of an enumeration that is a class are the texts of its members. -/
lemma values_of_enumSource {e : Enumeration} {s : String} (h : enumSource .enumClass e = .ok s) :
    e.values = (e.values.filterMap memberName?).map .string := by
  simp only [enumSource, enumClassSource, bind_eq_ok] at h
  obtain ⟨_, _, names, hnames, _⟩ := h
  obtain ⟨hvalues, hidentifiers⟩ := eq_of_memberNames hnames
  rw [hvalues, filterMap_memberName? hidentifiers]

lemma alike_of_recordBlocks {style : EnumStyle} {r r' : Record} {s s' : String}
    (h : recordSource r = .ok s) (h' : recordSource r' = .ok s')
    (halike : (blockOf style (.record r)).Alike (blockOf style (.record r'))) :
    (Declaration.record r).Alike (.record r') := by
  simp only [blockOf] at halike
  split at halike
  case isTrue hfields =>
    split at halike
    case isTrue hfields' =>
      obtain ⟨hname, hbases, hlines⟩ := halike
      exact ⟨hname, hbases, alike_of_recordLines hlines⟩
    case isFalse => exact halike.elim
  case isFalse hfields =>
    split at halike
    case isTrue => exact halike.elim
    case isFalse hfields' =>
      obtain ⟨hname, hall⟩ := halike
      refine ⟨hname, ?_, hall⟩
      rw [Record.writtenBases, Record.writtenBases, bases_of_recordSource h hfields,
        bases_of_recordSource h' hfields']

lemma not_alike_recordBlock_enumBlock {style : EnumStyle} {r : Record} {e : Enumeration} :
    ¬ (blockOf style (.record r)).Alike (blockOf style (.enum e)) ∧
      ¬ (blockOf style (.enum e)).Alike (blockOf style (.record r)) := by
  simp only [blockOf]
  split
  · cases style with
    | literal => exact ⟨id, id⟩
    | enumClass =>
      exact ⟨fun ⟨_, _, h⟩ => not_alike_record_members.1 h,
        fun ⟨_, _, h⟩ => not_alike_record_members.2 h⟩
  · cases style <;> exact ⟨id, id⟩

/-- Declarations that are written as blocks that say the same are alike. -/
theorem alike_of_blockOf {style : EnumStyle} {d d' : Declaration} {s s' : String}
    (h : declarationSource style d = .ok s) (h' : declarationSource style d' = .ok s')
    (halike : (blockOf style d).Alike (blockOf style d')) : d.Alike d' := by
  cases d with
  | record r =>
    cases d' with
    | record r' => exact alike_of_recordBlocks h h' halike
    | enum e' => exact absurd halike not_alike_recordBlock_enumBlock.1
  | enum e =>
    cases d' with
    | record r' => exact absurd halike not_alike_recordBlock_enumBlock.2
    | enum e' =>
      cases style with
      | literal => exact halike
      | enumClass =>
        obtain ⟨hname, _, hlines⟩ := halike
        have hvalues : e.values = e'.values := by
          rw [values_of_enumSource h, values_of_enumSource h', eq_of_memberLines hlines]
        refine ⟨hname, ?_⟩
        rw [hvalues]
        exact BEq.refl _

/-! ## Modules -/

/-- A declaration says itself where it ends, before the end of the text or an empty line. -/
theorem unambiguous_declarationSource (style : EnumStyle) (d : Declaration) :
    Text.Unambiguous (declarationSource style) Declaration.Alike (fun u => u.head? ≠ some ' ')
      d := by
  intro d' s s' h h' u v hu hv heq
  obtain ⟨halike, huv⟩ := (writes_declaration h).unambiguous (writes_declaration h') hu hv heq
  exact ⟨alike_of_blockOf h h' halike, huv⟩

/-- The text of a declaration and of the empty line before it. -/
def setApart (style : EnumStyle) (d : Declaration) : Except Fault String :=
  (declarationSource style d).map ("\n\n" ++ ·)

lemma head?_setApart {style : EnumStyle} {d : Declaration} {s : String}
    (h : setApart style d = .ok s) : s.toList.head? = some '\n' := by
  obtain ⟨_, _, rfl⟩ := map_eq_ok.1 h
  rw [String.toList_append]
  rfl

/-- Declarations are written one by one, each behind an empty line. -/
lemma declarationsSource_eq_ok {style : EnumStyle} {ds : List Declaration} {s : String}
    (h : declarationsSource style ds = .ok s) :
    ∃ blocks, List.Forall₂ (fun d block => declarationSource style d = .ok block) ds blocks ∧
      s = String.join (blocks.map ("\n\n" ++ ·)) := by
  induction ds generalizing s with
  | nil =>
    cases h
    exact ⟨[], .nil, rfl⟩
  | cons d ds ih =>
    simp only [declarationsSource, bind_eq_ok, pure_eq_ok] at h
    obtain ⟨first, hfirst, rest, hrest, rfl⟩ := h
    obtain ⟨blocks, hblocks, rfl⟩ := ih hrest
    refine ⟨first :: blocks, .cons hfirst hblocks, ?_⟩
    rw [← String.toList_inj]
    simp only [String.toList_append, String.toList_join, List.map_cons, List.flatMap_cons]

lemma forall₂_of_declarationsSource {style : EnumStyle} {ds : List Declaration} {s : String}
    (h : declarationsSource style ds = .ok s) :
    ∃ texts, List.Forall₂ (fun d s => setApart style d = .ok s) ds texts ∧
      s.toList = texts.flatMap String.toList := by
  obtain ⟨blocks, hblocks, rfl⟩ := declarationsSource_eq_ok h
  refine ⟨blocks.map ("\n\n" ++ ·), List.forall₂_map_right_iff.2 ?_, String.toList_join⟩
  exact hblocks.imp fun d block hblock => map_eq_ok.2 ⟨block, hblock, rfl⟩

lemma declarationsSource_determines {style : EnumStyle} {ds ds' : List Declaration} {s : String}
    (h : declarationsSource style ds = .ok s) (h' : declarationsSource style ds' = .ok s) :
    List.Forall₂ Declaration.Alike ds ds' := by
  obtain ⟨texts, htexts, hs⟩ := forall₂_of_declarationsSource h
  obtain ⟨texts', htexts', hs'⟩ := forall₂_of_declarationsSource h'
  have hfollows : ∀ u : List Char, u.head? = some '\n' → u.head? ≠ some ' ' := by
    intro u hu hblank
    rw [hu] at hblank
    cases hblank
  have heq : texts.flatMap String.toList ++ [] = texts'.flatMap String.toList ++ [] := by
    rw [← hs, ← hs']
  have hend : ∀ c : Char, ([] : List Char).head? ≠ some c := fun _ => by simp
  exact (Text.forall₂_of_concat
    (fun d _ => (unambiguous_declarationSource style d).behind "\n\n")
    (fun _ _ h => head?_setApart h) hfollows htexts htexts' (hend _) (hend _) (hend _) (hend _)
    heq).1

/-- Modules with the same imports that are written alike have the same declarations, up to names of
builtin types and a sole base `TypedDict`. -/
theorem Emitter.emit_determines (style : EnumStyle) (m n : Module)
    (himports : m.imports = n.imports) (written written' : Emitter)
    (hm : Emitter.emit ⟨style, ""⟩ m = .ok written)
    (hn : Emitter.emit ⟨style, ""⟩ n = .ok written') (htext : written.buffer = written'.buffer) :
    List.Forall₂ Declaration.Alike m.declarations n.declarations := by
  simp only [Emitter.emit, moduleSource, bind_eq_ok, pure_eq_ok] at hm hn
  obtain ⟨_, ⟨s, hs, rfl⟩, rfl⟩ := hm
  obtain ⟨_, ⟨t, ht, rfl⟩, rfl⟩ := hn
  have hsource : s = t := by
    have hlist := congrArg String.toList htext
    simp only [String.toList_append, himports] at hlist
    exact String.toList_inj.1 (List.append_cancel_left (List.append_cancel_left hlist))
  subst hsource
  exact declarationsSource_determines hs ht

/-- A record with no base and a field of a declared type `int`, in a module of its own. -/
def namedInt : Module :=
  { imports := [.recordBase], declarations := [.record ⟨"A", [], [⟨"x", .named "int", false⟩]⟩] }

/-- The same with the base and the builtin type that are written alike. -/
def builtinInt : Module :=
  { imports := [.recordBase]
    declarations := [.record ⟨"A", ["TypedDict"], [⟨"x", .primitive .integer, false⟩]⟩] }

theorem Emitter.emit_determines_int :
    ∃ written, Emitter.emit ⟨.literal, ""⟩ namedInt = .ok written ∧
      Emitter.emit ⟨.literal, ""⟩ builtinInt = .ok written ∧
      List.Forall₂ Declaration.Alike namedInt.declarations builtinInt.declarations :=
  have hm : Emitter.emit ⟨.literal, ""⟩ namedInt = .ok ⟨.literal,
      "from typing_extensions import TypedDict\n\n\n" ++
        "class A(TypedDict):\n    x: NotRequired[int]\n"⟩ :=
    rfl
  ⟨_, hm, rfl, Emitter.emit_determines .literal namedInt builtinInt rfl _ _ hm rfl rfl⟩

end Python
end TypedSchema
