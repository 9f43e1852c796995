import TypedSchema.Proofs.Agreement
import TypedSchema.Proofs.Python.Grammar
import TypedSchema.Proofs.Python.Source

/-!
# Which declarations can be spelled

A declaration is written unless it needs a text as a name that is none: its own name, a base, a
declared type inside the type of a field, the field of a record with bases, or a member of an
enumeration that is a class, where a member cannot be repeated either (`Declaration.Unspellable`).
Nothing else makes writing fail (`Python.exists_declarationSource_iff`), and a module fails if one
of its declarations does (`Python.exists_moduleSource_iff`).
-/

namespace TypedSchema

/-! ## What has to be a name -/

/-- Whether a type refers to a declared type by a name, at any depth. -/
inductive Ty.Mentions (name : String) : Ty → Prop
  | named : Mentions name (.named name)
  | listOf {element : Ty} (h : Mentions name element) : Mentions name (.listOf element)
  | unionOf {members : List Ty} {member : Ty} (hmember : member ∈ members)
    (h : Mentions name member) : Mentions name (.unionOf members)

/-- The declarations that cannot be written when enumerations are written in a style. -/
inductive Declaration.Unspellable (style : Python.EnumStyle) : Declaration → Prop
  | recordName {r : Record} (h : ¬Python.IsName r.name) : Unspellable style (.record r)
  | base {r : Record} {base : String} (hbase : base ∈ r.bases) (h : ¬Python.IsName base) :
    Unspellable style (.record r)
  | reference {r : Record} {field : Field} {name : String} (hfield : field ∈ r.fields)
    (hname : field.ty.Mentions name) (h : ¬Python.IsName name) : Unspellable style (.record r)
  | fieldBesideBases {r : Record} {field : Field} (hfield : field ∈ r.fields)
    (hbases : r.bases ≠ []) (h : ¬Python.IsName field.name) : Unspellable style (.record r)
  | enumName {e : Enumeration} (h : ¬Python.IsName e.name) : Unspellable style (.enum e)
  | member {e : Enumeration} {value : Literal} (hstyle : style = .enumClass)
    (hvalue : value ∈ e.values) (h : ∀ name, Python.IsName name → value ≠ .string name) :
    Unspellable style (.enum e)
  | repeatedMember {e : Enumeration} {i j : Nat} (hstyle : style = .enumClass) (hij : i < j)
    (hj : j < e.values.length) (h : (e.values[i] == e.values[j]) = true) :
    Unspellable style (.enum e)

namespace Python

/-! ## Types -/

lemma exists_reference_iff {style : NameStyle} {name : String} :
    (∃ s, reference style name = .ok s) ↔ IsName name := by
  simp only [reference, exists_bind_pure_iff, checkedName_eq_ok, exists_and_left, exists_eq',
    and_true, isName_iff]

lemma mentions_listOf {name : String} {element : Ty} :
    (Ty.listOf element).Mentions name ↔ element.Mentions name := by
  constructor
  · rintro ⟨⟩
    assumption
  · exact .listOf

lemma mentions_unionOf {name : String} {members : List Ty} :
    (Ty.unionOf members).Mentions name ↔ ∃ member ∈ members, member.Mentions name := by
  constructor
  · rintro ⟨⟩
    exact ⟨_, by assumption, by assumption⟩
  · rintro ⟨member, hmember, h⟩
    exact .unionOf hmember h

/-- A type is written if all it refers to are names. -/
theorem exists_expression_iff {style : NameStyle} (t : Ty) :
    (∃ s, expression style t = .ok s) ↔ ∀ name, t.Mentions name → IsName name := by
  induction t using Ty.induction with
  | primitive kind => exact iff_of_true ⟨_, rfl⟩ (by rintro _ ⟨⟩)
  | anyObject => exact iff_of_true ⟨_, rfl⟩ (by rintro _ ⟨⟩)
  | literalEnum values => exact iff_of_true ⟨_, rfl⟩ (by rintro _ ⟨⟩)
  | named name =>
    rw [show expression style (.named name) = reference style name from rfl, exists_reference_iff]
    constructor
    · rintro h _ ⟨⟩
      exact h
    · exact fun h => h name .named
  | listOf element ih =>
    simp only [mentions_listOf, ← ih, expression, exists_bind_pure_iff]
  | unionOf members ih =>
    have hmentions : (∀ name, (Ty.unionOf members).Mentions name → IsName name) ↔
        ∀ member ∈ members, ∀ name, member.Mentions name → IsName name := by
      simp only [mentions_unionOf]
      constructor
      · exact fun h member hmember name hname => h name ⟨member, hmember, hname⟩
      · rintro h name ⟨member, hmember, hname⟩
        exact h member hmember name hname
    simp only [hmentions, expression, exists_bind_pure_iff, expressions_eq_ok, exists_forall₂_iff]
    exact forall₂_congr ih

lemma exists_fieldType_iff {style : NameStyle} {field : Field} :
    (∃ s, fieldType style field = .ok s) ↔ ∀ name, field.ty.Mentions name → IsName name := by
  simp only [fieldType, exists_bind_pure_iff, exists_expression_iff]

/-! ## Records -/

/-- Whether the types of some fields refer to names only. -/
def RefersToNames (fields : List Field) : Prop :=
  ∀ field ∈ fields, ∀ name, field.ty.Mentions name → IsName name

lemma exists_classFields_iff {fields : List Field} :
    (∃ lines, classFields fields = .ok lines) ↔ RefersToNames fields := by
  rw [exists_ok_iff_forall classFields (fieldType .bare)
    (fun field ty rest => (indent ++ field.name ++ ": " ++ ty ++ "\n") :: rest) rfl fun _ _ => rfl]
  exact forall₂_congr fun _ _ => exists_fieldType_iff

lemma exists_dictFields_iff {fields : List Field} :
    (∃ lines, dictFields fields = .ok lines) ↔ RefersToNames fields := by
  rw [exists_ok_iff_forall dictFields (fieldType .quoted)
    (fun field ty rest => (indent ++ quote field.name ++ ": " ++ ty ++ ",\n") :: rest) rfl
    fun _ _ => rfl]
  exact forall₂_congr fun _ _ => exists_fieldType_iff

lemma exists_recordClass_iff {r : Record} :
    (∃ s, recordClass r = .ok s) ↔ RefersToNames r.fields := by
  simp only [recordClass, exists_bind_pure_iff, exists_classFields_iff]

lemma exists_recordCall_iff {r : Record} :
    (∃ s, recordCall r = .ok s) ↔ RefersToNames r.fields := by
  simp only [recordCall, exists_bind_pure_iff, exists_dictFields_iff]

/-- The form of a record with a field name that is none has no place for bases. -/
lemma exists_recordSource_iff {r : Record} :
    (∃ s, recordSource r = .ok s) ↔
      IsName r.name ∧ (∀ base ∈ r.bases, IsName base) ∧ RefersToNames r.fields ∧
        (r.bases ≠ [] → ∀ field ∈ r.fields, IsName field.name) := by
  have hform : (∃ s, (if r.fields.all fun field => isIdentifier field.name then recordClass r
      else if !r.bases.isEmpty then .error (.unspellable r.name .fieldsBesideBases)
      else recordCall r) = .ok s) ↔
      RefersToNames r.fields ∧ (r.bases ≠ [] → ∀ field ∈ r.fields, IsName field.name) := by
    simp only [isName_iff]
    split
    case isTrue hfields =>
      rw [exists_recordClass_iff]
      exact (and_iff_left fun _ => List.all_eq_true.1 hfields).symm
    case isFalse hfields =>
      rw [List.all_eq_true] at hfields
      split
      case isTrue hbases =>
        have hbases : r.bases ≠ [] := by simpa using hbases
        exact iff_of_false nofun fun ⟨_, h⟩ => hfields (h hbases)
      case isFalse hbases =>
        have hbases : r.bases = [] := by simpa using hbases
        rw [exists_recordCall_iff]
        exact (and_iff_left fun h => absurd hbases h).symm
  rw [← hform]
  simp only [recordSource, bind_eq_ok, discard_eq_ok, checkedName_eq_ok, exists_checkedNames_iff,
    isName_iff]
  constructor
  · rintro ⟨s, _, ⟨_, hname, _⟩, _, hbases, h⟩
    exact ⟨hname, hbases, s, h⟩
  · rintro ⟨hname, hbases, s, h⟩
    exact ⟨s, (), ⟨_, hname, rfl⟩, (), hbases, h⟩

lemma not_unspellable_record_iff {style : EnumStyle} {r : Record} :
    ¬(Declaration.record r).Unspellable style ↔
      IsName r.name ∧ (∀ base ∈ r.bases, IsName base) ∧ RefersToNames r.fields ∧
        (r.bases ≠ [] → ∀ field ∈ r.fields, IsName field.name) := by
  constructor
  · intro h
    refine ⟨?_, fun base hbase => ?_, fun field hfield name hname => ?_,
      fun hbases field hfield => ?_⟩
    · exact Classical.not_not.1 fun hno => h (.recordName hno)
    · exact Classical.not_not.1 fun hno => h (.base hbase hno)
    · exact Classical.not_not.1 fun hno => h (.reference hfield hname hno)
    · exact Classical.not_not.1 fun hno => h (.fieldBesideBases hfield hbases hno)
  · rintro ⟨hname, hbases, hrefers, hfields⟩ h
    cases h with
    | recordName hno => exact hno hname
    | base hbase hno => exact hno (hbases _ hbase)
    | reference hfield hmentions hno => exact hno (hrefers _ hfield _ hmentions)
    | fieldBesideBases hfield hnonempty hno => exact hno (hfields hnonempty _ hfield)

/-! ## Enumerations -/

/-- Whether some values are the texts of different names. -/
def SpellsMembers (values : List Literal) : Prop :=
  ∃ names : List String, values = names.map .string ∧ (∀ name ∈ names, IsName name) ∧ names.Nodup

lemma memberNames_map_string {enumeration : String} {seen names : List String}
    (hnames : ∀ name ∈ names, isIdentifier name = true) (hnodup : names.Nodup)
    (hfresh : ∀ name ∈ names, name ∉ seen) :
    memberNames enumeration seen (names.map .string) = .ok names := by
  induction names generalizing seen with
  | nil => rfl
  | cons name names ih =>
    obtain ⟨hname, hnames⟩ := List.forall_mem_cons.1 hnames
    obtain ⟨hnotMem, hnodup⟩ := List.nodup_cons.1 hnodup
    obtain ⟨hseen, hfresh⟩ := List.forall_mem_cons.1 hfresh
    have hrest : memberNames enumeration (seen ++ [name]) (names.map .string) = .ok names := by
      refine ih hnames hnodup fun other hother hmem => ?_
      rcases List.mem_append.1 hmem with hmem | hmem
      · exact hfresh other hother hmem
      · exact hnotMem (List.mem_singleton.1 hmem ▸ hother)
    rw [List.map_cons, memberNames, memberName?_eq_some.2 ⟨rfl, hname⟩]
    simp only [List.contains_eq_mem, decide_eq_true_eq, if_neg hseen, hrest]
    rfl

lemma exists_enumClassSource_iff {e : Enumeration} :
    (∃ s, enumClassSource e = .ok s) ↔ SpellsMembers e.values := by
  simp only [enumClassSource, exists_bind_pure_iff, SpellsMembers, isName_iff]
  constructor
  · rintro ⟨names, h⟩
    obtain ⟨hvalues, hnames⟩ := eq_of_memberNames h
    exact ⟨names, hvalues, hnames, (nodup_memberNames h).1⟩
  · rintro ⟨names, hvalues, hnames, hnodup⟩
    refine ⟨names, ?_⟩
    rw [hvalues]
    exact memberNames_map_string hnames hnodup fun _ _ => List.not_mem_nil

lemma exists_enumSource_iff {style : EnumStyle} {e : Enumeration} :
    (∃ s, enumSource style e = .ok s) ↔
      IsName e.name ∧ (style = .enumClass → SpellsMembers e.values) := by
  simp only [enumSource, bind_eq_ok, discard_eq_ok, checkedName_eq_ok, isName_iff]
  cases style with
  | literal =>
    exact ⟨fun ⟨_, _, ⟨_, hname, _⟩, _⟩ => ⟨hname, nofun⟩,
      fun ⟨hname, _⟩ => ⟨_, (), ⟨_, hname, rfl⟩, rfl⟩⟩
  | enumClass =>
    simp only [forall_const, ← exists_enumClassSource_iff]
    exact ⟨fun ⟨s, _, ⟨_, hname, _⟩, h⟩ => ⟨hname, s, h⟩,
      fun ⟨hname, s, h⟩ => ⟨s, (), ⟨_, hname, rfl⟩, h⟩⟩

/-- Values are the texts of names if each of them is one. -/
lemma exists_names {values : List Literal}
    (h : ∀ value ∈ values, ∃ name, IsName name ∧ value = .string name) :
    ∃ names : List String, values = names.map .string ∧ ∀ name ∈ names, IsName name := by
  obtain ⟨names, hnames⟩ := exists_forall₂_iff.2 h
  refine ⟨names, ?_, fun name hname => ?_⟩
  · rw [← List.forall₂_eq_eq_eq, List.forall₂_map_right_iff]
    exact hnames.imp fun _ _ h => h.2
  · obtain ⟨_, _, h, _⟩ := exists_of_forall₂ hnames hname
    exact h

lemma not_unspellable_enum_iff {style : EnumStyle} {e : Enumeration} :
    ¬(Declaration.enum e).Unspellable style ↔
      IsName e.name ∧ (style = .enumClass → SpellsMembers e.values) := by
  constructor
  · intro h
    refine ⟨Classical.not_not.1 fun hno => h (.enumName hno), fun hstyle => ?_⟩
    have hall : ∀ value ∈ e.values, ∃ name, IsName name ∧ value = .string name := by
      intro value hvalue
      by_contra hno
      exact h (.member hstyle hvalue fun name hname heq => hno ⟨name, hname, heq⟩)
    obtain ⟨names, hvalues, hnames⟩ := exists_names hall
    refine ⟨names, hvalues, hnames, List.pairwise_iff_getElem.2 fun i j hi hj hij heq => ?_⟩
    refine h (.repeatedMember hstyle hij (by simpa [hvalues] using hj) ?_)
    simp only [hvalues, List.getElem_map, heq]
    exact BEq.refl _
  · rintro ⟨hname, hmembers⟩ h
    cases h with
    | enumName hno => exact hno hname
    | member hstyle hvalue hno =>
      obtain ⟨names, hvalues, hnames, _⟩ := hmembers hstyle
      rw [hvalues] at hvalue
      obtain ⟨name, hmem, rfl⟩ := List.mem_map.1 hvalue
      exact hno name (hnames name hmem) rfl
    | @repeatedMember _ i j hstyle hij hj hsame =>
      obtain ⟨names, hvalues, _, hnodup⟩ := hmembers hstyle
      simp only [hvalues, List.getElem_map] at hsame
      have hj : j < names.length := by simpa [hvalues] using hj
      exact List.pairwise_iff_getElem.1 hnodup i j (by omega) hj hij (eq_of_beq hsame)

/-! ## Declarations and modules -/

/-- A declaration is written unless it cannot be spelled. -/
theorem exists_declarationSource_iff {style : EnumStyle} {d : Declaration} :
    (∃ s, declarationSource style d = .ok s) ↔ ¬d.Unspellable style := by
  cases d with
  | record r => exact exists_recordSource_iff.trans not_unspellable_record_iff.symm
  | enum e => exact exists_enumSource_iff.trans not_unspellable_enum_iff.symm

/-- A module is written unless one of its declarations cannot be spelled. -/
theorem exists_moduleSource_iff {style : EnumStyle} {m : Module} :
    (∃ s, moduleSource style m = .ok s) ↔ ∀ d ∈ m.declarations, ¬d.Unspellable style := by
  simp only [moduleSource, exists_bind_pure_iff]
  rw [exists_ok_iff_forall (declarationsSource style) (declarationSource style)
    (fun _ first rest => "\n\n" ++ first ++ rest) rfl fun _ _ => rfl]
  exact forall₂_congr fun _ _ => exists_declarationSource_iff

end Python
end TypedSchema
