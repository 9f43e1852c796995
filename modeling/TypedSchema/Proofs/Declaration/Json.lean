import TypedSchema.Declaration.Json
import TypedSchema.Proofs.Binary64.Rounding
import TypedSchema.Proofs.Json.Blank
import TypedSchema.Proofs.Schema.NormalForm

/-!
# The JSON form of a module loses nothing

A module is found again in its JSON document: a type by its kind, a literal by the kind of JSON
value that it is, a declaration by its tag (`Module.toJson_injective`).  So modules of finite
numbers are told apart by their JSON texts, be they compact or indented
(`Module.toJson_determines`).
-/

namespace TypedSchema

/-! ## Literals and types -/

lemma Literal.toJson_injective : Function.Injective Literal.toJson := by
  intro l m h
  cases l <;> cases m <;> cases h <;> rfl

lemma Kind.keyword_injective : Function.Injective Kind.keyword := by
  intro k l h
  have hkind := congrArg Kind.ofKeyword? h
  rw [Kind.ofKeyword?_keyword, Kind.ofKeyword?_keyword] at hkind
  exact Option.some.inj hkind

lemma eq_of_map_eq {α β : Type} {f : α → β} {as bs : List α}
    (hf : ∀ a ∈ as, ∀ b, f a = f b → a = b) (h : as.map f = bs.map f) : as = bs := by
  induction as generalizing bs with
  | nil => exact (List.map_eq_nil_iff.1 h.symm).symm
  | cons a as ih =>
    obtain ⟨b, rest, rfl, hb, hrest⟩ := List.map_eq_cons_iff.1 h.symm
    obtain ⟨ha, has⟩ := List.forall_mem_cons.1 hf
    rw [ha b hb.symm, ih has hrest.symm]

namespace Ty

lemma listToJson_eq_map (ts : List Ty) : listToJson ts = ts.map toJson := by
  induction ts with
  | nil => rfl
  | cons t ts ih => rw [listToJson, ih, List.map_cons]

lemma tagged_inj {kind kind' : String} {v w : Json} (h : tagged kind v = tagged kind' w) :
    v = w := by
  simp only [tagged, Json.object.injEq, List.cons.injEq, Prod.mk.injEq] at h
  exact h.2.1.2

/-- Types of one JSON value are one type. -/
theorem toJson_injective : Function.Injective toJson := by
  refine Ty.induction ?primitive ?named ?anyObject ?listOf ?unionOf ?literalEnum
  case primitive =>
    intro kind u h
    cases u with
    | primitive kind' => rw [Kind.keyword_injective (Json.string.inj (tagged_inj h))]
    | _ => simp [toJson, tagged] at h
  case named =>
    intro name u h
    cases u with
    | named name' => rw [Json.string.inj (tagged_inj h)]
    | _ => simp [toJson, tagged] at h
  case anyObject =>
    intro u h
    cases u with
    | anyObject => rfl
    | _ => simp [toJson, tagged] at h
  case listOf =>
    intro element ih u h
    cases u with
    | listOf element' => rw [ih (tagged_inj h)]
    | _ => simp [toJson, tagged] at h
  case unionOf =>
    intro members ih u h
    cases u with
    | unionOf members' =>
      have hmembers := Json.array.inj (tagged_inj h)
      rw [listToJson_eq_map, listToJson_eq_map] at hmembers
      rw [eq_of_map_eq (f := toJson) (fun t ht _ h => ih t ht h) hmembers]
    | _ => simp [toJson, tagged] at h
  case literalEnum =>
    intro values u h
    cases u with
    | literalEnum values' =>
      have hvalues := Json.array.inj (tagged_inj h)
      rw [List.map_injective_iff.2 Literal.toJson_injective hvalues]
    | _ => simp [toJson, tagged] at h

end Ty

/-! ## Declarations and modules -/

lemma Field.toJson_injective : Function.Injective Field.toJson := by
  rintro ⟨name, ty, required⟩ ⟨name', ty', required'⟩ h
  simp only [Field.toJson, Json.object.injEq, List.cons.injEq, Prod.mk.injEq, Json.string.injEq,
    Json.bool.injEq, true_and, and_true] at h
  obtain ⟨rfl, hty, rfl⟩ := h
  rw [Ty.toJson_injective hty]

lemma Declaration.toJson_injective : Function.Injective Declaration.toJson := by
  intro d d' h
  cases d with
  | record r =>
    cases d' with
    | record r' =>
      obtain ⟨name, bases, fields⟩ := r
      obtain ⟨name', bases', fields'⟩ := r'
      simp only [Declaration.toJson, Json.object.injEq, List.cons.injEq, Prod.mk.injEq,
        Json.string.injEq, Json.array.injEq, true_and, and_true] at h
      obtain ⟨rfl, hbases, hfields⟩ := h
      rw [List.map_injective_iff.2 (fun _ _ => Json.string.inj) hbases,
        List.map_injective_iff.2 Field.toJson_injective hfields]
    | enum e => simp [Declaration.toJson] at h
  | enum e =>
    cases d' with
    | record r => simp [Declaration.toJson] at h
    | enum e' =>
      obtain ⟨name, values⟩ := e
      obtain ⟨name', values'⟩ := e'
      simp only [Declaration.toJson, Json.object.injEq, List.cons.injEq, Prod.mk.injEq,
        Json.string.injEq, Json.array.injEq, true_and, and_true] at h
      obtain ⟨rfl, hvalues⟩ := h
      rw [List.map_injective_iff.2 Literal.toJson_injective hvalues]

lemma ImportRole.label_injective : Function.Injective ImportRole.label := by
  intro a b h
  cases a <;> cases b <;> first | rfl | exact absurd h (by decide)

/-- Modules of one JSON value are one module. -/
theorem Module.toJson_injective : Function.Injective Module.toJson := by
  rintro ⟨imports, declarations⟩ ⟨imports', declarations'⟩ h
  simp only [Module.toJson, Json.object.injEq, List.cons.injEq, Prod.mk.injEq, Json.array.injEq,
    true_and, and_true] at h
  obtain ⟨himports, hdeclarations⟩ := h
  have hlabel : Function.Injective fun role : ImportRole => Json.string role.label :=
    fun _ _ h => ImportRole.label_injective (Json.string.inj h)
  rw [List.map_injective_iff.2 hlabel himports,
    List.map_injective_iff.2 Declaration.toJson_injective hdeclarations]

/-! ## Finite numbers -/

/-- A type whose literals are finite, at any depth. -/
inductive Ty.ListsFinite : Ty → Prop
  | primitive (kind : Kind) : Ty.ListsFinite (.primitive kind)
  | named (name : String) : Ty.ListsFinite (.named name)
  | anyObject : Ty.ListsFinite .anyObject
  | listOf {element : Ty} (h : element.ListsFinite) : Ty.ListsFinite (.listOf element)
  | unionOf {members : List Ty} (h : ∀ t ∈ members, t.ListsFinite) :
    Ty.ListsFinite (.unionOf members)
  | literalEnum {values : List Literal} (h : ∀ l ∈ values, l.IsFinite) :
    Ty.ListsFinite (.literalEnum values)

/-- A declaration whose literals are finite. -/
def Declaration.ListsFinite : Declaration → Prop
  | .record r => ∀ f ∈ r.fields, f.ty.ListsFinite
  | .enum e => ∀ l ∈ e.values, l.IsFinite

/-- A module whose literals are finite. -/
def Module.ListsFinite (m : Module) : Prop := ∀ d ∈ m.declarations, d.ListsFinite

lemma Literal.IsFinite.toJson {l : Literal} (h : l.IsFinite) : l.toJson.IsFinite := by
  cases l with
  | null => exact .null
  | boolean b => exact .bool b
  | integer n => exact .integer n
  | number x => exact .float h
  | string s => exact .string s

lemma isFinite_literals {values : List Literal} (h : ∀ l ∈ values, l.IsFinite) :
    (Json.array (values.map Literal.toJson)).IsFinite :=
  .array (List.forall_mem_map.2 fun l hl => (h l hl).toJson)

lemma Ty.isFinite_tagged (kind : String) {v : Json} (h : v.IsFinite) : (tagged kind v).IsFinite :=
  .object (List.forall_mem_cons.2 ⟨.string kind, List.forall_mem_singleton.2 h⟩)

lemma Ty.ListsFinite.toJson {t : Ty} (h : t.ListsFinite) : t.toJson.IsFinite := by
  induction h with
  | primitive kind => exact isFinite_tagged _ (.string _)
  | named name => exact isFinite_tagged _ (.string _)
  | anyObject => exact .object (List.forall_mem_singleton.2 (.string _))
  | listOf _ ih => exact isFinite_tagged _ ih
  | unionOf _ ih =>
    refine isFinite_tagged _ (.array ?_)
    rw [listToJson_eq_map]
    exact List.forall_mem_map.2 ih
  | literalEnum h => exact isFinite_tagged _ (isFinite_literals h)

lemma isFinite_strings {α : Type} (f : α → String) (as : List α) :
    (Json.array (as.map fun a => .string (f a))).IsFinite :=
  .array (List.forall_mem_map.2 fun a _ => .string (f a))

lemma Field.isFinite_toJson {f : Field} (h : f.ty.ListsFinite) : f.toJson.IsFinite :=
  .object (List.forall_mem_cons.2 ⟨.string _, List.forall_mem_cons.2 ⟨h.toJson,
    List.forall_mem_singleton.2 (.bool _)⟩⟩)

lemma Declaration.ListsFinite.toJson {d : Declaration} (h : d.ListsFinite) :
    d.toJson.IsFinite := by
  cases d with
  | record r =>
    have hfields : (Json.array (r.fields.map Field.toJson)).IsFinite :=
      .array (List.forall_mem_map.2 fun f hf => Field.isFinite_toJson (h f hf))
    exact .object (List.forall_mem_cons.2 ⟨.string _, List.forall_mem_cons.2 ⟨.string _,
      List.forall_mem_cons.2 ⟨isFinite_strings id r.bases, List.forall_mem_singleton.2 hfields⟩⟩⟩)
  | enum e =>
    exact .object (List.forall_mem_cons.2 ⟨.string _, List.forall_mem_cons.2 ⟨.string _,
      List.forall_mem_singleton.2 (isFinite_literals h)⟩⟩)

lemma Module.ListsFinite.toJson {m : Module} (h : m.ListsFinite) : m.toJson.IsFinite := by
  have hdeclarations : (Json.array (m.declarations.map Declaration.toJson)).IsFinite :=
    .array (List.forall_mem_map.2 fun d hd => (h d hd).toJson)
  exact .object (List.forall_mem_cons.2
    ⟨isFinite_strings ImportRole.label m.imports, List.forall_mem_singleton.2 hdeclarations⟩)

/-! ## Texts -/

/-- Modules of finite numbers with the same compact or the same indented JSON text are one module,
and the two texts of a module differ only in blanks outside of strings. -/
theorem Module.toJson_determines :
    (∀ m n : Module, m.ListsFinite → n.ListsFinite →
      m.toJson.compact = n.toJson.compact ∨ m.toJson.pretty = n.toJson.pretty → m = n) ∧
    ∀ m : Module, Json.withoutBlanks m.toJson.pretty = m.toJson.compact := by
  refine ⟨fun m n hm hn h => ?_, fun m => Json.withoutBlanks_pretty m.toJson⟩
  have hcompact : m.toJson.compact = n.toJson.compact := by
    rcases h with h | h
    · exact h
    · rw [← Json.withoutBlanks_pretty, h, Json.withoutBlanks_pretty]
  exact Module.toJson_injective (Json.compact_injective hm.toJson hn.toJson hcompact)

/-- A module with one field of one value, inside a list. -/
def oneValue (l : Literal) : Module :=
  { imports := [.recordBase]
    declarations := [.record ⟨"A", [], [⟨"x", .listOf (.literalEnum [l]), false⟩]⟩] }

lemma oneValue_listsFinite {l : Literal} (h : l.IsFinite) : (oneValue l).ListsFinite := by
  have hfield : (Ty.listOf (.literalEnum [l])).ListsFinite :=
    .listOf (.literalEnum (List.forall_mem_singleton.2 h))
  exact List.forall_mem_singleton.2 (List.forall_mem_singleton.2 hfield)

/-- The integer two, the number two and the text of both are three values in JSON as well. -/
theorem Module.toJson_determines_two :
    oneValue (.integer 2) = oneValue (.integer (1 + 1)) ∧
      (oneValue (.integer 2)).toJson.compact ≠
        (oneValue (.number (Binary64.ofInt 2))).toJson.compact ∧
      (oneValue (.integer 2)).toJson.pretty ≠ (oneValue (.string "2")).toJson.pretty ∧
      Json.withoutBlanks (oneValue (.integer 2)).toJson.pretty =
        (oneValue (.integer 2)).toJson.compact := by
  have htwo : (Literal.number (Binary64.ofInt 2)).IsFinite :=
    Binary64.isFinite_ofInt (by decide) (by decide)
  have hinteger (n : Int) : (oneValue (.integer n)).ListsFinite := oneValue_listsFinite trivial
  have hnumber : (oneValue (.number (Binary64.ofInt 2))).ListsFinite := oneValue_listsFinite htwo
  have hstring : (oneValue (.string "2")).ListsFinite := oneValue_listsFinite trivial
  refine ⟨Module.toJson_determines.1 _ _ (hinteger 2) (hinteger (1 + 1)) (.inl rfl), fun h => ?_,
    fun h => ?_, Module.toJson_determines.2 _⟩
  · exact nomatch Module.toJson_determines.1 _ _ (hinteger 2) hnumber (.inl h)
  · exact nomatch Module.toJson_determines.1 _ _ (hinteger 2) hstring (.inr h)

end TypedSchema
