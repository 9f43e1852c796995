import TypedSchema.Proofs.Schema.Written

/-!
# What of a document its schema expresses

A keyword that no schema can express is refused rather than dropped.  This module says how far that
goes, for the keywords of one schema node and for the nodes inside it.

* `Document.schemaOf_keeps_iff`: a schema expresses a keyword that its node gives, unless the node
  has one of the combinations that classification lets stand without a use for the keyword
  (`Json.Overlooks`): `required` beside `anyOf` or beside a bare reference, and `enum` or `items`
  beside `allOf`.
* `Document.supported_or_skipped`: no schema node of a document has an unsupported keyword, unless
  it is below `items` beside `allOf`, which is never classified.
-/

namespace TypedSchema

/-! ## Keywords beside each other -/

/-- The schema expresses a keyword with this value. -/
def Schema.Keeps (s : Schema) (value : Json) : Keyword → Prop
  | .ref => ∃ target, value = .string target ∧
      (s = .ref target ∨ ∃ o : ObjectSchema, s = .object o ∧ o.base = some target)
  | .properties | .required => ∃ o, s = .object o
  | .allOf => ∃ o : ObjectSchema, s = .object o ∧ o.isComposed = true
  | .anyOf => ∃ alternatives, s = .anyOf alternatives
  | .items => ∃ items, s = .array items
  | .enum => ∃ p, s = .primitive p
  | .id | .type => True

/-- The keywords that a schema node gives and its schema leaves out. -/
def Json.Overlooks (v : Json) : Keyword → Prop
  | .required => v.Gives .anyOf ∨
      v.Gives .ref ∧ ¬v.Gives .properties ∧ v.under .type ≠ .string "object"
  | .enum | .items => v.Gives .allOf
  | _ => False

lemma Json.not_overlooks_required {v : Json} (hanyOf : ¬v.Gives .anyOf) (href : ¬v.Gives .ref) :
    ¬v.Overlooks .required := by
  rintro (h | ⟨h, _⟩)
  · exact hanyOf h
  · exact href h

namespace Node

section
variable {v : Json} {node : Node} {s : Schema} {k : Keyword}

lemma Reads.under_ref {value : Json} {e : Entry} (h : Reads .ref value e) (target : String) :
    e = .ref (some target) ↔ value = .string target := by
  cases h <;> simp [entry]

lemma Reads.under_type {value : Json} {e : Entry} (h : Reads .type value e) (keyword : String) :
    e = .type (some (.one keyword)) ↔ value = .string keyword := by
  cases h <;> simp [entry]

lemma under_ref_iff (hv : v.Valid) (h : read v = .ok node) (target : String) :
    node.ref = some target ↔ v.under .ref = .string target := by
  rw [← (reads_entry hv h (k := .ref) nofun).under_ref target]
  simp [entry]

lemma typeIs_iff (hv : v.Valid) (h : read v = .ok node) (keyword : String) :
    node.typeIs keyword = true ↔ v.under .type = .string keyword := by
  rw [← (reads_entry hv h (k := .type) nofun).under_type keyword]
  unfold typeIs entry
  split <;> simp_all

/-- A value has nothing under the keywords that its node lacks. -/
lemma not_gives_of_lacks (hv : v.Valid) (hread : read v = .ok node) {ks : List Keyword}
    (alone : node.Lacks ks) (hmem : k ∈ ks) (hid : k ≠ .id) : ¬v.Gives k := by
  rw [← gives_iff hv hread hid, alone k hmem]
  exact Bool.false_ne_true

lemma isComposed_of_denoteObject {o : ObjectSchema}
    (h : node.denoteObject node.children = .ok o) : o.isComposed = node.gives .allOf := by
  have hrel := allOf_of_denoteObject h
  show o.allOf.isSome = node.allOf.isSome
  generalize node.allOf = nodes at hrel ⊢
  generalize o.allOf = members at hrel ⊢
  cases hrel <;> rfl

/-- A classified node expresses what it gives and does not overlook. -/
lemma keeps_iff_of_classifiedAs (hv : v.Valid) (hread : read v = .ok node)
    (h : node.ClassifiedAs s) (hk : v.Gives k) : s.Keeps (v.under k) k ↔ ¬v.Overlooks k := by
  obtain rfl | hid := eq_or_ne k .id
  · exact iff_of_true trivial not_false
  have hgives (k : Keyword) (hid : k ≠ .id) : node.gives k = true ↔ v.Gives k :=
    gives_iff hv hread hid
  have hlacks {ks : List Keyword} (alone : node.Lacks ks) (k : Keyword) (hid : k ≠ .id)
      (hmem : k ∈ ks) : ¬v.Gives k :=
    not_gives_of_lacks hv hread alone hmem hid
  have habsurd {ks : List Keyword} (alone : node.Lacks ks) (hmem : k ∈ ks) : False :=
    hlacks alone k hid hmem hk
  cases h with
  | @reference target ref alone =>
    have href : v.Gives .ref := (hgives .ref nofun).1 (gives_ref ref)
    have htype : v.under .type ≠ .string "object" := fun htype =>
      hlacks alone .type nofun (by simp) (by rw [Json.Gives, htype]; nofun)
    cases k with
    | id | type => exact iff_of_true trivial not_false
    | ref => exact iff_of_true ⟨target, (under_ref_iff hv hread target).1 ref, .inl rfl⟩ not_false
    | required =>
      exact iff_of_false nofun
        (not_not_intro (.inr ⟨href, hlacks alone .properties nofun (by simp), htype⟩))
    | properties | allOf | anyOf | items | enum => exact (habsurd alone (by simp)).elim
  | @extension o ref shaped alone object =>
    cases k with
    | id | type => exact iff_of_true trivial not_false
    | ref =>
      obtain ⟨target, htarget⟩ := Option.isSome_iff_exists.1 ref
      exact iff_of_true ⟨target, (under_ref_iff hv hread target).1 htarget,
        .inr ⟨o, rfl, (base_of_denoteObject object).trans htarget⟩⟩ not_false
    | properties => exact iff_of_true ⟨o, rfl⟩ not_false
    | required =>
      refine iff_of_true ⟨o, rfl⟩ ?_
      rintro (hanyOf | ⟨_, hproperties, htype⟩)
      · exact hlacks alone .anyOf nofun (by simp) hanyOf
      · rw [hgives .properties nofun, typeIs_iff hv hread] at shaped
        exact shaped.elim hproperties htype
    | allOf | anyOf | items | enum => exact (habsurd alone (by simp)).elim
  | @alternatives ss anyOf alone =>
    cases k with
    | id | type => exact iff_of_true trivial not_false
    | anyOf => exact iff_of_true ⟨ss, rfl⟩ not_false
    | required => exact iff_of_false nofun (not_not_intro (.inl ((hgives .anyOf nofun).1 anyOf)))
    | ref | properties | allOf | items | enum => exact (habsurd alone (by simp)).elim
  | @composition o allOf alone object =>
    have hallOf : v.Gives .allOf := (hgives .allOf nofun).1 allOf
    cases k with
    | id | type => exact iff_of_true trivial not_false
    | properties => exact iff_of_true ⟨o, rfl⟩ not_false
    | required =>
      exact iff_of_true ⟨o, rfl⟩ (Json.not_overlooks_required
        (hlacks alone .anyOf nofun (by simp)) (hlacks alone .ref nofun (by simp)))
    | allOf => exact iff_of_true ⟨o, rfl, (isComposed_of_denoteObject object).trans allOf⟩ not_false
    | items | enum => exact iff_of_false nofun (not_not_intro hallOf)
    | ref | anyOf => exact (habsurd alone (by simp)).elim
  | @object o alone =>
    cases k with
    | id | type => exact iff_of_true trivial not_false
    | properties => exact iff_of_true ⟨o, rfl⟩ not_false
    | required =>
      exact iff_of_true ⟨o, rfl⟩ (Json.not_overlooks_required
        (hlacks alone .anyOf nofun (by simp)) (hlacks alone .ref nofun (by simp)))
    | ref | allOf | anyOf | items | enum => exact (habsurd alone (by simp)).elim
  | @array items alone =>
    cases k with
    | id | type => exact iff_of_true trivial not_false
    | items => exact iff_of_true ⟨items, rfl⟩ (hlacks alone .allOf nofun (by simp))
    | ref | properties | required | allOf | anyOf | enum =>
      exact (habsurd alone (by simp)).elim
  | @primitive kind enum alone =>
    cases k with
    | id | type => exact iff_of_true trivial not_false
    | enum => exact iff_of_true ⟨_, rfl⟩ (hlacks alone .allOf nofun (by simp))
    | ref | properties | required | allOf | anyOf | items =>
      exact (habsurd alone (by simp)).elim
  | @multiType _ kinds alone =>
    cases k with
    | id | type => exact iff_of_true trivial not_false
    | ref | properties | required | allOf | anyOf | items | enum =>
      exact (habsurd alone (by simp)).elim

end

end Node

/-- A schema expresses exactly the keywords of its node that the node does not overlook. -/
theorem Document.schemaOf_keeps_iff {v : Json} {path : String} {s : Schema} (hv : v.Valid)
    (h : Document.schemaOf v path = .ok s) {k : Keyword} (hk : v.Gives k) :
    s.Keeps (v.under k) k ↔ ¬v.Overlooks k := by
  obtain ⟨node, hread, hclassify⟩ := Document.schemaOf_eq_ok.1 h
  exact Node.keeps_iff_of_classifiedAs hv hread (Node.classifiedAs_of_classify hclassify) hk

/-- A reference with a list of required properties. -/
def Document.requiringReference : Json :=
  .object [("$ref", .string "#A"), ("required", .array [.string "x"])]

lemma Document.requiringReference_valid : Document.requiringReference.Valid := by
  have hnames : (Json.array [.string "x"]).Valid :=
    .array (List.forall_mem_singleton.2 (.string "x"))
  exact .object (by decide) (List.forall_mem_cons.2
    ⟨.string "#A", List.forall_mem_singleton.2 hnames⟩)

theorem Document.schemaOf_keeps_iff_reference :
    Document.requiringReference.Valid ∧
      Document.schemaOf Document.requiringReference "" = .ok (.ref "#A") ∧
      (Schema.ref "#A").Keeps (Document.requiringReference.under .ref) .ref ∧
      ¬(Schema.ref "#A").Keeps (Document.requiringReference.under .required) .required := by
  have hschema : Document.schemaOf Document.requiringReference "" = .ok (.ref "#A") := rfl
  have href : Document.requiringReference.Gives .ref := nofun
  have hrequired : Document.requiringReference.Gives .required := nofun
  refine ⟨Document.requiringReference_valid, hschema, ?_, fun hkeeps => ?_⟩
  · exact (Document.schemaOf_keeps_iff Document.requiringReference_valid hschema href).2 not_false
  · refine (Document.schemaOf_keeps_iff Document.requiringReference_valid hschema hrequired).1
      hkeeps (.inr ⟨href, fun hproperties => hproperties rfl, nofun⟩)

/-- A keyword can be left out: a reference has no place for required properties. -/
theorem Document.schemaOf_drops_required :
    ¬∀ (v : Json) (path : String) (s : Schema), v.Valid → Document.schemaOf v path = .ok s →
      ∀ k, v.Gives k → s.Keeps (v.under k) k := by
  intro h
  have hkeeps := h Document.requiringReference "" (.ref "#A") Document.requiringReference_valid rfl
    .required nofun
  obtain ⟨o, ho⟩ := hkeeps
  cases ho

/-! ## Nodes inside each other -/

namespace Json

/-- The schema nodes of a schema node: itself, and those that one of them holds under a keyword. -/
inductive HasNode (v : Json) : Json → Prop
  | root : HasNode v v
  | part {u w : Json} (k : Keyword) (node : HasNode v u) (part : w ∈ u.parts k) : HasNode v w

/-- The schema nodes that are reached without going into items beside a composition. -/
inductive Visits (v : Json) : Json → Prop
  | root : Visits v v
  | part {u w : Json} (k : Keyword) (node : Visits v u) (part : w ∈ u.parts k)
    (used : ¬(k = .items ∧ u.Gives .allOf)) : Visits v w

/-- Whether a schema node is below items beside a composition. -/
def Skips (v w : Json) : Prop :=
  ∃ u, v.Visits u ∧ u.Gives .allOf ∧ ∃ item ∈ u.parts .items, item.HasNode w

/-- A schema node is reached, or it is below items beside a composition. -/
lemma visits_or_skips {v w : Json} (h : v.HasNode w) : v.Visits w ∨ v.Skips w := by
  induction h with
  | root => exact .inl .root
  | @part u w k _ part ih =>
    rcases ih with hvisits | ⟨u', hu', hallOf, item, hitem, hnode⟩
    · by_cases used : k = .items ∧ u.Gives .allOf
      · obtain ⟨rfl, hallOf⟩ := used
        exact .inr ⟨u, hvisits, hallOf, w, part, .root⟩
      · exact .inl (.part k hvisits part used)
    · exact .inr ⟨u', hu', hallOf, item, hitem, .part k hnode part⟩

lemma Valid.under {v : Json} (h : v.Valid) (k : Keyword) : (v.under k).Valid := by
  cases v with
  | object members =>
    show ((members.lookup k.key).getD .null).Valid
    cases hvalue : members.lookup k.key with
    | none => exact .null
    | some value =>
      obtain ⟨before, after, rfl⟩ := exists_split_of_lookup hvalue
      exact h.members (k.key, value) (by simp)
  | _ => exact .null

lemma Valid.parts {v w : Json} {k : Keyword} (h : v.Valid) (hw : w ∈ v.parts k) : w.Valid := by
  have hunder := h.under k
  unfold Json.parts at hw
  generalize v.under k = value at hunder hw
  unfold partsUnder at hw
  split at hw
  · obtain ⟨m, hm, rfl⟩ := List.mem_map.1 hw
    exact hunder.members m hm
  · rw [List.mem_singleton.1 hw]
    exact hunder
  all_goals first | exact hunder.items w hw | exact absurd hw List.not_mem_nil

end Json

namespace Node

/-- A schema node that holds a schema has parts that hold schemas, apart from items beside a
composition. -/
lemma exists_holds_of_mem_parts {u w : Json} {s : Schema} (hu : u.Valid) (h : Holds u s)
    {k : Keyword} (part : w ∈ u.parts k) (used : ¬(k = .items ∧ u.Gives .allOf)) :
    ∃ s', Holds w s' := by
  obtain ⟨node, hread, hclassify⟩ := h
  obtain rfl | hid := eq_or_ne k .id
  · exact absurd part List.not_mem_nil
  obtain ⟨n, hn, hreadPart⟩ := exists_of_forall₂ (forall₂_parts hu hread hid).flip part
  rw [← gives_iff hu hread (k := .allOf) nofun] at used
  obtain ⟨s', hs'⟩ := exists_of_mem_parts hclassify used hn
  exact ⟨s', n, hreadPart, hs'⟩

/-- Every schema node that is reached holds a schema. -/
lemma holds_of_visits {v w : Json} {s : Schema} (hv : v.Valid) (h : Holds v s)
    (hw : v.Visits w) : w.Valid ∧ ∃ s', Holds w s' := by
  induction hw with
  | root => exact ⟨hv, s, h⟩
  | part k _ part used ih =>
    obtain ⟨hu, s', hs'⟩ := ih
    exact ⟨hu.parts part, exists_holds_of_mem_parts hu hs' part used⟩

/-- A schema node that holds a schema has no unsupported keyword. -/
lemma notMem_unsupported_of_holds {v : Json} {s : Schema} (h : Holds v s) :
    ∀ key ∈ v.keys, key ∉ unsupportedKeywords := by
  obtain ⟨node, hread, hclassify⟩ := h
  intro key hkey hunsupported
  have hother : key ∈ node.others :=
    (mem_others hread).2 ⟨hkey, ofKey?_of_unsupported key hunsupported⟩
  exact notMem_unsupported_of_classify hclassify hother hunsupported

end Node

/-- No schema node of a document that denotes a schema has an unsupported keyword, apart from those
below items beside a composition. -/
theorem Document.supported_or_skipped {v : Json} {path : String} {s : Schema} (hv : v.Valid)
    (h : Document.schemaOf v path = .ok s) {w : Json} (hw : v.HasNode w) :
    (∀ key ∈ w.keys, key ∉ unsupportedKeywords) ∨ v.Skips w := by
  refine (Json.visits_or_skips hw).imp_left fun hvisits => ?_
  obtain ⟨_, s', hs'⟩ := Node.holds_of_visits hv (Document.schemaOf_eq_ok.1 h) hvisits
  exact Node.notMem_unsupported_of_holds hs'

/-- Integers from a bound upwards. -/
def Document.bounded : Json := .object [("type", .string "integer"), ("minimum", .integer 3)]

/-- A composition of nothing, with bounded items beside it. -/
def Document.boundedItems : Json := .object [("allOf", .array []), ("items", Document.bounded)]

lemma Document.boundedItems_valid : Document.boundedItems.Valid := by
  have hbounded : Document.bounded.Valid :=
    .object (by decide) (List.forall_mem_cons.2
      ⟨.string "integer", List.forall_mem_singleton.2 (.integer (by decide) (by decide))⟩)
  exact .object (by decide) (List.forall_mem_cons.2
    ⟨.array fun _ h => absurd h List.not_mem_nil, List.forall_mem_singleton.2 hbounded⟩)

lemma Document.schemaOf_boundedItems (path : String) :
    Document.schemaOf Document.boundedItems path = .ok (.object { allOf := some [] }) := rfl

theorem Document.supported_or_skipped_items :
    Document.boundedItems.Valid ∧
      Document.schemaOf Document.boundedItems "" = .ok (.object { allOf := some [] }) ∧
      Document.boundedItems.HasNode Document.bounded ∧
      Document.boundedItems.Skips Document.bounded := by
  have hnode : Document.boundedItems.HasNode Document.bounded :=
    .part .items .root List.mem_cons_self
  refine ⟨Document.boundedItems_valid, rfl, hnode, ?_⟩
  refine (Document.supported_or_skipped Document.boundedItems_valid
    (Document.schemaOf_boundedItems "") hnode).resolve_left fun h => ?_
  exact h "minimum" (by decide) (by decide)

/-- An unsupported keyword can pass: items beside a composition are not looked at. -/
theorem Document.schemaOf_passes_minimum :
    ¬∀ (v : Json) (path : String) (s : Schema), v.Valid → Document.schemaOf v path = .ok s →
      ∀ w, v.HasNode w → ∀ key ∈ w.keys, key ∉ unsupportedKeywords := by
  intro h
  exact h Document.boundedItems "" _ Document.boundedItems_valid
    (Document.schemaOf_boundedItems "") Document.bounded (.part .items .root List.mem_cons_self)
    "minimum" (by decide) (by decide)

end TypedSchema
