import TypedSchema.Proofs.Induction
import TypedSchema.Proofs.Schema.Merge
import TypedSchema.Proofs.Schema.Resolve
import TypedSchema.Proofs.Schema.WellFormed

/-!
# Types in normal form

The type that a schema denotes is in normal form (`Schema.resolve_normal`): a union has two members
at least and no member that is a union, and a set of literals has some.  The literals are finite
numbers if the schema lists no other numbers (`Schema.ListsFinite`), which holds of every schema
that a document can hold (`Schema.WellFormed.listsFinite`) and is kept by merging
(`ObjectSchema.listsFinite_of_merge`).
-/

namespace TypedSchema

/-! ## Values that are listed -/

/-- A literal other than a number that is not finite. -/
def Literal.IsFinite : Literal → Prop
  | .number x => x.isFinite = true
  | _ => True

lemma Literal.Valid.isFinite {l : Literal} (h : l.Valid) : l.IsFinite := by
  cases l with
  | number x => exact h
  | _ => trivial

mutual

/-- A schema that lists finite values only, at any depth. -/
inductive Schema.ListsFinite : Schema → Prop
  | object {o : ObjectSchema} (h : o.ListsFinite) : Schema.ListsFinite (.object o)
  | array {items : List Schema} (h : ∀ s ∈ items, s.ListsFinite) :
    Schema.ListsFinite (.array items)
  | primitive {p : PrimitiveSchema}
    (h : ∀ values, p.enum = some values → ∀ l ∈ values, l.IsFinite) :
    Schema.ListsFinite (.primitive p)
  | multiType (kinds : List Kind) : Schema.ListsFinite (.multiType kinds)
  | anyOf {alternatives : List Schema} (h : ∀ s ∈ alternatives, s.ListsFinite) :
    Schema.ListsFinite (.anyOf alternatives)
  | ref (target : String) : Schema.ListsFinite (.ref target)

/-- An object schema that lists finite values only, at any depth. -/
inductive ObjectSchema.ListsFinite : ObjectSchema → Prop
  | intro {o : ObjectSchema}
    (properties : ∀ entry ∈ o.properties, entry.2.ListsFinite)
    (members : ∀ members, o.allOf = some members → ∀ inner, .inline inner ∈ members →
      inner.ListsFinite) :
    ObjectSchema.ListsFinite o

end

/-- A schema that a document can hold lists finite values only. -/
theorem Schema.WellFormed.listsFinite : ∀ {s : Schema}, s.WellFormed → s.ListsFinite := by
  refine fun {s} => (Schema.induction (P := fun s => s.WellFormed → s.ListsFinite)
    (Q := fun o => o.WellFormed → o.ListsFinite) ?object ?array ?primitive ?multiType ?anyOf ?ref
    ?fields).1 s
  case object =>
    rintro o ih (⟨h⟩)
    exact .object (ih h)
  case array =>
    intro items ih h
    cases h with
    | array h => exact .array fun s hs => ih s hs (h s hs)
  case primitive =>
    intro p h
    cases h with
    | primitive h =>
      exact .primitive fun values hvalues l hl => ((h values hvalues).2 l hl).2.isFinite
  case multiType => exact fun kinds _ => .multiType kinds
  case anyOf =>
    intro alternatives ih h
    cases h with
    | anyOf h => exact .anyOf fun s hs => ih s hs (h s hs)
  case ref => exact fun target _ => .ref target
  case fields =>
    intro o ihproperties ihmembers h
    cases h with
    | intro _ _ properties _ _ members =>
      exact .intro (fun entry hentry => ihproperties entry hentry (properties entry hentry))
        fun ms hms inner hinner => ihmembers ms hms inner hinner (members ms hms inner hinner)

/-! ## Merging -/

namespace Schema

lemma listsFinite_of_alternatives {s : Schema} {shapes : List Schema} (hs : s.ListsFinite)
    (h : s.alternatives = .ok shapes) : ∀ x ∈ shapes, x.ListsFinite := by
  cases hs with
  | anyOf hall =>
    cases h
    exact hall
  | multiType kinds =>
    cases h
    exact List.forall_mem_map.2 fun kind _ => .primitive nofun
  | ref target => cases h
  | _ =>
    cases h
    refine List.forall_mem_singleton.2 ?_
    constructor
    assumption

lemma listsFinite_ofShapes {shapes : List Schema} (h : ∀ x ∈ shapes, x.ListsFinite) :
    (ofShapes shapes).ListsFinite := by
  match shapes, h with
  | [], h => exact .anyOf h
  | [s], h => exact h s (List.mem_singleton_self s)
  | _ :: _ :: _, h => exact .anyOf h

lemma listsFinite_of_intersection {a b r : Schema} (ha : a.ListsFinite)
    (h : a.intersection b = .ok r) : r.ListsFinite := by
  obtain ⟨as, bs, has, -, -, rfl⟩ := intersection_eq_ok.1 h
  refine listsFinite_ofShapes fun x hx => ?_
  have hxa := List.mem_of_mem_filter (mem_of_mem_firstOccurrences hx)
  exact listsFinite_of_alternatives ha has x hxa

end Schema

namespace ObjectSchema

lemma listsFinite_of_mergeProperty {properties merged : List (String × Schema)} {name : String}
    {s : Schema} (hproperties : ∀ entry ∈ properties, entry.2.ListsFinite) (hs : s.ListsFinite)
    (h : mergeProperty properties name s = .ok merged) :
    ∀ entry ∈ merged, entry.2.ListsFinite := by
  have hinsert : ∀ {v : Schema}, v.ListsFinite →
      ∀ entry ∈ insertMember name v properties, entry.2.ListsFinite := by
    intro v hv entry hentry
    rcases mem_of_mem_insertMember hentry with rfl | hmem
    · exact hv
    · exact hproperties entry hmem
  unfold mergeProperty at h
  split at h
  · cases h
    exact hinsert hs
  · rename_i existing hexisting
    simp only [bind_eq_ok, mapError_eq_ok, pure_eq_ok] at h
    obtain ⟨both, hboth, rfl⟩ := h
    obtain ⟨before, after, rfl⟩ := exists_split_of_lookup hexisting
    have hold := hproperties (name, existing) (List.mem_append_right before List.mem_cons_self)
    exact hinsert (Schema.listsFinite_of_intersection hold hboth)

lemma listsFinite_of_mergeProperties {properties entries out : List (String × Schema)}
    (hproperties : ∀ entry ∈ properties, entry.2.ListsFinite)
    (hentries : ∀ entry ∈ entries, entry.2.ListsFinite)
    (h : mergeProperties properties entries = .ok out) : ∀ entry ∈ out, entry.2.ListsFinite := by
  induction entries generalizing properties with
  | nil =>
    cases h
    exact hproperties
  | cons entry rest ih =>
    rw [mergeProperties, bind_eq_ok] at h
    obtain ⟨merged, hmerged, h⟩ := h
    obtain ⟨hentry, hrest⟩ := List.forall_mem_cons.1 hentries
    exact ih (listsFinite_of_mergeProperty hproperties hentry hmerged) hrest h

/-- Merging lists no values that were not listed before. -/
theorem listsFinite_of_merge {schemas : List ObjectSchema} {merged : ObjectSchema}
    (hschemas : ∀ o ∈ schemas, ∀ entry ∈ o.properties, entry.2.ListsFinite)
    (h : merge schemas = .ok merged) : ∀ entry ∈ merged.properties, entry.2.ListsFinite := by
  obtain ⟨-, -, properties, hproperties, rfl⟩ := merge_eq_ok.1 h
  refine listsFinite_of_mergeProperties (List.forall_mem_nil _) (fun entry hentry => ?_) hproperties
  obtain ⟨o, ho, hmem⟩ := List.mem_flatMap.1 hentry
  exact hschemas o ho entry hmem

end ObjectSchema

/-! ## Types in normal form -/

/-- Whether a type is a union. -/
def Ty.isUnion : Ty → Bool
  | .unionOf _ => true
  | _ => false

/-- A type with flat unions of several members, and sets of some finite values. -/
inductive Ty.Normal : Ty → Prop
  | primitive (kind : Kind) : Ty.Normal (.primitive kind)
  | named (name : String) : Ty.Normal (.named name)
  | anyObject : Ty.Normal .anyObject
  | listOf {element : Ty} (h : element.Normal) : Ty.Normal (.listOf element)
  | unionOf {members : List Ty} (several : 2 ≤ members.length)
    (flat : ∀ t ∈ members, t.isUnion = false) (h : ∀ t ∈ members, t.Normal) :
    Ty.Normal (.unionOf members)
  | literalEnum {values : List Literal} (nonempty : values ≠ [])
    (finite : ∀ l ∈ values, l.IsFinite) : Ty.Normal (.literalEnum values)

/-- The members of a type in normal form are in normal form, and no unions. -/
lemma Ty.Normal.members {t : Ty} (h : t.Normal) :
    ∀ u ∈ t.members, u.Normal ∧ u.isUnion = false := by
  cases h with
  | unionOf _ flat h => exact fun u hu => ⟨h u hu, flat u hu⟩
  | _ =>
    refine List.forall_mem_singleton.2 ⟨?_, rfl⟩
    constructor <;> assumption

/-- A union of types in normal form is in normal form. -/
lemma Ty.normal_of_union {cause : EmptyCause} {arms : List Ty} {t : Ty}
    (harms : ∀ arm ∈ arms, arm.Normal) (h : Ty.union cause arms = .ok t) : t.Normal := by
  have hmembers : ∀ u ∈ firstOccurrences (arms.flatMap Ty.members),
      u.Normal ∧ u.isUnion = false := by
    intro u hu
    obtain ⟨arm, harm, hmem⟩ := List.mem_flatMap.1 (mem_of_mem_firstOccurrences hu)
    exact (harms arm harm).members u hmem
  unfold Ty.union at h
  split at h
  case h_1 => cases h
  case h_2 u hu =>
    cases h
    exact (hmembers t (hu ▸ List.mem_singleton_self t)).1
  case h_3 members hempty hsingle =>
    cases h
    exact .unionOf (two_le_length hempty hsingle) (fun u hu => (hmembers u hu).2)
      fun u hu => (hmembers u hu).1

namespace Schema

lemma normal_objectType (o : ObjectSchema) : (objectType o).Normal := by
  unfold objectType
  split
  · split
    · exact .named _
    · exact .anyObject
  · exact .anyObject

lemma normal_primitiveType {p : PrimitiveSchema} (h : (Schema.primitive p).ListsFinite) :
    (primitiveType p).Normal := by
  unfold primitiveType
  split
  · rename_i henumerable
    rw [PrimitiveSchema.isEnumerable] at henumerable
    cases h with
    | primitive hfinite =>
      cases henum : p.enum with
      | none => simp [henum] at henumerable
      | some values =>
        refine .literalEnum ?_ (hfinite values henum)
        simpa [henum] using henumerable
  · exact .primitive p.kind

/-- The type that a schema denotes is in normal form, if the schema lists finite values only. -/
theorem resolve_normal : ∀ s : Schema, s.ListsFinite → ∀ t, (resolve s).outcome = .ok t →
    t.Normal := by
  have harms : ∀ {ss : List Schema} {arms : List Ty},
      List.Forall₂ (fun s u => armType s = .ok u ∧ (s.ListsFinite → u.Normal)) ss arms →
      (∀ s ∈ ss, s.ListsFinite) → ∀ arm ∈ arms, arm.Normal := by
    intro ss arms h hfinite arm harm
    obtain ⟨s, hs, -, hnormal⟩ := exists_of_forall₂ h harm
    exact hnormal (hfinite s hs)
  have hresolve : ∀ s t, (resolve s).outcome = .ok t → s.ListsFinite → t.Normal := by
    refine resolve_induction ?object ?primitive ?ref ?multiType ?anyOf ?single ?several
    case object => exact fun o _ _ => normal_objectType o
    case primitive => exact fun p => normal_primitiveType
    case ref => exact fun target _ => .named _
    case multiType =>
      intro kinds t hunion _
      refine Ty.normal_of_union ?_ hunion
      exact List.forall_mem_map.2 fun kind _ => .primitive kind
    case anyOf =>
      intro alternatives arms t hall hunion hfinite
      cases hfinite with
      | anyOf hfinite => exact Ty.normal_of_union (harms hall hfinite) hunion
    case single =>
      intro item element ih hfinite
      cases hfinite with
      | array hfinite => exact .listOf (ih (hfinite item List.mem_cons_self))
    case several =>
      intro items arms element _ hall hunion hfinite
      cases hfinite with
      | array hfinite => exact .listOf (Ty.normal_of_union (harms hall hfinite) hunion)
  exact fun s hfinite t h => hresolve s t h hfinite

end Schema
end TypedSchema
