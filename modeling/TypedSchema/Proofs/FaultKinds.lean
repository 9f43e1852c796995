import TypedSchema.Document
import TypedSchema.Proofs.Declaration.Module
import TypedSchema.Python.Source

/-!
# The kinds of faults that a stage fails with

Every stage has its own kinds of faults: reading a document finds it invalid or a shape unsupported,
resolving and merging find a shape unsupported or a choice empty, building may miss a name besides,
and writing only ever meets a name that cannot be spelled (`failsOnly_of_stage`).  A fault keeps its
kind on its way out, whatever places are put around it.

That a computation fails with some kinds only (`FailsOnly`) passes through everything that composes
computations, so the argument follows each stage through its functions.  A name is missing for one
cause alone, an object or an enumeration without a usable identifier (`Schema.Nameless`), because
the name is the first thing that building looks at (`Schema.exists_unnamed_build_iff`).
-/

namespace TypedSchema

/-! ## Computations that fail with some kinds of faults -/

section
variable {ε α β : Type} {kinds kinds' : List Fault.Kind}

/-- If the computation fails, then with a fault of one of these kinds. -/
def FailsOnly (kinds : List Fault.Kind) (x : Except Fault α) : Prop :=
  ∀ fault, x = .error fault → fault.kind ∈ kinds

namespace FailsOnly

lemma ok (a : α) : FailsOnly kinds (.ok a) := nofun

lemma error {fault : Fault} (h : kinds.contains fault.kind = true) :
    FailsOnly kinds (.error fault : Except Fault α) := by
  rintro _ ⟨⟩
  exact List.contains_iff_mem.1 h

lemma mono {x : Except Fault α} (h : FailsOnly kinds x) (hsub : kinds ⊆ kinds') :
    FailsOnly kinds' x :=
  fun fault hfault => hsub (h fault hfault)

lemma bind {x : Except Fault α} {f : α → Except Fault β} (hx : FailsOnly kinds x)
    (hf : ∀ a, FailsOnly kinds (f a)) : FailsOnly kinds (x >>= f) := by
  cases x with
  | ok a => exact hf a
  | error fault => exact error (List.contains_iff_mem.2 (hx fault rfl))

lemma map {x : Except Fault α} (h : FailsOnly kinds x) (f : α → β) :
    FailsOnly kinds (x.map f) := by
  cases x with
  | ok a => exact ok (f a)
  | error fault => exact error (List.contains_iff_mem.2 (h fault rfl))

/-- Marking a fault with where it occurred keeps its kind. -/
lemma within {x : Except Fault α} (h : FailsOnly kinds x) (place : String) :
    FailsOnly kinds (x.mapError (.within place)) := by
  cases x with
  | ok a => exact ok a
  | error fault =>
    refine error (List.contains_iff_mem.2 ?_)
    rw [Fault.kind_within]
    exact h fault rfl

/-- Errors of another sort turn into faults of the kinds that they are made into. -/
lemma mapError {f : ε → Fault} (hf : ∀ e, kinds.contains (f e).kind = true) (x : Except ε α) :
    FailsOnly kinds (x.mapError f) := by
  cases x with
  | ok a => exact ok a
  | error e => exact error (hf e)

lemma ite {p : Prop} [Decidable p] {x y : Except Fault α} (hx : FailsOnly kinds x)
    (hy : FailsOnly kinds y) : FailsOnly kinds (if p then x else y) := by
  split
  · exact hx
  · exact hy

/-- A recursion over a list that combines what its items give fails as an item does. -/
lemma items {γ : Type} {f : List α → Except Fault β} {g : α → Except Fault γ}
    (combine : α → γ → β → β) {start : β} (hnil : f [] = .ok start)
    (hcons : ∀ a as, f (a :: as) = do
      let c ← g a
      return combine a c (← f as))
    {as : List α} (h : ∀ a ∈ as, FailsOnly kinds (g a)) : FailsOnly kinds (f as) := by
  induction as with
  | nil => exact hnil ▸ ok start
  | cons a as ih =>
    rw [hcons]
    obtain ⟨hfirst, hrest⟩ := List.forall_mem_cons.1 h
    exact bind hfirst fun c => bind (ih hrest) fun b => ok (combine a c b)

end FailsOnly
end

/-! ## Reading documents -/

namespace Document

lemma contains_kind_ofRejection (path : String) (rejection : Rejection) :
    [Fault.Kind.invalid, .unsupported].contains (Fault.ofRejection path rejection).kind = true := by
  cases rejection <;> rfl

lemma failsOnly_parse (text : String) : FailsOnly [.invalid, .unsupported] (parse text) := by
  unfold parse
  exact .mapError (fun _ => rfl) _

lemma failsOnly_schemaOf (value : Json) (path : String) :
    FailsOnly [.invalid, .unsupported] (schemaOf value path) := by
  unfold schemaOf
  exact .bind (.mapError (fun _ => rfl) _) fun _ => .mapError (contains_kind_ofRejection path) _

lemma failsOnly_loadEntry (pointer : Option String) (key : String) (node : Node) :
    FailsOnly [.invalid, .unsupported] (loadEntry pointer key node).outcome := by
  unfold loadEntry
  dsimp only
  split
  · exact .error rfl
  · split
    · exact .mapError (contains_kind_ofRejection _) _
    · split
      · exact .error rfl
      · exact .ok none

lemma failsOnly_loadEntries (pointer : Option String) (entries : List (String × Node)) :
    FailsOnly [.invalid, .unsupported] (loadEntries pointer entries).outcome := by
  refine .items (f := fun entries => (loadEntries pointer entries).outcome)
    (fun _ schema schemas => schema.toList ++ schemas) rfl (fun entry rest => ?_)
    fun entry _ => failsOnly_loadEntry pointer entry.1 entry.2
  simp only [loadEntries, TracedBy.outcome_bind, TracedBy.outcome_pure]
  rfl

lemma failsOnly_load (document : Json) (pointer : Option String) :
    FailsOnly [.invalid, .unsupported] (load document pointer).outcome := by
  simp only [load, TracedBy.outcome_bind, TracedBy.outcome_quiet, TracedBy.outcome_report,
    TracedBy.outcome_pure]
  have hroot : FailsOnly [.invalid, .unsupported] (root document pointer) := by
    unfold root
    split
    · exact .ok document
    · split
      · exact .ok _
      · exact .error rfl
  have hentries : ∀ value, FailsOnly [.invalid, .unsupported] (entries value) := by
    intro value
    unfold entries
    exact .mapError (fun _ => rfl) _
  exact hroot.bind fun value => (hentries value).bind fun nodes =>
    (failsOnly_loadEntries pointer nodes).bind fun schemas => .bind (.ok ()) fun _ => .ok schemas

/-- The path under which a value is classified does not change the kind of its fault. -/
lemma kind_schemaOf (value : Json) (path path' : String) :
    (schemaOf value path).mapError Fault.kind = (schemaOf value path').mapError Fault.kind := by
  unfold schemaOf
  cases Node.read value with
  | error mismatch => rfl
  | ok node =>
    show ((node.classify.mapError (Fault.ofRejection path)).mapError Fault.kind) =
      (node.classify.mapError (Fault.ofRejection path')).mapError Fault.kind
    cases node.classify with
    | ok schema => rfl
    | error rejection => cases rejection <;> rfl

end Document

/-! ## Resolving -/

lemma Ty.failsOnly_union (cause : EmptyCause) (arms : List Ty) :
    FailsOnly [.unsupported, .empty] (Ty.union cause arms) := by
  unfold Ty.union
  split
  · exact .error rfl
  · exact .ok _
  · exact .ok _

namespace Schema

lemma failsOnly_resolveArms {arms : List Schema}
    (h : ∀ s ∈ arms, FailsOnly [.unsupported, .empty] s.resolve.outcome) :
    FailsOnly [.unsupported, .empty] (resolveArms arms).outcome := by
  refine .items (f := fun arms => (resolveArms arms).outcome) (fun _ ty tys => ty :: tys) rfl
    outcome_resolveArms_cons fun s hs => ?_
  unfold armType
  split
  · exact .error rfl
  · exact h s hs

theorem failsOnly_resolve (s : Schema) : FailsOnly [.unsupported, .empty] s.resolve.outcome := by
  refine (Schema.induction (P := fun s => FailsOnly [.unsupported, .empty] s.resolve.outcome)
    (Q := fun _ => True) ?object ?array ?primitive ?multiType ?anyOf ?ref
    fun _ _ _ => trivial).1 s
  case object =>
    intro o _
    rw [resolve]
    split
    · exact .error rfl
    · exact .ok _
  case array =>
    intro items ih
    rcases items with _ | ⟨item, _ | ⟨next, rest⟩⟩
    · exact .error rfl
    · rw [resolve, outcome_resolved, TracedBy.outcome_bind]
      exact .bind (ih item List.mem_cons_self) fun _ => .ok _
    · simp only [resolve, outcome_resolved, TracedBy.outcome_bind, TracedBy.outcome_quiet]
      exact .bind (failsOnly_resolveArms ih) fun arms => .bind (Ty.failsOnly_union _ arms)
        fun _ => .ok _
  case primitive => exact fun p => .ok _
  case multiType =>
    intro kinds
    rw [resolve, outcome_resolved]
    exact Ty.failsOnly_union _ _
  case anyOf =>
    intro alternatives ih
    simp only [resolve, outcome_resolved, TracedBy.outcome_bind, TracedBy.outcome_quiet]
    exact .bind (failsOnly_resolveArms ih) fun arms => Ty.failsOnly_union _ arms
  case ref => exact fun target => .ok _

/-! ## Merging -/

lemma failsOnly_alternatives (s : Schema) : FailsOnly [.unsupported] s.alternatives := by
  cases s with
  | ref target => exact .error rfl
  | _ => exact .ok _

lemma failsOnly_intersect (a b : Schema) : FailsOnly [.unsupported] (intersect a b) :=
  a.failsOnly_alternatives.bind fun _ => b.failsOnly_alternatives.bind fun _ => .ok _

lemma failsOnly_intersection (a b : Schema) :
    FailsOnly [.unsupported, .empty] (intersection a b) := by
  refine ((failsOnly_intersect a b).mono (by decide)).bind fun shapes => ?_
  split
  · exact .error rfl
  · exact .ok _
  · exact .ok _

end Schema

namespace ObjectSchema

lemma failsOnly_mergeProperty (properties : List (String × Schema)) (name : String) (s : Schema) :
    FailsOnly [.unsupported, .empty] (mergeProperty properties name s) := by
  unfold mergeProperty
  split
  · exact .ok _
  · exact .bind ((Schema.failsOnly_intersection _ s).within _) fun _ => .ok _

lemma failsOnly_mergeProperties (properties entries : List (String × Schema)) :
    FailsOnly [.unsupported, .empty] (mergeProperties properties entries) := by
  induction entries generalizing properties with
  | nil => exact .ok properties
  | cons entry rest ih => exact (failsOnly_mergeProperty properties entry.1 entry.2).bind ih

lemma failsOnly_merge (schemas : List ObjectSchema) :
    FailsOnly [.unsupported, .empty] (merge schemas) := by
  have hstep : ∀ merged schema, FailsOnly [.unsupported, .empty] (mergeInto merged schema) :=
    fun merged schema => .ite (.error rfl)
      ((failsOnly_mergeProperties merged.properties schema.properties).bind fun _ => .ok _)
  have hfold : ∀ start : ObjectSchema,
      FailsOnly [.unsupported, .empty] (schemas.foldlM mergeInto start) := by
    induction schemas with
    | nil => exact fun start => .ok start
    | cons schema rest ih => exact fun start => (hstep start schema).bind ih
  exact .ite (.error rfl) (hfold _)

/-! ## Building -/

lemma failsOnly_fields (record : String) (o : ObjectSchema) :
    FailsOnly [.unsupported, .empty] (o.fields record).outcome := by
  rw [fields, TracedBy.outcome_bind, outcome_warnUndeclared]
  refine .items (f := fun entries => (fieldsOf record o entries).outcome)
    (g := fun entry => entry.2.resolve.outcome.mapError (.within (record ++ "." ++ entry.1)))
    (fun entry ty fields => ⟨entry.1, ty, o.isRequired entry.1⟩ :: fields) rfl
    (fun entry rest => ?_) fun entry _ => entry.2.failsOnly_resolve.within _
  simp only [fieldsOf, TracedBy.outcome_bind, TracedBy.outcome_mapError, TracedBy.outcome_pure]
  rfl

lemma failsOnly_recordFields (record : String) (o : ObjectSchema) :
    FailsOnly [.unsupported, .empty] (o.recordFields record).outcome := by
  unfold recordFields
  split
  · exact o.failsOnly_fields record
  · split
    · exact .error rfl
    · split
      · exact .ok []
      · rw [TracedBy.outcome_bind, TracedBy.outcome_quiet]
        exact ((failsOnly_merge _).within record).bind fun merged => merged.failsOnly_fields record

end ObjectSchema

/-- An identifier that gives no name to a declaration. -/
def Anonymous (id : Option String) : Prop := ∀ text, id = some text → localName text = ""

/-- A schema that should be declared and has no name. -/
inductive Schema.Nameless : Schema → Prop
  | object {o : ObjectSchema} (id : Anonymous o.id) : Schema.Nameless (.object o)
  | enum {p : PrimitiveSchema} (listed : p.isEnumerable = true) (id : Anonymous p.id) :
    Schema.Nameless (.primitive p)

lemma failsOnly_declaredName (what : Declared) (id : Option String) :
    FailsOnly [.unnamed] (declaredName what id) := by
  unfold declaredName
  split
  · exact .error rfl
  · exact .ite (.error rfl) (.ok _)

lemma exists_error_declaredName_iff {what : Declared} {id : Option String} :
    (∃ fault, declaredName what id = .error fault) ↔ Anonymous id := by
  cases id with
  | none => exact iff_of_true ⟨_, rfl⟩ nofun
  | some text =>
    simp only [declaredName, Anonymous, Option.some.injEq, forall_eq']
    split
    · rename_i hname
      exact iff_of_true ⟨_, rfl⟩ hname
    · rename_i hname
      exact iff_of_false nofun hname

/-- A name is missing if the first step, which asks for it, fails. -/
lemma exists_unnamed_bind_iff {α β : Type} {x : Except Fault α} {f : α → Except Fault β}
    (hx : FailsOnly [.unnamed] x) (hf : ∀ a, FailsOnly [.unsupported, .empty] (f a)) :
    (∃ fault, x >>= f = .error fault ∧ fault.kind = .unnamed) ↔ ∃ fault, x = .error fault := by
  cases x with
  | error fault =>
    exact iff_of_true ⟨fault, rfl, List.mem_singleton.1 (hx fault rfl)⟩ ⟨fault, rfl⟩
  | ok a =>
    refine iff_of_false ?_ nofun
    rintro ⟨fault, hfault, hkind⟩
    have hmem := hf a fault hfault
    rw [hkind] at hmem
    exact absurd hmem (by decide)

lemma ObjectSchema.outcome_build (o : ObjectSchema) :
    (Schema.object o).build.outcome = declaredName .object o.id >>= fun name =>
      (o.recordFields name).outcome.map fun fields =>
        some (.record ⟨name, o.baseNames, fields⟩) := by
  simp only [Schema.build, buildRecord, TracedBy.outcome_bind, TracedBy.outcome_quiet,
    TracedBy.outcome_report, TracedBy.outcome_pure]
  cases declaredName .object o.id with
  | error fault => rfl
  | ok name =>
    show ((o.recordFields name).outcome >>= _) >>= _ = Except.map _ (o.recordFields name).outcome
    cases (o.recordFields name).outcome <;> rfl

lemma PrimitiveSchema.outcome_build {p : PrimitiveSchema} (h : p.isEnumerable = true) :
    (Schema.primitive p).build.outcome = declaredName .enum p.id >>= fun name =>
      .ok (some (.enum ⟨name, p.enum.getD []⟩)) := by
  rw [Schema.build, if_pos h, TracedBy.outcome_bind, buildEnum, TracedBy.outcome_bind]
  rw [isEnumerable] at h
  cases hvalues : p.enum.getD [] with
  | nil =>
    rw [hvalues] at h
    cases h
  | cons first rest => cases hname : declaredName .enum p.id <;> rfl

namespace Schema

lemma failsOnly_build (s : Schema) :
    FailsOnly [.unsupported, .empty, .unnamed] s.build.outcome := by
  cases s with
  | object o =>
    rw [o.outcome_build]
    exact ((failsOnly_declaredName _ _).mono (by decide)).bind fun name =>
      ((o.failsOnly_recordFields name).mono (by decide)).map _
  | primitive p =>
    by_cases h : p.isEnumerable = true
    · rw [PrimitiveSchema.outcome_build h]
      exact ((failsOnly_declaredName _ _).mono (by decide)).bind fun _ => .ok _
    · rw [build, if_neg h]
      exact .ok none
  | _ => exact .ok none

/-- **A name is missing exactly where the schema has none to give.** -/
theorem exists_unnamed_build_iff (s : Schema) :
    (∃ fault, s.build.outcome = .error fault ∧ fault.kind = .unnamed) ↔ s.Nameless := by
  cases s with
  | object o =>
    rw [o.outcome_build, exists_unnamed_bind_iff (failsOnly_declaredName _ _)
      fun name => (o.failsOnly_recordFields name).map _, exists_error_declaredName_iff]
    exact ⟨.object, fun h => by cases h with | object id => exact id⟩
  | primitive p =>
    by_cases h : p.isEnumerable = true
    · rw [PrimitiveSchema.outcome_build h,
        exists_unnamed_bind_iff (failsOnly_declaredName _ _) fun _ => .ok _,
        exists_error_declaredName_iff]
      exact ⟨.enum h, fun h => by cases h with | enum _ id => exact id⟩
    · rw [build, if_neg h]
      constructor
      · rintro ⟨_, ⟨⟩, _⟩
      · rintro ⟨⟩
        contradiction
  | _ =>
    constructor
    · rintro ⟨_, ⟨⟩, _⟩
    · rintro ⟨⟩

end Schema

namespace Module

/-- Schemas that cannot all be built fail as one of them does. -/
lemma exists_mem_of_buildAll_error {schemas : List Schema} {fault : Fault}
    (h : (buildAll schemas).outcome = .error fault) :
    ∃ s ∈ schemas, s.build.outcome = .error fault := by
  induction schemas with
  | nil => cases h
  | cons s rest ih =>
    rw [outcome_buildAll_cons, bind_eq_error] at h
    rcases h with hs | ⟨_, -, h⟩
    · exact ⟨s, List.mem_cons_self, hs⟩
    · rcases bind_eq_error.1 h with hrest | ⟨_, -, h⟩
      · obtain ⟨bad, hmem, hbad⟩ := ih hrest
        exact ⟨bad, List.mem_cons_of_mem s hmem, hbad⟩
      · cases h

lemma exists_mem_of_assemble_error {schemas : List Schema} {fault : Fault}
    (h : (assemble schemas).outcome = .error fault) :
    ∃ s ∈ schemas, s.build.outcome = .error fault := by
  rw [assemble, TracedBy.outcome_bind, bind_eq_error] at h
  rcases h with h | ⟨_, -, h⟩
  · exact exists_mem_of_buildAll_error h
  · cases h

end Module

/-! ## Writing -/

namespace Python

lemma failsOnly_checkedName (role : NameRole) (name : String) :
    FailsOnly [.unspellable] (checkedName role name) :=
  .ite (.ok name) (.error rfl)

lemma failsOnly_expression (style : NameStyle) (t : Ty) :
    FailsOnly [.unspellable] (expression style t) := by
  induction t using Ty.induction with
  | named name => exact (failsOnly_checkedName .reference name).bind fun _ => .ok _
  | listOf element ih => exact ih.bind fun _ => .ok _
  | unionOf members ih =>
    have hmembers : FailsOnly [.unspellable] (expressions style members) :=
      .items (f := expressions style) (fun _ first rest => first :: rest) rfl (fun _ _ => rfl) ih
    exact hmembers.bind fun _ => .ok _
  | _ => exact .ok _

lemma failsOnly_fieldType (style : NameStyle) (field : Field) :
    FailsOnly [.unspellable] (fieldType style field) :=
  (failsOnly_expression style field.ty).bind fun _ => .ok _

lemma failsOnly_recordSource (r : Record) : FailsOnly [.unspellable] (recordSource r) := by
  have hname : FailsOnly [.unspellable] (checkedName .declaration r.name) :=
    failsOnly_checkedName _ _
  have hbases : FailsOnly [.unspellable] (checkedNames .base r.bases) :=
    .items (f := checkedNames .base) (fun _ first rest => first :: rest) rfl (fun _ _ => rfl)
      fun base _ => failsOnly_checkedName .base base
  have hclass : FailsOnly [.unspellable] (classFields r.fields) :=
    .items (f := classFields)
      (fun field ty rest => (indent ++ field.name ++ ": " ++ ty ++ "\n") :: rest) rfl
      (fun _ _ => rfl) fun field _ => failsOnly_fieldType .bare field
  have hcall : FailsOnly [.unspellable] (dictFields r.fields) :=
    .items (f := dictFields)
      (fun field ty rest => (indent ++ quote field.name ++ ": " ++ ty ++ ",\n") :: rest) rfl
      (fun _ _ => rfl) fun field _ => failsOnly_fieldType .quoted field
  exact (hname.map _).bind fun _ => (hbases.map _).bind fun _ =>
    .ite (hclass.bind fun _ => .ok _)
      (.ite (.error rfl) (hcall.bind fun _ => .ok _))

lemma failsOnly_memberNames (enumeration : String) (seen : List String) (values : List Literal) :
    FailsOnly [.unspellable] (memberNames enumeration seen values) := by
  induction values generalizing seen with
  | nil => exact .ok []
  | cons value rest ih =>
    rw [memberNames]
    split
    · exact .error rfl
    · exact .ite (.error rfl) ((ih _).map _)

lemma failsOnly_enumSource (style : EnumStyle) (e : Enumeration) :
    FailsOnly [.unspellable] (enumSource style e) := by
  have hname : FailsOnly [.unspellable] (checkedName .declaration e.name) :=
    failsOnly_checkedName _ _
  refine (hname.map _).bind fun _ => ?_
  cases style with
  | literal => exact .ok _
  | enumClass => exact (failsOnly_memberNames e.name [] e.values).bind fun _ => .ok _

lemma failsOnly_declarationSource (style : EnumStyle) (d : Declaration) :
    FailsOnly [.unspellable] (declarationSource style d) := by
  cases d with
  | record r => exact failsOnly_recordSource r
  | enum e => exact failsOnly_enumSource style e

lemma Emitter.failsOnly_emit (emitter : Emitter) (m : Module) :
    FailsOnly [.unspellable] (emitter.emit m) := by
  have hdeclarations : FailsOnly [.unspellable] (declarationsSource emitter.style m.declarations) :=
    .items (f := declarationsSource emitter.style) (fun _ first rest => "\n\n" ++ first ++ rest)
      rfl (fun _ _ => rfl) fun d _ => failsOnly_declarationSource emitter.style d
  exact (hdeclarations.bind fun _ => .ok _).bind fun _ => .ok _

end Python

/-! ## All stages -/

/-- **Each stage fails with its own kinds of faults**, and the places that a fault collects, or that
a value is classified under, do not change the kind.  A name is missing only where an object or an
enumeration among the schemas has none. -/
theorem failsOnly_of_stage :
    (∀ place fault, (Fault.within place fault).kind = fault.kind) ∧
    (∀ value path path', (Document.schemaOf value path).mapError Fault.kind =
      (Document.schemaOf value path').mapError Fault.kind) ∧
    (∀ text, FailsOnly [.invalid, .unsupported] (Document.parse text)) ∧
    (∀ document pointer,
      FailsOnly [.invalid, .unsupported] (Document.load document pointer).outcome) ∧
    (∀ value path, FailsOnly [.invalid, .unsupported] (Document.schemaOf value path)) ∧
    (∀ a b, FailsOnly [.unsupported] (Schema.intersect a b)) ∧
    (∀ s : Schema, FailsOnly [.unsupported, .empty] s.resolve.outcome) ∧
    (∀ a b, FailsOnly [.unsupported, .empty] (Schema.intersection a b)) ∧
    (∀ schemas, FailsOnly [.unsupported, .empty] (ObjectSchema.merge schemas)) ∧
    (∀ s : Schema, FailsOnly [.unsupported, .empty, .unnamed] s.build.outcome ∧
      ((∃ fault, s.build.outcome = .error fault ∧ fault.kind = .unnamed) ↔ s.Nameless)) ∧
    (∀ schemas, FailsOnly [.unsupported, .empty, .unnamed] (Module.assemble schemas).outcome ∧
      ∀ fault, (Module.assemble schemas).outcome = .error fault → fault.kind = .unnamed →
        ∃ s ∈ schemas, s.Nameless) ∧
    ∀ (emitter : Python.Emitter) (m : Module), FailsOnly [.unspellable] (emitter.emit m) := by
  refine ⟨Fault.kind_within, Document.kind_schemaOf, Document.failsOnly_parse,
    Document.failsOnly_load, Document.failsOnly_schemaOf, Schema.failsOnly_intersect,
    Schema.failsOnly_resolve, Schema.failsOnly_intersection, ObjectSchema.failsOnly_merge,
    fun s => ⟨s.failsOnly_build, s.exists_unnamed_build_iff⟩, fun schemas => ⟨?_, ?_⟩,
    Python.Emitter.failsOnly_emit⟩
  · intro fault hfault
    obtain ⟨s, -, hs⟩ := Module.exists_mem_of_assemble_error hfault
    exact s.failsOnly_build fault hs
  · intro fault hfault hkind
    obtain ⟨s, hmem, hs⟩ := Module.exists_mem_of_assemble_error hfault
    exact ⟨s, hmem, s.exists_unnamed_build_iff.1 ⟨fault, hs, hkind⟩⟩

end TypedSchema
