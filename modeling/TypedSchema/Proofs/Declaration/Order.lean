import TypedSchema.Proofs.Declaration.Module

/-!
# The order of declarations

Assembling a module sorts its schemas by what they declare and keeps their order otherwise.  A
module is assembled from the objects among its schemas and from the primitives that list values,
each in their order, and the rest has no part in it (`Module.assemble_eq_ok_iff`); so two lists of
schemas with the same objects and the same such primitives, each in the same order, are assembled to
the same module.

A schema that cannot be built ends the assembly, and the first of them is the one that is reported
(`Module.assemble_eq_error_iff`).
-/

namespace TypedSchema
namespace Schema

/-- Whether a schema declares a type: an object a record, listed values an enumeration. -/
def declares : Schema → Bool
  | .object _ => true
  | .primitive p => p.isEnumerable
  | _ => false

/-- The objects among some schemas. -/
def objects (schemas : List Schema) : List ObjectSchema :=
  schemas.filterMap fun
    | .object o => some o
    | _ => none

/-- The primitives that list values among some schemas. -/
def enumerables (schemas : List Schema) : List PrimitiveSchema :=
  schemas.filterMap fun
    | .primitive p => if p.isEnumerable then some p else none
    | _ => none

lemma objects_append (xs ys : List Schema) : objects (xs ++ ys) = objects xs ++ objects ys :=
  List.filterMap_append

lemma enumerables_append (xs ys : List Schema) :
    enumerables (xs ++ ys) = enumerables xs ++ enumerables ys :=
  List.filterMap_append

/-- A schema is one of the objects, one of the primitives that list values, or none of either. -/
lemma sorted_cons (s : Schema) (rest : List Schema) :
    (∃ o, s = .object o ∧ objects (s :: rest) = o :: objects rest ∧
      enumerables (s :: rest) = enumerables rest) ∨
    (∃ p, s = .primitive p ∧ p.isEnumerable = true ∧ objects (s :: rest) = objects rest ∧
      enumerables (s :: rest) = p :: enumerables rest) ∨
    s.declares = false ∧ objects (s :: rest) = objects rest ∧
      enumerables (s :: rest) = enumerables rest := by
  cases s with
  | object o => exact .inl ⟨o, rfl, rfl, rfl⟩
  | primitive p =>
    by_cases hlisted : p.isEnumerable = true
    · exact .inr (.inl ⟨p, rfl, hlisted, rfl, by simp [enumerables, hlisted]⟩)
    · rw [Bool.not_eq_true] at hlisted
      exact .inr (.inr ⟨hlisted, rfl, by simp [enumerables, hlisted]⟩)
  | _ => exact .inr (.inr ⟨rfl, rfl, rfl⟩)

/-! ## Single schemas -/

lemma build_object_eq_ok {o : ObjectSchema} {d : Option Declaration} :
    (Schema.object o).build.outcome = .ok d ↔
      ∃ r, o.buildRecord.outcome = .ok r ∧ d = some (.record r) := by
  simp only [build, TracedBy.outcome_bind, TracedBy.outcome_pure, bind_eq_ok, Except.ok.injEq,
    eq_comm (b := d)]

lemma build_enumerable_eq_ok {p : PrimitiveSchema} (hlisted : p.isEnumerable = true)
    {d : Option Declaration} :
    (Schema.primitive p).build.outcome = .ok d ↔
      ∃ e, p.buildEnum.outcome = .ok e ∧ d = some (.enum e) := by
  simp only [build, hlisted, if_true, TracedBy.outcome_bind, TracedBy.outcome_pure, bind_eq_ok,
    Except.ok.injEq, eq_comm (b := d)]

/-- What declares no type is built to nothing, and cannot fail. -/
lemma outcome_build_of_not_declares {s : Schema} (h : s.declares = false) :
    s.build.outcome = .ok none := by
  cases s with
  | object o => cases h
  | primitive p =>
    have hlisted : p.isEnumerable = false := h
    rw [build, hlisted]
    rfl
  | _ => rfl

end Schema

namespace Module

/-! ## Modules that are assembled -/

/-- The records and enumerations that are built are those of the objects and of the primitives that
list values. -/
lemma buildAll_sorted {schemas : List Schema} {rs : List Record} {es : List Enumeration} :
    (∃ declarations, (buildAll schemas).outcome = .ok declarations ∧
      records declarations = rs ∧ enums declarations = es) ↔
    List.Forall₂ (fun o r => o.buildRecord.outcome = .ok r) (Schema.objects schemas) rs ∧
      List.Forall₂ (fun p e => p.buildEnum.outcome = .ok e) (Schema.enumerables schemas) es := by
  induction schemas generalizing rs es with
  | nil =>
    constructor
    · rintro ⟨_, ⟨⟩, rfl, rfl⟩
      exact ⟨.nil, .nil⟩
    · rintro ⟨⟨⟩, ⟨⟩⟩
      exact ⟨[], rfl, rfl, rfl⟩
  | cons s rest ih =>
    simp only [outcome_buildAll_cons, bind_eq_ok, pure_eq_ok]
    rcases Schema.sorted_cons s rest with
      ⟨o, rfl, hobjects, henums⟩ | ⟨p, rfl, hlisted, hobjects, henums⟩ | ⟨hs, hobjects, henums⟩
    all_goals rw [hobjects, henums]
    · simp only [Schema.build_object_eq_ok, List.forall₂_cons_left_iff]
      constructor
      · rintro ⟨_, ⟨_, ⟨r, hr, rfl⟩, ds, hds, rfl⟩, rfl, rfl⟩
        obtain ⟨hrecords, henums⟩ := ih.1 ⟨ds, hds, rfl, rfl⟩
        exact ⟨⟨r, _, hr, hrecords, rfl⟩, henums⟩
      · rintro ⟨⟨r, rs, hr, hrecords, rfl⟩, henums⟩
        obtain ⟨ds, hds, rfl, rfl⟩ := ih.2 ⟨hrecords, henums⟩
        exact ⟨_, ⟨_, ⟨r, hr, rfl⟩, ds, hds, rfl⟩, rfl, rfl⟩
    · simp only [Schema.build_enumerable_eq_ok hlisted, List.forall₂_cons_left_iff]
      constructor
      · rintro ⟨_, ⟨_, ⟨e, he, rfl⟩, ds, hds, rfl⟩, rfl, rfl⟩
        obtain ⟨hrecords, henums⟩ := ih.1 ⟨ds, hds, rfl, rfl⟩
        exact ⟨hrecords, e, _, he, henums, rfl⟩
      · rintro ⟨hrecords, e, es, he, henums, rfl⟩
        obtain ⟨ds, hds, rfl, rfl⟩ := ih.2 ⟨hrecords, henums⟩
        exact ⟨_, ⟨_, ⟨e, he, rfl⟩, ds, hds, rfl⟩, rfl, rfl⟩
    · simp only [Schema.outcome_build_of_not_declares hs, Except.ok.injEq, ← ih]
      constructor
      · rintro ⟨_, ⟨_, rfl, ds, hds, rfl⟩, rfl, rfl⟩
        exact ⟨ds, hds, rfl, rfl⟩
      · rintro ⟨ds, hds, rfl, rfl⟩
        exact ⟨ds, ⟨none, rfl, ds, hds, rfl⟩, rfl, rfl⟩

/-- **What a module is assembled to**: the records of the objects among its schemas, in their order,
and then the enumerations of the primitives that list values, in theirs. -/
theorem assemble_eq_ok_iff {schemas : List Schema} {m : Module} :
    (assemble schemas).outcome = .ok m ↔
      ∃ rs es,
        List.Forall₂ (fun o r => o.buildRecord.outcome = .ok r) (Schema.objects schemas) rs ∧
        List.Forall₂ (fun p e => p.buildEnum.outcome = .ok e) (Schema.enumerables schemas) es ∧
        m = ⟨ImportRole.all, rs.map .record ++ es.map .enum⟩ := by
  simp only [assemble, TracedBy.outcome_bind, TracedBy.outcome_report, TracedBy.outcome_pure,
    bind_eq_ok, true_and, exists_const, Except.ok.injEq]
  constructor
  · rintro ⟨ds, hds, rfl⟩
    obtain ⟨hrecords, henums⟩ := buildAll_sorted.1 ⟨ds, hds, rfl, rfl⟩
    exact ⟨_, _, hrecords, henums, rfl⟩
  · rintro ⟨rs, es, hrecords, henums, rfl⟩
    obtain ⟨ds, hds, rfl, rfl⟩ := buildAll_sorted.2 ⟨hrecords, henums⟩
    exact ⟨ds, hds, rfl⟩

/-- Only the objects and the primitives that list values have a part in a module, and only their
order among themselves. -/
lemma assemble_congr {xs ys : List Schema} (hobjects : Schema.objects xs = Schema.objects ys)
    (henums : Schema.enumerables xs = Schema.enumerables ys) (m : Module) :
    (assemble xs).outcome = .ok m ↔ (assemble ys).outcome = .ok m := by
  rw [assemble_eq_ok_iff, assemble_eq_ok_iff, hobjects, henums]

lemma records_sorted (rs : List Record) (es : List Enumeration) :
    records (rs.map .record ++ es.map .enum) = rs := by
  simp [records, List.filterMap_map]

lemma enums_sorted (rs : List Record) (es : List Enumeration) :
    enums (rs.map .record ++ es.map .enum) = es := by
  simp [enums, List.filterMap_map]

/-! ## Modules that are not -/

lemma exists_assemble_iff_buildAll {schemas : List Schema} :
    (∃ m, (assemble schemas).outcome = .ok m) ↔ ∃ ds, (buildAll schemas).outcome = .ok ds := by
  simp [assemble]

/-- A module is assembled if each of its schemas can be built. -/
lemma exists_assemble_iff {schemas : List Schema} :
    (∃ m, (assemble schemas).outcome = .ok m) ↔ ∀ s ∈ schemas, ∃ d, s.build.outcome = .ok d :=
  exists_assemble_iff_buildAll.trans
    (exists_ok_iff_forall (fun schemas => (buildAll schemas).outcome) (fun s => s.build.outcome)
      (fun _ declaration declarations => declaration.toList ++ declarations) rfl
      outcome_buildAll_cons)

lemma assemble_eq_error_iff_buildAll {schemas : List Schema} {fault : Fault} :
    (assemble schemas).outcome = .error fault ↔ (buildAll schemas).outcome = .error fault := by
  rw [assemble, TracedBy.outcome_bind, bind_eq_error]
  refine or_iff_left ?_
  rintro ⟨_, _, h⟩
  cases h

/-- **Why a module is not assembled**: for what is wrong with the first schema that cannot be
built. -/
theorem assemble_eq_error_iff {schemas : List Schema} {fault : Fault} :
    (assemble schemas).outcome = .error fault ↔
      ∃ before s after, schemas = before ++ s :: after ∧
        (∀ t ∈ before, ∃ d, t.build.outcome = .ok d) ∧ s.build.outcome = .error fault := by
  rw [assemble_eq_error_iff_buildAll]
  induction schemas with
  | nil =>
    refine iff_of_false nofun ?_
    rintro ⟨before, s, after, h, -⟩
    exact absurd h.symm (by simp)
  | cons first rest ih =>
    rw [outcome_buildAll_cons, bind_eq_error]
    constructor
    · rintro (hfirst | ⟨d, hd, hrest⟩)
      · exact ⟨[], first, rest, rfl, List.forall_mem_nil _, hfirst⟩
      · obtain ⟨before, s, after, rfl, hbefore, hs⟩ :=
          ih.1 ((bind_eq_error.1 hrest).resolve_right fun ⟨_, _, h⟩ => nomatch h)
        exact ⟨first :: before, s, after, rfl, List.forall_mem_cons.2 ⟨⟨d, hd⟩, hbefore⟩, hs⟩
    · rintro ⟨before, s, after, h, hbefore, hs⟩
      cases before with
      | nil =>
        cases h
        exact .inl hs
      | cons t before =>
        cases h
        obtain ⟨⟨d, hd⟩, hrest⟩ := List.forall_mem_cons.1 hbefore
        refine .inr ⟨d, hd, bind_eq_error.2 (.inl ?_)⟩
        exact ih.2 ⟨before, s, after, rfl, hrest, hs⟩

/-- What declares no type can be left out. -/
lemma outcome_assemble_filter (schemas : List Schema) :
    (assemble (schemas.filter Schema.declares)).outcome = (assemble schemas).outcome := by
  have hbuild : (buildAll (schemas.filter Schema.declares)).outcome =
      (buildAll schemas).outcome := by
    induction schemas with
    | nil => rfl
    | cons s rest ih =>
      cases hs : s.declares with
      | true =>
        rw [List.filter_cons, if_pos hs, outcome_buildAll_cons, outcome_buildAll_cons, ih]
      | false =>
        rw [List.filter_cons, if_neg (by simp [hs]), outcome_buildAll_cons, ih,
          Schema.outcome_build_of_not_declares hs]
        exact (bind_pure _).symm
  rw [assemble, assemble, TracedBy.outcome_bind, TracedBy.outcome_bind, hbuild]

/-! ## Both -/

/-- **Assembling is a stable partition.**  A module is assembled if each schema can be built, or
fails as the first that cannot.  It lists one record for each object, in order, and then one
enumeration for each primitive that lists values, in order, and nothing else.  So modules are joined
part by part, an object can change places with such a primitive beside it, and schemas that declare
no type can stand anywhere. -/
theorem assemble_stable (schemas : List Schema) :
    ((∃ m, (assemble schemas).outcome = .ok m) ↔ ∀ s ∈ schemas, ∃ d, s.build.outcome = .ok d) ∧
    (∀ m, (assemble schemas).outcome = .ok m → ∃ rs es,
      List.Forall₂ (fun o r => o.buildRecord.outcome = .ok r) (Schema.objects schemas) rs ∧
      List.Forall₂ (fun p e => p.buildEnum.outcome = .ok e) (Schema.enumerables schemas) es ∧
      m = ⟨ImportRole.all, rs.map .record ++ es.map .enum⟩) ∧
    (∀ fault, (assemble schemas).outcome = .error fault ↔
      ∃ before s after, schemas = before ++ s :: after ∧
        (∀ t ∈ before, ∃ d, t.build.outcome = .ok d) ∧ s.build.outcome = .error fault) ∧
    (∀ others m n, (assemble schemas).outcome = .ok m → (assemble others).outcome = .ok n →
      ∃ both, (assemble (schemas ++ others)).outcome = .ok both ∧
        records both.declarations = records m.declarations ++ records n.declarations ∧
        enums both.declarations = enums m.declarations ++ enums n.declarations) ∧
    (∀ before after o p m, schemas = before ++ .object o :: .primitive p :: after →
      p.isEnumerable = true →
      ((assemble schemas).outcome = .ok m ↔
        (assemble (before ++ .primitive p :: .object o :: after)).outcome = .ok m)) ∧
    ∀ others : List Schema, others.filter Schema.declares = schemas.filter Schema.declares →
      (assemble others).outcome = (assemble schemas).outcome := by
  refine ⟨exists_assemble_iff, fun _ => assemble_eq_ok_iff.1, fun _ => assemble_eq_error_iff,
    ?joined, ?swapped, ?inserted⟩
  case joined =>
    intro others m n hm hn
    obtain ⟨rs, es, hrs, hes, rfl⟩ := assemble_eq_ok_iff.1 hm
    obtain ⟨rs', es', hrs', hes', rfl⟩ := assemble_eq_ok_iff.1 hn
    refine ⟨⟨ImportRole.all, (rs ++ rs').map .record ++ (es ++ es').map .enum⟩,
      assemble_eq_ok_iff.2 ⟨rs ++ rs', es ++ es', ?_, ?_, rfl⟩, ?_, ?_⟩
    · rw [Schema.objects_append]
      exact List.rel_append hrs hrs'
    · rw [Schema.enumerables_append]
      exact List.rel_append hes hes'
    · simp only [records_sorted]
    · simp only [enums_sorted]
  case swapped =>
    rintro before after o p m rfl hlisted
    refine assemble_congr ?_ ?_ m
    · rw [Schema.objects_append, Schema.objects_append]
      rfl
    · rw [Schema.enumerables_append, Schema.enumerables_append]
      rfl
  case inserted =>
    intro others h
    rw [← outcome_assemble_filter others, h, outcome_assemble_filter]

/-- An enumeration of texts. -/
def colors : PrimitiveSchema :=
  { id := some "#Color", kind := .string, enum := some [.string "red", .string "blue"] }

/-- An object with an optional property. -/
def car : ObjectSchema := { id := some "#Car", properties := [("color", .ref "#Color")] }

/-- A module of both. -/
def carModule : Module :=
  ⟨ImportRole.all, [.record ⟨"Car", [], [⟨"color", .named "Color", false⟩]⟩,
    .enum ⟨"Color", [.string "red", .string "blue"]⟩]⟩

/-- The object can be listed last, and with a reference in between. -/
theorem assemble_stable_car :
    colors.isEnumerable = true ∧
      (assemble [.object car, .primitive colors]).outcome = .ok carModule ∧
      (assemble [.primitive colors, .object car]).outcome = .ok carModule ∧
      (assemble [.primitive colors, .ref "#Car", .object car]).outcome = .ok carModule := by
  have hlisted : colors.isEnumerable = true := rfl
  have hcar : (assemble [.object car, .primitive colors]).outcome = .ok carModule := rfl
  obtain ⟨-, -, -, -, hswap, -⟩ := assemble_stable [.object car, .primitive colors]
  obtain ⟨-, -, -, -, -, hinsert⟩ := assemble_stable [.primitive colors, .object car]
  have hswapped := (hswap [] [] car colors carModule rfl hlisted).1 hcar
  exact ⟨hlisted, hcar, hswapped, (hinsert [.primitive colors, .ref "#Car", .object car] rfl).trans
    hswapped⟩

end Module
end TypedSchema
