import TypedSchema.Proofs.Declaration.Warnings
import TypedSchema.Proofs.Document.Loaded

/-!
# Nothing in a document disappears without a warning

What a document declares is loaded and then built.  On the way an entry without an identifier is
left out, a schema that declares nothing is left out, and a required name that is no property is
ignored.  Each of these is warned of, once, and nothing else is: `Document.warnings_assemble` gives
the whole list of warnings, in order, and from it the balance of entries, declarations and warnings.
-/

namespace TypedSchema
namespace Document

variable {document : Json} {pointer : Option String}

/-! ## Loading -/

/-- Which entries have an identifier can be seen from the nodes. -/
lemma map_isSome_id {entries : List (String × Json)} {nodes : List (String × Node)}
    (hv : ∀ entry ∈ entries, entry.2.Valid) (h : Node.readProperties entries = .ok nodes) :
    nodes.map (fun named => (named.1, named.2.id.isSome)) =
      entries.map fun entry => (entry.1, entry.2.isNamed) := by
  have hread := Node.readProperties_eq_ok.1 h
  clear h
  induction hread with
  | nil => rfl
  | cons hentry _ ih =>
    obtain ⟨hfirst, hrest⟩ := List.forall_mem_cons.1 hv
    rw [List.map_cons, List.map_cons, ih hrest, hentry.1, Node.isSome_id hfirst hentry.2]

/-- A document that can be loaded gives the schemas of its entries with an identifier, and a warning
for each of the others. -/
lemma HasEntries.load_eq_ok {entries : List (String × Json)} (hv : document.Valid)
    (hentries : HasEntries document pointer entries) {schemas : List Schema}
    (h : (load document pointer).outcome = .ok schemas) :
    schemas.length = (entries.filter fun entry => entry.2.isNamed).length ∧
      (load document pointer).warnings =
        (entries.filter fun entry => !entry.2.isNamed).map fun entry =>
          .entryWithoutId entry.1 := by
  rw [hentries.outcome_load, bind_eq_ok] at h
  obtain ⟨nodes, hnodes, hloaded⟩ := h
  have hnodes := mapError_eq_ok.1 hnodes
  have hnamed := map_isSome_id (hentries.valid hv) hnodes
  obtain ⟨hclassified, hwarnings⟩ := loadEntries_eq_ok hloaded
  constructor
  · have hlength := congrArg (fun flags => (flags.filter Prod.snd).length) hnamed
    simp only [List.filter_map, List.length_map] at hlength
    exact hclassified.length_eq.symm.trans hlength
  · obtain ⟨members, hroot, hlookup⟩ := hentries
    have hread : Document.entries (.object members) = .ok nodes := by
      rw [Document.entries, Node.readRoot, hlookup]
      exact mapError_eq_ok.2 (mapError_eq_ok.2 hnodes)
    have hkeys := congrArg (fun flags => (flags.filter fun flag => !flag.2).map fun flag =>
      Event.entryWithoutId flag.1) hnamed
    simp only [List.filter_map, List.map_map] at hkeys
    rw [load, TracedBy.warnings_bind (x := .quiet (root document pointer)) hroot,
      TracedBy.warnings_bind (x := .quiet (Document.entries (.object members))) hread,
      TracedBy.warnings_bind hloaded, hwarnings]
    exact (List.append_nil _).trans hkeys

/-! ## The balance -/

/-- How many warnings have this text. -/
def countText (text : String) (warnings : List Event) : Nat :=
  warnings.countP fun event => event.message == text

lemma countText_nil (text : String) : countText text [] = 0 := rfl

lemma countText_append (text : String) (xs ys : List Event) :
    countText text (xs ++ ys) = countText text xs + countText text ys :=
  List.countP_append

/-- Warnings of one kind all have its text. -/
lemma countText_map {α : Type} {f : α → Event} {message : String}
    (h : ∀ a, (f a).message = message) (text : String) (as : List α) :
    countText text (as.map f) = if message = text then as.length else 0 := by
  have hpred : ((fun e : Event => e.message == text) ∘ f) = fun _ => message == text := by
    funext a
    rw [Function.comp_apply, h]
  rw [countText, List.countP_map, hpred]
  split <;> simp [*]

/-- Every schema is a declaration or one warning that it declares nothing; no schema is warned of as
an entry without an identifier. -/
lemma length_of_accounted {schemas : List Schema} {built : List (Option Declaration × List Event)}
    (h : List.Forall₂ (fun s b => s.Accounted b.1 b.2) schemas built) :
    countText "top-level schema has no id; skipping" (built.flatMap Prod.snd) = 0 ∧
      schemas.length = (built.flatMap fun b => b.1.toList).length +
        countText "top-level schema declares no type; skipping" (built.flatMap Prod.snd) := by
  induction h with
  | nil => exact ⟨rfl, rfl⟩
  | @cons s b schemas built hfirst _ ih =>
    obtain ⟨hunnamed, hdeclared⟩ := ih
    obtain ⟨declaration, warnings⟩ := b
    simp only [List.flatMap_cons, countText_append, List.length_append, List.length_cons, hunnamed,
      hdeclared]
    cases hfirst with
    | @record o r _ =>
      have hother := countText_map (f := .requiredWithoutProperty r.name) (fun _ => rfl)
      rw [hother, hother, if_neg (by decide), if_neg (by decide), Option.toList_some,
        List.length_singleton]
      omega
    | enum =>
      rw [Option.toList_some, List.length_singleton]
      exact ⟨rfl, by rw [countText_nil]; omega⟩
    | nothing =>
      rw [Option.toList_none, List.length_nil]
      exact ⟨rfl, by rw [show countText _ [.declaresNothing s.shape s.id?] = 1 from rfl]; omega⟩

/-- **Nothing disappears without a warning.**  The warnings of loading and assembling a document
are, in order, one for each entry without an identifier, and then for each schema either those of
its record, which name the required names that are none of its fields, or one if it declares
nothing.  So the entries are as many as the declarations and the entries and schemas that are left
out. -/
theorem warnings_assemble {entries : List (String × Json)} {m : Module} (hv : document.Valid)
    (hentries : HasEntries document pointer entries)
    (h : (load document pointer >>= Module.assemble).outcome = .ok m) :
    let warnings := (load document pointer >>= Module.assemble).warnings
    entries.length = m.declarations.length
        + countText "top-level schema has no id; skipping" warnings
        + countText "top-level schema declares no type; skipping" warnings ∧
      ∃ (schemas : List Schema) (built : List (Option Declaration × List Event)),
        (load document pointer).outcome = .ok schemas ∧
        List.Forall₂ (fun s b => s.Accounted b.1 b.2) schemas built ∧
        m.declarations.Perm (built.flatMap fun b => b.1.toList) ∧
        (∀ o, .object o ∈ schemas → o.requiredNames.Nodup) ∧
        warnings = ((entries.filter fun entry => !entry.2.isNamed).map fun entry =>
          .entryWithoutId entry.1) ++ built.flatMap Prod.snd := by
  intro warnings
  rw [TracedBy.outcome_bind, bind_eq_ok] at h
  obtain ⟨schemas, hload, hassemble⟩ := h
  obtain ⟨hlength, hunnamed⟩ := hentries.load_eq_ok hv hload
  obtain ⟨built, hbuilt, hperm, hwarned⟩ := Module.exists_accounted hassemble
  have hwarnings : warnings = ((entries.filter fun entry => !entry.2.isNamed).map fun entry =>
      .entryWithoutId entry.1) ++ built.flatMap Prod.snd := by
    rw [← hunnamed, ← hwarned]
    exact TracedBy.warnings_bind hload
  refine ⟨?_, schemas, built, hload, hbuilt, hperm, fun o ho => ?_, hwarnings⟩
  · have hunnamed := countText_map (f := fun entry : String × Json => .entryWithoutId entry.1)
      (fun _ => rfl)
    obtain ⟨hnone, hdeclared⟩ := length_of_accounted hbuilt
    have hentries := List.length_eq_length_filter_add (l := entries) fun entry => entry.2.isNamed
    rw [hwarnings, countText_append, countText_append, hunnamed, hunnamed, hnone, hperm.length_eq]
    rw [if_pos rfl, if_neg (by decide)]
    omega
  · cases wellFormed_of_load hv hload _ ho with
    | object h => exact ObjectSchema.nodup_requiredNames h

/-- A record that requires a name that is none of its fields. -/
def ownerEntry : String × Json :=
  ("Owner", .object [("$id", .string "#Owner"), ("type", .string "object"),
    ("required", .array [.string "age"])])

/-- A list with a name, which declares nothing. -/
def sizesEntry : String × Json :=
  ("Sizes", .object [("$id", .string "#Sizes"), ("type", .string "array"),
    ("items", .object [("type", .string "integer")])])

lemma valid_ownerEntry : ownerEntry.2.Valid := by
  have hrequired : (Json.array [.string "age"]).Valid :=
    .array (List.forall_mem_singleton.2 (.string _))
  exact .object (by decide) (List.forall_mem_cons.2 ⟨.string _, List.forall_mem_cons.2
    ⟨.string _, List.forall_mem_singleton.2 hrequired⟩⟩)

lemma valid_sizesEntry : sizesEntry.2.Valid := by
  have hitems : (Json.object [("type", .string "integer")]).Valid :=
    .object (by decide) (List.forall_mem_singleton.2 (.string _))
  exact .object (by decide) (List.forall_mem_cons.2 ⟨.string _, List.forall_mem_cons.2
    ⟨.string _, List.forall_mem_singleton.2 hitems⟩⟩)

/-- Of three entries one is declared; each of the others has its warning. -/
theorem warnings_assemble_owner :
    let document := withProperties [sizeEntry, ownerEntry, sizesEntry]
    let made := load document none >>= Module.assemble
    document.Valid ∧ HasEntries document none [sizeEntry, ownerEntry, sizesEntry] ∧
      (∃ m, made.outcome = .ok m ∧
        3 = m.declarations.length + countText "top-level schema has no id; skipping" made.warnings
          + countText "top-level schema declares no type; skipping" made.warnings) ∧
      made.warnings = [.entryWithoutId "Size", .requiredWithoutProperty "Owner" "age",
        .declaresNothing .array none] := by
  intro document made
  have hv : document.Valid := valid_withProperties (by decide) (List.forall_mem_cons.2
    ⟨valid_sizeEntry, List.forall_mem_cons.2
      ⟨valid_ownerEntry, List.forall_mem_singleton.2 valid_sizesEntry⟩⟩)
  have hentries := hasEntries_withProperties [sizeEntry, ownerEntry, sizesEntry]
  obtain ⟨m, hm⟩ : ∃ m, made.outcome = .ok m := ⟨_, rfl⟩
  exact ⟨hv, hentries, ⟨m, hm, (warnings_assemble hv hentries hm).1⟩, rfl⟩

end Document
end TypedSchema
