import TypedSchema.Proofs.Declaration.Warnings
import TypedSchema.Proofs.Document.Root
import TypedSchema.Proofs.Node.Classification

/-!
# What is loaded from a document

An entry with an identifier is loaded to the schema that its node denotes, and one without is left
out with a warning (`Document.loadEntries_eq_ok`).  So every schema that is loaded is well formed
(`Document.wellFormed_of_load`).  In particular it lists no number that is not finite, and the
module that is assembled from a document is in normal form without a condition on its schemas
(`Document.normal_of_load`).
-/

namespace TypedSchema
namespace Document

variable {document : Json} {pointer : Option String} {schemas : List Schema}

/-! ## Nodes -/

/-- An entry that can be loaded gives the schema of its node or, without an identifier, a
warning. -/
lemma loadEntry_eq_ok {key : String} {node : Node} {schema : Option Schema}
    (h : (loadEntry pointer key node).outcome = .ok schema) :
    (node.id.isSome = false ∧ schema = none ∧
        (loadEntry pointer key node).warnings = [.entryWithoutId key]) ∨
      ∃ s, node.id.isSome = true ∧ schema = some s ∧ node.classify = .ok s ∧
        (loadEntry pointer key node).warnings = [] := by
  unfold loadEntry at h ⊢
  dsimp only at h ⊢
  split at h
  case isTrue => cases h
  case isFalse hno =>
    rw [if_neg hno]
    split at h
    case h_1 _ _ hid =>
      rw [TracedBy.outcome_quiet, mapError_eq_ok, map_eq_ok] at h
      obtain ⟨s, hs, rfl⟩ := h
      exact .inr ⟨s, by rw [hid, Option.isSome_some], rfl, hs, rfl⟩
    case h_2 _ hid =>
      split at h
      case isTrue => cases h
      case isFalse hnone =>
        cases h
        refine .inl ⟨by rw [hid, Option.isSome_none], rfl, ?_⟩
        rw [if_neg hnone]
        rfl

/-- What is loaded from some nodes are the schemas of those with an identifier, in order.  The
others are warned of. -/
lemma loadEntries_eq_ok {nodes : List (String × Node)}
    (h : (loadEntries pointer nodes).outcome = .ok schemas) :
    List.Forall₂ (fun named s => named.2.classify = .ok s)
        (nodes.filter fun named => named.2.id.isSome) schemas ∧
      (loadEntries pointer nodes).warnings =
        (nodes.filter fun named => !named.2.id.isSome).map fun named =>
          .entryWithoutId named.1 := by
  induction nodes generalizing schemas with
  | nil =>
    cases h
    exact ⟨.nil, rfl⟩
  | cons named rest ih =>
    obtain ⟨key, node⟩ := named
    rw [outcome_loadEntries_cons, bind_eq_ok] at h
    obtain ⟨schema, hschema, h⟩ := h
    obtain ⟨others, hothers, rfl⟩ := map_eq_ok.1 h
    obtain ⟨hclassified, hwarnings⟩ := ih hothers
    have hsplit : (loadEntries pointer ((key, node) :: rest)).warnings =
        (loadEntry pointer key node).warnings ++ (loadEntries pointer rest).warnings := by
      rw [loadEntries, TracedBy.warnings_bind hschema, TracedBy.warnings_bind hothers,
        TracedBy.warnings_pure, List.append_nil]
    rw [hsplit, hwarnings, List.filter_cons, List.filter_cons]
    rcases loadEntry_eq_ok hschema with ⟨hid, rfl, hwarning⟩ | ⟨s, hid, rfl, hs, hwarning⟩
    · simp only [hid, hwarning]
      exact ⟨hclassified, rfl⟩
    · simp only [hid, hwarning]
      exact ⟨.cons hs hclassified, rfl⟩

/-! ## Documents -/

/-- Every schema that is loaded is well formed. -/
theorem wellFormed_of_load (hv : document.Valid)
    (h : (load document pointer).outcome = .ok schemas) : ∀ s ∈ schemas, s.WellFormed := by
  intro s hs
  obtain ⟨value, entries, nodes, hroot, hentries, hread, hloaded⟩ := load_eq_ok.1 h
  have hvalid : ∀ entry ∈ entries, entry.2.Valid := hentries.valid (valid_root hv hroot)
  obtain ⟨named, hmem, hclassify⟩ := exists_of_forall₂ (loadEntries_eq_ok hloaded).1 hs
  exact Node.classify_wellFormed
    (Node.readProperties_valid hvalid hread named (List.mem_of_mem_filter hmem)) s hclassify

/-- What is assembled from a document is in normal form. -/
theorem normal_of_load (hv : document.Valid) (h : (load document pointer).outcome = .ok schemas)
    {m : Module} (hm : (Module.assemble schemas).outcome = .ok m) :
    ∀ d ∈ m.declarations, d.Normal :=
  Module.assemble_normal (fun s hs => (wellFormed_of_load hv h s hs).listsFinite) hm

end Document
end TypedSchema
