import TypedSchema.Proofs.Document.Places
import TypedSchema.Proofs.Document.Root

/-!
# Reported paths

A document that is rejected for a flaw is rejected with a path: the pointer to the root, if one is
given, and behind it the texts of the steps from the root to the part that is to blame.

`Document.reported_place` says that the flaw is there, and that the path is a pointer to it exactly
if the text of every step spells its place (`Json.SpellsAll`).  Three things stand in the way: a
property whose name has a slash or an escape, an item that is not in a list, and entries in a root
that is a list.
-/

namespace TypedSchema
namespace Document

variable {document : Json} {pointer : Option String} {path : String} {cause : Flaw}

/-! ## Where the path comes from -/

lemma ofRejection_eq_flaw {base : String} {rejection : Rejection} :
    Fault.ofRejection base rejection = .invalid (.path path) (.flaw cause) ↔
      ∃ steps, rejection = .flaw steps cause ∧ path = base ++ NodeStep.pathText steps := by
  cases rejection with
  | misuse => exact iff_of_false nofun nofun
  | flaw steps cause' =>
    constructor
    · rintro ⟨⟩
      exact ⟨steps, rfl, rfl⟩
    · rintro ⟨_, ⟨⟩, rfl⟩
      rfl

/-- The flaw of a schema is one of its node. -/
lemma exists_of_schemaOf_eq_flaw {v : Json} {base : String}
    (h : schemaOf v base = .error (.invalid (.path path) (.flaw cause))) :
    ∃ node steps, Node.read v = .ok node ∧ node.classify = .error (.flaw steps cause) ∧
      path = base ++ NodeStep.pathText steps := by
  rcases bind_eq_error.1 h with h | ⟨node, hread, h⟩
  · obtain ⟨mismatch, -, hfault⟩ := mapError_eq_error.1 h
    cases hfault
  · obtain ⟨rejection, hclassify, hfault⟩ := mapError_eq_error.1 h
    obtain ⟨steps, rfl, rfl⟩ := ofRejection_eq_flaw.1 hfault
    exact ⟨node, steps, mapError_eq_ok.1 hread, hclassify, rfl⟩

/-- The flaw of an entry is one of its node. -/
lemma exists_of_loadEntry_eq_flaw {key : String} {node : Node}
    (h : (loadEntry pointer key node).outcome = .error (.invalid (.path path) (.flaw cause))) :
    ∃ steps, node.classify = .error (.flaw steps cause) ∧
      path = entryPath pointer key ++ NodeStep.pathText steps := by
  unfold loadEntry at h
  dsimp only at h
  split at h
  · cases h
  split at h
  · obtain ⟨rejection, hclassify, hfault⟩ := mapError_eq_error.1 h
    obtain ⟨steps, rfl, rfl⟩ := ofRejection_eq_flaw.1 hfault
    exact ⟨steps, map_eq_error.1 hclassify, rfl⟩
  · split at h <;> cases h

/-- The fault of some entries is that of one of them. -/
lemma exists_of_loadEntries_eq_error {nodes : List (String × Node)} {fault : Fault}
    (h : (loadEntries pointer nodes).outcome = .error fault) :
    ∃ entry ∈ nodes, (loadEntry pointer entry.1 entry.2).outcome = .error fault := by
  induction nodes with
  | nil => cases h
  | cons entry rest ih =>
    obtain ⟨key, node⟩ := entry
    rw [outcome_loadEntries_cons] at h
    rcases bind_eq_error.1 h with h | ⟨schema, -, h⟩
    · exact ⟨(key, node), List.mem_cons_self, h⟩
    · obtain ⟨entry, hentry, hfault⟩ := ih (map_eq_error.1 h)
      exact ⟨entry, List.mem_cons_of_mem _ hentry, hfault⟩

/-- The flaw of a document is one of the node of an entry. -/
lemma exists_of_load_eq_flaw
    (h : (load document pointer).outcome = .error (.invalid (.path path) (.flaw cause))) :
    ∃ v nodes key node steps, root document pointer = .ok v ∧ Node.readRoot v = .ok nodes ∧
      (key, node) ∈ nodes ∧ node.classify = .error (.flaw steps cause) ∧
      path = entryPath pointer key ++ NodeStep.pathText steps := by
  rw [outcome_load] at h
  rcases bind_eq_error.1 h with h | ⟨v, hroot, h⟩
  · unfold root at h
    split at h
    · cases h
    · split at h <;> cases h
  rcases bind_eq_error.1 h with h | ⟨nodes, hnodes, h⟩
  · obtain ⟨mismatch, -, hfault⟩ := mapError_eq_error.1 h
    cases hfault
  obtain ⟨⟨key, node⟩, hmem, hentry⟩ := exists_of_loadEntries_eq_error h
  obtain ⟨steps, hclassify, hpath⟩ := exists_of_loadEntry_eq_flaw hentry
  exact ⟨v, nodes, key, node, steps, hroot, mapError_eq_ok.1 hnodes, hmem, hclassify, hpath⟩

/-! ## Entries of a root -/

/-- An entry of a root is where the step to it leads. -/
lemma exists_at?_of_readRoot {v : Json} {nodes : List (String × Node)} (hv : v.Valid)
    (h : Node.readRoot v = .ok nodes) {key : String} {node : Node} (hmem : (key, node) ∈ nodes) :
    ∃ w, v.at? (v.stepTokens (.property key)) = some w ∧ Node.read w = .ok node := by
  obtain ⟨entries, hroot, hnodes⟩ := Node.readRoot_eq_ok.1 h
  obtain ⟨⟨_, w⟩, hw, rfl, hread⟩ := exists_of_forall₂ (Node.readProperties_eq_ok.1 hnodes) hmem
  refine ⟨w, ?_, hread⟩
  cases hroot with
  | @properties members hentries =>
    have hchild : (Json.object members).child? "properties" = some (.object entries) := hentries
    show (Json.object members).at? ["properties", _] = some w
    rw [Json.at?_cons, hchild, Option.bind_some]
    exact lookup_of_mem (Json.valid_child? hv hchild).distinct hw
  | onlyItem =>
    show (Json.array [.object entries]).at? ["0", _] = some w
    rw [Json.at?_cons]
    exact lookup_of_mem (hv.items _ List.mem_cons_self).distinct hw

/-- The value that is the root is where the tokens of the pointer lead. -/
lemma exists_tokens_of_root {v : Json} (h : root document pointer = .ok v) :
    ∃ base, Json.pointerTokens? (pointer.getD "") = some base ∧ document.at? base = some v := by
  unfold root at h
  split at h
  · cases h
    exact ⟨[], rfl, rfl⟩
  · split at h
    · rename_i text value hvalue
      cases h
      rw [Json.pointer?_eq] at hvalue
      exact Option.bind_eq_some_iff.1 hvalue
    · cases h

/-! ## Reports -/

/-- A path reports a flaw of a document.  The root is where the pointer leads, by the tokens `base`,
and the steps lead from there to the place of the flaw. -/
structure Reports (document : Json) (pointer : Option String) (path : String) (cause : Flaw)
    (root : Json) (base : List String) (steps : List NodeStep) (place : Json) : Prop where
  root_eq : Document.root document pointer = .ok root
  base_eq : Json.pointerTokens? (pointer.getD "") = some base
  path_eq : path = pointer.getD "" ++ NodeStep.pathText steps
  flaw : root.FlawAt steps place cause
  place_eq : document.at? (base ++ root.location steps) = some place

section
variable {root place : Json} {base : List String} {steps : List NodeStep}

/-- A flaw that is found from the root is reported. -/
lemma exists_reports (hroot : Document.root document pointer = .ok root)
    (hpath : path = pointer.getD "" ++ NodeStep.pathText steps)
    (hflaw : root.FlawAt steps place cause) :
    ∃ base, Reports document pointer path cause root base steps place := by
  obtain ⟨base, hbase, hat⟩ := exists_tokens_of_root hroot
  refine ⟨base, hroot, hbase, hpath, hflaw, ?_⟩
  rw [Json.at?_append, hat, Option.bind_some, hflaw.at?_location]

lemma exists_reports_of_schemaOf (hv : document.Valid)
    (h : schemaOf document "" = .error (.invalid (.path path) (.flaw cause))) :
    ∃ root base steps place, Reports document none path cause root base steps place := by
  obtain ⟨node, steps, hread, hclassify, hpath⟩ := exists_of_schemaOf_eq_flaw h
  have hflaw := Node.flawAt_of_classify (Node.read_valid hv hread) hclassify
  obtain ⟨place, hplace⟩ := hflaw.exists_json hv hread
  have hroot : root document none = .ok document := rfl
  obtain ⟨base, hreports⟩ := exists_reports hroot hpath hplace
  exact ⟨document, base, steps, place, hreports⟩

lemma exists_reports_of_load (hv : document.Valid)
    (h : (load document pointer).outcome = .error (.invalid (.path path) (.flaw cause))) :
    ∃ root base steps place, Reports document pointer path cause root base steps place := by
  obtain ⟨v, nodes, key, node, steps, hroot, hnodes, hmem, hclassify, hpath⟩ :=
    exists_of_load_eq_flaw h
  have hvalid : v.Valid := valid_root hv hroot
  obtain ⟨w, hw, hread⟩ := exists_at?_of_readRoot hvalid hnodes hmem
  have hentry : w.Valid := Json.valid_at? hvalid hw
  obtain ⟨place, hplace⟩ :=
    (Node.flawAt_of_classify (Node.read_valid hentry hread) hclassify).exists_json hentry hread
  -- the entry is one more step, from the root
  have hsteps : path = pointer.getD "" ++ NodeStep.pathText (.property key :: steps) := by
    rw [hpath, entryPath, NodeStep.pathText, NodeStep.pathText, List.map_cons, String.join_cons,
      String.append_assoc, String.append_assoc]
    rfl
  obtain ⟨base, hreports⟩ := exists_reports hroot hsteps (.inside rfl hw hplace)
  exact ⟨v, base, .property key :: steps, place, hreports⟩

/-- A path that reports a flaw is the place of the flaw exactly if its steps spell it. -/
lemma Reports.pointerTokens?_iff
    (h : Reports document pointer path cause root base steps place) :
    Json.pointerTokens? path = some (base ++ root.location steps) ↔ root.SpellsAll steps := by
  rw [h.path_eq,
    Json.pointerTokens?_append h.base_eq (NodeStep.pointerTokens?_pathText steps),
    Option.some.injEq, List.append_cancel_left_eq]
  exact (Json.flatMap_tokens_eq_iff h.flaw.at?_location).2

end

/-- **A reported path leads to the flaw, exactly if its steps spell the way.**  There is always a
place in the document where the flaw is; the path is a pointer to it, token by token, unless a step
on the way does not spell its own place. -/
theorem reported_place (hv : document.Valid)
    (h : pointer = none ∧ schemaOf document "" = .error (.invalid (.path path) (.flaw cause)) ∨
      (load document pointer).outcome = .error (.invalid (.path path) (.flaw cause))) :
    ∃ root base steps place, Reports document pointer path cause root base steps place ∧
      (Json.pointerTokens? path = some (base ++ root.location steps) ↔ root.SpellsAll steps) ∧
      (root.SpellsAll steps → document.pointer? path = some place) := by
  obtain ⟨root, base, steps, place, hreports⟩ : ∃ root base steps place,
      Reports document pointer path cause root base steps place := by
    rcases h with ⟨rfl, h⟩ | h
    · exact exists_reports_of_schemaOf hv h
    · exact exists_reports_of_load hv h
  refine ⟨root, base, steps, place, hreports, hreports.pointerTokens?_iff, fun hspells => ?_⟩
  rw [Json.pointer?_eq, hreports.pointerTokens?_iff.2 hspells, Option.bind_some]
  exact hreports.place_eq

/-- A list whose items have a type that is none. -/
def tagList (items : Json) : Json := .object [("type", .string "array"), ("items", items)]

/-- A schema of a type that is none. -/
def textual : Json := .object [("type", .string "text")]

/-- A document with a flaw below a root whose name has a slash. -/
def tagged : Json :=
  .object [("defs", .object [("a/b", withProperties
    [("Pet", .object [("id", .string "#Pet"), ("properties", .object
      [("tags", tagList (.array [textual]))])])])])]

lemma valid_textual : textual.Valid := valid_singleton (.string "text")

lemma valid_tagList {items : Json} (h : items.Valid) : (tagList items).Valid := by
  have hkeys : ["type", "items"].Nodup := by decide
  exact .object hkeys (List.forall_mem_cons.2 ⟨.string "array", List.forall_mem_singleton.2 h⟩)

lemma valid_tagged : tagged.Valid := by
  have htags : (tagList (.array [textual])).Valid :=
    valid_tagList (.array (List.forall_mem_singleton.2 valid_textual))
  refine valid_singleton (valid_singleton (valid_withProperties (by decide) ?_))
  exact List.forall_mem_singleton.2 (.object (by decide)
    (List.forall_mem_cons.2 ⟨.string "#Pet", List.forall_mem_singleton.2 (valid_singleton htags)⟩))

theorem reported_place_tagged :
    tagged.Valid ∧
      (load tagged (some "/defs/a~1b")).outcome =
        .error (.invalid (.path "/defs/a~1b/properties/Pet/properties/tags/items/0/type")
          (.flaw (.unknownType "text"))) ∧
      (∃ root base steps place, Reports tagged (some "/defs/a~1b")
        "/defs/a~1b/properties/Pet/properties/tags/items/0/type" (.unknownType "text") root base
        steps place ∧ (root.SpellsAll steps → tagged.pointer?
          "/defs/a~1b/properties/Pet/properties/tags/items/0/type" = some place)) ∧
      tagged.pointer? "/defs/a~1b/properties/Pet/properties/tags/items/0/type" =
        some (.string "text") := by
  have hload : (load tagged (some "/defs/a~1b")).outcome =
      .error (.invalid (.path "/defs/a~1b/properties/Pet/properties/tags/items/0/type")
        (.flaw (.unknownType "text"))) := by
    rfl
  obtain ⟨root, base, steps, place, hreports, -, hplace⟩ := reported_place valid_tagged (.inr hload)
  exact ⟨valid_tagged, hload, ⟨root, base, steps, place, hreports, hplace⟩, rfl⟩

/-- A reported path can lead nowhere: an item that is not in a list has no index. -/
theorem single_item_misreported :
    ¬∀ (document : Json) (path : String) (cause : Flaw), document.Valid →
      schemaOf document "" = .error (.invalid (.path path) (.flaw cause)) →
      ∃ place, document.pointer? path = some place := by
  intro h
  have hreported : schemaOf (tagList textual) "" =
      .error (.invalid (.path "/items/0/type") (.flaw (.unknownType "text"))) := by
    rfl
  obtain ⟨place, hplace⟩ := h _ _ _ (valid_tagList valid_textual) hreported
  cases hplace

end Document
end TypedSchema
