import TypedSchema.Document
import TypedSchema.Proofs.Node.Keywords

/-!
# A document is loaded entry by entry

A document is read as a whole and then decided on entry by entry, in order, where an entry is left
out, refused or classified.  `Document.load_entrywise` says that this is as good as taking each
entry by itself: which entries can be loaded (`Document.Loadable`) and why one is refused
(`Document.Refused`) are stated on the JSON value of the entry and its path alone.

Both follow from the course that the decisions take (`Document.Course`), in which an entry is looked
at only if all before it can be loaded.
-/

namespace TypedSchema

/-! ## Values that name themselves -/

/-- Whether a member is an identifier other than `null`, in one of its spellings. -/
def Json.identifies : String × Json → Bool
  | (_, .null) => false
  | (key, _) => Keyword.ofKey? key = some .id

/-- Whether a value has an identifier. -/
def Json.isNamed : Json → Bool
  | .object members => members.any Json.identifies
  | _ => false

lemma Json.identifies_iff {key : String} {value : Json} :
    Json.identifies (key, value) = true ↔ Keyword.ofKey? key = some .id ∧ value ≠ .null := by
  cases value <;> simp [Json.identifies]

/-- A node has an identifier if the value has one. -/
lemma Node.isSome_id {v : Json} {node : Node} (hv : v.Valid) (h : Node.read v = .ok node) :
    node.id.isSome = v.isNamed := by
  cases v with
  | object members =>
    simp only [Node.read, map_eq_ok] at h
    obtain ⟨entries, hentries, rfl⟩ := h
    have hread : ∀ key value, (key, value) ∈ members → Keyword.ofKey? key = some .id →
        Node.readOptionalString value = .ok (Node.ofEntries entries).id := by
      intro key value hmem hk
      have hentry := Node.readEntry_foldl_of_mem hentries hv.distinct hmem hk {}
      rw [Node.readEntry, map_eq_ok] at hentry
      obtain ⟨_, hvalue, hid⟩ := hentry
      cases hid
      exact hvalue
    rw [Json.isNamed, Bool.eq_iff_iff, List.any_eq_true]
    constructor
    · intro hsome
      by_cases hspelled : ∀ key ∈ members.map Prod.fst, Keyword.ofKey? key ≠ some .id
      · have hid := Node.entry_foldl_of_notMem hentries hspelled {}
        rw [show (Node.ofEntries entries).id = none from Entry.id.inj hid] at hsome
        cases hsome
      · simp only [not_forall, Classical.not_not] at hspelled
        obtain ⟨_, hkey, hk⟩ := hspelled
        obtain ⟨⟨key, value⟩, hmem, rfl⟩ := List.mem_map.1 hkey
        refine ⟨(key, value), hmem, Json.identifies_iff.2 ⟨hk, ?_⟩⟩
        rintro rfl
        have hnone : none = (Node.ofEntries entries).id := Except.ok.inj (hread key .null hmem hk)
        rw [← hnone] at hsome
        cases hsome
    · rintro ⟨⟨key, value⟩, hmem, hidentifies⟩
      obtain ⟨hk, hvalue⟩ := Json.identifies_iff.1 hidentifies
      rcases Node.reads_of_readOptionalString (hread key value hmem hk) with ⟨hnull, _⟩ | ⟨s, _, hs⟩
      · exact absurd hnull hvalue
      · exact hs ▸ rfl
  | _ => cases h

/-! ## Values inside a document -/

lemma Json.valid_child? {v w : Json} {token : String} (hv : v.Valid) (h : v.child? token = some w) :
    w.Valid := by
  cases v with
  | object members => exact hv.members _ (mem_of_lookup h)
  | array items =>
    obtain ⟨i, _, hi⟩ := Option.bind_eq_some_iff.1 h
    exact hv.items w (List.mem_of_getElem? hi)
  | _ => cases h

/-- A pointer leads from a value that a document can hold to another. -/
lemma Json.valid_pointer? {v w : Json} {pointer : String} (hv : v.Valid)
    (h : v.pointer? pointer = some w) : w.Valid := by
  have hfold : ∀ (tokens : List (List Char)) (found : Option Json), (∀ v ∈ found, v.Valid) →
      ∀ w ∈ tokens.foldl (fun value token => value.bind (child? (pointerToken token))) found,
        w.Valid := by
    intro tokens
    induction tokens with
    | nil => exact fun _ hfound => hfound
    | cons token tokens ih =>
      intro found hfound
      refine ih _ fun v hv => ?_
      obtain ⟨u, hu, hchild⟩ := Option.bind_eq_some_iff.1 hv
      exact valid_child? (hfound u hu) hchild
  rw [pointer?] at h
  split at h
  · cases h
    exact hv
  · exact hfold _ _ (fun _ hv' => Option.some.inj hv' ▸ hv) w h
  · cases h

namespace Document

variable {document : Json} {pointer : Option String}

lemma valid_root {v : Json} (hv : document.Valid) (h : root document pointer = .ok v) :
    v.Valid := by
  unfold root at h
  split at h
  · cases h
    exact hv
  · split at h
    · rename_i hvalue
      cases h
      exact Json.valid_pointer? hv hvalue
    · cases h

/-- The root that the pointer selects is an object with these entries under `properties`. -/
def HasEntries (document : Json) (pointer : Option String) (entries : List (String × Json)) :
    Prop :=
  ∃ members, root document pointer = .ok (.object members) ∧
    members.lookup "properties" = some (.object entries)

lemma HasEntries.valid {entries : List (String × Json)} (hv : document.Valid)
    (h : HasEntries document pointer entries) : ∀ entry ∈ entries, entry.2.Valid := by
  obtain ⟨members, hroot, hentries⟩ := h
  exact ((valid_root hv hroot).members _ (mem_of_lookup hentries)).members

/-! ## Single entries -/

/-- What an entry must be like for a document to be loaded. -/
structure Loadable (pointer : Option String) (entry : String × Json) : Prop where
  readable : ∃ node, Node.read entry.2 = .ok node
  no_alternatives : ¬entry.2.Gives .anyOf
  no_composition : entry.2.isNamed = false → ¬entry.2.Gives .allOf
  classified : entry.2.isNamed = true →
    ∃ schema, schemaOf entry.2 (entryPath pointer entry.1) = .ok schema

/-- Why a readable entry is refused; alternatives come first. -/
inductive Refused (pointer : Option String) (entry : String × Json) : Fault → Prop
  | alternatives (h : entry.2.Gives .anyOf) :
    Refused pointer entry (.unsupported [] (.node (entryPath pointer entry.1) .topLevelAnyOf))
  | composition (hno : ¬entry.2.Gives .anyOf) (hnamed : entry.2.isNamed = false)
    (h : entry.2.Gives .allOf) :
    Refused pointer entry (.unsupported [] (.node (entryPath pointer entry.1) .topLevelAllOf))
  | rejected {fault : Fault} (hno : ¬entry.2.Gives .anyOf) (hnamed : entry.2.isNamed = true)
    (h : schemaOf entry.2 (entryPath pointer entry.1) = .error fault) : Refused pointer entry fault

lemma Loadable.not_refused {entry : String × Json} (h : Loadable pointer entry) {fault : Fault} :
    ¬Refused pointer entry fault := by
  rintro (halternatives | ⟨_, hnamed, hcomposition⟩ | ⟨_, hnamed, hrejected⟩)
  · exact h.no_alternatives halternatives
  · exact h.no_composition hnamed hcomposition
  · obtain ⟨schema, hschema⟩ := h.classified hnamed
    rw [hrejected] at hschema
    cases hschema

/-- The entry of a node contributes this to the schemas of its document. -/
inductive Contributes (pointer : Option String) (entry : String × Json) :
    Except Fault (Option Schema) → Prop
  | nothing (h : Loadable pointer entry) (hnamed : entry.2.isNamed = false) :
    Contributes pointer entry (.ok none)
  | schema {schema : Schema} (h : Loadable pointer entry) (hnamed : entry.2.isNamed = true)
    (hschema : schemaOf entry.2 (entryPath pointer entry.1) = .ok schema) :
    Contributes pointer entry (.ok (some schema))
  | fault {fault : Fault} (h : Refused pointer entry fault) :
    Contributes pointer entry (.error fault)

lemma schemaOf_of_read {v : Json} {node : Node} (h : Node.read v = .ok node) (path : String) :
    schemaOf v path = node.classify.mapError (Fault.ofRejection path) := by
  rw [schemaOf, h]
  rfl

/-- What is decided about a node depends on its value and its path only. -/
lemma contributes_loadEntry (pointer : Option String) {entry : String × Json} {node : Node}
    (hv : entry.2.Valid) (hread : Node.read entry.2 = .ok node) :
    Contributes pointer entry (loadEntry pointer entry.1 node).outcome := by
  have halternatives : node.anyOf.isSome = true ↔ entry.2.Gives .anyOf :=
    Node.gives_iff (k := .anyOf) hv hread nofun
  have hcomposition : node.allOf.isSome = true ↔ entry.2.Gives .allOf :=
    Node.gives_iff (k := .allOf) hv hread nofun
  have hnamed := Node.isSome_id hv hread
  have hclassify := schemaOf_of_read hread (entryPath pointer entry.1)
  unfold loadEntry
  dsimp only
  split
  case isTrue h => exact .fault (.alternatives (halternatives.1 h))
  case isFalse hno =>
    rw [halternatives] at hno
    split
    case h_1 _ _ hid =>
      rw [hid] at hnamed
      cases hresult : node.classify with
      | ok schema =>
        rw [hresult] at hclassify
        exact .schema ⟨⟨node, hread⟩, hno, fun h => absurd (hnamed.trans h) nofun,
          fun _ => ⟨schema, hclassify⟩⟩ hnamed.symm hclassify
      | error rejection =>
        rw [hresult] at hclassify
        exact .fault (.rejected hno hnamed.symm hclassify)
    case h_2 _ hid =>
      rw [hid] at hnamed
      split
      case isTrue h => exact .fault (.composition hno hnamed.symm (hcomposition.1 h))
      case isFalse hnone =>
        rw [hcomposition] at hnone
        exact .nothing ⟨⟨node, hread⟩, hno, fun _ => hnone, fun h => absurd (hnamed.trans h) nofun⟩
          hnamed.symm

/-! ## All entries -/

/-- The course of loading some entries: each contributes in turn, to the first that is refused. -/
inductive Course (pointer : Option String) :
    List (String × Json) → Except Fault (List Schema) → Prop
  | nil : Course pointer [] (.ok [])
  | cons {entry : String × Json} {entries : List (String × Json)} {schema : Option Schema}
    {outcome : Except Fault (List Schema)} (h : Contributes pointer entry (.ok schema))
    (rest : Course pointer entries outcome) :
    Course pointer (entry :: entries) (outcome.map (schema.toList ++ ·))
  | refused {entry : String × Json} {entries : List (String × Json)} {fault : Fault}
    (h : Refused pointer entry fault) : Course pointer (entry :: entries) (.error fault)

lemma outcome_loadEntries_cons (key : String) (node : Node) (nodes : List (String × Node)) :
    (loadEntries pointer ((key, node) :: nodes)).outcome =
      (loadEntry pointer key node).outcome >>= fun schema =>
        (loadEntries pointer nodes).outcome.map (schema.toList ++ ·) := by
  simp only [loadEntries, TracedBy.outcome_bind, TracedBy.outcome_pure]
  rfl

lemma course_loadEntries {entries : List (String × Json)} {nodes : List (String × Node)}
    (hv : ∀ entry ∈ entries, entry.2.Valid)
    (h : List.Forall₂ (fun m n => m.1 = n.1 ∧ Node.read m.2 = .ok n.2) entries nodes) :
    Course pointer entries (loadEntries pointer nodes).outcome := by
  induction h with
  | nil => exact .nil
  | @cons entry named entries nodes hentry _ ih =>
    obtain ⟨key, node⟩ := named
    obtain ⟨rfl, hread⟩ := hentry
    obtain ⟨hfirst, hrest⟩ := List.forall_mem_cons.1 hv
    have hcontributes := contributes_loadEntry pointer hfirst hread
    rw [outcome_loadEntries_cons]
    generalize (loadEntry pointer entry.1 node).outcome = contribution at hcontributes
    cases contribution with
    | ok schema => exact .cons hcontributes (ih hrest)
    | error fault =>
      cases hcontributes with
      | fault hrefused => exact .refused hrefused

namespace Course
variable {entries : List (String × Json)} {outcome : Except Fault (List Schema)}

/-- If all goes well, the schemas are those of the entries with an identifier, in order. -/
lemma forall₂_of_ok (h : Course pointer entries outcome) {schemas : List Schema}
    (hok : outcome = .ok schemas) :
    (∀ entry ∈ entries, Loadable pointer entry) ∧
      List.Forall₂ (fun entry schema => schemaOf entry.2 (entryPath pointer entry.1) = .ok schema)
        (entries.filter fun entry => entry.2.isNamed) schemas := by
  induction h generalizing schemas with
  | nil =>
    cases hok
    exact ⟨List.forall_mem_nil _, .nil⟩
  | cons hfirst _ ih =>
    obtain ⟨rest, hrest, rfl⟩ := map_eq_ok.1 hok
    obtain ⟨hloadable, hschemas⟩ := ih hrest
    cases hfirst with
    | nothing h hnamed =>
      refine ⟨List.forall_mem_cons.2 ⟨h, hloadable⟩, ?_⟩
      rw [List.filter_cons, if_neg (by simp [hnamed])]
      exact hschemas
    | schema h hnamed hschema =>
      refine ⟨List.forall_mem_cons.2 ⟨h, hloadable⟩, ?_⟩
      rw [List.filter_cons, if_pos hnamed]
      exact .cons hschema hschemas
  | refused => cases hok

/-- If something goes wrong, it is what is wrong with the first entry that cannot be loaded. -/
lemma first_of_error (h : Course pointer entries outcome) {fault : Fault}
    (herror : outcome = .error fault) :
    ∃ before entry after, entries = before ++ entry :: after ∧
      (∀ e ∈ before, Loadable pointer e) ∧ Refused pointer entry fault := by
  induction h with
  | nil => cases herror
  | @cons entry _ _ outcome hfirst _ ih =>
    have hrest : outcome = .error fault := by
      cases outcome with
      | ok => cases herror
      | error => exact herror
    obtain ⟨before, refused, after, rfl, hbefore, hrefused⟩ := ih hrest
    refine ⟨entry :: before, refused, after, rfl, List.forall_mem_cons.2 ⟨?_, hbefore⟩, hrefused⟩
    cases hfirst with
    | nothing h | schema h => exact h
  | @refused entry entries _ hrefused =>
    cases herror
    exact ⟨[], entry, entries, rfl, List.forall_mem_nil _, hrefused⟩

end Course

/-! ## Whole documents -/

/-- A mismatch among the entries of a root, as a fault. -/
def entriesFault (mismatch : Mismatch) : Fault :=
  Fault.ofMismatch (.under (.key "properties") mismatch)

/-- Loading is finding the root, reading its entries and deciding on them. -/
lemma outcome_load (document : Json) (pointer : Option String) :
    (load document pointer).outcome = root document pointer >>= fun value =>
      entries value >>= fun nodes => (loadEntries pointer nodes).outcome := by
  simp only [load, TracedBy.outcome_bind, TracedBy.outcome_quiet, TracedBy.outcome_report,
    TracedBy.outcome_pure]
  refine bind_congr fun value => bind_congr fun nodes => ?_
  cases (loadEntries pointer nodes).outcome <;> rfl

lemma HasEntries.outcome_load {entries : List (String × Json)}
    (h : HasEntries document pointer entries) :
    (load document pointer).outcome =
      (Node.readProperties entries).mapError entriesFault >>= fun nodes =>
        (loadEntries pointer nodes).outcome := by
  obtain ⟨members, hroot, hentries⟩ := h
  rw [Document.outcome_load, hroot]
  show ((Node.readRoot (.object members)).mapError Fault.ofMismatch >>= _) = _
  rw [Node.readRoot, hentries]
  show (((Node.readProperties entries).mapError (.under (.key "properties"))).mapError
    Fault.ofMismatch >>= _) = _
  cases Node.readProperties entries <;> rfl

/-! ## Entries that add nothing -/

lemma readProperties_append (xs ys : List (String × Json)) :
    Node.readProperties (xs ++ ys) =
      Node.readProperties xs >>= fun nodes => (Node.readProperties ys).map (nodes ++ ·) := by
  refine append_eq_bind Node.readProperties (fun entry =>
    ((Node.read entry.2).mapError (.under (.key entry.1))).map fun node => [(entry.1, node)]) rfl
    (fun entry rest => ?_) xs ys
  rw [Node.readProperties]
  cases Node.read entry.2 with
  | error mismatch => rfl
  | ok node => cases Node.readProperties rest <;> rfl

lemma outcome_loadEntries_append (xs ys : List (String × Node)) :
    (loadEntries pointer (xs ++ ys)).outcome =
      (loadEntries pointer xs).outcome >>= fun schemas =>
        (loadEntries pointer ys).outcome.map (schemas ++ ·) := by
  refine append_eq_bind (fun nodes => (loadEntries pointer nodes).outcome)
    (fun named => (loadEntry pointer named.1 named.2).outcome.map Option.toList) rfl
    (fun named rest => ?_) xs ys
  rw [outcome_loadEntries_cons]
  cases (loadEntry pointer named.1 named.2).outcome <;> rfl

/-- A loadable entry without an identifier has no part in the outcome, wherever it stands. -/
lemma outcome_insert {before after : List (String × Json)} {entry : String × Json}
    (hv : entry.2.Valid) (h : Loadable pointer entry) (hunnamed : entry.2.isNamed = false) :
    ((Node.readProperties (before ++ entry :: after)).mapError entriesFault >>= fun nodes =>
        (loadEntries pointer nodes).outcome) =
      (Node.readProperties (before ++ after)).mapError entriesFault >>= fun nodes =>
        (loadEntries pointer nodes).outcome := by
  obtain ⟨node, hread⟩ := h.readable
  have hentry : (loadEntry pointer entry.1 node).outcome = .ok none := by
    have hcontributes := contributes_loadEntry pointer hv hread
    generalize (loadEntry pointer entry.1 node).outcome = contribution at hcontributes
    cases hcontributes with
    | nothing => rfl
    | schema _ hnamed => exact absurd (hunnamed.symm.trans hnamed) nofun
    | fault hrefused => exact absurd hrefused h.not_refused
  have hskip : ∀ nodes, (loadEntries pointer ((entry.1, node) :: nodes)).outcome =
      (loadEntries pointer nodes).outcome := by
    intro nodes
    rw [outcome_loadEntries_cons, hentry]
    show Except.map (fun schemas => schemas) (loadEntries pointer nodes).outcome = _
    cases (loadEntries pointer nodes).outcome <;> rfl
  rw [readProperties_append, readProperties_append, Node.readProperties, hread]
  cases Node.readProperties before with
  | error mismatch => rfl
  | ok first =>
    cases Node.readProperties after with
    | error mismatch => rfl
    | ok rest =>
      show (loadEntries pointer (first ++ (entry.1, node) :: rest)).outcome =
        (loadEntries pointer (first ++ rest)).outcome
      rw [outcome_loadEntries_append, outcome_loadEntries_append, hskip]

/-! ## Loading, entry by entry -/

/-- A document with named schemas under `properties` is loaded if each of them can be; what comes
out are the schemas of those with an identifier, in order.  The others can be added and taken away
freely.  If the document can be read and is not loaded, the fault is that of the first entry that is
refused. -/
theorem load_entrywise (hv : document.Valid) {entries : List (String × Json)}
    (hentries : HasEntries document pointer entries) :
    ((∃ schemas, (load document pointer).outcome = .ok schemas) ↔
        ∀ entry ∈ entries, Loadable pointer entry) ∧
      (∀ schemas, (load document pointer).outcome = .ok schemas →
        List.Forall₂ (fun entry schema => schemaOf entry.2 (entryPath pointer entry.1) = .ok schema)
          (entries.filter fun entry => entry.2.isNamed) schemas) ∧
      (∀ (other : Json) (before after : List (String × Json)) (entry : String × Json),
        other.Valid → entries = before ++ after →
        HasEntries other pointer (before ++ entry :: after) → Loadable pointer entry →
        entry.2.isNamed = false →
        (load other pointer).outcome = (load document pointer).outcome) ∧
      (∀ fault, (∀ entry ∈ entries, ∃ node, Node.read entry.2 = .ok node) →
        (load document pointer).outcome = .error fault →
        ∃ before entry after, entries = before ++ entry :: after ∧
          (∀ e ∈ before, Loadable pointer e) ∧ Refused pointer entry fault) := by
  have hcourse : ∀ nodes, Node.readProperties entries = .ok nodes →
      Course pointer entries (load document pointer).outcome := by
    intro nodes hnodes
    rw [hentries.outcome_load, hnodes]
    exact course_loadEntries (hentries.valid hv) (Node.readProperties_eq_ok.1 hnodes)
  have hreadable : (∃ nodes, Node.readProperties entries = .ok nodes) ↔
      ∀ entry ∈ entries, ∃ node, Node.read entry.2 = .ok node :=
    exists_ok_iff_forall Node.readProperties
      (fun entry => (Node.read entry.2).mapError (.under (.key entry.1)))
      (fun entry node nodes => (entry.1, node) :: nodes) rfl (fun _ _ => rfl) |>.trans
      (by simp only [mapError_eq_ok])
  have hok : ∀ schemas, (load document pointer).outcome = .ok schemas →
      Course pointer entries (load document pointer).outcome := by
    intro schemas h
    rw [hentries.outcome_load, bind_eq_ok] at h
    obtain ⟨nodes, hnodes, _⟩ := h
    exact hcourse nodes (mapError_eq_ok.1 hnodes)
  refine ⟨⟨?_, fun hall => ?_⟩, ?_, ?_, ?_⟩
  · rintro ⟨schemas, h⟩
    exact ((hok schemas h).forall₂_of_ok h).1
  · obtain ⟨nodes, hnodes⟩ := hreadable.2 fun entry hentry => (hall entry hentry).readable
    have hloaded := hcourse nodes hnodes
    cases houtcome : (load document pointer).outcome with
    | ok schemas => exact ⟨schemas, rfl⟩
    | error fault =>
      obtain ⟨_, entry, _, rfl, _, hrefused⟩ := hloaded.first_of_error houtcome
      exact absurd hrefused (hall entry (by simp)).not_refused
  · exact fun schemas h => ((hok schemas h).forall₂_of_ok h).2
  · rintro other before after entry hother rfl hmore hloadable hunnamed
    have hentry : entry.2.Valid := hmore.valid hother entry (by simp)
    rw [hmore.outcome_load, hentries.outcome_load, outcome_insert hentry hloadable hunnamed]
  · intro fault hread h
    obtain ⟨nodes, hnodes⟩ := hreadable.2 hread
    exact (hcourse nodes hnodes).first_of_error h

/-- A record with a name. -/
def petEntry : String × Json :=
  ("Pet", .object [("$id", .string "#Pet"),
    ("properties", .object [("name", .object [("type", .string "string")])])])

/-- A type without a name, which only other documents would refer to. -/
def sizeEntry : String × Json := ("Size", .object [("id", .null), ("type", .string "integer")])

/-- A document with these entries. -/
def withProperties (entries : List (String × Json)) : Json :=
  .object [("title", .string "pets"), ("properties", .object entries)]

lemma valid_petEntry : petEntry.2.Valid := by
  have hname : (Json.object [("type", .string "string")]).Valid :=
    .object (by decide) (List.forall_mem_singleton.2 (.string _))
  have hproperties : (Json.object [("name", .object [("type", .string "string")])]).Valid :=
    .object (by decide) (List.forall_mem_singleton.2 hname)
  exact .object (by decide) (List.forall_mem_cons.2
    ⟨.string _, List.forall_mem_singleton.2 hproperties⟩)

lemma valid_sizeEntry : sizeEntry.2.Valid :=
  .object (by decide) (List.forall_mem_cons.2 ⟨.null, List.forall_mem_singleton.2 (.string _)⟩)

lemma valid_withProperties {entries : List (String × Json)}
    (hdistinct : (entries.map Prod.fst).Nodup)
    (hv : ∀ entry ∈ entries, entry.2.Valid) : (withProperties entries).Valid := by
  have hkeys : ["title", "properties"].Nodup := by decide
  exact .object hkeys (List.forall_mem_cons.2
    ⟨.string _, List.forall_mem_singleton.2 (.object hdistinct hv)⟩)

lemma hasEntries_withProperties (entries : List (String × Json)) :
    HasEntries (withProperties entries) none entries :=
  ⟨_, rfl, rfl⟩

theorem load_entrywise_pet :
    (withProperties [petEntry]).Valid ∧ HasEntries (withProperties [petEntry]) none [petEntry] ∧
      (∃ schemas, (load (withProperties [petEntry]) none).outcome = .ok schemas) ∧
      (load (withProperties [sizeEntry, petEntry]) none).outcome =
        (load (withProperties [petEntry]) none).outcome := by
  have hv : (withProperties [petEntry]).Valid :=
    valid_withProperties (by decide) (List.forall_mem_singleton.2 valid_petEntry)
  have hmore : (withProperties [sizeEntry, petEntry]).Valid :=
    valid_withProperties (by decide)
      (List.forall_mem_cons.2 ⟨valid_sizeEntry, List.forall_mem_singleton.2 valid_petEntry⟩)
  have hpet : Loadable none petEntry := ⟨⟨_, rfl⟩, fun h => h rfl, nofun, fun _ => ⟨_, rfl⟩⟩
  have hsize : Loadable none sizeEntry := ⟨⟨_, rfl⟩, fun h => h rfl, fun _ h => h rfl, nofun⟩
  have hloaded := load_entrywise hv (hasEntries_withProperties [petEntry])
  refine ⟨hv, hasEntries_withProperties _, hloaded.1.2 (List.forall_mem_singleton.2 hpet), ?_⟩
  exact hloaded.2.2.1 _ [] [petEntry] sizeEntry hmore rfl (hasEntries_withProperties _) hsize rfl

end Document
end TypedSchema
