import TypedSchema.Proofs.Agreement
import TypedSchema.Proofs.Schema.Coverage

/-!
# A type that is written in a list

A type can be written as a word or as a list that holds the word.  Where a node is classified by its
types the two are the same.  Where another keyword decides, the node is asked whether its type is
`object`, and only the bare word counts as a yes (`Node.typeIs`).

`Node.listed` is the node with its type in a list.  `Node.classify_listed` says that its schema, or
why it has none, is that of the node, unless the node needs the bare word
(`Node.needsBareType`); then it has no schema at all.  `Document.schemaOf_withTypeList` is the same
on JSON values.
-/

namespace TypedSchema

/-- The same type, written as a list. -/
def OneOrMany.listed {α : Type} (type : OneOrMany α) : OneOrMany α := .many type.toList

/-- The same entry; a type is written as a list. -/
def Entry.listed : Entry → Entry
  | .type value => .type (value.map OneOrMany.listed)
  | e => e

lemma Entry.listed_of_keyword? {e : Entry} (h : e.keyword? ≠ some .type) : e.listed = e := by
  cases e <;> first | rfl | exact absurd rfl h

namespace Node

/-- The same node with its type written as a list. -/
def listed (node : Node) : Node := { node with type := node.type.map OneOrMany.listed }

/-! ## Classification -/

/-- Whether a node depends on the bare word `object`: beside a reference, unless properties say as
much, and beside `anyOf` and `allOf`. -/
def needsBareType (node : Node) : Bool :=
  node.typeIs "object" &&
    if node.ref.isSome then node.properties.isNone else node.anyOf.isSome || node.allOf.isSome

@[simp] lemma others_listed (node : Node) : node.listed.others = node.others := rfl

@[simp] lemma ref_listed (node : Node) : node.listed.ref = node.ref := rfl

@[simp] lemma anyOf_listed (node : Node) : node.listed.anyOf = node.anyOf := rfl

@[simp] lemma allOf_listed (node : Node) : node.listed.allOf = node.allOf := rfl

lemma isSome_type_listed (node : Node) : node.listed.type.isSome = node.type.isSome :=
  Option.isSome_map

/-- A list is not a bare word. -/
lemma typeIs_listed (node : Node) (keyword : String) : node.listed.typeIs keyword = false := by
  unfold typeIs listed
  cases node.type <;> rfl

lemma hasForeignType_listed (node : Node) : node.listed.hasForeignType = node.type.isSome := by
  rw [hasForeignType, typeIs_listed, isSome_type_listed, Bool.not_false, Bool.and_true]

/-- A type counts as one however it is written. -/
lemma types?_listed (node : Node) : node.listed.types? = node.types? := by
  unfold types? listed
  cases node.type <;> rfl

lemma isSome_type_of_typeIs {node : Node} {keyword : String} (h : node.typeIs keyword = true) :
    node.type.isSome = true := by
  unfold typeIs at h
  split at h
  · rename_i htype
    rw [htype]
    rfl
  · cases h

section
variable {node : Node} {children : Children} {target : String}

/-- What the types of a node decide does not depend on how they are written. -/
lemma denoteByType_listed : node.listed.denoteByType children = node.denoteByType children := by
  unfold denoteByType
  rw [types?_listed]
  rfl

lemma denoteRef_listed (h : node.typeIs "object" = true → node.properties.isSome = true) :
    node.listed.denoteRef children target = node.denoteRef children target := by
  have hshaped : (node.listed.properties.isSome || node.listed.typeIs "object") =
      (node.properties.isSome || node.typeIs "object") := by
    rw [typeIs_listed, Bool.or_false, Bool.eq_iff_iff, Bool.or_eq_true]
    exact (or_iff_left_of_imp h).symm
  unfold denoteRef
  rw [hshaped, isSome_type_listed]
  rfl

lemma denoteAnyOf_listed (h : node.typeIs "object" = false) :
    node.listed.denoteAnyOf children = node.denoteAnyOf children := by
  unfold denoteAnyOf
  rw [hasForeignType_listed, hasForeignType, h, Bool.not_false, Bool.and_true]
  rfl

lemma denoteAllOf_listed (h : node.typeIs "object" = false) :
    node.listed.denoteAllOf children = node.denoteAllOf children := by
  unfold denoteAllOf
  rw [hasForeignType_listed, hasForeignType, h, Bool.not_false, Bool.and_true]
  rfl

/-- A node whose type is a list denotes what it denotes with the bare word, unless it needs that. -/
theorem classify_listed (h : node.needsBareType = false) :
    classify node.listed = classify node := by
  rw [classify_eq, classify_eq]
  show node.listed.denote node.children = node.denote node.children
  unfold needsBareType at h
  unfold denote
  rw [others_listed, ref_listed, anyOf_listed, allOf_listed]
  cases node.others.find? unsupportedKeywords.contains with
  | some name => rfl
  | none =>
    cases href : node.ref with
    | some target =>
      refine denoteRef_listed fun hobject => ?_
      rwa [href, hobject, Option.isSome_some, if_pos rfl, Bool.true_and,
        Option.isNone_eq_false_iff] at h
    | none =>
      have hword : (node.anyOf.isSome || node.allOf.isSome) = true →
          node.typeIs "object" = false := fun hgiven => by
        rwa [href, hgiven, Option.isSome_none, if_neg Bool.false_ne_true, Bool.and_true] at h
      show (if _ then _ else _) = (if _ then _ else _)
      split
      · rename_i hanyOf
        exact denoteAnyOf_listed (hword (by rw [hanyOf, Bool.true_or]))
      · split
        · rename_i hallOf
          exact denoteAllOf_listed (hword (by rw [hallOf, Bool.or_true]))
        · exact denoteByType_listed

lemma hasForeignType_listed_of_object (h : node.typeIs "object" = true) :
    node.listed.hasForeignType = true := by
  rw [hasForeignType_listed, isSome_type_of_typeIs h]

lemma denoteRef_listed_eq_error (h : node.typeIs "object" = true)
    (hproperties : node.properties.isNone = true) :
    ∃ rejection, node.listed.denoteRef children target = .error rejection := by
  have hshaped : (node.listed.properties.isSome || node.listed.typeIs "object") = false := by
    rw [typeIs_listed, Bool.or_false]
    exact Option.isSome_eq_false_iff.2 hproperties
  unfold denoteRef
  rw [hshaped, if_neg Bool.false_ne_true, isSome_type_listed, isSome_type_of_typeIs h, if_pos rfl]
  split <;> exact ⟨_, rfl⟩

lemma denoteAnyOf_listed_eq_error (h : node.typeIs "object" = true) :
    ∃ rejection, node.listed.denoteAnyOf children = .error rejection := by
  unfold denoteAnyOf
  rw [hasForeignType_listed_of_object h, if_pos rfl]
  split <;> exact ⟨_, rfl⟩

lemma denoteAllOf_listed_eq_error (h : node.typeIs "object" = true) :
    ∃ rejection, node.listed.denoteAllOf children = .error rejection := by
  unfold denoteAllOf
  rw [hasForeignType_listed_of_object h, if_pos rfl]
  exact ⟨_, rfl⟩

/-- A node that needs the bare word denotes nothing if its type is a list. -/
theorem exists_classify_listed_eq_error (h : node.needsBareType = true) :
    ∃ rejection, classify node.listed = .error rejection := by
  obtain ⟨hobject, hneeds⟩ := Bool.and_eq_true_iff.1 h
  rw [classify_eq]
  unfold denote
  split
  · exact ⟨_, rfl⟩
  rw [ref_listed, anyOf_listed, allOf_listed]
  cases href : node.ref with
  | some target =>
    rw [href, Option.isSome_some, if_pos rfl] at hneeds
    exact denoteRef_listed_eq_error hobject hneeds
  | none =>
    rw [href, Option.isSome_none, if_neg Bool.false_ne_true, Bool.or_eq_true] at hneeds
    dsimp only
    split
    · exact denoteAnyOf_listed_eq_error hobject
    · rename_i hanyOf
      rw [if_pos (hneeds.resolve_left hanyOf)]
      exact denoteAllOf_listed_eq_error hobject

end

/-! ## Reading -/

lemma withEntry_listed (node : Node) (e : Entry) :
    (node.withEntry e).listed = node.listed.withEntry e.listed := by
  cases e <;> rfl

lemma foldl_withEntry_listed (entries : List Entry) (node : Node) :
    (entries.foldl withEntry node).listed =
      (entries.map Entry.listed).foldl withEntry node.listed := by
  induction entries generalizing node with
  | nil => rfl
  | cons e es ih => rw [List.foldl_cons, ih, withEntry_listed, List.map_cons, List.foldl_cons]

/-- Only the type itself is written as a list. -/
lemma map_listed_of_notMem {identified : Bool} {members : List (String × Json)}
    {entries : List Entry} (h : readEntries identified members = .ok entries)
    (htype : "type" ∉ members.map Prod.fst) : entries.map Entry.listed = entries := by
  induction members generalizing identified entries with
  | nil =>
    cases h
    rfl
  | cons member rest ih =>
    obtain ⟨key, value⟩ := member
    rw [List.map_cons, List.mem_cons, not_or] at htype
    obtain ⟨-, e, es, he, hes, rfl⟩ := readEntries_cons_eq_ok.1 h
    have hother : e.keyword? ≠ some .type := by
      rw [keyword?_of_readEntry he]
      exact fun hof => htype.1 (Keyword.key_of_ofKey? (by decide) hof).symm
    rw [List.map_cons, Entry.listed_of_keyword? hother, ih hes htype.2]

variable {members : List (String × Json)} {word : String}

lemma readEntries_cons (identified : Bool) (key : String) (value : Json)
    (rest : List (String × Json)) :
    readEntries identified ((key, value) :: rest) =
      if Keyword.ofKey? key = some .id && identified then .error (.here .repeatedId)
      else (readEntry key (Keyword.ofKey? key) value).mapError (.under (.key key)) >>= fun e =>
        (readEntries (identified || Keyword.ofKey? key = some .id) rest).map (e :: ·) := by
  rw [readEntries]
  rfl

/-- The entries of an object with its type in a list. -/
lemma readEntries_insertType {identified : Bool} (hdistinct : (members.map Prod.fst).Nodup)
    (htype : members.lookup "type" = some (.string word)) :
    readEntries identified (insertMember "type" (.array [.string word]) members) =
      (readEntries identified members).map (List.map Entry.listed) := by
  induction members generalizing identified with
  | nil => cases htype
  | cons member rest ih =>
    obtain ⟨key, value⟩ := member
    obtain ⟨hfresh, hrest⟩ := List.nodup_cons.1 hdistinct
    rw [lookup_member] at htype
    by_cases hkey : key = "type"
    · subst hkey
      rw [if_pos rfl, Option.some.injEq] at htype
      subst htype
      rw [insertMember, if_pos rfl, readEntries_cons, readEntries_cons]
      show (readEntries _ rest).map _ = ((readEntries _ rest).map _).map _
      cases hes : readEntries (identified || decide (Keyword.ofKey? "type" = some .id)) rest with
      | error mismatch => rfl
      | ok es =>
        show Except.ok (_ :: es) = Except.ok (_ :: es.map Entry.listed)
        rw [map_listed_of_notMem hes hfresh]
        rfl
    · rw [if_neg (Ne.symm hkey)] at htype
      rw [insertMember, if_neg hkey, readEntries_cons, readEntries_cons]
      split
      · rfl
      · cases he : readEntry key (Keyword.ofKey? key) value with
        | error mismatch => rfl
        | ok e =>
          have hother : e.keyword? ≠ some .type := by
            rw [keyword?_of_readEntry he]
            exact fun hof => hkey (Keyword.key_of_ofKey? (by decide) hof)
          show (readEntries _ (insertMember _ _ rest)).map _ = ((readEntries _ rest).map _).map _
          rw [ih hrest htype]
          cases readEntries (identified || decide (Keyword.ofKey? key = some .id)) rest with
          | error mismatch => rfl
          | ok es =>
            show Except.ok (e :: _) = Except.ok (e.listed :: _)
            rw [Entry.listed_of_keyword? hother]

/-- An object with its type in a list is read as the node with its type in a list. -/
lemma read_insertType (hdistinct : (members.map Prod.fst).Nodup)
    (htype : members.lookup "type" = some (.string word)) :
    read (.object (insertMember "type" (.array [.string word]) members)) =
      (read (.object members)).map listed := by
  rw [read, read, readEntries_insertType hdistinct htype]
  cases readEntries false members with
  | error mismatch => rfl
  | ok entries => exact congrArg Except.ok (foldl_withEntry_listed entries {}).symm

end Node

/-! ## JSON values -/

/-- Whether a schema node depends on the bare word `object`: beside a reference, unless properties
say as much, and beside `anyOf` and `allOf`. -/
def Json.NeedsBareType (v : Json) : Prop :=
  v.under .type = .string "object" ∧
    (v.Gives .ref ∧ ¬v.Gives .properties ∨ ¬v.Gives .ref ∧ (v.Gives .anyOf ∨ v.Gives .allOf))

lemma Node.needsBareType_iff {v : Json} {node : Node} (hv : v.Valid) (h : Node.read v = .ok node) :
    node.needsBareType = true ↔ v.NeedsBareType := by
  have href : node.ref.isSome = true ↔ v.Gives .ref := gives_iff (k := .ref) hv h nofun
  have hproperties : node.properties.isSome = true ↔ v.Gives .properties :=
    gives_iff (k := .properties) hv h nofun
  have hanyOf : node.anyOf.isSome = true ↔ v.Gives .anyOf := gives_iff (k := .anyOf) hv h nofun
  have hallOf : node.allOf.isSome = true ↔ v.Gives .allOf := gives_iff (k := .allOf) hv h nofun
  unfold needsBareType Json.NeedsBareType
  rw [Bool.and_eq_true, typeIs_iff hv h, ← href, ← hproperties, ← hanyOf, ← hallOf]
  cases node.ref <;> cases node.properties <;> simp

namespace Document

variable {members : List (String × Json)} {word : String}

/-- The object with its type in a list. -/
def withTypeList (members : List (String × Json)) (word : String) : Json :=
  .object (insertMember "type" (.array [.string word]) members)

section
variable (hv : (Json.object members).Valid) (htype : members.lookup "type" = some (.string word))
  (path : String)
include hv htype

lemma schemaOf_withTypeList_eq (h : ¬(Json.object members).NeedsBareType) :
    schemaOf (withTypeList members word) path = schemaOf (.object members) path := by
  rw [schemaOf, schemaOf, withTypeList, Node.read_insertType hv.distinct htype]
  cases hread : Node.read (.object members) with
  | error mismatch => rfl
  | ok node =>
    have hneeds : node.needsBareType = false := by
      rwa [← Node.needsBareType_iff hv hread, Bool.not_eq_true] at h
    show (node.listed.classify).mapError _ = node.classify.mapError _
    rw [Node.classify_listed hneeds]

lemma exists_schemaOf_withTypeList_eq_error (h : (Json.object members).NeedsBareType) :
    ∃ fault, schemaOf (withTypeList members word) path = .error fault := by
  rw [schemaOf, withTypeList, Node.read_insertType hv.distinct htype]
  cases hread : Node.read (.object members) with
  | error mismatch => exact ⟨_, rfl⟩
  | ok node =>
    obtain ⟨rejection, hrejection⟩ :=
      Node.exists_classify_listed_eq_error ((Node.needsBareType_iff hv hread).2 h)
    show ∃ fault, (node.listed.classify).mapError _ = .error fault
    rw [hrejection]
    exact ⟨_, rfl⟩

/-- **A list with one word means the same as the word**, also where the value is refused, except
where only the bare word makes the value an object: there the list is refused, whatever the word
gives. -/
theorem schemaOf_withTypeList :
    (¬(Json.object members).NeedsBareType →
      schemaOf (withTypeList members word) path = schemaOf (.object members) path) ∧
    (Agree (fun s t => s = t) (schemaOf (.object members) path)
        (schemaOf (withTypeList members word) path) ↔
      ¬((Json.object members).NeedsBareType ∧ ∃ s, schemaOf (.object members) path = .ok s)) := by
  refine ⟨schemaOf_withTypeList_eq hv htype path, ?_⟩
  by_cases hneeds : (Json.object members).NeedsBareType
  · obtain ⟨fault, hfault⟩ := exists_schemaOf_withTypeList_eq_error hv htype path hneeds
    rw [hfault, and_iff_right hneeds]
    cases schemaOf (.object members) path with
    | ok s => exact iff_of_false nofun fun h => h ⟨s, rfl⟩
    | error other => exact iff_of_true (.error other fault) nofun
  · rw [schemaOf_withTypeList_eq hv htype path hneeds]
    exact iff_of_true (.refl (fun _ => rfl) _) fun h => hneeds h.1

end

/-- An object that extends another. -/
def extension : List (String × Json) := [("$ref", .string "#A"), ("type", .string "object")]

/-- The same object with a property of its own. -/
def widerExtension : List (String × Json) :=
  [("$ref", .string "#A"), ("type", .string "object"),
    ("properties", .object [("size", .object [("type", .string "integer")])])]

lemma valid_extension : (Json.object extension).Valid :=
  .object (by decide) (List.forall_mem_cons.2 ⟨.string _, List.forall_mem_singleton.2 (.string _)⟩)

lemma valid_widerExtension : (Json.object widerExtension).Valid := by
  have hsize : (Json.object [("type", .string "integer")]).Valid := valid_singleton (.string _)
  exact .object (by decide) (List.forall_mem_cons.2 ⟨.string _, List.forall_mem_cons.2
    ⟨.string _, List.forall_mem_singleton.2 (valid_singleton hsize)⟩⟩)

theorem schemaOf_withTypeList_extension :
    (Json.object extension).Valid ∧ (Json.object widerExtension).Valid ∧
      (Json.object extension).NeedsBareType ∧ ¬(Json.object widerExtension).NeedsBareType ∧
      schemaOf (.object extension) "" = .ok (.object { base := some "#A" }) ∧
      ¬Agree (fun s t => s = t) (schemaOf (.object extension) "")
        (schemaOf (withTypeList extension "object") "") ∧
      schemaOf (withTypeList widerExtension "object") "" =
        .ok (.object { base := some "#A", properties := [("size", .ofKind .integer)] }) := by
  have hneeds : (Json.object extension).NeedsBareType := ⟨rfl, .inl ⟨nofun, fun h => h rfl⟩⟩
  have hwider : ¬(Json.object widerExtension).NeedsBareType := by
    rintro ⟨-, ⟨-, h⟩ | ⟨h, -⟩⟩
    · exact h nofun
    · exact h nofun
  have hschema : schemaOf (.object extension) "" = .ok (.object { base := some "#A" }) := rfl
  refine ⟨valid_extension, valid_widerExtension, hneeds, hwider, hschema, ?_, ?_⟩
  · rw [(schemaOf_withTypeList valid_extension rfl "").2, not_not]
    exact ⟨hneeds, _, hschema⟩
  · rw [(schemaOf_withTypeList valid_widerExtension rfl "").1 hwider]
    rfl

/-- A list with one word can mean less than the word: it makes no reference an object. -/
theorem extension_needs_bare_type :
    ¬∀ (members : List (String × Json)) (word path : String), (Json.object members).Valid →
      members.lookup "type" = some (.string word) →
      Agree (fun s t => s = t) (schemaOf (.object members) path)
        (schemaOf (withTypeList members word) path) := by
  intro h
  cases h extension "object" "" valid_extension rfl

end Document
end TypedSchema
