import TypedSchema.Proofs.Document.Entries
import TypedSchema.Proofs.Json.Pointer
import TypedSchema.Proofs.Node.Flaw
import TypedSchema.Proofs.Schema.Coverage

/-!
# The places of reported flaws

A document that is rejected for a flaw is rejected with a path.  The steps behind the path lead to
the part of the document that is to blame (`Json.FlawAt`), and each step has a text in the path and
a place in the document.  `Json.Spells` says when the two are the same: the name of a property must
stand for itself in a pointer, and an item must be one of a list.

All steps together spell the place of a flaw exactly if each of them does
(`Json.flatMap_tokens_eq_iff`), since no text has fewer tokens than its place.
-/

namespace TypedSchema

/-! ## The texts of steps -/

namespace NodeStep

/-- Whether a step leads to a node. -/
def entersNode : NodeStep → Bool
  | property _ | anyOf _ | allOf _ | items _ => true
  | type | enum | enumValue _ => false

/-- What the text of a step is read as in a pointer. -/
def tokens : NodeStep → List String
  | property name => "properties" :: (Text.splitOn '/' name.toList).map Json.pointerToken
  | anyOf i => ["anyOf", Nat.repr i]
  | allOf i => ["allOf", Nat.repr i]
  | items i => ["items", Nat.repr i]
  | type => ["type"]
  | enum => ["enum"]
  | enumValue i => ["enum", Nat.repr i]

/-- A word between slashes is the first token of a text. -/
lemma pointerTokens?_word (word rest : String) (hslash : '/' ∉ word.toList)
    (htilde : '~' ∉ word.toList) :
    Json.pointerTokens? ("/" ++ word ++ "/" ++ rest) =
      some (word :: (Text.splitOn '/' rest.toList).map Json.pointerToken) := by
  refine Json.pointerTokens?_eq_some.2 (.inr ⟨word.toList ++ '/' :: rest.toList, ?_, ?_⟩)
  · rw [String.append_assoc, String.append_assoc]
    simp only [String.toList_append]
    rfl
  · rw [Text.splitOn_append, Text.splitOn_of_notMem hslash, List.map_append, List.map_singleton,
      Json.pointerToken_of_notMem htilde, String.ofList_toList, List.singleton_append]

/-- A word and an index behind it are two tokens. -/
lemma pointerTokens?_word_index (word : String) (i : Nat) (hslash : '/' ∉ word.toList)
    (htilde : '~' ∉ word.toList) :
    Json.pointerTokens? ("/" ++ word ++ "/" ++ Nat.repr i) = some [word, Nat.repr i] := by
  rw [pointerTokens?_word word _ hslash htilde, Text.splitOn_of_notMem (Json.notMem_repr rfl i),
    List.map_singleton, Json.pointerToken_repr]

lemma pointerTokens?_text (step : NodeStep) : Json.pointerTokens? step.text = some step.tokens := by
  cases step with
  | property name => exact pointerTokens?_word "properties" name (by decide) (by decide)
  | anyOf i => exact pointerTokens?_word_index "anyOf" i (by decide) (by decide)
  | allOf i => exact pointerTokens?_word_index "allOf" i (by decide) (by decide)
  | items i => exact pointerTokens?_word_index "items" i (by decide) (by decide)
  | type | enum => rfl
  | enumValue i => exact pointerTokens?_word_index "enum" i (by decide) (by decide)

/-- A path is read as the tokens of its steps. -/
lemma pointerTokens?_pathText (steps : List NodeStep) :
    Json.pointerTokens? (pathText steps) = some (steps.flatMap tokens) := by
  induction steps with
  | nil => rfl
  | cons step rest ih =>
    have hcons : pathText (step :: rest) = step.text ++ pathText rest := String.join_cons
    rw [hcons, List.flatMap_cons]
    exact Json.pointerTokens?_append (pointerTokens?_text step) ih

end NodeStep

namespace Json

/-! ## The places of steps -/

/-- Where a step leads in a value.  Items that are not in a list are under the keyword itself, and a
document whose root is a list has its entries in the first item. -/
def stepTokens (v : Json) : NodeStep → List String
  | .property name =>
    match v with
    | array _ => ["0", name]
    | _ => ["properties", name]
  | .anyOf i => ["anyOf", Nat.repr i]
  | .allOf i => ["allOf", Nat.repr i]
  | .items i =>
    match v.under .items with
    | array _ => ["items", Nat.repr i]
    | _ => ["items"]
  | .type => ["type"]
  | .enum => ["enum"]
  | .enumValue i => ["enum", Nat.repr i]

/-- Where some steps lead, one after the other. -/
def location (v : Json) : List NodeStep → List String
  | [] => []
  | step :: rest =>
    v.stepTokens step ++
      match v.at? (v.stepTokens step) with
      | some w => w.location rest
      | none => []

/-- The text of a step is a pointer to where it leads: a name must stand for itself, and the items
must be a list. -/
def Spells (v : Json) : NodeStep → Prop
  | .property name =>
    (∀ items, v ≠ array items) ∧ '/' ∉ name.toList ∧ pointerToken name.toList = name
  | .items _ => ∃ items, v.under .items = array items
  | _ => True

/-- The text of every step on the way is a pointer to where it leads. -/
def SpellsAll (v : Json) : List NodeStep → Prop
  | [] => True
  | step :: rest =>
    v.Spells step ∧ ∀ w, v.at? (v.stepTokens step) = some w → w.SpellsAll rest

lemma location_cons {v w : Json} {step : NodeStep} (h : v.at? (v.stepTokens step) = some w)
    (rest : List NodeStep) : v.location (step :: rest) = v.stepTokens step ++ w.location rest := by
  rw [location, h]

lemma spellsAll_cons {v w : Json} {step : NodeStep} (h : v.at? (v.stepTokens step) = some w)
    (rest : List NodeStep) : v.SpellsAll (step :: rest) ↔ v.Spells step ∧ w.SpellsAll rest := by
  rw [SpellsAll, h]
  simp only [Option.some.injEq, forall_eq']

/-- A place that some steps lead to is reached through the place of the first of them. -/
lemma exists_at?_of_cons {v place : Json} {step : NodeStep} {rest : List NodeStep}
    (h : v.at? (v.location (step :: rest)) = some place) :
    ∃ w, v.at? (v.stepTokens step) = some w ∧ w.at? (w.location rest) = some place := by
  rw [location, at?_append] at h
  obtain ⟨w, hw, hplace⟩ := Option.bind_eq_some_iff.1 h
  rw [hw] at hplace
  exact ⟨w, hw, hplace⟩

/-- The text of a step has at least as many tokens as its place. -/
lemma length_stepTokens_le (v : Json) (step : NodeStep) :
    (v.stepTokens step).length ≤ step.tokens.length := by
  cases step with
  | property name =>
    have hpieces := Text.length_splitOn '/' name.toList
    have htokens : (NodeStep.tokens (.property name)).length =
        (Text.splitOn '/' name.toList).length + 1 := by
      rw [NodeStep.tokens, List.length_cons, List.length_map]
    have hplace : (v.stepTokens (.property name)).length = 2 := by
      unfold stepTokens
      cases v <;> rfl
    omega
  | items i =>
    unfold stepTokens
    dsimp only
    split
    · exact Nat.le_refl _
    · exact Nat.le_succ 1
  | anyOf | allOf | type | enum | enumValue => exact Nat.le_refl _

/-- A name is read as itself exactly if it has no slash and nothing that is escaped. -/
lemma map_splitOn_eq_singleton {name : String} :
    (Text.splitOn '/' name.toList).map pointerToken = [name] ↔
      '/' ∉ name.toList ∧ pointerToken name.toList = name := by
  constructor
  · intro h
    have hlength := congrArg List.length h
    rw [List.length_map, Text.length_splitOn, List.length_singleton, Nat.add_eq_right,
      List.count_eq_zero] at hlength
    rw [Text.splitOn_of_notMem hlength] at h
    exact ⟨hlength, (List.cons.inj h).1⟩
  · rintro ⟨hslash, hname⟩
    rw [Text.splitOn_of_notMem hslash, List.map_singleton, hname]

/-- The text of a step is read as its place exactly if it spells it. -/
lemma tokens_eq_iff (v : Json) (step : NodeStep) :
    step.tokens = v.stepTokens step ↔ v.Spells step := by
  cases step with
  | property name =>
    by_cases harray : ∃ items, v = array items
    · obtain ⟨items, rfl⟩ := harray
      refine iff_of_false (fun h => ?_) fun h => h.1 items rfl
      exact absurd (List.cons.inj h).1 (by decide)
    · have hplace : v.stepTokens (.property name) = ["properties", name] := by
        unfold stepTokens
        cases v with
        | array items => exact absurd ⟨items, rfl⟩ harray
        | _ => rfl
      rw [hplace, NodeStep.tokens, List.cons.injEq, and_iff_right rfl, map_splitOn_eq_singleton]
      exact (and_iff_right (not_exists.1 harray)).symm
  | items i =>
    unfold stepTokens Spells
    dsimp only
    split
    · rename_i items hitems
      exact iff_of_true rfl ⟨items, hitems⟩
    · rename_i hitems
      exact iff_of_false (fun h => List.cons_ne_nil _ _ (List.cons.inj h).2)
        fun ⟨items, h⟩ => hitems items h
  | anyOf | allOf | type | enum | enumValue => exact iff_of_true rfl trivial

lemma append_eq_append_iff_of_length_le {α : Type} {as bs cs ds : List α}
    (hfirst : cs.length ≤ as.length) (hrest : ds.length ≤ bs.length) :
    as ++ bs = cs ++ ds ↔ as = cs ∧ bs = ds := by
  constructor
  · intro h
    have hlength := congrArg List.length h
    rw [List.length_append, List.length_append] at hlength
    exact List.append_inj h (by omega)
  · rintro ⟨rfl, rfl⟩
    rfl

/-- The same for all steps. -/
lemma flatMap_tokens_eq_iff {v place : Json} {steps : List NodeStep}
    (h : v.at? (v.location steps) = some place) :
    (v.location steps).length ≤ (steps.flatMap NodeStep.tokens).length ∧
      (steps.flatMap NodeStep.tokens = v.location steps ↔ v.SpellsAll steps) := by
  induction steps generalizing v with
  | nil => exact ⟨Nat.le_refl _, iff_of_true rfl trivial⟩
  | cons step rest ih =>
    obtain ⟨w, hw, hplace⟩ := exists_at?_of_cons h
    obtain ⟨hlength, hrest⟩ := ih hplace
    have hstep := v.length_stepTokens_le step
    rw [location_cons hw, List.flatMap_cons, spellsAll_cons hw]
    constructor
    · rw [List.length_append, List.length_append]
      omega
    · rw [append_eq_append_iff_of_length_le hstep hlength, tokens_eq_iff, hrest]

/-! ## Flaws of values -/

end Json

/-- The JSON value that spells a type. -/
def OneOrMany.toJson : OneOrMany String → Json
  | one word => .string word
  | many words => .array (words.map .string)

namespace Json

/-- What is wrong with a schema node, and the steps to the part that is to blame, which is given. -/
inductive Flawed (v : Json) : List NodeStep → Json → Flaw → Prop
  | noType (alone : ∀ k ∈ [Keyword.ref, .type, .properties, .allOf, .anyOf], ¬v.Gives k) :
    Flawed v [] v .noType
  | emptyTypeList (type : v.under .type = .array []) : Flawed v [.type] (.array []) .emptyTypeList
  | unknownType {types : OneOrMany String} {name : String} (type : v.under .type = types.toJson)
    (named : name ∈ types.toList) (unknown : Kind.ofKeyword? name = none) :
    Flawed v [.type] types.toJson (.unknownType name)
  | emptyEnum (enum : v.under .enum = .array []) : Flawed v [.enum] (.array []) .emptyEnum
  | literalOfOtherKind {types : OneOrMany String} {name : String} {kind : Kind}
    {values : List Json} {i : Nat} {value : Json} (type : v.under .type = types.toJson)
    (single : types.toList = [name]) (known : Kind.ofKeyword? name = some kind)
    (enum : v.under .enum = .array values) (value_eq : values[i]? = some value)
    (other : Node.literal? kind value = none) :
    Flawed v [.enumValue i] value (.literalOfOtherKind value kind)

/-- A schema node or one inside it is flawed, and the steps lead to the part that is to blame. -/
inductive FlawAt : Json → List NodeStep → Json → Flaw → Prop
  | here {v place : Json} {steps : List NodeStep} {cause : Flaw}
    (h : v.Flawed steps place cause) : FlawAt v steps place cause
  | inside {v w place : Json} {step : NodeStep} {steps : List NodeStep} {cause : Flaw}
    (node : step.entersNode = true) (h : v.at? (v.stepTokens step) = some w)
    (flaw : w.FlawAt steps place cause) : FlawAt v (step :: steps) place cause

variable {v w place : Json} {steps : List NodeStep} {cause : Flaw}

lemma location_singleton (v : Json) (step : NodeStep) : v.location [step] = v.stepTokens step := by
  rw [location]
  split <;> exact List.append_nil _

/-- What is under a keyword is a child, unless it is `null`. -/
lemma child?_of_under {k : Keyword} (h : v.under k = w) (hw : w ≠ .null) :
    v.child? k.key = some w := by
  cases v with
  | object members =>
    show members.lookup k.key = some w
    have hvalue : (members.lookup k.key).getD .null = w := h
    cases hlookup : members.lookup k.key with
    | none =>
      rw [hlookup] at hvalue
      exact absurd hvalue.symm hw
    | some value =>
      rw [hlookup] at hvalue
      exact congrArg some hvalue
  | _ => exact absurd h.symm hw

/-- An item of the list under a keyword. -/
lemma at?_index {k : Keyword} {values : List Json} (h : v.under k = array values) (i : Nat) :
    v.at? [k.key, Nat.repr i] = values[i]? := by
  rw [at?_cons, child?_of_under h nofun, Option.bind_some]
  exact child?_repr values i

/-- The place of a flaw is the part that is to blame. -/
lemma Flawed.at?_location (h : v.Flawed steps place cause) :
    v.at? (v.location steps) = some place := by
  cases h with
  | noType => rfl
  | emptyTypeList type =>
    rw [location_singleton]
    exact child?_of_under type nofun
  | @unknownType types _ type =>
    rw [location_singleton]
    refine child?_of_under type ?_
    cases types <;> nofun
  | emptyEnum enum =>
    rw [location_singleton]
    exact child?_of_under enum nofun
  | @literalOfOtherKind _ _ _ _ i _ _ _ _ enum value_eq =>
    rw [location_singleton]
    exact (at?_index enum i).trans value_eq

lemma FlawAt.at?_location (h : v.FlawAt steps place cause) :
    v.at? (v.location steps) = some place := by
  induction h with
  | here h => exact h.at?_location
  | inside _ h _ ih => rw [location_cons h, at?_append, h, Option.bind_some, ih]

lemma valid_at? (hv : v.Valid) {tokens : List String} (h : v.at? tokens = some w) : w.Valid := by
  induction tokens generalizing v with
  | nil =>
    cases h
    exact hv
  | cons token rest ih =>
    rw [at?_cons] at h
    obtain ⟨u, hu, hw⟩ := Option.bind_eq_some_iff.1 h
    exact ih (valid_child? hv hu) hw

end Json

/-! ## Flaws of nodes in their values -/

namespace Node

variable {v place : Json} {node inner : Node} {step : NodeStep} {steps : List NodeStep}
  {cause : Flaw}

lemma exists_at?_of_property (hv : v.Valid) (hread : read v = .ok node) {name : String}
    (h : node.step? (.property name) = some inner) :
    ∃ w, v.at? (v.stepTokens (.property name)) = some w ∧ read w = .ok inner := by
  have hreads : Reads .properties (v.under .properties) (.properties node.properties) :=
    reads_entry hv hread (by decide)
  generalize hunder : v.under .properties = value at hreads
  rw [step?] at h
  generalize node.properties = properties at hreads h
  cases hreads with
  | null => cases h
  | @properties members nodes each =>
    obtain ⟨w, hw, hreadInner⟩ := exists_lookup_of_forall₂ (r := fun v n => read v = .ok n) each h
    have hplace : v.stepTokens (.property name) = ["properties", name] := by
      cases v with
      | object => rfl
      | _ => cases hread
    have hchild : v.child? "properties" = some (.object members) :=
      Json.child?_of_under hunder (by simp)
    refine ⟨w, ?_, hreadInner⟩
    rw [hplace, Json.at?_cons, hchild, Option.bind_some]
    exact hw

/-- The node that is read from an item of the list under a keyword. -/
lemma exists_at?_of_list {k : Keyword} {values : List Json} {nodes : List Node} {i : Nat}
    (hunder : v.under k = .array values)
    (each : List.Forall₂ (fun v n => read v = .ok n) values nodes) (h : nodes[i]? = some inner) :
    ∃ w, v.at? [k.key, Nat.repr i] = some w ∧ read w = .ok inner := by
  obtain ⟨w, hw, hreadInner⟩ := exists_getElem?_of_forall₂ each h
  exact ⟨w, (Json.at?_index hunder i).trans hw, hreadInner⟩

lemma exists_at?_of_items (hv : v.Valid) (hread : read v = .ok node) {i : Nat}
    (h : node.step? (.items i) = some inner) :
    ∃ w, v.at? (v.stepTokens (.items i)) = some w ∧ read w = .ok inner := by
  have hreads : Reads .items (v.under .items) (.items node.items) :=
    reads_entry hv hread (by decide)
  rw [step?] at h
  unfold Json.stepTokens
  dsimp only
  generalize hunder : v.under .items = value at hreads ⊢
  generalize node.items = items at hreads h
  cases hreads with
  | null => cases h
  | @itemsOne members n one =>
    have hinner : [n][i]? = some inner := h
    rw [List.mem_singleton.1 (List.mem_of_getElem? hinner)]
    exact ⟨.object members, Json.child?_of_under hunder (by simp), one⟩
  | itemsMany each => exact exists_at?_of_list hunder each h

/-- The node that a step leads to is read from the value that it leads to. -/
lemma exists_at?_of_step? (hv : v.Valid) (hread : read v = .ok node)
    (h : node.step? step = some inner) :
    step.entersNode = true ∧ ∃ w, v.at? (v.stepTokens step) = some w ∧ read w = .ok inner := by
  cases step with
  | property name => exact ⟨rfl, exists_at?_of_property hv hread h⟩
  | items i => exact ⟨rfl, exists_at?_of_items hv hread h⟩
  | anyOf i =>
    have hreads : Reads .anyOf (v.under .anyOf) (.anyOf node.anyOf) :=
      reads_entry hv hread (by decide)
    generalize hunder : v.under .anyOf = value at hreads
    rw [step?] at h
    generalize node.anyOf = nodes at hreads h
    cases hreads with
    | null => cases h
    | anyOf each => exact ⟨rfl, exists_at?_of_list hunder each h⟩
  | allOf i =>
    have hreads : Reads .allOf (v.under .allOf) (.allOf node.allOf) :=
      reads_entry hv hread (by decide)
    generalize hunder : v.under .allOf = value at hreads
    rw [step?] at h
    generalize node.allOf = nodes at hreads h
    cases hreads with
    | null => cases h
    | allOf each => exact ⟨rfl, exists_at?_of_list hunder each h⟩
  | type | enum | enumValue => cases h

lemma Reads.eq_toJson {value : Json} {e : Entry} (h : Reads .type value e)
    {types : OneOrMany String} (he : e = .type (some types)) : value = types.toJson := by
  cases h <;> cases he <;> rfl

lemma Reads.eq_array {value : Json} {e : Entry} (h : Reads .enum value e) {values : List Json}
    (he : e = .enum (some values)) : value = .array values := by
  cases h <;> cases he
  rfl

/-- A flaw of a node is one of its value. -/
lemma Flawed.exists_json (hv : v.Valid) (hread : read v = .ok node)
    (h : node.Flawed steps cause) : ∃ place, v.Flawed steps place cause := by
  have htype {types : OneOrMany String} (h : node.type = some types) :
      v.under .type = types.toJson :=
    (reads_entry hv hread (k := .type) nofun).eq_toJson (congrArg Entry.type h)
  have henum {values : List Json} (h : node.enum = some values) : v.under .enum = .array values :=
    (reads_entry hv hread (k := .enum) nofun).eq_array (congrArg Entry.enum h)
  cases h with
  | noType alone =>
    refine ⟨v, .noType fun k hk => not_gives_of_lacks hv hread alone hk ?_⟩
    rintro rfl
    simp at hk
  | emptyTypeList type => exact ⟨_, .emptyTypeList (htype type)⟩
  | unknownType type named unknown => exact ⟨_, .unknownType (htype type) named unknown⟩
  | emptyEnum enum => exact ⟨_, .emptyEnum (henum enum)⟩
  | literalOfOtherKind type single known enum value_eq other =>
    exact ⟨_, .literalOfOtherKind (htype type) single known (henum enum) value_eq other⟩

lemma FlawAt.exists_json (hv : v.Valid) (hread : read v = .ok node)
    (h : node.FlawAt steps cause) : ∃ place, v.FlawAt steps place cause := by
  induction h generalizing v with
  | here h =>
    obtain ⟨place, hplace⟩ := h.exists_json hv hread
    exact ⟨place, .here hplace⟩
  | inside h _ ih =>
    obtain ⟨henters, w, hw, hreadInner⟩ := exists_at?_of_step? hv hread h
    obtain ⟨place, hplace⟩ := ih (Json.valid_at? hv hw) hreadInner
    exact ⟨place, .inside henters hw hplace⟩

end Node
end TypedSchema
