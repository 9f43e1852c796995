import TypedSchema.Proofs.Node.Classification

/-!
# Where the flaw of a rejected node is

A node is rejected for a flaw of its own or for one of a node inside it, and the steps of the
rejection lead there (`Node.FlawAt`).  `Node.flawed_or_inner` says so for one node,
`Node.flawAt_of_classify` for the whole tree, by induction on the steps.
-/

namespace TypedSchema

namespace Node

/-! ## Steps -/

/-- The node that a step leads to. -/
def step? (node : Node) : NodeStep → Option Node
  | .property name => (node.properties.getD []).lookup name
  | .anyOf i => (node.anyOf.getD [])[i]?
  | .allOf i => (node.allOf.getD [])[i]?
  | .items i => ((node.items.map OneOrMany.toList).getD [])[i]?
  | .type | .enum | .enumValue _ => none

/-- What is wrong with a node itself, and the steps to the part that is to blame. -/
inductive Flawed (node : Node) : List NodeStep → Flaw → Prop
  | noType (alone : node.Lacks [.ref, .type, .properties, .allOf, .anyOf]) :
    Flawed node [] .noType
  | emptyTypeList (type : node.type = some (.many [])) : Flawed node [.type] .emptyTypeList
  | unknownType {types : OneOrMany String} {name : String} (type : node.type = some types)
    (named : name ∈ types.toList) (unknown : Kind.ofKeyword? name = none) :
    Flawed node [.type] (.unknownType name)
  | emptyEnum (enum : node.enum = some []) : Flawed node [.enum] .emptyEnum
  | literalOfOtherKind {types : OneOrMany String} {name : String} {kind : Kind}
    {values : List Json} {i : Nat} {value : Json} (type : node.type = some types)
    (single : types.toList = [name]) (known : Kind.ofKeyword? name = some kind)
    (enum : node.enum = some values) (value_eq : values[i]? = some value)
    (other : literal? kind value = none) :
    Flawed node [.enumValue i] (.literalOfOtherKind value kind)

/-- A node or one inside it is flawed, and the steps lead to the part that is to blame. -/
inductive FlawAt : Node → List NodeStep → Flaw → Prop
  | here {node : Node} {steps : List NodeStep} {cause : Flaw} (h : node.Flawed steps cause) :
    FlawAt node steps cause
  | inside {node inner : Node} {step : NodeStep} {steps : List NodeStep} {cause : Flaw}
    (h : node.step? step = some inner) (flaw : inner.FlawAt steps cause) :
    FlawAt node (step :: steps) cause

/-- A node inside a node is rejected for a flaw. -/
def InnerFlaw (node : Node) (steps : List NodeStep) (cause : Flaw) : Prop :=
  ∃ step rest inner, steps = step :: rest ∧ node.step? step = some inner ∧
    classify inner = .error (.flaw rest cause)

variable {node : Node} {steps : List NodeStep} {cause : Flaw}

/-! ## Children -/

lemma under_eq_flaw {step : NodeStep} {rejection : Rejection} :
    rejection.under step = .flaw steps cause ↔
      ∃ rest, rejection = .flaw rest cause ∧ steps = step :: rest := by
  cases rejection with
  | misuse => exact iff_of_false nofun nofun
  | flaw rest cause' =>
    constructor
    · rintro ⟨⟩
      exact ⟨rest, rfl, rfl⟩
    · rintro ⟨_, ⟨⟩, rfl⟩
      rfl

/-- Members are refused for how they are combined, never for a flaw. -/
lemma classify_of_member_eq_flaw (h : (classify node >>= memberOf) = .error (.flaw steps cause)) :
    classify node = .error (.flaw steps cause) := by
  rcases bind_eq_error.1 h with h | ⟨s, -, hs⟩
  · exact h
  · unfold memberOf at hs
    split at hs <;> cases hs

/-- A list of nodes that is rejected for a flaw has an item that is rejected for it, one step
closer. -/
lemma exists_of_list_eq_flaw {β : Type} (f : Nat → List Node → Classified (List β))
    (g : Node → Classified β) (step : Nat → NodeStep) (hnil : ∀ i, f i [] = .ok [])
    (hcons : ∀ i n ns, f i (n :: ns) = do
      let b ← (g n).mapError (.under (step i))
      return b :: (← f (i + 1) ns))
    {nodes : List Node} (h : f 0 nodes = .error (.flaw steps cause)) :
    ∃ i rest inner, steps = step i :: rest ∧ nodes[i]? = some inner ∧
      g inner = .error (.flaw rest cause) := by
  obtain ⟨i, inner, rejection, hi, hinner, hunder⟩ :=
    exists_of_items_eq_error f g (fun i => .under (step i)) hnil hcons h
  obtain ⟨rest, rfl, hsteps⟩ := under_eq_flaw.1 hunder
  rw [Nat.zero_add] at hsteps
  exact ⟨i, rest, inner, hsteps, hi, hinner⟩

lemma innerFlaw_of_properties
    (hdistinct : ∀ nodes, node.properties = some nodes → (nodes.map Prod.fst).Nodup)
    (h : node.children.properties = .error (.flaw steps cause)) : node.InnerFlaw steps cause := by
  unfold children at h
  dsimp only at h
  split at h
  · cases h
  · rename_i nodes hproperties
    obtain ⟨⟨name, inner⟩, hmem, rejection, hinner, hunder⟩ :=
      exists_of_entries_eq_error classifyProperties classify (fun name => .under (.property name))
        rfl (fun _ _ _ => rfl) h
    obtain ⟨rest, rfl, rfl⟩ := under_eq_flaw.1 hunder
    refine ⟨.property name, rest, inner, rfl, ?_, hinner⟩
    rw [step?, hproperties]
    exact lookup_of_mem (hdistinct nodes hproperties) hmem

lemma innerFlaw_of_allOf (h : node.children.allOf = .error (.flaw steps cause)) :
    node.InnerFlaw steps cause := by
  unfold children at h
  dsimp only at h
  split at h
  · cases h
  · rename_i nodes hallOf
    obtain ⟨i, rest, inner, rfl, hi, hinner⟩ :=
      exists_of_list_eq_flaw classifyMembers (fun n => classify n >>= memberOf) .allOf
        (fun _ => rfl) (fun _ _ _ => rfl) (map_eq_error.1 h)
    refine ⟨.allOf i, rest, inner, rfl, ?_, classify_of_member_eq_flaw hinner⟩
    rw [step?, hallOf]
    exact hi

/-- A list of nodes that is rejected for a flaw has it in one of them, if its steps lead to them. -/
lemma innerFlaw_of_classifyList {step : Nat → NodeStep} {nodes : List Node}
    (hstep : ∀ i, node.step? (step i) = nodes[i]?)
    (h : classifyList step 0 nodes = .error (.flaw steps cause)) : node.InnerFlaw steps cause := by
  obtain ⟨i, rest, inner, rfl, hi, hinner⟩ :=
    exists_of_list_eq_flaw (classifyList step) classify step (fun _ => rfl) (fun _ _ _ => rfl) h
  exact ⟨step i, rest, inner, rfl, (hstep i).trans hi, hinner⟩

lemma innerFlaw_of_anyOf (h : node.children.anyOf = .error (.flaw steps cause)) :
    node.InnerFlaw steps cause := by
  unfold children at h
  dsimp only at h
  split at h
  · cases h
  · rename_i nodes hanyOf
    refine innerFlaw_of_classifyList (fun i => ?_) h
    rw [step?, hanyOf]
    rfl

lemma innerFlaw_of_items (h : node.children.items = .error (.flaw steps cause)) :
    node.InnerFlaw steps cause := by
  unfold children at h
  dsimp only at h
  split at h
  · cases h
  · rename_i inner hitems
    obtain ⟨rejection, hinner, hunder⟩ := mapError_eq_error.1 (map_eq_error.1 h)
    obtain ⟨rest, rfl, rfl⟩ := under_eq_flaw.1 hunder
    refine ⟨.items 0, rest, inner, rfl, ?_, hinner⟩
    rw [step?, hitems]
    rfl
  · rename_i nodes hitems
    refine innerFlaw_of_classifyList (fun i => ?_) h
    rw [step?, hitems]
    rfl

/-! ## One node -/

lemma innerFlaw_of_denoteObject
    (hdistinct : ∀ nodes, node.properties = some nodes → (nodes.map Prod.fst).Nodup)
    (h : node.denoteObject node.children = .error (.flaw steps cause)) :
    node.InnerFlaw steps cause := by
  unfold denoteObject at h
  rcases bind_eq_error.1 h with h | ⟨properties, -, h⟩
  · exact innerFlaw_of_properties hdistinct h
  · rcases bind_eq_error.1 h with h | ⟨allOf, -, h⟩
    · exact innerFlaw_of_allOf h
    · cases h

lemma kindOf_eq_error {name : String} {rejection : Rejection} :
    kindOf name = .error rejection ↔
      Kind.ofKeyword? name = none ∧ rejection = .flaw [.type] (.unknownType name) := by
  unfold kindOf
  cases Kind.ofKeyword? name with
  | some kind => exact iff_of_false nofun nofun
  | none => exact ⟨fun h => ⟨rfl, (Except.error.inj h).symm⟩, fun h => congrArg _ h.2.symm⟩

lemma kindOf_eq_ok {name : String} {kind : Kind} :
    kindOf name = .ok kind ↔ Kind.ofKeyword? name = some kind := by
  unfold kindOf
  cases Kind.ofKeyword? name with
  | some other =>
    exact ⟨fun h => congrArg _ (Except.ok.inj h), fun h => congrArg _ (Option.some.inj h)⟩
  | none => exact iff_of_false nofun nofun

/-- The first value that is no literal of the kind is to blame. -/
lemma literals_eq_error {kind : Kind} {i : Nat} {values : List Json} {rejection : Rejection}
    (h : literals kind i values = .error rejection) :
    ∃ j value, values[j]? = some value ∧ literal? kind value = none ∧
      rejection = .flaw [.enumValue (i + j)] (.literalOfOtherKind value kind) := by
  induction values generalizing i with
  | nil => cases h
  | cons value rest ih =>
    rw [literals] at h
    split at h
    · rename_i hnone
      cases h
      exact ⟨0, value, rfl, hnone, rfl⟩
    · obtain ⟨j, other, hj, hother, rfl⟩ := ih (map_eq_error.1 h)
      exact ⟨j + 1, other, hj, hother, by rw [Nat.add_right_comm, Nat.add_assoc]⟩

/-- The first unknown name in a list of types is to blame. -/
lemma kindsOf_eq_flaw {names : List String} (h : kindsOf names = .error (.flaw steps cause)) :
    ∃ name ∈ names, Kind.ofKeyword? name = none ∧ steps = [.type] ∧ cause = .unknownType name := by
  induction names with
  | nil => cases h
  | cons name rest ih =>
    rw [kindsOf] at h
    split at h
    · cases h
    · rcases bind_eq_error.1 h with h | ⟨kind, -, h⟩
      · obtain ⟨hunknown, hrejection⟩ := kindOf_eq_error.1 h
        cases hrejection
        exact ⟨name, List.mem_cons_self, hunknown, rfl, rfl⟩
      · rcases bind_eq_error.1 h with h | ⟨kinds, -, h⟩
        · obtain ⟨other, hother, hunknown⟩ := ih h
          exact ⟨other, List.mem_cons_of_mem _ hother, hunknown⟩
        · cases h

lemma flawed_of_enumValues {types : OneOrMany String} {name : String} {kind : Kind}
    (htype : node.type = some types) (hsingle : types.toList = [name])
    (hknown : Kind.ofKeyword? name = some kind)
    (h : enumValues kind node.enum = .error (.flaw steps cause)) : node.Flawed steps cause := by
  unfold enumValues at h
  split at h
  · cases h
  · rename_i henum
    cases h
    exact .emptyEnum henum
  · rename_i values hvalues henum
    obtain ⟨i, value, hi, hother, hrejection⟩ := literals_eq_error (map_eq_error.1 h)
    cases hrejection
    rw [Nat.zero_add]
    exact .literalOfOtherKind htype hsingle hknown henum hi hother

/-- The types of a node are those that it gives, unless it is an object for its properties. -/
lemma types?_eq_some {names : List String} (h : node.types? = some names) :
    (∃ types, node.type = some types ∧ types.toList = names) ∨
      node.type = none ∧ names = ["object"] := by
  unfold types? at h
  split at h
  · rename_i types htype
    cases h
    exact .inl ⟨types, htype, rfl⟩
  · rename_i htype
    split at h <;> cases h
    exact .inr ⟨htype, rfl⟩

lemma types?_eq_none (h : node.types? = none) : node.type = none ∧ node.properties = none := by
  unfold types? at h
  split at h
  · cases h
  · rename_i htype
    split at h
    · cases h
    · rename_i hproperties
      exact ⟨htype, Option.not_isSome_iff_eq_none.1 hproperties⟩

/-- A node of one type is flawed itself, or has a flaw inside. -/
lemma flawed_or_inner_of_denoteTyped
    (hdistinct : ∀ nodes, node.properties = some nodes → (nodes.map Prod.fst).Nodup)
    {name : String} (htypes : node.types? = some [name])
    (h : node.denoteTyped node.children name = .error (.flaw steps cause)) :
    node.Flawed steps cause ∨ node.InnerFlaw steps cause := by
  unfold denoteTyped at h
  split at h
  · cases h
  split at h
  · exact .inr (innerFlaw_of_denoteObject hdistinct (map_eq_error.1 h))
  rename_i hobject
  split at h
  · exact .inr (innerFlaw_of_items (map_eq_error.1 h))
  -- the type is given, because a node that is an object for its properties is none of a kind
  obtain ⟨types, htype, hsingle⟩ : ∃ types, node.type = some types ∧ types.toList = [name] := by
    refine (types?_eq_some htypes).resolve_right fun hnone => hobject ?_
    exact (List.cons.inj hnone.2).1
  left
  rcases bind_eq_error.1 h with h | ⟨kind, hkind, h⟩
  · obtain ⟨hunknown, hrejection⟩ := kindOf_eq_error.1 h
    cases hrejection
    exact .unknownType htype (hsingle ▸ List.mem_singleton_self name) hunknown
  · rcases bind_eq_error.1 h with h | ⟨enum, -, h⟩
    · exact flawed_of_enumValues htype hsingle (kindOf_eq_ok.1 hkind) h
    · cases h

/-- A node of several types is flawed only if one of them is unknown. -/
lemma flawed_of_denoteMultiType {names : List String} (htypes : node.types? = some names)
    (hseveral : names ≠ ["object"])
    (h : node.denoteMultiType names = .error (.flaw steps cause)) : node.Flawed steps cause := by
  obtain ⟨types, htype, rfl⟩ : ∃ types, node.type = some types ∧ types.toList = names :=
    (types?_eq_some htypes).resolve_right fun hnone => hseveral hnone.2
  unfold denoteMultiType at h
  split at h
  · cases h
  · obtain ⟨name, hname, hunknown, rfl, rfl⟩ := kindsOf_eq_flaw (map_eq_error.1 h)
    exact .unknownType htype hname hunknown

/-- A node that is decided by its types is flawed itself, or has a flaw inside. -/
lemma flawed_or_inner_of_denoteByType
    (hdistinct : ∀ nodes, node.properties = some nodes → (nodes.map Prod.fst).Nodup)
    (hundecided : node.Lacks [.ref, .anyOf, .allOf])
    (h : node.denoteByType node.children = .error (.flaw steps cause)) :
    node.Flawed steps cause ∨ node.InnerFlaw steps cause := by
  unfold denoteByType at h
  split at h
  case h_1 htypes =>
    cases h
    obtain ⟨htype, hproperties⟩ := types?_eq_none htypes
    refine .inl (.noType ?_)
    simp_all [Lacks, gives, entry, Entry.isGiven]
  case h_2 htypes =>
    cases h
    rcases types?_eq_some htypes with ⟨types, htype, hempty⟩ | ⟨-, hnames⟩
    · cases types with
      | one name => cases hempty
      | many names =>
        cases hempty
        exact .inl (.emptyTypeList htype)
    · cases hnames
  case h_3 name htypes => exact flawed_or_inner_of_denoteTyped hdistinct htypes h
  case h_4 names hempty hsingle htypes =>
    exact .inl (flawed_of_denoteMultiType htypes (hsingle "object") h)

/-- **A node that is rejected for a flaw has it itself, or has it inside.** -/
theorem flawed_or_inner (hnode : node.Valid) (h : classify node = .error (.flaw steps cause)) :
    node.Flawed steps cause ∨ node.InnerFlaw steps cause := by
  obtain ⟨hdistinct, -⟩ := hnode
  rw [classify_eq] at h
  unfold denote at h
  split at h
  · cases h
  split at h
  case h_1 target href =>
    unfold denoteRef at h
    split at h
    · cases h
    split at h
    · exact .inr (innerFlaw_of_denoteObject hdistinct (map_eq_error.1 h))
    split at h <;> cases h
  case h_2 href =>
    split at h
    · unfold denoteAnyOf at h
      split at h
      · cases h
      split at h
      · cases h
      · exact .inr (innerFlaw_of_anyOf (map_eq_error.1 h))
    rename_i hanyOf
    split at h
    · unfold denoteAllOf at h
      split at h
      · cases h
      · exact .inr (innerFlaw_of_denoteObject hdistinct (map_eq_error.1 h))
    · rename_i hallOf
      refine flawed_or_inner_of_denoteByType hdistinct ?_ h
      simp_all [Lacks, gives, entry, Entry.isGiven]

/-! ## Whole nodes -/

lemma valid_of_step? (hnode : node.Valid) {step : NodeStep} {inner : Node}
    (h : node.step? step = some inner) : inner.Valid := by
  obtain ⟨-, hproperties, hallOf, hanyOf, hitems, -⟩ := hnode
  cases step with
  | property name =>
    obtain ⟨nodes, hnodes, hmem⟩ := exists_of_mem_getD (mem_of_lookup h)
    exact hproperties nodes hnodes _ hmem
  | anyOf i =>
    obtain ⟨nodes, hnodes, hmem⟩ := exists_of_mem_getD (List.mem_of_getElem? h)
    exact hanyOf nodes hnodes inner hmem
  | allOf i =>
    obtain ⟨nodes, hnodes, hmem⟩ := exists_of_mem_getD (List.mem_of_getElem? h)
    exact hallOf nodes hnodes inner hmem
  | items i =>
    obtain ⟨_, hlisted, hmem⟩ := exists_of_mem_getD (List.mem_of_getElem? h)
    obtain ⟨items, hitem, rfl⟩ := Option.map_eq_some_iff.1 hlisted
    exact hitems items hitem inner hmem
  | type | enum | enumValue => cases h

/-- **The steps of a rejection lead to a flaw.** -/
theorem flawAt_of_classify (hnode : node.Valid) (h : classify node = .error (.flaw steps cause)) :
    node.FlawAt steps cause := by
  -- each flaw that is inside is as many steps closer
  induction steps generalizing node with
  | nil =>
    rcases flawed_or_inner hnode h with hflawed | ⟨_, _, _, ⟨⟩, _⟩
    exact .here hflawed
  | cons step rest ih =>
    rcases flawed_or_inner hnode h with hflawed | ⟨_, _, inner, ⟨⟩, hstep, hinner⟩
    · exact .here hflawed
    · exact .inside hstep (ih (valid_of_step? hnode hstep) hinner)

end Node
end TypedSchema
