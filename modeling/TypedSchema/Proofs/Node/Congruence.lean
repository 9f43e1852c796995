import TypedSchema.Proofs.Agreement
import TypedSchema.Proofs.Node.Classification
import TypedSchema.Proofs.Schema.Equality

/-!
# Nodes that say the same denote equal schemas

Classification looks at what a node says under its keywords, at the schemas of its children, and at
whether it has an unsupported keyword.  Where two nodes do not differ in this they are both
classified or both turned down (`Node.agrees_of_entries`).

Their schemas are equal up to the order of properties, or identical where that order is the same on
both sides.  `PropertyOrder` says which of the two is meant; every lemma here is about both.
-/

namespace TypedSchema

/-- Whether two nodes have to list their properties in one order. -/
inductive PropertyOrder where
  | kept
  | free

namespace PropertyOrder

variable {order : PropertyOrder}

/-- Identical schemas, or schemas that are equal up to order. -/
def Same : PropertyOrder → Schema → Schema → Prop
  | kept, s, t => s = t
  | free, s, t => (s == t) = true

/-- Identical members of a composition, or members that are equal up to order. -/
def SameMember : PropertyOrder → Member → Member → Prop
  | kept, m, n => m = n
  | free, m, n => (m == n) = true

/-- Entries that correspond one to one, in the order in which they are listed or in any. -/
def Entries {α β : Type} (order : PropertyOrder) (r : α → β → Prop) (xs : List (String × α))
    (ys : List (String × β)) : Prop :=
  match order with
  | kept => List.Forall₂ (SameName r) xs ys
  | free => Multiset.Rel (SameName r) (xs : Multiset (String × α)) (ys : Multiset (String × β))

lemma same_refl (s : Schema) : order.Same s s := by
  cases order with
  | kept => rfl
  | free => exact BEq.rfl

lemma sameMember_refl (m : Member) : order.SameMember m m := by
  cases order with
  | kept => rfl
  | free =>
    cases m with
    | ref target => exact beq_self_eq_true target
    | inline inner => exact (BEq.rfl : (inner == inner) = true)

lemma entries_refl {α : Type} {r : α → α → Prop} (hr : ∀ a, r a a) (xs : List (String × α)) :
    order.Entries r xs xs := by
  cases order with
  | kept => exact List.forall₂_same.2 fun x _ => ⟨rfl, hr x.2⟩
  | free => exact Multiset.rel_refl_of_refl_on fun x _ => ⟨rfl, hr x.2⟩

/-- Recursions over named entries agree if the values of corresponding ones do. -/
lemma agree_entries {α α' β β' ε δ ε' δ' : Type} {R : α' → β' → Prop}
    {x : Except ε (List (String × α'))} {y : Except δ (List (String × β'))}
    {f : α → Except ε' α'} {g : β → Except δ' β'} {as : List (String × α)}
    {bs : List (String × β)}
    (hx : ∀ cs, x = .ok cs ↔ List.Forall₂ (fun a c => a.1 = c.1 ∧ f a.2 = .ok c.2) as cs)
    (hy : ∀ ds, y = .ok ds ↔ List.Forall₂ (fun b d => b.1 = d.1 ∧ g b.2 = .ok d.2) bs ds)
    (h : order.Entries (fun a b => Agree R (f a) (g b)) as bs) : Agree (order.Entries R) x y := by
  simp only [← onValue_eq_ok] at hx hy
  cases order with
  | kept => exact agree_of_forall₂ hx hy (h.imp fun _ _ => SameName.agree_onValue)
  | free => exact agree_of_rel hx hy (h.mono fun _ _ _ _ => SameName.agree_onValue)

/-! ## Schemas made of equal parts -/

lemma eq_of_forall₂ {α : Type} {xs ys : List α} (h : List.Forall₂ (fun x y => x = y) xs ys) :
    xs = ys := by
  rwa [List.forall₂_eq_eq_eq] at h

lemma same_array {xs ys : List Schema} (h : List.Forall₂ order.Same xs ys) :
    order.Same (.array xs) (.array ys) := by
  cases order with
  | kept => exact congrArg Schema.array (eq_of_forall₂ h)
  | free =>
    show Schema.sameItems xs ys = true
    rw [Schema.sameItems_eq]
    exact isEqv_iff_forall₂.2 h

lemma same_anyOf {xs ys : List Schema} (h : List.Forall₂ order.Same xs ys) :
    order.Same (.anyOf xs) (.anyOf ys) := by
  cases order with
  | kept => exact congrArg Schema.anyOf (eq_of_forall₂ h)
  | free => exact Schema.anyOf_beq_iff.2 (rel_iff_exists_forall₂.2 ⟨ys, h, .refl ys⟩)

lemma same_object {id base : Option String} {xs ys : List (String × Schema)}
    {required : Option (List String)} {ms ns : Option (List Member)}
    (hproperties : order.Entries order.Same xs ys)
    (hallOf : Option.Rel (List.Forall₂ order.SameMember) ms ns) :
    order.Same (.object ⟨id, base, xs, required, ms⟩) (.object ⟨id, base, ys, required, ns⟩) := by
  cases order with
  | kept =>
    have hxs : xs = ys := eq_of_forall₂ (hproperties.imp fun _ _ hxy => Prod.ext hxy.1 hxy.2)
    have hms : ms = ns := by
      cases hallOf with
      | none => rfl
      | some h => rw [eq_of_forall₂ h]
    show Schema.object _ = Schema.object _
    rw [hxs, hms]
  | free =>
    refine ObjectSchema.beq_iff.2 ⟨rfl, rfl, ?_, hproperties, hallOf⟩
    cases required with
    | none => exact .none
    | some names => exact .some fun _ => Iff.rfl

/-- What is equal to a member of a composition can be an equal one. -/
lemma exists_memberOf_of_beq {s t : Schema} (h : (s == t) = true) {m : Member}
    (hm : Node.memberOf s = .ok m) : ∃ n, Node.memberOf t = .ok n ∧ (m == n) = true := by
  cases m with
  | ref target =>
    have htarget : (Member.ref target == Member.ref target) = true := beq_self_eq_true target
    refine ⟨.ref target, Node.memberOf_eq_ref.2 ?_, htarget⟩
    rcases Node.memberOf_eq_ref.1 hm with rfl | ⟨required, rfl⟩
    · cases t <;> try exact absurd h Bool.false_ne_true
      rename_i other
      have hother : (target == other) = true := h
      exact .inl (by rw [eq_of_beq hother])
    · cases t <;> try exact absurd h Bool.false_ne_true
      rename_i p
      obtain ⟨id, base, properties, required', allOf⟩ := p
      obtain ⟨hid, hbase, -, hproperties, hallOf⟩ := ObjectSchema.beq_iff.1 h
      obtain rfl : properties = [] :=
        (Multiset.coe_eq_zero _).1 (Multiset.rel_zero_left.1 hproperties)
      cases hid
      cases hbase
      cases hallOf
      exact .inr ⟨required', rfl⟩
  | inline inner =>
    obtain ⟨rfl, hbase⟩ := Node.memberOf_eq_inline.1 hm
    cases t <;> try exact absurd h Bool.false_ne_true
    rename_i p
    have hbase' : p.base = none := (ObjectSchema.beq_iff.1 h).base.symm.trans hbase
    exact ⟨.inline p, Node.memberOf_eq_inline.2 ⟨rfl, hbase'⟩, h⟩

/-- Equal schemas are equal members of a composition, or none. -/
lemma agree_memberOf {s t : Schema} (h : order.Same s t) :
    Agree order.SameMember (Node.memberOf s) (Node.memberOf t) := by
  cases order with
  | kept =>
    have hst : s = t := h
    rw [hst]
    exact .refl sameMember_refl _
  | free =>
    refine agree_iff.2 ⟨⟨?left, ?right⟩, ?same⟩
    case left =>
      rintro ⟨m, hm⟩
      obtain ⟨n, hn, -⟩ := exists_memberOf_of_beq h hm
      exact ⟨n, hn⟩
    case right =>
      rintro ⟨n, hn⟩
      obtain ⟨m, hm, -⟩ := exists_memberOf_of_beq (BEq.symm h) hn
      exact ⟨m, hm⟩
    case same =>
      intro m n hm hn
      obtain ⟨n', hn', hmn⟩ := exists_memberOf_of_beq h hm
      cases hn.symm.trans hn'
      exact hmn

end PropertyOrder

namespace Node

variable {order : PropertyOrder}

/-- Two nodes denote equal schemas, or neither denotes one. -/
def Agrees (order : PropertyOrder) (n m : Node) : Prop := Agree order.Same (classify n) (classify m)

lemma agrees_refl (n : Node) : Agrees order n n := .refl PropertyOrder.same_refl _

end Node

/-- Two entries say the same, up to nodes that agree. -/
inductive Entry.Agrees (order : PropertyOrder) : Entry → Entry → Prop
  | same (e : Entry) : Entry.Agrees order e e
  | properties {ns ms : List (String × Node)} (each : order.Entries (Node.Agrees order) ns ms) :
    Entry.Agrees order (.properties (some ns)) (.properties (some ms))
  | allOf {ns ms : List Node} (each : List.Forall₂ (Node.Agrees order) ns ms) :
    Entry.Agrees order (.allOf (some ns)) (.allOf (some ms))
  | anyOf {ns ms : List Node} (each : List.Forall₂ (Node.Agrees order) ns ms) :
    Entry.Agrees order (.anyOf (some ns)) (.anyOf (some ms))
  | itemsOne {n m : Node} (one : Node.Agrees order n m) :
    Entry.Agrees order (.items (some (.one n))) (.items (some (.one m)))
  | itemsMany {ns ms : List Node} (each : List.Forall₂ (Node.Agrees order) ns ms) :
    Entry.Agrees order (.items (some (.many ns))) (.items (some (.many ms)))

/-- Entries that say the same both have a value, or neither does. -/
lemma Entry.Agrees.isGiven {order : PropertyOrder} {e f : Entry} (h : e.Agrees order f) :
    e.isGiven = f.isGiven := by
  cases h <;> rfl

/-- Entries that are not made of nodes say the same only if they are the same. -/
lemma Entry.Agrees.eq {order : PropertyOrder} {e f : Entry} (h : e.Agrees order f)
    (hleaf : ∀ k ∈ [Keyword.properties, .allOf, .anyOf, .items], e.keyword? ≠ some k) :
    e = f := by
  cases h with
  | same => rfl
  | properties each => exact absurd rfl (hleaf .properties (by simp))
  | allOf each => exact absurd rfl (hleaf .allOf (by simp))
  | anyOf each => exact absurd rfl (hleaf .anyOf (by simp))
  | itemsOne one => exact absurd rfl (hleaf .items (by simp))
  | itemsMany each => exact absurd rfl (hleaf .items (by simp))

/-- Children that agree keyword by keyword. -/
structure Children.Agrees (order : PropertyOrder) (c d : Children) : Prop where
  properties : Agree (order.Entries order.Same) c.properties d.properties
  allOf : Agree (Option.Rel (List.Forall₂ order.SameMember)) c.allOf d.allOf
  anyOf : Agree (List.Forall₂ order.Same) c.anyOf d.anyOf
  items : Agree (List.Forall₂ order.Same) c.items d.items

namespace Node

variable {order : PropertyOrder} {n m : Node}

/-! ## Children -/

lemma agree_classifyMember {n m : Node} (h : n.Agrees order m) :
    Agree order.SameMember (classify n >>= memberOf) (classify m >>= memberOf) :=
  h.bind fun _ _ => PropertyOrder.agree_memberOf

lemma forall₂_sameMember_refl (ms : List Member) : List.Forall₂ order.SameMember ms ms :=
  List.forall₂_same.2 fun m _ => PropertyOrder.sameMember_refl m

lemma forall₂_same_refl (ss : List Schema) : List.Forall₂ order.Same ss ss :=
  List.forall₂_same.2 fun s _ => PropertyOrder.same_refl s

/-- Nodes that say the same have children that agree. -/
lemma children_agree (h : ∀ k, Entry.Agrees order (n.entry k) (m.entry k)) :
    n.children.Agrees order m.children := by
  unfold children
  refine ⟨?properties, ?allOf, ?anyOf, ?items⟩
  case properties =>
    have hentry : Entry.Agrees order (.properties n.properties) (.properties m.properties) :=
      h .properties
    generalize n.properties = ns at hentry ⊢
    generalize m.properties = ms at hentry ⊢
    cases hentry with
    | same => exact .refl (PropertyOrder.entries_refl PropertyOrder.same_refl) _
    | properties each =>
      exact PropertyOrder.agree_entries (fun _ => classifyProperties_eq_ok)
        (fun _ => classifyProperties_eq_ok) each
  case allOf =>
    have hentry : Entry.Agrees order (.allOf n.allOf) (.allOf m.allOf) := h .allOf
    generalize n.allOf = ns at hentry ⊢
    generalize m.allOf = ms at hentry ⊢
    cases hentry with
    | same =>
      refine .refl (fun o => ?_) _
      cases o with
      | none => exact .none
      | some ms => exact .some (forall₂_sameMember_refl ms)
    | allOf each =>
      have hmembers := each.imp fun _ _ => agree_classifyMember
      exact (agree_of_forall₂ (fun _ => classifyMembers_eq_ok) (fun _ => classifyMembers_eq_ok)
        hmembers).map fun _ _ => .some
  case anyOf =>
    have hentry : Entry.Agrees order (.anyOf n.anyOf) (.anyOf m.anyOf) := h .anyOf
    generalize n.anyOf = ns at hentry ⊢
    generalize m.anyOf = ms at hentry ⊢
    cases hentry with
    | same => exact .refl forall₂_same_refl _
    | anyOf each =>
      exact agree_of_forall₂ (fun _ => classifyList_eq_ok) (fun _ => classifyList_eq_ok) each
  case items =>
    have hentry : Entry.Agrees order (.items n.items) (.items m.items) := h .items
    generalize n.items = ns at hentry ⊢
    generalize m.items = ms at hentry ⊢
    cases hentry with
    | same => exact .refl forall₂_same_refl _
    | itemsOne one => exact one.mapError.map fun _ _ hst => .cons hst .nil
    | itemsMany each =>
      exact agree_of_forall₂ (fun _ => classifyList_eq_ok) (fun _ => classifyList_eq_ok) each

/-! ## Classification -/

/-- Two nodes have values under the same keywords, and where these are not made of nodes, the same
values. -/
structure SameKeywords (n m : Node) : Prop where
  id : n.id = m.id
  ref : n.ref = m.ref
  type : n.type = m.type
  required : n.required = m.required
  enum : n.enum = m.enum
  properties : n.properties.isSome = m.properties.isSome
  allOf : n.allOf.isSome = m.allOf.isSome
  anyOf : n.anyOf.isSome = m.anyOf.isSome
  items : n.items.isSome = m.items.isSome

section
variable {c d : Children} (h : n.SameKeywords m) (hchildren : c.Agrees order d)
include h

lemma SameKeywords.typeIs (keyword : String) : n.typeIs keyword = m.typeIs keyword := by
  unfold Node.typeIs
  rw [h.type]

lemma SameKeywords.hasForeignType : n.hasForeignType = m.hasForeignType := by
  unfold Node.hasForeignType
  rw [h.type, h.typeIs]

lemma SameKeywords.types? : n.types? = m.types? := by
  unfold Node.types?
  rw [h.type, h.properties]

lemma SameKeywords.foreignKeyword? (type : String) :
    n.foreignKeyword? type = m.foreignKeyword? type := by
  unfold Node.foreignKeyword?
  rw [h.properties, h.required, h.items, h.enum]

include hchildren

lemma agree_denoteObject :
    Agree (fun o p => order.Same (.object o) (.object p)) (n.denoteObject c)
      (m.denoteObject d) := by
  unfold denoteObject
  rw [h.id, h.ref, h.required]
  refine hchildren.properties.bind fun xs ys hproperties => ?_
  exact hchildren.allOf.bind fun ms ns hallOf => .ok (PropertyOrder.same_object hproperties hallOf)

lemma agree_denoteObject_map :
    Agree order.Same ((n.denoteObject c).map .object) ((m.denoteObject d).map .object) :=
  (agree_denoteObject h hchildren).map fun _ _ hsame => hsame

lemma agree_denoteRef (target : String) :
    Agree order.Same (n.denoteRef c target) (m.denoteRef d target) := by
  unfold denoteRef
  rw [h.anyOf, h.allOf, h.items, h.enum, h.properties, h.typeIs, h.type]
  exact .ite (.error _ _) (.ite (agree_denoteObject_map h hchildren)
    (.ite (.error _ _) (.ok (PropertyOrder.same_refl _))))

lemma agree_denoteAnyOf : Agree order.Same (n.denoteAnyOf c) (m.denoteAnyOf d) := by
  unfold denoteAnyOf
  rw [h.allOf, h.properties, h.items, h.enum, h.hasForeignType]
  exact .ite (.error _ _) (.ite (.error _ _)
    (hchildren.anyOf.map fun _ _ => PropertyOrder.same_anyOf))

lemma agree_denoteAllOf : Agree order.Same (n.denoteAllOf c) (m.denoteAllOf d) := by
  unfold denoteAllOf
  rw [h.hasForeignType]
  exact .ite (.error _ _) (agree_denoteObject_map h hchildren)

lemma agree_denoteTyped (type : String) :
    Agree order.Same (n.denoteTyped c type) (m.denoteTyped d type) := by
  unfold denoteTyped
  rw [h.foreignKeyword?]
  cases m.foreignKeyword? type with
  | some name => exact .error _ _
  | none =>
    rw [h.id, h.enum]
    exact .ite (agree_denoteObject_map h hchildren) (.ite
      (hchildren.items.map fun _ _ => PropertyOrder.same_array) (.refl PropertyOrder.same_refl _))

lemma agree_denoteByType : Agree order.Same (n.denoteByType c) (m.denoteByType d) := by
  unfold denoteByType
  rw [h.types?]
  match m.types? with
  | none => exact .error _ _
  | some [] => exact .error _ _
  | some [type] => exact agree_denoteTyped h hchildren type
  | some (type :: next :: rest) =>
    show Agree order.Same (n.denoteMultiType (type :: next :: rest))
      (m.denoteMultiType (type :: next :: rest))
    unfold denoteMultiType
    rw [h.enum, h.items, h.properties, h.required]
    exact .refl PropertyOrder.same_refl _

/-- Nodes with the same keywords denote equal schemas if their children agree, or none. -/
lemma agree_denote
    (hothers : ∀ key ∈ unsupportedKeywords, key ∈ n.others ↔ key ∈ m.others) :
    Agree order.Same (n.denote c) (m.denote d) := by
  have hunsupported : (n.others.find? unsupportedKeywords.contains).isSome =
      (m.others.find? unsupportedKeywords.contains).isSome := by
    rw [Bool.eq_iff_iff, List.find?_isSome, List.find?_isSome]
    simp only [List.contains_iff_mem]
    constructor
    · rintro ⟨key, hkey, hmem⟩
      exact ⟨key, (hothers key hmem).1 hkey, hmem⟩
    · rintro ⟨key, hkey, hmem⟩
      exact ⟨key, (hothers key hmem).2 hkey, hmem⟩
  unfold denote
  cases hn : n.others.find? unsupportedKeywords.contains <;>
    cases hm : m.others.find? unsupportedKeywords.contains <;> rw [hn, hm] at hunsupported
  case some.some => exact .error _ _
  case none.none =>
    rw [h.ref, h.anyOf, h.allOf]
    cases m.ref with
    | some target => exact agree_denoteRef h hchildren target
    | none =>
      exact .ite (agree_denoteAnyOf h hchildren)
        (.ite (agree_denoteAllOf h hchildren) (agree_denoteByType h hchildren))
  all_goals cases hunsupported

end

/-- Nodes that say the same under every keyword have the same keywords. -/
lemma sameKeywords_of_entries (h : ∀ k, Entry.Agrees order (n.entry k) (m.entry k)) :
    n.SameKeywords m where
  id := Entry.id.inj ((h .id).eq (by simp [entry, Entry.keyword?]))
  ref := Entry.ref.inj ((h .ref).eq (by simp [entry, Entry.keyword?]))
  type := Entry.type.inj ((h .type).eq (by simp [entry, Entry.keyword?]))
  required := Entry.required.inj ((h .required).eq (by simp [entry, Entry.keyword?]))
  enum := Entry.enum.inj ((h .enum).eq (by simp [entry, Entry.keyword?]))
  properties := (h .properties).isGiven
  allOf := (h .allOf).isGiven
  anyOf := (h .anyOf).isGiven
  items := (h .items).isGiven

/-- **Nodes that say the same denote equal schemas**, or none. -/
theorem agrees_of_entries (h : ∀ k, Entry.Agrees order (n.entry k) (m.entry k))
    (hothers : ∀ key ∈ unsupportedKeywords, key ∈ n.others ↔ key ∈ m.others) :
    n.Agrees order m := by
  rw [Agrees, classify_eq, classify_eq]
  exact agree_denote (sameKeywords_of_entries h) (children_agree h) hothers

end Node
end TypedSchema
