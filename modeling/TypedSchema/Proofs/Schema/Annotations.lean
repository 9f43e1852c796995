import TypedSchema.Proofs.Node.Congruence
import TypedSchema.Proofs.Schema.Written

/-!
# Annotations and the order of keys do not count

A JSON value is edited at its schema nodes: annotations come, go and change, and the other keys
change their order (`Json.Edited`).  `Document.agree_schemaOf` says that the value denotes the same
schema as before, or none as before.  If the properties of an object change their order as well, the
schemas are equal up to order.

An edit can reach every schema node and nothing else.  What is read below a keyword depends on the
keyword, so an edit is followed through the document together with the keyword that it is below
(`Json.EditedUnder`).  The induction over it shows that both values are read or neither is, to nodes
that denote the same (`Node.Agrees`).
-/

namespace TypedSchema

/-! ## Edits -/

/-- A key that neither spells a keyword nor restricts values. -/
def Json.IsAnnotation (key : String) : Prop :=
  Keyword.ofKey? key = none ∧ key ∉ unsupportedKeywords

/-- Names in one order, or in any. -/
def PropertyOrder.SameNames : PropertyOrder → List String → List String → Prop
  | kept, xs, ys => xs = ys
  | free, xs, ys => xs.Perm ys

mutual

/-- The right value is the left one as a schema node whose annotations were changed and whose keys
were put in another order, and which was edited below its keywords. -/
inductive Json.Edited (order : PropertyOrder) : Json → Json → Prop
  | same (v : Json) : Json.Edited order v v
  | node {members others : List (String × Json)}
    (keys : ∀ key, ¬Json.IsAnnotation key →
      (key ∈ members.map Prod.fst ↔ key ∈ others.map Prod.fst))
    (values : ∀ key a b, ¬Json.IsAnnotation key → members.lookup key = some a →
      others.lookup key = some b → Json.EditedUnder order (Keyword.ofKey? key) a b) :
    Json.Edited order (.object members) (.object others)

/-- The right value is the left one below a keyword, with the schema nodes in it edited: the values
of `properties`, the object or the items of `items`, and the items of `anyOf` and of `allOf`. -/
inductive Json.EditedUnder (order : PropertyOrder) : Option Keyword → Json → Json → Prop
  | same (k : Option Keyword) (v : Json) : Json.EditedUnder order k v v
  | properties {members others : List (String × Json)}
    (names : order.SameNames (members.map Prod.fst) (others.map Prod.fst))
    (values : ∀ name a b, members.lookup name = some a → others.lookup name = some b →
      Json.Edited order a b) :
    Json.EditedUnder order (some .properties) (.object members) (.object others)
  | item {v w : Json} (edited : Json.Edited order v w) : Json.EditedUnder order (some .items) v w
  | list {k : Keyword} {vs ws : List Json} (holds : k = .items ∨ k = .anyOf ∨ k = .allOf)
    (length : vs.length = ws.length)
    (each : ∀ (i : Nat) (v w : Json), vs[i]? = some v → ws[i]? = some w → Json.Edited order v w) :
    Json.EditedUnder order (some k) (.array vs) (.array ws)

end

/-! ## Entries and items -/

/-- Lists of one length correspond, if the items at each place do. -/
lemma forall₂_of_getElem? {α β : Type} {r : α → β → Prop} {as : List α} {bs : List β}
    (hlength : as.length = bs.length)
    (h : ∀ (i : Nat) (a : α) (b : β), as[i]? = some a → bs[i]? = some b → r a b) :
    List.Forall₂ r as bs := by
  refine List.forall₂_iff_get.2 ⟨hlength, fun i hi hj => ?_⟩
  exact h i _ _ (List.getElem?_eq_getElem hi) (List.getElem?_eq_getElem hj)

namespace PropertyOrder

variable {order : PropertyOrder}

/-- Maps of the same names correspond, if each name maps to related values. -/
lemma entries_of_lookup {α β : Type} {r : α → β → Prop} {xs : List (String × α)}
    {ys : List (String × β)} (hxs : (xs.map Prod.fst).Nodup) (hys : (ys.map Prod.fst).Nodup)
    (hnames : order.SameNames (xs.map Prod.fst) (ys.map Prod.fst))
    (h : ∀ name a b, xs.lookup name = some a → ys.lookup name = some b → r a b) :
    order.Entries r xs ys := by
  cases order with
  | kept =>
    have hsame : xs.map Prod.fst = ys.map Prod.fst := hnames
    have hlength : xs.length = ys.length := by simpa using congrArg List.length hsame
    refine forall₂_of_getElem? hlength fun i x y hx hy => ?_
    have hname : x.1 = y.1 := by
      have hat : (xs.map Prod.fst)[i]? = (ys.map Prod.fst)[i]? := by rw [hsame]
      simpa [hx, hy] using hat
    refine ⟨hname, h x.1 x.2 y.2 (lookup_of_mem hxs (List.mem_of_getElem? hx)) ?_⟩
    rw [hname]
    exact lookup_of_mem hys (List.mem_of_getElem? hy)
  | free =>
    have hperm : (xs.map Prod.fst).Perm (ys.map Prod.fst) := hnames
    refine rel_of_lookup hxs hys fun name => ?_
    have hboth : xs.lookup name = none ↔ ys.lookup name = none := by
      rw [lookup_eq_none, lookup_eq_none, hperm.mem_iff]
    cases hx : xs.lookup name <;> cases hy : ys.lookup name <;> rw [hx, hy] at hboth
    case none.none => exact .none
    case some.some a b => exact .some (h name a b hx hy)
    all_goals simp at hboth

end PropertyOrder

/-! ## Reading -/

namespace Node

variable {order : PropertyOrder}

/-- Under a keyword, a mismatch in an object of `items` is not told apart from others. -/
lemma readEntry_items_object (key : String) (members : List (String × Json)) :
    readEntry key (some .items) (.object members) =
      ((read (.object members)).map fun n => .items (some (.one n))).mapError
        fun _ => .here .neitherOneNorMany := by
  rw [readEntry, read]
  cases readEntries false members <;> rfl

lemma readEntry_items_array (key : String) (items : List Json) :
    readEntry key (some .items) (.array items) =
      ((readList 0 items).map fun nodes => .items (some (.many nodes))).mapError
        fun _ => .here .neitherOneNorMany := by
  rw [readEntry]
  cases readList 0 items <;> rfl

lemma agree_readList {vs ws : List Json}
    (h : List.Forall₂ (fun v w => Agree (Agrees order) (read v) (read w)) vs ws) :
    Agree (List.Forall₂ (Agrees order)) (readList 0 vs) (readList 0 ws) :=
  agree_of_forall₂ (fun _ => readList_eq_ok) (fun _ => readList_eq_ok) h

/-- An object can be read key by key if the values of its keywords can. -/
lemma readable_iff {members : List (String × Json)} (hdistinct : (members.map Prod.fst).Nodup) :
    (∀ m ∈ members, ∃ e, readEntry m.1 (Keyword.ofKey? m.1) m.2 = .ok e) ↔
      ∀ key k, Keyword.ofKey? key = some k → ∀ a, members.lookup key = some a →
        ∃ e, readEntry key (some k) a = .ok e := by
  constructor
  · intro h key k hk a ha
    have hread := h (key, a) (mem_of_lookup ha)
    rwa [hk] at hread
  · intro h m hm
    cases hk : Keyword.ofKey? m.1 with
    | none => exact ⟨.other m.1, by rw [readEntry]⟩
    | some k => exact h m.1 k hk m.2 (lookup_of_mem hdistinct hm)

lemma not_isAnnotation_of_ofKey? {key : String} {k : Keyword} (h : Keyword.ofKey? key = some k) :
    ¬Json.IsAnnotation key := by
  rintro ⟨hnone, -⟩
  rw [h] at hnone
  cases hnone

section Object

variable {members others : List (String × Json)} (hmembers : (members.map Prod.fst).Nodup)
  (hothers : (others.map Prod.fst).Nodup)
  (keys : ∀ key, ¬Json.IsAnnotation key →
    (key ∈ members.map Prod.fst ↔ key ∈ others.map Prod.fst))
  (values : ∀ key a b, ¬Json.IsAnnotation key → members.lookup key = some a →
    others.lookup key = some b → Agree (Entry.Agrees order)
      (readEntry key (Keyword.ofKey? key) a) (readEntry key (Keyword.ofKey? key) b))

include keys

/-- A keyword has a value on both sides or on none. -/
lemma lookup_cases {key : String} {k : Keyword} (hk : Keyword.ofKey? key = some k) :
    (members.lookup key = none ∧ others.lookup key = none) ∨
      ∃ a b, members.lookup key = some a ∧ others.lookup key = some b := by
  have hboth : members.lookup key = none ↔ others.lookup key = none := by
    rw [lookup_eq_none, lookup_eq_none, keys key (not_isAnnotation_of_ofKey? hk)]
  cases hm : members.lookup key <;> cases ho : others.lookup key <;> rw [hm, ho] at hboth
  case none.none => exact .inl ⟨rfl, rfl⟩
  case some.some a b => exact .inr ⟨a, b, rfl, rfl⟩
  all_goals simp at hboth

include hmembers hothers

lemma length_idKeys : (idKeys members).length = (idKeys others).length := by
  refine List.Perm.length_eq ((List.perm_ext_iff_of_nodup (hmembers.filter _)
    (hothers.filter _)).2 fun key => ?_)
  simp only [List.mem_filter, decide_eq_true_eq]
  constructor
  · rintro ⟨hkey, hid⟩
    exact ⟨(keys key (not_isAnnotation_of_ofKey? hid)).1 hkey, hid⟩
  · rintro ⟨hkey, hid⟩
    exact ⟨(keys key (not_isAnnotation_of_ofKey? hid)).2 hkey, hid⟩

include values

lemma exists_readEntries_congr :
    (∃ es, readEntries false members = .ok es) ↔ ∃ es, readEntries false others = .ok es := by
  rw [exists_readEntries_iff, exists_readEntries_iff, readable_iff hmembers, readable_iff hothers,
    length_idKeys hmembers hothers keys]
  refine and_congr_left fun _ => forall_congr' fun key => forall_congr' fun k => ?_
  refine forall_congr' fun hk => ?_
  rcases lookup_cases keys hk with ⟨hm, ho⟩ | ⟨a, b, hm, ho⟩
  · simp [hm, ho]
  · have hagree := values key a b (not_isAnnotation_of_ofKey? hk) hm ho
    rw [hk] at hagree
    simp only [hm, ho, Option.some.injEq, forall_eq']
    exact (agree_iff.1 hagree).1

/-- What is read from both objects says the same under each keyword. -/
lemma entry_agrees {es fs : List Entry} (hes : readEntries false members = .ok es)
    (hfs : readEntries false others = .ok fs) (k : Keyword) :
    Entry.Agrees order ((ofEntries es).entry k) ((ofEntries fs).entry k) := by
  by_cases hkey : ∃ key ∈ members.map Prod.fst, Keyword.ofKey? key = some k
  · obtain ⟨key, hmem, hk⟩ := hkey
    rcases lookup_cases keys hk with ⟨hm, -⟩ | ⟨a, b, hm, ho⟩
    · exact absurd hmem (lookup_eq_none.1 hm)
    · have hagree := values key a b (not_isAnnotation_of_ofKey? hk) hm ho
      rw [hk] at hagree
      have ha := readEntry_foldl_of_mem hes hmembers (mem_of_lookup hm) hk {}
      have hb := readEntry_foldl_of_mem hfs hothers (mem_of_lookup ho) hk {}
      exact (agree_iff.1 hagree).2 _ _ ha hb
  · have hm : ∀ key ∈ members.map Prod.fst, Keyword.ofKey? key ≠ some k :=
      fun key hmem hk => hkey ⟨key, hmem, hk⟩
    have ho : ∀ key ∈ others.map Prod.fst, Keyword.ofKey? key ≠ some k := fun key hmem hk =>
      hkey ⟨key, (keys key (not_isAnnotation_of_ofKey? hk)).2 hmem, hk⟩
    rw [ofEntries, ofEntries, entry_foldl_of_notMem hes hm, entry_foldl_of_notMem hfs ho]
    exact .same _

/-- Objects whose keywords are read alike are read to nodes that agree. -/
lemma agree_read_object :
    Agree (Agrees order) (read (.object members)) (read (.object others)) := by
  rw [read, read]
  refine Agree.map (R := fun es fs => Agrees order (ofEntries es) (ofEntries fs)) ?_
    fun _ _ h => h
  refine agree_iff.2 ⟨exists_readEntries_congr hmembers hothers keys values, ?_⟩
  intro es fs hes hfs
  refine agrees_of_entries (entry_agrees hmembers hothers keys values hes hfs) fun key hkey => ?_
  have hnone := ofKey?_of_unsupported key hkey
  have hnot : ¬Json.IsAnnotation key := fun h => h.2 hkey
  have hboth := keys key hnot
  simp only [ofEntries, others_foldl hes, others_foldl hfs, List.nil_append, List.mem_filter, hnone,
    Option.isNone_none, and_true, hboth]

end Object

/-- What is edited is an object, if anything changes. -/
lemma eq_or_object_of_edited {v w : Json} (h : v.Edited order w) :
    v = w ∨ ∃ members others, v = .object members ∧ w = .object others := by
  cases h with
  | same => exact .inl rfl
  | node => exact .inr ⟨_, _, rfl, rfl⟩

mutual

/-- Edited values are both read, to nodes that agree, or neither is. -/
theorem agree_read : ∀ {v w : Json}, v.Edited order w → v.Valid → w.Valid →
    Agree (Agrees order) (read v) (read w)
  | _, _, .same v, _, _ => .refl agrees_refl _
  | .object _, .object _, .node keys values, hv, hw =>
    agree_read_object hv.distinct hw.distinct keys fun key a b hkey ha hb =>
      agree_readEntry key (values key a b hkey ha hb) (hv.members _ (mem_of_lookup ha))
        (hw.members _ (mem_of_lookup hb))

/-- Values that are edited below a keyword are both read under it, to entries that say the same, or
neither is. -/
theorem agree_readEntry (key : String) : ∀ {k : Option Keyword} {v w : Json},
    v.EditedUnder order k w → v.Valid → w.Valid →
      Agree (Entry.Agrees order) (readEntry key k v) (readEntry key k w)
  | _, _, _, .same _ v, _, _ => .refl Entry.Agrees.same _
  | _, .object members, .object others, .properties names values, hv, hw => by
    have heach : order.Entries (fun a b => Agree (Agrees order) (read a) (read b)) members others :=
      PropertyOrder.entries_of_lookup hv.distinct hw.distinct names fun name a b ha hb =>
        agree_read (values name a b ha hb) (hv.members _ (mem_of_lookup ha))
          (hw.members _ (mem_of_lookup hb))
    rw [readEntry, readEntry]
    exact (PropertyOrder.agree_entries (fun _ => readProperties_eq_ok)
      (fun _ => readProperties_eq_ok) heach).map fun _ _ => .properties
  | _, v, w, .item edited, hv, hw => by
    have hread := agree_read edited hv hw
    rcases eq_or_object_of_edited edited with rfl | ⟨members, others, rfl, rfl⟩
    · exact .refl Entry.Agrees.same _
    · rw [readEntry_items_object, readEntry_items_object]
      exact (hread.map fun _ _ => .itemsOne).mapError
  | _, .array vs, .array ws, .list holds length each, hv, hw => by
    have heach : List.Forall₂ (fun v w => Agree (Agrees order) (read v) (read w)) vs ws :=
      forall₂_of_getElem? length fun i v w hi hj =>
        agree_read (each i v w hi hj) (hv.items v (List.mem_of_getElem? hi))
          (hw.items w (List.mem_of_getElem? hj))
    have hlist := agree_readList heach
    rcases holds with rfl | rfl | rfl
    · rw [readEntry_items_array, readEntry_items_array]
      exact (hlist.map fun _ _ => .itemsMany).mapError
    · rw [readEntry, readEntry]
      exact hlist.map fun _ _ => .anyOf
    · rw [readEntry, readEntry]
      exact hlist.map fun _ _ => .allOf

end

end Node

/-- **Annotations and the order of keys do not count.**  A value that is edited at its schema nodes
denotes the schema that it denoted before, or none as before; if properties were reordered as well,
the schemas are equal up to order. -/
theorem Document.agree_schemaOf (path : String) {v w : Json} (hv : v.Valid) (hw : w.Valid) :
    (v.Edited .kept w →
      Agree (fun s t => s = t) (Document.schemaOf v path) (Document.schemaOf w path)) ∧
    (v.Edited .free w →
      Agree (fun s t => (s == t) = true) (Document.schemaOf v path)
        (Document.schemaOf w path)) := by
  have hsame (order : PropertyOrder) (h : v.Edited order w) :
      Agree order.Same (Document.schemaOf v path) (Document.schemaOf w path) :=
    (Node.agree_read h hv hw).mapError.bind fun n m hnm => hnm.mapError
  exact ⟨hsame .kept, hsame .free⟩

/-- An annotation can be added to any object. -/
lemma Json.Edited.annotated {order : PropertyOrder} {key : String} (h : Json.IsAnnotation key)
    (a : Json) (members : List (String × Json)) :
    (Json.object members).Edited order (.object ((key, a) :: members)) := by
  have hne {key' : String} (h' : ¬Json.IsAnnotation key') : key' ≠ key := by
    rintro rfl
    exact h' h
  refine .node (fun key' h' => ?_) fun key' b c h' hb hc => ?_
  · simp [hne h']
  · rw [List.lookup_cons, beq_eq_false_iff_ne.2 (hne h'), hb] at hc
    cases hc
    exact .same _ _

namespace Document

/-- A property that is a text. -/
def text : Json := .object [("type", .string "string")]

/-- The same property, with a description. -/
def describedText : Json := .object [("description", .string "A text."), ("type", .string "string")]

/-- A property that is an integer. -/
def number : Json := .object [("type", .string "integer")]

/-- An object with some properties. -/
def untitled (properties : List (String × Json)) : Json :=
  .object [("$id", .string "#Foo"), ("type", .string "object"), ("properties", .object properties)]

/-- The same object with a title, and its keys in another order. -/
def titled (properties : List (String × Json)) : Json :=
  .object [("title", .string "Foo"), ("properties", .object properties),
    ("type", .string "object"), ("$id", .string "#Foo")]

/-- An object of two properties. -/
def plainPair : Json := untitled [("a", text), ("b", number)]

/-- The same object, annotated at two nodes. -/
def annotatedPair : Json := titled [("a", describedText), ("b", number)]

/-- The annotated object, with its properties in another order. -/
def swappedPair : Json := titled [("b", number), ("a", describedText)]

/-- What an object with some properties denotes. -/
def pairSchema (properties : List (String × Schema)) : Schema :=
  .object { id := some "#Foo", properties }

/-- What the plain object denotes. -/
def plainSchema : Schema := pairSchema [("a", .ofKind .string), ("b", .ofKind .integer)]

/-- What it denotes once its properties changed places. -/
def swappedSchema : Schema := pairSchema [("b", .ofKind .integer), ("a", .ofKind .string)]

lemma untitled_valid {ps : List (String × Json)} (h : (Json.object ps).Valid) :
    (untitled ps).Valid := by
  refine .object (by simp) (List.forall_mem_cons.2 ⟨.string _, List.forall_mem_cons.2 ?_⟩)
  exact ⟨.string _, List.forall_mem_singleton.2 h⟩

lemma titled_valid {ps : List (String × Json)} (h : (Json.object ps).Valid) :
    (titled ps).Valid := by
  refine .object (by simp) (List.forall_mem_cons.2 ⟨.string _, List.forall_mem_cons.2 ⟨h, ?_⟩⟩)
  exact List.forall_mem_cons.2 ⟨.string _, List.forall_mem_singleton.2 (.string _)⟩

lemma untitled_edited {order : PropertyOrder} {ps qs : List (String × Json)}
    (h : Json.EditedUnder order (some .properties) (.object ps) (.object qs)) :
    (untitled ps).Edited order (titled qs) := by
  refine .node (fun key hkey => ?_) fun key a b _ ha hb => ?_
  · have htitle : key ≠ "title" := by
      rintro rfl
      exact hkey ⟨rfl, by decide⟩
    simp only [List.map_cons, List.map_nil, List.mem_cons, List.not_mem_nil, htitle]
    tauto
  · have hmem := mem_of_lookup ha
    simp only [List.mem_cons, List.not_mem_nil, Prod.mk.injEq, or_false] at hmem
    rcases hmem with ⟨rfl, rfl⟩ | ⟨rfl, rfl⟩ | ⟨rfl, rfl⟩ <;> cases hb
    · exact .same _ _
    · exact .same _ _
    · exact h

lemma pair_edited {order : PropertyOrder} {qs : List (String × Json)} {name : String} {a b : Json}
    (hdescribed : qs.lookup "a" = some describedText) (hnumber : qs.lookup "b" = some number)
    (ha : [("a", text), ("b", number)].lookup name = some a) (hb : qs.lookup name = some b) :
    a.Edited order b := by
  have hmem := mem_of_lookup ha
  simp only [List.mem_cons, List.not_mem_nil, Prod.mk.injEq, or_false] at hmem
  rcases hmem with ⟨rfl, rfl⟩ | ⟨rfl, rfl⟩
  · cases hdescribed.symm.trans hb
    exact .annotated ⟨rfl, by decide⟩ _ _
  · cases hnumber.symm.trans hb
    exact .same _

/-- A title, a description and another order leave the schema as it is; if the two properties change
places, it is another one, but equal up to order. -/
theorem agree_schemaOf_titled :
    plainPair.Valid ∧ annotatedPair.Valid ∧ swappedPair.Valid ∧
      plainPair.Edited .kept annotatedPair ∧ plainPair.Edited .free swappedPair ∧
      schemaOf plainPair "" = .ok plainSchema ∧ schemaOf annotatedPair "" = .ok plainSchema ∧
      schemaOf swappedPair "" = .ok swappedSchema ∧ (plainSchema == swappedSchema) = true ∧
      plainSchema ≠ swappedSchema := by
  have htext : text.Valid := valid_singleton (.string _)
  have hnumber : number.Valid := valid_singleton (.string _)
  have hdescribed : describedText.Valid := .object (by decide) (List.forall_mem_cons.2
    ⟨.string _, List.forall_mem_singleton.2 (.string _)⟩)
  have hplain : plainPair.Valid := untitled_valid
    (.object (by decide) (List.forall_mem_cons.2 ⟨htext, List.forall_mem_singleton.2 hnumber⟩))
  have hannotated : annotatedPair.Valid := titled_valid
    (.object (by decide) (List.forall_mem_cons.2 ⟨hdescribed, List.forall_mem_singleton.2 hnumber⟩))
  have hswapped : swappedPair.Valid := titled_valid
    (.object (by decide) (List.forall_mem_cons.2 ⟨hnumber, List.forall_mem_singleton.2 hdescribed⟩))
  have hkept : plainPair.Edited .kept annotatedPair :=
    untitled_edited (.properties rfl fun _ _ _ => pair_edited rfl rfl)
  have hfree : plainPair.Edited .free swappedPair :=
    untitled_edited (.properties (List.Perm.swap _ _ _) fun _ _ _ => pair_edited rfl rfl)
  have hsame := agree_iff.1 ((agree_schemaOf "" hplain hannotated).1 hkept)
  have hequal := agree_iff.1 ((agree_schemaOf "" hplain hswapped).2 hfree)
  obtain ⟨s, hs⟩ := hsame.1.1 ⟨plainSchema, rfl⟩
  have hschema : plainSchema = s := hsame.2 _ _ rfl hs
  refine ⟨hplain, hannotated, hswapped, hkept, hfree, rfl, ?_, rfl, hequal.2 _ _ rfl rfl, ?_⟩
  · rw [hs, hschema]
  · intro h
    simp [plainSchema, swappedSchema, pairSchema] at h

end Document
end TypedSchema
