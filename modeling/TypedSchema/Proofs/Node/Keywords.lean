import TypedSchema.Proofs.Members
import TypedSchema.Proofs.Node.Reader

/-!
# What a node says under each keyword

A JSON object is read key by key into a node, so the value of a key decides what the node says under
the keyword that the key spells, and no other key has a part in it.  `Node.Reads` lists what there
is to read under each keyword, and `Node.reads_entry` says that a node has read so what its value
has under the keyword.

A JSON value is a schema node in three respects: it gives some keywords a value (`Json.Gives`), it
holds further schema nodes under some of them (`Json.parts`), and it has keys that shape nothing.
Each is found again in the node (`Node.gives_iff`, `Node.forall₂_parts`, `Node.mem_others`).

The identifier has two spellings, and an object can be read only if it uses one of them at most
(`Node.exists_readEntries_iff`).  The results on JSON values leave it out; it shapes nothing.
-/

namespace TypedSchema

lemma Keyword.ofKey?_key (k : Keyword) : Keyword.ofKey? k.key = some k := by
  cases k <;> rfl

lemma Keyword.key_of_ofKey? {key : String} {k : Keyword} (hk : k ≠ .id)
    (h : Keyword.ofKey? key = some k) : key = k.key := by
  unfold Keyword.ofKey? at h
  split at h <;> cases h <;> first | rfl | exact absurd rfl hk

lemma Node.ofKey?_of_unsupported : ∀ key ∈ unsupportedKeywords, Keyword.ofKey? key = none := by
  decide

/-! ## Entries -/

/-- The keyword that an entry is about. -/
def Entry.keyword? : Entry → Option Keyword
  | .id _ => some .id
  | .ref _ => some .ref
  | .type _ => some .type
  | .properties _ => some .properties
  | .required _ => some .required
  | .allOf _ => some .allOf
  | .anyOf _ => some .anyOf
  | .items _ => some .items
  | .enum _ => some .enum
  | .other _ => none

/-- Whether an entry has a value other than `null`. -/
def Entry.isGiven : Entry → Bool
  | .id value | .ref value => value.isSome
  | .type value => value.isSome
  | .properties value => value.isSome
  | .required value => value.isSome
  | .allOf value | .anyOf value => value.isSome
  | .items value => value.isSome
  | .enum value => value.isSome
  | .other _ => false

/-- The nodes inside an entry. -/
def Entry.parts : Entry → List Node
  | .properties value => (value.getD []).map Prod.snd
  | .allOf value | .anyOf value => value.getD []
  | .items value => (value.map OneOrMany.toList).getD []
  | _ => []

namespace Node

/-- What a node says under a keyword. -/
def entry (node : Node) : Keyword → Entry
  | .id => .id node.id
  | .ref => .ref node.ref
  | .type => .type node.type
  | .properties => .properties node.properties
  | .required => .required node.required
  | .allOf => .allOf node.allOf
  | .anyOf => .anyOf node.anyOf
  | .items => .items node.items
  | .enum => .enum node.enum

/-- Whether a node has a value under a keyword. -/
def gives (node : Node) (k : Keyword) : Bool := (node.entry k).isGiven

/-- The nodes that a node holds under a keyword. -/
def parts (node : Node) (k : Keyword) : List Node := (node.entry k).parts

lemma entry_withEntry (node : Node) (e : Entry) (k : Keyword) :
    (node.withEntry e).entry k = if e.keyword? = some k then e else node.entry k := by
  cases e <;> cases k <;> rfl

/-- How a value is read under a keyword. -/
inductive Reads : Keyword → Json → Entry → Prop
  | null (k : Keyword) : Reads k .null (({} : Node).entry k)
  | id (s : String) : Reads .id (.string s) (.id (some s))
  | ref (s : String) : Reads .ref (.string s) (.ref (some s))
  | typeOne (s : String) : Reads .type (.string s) (.type (some (.one s)))
  | typeMany (names : List String) :
    Reads .type (.array (names.map .string)) (.type (some (.many names)))
  | properties {members : List (String × Json)} {nodes : List (String × Node)}
    (each : List.Forall₂ (fun m n => m.1 = n.1 ∧ read m.2 = .ok n.2) members nodes) :
    Reads .properties (.object members) (.properties (some nodes))
  | required (names : List String) :
    Reads .required (.array (names.map .string)) (.required (some names))
  | allOf {items : List Json} {nodes : List Node}
    (each : List.Forall₂ (fun v n => read v = .ok n) items nodes) :
    Reads .allOf (.array items) (.allOf (some nodes))
  | anyOf {items : List Json} {nodes : List Node}
    (each : List.Forall₂ (fun v n => read v = .ok n) items nodes) :
    Reads .anyOf (.array items) (.anyOf (some nodes))
  | itemsOne {members : List (String × Json)} {n : Node}
    (one : read (.object members) = .ok n) :
    Reads .items (.object members) (.items (some (.one n)))
  | itemsMany {items : List Json} {nodes : List Node}
    (each : List.Forall₂ (fun v n => read v = .ok n) items nodes) :
    Reads .items (.array items) (.items (some (.many nodes)))
  | enum (items : List Json) : Reads .enum (.array items) (.enum (some items))

lemma reads_of_readOptionalString {v : Json} {s : Option String}
    (h : readOptionalString v = .ok s) :
    (v = .null ∧ s = none) ∨ ∃ text, v = .string text ∧ s = some text := by
  cases v <;> simp_all [readOptionalString, readString, wrongType]

/-- A value is read under a keyword in no other way. -/
lemma reads_of_readEntry {key : String} {k : Keyword} {v : Json} {e : Entry}
    (h : readEntry key (some k) v = .ok e) : Reads k v e := by
  cases k with
  | id | ref =>
    simp only [readEntry, map_eq_ok] at h
    obtain ⟨_, hs, rfl⟩ := h
    rcases reads_of_readOptionalString hs with ⟨rfl, rfl⟩ | ⟨text, rfl, rfl⟩
    · exact .null _
    · constructor
  | type =>
    simp only [readEntry, map_eq_ok] at h
    obtain ⟨_, htype, rfl⟩ := h
    cases v with
    | null =>
      cases htype
      exact .null .type
    | string s =>
      cases htype
      exact .typeOne s
    | array items =>
      rw [readType] at htype
      split at htype <;> cases htype
      rename_i names hnames
      rw [readStrings_eq_ok.1 hnames]
      exact .typeMany names
    | _ => cases htype
  | required =>
    simp only [readEntry, map_eq_ok] at h
    obtain ⟨_, hrequired, rfl⟩ := h
    cases v with
    | null =>
      cases hrequired
      exact .null .required
    | array items =>
      rw [readRequired, map_eq_ok] at hrequired
      obtain ⟨names, hnames, rfl⟩ := hrequired
      rw [readStrings_eq_ok.1 hnames]
      exact .required names
    | _ => cases hrequired
  | enum =>
    simp only [readEntry, map_eq_ok] at h
    obtain ⟨_, henum, rfl⟩ := h
    cases v with
    | null =>
      cases henum
      exact .null .enum
    | array items =>
      cases henum
      exact .enum items
    | _ => cases henum
  | properties =>
    cases v with
    | null =>
      rw [readEntry] at h
      cases h
      exact .null .properties
    | object members =>
      simp only [readEntry, map_eq_ok] at h
      obtain ⟨nodes, hnodes, rfl⟩ := h
      exact .properties (readProperties_eq_ok.1 hnodes)
    | _ => cases h
  | allOf | anyOf =>
    cases v with
    | null =>
      rw [readEntry] at h
      cases h
      exact .null _
    | array items =>
      simp only [readEntry, map_eq_ok] at h
      obtain ⟨nodes, hnodes, rfl⟩ := h
      have each := readList_eq_ok.1 hnodes
      constructor
      exact each
    | _ => cases h
  | items =>
    cases v with
    | null =>
      rw [readEntry] at h
      cases h
      exact .null .items
    | object members =>
      rw [readEntry] at h
      split at h <;> cases h
      rename_i entries hentries
      refine .itemsOne ?_
      rw [read, hentries]
      rfl
    | array items =>
      rw [readEntry] at h
      split at h <;> cases h
      rename_i nodes hnodes
      exact .itemsMany (readList_eq_ok.1 hnodes)
    | _ => cases h

lemma keyword?_of_readEntry {key : String} {keyword : Option Keyword} {v : Json} {e : Entry}
    (h : readEntry key keyword v = .ok e) : e.keyword? = keyword := by
  cases keyword with
  | none =>
    rw [readEntry] at h
    cases h
    rfl
  | some k =>
    cases reads_of_readEntry h with
    | null => cases k <;> rfl
    | _ => rfl

/-! ## Keys -/

/-- The keys of an object are read one after the other; no identifier follows another. -/
lemma readEntries_cons_eq_ok {identified : Bool} {key : String} {value : Json}
    {rest : List (String × Json)} {entries : List Entry} :
    readEntries identified ((key, value) :: rest) = .ok entries ↔
      ¬(Keyword.ofKey? key = some .id ∧ identified = true) ∧
        ∃ e es, readEntry key (Keyword.ofKey? key) value = .ok e ∧
          readEntries (identified || Keyword.ofKey? key = some .id) rest = .ok es ∧
          entries = e :: es := by
  rw [readEntries]
  split
  · rename_i hrepeated
    rw [Bool.and_eq_true, decide_eq_true_eq] at hrepeated
    exact iff_of_false nofun fun h => h.1 hrepeated
  · rename_i hfirst
    rw [Bool.and_eq_true, decide_eq_true_eq] at hfirst
    simp only [bind_eq_ok, mapError_eq_ok, pure_eq_ok]
    constructor
    · rintro ⟨e, he, es, hes, rfl⟩
      exact ⟨hfirst, e, es, he, hes, rfl⟩
    · rintro ⟨-, e, es, he, hes, rfl⟩
      exact ⟨e, he, es, hes, rfl⟩

/-- The keys among these that spell the identifier. -/
def idKeys (members : List (String × Json)) : List String :=
  (members.map Prod.fst).filter fun key => Keyword.ofKey? key = some .id

lemma idKeys_cons (key : String) (value : Json) (rest : List (String × Json)) :
    idKeys ((key, value) :: rest) =
      if Keyword.ofKey? key = some .id then key :: idKeys rest else idKeys rest := by
  by_cases h : Keyword.ofKey? key = some .id <;> simp [idKeys, h]

/-- The keys of an object can be read if each of them can and at most one is an identifier. -/
theorem exists_readEntries_iff {identified : Bool} {members : List (String × Json)} :
    (∃ entries, readEntries identified members = .ok entries) ↔
      (∀ m ∈ members, ∃ e, readEntry m.1 (Keyword.ofKey? m.1) m.2 = .ok e) ∧
        identified.toNat + (idKeys members).length ≤ 1 := by
  induction members generalizing identified with
  | nil =>
    refine iff_of_true ⟨[], rfl⟩ ⟨fun _ h => absurd h List.not_mem_nil, ?_⟩
    exact Bool.toNat_le identified
  | cons member rest ih =>
    obtain ⟨key, value⟩ := member
    have hcount : ¬(Keyword.ofKey? key = some .id ∧ identified = true) ∧
        (identified || decide (Keyword.ofKey? key = some .id)).toNat + (idKeys rest).length ≤ 1 ↔
          identified.toNat + (idKeys ((key, value) :: rest)).length ≤ 1 := by
      rw [idKeys_cons]
      by_cases hid : Keyword.ofKey? key = some .id
      · rw [if_pos hid, List.length_cons]
        cases identified with
        | true => simp [hid]
        | false =>
          simp only [hid, decide_true, Bool.or_true, Bool.toNat_true, Bool.toNat_false,
            Bool.false_eq_true, and_false, not_false_iff, true_and]
          omega
      · rw [if_neg hid]
        simp [hid]
    rw [List.forall_mem_cons, ← hcount]
    constructor
    · rintro ⟨_, hes⟩
      obtain ⟨hfirst, e, es, he, hrest, rfl⟩ := readEntries_cons_eq_ok.1 hes
      obtain ⟨hreadable, hids⟩ := ih.1 ⟨es, hrest⟩
      exact ⟨⟨⟨e, he⟩, hreadable⟩, hfirst, hids⟩
    · rintro ⟨⟨⟨e, he⟩, hreadable⟩, hfirst, hids⟩
      obtain ⟨es, hrest⟩ := ih.2 ⟨hreadable, hids⟩
      exact ⟨e :: es, readEntries_cons_eq_ok.2 ⟨hfirst, e, es, he, hrest, rfl⟩⟩

/-- Keys that spell other keywords change nothing under this one. -/
lemma entry_foldl_of_notMem {k : Keyword} {identified : Bool} {members : List (String × Json)}
    {entries : List Entry} (h : readEntries identified members = .ok entries)
    (hkey : ∀ key ∈ members.map Prod.fst, Keyword.ofKey? key ≠ some k) (node : Node) :
    (entries.foldl withEntry node).entry k = node.entry k := by
  induction members generalizing identified entries node with
  | nil =>
    cases h
    rfl
  | cons member rest ih =>
    obtain ⟨key, value⟩ := member
    obtain ⟨hne, hrest⟩ := List.forall_mem_cons.1 hkey
    obtain ⟨-, e, es, he, hes, rfl⟩ := readEntries_cons_eq_ok.1 h
    have hother : e.keyword? ≠ some k := by
      rw [keyword?_of_readEntry he]
      exact hne
    rw [List.foldl_cons, ih hes hrest, entry_withEntry, if_neg hother]

/-- No other key spells the keyword of the first one: keys are distinct, and no identifier follows
another. -/
lemma ofKey?_ne_of_readEntries {k : Keyword} {identified : Bool} {key : String}
    {rest : List (String × Json)} {entries : List Entry} (hk : Keyword.ofKey? key = some k)
    (h : readEntries (identified || Keyword.ofKey? key = some .id) rest = .ok entries)
    (hfresh : key ∉ rest.map Prod.fst) :
    ∀ other ∈ rest.map Prod.fst, Keyword.ofKey? other ≠ some k := by
  intro other hother hof
  obtain rfl | hid := eq_or_ne k .id
  · have hcount := (exists_readEntries_iff.1 ⟨entries, h⟩).2
    have hmem : other ∈ idKeys rest := List.mem_filter.2 ⟨hother, decide_eq_true hof⟩
    have hpos := List.length_pos_of_mem hmem
    simp only [hk, decide_true, Bool.or_true, Bool.toNat_true] at hcount
    omega
  · rw [Keyword.key_of_ofKey? hid hof, ← Keyword.key_of_ofKey? hid hk] at hother
    exact hfresh hother

/-- The value of a key is what the node says under its keyword. -/
lemma readEntry_foldl_of_mem {k : Keyword} {identified : Bool} {members : List (String × Json)}
    {entries : List Entry} (h : readEntries identified members = .ok entries)
    (hdistinct : (members.map Prod.fst).Nodup) {key : String} {value : Json}
    (hmem : (key, value) ∈ members) (hk : Keyword.ofKey? key = some k) (node : Node) :
    readEntry key (some k) value = .ok ((entries.foldl withEntry node).entry k) := by
  induction members generalizing identified entries node with
  | nil => exact absurd hmem List.not_mem_nil
  | cons member rest ih =>
    obtain ⟨hfresh, hrest⟩ := List.nodup_cons.1 hdistinct
    obtain ⟨first, v⟩ := member
    obtain ⟨-, e, es, he, hes, rfl⟩ := readEntries_cons_eq_ok.1 h
    rw [List.foldl_cons]
    rcases List.mem_cons.1 hmem with heq | hmem
    · cases heq
      have hothers := ofKey?_ne_of_readEntries hk hes hfresh
      rw [hk] at he
      rw [entry_foldl_of_notMem hes hothers, entry_withEntry, if_pos (keyword?_of_readEntry he), he]
    · exact ih hes hrest hmem _

/-- The keys that spell no keyword are kept, in their order. -/
lemma others_foldl {identified : Bool} {members : List (String × Json)} {entries : List Entry}
    (h : readEntries identified members = .ok entries) (node : Node) :
    (entries.foldl withEntry node).others =
      node.others ++ (members.map Prod.fst).filter fun key => (Keyword.ofKey? key).isNone := by
  induction members generalizing identified entries node with
  | nil =>
    cases h
    exact (List.append_nil _).symm
  | cons member rest ih =>
    obtain ⟨key, value⟩ := member
    obtain ⟨-, e, es, he, hes, rfl⟩ := readEntries_cons_eq_ok.1 h
    rw [List.foldl_cons, ih hes, List.map_cons]
    have hword := keyword?_of_readEntry he
    cases hkey : Keyword.ofKey? key with
    | none =>
      rw [hkey, readEntry] at he
      cases he
      simp [withEntry, hkey]
    | some k =>
      have hothers : (node.withEntry e).others = node.others := by
        rw [hkey] at hword
        cases e <;> first | rfl | cases hword
      simp [hothers, hkey]

end Node

/-! ## JSON values as schema nodes -/

namespace Json

/-- The keys of an object; no other value has any. -/
def keys : Json → List String
  | .object members => members.map Prod.fst
  | _ => []

/-- The value under a keyword, `null` if there is none. -/
def under : Json → Keyword → Json
  | .object members, k => (members.lookup k.key).getD .null
  | _, _ => .null

/-- There is a value other than `null` under a keyword. -/
def Gives (v : Json) (k : Keyword) : Prop := v.under k ≠ .null

/-- The schema nodes in a value under a keyword: the values of `properties`, the object or the items
of `items`, and the items of `anyOf` and of `allOf`. -/
def partsUnder : Keyword → Json → List Json
  | .properties, .object members => members.map Prod.snd
  | .items, .object members => [.object members]
  | .items, .array items | .anyOf, .array items | .allOf, .array items => items
  | _, _ => []

/-- The schema nodes that a schema node holds under a keyword. -/
def parts (v : Json) (k : Keyword) : List Json := partsUnder k (v.under k)

end Json

namespace Node

section Reading

variable {v : Json} {node : Node} {k : Keyword}

/-- What a node says under a keyword is what the value under the keyword is read as. -/
theorem reads_entry (hv : v.Valid) (h : read v = .ok node) (hk : k ≠ .id) :
    Reads k (v.under k) (node.entry k) := by
  cases v with
  | object members =>
    simp only [read, map_eq_ok] at h
    obtain ⟨entries, hentries, rfl⟩ := h
    show Reads k ((members.lookup k.key).getD .null) ((ofEntries entries).entry k)
    cases hvalue : members.lookup k.key with
    | none =>
      have hothers : ∀ key ∈ members.map Prod.fst, Keyword.ofKey? key ≠ some k :=
        fun key hkey hof => lookup_eq_none.1 hvalue (Keyword.key_of_ofKey? hk hof ▸ hkey)
      rw [ofEntries, entry_foldl_of_notMem hentries hothers]
      exact .null k
    | some value =>
      obtain ⟨before, after, hmembers⟩ := exists_split_of_lookup hvalue
      have hmem : (k.key, value) ∈ members := hmembers ▸ by simp
      exact reads_of_readEntry
        (readEntry_foldl_of_mem hentries hv.distinct hmem (Keyword.ofKey?_key k) {})
  | _ => cases h

/-- A node gives the keywords that the value gives. -/
lemma gives_iff (hv : v.Valid) (h : read v = .ok node) (hk : k ≠ .id) :
    node.gives k = true ↔ v.Gives k := by
  have hreads := reads_entry hv h hk
  unfold gives Json.Gives
  generalize v.under k = value at hreads
  generalize node.entry k = e at hreads
  cases hreads with
  | null => cases k <;> simp [Entry.isGiven, entry]
  | _ => simp [Entry.isGiven]

/-- The nodes that a node holds under a keyword are read from the schema nodes of the value. -/
lemma forall₂_parts (hv : v.Valid) (h : read v = .ok node) (hk : k ≠ .id) :
    List.Forall₂ (fun w n => read w = .ok n) (v.parts k) (node.parts k) := by
  have hreads := reads_entry hv h hk
  unfold parts Json.parts
  generalize v.under k = value at hreads
  generalize node.entry k = e at hreads
  cases hreads with
  | null => cases k <;> exact .nil
  | properties each =>
    refine List.forall₂_map_left_iff.2 (List.forall₂_map_right_iff.2 ?_)
    exact each.imp fun _ _ hread => hread.2
  | itemsOne one => exact .cons one .nil
  | allOf each | anyOf each | itemsMany each => exact each
  | _ => exact .nil

/-- The keys of a node that spell no keyword are those of the value. -/
lemma mem_others (h : read v = .ok node) {key : String} :
    key ∈ node.others ↔ key ∈ v.keys ∧ Keyword.ofKey? key = none := by
  cases v with
  | object members =>
    simp only [read, map_eq_ok] at h
    obtain ⟨entries, hentries, rfl⟩ := h
    simp [ofEntries, others_foldl hentries, Json.keys]
  | _ => cases h

end Reading

end Node
end TypedSchema
