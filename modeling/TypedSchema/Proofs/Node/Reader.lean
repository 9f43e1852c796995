import TypedSchema.Node.Reader
import TypedSchema.Proofs.Json.Valid
import TypedSchema.Proofs.Outcome

/-!
# What reading gives

A node read from a JSON value holds what the value holds: its properties have distinct names, and
the values that it lists are values of the document (`Node.read_valid`).  Lists are read item by
item (`Node.readList_eq_ok`, `Node.readProperties_eq_ok`).
-/

namespace TypedSchema

/-- A node as a document can hold it. -/
inductive Node.Valid : Node → Prop
  | intro {node : Node}
    (distinct : ∀ nodes, node.properties = some nodes → (nodes.map Prod.fst).Nodup)
    (properties : ∀ nodes, node.properties = some nodes → ∀ entry ∈ nodes, entry.2.Valid)
    (allOf : ∀ nodes, node.allOf = some nodes → ∀ n ∈ nodes, n.Valid)
    (anyOf : ∀ nodes, node.anyOf = some nodes → ∀ n ∈ nodes, n.Valid)
    (items : ∀ nodes, node.items = some nodes → ∀ n ∈ nodes.toList, n.Valid)
    (enum : ∀ values, node.enum = some values → ∀ v ∈ values, v.Valid) :
    Node.Valid node

/-- What a key of such a node says. -/
def Entry.Valid : Entry → Prop
  | .properties value => ∀ nodes, value = some nodes →
      (nodes.map Prod.fst).Nodup ∧ ∀ entry ∈ nodes, entry.2.Valid
  | .allOf value | .anyOf value => ∀ nodes, value = some nodes → ∀ n ∈ nodes, n.Valid
  | .items value => ∀ nodes, value = some nodes → ∀ n ∈ nodes.toList, n.Valid
  | .enum value => ∀ values, value = some values → ∀ v ∈ values, v.Valid
  | _ => True

namespace Node

/-! ## Lists -/

lemma readString_eq_ok {v : Json} {s : String} : readString v = .ok s ↔ v = .string s := by
  cases v <;> simp [readString, wrongType]

/-- A list of strings holds nothing but the strings. -/
lemma readStrings_eq_ok {i : Nat} {items : List Json} {strings : List String} :
    readStrings i items = .ok strings ↔ items = strings.map .string := by
  have hitems : readStrings i items = .ok strings ↔
      List.Forall₂ (fun v s => readString v = .ok s) items strings :=
    items_eq_ok readStrings readString (fun i => .under (.index i)) (fun _ => rfl) fun _ _ _ => rfl
  rw [hitems, ← List.forall₂_eq_eq_eq, List.forall₂_map_right_iff]
  simp only [readString_eq_ok]

lemma readList_eq_ok {i : Nat} {items : List Json} {nodes : List Node} :
    readList i items = .ok nodes ↔ List.Forall₂ (fun v n => read v = .ok n) items nodes :=
  items_eq_ok readList read (fun i => .under (.index i)) (fun _ => rfl) fun _ _ _ => rfl

lemma readProperties_eq_ok {members : List (String × Json)} {nodes : List (String × Node)} :
    readProperties members = .ok nodes ↔
      List.Forall₂ (fun m n => m.1 = n.1 ∧ read m.2 = .ok n.2) members nodes :=
  entries_eq_ok readProperties read (fun name => .under (.key name)) rfl fun _ _ _ => rfl

/-! ## Validity -/

lemma valid_withEntry {node : Node} {entry : Entry} (hnode : node.Valid) (hentry : entry.Valid) :
    (node.withEntry entry).Valid := by
  obtain ⟨distinct, properties, allOf, anyOf, items, enum⟩ := hnode
  cases entry with
  | properties value =>
    exact ⟨fun nodes h => (hentry nodes h).1, fun nodes h => (hentry nodes h).2, allOf, anyOf,
      items, enum⟩
  | allOf value => exact ⟨distinct, properties, hentry, anyOf, items, enum⟩
  | anyOf value => exact ⟨distinct, properties, allOf, hentry, items, enum⟩
  | items value => exact ⟨distinct, properties, allOf, anyOf, hentry, enum⟩
  | enum value => exact ⟨distinct, properties, allOf, anyOf, items, hentry⟩
  | _ => exact ⟨distinct, properties, allOf, anyOf, items, enum⟩

lemma valid_ofEntries {entries : List Entry} (h : ∀ entry ∈ entries, entry.Valid) :
    (ofEntries entries).Valid := by
  have hfold : ∀ node : Node, node.Valid → (entries.foldl withEntry node).Valid := by
    induction entries with
    | nil => exact fun _ hnode => hnode
    | cons entry rest ih =>
      obtain ⟨hentry, hrest⟩ := List.forall_mem_cons.1 h
      exact fun node hnode => ih hrest _ (valid_withEntry hnode hentry)
  exact hfold {} ⟨nofun, nofun, nofun, nofun, nofun, nofun⟩

lemma valid_of_readEnum {v : Json} {value : Option (List Json)} (hv : v.Valid)
    (h : readEnum v = .ok value) : (Entry.enum value).Valid := by
  cases v with
  | null =>
    cases h
    exact nofun
  | array items =>
    cases h
    rintro _ ⟨⟩
    exact hv.items
  | _ => cases h

mutual

/-- Everything that is read from a valid JSON value is valid. -/
theorem read_valid : ∀ {v : Json} {node : Node}, v.Valid → read v = .ok node → node.Valid
  | .object members, node, hv, h => by
    simp only [read, map_eq_ok] at h
    obtain ⟨entries, hentries, rfl⟩ := h
    exact valid_ofEntries (readEntries_valid hv.members hentries)
  | .null, _, _, h | .bool _, _, _, h | .integer _, _, _, h | .float _, _, _, h | .string _, _, _, h
  | .array _, _, _, h => nomatch h

lemma readEntries_valid : ∀ {identified : Bool} {members : List (String × Json)}
    {entries : List Entry}, (∀ m ∈ members, m.2.Valid) →
      readEntries identified members = .ok entries → ∀ entry ∈ entries, entry.Valid
  | _, [], entries, _, h => by
    cases h
    exact fun _ h => absurd h List.not_mem_nil
  | _, (key, v) :: rest, entries, hv, h => by
    simp only [readEntries] at h
    split at h
    · cases h
    · simp only [bind_eq_ok, mapError_eq_ok, pure_eq_ok] at h
      obtain ⟨e, he, es, hes, rfl⟩ := h
      obtain ⟨hkey, hrest⟩ := List.forall_mem_cons.1 hv
      exact List.forall_mem_cons.2 ⟨readEntry_valid hkey he, readEntries_valid hrest hes⟩

lemma readEntry_valid : ∀ {key : String} {keyword : Option Keyword} {v : Json} {entry : Entry},
    v.Valid → readEntry key keyword v = .ok entry → entry.Valid
  | _, none, _, _, _, h => by
    rw [readEntry] at h
    cases h
    trivial
  | _, some .id, _, _, _, h | _, some .ref, _, _, _, h | _, some .type, _, _, _, h
  | _, some .required, _, _, _, h => by
    simp only [readEntry, map_eq_ok] at h
    obtain ⟨_, _, rfl⟩ := h
    trivial
  | _, some .enum, v, _, hv, h => by
    simp only [readEntry, map_eq_ok] at h
    obtain ⟨value, hvalue, rfl⟩ := h
    exact valid_of_readEnum hv hvalue
  | _, some .properties, .object members, _, hv, h => by
    simp only [readEntry, map_eq_ok] at h
    obtain ⟨nodes, hnodes, rfl⟩ := h
    rintro _ ⟨⟩
    have hnames := map_fst_eq_of_forall₂ (readProperties_eq_ok.1 hnodes)
    exact ⟨hnames ▸ hv.distinct, readProperties_valid hv.members hnodes⟩
  | _, some .allOf, .array items, _, hv, h | _, some .anyOf, .array items, _, hv, h => by
    simp only [readEntry, map_eq_ok] at h
    obtain ⟨nodes, hnodes, rfl⟩ := h
    rintro _ ⟨⟩
    exact readList_valid hv.items hnodes
  | _, some .items, .object members, _, hv, h => by
    rw [readEntry] at h
    split at h
    · rename_i entries hentries
      cases h
      rintro _ ⟨⟩ n hn
      rw [List.mem_singleton.1 hn]
      exact valid_ofEntries (readEntries_valid hv.members hentries)
    · cases h
  | _, some .items, .array items, _, hv, h => by
    rw [readEntry] at h
    split at h
    · rename_i nodes hnodes
      cases h
      rintro _ ⟨⟩
      exact readList_valid hv.items hnodes
    · cases h
  | _, some .properties, .null, _, _, h | _, some .allOf, .null, _, _, h
  | _, some .anyOf, .null, _, _, h | _, some .items, .null, _, _, h => by
    rw [readEntry] at h
    cases h
    exact nofun

lemma readList_valid : ∀ {i : Nat} {items : List Json} {nodes : List Node},
    (∀ v ∈ items, v.Valid) → readList i items = .ok nodes → ∀ n ∈ nodes, n.Valid
  | _, [], _, _, h => by
    cases h
    exact fun _ h => absurd h List.not_mem_nil
  | _, v :: rest, nodes, hv, h => by
    simp only [readList, bind_eq_ok, mapError_eq_ok, pure_eq_ok] at h
    obtain ⟨n, hn, ns, hns, rfl⟩ := h
    obtain ⟨hfirst, hrest⟩ := List.forall_mem_cons.1 hv
    exact List.forall_mem_cons.2 ⟨read_valid hfirst hn, readList_valid hrest hns⟩

lemma readProperties_valid : ∀ {members : List (String × Json)} {nodes : List (String × Node)},
    (∀ m ∈ members, m.2.Valid) → readProperties members = .ok nodes →
      ∀ entry ∈ nodes, entry.2.Valid
  | [], _, _, h => by
    cases h
    exact fun _ h => absurd h List.not_mem_nil
  | (name, v) :: rest, nodes, hv, h => by
    simp only [readProperties, bind_eq_ok, mapError_eq_ok, pure_eq_ok] at h
    obtain ⟨n, hn, ns, hns, rfl⟩ := h
    obtain ⟨hfirst, hrest⟩ := List.forall_mem_cons.1 hv
    exact List.forall_mem_cons.2 ⟨read_valid hfirst hn, readProperties_valid hrest hns⟩

end

end Node
end TypedSchema
