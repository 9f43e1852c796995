import TypedSchema.Node.Basic
import TypedSchema.Node.Mismatch

/-!
# Node/Reader — schema nodes from JSON

A document is read completely before anything in it is classified, in document order, and the first
mismatch is the one reported.  Two keywords hide what is inside them: whatever is wrong at any depth
below a `type` or an `items`, the mismatch is that the value is `neitherOneNorMany`, at the keyword.

An identifier may be spelled `id` or `$id`, but a node has only one; the second is refused even if
one of them is `null`.
-/

namespace TypedSchema

/-- What one key of a node says. -/
inductive Entry where
  | id (value : Option String)
  | ref (value : Option String)
  | type (value : Option (OneOrMany String))
  | properties (value : Option (List (String × Node)))
  | required (value : Option (List String))
  | allOf (value : Option (List Node))
  | anyOf (value : Option (List Node))
  | items (value : Option (OneOrMany Node))
  | enum (value : Option (List Json))
  | other (key : String)

namespace Node

/-- The node with what one more key says. -/
def withEntry (node : Node) : Entry → Node
  | .id value => { node with id := value }
  | .ref value => { node with ref := value }
  | .type value => { node with type := value }
  | .properties value => { node with properties := value }
  | .required value => { node with required := value }
  | .allOf value => { node with allOf := value }
  | .anyOf value => { node with anyOf := value }
  | .items value => { node with items := value }
  | .enum value => { node with enum := value }
  | .other key => { node with others := node.others ++ [key] }

/-- The node with these entries. -/
def ofEntries (entries : List Entry) : Node := entries.foldl withEntry {}

/-! ## Scalar keywords -/

/-- A mismatch at the place itself because of the type of its value. -/
def wrongType {α : Type} (found : Json) (wanted : Wanted) : Except Mismatch α :=
  .error (.here (.wrongType found wanted))

/-- Reads a string. -/
def readString : Json → Except Mismatch String
  | .string s => .ok s
  | found => wrongType found .string

/-- Reads a string or `null`. -/
def readOptionalString : Json → Except Mismatch (Option String)
  | .null => .ok none
  | value => (readString value).map some

/-- Reads the strings of a list; the first has this index. -/
def readStrings (i : Nat) : List Json → Except Mismatch (List String)
  | [] => .ok []
  | item :: rest => do
    let s ← (readString item).mapError (.under (.index i))
    return s :: (← readStrings (i + 1) rest)

/-- Reads a list of strings or `null`. -/
def readRequired : Json → Except Mismatch (Option (List String))
  | .null => .ok none
  | .array items => (readStrings 0 items).map some
  | found => wrongType found .sequence

/-- Reads a type: a string, a list of strings or `null`. -/
def readType : Json → Except Mismatch (Option (OneOrMany String))
  | .null => .ok none
  | .string s => .ok (some (.one s))
  | .array items =>
    match readStrings 0 items with
    | .ok strings => .ok (some (.many strings))
    | .error _ => .error (.here .neitherOneNorMany)
  | _ => .error (.here .neitherOneNorMany)

/-- Reads a list of any values or `null`. -/
def readEnum : Json → Except Mismatch (Option (List Json))
  | .null => .ok none
  | .array items => .ok (some items)
  | found => wrongType found .sequence

/-! ## Nodes -/

mutual

/-- Reads a node. -/
def read : Json → Except Mismatch Node
  | .object members => (readEntries false members).map ofEntries
  | found => wrongType found .schema

/-- Reads the keys of a node in their order; `identified` says whether an identifier was among the
keys before. -/
def readEntries (identified : Bool) : List (String × Json) → Except Mismatch (List Entry)
  | [] => .ok []
  | (key, value) :: rest => do
    let keyword := Keyword.ofKey? key
    if keyword = some .id && identified then .error (.here .repeatedId)
    else
      let entry ← (readEntry key keyword value).mapError (.under (.key key))
      return entry :: (← readEntries (identified || keyword = some .id) rest)

/-- Reads what one key says. -/
def readEntry (key : String) : Option Keyword → Json → Except Mismatch Entry
  | none, _ => .ok (.other key)
  | some .id, value => (readOptionalString value).map .id
  | some .ref, value => (readOptionalString value).map .ref
  | some .type, value => (readType value).map .type
  | some .required, value => (readRequired value).map .required
  | some .enum, value => (readEnum value).map .enum
  | some .properties, value =>
    match value with
    | .null => .ok (.properties none)
    | .object members => (readProperties members).map fun nodes => .properties (some nodes)
    | found => wrongType found .map
  | some .allOf, value =>
    match value with
    | .null => .ok (.allOf none)
    | .array items => (readList 0 items).map fun nodes => .allOf (some nodes)
    | found => wrongType found .sequence
  | some .anyOf, value =>
    match value with
    | .null => .ok (.anyOf none)
    | .array items => (readList 0 items).map fun nodes => .anyOf (some nodes)
    | found => wrongType found .sequence
  | some .items, value =>
    match value with
    | .null => .ok (.items none)
    | .object members =>
      match readEntries false members with
      | .ok entries => .ok (.items (some (.one (ofEntries entries))))
      | .error _ => .error (.here .neitherOneNorMany)
    | .array items =>
      match readList 0 items with
      | .ok nodes => .ok (.items (some (.many nodes)))
      | .error _ => .error (.here .neitherOneNorMany)
    | _ => .error (.here .neitherOneNorMany)

/-- Reads the nodes of a list; the first has this index. -/
def readList (i : Nat) : List Json → Except Mismatch (List Node)
  | [] => .ok []
  | item :: rest => do
    let node ← (read item).mapError (.under (.index i))
    return node :: (← readList (i + 1) rest)

/-- Reads the nodes of an object, in its order. -/
def readProperties : List (String × Json) → Except Mismatch (List (String × Node))
  | [] => .ok []
  | (name, value) :: rest => do
    let node ← (read value).mapError (.under (.key name))
    return (name, node) :: (← readProperties rest)

end

/-! ## The root of a document -/

/-- Reads the properties of a root. -/
def readRootProperties : Json → Except Mismatch (List (String × Node))
  | .object members => readProperties members
  | found => wrongType found .map

/-- The properties of a document: the member `properties` of an object, or the only item of a
list. -/
def readRoot : Json → Except Mismatch (List (String × Node))
  | .object members =>
    match members.lookup "properties" with
    | none => .error (.here .noProperties)
    | some value => (readRootProperties value).mapError (.under (.key "properties"))
  | .array [] => .error (.here .emptyRootList)
  | .array (item :: rest) => do
    let properties ← (readRootProperties item).mapError (.under (.index 0))
    if rest.isEmpty then return properties
    else .error (.here (.longRootList (rest.length + 1)))
  | found => wrongType found .root

end Node
end TypedSchema
