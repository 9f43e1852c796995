import TypedSchema.Node.Basic
import TypedSchema.Node.Rejection

/-!
# Node/Classification — the schema that a node denotes

A node denotes at most one schema.  Which of its keywords decides is tried in a fixed order: an
unsupported keyword turns the node down; else `$ref` decides, else `anyOf`, else `allOf`, else the
type.  Each deciding keyword turns down companions that its schema cannot hold, but overlooks some:
`required` beside `anyOf` or beside a `$ref` that stays a bare reference, and `enum` and `items`
beside `allOf`, leave no trace in the schema.

The children of a node are classified independently of the node, and `Node.denote` combines their
results: it asks for the children that the decided schema has, in document order, and a child that
is not asked for cannot make the node fail.  So all case distinctions are in functions without
recursion, and the recursion (`Node.classify`) has none.
-/

namespace TypedSchema

/-- A classified part of a node, or why there is none. -/
abbrev Classified (α : Type) := Except Rejection α

/-- The classified children of a node.  What is absent has no children. -/
structure Children where
  properties : Classified (List (String × Schema))
  allOf : Classified (Option (List Member))
  anyOf : Classified (List Schema)
  items : Classified (List Schema)

/-- A rejection at the node itself because of its keywords. -/
def misuse {α : Type} (cause : Misuse) : Classified α := .error (.misuse [] cause)

namespace Node

-- powers are those of the core library, whatever else defines some
attribute [local instance (2000)] instPowNat

/-! ## Literals -/

/-- The literal of this kind that a JSON value is.  An integer has to fit into 64 bits with a sign;
any number is one of kind `number`. -/
def literal? : Kind → Json → Option Literal
  | .null, .null => some .null
  | .boolean, .bool b => some (.boolean b)
  | .integer, .integer n =>
    if -2 ^ (63 : Nat) ≤ n ∧ n < 2 ^ (63 : Nat) then some (.integer n) else none
  | .number, .integer n => some (.number (Binary64.ofInt n))
  | .number, .float x => some (.number x)
  | .string, .string s => some (.string s)
  | _, _ => none

/-- The literals of a list; the first has this index. -/
def literals (kind : Kind) (i : Nat) : List Json → Classified (List Literal)
  | [] => .ok []
  | value :: rest =>
    match literal? kind value with
    | none => .error (.flaw [.enumValue i] (.literalOfOtherKind value kind))
    | some l => (literals kind (i + 1) rest).map (l :: ·)

/-- The enumerated values of a scalar schema. -/
def enumValues (kind : Kind) : Option (List Json) → Classified (Option (List Literal))
  | none => .ok none
  | some [] => .error (.flaw [.enum] .emptyEnum)
  | some values => (literals kind 0 values).map some

/-- The kind that a type names. -/
def kindOf (type : String) : Classified Kind :=
  match Kind.ofKeyword? type with
  | some kind => .ok kind
  | none => .error (.flaw [.type] (.unknownType type))

/-! ## The deciding keywords -/

/-- The object schema of a node. -/
def denoteObject (node : Node) (children : Children) : Classified ObjectSchema := do
  let properties ← children.properties
  let allOf ← children.allOf
  return {
    id := node.id
    base := node.ref
    properties
    required := node.required.map firstOccurrences
    allOf }

/-- The schema of a node with a reference: an object that extends its target if the node has
properties or says that it is an object, the bare reference otherwise. -/
def denoteRef (node : Node) (children : Children) (target : String) : Classified Schema :=
  if node.anyOf.isSome || node.allOf.isSome || node.items.isSome || node.enum.isSome then
    misuse .refCombined
  else if node.properties.isSome || node.typeIs "object" then
    (node.denoteObject children).map .object
  else if node.type.isSome then misuse .refWithType
  else .ok (.ref target)

/-- The schema of a node with alternatives. -/
def denoteAnyOf (node : Node) (children : Children) : Classified Schema :=
  if node.allOf.isSome || node.properties.isSome || node.items.isSome || node.enum.isSome then
    misuse .anyOfCombined
  else if node.hasForeignType then misuse .anyOfWithType
  else children.anyOf.map .anyOf

/-- The schema of a composed node. -/
def denoteAllOf (node : Node) (children : Children) : Classified Schema :=
  if node.hasForeignType then misuse .allOfWithType
  else (node.denoteObject children).map .object

/-- The first keyword of the node that a schema of this type cannot hold. -/
def foreignKeyword? (node : Node) (type : String) : Option String :=
  if node.properties.isSome && type != "object" then some "properties"
  else if node.required.isSome && type != "object" then some "required"
  else if node.items.isSome && type != "array" then some "items"
  else if node.enum.isSome && (type == "object" || type == "array") then some "enum"
  else none

/-- The schema of a node of one type. -/
def denoteTyped (node : Node) (children : Children) (type : String) : Classified Schema :=
  match node.foreignKeyword? type with
  | some name => misuse (.foreignKeyword name type)
  | none =>
    if type = "object" then (node.denoteObject children).map .object
    else if type = "array" then children.items.map .array
    else do
      let kind ← kindOf type
      let enum ← enumValues kind node.enum
      return .primitive { id := node.id, kind, enum }

/-- The kinds of a list of several types. -/
def kindsOf : List String → Classified (List Kind)
  | [] => .ok []
  | type :: rest =>
    if type = "object" ∨ type = "array" then misuse (.multiTypeMember type)
    else do
      let kind ← kindOf type
      return kind :: (← kindsOf rest)

/-- The schema of a node of several types. -/
def denoteMultiType (node : Node) (types : List String) : Classified Schema :=
  if node.enum.isSome || node.items.isSome || node.properties.isSome || node.required.isSome then
    misuse .multiTypeCombined
  else (kindsOf types).map .multiType

/-- The types of a node.  A node with properties and no type is an object. -/
def types? (node : Node) : Option (List String) :=
  match node.type with
  | some types => some types.toList
  | none => if node.properties.isSome then some ["object"] else none

/-- The schema of a node that its types decide. -/
def denoteByType (node : Node) (children : Children) : Classified Schema :=
  match node.types? with
  | none => .error (.flaw [] .noType)
  | some [] => .error (.flaw [.type] .emptyTypeList)
  | some [type] => node.denoteTyped children type
  | some types => node.denoteMultiType types

/-- The schema that a node denotes, given its children. -/
def denote (node : Node) (children : Children) : Classified Schema :=
  match node.others.find? unsupportedKeywords.contains with
  | some name => misuse (.keyword name)
  | none =>
    match node.ref with
    | some target => node.denoteRef children target
    | none =>
      if node.anyOf.isSome then node.denoteAnyOf children
      else if node.allOf.isSome then node.denoteAllOf children
      else node.denoteByType children

/-- The `allOf` member that a schema can be: a reference, an object without a base, or an object
that has nothing but a base, which is a reference with `"type": "object"` beside it. -/
def memberOf : Schema → Classified Member
  | .ref target => .ok (.ref target)
  | .object ⟨id, none, properties, required, allOf⟩ =>
    .ok (.inline ⟨id, none, properties, required, allOf⟩)
  | .object ⟨none, some target, [], _, none⟩ => .ok (.ref target)
  | schema => misuse (.allOfMember schema.shape)

/-! ## Whole nodes -/

mutual

/-- The schema that a node denotes. -/
def classify : Node → Classified Schema
  | ⟨id, ref, type, properties, required, allOf, anyOf, items, enum, others⟩ =>
    denote ⟨id, ref, type, properties, required, allOf, anyOf, items, enum, others⟩
      { properties :=
          match properties with
          | none => .ok []
          | some nodes => classifyProperties nodes
        allOf :=
          match allOf with
          | none => .ok none
          | some nodes => (classifyMembers 0 nodes).map some
        anyOf :=
          match anyOf with
          | none => .ok []
          | some nodes => classifyList .anyOf 0 nodes
        items :=
          match items with
          | none => .ok []
          | some (.one node) => (classify node).mapError (.under (.items 0)) |>.map fun s => [s]
          | some (.many nodes) => classifyList .items 0 nodes }

/-- The schemas of a list of nodes, each below its step; the first has this index. -/
def classifyList (step : Nat → NodeStep) (i : Nat) : List Node → Classified (List Schema)
  | [] => .ok []
  | node :: rest => do
    let schema ← (classify node).mapError (.under (step i))
    return schema :: (← classifyList step (i + 1) rest)

/-- The members of a composition; the first has this index. -/
def classifyMembers (i : Nat) : List Node → Classified (List Member)
  | [] => .ok []
  | node :: rest => do
    let member ← (classify node >>= memberOf).mapError (.under (.allOf i))
    return member :: (← classifyMembers (i + 1) rest)

/-- The schemas of the properties. -/
def classifyProperties : List (String × Node) → Classified (List (String × Schema))
  | [] => .ok []
  | (name, node) :: rest => do
    let schema ← (classify node).mapError (.under (.property name))
    return (name, schema) :: (← classifyProperties rest)

end

end Node
end TypedSchema
