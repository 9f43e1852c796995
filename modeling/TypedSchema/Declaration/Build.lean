import TypedSchema.Schema.Merge
import TypedSchema.Schema.Resolve

/-!
# Declaration/Build — the declaration that a schema makes

An object schema declares a record and a primitive with listed values an enumeration, both under the
local name of their identifier; no other schema declares anything.

The bases of a record are the declared types that its schema refers to: first its own base, then the
references among its `allOf` members, in order.  Its fields are its properties; in a composition,
the properties of the object and of its inline members merged (`ObjectSchema.merge`).  The members'
`required` lists count there, and the composition may not have a list of its own.
-/

namespace TypedSchema

/-- The name that an identifier declares. -/
def declaredName (what : Declared) (id : Option String) : Except Fault String :=
  match id with
  | none => .error (.unnamed [] (.noId what))
  | some id =>
    let name := localName id
    if name = "" then .error (.unnamed [] (.noLocalName what id)) else .ok name

/-- The target of a member that is a reference. -/
def Member.target? : Member → Option String
  | .ref target => some target
  | .inline _ => none

/-- The schema of a member that is not a reference. -/
def Member.inline? : Member → Option ObjectSchema
  | .ref _ => none
  | .inline schema => some schema

namespace ObjectSchema

/-- The required names without a property, in their order. -/
def undeclaredRequired (o : ObjectSchema) : List String :=
  (o.required.getD []).filter fun name => !(o.properties.map Prod.fst).contains name

/-- The fields of some properties of an object, in order. -/
def fieldsOf (record : String) (o : ObjectSchema) : List (String × Schema) → Traced (List Field)
  | [] => return []
  | (name, schema) :: rest => do
    let ty ← schema.resolve.mapError (.within (record ++ "." ++ name))
    let fields ← fieldsOf record o rest
    return ⟨name, ty, o.isRequired name⟩ :: fields

/-- Warns of required names without a property. -/
def warnUndeclared (record : String) : List String → Traced Unit
  | [] => return ()
  | name :: rest => do
    .report (.requiredWithoutProperty record name)
    warnUndeclared record rest

/-- The fields of an object that is not composed. -/
def fields (record : String) (o : ObjectSchema) : Traced (List Field) := do
  warnUndeclared record o.undeclaredRequired
  fieldsOf record o o.properties

/-- The objects whose properties a composition has: its own properties, if there are any, then its
inline members. -/
def inlineObjects (o : ObjectSchema) (members : List Member) : List ObjectSchema :=
  (if o.properties.isEmpty then [] else [{ properties := o.properties }])
    ++ members.filterMap Member.inline?

/-- The fields of a record, composed or not. -/
def recordFields (record : String) (o : ObjectSchema) : Traced (List Field) :=
  match o.allOf with
  | none => o.fields record
  | some members =>
    if o.required.isSome then .quiet (.error (.unsupported [] (.requiredBesideAllOf record)))
    else
      match o.inlineObjects members with
      | [] => return []
      | objects => do
        let merged ← .quiet ((merge objects).mapError (.within record))
        merged.fields record

/-- The names of the bases of a record. -/
def baseNames (o : ObjectSchema) : List String :=
  (o.base.toList ++ (o.allOf.getD []).filterMap Member.target?).map localName

/-- The record that an object schema declares. -/
def buildRecord (o : ObjectSchema) : Traced Record := do
  let name ← .quiet (declaredName .object o.id)
  let fields ← o.recordFields name
  .report (.builtRecord name o.baseNames.length fields.length)
  return ⟨name, o.baseNames, fields⟩

end ObjectSchema

namespace PrimitiveSchema

/-- The enumeration that a primitive declares. -/
def buildEnum (p : PrimitiveSchema) : Traced Enumeration := do
  let name ← .quiet (declaredName .enum p.id)
  match p.enum.getD [] with
  | [] => .quiet (.error (.unsupported [] (.noEnumValues name)))
  | values => do
    .report (.builtEnum name values.length)
    return ⟨name, values⟩

end PrimitiveSchema

/-- The declaration that a schema makes, if it makes one. -/
def Schema.build : Schema → Traced (Option Declaration)
  | .object o => return some (.record (← o.buildRecord))
  | .primitive p => do
    if p.isEnumerable then return some (.enum (← p.buildEnum)) else return none
  | _ => return none

end TypedSchema
