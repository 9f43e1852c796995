import TypedSchema.Json.Parser
import TypedSchema.Json.Pointer
import TypedSchema.Log
import TypedSchema.Node.Classification
import TypedSchema.Node.Reader

/-!
# Document — the top-level schemas of a JSON document

A document's root, or the value that a pointer selects as its root, holds named schemas under
`properties`.  The whole tree of nodes is read first (`Node.readRoot`), and then its entries are
classified in order.  Alternatives are refused at the top level, and so is a composition without an
identifier, since nothing names it.  Any other entry without an identifier is left out with a
warning.
-/

namespace TypedSchema
namespace Document

/-- The JSON document that a text holds. -/
def parse (text : String) : Except Fault Json :=
  (Json.parse text).mapError (Fault.ofSyntaxError text)

/-- The schema that a JSON value denotes; `path` names the value in diagnostics. -/
def schemaOf (value : Json) (path : String) : Except Fault Schema := do
  let node ← (Node.read value).mapError Fault.ofMismatch
  node.classify.mapError (Fault.ofRejection path)

/-- The value that a pointer selects as the root; the document itself without a pointer. -/
def root (document : Json) : Option String → Except Fault Json
  | none => .ok document
  | some pointer =>
    match document.pointer? pointer with
    | some value => .ok value
    | none => .error (.invalid (.path pointer) .danglingPointer)

/-- The entries of a root. -/
def entries (root : Json) : Except Fault (List (String × Node)) :=
  (Node.readRoot root).mapError Fault.ofMismatch

/-- The path of an entry in diagnostics. -/
def entryPath (pointer : Option String) (key : String) : String :=
  pointer.getD "" ++ "/properties/" ++ key

/-- The schema of an entry, if it has one to itself. -/
def loadEntry (pointer : Option String) (key : String) (node : Node) : Traced (Option Schema) :=
  let path := entryPath pointer key
  if node.anyOf.isSome then .quiet (.error (.unsupported [] (.node path .topLevelAnyOf)))
  else
    match node.id with
    | some _ => .quiet ((node.classify.map some).mapError (Fault.ofRejection path))
    | none =>
      if node.allOf.isSome then .quiet (.error (.unsupported [] (.node path .topLevelAllOf)))
      else do
        .report (.entryWithoutId key)
        return none

/-- The schemas of some entries, in order. -/
def loadEntries (pointer : Option String) : List (String × Node) → Traced (List Schema)
  | [] => return []
  | (key, node) :: rest => do
    let schema ← loadEntry pointer key node
    let schemas ← loadEntries pointer rest
    return schema.toList ++ schemas

/-- The top-level schemas of a document. -/
def load (document : Json) (pointer : Option String) : Traced (List Schema) := do
  let root ← .quiet (root document pointer)
  let entries ← .quiet (entries root)
  let schemas ← loadEntries pointer entries
  .report (.loadedSchemas schemas.length)
  return schemas

/-- The top-level schemas of the document that a text holds. -/
def loadText (text : String) (pointer : Option String) : Traced (List Schema) := do
  let document ← .quiet (parse text)
  load document pointer

end Document
end TypedSchema
