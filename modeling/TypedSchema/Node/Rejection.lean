import TypedSchema.Json.Printer
import TypedSchema.Schema.Basic

/-!
# Node/Rejection — why a node has no place among the schemas

A node is turned down for one of two causes.  A *misuse* combines keywords, or uses one, in a way
that no schema of the library expresses; a *flaw* is a value that no schema may have there.  Either
is reported with the steps that lead from the node under classification to the one that is to blame,
written as a slash-separated path.
-/

namespace TypedSchema

/-- A step from a node to a part of it. -/
inductive NodeStep where
  | property (name : String)
  | anyOf (i : Nat)
  | allOf (i : Nat)
  | items (i : Nat)
  | type
  | enum
  | enumValue (i : Nat)
  deriving DecidableEq, Repr

/-- The text of a step. -/
def NodeStep.text : NodeStep → String
  | property name => "/properties/" ++ name
  | anyOf i => "/anyOf/" ++ Nat.repr i
  | allOf i => "/allOf/" ++ Nat.repr i
  | items i => "/items/" ++ Nat.repr i
  | type => "/type"
  | enum => "/enum"
  | enumValue i => "/enum/" ++ Nat.repr i

/-- The text of the steps from a node. -/
def NodeStep.pathText (steps : List NodeStep) : String := String.join (steps.map NodeStep.text)

/-- A combination of keywords, or a keyword, that no schema expresses. -/
inductive Misuse where
  | keyword (name : String)
  | refCombined
  | refWithType
  | anyOfCombined
  | anyOfWithType
  | allOfWithType
  | foreignKeyword (name type : String)
  | multiTypeCombined
  | multiTypeMember (type : String)
  | allOfMember (shape : Shape)
  | topLevelAnyOf
  | topLevelAllOf
  deriving DecidableEq, Repr

/-- The wording of a misuse. -/
def Misuse.message : Misuse → String
  | keyword name => "keyword `" ++ name ++ "`"
  | refCombined => "$ref combined with anyOf/allOf/items/enum"
  | refWithType => "$ref combined with a non-object type"
  | anyOfCombined => "anyOf combined with allOf/properties/items/enum"
  | anyOfWithType => "anyOf with a `type`"
  | allOfWithType => "allOf on a non-object type"
  | foreignKeyword name type => "`" ++ name ++ "` on a schema of type `" ++ type ++ "`"
  | multiTypeCombined => "enum/items/properties/required on a multi-type schema"
  | multiTypeMember type => "`" ++ type ++ "` inside a multi-type `type` list"
  | allOfMember shape =>
    "allOf members must be plain `$ref`s or object schemas, found " ++ shape.label
  | topLevelAnyOf => "anyOf cannot be a top-level entry"
  | topLevelAllOf => "a top-level allOf needs an id to name it"

/-- A value that no schema may have at its place. -/
inductive Flaw where
  | noType
  | emptyTypeList
  | unknownType (name : String)
  | emptyEnum
  | literalOfOtherKind (value : Json) (kind : Kind)

/-- The wording of a flaw. -/
def Flaw.message : Flaw → String
  | noType => "schema has no type"
  | emptyTypeList => "empty type list"
  | unknownType name => "unknown type `" ++ name ++ "`"
  | emptyEnum => "enum must not be empty"
  | literalOfOtherKind value kind =>
    "enum literal " ++ value.compact ++ " does not match type `" ++ kind.keyword ++ "`"

/-- A misuse or a flaw, and the steps to the place it is reported at. -/
inductive Rejection where
  | misuse (steps : List NodeStep) (cause : Misuse)
  | flaw (steps : List NodeStep) (cause : Flaw)

/-- The same rejection, seen from one level further out. -/
def Rejection.under (step : NodeStep) : Rejection → Rejection
  | misuse steps cause => misuse (step :: steps) cause
  | flaw steps cause => flaw (step :: steps) cause

end TypedSchema
