/-!
# Schema/Name — the name that an identifier or a reference declares

Identifiers (`#Person`) and reference targets (`schemas.json#/definitions/Pet`) are named alike, by
their longest ending that has neither `#` nor `/`.
-/

namespace TypedSchema

/-- Whether a character can stand in a local name. -/
def isNameChar (c : Char) : Bool := c != '#' && c != '/'

/-- The longest ending of a text that has neither `#` nor `/`. -/
def localName (id : String) : String :=
  String.ofList (id.toList.reverse.takeWhile isNameChar).reverse

end TypedSchema
