import TypedSchema.Text.Split

/-!
# Files/Pattern — patterns for names

A pattern matches a whole name.  `?` stands for any character, `*` for any characters, and a class
between brackets for one character that it lists or, behind `!`, does not list; a class may list
ranges, and a closing bracket in first place is listed.  `**` is no part of a name: it has to be a
component of a path by itself, where it stands for any number of directories.
-/

namespace TypedSchema

/-- Part of a character class. -/
inductive CharRange where
  | single (c : Char)
  | range (first last : Char)
  deriving DecidableEq, Repr

/-- Whether a part of a class lists a character. -/
def CharRange.lists (c : Char) : CharRange → Bool
  | single d => c == d
  | range first last => first ≤ c && c ≤ last

/-- One token of a pattern. -/
inductive PatternToken where
  | char (c : Char)
  | anyChar
  | anyOf (parts : List CharRange)
  | noneOf (parts : List CharRange)
  | anyChars
  | anyDirectories
  deriving DecidableEq, Repr

/-- What is wrong with a pattern. -/
inductive PatternFlaw where
  | threeStars
  | starsInComponent
  | openClass
  deriving DecidableEq, Repr

/-- The wording of a flaw. -/
def PatternFlaw.message : PatternFlaw → String
  | threeStars => "wildcards are either regular `*` or recursive `**`"
  | starsInComponent => "recursive wildcards must form a single path component"
  | openClass => "invalid range pattern"

/-- A flaw, and the index of the character it is reported at. -/
structure PatternError where
  position : Nat
  flaw : PatternFlaw
  deriving DecidableEq, Repr

/-- The wording of an error. -/
def PatternError.message (e : PatternError) : String :=
  "Pattern syntax error near position " ++ Nat.repr e.position ++ ": " ++ e.flaw.message

/-- A pattern as its tokens. -/
abbrev Pattern := List PatternToken

namespace Pattern

/-! ## Reading -/

/-- The parts of a character class. -/
def classParts : List Char → List CharRange
  | first :: '-' :: last :: rest => .range first last :: classParts rest
  | c :: rest => .single c :: classParts rest
  | [] => []

/-- The class that the text behind an opening bracket begins with, and what follows its closing
bracket.  The first listed character is not looked at, so it can be a closing bracket. -/
def readClass? : List Char → Option (PatternToken × List Char)
  | '!' :: first :: rest =>
    if rest.contains ']' then
      some (.noneOf (classParts (first :: rest.takeWhile (· != ']'))),
        (rest.dropWhile (· != ']')).drop 1)
    else none
  | '!' :: [] => none
  | first :: rest =>
    if rest.contains ']' then
      some (.anyOf (classParts (first :: rest.takeWhile (· != ']'))),
        (rest.dropWhile (· != ']')).drop 1)
    else none
  | [] => none

/-- Reads the tokens of a pattern; `before` is the character in front of the text, if there is one,
and `position` the index of its first character.  A component `**` takes the slash behind it along.
Each token takes at least one character, so the length of the text bounds their number. -/
def readTokens (before : Option Char) (position : Nat) :
    Nat → List Char → Except PatternError Pattern
  | _, [] => .ok []
  | 0, _ :: _ => .ok []
  | fuel + 1, '?' :: rest =>
    (readTokens (some '?') (position + 1) fuel rest).map (.anyChar :: ·)
  | _ + 1, '*' :: '*' :: '*' :: _ => .error ⟨position + 2, .threeStars⟩
  | fuel + 1, '*' :: '*' :: rest =>
    if before = none || before = some '/' then
      match rest with
      | [] => .ok [.anyDirectories]
      | '/' :: rest =>
        (readTokens (some '/') (position + 3) fuel rest).map (.anyDirectories :: ·)
      | _ => .error ⟨position + 2, .starsInComponent⟩
    else .error ⟨position - 1, .starsInComponent⟩
  | fuel + 1, '*' :: rest =>
    (readTokens (some '*') (position + 1) fuel rest).map (.anyChars :: ·)
  | fuel + 1, '[' :: rest =>
    match readClass? rest with
    | none => .error ⟨position, .openClass⟩
    | some (token, rest') =>
      (readTokens (some ']') (position + 1 + (rest.length - rest'.length)) fuel rest').map
        (token :: ·)
  | fuel + 1, c :: rest =>
    (readTokens (some c) (position + 1) fuel rest).map (.char c :: ·)

/-- The pattern that a text denotes. -/
def parse (text : String) : Except PatternError Pattern :=
  readTokens none 0 text.length text.toList

/-- Whether a text is a pattern rather than the name of one file. -/
def isPattern (text : String) : Bool :=
  text.toList.any fun c => c == '*' || c == '?' || c == '['

/-! ## Matching -/

/-- Whether a token that stands for one character matches it. -/
def tokenMatches (c : Char) : PatternToken → Bool
  | .char d => c == d
  | .anyChar => true
  | .anyOf parts => parts.any (·.lists c)
  | .noneOf parts => !parts.any (·.lists c)
  | .anyChars => false
  | .anyDirectories => false

/-- Whether some ending of a name satisfies `p`. -/
def anySuffix (p : List Char → Bool) : List Char → Bool
  | [] => p []
  | c :: rest => p (c :: rest) || anySuffix p rest

/-- Whether a pattern matches a name. -/
def matchesName : Pattern → List Char → Bool
  | [], name => name.isEmpty
  | .anyChars :: rest, name => anySuffix (matchesName rest) name
  | _ :: _, [] => false
  | token :: rest, c :: name => tokenMatches c token && matchesName rest name

/-- The name that a pattern without wildcards stands for. -/
def literal? : Pattern → Option (List Char)
  | [] => some []
  | .char c :: rest => (literal? rest).map (c :: ·)
  | _ :: _ => none

/-- Whether a pattern stands for any number of directories. -/
def isAnyDirectories (pattern : Pattern) : Bool := pattern.contains .anyDirectories

end Pattern
end TypedSchema
