import TypedSchema.Json.Number
import TypedSchema.Members

/-!
# Json/Parser — reading JSON texts

Each reader takes what is left of the text and returns a value and what is left after it, with a
proof that something was read (`Json.Scanned`).  Nesting is bounded: `Json.scanValue` recurses on
the number of levels that may still be opened, and the members of one array or object are read by a
loop that ends because its text gets shorter.

## Errors

Which of two errors is reported, and where, is part of the format.  A reader that took the wrong
byte reports the position behind it; one that only looks at a byte reports the position behind that
byte without having taken it, so both end in the same column.  Inside `\u` escapes four bytes are
taken before they are looked at, whatever they are.
-/

namespace TypedSchema
namespace Json

/-! ## Results -/

/-- A value read off the front of `s`, and what is left. -/
structure Scanned (α : Type) (s : List Char) where
  value : α
  rest : List Char
  shorter : rest.length < s.length

/-- The result of reading a value off the front of `s`. -/
abbrev Scan (α : Type) (s : List Char) := Except SyntaxError (Scanned α s)

/-- A reader of values. -/
abbrev Reader (α : Type) := (s : List Char) → Scan α s

/-- The same result, seen as read off a longer text, its value changed. -/
def Scanned.lift {α β : Type} {s t : List Char} (f : α → β) (h : s.length ≤ t.length)
    (r : Scanned α s) : Scanned β t :=
  ⟨f r.value, r.rest, Nat.lt_of_lt_of_le r.shorter h⟩

/-! ## Blanks -/

/-- The blanks of JSON texts. -/
def isBlank (c : Char) : Bool := c = ' ' || c = '\n' || c = '\t' || c = '\r'

/-- What follows the blanks at the front. -/
def skipBlank (s : List Char) : List Char := s.dropWhile isBlank

theorem length_skipBlank_le (s : List Char) : (skipBlank s).length ≤ s.length :=
  (List.dropWhile_suffix _).length_le

/-! ## Strings -/

/-- The value of a hexadecimal digit. -/
def hexValue? (c : Char) : Option Nat :=
  if c.isDigit then some (c.toNat - 48)
  else if 'a' ≤ c && c ≤ 'f' then some (c.toNat - 87)
  else if 'A' ≤ c && c ≤ 'F' then some (c.toNat - 55)
  else none

/-- The value of four hexadecimal digits. -/
def hexValue4? (a b c d : Char) : Option Nat := do
  return ((((← hexValue? a) * 16 + (← hexValue? b)) * 16 + (← hexValue? c)) * 16 + (← hexValue? d))

/-- The error of an escape whose four bytes, the next ones in `s`, are not hexadecimal digits. -/
def hexError (s : List Char) : SyntaxError :=
  if Text.utf8Length s < 4 then .after 0 [] .endInString else .after 4 s .invalidEscape

/-- The character that a letter behind a backslash stands for. -/
def escapeValue? (c : Char) : Option Char :=
  match c with
  | '\x22' => some '\x22'
  | '\x5c' => some '\x5c'
  | '/' => some '/'
  | 'b' => some '\x08'
  | 'f' => some '\x0c'
  | 'n' => some '\n'
  | 'r' => some '\r'
  | 't' => some '\t'
  | _ => none

/-- Whether a 16-bit unit is the first of a pair. -/
def isLeading (unit : Nat) : Bool := 0xD800 ≤ unit && unit ≤ 0xDBFF

/-- Whether a 16-bit unit is the second of a pair. -/
def isTrailing (unit : Nat) : Bool := 0xDC00 ≤ unit && unit ≤ 0xDFFF

/-- The character of a pair of 16-bit units. -/
def pairValue (leading trailing : Nat) : Char :=
  Char.ofNat (0x10000 + (leading - 0xD800) * 0x400 + (trailing - 0xDC00))

/-- Adds a character in front of what was read behind it. -/
def Scanned.cons {s t : List Char} (c : Char) (h : s.length ≤ t.length)
    (r : Scanned (List Char) s) : Scanned (List Char) t :=
  r.lift (c :: ·) h

/-- Reads the characters of a string up to its closing quote. -/
def scanString : (s : List Char) → Scan (List Char) s
  | [] => .error (.after 0 [] .endInString)
  | '\x22' :: rest => .ok ⟨[], rest, by simp⟩
  | '\x5c' :: [] => .error (.after 0 [] .endInString)
  | '\x5c' :: 'u' :: a :: b :: c :: d :: rest =>
    match hexValue4? a b c d with
    | none => .error (hexError (a :: b :: c :: d :: rest))
    | some unit =>
      if isTrailing unit then .error (.after 0 rest .loneSurrogate)
      else if isLeading unit then
        match rest with
        | '\x5c' :: 'u' :: e :: f :: g :: h :: rest =>
          match hexValue4? e f g h with
          | none => .error (hexError (e :: f :: g :: h :: rest))
          | some second =>
            if isTrailing second then
              (scanString rest).map (·.cons (pairValue unit second) (by simp; omega))
            else .error (.after 0 rest .loneSurrogate)
        | '\x5c' :: 'u' :: rest => .error (hexError rest)
        | '\x5c' :: [] => .error (.after 0 [] .endInString)
        | '\x5c' :: rest => .error (.after 1 rest .unexpectedEscapeEnd)
        | [] => .error (.after 0 [] .endInString)
        | rest => .error (.after 1 rest .unexpectedEscapeEnd)
      else (scanString rest).map (·.cons (Char.ofNat unit) (by simp; omega))
  | '\x5c' :: 'u' :: rest => .error (hexError rest)
  | '\x5c' :: letter :: rest =>
    match escapeValue? letter with
    | none => .error (.after 1 (letter :: rest) .invalidEscape)
    | some c => (scanString rest).map (·.cons c (by simp; omega))
  | c :: rest =>
    if c.toNat < 0x20 then .error (.after 1 (c :: rest) .controlCharacter)
    else (scanString rest).map (·.cons c (by simp))

/-! ## Words and numbers -/

/-- Takes the characters of a word off the front, one by one. -/
def skipWord : List Char → (s : List Char) →
    Except SyntaxError { rest : List Char // rest.length ≤ s.length }
  | [], s => .ok ⟨s, Nat.le_refl _⟩
  | _ :: _, [] => .error (.after 0 [] .endInValue)
  | w :: word, c :: rest =>
    if c = w then (skipWord word rest).map fun r => ⟨r.1, Nat.le_succ_of_le r.2⟩
    else .error (.after 1 (c :: rest) .identExpected)

/-- Reads a number behind its sign. -/
def scanNumber (negative : Bool) : Reader Json := fun s =>
  match h : scanNumberText s with
  | .error error => .error error
  | .ok t => (t.value negative).map fun value => ⟨value, t.rest, length_rest_lt h⟩

/-! ## Arrays and objects -/

/-- Reads the rest of a comma-separated list behind its first entry. -/
def scanMore {α : Type} (entry : Reader α) (closing : Char) (unclosed missing : SyntaxReason)
    (s : List Char) : Scan (List α) s :=
  have hs := length_skipBlank_le s
  match skipBlank s, hs with
  | [], _ => .error (.at [] unclosed)
  | c :: rest, hs =>
    if c = closing then .ok ⟨[], rest, hs⟩
    else if c = ',' then
      have hr := length_skipBlank_le rest
      match skipBlank rest, hr with
      | [], _ => .error (.at [] .endInValue)
      | d :: tail, hr =>
        if d = closing then .error (.at (d :: tail) .trailingComma)
        else
          match entry (d :: tail) with
          | .error error => .error error
          | .ok first =>
            have hlt : first.rest.length < s.length :=
              Nat.lt_trans (Nat.lt_of_lt_of_le first.shorter hr) hs
            (scanMore entry closing unclosed missing first.rest).map
              (·.lift (first.value :: ·) (Nat.le_of_lt hlt))
    else .error (.at (c :: rest) missing)
  termination_by s.length

/-- Reads a comma-separated list behind its opening bracket. -/
def scanList {α : Type} (entry : Reader α) (closing : Char) (unclosed missing : SyntaxReason)
    (s : List Char) : Scan (List α) s :=
  have hs := length_skipBlank_le s
  match skipBlank s, hs with
  | [], _ => .error (.at [] unclosed)
  | c :: rest, hs =>
    if c = closing then .ok ⟨[], rest, hs⟩
    else do
      let first ← entry (c :: rest)
      let others ← scanMore entry closing unclosed missing first.rest
      return others.lift (first.value :: ·)
        (Nat.le_trans (Nat.le_of_lt first.shorter) hs)

/-- Reads a colon and the value behind it. -/
def scanColon (value : Reader Json) : Reader Json := fun s =>
  have hs := length_skipBlank_le s
  match skipBlank s, hs with
  | [], _ => .error (.at [] .endInObject)
  | c :: rest, hs =>
    if c = ':' then (value rest).map (·.lift id (Nat.le_of_succ_le hs))
    else .error (.at (c :: rest) .colonExpected)

/-- Reads a member of an object. -/
def scanMember (value : Reader Json) : Reader (String × Json)
  | [] => .error (.at [] .keyNotString)
  | c :: rest =>
    if c = '\x22' then do
      let key ← scanString rest
      let v ← scanColon value key.rest
      return v.lift (String.ofList key.value, ·) (Nat.le_succ_of_le (Nat.le_of_lt key.shorter))
    else .error (.at (c :: rest) .keyNotString)

/-! ## Values and documents -/

/-- Reads a value behind its blanks, with this many levels of nesting left to open. -/
def scanValue : Nat → Reader Json
  | depth, s =>
    have hs := length_skipBlank_le s
    match skipBlank s, hs with
    | [], _ => .error (.at [] .endInValue)
    | c :: rest, hs =>
      have hr : rest.length ≤ s.length := by simp only [List.length_cons] at hs; omega
      let word (value : Json) (letters : List Char) : Scan Json s :=
        (skipWord letters rest).map fun r => ⟨value, r.1, Nat.lt_of_le_of_lt r.2 hs⟩
      if c = 'n' then word null ['u', 'l', 'l']
      else if c = 't' then word (bool true) ['r', 'u', 'e']
      else if c = 'f' then word (bool false) ['a', 'l', 's', 'e']
      else if c = '-' then (scanNumber true rest).map (·.lift id hr)
      else if c.isDigit then (scanNumber false (c :: rest)).map (·.lift id hs)
      else if c = '\x22' then
        (scanString rest).map (·.lift (fun cs => string (String.ofList cs)) hr)
      else if c = '[' then
        match depth with
        | 0 => .error (.at (c :: rest) .nestedTooDeep)
        | depth + 1 =>
          (scanList (scanValue depth) ']' .endInList .listEndExpected rest).map (·.lift array hr)
      else if c = '\x7b' then
        match depth with
        | 0 => .error (.at (c :: rest) .nestedTooDeep)
        | depth + 1 =>
          (scanList (scanMember (scanValue depth)) '\x7d' .endInObject .objectEndExpected rest).map
            (·.lift (fun pairs => object (distinctMembers pairs)) hr)
      else .error (.at (c :: rest) .valueExpected)

/-- How many arrays and objects may be open at once. -/
def maxDepth : Nat := 127

/-- The document that a text holds. -/
def parse (text : String) : Except SyntaxError Json := do
  let document ← scanValue maxDepth text.toList
  match skipBlank document.rest with
  | [] => return document.value
  | rest => .error (.at rest .trailingCharacters)

end Json
end TypedSchema
