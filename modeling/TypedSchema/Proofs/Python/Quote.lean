import Mathlib.Tactic.Lemma
import Mathlib.Tactic.SplitIfs
import TypedSchema.Python.Literal

/-!
# Strings in source are read back

`Python.readQuoted?` reads a string between single quotes from the front of a text: it undoes the
escapes one by one and stops at the first quote that is not escaped.  Whatever follows a quoted
string, the reader takes exactly the quoted string and gives what was quoted
(`Python.readQuoted?_quoteChars`), so quoting is one-to-one and says itself where it ends.  No
escape has a control in it, so all this happens on one line (`Python.quote_self_delimiting`).
-/

namespace TypedSchema
namespace Python

/-! ## The reader -/

/-- The value of a hexadecimal digit. -/
def hexValue? (c : Char) : Option Nat :=
  if '0' ≤ c ∧ c ≤ '9' then some (c.toNat - '0'.toNat)
  else if 'a' ≤ c ∧ c ≤ 'f' then some (c.toNat - 'a'.toNat + 10)
  else if 'A' ≤ c ∧ c ≤ 'F' then some (c.toNat - 'A'.toNat + 10)
  else none

/-- Reads one character of a string, which may be escaped. -/
def readEscaped? : List Char → Option (Char × List Char)
  | [] => none
  | '\x5c' :: '\x5c' :: rest => some ('\x5c', rest)
  | '\x5c' :: '\x27' :: rest => some ('\x27', rest)
  | '\x5c' :: 'n' :: rest => some ('\n', rest)
  | '\x5c' :: 'r' :: rest => some ('\r', rest)
  | '\x5c' :: 't' :: rest => some ('\t', rest)
  | '\x5c' :: 'x' :: high :: low :: rest => do
    return (Char.ofNat (16 * (← hexValue? high) + (← hexValue? low)), rest)
  | '\x5c' :: _ => none
  | c :: rest => some (c, rest)

/-- Reads the characters of a string up to its closing quote; `fuel` bounds their number. -/
def readCharacters? : Nat → List Char → Option (List Char × List Char)
  | 0, _ => none
  | _ + 1, '\x27' :: rest => some ([], rest)
  | fuel + 1, text => do
    let (c, rest) ← readEscaped? text
    let (s, rest) ← readCharacters? fuel rest
    return (c :: s, rest)

/-- Reads a string between single quotes from the front of a text, and gives what is behind it. -/
def readQuoted? : List Char → Option (List Char × List Char)
  | '\x27' :: rest => readCharacters? rest.length rest
  | _ => none

/-! ## One character -/

lemma hexValue?_hexDigit {n : Nat} (h : n < 16) : hexValue? (Json.hexDigit n) = some n := by
  have hall : ∀ n < 16, hexValue? (Json.hexDigit n) = some n := by decide
  exact hall n h

/-- Two hexadecimal digits are enough for any control. -/
lemma toNat_lt_of_isControl {c : Char} (h : isControl c = true) : c.toNat < 160 := by
  simp only [isControl, Bool.or_eq_true, Bool.and_eq_true, decide_eq_true_eq] at h
  omega

lemma readEscaped?_escapeChar (c : Char) (u : List Char) :
    readEscaped? (escapeChar c ++ u) = some (c, u) := by
  unfold escapeChar
  split_ifs with hbackslash hquote hnewline hreturn htab hcontrol
  · rw [hbackslash]
    rfl
  · rw [hquote]
    rfl
  · rw [hnewline]
    rfl
  · rw [hreturn]
    rfl
  · rw [htab]
    rfl
  · have hlt := toNat_lt_of_isControl hcontrol
    have hhigh := hexValue?_hexDigit (n := c.toNat / 16) (by omega)
    have hlow := hexValue?_hexDigit (n := c.toNat % 16) (by omega)
    show (do return (Char.ofNat (16 * (← hexValue? _) + (← hexValue? _)), u)) = _
    rw [hhigh, hlow]
    simp [Nat.div_add_mod]
  · rw [List.singleton_append]
    unfold readEscaped?
    split <;> simp_all

/-- No escape begins with a quote. -/
lemma escapeChar_ne_quote (c : Char) :
    ∃ first rest, escapeChar c = first :: rest ∧ first ≠ '\x27' := by
  unfold escapeChar
  split_ifs with hbackslash hquote
  all_goals first | exact ⟨'\x5c', _, rfl, by decide⟩ | exact ⟨c, [], rfl, hquote⟩

/-! ## Whole strings -/

lemma readCharacters?_succ {fuel : Nat} {first : Char} {text : List Char}
    (hfirst : first ≠ '\x27') :
    readCharacters? (fuel + 1) (first :: text) = do
      let (c, rest) ← readEscaped? (first :: text)
      let (s, rest) ← readCharacters? fuel rest
      return (c :: s, rest) := by
  rw [readCharacters?]
  exact fun rest h => hfirst (List.cons.inj h).1

lemma readCharacters?_flatMap {fuel : Nat} {s : List Char} (h : s.length < fuel) (u : List Char) :
    readCharacters? fuel (s.flatMap escapeChar ++ '\x27' :: u) = some (s, u) := by
  induction s generalizing fuel with
  | nil =>
    obtain ⟨fuel, rfl⟩ := Nat.exists_eq_succ_of_ne_zero (Nat.ne_of_gt h)
    rfl
  | cons c s ih =>
    obtain ⟨fuel, rfl⟩ := Nat.exists_eq_succ_of_ne_zero (Nat.ne_of_gt (Nat.zero_lt_of_lt h))
    obtain ⟨first, rest, hescape, hfirst⟩ := escapeChar_ne_quote c
    have hread := readEscaped?_escapeChar c (s.flatMap escapeChar ++ '\x27' :: u)
    rw [hescape, List.cons_append] at hread
    rw [List.flatMap_cons, List.append_assoc, hescape, List.cons_append,
      readCharacters?_succ hfirst, hread]
    simp [ih (Nat.lt_of_succ_lt_succ h)]

lemma length_le_length_flatMap_escapeChar (s : List Char) :
    s.length ≤ (s.flatMap escapeChar).length := by
  induction s with
  | nil => exact Nat.le_refl 0
  | cons c s ih =>
    obtain ⟨first, rest, hescape, _⟩ := escapeChar_ne_quote c
    rw [List.flatMap_cons, hescape, List.length_append, List.length_cons, List.length_cons]
    omega

/-- A quoted string is read back from the front of any text, and what is behind it is left. -/
theorem readQuoted?_quoteChars (s u : List Char) :
    readQuoted? (quoteChars s ++ u) = some (s, u) := by
  have hlength := length_le_length_flatMap_escapeChar s
  unfold quoteChars
  rw [List.append_assoc, List.singleton_append]
  refine readCharacters?_flatMap ?_ u
  show s.length < (s.flatMap escapeChar ++ '\x27' :: u).length
  rw [List.length_append, List.length_cons]
  omega

lemma quoteChars_append_inj {s t u v : List Char} (h : quoteChars s ++ u = quoteChars t ++ v) :
    s = t ∧ u = v := by
  have hread := congrArg readQuoted? h
  rw [readQuoted?_quoteChars, readQuoted?_quoteChars] at hread
  exact Prod.mk.inj (Option.some.inj hread)

/-! ## Without controls -/

lemma isControl_hexDigit {n : Nat} (h : n < 16) : isControl (Json.hexDigit n) = false := by
  have hall : ∀ n < 16, isControl (Json.hexDigit n) = false := by decide
  exact hall n h

lemma forall_mem_letterEscape {letter : Char} (h : isControl letter = false) :
    ∀ d ∈ ['\x5c', letter], isControl d = false :=
  List.forall_mem_cons.2 ⟨rfl, List.forall_mem_singleton.2 h⟩

/-- What stands for a character has no control in it, whether the character is one or not. -/
lemma forall_mem_escapeChar (c : Char) : ∀ d ∈ escapeChar c, isControl d = false := by
  unfold escapeChar
  split_ifs with hbackslash hquote hnewline hreturn htab hcontrol
  any_goals exact forall_mem_letterEscape rfl
  case pos =>
    have hlt := toNat_lt_of_isControl hcontrol
    have hhigh := isControl_hexDigit (n := c.toNat / 16) (by omega)
    have hlow := isControl_hexDigit (n := c.toNat % 16) (by omega)
    refine List.forall_mem_cons.2 ⟨rfl, List.forall_mem_cons.2 ⟨rfl, ?_⟩⟩
    exact List.forall_mem_cons.2 ⟨hhigh, List.forall_mem_singleton.2 hlow⟩
  case neg => exact List.forall_mem_singleton.2 (Bool.eq_false_iff.2 hcontrol)

lemma forall_mem_quoteChars (s : List Char) : ∀ c ∈ quoteChars s, isControl c = false := by
  intro c hc
  rw [quoteChars, List.mem_append, List.mem_cons, List.mem_singleton, List.mem_flatMap] at hc
  rcases hc with (rfl | ⟨d, -, hd⟩) | rfl
  · rfl
  · exact forall_mem_escapeChar d c hd
  · rfl

/-- **A string between quotes is read back from the front of any text**, and it has no line break or
other control in it; so no two strings are quoted alike. -/
theorem quote_self_delimiting :
    (∀ s u : String, readQuoted? (quote s ++ u).toList = some (s.toList, u.toList)) ∧
    (∀ s : String, ∀ c ∈ (quote s).toList, isControl c = false) ∧
    Function.Injective quote := by
  have hread : ∀ s u : String, readQuoted? (quote s ++ u).toList = some (s.toList, u.toList) := by
    intro s u
    rw [String.toList_append, quote, String.toList_ofList]
    exact readQuoted?_quoteChars s.toList u.toList
  refine ⟨hread, fun s => ?_, fun s t h => ?_⟩
  · rw [quote, String.toList_ofList]
    exact forall_mem_quoteChars s.toList
  · have hsame := hread s ""
    rw [h, hread t "", Option.some.injEq, Prod.mk.injEq] at hsame
    exact String.toList_injective hsame.1.symm

end Python
end TypedSchema
