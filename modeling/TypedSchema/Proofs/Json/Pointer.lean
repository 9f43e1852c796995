import TypedSchema.Json.Pointer
import TypedSchema.Proofs.Decimal.Layout

/-!
# Pointers are lists of tokens

A pointer is the tokens that it is cut into (`Json.pointerTokens?`), and it leads from child to
child (`Json.at?`, `Json.pointer?_eq`).  So one pointer behind another leads on from where the first
leads (`Json.pointerTokens?_append`).

Names and numbers are written into pointers as they are.  A number stands for itself
(`Json.pointerToken_repr`, `Json.pointerIndex?_repr`); a name does so only if it has nothing that a
pointer reads otherwise.
-/

namespace TypedSchema

/-! ## Cutting -/

namespace Text

lemma splitOn_of_notMem {sep : Char} {s : List Char} (h : sep ∉ s) : splitOn sep s = [s] := by
  induction s with
  | nil => rfl
  | cons c rest ih =>
    rw [List.mem_cons, not_or] at h
    rw [splitOn, if_neg (Ne.symm h.1), ih h.2]

/-- A text is cut at a separator into the pieces in front of it and those behind it. -/
lemma splitOn_append (sep : Char) (s t : List Char) :
    splitOn sep (s ++ sep :: t) = splitOn sep s ++ splitOn sep t := by
  induction s with
  | nil => exact if_pos rfl
  | cons c rest ih =>
    rw [List.cons_append, splitOn, splitOn, ih]
    split
    · rfl
    · cases hpieces : splitOn sep rest with
      | nil => exact absurd hpieces (splitOn_ne_nil sep rest)
      | cons piece pieces => rfl

/-- There is one piece more than there are separators. -/
lemma length_splitOn (sep : Char) (s : List Char) :
    (splitOn sep s).length = s.count sep + 1 := by
  induction s with
  | nil => rfl
  | cons c rest ih =>
    rw [splitOn]
    split
    · rename_i heq
      rw [heq, List.count_cons_self, List.length_cons, ih]
    · rename_i hne
      rw [List.count_cons_of_ne hne, ← ih]
      cases hpieces : splitOn sep rest with
      | nil => exact absurd hpieces (splitOn_ne_nil sep rest)
      | cons piece pieces => rfl

end Text

namespace Json

/-! ## Tokens -/

/-- The value that some tokens lead to, one after the other. -/
def at? (v : Json) (tokens : List String) : Option Json :=
  tokens.foldl (fun value token => value.bind (child? token)) (some v)

/-- The tokens of a pointer. -/
def pointerTokens? (pointer : String) : Option (List String) :=
  match pointer.toList with
  | [] => some []
  | '/' :: rest => some ((Text.splitOn '/' rest).map pointerToken)
  | _ => none

/-- A pointer leads to the value that its tokens lead to. -/
lemma pointer?_eq (pointer : String) (v : Json) :
    v.pointer? pointer = (pointerTokens? pointer).bind v.at? := by
  unfold pointer? pointerTokens?
  generalize pointer.toList = chars
  split
  · rfl
  · show _ = v.at? ((Text.splitOn '/' _).map pointerToken)
    rw [at?, List.foldl_map]
  · simp_all

lemma foldl_child?_none (tokens : List String) :
    tokens.foldl (fun value token => value.bind (child? token)) (none : Option Json) = none := by
  induction tokens with
  | nil => rfl
  | cons token tokens ih => exact ih

lemma at?_cons (v : Json) (token : String) (tokens : List String) :
    v.at? (token :: tokens) = (v.child? token).bind fun w => w.at? tokens := by
  rw [at?, List.foldl_cons, Option.bind_some]
  cases v.child? token with
  | none => exact foldl_child?_none tokens
  | some w => rfl

lemma at?_append (v : Json) (xs ys : List String) :
    v.at? (xs ++ ys) = (v.at? xs).bind fun w => w.at? ys := by
  induction xs generalizing v with
  | nil => rfl
  | cons token xs ih =>
    rw [List.cons_append, at?_cons, at?_cons, Option.bind_assoc]
    exact congrArg _ (funext ih)

/-- What there is to read of a pointer that has tokens. -/
lemma pointerTokens?_eq_some {pointer : String} {tokens : List String} :
    pointerTokens? pointer = some tokens ↔ pointer.toList = [] ∧ tokens = [] ∨
      ∃ rest, pointer.toList = '/' :: rest ∧
        tokens = (Text.splitOn '/' rest).map pointerToken := by
  unfold pointerTokens?
  split
  case h_1 h => simp [h, eq_comm]
  case h_2 rest h => simp [h, eq_comm]
  case h_3 hempty hslash =>
    exact iff_of_false nofun fun h => h.elim (fun h => hempty h.1) fun ⟨rest, h, _⟩ => hslash rest h

/-- The tokens of a pointer behind another. -/
lemma pointerTokens?_append {p q : String} {xs ys : List String} (hp : pointerTokens? p = some xs)
    (hq : pointerTokens? q = some ys) : pointerTokens? (p ++ q) = some (xs ++ ys) := by
  rw [pointerTokens?_eq_some] at hp hq ⊢
  rw [String.toList_append]
  rcases hp with ⟨hp, rfl⟩ | ⟨s, hp, rfl⟩
  · rwa [hp]
  rcases hq with ⟨hq, rfl⟩ | ⟨t, hq, rfl⟩
  · exact .inr ⟨s, by rw [hp, hq, List.append_nil], List.append_nil _⟩
  · refine .inr ⟨s ++ '/' :: t, by rw [hp, hq, List.cons_append], ?_⟩
    rw [Text.splitOn_append, List.map_append]

/-! ## Tokens that stand for themselves -/

lemma unescape_of_notMem {mark replacement : Char} {token : List Char} (h : '~' ∉ token) :
    unescape mark replacement token = token := by
  induction token with
  | nil => rfl
  | cons c rest ih =>
    rw [List.mem_cons, not_or] at h
    unfold unescape
    split
    · rename_i hcons
      exact absurd (List.cons.inj hcons).1.symm h.1
    · rename_i hcons
      cases hcons
      rw [ih h.2]
    · rename_i hnil
      exact hnil.symm

lemma pointerToken_of_notMem {token : List Char} (h : '~' ∉ token) :
    pointerToken token = String.ofList token := by
  rw [pointerToken, unescape_of_notMem h, unescape_of_notMem h]

lemma notMem_repr {c : Char} (hc : c.isDigit = false) (n : Nat) : c ∉ (Nat.repr n).toList := by
  rw [Nat.toList_repr]
  exact fun hmem => Bool.false_ne_true
    (hc.symm.trans (Layout.isDigit_of_mem_toDigits c hmem))

lemma pointerToken_repr (n : Nat) : pointerToken (Nat.repr n).toList = Nat.repr n := by
  rw [pointerToken_of_notMem (notMem_repr rfl n), String.ofList_toList]

/-- A number is the index that its text denotes. -/
lemma pointerIndex?_repr (n : Nat) : pointerIndex? (Nat.repr n) = some n := by
  unfold pointerIndex?
  rw [Nat.toList_repr]
  split
  case h_1 h => exact absurd h Nat.toDigits_ne_nil
  case h_2 h =>
    rw [← Decimal.digitsValue_toDigits n, h]
    rfl
  case h_3 rest hne h =>
    have hzero := Decimal.toDigits_eq_zero_of_head? (congrArg List.head? h)
    exact absurd (List.cons.inj (h.symm.trans hzero)).2 hne
  case h_4 =>
    rw [if_pos (List.all_eq_true.2 Layout.isDigit_of_mem_toDigits), Decimal.digitsValue_toDigits]

lemma child?_repr (items : List Json) (i : Nat) :
    (array items).child? (Nat.repr i) = items[i]? := by
  rw [child?, pointerIndex?_repr, Option.bind_some]

end Json
end TypedSchema
