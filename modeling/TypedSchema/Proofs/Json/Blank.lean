import TypedSchema.Proofs.Json.Text

/-!
# The two forms of a JSON text differ in blanks only

`Json.squeeze` deletes the blanks of a text outside its strings.  What an indented text is squeezed
to does not depend on what is behind it (`Json.Squeezes`), so pieces are squeezed one by one, and
the indented text of a value is squeezed to its compact text (`Json.squeezes_prettyAt`).
-/

namespace TypedSchema
namespace Json

/-! ## Deleting blanks -/

/-- The characters of a text without the blanks outside its strings; `quoted` says whether the text
begins inside a string. -/
def squeeze : (quoted : Bool) → List Char → List Char
  | _, [] => []
  | true, '\x5c' :: c :: rest => '\x5c' :: c :: squeeze true rest
  | true, c :: rest => c :: squeeze (c != '\x22') rest
  | false, c :: rest => if isBlank c then squeeze false rest else c :: squeeze (c == '\x22') rest

/-- A text without the blanks outside its strings. -/
def withoutBlanks (text : String) : String := String.ofList (squeeze false text.toList)

/-- The first text is squeezed to the second, whatever is behind it. -/
def Squeezes (s t : String) : Prop :=
  ∀ u, squeeze false (s.toList ++ u) = t.toList ++ squeeze false u

namespace Squeezes

lemma append {s s' t t' : String} (h : Squeezes s t) (h' : Squeezes s' t') :
    Squeezes (s ++ s') (t ++ t') := by
  intro u
  rw [String.toList_append, String.toList_append, List.append_assoc, List.append_assoc, h, h']

lemma join {sep sep' : String} {ss ts : List String} (hsep : Squeezes sep sep')
    (h : List.Forall₂ Squeezes ss ts) : Squeezes (Text.join sep ss) (Text.join sep' ts) := by
  induction h with
  | nil => exact fun _ => rfl
  | @cons s t ss ts hst hrest ih =>
    cases hrest with
    | nil => exact hst
    | cons => exact (hst.append hsep).append ih

lemma withoutBlanks_eq {s t : String} (h : Squeezes s t) : withoutBlanks s = t := by
  have hlist := h []
  rw [List.append_nil] at hlist
  rw [withoutBlanks, hlist, ← String.toList_inj, String.toList_ofList]
  exact List.append_nil _

end Squeezes

/-! ## Scalars -/

/-- A character that is no blank and no quote. -/
def isPlain (c : Char) : Bool := !isBlank c && c != '\x22'

/-- A text without blanks and quotes is left as it is. -/
lemma squeezes_of_plain {s : String} (h : ∀ c ∈ s.toList, isPlain c = true) : Squeezes s s := by
  intro u
  generalize s.toList = cs at h ⊢
  induction cs with
  | nil => rfl
  | cons c cs ih =>
    obtain ⟨hc, hrest⟩ := List.forall_mem_cons.1 h
    rw [isPlain, Bool.and_eq_true, Bool.not_eq_true', bne_iff_ne] at hc
    obtain ⟨hblank, hquote⟩ := hc
    have hstate : (c == '\x22') = false := beq_eq_false_iff_ne.2 hquote
    rw [List.cons_append, squeeze, hblank, if_neg Bool.false_ne_true, hstate, ih hrest,
      List.cons_append]

lemma squeeze_cons {c : Char} (hquote : c ≠ '\x22') (hbackslash : c ≠ '\x5c') (u : List Char) :
    squeeze true (c :: u) = c :: squeeze true u := by
  have hstate : (c != '\x22') = true := bne_iff_ne.2 hquote
  rw [squeeze, hstate]
  exact fun _ _ h _ => hbackslash h

lemma hexDigit_ne {n : Nat} (h : n < 16) : hexDigit n ≠ '\x22' ∧ hexDigit n ≠ '\x5c' := by
  have hall : ∀ n < 16, hexDigit n ≠ '\x22' ∧ hexDigit n ≠ '\x5c' := by decide
  exact hall n h

/-- Nothing is deleted inside a string. -/
lemma squeeze_escapeChar (c : Char) (u : List Char) :
    squeeze true (escapeChar c ++ u) = escapeChar c ++ squeeze true u := by
  unfold escapeChar
  split_ifs with hquote hbackslash hbackspace hfeed hnewline hreturn htab hcontrol
  case pos | pos | pos | pos | pos | pos | pos => rfl
  case pos =>
    obtain ⟨hhigh, hhigh'⟩ := hexDigit_ne (n := c.toNat / 16) (by omega)
    obtain ⟨hlow, hlow'⟩ := hexDigit_ne (n := c.toNat % 16) (by omega)
    show '\x5c' :: 'u' :: squeeze true ('0' :: '0' :: _ :: _ :: u) = _
    rw [squeeze_cons (by decide) (by decide), squeeze_cons (by decide) (by decide),
      squeeze_cons hhigh hhigh', squeeze_cons hlow hlow']
    rfl
  case neg => exact squeeze_cons hquote hbackslash u

lemma squeezes_stringText (s : String) : Squeezes (stringText s) (stringText s) := by
  intro u
  have hchars : squeeze true (s.toList.flatMap escapeChar ++ '\x22' :: u) =
      s.toList.flatMap escapeChar ++ '\x22' :: squeeze false u := by
    induction s.toList with
    | nil => rfl
    | cons c cs ih =>
      rw [List.flatMap_cons, List.append_assoc, squeeze_escapeChar, ih, List.append_assoc]
  simp only [toList_stringText, List.cons_append, List.append_assoc, List.nil_append]
  show '\x22' :: squeeze true (s.toList.flatMap escapeChar ++ '\x22' :: u) = _
  rw [hchars]

lemma prettyAt_of_isWord {v : Json} (h : v.IsWord) (level : Nat) :
    prettyAt level v = v.compact := by
  cases v with
  | null => rw [prettyAt, compact]
  | bool b => cases b <;> rw [prettyAt, compact]
  | integer n => rw [prettyAt, compact]
  | float x => rw [prettyAt, compact]
  | _ => simp [IsWord, head] at h

lemma isPlain_of_isWordChar {c : Char} (h : isWordChar c = true) : isPlain c = true := by
  by_contra hno
  simp only [isPlain, isBlank, Bool.and_eq_true, Bool.not_eq_true', Bool.or_eq_false_iff,
    decide_eq_false_iff_not, bne_iff_ne, not_and_or, Classical.not_not] at hno
  rcases hno with (((rfl | rfl) | rfl) | rfl) | rfl <;> exact absurd h (by decide)

lemma squeezes_word {v : Json} (h : v.IsWord) (level : Nat) :
    Squeezes (prettyAt level v) v.compact := by
  rw [prettyAt_of_isWord h]
  exact squeezes_of_plain fun c hc => isPlain_of_isWordChar (isWordChar_of_mem_compact h c hc)

/-! ## Lines -/

lemma squeezes_newline (level : Nat) : Squeezes (newline level) "" := by
  intro u
  simp only [newline, String.toList_append, String.toList_ofList]
  show squeeze false (List.replicate (2 * level) ' ' ++ u) = squeeze false u
  induction 2 * level with
  | zero => rfl
  | succ n ih => exact ih

lemma squeezes_colon : Squeezes ": " ":" := by
  intro u
  have hcolon : isBlank ':' = false := by decide
  have hblank : isBlank ' ' = true := by decide
  show squeeze false (':' :: ' ' :: u) = ':' :: squeeze false u
  rw [squeeze, hcolon, if_neg Bool.false_ne_true]
  show ':' :: squeeze false (' ' :: u) = _
  rw [squeeze, hblank, if_pos rfl]

/-- A block is squeezed to its brackets and, between commas, what its pieces are squeezed to. -/
lemma squeezes_block {opening closing : String} (level : Nat) (hopening : Squeezes opening opening)
    (hclosing : Squeezes closing closing) {ss ts : List String} (h : List.Forall₂ Squeezes ss ts) :
    Squeezes (block level opening closing ss) (opening ++ Text.join "," ts ++ closing) := by
  unfold block
  cases h with
  | nil =>
    show Squeezes (opening ++ closing) (opening ++ "" ++ closing)
    rw [String.append_empty]
    exact hopening.append hclosing
  | cons hst hrest =>
    have hcomma : Squeezes "," "," := squeezes_of_plain (List.all_eq_true.1 rfl)
    have h := (((hopening.append (squeezes_newline (level + 1))).append
      ((hcomma.append (squeezes_newline (level + 1))).join (.cons hst hrest))).append
      (squeezes_newline level)).append hclosing
    simp only [String.append_empty] at h
    rw [List.isEmpty_cons, if_neg Bool.false_ne_true]
    exact h

/-! ## Values -/

lemma prettyItems_eq_map (level : Nat) (items : List Json) :
    prettyItems level items = items.map (prettyAt level) := by
  induction items with
  | nil => rfl
  | cons v items ih => rw [prettyItems, ih, List.map_cons]

lemma prettyMembers_eq_map (level : Nat) (members : List (String × Json)) :
    prettyMembers level members =
      members.map fun m => stringText m.1 ++ ": " ++ prettyAt level m.2 := by
  induction members with
  | nil => rfl
  | cons m members ih => rw [prettyMembers, ih, List.map_cons]

/-- The indented text of a value is squeezed to its compact text, at every level. -/
theorem squeezes_prettyAt : ∀ (v : Json) (level : Nat), Squeezes (prettyAt level v) v.compact := by
  refine Json.induction ?null ?bool ?integer ?float ?string ?array ?object
  case null => exact squeezes_word (.inl rfl)
  case bool => exact fun b => squeezes_word (.inr (.inl rfl))
  case integer => exact fun n => squeezes_word (.inr (.inr rfl))
  case float => exact fun x => squeezes_word (isWord_float x)
  case string =>
    intro s level
    rw [prettyAt, compact]
    exact squeezes_stringText s
  case array =>
    intro items ih level
    rw [prettyAt, compact, prettyItems_eq_map, compactItems_eq_map]
    refine squeezes_block level (squeezes_of_plain (List.all_eq_true.1 rfl))
      (squeezes_of_plain (List.all_eq_true.1 rfl)) ?_
    rw [List.forall₂_map_left_iff, List.forall₂_map_right_iff, List.forall₂_same]
    exact fun v hv => ih v hv (level + 1)
  case object =>
    intro members ih level
    rw [prettyAt, compact, prettyMembers_eq_map, compactMembers_eq_map]
    refine squeezes_block level (squeezes_of_plain (List.all_eq_true.1 rfl))
      (squeezes_of_plain (List.all_eq_true.1 rfl)) ?_
    rw [List.forall₂_map_left_iff, List.forall₂_map_right_iff, List.forall₂_same]
    exact fun m hm => ((squeezes_stringText m.1).append squeezes_colon).append (ih m hm (level + 1))

/-- The indented text of a document is the compact one with blanks outside of strings. -/
theorem withoutBlanks_pretty (v : Json) : withoutBlanks v.pretty = v.compact :=
  (squeezes_prettyAt v 0).withoutBlanks_eq

end Json
end TypedSchema
