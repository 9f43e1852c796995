import TypedSchema.Fault
import TypedSchema.Proofs.Json.Number
import TypedSchema.Proofs.Python.Quote
import TypedSchema.Proofs.Text.Unambiguous

/-!
# The text of a literal determines the literal

Two literals of one text that are no strings are equal (`Python.literal_injective_of_ne_string`):
the text shows the kind, and inside a kind different values are written differently.  A literal is
also told apart from what follows it in a list of literals (`Python.unambiguous_literal`): a string
by its quotes, and anything else by the comma or bracket behind it, which it does not contain.
-/

namespace TypedSchema
namespace Python

/-! ## Numbers -/

lemma floatLayout_positional (leading : Int) : floatLayout.positional leading = true := rfl

lemma mem_finiteText {negative : Bool} {rank : Nat} {c : Char}
    (h : c ∈ (floatLayout.text negative rank).toList) : c.isDigit = true ∨ c = '.' ∨ c = '-' := by
  rw [Layout.toList_text, Layout.magnitudeText_of_positional floatLayout_positional] at h
  split at h
  · rcases List.mem_cons.1 h with h | h
    · exact .inr (.inr h)
    · exact (Layout.isDigit_or_point_of_mem_positionalText h).imp_right .inl
  · exact (Layout.isDigit_or_point_of_mem_positionalText h).imp_right .inl

lemma letter_mem_infinityText (negative : Bool) : 'f' ∈ (float (.infinity negative)).toList := by
  cases negative <;> decide

lemma letter_notMem_finiteText {negative : Bool} {rank : Nat} :
    'f' ∉ (floatLayout.text negative rank).toList := by
  intro h
  rcases mem_finiteText h with h | h | h <;> exact absurd h (by decide)

/-- Texts of numbers that are not integers are the same only for the same number. -/
lemma float_injective {x y : Binary64} (h : (float x).toList = (float y).toList) :
    x.same y = true := by
  match x, y with
  | .nan, .nan => rfl
  | .nan, .infinity b => cases b <;> exact absurd h (by decide)
  | .infinity a, .nan => cases a <;> exact absurd h (by decide)
  | .infinity a, .infinity b =>
    cases a <;> cases b <;> first | rfl | exact absurd h (by decide)
  | .nan, .finite b s =>
    have hmem : 'f' ∈ (float .nan).toList := by decide
    exact absurd (h ▸ hmem) letter_notMem_finiteText
  | .infinity a, .finite b s =>
    exact absurd (h ▸ letter_mem_infinityText a) letter_notMem_finiteText
  | .finite a r, .nan =>
    have hmem : 'f' ∈ (float .nan).toList := by decide
    exact absurd (h.symm ▸ hmem) letter_notMem_finiteText
  | .finite a r, .infinity b =>
    exact absurd (h.symm ▸ letter_mem_infinityText b) letter_notMem_finiteText
  | .finite a r, .finite b s =>
    obtain ⟨rfl, hrank⟩ := Layout.text_injective (String.toList_inj.1 h)
    rw [Fin.ext hrank]
    exact Binary64.same_refl _

/-! ## Kinds -/

/-- The kind of literal that a text without quotes shows. -/
def shownKind (text : List Char) : Kind :=
  if 'N' ∈ text then .null
  else if 'T' ∈ text ∨ 'F' ∈ text then .boolean
  else if 'f' ∈ text ∨ '.' ∈ text then .number
  else .integer

lemma point_mem_finiteText {negative : Bool} {rank : Nat} :
    '.' ∈ (floatLayout.text negative rank).toList := by
  have hmagnitude : '.' ∈ (floatLayout.magnitudeText rank).toList := by
    rw [Layout.magnitudeText_of_positional floatLayout_positional]
    exact Layout.point_mem_positionalText rfl _ _
  rw [Layout.toList_text]
  split
  · exact List.mem_cons_of_mem _ hmagnitude
  · exact hmagnitude

lemma shownKind_integerText (n : Int) : shownKind (Json.integerText n).toList = .integer := by
  have hnot : ∀ c : Char, c.isDigit = false → c ≠ '-' → c ∉ (Json.integerText n).toList := by
    intro c hdigit hminus hmem
    rcases Json.mem_integerText hmem with h | h
    · exact absurd (h.symm.trans hdigit) (by decide)
    · exact hminus h
  unfold shownKind
  rw [if_neg (hnot 'N' (by decide) (by decide)), if_neg, if_neg]
  · rintro (h | h)
    · exact hnot 'f' (by decide) (by decide) h
    · exact hnot '.' (by decide) (by decide) h
  · rintro (h | h)
    · exact hnot 'T' (by decide) (by decide) h
    · exact hnot 'F' (by decide) (by decide) h

lemma shownKind_float (x : Binary64) : shownKind (float x).toList = .number := by
  cases x with
  | nan => decide
  | infinity negative => cases negative <;> decide
  | finite negative rank =>
    have hnot : ∀ c : Char, c.isDigit = false → c ≠ '.' → c ≠ '-' →
        c ∉ (floatLayout.text negative rank).toList := by
      intro c hdigit hpoint hminus hmem
      rcases mem_finiteText hmem with h | h | h
      · exact absurd (h.symm.trans hdigit) (by decide)
      · exact hpoint h
      · exact hminus h
    show shownKind (floatLayout.text negative rank).toList = .number
    unfold shownKind
    rw [if_neg (hnot 'N' (by decide) (by decide) (by decide)), if_neg,
      if_pos (.inr point_mem_finiteText)]
    rintro (h | h)
    · exact hnot 'T' (by decide) (by decide) (by decide) h
    · exact hnot 'F' (by decide) (by decide) (by decide) h

/-- Every literal that is not a string shows its kind. -/
lemma shownKind_literal {l : Literal} (h : ∀ s, l ≠ .string s) :
    shownKind (literal l).toList = l.kind := by
  cases l with
  | null => decide
  | boolean b => cases b <;> decide
  | integer n => exact shownKind_integerText n
  | number x => exact shownKind_float x
  | string s => exact absurd rfl (h s)

/-- Literals other than strings are written alike only if they are equal. -/
lemma literal_injective_of_ne_string {l m : Literal} (hl : ∀ s, l ≠ .string s)
    (hm : ∀ s, m ≠ .string s) (h : (literal l).toList = (literal m).toList) : (l == m) = true := by
  have hkind : l.kind = m.kind := by
    rw [← shownKind_literal hl, ← shownKind_literal hm, h]
  cases l <;> cases m <;> simp only [Literal.kind, reduceCtorEq] at hkind
  case null.null => rfl
  case boolean.boolean a b =>
    cases a <;> cases b <;> first | rfl | exact absurd h (by decide)
  case integer.integer a b =>
    rw [Json.integerText_injective h]
    exact beq_self_eq_true b
  case number.number x y => exact float_injective h
  case string.string s t => exact absurd rfl (hl s)

/-! ## Literals in a list -/

/-- Whether a text begins with a comma or a closing bracket. -/
def Separated (u : List Char) : Prop := u.head? = some ',' ∨ u.head? = some ']'

/-- A character that a literal without quotes can contain. -/
def isTokenChar (c : Char) : Bool := c != ',' && c != ']'

lemma isTokenChar_of_isDigit {c : Char} (h : c.isDigit = true) : isTokenChar c = true := by
  rw [isTokenChar, Bool.and_eq_true, bne_iff_ne, bne_iff_ne]
  constructor
  · rintro rfl
    exact absurd h (by decide)
  · rintro rfl
    exact absurd h (by decide)

lemma isTokenChar_of_mem_literal {l : Literal} (h : ∀ s, l ≠ .string s) :
    ∀ c ∈ (literal l).toList, isTokenChar c = true := by
  cases l with
  | null => exact List.all_eq_true.1 rfl
  | boolean b => cases b <;> exact List.all_eq_true.1 rfl
  | integer n =>
    intro c hc
    rcases Json.mem_integerText hc with h | rfl
    · exact isTokenChar_of_isDigit h
    · rfl
  | number x =>
    cases x with
    | nan => exact List.all_eq_true.1 rfl
    | infinity negative => cases negative <;> exact List.all_eq_true.1 rfl
    | finite negative rank =>
      intro c hc
      rcases mem_finiteText hc with h | rfl | rfl
      · exact isTokenChar_of_isDigit h
      · rfl
      · rfl
  | string s => exact absurd rfl (h s)

lemma Separated.isTokenChar_eq_false {u : List Char} (h : Separated u) :
    ∀ c ∈ u.head?, isTokenChar c = false := by
  intro c hc
  rcases h with h | h <;> rw [h] at hc <;> cases hc <;> rfl

lemma finiteText_ne_nil {negative : Bool} {rank : Nat} :
    (floatLayout.text negative rank).toList ≠ [] := List.ne_nil_of_mem point_mem_finiteText

/-- Only the text of a string begins with a quote. -/
lemma exists_head_literal {l : Literal} (h : ∀ s, l ≠ .string s) :
    ∃ c rest, (literal l).toList = c :: rest ∧ c ≠ '\x27' := by
  have hquote : ∀ {text : List Char}, text ≠ [] →
      (∀ c ∈ text, c.isDigit = true ∨ c = '.' ∨ c = '-') →
      ∃ c rest, text = c :: rest ∧ c ≠ '\x27' := by
    intro text hne hall
    obtain ⟨c, rest, rfl⟩ := List.exists_cons_of_ne_nil hne
    refine ⟨c, rest, rfl, ?_⟩
    rintro rfl
    rcases hall _ List.mem_cons_self with h | h | h <;> exact absurd h (by decide)
  cases l with
  | null => exact ⟨'N', _, rfl, by decide⟩
  | boolean b =>
    cases b
    · exact ⟨'F', _, rfl, by decide⟩
    · exact ⟨'T', _, rfl, by decide⟩
  | integer n =>
    exact hquote (Json.integerText_ne_nil n) fun c hc => (Json.mem_integerText hc).imp_right .inr
  | number x =>
    cases x with
    | nan => exact ⟨'f', _, rfl, by decide⟩
    | infinity negative =>
      cases negative
      · exact ⟨'f', _, rfl, by decide⟩
      · exact ⟨'-', _, rfl, by decide⟩
    | finite negative rank => exact hquote finiteText_ne_nil fun c hc => mem_finiteText hc
  | string s => exact absurd rfl (h s)

lemma toList_quote (s : String) : (quote s).toList = quoteChars s.toList := String.toList_ofList

lemma quote_append_ne_literal_append {s : String} {l : Literal} (h : ∀ s, l ≠ .string s)
    (u v : List Char) : (quote s).toList ++ u ≠ (literal l).toList ++ v := by
  obtain ⟨c, rest, hl, hc⟩ := exists_head_literal h
  rw [toList_quote, hl]
  exact fun heq => hc (List.cons.inj heq).1.symm

/-- A literal in a list is told apart from the list behind it. -/
theorem unambiguous_literal (l : Literal) :
    Text.Unambiguous (fun l => (.ok (literal l) : Except Fault String))
      (fun l m => (l == m) = true) Separated l := by
  rintro m s t ⟨⟩ ⟨⟩ u v hu hv heq
  by_cases hl : ∃ s, l = .string s <;> by_cases hm : ∃ s, m = .string s
  · obtain ⟨s, rfl⟩ := hl
    obtain ⟨t, rfl⟩ := hm
    rw [show literal (.string s) = quote s from rfl, show literal (.string t) = quote t from rfl,
      toList_quote, toList_quote] at heq
    obtain ⟨hst, huv⟩ := quoteChars_append_inj heq
    rw [String.toList_inj.1 hst]
    exact ⟨beq_self_eq_true t, huv⟩
  · obtain ⟨s, rfl⟩ := hl
    have hm' : ∀ t, m ≠ .string t := fun t h => hm ⟨t, h⟩
    exact absurd heq (quote_append_ne_literal_append hm' u v)
  · obtain ⟨t, rfl⟩ := hm
    have hl' : ∀ s, l ≠ .string s := fun s h => hl ⟨s, h⟩
    exact absurd heq.symm (quote_append_ne_literal_append hl' v u)
  · have hl' : ∀ s, l ≠ .string s := fun s h => hl ⟨s, h⟩
    have hm' : ∀ s, m ≠ .string s := fun s h => hm ⟨s, h⟩
    obtain ⟨htext, huv⟩ := Text.append_inj_of_all (isTokenChar_of_mem_literal hl')
      (isTokenChar_of_mem_literal hm') hu.isTokenChar_eq_false hv.isTokenChar_eq_false heq
    exact ⟨literal_injective_of_ne_string hl' hm' htext, huv⟩

lemma beq_of_forall₂ {α : Type} [BEq α] {as bs : List α}
    (h : List.Forall₂ (fun a b => (a == b) = true) as bs) : (as == bs) = true := by
  induction h with
  | nil => rfl
  | cons hab _ ih => rw [List.cons_beq_cons, hab, ih, Bool.and_self]

/-- Sets of literals of one text hold equal literals in one order. -/
theorem literalSet_append_inj {as bs : List Literal} {u v : List Char}
    (h : (literalSet as).toList ++ u = (literalSet bs).toList ++ v) :
    (as == bs) = true ∧ u = v := by
  have hwritten : ∀ ls : List Literal, List.Forall₂
      (fun l s => (.ok (literal l) : Except Fault String) = .ok s) ls (ls.map literal) := by
    intro ls
    rw [List.forall₂_map_right_iff, List.forall₂_same]
    exact fun _ _ => rfl
  have hstart : ∀ (l : Literal) (s : String), (.ok (literal l) : Except Fault String) = .ok s →
      ∃ c rest, s.toList = c :: rest ∧ c ≠ ']' := by
    rintro l s ⟨⟩
    by_cases hl : ∃ s, l = .string s
    · obtain ⟨s, rfl⟩ := hl
      exact ⟨'\x27', _, toList_quote s, by decide⟩
    · obtain ⟨c, rest, htext, _⟩ := exists_head_literal fun s h => hl ⟨s, h⟩
      have hc := isTokenChar_of_mem_literal (fun s h => hl ⟨s, h⟩) c (htext ▸ List.mem_cons_self)
      refine ⟨c, rest, htext, ?_⟩
      rintro rfl
      exact absurd hc (by decide)
  unfold literalSet at h
  simp only [String.toList_append, List.append_assoc] at h
  obtain ⟨hrel, huv⟩ := Text.forall₂_of_join rfl (fun l _ => unambiguous_literal l) hstart
    (fun _ hu => .inl hu) (fun _ hu => .inr hu) (by decide) (hwritten as) (hwritten bs)
    (List.append_cancel_left h)
  exact ⟨beq_of_forall₂ hrel, huv⟩

end Python
end TypedSchema
