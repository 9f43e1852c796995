import TypedSchema.Json.Parser
import TypedSchema.Proofs.Induction
import TypedSchema.Proofs.Json.Number
import TypedSchema.Proofs.Text.Unambiguous

/-!
# A JSON text determines the value

Strings are read back by the parser's own reader (`Json.readString?_flatMap`), numbers by their
characters, and arrays and objects by their brackets and commas, so that a value of finite numbers
is written like no other (`Json.unambiguous_compact`, `Json.compact_injective`).  Which form a value
has is seen from the first character of its text (`Json.headOf`), as the parser sees it.

Numbers that are not finite are written as `null` and are the only values that are lost.
-/

namespace TypedSchema
namespace Json

/-! ## Strings -/

/-- What the parser reads as the rest of a string from the front of a text, and what is left. -/
def readString? (text : List Char) : Option (List Char × List Char) :=
  match scanString text with
  | .ok scanned => some (scanned.value, scanned.rest)
  | .error _ => none

lemma hexValue4?_hexDigit {n : Nat} (h : n < 32) :
    hexValue4? '0' '0' (hexDigit (n / 16)) (hexDigit (n % 16)) = some n := by
  have hall : ∀ n < 32, hexValue4? '0' '0' (hexDigit (n / 16)) (hexDigit (n % 16)) = some n := by
    decide
  exact hall n h

section
variable {c : Char} (u : List Char)

lemma readString?_letter {letter : Char} (h : escapeValue? letter = some c) :
    readString? ('\x5c' :: letter :: u) = (readString? u).map fun (s, rest) => (c :: s, rest) := by
  have hu : letter ≠ 'u' := by
    rintro rfl
    cases h
  unfold readString?
  rw [scanString, h]
  · dsimp only
    cases scanString u <;> rfl
  · exact fun _ _ _ _ _ heq => absurd heq hu
  · exact hu

lemma readString?_control (hcontrol : c.toNat < 0x20) :
    readString? ('\x5c' :: 'u' :: '0' :: '0' :: hexDigit (c.toNat / 16) ::
        hexDigit (c.toNat % 16) :: u) =
      (readString? u).map fun (s, rest) => (c :: s, rest) := by
  have htrailing : isTrailing c.toNat = false := by
    rw [isTrailing, Bool.and_eq_false_iff, decide_eq_false_iff_not]
    omega
  have hleading : isLeading c.toNat = false := by
    rw [isLeading, Bool.and_eq_false_iff, decide_eq_false_iff_not]
    omega
  unfold readString?
  rw [scanString, hexValue4?_hexDigit (by omega)]
  dsimp only
  rw [htrailing, hleading]
  simp only [Bool.false_eq_true, if_false, Char.ofNat_toNat]
  cases scanString u <;> rfl

lemma readString?_plain (hquote : c ≠ '\x22') (hbackslash : c ≠ '\x5c')
    (hcontrol : ¬c.toNat < 0x20) :
    readString? (c :: u) = (readString? u).map fun (s, rest) => (c :: s, rest) := by
  unfold readString?
  rw [scanString, if_neg hcontrol]
  · cases scanString u <;> rfl
  · exact hquote
  · exact fun h _ => hbackslash h
  · exact fun _ _ _ _ _ h _ => hbackslash h
  · exact fun _ h _ => hbackslash h
  · exact fun _ _ h _ => hbackslash h

/-- What stands for a character in a string is read as the character. -/
lemma readString?_escapeChar (c : Char) :
    readString? (escapeChar c ++ u) = (readString? u).map fun (s, rest) => (c :: s, rest) := by
  unfold escapeChar
  split_ifs with hquote hbackslash hbackspace hfeed hnewline hreturn htab hcontrol
  case pos | pos | pos | pos | pos | pos | pos =>
    subst_vars
    exact readString?_letter u rfl
  case pos => exact readString?_control u hcontrol
  case neg => exact readString?_plain u hquote hbackslash hcontrol

/-- The parser reads a string back from its text, whatever is behind it. -/
theorem readString?_flatMap (s : List Char) :
    readString? (s.flatMap escapeChar ++ '\x22' :: u) = some (s, u) := by
  induction s with
  | nil => rfl
  | cons c s ih =>
    rw [List.flatMap_cons, List.append_assoc, readString?_escapeChar, ih]
    rfl

end

lemma toList_stringText (s : String) :
    (stringText s).toList = '\x22' :: s.toList.flatMap escapeChar ++ ['\x22'] :=
  String.toList_ofList

lemma stringText_append_inj {s t : String} {u v : List Char}
    (h : (stringText s).toList ++ u = (stringText t).toList ++ v) : s = t ∧ u = v := by
  simp only [toList_stringText, List.cons_append, List.append_assoc, List.nil_append,
    List.cons.injEq, true_and] at h
  have hread := congrArg readString? h
  rw [readString?_flatMap, readString?_flatMap] at hread
  obtain ⟨hst, huv⟩ := Prod.mk.inj (Option.some.inj hread)
  exact ⟨String.toList_inj.1 hst, huv⟩

/-! ## Values of finite numbers -/

/-- Whether all numbers in a value are finite. -/
inductive IsFinite : Json → Prop
  | null : IsFinite .null
  | bool (b : Bool) : IsFinite (.bool b)
  | integer (n : Int) : IsFinite (.integer n)
  | float {x : Binary64} (h : x.isFinite = true) : IsFinite (.float x)
  | string (s : String) : IsFinite (.string s)
  | array {items : List Json} (h : ∀ v ∈ items, v.IsFinite) : IsFinite (.array items)
  | object {members : List (String × Json)} (h : ∀ m ∈ members, m.2.IsFinite) :
    IsFinite (.object members)

lemma exists_rank_of_isFinite {x : Binary64} (h : x.isFinite = true) :
    ∃ negative rank, x = .finite negative rank := by
  cases x with
  | finite negative rank => exact ⟨negative, rank, rfl⟩
  | _ => cases h

/-! ## The first character -/

/-- What the first character of a text shows of the value. -/
inductive Head where
  | null
  | bool
  | number
  | string
  | array
  | object
  deriving DecidableEq

/-- What a first character shows. -/
def headOf (c : Char) : Head :=
  if c = 'n' then .null
  else if c = 't' ∨ c = 'f' then .bool
  else if c = '\x22' then .string
  else if c = '[' then .array
  else if c = '\x7b' then .object
  else .number

/-- What the text of a value shows first. -/
def head : Json → Head
  | .null => .null
  | .bool _ => .bool
  | .integer _ => .number
  | .float x => if x.isFinite then .number else .null
  | .string _ => .string
  | .array _ => .array
  | .object _ => .object

/-- Whether the text of a value is a word, without quotes or brackets. -/
def IsWord (v : Json) : Prop := v.head = .null ∨ v.head = .bool ∨ v.head = .number

lemma isWord_float (x : Binary64) : (float x).IsWord := by
  cases hfinite : x.isFinite <;> simp [IsWord, head, hfinite]

lemma headOf_of_digit {c : Char} (h : c.isDigit = true ∨ c ∈ ['.', 'e', '-', '+']) :
    headOf c = .number ∧ c ≠ ']' := by
  have hne : ∀ d : Char, d.isDigit = false → d ∉ ['.', 'e', '-', '+'] → c ≠ d := by
    rintro d hdigit hmem rfl
    rcases h with h | h
    · exact absurd (h.symm.trans hdigit) (by decide)
    · exact hmem h
  refine ⟨?_, hne ']' (by decide) (by decide)⟩
  unfold headOf
  rw [if_neg (hne 'n' (by decide) (by decide)), if_neg, if_neg (hne '\x22' (by decide) (by decide)),
    if_neg (hne '[' (by decide) (by decide)), if_neg (hne '\x7b' (by decide) (by decide))]
  rintro (rfl | rfl)
  · exact hne 't' (by decide) (by decide) rfl
  · exact hne 'f' (by decide) (by decide) rfl

lemma exists_head_of_digits {text : List Char} (hne : text ≠ [])
    (h : ∀ c ∈ text, c.isDigit = true ∨ c ∈ ['.', 'e', '-', '+']) :
    ∃ c rest, text = c :: rest ∧ headOf c = .number ∧ c ≠ ']' := by
  obtain ⟨c, rest, rfl⟩ := List.exists_cons_of_ne_nil hne
  exact ⟨c, rest, rfl, headOf_of_digit (h c List.mem_cons_self)⟩

/-- The text of a value begins as the value says, and not with a closing bracket. -/
lemma exists_head_compact (v : Json) :
    ∃ c rest, v.compact.toList = c :: rest ∧ headOf c = v.head ∧ c ≠ ']' := by
  cases v with
  | null => exact ⟨'n', _, rfl, rfl, by decide⟩
  | bool b =>
    cases b
    · exact ⟨'f', _, rfl, rfl, by decide⟩
    · exact ⟨'t', _, rfl, rfl, by decide⟩
  | integer n => exact exists_head_of_digits (integerText_ne_nil n) fun c hc => mem_numberText hc
  | float x =>
    cases x with
    | finite negative rank =>
      exact exists_head_of_digits floatText_ne_nil fun c hc => mem_floatText hc
    | nan | infinity negative =>
      exact ⟨'n', ['u', 'l', 'l'], show "null".toList = _ from rfl, rfl, by decide⟩
  | string s => exact ⟨'\x22', _, toList_stringText s, rfl, by decide⟩
  | array items =>
    rw [compact, String.toList_append, String.toList_append]
    exact ⟨'[', _, rfl, rfl, by decide⟩
  | object members =>
    rw [compact, String.toList_append, String.toList_append]
    exact ⟨'\x7b', _, rfl, rfl, by decide⟩

lemma head_eq_of_append_eq {v w : Json} {s t : List Char}
    (h : v.compact.toList ++ s = w.compact.toList ++ t) : v.head = w.head := by
  obtain ⟨c, _, hv, hc, _⟩ := exists_head_compact v
  obtain ⟨d, _, hw, hd, _⟩ := exists_head_compact w
  rw [hv, hw] at h
  rw [← hc, ← hd, (List.cons.inj h).1]

/-- The form of a value whose text shows this first. -/
def Head.HasForm : Head → Json → Prop
  | .string, v => ∃ s, v = .string s
  | .array, v => ∃ items, v = .array items
  | .object, v => ∃ members, v = .object members
  | _, v => v.IsWord

lemma hasForm_head (v : Json) : v.head.HasForm v := by
  cases v with
  | null => exact .inl rfl
  | bool b => exact .inr (.inl rfl)
  | integer n => exact .inr (.inr rfl)
  | float x =>
    have hword := isWord_float x
    cases hfinite : x.isFinite <;> simpa [Head.HasForm, head, hfinite] using hword
  | string s => exact ⟨s, rfl⟩
  | array items => exact ⟨items, rfl⟩
  | object members => exact ⟨members, rfl⟩

/-- Of two texts with a common beginning, one has the form that the other one shows. -/
lemma hasForm_of_append_eq {v w : Json} {s t : List Char}
    (h : v.compact.toList ++ s = w.compact.toList ++ t) : v.head.HasForm w :=
  head_eq_of_append_eq h ▸ hasForm_head w

/-! ## Words -/

/-- A character that a word can contain. -/
def isWordChar (c : Char) : Bool := c.isAlphanum || ['.', '-', '+'].contains c

lemma isWordChar_of_number {c : Char} (h : c.isDigit = true ∨ c ∈ ['.', 'e', '-', '+']) :
    isWordChar c = true := by
  rcases h with h | h
  · simp [isWordChar, Char.isAlphanum, h]
  · simp only [List.mem_cons, List.not_mem_nil, or_false] at h
    rcases h with rfl | rfl | rfl | rfl <;> rfl

lemma isWordChar_of_mem_compact {v : Json} (h : v.IsWord) :
    ∀ c ∈ v.compact.toList, isWordChar c = true := by
  cases v with
  | null => exact List.all_eq_true.1 rfl
  | bool b => cases b <;> exact List.all_eq_true.1 rfl
  | integer n => exact fun c hc => isWordChar_of_number (mem_numberText hc)
  | float x =>
    cases x with
    | finite negative rank => exact fun c hc => isWordChar_of_number (mem_floatText hc)
    | nan | infinity negative =>
      exact List.all_eq_true.1 (show "null".toList.all isWordChar = true from rfl)
  | _ => simp [IsWord, head] at h

/-- A word of finite numbers is the text of no other such value. -/
lemma eq_of_isWord {v w : Json} (hword : v.IsWord) (hv : v.IsFinite) (hw : w.IsFinite)
    (hhead : v.head = w.head) (h : v.compact.toList = w.compact.toList) : v = w := by
  cases hv with
  | null =>
    cases hw with
    | null => rfl
    | float hfinite => simp [head, hfinite] at hhead
    | _ => cases hhead
  | bool a =>
    cases hw with
    | bool b => cases a <;> cases b <;> first | rfl | exact absurd h (by decide)
    | float hfinite => simp [head, hfinite] at hhead
    | _ => cases hhead
  | integer m =>
    cases hw with
    | integer n => rw [integerText_injective h]
    | @float y hfinite =>
      obtain ⟨b, s, rfl⟩ := exists_rank_of_isFinite hfinite
      exact absurd h integerText_ne_floatText
    | _ => cases hhead
  | @float x hfinite =>
    obtain ⟨a, r, rfl⟩ := exists_rank_of_isFinite hfinite
    cases hw with
    | integer n => exact absurd h.symm integerText_ne_floatText
    | @float y hfinite =>
      obtain ⟨b, s, rfl⟩ := exists_rank_of_isFinite hfinite
      obtain ⟨rfl, rfl⟩ := floatText_injective h
      rfl
    | _ => cases hhead
  | _ => simp [IsWord, head] at hword

/-! ## Arrays and objects -/

lemma compactItems_eq_map (items : List Json) : compactItems items = items.map compact := by
  induction items with
  | nil => rfl
  | cons v items ih => rw [compactItems, ih, List.map_cons]

/-- The text of a member. -/
def compactMember (member : String × Json) : String :=
  stringText member.1 ++ ":" ++ member.2.compact

lemma compactMembers_eq_map (members : List (String × Json)) :
    compactMembers members = members.map compactMember := by
  induction members with
  | nil => rfl
  | cons m members ih => rw [compactMembers, ih, List.map_cons, compactMember]

/-- What can stand behind a value: nothing, a comma or a closing bracket. -/
def EndsValue (u : List Char) : Prop := ∀ c ∈ u.head?, c = ',' ∨ c = ']' ∨ c = '\x7d'

lemma EndsValue.isWordChar_eq_false {u : List Char} (h : EndsValue u) :
    ∀ c ∈ u.head?, isWordChar c = false := by
  intro c hc
  rcases h c hc with rfl | rfl | rfl <;> decide

lemma endsValue_of_head? {u : List Char} {c : Char} (h : u.head? = some c)
    (hc : c = ',' ∨ c = ']' ∨ c = '\x7d') : EndsValue u := by
  intro d hd
  rw [h] at hd
  exact Option.some.inj hd ▸ hc

lemma eq_of_forall₂ {α : Type} {p : α → Prop} {as bs : List α}
    (h : List.Forall₂ (fun a b => p b → a = b) as bs) (hp : ∀ b ∈ bs, p b) : as = bs := by
  induction h with
  | nil => rfl
  | cons hab _ ih =>
    obtain ⟨hb, hrest⟩ := List.forall_mem_cons.1 hp
    rw [hab hb, ih hrest]

lemma forall₂_written {α : Type} (text : α → String) (as : List α) :
    List.Forall₂ (fun a s => (.ok (text a) : Except Empty String) = .ok s) as (as.map text) := by
  rw [List.forall₂_map_right_iff, List.forall₂_same]
  exact fun _ _ => rfl

/-! ## Unambiguous texts -/

/-- Whether the text of a value, before something that ends it, is the text of no other value of
finite numbers, and what is behind it is known. -/
def UnambiguousText (v : Json) : Prop :=
  Text.Unambiguous (fun v => (.ok v.compact : Except Empty String)) (fun v w => w.IsFinite → v = w)
    EndsValue v

lemma unambiguousText_of_isWord {v : Json} (hv : v.IsWord) (hfinite : v.IsFinite) :
    v.UnambiguousText := by
  refine Text.unambiguous_of_text fun w s t hs ht heq => ?_
  have hhead := head_eq_of_append_eq heq
  have hw : w.IsWord := by
    rw [IsWord, ← hhead]
    exact hv
  obtain ⟨htext, hst⟩ := Text.append_inj_of_all (isWordChar_of_mem_compact hv)
    (isWordChar_of_mem_compact hw) hs.isWordChar_eq_false ht.isWordChar_eq_false heq
  exact ⟨fun hwfinite => eq_of_isWord hv hfinite hwfinite hhead htext, hst⟩

lemma unambiguousText_string (s : String) : (string s).UnambiguousText := by
  refine Text.unambiguous_of_text fun w u v _ _ heq => ?_
  obtain ⟨t, rfl⟩ := hasForm_of_append_eq heq
  obtain ⟨rfl, huv⟩ := stringText_append_inj heq
  exact ⟨fun _ => rfl, huv⟩

lemma unambiguousText_array {items : List Json} (h : ∀ v ∈ items, v.UnambiguousText) :
    (array items).UnambiguousText := by
  refine Text.unambiguous_of_text fun w u v _ _ heq => ?_
  obtain ⟨items', rfl⟩ := hasForm_of_append_eq heq
  have hstart : ∀ (v : Json) (s : String), (.ok v.compact : Except Empty String) = .ok s →
      ∃ c rest, s.toList = c :: rest ∧ c ≠ ']' := by
    intro v s h
    obtain ⟨c, rest, htext, _, hc⟩ := exists_head_compact v
    exact ⟨c, rest, Except.ok.inj h ▸ htext, hc⟩
  simp only [compact, compactItems_eq_map, String.toList_append, List.append_assoc] at heq
  obtain ⟨hrel, huv⟩ := Text.forall₂_of_join rfl h hstart
    (fun _ hu => endsValue_of_head? hu (.inl rfl))
    (fun _ hu => endsValue_of_head? hu (.inr (.inl rfl))) (by decide)
    (forall₂_written compact items) (forall₂_written compact items') (List.append_cancel_left heq)
  refine ⟨?_, huv⟩
  rintro (_ | _ | _ | _ | _ | hfinite)
  rw [eq_of_forall₂ hrel hfinite]

/-- The name of a member and its value are told apart from what is behind them. -/
lemma unambiguous_compactMember {m : String × Json} (h : m.2.UnambiguousText) :
    Text.Unambiguous (fun m => (.ok (compactMember m) : Except Empty String))
      (fun m n => n.2.IsFinite → m = n) EndsValue m := by
  refine Text.unambiguous_of_text fun n u v hu hv heq => ?_
  simp only [compactMember, String.toList_append, List.append_assoc] at heq
  obtain ⟨hname, heq⟩ := stringText_append_inj heq
  obtain ⟨hvalue, huv⟩ := h rfl rfl hu hv (List.append_cancel_left heq)
  exact ⟨fun hfinite => Prod.ext hname (hvalue hfinite), huv⟩

lemma unambiguousText_object {members : List (String × Json)}
    (h : ∀ m ∈ members, m.2.UnambiguousText) : (object members).UnambiguousText := by
  refine Text.unambiguous_of_text fun w u v _ _ heq => ?_
  obtain ⟨members', rfl⟩ := hasForm_of_append_eq heq
  have hstart : ∀ (m : String × Json) (s : String),
      (.ok (compactMember m) : Except Empty String) = .ok s →
      ∃ c rest, s.toList = c :: rest ∧ c ≠ '\x7d' := by
    intro m s h
    rw [← Except.ok.inj h, compactMember, String.toList_append, String.toList_append,
      toList_stringText]
    exact ⟨'\x22', _, rfl, by decide⟩
  simp only [compact, compactMembers_eq_map, String.toList_append, List.append_assoc] at heq
  obtain ⟨hrel, huv⟩ := Text.forall₂_of_join rfl (fun m hm => unambiguous_compactMember (h m hm))
    hstart (fun _ hu => endsValue_of_head? hu (.inl rfl))
    (fun _ hu => endsValue_of_head? hu (.inr (.inr rfl))) (by decide)
    (forall₂_written compactMember members) (forall₂_written compactMember members')
    (List.append_cancel_left heq)
  refine ⟨?_, huv⟩
  rintro (_ | _ | _ | _ | _ | _ | hfinite)
  rw [eq_of_forall₂ hrel hfinite]

/-- The text of a value of finite numbers is told apart from what is behind it, and from the texts
of all other such values. -/
theorem unambiguous_compact : ∀ v : Json, v.IsFinite → v.UnambiguousText := by
  refine Json.induction ?null ?bool ?integer ?float ?string ?array ?object
  case null => exact unambiguousText_of_isWord (.inl rfl)
  case bool => exact fun b => unambiguousText_of_isWord (.inr (.inl rfl))
  case integer => exact fun n => unambiguousText_of_isWord (.inr (.inr rfl))
  case float =>
    rintro x (_ | _ | _ | hfinite)
    exact unambiguousText_of_isWord (.inr (.inr (if_pos hfinite))) (.float hfinite)
  case string => exact fun s _ => unambiguousText_string s
  case array =>
    rintro items ih (_ | _ | _ | _ | _ | hfinite)
    exact unambiguousText_array fun v hv => ih v hv (hfinite v hv)
  case object =>
    rintro members ih (_ | _ | _ | _ | _ | _ | hfinite)
    exact unambiguousText_object fun m hm => ih m hm (hfinite m hm)

/-- Values of finite numbers of one text are one value. -/
theorem compact_injective {v w : Json} (hv : v.IsFinite) (hw : w.IsFinite)
    (h : v.compact = w.compact) : v = w := by
  have hend : EndsValue [] := nofun
  exact (unambiguous_compact v hv rfl rfl hend hend (congrArg (·.toList ++ []) h)).1 hw

end Json
end TypedSchema
