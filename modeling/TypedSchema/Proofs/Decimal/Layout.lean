import Mathlib.Data.List.TakeWhile
import Mathlib.Tactic.SplitIfs
import TypedSchema.Decimal.Digits
import TypedSchema.Decimal.Layout
import TypedSchema.Proofs.Decimal.Shortest

/-!
# The text of a double determines the double

Digits with a point somewhere among them are read as a number (`Decimal.writtenValue`), and so are
such digits with an exponent behind them (`Decimal.writtenNumber`).  The text of a decimal is read
as the value of the decimal, wherever the layout puts the point and whether it is positional
(`Layout.writtenValue_positionalText`) or scientific (`Layout.writtenNumber_scientificText`).  With
the shortest decimals of doubles it follows that two doubles of one text are one double
(`Layout.text_injective`).
-/

namespace TypedSchema

namespace Decimal

/-- The number that digits with at most one point stand for. -/
def writtenValue (cs : List Char) : ℚ :=
  let fraction := (cs.dropWhile Char.isDigit).drop 1
  digitsValue (cs.takeWhile Char.isDigit ++ fraction) * 10 ^ (-(fraction.length : ℤ))

lemma digitsValue_toDigits (n : Nat) : digitsValue (Nat.toDigits 10 n) = n :=
  Nat.ofDigitChars_ten_toDigits

/-- The digits of a number begin with a zero only if it is zero. -/
lemma toDigits_eq_zero_of_head? {n : Nat} (h : (Nat.toDigits 10 n).head? = some '0') :
    Nat.toDigits 10 n = ['0'] := by
  induction n using Nat.strongRecOn with
  | ind n ih =>
    by_cases hlt : n < 10
    · rw [Nat.toDigits_of_lt_base hlt] at h ⊢
      rw [Option.some.inj h]
    · have hle : 10 ≤ n := Nat.le_of_not_lt hlt
      rw [Nat.toDigits_of_base_le (by decide) hle] at h
      obtain ⟨d, ds, hds⟩ :=
        List.exists_cons_of_ne_nil (Nat.toDigits_ne_nil (n := n / 10) (b := 10))
      rw [hds] at h
      have hzero := ih (n / 10) (by omega) (hds ▸ h)
      have hvalue := congrArg digitsValue hzero
      rw [digitsValue_toDigits] at hvalue
      have : n / 10 = 0 := hvalue
      omega

lemma digitsValue_append_zeros (digits : List Char) (k : Nat) :
    digitsValue (digits ++ List.replicate k '0') = digitsValue digits * 10 ^ k := by
  show Nat.ofDigitChars 10 (digits ++ List.replicate k '0') 0 = _
  rw [Nat.ofDigitChars_append, Nat.ofDigitChars_replicate_zero, Nat.mul_comm]
  rfl

lemma digitsValue_zeros_append (digits : List Char) (k : Nat) :
    digitsValue (List.replicate k '0' ++ digits) = digitsValue digits := by
  show Nat.ofDigitChars 10 (List.replicate k '0' ++ digits) 0 = _
  rw [Nat.ofDigitChars_append, Nat.ofDigitChars_replicate_zero, Nat.mul_zero]
  rfl

lemma writtenValue_whole {whole : List Char} (h : ∀ c ∈ whole, c.isDigit = true) :
    writtenValue whole = digitsValue whole := by
  unfold writtenValue
  rw [List.takeWhile_eq_self_iff.2 h, List.dropWhile_eq_nil_iff.2 h]
  simp

lemma writtenValue_point {whole fraction : List Char} (h : ∀ c ∈ whole, c.isDigit = true) :
    writtenValue (whole ++ '.' :: fraction) =
      digitsValue (whole ++ fraction) * 10 ^ (-(fraction.length : ℤ)) := by
  have htake : (whole ++ '.' :: fraction).takeWhile Char.isDigit = whole := by
    rw [List.takeWhile_append_of_pos h]
    simp
  have hdrop : (whole ++ '.' :: fraction).dropWhile Char.isDigit = '.' :: fraction := by
    rw [List.dropWhile_append_of_pos h]
    simp
  unfold writtenValue
  rw [htake, hdrop]
  rfl

/-- The number that the signed digits of an exponent stand for. -/
def writtenExponent : List Char → ℤ
  | '-' :: digits => -(digitsValue digits : ℤ)
  | '+' :: digits => digitsValue digits
  | _ => 0

/-- The number that digits with at most one point and perhaps an exponent stand for. -/
def writtenNumber (cs : List Char) : ℚ :=
  writtenValue (cs.takeWhile (· != 'e')) *
    10 ^ writtenExponent ((cs.dropWhile (· != 'e')).drop 1)

lemma writtenNumber_of_notMem {cs : List Char} (h : 'e' ∉ cs) :
    writtenNumber cs = writtenValue cs := by
  have hall : ∀ c ∈ cs, (c != 'e') = true := fun c hc => bne_iff_ne.2 fun heq => h (heq ▸ hc)
  unfold writtenNumber
  rw [List.takeWhile_eq_self_iff.2 hall, List.dropWhile_eq_nil_iff.2 hall]
  exact mul_one _

lemma writtenNumber_exponent {mantissa : List Char} (h : 'e' ∉ mantissa) (exponent : List Char) :
    writtenNumber (mantissa ++ 'e' :: exponent) =
      writtenValue mantissa * 10 ^ writtenExponent exponent := by
  have hall : ∀ c ∈ mantissa, (c != 'e') = true := fun c hc =>
    bne_iff_ne.2 fun heq => h (heq ▸ hc)
  have htake : (mantissa ++ 'e' :: exponent).takeWhile (· != 'e') = mantissa := by
    rw [List.takeWhile_append_of_pos hall]
    simp
  have hdrop : (mantissa ++ 'e' :: exponent).dropWhile (· != 'e') = 'e' :: exponent := by
    rw [List.dropWhile_append_of_pos hall]
    simp
  unfold writtenNumber
  rw [htake, hdrop]
  rfl

end Decimal

namespace Layout

open Decimal

lemma isDigit_of_mem_toDigits {n : Nat} : ∀ c ∈ Nat.toDigits 10 n, c.isDigit = true :=
  fun _ hc => Nat.isDigit_of_mem_toDigits (by decide) (by decide) hc

lemma isDigit_of_mem_zeros {k : Nat} : ∀ c ∈ List.replicate k '0', c.isDigit = true := by
  intro c hc
  rw [List.eq_of_mem_replicate hc]
  rfl

lemma toList_zeros (k : Nat) : (zeros k).toList = List.replicate k '0' := String.toList_ofList

lemma writtenValue_wholeText (layout : Layout) (n k : Nat) :
    writtenValue (Nat.repr n ++ zeros k ++ if layout.pointZero then ".0" else "").toList =
      n * 10 ^ k := by
  have hdigits : ∀ c ∈ Nat.toDigits 10 n ++ List.replicate k '0', c.isDigit = true := by
    intro c hc
    rcases List.mem_append.1 hc with hc | hc
    · exact isDigit_of_mem_toDigits c hc
    · exact isDigit_of_mem_zeros c hc
  rw [String.toList_append, String.toList_append, Nat.toList_repr, toList_zeros]
  split
  · show writtenValue (Nat.toDigits 10 n ++ List.replicate k '0' ++ '.' :: ['0']) = _
    rw [writtenValue_point hdigits, List.append_assoc, ← List.replicate_succ',
      digitsValue_append_zeros, digitsValue_toDigits, List.length_singleton, Nat.cast_one,
      zpow_neg_one]
    push_cast
    ring
  · show writtenValue (Nat.toDigits 10 n ++ List.replicate k '0' ++ []) = _
    rw [List.append_nil, writtenValue_whole hdigits, digitsValue_append_zeros,
      digitsValue_toDigits]
    push_cast
    rfl

lemma writtenValue_pointAfter {n places : Nat} (h : places < (Nat.repr n).length) :
    writtenValue (pointAfter ((Nat.repr n).length - places) (Nat.repr n)).toList =
      n * 10 ^ (-(places : ℤ)) := by
  have hlength : (Nat.repr n).length = (Nat.toDigits 10 n).length := by
    rw [← String.length_toList, Nat.toList_repr]
  rw [hlength] at h ⊢
  unfold pointAfter
  simp only [String.toList_append, String.toList_ofList, Nat.toList_repr, List.append_assoc]
  show writtenValue (List.take _ _ ++ '.' :: List.drop _ _) = _
  rw [writtenValue_point fun c hc => isDigit_of_mem_toDigits c (List.mem_of_mem_take hc),
    List.take_append_drop, digitsValue_toDigits, List.length_drop,
    Nat.sub_sub_self (Nat.le_of_lt h)]

lemma writtenValue_pointBefore {n places : Nat} (h : (Nat.repr n).length ≤ places) :
    writtenValue ("0." ++ zeros (places - (Nat.repr n).length) ++ Nat.repr n).toList =
      n * 10 ^ (-(places : ℤ)) := by
  have hlength : (Nat.repr n).length = (Nat.toDigits 10 n).length := by
    rw [← String.length_toList, Nat.toList_repr]
  rw [hlength] at h ⊢
  rw [String.toList_append, String.toList_append, Nat.toList_repr, toList_zeros]
  show writtenValue (List.replicate 1 '0' ++ '.' :: (List.replicate _ '0' ++ Nat.toDigits 10 n)) = _
  rw [writtenValue_point isDigit_of_mem_zeros, digitsValue_zeros_append, digitsValue_zeros_append,
    digitsValue_toDigits, List.length_append, List.length_replicate, Nat.sub_add_cancel h]

/-- A decimal is read back from its positional text. -/
theorem writtenValue_positionalText (layout : Layout) (n : Nat) (e : Int) :
    writtenValue (layout.positionalText (Nat.repr n) e).toList = value ⟨n, e⟩ := by
  unfold positionalText value
  split
  · rename_i he
    rw [writtenValue_wholeText, ← zpow_natCast, Int.toNat_of_nonneg he]
  · rename_i he
    have hplaces : -((-e).toNat : ℤ) = e := by omega
    dsimp only
    split
    · rename_i h
      rw [writtenValue_pointAfter h, hplaces]
    · rename_i h
      rw [writtenValue_pointBefore (Nat.le_of_not_lt h), hplaces]

/-! ## The characters of a text -/

lemma isDigit_or_point_of_mem_positionalText {layout : Layout} {n : Nat} {e : Int} {c : Char}
    (hc : c ∈ (layout.positionalText (Nat.repr n) e).toList) : c.isDigit = true ∨ c = '.' := by
  unfold positionalText pointAfter at hc
  have hzeros : ∀ {k : Nat}, c ∈ (zeros k).toList → c.isDigit = true := fun h =>
    isDigit_of_mem_zeros c (by rwa [toList_zeros] at h)
  have hdigits : c ∈ (Nat.repr n).toList → c.isDigit = true := fun h =>
    isDigit_of_mem_toDigits c (by rwa [Nat.toList_repr] at h)
  have hzero : c = '0' → c.isDigit = true := fun h => h ▸ rfl
  split at hc
  · rw [String.toList_append, String.toList_append, List.mem_append, List.mem_append] at hc
    rcases hc with (hc | hc) | hc
    · exact .inl (hdigits hc)
    · exact .inl (hzeros hc)
    · split at hc
      · rcases List.mem_pair.1 hc with hc | hc
        · exact .inr hc
        · exact .inl (hzero hc)
      · exact absurd hc List.not_mem_nil
  · dsimp only at hc
    split at hc
    · simp only [String.toList_append, String.toList_ofList, List.mem_append] at hc
      rcases hc with (hc | hc) | hc
      · exact .inl (hdigits (List.mem_of_mem_take hc))
      · exact .inr (List.mem_singleton.1 hc)
      · exact .inl (hdigits (List.mem_of_mem_drop hc))
    · simp only [String.toList_append, List.mem_append] at hc
      rcases hc with (hc | hc) | hc
      · rcases List.mem_pair.1 hc with hc | hc
        · exact .inl (hzero hc)
        · exact .inr hc
      · exact .inl (hzeros hc)
      · exact .inl (hdigits hc)

lemma point_mem_positionalText {layout : Layout} (hzero : layout.pointZero = true) (digits : String)
    (e : Int) : '.' ∈ (layout.positionalText digits e).toList := by
  have hpointZero : '.' ∈ ".0".toList := by decide
  have hzeroPoint : '.' ∈ "0.".toList := by decide
  have hpoint : '.' ∈ ".".toList := by decide
  unfold positionalText pointAfter
  rw [if_pos hzero]
  dsimp only
  split_ifs <;> simp only [String.toList_append, List.mem_append]
  · exact .inr hpointZero
  · exact .inl (.inr hpoint)
  · exact .inl (.inl hzeroPoint)

/-- The digits of a scientific text, before its exponent. -/
def mantissaText (digits : String) : String :=
  if digits.length ≤ 1 then digits else pointAfter 1 digits

lemma toList_scientificText (n : Nat) (leading : Int) :
    (scientificText (Nat.repr n) leading).toList =
      (mantissaText (Nat.repr n)).toList ++
        'e' :: (if leading < 0 then '-' else '+') :: Nat.toDigits 10 leading.natAbs := by
  unfold scientificText mantissaText
  rw [String.toList_append, String.toList_append, Nat.toList_repr, List.append_assoc]
  congr 1
  split <;> rfl

lemma mantissaText_ne_nil (n : Nat) : (mantissaText (Nat.repr n)).toList ≠ [] := by
  unfold mantissaText pointAfter
  split
  · rw [Nat.toList_repr]
    exact Nat.toDigits_ne_nil
  · simp only [String.toList_append]
    exact List.append_ne_nil_of_left_ne_nil (List.append_ne_nil_of_right_ne_nil _ (by decide)) _

lemma isDigit_or_point_of_mem_mantissaText {n : Nat} {c : Char}
    (hc : c ∈ (mantissaText (Nat.repr n)).toList) : c.isDigit = true ∨ c = '.' := by
  have hdigits : c ∈ (Nat.repr n).toList → c.isDigit = true := fun h =>
    isDigit_of_mem_toDigits c (by rwa [Nat.toList_repr] at h)
  unfold mantissaText pointAfter at hc
  split at hc
  · exact .inl (hdigits hc)
  · simp only [String.toList_append, String.toList_ofList, List.mem_append] at hc
    rcases hc with (hc | hc) | hc
    · exact .inl (hdigits (List.mem_of_mem_take hc))
    · exact .inr (List.mem_singleton.1 hc)
    · exact .inl (hdigits (List.mem_of_mem_drop hc))

lemma positionalText_ne_nil (layout : Layout) (n : Nat) (e : Int) :
    (layout.positionalText (Nat.repr n) e).toList ≠ [] := by
  have hdigits : (Nat.repr n).toList ≠ [] := by
    rw [Nat.toList_repr]
    exact Nat.toDigits_ne_nil
  unfold positionalText pointAfter
  split
  · simp only [String.toList_append]
    exact List.append_ne_nil_of_left_ne_nil (List.append_ne_nil_of_left_ne_nil hdigits _) _
  · dsimp only
    split
    · simp only [String.toList_append]
      exact List.append_ne_nil_of_left_ne_nil (List.append_ne_nil_of_right_ne_nil _ (by decide)) _
    · simp only [String.toList_append]
      exact List.append_ne_nil_of_right_ne_nil _ hdigits

/-! ## Scientific texts -/

lemma writtenValue_mantissaText (n : Nat) :
    writtenValue (mantissaText (Nat.repr n)).toList =
      n * 10 ^ (-(((Nat.repr n).length - 1 : Nat) : ℤ)) := by
  unfold mantissaText
  split
  · rename_i h
    rw [Nat.sub_eq_zero_of_le h, Nat.toList_repr, writtenValue_whole isDigit_of_mem_toDigits,
      digitsValue_toDigits]
    simp
  · rename_i h
    have hplaces : (Nat.repr n).length - 1 < (Nat.repr n).length := by omega
    have hone : (Nat.repr n).length - ((Nat.repr n).length - 1) = 1 := by omega
    rw [← writtenValue_pointAfter hplaces, hone]

lemma writtenExponent_signed (leading : Int) :
    writtenExponent ((if leading < 0 then '-' else '+') :: Nat.toDigits 10 leading.natAbs) =
      leading := by
  split
  · show -(digitsValue (Nat.toDigits 10 leading.natAbs) : ℤ) = leading
    rw [digitsValue_toDigits]
    omega
  · show (digitsValue (Nat.toDigits 10 leading.natAbs) : ℤ) = leading
    rw [digitsValue_toDigits]
    omega

/-- A decimal is read back from its scientific text. -/
theorem writtenNumber_scientificText (n : Nat) (e : Int) :
    writtenNumber
      (scientificText (Nat.repr n) (e + ((Nat.repr n).length - 1 : Nat))).toList =
      value ⟨n, e⟩ := by
  have hmantissa : 'e' ∉ (mantissaText (Nat.repr n)).toList := fun h => by
    rcases isDigit_or_point_of_mem_mantissaText h with h | h <;> exact absurd h (by decide)
  have hten : (10 : ℚ) ≠ 0 := by norm_num
  have hexponent : -(((Nat.repr n).length - 1 : Nat) : ℤ) +
      (e + ((Nat.repr n).length - 1 : Nat)) = e := by omega
  rw [toList_scientificText, writtenNumber_exponent hmantissa, writtenExponent_signed,
    writtenValue_mantissaText, mul_assoc, ← zpow_add₀ hten, hexponent]
  rfl

/-! ## Whole texts -/

/-- The text of a rank, without a sign. -/
def magnitudeText (layout : Layout) (rank : Nat) : String :=
  let decimal := Decimal.shortest layout.tie rank
  let digits := Nat.repr decimal.digits
  let leading := decimal.exponent + (digits.length - 1 : Nat)
  if layout.positional leading then layout.positionalText digits decimal.exponent
  else scientificText digits leading

lemma magnitudeText_of_positional {layout : Layout}
    (hpositional : ∀ leading, layout.positional leading = true) (rank : Nat) :
    layout.magnitudeText rank =
      layout.positionalText (Nat.repr (Decimal.shortest layout.tie rank).digits)
        (Decimal.shortest layout.tie rank).exponent :=
  if_pos (hpositional _)

lemma toList_text (layout : Layout) (negative : Bool) (rank : Nat) :
    (layout.text negative rank).toList =
      if negative then '-' :: (layout.magnitudeText rank).toList
      else (layout.magnitudeText rank).toList := by
  show (_ ++ layout.magnitudeText rank).toList = _
  rw [String.toList_append]
  cases negative <;> rfl

/-- A text without a sign begins with a digit or a point. -/
lemma exists_head_magnitudeText (layout : Layout) (rank : Nat) :
    ∃ c rest, (layout.magnitudeText rank).toList = c :: rest ∧ (c.isDigit = true ∨ c = '.') := by
  unfold magnitudeText
  dsimp only
  split
  · obtain ⟨c, rest, htext⟩ := List.exists_cons_of_ne_nil (positionalText_ne_nil layout _ _)
    exact ⟨c, rest, htext, isDigit_or_point_of_mem_positionalText (htext ▸ List.mem_cons_self)⟩
  · obtain ⟨c, rest, htext⟩ := List.exists_cons_of_ne_nil (mantissaText_ne_nil _)
    rw [toList_scientificText, htext]
    exact ⟨c, _, rfl, isDigit_or_point_of_mem_mantissaText (htext ▸ List.mem_cons_self)⟩

lemma mem_magnitudeText {layout : Layout} {rank : Nat} {c : Char}
    (hc : c ∈ (layout.magnitudeText rank).toList) :
    c.isDigit = true ∨ c ∈ ['.', 'e', '-', '+'] := by
  have hpoint : c = '.' → c ∈ ['.', 'e', '-', '+'] := fun h => h ▸ List.mem_cons_self
  unfold magnitudeText at hc
  dsimp only at hc
  split at hc
  · exact (isDigit_or_point_of_mem_positionalText hc).imp_right hpoint
  · rw [toList_scientificText, List.mem_append, List.mem_cons, List.mem_cons] at hc
    rcases hc with hc | rfl | rfl | hc
    · exact (isDigit_or_point_of_mem_mantissaText hc).imp_right hpoint
    · exact .inr (by decide)
    · right
      split <;> decide
    · exact .inl (isDigit_of_mem_toDigits c hc)

/-- Only texts of integers have neither a point nor an exponent. -/
lemma point_or_exponent_mem_magnitudeText {layout : Layout} (hzero : layout.pointZero = true)
    (rank : Nat) : '.' ∈ (layout.magnitudeText rank).toList ∨
      'e' ∈ (layout.magnitudeText rank).toList := by
  unfold magnitudeText
  dsimp only
  split
  · exact .inl (point_mem_positionalText hzero _ _)
  · rw [toList_scientificText]
    exact .inr (List.mem_append_right _ List.mem_cons_self)

lemma writtenNumber_magnitudeText (layout : Layout) (rank : Nat) :
    writtenNumber (layout.magnitudeText rank).toList = (shortest layout.tie rank).value := by
  unfold magnitudeText
  dsimp only
  split
  · rw [writtenNumber_of_notMem, writtenValue_positionalText]
    intro h
    rcases isDigit_or_point_of_mem_positionalText h with h | h <;> exact absurd h (by decide)
  · exact writtenNumber_scientificText _ _

lemma magnitudeText_injective {layout : Layout} {r s : Nat}
    (h : (layout.magnitudeText r).toList = (layout.magnitudeText s).toList) : r = s := by
  have hvalue := congrArg writtenNumber h
  rw [writtenNumber_magnitudeText, writtenNumber_magnitudeText] at hvalue
  exact shortest_value_injective hvalue

lemma magnitudeText_ne_minus {layout : Layout} {rank : Nat} {cs : List Char} :
    (layout.magnitudeText rank).toList ≠ '-' :: cs := by
  obtain ⟨c, rest, htext, hc⟩ := exists_head_magnitudeText layout rank
  rw [htext]
  intro h
  rw [(List.cons.inj h).1] at hc
  rcases hc with hc | hc <;> exact absurd hc (by decide)

/-- A layout writes different doubles differently. -/
theorem text_injective {layout : Layout} {a b : Bool} {r s : Nat}
    (h : layout.text a r = layout.text b s) : a = b ∧ r = s := by
  have hlist := congrArg String.toList h
  rw [toList_text, toList_text] at hlist
  cases a <;> cases b
  · exact ⟨rfl, magnitudeText_injective hlist⟩
  · exact absurd hlist magnitudeText_ne_minus
  · exact absurd hlist.symm magnitudeText_ne_minus
  · exact ⟨rfl, magnitudeText_injective (List.cons.inj hlist).2⟩

end Layout
end TypedSchema
