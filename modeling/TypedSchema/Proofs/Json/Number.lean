import TypedSchema.Json.Printer
import TypedSchema.Proofs.Decimal.Layout

/-!
# The text of a number determines the number

An integer is written with digits and a sign (`Json.integerText_injective`), any other finite number
with a point or an exponent as well (`Json.floatText_injective`), so that one is never taken for the
other (`Json.integerText_ne_floatText`).
-/

namespace TypedSchema
namespace Json

/-! ## Integers -/

lemma integerText_eq (n : Int) :
    (integerText n).toList =
      if n < 0 then '-' :: Nat.toDigits 10 n.natAbs else Nat.toDigits 10 n.natAbs := by
  unfold integerText
  split
  · rw [String.toList_append, Nat.toList_repr]
    rfl
  · exact Nat.toList_repr

lemma mem_integerText {n : Int} {c : Char} (h : c ∈ (integerText n).toList) :
    c.isDigit = true ∨ c = '-' := by
  rw [integerText_eq] at h
  split at h
  · rcases List.mem_cons.1 h with h | h
    · exact .inr h
    · exact .inl (Layout.isDigit_of_mem_toDigits c h)
  · exact .inl (Layout.isDigit_of_mem_toDigits c h)

lemma toDigits_injective {m n : Nat} (h : Nat.toDigits 10 m = Nat.toDigits 10 n) : m = n := by
  rw [← Decimal.digitsValue_toDigits m, h, Decimal.digitsValue_toDigits]

lemma minus_notMem_toDigits {n : Nat} : '-' ∉ Nat.toDigits 10 n := fun h =>
  absurd (Layout.isDigit_of_mem_toDigits _ h) (by decide)

lemma integerText_injective {m n : Int}
    (h : (integerText m).toList = (integerText n).toList) : m = n := by
  rw [integerText_eq, integerText_eq] at h
  split at h <;> split at h
  · have := toDigits_injective (List.cons.inj h).2
    omega
  · exact absurd (h ▸ List.mem_cons_self) minus_notMem_toDigits
  · exact absurd (h ▸ List.mem_cons_self) minus_notMem_toDigits
  · have := toDigits_injective h
    omega

lemma integerText_ne_nil (n : Int) : (integerText n).toList ≠ [] := by
  rw [integerText_eq]
  split
  · exact List.cons_ne_nil _ _
  · exact Nat.toDigits_ne_nil

/-! ## Other numbers -/

/-- Integers have no other characters than numbers have. -/
lemma mem_numberText {n : Int} {c : Char} (h : c ∈ (integerText n).toList) :
    c.isDigit = true ∨ c ∈ ['.', 'e', '-', '+'] := by
  rcases mem_integerText h with hc | rfl
  · exact .inl hc
  · exact .inr (by decide)

lemma mem_floatText {negative : Bool} {rank : Fin 0x7FF0000000000000} {c : Char}
    (h : c ∈ (floatText (.finite negative rank)).toList) :
    c.isDigit = true ∨ c ∈ ['.', 'e', '-', '+'] := by
  rw [floatText, Layout.toList_text] at h
  split at h
  · rcases List.mem_cons.1 h with rfl | h
    · exact .inr (by decide)
    · exact Layout.mem_magnitudeText h
  · exact Layout.mem_magnitudeText h

lemma point_or_exponent_mem_floatText (negative : Bool) (rank : Fin 0x7FF0000000000000) :
    '.' ∈ (floatText (.finite negative rank)).toList ∨
      'e' ∈ (floatText (.finite negative rank)).toList := by
  have hmagnitude : '.' ∈ (floatLayout.magnitudeText rank).toList ∨
      'e' ∈ (floatLayout.magnitudeText rank).toList :=
    Layout.point_or_exponent_mem_magnitudeText rfl rank
  rw [floatText, Layout.toList_text]
  split
  · exact hmagnitude.imp (List.mem_cons_of_mem _) (List.mem_cons_of_mem _)
  · exact hmagnitude

lemma floatText_ne_nil {negative : Bool} {rank : Fin 0x7FF0000000000000} :
    (floatText (.finite negative rank)).toList ≠ [] :=
  (point_or_exponent_mem_floatText negative rank).elim List.ne_nil_of_mem List.ne_nil_of_mem

lemma integerText_ne_floatText {n : Int} {negative : Bool} {rank : Fin 0x7FF0000000000000} :
    (integerText n).toList ≠ (floatText (.finite negative rank)).toList := by
  intro h
  rcases point_or_exponent_mem_floatText negative rank with hmem | hmem
  all_goals
    rw [← h] at hmem
    rcases mem_integerText hmem with hc | hc <;> exact absurd hc (by decide)

/-- Finite numbers of one text are the same, down to the sign of zero. -/
lemma floatText_injective {a b : Bool} {r s : Fin 0x7FF0000000000000}
    (h : (floatText (.finite a r)).toList = (floatText (.finite b s)).toList) :
    a = b ∧ r = s := by
  obtain ⟨hsign, hrank⟩ := Layout.text_injective (String.toList_inj.1 h)
  exact ⟨hsign, Fin.ext hrank⟩

end Json
end TypedSchema
