import Mathlib.Data.List.DropRight
import TypedSchema.Proofs.Json.Pointer
import TypedSchema.Schema.Name

/-!
# The local part of an identifier

The local name of an identifier is its longest ending that has neither `#` nor `/` (`IsLocalPart`,
`localName_eq_iff`).  The same text is left by two cuts, first behind the last `#` and then behind
the last `/`, whichever of the two comes first, how often they occur, and also where one of them is
missing (`toList_localName`).  A local name has nothing more to cut, so it is its own local name.
-/

namespace TypedSchema

/-! ## The text behind a separator -/

namespace Text

/-- What stands behind the last occurrence of a separator; everything if there is none. -/
def behindLast (sep : Char) (s : List Char) : List Char :=
  (splitOn sep s).getLast (splitOn_ne_nil sep s)

lemma behindLast_of_notMem {sep : Char} {s : List Char} (h : sep ∉ s) : behindLast sep s = s := by
  simp only [behindLast, splitOn_of_notMem h, List.getLast_singleton]

lemma behindLast_append {sep : Char} {t : List Char} (s : List Char) (h : sep ∉ t) :
    behindLast sep (s ++ sep :: t) = t := by
  simp only [behindLast, splitOn_append, splitOn_of_notMem h, List.getLast_concat]

lemma bne_of_notMem {sep : Char} {s : List Char} (h : sep ∉ s) : ∀ c ∈ s, (c != sep) = true :=
  fun _ hc => bne_iff_ne.2 fun heq => h (heq ▸ hc)

/-- The last cut is found from the end. -/
lemma behindLast_eq_rtakeWhile (sep : Char) (s : List Char) :
    behindLast sep s = s.rtakeWhile (· != sep) := by
  by_cases hmem : sep ∈ s
  · obtain ⟨tail, front, hreverse, hfirst⟩ :=
      List.eq_append_cons_of_mem (List.mem_reverse.2 hmem)
    have hs : s = front.reverse ++ sep :: tail.reverse := by
      rw [← List.reverse_reverse s, hreverse, List.reverse_append, List.reverse_cons,
        List.append_assoc, List.singleton_append]
    rw [List.rtakeWhile, hreverse, List.takeWhile_append_of_pos (bne_of_notMem hfirst),
      List.takeWhile_cons_of_neg (by simp), List.append_nil, hs]
    exact behindLast_append _ fun h => hfirst (List.mem_reverse.1 h)
  · rw [behindLast_of_notMem hmem]
    exact (List.rtakeWhile_eq_self_iff.2 (bne_of_notMem hmem)).symm

end Text

/-! ## Local names -/

/-- A text is what an identifier ends in behind all its separators. -/
structure IsLocalPart (id name : String) : Prop where
  ending : name.toList <:+ id.toList
  plain : ∀ c ∈ name.toList, c ≠ '#' ∧ c ≠ '/'
  longest : ∀ other, other <:+ id.toList → (∀ c ∈ other, c ≠ '#' ∧ c ≠ '/') →
    other <:+ name.toList

lemma isNameChar_iff {c : Char} : isNameChar c = true ↔ c ≠ '#' ∧ c ≠ '/' := by
  simp only [isNameChar, Bool.and_eq_true, bne_iff_ne]

lemma toList_localName_eq_rtakeWhile (id : String) :
    (localName id).toList = id.toList.rtakeWhile isNameChar := by
  rw [localName, String.toList_ofList, List.rtakeWhile]

lemma isLocalPart_localName (id : String) : IsLocalPart id (localName id) where
  ending := by
    rw [toList_localName_eq_rtakeWhile]
    exact List.rtakeWhile_suffix _ _
  plain := fun c hc => by
    rw [toList_localName_eq_rtakeWhile] at hc
    exact isNameChar_iff.1 (List.mem_rtakeWhile_imp hc)
  longest := by
    rintro other ⟨front, hfront⟩ hplain
    have hpass : ∀ c ∈ other.reverse, isNameChar c = true :=
      fun c hc => isNameChar_iff.2 (hplain c (List.mem_reverse.1 hc))
    rw [toList_localName_eq_rtakeWhile, ← hfront, List.rtakeWhile, List.reverse_append,
      List.takeWhile_append_of_pos hpass, List.reverse_append, List.reverse_reverse]
    exact List.suffix_append _ _

lemma IsLocalPart.eq {id name other : String} (h : IsLocalPart id name)
    (hother : IsLocalPart id other) : name = other :=
  String.toList_injective <| (hother.longest _ h.ending h.plain).eq_of_length_le
    (h.longest _ hother.ending hother.plain).length_le

/-- The local name is the longest ending without separators, and nothing else is. -/
lemma localName_eq_iff {id name : String} : localName id = name ↔ IsLocalPart id name :=
  ⟨fun h => h ▸ isLocalPart_localName id, fun h => (isLocalPart_localName id).eq h⟩

/-- The local name stands behind the last `/` of what stands behind the last `#`. -/
lemma toList_localName (id : String) :
    (localName id).toList = Text.behindLast '/' (Text.behindLast '#' id.toList) := by
  have hboth : (fun c => decide ((c != '/') = true ∧ (c != '#') = true)) = isNameChar := by
    funext c
    simp only [isNameChar, Bool.decide_and, Bool.decide_eq_true, Bool.and_comm]
  rw [toList_localName_eq_rtakeWhile, Text.behindLast_eq_rtakeWhile,
    Text.behindLast_eq_rtakeWhile, List.rtakeWhile, List.rtakeWhile, List.rtakeWhile,
    List.reverse_reverse, List.takeWhile_takeWhile, hboth]

/-- Without separators, an identifier is its own local name. -/
lemma localName_of_plain {id : String} (h : ∀ c ∈ id.toList, c ≠ '#' ∧ c ≠ '/') :
    localName id = id :=
  localName_eq_iff.2 ⟨List.suffix_rfl, h, fun _ hother _ => hother⟩

lemma localName_localName (id : String) : localName (localName id) = localName id :=
  localName_of_plain (isLocalPart_localName id).plain

/-- Two identifiers have the same local name if they end in the same local part. -/
lemma localName_eq_localName_iff {id other : String} :
    localName id = localName other ↔ ∃ name, IsLocalPart id name ∧ IsLocalPart other name := by
  simp only [← localName_eq_iff, exists_eq_left']
  exact eq_comm

end TypedSchema
