import Mathlib.Data.List.Forall2
import Mathlib.Data.List.TakeWhile
import Mathlib.Tactic.Lemma
import TypedSchema.Proofs.Outcome
import TypedSchema.Text.Split

/-!
# Texts that are told apart from what follows them

A text is unambiguous if, read from the front of a longer text, it can be told from what follows,
and determines what was written (`Text.Unambiguous`).  What may follow is part of the notion: a name
ends where the next character cannot stand in a name, so it is unambiguous before a bracket and
ambiguous before a letter.

Texts are put together in the ways of source text: one item behind the other, each with a first
character that nothing behind them has (`Text.forall₂_of_concat`), and items between separators, up
to a closing character (`Text.forall₂_of_join`).
-/

namespace TypedSchema
namespace Text

variable {ε α β : Type}

/-- Whether what is written for `a`, before something that satisfies `follows`, is written only for
what is related to `a`, and before the same. -/
def Unambiguous (write : α → Except ε String) (r : α → α → Prop) (follows : List Char → Prop)
    (a : α) : Prop :=
  ∀ ⦃b s t⦄, write a = .ok s → write b = .ok t → ∀ ⦃u v⦄, follows u → follows v →
    s.toList ++ u = t.toList ++ v → r a b ∧ u = v

/-- What is always written is unambiguous if its text is. -/
lemma unambiguous_of_text {text : α → String} {r : α → α → Prop} {follows : List Char → Prop}
    {a : α} (h : ∀ b u v, follows u → follows v →
      (text a).toList ++ u = (text b).toList ++ v → r a b ∧ u = v) :
    Unambiguous (fun a => (.ok (text a) : Except ε String)) r follows a := by
  intro b s t hs ht u v hu hv heq
  rw [← Except.ok.inj hs, ← Except.ok.inj ht] at heq
  exact h b u v hu hv heq

lemma Unambiguous.behind {write : α → Except ε String} {r : α → α → Prop}
    {follows : List Char → Prop} {a : α} (h : Unambiguous write r follows a) (before : String) :
    Unambiguous (fun a => (write a).map (before ++ ·)) r follows a := by
  intro b s t ha hb u v hu hv heq
  obtain ⟨s, hs, rfl⟩ := map_eq_ok.1 ha
  obtain ⟨t, ht, rfl⟩ := map_eq_ok.1 hb
  rw [String.toList_append, String.toList_append, List.append_assoc, List.append_assoc] at heq
  exact h hs ht hu hv (List.append_cancel_left heq)

/-! ## Words -/

/-- A run of characters of one class ends at the first character of another. -/
lemma append_inj_of_all {p : Char → Bool} {s t u v : List Char} (hs : ∀ c ∈ s, p c = true)
    (ht : ∀ c ∈ t, p c = true) (hu : ∀ c ∈ u.head?, p c = false) (hv : ∀ c ∈ v.head?, p c = false)
    (h : s ++ u = t ++ v) : s = t ∧ u = v := by
  have hend : ∀ {w : List Char}, (∀ c ∈ w.head?, p c = false) → w.takeWhile p = [] := by
    intro w hw
    cases w with
    | nil => rfl
    | cons c w => exact List.takeWhile_cons_of_neg (by simp [hw c rfl])
  have hword : s = t := by
    have htake := congrArg (List.takeWhile p) h
    rw [List.takeWhile_append_of_pos hs, List.takeWhile_append_of_pos ht, hend hu, hend hv,
      List.append_nil, List.append_nil] at htake
    exact htake
  subst hword
  exact ⟨rfl, List.append_cancel_left h⟩

/-! ## Items behind one another -/

lemma head?_flatMap_append {first : Char} {ss : List String} {u : List Char}
    (hss : ∀ s ∈ ss, s.toList.head? = some first) (hne : ss ≠ []) :
    (ss.flatMap String.toList ++ u).head? = some first := by
  obtain ⟨s, rest, rfl⟩ := List.exists_cons_of_ne_nil hne
  have hs := hss s List.mem_cons_self
  rw [List.flatMap_cons, List.append_assoc, List.head?_append, hs]
  rfl

lemma forall_head?_of_forall₂ {write : α → Except ε String} {first : Char}
    (hfirst : ∀ a s, write a = .ok s → s.toList.head? = some first) {as : List α} {ss : List String}
    (has : List.Forall₂ (fun a s => write a = .ok s) as ss) :
    ∀ s ∈ ss, s.toList.head? = some first := by
  induction has with
  | nil => exact fun _ hs => absurd hs List.not_mem_nil
  | cons ha _ ih => exact List.forall_mem_cons.2 ⟨hfirst _ _ ha, ih⟩

lemma follows_flatMap_append {follows : List Char → Prop} {first : Char} {ss : List String}
    {u : List Char} (hss : ∀ s ∈ ss, s.toList.head? = some first)
    (hfollows : ∀ u : List Char, u.head? = some first → follows u) (hu : follows u) :
    follows (ss.flatMap String.toList ++ u) := by
  by_cases hne : ss = []
  · rw [hne]
    exact hu
  · exact hfollows _ (head?_flatMap_append hss hne)

/-- Items that begin with one character are told apart up to something that begins otherwise. -/
lemma forall₂_of_concat {write : α → Except ε String} {r : α → α → Prop}
    {follows : List Char → Prop} {as bs : List α} (h : ∀ a ∈ as, Unambiguous write r follows a)
    {first : Char} (hfirst : ∀ a s, write a = .ok s → s.toList.head? = some first)
    (hfollows : ∀ u : List Char, u.head? = some first → follows u)
    {ss ts : List String} (has : List.Forall₂ (fun a s => write a = .ok s) as ss)
    (hbs : List.Forall₂ (fun b t => write b = .ok t) bs ts) {u v : List Char}
    (hu : follows u) (hv : follows v) (hu' : u.head? ≠ some first) (hv' : v.head? ≠ some first)
    (heq : ss.flatMap String.toList ++ u = ts.flatMap String.toList ++ v) :
    List.Forall₂ r as bs ∧ u = v := by
  induction has generalizing bs ts with
  | nil =>
    cases hbs with
    | nil => exact ⟨.nil, heq⟩
    | cons hb hbs =>
      have hhead : u.head? = some first := by
        rw [show u = _ from heq]
        exact head?_flatMap_append (forall_head?_of_forall₂ hfirst (.cons hb hbs))
          (List.cons_ne_nil _ _)
      exact absurd hhead hu'
  | cons ha has ih =>
    cases hbs with
    | nil =>
      have hhead : v.head? = some first := by
        rw [← show _ = v from heq]
        exact head?_flatMap_append (forall_head?_of_forall₂ hfirst (.cons ha has))
          (List.cons_ne_nil _ _)
      exact absurd hhead hv'
    | cons hb hbs =>
      rw [List.flatMap_cons, List.flatMap_cons, List.append_assoc, List.append_assoc] at heq
      obtain ⟨hhead, htail⟩ := List.forall_mem_cons.1 h
      have hrest := follows_flatMap_append (forall_head?_of_forall₂ hfirst has) hfollows hu
      have hrest' := follows_flatMap_append (forall_head?_of_forall₂ hfirst hbs) hfollows hv
      obtain ⟨hab, heq⟩ := hhead ha hb hrest hrest' heq
      obtain ⟨hrel, huv⟩ := ih htail hbs heq
      exact ⟨.cons hab hrel, huv⟩

/-! ## Items between separators -/

lemma toList_join_cons (sep s : String) (rest : List String) :
    (join sep (s :: rest)).toList =
      s.toList ++ (rest.map (sep ++ ·)).flatMap String.toList := by
  induction rest generalizing s with
  | nil => simp [join]
  | cons t rest ih => simp [join, ih]

lemma join_eq_intercalate (sep : String) (ss : List String) :
    join sep ss = sep.intercalate ss := by
  induction ss with
  | nil => rfl
  | cons s rest ih =>
    cases rest with
    | nil => rw [join, String.intercalate_singleton]
    | cons t rest =>
      rw [String.intercalate_cons_cons, ← ih]
      rfl

lemma head?_separated {sep : String} (hsep : sep.toList.head? = some ',') (s : String) :
    (sep ++ s).toList.head? = some ',' := by
  rw [String.toList_append, List.head?_append, hsep]
  rfl

lemma forall₂_separated {write : α → Except ε String} {as : List α} {ss : List String}
    (sep : String) (has : List.Forall₂ (fun a s => write a = .ok s) as ss) :
    List.Forall₂ (fun a s => (write a).map (sep ++ ·) = .ok s) as (ss.map (sep ++ ·)) := by
  rw [List.forall₂_map_right_iff]
  exact has.imp fun a s ha => map_eq_ok.2 ⟨s, ha, rfl⟩

/-- Items between separators that begin with a comma are told apart up to a closing character. -/
lemma forall₂_of_join {sep : String} (hsep : sep.toList.head? = some ',')
    {write : α → Except ε String} {r : α → α → Prop} {follows : List Char → Prop} {as bs : List α}
    (h : ∀ a ∈ as, Unambiguous write r follows a)
    {close : Char} (hstart : ∀ a s, write a = .ok s → ∃ c rest, s.toList = c :: rest ∧ c ≠ close)
    (hcomma : ∀ u : List Char, u.head? = some ',' → follows u)
    (hclose : ∀ u : List Char, u.head? = some close → follows u) (hne : close ≠ ',')
    {ss ts : List String} (has : List.Forall₂ (fun a s => write a = .ok s) as ss)
    (hbs : List.Forall₂ (fun b t => write b = .ok t) bs ts) {u v : List Char}
    (heq : (join sep ss).toList ++ close :: u = (join sep ts).toList ++ close :: v) :
    List.Forall₂ r as bs ∧ u = v := by
  -- nothing is written as the closing character, so an empty list is told from any other
  have hempty : ∀ {b : α} {t : String} {ts : List String} {u v : List Char}, write b = .ok t →
      close :: u ≠ (join sep (t :: ts)).toList ++ v := by
    intro b t ts u v hb heq
    obtain ⟨c, rest, ht, hc⟩ := hstart b t hb
    rw [toList_join_cons, ht] at heq
    exact hc (List.cons.inj heq).1.symm
  have hbehind : ∀ (ss : List String) (u : List Char),
      follows ((ss.map (sep ++ ·)).flatMap String.toList ++ close :: u) := fun ss u =>
    follows_flatMap_append (List.forall_mem_map.2 fun s _ => head?_separated hsep s) hcomma
      (hclose (close :: u) rfl)
  have hclose' : ∀ u : List Char, (close :: u).head? ≠ some ',' := fun u h =>
    hne (Option.some.inj h)
  cases has with
  | nil =>
    cases hbs with
    | nil => exact ⟨.nil, (List.cons.inj heq).2⟩
    | cons hb hbs => exact absurd heq (hempty hb)
  | cons ha has =>
    cases hbs with
    | nil => exact absurd heq.symm (hempty ha)
    | cons hb hbs =>
      obtain ⟨hhead, htail⟩ := List.forall_mem_cons.1 h
      rw [toList_join_cons, toList_join_cons, List.append_assoc, List.append_assoc] at heq
      obtain ⟨hab, heq⟩ := hhead ha hb (hbehind _ u) (hbehind _ v) heq
      have hfirst : ∀ a s, (write a).map (sep ++ ·) = .ok s → s.toList.head? = some ',' := by
        intro a s hs
        obtain ⟨s, _, rfl⟩ := map_eq_ok.1 hs
        exact head?_separated hsep s
      obtain ⟨hrel, huv⟩ := forall₂_of_concat (fun a hmem => (htail a hmem).behind sep) hfirst
        hcomma (forall₂_separated sep has) (forall₂_separated sep hbs) (hclose _ rfl) (hclose _ rfl)
        (hclose' u) (hclose' v) heq
      exact ⟨.cons hab hrel, (List.cons.inj huv).2⟩

end Text
end TypedSchema
