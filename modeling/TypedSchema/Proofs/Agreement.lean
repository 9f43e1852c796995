import Mathlib.Data.List.Perm.Basic
import TypedSchema.Proofs.Members
import TypedSchema.Proofs.Outcome

/-!
# Computations that agree

Two computations that may fail agree when both succeed, with results that are related, or both fail
(`Agree`).  Why they fail does not count.  Agreement passes through everything that composes
computations (`Agree.bind`, `Agree.map`, `Agree.mapError`), and through the recursions that handle a
list item by item, if the items agree: in order (`agree_of_forall₂`), or in an order of their own on
each side (`agree_of_rel`).
-/

namespace TypedSchema

variable {ε δ : Type} {α α' β β' : Type}

/-- Both computations succeed with related results, or both fail. -/
inductive Agree (R : α → β → Prop) : Except ε α → Except δ β → Prop
  | ok {a : α} {b : β} (related : R a b) : Agree R (.ok a) (.ok b)
  | error (e : ε) (d : δ) : Agree R (.error e) (.error d)

/-- Computations that agree succeed together, and their results are related. -/
theorem agree_iff {R : α → β → Prop} {x : Except ε α} {y : Except δ β} :
    Agree R x y ↔
      ((∃ a, x = .ok a) ↔ ∃ b, y = .ok b) ∧ ∀ a b, x = .ok a → y = .ok b → R a b := by
  constructor
  · rintro (related | ⟨e, d⟩)
    · refine ⟨iff_of_true ⟨_, rfl⟩ ⟨_, rfl⟩, ?_⟩
      rintro _ _ ⟨⟩ ⟨⟩
      exact related
    · exact ⟨iff_of_false nofun nofun, nofun⟩
  · rintro ⟨hok, hrelated⟩
    cases x with
    | ok a =>
      obtain ⟨b, rfl⟩ := hok.1 ⟨a, rfl⟩
      exact .ok (hrelated a b rfl rfl)
    | error e =>
      cases y with
      | ok b => exact nomatch (hok.2 ⟨b, rfl⟩).choose_spec
      | error d => exact .error e d

namespace Agree

/-- The results are those of the computations. -/
lemma results {R : α → β → Prop} {x : Except ε α} {y : Except δ β} (h : Agree R x y) :
    Agree (fun a b => R a b ∧ x = .ok a ∧ y = .ok b) x y := by
  cases h with
  | ok related => exact .ok ⟨related, rfl, rfl⟩
  | error e d => exact .error e d

lemma refl {R : α → α → Prop} (hR : ∀ a, R a a) (x : Except ε α) : Agree R x x := by
  cases x with
  | ok a => exact .ok (hR a)
  | error e => exact .error e e

lemma bind {R : α → β → Prop} {S : α' → β' → Prop} {x : Except ε α} {y : Except δ β}
    {f : α → Except ε α'} {g : β → Except δ β'} (h : Agree R x y)
    (hfg : ∀ a b, R a b → Agree S (f a) (g b)) : Agree S (x >>= f) (y >>= g) := by
  cases h with
  | ok related => exact hfg _ _ related
  | error e d => exact .error e d

lemma map {R : α → β → Prop} {S : α' → β' → Prop} {x : Except ε α} {y : Except δ β} {f : α → α'}
    {g : β → β'} (h : Agree R x y) (hfg : ∀ a b, R a b → S (f a) (g b)) :
    Agree S (x.map f) (y.map g) := by
  cases h with
  | ok related => exact .ok (hfg _ _ related)
  | error e d => exact .error e d

lemma mapError {ε' δ' : Type} {R : α → β → Prop} {x : Except ε α} {y : Except δ β} {f : ε → ε'}
    {g : δ → δ'} (h : Agree R x y) : Agree R (x.mapError f) (y.mapError g) := by
  cases h with
  | ok related => exact .ok related
  | error e d => exact .error _ _

lemma ite {R : α → β → Prop} {p : Prop} [Decidable p] {x x' : Except ε α} {y y' : Except δ β}
    (h : Agree R x y) (h' : Agree R x' y') :
    Agree R (if p then x else x') (if p then y else y') := by
  split
  · exact h
  · exact h'

end Agree

/-! ## Lists -/

section
variable {R : α' → β' → Prop} {x : Except ε (List α')} {y : Except δ (List β')} {ε' δ' : Type}
  {f : α → Except ε' α'} {g : β → Except δ' β'} {as : List α} {bs : List β}

lemma exists_forall₂_iff {r : α → α' → Prop} :
    (∃ cs, List.Forall₂ r as cs) ↔ ∀ a ∈ as, ∃ c, r a c := by
  induction as with
  | nil => simp
  | cons a as ih =>
    rw [List.forall_mem_cons, ← ih]
    simp only [List.forall₂_cons_left_iff]
    constructor
    · rintro ⟨_, c, cs, hc, hcs, rfl⟩
      exact ⟨⟨c, hc⟩, cs, hcs⟩
    · rintro ⟨⟨c, hc⟩, cs, hcs⟩
      exact ⟨c :: cs, c, cs, hc, hcs, rfl⟩

/-- Items that agree one by one can all be handled or not, and their results correspond. -/
lemma results_of_forall₂ (h : List.Forall₂ (fun a b => Agree R (f a) (g b)) as bs) :
    ((∃ cs, List.Forall₂ (fun a c => f a = .ok c) as cs) ↔
        ∃ ds, List.Forall₂ (fun b d => g b = .ok d) bs ds) ∧
      ∀ cs ds, List.Forall₂ (fun a c => f a = .ok c) as cs →
        List.Forall₂ (fun b d => g b = .ok d) bs ds → List.Forall₂ R cs ds := by
  rw [exists_forall₂_iff, exists_forall₂_iff]
  induction h with
  | nil =>
    refine ⟨by simp, ?_⟩
    rintro _ _ ⟨⟩ ⟨⟩
    exact .nil
  | cons hab _ ih =>
    rw [agree_iff] at hab
    refine ⟨by rw [List.forall_mem_cons, List.forall_mem_cons, hab.1, ih.1], ?_⟩
    rintro _ _ (_ | ⟨hc, hcs⟩) (_ | ⟨hd, hds⟩)
    exact .cons (hab.2 _ _ hc hd) (ih.2 _ _ hcs hds)

/-- Recursions over two lists agree if they do on corresponding items. -/
theorem agree_of_forall₂ (hx : ∀ cs, x = .ok cs ↔ List.Forall₂ (fun a c => f a = .ok c) as cs)
    (hy : ∀ ds, y = .ok ds ↔ List.Forall₂ (fun b d => g b = .ok d) bs ds)
    (h : List.Forall₂ (fun a b => Agree R (f a) (g b)) as bs) : Agree (List.Forall₂ R) x y := by
  simpa only [agree_iff, hx, hy] using results_of_forall₂ h

/-- What corresponds one to one corresponds in order, once one side is put in the right order. -/
lemma rel_iff_exists_forall₂ {r : α → β → Prop} :
    Multiset.Rel r (as : Multiset α) (bs : Multiset β) ↔
      ∃ cs, List.Forall₂ r as cs ∧ cs.Perm bs := by
  constructor
  · intro h
    induction as generalizing bs with
    | nil =>
      rw [(Multiset.coe_eq_zero bs).1 (Multiset.rel_zero_left.1 h)]
      exact ⟨[], .nil, .nil⟩
    | cons a as ih =>
      rw [← Multiset.cons_coe, Multiset.rel_cons_left] at h
      obtain ⟨b, others, hab, hrest, hbs⟩ := h
      obtain ⟨rest, rfl⟩ := Quot.exists_rep others
      obtain ⟨cs, hcs, hperm⟩ := ih hrest
      exact ⟨b :: cs, .cons hab hcs, (hperm.cons b).trans (Multiset.coe_eq_coe.1 hbs).symm⟩
  · rintro ⟨cs, h, hperm⟩
    rw [← Multiset.coe_eq_coe.2 hperm]
    clear hperm
    induction h with
    | nil => exact .zero
    | cons hab _ ih => exact .cons hab ih

/-- Recursions over two lists agree up to order if the items correspond one to one and agree. -/
theorem agree_of_rel (hx : ∀ cs, x = .ok cs ↔ List.Forall₂ (fun a c => f a = .ok c) as cs)
    (hy : ∀ ds, y = .ok ds ↔ List.Forall₂ (fun b d => g b = .ok d) bs ds)
    (h : Multiset.Rel (fun a b => Agree R (f a) (g b)) (as : Multiset α) (bs : Multiset β)) :
    Agree (fun (cs : List α') (ds : List β') =>
      Multiset.Rel R (cs : Multiset α') (ds : Multiset β')) x y := by
  obtain ⟨bs', hall, hperm⟩ := rel_iff_exists_forall₂.1 h
  obtain ⟨hok, hresults⟩ := results_of_forall₂ hall
  have hsome : (∃ ds, List.Forall₂ (fun b d => g b = .ok d) bs' ds) ↔
      ∃ ds, List.Forall₂ (fun b d => g b = .ok d) bs ds := by
    rw [exists_forall₂_iff, exists_forall₂_iff]
    simp only [hperm.mem_iff]
  simp only [agree_iff, hx, hy]
  refine ⟨hok.trans hsome, fun cs ds hcs hds => ?_⟩
  obtain ⟨ds', hds', hperm'⟩ := List.perm_comp_forall₂ hperm hds
  exact rel_iff_exists_forall₂.2 ⟨ds', hresults cs ds' hcs hds', hperm'⟩

end

/-! ## Named entries -/

/-- Handles the value of an entry and keeps its name. -/
def onValue (f : α → Except ε β) (entry : String × α) : Except ε (String × β) :=
  (f entry.2).map fun value => (entry.1, value)

lemma onValue_eq_ok {f : α → Except ε β} {x : String × α} {y : String × β} :
    onValue f x = .ok y ↔ x.1 = y.1 ∧ f x.2 = .ok y.2 := by
  rw [onValue, map_eq_ok]
  constructor
  · rintro ⟨value, hvalue, rfl⟩
    exact ⟨rfl, hvalue⟩
  · rintro ⟨hname, hvalue⟩
    exact ⟨y.2, hvalue, Prod.ext hname rfl⟩

lemma SameName.agree_onValue {R : α' → β' → Prop} {f : α → Except ε α'} {g : β → Except δ β'}
    {x : String × α} {y : String × β} (h : SameName (fun a b => Agree R (f a) (g b)) x y) :
    Agree (SameName R) (onValue f x) (onValue g y) :=
  h.2.map fun _ _ hab => ⟨h.1, hab⟩

end TypedSchema
