import Mathlib.Data.List.Forall2
import Mathlib.Tactic.Lemma

/-!
# When a computation that may fail succeeds

Success of a composed computation, read as success of its parts.  The lemmas are `simp` lemmas, so
an equation `… = .ok b` about a `do` block unfolds into what each of its steps gave.

A recursion that handles the items of a list one after another, and only marks an error with where
it occurred, succeeds if every item does (`items_eq_ok`, `entries_eq_ok`), and otherwise fails as
one of its items does (`exists_of_items_eq_error`, `exists_of_entries_eq_error`).
-/

namespace TypedSchema

variable {ε δ α β γ : Type}

@[simp] lemma bind_eq_ok {x : Except ε α} {f : α → Except ε β} {b : β} :
    x >>= f = .ok b ↔ ∃ a, x = .ok a ∧ f a = .ok b := by
  cases x with
  | error e => exact ⟨fun h => (nomatch h), fun ⟨_, ha, _⟩ => (nomatch ha)⟩
  | ok a =>
    constructor
    · intro h
      exact ⟨a, rfl, h⟩
    · rintro ⟨a', ha', h⟩
      cases ha'
      exact h

@[simp] lemma pure_eq_ok {a b : α} : (pure a : Except ε α) = .ok b ↔ a = b :=
  ⟨fun h => Except.ok.inj h, fun h => h ▸ rfl⟩

@[simp] lemma map_eq_ok {x : Except ε α} {f : α → β} {b : β} :
    x.map f = .ok b ↔ ∃ a, x = .ok a ∧ f a = b := by
  cases x with
  | error e => exact ⟨fun h => (nomatch h), fun ⟨_, ha, _⟩ => (nomatch ha)⟩
  | ok a =>
    constructor
    · intro h
      exact ⟨a, rfl, Except.ok.inj h⟩
    · rintro ⟨a', ha', rfl⟩
      cases ha'
      rfl

@[simp] lemma functor_map_eq_ok {x : Except ε α} {f : α → β} {b : β} :
    f <$> x = .ok b ↔ ∃ a, x = .ok a ∧ f a = b :=
  map_eq_ok

@[simp] lemma discard_eq_ok {x : Except ε α} {u : PUnit} :
    discard x = .ok u ↔ ∃ a, x = .ok a := by
  cases x with
  | error e => exact ⟨fun h => (nomatch h), fun ⟨_, h⟩ => (nomatch h)⟩
  | ok a => exact ⟨fun _ => ⟨a, rfl⟩, fun _ => rfl⟩

@[simp] lemma mapError_eq_ok {x : Except ε α} {f : ε → δ} {a : α} :
    x.mapError f = .ok a ↔ x = .ok a := by
  cases x with
  | error e => exact ⟨fun h => (nomatch h), fun h => (nomatch h)⟩
  | ok b => exact ⟨fun h => congrArg _ (Except.ok.inj h), fun h => congrArg _ (Except.ok.inj h)⟩

lemma bind_eq_error {x : Except ε α} {f : α → Except ε β} {e : ε} :
    x >>= f = .error e ↔ x = .error e ∨ ∃ a, x = .ok a ∧ f a = .error e := by
  cases x with
  | error d =>
    constructor
    · rintro ⟨⟩
      exact .inl rfl
    · rintro (⟨⟨⟩⟩ | ⟨_, ha, _⟩)
      · rfl
      · cases ha
  | ok a =>
    constructor
    · exact fun h => .inr ⟨a, rfl, h⟩
    · rintro (h | ⟨_, ⟨⟩, h⟩)
      · cases h
      · exact h

lemma map_eq_error {x : Except ε α} {f : α → β} {e : ε} : x.map f = .error e ↔ x = .error e := by
  cases x with
  | error d =>
    exact ⟨fun h => congrArg _ (Except.error.inj h), fun h => congrArg _ (Except.error.inj h)⟩
  | ok a => exact ⟨fun h => (nomatch h), fun h => (nomatch h)⟩

lemma mapError_eq_error {x : Except ε α} {f : ε → δ} {d : δ} :
    x.mapError f = .error d ↔ ∃ e, x = .error e ∧ f e = d := by
  cases x with
  | error e =>
    constructor
    · exact fun h => ⟨e, rfl, Except.error.inj h⟩
    · rintro ⟨_, ⟨⟩, rfl⟩
      rfl
  | ok a => exact ⟨fun h => (nomatch h), fun ⟨_, h, _⟩ => (nomatch h)⟩

/-- A computation that only goes on with what another gives succeeds if that one does. -/
lemma exists_bind_pure_iff {x : Except ε α} {f : α → β} :
    (∃ b, (x >>= fun a => pure (f a)) = .ok b) ↔ ∃ a, x = .ok a := by
  simp only [bind_eq_ok, pure_eq_ok]
  exact ⟨fun ⟨_, a, h, _⟩ => ⟨a, h⟩, fun ⟨a, h⟩ => ⟨f a, a, h, rfl⟩⟩

/-! ## Lists -/

/-- A recursion over a list that handles each item by `g` and tells errors where they occurred. -/
lemma items_eq_ok (f : Nat → List α → Except ε (List β)) (g : α → Except δ β) (wrap : Nat → δ → ε)
    (hnil : ∀ i, f i [] = .ok [])
    (hcons : ∀ i a as, f i (a :: as) = do
      let b ← (g a).mapError (wrap i)
      return b :: (← f (i + 1) as))
    {i : Nat} {as : List α} {bs : List β} :
    f i as = .ok bs ↔ List.Forall₂ (fun a b => g a = .ok b) as bs := by
  induction as generalizing i bs with
  | nil => cases bs <;> simp [hnil]
  | cons a as ih => cases bs <;> simp [hcons, ih]

/-- The same recursion over named entries, which keeps the names. -/
lemma entries_eq_ok (f : List (String × α) → Except ε (List (String × β))) (g : α → Except δ β)
    (wrap : String → δ → ε) (hnil : f [] = .ok [])
    (hcons : ∀ name a as, f ((name, a) :: as) = do
      let b ← (g a).mapError (wrap name)
      return (name, b) :: (← f as))
    {as : List (String × α)} {bs : List (String × β)} :
    f as = .ok bs ↔ List.Forall₂ (fun a b => a.1 = b.1 ∧ g a.2 = .ok b.2) as bs := by
  induction as generalizing bs with
  | nil => cases bs <;> simp [hnil]
  | cons entry as ih =>
    obtain ⟨name, a⟩ := entry
    cases bs with
    | nil => simp [hcons]
    | cons entry bs =>
      obtain ⟨name', b⟩ := entry
      simp only [hcons, bind_eq_ok, mapError_eq_ok, pure_eq_ok, ih, List.forall₂_cons,
        List.cons.injEq, Prod.mk.injEq]
      constructor
      · rintro ⟨b, hb, bs, hbs, ⟨rfl, rfl⟩, rfl⟩
        exact ⟨⟨rfl, hb⟩, hbs⟩
      · rintro ⟨⟨rfl, hb⟩, hbs⟩
        exact ⟨b, hb, bs, hbs, ⟨rfl, rfl⟩, rfl⟩

/-- A recursion over a list that fails tells which item failed, and where it is. -/
lemma exists_of_items_eq_error (f : Nat → List α → Except ε (List β)) (g : α → Except δ β)
    (wrap : Nat → δ → ε) (hnil : ∀ i, f i [] = .ok [])
    (hcons : ∀ i a as, f i (a :: as) = do
      let b ← (g a).mapError (wrap i)
      return b :: (← f (i + 1) as))
    {i : Nat} {as : List α} {e : ε} (h : f i as = .error e) :
    ∃ j a d, as[j]? = some a ∧ g a = .error d ∧ wrap (i + j) d = e := by
  induction as generalizing i with
  | nil => cases (hnil i).symm.trans h
  | cons a as ih =>
    rw [hcons] at h
    rcases bind_eq_error.1 h with h | ⟨b, -, h⟩
    · obtain ⟨d, hd, rfl⟩ := mapError_eq_error.1 h
      exact ⟨0, a, d, rfl, hd, rfl⟩
    · rcases bind_eq_error.1 h with h | ⟨bs, -, h⟩
      · obtain ⟨j, a', d, ha', hd, rfl⟩ := ih h
        exact ⟨j + 1, a', d, ha', hd, by rw [Nat.add_right_comm, Nat.add_assoc]⟩
      · cases h

/-- The same for the recursion over named entries. -/
lemma exists_of_entries_eq_error (f : List (String × α) → Except ε (List (String × β)))
    (g : α → Except δ β) (wrap : String → δ → ε) (hnil : f [] = .ok [])
    (hcons : ∀ name a as, f ((name, a) :: as) = do
      let b ← (g a).mapError (wrap name)
      return (name, b) :: (← f as))
    {as : List (String × α)} {e : ε} (h : f as = .error e) :
    ∃ entry ∈ as, ∃ d, g entry.2 = .error d ∧ wrap entry.1 d = e := by
  induction as with
  | nil => cases hnil.symm.trans h
  | cons entry as ih =>
    obtain ⟨name, a⟩ := entry
    rw [hcons] at h
    rcases bind_eq_error.1 h with h | ⟨b, -, h⟩
    · obtain ⟨d, hd, rfl⟩ := mapError_eq_error.1 h
      exact ⟨(name, a), List.mem_cons_self, d, hd, rfl⟩
    · rcases bind_eq_error.1 h with h | ⟨bs, -, h⟩
      · obtain ⟨entry, hentry, d, hd, rfl⟩ := ih h
        exact ⟨entry, List.mem_cons_of_mem _ hentry, d, hd, rfl⟩
      · cases h

/-- A recursion over a list that combines what its items give succeeds if every item gives
something. -/
lemma exists_ok_iff_forall (f : List α → Except ε β) (g : α → Except ε γ) (combine : α → γ → β → β)
    {start : β} (hnil : f [] = .ok start)
    (hcons : ∀ a as, f (a :: as) = do
      let c ← g a
      return combine a c (← f as))
    {as : List α} : (∃ b, f as = .ok b) ↔ ∀ a ∈ as, ∃ c, g a = .ok c := by
  induction as with
  | nil => exact iff_of_true ⟨start, hnil⟩ (List.forall_mem_nil _)
  | cons a as ih =>
    rw [List.forall_mem_cons, ← ih, hcons]
    simp only [bind_eq_ok, pure_eq_ok]
    constructor
    · rintro ⟨_, c, hc, b, hb, _⟩
      exact ⟨⟨c, hc⟩, b, hb⟩
    · rintro ⟨⟨c, hc⟩, b, hb⟩
      exact ⟨_, c, hc, b, hb, rfl⟩

/-- A recursion over a list that strings together what its items give succeeds if every item gives
something. -/
lemma flatten_eq_ok (f : List α → Except ε (List β)) (g : α → Except ε (List β))
    (hnil : f [] = .ok []) (hcons : ∀ a as, f (a :: as) = do return (← g a) ++ (← f as))
    {as : List α} {bs : List β} :
    f as = .ok bs ↔ ∃ bss, List.Forall₂ (fun a bs => g a = .ok bs) as bss ∧ bss.flatten = bs := by
  induction as generalizing bs with
  | nil =>
    rw [hnil]
    constructor
    · rintro ⟨⟩
      exact ⟨[], .nil, rfl⟩
    · rintro ⟨_, ⟨⟩, rfl⟩
      rfl
  | cons a as ih =>
    simp only [hcons, bind_eq_ok, pure_eq_ok, ih]
    constructor
    · rintro ⟨first, hfirst, _, ⟨bss, hrest, rfl⟩, rfl⟩
      exact ⟨first :: bss, .cons hfirst hrest, rfl⟩
    · rintro ⟨_, hall, rfl⟩
      cases hall with
      | cons hfirst hrest => exact ⟨_, hfirst, _, ⟨_, hrest, rfl⟩, rfl⟩

/-- A recursion over a list that strings together what its items give can be done in two parts. -/
lemma append_eq_bind (f : List α → Except ε (List β)) (g : α → Except ε (List β))
    (hnil : f [] = .ok []) (hcons : ∀ a as, f (a :: as) = g a >>= fun bs => (f as).map (bs ++ ·))
    (xs ys : List α) : f (xs ++ ys) = f xs >>= fun bs => (f ys).map (bs ++ ·) := by
  induction xs with
  | nil =>
    rw [List.nil_append, hnil]
    show f ys = (f ys).map fun bs => bs
    cases f ys <;> rfl
  | cons a xs ih =>
    rw [List.cons_append, hcons, hcons, ih]
    cases g a with
    | error fault => rfl
    | ok first =>
      cases f xs with
      | error fault => rfl
      | ok bs =>
        cases f ys with
        | error fault => rfl
        | ok others => exact congrArg Except.ok (List.append_assoc first bs others).symm

/-- What is related to the items of a list one by one comes from one of them. -/
lemma exists_of_forall₂ {r : α → β → Prop} {as : List α} {bs : List β} (h : List.Forall₂ r as bs)
    {b : β} (hb : b ∈ bs) : ∃ a ∈ as, r a b := by
  induction h with
  | nil => exact absurd hb List.not_mem_nil
  | @cons a b' _ _ hab _ ih =>
    rcases List.mem_cons.1 hb with rfl | hb
    · exact ⟨a, List.mem_cons_self, hab⟩
    · obtain ⟨a', ha', hr⟩ := ih hb
      exact ⟨a', List.mem_cons_of_mem a ha', hr⟩

/-- The same for an item at some place, which comes from the item at that place. -/
lemma exists_getElem?_of_forall₂ {r : α → β → Prop} {as : List α} {bs : List β}
    (h : List.Forall₂ r as bs) {i : Nat} {b : β} (hb : bs[i]? = some b) :
    ∃ a, as[i]? = some a ∧ r a b := by
  induction h generalizing i with
  | nil => cases hb
  | @cons a b' _ _ hab _ ih =>
    cases i with
    | zero =>
      cases hb
      exact ⟨a, rfl, hab⟩
    | succ i => exact ih hb

/-- Of two lists that are related item by item, either both have an item of a kind or none has. -/
lemma exists_mem_iff_of_forall₂ {r : α → β → Prop} {p : α → Prop} {q : β → Prop} {as : List α}
    {bs : List β} (h : List.Forall₂ r as bs) (hiff : ∀ a ∈ as, ∀ b, r a b → (p a ↔ q b)) :
    (∃ a ∈ as, p a) ↔ ∃ b ∈ bs, q b := by
  induction h with
  | nil => simp
  | @cons a b as bs hab _ ih =>
    obtain ⟨hfirst, hrest⟩ := List.forall_mem_cons.1 hiff
    rw [List.exists_mem_cons_iff, List.exists_mem_cons_iff, hfirst b hab, ih hrest]

/-- Handling named entries one by one keeps the names. -/
lemma map_fst_eq_of_forall₂ {g : α → Except δ β} {as : List (String × α)} {bs : List (String × β)}
    (h : List.Forall₂ (fun a b => a.1 = b.1 ∧ g a.2 = .ok b.2) as bs) :
    as.map Prod.fst = bs.map Prod.fst := by
  induction h with
  | nil => rfl
  | cons hab _ ih => rw [List.map_cons, List.map_cons, hab.1, ih]

end TypedSchema
