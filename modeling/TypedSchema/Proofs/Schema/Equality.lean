import Mathlib.Data.Multiset.MapFold
import TypedSchema.Proofs.Induction
import TypedSchema.Proofs.Members
import TypedSchema.Schema.Equality

/-!
# Equality of schemas is an equivalence

`Schema.same` compares alternatives by taking each one of the left schema out of the right one
(`eraseFirst?`), which is greedy: the first entry that fits is taken, whatever the later ones need.
This module shows that greed is harmless and that `==` is an equivalence on literals, schemas,
object schemas and types.

## How the induction goes

Symmetry and transitivity cannot be proved one after the other, because the step at an `anyOf`
needs both for its alternatives.  What is proved instead is `Representative same x`: the value is
equal to itself, and whatever it is equal to is equal to exactly the same values.  One such fact for
each alternative on the left says all that the step needs about the right as well.  It gives
reflexivity, symmetry and transitivity at once (`equivBEq_of_representative`).

The greedy comparison of collections is `takeEach`, and `takeEach_iff` says what it decides: the
entries correspond one to one (`Multiset.Rel`).  `Schema.beq_up_to_order` puts together what `==`
says of schemas.
-/

namespace TypedSchema

/-! ## Values that represent their class -/

/-- The value is equal to itself, and what it is equal to is equal to the same values as it is. -/
def Representative {α : Type} (same : α → α → Bool) (x : α) : Prop :=
  same x x = true ∧ ∀ y, same x y = true → same y = same x

/-- A comparison under which every value represents its class is an equivalence. -/
theorem equivBEq_of_representative {α : Type} [BEq α]
    (h : ∀ x : α, Representative (· == ·) x) : EquivBEq α where
  rfl := (h _).1
  symm := by
    intro a b hab
    have heq := congrFun ((h a).2 b hab) a
    exact heq.trans (h a).1
  trans := by
    intro a b c hab hbc
    have heq := congrFun ((h a).2 b hab) c
    exact heq.symm.trans hbc

lemma representative_beq {α : Type} [BEq α] [EquivBEq α] (x : α) :
    Representative (fun a b : α => a == b) x := by
  refine ⟨BEq.rfl, fun y hxy => ?_⟩
  funext z
  exact (BEq.congr_left hxy).symm

/-- A value that is equal to nothing but itself represents its class. -/
lemma Representative.of_eq {α : Type} {same : α → α → Bool} {x : α} (hx : same x x = true)
    (h : ∀ y, same x y = true → y = x) : Representative same x :=
  ⟨hx, fun y hy => by rw [h y hy]⟩

/-- A constructor passes representatives on, if values made by it are compared by what is inside
and are equal to no value that is made otherwise. -/
lemma Representative.lift {α β : Type} {inner : α → α → Bool} {same : β → β → Bool} {c : α → β}
    {a : α} (h : Representative inner a) (hsame : ∀ x y, same (c x) (c y) = inner x y)
    (hother : ∀ z, (∃ y, z = c y) ∨ ∀ x, same (c x) z = false) :
    Representative same (c a) := by
  refine ⟨(hsame a a).trans h.1, fun z hz => ?_⟩
  rcases hother z with ⟨y, rfl⟩ | hz'
  · have hy : inner y = inner a := h.2 y ((hsame a y).symm.trans hz)
    funext w
    rcases hother w with ⟨v, rfl⟩ | hw
    · rw [hsame, hsame, hy]
    · rw [hw, hw]
  · rw [hz' a] at hz
    exact absurd hz Bool.false_ne_true

/-- Lists compared entry by entry. -/
lemma Representative.isEqv {α : Type} {same : α → α → Bool} {xs : List α}
    (h : ∀ x ∈ xs, Representative same x) :
    Representative (fun as bs => as.isEqv bs same) xs := by
  induction xs with
  | nil =>
    refine ⟨rfl, fun ys hys => ?_⟩
    cases ys with
    | nil => rfl
    | cons y ys => simp [List.isEqv] at hys
  | cons x xs ih =>
    have hx := h x List.mem_cons_self
    have hxs := ih fun s hs => h s (List.mem_cons_of_mem x hs)
    refine ⟨by simp [List.isEqv, hx.1, hxs.1], fun ys hys => ?_⟩
    cases ys with
    | nil => simp [List.isEqv] at hys
    | cons y ys =>
      simp only [List.isEqv, Bool.and_eq_true] at hys
      funext zs
      cases zs with
      | nil => rfl
      | cons z zs =>
        have hhead := congrFun (hx.2 y hys.1) z
        have htail := congrFun (hxs.2 ys hys.2) zs
        simp only [List.isEqv, hhead, htail]

/-! ## Taking entries out one by one -/

/-- Whether taking out the first entry for each test in turn succeeds and leaves nothing. -/
def takeEach {α : Type} : List (α → Bool) → List α → Bool
  | [], ys => ys.isEmpty
  | p :: ps, ys =>
    match eraseFirst? p ys with
    | none => false
    | some rest => takeEach ps rest

lemma eraseFirst?_eq_none {α : Type} {p : α → Bool} {ys : List α} :
    eraseFirst? p ys = none ↔ ∀ y ∈ ys, p y = false := by
  induction ys with
  | nil => simp [eraseFirst?]
  | cons y ys ih =>
    by_cases hy : p y = true
    · simp [eraseFirst?, hy]
    · simp [eraseFirst?, hy, ih]

lemma eraseFirst?_eq_some {α : Type} {p : α → Bool} {ys rest : List α}
    (h : eraseFirst? p ys = some rest) :
    ∃ y, p y = true ∧ (ys : Multiset α) = y ::ₘ (rest : Multiset α) := by
  induction ys generalizing rest with
  | nil => simp [eraseFirst?] at h
  | cons x xs ih =>
    rw [eraseFirst?] at h
    by_cases hx : p x = true
    · rw [if_pos hx, Option.some.injEq] at h
      subst h
      exact ⟨x, hx, rfl⟩
    · rw [if_neg hx, Option.map_eq_some_iff] at h
      obtain ⟨tail, htail, rfl⟩ := h
      obtain ⟨y, hy, heq⟩ := ih htail
      refine ⟨y, hy, ?_⟩
      rw [← Multiset.cons_coe, heq, ← Multiset.cons_coe, Multiset.cons_swap]

/-- Tests that share an entry are the same test.  This is what makes the greedy choice harmless:
two entries that fit one test fit the same tests. -/
def Coherent {α : Type} (ps : List (α → Bool)) : Prop :=
  ∀ p ∈ ps, ∀ q ∈ ps, ∀ y, p y = true → q y = true → p = q

/-- In a correspondence, an entry may be exchanged for another that fits the same test. -/
lemma rel_exchange {α : Type} {p : α → Bool} {ps : List (α → Bool)} (hps : Coherent (p :: ps))
    {y b : α} {rest others : Multiset α} (hy : p y = true) (hb : p b = true)
    (heq : y ::ₘ rest = b ::ₘ others)
    (hrel : Multiset.Rel (fun q z => q z = true) (ps : Multiset (α → Bool)) others) :
    Multiset.Rel (fun q z => q z = true) (ps : Multiset (α → Bool)) rest := by
  rcases Multiset.cons_eq_cons.1 heq with ⟨-, hrest⟩ | ⟨-, common, hrest, hothers⟩
  · rwa [hrest]
  · rw [hothers, Multiset.rel_cons_right] at hrel
    obtain ⟨q, qs, hqy, hqs, hq⟩ := hrel
    have hmem : q ∈ ps := by
      rw [← Multiset.mem_coe, hq]
      exact Multiset.mem_cons_self q qs
    have hpq : p = q := hps p List.mem_cons_self q (List.mem_cons_of_mem p hmem) y hy hqy
    rw [hrest, hq, ← hpq]
    exact hqs.cons hb

/-- **The greedy comparison decides one-to-one correspondence.** -/
theorem takeEach_iff {α : Type} {ps : List (α → Bool)} (hps : Coherent ps) (ys : List α) :
    takeEach ps ys = true ↔
      Multiset.Rel (fun p y => p y = true) (ps : Multiset (α → Bool)) (ys : Multiset α) := by
  induction ps generalizing ys with
  | nil => simp [takeEach, Multiset.rel_zero_left]
  | cons p ps ih =>
    have htail : Coherent ps := fun q hq r hr =>
      hps q (List.mem_cons_of_mem p hq) r (List.mem_cons_of_mem p hr)
    rw [takeEach, ← Multiset.cons_coe, Multiset.rel_cons_left]
    cases hfound : eraseFirst? p ys with
    | none =>
      rw [eraseFirst?_eq_none] at hfound
      constructor
      · intro h
        exact absurd h Bool.false_ne_true
      · rintro ⟨b, others, hb, -, heq⟩
        have hmem : b ∈ ys := by
          rw [← Multiset.mem_coe, heq]
          exact Multiset.mem_cons_self b others
        rw [hfound b hmem] at hb
        exact absurd hb Bool.false_ne_true
    | some rest =>
      obtain ⟨y, hy, heq⟩ := eraseFirst?_eq_some hfound
      rw [ih htail rest]
      constructor
      · intro hrel
        exact ⟨y, rest, hy, hrel, heq⟩
      · rintro ⟨b, others, hb, hrel, hothers⟩
        exact rel_exchange hps hy hb (heq.symm.trans hothers) hrel

section
variable {α : Type} {same : α → α → Bool} {xs : List α}

/-- The tests of values that represent their classes are coherent. -/
lemma coherent_map (h : ∀ x ∈ xs, Representative same x) : Coherent (xs.map same) := by
  intro p hp q hq y hpy hqy
  obtain ⟨a, ha, rfl⟩ := List.mem_map.1 hp
  obtain ⟨b, hb, rfl⟩ := List.mem_map.1 hq
  exact ((h a ha).2 y hpy).symm.trans ((h b hb).2 y hqy)

lemma takeEach_map_iff (h : ∀ x ∈ xs, Representative same x) (ys : List α) :
    takeEach (xs.map same) ys = true ↔
      Multiset.Rel (fun x y => same x y = true) (xs : Multiset α) (ys : Multiset α) := by
  rw [takeEach_iff (coherent_map h), ← Multiset.map_coe, Multiset.rel_map_left]

/-- Lists compared as collections. -/
lemma Representative.takeEach (h : ∀ x ∈ xs, Representative same x) :
    Representative (fun as bs => TypedSchema.takeEach (as.map same) bs) xs := by
  refine ⟨(takeEach_map_iff h xs).2 (Multiset.rel_refl_of_refl_on fun x hx => (h x hx).1),
    fun ys hys => ?_⟩
  have hrel := (takeEach_map_iff h ys).1 hys
  -- related values have the same test, so both sides have the same tests up to order
  have htests : (xs.map same : Multiset (α → Bool)) = (ys.map same : Multiset (α → Bool)) := by
    rw [← Multiset.map_coe, ← Multiset.map_coe, ← Multiset.rel_eq, Multiset.rel_map]
    exact hrel.mono fun x hx y _ hxy => ((h x hx).2 y hxy).symm
  have hcoherent : Coherent (ys.map same) := by
    intro p hp q hq
    rw [← Multiset.mem_coe, ← htests] at hp hq
    exact coherent_map h p hp q hq
  funext zs
  rw [Bool.eq_iff_iff, takeEach_iff hcoherent, takeEach_iff (coherent_map h), htests]

end

/-! ## Literals -/

lemma Binary64.representative (x : Binary64) : Representative Binary64.same x := by
  refine ⟨Binary64.same_refl x, fun y hxy => ?_⟩
  funext z
  cases x <;> cases y <;> cases z <;> grind [Binary64.same]

lemma Literal.representative (l : Literal) : Representative Literal.same l := by
  cases l with
  | number x =>
    refine (Binary64.representative x).lift (fun _ _ => rfl) fun m => ?_
    cases m with
    | number y => exact .inl ⟨y, rfl⟩
    | _ => exact .inr fun _ => rfl
  | _ =>
    refine .of_eq (by simp [Literal.same]) fun m hm => ?_
    cases m <;> simp_all [Literal.same]

instance : EquivBEq Literal := equivBEq_of_representative Literal.representative

lemma list_beq_eq_isEqv {α : Type} [BEq α] (xs ys : List α) :
    (xs == ys) = xs.isEqv ys (· == ·) := by
  induction xs generalizing ys with
  | nil => cases ys <;> rfl
  | cons x xs ih =>
    cases ys with
    | nil => rfl
    | cons y ys => rw [List.cons_beq_cons, List.isEqv_cons_cons, ih]

instance list_equivBEq {α : Type} [BEq α] [EquivBEq α] : EquivBEq (List α) := by
  refine equivBEq_of_representative fun xs => ?_
  have h : Representative (fun as bs => as.isEqv bs (· == ·)) xs :=
    Representative.isEqv fun x _ => representative_beq x
  simpa only [list_beq_eq_isEqv] using h

instance option_equivBEq {α : Type} [BEq α] [EquivBEq α] : EquivBEq (Option α) where
  symm := by
    intro a b hab
    cases a <;> cases b <;> simp_all [BEq.comm]
  trans := by
    intro a b c hab hbc
    cases a <;> cases b <;> cases c <;> simp_all
    exact BEq.trans hab hbc

/-! ## Schemas -/

lemma PrimitiveSchema.representative (p : PrimitiveSchema) :
    Representative PrimitiveSchema.same p := by
  refine ⟨by simp [PrimitiveSchema.same], fun q hpq => ?_⟩
  simp only [PrimitiveSchema.same, Bool.and_eq_true, beq_iff_eq] at hpq
  obtain ⟨⟨hid, hkind⟩, henum⟩ := hpq
  funext r
  simp only [PrimitiveSchema.same, hid, hkind, BEq.congr_left henum]

lemma sameMembers_iff {as bs : List String} : sameMembers as bs = true ↔ ∀ x, x ∈ as ↔ x ∈ bs := by
  simp only [sameMembers, Bool.and_eq_true, List.all_eq_true, List.contains_iff_mem]
  exact ⟨fun h x => ⟨h.1 x, h.2 x⟩, fun h => ⟨fun x => (h x).1, fun x => (h x).2⟩⟩

lemma representative_names (names : List String) : Representative sameMembers names := by
  refine ⟨sameMembers_iff.2 fun _ => Iff.rfl, fun others hothers => ?_⟩
  have hmem := sameMembers_iff.1 hothers
  funext thirds
  rw [Bool.eq_iff_iff]
  simp only [sameMembers_iff, hmem]

lemma representative_required (required : Option (List String)) :
    Representative sameRequired required := by
  cases required with
  | none =>
    refine .of_eq rfl fun other hother => ?_
    cases other with
    | none => rfl
    | some _ => exact absurd hother Bool.false_ne_true
  | some names =>
    refine (representative_names names).lift (fun _ _ => rfl) fun other => ?_
    cases other with
    | none => exact .inr fun _ => rfl
    | some others => exact .inl ⟨others, rfl⟩

/-- Whether a property has the name and, up to order, the schema of another. -/
def sameEntry (a b : String × Schema) : Bool := b.1 == a.1 && Schema.same a.2 b.2

lemma representative_entry {entry : String × Schema} (h : Representative Schema.same entry.2) :
    Representative sameEntry entry := by
  refine ⟨by simp [sameEntry, h.1], fun other hother => ?_⟩
  simp only [sameEntry, Bool.and_eq_true, beq_iff_eq] at hother
  funext third
  simp only [sameEntry, hother.1, h.2 other.2 hother.2]

lemma Schema.sameItems_eq (xs ys : List Schema) :
    Schema.sameItems xs ys = xs.isEqv ys Schema.same := by
  induction xs generalizing ys with
  | nil => cases ys <;> rfl
  | cons x xs ih =>
    cases ys with
    | nil => rfl
    | cons y ys => rw [Schema.sameItems, ih, List.isEqv_cons_cons]

lemma Member.sameList_eq (xs ys : List Member) :
    Member.sameList xs ys = xs.isEqv ys Member.same := by
  induction xs generalizing ys with
  | nil => cases ys <;> rfl
  | cons x xs ih =>
    cases ys with
    | nil => rfl
    | cons y ys => rw [Member.sameList, ih, List.isEqv_cons_cons]

lemma Schema.sameAlternatives_eq (xs ys : List Schema) :
    Schema.sameAlternatives xs ys = takeEach (xs.map Schema.same) ys := by
  induction xs generalizing ys with
  | nil => rfl
  | cons x xs ih =>
    rw [Schema.sameAlternatives, List.map_cons, takeEach]
    cases eraseFirst? (Schema.same x) ys with
    | none => rfl
    | some rest => exact ih rest

lemma Schema.sameProperties_eq (xs ys : List (String × Schema)) :
    Schema.sameProperties xs ys = takeEach (xs.map sameEntry) ys := by
  induction xs generalizing ys with
  | nil => rfl
  | cons x xs ih =>
    obtain ⟨name, schema⟩ := x
    have hentry : (fun entry : String × Schema => entry.1 == name && schema.same entry.2) =
        sameEntry (name, schema) := rfl
    rw [Schema.sameProperties, List.map_cons, takeEach, hentry]
    cases eraseFirst? (sameEntry (name, schema)) ys with
    | none => rfl
    | some rest => exact ih rest

lemma ObjectSchema.same_eq (a b : ObjectSchema) :
    ObjectSchema.same a b =
      (a.id == b.id && a.base == b.base && sameRequired a.required b.required
        && takeEach (a.properties.map sameEntry) b.properties
        && Member.sameOption a.allOf b.allOf) := by
  obtain ⟨id, base, properties, required, allOf⟩ := a
  rw [ObjectSchema.same, Schema.sameProperties_eq]

lemma Member.representative {m : Member}
    (h : ∀ inner, m = .inline inner → Representative ObjectSchema.same inner) :
    Representative Member.same m := by
  cases m with
  | ref target =>
    refine .of_eq (by simp [Member.same]) fun other hother => ?_
    cases other with
    | ref other => rw [beq_iff_eq.1 (show (target == other) = true from hother)]
    | inline _ => exact absurd hother Bool.false_ne_true
  | inline inner =>
    refine (h inner rfl).lift (fun _ _ => rfl) fun other => ?_
    cases other with
    | ref _ => exact .inr fun _ => rfl
    | inline other => exact .inl ⟨other, rfl⟩

lemma representative_allOf {allOf : Option (List Member)}
    (h : ∀ members, allOf = some members →
      ∀ inner, .inline inner ∈ members → Representative ObjectSchema.same inner) :
    Representative Member.sameOption allOf := by
  cases allOf with
  | none =>
    refine .of_eq rfl fun other hother => ?_
    cases other with
    | none => rfl
    | some _ => exact absurd hother Bool.false_ne_true
  | some members =>
    have hmembers : ∀ m ∈ members, Representative Member.same m := by
      intro m hm
      refine Member.representative fun inner heq => ?_
      subst heq
      exact h members rfl inner hm
    refine (Representative.isEqv hmembers).lift Member.sameList_eq fun other => ?_
    cases other with
    | none => exact .inr fun _ => rfl
    | some others => exact .inl ⟨others, rfl⟩

/-- **Every schema represents its class**, and so does every object schema. -/
theorem Schema.representative :
    (∀ s, Representative Schema.same s) ∧ ∀ o, Representative ObjectSchema.same o := by
  refine Schema.induction ?object ?array ?primitive ?multiType ?anyOf ?ref ?fields
  case object =>
    intro o ho
    refine ho.lift (fun _ _ => rfl) fun other => ?_
    cases other with
    | object other => exact .inl ⟨other, rfl⟩
    | _ => exact .inr fun _ => rfl
  case array =>
    intro items hitems
    refine (Representative.isEqv hitems).lift Schema.sameItems_eq fun other => ?_
    cases other with
    | array others => exact .inl ⟨others, rfl⟩
    | _ => exact .inr fun _ => rfl
  case primitive =>
    intro p
    refine (PrimitiveSchema.representative p).lift (fun _ _ => rfl) fun other => ?_
    cases other with
    | primitive q => exact .inl ⟨q, rfl⟩
    | _ => exact .inr fun _ => rfl
  case multiType =>
    intro kinds
    refine (representative_beq kinds).lift (fun _ _ => rfl) fun other => ?_
    cases other with
    | multiType others => exact .inl ⟨others, rfl⟩
    | _ => exact .inr fun _ => rfl
  case anyOf =>
    intro alternatives halternatives
    refine (Representative.takeEach halternatives).lift Schema.sameAlternatives_eq fun other => ?_
    cases other with
    | anyOf others => exact .inl ⟨others, rfl⟩
    | _ => exact .inr fun _ => rfl
  case ref =>
    intro target
    refine (representative_beq target).lift (fun _ _ => rfl) fun other => ?_
    cases other with
    | ref other => exact .inl ⟨other, rfl⟩
    | _ => exact .inr fun _ => rfl
  case fields =>
    intro o hproperties hmembers
    have hprops := Representative.takeEach fun entry hentry =>
      representative_entry (hproperties entry hentry)
    have hrequired := representative_required o.required
    have hallOf := representative_allOf hmembers
    refine ⟨?_, fun other hother => ?_⟩
    · simp [ObjectSchema.same_eq, hprops.1, hrequired.1, hallOf.1]
    · simp only [ObjectSchema.same_eq, Bool.and_eq_true, beq_iff_eq] at hother
      obtain ⟨⟨⟨⟨hid, hbase⟩, hreq⟩, hprop⟩, hall⟩ := hother
      funext third
      have hthird : takeEach (other.properties.map sameEntry) third.properties =
          takeEach (o.properties.map sameEntry) third.properties :=
        congrFun (hprops.2 _ hprop) third.properties
      rw [ObjectSchema.same_eq, ObjectSchema.same_eq, hid, hbase, hrequired.2 _ hreq,
        hallOf.2 _ hall, hthird]

instance : EquivBEq Schema := equivBEq_of_representative Schema.representative.1

instance : EquivBEq ObjectSchema := equivBEq_of_representative Schema.representative.2

/-! ## Types -/

lemma Ty.sameList_eq (ts us : List Ty) : Ty.sameList ts us = ts.isEqv us Ty.same := by
  induction ts generalizing us with
  | nil => cases us <;> rfl
  | cons t ts ih =>
    cases us with
    | nil => rfl
    | cons u us => rw [Ty.sameList, ih, List.isEqv_cons_cons]

lemma Ty.representative : ∀ t, Representative Ty.same t := by
  refine Ty.induction ?primitive ?named ?anyObject ?listOf ?unionOf ?literalEnum
  case primitive =>
    intro kind
    refine (representative_beq kind).lift (fun _ _ => rfl) fun other => ?_
    cases other with
    | primitive other => exact .inl ⟨other, rfl⟩
    | _ => exact .inr fun _ => rfl
  case named =>
    intro name
    refine (representative_beq name).lift (fun _ _ => rfl) fun other => ?_
    cases other with
    | named other => exact .inl ⟨other, rfl⟩
    | _ => exact .inr fun _ => rfl
  case anyObject =>
    refine .of_eq rfl fun other hother => ?_
    cases other with
    | anyObject => rfl
    | _ => exact absurd hother Bool.false_ne_true
  case listOf =>
    intro element helement
    refine helement.lift (fun _ _ => rfl) fun other => ?_
    cases other with
    | listOf other => exact .inl ⟨other, rfl⟩
    | _ => exact .inr fun _ => rfl
  case unionOf =>
    intro members hmembers
    refine (Representative.isEqv hmembers).lift Ty.sameList_eq fun other => ?_
    cases other with
    | unionOf others => exact .inl ⟨others, rfl⟩
    | _ => exact .inr fun _ => rfl
  case literalEnum =>
    intro values
    refine (representative_beq values).lift (fun _ _ => rfl) fun other => ?_
    cases other with
    | literalEnum others => exact .inl ⟨others, rfl⟩
    | _ => exact .inr fun _ => rfl

instance : EquivBEq Ty := equivBEq_of_representative Ty.representative

/-! ## What equality of collections says -/

/-- Lists that are compared entry by entry are equal when they correspond entry by entry. -/
lemma isEqv_iff_forall₂ {α : Type} {same : α → α → Bool} {xs ys : List α} :
    xs.isEqv ys same = true ↔ List.Forall₂ (fun x y => same x y = true) xs ys := by
  induction xs generalizing ys with
  | nil => cases ys <;> simp [List.isEqv]
  | cons x xs ih =>
    cases ys with
    | nil => simp [List.isEqv]
    | cons y ys => rw [List.isEqv_cons_cons, Bool.and_eq_true, ih, List.forall₂_cons]

/-- Two lists of alternatives are equal up to order when they correspond one to one. -/
theorem Schema.anyOf_beq_iff {xs ys : List Schema} :
    (Schema.anyOf xs == Schema.anyOf ys) = true ↔
      Multiset.Rel (fun x y : Schema => (x == y) = true)
        (xs : Multiset Schema) (ys : Multiset Schema) := by
  show Schema.sameAlternatives xs ys = true ↔ _
  rw [Schema.sameAlternatives_eq]
  exact takeEach_map_iff (fun x _ => Schema.representative.1 x) ys

theorem Schema.sameProperties_iff {xs ys : List (String × Schema)} :
    Schema.sameProperties xs ys = true ↔
      Multiset.Rel (fun a b : String × Schema => b.1 = a.1 ∧ (a.2 == b.2) = true)
        (xs : Multiset (String × Schema)) (ys : Multiset (String × Schema)) := by
  have hentry : ∀ a b : String × Schema,
      sameEntry a b = true ↔ b.1 = a.1 ∧ (a.2 == b.2) = true := by
    intro a b
    rw [sameEntry, Bool.and_eq_true, beq_iff_eq]
    exact Iff.rfl
  rw [Schema.sameProperties_eq,
    takeEach_map_iff (fun x _ => representative_entry (Schema.representative.1 x.2)) ys]
  simp only [hentry]

lemma sameRequired_iff {a b : Option (List String)} :
    sameRequired a b = true ↔ Option.Rel (fun xs ys => ∀ name, name ∈ xs ↔ name ∈ ys) a b := by
  cases a <;> cases b <;> simp [sameRequired, sameMembers_iff]

lemma sameRequired_iff_mem {a b : Option (List String)} :
    sameRequired a b = true ↔
      a.isSome = b.isSome ∧ ∀ name, name ∈ a.getD [] ↔ name ∈ b.getD [] := by
  cases a <;> cases b <;> simp [sameRequired, sameMembers_iff]

lemma Member.sameOption_iff {a b : Option (List Member)} :
    Member.sameOption a b = true ↔
      Option.Rel (List.Forall₂ fun m n : Member => (m == n) = true) a b := by
  cases a with
  | none => cases b <;> simp [Member.sameOption]
  | some ms =>
    cases b with
    | none => simp [Member.sameOption]
    | some ns =>
      rw [Member.sameOption, Member.sameList_eq, isEqv_iff_forall₂, Option.rel_some_some]
      exact Iff.rfl

/-- Equal scalar schemas have one kind and list equal values, if any. -/
lemma PrimitiveSchema.values_beq_of_same {p q : PrimitiveSchema} (h : p.same q = true) :
    p.kind = q.kind ∧ p.isEnumerable = q.isEnumerable ∧
      (p.enum.getD [] == q.enum.getD []) = true := by
  simp only [PrimitiveSchema.same, Bool.and_eq_true, beq_iff_eq] at h
  obtain ⟨⟨-, hkind⟩, henum⟩ := h
  have hlisted : (p.enum.getD [] == q.enum.getD []) = true := by
    cases hp : p.enum <;> cases hq : q.enum <;> rw [hp, hq] at henum <;>
      first | exact henum | rfl | exact absurd henum Bool.false_ne_true
  refine ⟨hkind, ?_, hlisted⟩
  unfold PrimitiveSchema.isEnumerable
  cases hp : p.enum.getD [] <;> cases hq : q.enum.getD [] <;> rw [hp, hq] at hlisted <;>
    first | rfl | exact absurd hlisted Bool.false_ne_true

/-- Two object schemas say the same, each in an order of its own: properties of the same names have
equal schemas, the required names are the same or omitted in both, and only the members of a
composition come in the same order. -/
structure ObjectSchema.Alike (a b : ObjectSchema) : Prop where
  id : a.id = b.id
  base : a.base = b.base
  required : Option.Rel (fun xs ys => ∀ name, name ∈ xs ↔ name ∈ ys) a.required b.required
  properties : Multiset.Rel (fun x y : String × Schema => x.1 = y.1 ∧ (x.2 == y.2) = true)
    (a.properties : Multiset (String × Schema)) (b.properties : Multiset (String × Schema))
  allOf : Option.Rel (List.Forall₂ fun m n : Member => (m == n) = true) a.allOf b.allOf

namespace ObjectSchema.Alike

variable {a b : ObjectSchema} (h : a.Alike b)
include h

lemma isComposed : a.isComposed = b.isComposed := by
  have hallOf := h.allOf
  show a.allOf.isSome = b.allOf.isSome
  generalize a.allOf = ms at hallOf ⊢
  generalize b.allOf = ns at hallOf ⊢
  cases hallOf <;> rfl

lemma members :
    List.Forall₂ (fun m n : Member => (m == n) = true) (a.allOf.getD []) (b.allOf.getD []) := by
  have hallOf := h.allOf
  generalize a.allOf = ms at hallOf ⊢
  generalize b.allOf = ns at hallOf ⊢
  cases hallOf with
  | none => exact .nil
  | some hall => exact hall

lemma isEmpty_properties : a.properties.isEmpty = b.properties.isEmpty := by
  have hlength : a.properties.length = b.properties.length :=
    Multiset.card_eq_card_of_rel h.properties
  rw [Bool.eq_iff_iff, List.isEmpty_iff_length_eq_zero, List.isEmpty_iff_length_eq_zero, hlength]

lemma isSome_required : a.required.isSome = b.required.isSome :=
  (sameRequired_iff_mem.1 (sameRequired_iff.2 h.required)).1

lemma mem_required (name : String) : name ∈ a.required.getD [] ↔ name ∈ b.required.getD [] :=
  (sameRequired_iff_mem.1 (sameRequired_iff.2 h.required)).2 name

end ObjectSchema.Alike

lemma ObjectSchema.beq_iff {a b : ObjectSchema} : (a == b) = true ↔ a.Alike b := by
  show ObjectSchema.same a b = true ↔ _
  rw [ObjectSchema.same_eq, ← Schema.sameProperties_eq]
  simp only [Bool.and_eq_true, beq_iff_eq, sameRequired_iff, Schema.sameProperties_iff,
    Member.sameOption_iff]
  constructor
  · rintro ⟨⟨⟨⟨hid, hbase⟩, hrequired⟩, hproperties⟩, hallOf⟩
    exact ⟨hid, hbase, hrequired, hproperties.mono fun _ _ _ _ h => ⟨h.1.symm, h.2⟩, hallOf⟩
  · rintro ⟨hid, hbase, hrequired, hproperties, hallOf⟩
    exact ⟨⟨⟨⟨hid, hbase⟩, hrequired⟩, hproperties.mono fun _ _ _ _ h => ⟨h.1.symm, h.2⟩⟩,
      hallOf⟩

/-- **Equality of schemas ignores order and nothing else.**  It is an equivalence.  Two lists of
alternatives are equal if and only if they correspond one to one, which counting the alternatives
of the left one decides, and two object schemas if and only if they are alike. -/
theorem Schema.beq_up_to_order :
    (Equivalence fun s t : Schema => (s == t) = true) ∧
      (∀ xs ys : List Schema, (Schema.anyOf xs == Schema.anyOf ys) = true ↔
        Multiset.Rel (fun x y : Schema => (x == y) = true)
          (xs : Multiset Schema) (ys : Multiset Schema)) ∧
      (∀ xs ys : List Schema, (Schema.anyOf xs == Schema.anyOf ys) = true ↔
        xs.length = ys.length ∧ ∀ x ∈ xs, xs.count x = ys.count x) ∧
      ∀ a b : ObjectSchema, (Schema.object a == Schema.object b) = true ↔ a.Alike b := by
  refine ⟨⟨fun _ => BEq.rfl, BEq.symm, BEq.trans⟩, ?alternatives, ?counting, ?objects⟩
  case alternatives => exact fun _ _ => Schema.anyOf_beq_iff
  case counting => exact fun _ _ => Schema.anyOf_beq_iff.trans rel_iff_count
  case objects => exact fun _ _ => ObjectSchema.beq_iff

end TypedSchema
