import TypedSchema.Proofs.Document.Entries

/-!
# What the root of a document can be

The root of a document is an object that holds the entries under `properties`.  The reader takes one
form besides, a list whose only item is an object, and then the members of that object are the
entries (`Json.RootOf`, `Node.readRoot_eq_ok`).  Scalars, all other lists and all other objects are
refused as invalid, whatever is in them.

`Document.load_root` says so of whole documents.  Such a list is no root by the rule, and yet it is
loaded exactly if the object with the same entries is, and to the same schemas; with any other root
only an object with `properties` can be loaded.
-/

namespace TypedSchema

/-! ## Reading a root -/

/-- The values that are read as a root with these entries. -/
inductive Json.RootOf (entries : List (String × Json)) : Json → Prop
  | properties {members : List (String × Json)}
    (h : members.lookup "properties" = some (.object entries)) : RootOf entries (.object members)
  | onlyItem : RootOf entries (.array [.object entries])

lemma Json.RootOf.eq {v : Json} {entries others : List (String × Json)} (h : v.RootOf entries)
    (hother : v.RootOf others) : entries = others := by
  cases h with
  | properties hentries =>
    cases hother with
    | properties hothers =>
      cases hentries.symm.trans hothers
      rfl
  | onlyItem =>
    cases hother with
    | onlyItem => rfl

lemma Json.RootOf.valid {v : Json} {entries : List (String × Json)} (h : v.RootOf entries)
    (hv : v.Valid) : ∀ entry ∈ entries, entry.2.Valid := by
  cases h with
  | properties hentries => exact (hv.members _ (mem_of_lookup hentries)).members
  | onlyItem => exact (hv.items _ List.mem_cons_self).members

namespace Node

variable {v : Json} {nodes : List (String × Node)}

lemma readRootProperties_eq_ok :
    readRootProperties v = .ok nodes ↔
      ∃ entries, v = .object entries ∧ readProperties entries = .ok nodes := by
  constructor
  · intro h
    cases v with
    | object entries => exact ⟨entries, rfl, h⟩
    | _ => cases h
  · rintro ⟨entries, rfl, h⟩
    exact h

/-- A value is read as a root in one of two forms, and what is read are its entries. -/
lemma readRoot_eq_ok :
    readRoot v = .ok nodes ↔ ∃ entries, v.RootOf entries ∧ readProperties entries = .ok nodes := by
  constructor
  · intro h
    unfold readRoot at h
    split at h
    case h_1 members =>
      split at h
      case h_1 => cases h
      case h_2 value hvalue =>
        obtain ⟨entries, rfl, hentries⟩ := readRootProperties_eq_ok.1 (mapError_eq_ok.1 h)
        exact ⟨entries, .properties hvalue, hentries⟩
    case h_2 => cases h
    case h_3 item rest =>
      obtain ⟨properties, hproperties, hlength⟩ := bind_eq_ok.1 h
      obtain ⟨entries, rfl, hentries⟩ := readRootProperties_eq_ok.1 (mapError_eq_ok.1 hproperties)
      cases rest with
      | nil =>
        cases hlength
        exact ⟨entries, .onlyItem, hentries⟩
      | cons next rest => cases hlength
    case h_4 => cases h
  · rintro ⟨entries, hroot | _, hentries⟩
    · rw [readRoot, hroot]
      exact mapError_eq_ok.2 hentries
    · exact bind_eq_ok.2 ⟨nodes, mapError_eq_ok.2 hentries, rfl⟩

end Node

/-! ## Loading from a root -/

namespace Document

variable {document : Json} {pointer : Option String}

/-- A document is loaded from the entries of its root. -/
lemma load_eq_ok {schemas : List Schema} :
    (load document pointer).outcome = .ok schemas ↔
      ∃ value entries nodes, root document pointer = .ok value ∧ value.RootOf entries ∧
        Node.readProperties entries = .ok nodes ∧
        (loadEntries pointer nodes).outcome = .ok schemas := by
  simp only [outcome_load, bind_eq_ok, entries, mapError_eq_ok, Node.readRoot_eq_ok]
  constructor
  · rintro ⟨value, hroot, nodes, ⟨entries, hentries, hread⟩, hloaded⟩
    exact ⟨value, entries, nodes, hroot, hentries, hread, hloaded⟩
  · rintro ⟨value, entries, nodes, hroot, hentries, hread, hloaded⟩
    exact ⟨value, hroot, nodes, ⟨entries, hentries, hread⟩, hloaded⟩

lemma kind_of_root_eq_error {fault : Fault} (h : root document pointer = .error fault) :
    fault.kind = .invalid := by
  unfold root at h
  split at h
  · cases h
  · split at h <;> cases h
    rfl

lemma kind_of_entries_eq_error {value : Json} {fault : Fault} (h : entries value = .error fault) :
    fault.kind = .invalid := by
  obtain ⟨mismatch, -, rfl⟩ := mapError_eq_error.1 h
  rfl

/-- Without a root that can be read, a document is invalid. -/
lemma exists_invalid_of_not_rootOf
    (h : ∀ value, root document pointer = .ok value → ∀ entries, ¬value.RootOf entries) :
    ∃ fault, (load document pointer).outcome = .error fault ∧ fault.kind = .invalid := by
  rw [outcome_load]
  cases hroot : root document pointer with
  | error fault => exact ⟨fault, rfl, kind_of_root_eq_error hroot⟩
  | ok value =>
    cases hread : entries value with
    | error fault =>
      exact ⟨fault, bind_eq_error.2 (.inr ⟨value, rfl, bind_eq_error.2 (.inl hread)⟩),
        kind_of_entries_eq_error hread⟩
    | ok nodes =>
      obtain ⟨entries, hentries, -⟩ := Node.readRoot_eq_ok.1 (mapError_eq_ok.1 hread)
      exact absurd hentries (h value hroot entries)

/-- The entries decide what is loaded, not the form of the root. -/
lemma load_eq_ok_iff_of_rootOf {value : Json} {entries : List (String × Json)}
    {schemas : List Schema} (hroot : root document pointer = .ok value)
    (hentries : value.RootOf entries) :
    (load document pointer).outcome = .ok schemas ↔
      ∃ nodes, Node.readProperties entries = .ok nodes ∧
        (loadEntries pointer nodes).outcome = .ok schemas := by
  rw [load_eq_ok]
  constructor
  · rintro ⟨_, _, nodes, hroot', hentries', hread, hloaded⟩
    cases hroot.symm.trans hroot'
    cases hentries.eq hentries'
    exact ⟨nodes, hread, hloaded⟩
  · rintro ⟨nodes, hread, hloaded⟩
    exact ⟨value, entries, nodes, hroot, hentries, hread, hloaded⟩

/-- **Only an object with `properties` is loaded, or a list in its place.**  If the root is no list
of one object, a document that is loaded has its entries under `properties`, and one that has none
there is invalid.  If it is, the document is loaded as if the object stood under `properties`. -/
theorem load_root (document : Json) (pointer : Option String) :
    ((∀ entries, root document pointer ≠ .ok (.array [.object entries])) →
      (∀ schemas, (load document pointer).outcome = .ok schemas →
        ∃ entries, HasEntries document pointer entries) ∧
      ((∀ entries, ¬HasEntries document pointer entries) →
        ∃ fault, (load document pointer).outcome = .error fault ∧ fault.kind = .invalid)) ∧
    ∀ entries, root document pointer = .ok (.array [.object entries]) →
      (∀ others, ¬HasEntries document pointer others) ∧
      ∀ other, HasEntries other pointer entries → ∀ schemas,
        (load document pointer).outcome = .ok schemas ↔
          (load other pointer).outcome = .ok schemas := by
  refine ⟨fun hlist => ?_, fun entries hlist => ⟨?_, ?_⟩⟩
  · have hobject : ∀ value, root document pointer = .ok value → ∀ entries, value.RootOf entries →
        HasEntries document pointer entries := by
      rintro _ hroot entries (hproperties | _)
      · exact ⟨_, hroot, hproperties⟩
      · exact absurd hroot (hlist entries)
    constructor
    · intro schemas h
      obtain ⟨value, entries, _, hroot, hentries, -⟩ := load_eq_ok.1 h
      exact ⟨entries, hobject value hroot entries hentries⟩
    · intro hnone
      exact exists_invalid_of_not_rootOf fun value hroot entries hentries =>
        hnone entries (hobject value hroot entries hentries)
  · rintro others ⟨members, hroot, -⟩
    cases hlist.symm.trans hroot
  · rintro other ⟨members, hroot, hproperties⟩ schemas
    rw [load_eq_ok_iff_of_rootOf hlist .onlyItem,
      load_eq_ok_iff_of_rootOf hroot (.properties hproperties)]

theorem load_root_pet :
    (∀ entries, root (.array [withProperties [petEntry], .null]) none ≠
      .ok (.array [.object entries])) ∧
    (∀ entries, ¬HasEntries (.array [withProperties [petEntry], .null]) none entries) ∧
    (∃ fault, (load (.array [withProperties [petEntry], .null]) none).outcome = .error fault ∧
      fault.kind = .invalid) ∧
    ∃ schemas, (load (withProperties [petEntry]) none).outcome = .ok schemas ∧
      (load (.array [.object [petEntry]]) none).outcome = .ok schemas := by
  have hlist : ∀ entries, root (.array [withProperties [petEntry], .null]) none ≠
      .ok (.array [.object entries]) := nofun
  have hnone : ∀ entries, ¬HasEntries (.array [withProperties [petEntry], .null]) none entries := by
    rintro entries ⟨members, hroot, -⟩
    cases hroot
  obtain ⟨schemas, hloaded⟩ :
      ∃ schemas, (load (withProperties [petEntry]) none).outcome = .ok schemas := ⟨_, rfl⟩
  refine ⟨hlist, hnone, ((load_root _ none).1 hlist).2 hnone, schemas, hloaded, ?_⟩
  exact (((load_root _ none).2 [petEntry] rfl).2 _ (hasEntries_withProperties _) schemas).2 hloaded

/-- A list is loaded, although it has no `properties`. -/
theorem load_takes_list :
    ¬∀ (document : Json) (pointer : Option String) (schemas : List Schema),
      (load document pointer).outcome = .ok schemas →
        ∃ entries, HasEntries document pointer entries := by
  intro h
  obtain ⟨entries, members, hroot, -⟩ := h (.array [.object [petEntry]]) none _ rfl
  cases hroot

end Document
end TypedSchema
