/-!
# Members — ordered lists of named entries, and lists without repetition

The members of a JSON object, the properties of a schema and the fields of a merged object are lists
of named entries in the order in which their names first appeared.  `insertMember` is the one way to
add to such a list: a name that is already there keeps its place and takes the new value, a new name
goes to the end.  Lists that only collect values drop repetitions in the same way:
`firstOccurrences` keeps each value where it appeared first.
-/

namespace TypedSchema

/-! ## Named entries -/

/-- Sets the value of a name: in place if the name is there, at the end otherwise. -/
def insertMember {α : Type} (name : String) (value : α) : List (String × α) → List (String × α)
  | [] => [(name, value)]
  | (k, v) :: rest =>
    if k = name then (k, value) :: rest else (k, v) :: insertMember name value rest

/-- The members of a list of pairs, added from the first to the last. -/
def distinctMembers {α : Type} (pairs : List (String × α)) : List (String × α) :=
  pairs.foldl (fun members pair => insertMember pair.1 pair.2 members) []

/-- Setting a name keeps the names, and adds it at the end if it is new. -/
theorem map_fst_insertMember {α : Type} (name : String) (value : α) (members : List (String × α)) :
    (insertMember name value members).map Prod.fst =
      if name ∈ members.map Prod.fst then members.map Prod.fst
      else members.map Prod.fst ++ [name] := by
  induction members with
  | nil => simp [insertMember]
  | cons member rest ih =>
    obtain ⟨k, v⟩ := member
    by_cases hn : k = name
    · simp [insertMember, hn]
    · by_cases hr : name ∈ rest.map Prod.fst
      · simp only [insertMember, hn, if_false, List.map_cons, ih, hr, if_true, List.mem_cons,
          or_true]
      · simp only [insertMember, hn, if_false, List.map_cons, ih, hr, List.mem_cons, or_false,
          Ne.symm hn, List.cons_append]

/-! ## Repetition -/

/-- Adds a value at the end unless it is there already. -/
def appendNew {α : Type} [BEq α] (seen : List α) (x : α) : List α :=
  if seen.contains x then seen else seen ++ [x]

/-- The values of a list, each where it appeared first. -/
def firstOccurrences {α : Type} [BEq α] (xs : List α) : List α := xs.foldl appendNew []

end TypedSchema
