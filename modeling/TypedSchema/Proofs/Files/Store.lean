import TypedSchema.Files.Store
import TypedSchema.Proofs.Outcome

/-!
# What file operations change

Stores are compared by the files in them (`FileStore.content?`), wherever they are.  Creating
directories, successful or not, keeps all files (`FileStore.sameFiles_makeDirectoryTree`).  Writing
a text that succeeds changes one file, the one that the path leads to afterwards, to exactly this
text (`FileStore.writes_of_writeText`).
-/

namespace TypedSchema
namespace FileStore

variable {store before after last : FileStore} {location other : Location}

/-! ## The files in a store -/

/-- The content of the file at a location, if a file is there. -/
def content? (store : FileStore) (location : Location) : Option ByteArray :=
  match store.get? location with
  | some (.file content) => some content
  | _ => none

/-- No file is created, changed or removed. -/
def SameFiles (before after : FileStore) : Prop :=
  ∀ location, after.content? location = before.content? location

/-- A path leads to a file with this content, and no other file is created, changed or removed. -/
def Writes (path : String) (content : ByteArray) (before after : FileStore) : Prop :=
  ∃ location, after.locate path = .ok location ∧ after.content? location = some content ∧
    ∀ other, other ≠ location → after.content? other = before.content? other

lemma SameFiles.refl (store : FileStore) : store.SameFiles store := fun _ => rfl

lemma SameFiles.trans (h : before.SameFiles after) (hlast : after.SameFiles last) :
    before.SameFiles last := fun location => (hlast location).trans (h location)

lemma SameFiles.writes {path : String} {content : ByteArray} (h : before.SameFiles after)
    (hlast : after.Writes path content last) : before.Writes path content last := by
  obtain ⟨location, hlocation, hcontent, hothers⟩ := hlast
  exact ⟨location, hlocation, hcontent, fun other hne => (hothers other hne).trans (h other)⟩

lemma content?_congr (h : after.get? location = before.get? location) :
    after.content? location = before.content? location := by
  rw [content?, content?, h]

/-- A directory where nothing was is no file. -/
lemma sameFiles_put_directory (h : store.get? location = none) :
    store.SameFiles (store.put location .directory) := by
  intro other
  by_cases hother : other = location
  · subst hother
    have hroot : other ≠ [] := fun hnil => by
      rw [hnil] at h
      cases h
    rw [content?, content?, get?_put_self store .directory hroot, h]
  · exact content?_congr (get?_put_of_ne store .directory hother)

/-! ## Walking -/

lemma walk_append (store : FileStore) (location : Location) (first rest : List String) :
    store.walk location (first ++ rest) =
      store.walk location first >>= fun location => store.walk location rest := by
  induction first generalizing location with
  | nil => rfl
  | cons piece first ih =>
    rw [List.cons_append, walk, walk]
    split
    · cases store.enter location piece with
      | error error => rfl
      | ok next => exact ih next
    · rfl

/-- The entries of a directory are found in it. -/
lemma enter_put (content : ByteArray) {start next : Location} {piece : String}
    (h : store.enter start piece = .ok next) :
    (store.put location (.file content)).enter start piece = .ok next := by
  unfold enter at h ⊢
  split_ifs at h ⊢ with hidle hup hlong
  · exact h
  · exact h
  · by_cases hhere : start ++ [piece] = location
    · have hroot : location ≠ [] := hhere ▸ List.append_ne_nil_of_right_ne_nil _ nofun
      rw [hhere, get?_put_self store _ hroot]
      rw [hhere] at h
      split at h
      · exact h
      · cases h
    · rwa [get?_put_of_ne store _ hhere]

/-- A walk leads to where it led, whatever is written into a file. -/
lemma walk_put (hfile : store.get? location ≠ some .directory) (content : ByteArray)
    {start destination : Location} {pieces : List String}
    (h : store.walk start pieces = .ok destination) :
    (store.put location (.file content)).walk start pieces = .ok destination := by
  induction pieces generalizing start with
  | nil => exact h
  | cons piece rest ih =>
    rw [walk] at h ⊢
    split at h
    case h_1 hdirectory =>
      obtain ⟨next, hnext, hrest⟩ := bind_eq_ok.1 h
      -- a walk only passes through directories, and none of them is written to
      have hhere : start ≠ location := fun heq => hfile (heq ▸ hdirectory)
      rw [get?_put_of_ne store _ hhere, hdirectory]
      exact bind_eq_ok.2 ⟨next, enter_put content hnext, ih hrest⟩
    case h_2 => cases h

/-- The directory and the last piece of a path that leads somewhere but for that piece. -/
lemma locateParent_eq_ok {path name : String} {directory : Location} :
    store.locateParent path = .ok (directory, name) ↔
      ∃ pieces, checkedPieces path = .ok pieces ∧
        store.walk (store.start path) (pieces.reverse.dropWhile (· == "")).tail.reverse =
          .ok directory ∧
        store.get? directory = some .directory ∧
        (pieces.reverse.dropWhile (· == "")).head?.getD "" = name := by
  unfold locateParent
  simp only [bind_eq_ok]
  constructor
  · rintro ⟨pieces, hpieces, found, hwalk, h⟩
    split at h
    case h_1 hdirectory =>
      cases h
      exact ⟨pieces, hpieces, hwalk, hdirectory, rfl⟩
    case h_2 => cases h
  · rintro ⟨pieces, hpieces, hwalk, hdirectory, rfl⟩
    refine ⟨pieces, hpieces, directory, hwalk, ?_⟩
    rw [hdirectory]
    rfl

/-! ## Directories -/

lemma makeDirectory_eq_ok {path : String} (h : store.makeDirectory path = .ok after) :
    ∃ location, store.get? location = none ∧ after = store.put location .directory := by
  obtain ⟨⟨directory, name⟩, -, h⟩ := bind_eq_ok.1 h
  dsimp only at h
  split_ifs at h
  split at h
  case h_1 => cases h
  case h_2 hnone =>
    cases h
    exact ⟨_, hnone, rfl⟩

lemma sameFiles_makeDirectories (paths : List String) :
    store.SameFiles (store.makeDirectories paths).1 := by
  induction paths generalizing store with
  | nil => exact .refl store
  | cons path rest ih =>
    rw [makeDirectories]
    split
    case h_1 after hmade =>
      obtain ⟨location, hnone, rfl⟩ := makeDirectory_eq_ok hmade
      exact (sameFiles_put_directory hnone).trans ih
    case h_2 =>
      split
      · exact ih
      · exact .refl store

/-- **Creating directories keeps all files**, whether it succeeds or not. -/
theorem sameFiles_makeDirectoryTree (store : FileStore) (path : String) :
    store.SameFiles (store.makeDirectoryTree path).1 := by
  unfold makeDirectoryTree
  split
  · exact sameFiles_makeDirectories _
  · exact .refl store

/-! ## Files -/

lemma checkedPieces_eq_ok {path : String} {pieces : List String}
    (h : checkedPieces path = .ok pieces) : pieces = Path.pieces path := by
  unfold checkedPieces at h
  split_ifs at h
  cases h
  rfl

/-- A path that does not end in a slash leads to its last piece, in the directory that the others
lead to. -/
lemma pieces_of_getLast? {path : String} (h : (Path.pieces path).getLast? ≠ some "") :
    Path.pieces path = ((Path.pieces path).reverse.dropWhile (· == "")).tail.reverse ++
      [((Path.pieces path).reverse.dropWhile (· == "")).head?.getD ""] := by
  have hsome : Path.pieces path ≠ [] := fun hnil =>
    Text.splitOn_ne_nil '/' path.toList (List.map_eq_nil_iff.1 hnil)
  obtain ⟨init, name, hpieces⟩ := (List.eq_nil_or_concat' _).resolve_left hsome
  have hname : ¬(name == "") = true := by
    rintro hempty
    rw [hpieces, List.getLast?_concat, eq_of_beq hempty] at h
    exact h rfl
  rw [hpieces, List.reverse_append, List.reverse_singleton, List.singleton_append,
    List.dropWhile_cons_of_neg (p := (· == "")) hname, List.tail_cons, List.reverse_reverse]
  rfl

/-- **Writing changes one file**, the one that the path leads to, and leaves exactly the text in
it. -/
theorem writes_of_writeText {path text : String} (h : store.writeText path text = .ok after) :
    store.Writes path text.toUTF8 after := by
  obtain ⟨⟨directory, name⟩, hparent, h⟩ := bind_eq_ok.1 h
  dsimp only at h
  split_ifs at h with hproper hlong
  split at h
  case h_1 => cases h
  case h_2 hfile =>
    cases h
    obtain ⟨pieces, hpieces, hwalk, hdirectory, hname⟩ := locateParent_eq_ok.1 hparent
    simp only [Bool.or_eq_true, decide_eq_true_eq, beq_iff_eq, not_or] at hproper
    obtain ⟨⟨⟨hempty, hpoint⟩, hup⟩, hslash⟩ := hproper
    have hroot : directory ++ [name] ≠ [] := List.append_ne_nil_of_right_ne_nil _ nofun
    have hidle : Path.isIdle name = false := by
      rw [Path.isIdle, beq_false_of_ne hempty, beq_false_of_ne hpoint]
      rfl
    have hinside : directory ≠ directory ++ [name] := by simp
    refine ⟨directory ++ [name], ?_, ?_, fun other hother => ?_⟩
    · -- the path leads through the same directories as before, and on to the name
      have hlast := pieces_of_getLast? hslash
      rw [← checkedPieces_eq_ok hpieces, hname] at hlast
      refine bind_eq_ok.2 ⟨pieces, hpieces, ?_⟩
      rw [hlast, walk_append]
      refine bind_eq_ok.2 ⟨directory, walk_put hfile _ hwalk, ?_⟩
      rw [walk, get?_put_of_ne store _ hinside, hdirectory]
      refine bind_eq_ok.2 ⟨directory ++ [name], ?_, rfl⟩
      rw [enter, if_neg (by rw [hidle]; exact Bool.false_ne_true), if_neg hup, if_neg hlong,
        get?_put_self store _ hroot]
    · rw [content?, get?_put_self store _ hroot]
    · exact content?_congr (get?_put_of_ne store _ hother)

/-- A text in a file is read back. -/
lemma readText_of_content? {path text : String} (hlocate : store.locate path = .ok location)
    (hcontent : store.content? location = some text.toUTF8) : store.readText path = .ok text := by
  have hfile : store.get? location = some (.file text.toUTF8) := by
    unfold content? at hcontent
    split at hcontent
    case h_1 hfile =>
      cases hcontent
      exact hfile
    case h_2 => cases hcontent
  have htext : String.fromUTF8? text.toUTF8 = some text := dif_pos text.isValidUTF8
  refine bind_eq_ok.2 ⟨location, hlocate, ?_⟩
  rw [hfile]
  dsimp only
  rw [htext]
  rfl

end FileStore
end TypedSchema
