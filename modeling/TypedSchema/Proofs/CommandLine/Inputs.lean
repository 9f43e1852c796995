import TypedSchema.Proofs.CommandLine.Run
import TypedSchema.Proofs.Document.Entries
import TypedSchema.Proofs.Json.Equality

/-!
# Many inputs act as one document

The inputs of a command stand for paths (`StandsFor`), and the files there are loaded one after
another.  If each can be loaded, the schemas are those of one document with the entries of all of
them in order (`Document.loaded_flatten`), and from there on a run depends on the schemas alone, so
it ends as a run on that document does (`run_flatten`).
-/

namespace TypedSchema

/-! ## Entries of several documents -/

namespace Document

variable {pointer : Option String}

/-- What loading makes of the entries of a root. -/
def loaded (pointer : Option String) (entries : List (String × Json)) :
    Except Fault (List Schema) :=
  (Node.readProperties entries).mapError entriesFault >>= fun nodes =>
    (loadEntries pointer nodes).outcome

lemma loaded_eq_ok {entries : List (String × Json)} {schemas : List Schema} :
    loaded pointer entries = .ok schemas ↔ ∃ nodes, Node.readProperties entries = .ok nodes ∧
      (loadEntries pointer nodes).outcome = .ok schemas := by
  simp only [loaded, bind_eq_ok, mapError_eq_ok]

lemma loaded_append {xs ys : List (String × Json)} {schemas others : List Schema}
    (hxs : loaded pointer xs = .ok schemas) (hys : loaded pointer ys = .ok others) :
    loaded pointer (xs ++ ys) = .ok (schemas ++ others) := by
  obtain ⟨nodes, hnodes, hschemas⟩ := loaded_eq_ok.1 hxs
  obtain ⟨rest, hrest, hothers⟩ := loaded_eq_ok.1 hys
  refine loaded_eq_ok.2 ⟨nodes ++ rest, ?_, ?_⟩
  · rw [readProperties_append, hnodes, hrest]
    rfl
  · rw [outcome_loadEntries_append, hschemas, hothers]
    rfl

/-- The entries of several documents, each of which can be loaded, can be loaded together. -/
lemma loaded_flatten {entriess : List (List (String × Json))} {schemass : List (List Schema)}
    (h : List.Forall₂ (fun entries schemas => loaded pointer entries = .ok schemas)
      entriess schemass) : loaded pointer entriess.flatten = .ok schemass.flatten := by
  induction h with
  | nil => rfl
  | cons hfirst _ ih =>
    rw [List.flatten_cons, List.flatten_cons]
    exact loaded_append hfirst ih

end Document

/-! ## Inputs and files -/

namespace CommandLine

variable {command : Command} {store : FileStore} {pointer : Option String}

/-- The paths that an input stands for: a pattern for those it matches, of which there must be one,
anything else for itself. -/
inductive StandsFor (store : FileStore) : String → List String → Prop
  | path {path : String} (plain : Pattern.isPattern path = false) : StandsFor store path [path]
  | pattern {text : String} {paths : List String} (pattern : Pattern.isPattern text = true)
    (matched : Glob.paths store text = .ok paths) (some_match : paths ≠ []) :
    StandsFor store text paths

/-- The file at a path holds a document with these entries at its root. -/
def HoldsEntries (store : FileStore) (path : String) (entries : List (String × Json)) : Prop :=
  ∃ text document, store.readText path = .ok text ∧ Document.parse text = .ok document ∧
    Document.HasEntries document none entries

lemma expandInput_eq_ok {input : String} {paths : List String} :
    expandInput store input = .ok paths ↔ StandsFor store input paths := by
  unfold expandInput
  constructor
  · intro h
    split_ifs at h with hpattern
    · split at h
      case h_1 => cases h
      case h_2 => cases h
      case h_3 found hempty hfound =>
        cases h
        exact .pattern hpattern hfound hempty
    · cases h
      exact .path (Bool.eq_false_of_not_eq_true hpattern)
  · rintro (⟨hplain⟩ | ⟨hpattern, hmatched, hsome⟩)
    · rw [hplain]
      rfl
    · rw [if_pos hpattern, hmatched]
      cases paths with
      | nil => exact absurd rfl hsome
      | cons path rest => rfl

lemma expandInputs_eq_ok {inputs paths : List String} :
    expandInputs store inputs = .ok paths ↔
      ∃ pathss, List.Forall₂ (StandsFor store) inputs pathss ∧ pathss.flatten = paths := by
  have hstands : StandsFor store = fun input paths => expandInput store input = .ok paths := by
    funext input paths
    exact propext expandInput_eq_ok.symm
  rw [hstands]
  exact flatten_eq_ok (expandInputs store) (expandInput store) rfl fun _ _ => rfl

lemma outcome_loadFiles_eq_ok {paths : List String} {schemas : List Schema} :
    (loadFiles store pointer paths).outcome = .ok schemas ↔
      ∃ schemass, List.Forall₂ (fun path schemas =>
          (loadFile store pointer path).outcome = .ok schemas) paths schemass ∧
        schemass.flatten = schemas :=
  flatten_eq_ok (fun paths => (loadFiles store pointer paths).outcome)
    (fun path => (loadFile store pointer path).outcome) rfl
    fun _ _ => by simp only [loadFiles, TracedBy.outcome_bind, TracedBy.outcome_pure]; rfl

/-- Loading a file is loading the entries that it holds. -/
lemma HoldsEntries.outcome_loadFile {path : String} {entries : List (String × Json)}
    (h : HoldsEntries store path entries) :
    (loadFile store none path).outcome =
      (Document.loaded none entries).mapError (.load path) := by
  obtain ⟨text, document, htext, hdocument, hentries⟩ := h
  have hload : (Document.loadText text none).outcome = Document.loaded none entries := by
    rw [Document.loadText, TracedBy.outcome_bind, TracedBy.outcome_quiet, hdocument]
    exact hentries.outcome_load
  simp only [loadFile, TracedBy.outcome_bind, TracedBy.outcome_quiet, TracedBy.outcome_mapError,
    TracedBy.outcome_report, TracedBy.outcome_pure, htext]
  show ((Document.loadText text none).outcome.mapError (.load path) >>= _ : Except RunError _) = _
  rw [hload]
  cases Document.loaded none entries <;> rfl

lemma HoldsEntries.loadFile_eq_ok {path : String} {entries : List (String × Json)}
    (h : HoldsEntries store path entries) {schemas : List Schema} :
    (loadFile store none path).outcome = .ok schemas ↔
      Document.loaded none entries = .ok schemas := by
  rw [h.outcome_loadFile, mapError_eq_ok]

/-- Files that can be loaded one by one give the schemas of their entries. -/
lemma exists_loaded {paths : List String} {entriess : List (List (String × Json))}
    (h : List.Forall₂ (HoldsEntries store) paths entriess)
    (hload : ∀ path ∈ paths, ∃ schemas, (loadFile store none path).outcome = .ok schemas) :
    ∃ schemass, (loadFiles store none paths).outcome = .ok schemass.flatten ∧
      List.Forall₂ (fun entries schemas => Document.loaded none entries = .ok schemas)
        entriess schemass := by
  have hloaded : ∃ schemass, List.Forall₂ (fun path schemas =>
        (loadFile store none path).outcome = .ok schemas) paths schemass ∧
      List.Forall₂ (fun entries schemas => Document.loaded none entries = .ok schemas)
        entriess schemass := by
    induction h with
    | nil => exact ⟨[], .nil, .nil⟩
    | cons hfirst _ ih =>
      obtain ⟨⟨schemas, hschemas⟩, hrest⟩ := List.forall_mem_cons.1 hload
      obtain ⟨schemass, hfiles, hentries⟩ := ih hrest
      exact ⟨schemas :: schemass, .cons hschemas hfiles,
        .cons (hfirst.loadFile_eq_ok.1 hschemas) hentries⟩
  obtain ⟨schemass, hfiles, hentries⟩ := hloaded
  exact ⟨schemass, outcome_loadFiles_eq_ok.2 ⟨schemass, hfiles, rfl⟩, hentries⟩

/-! ## Runs -/

/-- Behind loading, a command depends on the schemas alone. -/
lemma outcome_assemble {paths : List String} {schemas : List Schema}
    (hpaths : expandInputs store command.inputs = .ok paths)
    (hschemas : (loadFiles store command.pointer paths).outcome = .ok schemas) :
    (command.assemble store).outcome = (Module.assemble schemas).outcome.mapError .build := by
  simp only [Command.assemble, TracedBy.outcome_bind, TracedBy.outcome_quiet,
    TracedBy.outcome_mapError, hpaths]
  show ((loadFiles store command.pointer paths).outcome >>= _) = _
  rw [hschemas]
  rfl

/-- Commands for the same target write the same text for the same module. -/
lemma outcome_text_congr {other : Command} (htarget : command.target = other.target)
    (hstyle : command.style = other.style)
    (h : (command.assemble store).outcome = (other.assemble store).outcome) :
    (command.text store).outcome = (other.text store).outcome := by
  rw [Command.text, Command.text, TracedBy.outcome_bind, TracedBy.outcome_bind, h, htarget, hstyle]

/-- Commands with the same text end alike. -/
lemma run_congr {other : Command} (hnoOp : command.noOp = other.noOp)
    (hout : command.out = other.out)
    (h : (command.text store).outcome = (other.text store).outcome) :
    (command.run store).result = (other.run store).result ∧
      (command.run store).stdout = (other.run store).stdout ∧
      (command.run store).store = (other.run store).store := by
  unfold Command.run
  rw [hnoOp, hout]
  dsimp only
  rw [h]
  split
  · exact ⟨rfl, rfl, rfl⟩
  · cases (other.text store).outcome with
    | error error => exact ⟨rfl, rfl, rfl⟩
    | ok text =>
      cases other.out with
      | none => exact ⟨rfl, rfl, rfl⟩
      | some path =>
        dsimp only
        obtain ⟨after, result⟩ := save store path text
        cases result <;> exact ⟨rfl, rfl, rfl⟩

/-- **Many inputs act as one document.**  Inputs stand for paths, and the files there hold entries
and can each be loaded.  A run on these inputs and a run on one file that holds all the entries in
order end alike: they print and write the same, or fail with the same message. -/
theorem run_flatten {pathss : List (List String)} {entriess : List (List (String × Json))}
    {single path : String} (hpointer : command.pointer = none)
    (hinputs : List.Forall₂ (StandsFor store) command.inputs pathss)
    (hfiles : List.Forall₂ (HoldsEntries store) pathss.flatten entriess)
    (hload : ∀ path ∈ pathss.flatten, ∃ schemas,
      (loadFile store none path).outcome = .ok schemas)
    (hsingle : StandsFor store single [path])
    (hwhole : HoldsEntries store path entriess.flatten) :
    let many := command.run store
    let one := { command with inputs := [single] }.run store
    many.result = one.result ∧ many.stdout = one.stdout ∧ many.store = one.store := by
  obtain ⟨schemass, hmany, hentries⟩ := exists_loaded hfiles hload
  have hone : (loadFiles store none [path]).outcome = .ok schemass.flatten :=
    outcome_loadFiles_eq_ok.2 ⟨[schemass.flatten],
      .cons (hwhole.loadFile_eq_ok.2 (Document.loaded_flatten hentries)) .nil,
      List.flatten_singleton⟩
  refine run_congr rfl rfl (outcome_text_congr rfl rfl ?_)
  rw [outcome_assemble (expandInputs_eq_ok.2 ⟨pathss, hinputs, rfl⟩) (hpointer ▸ hmany),
    outcome_assemble (expandInputs_eq_ok.2 ⟨[[path]], .cons hsingle .nil, rfl⟩) (hpointer ▸ hone)]

/-! ## A directory -/

/-- A record with a name and without fields. -/
def recordEntry (name : String) : String × Json :=
  (name, .object [("id", .string name), ("type", .string "object")])

/-- A document with a record for each of some names. -/
def recordDocument (names : List String) : Json :=
  .object [("properties", .object (names.map recordEntry))]

/-- A file with such a document. -/
def recordFile (names : List String) : FileEntry :=
  .file (recordDocument names).compact.toUTF8

/-- Three documents, and a fourth with the entries of all of them. -/
def shelf : FileStore where
  entries := [(["a.json"], recordFile ["A"]), (["all"], recordFile ["C", "A", "B"]),
    (["b.json"], recordFile ["B"]), (["c"], recordFile ["C"])]

/-- A command for Python source of these inputs. -/
def pythonOf (inputs : List String) : Command where
  verbosity := 0
  target := .python
  pointer := none
  inputs := inputs
  style := .literal
  out := none
  noOp := false

lemma holdsEntries_recordFile {path : String} {names : List String} (location : Location)
    (hlocate : store.locate path = .ok location)
    (hfile : store.get? location = some (recordFile names))
    (hparse : (Document.parse (recordDocument names).compact).toOption =
      some (recordDocument names)) : HoldsEntries store path (names.map recordEntry) := by
  have hcontent : store.content? location = some (recordDocument names).compact.toUTF8 := by
    rw [FileStore.content?, hfile]
    rfl
  refine ⟨_, _, FileStore.readText_of_content? hlocate hcontent, ?_,
    [("properties", .object (names.map recordEntry))], rfl, rfl⟩
  generalize Document.parse _ = parsed at hparse
  cases parsed with
  | error fault => cases hparse
  | ok document => exact congrArg _ (Option.some.inj hparse)

/-- The pattern `*.json`. -/
def jsonNames : Pattern :=
  [.anyChars, .char '.', .char 'j', .char 's', .char 'o', .char 'n']

lemma paths_shelf : Glob.paths shelf "*.json" = .ok ["a.json", "b.json"] := by
  have hlisted : shelf.descendants [] = [["a.json"], ["all"], ["b.json"], ["c"]] :=
    List.mergeSort_of_pairwise (by decide +kernel)
  have hchildren : shelf.children [] = ["a.json", "all", "b.json", "c"] := by
    rw [FileStore.children, hlisted]
    rfl
  have hmatching : Glob.matching shelf jsonNames "." [] = ["a.json", "b.json"] := by
    rw [Glob.matching, hchildren]
    decide +kernel
  have hpattern : Pattern.parse "*.json" = .ok jsonNames := rfl
  have hcomponents : Glob.components "*.json" = ["*.json"] := by decide +kernel
  rw [Glob.paths, hcomponents, hpattern]
  show Except.ok (Glob.follow shelf false [jsonNames] ".") = _
  rw [Glob.follow]
  show Except.ok ((Glob.matching shelf jsonNames "." []).flatMap _) = _
  rw [hmatching]
  rfl

/-- A path and a pattern with two matches, and the file that stands for the three. -/
theorem run_flatten_shelf :
    let entriess := [["C"].map recordEntry, ["A"].map recordEntry, ["B"].map recordEntry]
    let pathss := [["c"], ["a.json", "b.json"]]
    let many := (pythonOf ["c", "*.json"]).run shelf
    let one := (pythonOf ["all"]).run shelf
    (List.Forall₂ (StandsFor shelf) ["c", "*.json"] pathss ∧
      List.Forall₂ (HoldsEntries shelf) pathss.flatten entriess ∧
      (∀ path ∈ pathss.flatten, ∃ schemas, (loadFile shelf none path).outcome = .ok schemas) ∧
      StandsFor shelf "all" ["all"] ∧ HoldsEntries shelf "all" entriess.flatten) ∧
    many.result = one.result ∧ many.stdout = one.stdout ∧ many.store = one.store := by
  intro entriess pathss many one
  have ha : HoldsEntries shelf "a.json" (["A"].map recordEntry) :=
    holdsEntries_recordFile ["a.json"] rfl rfl (by decide +kernel)
  have hb : HoldsEntries shelf "b.json" (["B"].map recordEntry) :=
    holdsEntries_recordFile ["b.json"] rfl rfl (by decide +kernel)
  have hc : HoldsEntries shelf "c" (["C"].map recordEntry) :=
    holdsEntries_recordFile ["c"] rfl rfl (by decide +kernel)
  have hall : HoldsEntries shelf "all" (["C", "A", "B"].map recordEntry) :=
    holdsEntries_recordFile ["all"] rfl rfl (by decide +kernel)
  have hinputs : List.Forall₂ (StandsFor shelf) ["c", "*.json"] pathss :=
    .cons (.path rfl) (.cons (.pattern rfl paths_shelf nofun) .nil)
  have hfiles : List.Forall₂ (HoldsEntries shelf) pathss.flatten entriess :=
    .cons hc (.cons ha (.cons hb .nil))
  have hload : ∀ path ∈ pathss.flatten, ∃ schemas,
      (loadFile shelf none path).outcome = .ok schemas :=
    List.forall_mem_cons.2 ⟨⟨_, hc.loadFile_eq_ok.2 rfl⟩, List.forall_mem_cons.2
      ⟨⟨_, ha.loadFile_eq_ok.2 rfl⟩, List.forall_mem_singleton.2 ⟨_, hb.loadFile_eq_ok.2 rfl⟩⟩⟩
  have hsingle : StandsFor shelf "all" ["all"] := .path rfl
  exact ⟨⟨hinputs, hfiles, hload, hsingle, hall⟩,
    @run_flatten (pythonOf ["c", "*.json"]) shelf _ _ _ _ rfl hinputs hfiles hload hsingle hall⟩

end CommandLine
end TypedSchema
