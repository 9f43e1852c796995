import TypedSchema.CommandLine.Run
import TypedSchema.Proofs.Files.Store

/-!
# A run leaves a complete text or nothing

A command makes its text (`Command.Completes`) before it writes any of it.  What can go wrong
afterwards is the writing itself, which keeps all files if it fails (`sameFiles_of_save`).  So a run
that fails prints nothing and changes no file, and one that succeeds prints the whole text or writes
it to one file (`run_leaves`).  Nothing else can go wrong (`result_run_eq_ok_iff`).
-/

namespace TypedSchema
namespace CommandLine

variable {command : Command} {store after : FileStore} {path text : String}

/-! ## The text of a command -/

/-- How a module is written out for a command. -/
def Command.Renders (command : Command) (m : Module) (text : String) : Prop :=
  match command.target with
  | .python => Python.moduleSource command.style m = .ok text
  | .decls => m.toJson.pretty ++ "\n" = text

/-- The complete text of a command: the module of the schemas of all its inputs, written out. -/
def Command.Completes (command : Command) (store : FileStore) (text : String) : Prop :=
  ∃ paths schemas m, expandInputs store command.inputs = .ok paths ∧
    (loadFiles store command.pointer paths).outcome = .ok schemas ∧
    (Module.assemble schemas).outcome = .ok m ∧ command.Renders m text

lemma Command.outcome_assemble_eq_ok {m : Module} :
    (command.assemble store).outcome = .ok m ↔
      ∃ paths schemas, expandInputs store command.inputs = .ok paths ∧
        (loadFiles store command.pointer paths).outcome = .ok schemas ∧
        (Module.assemble schemas).outcome = .ok m := by
  simp only [Command.assemble, TracedBy.outcome_bind, TracedBy.outcome_quiet,
    TracedBy.outcome_mapError, bind_eq_ok, mapError_eq_ok]
  constructor
  · rintro ⟨paths, hpaths, schemas, hschemas, hm⟩
    exact ⟨paths, schemas, hpaths, hschemas, hm⟩
  · rintro ⟨paths, schemas, hpaths, hschemas, hm⟩
    exact ⟨paths, hpaths, schemas, hschemas, hm⟩

lemma Command.outcome_text_eq_ok :
    (command.text store).outcome = .ok text ↔ command.Completes store text := by
  have hrenders : ∀ m, (match command.target with
      | .python => TracedBy.quiet ((Python.moduleSource command.style m).mapError RunError.emit)
      | .decls => pure (m.toJson.pretty ++ "\n")).outcome = .ok text ↔ command.Renders m text := by
    intro m
    unfold Command.Renders
    cases command.target with
    | python => exact mapError_eq_ok
    | decls => exact pure_eq_ok
  rw [Command.text, TracedBy.outcome_bind, bind_eq_ok]
  constructor
  · rintro ⟨m, hm, htext⟩
    obtain ⟨paths, schemas, hpaths, hschemas, hm⟩ := outcome_assemble_eq_ok.1 hm
    exact ⟨paths, schemas, m, hpaths, hschemas, hm, (hrenders m).1 htext⟩
  · rintro ⟨paths, schemas, m, hpaths, hschemas, hm, htext⟩
    have hassembled := outcome_assemble_eq_ok.2 ⟨paths, schemas, hpaths, hschemas, hm⟩
    exact ⟨m, hassembled, (hrenders m).2 htext⟩

/-! ## Saving -/

/-- Saving creates directories first, which keeps all files, and then writes or stops. -/
lemma save_cases (store : FileStore) (path text : String) :
    ∃ prepared, store.SameFiles prepared ∧
      ((∃ error, save store path text = (prepared, .error error)) ∨
        ∃ after, prepared.writeText path text = .ok after ∧
          save store path text = (after, .ok ())) := by
  have hprepared : store.SameFiles (if (Path.parent? path).getD "" = "" then (store, .ok ())
      else store.makeDirectoryTree ((Path.parent? path).getD "")).1 := by
    split
    · exact .refl store
    · exact store.sameFiles_makeDirectoryTree _
  unfold save
  dsimp only
  generalize (if (Path.parent? path).getD "" = "" then (store, Except.ok ())
    else store.makeDirectoryTree ((Path.parent? path).getD "")) = made at hprepared
  obtain ⟨prepared, created⟩ := made
  refine ⟨prepared, hprepared, ?_⟩
  cases created with
  | error error => exact .inl ⟨_, rfl⟩
  | ok _ =>
    dsimp only
    cases hwritten : prepared.writeText path text with
    | error error => exact .inl ⟨_, rfl⟩
    | ok after => exact .inr ⟨after, rfl, rfl⟩

/-- Saving that fails keeps all files. -/
lemma sameFiles_of_save {error : RunError} (h : save store path text = (after, .error error)) :
    store.SameFiles after := by
  obtain ⟨prepared, hprepared, ⟨_, hsave⟩ | ⟨_, _, hsave⟩⟩ := save_cases store path text
  · rw [hsave] at h
    cases h
    exact hprepared
  · rw [hsave] at h
    cases h

/-- Saving that succeeds writes the text. -/
lemma writes_of_save (h : save store path text = (after, .ok ())) :
    store.Writes path text.toUTF8 after := by
  obtain ⟨prepared, hprepared, ⟨_, hsave⟩ | ⟨_, hwritten, hsave⟩⟩ := save_cases store path text
  · rw [hsave] at h
    cases h
  · rw [hsave] at h
    cases h
    exact hprepared.writes (FileStore.writes_of_writeText hwritten)

/-! ## Running -/

/-- What a run leaves on standard output and in the store, by how it ends. -/
inductive Leaves (command : Command) (store : FileStore) : Report → Prop
  | idle {events : List Event} (noOp : command.noOp = true) :
    Leaves command store ⟨events, "", store, .ok ()⟩
  | failed {events : List Event} {after : FileStore} {error : RunError}
    (noOp : command.noOp = false) (unchanged : store.SameFiles after) :
    Leaves command store ⟨events, "", after, .error error⟩
  | printed {events : List Event} {text : String} (noOp : command.noOp = false)
    (out : command.out = none) (complete : command.Completes store text) :
    Leaves command store ⟨events, text, store, .ok ()⟩
  | saved {events : List Event} {after : FileStore} {path text : String}
    (noOp : command.noOp = false) (out : command.out = some path)
    (complete : command.Completes store text)
    (written : store.Writes path text.toUTF8 after) :
    Leaves command store ⟨events, "", after, .ok ()⟩

lemma leaves_run (command : Command) (store : FileStore) :
    Leaves command store (command.run store) := by
  unfold Command.run
  cases hnoOp : command.noOp with
  | true => exact .idle hnoOp
  | false =>
    rw [if_neg Bool.false_ne_true]
    dsimp only
    cases htext : (command.text store).outcome with
    | error error => exact .failed hnoOp (.refl store)
    | ok text =>
      have hcomplete := Command.outcome_text_eq_ok.1 htext
      cases hout : command.out with
      | none => exact .printed hnoOp hout hcomplete
      | some path =>
        dsimp only
        cases hsave : save store path text with
        | mk after result =>
          cases result with
          | error error => exact .failed hnoOp (sameFiles_of_save hsave)
          | ok _ => exact .saved hnoOp hout hcomplete (writes_of_save hsave)

/-- A run succeeds unless the text cannot be completed or not be saved. -/
lemma result_run_eq_ok_iff (command : Command) (store : FileStore) :
    (command.run store).result = .ok () ↔ command.noOp = true ∨
      ∃ text, command.Completes store text ∧
        ∀ path, command.out = some path → (save store path text).2 = .ok () := by
  simp only [← Command.outcome_text_eq_ok]
  unfold Command.run
  cases command.noOp with
  | true => exact iff_of_true rfl (.inl rfl)
  | false =>
    rw [if_neg Bool.false_ne_true, or_iff_right Bool.false_ne_true]
    dsimp only
    cases (command.text store).outcome with
    | error error =>
      constructor
      · rintro ⟨⟩
      · rintro ⟨_, ⟨⟩, _⟩
    | ok text =>
      simp only [Except.ok.injEq, exists_eq_left']
      cases command.out with
      | none => exact iff_of_true rfl fun _ h => by cases h
      | some path =>
        simp only [Option.some.injEq, forall_eq']
        cases save store path text with
        | mk after result =>
          cases result with
          | error error =>
            constructor
            · rintro ⟨⟩
            · rintro ⟨⟩
          | ok _ => exact iff_of_true rfl rfl

/-- **A run leaves a complete text or nothing.**  If it fails, it prints nothing and no file is
created or changed.  If it succeeds, it prints the complete text and changes no file, or it prints
nothing and the file at the output path, which holds exactly the complete text, is the only one that
changes; a command that is told to do nothing does neither.  It fails only for want of a complete
text or because that cannot be saved. -/
theorem run_leaves (command : Command) (store : FileStore) :
    let report := command.run store
    (∀ error, report.result = .error error →
      report.stdout = "" ∧ store.SameFiles report.store) ∧
    (report.result = .ok () →
      (command.noOp = true → report.stdout = "" ∧ store.SameFiles report.store) ∧
      (command.noOp = false → ∃ text, command.Completes store text ∧
        (command.out = none → report.stdout = text ∧ store.SameFiles report.store) ∧
        (∀ path, command.out = some path →
          report.stdout = "" ∧ store.Writes path text.toUTF8 report.store))) ∧
    (report.result = .ok () ↔ command.noOp = true ∨
      ∃ text, command.Completes store text ∧
        ∀ path, command.out = some path → (save store path text).2 = .ok ()) := by
  intro report
  have hleaves : Leaves command store report := leaves_run command store
  rw [← and_assoc]
  refine ⟨?_, result_run_eq_ok_iff command store⟩
  clear_value report
  cases hleaves with
  | idle hnoOp =>
    refine ⟨fun _ h => ?_, fun _ => ⟨fun _ => ⟨rfl, .refl store⟩, fun hno => ?_⟩⟩
    · cases h
    · rw [hnoOp] at hno
      cases hno
  | failed _ hunchanged =>
    refine ⟨fun _ _ => ⟨rfl, hunchanged⟩, fun h => ?_⟩
    cases h
  | printed hnoOp hout hcomplete =>
    refine ⟨fun _ h => ?_, fun _ => ⟨fun hyes => ?_, fun _ => ⟨_, hcomplete, ?_,
      fun path hpath => ?_⟩⟩⟩
    · cases h
    · rw [hnoOp] at hyes
      cases hyes
    · exact fun _ => ⟨rfl, .refl store⟩
    · rw [hout] at hpath
      cases hpath
  | saved hnoOp hout hcomplete hwritten =>
    refine ⟨fun _ h => ?_, fun _ => ⟨fun hyes => ?_, fun _ => ⟨_, hcomplete, fun hnone => ?_,
      fun path hpath => ?_⟩⟩⟩
    · cases h
    · rw [hnoOp] at hyes
      cases hyes
    · rw [hout] at hnone
      cases hnone
    · rw [hout] at hpath
      cases hpath
      exact ⟨rfl, hwritten⟩

end CommandLine
end TypedSchema
