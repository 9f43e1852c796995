import TypedSchema.Proofs.Python.Spelling
import TypedSchema.Python.Session

/-!
# What a session leaves behind

A call in a session does what `Emitter.emit` does and keeps the emitter when that fails
(`Session.run_write`), though the emitter is a state that a call could have changed by then.  So the
course of a whole session is known from the modules and the style alone (`Session.Transcript`): each
module either adds its source, whatever else is written, or cannot be spelled and adds nothing.
`Session.transcript_writeAll` says so of every session.
-/

namespace TypedSchema
namespace Python
namespace Session

/-! ## Running a session -/

section
variable {α β : Type}

@[simp] lemma run_pure (a : α) (emitter : Emitter) :
    (pure a : Session α).run.run emitter = (.ok a, emitter) := rfl

@[simp] lemma run_get (emitter : Emitter) :
    (get : Session Emitter).run.run emitter = (.ok emitter, emitter) := rfl

@[simp] lemma run_lift (x : Except Fault α) (emitter : Emitter) :
    (liftM x : Session α).run.run emitter = (x, emitter) := rfl

lemma run_bind (x : Session α) (f : α → Session β) (emitter : Emitter) :
    (x >>= f).run.run emitter =
      match x.run.run emitter with
      | (.ok a, reached) => (f a).run.run reached
      | (.error fault, reached) => (.error fault, reached) := by
  show ((x.run >>= ExceptT.bindCont f).run emitter : Except Fault β × Emitter) = _
  rw [StateT.run_bind]
  show (match x.run.run emitter with | (a, reached) => (ExceptT.bindCont f a).run reached) = _
  obtain ⟨_ | _, _⟩ := x.run.run emitter
  · rfl
  · rfl

end

/-! ## One call -/

/-- The source of the declarations is collected without touching the emitter. -/
lemma run_extend (emitter : Emitter) (source : String) (ds : List Declaration) :
    (extend source ds).run.run emitter =
      ((declarationsSource emitter.style ds).map (source ++ ·), emitter) := by
  induction ds generalizing source with
  | nil =>
    rw [extend, declarationsSource, run_pure]
    show _ = (Except.ok (source ++ ""), emitter)
    rw [String.append_empty]
  | cons d ds ih =>
    rw [extend, run_bind, run_get]
    dsimp only
    rw [run_bind, run_lift, declarationsSource]
    cases declarationSource emitter.style d with
    | error fault => rfl
    | ok text =>
      dsimp only
      rw [ih]
      cases declarationsSource emitter.style ds with
      | error fault => rfl
      | ok rest =>
        show (Except.ok (source ++ "\n\n" ++ text ++ rest), emitter) =
          (Except.ok (source ++ ("\n\n" ++ text ++ rest)), emitter)
        rw [String.append_assoc, String.append_assoc, String.append_assoc]

/-- A call goes as `Emitter.emit` does; where that fails, the emitter is as it was. -/
theorem run_write (emitter : Emitter) (m : Module) :
    (write m).run.run emitter =
      match emitter.emit m with
      | .ok written => (.ok (), written)
      | .error fault => (.error fault, emitter) := by
  rw [write, run_bind, run_extend, Emitter.emit, moduleSource]
  cases declarationsSource emitter.style m.declarations with
  | error fault => rfl
  | ok text => rfl

/-! ## All calls -/

/-- How calls end and what is written after each of them.  What a module adds is its source, which
depends on nothing but the module and the style. -/
inductive Transcript (style : EnumStyle) :
    String → List Module → List (Except Fault Unit × String) → Prop
  | nil {buffer : String} : Transcript style buffer [] []
  | written {buffer source : String} {m : Module} {ms : List Module}
    {calls : List (Except Fault Unit × String)}
    (hsource : moduleSource style m = .ok source)
    (h : ∀ d ∈ m.declarations, ¬d.Unspellable style)
    (hrest : Transcript style (buffer ++ source) ms calls) :
    Transcript style buffer (m :: ms) ((.ok (), buffer ++ source) :: calls)
  | refused {buffer : String} {fault : Fault} {m : Module} {ms : List Module}
    {calls : List (Except Fault Unit × String)} {d : Declaration}
    (hfault : moduleSource style m = .error fault)
    (hd : d ∈ m.declarations) (h : d.Unspellable style)
    (hrest : Transcript style buffer ms calls) :
    Transcript style buffer (m :: ms) ((.error fault, buffer) :: calls)

lemma writeAll_cons (emitter : Emitter) (m : Module) (ms : List Module) :
    ((writeAll (m :: ms)).run emitter).1 =
      (((write m).run.run emitter).1, ((write m).run.run emitter).2.buffer) ::
        ((writeAll ms).run ((write m).run.run emitter).2).1 := rfl

/-- In every session a module is written with its source behind what is there, or it has a
declaration that cannot be spelled, fails as its source does and changes nothing. -/
theorem transcript_writeAll (emitter : Emitter) (ms : List Module) :
    Transcript emitter.style emitter.buffer ms ((writeAll ms).run emitter).1 := by
  induction ms generalizing emitter with
  | nil => exact .nil
  | cons m ms ih =>
    rw [writeAll_cons, run_write, Emitter.emit]
    cases hsource : moduleSource emitter.style m with
    | ok source =>
      exact .written hsource (exists_moduleSource_iff.1 ⟨source, hsource⟩)
        (ih { emitter with buffer := emitter.buffer ++ source })
    | error fault =>
      have hrefused : ¬∀ d ∈ m.declarations, ¬d.Unspellable emitter.style := by
        rw [← exists_moduleSource_iff, hsource]
        rintro ⟨_, h⟩
        cases h
      simp only [not_forall, Classical.not_not] at hrefused
      obtain ⟨d, hd, hunspellable⟩ := hrefused
      exact .refused hsource hd hunspellable (ih emitter)

end Session
end Python
end TypedSchema
