import TypedSchema.Python.Source

/-!
# Python/Session — modules written one after another

One emitter can be asked to write several modules, in any order and as often as one likes.  A
session has the emitter as its state, and a fault ends a call without taking back what the call has
done to the state by then.  So it matters when a call changes the emitter: `Session.write` collects
the source of all declarations first and adds it in one step at the end.
-/

namespace TypedSchema
namespace Python

/-- A computation with an emitter as its state.  A fault keeps the state that is reached. -/
abbrev Session (α : Type) := ExceptT Fault (StateM Emitter) α

namespace Session

/-- Some source with some declarations behind it, each set apart from what is before it. -/
def extend (source : String) : List Declaration → Session String
  | [] => return source
  | declaration :: rest => do
    let emitter ← get
    let text ← declarationSource emitter.style declaration
    extend (source ++ "\n\n" ++ text) rest

/-- Writes a module behind what is written so far. -/
def write (m : Module) : Session Unit := do
  let source ← extend (importLines m.imports) m.declarations
  modify fun emitter => { emitter with buffer := emitter.buffer ++ source }

/-- Writes some modules, each whatever has become of those before it: how each call ends, and what
is written then. -/
def writeAll : List Module → StateM Emitter (List (Except Fault Unit × String))
  | [] => return []
  | m :: rest => do
    let outcome ← (write m).run
    let emitter ← get
    let others ← writeAll rest
    return (outcome, emitter.buffer) :: others

end Session
end Python
end TypedSchema
