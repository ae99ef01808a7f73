import LiveTrace.Compiler.Options
import LiveTrace.Error
import LiveTrace.Hook.Signature
import LiveTrace.Project.Submission
import LiveTrace.Wasm.Memory
import LiveTrace.Wasm.Numeric

/-
  What a run relies on to load modules, link them and run their code. Nothing is supposed of it
  but its interface: each part of its set-up may fail, and so may what is done with modules,
  and code pauses at every hook, which reads the memory its caller exports. The interpreter in
  `Wasm.Engine` is one of this kind.
-/
namespace LiveTrace

namespace Engine

/-- A module that was brought into a store, and the code it starts with. -/
structure Instantiation (Store Instance Code : Type) where
  store : Store
  unit : Instance
  start : Option Code

/-- Where code pauses. -/
inductive Pause (Store Code : Type) where
  /-- It returned, leaving the store like this. -/
  | returned (s : Store)
  | trap (t : Trap)
  /-- There may be other things to do before it goes on. -/
  | tired (next : Code)
  /-- It calls a hook and goes on behind the call. `memory` is what the caller exports. -/
  | hook (h : Hook) (operands : List Wasm.Value) (memory : Option Wasm.Memory) (next : Code)

end Engine

class Engine where
  /-- An engine that has been set up. -/
  Core : Type
  Module : Type
  /-- What can be imported. -/
  Linker : Type
  Store : Type
  /-- A module in a store. -/
  Instance : Type
  /-- Code that has been entered. -/
  Code : Type
  /-- Sets up an engine, or says what is wrong. -/
  create : CompilerOptions → Except String Core
  /-- The module in a file, if it is valid. -/
  load? : Core → List UInt8 → Option Module
  /-- A linker with the hooks. -/
  hooks : Core → Except String Linker
  /-- A store with nothing of a run in it. -/
  emptyStore : Core → Store
  /-- Defines the global that holds the id of the submission. -/
  defineSubmission : Core → Linker → Store → SubmissionId → Except String (Linker × Store)
  /-- Brings a module into a store, if what it imports is there. -/
  instantiate? : Core → Linker → Store → Module → Option (Engine.Instantiation Store Instance Code)
  /-- The linker with what an instance exports, if the names are free. -/
  register? : Linker → Store → String → Instance → Option Linker
  /-- The code of an exported function that takes nothing and gives nothing. -/
  entry? : Core → Store → Instance → String → Option Code
  /-- Runs code up to where it pauses. -/
  resume : Code → Engine.Pause Store Code

end LiveTrace
