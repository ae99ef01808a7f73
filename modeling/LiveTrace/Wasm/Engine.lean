import LiveTrace.Guest.Engine
import LiveTrace.Wasm.Load
import LiveTrace.Wasm.Machine

/-
  The interpreter as an engine. It can always be set up. It has the instructions of WebAssembly
  1.0 with blocks of any type, extensions of the sign, conversions that saturate and references;
  modules with the instructions for bulk memory, for what tables hold, for vectors, tail calls,
  exceptions or atomics are no modules here, nor are those with memories of 64 bits. Options
  other than the size of the stack change nothing, and a stack is as deep as so many calls of
  one size.
-/
namespace LiveTrace.Wasm

/-- The instructions run between two looks at what else there is to do. -/
def quantum : Nat := 1000000

/-- Runs from a step on up to the next hook. -/
def resume (s : Step) : Engine.Pause Store Step :=
  match Machine.runFrom quantum s with
  | .done s => .returned s
  | .trap t => .trap t
  | .tired m => .tired (.next m)
  | .hook h operands caller m =>
    .hook h operands (m.store.exportedMemory? caller memoryExport) (.next m)

/-- The hooks can be imported. They are the first functions of every store. -/
def hookLinker : Linker :=
  Hook.all.zipIdx.map fun (h, address) => ((hookModule, h.name), .func address)

def hookStore : Store := { funcs := (Hook.all.map .hook).toArray }

/-- The linker and the store with the id of the submission. -/
def defineSubmission (l : Linker) (s : Store) (id : SubmissionId) :
    Except String (Linker × Store) :=
  let (s, address) := s.addGlobal ⟨⟨.i32, false⟩, .i32 id⟩
  match l.define? hookModule submissionGlobal (.global address) with
  | some l => .ok (l, s)
  | none => .error s!"{submissionGlobal} is defined twice"

/-- The entry function takes nothing and gives nothing. -/
def entryType : FuncType := ⟨[], []⟩

instance engine : Engine where
  -- How many functions may be entered at once.
  Core := Nat
  Module := Module
  Linker := Linker
  Store := Store
  Instance := Nat
  Code := Step
  create o := .ok (Machine.limitOf o.maxStack)
  load? _ := Module.load?
  hooks _ := .ok hookLinker
  emptyStore _ := hookStore
  defineSubmission _ := defineSubmission
  instantiate? limit l s m :=
    (Wasm.instantiate? l s m).map fun i =>
      ⟨i.store, i.number, i.start.map (Machine.start i.store limit)⟩
  register? l s name number :=
    l.register? name (((s.instances[number]?).map (·.exports)).getD [])
  entry? limit s number name :=
    (s.exportedFunc? number name entryType).map (Machine.start s limit)
  resume := resume

end LiveTrace.Wasm
