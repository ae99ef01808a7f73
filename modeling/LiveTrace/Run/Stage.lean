import LiveTrace.Assembly.Basic
import LiveTrace.Compiler.Options
import LiveTrace.Config
import LiveTrace.Guest.Execution
import LiveTrace.Run.Outcome
import LiveTrace.Workspace.Basic

/-
  The stages of a run up to its invocation: dependencies are staged, sources read, options
  parsed, the unit assembled and compiled, dependencies linked, and the unit instantiated.
  The first stage that cannot be done decides the outcome.
-/
namespace LiveTrace

/-- A run on its way: what all runs share, and its working directory. -/
structure Stage (σ : Type) where
  host : Host σ
  workspace : Workspace

namespace Stage

variable {σ : Type}

/-- Does something in the working directory and gives the path it results in. -/
def inWorkspace (s : Stage σ) (action : Workspace → Files → Staging) :
    Stage σ × Except RunOutcome String :=
  let r := action s.workspace s.host.files
  let s : Stage σ := ⟨{ s.host with files := r.files }, r.workspace⟩
  match r.result with
  | .ok path => (s, .ok path)
  | .error e => (s, .error (.faulted (.workspace e)))

/-- The path a dependency is loaded from: a trusted one from where it is, any other from a copy
in the working directory. -/
def stageDependency (c : EvaluatorConfig) (s : Stage σ) (path : String) :
    Stage σ × Except RunOutcome String :=
  if !s.host.files.pathExists path then (s, .error (.missingDependency path))
  else if c.isTrusted path then (s, .ok path)
  else s.inWorkspace fun w f => w.stageFile f path

/-- The paths that dependencies are loaded from. -/
def stageDependencies (c : EvaluatorConfig) (s : Stage σ) :
    List String → Stage σ × Except RunOutcome (List String)
  | [] => (s, .ok [])
  | path :: rest =>
    match stageDependency c s path with
    | (s, .error e) => (s, .error e)
    | (s, .ok first) =>
      match stageDependencies c s rest with
      | (s, .ok others) => (s, .ok (first :: others))
      | (s, .error e) => (s, .error e)

/-- Why a run goes no further. -/
inductive Halt where
  | outcome (o : RunOutcome)
  | panicked (p : Panic)

def compileError (e : CompileError) : Halt := .outcome (.compileErrors e)

def engineFault (text : String) : RunOutcome := .faulted (.engine text)

variable [Engine]

/-- The module in a file. -/
def loadModule? (s : Stage σ) (core : Engine.Core) (path : String) : Option Engine.Module :=
  match s.host.files.read path with
  | .ok bytes => Engine.load? core bytes
  | .error _ => none

/-- What a run links against: what can be imported, and the store so far. -/
structure Linking where
  core : Engine.Core
  linker : Engine.Linker
  store : Engine.Store

/-- The hooks and the id of the submission. -/
def Linking.initial (core : Engine.Core) (id : SubmissionId) : Except RunOutcome Linking :=
  match Engine.hooks core with
  | .error text => .error (engineFault text)
  | .ok linker =>
    match Engine.defineSubmission core linker (Engine.emptyStore core) id with
    | .error text => .error (engineFault text)
    | .ok (linker, store) => .ok ⟨core, linker, store⟩

/-- Sets the engine up, loads the unit, and begins to link. -/
def setUp (s : Stage σ) (options : CompilerOptions) (id : SubmissionId) (unitPath : String) :
    Except RunOutcome (Engine.Module × Linking) :=
  match Engine.create options with
  | .error text => .error (engineFault text)
  | .ok core =>
    match s.loadModule? core unitPath with
    | none => .error (.compileErrors .invalidUnit)
    | some m =>
      match Linking.initial core id with
      | .error o => .error o
      | .ok l => .ok (m, l)

/-- How an attempt to instantiate a module ends. -/
inductive Instantiated where
  | ok (s : Engine.Store) (unit : Engine.Instance)
  | failed
  /-- A sink panicked in the start function. -/
  | panicked (p : Panic)

/-- Instantiates a module and runs its start function. `none` when `fuel` is not enough. -/
def instantiate [TraceSink σ] (fuel : Nat) (h : Host σ) (l : Linking) (m : Engine.Module) :
    Host σ × Option Instantiated :=
  match Engine.instantiate? l.core l.linker l.store m with
  | none => (h, some .failed)
  | some i =>
    match i.start with
    | none => (h, some (.ok i.store i.unit))
    | some c =>
      match Guest.drive fuel h c with
      | (h, none) => (h, none)
      | (h, some (.returned s)) => (h, some (.ok s i.unit))
      | (h, some (.panicked p)) => (h, some (.panicked p))
      | (h, some _) => (h, some .failed)

/-- The name that the exports of a dependency are imported from. -/
def moduleName (path : String) : String := (Path.stem? path).getD ""

/-- Loads, instantiates and registers a dependency. -/
def linkDependency [TraceSink σ] (fuel : Nat) (s : Stage σ) (l : Linking) (path : String) :
    Stage σ × Option (Except Halt Linking) :=
  let name := moduleName path
  match s.loadModule? l.core path with
  | none => (s, some (.error (compileError (.load path))))
  | some m =>
    match instantiate fuel s.host l m with
    | (h, none) => ({ s with host := h }, none)
    | (h, some .failed) => ({ s with host := h }, some (.error (compileError (.link name))))
    | (h, some (.panicked p)) => ({ s with host := h }, some (.error (.panicked p)))
    | (h, some (.ok store unit)) =>
      match Engine.register? l.linker store name unit with
      | some linker => ({ s with host := h }, some (.ok { l with store, linker }))
      | none => ({ s with host := h }, some (.error (compileError (.register name))))

/-- Links dependencies, each of which can import what those before it export. -/
def linkDependencies [TraceSink σ] (fuel : Nat) (s : Stage σ) (l : Linking) :
    List String → Stage σ × Option (Except Halt Linking)
  | [] => (s, some (.ok l))
  | path :: rest =>
    match linkDependency fuel s l path with
    | (s, some (.ok l)) => linkDependencies fuel s l rest
    | (s, other) => (s, other)

/-- A unit that can be invoked. -/
structure Compiled where
  core : Engine.Core
  store : Engine.Store
  unit : Engine.Instance

/-- Assembles, compiles and instantiates the unit with its dependencies. -/
def compile [TraceSink σ] (fuel : Nat) (s : Stage σ) (id : SubmissionId)
    (dependencies sources : List String) (code options : String) :
    Stage σ × Option (Except Halt Compiled) :=
  let (options, ds) := CompilerOptions.parse options
  if hasErrors ds then (s, some (.error (compileError (.options ds))))
  else
    let s := { s with host := s.host.write (ds.map fun d : Diagnostic => ⟨.debug, d.render⟩) }
    let unit := Assembly.assemble sources code
    match s.inWorkspace fun w f =>
        w.writeFile f Assembly.unitFileName (Utf8.encode unit.toList) with
    | (s, .error o) => (s, some (.error (.outcome o)))
    | (s, .ok path) =>
      match s.setUp options id path with
      | .error o => (s, some (.error (.outcome o)))
      | .ok (m, l) =>
        match linkDependencies fuel s l dependencies with
        | (s, none) => (s, none)
        | (s, some (.error e)) => (s, some (.error e))
        | (s, some (.ok l)) =>
          match instantiate fuel s.host l m with
          | (h, none) => ({ s with host := h }, none)
          | (h, some .failed) =>
            ({ s with host := h }, some (.error (compileError .unlinkedUnit)))
          | (h, some (.panicked p)) => ({ s with host := h }, some (.error (.panicked p)))
          | (h, some (.ok store unit)) =>
            ({ s with host := h }, some (.ok ⟨l.core, store, unit⟩))

/-- All stages up to the unit that can be invoked. -/
def prepare [TraceSink σ] (fuel : Nat) (c : EvaluatorConfig) (s : Stage σ) (sub : Submission σ) :
    Stage σ × Option (Except Halt Compiled) :=
  match stageDependencies c s sub.project.references with
  | (s, .error o) => (s, some (.error (.outcome o)))
  | (s, .ok dependencies) =>
    match sub.project.readSources s.host.files with
    | .error e => (s, some (.error (.outcome (.faulted (.source e)))))
    | .ok sources =>
      compile fuel s sub.id dependencies sources sub.code sub.project.compilerOptions

end Stage

end LiveTrace
