import LiveTrace.Number.Power
import LiveTrace.Wasm.Store

/-
  The machine that runs functions, one instruction at a time. Calls and blocks are kept on
  stacks of their own, so that a run can stop at a hook and go on behind it. A machine that
  runs valid code always knows what to do next.
-/
namespace LiveTrace.Wasm

/-- A block that has been entered. -/
structure Label where
  /-- How many operands a branch takes along. -/
  arity : Nat
  /-- The body of a loop, where a branch leads. -/
  again : Option (List Instr)
  /-- What follows the block. -/
  after : List Instr
  /-- The operands below those of the block. -/
  below : List Value

/-- A function that has been entered. -/
structure Frame where
  instance_ : Nat
  locals : Array Value
  /-- How many results it gives. -/
  results : Nat
  code : List Instr
  /-- The operands of the innermost block, last one first. -/
  stack : List Value := []
  labels : List Label := []

structure Machine where
  store : Store
  /-- The functions entered, innermost first. -/
  frames : List Frame := []
  /-- How many functions may be entered at once. -/
  limit : Nat

/-- What one instruction comes to. -/
inductive Step where
  | next (m : Machine)
  | done (s : Store)
  | trap (t : Trap)
  /-- A hook is called by the instance `caller`; the machine goes on behind the call. -/
  | hook (h : Hook) (operands : List Value) (caller : Nat) (m : Machine)

namespace Machine

/-- The bytes of stack that entering a function takes. -/
def bytesPerCall : Nat := 32

/-- The stack there is when nobody sets its size. -/
def defaultStack : Nat := 524288

/-- How many functions may be entered at once on a stack of the given size. -/
def limitOf (maxStack : Option Nat) : Nat := maxStack.getD defaultStack / bytesPerCall

/-- What never happens to valid code. -/
def stuck : Step := .trap .unreachable

/-- Enters the function at an address with the given operands, below which the frames `below`
stand. `caller` is the instance the call stands in. -/
def enter (m : Machine) (caller : Nat) (address : Nat) (operands : List Value)
    (below : List Frame) : Step :=
  match m.store.funcs[address]? with
  | none => stuck
  | some (.hook h) => .hook h operands caller { m with frames := below }
  | some (.code i f) =>
    if m.limit ≤ below.length then .trap .callStackExhausted
    else
      let frame : Frame :=
        { instance_ := i
          locals := (operands ++ f.locals.map ValType.zero).toArray
          results := f.type.results.length
          code := f.body }
      .next { m with frames := frame :: below }

/-- Leaves the innermost function, whose results are on its stack. -/
def leave (m : Machine) (f : Frame) (below : List Frame) : Step :=
  match below with
  | [] => .done m.store
  | g :: rest =>
    .next { m with frames := { g with stack := f.stack.take f.results ++ g.stack } :: rest }

/-- Enters a block that takes `params` operands and whose branches take `arity`. -/
def enterBlock (f : Frame) (params arity : Nat) (again : Option (List Instr))
    (body rest : List Instr) : Frame :=
  { f with
    code := body
    stack := f.stack.take params
    labels := ⟨arity, again, rest, f.stack.drop params⟩ :: f.labels }

/-- Branches out of `n` blocks to the one around them; `none` leaves the function. -/
def branch (f : Frame) (n : Nat) : Option Frame :=
  match f.labels.drop n with
  | [] => none
  | l :: rest =>
    let taken := f.stack.take l.arity
    match l.again with
    | some body => some { f with code := body, stack := taken, labels := l :: rest }
    | none => some { f with code := l.after, stack := taken ++ l.below, labels := rest }

/-- A value from the bytes that were read for it. -/
def loaded (a : Access) (bytes : List UInt8) : Value :=
  let n := ofLittleEndian bytes
  match a.type with
  | .i32 => Width.w32.word (if a.signed then extendFrom (8 * a.bytes) 32 n else n)
  | .i64 => Width.w64.word (if a.signed then extendFrom (8 * a.bytes) 64 n else n)
  | .f32 => Width.w32.ofBits n
  | _ => Width.w64.ofBits n

/-- The address of a memory of an instance. -/
def memoryAddress? (s : Store) (i k : Nat) : Option Nat :=
  s.instances[i]?.bind fun inst => inst.memories[k]?

/-- The memory of an instance. -/
def memory? (s : Store) (i k : Nat) : Option Memory :=
  (memoryAddress? s i k).bind fun a => s.memories[a]?

/-- The store with another memory at the place of an instance's memory. -/
def setMemory (s : Store) (i k : Nat) (m : Memory) : Store :=
  match memoryAddress? s i k with
  | some a => { s with memories := s.memories.set! a m }
  | none => s

def globalAddress? (s : Store) (i k : Nat) : Option Nat :=
  s.instances[i]?.bind fun inst => inst.globals[k]?

/-- The store with another value for a global of an instance. -/
def setGlobal (s : Store) (i k : Nat) (v : Value) : Store :=
  match globalAddress? s i k with
  | some a =>
    match s.globals[a]? with
    | some g => { s with globals := s.globals.set! a { g with value := v } }
    | none => s
  | none => s

/-- The address of the function an indirect call leads to. -/
def indirect (s : Store) (i t : Nat) (type : FuncType) (k : Nat) : Except Trap Nat :=
  match (s.instances[i]?.bind fun inst => inst.tables[t]?).bind (s.tables[·]?) with
  | none => .error .tableOutOfBounds
  | some table =>
    if table.size ≤ k then .error .tableOutOfBounds
    else match table.entries[k]? with
      | none => .error .nullCall
      | some a =>
        if s.funcs[a]?.map FuncInst.type = some type then .ok a else .error .signatureMismatch

/-- The number of operands of the function at an address. -/
def operandCount (s : Store) (address : Nat) : Nat :=
  match s.funcs[address]? with
  | some f => f.type.params.length
  | none => 0

/-- Calls the function at an address with operands from the stack of `f`. -/
def callAt (m : Machine) (f : Frame) (rest : List Frame) (address : Nat) : Step :=
  let n := operandCount m.store address
  m.enter f.instance_ address (f.stack.take n).reverse
    ({ f with stack := f.stack.drop n } :: rest)

/-- Goes on in a frame. -/
def resume (m : Machine) (rest : List Frame) (f : Frame) : Step :=
  .next { m with frames := f :: rest }

/-- Goes on after an instruction, with another stack. -/
def goOn (m : Machine) (f : Frame) (rest : List Frame) (stack : List Value) : Step :=
  m.resume rest { f with stack := stack }

/-- Goes on with another store. -/
def goOnWith (m : Machine) (s : Store) (f : Frame) (rest : List Frame) (stack : List Value) :
    Step :=
  { m with store := s }.goOn f rest stack

/-- Takes a branch. -/
def jump (m : Machine) (f : Frame) (rest : List Frame) (n : Nat) : Step :=
  match branch f n with
  | some f => m.resume rest f
  | none => m.leave f rest

/-- One instruction of a function that goes on with `code`. -/
def exec (m : Machine) (f : Frame) (rest : List Frame) (i : Instr) (code : List Instr) : Step :=
  let f := { f with code := code }
  match i, f.stack with
  | .unreachable, _ => .trap .unreachable
  | .nop, stack => m.goOn f rest stack
  | .drop, _ :: stack => m.goOn f rest stack
  | .select _, c :: b :: a :: stack =>
    m.goOn f rest ((if c.toNat = 0 then b else a) :: stack)
  | .const v, stack => m.goOn f rest (v :: stack)
  | .numeric op, stack =>
    match op.type.params, stack with
    | [_], a :: stack =>
      match op.eval1 a with
      | .ok v => m.goOn f rest (v :: stack)
      | .error t => .trap t
    | [_, _], b :: a :: stack =>
      match op.eval2 a b with
      | .ok v => m.goOn f rest (v :: stack)
      | .error t => .trap t
    | _, _ => stuck
  | .localGet k, stack =>
    match f.locals[k]? with
    | some v => m.goOn f rest (v :: stack)
    | none => stuck
  | .localSet k, v :: stack => m.goOn { f with locals := f.locals.setIfInBounds k v } rest stack
  | .localTee k, v :: stack =>
    m.goOn { f with locals := f.locals.setIfInBounds k v } rest (v :: stack)
  | .globalGet k, stack =>
    match (globalAddress? m.store f.instance_ k).bind (m.store.globals[·]?) with
    | some g => m.goOn f rest (g.value :: stack)
    | none => stuck
  | .globalSet k, v :: stack =>
    m.goOnWith (setGlobal m.store f.instance_ k v) f rest stack
  | .load a target, p :: stack =>
    match memory? m.store f.instance_ target.memory with
    | some mem =>
      match mem.read? (p.toNat + target.offset) a.bytes with
      | some bytes => m.goOn f rest (loaded a bytes :: stack)
      | none => .trap .outOfBounds
    | none => stuck
  | .store a target, v :: p :: stack =>
    match memory? m.store f.instance_ target.memory with
    | some mem =>
      match mem.write? (p.toNat + target.offset) (toLittleEndian a.bytes v.toNat) with
      | some mem => m.goOnWith (setMemory m.store f.instance_ target.memory mem) f rest stack
      | none => .trap .outOfBounds
    | none => stuck
  | .memorySize k, stack =>
    match memory? m.store f.instance_ k with
    | some mem => m.goOn f rest (Width.w32.word mem.pages :: stack)
    | none => stuck
  | .memoryGrow k, n :: stack =>
    match memory? m.store f.instance_ k with
    | some mem =>
      match mem.grow? n.toNat with
      | some grown =>
        m.goOnWith (setMemory m.store f.instance_ k grown) f rest
          (Width.w32.word mem.pages :: stack)
      | none => m.goOn f rest (Width.w32.word (Number.pow2 32 - 1) :: stack)
    | none => stuck
  | .refNull t, stack => m.goOn f rest (t.zero :: stack)
  | .refFunc k, stack =>
    m.goOn f rest (.func (m.store.instances[f.instance_]?.bind fun i => i.funcs[k]?) :: stack)
  | .refIsNull, v :: stack =>
    m.goOn f rest (ofBool (match v with
      | .func (some _) => false
      | _ => true) :: stack)
  | .block t body, _ =>
    m.resume rest (enterBlock f t.params.length t.results.length none body code)
  | .loop t body, _ =>
    m.resume rest (enterBlock f t.params.length t.params.length (some body) body code)
  | .branch t yes no, c :: stack =>
    m.resume rest (enterBlock { f with stack := stack } t.params.length t.results.length none
      (if c.toNat = 0 then no else yes) code)
  | .br n, _ => m.jump f rest n
  | .brIf n, c :: stack =>
    if c.toNat = 0 then m.goOn f rest stack else m.jump { f with stack := stack } rest n
  | .brTable ls l, k :: stack =>
    m.jump { f with stack := stack } rest (ls.getD k.toNat l)
  | .ret, _ => m.leave f rest
  | .call k, _ =>
    match m.store.instances[f.instance_]?.bind fun i => i.funcs[k]? with
    | some a => m.callAt f rest a
    | none => stuck
  | .callIndirect t type, k :: stack =>
    match indirect m.store f.instance_ t type k.toNat with
    | .ok a => m.callAt { f with stack := stack } rest a
    | .error t => .trap t
  | _, _ => stuck

/-- One step. A block ends where its code does, and so does a function. -/
def step (m : Machine) : Step :=
  match m.frames with
  | [] => .done m.store
  | f :: rest =>
    match f.code, f.labels with
    | i :: code, _ => m.exec f rest i code
    | [], l :: labels =>
      m.resume rest { f with code := l.after, stack := f.stack ++ l.below, labels := labels }
    | [], [] => m.leave f rest

/-- A machine that is about to run the function at an address, which takes nothing. -/
def start (s : Store) (limit : Nat) (address : Nat) : Step :=
  enter { store := s, limit := limit } 0 address [] []

/-- Where a run pauses. -/
inductive Pause where
  | done (s : Store)
  | trap (t : Trap)
  | hook (h : Hook) (operands : List Value) (caller : Nat) (m : Machine)
  /-- The steps that were allowed are used up. -/
  | tired (m : Machine)

/-- Runs from a step on until the machine pauses, for at most `fuel` further steps. -/
def runFrom : Nat → Step → Pause
  | _, .done s => .done s
  | _, .trap t => .trap t
  | _, .hook h operands caller m => .hook h operands caller m
  | 0, .next m => .tired m
  | fuel + 1, .next m => runFrom fuel m.step

/-- Runs until the machine pauses, for at most `fuel` steps. -/
def run (fuel : Nat) (m : Machine) : Pause := runFrom fuel (.next m)

end Machine

end LiveTrace.Wasm
