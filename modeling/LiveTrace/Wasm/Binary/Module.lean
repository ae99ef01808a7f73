import LiveTrace.Wasm.Binary.Code

/-
  Modules out of bytes: a mark and a version, then sections. Each kind of section comes at most
  once and in a fixed order; sections that mean nothing may stand anywhere and have a name.
-/
namespace LiveTrace.Wasm.Binary

/-- What a binary module begins with. -/
def mark : List UInt8 := [0x00, 0x61, 0x73, 0x6D]

/-- The version that follows the mark. -/
def version : List UInt8 := [0x01, 0x00, 0x00, 0x00]

/-- A part of a module: what kind it is of, and its bytes. -/
structure Section where
  kind : UInt8
  content : List UInt8

/-- The sections that some bytes are; `fuel` bounds their number. -/
def sections? : Nat → List UInt8 → Option (List Section)
  | _, [] => some []
  | 0, _ :: _ => none
  | fuel + 1, kind :: bs =>
    match sized bs with
    | some (content, rest) => (sections? fuel rest).map (⟨kind, content⟩ :: ·)
    | none => none

/-- The kind of sections that mean nothing. -/
def customKind : UInt8 := 0

/-- The other kinds, in the order their sections come in: types, imports, functions, tables,
memories, globals, exports, the start, elements, the count of data, code and data. -/
def kinds : List UInt8 := [1, 2, 3, 4, 5, 6, 7, 8, 9, 12, 10, 11]

/-- Whether kinds come in order, each at most once. -/
def areOrdered : List UInt8 → List UInt8 → Bool
  | _, [] => true
  | [], _ :: _ => false
  | k :: order, kind :: rest =>
    if k == kind then areOrdered order rest else areOrdered order (kind :: rest)

/-- Whether the sections that mean nothing have names, and the others come in order. -/
def areWellFormed (ss : List Section) : Bool :=
  let (custom, others) := ss.partition (·.kind == customKind)
  custom.all (fun s => (name s.content).isSome) && areOrdered kinds (others.map (·.kind))

/-- What the section of a kind holds, or what stands for it when there is none. -/
def content? {α : Type} (ss : List Section) (kind : UInt8) (absent : α) (read : Reader α) :
    Option α :=
  match ss.find? (·.kind == kind) with
  | some s => whole? read s.content
  | none => some absent

/-- The list that the section of a kind holds. -/
def list? {α : Type} (ss : List Section) (kind : UInt8) (read : Reader α) : Option (List α) :=
  content? ss kind [] (listOf read)

/-- The type of something imported. -/
def externType (types : List FuncType) : Reader ExternType := do
  match (← byte).toNat with
  | 0 => return .func (← given types[← index]?)
  | 1 => return .table (← tableType)
  | 2 => return .memory (← limits)
  | 3 => return .global (← globalType)
  | _ => fail

def importEntry (types : List FuncType) : Reader Import := do
  return ⟨← name, ← name, ← externType types⟩

def globalEntry (types : List FuncType) : Reader Global := do
  return ⟨← globalType, ← code types⟩

def exportTarget : Reader ExportTarget := do
  match (← byte).toNat with
  | 0 => return .func (← index)
  | 1 => return .table (← index)
  | 2 => return .memory (← index)
  | 3 => return .global (← index)
  | _ => fail

def exportEntry : Reader Export := do return ⟨← name, ← exportTarget⟩

/-- Where an active segment goes, with an index in front if it names its table or memory. -/
def activeMode (types : List FuncType) (named : Bool) : Reader SegmentMode := do
  let i ← if named then index else pure 0
  return .active i (← code types)

/-- Functions given by their indices. -/
def funcItems : Reader (List (List Instr)) := do
  return (← listOf index).map fun f => [.refFunc f]

/-- The type of elements that are given by indices, which is that of functions. -/
def indexedType : Reader ValType := do
  if (← byte) == 0 then return .funcref else fail

/-- An element segment. The bits of its first number tell whether it puts nothing anywhere,
whether it names its table or is only there to declare functions, and whether its items are
expressions. -/
def elementsEntry (types : List FuncType) : Reader Elements := do
  let flags ← index
  if 8 ≤ flags then fail
  else
    let expressions := 4 ≤ flags
    let mode ← if flags % 2 == 1 then pure .passive else activeMode types (flags / 2 % 2 == 1)
    let type ←
      if flags % 4 == 0 then pure .funcref
      else if expressions then refType
      else indexedType
    return ⟨mode, type, ← if expressions then listOf (code types) else funcItems⟩

/-- A data segment: active, passive, or active with its memory named. -/
def dataEntry (types : List FuncType) : Reader Data := do
  match ← index with
  | 0 => return ⟨← activeMode types false, ← sized⟩
  | 1 => return ⟨.passive, ← sized⟩
  | 2 => return ⟨← activeMode types true, ← sized⟩
  | _ => fail

/-- The functions with the given types and bodies, of which there have to be equally many. -/
def funcs? (types : List FuncType) (uses : List Nat) (bodies : List (List UInt8)) :
    Option (List Func) :=
  if uses.length = bodies.length then
    (uses.zip bodies).mapM fun (use, bytes) =>
      match types[use]?, whole? (body types) bytes with
      | some t, some (locals, code) => some ⟨t, locals, code⟩
      | _, _ => none
  else none

/-- The module that some sections hold. -/
def ofSections? (ss : List Section) : Option Module := do
  let types ← list? ss 1 funcType
  let imports ← list? ss 2 (importEntry types)
  let uses ← list? ss 3 index
  let tables ← list? ss 4 tableType
  let memories ← list? ss 5 limits
  let globals ← list? ss 6 (globalEntry types)
  let exports ← list? ss 7 exportEntry
  let start ← content? ss 8 none (do return some (← index))
  let elements ← list? ss 9 (elementsEntry types)
  let count ← content? ss 12 none (do return some (← index))
  let bodies ← list? ss 10 sized
  let data ← list? ss 11 (dataEntry types)
  let funcs ← funcs? types uses bodies
  if count.all (· == data.length) then
    return { types, imports, funcs, tables, memories, globals, exports, start, elements, data }
  else none

/-- The module that some bytes are, valid or not. -/
def module? (bytes : List UInt8) : Option Module :=
  if bytes.take 8 == mark ++ version then
    let rest := bytes.drop 8
    match sections? rest.length rest with
    | some ss => if areWellFormed ss then ofSections? ss else none
    | none => none
  else none

end LiveTrace.Wasm.Binary
