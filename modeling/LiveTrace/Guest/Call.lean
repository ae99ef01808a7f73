import LiveTrace.Host.Report
import LiveTrace.Number.Power
import LiveTrace.Wasm.Store

/-
  Hooks as instrumented code calls them: words, and ranges of bytes in its exported memory.
  A call that names a submission which is not active is refused before anything is read; a
  call whose operands cannot be read changes nothing.
-/
namespace LiveTrace

open Wasm (Memory Value)

/-- A range of bytes, by its first address and its length. -/
structure Span where
  start : UInt32
  length : UInt32
  deriving DecidableEq, Repr

namespace Span

def stop (s : Span) : Nat := s.start.toNat + s.length.toNat

/-- The bytes of a range. -/
def bytes (s : Span) (m : Option Memory) : Except OperandError (List UInt8) :=
  match m with
  | none => .error .noMemory
  | some m =>
    match m.read? s.start.toNat s.length.toNat with
    | some bytes => .ok bytes
    | none => .error (.outsideMemory s.start.toNat s.stop)

/-- The text in a range. -/
def text (s : Span) (m : Option Memory) : Except OperandError String :=
  match s.bytes m with
  | .error e => .error e
  | .ok bytes =>
    match Utf8.decode bytes with
    | .ok cs => .ok (String.ofList cs)
    | .error e => .error (.notUtf8 e)

end Span

/-- What a hook is told besides the submission and the place in its source. -/
inductive GuestReport where
  /-- A method, and the table of its arguments: where it is and how many there are. -/
  | beginMethod (name : Span) (table : UInt32) (count : UInt32)
  | endMethod
  | beginLoop
  | endLoop
  | beginInsideLoop
  | endInsideLoop
  | change (name value : Span)
  | changeI32 (name : Span) (value : UInt32)
  | changeI64 (name : Span) (value : UInt64)
  | changeF64 (name : Span) (bits : UInt64)
  | ret
  | retText (value : Span)
  | retI32 (value : UInt32)
  | retI64 (value : UInt64)
  | retF64 (bits : UInt64)
  deriving DecidableEq, Repr

/-- A call of a hook. -/
structure GuestCall where
  sid : SubmissionId
  id : UInt32
  report : GuestReport
  deriving DecidableEq, Repr

/-- The bytes that one argument takes in a table: address and length of its name, address and
length of its value. -/
def argumentSize : Nat := 16

/-- The greatest size of a table. -/
def maxTable : Nat := Number.pow2 31 - 1

/-- The word at the front of some bytes, lowest byte first. -/
def leadingWord (bytes : List UInt8) : UInt32 := UInt32.ofNat (Wasm.ofLittleEndian (bytes.take 4))

/-- The argument that a record of a table describes. Arguments have the id of their method. -/
def readArgument (m : Option Memory) (id : UInt32) (record : List UInt8) :
    Except OperandError StateChange :=
  let word (n : Nat) : UInt32 := leadingWord (record.drop (4 * n))
  match (Span.mk (word 0) (word 1)).text m with
  | .error e => .error e
  | .ok name =>
    match (Span.mk (word 2) (word 3)).text m with
    | .error e => .error e
    | .ok value => .ok ⟨id, name, value⟩

/-- The arguments of the first `count` records of a table. -/
def readRecords (m : Option Memory) (id : UInt32) : Nat → List UInt8 →
    Except OperandError (List StateChange)
  | 0, _ => .ok []
  | count + 1, table =>
    match readArgument m id (table.take argumentSize) with
    | .error e => .error e
    | .ok a =>
      match readRecords m id count (table.drop argumentSize) with
      | .error e => .error e
      | .ok as => .ok (a :: as)

/-- The arguments of a method. -/
def readArguments (m : Option Memory) (id : UInt32) (table count : UInt32) :
    Except OperandError (List StateChange) :=
  let size := count.toNat * argumentSize
  if maxTable < size then .error (.tableTooLarge count.toNat)
  else
    match (Span.mk table (UInt32.ofNat size)).bytes m with
    | .error e => .error e
    | .ok bytes => readRecords m id count.toNat bytes

namespace GuestReport

/-- Whether the call is refused before its operands are read. -/
def isChecked : GuestReport → Bool
  | beginMethod _ _ _ | change _ _ | changeI32 _ _ | changeI64 _ _ | changeF64 _ _ | retText _ =>
    true
  | _ => false

/-- The event of a variable that gets a value. -/
def changeEvent (m : Option Memory) (id : UInt32) (name : Span) (value : LoggedValue) :
    Except OperandError Event :=
  match name.text m with
  | .ok name => .ok (.change ⟨id, name, value.display⟩)
  | .error e => .error e

/-- The signed value of a word. -/
def int32 (n : UInt32) : LoggedValue := .int (Wasm.signed 32 n.toNat)

def int64 (n : UInt64) : LoggedValue := .int (Wasm.signed 64 n.toNat)

/-- The event of a return with a value. -/
def returnEvent (id : UInt32) (value : LoggedValue) : Event := .ret ⟨id, some value.display⟩

/-- What is reported, once the operands are read. -/
def event (m : Option Memory) (id : UInt32) : GuestReport → Except OperandError Event
  | beginMethod name table count =>
    match name.text m with
    | .error e => .error e
    | .ok name =>
      match readArguments m id table count with
      | .ok arguments => .ok (.beginMethod id name arguments)
      | .error e => .error e
  | endMethod => .ok (.endMethod id)
  | beginLoop => .ok (.beginLoop id)
  | endLoop => .ok (.endLoop id)
  | beginInsideLoop => .ok (.beginIteration id)
  | endInsideLoop => .ok (.endIteration id)
  | change name value =>
    match name.text m with
    | .error e => .error e
    | .ok name =>
      match value.text m with
      | .ok value => .ok (.change ⟨id, name, value⟩)
      | .error e => .error e
  | changeI32 name value => changeEvent m id name (int32 value)
  | changeI64 name value => changeEvent m id name (int64 value)
  | changeF64 name bits => changeEvent m id name (.float bits)
  | ret => .ok (.ret ⟨id, none⟩)
  | retText value =>
    match value.text m with
    | .ok value => .ok (.ret ⟨id, some value⟩)
    | .error e => .error e
  | retI32 value => .ok (returnEvent id (int32 value))
  | retI64 value => .ok (returnEvent id (int64 value))
  | retF64 bits => .ok (returnEvent id (.float bits))

end GuestReport

namespace GuestCall

/-- What a hook is told, by its operands. -/
def ofOperands? (h : Hook) (operands : List Value) : Option GuestCall :=
  match operands with
  | .i32 sid :: .i32 id :: rest =>
    let report : Option GuestReport := match h, rest with
      | .beginMethod, [.i32 p, .i32 n, .i32 table, .i32 count] =>
        some (.beginMethod ⟨p, n⟩ table count)
      | .endMethod, [] => some .endMethod
      | .beginLoop, [] => some .beginLoop
      | .endLoop, [] => some .endLoop
      | .beginInsideLoop, [] => some .beginInsideLoop
      | .endInsideLoop, [] => some .endInsideLoop
      | .logVariableChange, [.i32 p, .i32 n, .i32 q, .i32 k] => some (.change ⟨p, n⟩ ⟨q, k⟩)
      | .logI32, [.i32 p, .i32 n, .i32 v] => some (.changeI32 ⟨p, n⟩ v)
      | .logI64, [.i32 p, .i32 n, .i64 v] => some (.changeI64 ⟨p, n⟩ v)
      | .logF64, [.i32 p, .i32 n, .f64 v] => some (.changeF64 ⟨p, n⟩ v)
      | .logReturn, [] => some .ret
      | .logReturnValue, [.i32 p, .i32 n] => some (.retText ⟨p, n⟩)
      | .logReturnI32, [.i32 v] => some (.retI32 v)
      | .logReturnI64, [.i64 v] => some (.retI64 v)
      | .logReturnF64, [.f64 v] => some (.retF64 v)
      | _, _ => none
    report.map (⟨sid, id, ·⟩)
  | _ => none

end GuestCall

/-- Why a call of a hook stops the program that made it. -/
inductive CallFault where
  | stop (s : Stop)
  | operand (e : OperandError)
  deriving DecidableEq, Repr

/-- A call of a hook by a program with exported memory `m`. -/
def Host.call {σ : Type} [TraceSink σ] (h : Host σ) (m : Option Memory) (c : GuestCall) :
    Host σ × Except CallFault Unit :=
  if c.report.isChecked && !h.isActive c.sid then (h, .error (.stop .aborted))
  else
    match c.report.event m c.id with
    | .error e => (h, .error (.operand e))
    | .ok e =>
      match h.report c.sid e with
      | (h, .ok _) => (h, .ok ())
      | (h, .error s) => (h, .error (.stop s))

end LiveTrace
