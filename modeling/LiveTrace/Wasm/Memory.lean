import LiveTrace.Wasm.Types
import Std.Data.TreeMap.Basic

/-
  Memories: so many pages of bytes, of which only those that were ever written are kept; the
  rest are zero. A range of bytes lies in a memory or it does not; nothing is cut off.
-/
namespace LiveTrace.Wasm

structure Memory where
  pages : Nat
  max : Option Nat := none
  cells : Std.TreeMap Nat UInt8 := {}

namespace Memory

/-- The bytes there are. -/
def size (m : Memory) : Nat := m.pages * pageSize

def byte (m : Memory) (address : Nat) : UInt8 := m.cells.getD address 0

/-- The bytes of a range, if it lies inside. -/
def read? (m : Memory) (start count : Nat) : Option (List UInt8) :=
  if start + count ≤ m.size then some ((List.range' start count).map m.byte) else none

/-- The cells with bytes in place of those from `start` on. -/
def writeCells (cells : Std.TreeMap Nat UInt8) (start : Nat) : List UInt8 → Std.TreeMap Nat UInt8
  | [] => cells
  | b :: bs => writeCells (cells.insert start b) (start + 1) bs

/-- The memory with bytes from `start` on, if they lie inside. -/
def write? (m : Memory) (start : Nat) (bytes : List UInt8) : Option Memory :=
  if start + bytes.length ≤ m.size then some { m with cells := writeCells m.cells start bytes }
  else none

/-- The memory with more pages, if it may have them. -/
def grow? (m : Memory) (count : Nat) : Option Memory :=
  if m.pages + count ≤ m.max.getD maxPages then some { m with pages := m.pages + count } else none

end Memory

/-- The number whose bytes are given, lowest first. -/
def ofLittleEndian : List UInt8 → Nat
  | [] => 0
  | b :: bs => b.toNat + 256 * ofLittleEndian bs

/-- The lowest `count` bytes of a number, lowest first. -/
def toLittleEndian : Nat → Nat → List UInt8
  | 0, _ => []
  | count + 1, n => UInt8.ofNat (n % 256) :: toLittleEndian count (n / 256)

end LiveTrace.Wasm
