import LiveTrace.Error
import LiveTrace.Number.Binary
import LiveTrace.Number.Power
import LiveTrace.Wasm.Types

/-
  Values and the arithmetic on them. Integers are words; their operations are said once for
  both widths, on numbers below a power of two. Floating-point numbers are kept as bits;
  conversions between the two kinds are exact up to one rounding.
-/
namespace LiveTrace.Wasm

open Number (pow2)

inductive Value where
  | i32 (n : UInt32)
  | i64 (n : UInt64)
  | f32 (bits : UInt32)
  | f64 (bits : UInt64)
  /-- A function, or none. -/
  | func (address : Option Nat)
  /-- A thing of the host; there are none. -/
  | outside
  deriving DecidableEq, Repr, Inhabited

def Value.type : Value → ValType
  | i32 _ => .i32
  | i64 _ => .i64
  | f32 _ => .f32
  | f64 _ => .f64
  | func _ => .funcref
  | outside => .externref

/-- The value locals of a type start with. -/
def ValType.zero : ValType → Value
  | .i32 => .i32 0
  | .i64 => .i64 0
  | .f32 => .f32 0
  | .f64 => .f64 0
  | .funcref => .func none
  | .externref => .outside

/-- The two sizes of numbers. -/
inductive Width where
  | w32 | w64
  deriving DecidableEq, Repr

namespace Width

def bits : Width → Nat
  | w32 => 32
  | w64 => 64

def int : Width → ValType
  | w32 => .i32
  | w64 => .i64

def float : Width → ValType
  | w32 => .f32
  | w64 => .f64

def format : Width → Number.BinaryFormat
  | w32 => Number.binary32
  | w64 => Number.binary64

/-- The integer of this width with the given value, modulo its range. -/
def word : Width → Nat → Value
  | w32, n => .i32 (UInt32.ofNat n)
  | w64, n => .i64 (UInt64.ofNat n)

/-- The floating-point number of this width with the given bits. -/
def ofBits : Width → Nat → Value
  | w32, n => .f32 (UInt32.ofNat n)
  | w64, n => .f64 (UInt64.ofNat n)

end Width

/-- The unsigned value of an integer, or the bits of a floating-point number. -/
def Value.toNat : Value → Nat
  | i32 n => n.toNat
  | i64 n => n.toNat
  | f32 n => n.toNat
  | f64 n => n.toNat
  | func _ => 0
  | outside => 0

inductive IntUnary where
  | clz | ctz | popcnt | extend8 | extend16 | extend32
  deriving DecidableEq, Repr

inductive IntBinary where
  | add | sub | mul | divS | divU | remS | remU
  | and | or | xor | shl | shrS | shrU | rotl | rotr
  deriving DecidableEq, Repr

inductive IntCompare where
  | eq | ne | ltS | ltU | gtS | gtU | leS | leU | geS | geU
  deriving DecidableEq, Repr

inductive FloatUnary where
  | abs | neg | ceil | floor | trunc | nearest | sqrt
  deriving DecidableEq, Repr

inductive FloatBinary where
  | add | sub | mul | div | min | max | copysign
  deriving DecidableEq, Repr

inductive FloatCompare where
  | eq | ne | lt | gt | le | ge
  deriving DecidableEq, Repr

/-- The instructions that only compute. -/
inductive Numeric where
  | intUnary (w : Width) (op : IntUnary)
  | intBinary (w : Width) (op : IntBinary)
  | intIsZero (w : Width)
  | intCompare (w : Width) (op : IntCompare)
  | floatUnary (w : Width) (op : FloatUnary)
  | floatBinary (w : Width) (op : FloatBinary)
  | floatCompare (w : Width) (op : FloatCompare)
  | wrap
  | extend (signed : Bool)
  | truncate (target : Width) (source : Width) (signed : Bool) (saturating : Bool)
  | convert (target : Width) (source : Width) (signed : Bool)
  | demote
  | promote
  | toBits (w : Width)
  | fromBits (w : Width)
  deriving DecidableEq, Repr

/-- What an instruction takes and gives. -/
def Numeric.type : Numeric → FuncType
  | intUnary w _ => ⟨[w.int], [w.int]⟩
  | intBinary w _ => ⟨[w.int, w.int], [w.int]⟩
  | intIsZero w => ⟨[w.int], [.i32]⟩
  | intCompare w _ => ⟨[w.int, w.int], [.i32]⟩
  | floatUnary w _ => ⟨[w.float], [w.float]⟩
  | floatBinary w _ => ⟨[w.float, w.float], [w.float]⟩
  | floatCompare w _ => ⟨[w.float, w.float], [.i32]⟩
  | wrap => ⟨[.i64], [.i32]⟩
  | extend _ => ⟨[.i32], [.i64]⟩
  | truncate target source _ _ => ⟨[source.float], [target.int]⟩
  | convert target source _ => ⟨[source.int], [target.float]⟩
  | demote => ⟨[.f64], [.f32]⟩
  | promote => ⟨[.f32], [.f64]⟩
  | toBits w => ⟨[w.float], [w.int]⟩
  | fromBits w => ⟨[w.int], [w.float]⟩

/-- The signed value of the word `n` of `bits` bits. -/
def signed (bits n : Nat) : Int := if n < pow2 (bits - 1) then n else (n : Int) - pow2 bits

/-- The word of `bits` bits that stands for an integer. -/
def wrapInt (bits : Nat) (n : Int) : Nat := (n % pow2 bits).toNat

/-- How many bits of `n` are set, of its lowest `count`. -/
def bitCount : Nat → Nat → Nat
  | 0, _ => 0
  | count + 1, n => n % 2 + bitCount count (n / 2)

/-- How many of the lowest `count` bits of `n` are zero up to the first that is set. -/
def trailingZeros : Nat → Nat → Nat
  | 0, _ => 0
  | count + 1, n => if n % 2 = 1 then 0 else trailingZeros count (n / 2) + 1

/-- The lowest `small` bits of `n`, with their sign, as a word of `bits` bits. -/
def extendFrom (small bits n : Nat) : Nat := wrapInt bits (signed small (n % pow2 small))

def IntUnary.eval (bits : Nat) (op : IntUnary) (a : Nat) : Nat :=
  match op with
  | clz => if a = 0 then bits else bits - 1 - Nat.log2 a
  | ctz => trailingZeros bits a
  | popcnt => bitCount bits a
  | extend8 => extendFrom 8 bits a
  | extend16 => extendFrom 16 bits a
  | extend32 => extendFrom 32 bits a

/-- A word turned left by `k` bits. -/
def rotateLeft (bits a k : Nat) : Nat :=
  (a * pow2 k) % pow2 bits + a / pow2 (bits - k)

def IntBinary.eval (bits : Nat) (op : IntBinary) (a b : Nat) : Except Trap Nat :=
  match op with
  | add => .ok ((a + b) % pow2 bits)
  | sub => .ok ((a + pow2 bits - b) % pow2 bits)
  | mul => .ok ((a * b) % pow2 bits)
  | divS =>
    if b = 0 then .error .divideByZero
    else if signed bits a = -pow2 (bits - 1) ∧ signed bits b = -1 then .error .integerOverflow
    else .ok (wrapInt bits ((signed bits a).tdiv (signed bits b)))
  | divU => if b = 0 then .error .divideByZero else .ok (a / b)
  | remS =>
    if b = 0 then .error .divideByZero
    else .ok (wrapInt bits ((signed bits a).tmod (signed bits b)))
  | remU => if b = 0 then .error .divideByZero else .ok (a % b)
  | and => .ok (a &&& b)
  | or => .ok (a ||| b)
  | xor => .ok (a ^^^ b)
  | shl => .ok ((a * pow2 (b % bits)) % pow2 bits)
  | shrS => .ok (wrapInt bits (signed bits a / pow2 (b % bits)))
  | shrU => .ok (a / pow2 (b % bits))
  | rotl => .ok (rotateLeft bits a (b % bits))
  | rotr => .ok (rotateLeft bits a ((bits - b % bits) % bits))

def IntCompare.eval (bits : Nat) (op : IntCompare) (a b : Nat) : Bool :=
  match op with
  | eq => a == b
  | ne => a != b
  | ltS => signed bits a < signed bits b
  | ltU => a < b
  | gtS => signed bits b < signed bits a
  | gtU => b < a
  | leS => signed bits a ≤ signed bits b
  | leU => a ≤ b
  | geS => signed bits b ≤ signed bits a
  | geU => b ≤ a

/-- Rounds to a whole number, a half to the even one. -/
def nearestFloat (x : Float) : Float :=
  let big : Float := 4503599627370496.0
  if x.isNaN || x.abs ≥ big || x == 0.0 then x
  else if x < 0.0 then
    let r := (x - big) + big
    if r == 0.0 then -0.0 else r
  else (x + big) - big

def truncFloat (x : Float) : Float := if x < 0.0 then x.ceil else x.floor

/-- The lesser of two numbers, where minus zero is below zero and NaN wins. -/
def minFloat (x y : Float) : Float :=
  if x.isNaN || y.isNaN then 0.0 / 0.0
  else if x < y then x
  else if y < x then y
  else if x.toBits > y.toBits then x else y

def maxFloat (x y : Float) : Float :=
  if x.isNaN || y.isNaN then 0.0 / 0.0
  else if x < y then y
  else if y < x then x
  else if x.toBits < y.toBits then x else y

/-- The bits of a number with the sign of another one. -/
def copySign (bits a b : Nat) : Nat :=
  let sign := pow2 (bits - 1)
  a % sign + b / sign * sign

/-- Operations on sixty-four bits; those on thirty-two are done here too and rounded again,
which gives the same because sixty-four bits have more than twice the precision. -/
def FloatUnary.eval (op : FloatUnary) (x : Float) : Float :=
  match op with
  | abs => x.abs
  | neg => -x
  | ceil => x.ceil
  | floor => x.floor
  | trunc => truncFloat x
  | nearest => nearestFloat x
  | sqrt => x.sqrt

def FloatBinary.eval (op : FloatBinary) (x y : Float) : Float :=
  match op with
  | add => x + y
  | sub => x - y
  | mul => x * y
  | div => x / y
  | min => minFloat x y
  | max => maxFloat x y
  | copysign => x

def FloatCompare.eval (op : FloatCompare) (x y : Float) : Bool :=
  match op with
  | eq => x == y
  | ne => x != y
  | lt => x < y
  | gt => x > y
  | le => x ≤ y
  | ge => x ≥ y

/-- The sixty-four-bit number that bits of a width stand for. -/
def Width.toFloat (w : Width) (bits : Nat) : Float :=
  match w with
  | w32 => (Float32.ofBits (UInt32.ofNat bits)).toFloat
  | w64 => Float.ofBits (UInt64.ofNat bits)

/-- The bits, of a width, of a sixty-four-bit number. -/
def Width.ofFloat (w : Width) (x : Float) : Value :=
  match w with
  | w32 => .f32 x.toFloat32.toBits
  | w64 => .f64 x.toBits

/-- The whole part of a finite number. -/
def wholePart (negative : Bool) (significand : Nat) (exponent : Int) : Int :=
  let n : Nat :=
    if 0 ≤ exponent then significand * pow2 exponent.toNat
    else significand / pow2 (-exponent).toNat
  if negative then -(n : Int) else n

/-- The least and greatest integers of a width. -/
def intRange (bits : Nat) (isSigned : Bool) : Int × Int :=
  if isSigned then (-pow2 (bits - 1), pow2 (bits - 1) - 1) else (0, pow2 bits - 1)

/-- A number without its fraction, as an integer. -/
def truncateNumber (target : Width) (isSigned saturating : Bool) (v : Number.BinaryValue) :
    Except Trap Nat :=
  let (low, high) := intRange target.bits isSigned
  match v with
  | .nan => if saturating then .ok 0 else .error .invalidConversion
  | .infinity negative =>
    if saturating then .ok (wrapInt target.bits (if negative then low else high))
    else .error .integerOverflow
  | .finite negative significand exponent _ =>
    let n := wholePart negative significand exponent
    if low ≤ n && n ≤ high then .ok (wrapInt target.bits n)
    else if saturating then .ok (wrapInt target.bits (if n < low then low else high))
    else .error .integerOverflow

/-- The number nearest to an integer. -/
def convertInt (target : Width) (n : Int) : Value :=
  target.ofBits ((target.format.round? (n < 0) n.natAbs 1).getD 0)

def ofBool (b : Bool) : Value := .i32 (if b then 1 else 0)

/-- The result of an instruction with one operand. -/
def Numeric.eval1 (op : Numeric) (a : Value) : Except Trap Value :=
  match op with
  | intUnary w op => .ok (w.word (op.eval w.bits a.toNat))
  | intIsZero _ => .ok (ofBool (a.toNat == 0))
  | floatUnary w .abs => .ok (w.ofBits (a.toNat % pow2 (w.bits - 1)))
  | floatUnary w .neg =>
    .ok (w.ofBits ((a.toNat + pow2 (w.bits - 1)) % pow2 w.bits))
  | floatUnary w op => .ok (w.ofFloat (op.eval (w.toFloat a.toNat)))
  | wrap => .ok (Width.w32.word a.toNat)
  | extend s => .ok (Width.w64.word (if s then extendFrom 32 64 a.toNat else a.toNat))
  | truncate target source s saturating =>
    (truncateNumber target s saturating (source.format.value a.toNat)).map target.word
  | convert target source s =>
    .ok (convertInt target (if s then signed source.bits a.toNat else a.toNat))
  | demote => .ok (Width.w32.ofFloat (Width.w64.toFloat a.toNat))
  | promote => .ok (Width.w64.ofFloat (Width.w32.toFloat a.toNat))
  | toBits w => .ok (w.word a.toNat)
  | fromBits w => .ok (w.ofBits a.toNat)
  | _ => .ok a

/-- The result of an instruction with two operands. -/
def Numeric.eval2 (op : Numeric) (a b : Value) : Except Trap Value :=
  match op with
  | intBinary w op => (op.eval w.bits a.toNat b.toNat).map w.word
  | intCompare w op => .ok (ofBool (op.eval w.bits a.toNat b.toNat))
  | floatBinary w .copysign => .ok (w.ofBits (copySign w.bits a.toNat b.toNat))
  | floatBinary w op => .ok (w.ofFloat (op.eval (w.toFloat a.toNat) (w.toFloat b.toNat)))
  | floatCompare w op => .ok (ofBool (op.eval (w.toFloat a.toNat) (w.toFloat b.toNat)))
  | _ => .ok a

end LiveTrace.Wasm
