import Mathlib.Algebra.Ring.Nat
import Mathlib.Data.List.Basic

/-!
# `liang::base::Buffer`

The byte buffer of `core/base/buffer/buffer.{h,cpp}`: a resizable vector with a read and a write
position. The two positions are `uint32_t` and are kept below `2 ^ 32` by an explicit remainder at
every assignment; lengths and the vector's size are `size_t`, so `buffer_.size() - write_index_` is
a 64-bit difference cut to 32 bits on return. `readv` is the environment: its result is the
argument of `readFromFD`.
-/

namespace Liang.Base

/-- `2 ^ 32`, the range of `uint32_t`. -/
def u32Size : Nat := 2 ^ 32

/-- `2 ^ 64`, the range of `size_t`. -/
def sizeTSize : Nat := 2 ^ 64

/-- Unsigned subtraction modulo `m` of values below `m`. -/
def wrapSub (m a b : Nat) : Nat := if b ≤ a then a - b else m - (b - a)

/-- A value cut to `int`: what a `uint32_t` becomes as an `int` result. -/
def toInt32 (n : Nat) : Int := if n % u32Size < 2 ^ 31 then n % u32Size else n % u32Size - u32Size

/-- `std::vector::resize`: cut off, or filled up with zero bytes. -/
def resize (xs : List UInt8) (n : Nat) : List UInt8 :=
  xs.take n ++ List.replicate (n - xs.length) 0

/-- `std::copy` of `ys` to the positions from `i` on; nothing is stored beyond the end. -/
def copyAt (xs : List UInt8) (i : Nat) (ys : List UInt8) : List UInt8 :=
  xs.take i ++ ys.take (xs.length - i) ++ xs.drop (i + ys.length)

/-- `sizeof extrabuf` in `ReadFromFD`. -/
def extrabufSize : Nat := 65536

/-- `std::search` for the non-empty `pat`: the position of its first occurrence, or the end. -/
def search (pat : List UInt8) : List UInt8 → Nat
  | [] => 0
  | x :: xs => if pat.isPrefixOf (x :: xs) then 0 else search pat xs + 1

/-- The two characters of `kCRLF` that are searched for. -/
def kCRLF : List UInt8 := [13, 10]

/-- What `readv` returns: the bytes it stored, in order, or -1 with an `errno`. -/
inductive ReadRes
  | data (bytes : List UInt8)
  | error (errno : Nat)
  deriving DecidableEq, Repr

structure Buffer where
  readIndex : Nat
  writeIndex : Nat
  buffer : List UInt8
  deriving DecidableEq, Repr

namespace Buffer

def initSize : UInt32 := 1024

/-- The constructor. -/
def new (size : UInt32) : Buffer := ⟨0, 0, List.replicate size.toNat 0⟩

def writableBytes (b : Buffer) : Nat :=
  wrapSub sizeTSize b.buffer.length b.writeIndex % u32Size

def readableBytes (b : Buffer) : Nat := wrapSub u32Size b.writeIndex b.readIndex

def isReadble (b : Buffer) : Bool := decide (0 < b.readableBytes)

def isEmpty (b : Buffer) : Bool := !b.isReadble

/-- The `n` bytes from `ReadIndexPtr()` on. -/
def peek (b : Buffer) (n : Nat) : List UInt8 := (b.buffer.drop b.readIndex).take n

/-- The readable bytes `buffer_[read_index_, write_index_)`. -/
def readable (b : Buffer) : List UInt8 := b.peek b.readableBytes

def ensureWritableBytes (b : Buffer) (len : Nat) : Buffer :=
  if b.writableBytes < len then
    { b with buffer := resize b.buffer ((b.writeIndex + len) % sizeTSize) }
  else b

def append (b : Buffer) (data : List UInt8) : Buffer :=
  let b := b.ensureWritableBytes data.length
  { b with
    buffer := copyAt b.buffer b.writeIndex data
    writeIndex := (b.writeIndex + data.length) % u32Size }

/-- `Append(const std::string &)`. -/
def appendString (b : Buffer) (str : List UInt8) : Buffer := b.append str

def resetIndex (b : Buffer) : Buffer := { b with readIndex := 0, writeIndex := 0 }

def clearReadIndex (b : Buffer) (len : Nat) : Buffer :=
  if len < b.readableBytes then { b with readIndex := (b.readIndex + len) % u32Size }
  else b.resetIndex

/-- The bytes `readv` can store at most: the tail of the vector, and `extrabuf` behind it when
the tail is shorter than `extrabuf`. -/
def iovTotal (b : Buffer) : Nat :=
  if b.writableBytes < extrabufSize then b.writableBytes + extrabufSize else b.writableBytes

/-- `ReadFromFD`: the buffer, the returned `n` and what `errorNo` is set to. -/
def readFromFD (b : Buffer) : ReadRes → Buffer × Int × Option Nat
  | .error errno => (b, -1, some errno)
  | .data bytes =>
    if bytes.length ≤ b.writableBytes then
      ({ b with
          buffer := copyAt b.buffer b.writeIndex bytes
          writeIndex := (b.writeIndex + bytes.length) % u32Size }, bytes.length, none)
    else
      -- the tail of the vector is full; the rest stands in `extrabuf`
      let b' : Buffer := { b with
        buffer := copyAt b.buffer b.writeIndex (bytes.take b.writableBytes)
        writeIndex := b.buffer.length % u32Size }
      (b'.append (bytes.drop b.writableBytes), bytes.length, none)

/-- `ReadAsString` and `ReadBytes`: the bytes assigned, the result and the buffer after. -/
def readBytes (b : Buffer) (len : Nat) : List UInt8 × Int × Buffer :=
  let len := if b.readableBytes < len then b.readableBytes else len
  (b.peek len, toInt32 len, b.clearReadIndex len)

def readAsString (b : Buffer) (len : Nat) : List UInt8 × Int × Buffer := b.readBytes len

def readAllAsString (b : Buffer) : List UInt8 × Int × Buffer := b.readAsString b.readableBytes

def readAllAsByte (b : Buffer) : List UInt8 × Int × Buffer := b.readBytes b.readableBytes

/-- `FindCRLF`: the distance of the result from `BufferPtr()`, `none` for `nullptr`. -/
def findCRLF (b : Buffer) : Option Nat :=
  let crlf := b.readIndex + search kCRLF ((b.buffer.take b.writeIndex).drop b.readIndex)
  if crlf = b.writeIndex then none else some crlf

/-- `RetrieveUntil`: `e` is the distance of the pointer `end` from `BufferPtr()`. -/
def retrieveUntil (b : Buffer) (e : Int) : Buffer :=
  if ¬ (b.readIndex : Int) ≤ e then b
  else if ¬ e ≤ (b.writeIndex : Int) then b
  else b.clearReadIndex ((e - b.readIndex).toNat % u32Size)

/-- `Swap`: `this` and `rhs` after it. -/
def swap (b rhs : Buffer) : Buffer × Buffer :=
  ({ buffer := rhs.buffer, readIndex := rhs.readIndex, writeIndex := rhs.writeIndex },
    { buffer := b.buffer, readIndex := b.readIndex, writeIndex := b.writeIndex })

end Buffer

/-- An operation of a `Buffer` with its arguments. The pointer of `RetrieveUntil` is given by its
distance from `ReadIndexPtr()`. -/
inductive BufOp
  | append (data : List UInt8)
  | appendString (str : List UInt8)
  | ensureWritableBytes (len : UInt64)
  | readFromFD (res : ReadRes)
  | readAsString (len : UInt32)
  | readAllAsString
  | readBytes (len : UInt32)
  | readAllAsByte
  | clearReadIndex (len : UInt32)
  | retrieveUntil (d : Int)
  | resetIndex
  deriving DecidableEq, Repr

/-- What an operation hands to its caller: the bytes it assigns with its result, or the results
of `ReadFromFD`. -/
inductive BufOut
  | unit
  | bytes (data : List UInt8) (ret : Int)
  | fd (n : Int) (errorNo : Option Nat)
  deriving DecidableEq, Repr

/-- An operation on the buffer; `readv` returns at most the total length of its vectors, and at
most `2 ^ 31 - 1`. -/
def BufOp.exec (b : Buffer) : BufOp → Option (Buffer × BufOut)
  | append data => some (b.append data, .unit)
  | appendString str => some (b.appendString str, .unit)
  | ensureWritableBytes len => some (b.ensureWritableBytes len.toNat, .unit)
  | readFromFD (.error errno) =>
    let r := b.readFromFD (.error errno)
    some (r.1, .fd r.2.1 r.2.2)
  | readFromFD (.data bytes) =>
    if bytes.length ≤ b.iovTotal ∧ bytes.length ≤ 2 ^ 31 - 1 then
      let r := b.readFromFD (.data bytes)
      some (r.1, .fd r.2.1 r.2.2)
    else none
  | readAsString len => let r := b.readAsString len.toNat; some (r.2.2, .bytes r.1 r.2.1)
  | readAllAsString => let r := b.readAllAsString; some (r.2.2, .bytes r.1 r.2.1)
  | readBytes len => let r := b.readBytes len.toNat; some (r.2.2, .bytes r.1 r.2.1)
  | readAllAsByte => let r := b.readAllAsByte; some (r.2.2, .bytes r.1 r.2.1)
  | clearReadIndex len => some (b.clearReadIndex len.toNat, .unit)
  | retrieveUntil d => some (b.retrieveUntil (b.readIndex + d), .unit)
  | resetIndex => some (b.resetIndex, .unit)

end Liang.Base
