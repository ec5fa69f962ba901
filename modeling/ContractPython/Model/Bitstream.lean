import ContractPython.Model.Types

/-!
# The bitstream

`bitstream` wraps a `std::stringstream`: a byte buffer with a read cursor, a write
cursor and an error flag. Numbers are stored most significant byte first.
-/

namespace ContractPython

structure Bitstream where
  bytecode : List UInt8
  get : Nat
  put : Nat
  fail : Bool
  deriving DecidableEq, Repr

namespace Bitstream

/-- `bitstream(std::string &)`, and the copy of a stream: both cursors at the start. -/
def ofBytes (bytes : List UInt8) : Bitstream := ⟨bytes, 0, 0, false⟩

/-- `std::istream::read`. A short read takes what is left and sets the error flag. -/
def read (b : Bitstream) (count : Nat) : Option (List UInt8) × Bitstream :=
  if b.fail then (none, b)
  else if b.get + count ≤ b.bytecode.length then
    (some ((b.bytecode.drop b.get).take count), { b with get := b.get + count })
  else (none, { b with get := b.bytecode.length, fail := true })

/-- A 32-bit word. -/
def readWord (b : Bitstream) : Option UInt32 × Bitstream :=
  let (bytes, b') := b.read 4
  (bytes.map fun bs => UInt32.ofNat (Bytes.decodeBE bs), b')

/-- A 64-bit word. -/
def readLong (b : Bitstream) : Option UInt64 × Bitstream :=
  let (bytes, b') := b.read 8
  (bytes.map fun bs => UInt64.ofNat (Bytes.decodeBE bs), b')

/-- `operator>>(bool &)`: one byte. -/
def readBool (b : Bitstream) : Option Bool × Bitstream :=
  let (bytes, b') := b.read 1
  (bytes.map fun bs => Bytes.decodeBE bs != 0, b')

/-- `operator>>(std::string &)`: a length and that many bytes. -/
def readString (b : Bitstream) : Option Str × Bitstream :=
  match b.readWord with
  | (none, b') => (none, b')
  | (some length, b') => b'.read length.toNat

/-- `Read`: always `count` bytes, padded with blanks when the stream ends early. -/
def readPadded (b : Bitstream) (count : Nat) : Str × Bitstream :=
  if b.fail then (List.replicate count 32, b)
  else
    let taken := (b.bytecode.drop b.get).take count
    (taken ++ List.replicate (count - taken.length) 32, (b.read count).2)

/-- `pos`: the read cursor as a 32-bit number; a failed stream reports -1. -/
def pos (b : Bitstream) : UInt32 := if b.fail then -1 else UInt32.ofNat b.get

/-- `move_to`: seeks inside the buffer; a failed stream does not move. -/
def moveTo (b : Bitstream) (pos : UInt32) : Bitstream :=
  if b.fail then b
  else if pos.toNat ≤ b.bytecode.length then { b with get := pos.toNat }
  else { b with fail := true }

/-- `std::ostream::write` at the write cursor, overwriting what is there. -/
def write (b : Bitstream) (bytes : List UInt8) : Bitstream :=
  if b.fail then b
  else { b with
    bytecode := b.bytecode.take b.put ++ bytes ++ b.bytecode.drop (b.put + bytes.length)
    put := b.put + bytes.length }

/-- `assign`: clears the error flag and writes at the write cursor; the length is a `uint32_t`. -/
def assign (b : Bitstream) (buffer : List UInt8) : Bitstream :=
  write { b with fail := false } (buffer.take (UInt32.ofNat buffer.length).toNat)

/-- `pos_write`. -/
def posWrite (b : Bitstream) : UInt32 := if b.fail then -1 else UInt32.ofNat b.put

/-- `move_to_write`. -/
def moveToWrite (b : Bitstream) (pos : UInt32) : Bitstream :=
  if b.fail then b
  else if pos.toNat ≤ b.bytecode.length then { b with put := pos.toNat }
  else { b with fail := true }

/-- `move_to_end_write`. -/
def moveToEndWrite (b : Bitstream) : Bitstream :=
  if b.fail then b else { b with put := b.bytecode.length }

end Bitstream

/-- The bytes of a 32-bit word in the stream. -/
def wordBytes (w : UInt32) : List UInt8 := Bytes.encodeBE 4 w.toNat

/-- The bytes of a string in the stream; the length field keeps the low 32 bits. -/
def stringBytes (s : Str) : List UInt8 := wordBytes (UInt32.ofNat s.length) ++ s

@[simp] lemma length_wordBytes (w : UInt32) : (wordBytes w).length = 4 := by simp [wordBytes]

@[simp] lemma length_stringBytes (s : Str) : (stringBytes s).length = 4 + s.length := by
  simp [stringBytes]

namespace Bitstream

open Bytes

variable {b : Bitstream}

/-- Reading a segment that is there takes exactly its bytes. -/
lemma read_of_occursAt {seg : List UInt8} (hf : b.fail = false) (h : OccursAt seg b.bytecode b.get)
    (hpos : b.get ≤ b.bytecode.length) :
    b.read seg.length = (some seg, { b with get := b.get + seg.length }) := by
  have hle : b.get + seg.length ≤ b.bytecode.length := by
    by_cases hne : seg = []
    · simpa [hne] using hpos
    · exact length_le_of_occursAt h hne
  simp [read, hf, hle, take_drop_of_occursAt h]

lemma readWord_of_occursAt {w : UInt32} (hf : b.fail = false)
    (h : OccursAt (wordBytes w) b.bytecode b.get) :
    b.readWord = (some w, { b with get := b.get + 4 }) := by
  have hle := length_le_of_occursAt h (by simp [wordBytes, encodeBE])
  have hread := read_of_occursAt hf h (by omega)
  rw [length_wordBytes] at hread
  simp [readWord, hread, wordBytes]

lemma readString_of_occursAt {s : Str} (hf : b.fail = false) (hs : s.length < 2 ^ 32)
    (h : OccursAt (stringBytes s) b.bytecode b.get) :
    b.readString = (some s, { b with get := b.get + 4 + s.length }) := by
  rw [stringBytes, occursAt_append, length_wordBytes] at h
  obtain ⟨hw, hs'⟩ := h
  have hle := length_le_of_occursAt hw (by simp [wordBytes, encodeBE])
  rw [length_wordBytes] at hle
  have hlen : (UInt32.ofNat s.length).toNat = s.length := by
    simpa using Nat.mod_eq_of_lt hs
  have hread := read_of_occursAt (b := { b with get := b.get + 4 }) hf hs' hle
  simp [readString, readWord_of_occursAt hf hw, hlen, hread]

end Bitstream

end ContractPython
