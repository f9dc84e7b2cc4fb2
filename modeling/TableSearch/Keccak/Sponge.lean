import TableSearch.Bytes.LittleEndian
import TableSearch.Keccak.Permutation

/-!
# Keccak-256

A message is taken in blocks of 136 bytes. Each block is added to the first seventeen lanes of the
state, which is then permuted; the digest is the first four lanes. The last block is filled up
with one bit at the end of the message and one at the end of the block, the first of them in a
byte of value 1. `hash` takes a message at once, and `Hasher` takes it piece by piece, keeping the
bytes that do not fill a block yet.
-/

namespace TableSearch.Keccak

/-- The bytes of one block. -/
def blockSize : Nat := 136

/-- The state before any block. -/
def start : State := Vector.replicate 25 0

/-- Adds a block to the state. -/
def addBlock (s : State) (block : List UInt8) : State :=
  Vector.ofFn fun i =>
    if i.val < 17 then
      s.get i ^^^ UInt64.ofNat (ofLittleEndian ((block.drop (8 * i)).take 8))
    else s.get i

/-- Takes in all whole blocks of `bytes`, and returns the bytes left over with the state. -/
def absorb (s : State) (bytes : List UInt8) : State × List UInt8 :=
  if blockSize ≤ bytes.length then
    absorb (permute (addBlock s (bytes.take blockSize))) (bytes.drop blockSize)
  else (s, bytes)
termination_by bytes.length
decreasing_by
  simp only [List.length_drop, blockSize] at *
  omega

/-- What fills a message of `length` bytes up to whole blocks. -/
def padding (length : Nat) : List UInt8 :=
  let gap := blockSize - length % blockSize
  if gap = 1 then [0x81] else 0x01 :: (List.replicate (gap - 2) 0 ++ [0x80])

/-- The digest that a state holds. -/
def squeeze (s : State) : List UInt8 :=
  (s.toList.take 4).flatMap fun lane => littleEndian 8 lane.toNat

/-- The digest of a message. -/
def hash (message : List UInt8) : List UInt8 :=
  squeeze (absorb start (message ++ padding message.length)).1

/-- A message that is being taken in: the state after its whole blocks, and the bytes after
those. -/
structure Hasher where
  state : State := start
  pending : List UInt8 := []

namespace Hasher

/-- Takes in the next piece of the message. -/
def update (h : Hasher) (piece : List UInt8) : Hasher :=
  let (state, pending) := absorb h.state (h.pending ++ piece)
  ⟨state, pending⟩

/-- The digest of all pieces taken in. -/
def finish (h : Hasher) : List UInt8 :=
  squeeze (absorb h.state (h.pending ++ padding h.pending.length)).1

end Hasher

end TableSearch.Keccak
