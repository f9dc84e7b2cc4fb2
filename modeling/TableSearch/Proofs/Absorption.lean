import TableSearch.Keccak.Sponge

/-!
# Taking in a message piece by piece

Bytes divide into whole blocks and a rest that is shorter than a block. `Division.absorb_append`
says that the state after some bytes depends on their blocks alone, and that the rest goes in front
of the bytes that follow. With it a hasher stands for the message that it has taken in,
`Hasher.Holds`: each piece moves it on by that piece, and its digest is that of the message, since
the padding of a message depends on its rest alone. The padded message has no rest, so that the
digest is what its blocks leave behind, `exists_blocks_hash`.
-/

namespace TableSearch.Keccak

/-- The state after taking in blocks one by one. -/
def addBlocks (s : State) (blocks : List (List UInt8)) : State :=
  blocks.foldl (fun s block => permute (addBlock s block)) s

theorem addBlocks_cons (s : State) (block : List UInt8) (blocks : List (List UInt8)) :
    addBlocks s (block :: blocks) = addBlocks (permute (addBlock s block)) blocks := by
  rw [addBlocks, List.foldl_cons, addBlocks]

/-- Bytes are whole blocks and then a rest that does not fill one. -/
structure Division (bytes : List UInt8) (blocks : List (List UInt8)) (rest : List UInt8) :
    Prop where
  whole : ∀ block ∈ blocks, block.length = blockSize
  short : rest.length < blockSize
  joined : blocks.flatten ++ rest = bytes

/-! ## Blocks -/

theorem absorb_of_short (s : State) {bytes : List UInt8} (short : bytes.length < blockSize) :
    absorb s bytes = (s, bytes) := by
  rw [absorb, if_neg (Nat.not_le_of_lt short)]

theorem absorb_block_append (s : State) {block : List UInt8} (rest : List UInt8)
    (whole : block.length = blockSize) :
    absorb s (block ++ rest) = absorb (permute (addBlock s block)) rest := by
  have long : blockSize ≤ (block ++ rest).length := by
    rw [List.length_append, whole]
    exact Nat.le_add_right _ _
  rw [absorb, if_pos long, ← whole, List.take_left, List.drop_left]

theorem absorb_flatten_append (s : State) {blocks : List (List UInt8)} (rest : List UInt8)
    (whole : ∀ block ∈ blocks, block.length = blockSize) :
    absorb s (blocks.flatten ++ rest) = absorb (addBlocks s blocks) rest := by
  induction blocks generalizing s with
  | nil => rfl
  | cons block blocks ih =>
    rw [List.flatten_cons, List.append_assoc,
      absorb_block_append s _ (whole block List.mem_cons_self),
      ih _ fun later mem => whole later (List.mem_cons_of_mem block mem), addBlocks_cons]

/-- All bytes divide. -/
theorem exists_division (bytes : List UInt8) :
    ∃ (blocks : List (List UInt8)) (rest : List UInt8), Division bytes blocks rest := by
  induction length : bytes.length using Nat.strongRecOn generalizing bytes with
  | ind _ ih =>
    by_cases short : bytes.length < blockSize
    · exact ⟨[], bytes, fun _ mem => absurd mem List.not_mem_nil, short, rfl⟩
    · -- the first block, and what is left after it
      have first : (bytes.take blockSize).length = blockSize :=
        List.length_take_of_le (Nat.le_of_not_lt short)
      have fewer : (bytes.drop blockSize).length < bytes.length := by
        rw [List.length_drop]
        unfold blockSize at short ⊢
        omega
      obtain ⟨blocks, rest, whole, restShort, joined⟩ := ih _ (length ▸ fewer) _ rfl
      refine ⟨bytes.take blockSize :: blocks, rest, ?_, restShort, ?_⟩
      · exact List.forall_mem_cons.mpr ⟨first, whole⟩
      · rw [List.flatten_cons, List.append_assoc, joined, List.take_append_drop]

theorem length_flatten_of_whole {blocks : List (List UInt8)}
    (whole : ∀ block ∈ blocks, block.length = blockSize) :
    blocks.flatten.length = blockSize * blocks.length := by
  induction blocks with
  | nil => rfl
  | cons block blocks ih =>
    have first : block.length = blockSize := whole block List.mem_cons_self
    rw [List.flatten_cons, List.length_append, first,
      ih fun later mem => whole later (List.mem_cons_of_mem block mem), List.length_cons,
      Nat.mul_succ, Nat.add_comm]

namespace Division

variable {bytes rest : List UInt8} {blocks : List (List UInt8)}

theorem absorb_eq (d : Division bytes blocks rest) (s : State) :
    absorb s bytes = (addBlocks s blocks, rest) := by
  rw [← d.joined, absorb_flatten_append s rest d.whole, absorb_of_short _ d.short]

/-- The rest of the bytes taken in goes in front of those that follow. -/
theorem absorb_append (d : Division bytes blocks rest) (s : State) (behind : List UInt8) :
    absorb s (bytes ++ behind) = absorb (addBlocks s blocks) (rest ++ behind) := by
  rw [← d.joined, List.append_assoc, absorb_flatten_append s _ d.whole]

theorem length_rest (d : Division bytes blocks rest) : rest.length = bytes.length % blockSize := by
  rw [← d.joined, List.length_append, length_flatten_of_whole d.whole, Nat.mul_add_mod,
    Nat.mod_eq_of_lt d.short]

end Division

/-- Taking in bytes and then more is taking in all of them. -/
theorem absorb_append (s : State) (bytes behind : List UInt8) :
    absorb s (bytes ++ behind) = absorb (absorb s bytes).1 ((absorb s bytes).2 ++ behind) := by
  obtain ⟨blocks, rest, d⟩ := exists_division bytes
  rw [d.absorb_append s behind, d.absorb_eq s]

theorem length_absorb_snd (s : State) (bytes : List UInt8) :
    (absorb s bytes).2.length = bytes.length % blockSize := by
  obtain ⟨blocks, rest, d⟩ := exists_division bytes
  rw [d.absorb_eq s, d.length_rest]

/-! ## Padding -/

/-- The bytes that close a message: one bit at once, one bit at the end of the block, and `gap`
bytes from the first to the last. -/
def closing (gap : Nat) : List UInt8 :=
  (0x01 :: List.replicate gap 0).modify gap fun last => last ||| 0x80

theorem length_closing (gap : Nat) : (closing gap).length = gap + 1 := by
  rw [closing, List.length_modify, List.length_cons, List.length_replicate]

/-- The last of the zero bytes takes the bit at the end. -/
theorem modify_replicate_zero (n : Nat) :
    (List.replicate (n + 1) (0 : UInt8)).modify n (fun last => last ||| 0x80) =
      List.replicate n 0 ++ [0x80] := by
  induction n with
  | zero => rfl
  | succ n ih => rw [List.replicate_succ, List.modify_succ_cons, ih, List.replicate_succ,
      List.cons_append]

theorem padding_eq_closing (length : Nat) :
    padding length = closing (blockSize - 1 - length % blockSize) := by
  have small : length % blockSize < blockSize := Nat.mod_lt _ (by decide)
  cases between : blockSize - 1 - length % blockSize with
  | zero =>
    have one : blockSize - length % blockSize = 1 := by omega
    rw [padding, if_pos one]
    rfl
  | succ n =>
    have gap : blockSize - length % blockSize = n + 2 := by omega
    have several : n + 2 ≠ 1 := by omega
    rw [padding, gap, if_neg several, Nat.add_sub_cancel, closing, List.modify_succ_cons,
      modify_replicate_zero]

/-- The padding depends on the rest of a message alone. -/
theorem padding_mod (length : Nat) : padding (length % blockSize) = padding length := by
  rw [padding, padding, Nat.mod_mod]

theorem length_padding (length : Nat) :
    (length + (padding length).length) % blockSize = 0 := by
  have small : length % blockSize < blockSize := Nat.mod_lt _ (by decide)
  rw [padding_eq_closing, length_closing]
  unfold blockSize at small ⊢
  omega

/-- The digest is what the blocks of the padded message leave behind. -/
theorem exists_blocks_hash (message : List UInt8) :
    ∃ blocks : List (List UInt8), (∀ block ∈ blocks, block.length = blockSize) ∧
      blocks.flatten = message ++ closing (blockSize - 1 - message.length % blockSize) ∧
      hash message = squeeze (addBlocks start blocks) := by
  obtain ⟨blocks, rest, d⟩ := exists_division (message ++ padding message.length)
  have none : rest = [] := by
    apply List.eq_nil_of_length_eq_zero
    rw [d.length_rest, List.length_append, length_padding]
  refine ⟨blocks, d.whole, ?_, ?_⟩
  · rw [← padding_eq_closing, ← d.joined, none, List.append_nil]
  · rw [hash, d.absorb_eq]

/-- The digest of the empty message. -/
example : hash [] =
    [0xc5, 0xd2, 0x46, 0x01, 0x86, 0xf7, 0x23, 0x3c, 0x92, 0x7e, 0x7d, 0xb2, 0xdc, 0xc7, 0x03, 0xc0,
     0xe5, 0x00, 0xb6, 0x53, 0xca, 0x82, 0x27, 0x3b, 0x7b, 0xfa, 0xd8, 0x04, 0x5d, 0x85, 0xa4,
     0x70] := by decide +kernel

@[simp] theorem length_squeeze (s : State) : (squeeze s).length = 32 := by
  have lanes : (s.toList.take 4).length = 4 := by
    rw [List.length_take, Vector.length_toList]
    decide
  simp only [squeeze, List.length_flatMap, length_littleEndian, List.map_const', lanes]
  decide

@[simp] theorem length_hash (message : List UInt8) : (hash message).length = 32 :=
  length_squeeze _

/-! ## The hasher -/

namespace Hasher

/-- The hasher stands for a message: it is in the state after it. -/
def Holds (h : Hasher) (message : List UInt8) : Prop :=
  absorb start message = (h.state, h.pending)

variable {h : Hasher} {message : List UInt8}

theorem holds_nil : ({} : Hasher).Holds [] :=
  absorb_of_short start (by decide)

theorem Holds.update (holds : h.Holds message) (piece : List UInt8) :
    (h.update piece).Holds (message ++ piece) := by
  rw [Holds, absorb_append, holds]
  rfl

theorem Holds.foldl_update (holds : h.Holds message) (pieces : List (List UInt8)) :
    (pieces.foldl Hasher.update h).Holds (message ++ pieces.flatten) := by
  induction pieces generalizing h message with
  | nil => rwa [List.flatten_nil, List.append_nil]
  | cons piece pieces ih =>
    rw [List.flatten_cons, ← List.append_assoc]
    exact ih (holds.update piece)

theorem Holds.finish_eq (holds : h.Holds message) : h.finish = hash message := by
  have pending : h.pending.length = message.length % blockSize := by
    rw [← length_absorb_snd start message, holds]
  rw [Hasher.finish, hash, absorb_append start message, holds, pending, padding_mod]

/-- The digest of a message does not depend on the pieces it comes in. -/
theorem finish_foldl_update (pieces : List (List UInt8)) :
    (pieces.foldl Hasher.update {}).finish = hash pieces.flatten :=
  (holds_nil.foldl_update pieces).finish_eq

end Hasher

end TableSearch.Keccak
