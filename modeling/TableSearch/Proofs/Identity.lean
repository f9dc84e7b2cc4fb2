import Mathlib.Data.List.Basic
import TableSearch.Digest
import TableSearch.Proofs.Absorption
import TableSearch.Proofs.BinaryForm

/-!
# What a digest identifies

The pieces that the hasher of an image takes in are, joined, the binary form of the image, although
the two are written by different functions. The digest is therefore the hash of that form, and since
an image can be read back from its form, two images with one digest are the same image, or their
forms are a collision of the hash.
-/

namespace TableSearch

/-- Two different messages with one digest. -/
structure Keccak.Collision (first second : List UInt8) : Prop where
  differ : first ≠ second
  same : Keccak.hash first = Keccak.hash second

/-- The digits that bytes are written in. -/
def Hex.IsLower (c : Char) : Prop := '0' ≤ c ∧ c ≤ '9' ∨ 'a' ≤ c ∧ c ≤ 'f'

instance : DecidablePred Hex.IsLower := fun c =>
  inferInstanceAs (Decidable ('0' ≤ c ∧ c ≤ '9' ∨ 'a' ≤ c ∧ c ≤ 'f'))

theorem Hex.isLower_of_mem_encode {bytes : List UInt8} {c : Char} (mem : c ∈ Hex.encode bytes) :
    Hex.IsLower c := by
  have lower : ∀ n < 16, Hex.IsLower (Hex.digit n) := by decide
  obtain ⟨n, small, rfl⟩ := Hex.exists_digit_of_mem_encode mem
  exact lower n small

namespace Image

/-! ## The pieces -/

/-- What the hasher of an image takes in, one after the other. -/
def pieces (m : Image) : List (List UInt8) :=
  littleEndian 4 m.right.toNat :: littleEndian 4 m.failed.toNat :: littleEndian 8 m.table.size ::
    m.table.values.toList.map Binary.ofValue

theorem digest_eq_finish (m : Image) :
    m.digest = (m.pieces.foldl Keccak.Hasher.update {}).finish := by
  rw [digest, ← Array.foldl_toList, pieces, List.foldl_cons, List.foldl_cons, List.foldl_cons,
    List.foldl_map]

theorem flatten_pieces (m : Image) : m.pieces.flatten = Binary.ofImage m := by
  have size : m.table.values.toList.length = m.table.size := Array.length_toList
  rw [pieces, Binary.ofImage, Binary.ofParts, Binary.ofConfig, Binary.ofValues, size,
    List.flatten_cons, List.flatten_cons, List.flatten_cons, List.flatMap_def, List.append_assoc]
  rfl

theorem digest_eq_hash (m : Image) : m.digest = Keccak.hash (Binary.ofImage m) := by
  rw [digest_eq_finish, Keccak.Hasher.finish_foldl_update, flatten_pieces]

/-! ## Different images -/

/-- An image is read back from its form, so that no two images share one. -/
theorem ofImage_inj {m n : Image} : Binary.ofImage m = Binary.ofImage n ↔ m = n := by
  constructor
  · intro same
    have first := Binary.decode_ofImage m []
    have second := Binary.decode_ofImage n []
    rw [same] at first
    exact Except.ok.inj (first.symm.trans second)
  · exact congrArg Binary.ofImage

theorem digest_eq_iff {m n : Image} :
    m.digest = n.digest ↔ m = n ∨ Keccak.Collision (Binary.ofImage m) (Binary.ofImage n) := by
  rw [digest_eq_hash, digest_eq_hash]
  constructor
  · intro same
    by_cases forms : Binary.ofImage m = Binary.ofImage n
    · exact Or.inl (ofImage_inj.mp forms)
    · exact Or.inr ⟨forms, same⟩
  · rintro (rfl | collision)
    · rfl
    · exact collision.same

/-! ## The digest as text -/

theorem toList_digestHex (m : Image) : m.digestHex.toList = Hex.encode m.digest := by
  rw [digestHex, String.toList_ofList]

theorem length_digestHex (m : Image) : m.digestHex.length = 64 := by
  rw [← String.length_toList, toList_digestHex, Hex.length_encode, digest_eq_hash,
    Keccak.length_hash]

/-- The digest identifies the binary form of an image. The pieces of the image, taken in one after
the other, give what hashing the form at once gives, and that is what the form leaves behind when
it is closed and cut into blocks; the pieces of two images are the same bytes exactly when the
images have the same constants and table, so that two digests differ only where these do, and agree
elsewhere only in a collision. Its text is sixty-four lower-case digits that are read back as the
digest. -/
theorem digest_identifies :
    (∀ m : Image,
      m.digest = (m.pieces.foldl Keccak.Hasher.update {}).finish ∧
      m.digest = Keccak.hash (Binary.ofImage m) ∧
      ∃ blocks : List (List UInt8), (∀ block ∈ blocks, block.length = 136) ∧
        blocks.flatten =
          Binary.ofImage m ++ Keccak.closing (135 - (Binary.ofImage m).length % 136) ∧
        m.digest = Keccak.squeeze (Keccak.addBlocks Keccak.start blocks)) ∧
      (∀ m n : Image, m.pieces.flatten = n.pieces.flatten ↔
        m.config = n.config ∧ m.table = n.table) ∧
      (∀ m n : Image, m.digest = n.digest ↔
        m.config = n.config ∧ m.table = n.table ∨
          Keccak.Collision (Binary.ofImage m) (Binary.ofImage n)) ∧
      ∀ m : Image, m.digestHex.length = 64 ∧ (∀ c ∈ m.digestHex.toList, Hex.IsLower c) ∧
        Hex.decode? m.digestHex.toList = some m.digest := by
  refine ⟨fun m => ⟨digest_eq_finish m, digest_eq_hash m, ?_⟩, fun m n => ?_, fun m n => ?_,
    fun m => ⟨length_digestHex m, ?_, ?_⟩⟩
  · rw [digest_eq_hash]
    exact Keccak.exists_blocks_hash (Binary.ofImage m)
  · rw [flatten_pieces, flatten_pieces, ofImage_inj, Image.ext_iff]
  · rw [digest_eq_iff, Image.ext_iff]
  · intro c mem
    rw [toList_digestHex] at mem
    exact Hex.isLower_of_mem_encode mem
  · rw [toList_digestHex, Hex.decode?_encode]

/-- An image whose form fills one block, so that a second one closes it, and the image with another
answer for an absent target. -/
theorem digest_identifies_full_block :
    ∃ m n : Image, (Binary.ofImage m).length = 136 ∧ m.table = n.table ∧
      m.pieces.flatten ≠ n.pieces.flatten ∧
      (∃ first second : List UInt8, first.length = 136 ∧ second.length = 136 ∧
        first ++ second = Binary.ofImage m ++ Keccak.closing 135 ∧
        m.digest = Keccak.squeeze (Keccak.addBlocks Keccak.start [first, second])) ∧
      (∃ c ∈ m.digestHex.toList, Hex.IsLower c) ∧
      Hex.decode? m.digestHex.toList = some m.digest := by
  let t : Table := ⟨#[0, 1, 2, 3, 4, 5, 6, 7, 8, 9, 10, 11, 12, 13, 14], by decide, by decide,
    by decide⟩
  let m : Image := ⟨⟨15, 15⟩, t, by decide, by decide⟩
  let n : Image := ⟨⟨15, 16⟩, t, by decide, by decide⟩
  have full : (Binary.ofImage m).length = 136 := by decide +kernel
  obtain ⟨forms, pieces, -, texts⟩ := digest_identifies
  obtain ⟨-, -, blocks, whole, joined, digest⟩ := forms m
  obtain ⟨length, lower, decoded⟩ := texts m
  rw [full] at joined
  -- the closed form has the length of two blocks
  have two : blocks.length = 2 := by
    have lengths := congrArg List.length joined
    rw [Keccak.length_flatten_of_whole whole, List.length_append, full,
      Keccak.length_closing] at lengths
    unfold Keccak.blockSize at lengths
    omega
  obtain ⟨first, second, rfl⟩ := List.length_eq_two.mp two
  refine ⟨m, n, full, rfl, ?_, ⟨first, second, whole _ List.mem_cons_self, ?_, ?_, digest⟩, ?_,
    decoded⟩
  · intro same
    exact absurd ((pieces m n).mp same).1 (by decide)
  · exact whole _ (List.mem_cons_of_mem _ List.mem_cons_self)
  · rw [← joined, List.flatten_cons, List.flatten_cons, List.flatten_nil, List.append_nil]
  · have some : m.digestHex.toList ≠ [] := by
      apply List.ne_nil_of_length_pos
      rw [String.length_toList, length]
      decide
    exact ⟨_, List.head_mem some, lower _ (List.head_mem some)⟩

end Image

end TableSearch
