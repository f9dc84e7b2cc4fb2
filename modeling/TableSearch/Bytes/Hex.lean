/-!
# Hexadecimal text

Bytes are written as two lower-case digits each, the high half first. Reading takes digits of
either case, and `Hex.decode?_encode` says that it gives back the bytes that were written.
-/

namespace TableSearch.Hex

/-- The digit of a number below sixteen. -/
def digit (n : Nat) : Char := Nat.digitChar n

/-- The number that a digit of either case stands for. -/
def value? (c : Char) : Option Nat :=
  if '0' ≤ c ∧ c ≤ '9' then some (c.toNat - 48)
  else if 'a' ≤ c ∧ c ≤ 'f' then some (c.toNat - 87)
  else if 'A' ≤ c ∧ c ≤ 'F' then some (c.toNat - 55)
  else none

/-- Bytes as digits, two for each byte. -/
def encode : List UInt8 → List Char
  | [] => []
  | b :: rest => digit (b.toNat / 16) :: digit (b.toNat % 16) :: encode rest

/-- The bytes that digits stand for, two for each byte. -/
def decode? : List Char → Option (List UInt8)
  | [] => some []
  | [_] => none
  | high :: low :: rest => do
    let h ← value? high
    let l ← value? low
    return UInt8.ofNat (16 * h + l) :: (← decode? rest)

theorem value?_digit : ∀ n < 16, value? (digit n) = some n := by decide

/-- Digits are read back as the bytes that they were written from. -/
@[simp] theorem decode?_encode (bytes : List UInt8) : decode? (encode bytes) = some bytes := by
  induction bytes with
  | nil => rfl
  | cons b rest ih =>
    have small : b.toNat < 256 := b.toNat_lt
    have high := value?_digit (b.toNat / 16) (by omega)
    have low := value?_digit (b.toNat % 16) (by omega)
    have whole : UInt8.ofNat (16 * (b.toNat / 16) + b.toNat % 16) = b := by
      rw [Nat.div_add_mod, UInt8.ofNat_toNat]
    simp only [encode, decode?, high, low, ih, whole, Option.bind_eq_bind, Option.bind_some,
      Option.pure_def]

@[simp] theorem length_encode (bytes : List UInt8) : (encode bytes).length = 2 * bytes.length := by
  induction bytes with
  | nil => rfl
  | cons b rest ih => simp only [encode, List.length_cons, ih]; omega

theorem exists_digit_of_mem_encode {bytes : List UInt8} {c : Char} (mem : c ∈ encode bytes) :
    ∃ n < 16, c = digit n := by
  induction bytes with
  | nil => cases mem
  | cons b rest ih =>
    have small : b.toNat < 256 := b.toNat_lt
    rw [encode, List.mem_cons, List.mem_cons] at mem
    rcases mem with high | low | later
    · exact ⟨b.toNat / 16, by omega, high⟩
    · exact ⟨b.toNat % 16, by omega, low⟩
    · exact ih later

end TableSearch.Hex
