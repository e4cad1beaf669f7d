import Mathlib

/-!
# Base64

Three bytes are four digits of six bits. The digits can be of any type; a reader skips line breaks
and whatever else the alphabet tells it to.
-/

namespace Base64

/-- Sixty-four digits, the filler of a last group, and what a reader skips. -/
structure Alphabet (α : Type) where
  digits : List α
  skipped : α → Bool
  pad : α
  length_digits : digits.length = 64
  nodup : digits.Nodup
  plain : ∀ a ∈ digits, skipped a = false

namespace Alphabet

variable {α : Type} (A : Alphabet α)

/-- The digit for the lowest six bits of a number. -/
def digit (n : ℕ) : α :=
  A.digits.get ⟨n % 64, A.length_digits.symm ▸ Nat.mod_lt n (by decide)⟩

theorem digit_mem (n : ℕ) : A.digit n ∈ A.digits := List.get_mem _ _

variable [DecidableEq α]

def value (a : α) : Option ℕ := if a ∈ A.digits then some (A.digits.idxOf a) else none

theorem value_digit (n : ℕ) : A.value (A.digit n) = some (n % 64) := by
  rw [value, if_pos (A.digit_mem n), digit, List.get_idxOf A.nodup]

end Alphabet

/-! ## Bytes and six bits -/

/-- The six bits of each digit, without filler. -/
def sextets : List UInt8 → List ℕ
  | [] => []
  | [a] => [a.toNat / 4, a.toNat * 16]
  | [a, b] => [a.toNat / 4, a.toNat * 16 + b.toNat / 16, b.toNat * 4]
  | a :: b :: c :: rest =>
    a.toNat / 4 :: (a.toNat * 16 + b.toNat / 16) :: (b.toNat * 4 + c.toNat / 64) :: c.toNat ::
      sextets rest

/-- The bytes that the digits make up. A single digit is left over from no byte, and what is left
over in a last group of two or three is dropped. -/
def bytes : List ℕ → Option (List UInt8)
  | [] => some []
  | [_] => none
  | [a, b] => some [.ofNat (a * 4 + b / 16)]
  | [a, b, c] => some [.ofNat (a * 4 + b / 16), .ofNat (b * 16 + c / 4)]
  | a :: b :: c :: d :: rest =>
    (bytes rest).map fun tail =>
      .ofNat (a * 4 + b / 16) :: .ofNat (b * 16 + c / 4) :: .ofNat (c * 64 + d) :: tail

theorem ofNat_eq {n : ℕ} {a : UInt8} (h : n % 256 = a.toNat) : UInt8.ofNat n = a := by
  rw [← UInt8.toNat_inj, UInt8.toNat_ofNat', h]

variable (v : List UInt8)

/-- The bytes come back from the lowest six bits of each digit. -/
theorem bytes_sextets : bytes ((sextets v).map (· % 64)) = some v := by
  induction v using sextets.induct with
  | case1 => rfl
  | case2 a =>
    have ha := a.toNat_lt
    have h : UInt8.ofNat (a.toNat / 4 % 64 * 4 + a.toNat * 16 % 64 / 16) = a := ofNat_eq (by omega)
    simp only [sextets, List.map_cons, List.map_nil, bytes, h]
  | case3 a b =>
    have ha := a.toNat_lt
    have hb := b.toNat_lt
    have h₁ : UInt8.ofNat (a.toNat / 4 % 64 * 4 + (a.toNat * 16 + b.toNat / 16) % 64 / 16) = a :=
      ofNat_eq (by omega)
    have h₂ : UInt8.ofNat ((a.toNat * 16 + b.toNat / 16) % 64 * 16 + b.toNat * 4 % 64 / 4) = b :=
      ofNat_eq (by omega)
    simp only [sextets, List.map_cons, List.map_nil, bytes, h₁, h₂]
  | case4 a b c rest ih =>
    have ha := a.toNat_lt
    have hb := b.toNat_lt
    have hc := c.toNat_lt
    have h₁ : UInt8.ofNat (a.toNat / 4 % 64 * 4 + (a.toNat * 16 + b.toNat / 16) % 64 / 16) = a :=
      ofNat_eq (by omega)
    have h₂ : UInt8.ofNat ((a.toNat * 16 + b.toNat / 16) % 64 * 16 +
        (b.toNat * 4 + c.toNat / 64) % 64 / 4) = b := ofNat_eq (by omega)
    have h₃ : UInt8.ofNat ((b.toNat * 4 + c.toNat / 64) % 64 * 64 + c.toNat % 64) = c :=
      ofNat_eq (by omega)
    simp only [sextets, List.map_cons, bytes, ih, Option.map_some, h₁, h₂, h₃]

/-! ## Texts -/

section Texts

variable {α : Type} [DecidableEq α] (A : Alphabet α)

/-- The text of some bytes, without filler. -/
def encode (v : List UInt8) : List α := (sextets v).map A.digit

/-- Reads a text without filler. -/
def decode (text : List α) : Option (List UInt8) :=
  ((text.filter (! A.skipped ·)).mapM A.value).bind bytes

/-- Reads a text whose last group is filled up. -/
def decodePadded (text : List α) : Option (List UInt8) :=
  let text := text.filter (! A.skipped ·)
  let body := text.takeWhile (· ≠ A.pad)
  if text.dropWhile (· ≠ A.pad) = List.replicate ((4 - body.length % 4) % 4) A.pad then
    (body.mapM A.value).bind bytes
  else none

theorem mapM_value_map_digit (ns : List ℕ) :
    (ns.map A.digit).mapM A.value = some (ns.map (· % 64)) := by
  induction ns with
  | nil => rfl
  | cons n ns ih => simp [A.value_digit, ih]

theorem decode_encode : decode A (encode A v) = some v := by
  have hkept : ((sextets v).map A.digit).filter (! A.skipped ·) = (sextets v).map A.digit := by
    refine List.filter_eq_self.2 fun a ha => ?_
    obtain ⟨n, -, rfl⟩ := List.mem_map.1 ha
    rw [A.plain _ (A.digit_mem n), Bool.not_false]
  rw [decode, encode, hkept, mapM_value_map_digit, Option.bind_some, bytes_sextets]

end Texts

end Base64
