/-!
# Little-endian numbers

The device protocol and the image format both write a number as a fixed count of bytes, the least
significant first. This file holds the one reader and the one writer that all fields use:

* `PicoLoader.LittleEndian.decode` – the number that a list of bytes spells;
* `PicoLoader.LittleEndian.encode` – the `width` bytes that spell a number;
* `PicoLoader.LittleEndian.field` – the number spelt at an offset of a longer list.

Reading and then writing gives the bytes back (`encode_decode`). The other direction holds up to
what the width can hold: `PicoLoader.LittleEndian.decode_encode` in
`PicoLoader.Proofs.LittleEndian`.
-/

namespace PicoLoader.LittleEndian

/-- The number that `bytes` spell, the least significant byte first. -/
def decode : List UInt8 → Nat
  | [] => 0
  | b :: bs => b.toNat + 256 * decode bs

/-- The `width` bytes that spell `n`, the least significant first. What does not fit is dropped. -/
def encode : Nat → Nat → List UInt8
  | 0, _ => []
  | width + 1, n => UInt8.ofNat n :: encode width (n / 256)

/-- The number that the `width` bytes at `offset` spell; bytes past the end count as zero. -/
def field (bytes : List UInt8) (offset width : Nat) : Nat :=
  decode ((bytes.drop offset).take width)

@[simp] theorem length_encode (width n : Nat) : (encode width n).length = width := by
  induction width generalizing n with
  | zero => rfl
  | succ width ih => simp [encode, ih]

/-- **Reading, then writing** at the same width, gives the bytes back. -/
theorem encode_decode (bytes : List UInt8) : encode bytes.length (decode bytes) = bytes := by
  induction bytes with
  | nil => rfl
  | cons b bs ih =>
    have hb := b.toNat_lt
    have hq : (b.toNat + 256 * decode bs) / 256 = decode bs := by omega
    have hr : UInt8.ofNat (b.toNat + 256 * decode bs) = b := by
      apply UInt8.toNat_inj.mp
      rw [UInt8.toNat_ofNat']
      omega
    simp only [List.length_cons, encode, decode, hq, hr, ih]

end PicoLoader.LittleEndian
