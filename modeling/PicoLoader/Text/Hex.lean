/-!
# Hexadecimal text

Addresses, command ids and device ids are shown in lower-case hexadecimal. Three forms occur, and
they differ in the marker `0x` and in the least number of digits:

* `PicoLoader.Hex.number` – marker and as few digits as the number needs (`0x20000000`, `0x0`);
* `PicoLoader.Hex.byte` – marker and at least two digits (`0x05`);
* `PicoLoader.Hex.word` – at least four digits and no marker (`2e8a`).
-/

namespace PicoLoader.Hex

/-- The digits of `n`, with zeros in front up to `least` of them. -/
def digits (least n : Nat) : List Char :=
  let ds := Nat.toDigits 16 n
  List.replicate (least - ds.length) '0' ++ ds

/-- The form of an address: the marker and the digits of the number. -/
def number (n : Nat) : String :=
  "0x" ++ String.ofList (digits 1 n)

/-- The form of a command id: the marker and at least two digits. -/
def byte (n : Nat) : String :=
  "0x" ++ String.ofList (digits 2 n)

/-- The form of a vendor or product id: at least four digits. -/
def word (n : Nat) : String :=
  String.ofList (digits 4 n)

end PicoLoader.Hex
