/-!
Hexadecimal text: in lower case, as error messages show bytes and character codes, and in either
case, as escapes give characters.
-/
namespace JobBroker.Hex

def write (n : Nat) : String := String.ofList (Nat.toDigits 16 n)

def byte (b : UInt8) : String :=
  String.ofList [Nat.digitChar (b.toNat / 16), Nat.digitChar (b.toNat % 16)]

def value? (c : Char) : Option Nat :=
  if c.isDigit then some (c.toNat - 48)
  else if 'a' ≤ c && c ≤ 'f' then some (c.toNat - 87)
  else if 'A' ≤ c && c ≤ 'F' then some (c.toNat - 55)
  else none

def read? (count : Nat) (cs : List Char) : Option (Nat × List Char) := do
  let digits ← (cs.take count).mapM value?
  if digits.length = count then some (digits.foldl (fun n d => 16 * n + d) 0, cs.drop count)
  else none

end JobBroker.Hex
