/-!
Decimal numbers as peers spell them: ASCII digits, an optional leading plus, no blanks, and an
upper limit. Reading stops at the first digit that carries the value over the limit.
-/
namespace JobBroker.Decimal

def digits (n : Nat) : List Char := Nat.toDigits 10 n

def write (n : Nat) : String := String.ofList (digits n)

def digitValue (c : Char) : Nat := c.toNat - '0'.toNat

/-- Carry `value` on through the digits `cs`, never above `limit`. -/
def accumulate (limit : Nat) (value : Nat) : List Char → Option Nat
  | [] => some value
  | c :: cs =>
    if c.isDigit && 10 * value + digitValue c ≤ limit then
      accumulate limit (10 * value + digitValue c) cs
    else
      none

def readDigits? (limit : Nat) : List Char → Option Nat
  | [] => none
  | cs => accumulate limit 0 cs

/-- Read a number of at most `limit`; one plus may stand in front. -/
def read? (limit : Nat) : List Char → Option Nat
  | '+' :: cs => readDigits? limit cs
  | cs => readDigits? limit cs

def maxWord : Nat := UInt64.size - 1

def word? (s : String) : Option UInt64 := (read? maxWord s.toList).map UInt64.ofNat

end JobBroker.Decimal
