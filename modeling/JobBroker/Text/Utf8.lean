/-!
Byte strings and their reading as UTF-8. The strict reading refuses any fault; the lenient one
puts a replacement character for each longest piece that could have begun a character.
-/
namespace JobBroker

abbrev Bytes := List UInt8

namespace Text

def utf8 (cs : List Char) : Bytes := cs.flatMap String.utf8EncodeChar

def bytes (s : String) : Bytes := s.toByteArray.data.toList

def decode? (b : Bytes) : Option String := String.fromUTF8? b.toByteArray

def replacement : Char := '\uFFFD'

structure ByteRange where
  first : UInt8
  last : UInt8

def ByteRange.contains (r : ByteRange) (b : UInt8) : Bool := r.first ≤ b && b ≤ r.last

def following : ByteRange := ⟨0x80, 0xBF⟩

def continuations (lead : UInt8) : Option (List ByteRange) :=
  if lead < 0x80 then some []
  else if lead < 0xC2 then none
  else if lead < 0xE0 then some [following]
  else if lead = 0xE0 then some [⟨0xA0, 0xBF⟩, following]
  else if lead = 0xED then some [⟨0x80, 0x9F⟩, following]
  else if lead < 0xF0 then some [following, following]
  else if lead = 0xF0 then some [⟨0x90, 0xBF⟩, following, following]
  else if lead < 0xF4 then some [following, following, following]
  else if lead = 0xF4 then some [⟨0x80, 0x8F⟩, following, following]
  else none

def leadBits (lead : UInt8) : Nat :=
  if lead < 0x80 then lead.toNat
  else if lead < 0xE0 then lead.toNat % 32
  else if lead < 0xF0 then lead.toNat % 16
  else lead.toNat % 8

/-- The lenient reader: the characters read, newest first, and the character that is open. -/
structure Lenient where
  done : List Char := []
  bits : Nat := 0
  expected : List ByteRange := []

namespace Lenient

def lead (s : Lenient) (b : UInt8) : Lenient :=
  match continuations b with
  | none => { done := replacement :: s.done }
  | some [] => { done := Char.ofNat (leadBits b) :: s.done }
  | some expected => { done := s.done, bits := leadBits b, expected := expected }

/-- Read one byte. One that cannot continue the open character ends it and begins anew. -/
def push (s : Lenient) (b : UInt8) : Lenient :=
  match s.expected with
  | [] => s.lead b
  | r :: rest =>
    if r.contains b then
      let bits := s.bits * 64 + b.toNat % 64
      match rest with
      | [] => { done := Char.ofNat bits :: s.done }
      | _ :: _ => { done := s.done, bits := bits, expected := rest }
    else
      { s with done := replacement :: s.done }.lead b

def finish (s : Lenient) : List Char :=
  match s.expected with
  | [] => s.done.reverse
  | _ :: _ => (replacement :: s.done).reverse

end Lenient

def decodeLossy (b : Bytes) : List Char := (b.foldl Lenient.push {}).finish

end Text
end JobBroker
