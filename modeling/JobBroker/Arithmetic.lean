/-!
Sums of 64-bit numbers. What becomes of a sum that does not fit depends on how the program was
built: with checks the program panics, without them it goes on with the last 64 bits.
-/
namespace JobBroker

inductive Build where
  | checked
  | wrapping
  deriving DecidableEq, Repr

inductive Panic where
  | addOverflow
  deriving DecidableEq, Repr

def Panic.message : Panic → String
  | addOverflow => "attempt to add with overflow"

namespace Build

def add (build : Build) (m n : UInt64) : Except Panic UInt64 :=
  match build with
  | checked => if m.toNat + n.toNat < UInt64.size then .ok (m + n) else .error .addOverflow
  | wrapping => .ok (m + n)

def sumFrom (build : Build) (total : UInt64) : List UInt64 → Except Panic UInt64
  | [] => .ok total
  | n :: ns =>
    match build.add total n with
    | .error panic => .error panic
    | .ok total => sumFrom build total ns

def sum (build : Build) (ns : List UInt64) : Except Panic UInt64 := build.sumFrom 0 ns

end Build
end JobBroker
