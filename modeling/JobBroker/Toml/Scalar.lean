import JobBroker.Toml.Text
/-!
Numbers, dates and times of a TOML document. Integers are 64-bit; a floating-point number is
refused only where it is too large, and a date where the calendar has no such day.
-/
namespace JobBroker.Toml

abbrev Scan := List Char → Option (List Char)

def digitRun (isDigit : Char → Bool) : List Char → List Char × List Char
  | '_' :: c :: cs =>
    if isDigit c then
      let (ds, rest) := digitRun isDigit cs
      (c :: ds, rest)
    else ([], '_' :: c :: cs)
  | c :: cs =>
    if isDigit c then
      let (ds, rest) := digitRun isDigit cs
      (c :: ds, rest)
    else ([], c :: cs)
  | [] => ([], [])

def digits? (isDigit : Char → Bool) (cs : List Char) : Option (List Char × List Char) :=
  match cs with
  | c :: _ => if isDigit c then some (digitRun isDigit cs) else none
  | [] => none

def valueOf (base : Nat) (ds : List Char) : Nat :=
  ds.foldl (fun n d => base * n + (Hex.value? d).getD 0) 0

def sign : List Char → Bool × List Char
  | '-' :: cs => (true, cs)
  | '+' :: cs => (false, cs)
  | cs => (false, cs)

def decimal? (cs : List Char) : Option (Bool × List Char × List Char) :=
  match sign cs with
  | (negative, '0' :: rest) => some (negative, ['0'], rest)
  | (negative, cs) => (digits? Char.isDigit cs).map fun (ds, rest) => (negative, ds, rest)

def inWord (n : Int) : Option Value :=
  if Int64.minValue.toInt ≤ n ∧ n ≤ Int64.maxValue.toInt then some (.integer n) else none

def based (base : Nat) (isDigit : Char → Bool) (cs : List Char) :
    Option (Value × List Char) := do
  let (ds, rest) ← digits? isDigit cs
  let v ← inWord (valueOf base ds)
  some (v, rest)

def integer? : List Char → Option (Value × List Char)
  | '0' :: 'x' :: cs => based 16 (fun c => (Hex.value? c).isSome) cs
  | '0' :: 'o' :: cs => based 8 (fun c => '0' ≤ c && c ≤ '7') cs
  | '0' :: 'b' :: cs => based 2 (fun c => c == '0' || c == '1') cs
  | cs => do
    let (negative, ds, rest) ← decimal? cs
    let n : Int := valueOf 10 ds
    let v ← inWord (if negative then -n else n)
    some (v, rest)

def fraction? : List Char → Option (List Char × List Char)
  | '.' :: cs => digits? Char.isDigit cs
  | cs => some ([], cs)

def exponent? : List Char → Option (Option Int × List Char)
  | c :: cs =>
    if c == 'e' || c == 'E' then do
      let (negative, cs) := sign cs
      let (ds, rest) ← digits? Char.isDigit cs
      let n : Int := valueOf 10 ds
      some (some (if negative then -n else n), rest)
    else some (none, c :: cs)
  | [] => some (none, [])

def floatBound : Nat := (1 <<< 1024) - (1 <<< 970)

/-- Whether digits times a power of ten exceed the finite 64-bit numbers. -/
def isTooLarge (ds : List Char) (exponent : Int) : Bool :=
  let ds := ds.dropWhile (· == '0')
  let place := (ds.length : Int) + exponent
  if ds.isEmpty || place < 308 then false
  else if 310 < place then true
  else if 0 ≤ exponent then floatBound ≤ valueOf 10 ds * Nat.pow 10 exponent.toNat
  else floatBound * Nat.pow 10 (-exponent).toNat ≤ valueOf 10 ds

def float? (cs : List Char) : Option (Value × List Char) := do
  let (negative, whole, rest) ← decimal? cs
  let (part, rest) ← fraction? rest
  let (exponent, rest) ← exponent? rest
  if part.isEmpty && exponent.isNone then none
  else if !negative && isTooLarge (whole ++ part) (exponent.getD 0 - part.length) then none
  else some (.float, rest)

def special? (cs : List Char) : Option (Value × List Char) :=
  match (sign cs).2 with
  | 'i' :: 'n' :: 'f' :: rest => some (.float, rest)
  | 'n' :: 'a' :: 'n' :: rest => some (.float, rest)
  | _ => none

def fixed? (count : Nat) (cs : List Char) : Option (Nat × List Char) :=
  let ds := cs.take count
  if ds.length = count ∧ ds.all Char.isDigit then some (valueOf 10 ds, cs.drop count) else none

def expect (c : Char) : Scan
  | d :: cs => if d = c then some cs else none
  | [] => none

def twoDigits (low high : Nat) (cs : List Char) : Option (Nat × List Char) := do
  let (n, rest) ← fixed? 2 cs
  if low ≤ n ∧ n ≤ high then some (n, rest) else none

def daysIn (year month : Nat) : Nat :=
  if month = 2 then
    if year % 4 = 0 ∧ (year % 100 ≠ 0 ∨ year % 400 = 0) then 29 else 28
  else if month = 4 ∨ month = 6 ∨ month = 9 ∨ month = 11 then 30
  else 31

def day? : Scan := fun cs => do
  let (year, cs) ← fixed? 4 cs
  let cs ← expect '-' cs
  let (month, cs) ← twoDigits 1 12 cs
  let cs ← expect '-' cs
  let (_, cs) ← twoDigits 1 (daysIn year month) cs
  some cs

def time? : Scan := fun cs => do
  let (_, cs) ← twoDigits 0 23 cs
  let cs ← expect ':' cs
  let (_, cs) ← twoDigits 0 59 cs
  let cs ← expect ':' cs
  let (_, cs) ← twoDigits 0 60 cs
  match cs with
  | '.' :: d :: rest => if d.isDigit then some (rest.dropWhile Char.isDigit) else some cs
  | _ => some cs

def offset? : Scan
  | 'Z' :: cs => some cs
  | 'z' :: cs => some cs
  | c :: cs =>
    if c == '+' || c == '-' then do
      let (_, cs) ← twoDigits 0 23 cs
      let cs ← expect ':' cs
      let (_, cs) ← twoDigits 0 59 cs
      some cs
    else some (c :: cs)
  | [] => some []

def date? (cs : List Char) : Option (Value × List Char) :=
  match day? cs with
  | none => (time? cs).map fun rest => (.date, rest)
  | some rest =>
    match rest with
    | c :: after =>
      if c == 'T' || c == 't' || c == ' ' then
        match time? after with
        | none => some (.date, rest)
        | some rest => (offset? rest).map fun rest => (.date, rest)
      else some (.date, rest)
    | [] => some (.date, [])

def number? (cs : List Char) : Option (Value × List Char) :=
  (date? cs).orElse fun _ => (float? cs).orElse fun _ => (special? cs).orElse fun _ => integer? cs

end JobBroker.Toml
