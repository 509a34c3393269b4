namespace GuildBot.Text

/-- The value of a run of decimal digits of one base-ten alphabet, `0` to `9`. -/
def asciiDigit? (c : Char) : Option Nat :=
  if '0' ≤ c ∧ c ≤ '9' then some (c.toNat - '0'.toNat) else none

/-- The value of digits read from the left, on top of what stands before them. -/
def digitsFrom (acc : Nat) : List Char → Option Nat
  | [] => some acc
  | c :: rest => (asciiDigit? c).bind fun d => digitsFrom (acc * 10 + d) rest

def digits? : List Char → Option Nat
  | [] => none
  | cs => digitsFrom 0 cs

/-- A whole number from zero to `limit`; a single `+` may stand before it. -/
def unsigned? (limit : Nat) (s : String) : Option Nat :=
  let body := match s.toList with
    | '+' :: rest => rest
    | cs => cs
  (digits? body).filter (· ≤ limit)

/-- A whole number from `least` to `greatest`; a single `+` or `-` may stand before it. -/
def signed? (least greatest : Int) (s : String) : Option Int :=
  let value := match s.toList with
    | '+' :: rest => (digits? rest).map Int.ofNat
    | '-' :: rest => (digits? rest).map fun n => -(n : Int)
    | cs => (digits? cs).map Int.ofNat
  value.filter fun n => least ≤ n && n ≤ greatest

def max32 : Nat := 4294967295

def max64 : Nat := 18446744073709551615

def maxSigned64 : Int := 9223372036854775807

def minSigned64 : Int := -9223372036854775808

end GuildBot.Text
