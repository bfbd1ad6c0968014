namespace PagedMemory.Numeral

-- The digits of a number in base ten, without leading zeros.
def decimal (n : Nat) : List Char := Nat.toDigits 10 n

-- A minus sign stands before a negative number only.
def signed : Int → List Char
  | .ofNat n => decimal n
  | .negSucc n => '-' :: decimal (n + 1)

-- Lower-case digits in base sixteen after their mark.
def hex (n : Nat) : List Char := '0' :: 'x' :: Nat.toDigits 16 n

def decimalText (n : Nat) : String := String.ofList (decimal n)

def hexText (n : Nat) : String := String.ofList (hex n)

end PagedMemory.Numeral
