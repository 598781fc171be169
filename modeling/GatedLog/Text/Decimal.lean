/-!
# Decimal numbers in columns

Numbers are written in decimal without leading zeros.  In a column they are
padded with blanks on the left; a number wider than its column is written in
full.
-/

namespace GatedLog.Decimal

/-- The digits of a number. -/
def digits (number : Nat) : List Char :=
  Nat.toDigits 10 number

/-- A number in decimal. -/
def text (number : Nat) : String :=
  String.ofList (digits number)

/-- A number in decimal, padded with blanks on the left to a width. -/
def padded (width number : Nat) : String :=
  String.ofList ((digits number).leftpad width ' ')

/-- A signed number in decimal, with a minus sign for the negative ones. -/
def signed : Int → String
  | .ofNat number => text number
  | .negSucc number => "-" ++ text (number + 1)

end GatedLog.Decimal
