import Settlement.Decimal.Text
import Settlement.Text.Blank
import Settlement.Text.UpperCase

/-!
Currencies and the rules for amounts. An amount from a caller is positive and a whole number of
cents; a converted amount is rounded to cents, a half away from zero.
-/

namespace Settlement

inductive Currency where
  | usd | eur | gbp | pln | uah | chf
deriving DecidableEq, Repr

namespace Currency

def all : List Currency := [usd, eur, gbp, pln, uah, chf]

def code : Currency → String
  | usd => "USD"
  | eur => "EUR"
  | gbp => "GBP"
  | pln => "PLN"
  | uah => "UAH"
  | chf => "CHF"

def ofCode? (s : String) : Option Currency := all.find? (·.code == s)

end Currency

inductive MoneyError where
  | notPositive
  | tooPrecise (provided max : Nat)
  | unknownCurrency (text : String)
deriving DecidableEq

def MoneyError.message : MoneyError → String
  | .notPositive => "Amount must be greater than zero"
  | .tooPrecise provided max =>
    "Amount has " ++ Digits.natText provided ++ " decimal places, max allowed " ++ Digits.natText max
  | .unknownCurrency text => "Unknown currency: " ++ text

/-- Reads a code without regard to case and to blanks around it. -/
def Currency.read (s : String) : Except MoneyError Currency :=
  let text := String.ofList (upperCase (trimBlanks s.toList))
  match ofCode? text with
  | some currency => .ok currency
  | none => .error (.unknownCurrency text)

namespace Money

def places : Nat := 2

/-- The amount itself, if it is positive and a whole number of cents. -/
def validate (amount : Decimal) : Except MoneyError Decimal :=
  if amount ≤ Decimal.zero then .error .notPositive
  else if places < amount.normalize.scale then
    .error (.tooPrecise amount.normalize.scale places)
  else .ok amount

def round (amount : Decimal) : Decimal := amount.round places

end Money
end Settlement
