import Settlement.Service.Basic

/-!
Exchange rates: looked up per ordered pair, kept for a while, and always positive. A currency against
itself has the rate one without a question.
-/

namespace Settlement
namespace Service

open Program Fallible

def getRate (s : Service) (source target : Currency) : Program RateError Decimal := do
  if source = target then
    return .one
  match ← lookupRate source target with
  | some rate => return rate
  | none =>
    log .debug Log.Target.rates "[rates] cache miss"
      [("from", .shown source.code), ("to", .shown target.code), ("provider", .text s.providerName)]
    let response ← fetchRate source target
    match response.rates.lookup target.code with
    | none =>
      throw (.unavailable ("No " ++ target.code ++ " rate in " ++ response.base ++ " response"))
    | some rate =>
      if rate ≤ Decimal.zero then
        throw (.unavailable ("Non-positive rate " ++ rate.text ++ " for " ++ source.code ++ "->" ++
          target.code))
      keepRate source target rate
      return rate

end Service

namespace Money

def convert (amount rate : Decimal) : Option Decimal := (amount.mul rate).map round

end Money
end Settlement
