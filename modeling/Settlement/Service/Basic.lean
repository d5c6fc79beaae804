import Settlement.Log.Target
import Settlement.Service.Call
import Settlement.Settings

/-!
The service: what it is set up with.
-/

namespace Settlement

structure Service where
  /-- The name of its ledger, for the log. -/
  ledgerName : String
  /-- The name of its rate provider, for the log. -/
  providerName : String
  retry : RetrySettings
  limits : LimitSettings

namespace RateError

def message : RateError → String
  | unavailable text => "Exchange rate service unavailable: " ++ text

def toService (e : RateError) : ServiceError := .externalServiceUnavailable e.message

end RateError
end Settlement
