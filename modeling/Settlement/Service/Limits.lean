import Settlement.Service.Basic

/-!
Spending limits: a ceiling for one transaction and one for the last 24 hours. A user without limits
gets the default ones at first use.
-/

namespace Settlement
namespace Service

open Program Fallible

def getLimits (s : Service) (user : UserId) : Program ServiceError Limit := do
  match ← findLimit user with
  | some limit => return limit
  | none =>
    log .debug Log.Target.limits "Creating default transaction limits" [("user_id", .int user)]
    insertLimit ⟨user, s.limits.daily, s.limits.single⟩

/-- Microseconds of the window of the daily limit. -/
def dailyWindow : Int := 24 * 3600 * 1000000

theorem dailyWindow_eq : dailyWindow = 24 * 3600 * 1000000 := rfl

def checkLimit (s : Service) (user : UserId) (amount : Decimal) : Program ServiceError Unit := do
  let limit ← getLimits s user
  if limit.single < amount then
    throw (.limitExceeded ("Transaction amount exceeds single limit of " ++ limit.single.text))
  let since := (← now) - dailyWindow
  let spent ← sumSpending user since
  match Decimal.add spent amount with
  | none => breakOff "Addition overflowed"
  | some total =>
    if limit.daily < total then
      log .info Log.Target.limits "Daily limit exceeded"
        [("user_id", .int user), ("spent", .shown spent.text), ("amount", .shown amount.text),
          ("daily_limit", .shown limit.daily.text)]
      throw (.limitExceeded ("Daily limit exceeded. You already spent " ++ spent.text ++
        " in last 24h. Limit is " ++ limit.daily.text))

def updateLimits (s : Service) (user : UserId) (daily single : Decimal) :
    Program ServiceError Limit := do
  if daily ≤ Decimal.zero ∨ single ≤ Decimal.zero then
    throw (.badRequest "Limits must be greater than zero")
  if daily < single then
    throw (.badRequest "Single limit cannot exceed daily limit")
  let _ ← getLimits s user
  let limit : Limit := ⟨user, daily, single⟩
  if !(← updateLimit limit) then
    throw (.notFound "Limits not found")
  log .info Log.Target.limits "Transaction limits updated"
    [("user_id", .int user), ("daily", .shown daily.text), ("single", .shown single.text)]
  return limit

end Service
end Settlement
