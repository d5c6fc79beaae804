import Settlement.Json.Decode
import Settlement.Service.Requests
import Settlement.Service.Sweep

/-!
The JSON forms of requests, pages, categories, rates and settings.
-/

namespace Settlement

def TransferRequest.ofJson? (v : Json) : Option TransferRequest := do
  match ← v.members? ["source_account_id", "target_account_id", "amount", "category_id"] with
  | [some source, some target, some amount, category] =>
    some ⟨← source.toInt64?, ← target.toInt64?, ← amount.toDecimal?,
      ← Json.optional? Json.toInt64? category⟩
  | _ => none

def DepositRequest.ofJson? (v : Json) : Option DepositRequest := do
  match ← v.members? ["target_account_id", "amount", "category_id"] with
  | [some target, some amount, category] =>
    some ⟨← target.toInt64?, ← amount.toDecimal?, ← Json.optional? Json.toInt64? category⟩
  | _ => none

def WithdrawRequest.ofJson? (v : Json) : Option WithdrawRequest := do
  match ← v.members? ["source_account_id", "amount", "category_id"] with
  | [some source, some amount, category] =>
    some ⟨← source.toInt64?, ← amount.toDecimal?, ← Json.optional? Json.toInt64? category⟩
  | _ => none

def PageRequest.ofJson? (v : Json) : Option PageRequest := do
  match ← v.members? ["page", "size"] with
  | [some page, some size] => some ⟨← page.toNat32?, ← size.toNat32?⟩
  | _ => none

def Category.ofJson? (v : Json) : Option Category := do
  match ← v.members? ["id", "user_id", "name"] with
  | [some id, owner, some name] =>
    some ⟨← id.toInt64?, ← Json.optional? Json.toInt64? owner, ← name.toString?⟩
  | _ => none

def RateResponse.ofJson? (v : Json) : Option RateResponse := do
  match ← v.members? ["base", "rates"] with
  | [some base, some rates] => some ⟨← base.toString?, ← rates.toMap? Json.toDecimal?⟩
  | _ => none

def TransferRequest.json (r : TransferRequest) : Json :=
  .record [("source_account_id", .ofInt r.source), ("target_account_id", .ofInt r.target),
    ("amount", .ofDecimal r.amount), ("category_id", .ofOption .ofInt r.category)]

def DepositRequest.json (r : DepositRequest) : Json :=
  .record [("target_account_id", .ofInt r.target), ("amount", .ofDecimal r.amount),
    ("category_id", .ofOption .ofInt r.category)]

def WithdrawRequest.json (r : WithdrawRequest) : Json :=
  .record [("source_account_id", .ofInt r.source), ("amount", .ofDecimal r.amount),
    ("category_id", .ofOption .ofInt r.category)]

def PageRequest.json (r : PageRequest) : Json :=
  .record [("page", .ofNat r.page), ("size", .ofNat r.size)]

def Category.json (c : Category) : Json :=
  .record [("id", .ofInt c.id), ("user_id", .ofOption .ofInt c.owner), ("name", .str c.name)]

def RateResponse.json (r : RateResponse) : Json :=
  .record [("base", .str r.base),
    ("rates", .record (r.rates.map fun (code, rate) => (code, .ofDecimal rate)))]

def Limit.json (l : Limit) : Json :=
  .record [("user_id", .ofInt l.user), ("daily_limit", .ofDecimal l.daily),
    ("single_limit", .ofDecimal l.single)]

def Account.json (a : Account) : Json :=
  .record [("id", .ofInt a.id), ("owner_id", .ofInt a.owner), ("currency", .str a.currency.code),
    ("balance", .ofDecimal a.balance), ("status", .str a.status.name)]

def TransactionView.members (v : TransactionView) : List (String × Json) :=
  [("id", .ofInt v.id), ("user_id", .ofInt v.user),
    ("source_account_id", .ofOption .ofInt v.source),
    ("target_account_id", .ofOption .ofInt v.target), ("amount", .ofDecimal v.amount),
    ("target_amount", .ofDecimal v.targetAmount), ("exchange_rate", .ofDecimal v.rate),
    ("currency", .str v.currency.code), ("status", .str v.status.name),
    ("step", .str v.step.name), ("compensation", .str v.compensation.name),
    ("operation_type", .str v.type.name), ("category_id", .ofOption .ofInt v.category),
    ("error_message", .ofOption .str v.errorMessage)]

def TransactionView.json (v : TransactionView) : Json := .record v.members

def TransactionRecord.json (r : TransactionRecord) : Json :=
  .record (r.view.members ++ [("attempts", .ofInt r.attempts), ("idempotency_key", .str r.key)])

def Page.json (item : α → Json) (p : Page α) : Json :=
  .record [("items", .array (p.items.map item)), ("page", .ofNat p.page), ("size", .ofNat p.size),
    ("total", .ofNat p.total)]

def SweepReport.json (r : SweepReport) : Json :=
  .record [("found", .ofNat r.found), ("completed", .ofNat r.completed),
    ("failed", .ofNat r.failed), ("deferred", .ofNat r.deferred), ("skipped", .ofNat r.skipped),
    ("errors", .ofNat r.errors)]

namespace RetrySettings

def ofJson? (v : Json) : Option RetrySettings := do
  match ← v.members? ["max_attempts", "retry_backoff_ms", "history_page_size_max"] with
  | [some attempts, some backoff, some pageMax] =>
    some ⟨← attempts.toNat32?, ← backoff.toNat64?, ← pageMax.toNat32?⟩
  | _ => none

def json (s : RetrySettings) : Json :=
  .record [("max_attempts", .ofNat s.maxAttempts), ("retry_backoff_ms", .ofNat s.backoffMs),
    ("history_page_size_max", .ofNat s.pageSizeMax)]

end RetrySettings

namespace LimitSettings

def ofJson? (v : Json) : Option LimitSettings := do
  match ← v.members? ["default_daily", "default_single"] with
  | [some daily, some single] => some ⟨← daily.toDecimal?, ← single.toDecimal?⟩
  | _ => none

def json (s : LimitSettings) : Json :=
  .record [("default_daily", .ofDecimal s.daily), ("default_single", .ofDecimal s.single)]

end LimitSettings
end Settlement
