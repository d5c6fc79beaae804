import Settlement.Service.Basic

/-!
Categories of transactions. A global category is everyone's; a private one belongs to its creator.
-/

namespace Settlement

namespace Category

def isGlobal (c : Category) : Bool := c.owner.isNone

def usableBy (c : Category) (user : UserId) : Bool :=
  match c.owner with
  | none => true
  | some owner => owner == user

def defaultNames : List String :=
  ["TRANSFER", "FOOD", "RENT", "TRANSPORT", "SHOPPING", "OTHER", "ENTERTAINMENT"]

end Category

namespace Service

open Program Fallible

def createCategory (name : String) (user : UserId) : Program ServiceError Category := do
  let name := String.ofList (trimBlanks name.toList)
  if name = "" then
    throw (.badRequest "Category name is required")
  match ← insertCategory user name with
  | none => throw (.badRequest "Category already exists")
  | some category =>
    log .info Log.Target.categories "Custom category created"
      [("user_id", .int user), ("category_id", .int category.id), ("name", .shown category.name)]
    return category

/-- The category of a new transaction, if the user may use it. Deposits have none. -/
def resolveCategory (id : Option CategoryId) (user : UserId) (type : OperationType) :
    Program ServiceError (Option Category) := do
  if type = .deposit then
    return none
  match id with
  | none => throw (.badRequest ("Category is required for transaction type: " ++ type.name))
  | some id =>
    match ← findCategory id with
    | none => throw (.badRequest ("Category not found with id: " ++ Digits.intText id))
    | some category =>
      if !category.usableBy user then
        let owner := match category.owner with
          | some owner => "Some(" ++ Digits.intText owner ++ ")"
          | none => "None"
        log .warn Log.Target.categories "Private category used by another user"
          [("user_id", .int user), ("category_id", .int id), ("owner_id", .shown owner)]
        throw (.forbidden "You cannot use this category")
      return some category

end Service
end Settlement
