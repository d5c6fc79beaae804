import Settlement.Text.Digits

/-!
Operation ids: the keys under which a ledger applies a mutation at most once. The text of an id is the
number of its transaction, with a suffix for the refund.
-/

namespace Settlement

inductive Phase where
  /-- The transaction's own debit or credit. -/
  | forward
  /-- The refund after a failed credit. -/
  | compensation
deriving DecidableEq, Repr

structure OperationId where
  transaction : Int
  phase : Phase
deriving DecidableEq, Repr

namespace OperationId

def forward (transaction : Int) : OperationId := ⟨transaction, .forward⟩

def compensation (transaction : Int) : OperationId := ⟨transaction, .compensation⟩

def suffix : List Char := ":compensation".toList

def chars (id : OperationId) : List Char :=
  match id.phase with
  | .forward => Digits.signedChars id.transaction
  | .compensation => Digits.signedChars id.transaction ++ suffix

def text (id : OperationId) : String := String.ofList id.chars

def stripSuffix (cs : List Char) : Option (List Char) :=
  if suffix <:+ cs then some (cs.take (cs.length - suffix.length)) else none

def read (cs : List Char) : Except Digits.Fault OperationId :=
  match stripSuffix cs with
  | some front => (Digits.readInt64 front).map compensation
  | none => (Digits.readInt64 cs).map forward

end OperationId
end Settlement
