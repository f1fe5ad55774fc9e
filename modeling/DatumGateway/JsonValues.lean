import DatumGateway.NotifyPatches

namespace DatumGateway.JsonValues

open DatumGateway.NotifyPatches

def isNull : Value → Bool
  | .null => true
  | _ => false

def asStr : Value → Option String
  | .string s => some s
  | _ => none

def asArray : Value → Option (List Value)
  | .array values => some values
  | _ => none

def asObject : Value → Option (List (String × Value))
  | .object fields => some fields
  | _ => none

/-- The value of a number that is written with digits only. -/
def decimal (chars : List Char) : Option ℕ :=
  if chars.isEmpty || !chars.all Char.isDigit then none
  else some (chars.foldl (fun n c => 10 * n + (c.toNat - '0'.toNat)) 0)

/-- A number below `2 ^ bits`. -/
def asUnsigned (bits : ℕ) : Value → Option ℕ
  | .number text => (decimal text.toList).filter fun n => n < 2 ^ bits
  | _ => none

/-- A number that is written as an integer, in the range of an `i64`; `-0` is a float. -/
def asI64 : Value → Option ℤ
  | .number text =>
      match text.toList with
      | '-' :: digits =>
          ((decimal digits).filter fun n => 0 < n ∧ n ≤ 2 ^ 63).map fun n => -(n : ℤ)
      | digits => ((decimal digits).filter fun n => n < 2 ^ 63).map fun n => (n : ℤ)
  | _ => none

def field (fields : List (String × Value)) (name : String) : Option Value :=
  (fields.find? fun entry => entry.1 == name).map Prod.snd

/-- A field of a structure that is read from the text, where it must not be repeated. -/
def uniqueField (fields : List (String × Value)) (name : String) : Option (Option Value) :=
  match fields.filter fun entry => entry.1 == name with
  | [] => some none
  | [entry] => some (some entry.2)
  | _ => none

end DatumGateway.JsonValues
