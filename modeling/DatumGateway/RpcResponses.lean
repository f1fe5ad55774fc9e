import DatumGateway.JsonValues

namespace DatumGateway.RpcResponses

open DatumGateway.JsonValues
open DatumGateway.NotifyPatches

inductive Auth where
  | cookie (path : String)
  | userPass (user pass : String)
  deriving DecidableEq, Repr

/-- The message of a remote error is the string, or the JSON text of another value. -/
inductive RpcError where
  | http
  | cookieRead (path : String)
  | cookieEmpty (path : String)
  | remote (code : ℤ) (message : Value)
  | malformed (body : Value)
  | deserialize
  | authFailed

/-- The characters that `trim` takes off: Unicode `White_Space`. -/
def isWhiteSpace (c : Char) : Bool :=
  let n := c.toNat
  (9 ≤ n && n ≤ 13) || n == 0x20 || n == 0x85 || n == 0xA0 || n == 0x1680 ||
    (0x2000 ≤ n && n ≤ 0x200A) || n == 0x2028 || n == 0x2029 || n == 0x202F || n == 0x205F ||
    n == 0x3000

def trim (chars : List Char) : List Char :=
  ((chars.dropWhile isWhiteSpace).reverse.dropWhile isWhiteSpace).reverse

/-- A carriage return before the line feed is part of the line end, which `trim` takes off too. -/
def firstLine (raw : String) : List Char :=
  raw.toList.takeWhile fun c => c != '\n'

/-- `file` is what can be read of the cookie file. -/
def resolveAuth (auth : Auth) (file : Option String) : Except RpcError String :=
  match auth with
  | .cookie path =>
      match file with
      | none => .error (.cookieRead path)
      | some raw =>
          let line := trim (firstLine raw)
          if line.isEmpty then .error (.cookieEmpty path) else .ok (String.ofList line)
  | .userPass user pass => .ok (user ++ ":" ++ pass)

def splitUserpass (s : String) : String × String :=
  match s.toList.findIdx? fun c => c == ':' with
  | some idx => (String.ofList (s.toList.take idx), String.ofList (s.toList.drop (idx + 1)))
  | none => (s, "")

/-- The code and the message of an error value; as an array it lists its fields. -/
def remoteError : Value → Option (ℤ × String)
  | .object fields =>
      match field fields "code" with
      | none => none
      | some code =>
          match asI64 code, field fields "message" with
          | some code, none => some (code, "")
          | some code, some (.string message) => some (code, message)
          | _, _ => none
  | .array [code] => (asI64 code).map fun code => (code, "")
  | .array [code, .string message] => (asI64 code).map fun code => (code, message)
  | _ => none

def parseRpcResponse (value : Value) : Except RpcError Value :=
  match value with
  | .object fields =>
      match (field fields "error").filter fun error => !isNull error with
      | some error =>
          match remoteError error with
          | none => .error .deserialize
          | some (code, message) => .error (.remote code (.string message))
      | none =>
          match field fields "result" with
          | some result => .ok result
          | none => .error (.malformed value)
  | _ => .error (.malformed value)

/-- A block is accepted with no result or an empty one. -/
def submitblockResult : Except RpcError Value → Except RpcError Unit
  | .error e => .error e
  | .ok .null => .ok ()
  | .ok (.string s) => if s.isEmpty then .ok () else .error (.remote (-1) (.string s))
  | .ok other => .error (.remote (-1) other)

end DatumGateway.RpcResponses
