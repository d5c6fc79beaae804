import Settlement.Text.Digits

/-!
The addresses of databases: a scheme, and behind two slashes perhaps a user, a host and a port; then a
path and parameters. A few parameters are settings of the connection and have a form of their own.
-/

namespace Settlement
namespace Sql

inductive AddressFault where
  | noScheme
  | invalidPort
  | emptyHost
  | invalidHost
  | invalidBrackets
  /-- A parameter that should be a number. -/
  | number (fault : Digits.Fault)
  | hostNumber
  | encryption (value : String)
deriving DecidableEq

def AddressFault.remarks : AddressFault → List String
  | noScheme => ["relative URL without a base"]
  | invalidPort => ["invalid port number"]
  | emptyHost => ["empty host"]
  | invalidHost => ["invalid domain character"]
  | invalidBrackets => ["invalid IPv6 address"]
  | number fault => [fault.message]
  | hostNumber => ["invalid IP address syntax"]
  | encryption value =>
    let remark := "unknown value \"" ++ value ++ "\" for \x60ssl_mode\x60"
    ["error with configuration: " ++ remark, remark]

def AddressFault.message (f : AddressFault) : String := f.remarks.headD ""

namespace Address

def isSchemeChar (c : Char) : Bool := c.isAlphanum || c = '+' || c = '-' || c = '.'

def afterScheme? (cs : List Char) : Option (List Char) :=
  match cs.dropWhile isSchemeChar with
  | ':' :: rest => if (cs.head?.map Char.isAlpha).getD false then some rest else none
  | _ => none

def isForbidden (c : Char) : Bool := [' ', '<', '>', '[', ']', '\\', '^', '|'].contains c

def isBracketed (cs : List Char) : Bool :=
  2 ≤ cs.count ':' && cs.all fun c => c.isDigit || c = ':' || c = '.' ||
    ('a' ≤ c && c ≤ 'f') || ('A' ≤ c && c ≤ 'F')

def checkPort (port : List Char) : Option AddressFault :=
  if port.isEmpty then none
  else
    match Digits.readMagnitude 65535 .tooLarge 0 port with
    | .ok _ => none
    | .error _ => some .invalidPort

/-- A host with perhaps a port. A host in brackets may hold colons. -/
def checkHost (credentials : Bool) (cs : List Char) : Option AddressFault :=
  match cs with
  | '[' :: rest =>
    let host := rest.takeWhile (· ≠ ']')
    match rest.drop host.length with
    | [']'] => if isBracketed host then none else some .invalidBrackets
    | ']' :: ':' :: port => if isBracketed host then checkPort port else some .invalidBrackets
    | _ => some .invalidBrackets
  | _ =>
    let host := cs.takeWhile (· ≠ ':')
    match cs.drop host.length with
    | [] =>
      if host.isEmpty && credentials then some .emptyHost
      else if host.any isForbidden then some .invalidHost
      else none
    | _ :: port =>
      if host.isEmpty then some .emptyHost
      else if host.any isForbidden then some .invalidHost
      else checkPort port

def isHostNumber (s : String) : Bool :=
  let parts := s.splitOn "."
  isBracketed s.toList ||
    (parts.length == 4 && parts.all fun part =>
      part.length ≤ 3 && (part.length == 1 || part.toList.head? ≠ some '0') &&
        (Digits.readMagnitude 255 .tooLarge 0 part.toList).toOption.isSome && !part.isEmpty)

def encryptions : List String :=
  ["disable", "allow", "prefer", "require", "verify-ca", "verify-full"]

def checkNumber (bound : Nat) (value : String) : Option AddressFault :=
  match Digits.readNat bound value.toList with
  | .ok _ => none
  | .error fault => some (.number fault)

def checkParameter (name value : String) : Option AddressFault :=
  match name with
  | "sslmode" | "ssl-mode" =>
    if encryptions.contains value.toLower then none else some (.encryption value)
  | "statement-cache-capacity" => checkNumber maxNat64 value
  | "port" => checkNumber 65535 value
  | "hostaddr" => if isHostNumber value then none else some .hostNumber
  | _ => none

def parameter (cs : List Char) : String × String :=
  let name := cs.takeWhile (· ≠ '=')
  (String.ofList name, String.ofList ((cs.drop name.length).drop 1))

def checkParameters (cs : List Char) : Option AddressFault :=
  let query := ((cs.dropWhile (· ≠ '?')).drop 1).takeWhile (· ≠ '#')
  ((String.ofList query).splitOn "&").findSome? fun part =>
    let (name, value) := parameter part.toList
    checkParameter name value

def fault? (s : String) : Option AddressFault :=
  match afterScheme? s.toList with
  | none => some .noScheme
  | some ('/' :: '/' :: rest) =>
    let authority := rest.takeWhile fun c => c ≠ '/' && c ≠ '?' && c ≠ '#'
    let host := (authority.reverse.takeWhile (· ≠ '@')).reverse
    checkHost (host.length < authority.length) host <|> checkParameters rest
  | some rest => checkParameters rest

end Address
end Sql
end Settlement
