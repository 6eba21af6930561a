import RbaIdp.Environment

/-!
# Tokens, passwords and codes

Session tokens and codes are stored by their hash only, so a copy of the
database is not a set of sessions.  Passwords are compared with bcrypt, against
a dummy digest when there is no user, and every comparison is on the record of
calls.
-/

namespace RbaIdp

open Relational

variable (env : Env)

def hashSessionToken (token : String) : String := env.lib.sha256 token

/-- `otp_matches`.  UTF-8 is injective, so comparing encodings compares texts. -/
def otpMatches (code expected : String) : Bool := code == expected

/-- `bearer_token` -/
def bearerToken (authorization : Option String) : Option String :=
  match authorization with
  | none => none
  | some authorization =>
      let (scheme, _, value) := partition authorization ' '
      if env.lib.lower scheme ≠ "bearer" ∨ strip value = "" then none else some (strip value)

/-- The digest a password is compared with. -/
def digestOf (passwordHash : Option String) : String :=
  match passwordHash with
  | some digest => if digest = "" then env.lib.dummyHash else digest
  | none => env.lib.dummyHash

/-- Does bcrypt accept the password?  A malformed digest accepts nothing. -/
def passwordMatches (password : String) (passwordHash : Option String) : Bool :=
  (env.lib.checkpw password (digestOf env passwordHash)).getD false

/-- `verify_password` -/
def verifyPassword (password : String) (passwordHash : Option String) : App Bool := do
  Program.call (.checkpw password (digestOf env passwordHash))
  pure (passwordMatches env password passwordHash)

/-- `device_id`: what the risk engine sees of the browser's cookie. -/
def deviceId (tenantId : String) (raw : Option String) : Option String :=
  match raw with
  | none => none
  | some raw =>
      if raw = "" then none
      else some (String.ofList ((env.lib.sha256 (tenantId ++ ":" ++ raw)).toList.take 32))

/-- `new_activation_code`, from the drawn characters: three groups of four. -/
def newActivationCode (raw : String) : String :=
  let cs := raw.toList
  String.ofList (cs.take 4 ++ ['-'] ++ (cs.drop 4).take 4 ++ ['-'] ++ (cs.drop 8).take 4)

/-- `normalise_code`: how a code was typed must not matter. -/
def normaliseCode (code : String) : String :=
  String.ofList ((env.lib.upper code).toList.filter env.lib.isAlnum)

/-- `hash_code`; encoding to ASCII drops what is not ASCII. -/
def hashCode (code : String) : String :=
  env.lib.sha256 (String.ofList ((normaliseCode env code).toList.filter fun c => c.toNat < 128))

/-- `email_domain` -/
def emailDomain (email : String) : String :=
  let (localPart, at?, domain) := rpartition (env.lib.lower (strip email)) '@'
  if !at? || localPart == "" then "" else domain

/-- `tenant_for_operator_email` -/
def tenantForOperatorEmail (db : Directory) (email : String) : Option Tenant :=
  let domain := emailDomain env email
  if domain = "" then none
  else (db.tenantDomains.get domain).bind fun row => db.tenants.get row.tenantId

end RbaIdp
