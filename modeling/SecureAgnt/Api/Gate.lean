/-
What every handler of the API asks first: the tenant, the trusted proxy's token, the
role and the user.

The two sets of handlers (Postgres and SQLite) have their own copies of these functions;
the copies are the same text and are one definition here.
-/
import SecureAgnt.Lib.Text
import SecureAgnt.Lib.Uuid

namespace SecureAgnt
namespace Api

structure ApiError where
  status : Nat
  code : String
  message : String
  deriving DecidableEq, Repr

namespace ApiError

def badRequest (message : String) : ApiError := ⟨400, "BAD_REQUEST", message⟩

def unauthorized (message : String) : ApiError := ⟨401, "UNAUTHORIZED", message⟩

def forbidden (message : String) : ApiError := ⟨403, "FORBIDDEN", message⟩

def notFound (message : String) : ApiError := ⟨404, "NOT_FOUND", message⟩

def conflict (message : String) : ApiError := ⟨409, "CONFLICT", message⟩

def internal (message : String) : ApiError := ⟨500, "INTERNAL", message⟩

end ApiError

abbrev ApiResult (α : Type) := Except ApiError α

/-! ## Headers -/

/-- A header's value; without a text where `to_str` fails. -/
structure HeaderValue where
  toStr : Option String
  deriving DecidableEq, Repr

abbrev HeaderMap := List (String × HeaderValue)

/-- The first value of a header; names are kept in lower case. -/
def HeaderMap.get (headers : HeaderMap) (name : String) : Option HeaderValue :=
  (headers.find? fun header => header.1 = name).map (·.2)

def tenantHeader : String := "x-tenant-id"
def roleHeader : String := "x-user-role"
def userIdHeader : String := "x-user-id"
def triggerSecretHeader : String := "x-trigger-secret"
def authProxyTokenHeader : String := "x-auth-proxy-token"

def tenantFromHeaders (headers : HeaderMap) : ApiResult String :=
  match HeaderMap.get headers tenantHeader with
  | none => .error (.badRequest "missing x-tenant-id header")
  | some raw =>
    match raw.toStr with
    | none => .error (.badRequest "x-tenant-id header is not valid UTF-8")
    | some value =>
      if Text.isEmpty (Text.trim value) then
        .error (.badRequest "x-tenant-id header must not be empty")
      else .ok (Text.trim value)

/-! ## The trusted proxy -/

/-- The fields of the application's state that are read before the database. -/
structure AppState where
  trustedProxyAuthEnabled : Bool := false
  trustedProxyAuthSecret : Option String := none
  trustedProxyAuthError : Option String := none
  agentContextMutationEnabled : Bool := false
  agentBootstrapEnabled : Bool := true

def AppState.expectedToken (state : AppState) : Option String :=
  state.trustedProxyAuthSecret.filter fun value => !Text.isEmpty (Text.trim value)

def enforceTrustedProxyAuth (state : AppState) (headers : HeaderMap) : ApiResult Unit :=
  if !state.trustedProxyAuthEnabled then .ok ()
  else
    match state.trustedProxyAuthError with
    | some error =>
      .error (.internal ("trusted proxy auth is enabled but secret resolution failed: " ++ error))
    | none =>
      match state.expectedToken with
      | none =>
        .error (.internal "trusted proxy auth is enabled but no shared secret is configured")
      | some expected =>
        match HeaderMap.get headers authProxyTokenHeader with
        | none => .error (.unauthorized "missing x-auth-proxy-token header")
        | some raw =>
          match raw.toStr with
          | none => .error (.badRequest "x-auth-proxy-token header is not valid UTF-8")
          | some provided =>
            if provided ≠ expected then
              .error (.unauthorized "trusted proxy token validation failed")
            else .ok ()

/-- The request carries the token that is configured. -/
def CorrectToken (state : AppState) (headers : HeaderMap) : Prop :=
  state.trustedProxyAuthError = none ∧
    ∃ token, state.expectedToken = some token ∧
      (HeaderMap.get headers authProxyTokenHeader).bind HeaderValue.toStr = some token

/-! ## Roles and users -/

inductive RolePreset where
  | owner
  | operator
  | viewer
  deriving DecidableEq, Repr

def RolePreset.parse (raw : String) : Option RolePreset :=
  match Text.toAsciiLowercase (Text.trim raw) with
  | "owner" => some .owner
  | "operator" => some .operator
  | "viewer" => some .viewer
  | _ => none

def RolePreset.asStr : RolePreset → String
  | .owner => "owner"
  | .operator => "operator"
  | .viewer => "viewer"

def roleFromHeaders (state : AppState) (headers : HeaderMap) : ApiResult RolePreset :=
  match enforceTrustedProxyAuth state headers with
  | .error e => .error e
  | .ok () =>
    match HeaderMap.get headers roleHeader with
    | none => .ok .owner
    | some raw =>
      match raw.toStr with
      | none => .error (.badRequest "x-user-role header is not valid UTF-8")
      | some value =>
        match RolePreset.parse value with
        | some role => .ok role
        | none =>
          .error (.badRequest "x-user-role must be one of: owner, operator, viewer")

/-- `user_id_from_headers`, where `Uuid::parse_str` is given. -/
def readUserId (parseUuid : String → Option Uuid) (state : AppState) (headers : HeaderMap) :
    ApiResult (Option Uuid) :=
  match enforceTrustedProxyAuth state headers with
  | .error e => .error e
  | .ok () =>
    match HeaderMap.get headers userIdHeader with
    | none => .ok none
    | some raw =>
      match raw.toStr with
      | none => .error (.badRequest "x-user-id header is not valid UTF-8")
      | some value =>
        match parseUuid (Text.trim value) with
        | none => .error (.badRequest "x-user-id header must be a valid UUID")
        | some id => .ok (some id)

def ensureMemoryWriteRole (role : RolePreset) : ApiResult Unit :=
  if role = .viewer then .error (.forbidden "viewer role cannot write memory") else .ok ()

def ensureUsageQueryRole (role : RolePreset) : ApiResult Unit :=
  if role = .viewer then .error (.forbidden "viewer role cannot query reporting endpoints")
  else .ok ()

def ensureOwnerRole (role : RolePreset) (message : String) : ApiResult Unit :=
  if role = .owner then .ok () else .error (.forbidden message)

/-- Without the token there is no role. -/
theorem roleFromHeaders_of_not_correctToken {state : AppState} {headers : HeaderMap}
    (henabled : state.trustedProxyAuthEnabled = true) (htoken : ¬ CorrectToken state headers) :
    ∃ e, roleFromHeaders state headers = .error e := by
  have hproxy : ∃ e, enforceTrustedProxyAuth state headers = .error e := by
    unfold enforceTrustedProxyAuth
    rw [henabled, if_neg (by decide)]
    cases herror : state.trustedProxyAuthError with
    | some error => exact ⟨_, rfl⟩
    | none =>
      cases hexpected : state.expectedToken with
      | none => exact ⟨_, rfl⟩
      | some expected =>
        cases hheader : HeaderMap.get headers authProxyTokenHeader with
        | none => exact ⟨_, rfl⟩
        | some raw =>
          cases htext : raw.toStr with
          | none => simp [htext]
          | some provided =>
            have hne : provided ≠ expected := by
              intro heq
              refine htoken ⟨herror, expected, hexpected, ?_⟩
              rw [hheader, Option.bind_some, htext, heq]
            simp [htext, hne]
  obtain ⟨e, he⟩ := hproxy
  exact ⟨e, by rw [roleFromHeaders, he]⟩

end Api
end SecureAgnt
