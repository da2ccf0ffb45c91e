import Aspectus.Core.Basic

/-!
This module contains the errors of the service: the internal ones, the machine readable codes, and
the problem details that requests are refused with.
-/

namespace Aspectus

inductive CoreError where
  | invalidProject (s : String)
  | invalidScope (s : String)
  | notFound (entity : String) (id : String)
  | validation (msg : String)
  | internal (msg : String)

namespace CoreError

def toString : CoreError → String
  | .invalidProject s => "invalid project: " ++ s
  | .invalidScope s => "invalid scope format: " ++ s
  | .notFound entity id => "entity not found: " ++ entity ++ " id=" ++ id
  | .validation msg => "validation failed: " ++ msg
  | .internal msg => "internal error: " ++ msg

end CoreError

inductive ErrorCode where
  | invalidCredentials
  | invalidServiceToken
  | accountSuspended
  | invalidClientSecret
  | invalidCodeVerifier
  | invalidOrExpiredCode
  | invalidOrExpiredRefreshToken
  | registrationDisabled
  | tenantNotFound
  | userNotFound
  | serviceAccountNotFound
  | apiKeyNotFound
  | roleNotFound
  | notFound
  | validationFailed
  | invalidEmailFormat
  | invalidDisplayName
  | passwordTooShort
  | emailAlreadyExists
  | invalidClientIdOrRedirectUri
  | invalidScope
  | invalidScopeFormat
  | tokenRequired
  | codeRequired
  | refreshTokenRequired
  | unsupportedGrantType
  | tenantIdRequired
  | tenantNameInvalid
  | roleTypeMismatch
  | invalidCodeChallengeMethod
  | scopeExceedsMax
  | conflict
  | tooManyRequests
  | internalError
  | serviceUnavailable
deriving DecidableEq, Repr

namespace ErrorCode

def asStr : ErrorCode → String
  | .invalidCredentials => "invalid_credentials"
  | .invalidServiceToken => "invalid_service_token"
  | .accountSuspended => "account_suspended"
  | .invalidClientSecret => "invalid_client_secret"
  | .invalidCodeVerifier => "invalid_code_verifier"
  | .invalidOrExpiredCode => "invalid_or_expired_code"
  | .invalidOrExpiredRefreshToken => "invalid_or_expired_refresh_token"
  | .registrationDisabled => "registration_disabled"
  | .tenantNotFound => "tenant_not_found"
  | .userNotFound => "user_not_found"
  | .serviceAccountNotFound => "service_account_not_found"
  | .apiKeyNotFound => "api_key_not_found"
  | .roleNotFound => "role_not_found"
  | .notFound => "not_found"
  | .validationFailed => "validation_failed"
  | .invalidEmailFormat => "invalid_email_format"
  | .invalidDisplayName => "invalid_display_name"
  | .passwordTooShort => "password_too_short"
  | .emailAlreadyExists => "email_already_exists"
  | .invalidClientIdOrRedirectUri => "invalid_client_id_or_redirect_uri"
  | .invalidScope => "invalid_scope"
  | .invalidScopeFormat => "invalid_scope_format"
  | .tokenRequired => "token_required"
  | .codeRequired => "code_required"
  | .refreshTokenRequired => "refresh_token_required"
  | .unsupportedGrantType => "unsupported_grant_type"
  | .tenantIdRequired => "tenant_id_required"
  | .tenantNameInvalid => "tenant_name_invalid"
  | .roleTypeMismatch => "role_type_mismatch"
  | .invalidCodeChallengeMethod => "invalid_code_challenge_method"
  | .scopeExceedsMax => "scope_exceeds_max"
  | .conflict => "conflict"
  | .tooManyRequests => "too_many_requests"
  | .internalError => "internal_error"
  | .serviceUnavailable => "service_unavailable"

def typeUri (code : ErrorCode) : String :=
  "https://aspectus.dev/errors/" ++ code.asStr

def httpStatus : ErrorCode → Nat
  | .invalidCredentials => 401
  | .invalidServiceToken => 401
  | .accountSuspended => 401
  | .invalidClientSecret => 401
  | .invalidCodeVerifier => 401
  | .invalidOrExpiredCode => 401
  | .invalidOrExpiredRefreshToken => 401
  | .registrationDisabled => 403
  | .tenantNotFound => 404
  | .userNotFound => 404
  | .serviceAccountNotFound => 404
  | .apiKeyNotFound => 404
  | .roleNotFound => 404
  | .notFound => 404
  | .validationFailed => 422
  | .invalidEmailFormat => 422
  | .invalidDisplayName => 422
  | .passwordTooShort => 422
  | .emailAlreadyExists => 422
  | .invalidClientIdOrRedirectUri => 422
  | .invalidScope => 422
  | .invalidScopeFormat => 422
  | .tokenRequired => 422
  | .codeRequired => 422
  | .refreshTokenRequired => 422
  | .unsupportedGrantType => 422
  | .tenantIdRequired => 422
  | .tenantNameInvalid => 422
  | .roleTypeMismatch => 422
  | .invalidCodeChallengeMethod => 422
  | .scopeExceedsMax => 422
  | .conflict => 409
  | .tooManyRequests => 429
  | .internalError => 500
  | .serviceUnavailable => 500

theorem asStr_injective {c d : ErrorCode} (h : c.asStr = d.asStr) : c = d := by
  revert h
  cases c <;> cases d <;> decide

/--
No error is answered with a status that means success.
-/
theorem httpStatus_error (c : ErrorCode) : 400 ≤ c.httpStatus := by
  cases c <;> decide

end ErrorCode

structure ValidationError where
  field : String
  message : String
deriving DecidableEq, Repr

/--
RFC 7807 Problem Details error response.
-/
structure ProblemDetails where
  typeUri : String
  title : String
  status : Nat
  code : Option String
  detail : String
  inst : Option String
  errors : Option (List ValidationError)
deriving DecidableEq, Repr

namespace ProblemDetails

def titleForCode (code : ErrorCode) : String :=
  match code.httpStatus with
  | 401 => "Unauthorized"
  | 403 => "Forbidden"
  | 404 => "Not Found"
  | 422 => "Validation Failed"
  | 429 => "Too Many Requests"
  | _ => "Internal Server Error"

def withCode (code : ErrorCode) (detail : String) : ProblemDetails where
  typeUri := code.typeUri
  title := titleForCode code
  status := code.httpStatus
  code := some code.asStr
  detail := detail
  inst := none
  errors := none

def withCodeInstance (code : ErrorCode) (detail inst : String) : ProblemDetails :=
  { withCode code detail with inst := some inst }

def withCodeErrors (code : ErrorCode) (detail : String) (errors : List ValidationError) :
    ProblemDetails :=
  { withCode code detail with errors := some errors }

def unauthorized (detail inst : String) : ProblemDetails :=
  withCodeInstance .invalidCredentials detail inst

def forbidden (detail : String) : ProblemDetails :=
  withCode .registrationDisabled detail

def notFound (detail : String) : ProblemDetails :=
  withCode .notFound detail

def validationFailed (detail : String) (errors : List ValidationError) : ProblemDetails :=
  withCodeErrors .validationFailed detail errors

def internalError (detail : String) : ProblemDetails :=
  withCode .internalError detail

def ofCoreError : CoreError → ProblemDetails
  | .notFound entity id => notFound (entity ++ " not found: " ++ id)
  | .validation msg => validationFailed msg []
  | e => internalError e.toString

end ProblemDetails

end Aspectus
