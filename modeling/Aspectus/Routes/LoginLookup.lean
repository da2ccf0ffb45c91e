import Aspectus.Routes.Auth
import Aspectus.Store.Semantics

/-!
This module contains the endpoint for the first of the two steps of a login, which lists the tenants an email is
registered under.
-/

namespace Aspectus

open Statement

structure TenantOption where
  tenantId : String
  tenantName : String
  logoUrl : Option String

def TenantOption.ofRow (row : String × String × Option String) : TenantOption where
  tenantId := row.1
  tenantName := row.2.1
  logoUrl := row.2.2

/--
`POST /login/lookup`
-/
def loginLookup (cfg : Config) (email : String) (d : Draw) (s : Server) :
    Except Response (List TenantOption) × Server :=
  if !register.validEmail email then
    (.error (ProblemDetails.withCodeErrors .invalidEmailFormat "Invalid email address" []).intoResponse, s)
  else
    match query d [email] (selectLoginTenants cfg.collation email) s with
    | (.error _, s') => (.error authUnavailable, s')
    | (.ok rows, s') => (.ok (rows.map TenantOption.ofRow), s')

end Aspectus
