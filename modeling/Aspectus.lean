import Aspectus.Interaction.Discipline
import Aspectus.Data.Table
import Aspectus.Data.Hex
import Aspectus.Data.FixedWindow
import Aspectus.Core.Basic
import Aspectus.Core.Text
import Aspectus.Core.Error
import Aspectus.Store.Server
import Aspectus.Auth.ApiKey
import Aspectus.Routes.OAuth
import Aspectus.Core.Scope
import Aspectus.Routes.Users
import Aspectus.Routes.Roles
import Aspectus.Routes.Keys
import Aspectus.Routes.Service
import Aspectus.Interaction.Run
import Aspectus.Interaction.Triple
import Aspectus.Interaction.Reliance
import Aspectus.Interaction.Removal
import Aspectus.Interaction.Transaction
import Aspectus.Store.Transaction
import Aspectus.Routes.RoleDeletion
import Aspectus.Store.Frame
import Aspectus.Store.Evolution
import Aspectus.Store.Rows
import Aspectus.Discipline.Audit
import Aspectus.Discipline.Basic
import Aspectus.Discipline.Auth
import Aspectus.Discipline.Replay
import Aspectus.Discipline.Keys
import Aspectus.Discipline.Deployment
import Aspectus.Discipline.TokenRow
import Aspectus.Discipline.ServiceTokens
import Aspectus.Discipline.Passwords
import Aspectus.Interaction.History
import Aspectus.Interaction.Linearization
import Aspectus.Security.Log
import Aspectus.Security.Entries
import Aspectus.Security.Sample
import Aspectus.Security.Refresh
import Aspectus.Security.Code
import Aspectus.Security.Suspension
import Aspectus.Security.Pkce
import Aspectus.Security.Replay
import Aspectus.Security.Consumption
import Aspectus.Security.Provenance
import Aspectus.Security.Deletion
import Aspectus.Security.Revocation
import Aspectus.Security.DenyList
import Aspectus.Security.Denial
import Aspectus.Security.TokenOrder
import Aspectus.Security.TokenCache
import Aspectus.Security.Enumeration
import Aspectus.Security.Lockout
import Aspectus.Security.Reserved
import Aspectus.Security.Spelling
import Aspectus.Security.Expiry
import Aspectus.Security.RoleDeletion
import Aspectus.Security.PasswordReset
import Aspectus.Security.RateLimit
import Aspectus.Security.Interference
import Aspectus.Security.Scopes
import Aspectus.Security.ScopeCache
import Aspectus.Security.RoleTypes
import Aspectus.Auth.Client
import Aspectus.Discipline.Creation
import Aspectus.Security.Offline
import Aspectus.Security.Answers
import Aspectus.Security.Ownership
import Aspectus.Security.Transparency
import Aspectus.Security.Verification
import Aspectus.Core.Split
import Aspectus.Auth.ClientCache
import Aspectus.Core.ScopeName
import Aspectus.Routes.ClientAddress
import Aspectus.Security.ClientAddress
import Aspectus.Security.ClientCache
import Aspectus.Security.Logout
import Aspectus.Security.ScopeExistence
import Aspectus.Security.ScopeOutage
import Aspectus.Security.ScopeStrings
import Aspectus.Interaction.Sum
import Aspectus.Data.Pruned
import Aspectus.Discipline.Cleanup
import Aspectus.Routes.Tenants
import Aspectus.Security.Cleanup
import Aspectus.Security.Quotas
import Aspectus.Discipline.Writes
import Aspectus.Security.Invariants
import Aspectus.Security.LoginLookup
