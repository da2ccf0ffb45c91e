import Aspectus.Data.Pruned
import Aspectus.Discipline.Cleanup
import Aspectus.Store.Frame

/-!
This module contains how a state with and without a cleanup are related: they differ in tokens that are of
no use anymore, and hardly any operation tells them apart.
-/

namespace Aspectus

open Interaction Prog Machine Statement

/--
The state with other refresh tokens and other tokens for resets.
-/
def withTokens (s : Server) (tokens : Table String RefreshToken × Table String PasswordResetToken) :
    Server :=
  { s with
    refreshTokens := tokens.1
    passwordResetTokens := tokens.2 }

def Server.tokens (s : Server) : Table String RefreshToken × Table String PasswordResetToken :=
  (s.refreshTokens, s.passwordResetTokens)

section Independence

variable {α : Type} {d : Draw} {s : Server}
  {tokens : Table String RefreshToken × Table String PasswordResetToken} {params : List String}

/--
A statement that neither reads nor writes the tokens.
-/
def Independent (f : Server → Result (α × Server)) : Prop :=
  ∀ s tokens, f (withTokens s tokens) = (f s).map fun r => (r.1, withTokens r.2 tokens)

theorem run_withTokens {f : Server → Result (α × Server)} (hf : Independent f) :
    Statement.run d params f (withTokens s tokens)
      = ((Statement.run d params f s).1, withTokens (Statement.run d params f s).2 tokens) := by
  unfold Statement.run
  cases d.fault with
  | some e => rfl
  | none =>
    dsimp only
    split
    . rw [hf]
      cases f s with
      | error e => rfl
      | ok r => rfl
    . rfl

theorem query_withTokens {f : Server → Result α} (hf : ∀ s tokens, f (withTokens s tokens) = f s) :
    query d params f (withTokens s tokens)
      = ((query d params f s).1, withTokens (query d params f s).2 tokens) := by
  apply run_withTokens
  intro s tokens
  dsimp only
  rw [hf]
  cases f s with
  | error e => rfl
  | ok a => rfl

/--
A statement first computes something that does not depend on the tokens.
-/
theorem independent_bind {β : Type} {f : Server → Result β} {g : β → Server → Result (α × Server)}
    (hf : ∀ s tokens, f (withTokens s tokens) = f s) (hg : ∀ b, Independent (g b))
    : Independent fun s => f s >>= fun b => g b s := by
  intro s tokens
  dsimp only
  rw [hf]
  cases f s with
  | error e => rfl
  | ok b => exact hg b s tokens

theorem independent_ite {c : Server → Bool} {f g : Server → Result (α × Server)}
    (hc : ∀ s tokens, c (withTokens s tokens) = c s) (hf : Independent f) (hg : Independent g)
    : Independent fun s => if c s then f s else g s := by
  intro s tokens
  dsimp only
  rw [hc]
  split
  . exact hf s tokens
  . exact hg s tokens

theorem UserOp.exec_withTokens (o : UserOp) :
    o.exec d (withTokens s tokens) = ((o.exec d s).1, withTokens (o.exec d s).2 tokens) := by
  cases o with
  | insert id tenantId email passwordHash displayName =>
    apply run_withTokens
    unfold insertUser
    repeat' first | refine independent_bind (fun _ _ => rfl) fun _ => ?_ | exact fun _ _ => rfl
  | setSuspended id suspended =>
    dsimp only [UserOp.exec]
    apply run_withTokens
    exact fun _ _ => rfl
  | setPassword id passwordHash =>
    dsimp only [UserOp.exec]
    apply run_withTokens
    exact fun _ _ => rfl
  | clearFailedLogins id =>
    dsimp only [UserOp.exec]
    apply run_withTokens
    exact fun _ _ => rfl
  | updateLastSignIn id =>
    dsimp only [UserOp.exec]
    apply run_withTokens
    exact fun _ _ => rfl
  | recordFailedLogin id threshold durationSecs =>
    apply run_withTokens
    intro s tokens
    have hrow : (withTokens s tokens).users.lookup id = s.users.lookup id := rfl
    unfold Statement.recordFailedLogin
    rw [hrow]
    cases s.users.lookup id with
    | none => rfl
    | some u =>
      have hnow : (withTokens s tokens).now = s.now := rfl
      dsimp only
      rw [hnow]
      split
      . rfl
      . split
        . rfl
        . rfl
  | _ => exact query_withTokens fun _ _ => rfl

theorem TenantOp.exec_withTokens (o : TenantOp) :
    o.exec d (withTokens s tokens) = ((o.exec d s).1, withTokens (o.exec d s).2 tokens) := by
  cases o with
  | _ => exact query_withTokens fun _ _ => rfl

theorem RoleOp.exec_withTokens (cfg : Config) (o : RoleOp) :
    o.exec cfg d (withTokens s tokens) = ((o.exec cfg d s).1, withTokens (o.exec cfg d s).2 tokens) := by
  cases o with
  | assignDefault id userId roleId =>
    apply run_withTokens
    unfold assignDefaultRole
    refine independent_bind (fun _ _ => rfl) fun _ => ?_
    apply independent_ite (fun _ _ => rfl)
    . repeat' first | refine independent_bind (fun _ _ => rfl) fun _ => ?_ | exact fun _ _ => rfl
    . exact fun _ _ => rfl
  | assign id userId roleId =>
    apply run_withTokens
    unfold assignRole
    repeat' first | refine independent_bind (fun _ _ => rfl) fun _ => ?_ | exact fun _ _ => rfl
  | remove userId roleId =>
    dsimp only [RoleOp.exec]
    apply run_withTokens
    exact fun _ _ => rfl
  | insert id name description roleType =>
    apply run_withTokens
    unfold insertRole
    repeat' first | refine independent_bind (fun _ _ => rfl) fun _ => ?_ | exact fun _ _ => rfl
  | update id description roleType =>
    apply run_withTokens
    intro s tokens
    have hrow : (withTokens s tokens).roles.lookup id = s.roles.lookup id := rfl
    unfold updateRole
    rw [hrow]
    cases s.roles.lookup id with
    | none => rfl
    | some role =>
      dsimp only
      cases description.mapM (varchar 256) with
      | error e => rfl
      | ok _ => rfl
  | delete id =>
    apply run_withTokens
    intro s tokens
    have hrow : (withTokens s tokens).roles.lookup id = s.roles.lookup id := rfl
    unfold Statement.deleteRole
    rw [hrow]
    cases s.roles.lookup id with
    | none => rfl
    | some role =>
      dsimp only
      change (require (roleUsers id s).isEmpty _ >>= _) = _
      cases require (roleUsers id s).isEmpty _ with
      | error e => rfl
      | ok _ => rfl
  | deleteScopes id =>
    dsimp only [RoleOp.exec]
    apply run_withTokens
    exact fun _ _ => rfl
  | addScope id roleId scopeId =>
    apply run_withTokens
    unfold addRoleScope
    apply independent_ite (fun _ _ => rfl)
    . repeat' first | refine independent_bind (fun _ _ => rfl) fun _ => ?_ | exact fun _ _ => rfl
    . exact fun _ _ => rfl
  | insertScope id name =>
    apply run_withTokens
    unfold Statement.insertScope
    repeat' first | refine independent_bind (fun _ _ => rfl) fun _ => ?_ | exact fun _ _ => rfl
  | _ => exact query_withTokens fun _ _ => rfl

theorem CodeOp.exec_withTokens (o : CodeOp) :
    o.exec d (withTokens s tokens) = ((o.exec d s).1, withTokens (o.exec d s).2 tokens) := by
  cases o with
  | createCode code userId clientId redirectUri expiresAt =>
    apply run_withTokens
    unfold Statement.createCode
    repeat' first | refine independent_bind (fun _ _ => rfl) fun _ => ?_ | exact fun _ _ => rfl
  | setChallenge challenge code =>
    apply run_withTokens
    intro s tokens
    have hrow : (withTokens s tokens).authorizationCodes.lookup code = s.authorizationCodes.lookup code := rfl
    unfold Statement.setChallenge
    rw [hrow]
    cases s.authorizationCodes.lookup code with
    | none => rfl
    | some row =>
      dsimp only
      cases varchar 255 challenge with
      | error e => rfl
      | ok _ => rfl
  | exchangeCode code =>
    apply run_withTokens
    intro s tokens
    have hrow : (withTokens s tokens).authorizationCodes.lookup code = s.authorizationCodes.lookup code := rfl
    unfold Statement.exchangeCode
    rw [hrow]
    cases s.authorizationCodes.lookup code with
    | none => rfl
    | some row =>
      dsimp only
      change (if exchangeable s.now row then _ else _) = _
      split
      . rfl
      . rfl
  | selectChallenge code => exact query_withTokens fun _ _ => rfl

theorem ClientOp.exec_withTokens (o : ClientOp) :
    o.exec d (withTokens s tokens) = ((o.exec d s).1, withTokens (o.exec d s).2 tokens) := by
  cases o with
  | create clientId name redirectUris clientSecretHash =>
    apply run_withTokens
    unfold Statement.createClient
    repeat' first | refine independent_bind (fun _ _ => rfl) fun _ => ?_ | exact fun _ _ => rfl
  | _ => exact query_withTokens fun _ _ => rfl

theorem KeyOp.exec_withTokens (o : KeyOp) :
    o.exec d (withTokens s tokens) = ((o.exec d s).1, withTokens (o.exec d s).2 tokens) := by
  cases o with
  | insert params =>
    apply run_withTokens
    unfold insertApiKey
    repeat' first | refine independent_bind (fun _ _ => rfl) fun _ => ?_ | exact fun _ _ => rfl
  | revoke id =>
    apply run_withTokens
    intro s tokens
    have hrow : (withTokens s tokens).apiKeys.lookup id = s.apiKeys.lookup id := rfl
    unfold Statement.revokeApiKey
    rw [hrow]
    cases s.apiKeys.lookup id with
    | none => rfl
    | some row =>
      dsimp only
      split
      . rfl
      . rfl
  | setUserOwner userId id =>
    apply run_withTokens
    intro s tokens
    have hrow : (withTokens s tokens).apiKeys.lookup id = s.apiKeys.lookup id := rfl
    unfold Statement.setUserOwner
    rw [hrow]
    cases s.apiKeys.lookup id with
    | none => rfl
    | some row =>
      dsimp only
      change (references _ _ userId s.users >>= _) = _
      cases references "api_keys" "api_keys_user_id_fkey" userId s.users with
      | error e => rfl
      | ok _ => rfl
  | _ => exact query_withTokens fun _ _ => rfl

theorem ServiceTokenOp.exec_withTokens (cfg : Config) (o : ServiceTokenOp) :
    o.exec cfg d (withTokens s tokens) = ((o.exec cfg d s).1, withTokens (o.exec cfg d s).2 tokens) := by
  cases o with
  | upsert project tokenHash tokenPrefix =>
    dsimp only [ServiceTokenOp.exec]
    apply run_withTokens
    exact fun _ _ => rfl
  | revoke project =>
    apply run_withTokens
    intro s tokens
    have hrow : (withTokens s tokens).serviceTokens.lookup project.toString = s.serviceTokens.lookup project.toString := rfl
    unfold revokeServiceToken
    rw [hrow]
    cases s.serviceTokens.lookup project.toString with
    | none => rfl
    | some row =>
      dsimp only
      split
      . rfl
      . rfl
  | seedAdmin tokenHash =>
    dsimp only [ServiceTokenOp.exec]
    apply run_withTokens
    exact fun _ _ => rfl
  | _ => exact query_withTokens fun _ _ => rfl

theorem CacheOp.exec_withTokens (o : CacheOp) :
    o.exec d (withTokens s tokens) = ((o.exec d s).1, withTokens (o.exec d s).2 tokens) := by
  have hcached : ∀ key, (withTokens s tokens).cached key = s.cached key := fun _ => rfl
  have hset : ∀ key value ttlSecs, (withTokens s tokens).setEx key value ttlSecs
      = withTokens (s.setEx key value ttlSecs) tokens := by
    intro key value ttlSecs
    unfold Server.setEx
    split
    . rfl
    . rfl
  cases o with
  | getJson key =>
    unfold CacheOp.exec
    dsimp only
    rw [hcached]
    split <;> rfl
  | get key =>
    unfold CacheOp.exec
    dsimp only
    rw [hcached]
    split <;> rfl
  | setJson key value ttlSecs =>
    unfold CacheOp.exec
    dsimp only
    cases d.fault with
    | some e => rfl
    | none => exact congrArg _ (hset ..)
  | set key value ttlSecs =>
    unfold CacheOp.exec
    dsimp only
    cases d.fault with
    | some e => rfl
    | none => exact congrArg _ (hset ..)
  | del key =>
    unfold CacheOp.exec
    dsimp only
    cases d.fault with
    | some e => rfl
    | none => rfl
  | checkRate key bucket maxRequests windowSecs =>
    unfold CacheOp.exec
    dsimp only
    cases d.fault with
    | some e => rfl
    | none => rfl

theorem HostOp.exec_withTokens (cfg : Config) (o : HostOp) :
    o.exec cfg d (withTokens s tokens) = ((o.exec cfg d s).1, withTokens (o.exec cfg d s).2 tokens) := by
  cases o with
  | _ => rfl

/--
All operations but the ones on these tokens neither read nor write them.
-/
theorem Op.exec_withTokens (cfg : Config) {o : Op} (hrefresh : ∀ o', o ≠ .refresh o')
    (hreset : ∀ o', o ≠ .reset o')
    : o.exec cfg d (withTokens s tokens) = ((o.exec cfg d s).1, withTokens (o.exec cfg d s).2 tokens) := by
  cases o with
  | user o => exact o.exec_withTokens
  | tenant o => exact o.exec_withTokens
  | role o => exact o.exec_withTokens cfg
  | code o => exact o.exec_withTokens
  | refresh o => exact absurd rfl (hrefresh o)
  | client o => exact o.exec_withTokens
  | reset o => exact absurd rfl (hreset o)
  | key o => exact o.exec_withTokens
  | serviceToken o => exact o.exec_withTokens cfg
  | cache o => exact o.exec_withTokens
  | host o => exact o.exec_withTokens cfg
  | auditAppend id entry =>
    apply run_withTokens
    unfold appendAudit
    repeat' first | refine independent_bind (fun _ _ => rfl) fun _ => ?_ | exact fun _ _ => rfl

end Independence

/--
A refresh token that the next cleanup deletes.
-/
def RefreshToken.Expired (now : Instant) (t : RefreshToken) : Prop :=
  t.expiresAt < now

/--
A token for a reset that the next cleanup deletes.
-/
def PasswordResetToken.Spent (now : Instant) (t : PasswordResetToken) : Prop :=
  t.used = true ∨ t.expiresAt < now

/--
The first state is the second one without some tokens that are of no use anymore.
-/
structure Cleaned (s s' : Server) : Prop where
  rest : s' = withTokens s s'.tokens
  refresh : Table.Pruned (RefreshToken.Expired s.now) s.refreshTokens s'.refreshTokens
  reset : Table.Pruned (PasswordResetToken.Spent s.now) s.passwordResetTokens s'.passwordResetTokens

/--
The operation tells the states apart: it looks up a token that was revoked in the second state and deleted from
the first one, or it stores a token under the hash of one that was deleted.
-/
def TellsApart (o : ServerApi.Op) (s s' : Server) : Prop :=
  match o with
  | .left (.refresh (.findByHashAny tokenHash)) =>
    s.refreshTokens.lookup tokenHash = none
      ∧ ∃ t, s'.refreshTokens.lookup tokenHash = some t ∧ t.revokedAt.isSome
  | .left (.refresh (.create tokenHash ..)) =>
    s.refreshTokens.lookup tokenHash = none ∧ (s'.refreshTokens.lookup tokenHash).isSome
  | .left (.reset (.insert tokenHash ..)) =>
    s.passwordResetTokens.lookup tokenHash = none ∧ (s'.passwordResetTokens.lookup tokenHash).isSome
  | _ => False

section Tokens

variable {s s' : Server} {d : Draw}

theorem Cleaned.now (h : Cleaned s s') : s'.now = s.now := by
  rw [h.rest]
  rfl

theorem Cleaned.users (h : Cleaned s s') : s'.users = s.users := by
  rw [h.rest]
  rfl

theorem Cleaned.refl (s : Server) : Cleaned s s :=
  ⟨rfl, .refl _ _, .refl _ _⟩

/--
The states stay related if only their refresh tokens change.
-/
theorem Cleaned.withRefreshTokens (h : Cleaned s s') {tokens tokens' : Table String RefreshToken}
    (htokens : Table.Pruned (RefreshToken.Expired s.now) tokens tokens')
    : Cleaned { s with refreshTokens := tokens } { s' with refreshTokens := tokens' } := by
  refine ⟨?_, htokens, h.reset⟩
  rw [h.rest]
  rfl

theorem Cleaned.withResetTokens (h : Cleaned s s') {tokens tokens' : Table String PasswordResetToken}
    (htokens : Table.Pruned (PasswordResetToken.Spent s.now) tokens tokens')
    : Cleaned { s with passwordResetTokens := tokens } { s' with passwordResetTokens := tokens' } := by
  refine ⟨?_, h.refresh, htokens⟩
  rw [h.rest]
  rfl

/--
Statements on related states that either both fail with the same error, or both succeed with answers that are
alike.
-/
theorem run_cleaned {α : Type} {A : Result α → Result α → Prop} {params : List String}
    {f : Server → Result (α × Server)} (h : Cleaned s s') (hA : ∀ r, A r r)
    (hf : (∃ e, f s = .error e ∧ f s' = .error e)
      ∨ ∃ a a' u u', f s = .ok (a, u) ∧ f s' = .ok (a', u') ∧ A (.ok a) (.ok a') ∧ Cleaned u u')
    : A (Statement.run d params f s).1 (Statement.run d params f s').1
        ∧ Cleaned (Statement.run d params f s).2 (Statement.run d params f s').2 := by
  unfold Statement.run
  cases d.fault with
  | some e => exact ⟨hA _, h⟩
  | none =>
    dsimp only
    split
    . rcases hf with ⟨e, hs, hs'⟩ | ⟨a, a', u, u', hs, hs', ha, hu⟩
      . rw [hs, hs']
        exact ⟨hA _, h⟩
      . rw [hs, hs']
        exact ⟨ha, hu⟩
    . exact ⟨hA _, h⟩

theorem createRefreshToken_cleaned (h : Cleaned s s') {tokenHash userId clientId : String}
    {expiresAt : Instant}
    (hnew : s.refreshTokens.lookup tokenHash = none → s'.refreshTokens.lookup tokenHash = none)
    : (∃ e, createRefreshToken tokenHash userId clientId expiresAt s = .error e
          ∧ createRefreshToken tokenHash userId clientId expiresAt s' = .error e)
        ∨ ∃ u u', createRefreshToken tokenHash userId clientId expiresAt s = .ok ((), u)
          ∧ createRefreshToken tokenHash userId clientId expiresAt s' = .ok ((), u') ∧ Cleaned u u' := by
  have hreferences : references "refresh_tokens" "refresh_tokens_user_id_fkey" userId s'.users
      = references "refresh_tokens" "refresh_tokens_user_id_fkey" userId s.users := by
    rw [h.users]
  unfold createRefreshToken Statement.insert
  rw [hreferences]
  rcases h.refresh.insertNew hnew ⟨userId, clientId, expiresAt, none⟩ with
    ⟨hnone, hnone'⟩ | ⟨u, u', hinsert, hinsert', hpruned⟩
  . rw [hnone, hnone']
    exact .inl ⟨_, rfl, rfl⟩
  . rw [hinsert, hinsert']
    cases references "refresh_tokens" "refresh_tokens_user_id_fkey" userId s.users with
    | error e => exact .inl ⟨_, rfl, rfl⟩
    | ok _ =>
      refine .inr ⟨_, _, rfl, rfl, ?_⟩
      exact h.withRefreshTokens hpruned

theorem insertResetToken_cleaned (h : Cleaned s s') {tokenHash userId : String} {expiresAt : Instant}
    (hnew : s.passwordResetTokens.lookup tokenHash = none →
      s'.passwordResetTokens.lookup tokenHash = none)
    : (∃ e, insertResetToken tokenHash userId expiresAt s = .error e
          ∧ insertResetToken tokenHash userId expiresAt s' = .error e)
        ∨ ∃ u u', insertResetToken tokenHash userId expiresAt s = .ok ((), u)
          ∧ insertResetToken tokenHash userId expiresAt s' = .ok ((), u') ∧ Cleaned u u' := by
  have hreferences : references "password_reset_tokens" "password_reset_tokens_user_id_fkey" userId s'.users
      = references "password_reset_tokens" "password_reset_tokens_user_id_fkey" userId s.users := by
    rw [h.users]
  unfold insertResetToken Statement.insert
  rw [hreferences]
  rcases h.reset.insertNew hnew ⟨userId, expiresAt, false⟩ with
    ⟨hnone, hnone'⟩ | ⟨u, u', hinsert, hinsert', hpruned⟩
  . rw [hnone, hnone']
    exact .inl ⟨_, rfl, rfl⟩
  . rw [hinsert, hinsert']
    cases references "password_reset_tokens" "password_reset_tokens_user_id_fkey" userId s.users with
    | error e => exact .inl ⟨_, rfl, rfl⟩
    | ok _ =>
      refine .inr ⟨_, _, rfl, rfl, ?_⟩
      exact h.withResetTokens hpruned

/--
An expired token is not rotated, and neither is one that is missing.
-/
theorem rotate_cleaned (h : Cleaned s s') (tokenHash : String)
    : ∃ r u u', Statement.rotate tokenHash s = .ok (r, u) ∧ Statement.rotate tokenHash s' = .ok (r, u')
        ∧ Cleaned u u' := by
  have hupdate : Table.Pruned (RefreshToken.Expired s.now)
      (s.refreshTokens.updateAt tokenHash fun t => { t with revokedAt := some s.now })
      (s'.refreshTokens.updateAt tokenHash fun t => { t with revokedAt := some s'.now }) := by
    rw [h.now]
    exact h.refresh.updateWhere _ fun _ hexpired => hexpired
  have hrotatable : ∀ t, rotatable s'.now t = rotatable s.now t := by
    intro t
    rw [h.now]
  unfold Statement.rotate
  rcases h.refresh tokenHash with heq | ⟨hnone, t, ht, hexpired⟩
  . rw [heq]
    cases s'.refreshTokens.lookup tokenHash with
    | none => exact ⟨_, _, _, rfl, rfl, h⟩
    | some t =>
      dsimp only
      rw [hrotatable]
      split
      . exact ⟨_, _, _, rfl, rfl, h.withRefreshTokens hupdate⟩
      . exact ⟨_, _, _, rfl, rfl, h⟩
  . have hrefused : rotatable s.now t = false := by
      unfold rotatable
      have := Int.not_lt.mpr (Int.le_of_lt hexpired)
      simp [this]
    rw [hnone, ht]
    dsimp only
    rw [hrotatable, hrefused]
    exact ⟨_, _, _, rfl, rfl, h⟩

/--
A token that was used or is expired is refused, and so is one that is missing.
-/
theorem claimResetToken_cleaned (h : Cleaned s s') (tokenHash : String)
    : ∃ r u u', claimResetToken tokenHash s = .ok (r, u) ∧ claimResetToken tokenHash s' = .ok (r, u')
        ∧ Cleaned u u' := by
  have hupdate : Table.Pruned (PasswordResetToken.Spent s.now)
      (s.passwordResetTokens.updateAt tokenHash fun t => { t with used := true })
      (s'.passwordResetTokens.updateAt tokenHash fun t => { t with used := true }) :=
    h.reset.updateWhere _ fun _ _ => .inl rfl
  have hclaimable : ∀ t : PasswordResetToken, ((!t.used && decide (s'.now < t.expiresAt)) = true)
      = ((!t.used && decide (s.now < t.expiresAt)) = true) := by
    intro t
    rw [h.now]
  unfold claimResetToken
  rcases h.reset tokenHash with heq | ⟨hnone, t, ht, hspent⟩
  . rw [heq]
    cases s'.passwordResetTokens.lookup tokenHash with
    | none => exact ⟨_, _, _, rfl, rfl, h⟩
    | some t =>
      simp only [hclaimable]
      split
      . exact ⟨_, _, _, rfl, rfl, h.withResetTokens hupdate⟩
      . exact ⟨_, _, _, rfl, rfl, h⟩
  . have hrefused : ¬((!t.used && decide (s.now < t.expiresAt)) = true) := by
      rcases hspent with hused | hexpired
      . simp [hused]
      . have := Int.not_lt.mpr (Int.le_of_lt hexpired)
        simp [this]
    rw [hnone, ht]
    simp only [hclaimable]
    rw [if_neg hrefused]
    exact ⟨_, _, _, rfl, rfl, h⟩

theorem revokeAllForUser_cleaned (h : Cleaned s s') (userId : String)
    : ∃ n n' u u', Statement.revokeAllForUser userId s = .ok (n, u)
        ∧ Statement.revokeAllForUser userId s' = .ok (n', u') ∧ Cleaned u u' := by
  have hupdate := h.refresh.updateWhere
    (fun (_ : String) (t : RefreshToken) => decide (t.userId = userId) && t.revokedAt.isNone)
    (f := fun t => { t with revokedAt := some s.now }) fun _ hexpired => hexpired
  refine ⟨_, _, _, _, rfl, rfl, h.withRefreshTokens ?_⟩
  rw [h.now]
  exact hupdate

/--
The rows that a cleanup deletes are dead.
-/
theorem CleanupOp.exec_removed (h : Cleaned s s') (o : CleanupOp) : Cleaned (o.exec d s).2 s' := by
  cases o with
  | deleteRefreshTokens =>
    apply run_store (P := fun u => Cleaned u s') h
    intro _ u hok
    cases hok
    apply h.withRefreshTokens
    apply h.refresh.deleteLeft
    intro _ t hp
    simpa [RefreshToken.Expired] using hp
  | deleteResetTokens =>
    apply run_store (P := fun u => Cleaned u s') h
    intro _ u hok
    cases hok
    apply h.withResetTokens
    apply h.reset.deleteLeft
    intro _ t hp
    simpa [PasswordResetToken.Spent] using hp

/--
A cleanup of both states deletes whatever was missing in one of them.
-/
theorem CleanupOp.exec_both (h : Cleaned s s') (o : CleanupOp)
    : AlikeAnswers (.right o) (o.exec d s).1 (o.exec d s').1
        ∧ Cleaned (o.exec d s).2 (o.exec d s').2 := by
  have hcount : ∀ n n', AlikeAnswers (.right o) (.ok n) (.ok n') := fun n n' => .inr ⟨n, n', rfl, rfl⟩
  have hrefl : ∀ r, AlikeAnswers (.right o) r r := fun _ => .inl rfl
  cases o with
  | deleteRefreshTokens =>
    apply run_cleaned h hrefl
    refine .inr ⟨_, _, _, _, rfl, rfl, hcount _ _, h.withRefreshTokens ?_⟩
    rw [h.now]
    apply h.refresh.deleteWhere
    intro _ t hexpired
    simpa [RefreshToken.Expired] using hexpired
  | deleteResetTokens =>
    apply run_cleaned h hrefl
    refine .inr ⟨_, _, _, _, rfl, rfl, hcount _ _, h.withResetTokens ?_⟩
    rw [h.now]
    apply h.reset.deleteWhere
    intro _ t hspent
    simpa [PasswordResetToken.Spent] using hspent

theorem RefreshOp.exec_both (h : Cleaned s s') {o : RefreshOp}
    (htells : ¬TellsApart (.left (.refresh o)) s s')
    : AlikeAnswers (.left (.refresh o)) (o.exec d s).1 (o.exec d s').1
        ∧ Cleaned (o.exec d s).2 (o.exec d s').2 := by
  cases o with
  | create tokenHash userId clientId expiresAt =>
    apply run_cleaned h (A := fun r r' => r = r') fun _ => rfl
    have hnew : s.refreshTokens.lookup tokenHash = none → s'.refreshTokens.lookup tokenHash = none := by
      intro hnone
      by_contra hsome
      exact htells ⟨hnone, Option.isSome_iff_ne_none.mpr hsome⟩
    rcases createRefreshToken_cleaned h hnew with herror | ⟨u, u', hok, hok', hu⟩
    . exact .inl herror
    . exact .inr ⟨_, _, u, u', hok, hok', rfl, hu⟩
  | rotate tokenHash =>
    apply run_cleaned h (A := fun r r' => r = r') fun _ => rfl
    rcases rotate_cleaned h tokenHash with ⟨r, u, u', hok, hok', hu⟩
    exact .inr ⟨r, r, u, u', hok, hok', rfl, hu⟩
  | revokeAllForUser userId =>
    apply run_cleaned h fun _ => .inl rfl
    rcases revokeAllForUser_cleaned h userId with ⟨n, n', u, u', hok, hok', hu⟩
    exact .inr ⟨n, n', u, u', hok, hok', .inr ⟨n, n', rfl, rfl⟩, hu⟩
  | findByHashAny tokenHash =>
    apply run_cleaned h fun _ => .inl rfl
    refine .inr ⟨_, _, s, s', rfl, rfl, ?_, h⟩
    rcases h.refresh tokenHash with heq | ⟨hnone, t, ht, _⟩
    . rw [heq]
      exact .inl rfl
    . rw [hnone, ht]
      refine .inr ⟨rfl, t.userId, ?_⟩
      cases hrevoked : t.revokedAt with
      | none => simp [hrevoked]
      | some _ => exact absurd ⟨hnone, t, ht, by simp [hrevoked]⟩ htells

theorem ResetOp.exec_both (h : Cleaned s s') {o : ResetOp} (htells : ¬TellsApart (.left (.reset o)) s s')
    : (o.exec d s).1 = (o.exec d s').1 ∧ Cleaned (o.exec d s).2 (o.exec d s').2 := by
  cases o with
  | insert tokenHash userId expiresAt =>
    apply run_cleaned h (A := fun r r' => r = r') fun _ => rfl
    have hnew : s.passwordResetTokens.lookup tokenHash = none →
        s'.passwordResetTokens.lookup tokenHash = none := by
      intro hnone
      by_contra hsome
      exact htells ⟨hnone, Option.isSome_iff_ne_none.mpr hsome⟩
    rcases insertResetToken_cleaned h hnew with herror | ⟨u, u', hok, hok', hu⟩
    . exact .inl herror
    . exact .inr ⟨_, _, u, u', hok, hok', rfl, hu⟩
  | claim tokenHash =>
    apply run_cleaned h (A := fun r r' => r = r') fun _ => rfl
    rcases claimResetToken_cleaned h tokenHash with ⟨r, u, u', hok, hok', hu⟩
    exact .inr ⟨r, r, u, u', hok, hok', rfl, hu⟩

/--
All other operations do the same in both states.
-/
theorem Op.exec_both (cfg : Config) (h : Cleaned s s') {o : Op} (hrefresh : ∀ o', o ≠ .refresh o')
    (hreset : ∀ o', o ≠ .reset o')
    : (o.exec cfg d s).1 = (o.exec cfg d s').1 ∧ Cleaned (o.exec cfg d s).2 (o.exec cfg d s').2 := by
  have hexec : o.exec cfg d (withTokens s s'.tokens)
      = ((o.exec cfg d s).1, withTokens (o.exec cfg d s).2 s'.tokens) :=
    Op.exec_withTokens cfg hrefresh hreset
  rw [← h.rest] at hexec
  have hframed := Op.exec_framed cfg d s o
  rw [hexec]
  refine ⟨rfl, rfl, ?_, ?_⟩
  . rw [hframed.now, hframed.refreshTokens hrefresh]
    exact h.refresh
  . rw [hframed.now, hframed.resetTokens hreset]
    exact h.reset

end Tokens

/--
How the states with and without a cleanup are related.
-/
theorem cleanup_screening (cfg : Config) :
    Screening (serverSemantics cfg) AlikeAnswers Cleaned (fun o => ∃ o', o = .right o') TellsApart where
  advance n s s' h := by
    refine ⟨?_, h.refresh.mono ?_, h.reset.mono ?_⟩
    . change Server.advance n s' = Server.advance n (withTokens s s'.tokens)
      rw [← h.rest]
    . intro t hexpired
      exact Int.lt_of_lt_of_le hexpired (Int.le_add_of_nonneg_right (Int.natCast_nonneg n))
    . rintro t (hused | hexpired)
      . exact .inl hused
      . exact .inr (Int.lt_of_lt_of_le hexpired (Int.le_add_of_nonneg_right (Int.natCast_nonneg n)))
  removed o d s s' ho h := by
    rcases ho with ⟨o, rfl⟩
    exact CleanupOp.exec_removed h o
  both o d s s' htells h := by
    cases o with
    | right o => exact CleanupOp.exec_both h o
    | left o =>
      by_cases hrefresh : ∃ o', o = .refresh o'
      . rcases hrefresh with ⟨o, rfl⟩
        exact RefreshOp.exec_both h htells
      . by_cases hreset : ∃ o', o = .reset o'
        . rcases hreset with ⟨o, rfl⟩
          exact ResetOp.exec_both h htells
        . rcases Op.exec_both (d := d) cfg h (by simpa using hrefresh) (by simpa using hreset) with
            ⟨hanswer, hstore⟩
          refine ⟨?_, hstore⟩
          cases o with
          | refresh o => exact absurd ⟨o, rfl⟩ hrefresh
          | _ => exact hanswer

end Aspectus
