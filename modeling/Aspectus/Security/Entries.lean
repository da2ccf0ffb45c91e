import Aspectus.Discipline.Auth
import Aspectus.Security.Log

/-!
This module contains what the entries of the log of the authentication service say: about the
database before and after them, and about the request that made them.
-/

namespace Aspectus

open Interaction Machine Statement

/--
The entry records that a user access token with these claims was signed.
-/
def Signed (e : AuthEntry) (claims : JwtClaims) : Prop :=
  ∃ token, Did e (.host (.encodeJwt claims)) (.ok token)

/--
The entry records that a refresh token was stored.
-/
def RefreshCreated (e : AuthEntry) (tokenHash userId clientId : String) : Prop :=
  ∃ expiresAt, Did e (.refresh (.create tokenHash userId clientId expiresAt)) (.ok ())

/--
The entry records that a refresh token was rotated.
-/
def Rotated (e : AuthEntry) (tokenHash userId clientId : String) : Prop :=
  ∃ oldHash, Did e (.refresh (.rotate tokenHash)) (.ok (some (userId, clientId, oldHash)))

/--
The entry records that all refresh tokens of a user were revoked.
-/
def AllRevoked (e : AuthEntry) (userId : String) : Prop :=
  ∃ n, Did e (.refresh (.revokeAllForUser userId)) (.ok n)

/--
The entry records that an authorization code was created.
-/
def CodeStored (e : AuthEntry) (code userId clientId redirectUri : String) (expiresAt : Instant) :
    Prop :=
  Did e (.code (.createCode code userId clientId redirectUri expiresAt)) (.ok ())

/--
The entry records that an authorization code was exchanged.
-/
def Exchanged (e : AuthEntry) (code userId clientId redirectUri : String) : Prop :=
  Did e (.code (.exchangeCode code)) (.ok (some (userId, clientId, redirectUri)))

/--
The entry issues a token of the user: it signs an access token, stores a refresh token, or answers
with both.
-/
inductive Issues (e : AuthEntry) (userId : String) : Prop where
  | signed {claims : JwtClaims} (hsigned : Signed e claims) (huser : claims.sub = userId)
  | created {tokenHash clientId : String} (hcreated : RefreshCreated e tokenHash userId clientId)
  | answered {a : Response} {t : UserTokens} (hw : e.what = .finish a) (hbody : a.body = .userTokens t)
    (huser : t.user.id = userId)

variable {cfg : Config} {s : Server} {m : AuthMachine} {e : AuthEntry} {rest : List AuthEntry}

theorem RefreshCreated.spec {tokenHash userId clientId : String}
    (h : RefreshCreated e tokenHash userId clientId) (hs : Entry.Sound (semantics cfg) e)
    : e.pre.refreshTokens.lookup tokenHash = none
        ∧ ∃ t, (e.post (semantics cfg)).refreshTokens.lookup tokenHash = some t
          ∧ t.userId = userId ∧ t.clientId = clientId ∧ t.revokedAt = none := by
  rcases h with ⟨expiresAt, hdid⟩
  have hok := hdid.run hs (fun d hres => ⟨hres.symm, rfl⟩)
  rcases createRefreshToken_ok hok with ⟨tokens, htokens, hpost⟩
  refine ⟨(Table.insertNew_eq_some.mp htokens).1, ⟨userId, clientId, expiresAt, none⟩, ?_, rfl, rfl,
    rfl⟩
  rw [hpost]
  simp [Table.lookup_insertNew htokens]

theorem Rotated.spec {tokenHash userId clientId : String}
    (h : Rotated e tokenHash userId clientId) (hs : Entry.Sound (semantics cfg) e)
    : ∃ t, e.pre.refreshTokens.lookup tokenHash = some t ∧ rotatable e.pre.now t = true
        ∧ t.userId = userId ∧ t.clientId = clientId
        ∧ (e.post (semantics cfg)).refreshTokens.lookup tokenHash
          = some { t with revokedAt := some e.pre.now } := by
  rcases h with ⟨oldHash, hdid⟩
  have hok := hdid.run hs (fun d hres => ⟨hres.symm, rfl⟩)
  rcases rotate_ok hok with ⟨hnone, _⟩ | ⟨t, ht, hrot, hsome, hpost⟩
  . contradiction
  . simp only [Option.some.injEq, Prod.mk.injEq] at hsome
    refine ⟨t, ht, hrot, hsome.1.symm, hsome.2.1.symm, ?_⟩
    rw [hpost]
    simp [ht]

theorem AllRevoked.spec {userId : String} (h : AllRevoked e userId)
    (hs : Entry.Sound (semantics cfg) e) {tokenHash : String} {t : RefreshToken}
    (ht : e.pre.refreshTokens.lookup tokenHash = some t) (huser : t.userId = userId)
    : ∃ t', (e.post (semantics cfg)).refreshTokens.lookup tokenHash = some t'
        ∧ t'.revokedAt.isSome := by
  rcases h with ⟨n, hdid⟩
  have hok := hdid.run hs (fun d hres => ⟨hres.symm, rfl⟩)
  injection hok with hok
  injection hok with _ hpost
  rw [← hpost]
  refine ⟨if t.revokedAt.isNone then { t with revokedAt := some e.pre.now } else t, ?_, ?_⟩
  . simp [ht, huser]
  . cases hr : t.revokedAt with
    | none => simp
    | some at_ => simp [hr]

theorem CodeStored.spec {code userId clientId redirectUri : String} {expiresAt : Instant}
    (h : CodeStored e code userId clientId redirectUri expiresAt)
    (hs : Entry.Sound (semantics cfg) e)
    : e.pre.authorizationCodes.lookup code = none
        ∧ (e.post (semantics cfg)).authorizationCodes.lookup code
          = some ⟨userId, clientId, redirectUri, expiresAt, false, none⟩ := by
  have hok := Did.run h hs (fun d hres => ⟨hres.symm, rfl⟩)
  rcases createCode_ok hok with ⟨codes, hcodes, hpost⟩
  refine ⟨(Table.insertNew_eq_some.mp hcodes).1, ?_⟩
  rw [hpost]
  simp [Table.lookup_insertNew hcodes]

theorem Exchanged.spec {code userId clientId redirectUri : String}
    (h : Exchanged e code userId clientId redirectUri) (hs : Entry.Sound (semantics cfg) e)
    : ∃ c, e.pre.authorizationCodes.lookup code = some c ∧ exchangeable e.pre.now c = true
        ∧ c.userId = userId ∧ c.clientId = clientId ∧ c.redirectUri = redirectUri
        ∧ (e.post (semantics cfg)).authorizationCodes.lookup code = some { c with used := true } := by
  have hok := Did.run h hs (fun d hres => ⟨hres.symm, rfl⟩)
  rcases exchangeCode_ok hok with ⟨hnone, _⟩ | ⟨c, hc, hex, hsome, hpost⟩
  . contradiction
  . simp only [Option.some.injEq, Prod.mk.injEq] at hsome
    refine ⟨c, hc, hex, hsome.1.symm, hsome.2.1.symm, hsome.2.2.symm, ?_⟩
    rw [hpost]
    simp [hc]

/--
A user was changed by the entry, or has been inserted by it.
-/
theorem users_step (e : AuthEntry) {id : String} {u' : User}
    (hu' : (e.post (semantics cfg)).users.lookup id = some u')
    : e.pre.users.lookup id = some u' ∨ ∃ o r, Did e o r
        ∧ ((∃ u, e.pre.users.lookup id = some u ∧ u.Changed o id u')
          ∨ (e.pre.users.lookup id = none ∧ u'.Inserted o id)) := by
  rcases e.post_cases (semantics cfg) with hpost | ⟨⟨o, r⟩, d, hw, hpost⟩
  . rw [hpost] at hu'
    exact .inl hu'
  . rw [hpost] at hu'
    exact .inr ⟨o, r, ⟨d, hw⟩, Op.exec_users cfg d e.pre o id u' hu'⟩

/--
An authorization code that was not there before the entry has been created by it.
-/
theorem code_created (hs : Entry.Sound (semantics cfg) e) {code : String}
    (hpre : e.pre.authorizationCodes.lookup code = none) {c : AuthorizationCode}
    (hpost : (e.post (semantics cfg)).authorizationCodes.lookup code = some c)
    : ∃ userId clientId redirectUri expiresAt,
        CodeStored e code userId clientId redirectUri expiresAt := by
  rcases e.post_cases (semantics cfg) with hstore | ⟨⟨o, r⟩, d, hw, hstore⟩
  . rw [hstore, hpre] at hpost
    contradiction
  . rw [hstore] at hpost
    rcases (Op.exec_codes cfg d e.pre o).created code c hpre hpost with
      ⟨userId, clientId, redirectUri, expiresAt, rfl⟩
    have hres := hs _ d hw
    cases r with
    | ok _ => exact ⟨userId, clientId, redirectUri, expiresAt, d, hw⟩
    | error msg =>
      have hsame : (Op.exec cfg (.code (.createCode code userId clientId redirectUri expiresAt)) d
          e.pre).2 = e.pre := run_error hres.symm
      change (Op.exec cfg _ d e.pre).2.authorizationCodes.lookup code = some c at hpost
      rw [hsame, hpre] at hpost
      contradiction

/--
The same for a refresh token.
-/
theorem refreshToken_created (hs : Entry.Sound (semantics cfg) e) {tokenHash : String}
    (hpre : e.pre.refreshTokens.lookup tokenHash = none) {t : RefreshToken}
    (hpost : (e.post (semantics cfg)).refreshTokens.lookup tokenHash = some t)
    : ∃ userId clientId, RefreshCreated e tokenHash userId clientId := by
  rcases e.post_cases (semantics cfg) with hstore | ⟨⟨o, r⟩, d, hw, hstore⟩
  . rw [hstore, hpre] at hpost
    contradiction
  . rw [hstore] at hpost
    rcases Op.exec_refreshTokens cfg d e.pre o tokenHash t hpre hpost with
      ⟨userId, clientId, expiresAt, rfl⟩
    have hres := hs _ d hw
    cases r with
    | ok _ => exact ⟨userId, clientId, expiresAt, d, hw⟩
    | error msg =>
      have hsame : (Op.exec cfg (.refresh (.create tokenHash userId clientId expiresAt)) d
          e.pre).2 = e.pre := run_error hres.symm
      change (Op.exec cfg _ d e.pre).2.refreshTokens.lookup tokenHash = some t at hpost
      rw [hsame, hpre] at hpost
      contradiction

section Reachable

variable (h : AuthMachine.Reachable cfg s m)
include h

theorem AuthMachine.Reachable.sound (he : e ∈ m.log) : Entry.Sound (semantics cfg) e :=
  Reaches.sound h e he

/--
Every operation that was called was one its request may call.
-/
theorem AuthMachine.Reachable.allowed (he : e :: rest <:+ m.log) {o : Op} {r : o.Res}
    (hdid : Did e o r)
    : ∃ q, Started rest e.thread q ∧ Allowed cfg q (eventsOf e.thread rest) o := by
  rcases hdid with ⟨d, hw⟩
  exact Reaches.called (AuthRequest.handle_conforms cfg) h he hw

/--
Every response was one its request may give.
-/
theorem AuthMachine.Reachable.answered (he : e :: rest <:+ m.log) {a : Response}
    (hw : e.what = .finish a)
    : ∃ q, Started rest e.thread q ∧ Answered cfg q (eventsOf e.thread rest) a :=
  Reaches.finished (AuthRequest.handle_conforms cfg) h he hw

/--
Tokens are only issued by threads that are authorized to.
-/
theorem AuthMachine.Reachable.issued (he : e :: rest <:+ m.log) {userId : String}
    (hissues : Issues e userId)
    : ∃ q tenantId clientId, Started rest e.thread q
        ∧ Authorized cfg (eventsOf e.thread rest) q userId tenantId clientId := by
  cases hissues with
  | signed hsigned huser =>
    rcases hsigned with ⟨token, hdid⟩
    rcases h.allowed he hdid with ⟨q, hq, ⟨clientId, hauth⟩, _⟩
    exact ⟨q, _, clientId, hq, huser ▸ hauth⟩
  | created hcreated =>
    rcases hcreated with ⟨expiresAt, hdid⟩
    rcases h.allowed he hdid with ⟨q, hq, ⟨tenantId, hauth⟩, _⟩
    exact ⟨q, tenantId, _, hq, hauth⟩
  | answered hw hbody huser =>
    rcases h.answered he hw with ⟨q, hq, hanswered⟩
    unfold Answered at hanswered
    rw [hbody] at hanswered
    rcases hanswered.authorized with ⟨clientId, _, hauth, _⟩
    exact ⟨q, _, clientId, hq, huser ▸ hauth⟩

/--
The database only evolves from an older entry to a newer one.
-/
theorem AuthMachine.Reachable.evolves (he : e :: rest <:+ m.log) {e' : AuthEntry}
    (he' : e' ∈ rest) : Evolves (e'.post (semantics cfg)) e.pre :=
  (evolution cfg).between h he he'

/--
A call of a thread is made after its start.
-/
theorem AuthMachine.Reachable.call_after_start {st e : AuthEntry} {rest₀ rest : List AuthEntry}
    {q : AuthRequest} (hst : st :: rest₀ <:+ m.log) (hw : st.what = .start q)
    (he : e :: rest <:+ m.log) (hi : e.thread = st.thread) {o : Op} {r : o.Res} (hdid : Did e o r)
    : st :: rest₀ <:+ rest := by
  rcases Reaches.after_start h hst hw he hi with ⟨rfl, _⟩ | hold
  . rcases hdid with ⟨d, hw'⟩
    rw [hw] at hw'
    contradiction
  . exact hold

end Reachable

end Aspectus
