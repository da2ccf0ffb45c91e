import Aspectus.Discipline.Auth
import Aspectus.Discipline.Creation
import Aspectus.Interaction.Reliance
import Aspectus.Security.Answers

/-!
This module contains that no token is issued for the project that is reserved for the admin token, as long as
nobody asks for it in a login or a registration.
-/

namespace Aspectus

open Interaction Prog Machine Statement

variable {cfg : Config} {s s' : Server} {d : Draw} {o : Op} {h : List (Event Api)}

/--
The requests that issue tokens, and the ones that manage what tokens are issued for.
-/
inductive CredentialRequest where
  | auth (q : AuthRequest)
  | key (q : KeyRequest)

def CredentialRequest.handle (cfg : Config) : CredentialRequest → App Response
  | .auth q => q.handle cfg
  | .key q => q.handle cfg

abbrev CredentialMachine : Type := Machine Api Server Draw CredentialRequest Response

abbrev CredentialMachine.Reachable (cfg : Config) (s : Server) (m : CredentialMachine) : Prop :=
  Machine.Reaches (semantics cfg) (CredentialRequest.handle cfg) (Machine.init s) m

/--
The reserved project is no client, and it has no keys. The enumeration type of the column `project` in fact
does not have it.
-/
structure Unreserved (s : Server) : Prop where
  client : s.oauth2Clients.lookup "aspectus" = none
  keys : ∀ id row, s.apiKeys.lookup id = some row → row.project ≠ .aspectus
  cached : ∀ key entry r, s.redis key = some entry → entry.value = .response r →
    r.clientId ≠ some "aspectus"

/--
The operation does not introduce the reserved project.
-/
def Op.Unreserved : Op → Prop
  | .client (.create clientId ..) => clientId ≠ "aspectus"
  | .cache (.setJson _ value _) => value.clientId ≠ some "aspectus"
  | .host (.encodeJwt claims) => claims.clientId ≠ "aspectus" ∧ claims.aud ≠ "aspectus"
  | _ => True

/--
The answer of an operation does not introduce the reserved project.
-/
structure UnreservedAnswer (ev : Event Api) : Prop where
  client : ∀ clientId row, ev = ⟨.client (.selectSecretHash clientId), .ok (some row)⟩ →
    clientId ≠ "aspectus"
  found : ∀ keyHash key, ev = ⟨.key (.findByHash keyHash), .ok (some key)⟩ → key.project ≠ .aspectus
  inserted : ∀ params key, ev = ⟨.key (.insert params), .ok key⟩ → params.project ≠ .aspectus
  cached : ∀ key r, ev = ⟨.cache (.getJson key), some r⟩ → r.clientId ≠ some "aspectus"

theorem toString_ne_reserved {p : Project} (h : p ≠ .aspectus) : p.toString ≠ "aspectus" := by
  intro heq
  have hparse := Project.parse_toString p
  rw [heq] at hparse
  injection hparse with hp
  exact h hp.symm

section Step

theorem Unreserved.exec_client (hs : Unreserved s) (ho : o.Unreserved) :
    (o.exec cfg d s).2.oauth2Clients.lookup "aspectus" = none := by
  by_cases hgroup : ∃ o', o = .client o'
  . rcases hgroup with ⟨o, rfl⟩
    cases o with
    | create clientId name redirectUris clientSecretHash =>
      apply run_store (P := fun s' => s'.oauth2Clients.lookup "aspectus" = none) hs.client
      intro _ s' h
      rcases createClient_ok h with ⟨c, clients, hclients, rfl⟩
      dsimp only
      rw [Table.lookup_insertNew hclients, if_neg (Ne.symm ho)]
      exact hs.client
    | _ => exact query_keeps (P := fun s' => s'.oauth2Clients.lookup "aspectus" = none) hs.client
  . rw [(Op.exec_framed cfg d s o).clients (by simpa using hgroup)]
    exact hs.client

theorem insertApiKey_project {params : InsertApiKeyParams} {key : ApiKey}
    (h : insertApiKey params s = .ok (key, s')) : params.project ≠ .aspectus := by
  unfold insertApiKey at h
  simp only [bind_eq_ok, require_ok] at h
  rcases h with ⟨_, hproject, _⟩
  simpa [isDatabaseProject] using hproject

theorem Unreserved.exec_keys (hs : Unreserved s) :
    ∀ id row, (o.exec cfg d s).2.apiKeys.lookup id = some row → row.project ≠ .aspectus := by
  by_cases hinsert : ∃ params, o = .key (.insert params)
  . rcases hinsert with ⟨params, rfl⟩
    apply run_store (P := fun s' => ∀ id row, s'.apiKeys.lookup id = some row → row.project ≠ .aspectus)
      hs.keys
    intro key s' h id row hrow
    have hproject := insertApiKey_project h
    unfold insertApiKey at h
    simp only [bind_eq_ok, insert_ok] at h
    rcases h with ⟨_, _, apiKeys, hapiKeys, _, _, _, _, _, _, _, _, h⟩
    cases h
    dsimp only at hrow
    rw [Table.lookup_insertNew hapiKeys] at hrow
    split at hrow
    . cases hrow
      exact hproject
    . exact hs.keys id row hrow
  . intro id row hrow
    rcases Op.exec_apiKeys cfg d s o id row hrow with ⟨row', hrow', hkept⟩ | ⟨params, rfl, _⟩
    . rw [hkept.project]
      exact hs.keys id row' hrow'
    . exact absurd ⟨params, rfl⟩ hinsert

theorem Unreserved.exec_cached (hs : Unreserved s) (ho : o.Unreserved) :
    ∀ key entry r, (o.exec cfg d s).2.redis key = some entry → entry.value = .response r →
      r.clientId ≠ some "aspectus" := by
  intro key entry r hentry hvalue
  rcases Op.exec_redis cfg d s o key entry hentry with
    hold | ⟨value, ttl, rfl, _, rfl⟩ | ⟨value, ttl, _, _, rfl⟩ | ⟨name, bucket, n, _, hcount⟩
  . exact hs.cached key entry r hold hvalue
  . cases hvalue
    exact ho
  . cases hvalue
  . rw [hcount] at hvalue
    cases hvalue

/--
Operations that do not introduce the reserved project keep it out of the state, and their answers do not
introduce it either.
-/
theorem Unreserved.exec (hs : Unreserved s) (ho : o.Unreserved) :
    Unreserved (o.exec cfg d s).2 ∧ UnreservedAnswer ⟨o, (o.exec cfg d s).1⟩ := by
  refine ⟨⟨hs.exec_client ho, hs.exec_keys, hs.exec_cached ho⟩, ?_, ?_, ?_, ?_⟩
  . rintro clientId row heq rfl
    injection heq with ho hr
    subst ho
    have hselect := query_ok (eq_of_heq hr)
    injection hselect with hselect
    rw [hs.client] at hselect
    contradiction
  . intro keyHash key heq
    injection heq with ho hr
    subst ho
    rcases findByHash_ok (query_ok (eq_of_heq hr)) with ⟨row, hrow, _, hdecode⟩
    rw [← (reflects_of_decode hdecode).project]
    exact hs.keys _ row hrow
  . intro params key heq
    injection heq with ho hr
    subst ho
    exact insertApiKey_project (run_ok (eq_of_heq hr))
  . intro key r heq
    injection heq with ho hr
    subst ho
    have hget : (CacheOp.exec d s (.getJson key)).1 = some r := eq_of_heq hr
    unfold CacheOp.exec at hget
    dsimp only at hget
    split at hget
    . next hcached =>
      injection hget with hget
      subst hget
      rcases Server.cached_eq_some.mp hcached with ⟨entry, hentry, _, hvalue⟩
      exact hs.cached key entry _ hentry hvalue
    . contradiction

end Step

section Requests

/--
A program that does not introduce the reserved project.
-/
abbrev Sparing {α : Type} (p : App α) : Prop :=
  p.Uses Op.Unreserved

theorem project_ne_reserved {clientId : String} (hclient : clientId ≠ "aspectus") :
    (Project.parse clientId).getD .pandaria ≠ .aspectus := by
  cases hparse : Project.parse clientId with
  | none => nofun
  | some project =>
    rintro rfl
    exact hclient (Project.toString_of_parse hparse).symm

/--
Tokens are issued for the reserved project only if it is asked for by its name. The identifiers of clients
that are created start differently.
-/
theorem AuthRequest.MayCall.unreserved {q : AuthRequest} (ho : q.MayCall cfg o)
    (hq : q.client ≠ some "aspectus") : o.Unreserved := by
  unfold Op.Unreserved
  split
  . rcases ho with ⟨id, rfl⟩
    have hid := append_ne_append (p := "client_") (q := "aspectus") (by decide) (by decide) id ""
    rwa [String.append_empty] at hid
  . exact ho.elim
  . rcases ho with ⟨clientId, project, hclient, rfl, hid, haud⟩
    have hproject : (Project.parse clientId).getD .pandaria ≠ .aspectus := by
      apply project_ne_reserved
      rintro rfl
      exact hq hclient
    rw [hid, haud]
    exact ⟨toString_ne_reserved hproject, toString_ne_reserved hproject⟩
  . trivial

/--
Both grants are for a client that is registered.
-/
theorem withClient_relies {req : TokenRequest} {grant : String → App Response}
    (hgrant : ∀ clientId, req.clientId = some clientId → clientId ≠ "aspectus" → Sparing (grant clientId))
    : (token.withClient cfg req grant).Conforms (Relies UnreservedAnswer Op.Unreserved)
        (fun _ _ => True) h := by
  unfold token.withClient
  split
  . trivial
  . next clientId hid =>
    apply conforms_perform_bind (.of_good (by trivial))
    rintro (e | row)
    . trivial
    . dsimp only
      split
      . next hsecret =>
        cases row with
        | none => contradiction
        | some row =>
          apply (relies_of_conforms (Q := fun _ => True) fun hgood => ?_).mono (fun _ _ ho => ho)
            fun _ _ _ => trivial
          have hclient := (hgood _ List.mem_cons_self).client clientId row rfl
          exact (hgrant clientId hid hclient).conforms (fun _ _ ho => ho) fun _ _ => trivial
      . trivial

/--
A body of `/login` or `/register` that names the reserved project.
-/
def CredentialRequest.NamesReserved : CredentialRequest → Prop
  | .auth (.login _ req) => req.clientId = "aspectus"
  | .auth (.register _ reg) => reg.clientId = "aspectus"
  | _ => False

theorem AuthRequest.client_ne_reserved {q : AuthRequest} (hq : ¬(CredentialRequest.auth q).NamesReserved)
    (htoken : ∀ req, q ≠ .token req) : q.client ≠ some "aspectus" := by
  intro hclient
  cases q with
  | login forwardedFor req => exact hq (Option.some.inj hclient)
  | register forwardedFor reg => exact hq (Option.some.inj hclient)
  | token req => exact htoken req rfl
  | _ => contradiction

theorem AuthRequest.relies (q : AuthRequest) (hq : ¬(CredentialRequest.auth q).NamesReserved) :
    (q.handle cfg).Conforms (Relies UnreservedAnswer Op.Unreserved) (fun _ _ => True) [] := by
  by_cases htoken : ∃ req, q = .token req
  . rcases htoken with ⟨req, rfl⟩
    have hunreserved : ∀ {o clientId}, req.clientId = some clientId → clientId ≠ "aspectus" →
        (AuthRequest.token req).MayCall cfg o → o.Unreserved := by
      intro o clientId hid hne ho
      apply ho.unreserved
      change req.clientId ≠ some "aspectus"
      rw [hid]
      exact fun heq => hne (Option.some.inj heq)
    dsimp only [AuthRequest.handle, Aspectus.token]
    unfold token.authorizationCode token.refreshToken
    split
    . split
      . trivial
      . exact withClient_relies fun _ hid hne => (exchange_mayCall hid).mono fun _ => hunreserved hid hne
    . split
      . trivial
      . exact withClient_relies fun _ hid hne => (rotate_mayCall hid).mono fun _ => hunreserved hid hne
    . trivial
  . have hclient := client_ne_reserved hq fun req heq => htoken ⟨req, heq⟩
    have hsparing : Sparing (q.handle cfg) := q.handle_calls.mono fun _ ho => ho.unreserved hclient
    exact hsparing.relies fun _ _ => trivial

end Requests

section Keys

/--
A request that neither verifies a key nor issues a token does not introduce the reserved project.
-/
theorem KeyRequest.handle_sparing (cfg : Config) {q : KeyRequest} (hq : q.verifies = false) :
    Sparing (q.handle cfg) := by
  refine q.handle_calls.mono fun o ho => ?_
  unfold Op.Unreserved
  split
  . exact ho.elim
  . rw [ho.1] at hq
    contradiction
  . rcases ho with ⟨req, rfl⟩
    contradiction
  . trivial

/--
An answer that does not name the reserved project.
-/
abbrev Unnamed (r : IntrospectResponse) : Prop :=
  r.clientId ≠ some "aspectus"

theorem buildResponse_unnamed {key : ApiKey} (hproject : key.project ≠ .aspectus) :
    Unnamed (buildResponse key) := by
  intro heq
  injection heq with heq
  exact toString_ne_reserved hproject heq

theorem verifyKey_unnamed {keyHash : String} {key : ApiKey} (hproject : key.project ≠ .aspectus) :
    (ApiKeyVerifier.verifyKey keyHash key).Conforms (fun _ (o : Op) => o.Unreserved)
      (fun _ r => Unnamed r) h := by
  have hbuilt := buildResponse_unnamed hproject
  have hactive : ∀ h, (ApiKeyVerifier.verifyActive keyHash key).Conforms (fun _ (o : Op) => o.Unreserved)
      (fun _ r => Unnamed r) h := by
    intro h
    unfold ApiKeyVerifier.verifyActive
    dsimp only
    split
    . apply conforms_perform_bind (by trivial)
      intro now
      exact ⟨hbuilt, fun _ => hbuilt⟩
    . exact ⟨hbuilt, fun _ => hbuilt⟩
  unfold ApiKeyVerifier.verifyKey
  split
  . nofun
  . split
    . nofun
    . split
      . apply conforms_perform_bind (by trivial)
        intro now
        split
        . nofun
        . apply hactive
      . apply hactive

/--
The verification of a token answers with the project of a key that was found or cached.
-/
theorem verify_relies (token : String) :
    (ApiKeyVerifier.verify cfg token).Conforms (Relies UnreservedAnswer Op.Unreserved)
      (fun h r => (∀ ev ∈ h, UnreservedAnswer ev) → Unnamed r) h := by
  unfold ApiKeyVerifier.verify
  split
  . nofun
  . apply conforms_perform_bind (.of_good (by trivial))
    rintro (_ | cached)
    . apply conforms_perform_bind (.of_good (by trivial))
      rintro (e | _ | key)
      . nofun
      . nofun
      . dsimp only
        apply relies_of_conforms
        intro hgood
        exact verifyKey_unnamed ((hgood _ List.mem_cons_self).found _ key rfl)
    . dsimp only
      apply relies_of_conforms
      intro hgood
      have hcached := (hgood _ List.mem_cons_self).cached _ cached rfl
      unfold ApiKeyVerifier.verifyCached
      split
      . apply conforms_perform_bind (by trivial)
        intro now
        split
        . nofun
        . exact hcached
      . exact hcached

/--
The token was signed, or stored as an opaque token.
-/
def IssuedToken (cfg : Config) (h : List (Event Api)) (token : String) : Prop :=
  (∃ claims, Called h (.host (.encodeJwt claims)) (.ok token))
    ∨ ∃ params key, Created cfg "ot_" h params key ∧ key.key = token

theorem createOpaque_relies {tenantId serviceAccountId scopes : String} {project : Project} (ttl : Nat) :
    (ApiKeyCreator.createOpaque cfg tenantId serviceAccountId project scopes ttl).Conforms
      (Relies UnreservedAnswer Op.Unreserved)
      (fun h r => ∀ key, r = .ok key → ∃ params, Created cfg "ot_" h params key) h := by
  have hsparing : (ApiKeyCreator.createOpaque cfg tenantId serviceAccountId project scopes ttl).Conforms
      (Relies UnreservedAnswer Op.Unreserved) (fun _ _ => True) h := by
    apply Uses.relies
    . apply insertNew_uses trivial trivial _ fun _ => trivial
      exact uses_perform_bind trivial fun _ => trivial
    . exact fun _ _ => trivial
  have hexpiresAt : ∀ h, (do return some ((← App.host .now) + Instant.seconds ttl)
      : App (Option Instant)).Conforms GiveAllowed (fun _ _ => True) h := by
    intro h
    exact conforms_giftless rfl fun _ => trivial
  apply (hsparing.and (insertNew_conforms hexpiresAt)).mono
  . exact fun _ _ ho => ho.1
  . rintro _ r ⟨_, hcreated⟩ key hkey
    rcases hcreated key hkey with ⟨params, hcreated, _⟩
    exact ⟨params, hcreated⟩

theorem createToken_relies {format tenantId serviceAccountId scopes : String} {project : Project}
    (hproject : (∀ ev ∈ h, UnreservedAnswer ev) → project ≠ .aspectus)
    : (issueServiceToken.create cfg format tenantId serviceAccountId project scopes).Conforms
        (Relies UnreservedAnswer Op.Unreserved)
        (fun h a => ∀ t, a.body = .serviceToken t → IssuedToken cfg h t.accessToken) h := by
  have hfailed : ∀ (e : CoreError) (t : ServiceToken),
      (ProblemDetails.ofCoreError e).intoResponse.body ≠ .serviceToken t := by
    intro e t
    nofun
  unfold issueServiceToken.create
  split
  . -- A JWT is signed with the project.
    unfold JwtSigner.sign JwtSigner.signWithTenantName
    apply conforms_perform_bind (.of_good (by trivial))
    intro now
    apply conforms_perform_bind (.of_good (by trivial))
    intro jti
    apply conforms_perform_bind
    . intro hgood
      have hproject := hproject fun ev hev => hgood ev (by simp [hev])
      exact ⟨toString_ne_reserved hproject, toString_ne_reserved hproject⟩
    . rintro (e | token)
      . exact fun t ht => absurd ht (hfailed _ t)
      . rintro t ht
        injection ht with ht
        subst ht
        exact .inl ⟨_, Called.head _ _ _⟩
  . -- An opaque token is stored with the project.
    apply (createOpaque_relies _).bind
    rintro new (e | key) hcreated
    . exact fun t ht => absurd ht (hfailed _ t)
    . rintro t ht
      injection ht with ht
      subst ht
      rcases hcreated key rfl with ⟨params, hcreated⟩
      exact .inr ⟨params, key, hcreated, rfl⟩
  . nofun

theorem issueServiceToken_relies (req : ServiceTokenRequest) :
    (issueServiceToken cfg req).Conforms (Relies UnreservedAnswer Op.Unreserved)
      (fun h a => ∀ t, a.body = .serviceToken t → IssuedToken cfg h t.accessToken) h := by
  unfold issueServiceToken
  split
  . nofun
  . apply (verify_relies _).bind
    intro new introspect hunnamed
    dsimp only
    split
    . nofun
    . split
      . nofun
      . split
        . nofun
        . apply createToken_relies
          intro hgood
          have hclient := hunnamed hgood
          cases hid : introspect.clientId with
          | none => nofun
          | some clientId =>
            dsimp only [Option.bind_some]
            cases hparse : Project.parse clientId with
            | none => nofun
            | some project =>
              rintro rfl
              apply hclient
              rw [hid, ← Project.toString_of_parse hparse]
              rfl

theorem introspect_relies (token : String) :
    (introspect cfg token).Conforms (Relies UnreservedAnswer Op.Unreserved) (fun _ _ => True) h := by
  have hjwt : Sparing (JwtVerifier.verify cfg token) := jwtVerify_uses trivial fun _ => trivial
  have hverify : (TokenVerifier.verify cfg token).Conforms (Relies UnreservedAnswer Op.Unreserved)
      (fun _ _ => True) h := by
    unfold TokenVerifier.verify
    split
    . exact hjwt.relies fun _ _ => trivial
    . apply (verify_relies token).bind
      intro _ _ _
      split
      . trivial
      . trivial
  have hscope : ∀ response, Sparing (introspect.addScope response) := fun _ =>
    addScope_uses fun _ => expand_uses trivial trivial fun _ => trivial
  have hquotas : ∀ response, Sparing (introspect.addQuotas response) := fun _ =>
    addQuotas_uses fun _ => trivial
  unfold introspect
  apply hverify.bind
  intro _ response _
  apply Uses.relies _ fun _ _ => trivial
  split
  . apply Uses.bind (hscope response)
    intro response
    exact Uses.bind (hquotas response) fun _ => trivial
  . trivial

end Keys

/--
The access token or opaque token that a request is answered with.
-/
def CredentialRequest.issued (q : CredentialRequest) (a : Response) : Option String :=
  match q, a.body with
  | .auth _, .userTokens t => some t.accessToken
  | .key (.issue _), .serviceToken t => some t.accessToken
  | _, _ => none

theorem not_issued {q : KeyRequest} (hq : ∀ req, q ≠ .issue req) {a : Response} :
    ∀ token, (CredentialRequest.key q).issued a = some token → IssuedToken cfg h token := by
  intro token htoken
  cases q with
  | issue req => exact absurd rfl (hq req)
  | _ => cases htoken

theorem CredentialRequest.relies (q : CredentialRequest) (hq : ¬q.NamesReserved) :
    (q.handle cfg).Conforms (Relies UnreservedAnswer Op.Unreserved)
      (fun h a => ∀ token, q.issued a = some token → IssuedToken cfg h token) [] := by
  cases q with
  | auth q =>
    apply ((AuthRequest.relies q hq).and (AuthRequest.handle_conforms cfg q)).mono
    . exact fun _ _ ho => ho.1
    . rintro _ ⟨status, body⟩ ⟨_, hanswered⟩ token htoken
      unfold issued at htoken
      split at htoken
      . next t hbody =>
        cases hbody
        cases htoken
        rcases hanswered.signed with ⟨claims, hsigned, _⟩
        exact .inl ⟨claims, hsigned⟩
      . contradiction
      . contradiction
  | key q =>
    cases q with
    | issue req =>
      apply (issueServiceToken_relies req).mono
      . exact fun _ _ ho => ho
      . rintro _ ⟨status, body⟩ hissued token htoken
        cases body with
        | serviceToken t =>
          cases htoken
          exact hissued t rfl
        | _ => cases htoken
    | create req =>
      exact (KeyRequest.handle_sparing cfg (q := .create req) rfl).relies fun _ _ => not_issued (by simp)
    | delete id =>
      exact (KeyRequest.handle_sparing cfg (q := .delete id) rfl).relies fun _ _ => not_issued (by simp)
    | revoke token =>
      exact (KeyRequest.handle_sparing cfg (q := .revoke token) rfl).relies fun _ _ => not_issued (by simp)
    | introspect token =>
      exact (introspect_relies token).mono (fun _ _ ho => ho) fun _ _ _ => not_issued (by simp)
    | verify token => exact (verify_relies token).bind fun _ _ _ => not_issued (by simp)

/--
As long as no login and no registration asks for the reserved project, no access token is ever signed for it and
no opaque token is stored for it, whichever requests there are and however they interleave.
-/
theorem reserved_project_not_issued (cfg : Config) (s : Server) (hs : Unreserved s) (m : CredentialMachine)
    (hm : CredentialMachine.Reachable cfg s m) (hreq : ∀ i q, Started m.log i q → ¬q.NamesReserved) :
    ∀ e ∈ m.log, ∀ q a token, Started m.log e.thread q → e.what = .finish a → q.issued a = some token →
      (∃ claims, Called (eventsOf e.thread m.log) (.host (.encodeJwt claims)) (.ok token)
        ∧ claims.clientId ≠ "aspectus" ∧ claims.aud ≠ "aspectus")
      ∨ ∃ params key, Created cfg "ot_" (eventsOf e.thread m.log) params key ∧ key.key = token
        ∧ params.project ≠ .aspectus := by
  intro e he q a token hq hw htoken
  rcases Reaches.relies_finished (C := fun q : CredentialRequest => ¬q.NamesReserved) (P := Unreserved)
    CredentialRequest.relies (fun o d s ho hs => Unreserved.exec hs ho)
    (fun n s hs => ⟨hs.client, hs.keys, hs.cached⟩) hs hm hreq he hw with ⟨q', evs, hq', hevs, hissued⟩
  cases hm.started_unique hq hq'
  rcases hissued token htoken with ⟨claims, hsigned⟩ | ⟨params, key, hcreated, hkey⟩
  . rcases hevs _ hsigned with ⟨hmem, _, hgood⟩
    exact .inl ⟨claims, hmem, hgood⟩
  . rcases hcreated.stored with ⟨k, hstored⟩
    rcases hevs _ hstored with ⟨hmem, hgood, _⟩
    exact .inr ⟨params, key, ⟨⟨k, hmem⟩, hcreated.id, hcreated.token⟩, hkey, hgood.inserted params k rfl⟩

namespace Sample

def loginRequest (clientId : String) : CredentialRequest :=
  .auth (.login none ⟨"ada@app.example", password, "default", clientId⟩)

/--
The user logs in to a project.
-/
def loggedIn (clientId : String) : CredentialMachine :=
  serve CredentialRequest.handle (init server) 1 (loginRequest clientId) 4 18

theorem loggedIn_reachable {clientId : String} :
    CredentialMachine.Reachable config server (loggedIn clientId) :=
  reachable_serve reachable_init

theorem loggedIn_start {clientId : String} :
    ⟨1, server, .start (loginRequest clientId)⟩ :: [] <:+ (loggedIn clientId).log := by
  unfold loggedIn
  exact serve_start (m := init server) rfl

theorem server_unreserved : Unreserved server := by
  refine ⟨rfl, ?_, ?_⟩
  . intro id row hrow
    cases hrow
  . intro key entry r hentry
    cases hentry

def issuesToken (e : Entry Api Server Draw CredentialRequest Response) : Bool :=
  e.thread = 1 && match e.what with
    | .finish ⟨_, .userTokens _⟩ => true
    | _ => false

theorem of_issuesToken {clientId : String} (h : (loggedIn clientId).log.any issuesToken = true) :
    ∃ e ∈ (loggedIn clientId).log, e.thread = 1 ∧ ∃ a token, e.what = .finish a
      ∧ (loginRequest clientId).issued a = some token := by
  rcases List.any_eq_true.mp h with ⟨e, he, hissues⟩
  unfold issuesToken at hissues
  simp only [Bool.and_eq_true, decide_eq_true_eq] at hissues
  rcases hissues with ⟨hi, hissues⟩
  split at hissues
  . next t hw => exact ⟨e, he, hi, _, t.accessToken, hw, rfl⟩
  . contradiction

/--
Every JWT that the thread signs is for the project, and it stores no key.
-/
def onlyFor (clientId : String) (e : Entry Api Server Draw CredentialRequest Response) : Bool :=
  match e.what with
  | .call ⟨.host (.encodeJwt claims), _⟩ _ => claims.clientId = clientId && claims.aud = clientId
  | .call ⟨.key _, _⟩ _ => false
  | _ => true

/--
No login is started for the reserved project.
-/
def namesOther (e : Entry Api Server Draw CredentialRequest Response) : Bool :=
  match e.what with
  | .start (.auth (.login _ req)) => req.clientId ≠ "aspectus"
  | .start _ => false
  | _ => true

theorem of_namesOther {e : Entry Api Server Draw CredentialRequest Response} (h : namesOther e = true)
    {q : CredentialRequest} (hw : e.what = .start q) : ¬q.NamesReserved := by
  unfold namesOther at h
  rw [hw] at h
  split at h
  . next req heq =>
    cases heq
    have hclient : req.clientId ≠ "aspectus" :=
      of_decide_eq_true h
    exact hclient
  . contradiction
  . next hother => exact absurd rfl (hother q)

end Sample

open Sample in
theorem reserved_project_not_issued_login :
    ∃ e ∈ (loggedIn "pandaria").log, ∃ a token, e.what = .finish a
      ∧ (loginRequest "pandaria").issued a = some token
      ∧ ((∃ claims, Called (eventsOf e.thread (loggedIn "pandaria").log) (.host (.encodeJwt claims)) (.ok token)
          ∧ claims.clientId ≠ "aspectus" ∧ claims.aud ≠ "aspectus")
        ∨ ∃ params key, Created config "ot_" (eventsOf e.thread (loggedIn "pandaria").log) params key
          ∧ key.key = token ∧ params.project ≠ .aspectus) := by
  have hstarted : Started (loggedIn "pandaria").log 1 (loginRequest "pandaria") :=
    ⟨_, loggedIn_start.mem List.mem_cons_self, rfl, rfl⟩
  have hchecks : (loggedIn "pandaria").log.all namesOther = true
      ∧ (loggedIn "pandaria").log.any issuesToken = true := by
    decide +kernel
  rcases hchecks with ⟨hnames, hissues⟩
  rcases of_issuesToken hissues with ⟨e, he, hi, a, token, hw, htoken⟩
  refine ⟨e, he, a, token, hw, htoken, ?_⟩
  refine reserved_project_not_issued config server server_unreserved (loggedIn "pandaria") loggedIn_reachable
    ?_ e he (loginRequest "pandaria") a token (by rw [hi]; exact hstarted) hw htoken
  rintro i q ⟨e', he', _, hw'⟩
  exact of_namesOther (List.all_eq_true.mp hnames e' he') hw'

open Sample in
/--
A user logs in to the reserved project.
-/
theorem reserved_project_issued :
    Unreserved server ∧ CredentialMachine.Reachable config server (loggedIn "aspectus")
      ∧ ∃ e ∈ (loggedIn "aspectus").log, ∃ q a token, Started (loggedIn "aspectus").log e.thread q
        ∧ e.what = .finish a ∧ q.issued a = some token
        ∧ ∀ ev ∈ eventsOf e.thread (loggedIn "aspectus").log,
          (∀ claims r, ev = ⟨.host (.encodeJwt claims), r⟩ →
            claims.clientId = "aspectus" ∧ claims.aud = "aspectus")
          ∧ ∀ params r, ev ≠ ⟨.key (.insert params), r⟩ := by
  refine ⟨server_unreserved, loggedIn_reachable, ?_⟩
  have hstarted : Started (loggedIn "aspectus").log 1 (loginRequest "aspectus") :=
    ⟨_, loggedIn_start.mem List.mem_cons_self, rfl, rfl⟩
  have hchecks : (loggedIn "aspectus").log.all (onlyFor "aspectus") = true
      ∧ (loggedIn "aspectus").log.any issuesToken = true := by
    decide +kernel
  rcases hchecks with ⟨honly, hissues⟩
  rcases of_issuesToken hissues with ⟨e, he, hi, a, token, hw, htoken⟩
  refine ⟨e, he, _, a, token, by rw [hi]; exact hstarted, hw, htoken, ?_⟩
  intro ev hev
  rcases mem_eventsOf.mp hev with ⟨e', he', _, d, hw'⟩
  have he' := List.all_eq_true.mp honly e' he'
  unfold onlyFor at he'
  rw [hw'] at he'
  constructor
  . rintro claims r rfl
    simpa using he'
  . rintro params r rfl
    exact Bool.false_ne_true he'

end Aspectus
