import Aspectus.Security.Sample

/-!
This module contains the results about authorization codes: each of them is exchanged at most once,
and only for the client and the redirect URI it was created for.
-/

namespace Aspectus

open Interaction Machine Statement

variable {cfg : Config} {s : Server} {m : AuthMachine}

/--
Thread `i` serves the code grant `req` that presents this code.
-/
def Redeems (log : List AuthEntry) (i : Nat) (req : TokenRequest) (code : String) : Prop :=
  Started log i (.token req) ∧ req.grantType = "authorization_code" ∧ req.code = some code

/--
Thread `i` has read a client and found the secret in the request to be the one of that client.
-/
def SecretValidated (cfg : Config) (log : List AuthEntry) (i : Nat) (req : TokenRequest)
    (clientId : String) : Prop :=
  req.clientId = some clientId ∧ ∃ e ∈ log, e.thread = i ∧ ∃ client,
    e.pre.oauth2Clients.lookup clientId = some client
      ∧ token.secretMatches cfg (req.clientSecret.getD "") (some client.clientSecretHash) = true

/--
What a code grant is authorized to do it has exchanged the presented code for.
-/
theorem Authorized.exchanged {h : List (Event Api)} {req : TokenRequest}
    {userId tenantId clientId code : String}
    (ha : Authorized cfg h (.token req) userId tenantId clientId)
    (hgrant : req.grantType = "authorization_code") (hcode : req.code = some code)
    : ∃ redirectUri challenge, Authenticated cfg req h clientId
        ∧ Called h (.code (.exchangeCode code)) (.ok (some (userId, clientId, redirectUri)))
        ∧ req.redirectUri = some redirectUri
        ∧ Called h (.code (.selectChallenge code)) (.ok challenge)
        ∧ token.checkVerifier cfg challenge.join req.codeVerifier = .ok () := by
  cases ha with
  | code hgrant' hcode' hclient hexchange huri hchallenge hverifier htenant =>
    rw [hcode] at hcode'
    injection hcode' with hcode'
    subst hcode'
    exact ⟨_, _, hclient, hexchange, huri, hchallenge, hverifier⟩
  | refresh hgrant' =>
    rw [hgrant] at hgrant'
    exact absurd hgrant' (by decide)

section Reachable

variable (h : AuthMachine.Reachable cfg s m)
include h

/--
A client that is authenticated was read with a secret that is the one in the request.
-/
theorem AuthMachine.Reachable.secret_read {log : List AuthEntry} (hlog : log <:+ m.log) {i : Nat}
    {req : TokenRequest} {clientId : String}
    (hauth : Authenticated cfg req (eventsOf i log) clientId)
    : ∃ e ∈ log, e.thread = i ∧ (∃ r, Did e (.client (.selectSecretHash clientId)) r) ∧ ∃ client,
        e.pre.oauth2Clients.lookup clientId = some client
        ∧ token.secretMatches cfg (req.clientSecret.getD "") (some client.clientSecretHash) = true := by
  rcases hauth with ⟨_, row, hcalled, hmatches⟩
  rcases called_eventsOf.mp hcalled with ⟨e, he, hi, hdid⟩
  refine ⟨e, he, hi, ⟨_, hdid⟩, ?_⟩
  have hrow := hdid.query (h.sound (hlog.mem he)) (fun d hres => hres.symm)
  injection hrow with hrow
  cases hclient : e.pre.oauth2Clients.lookup clientId with
  | none =>
    rw [hclient] at hrow
    subst hrow
    contradiction
  | some client =>
    rw [hclient] at hrow
    subst hrow
    exact ⟨client, rfl, hmatches⟩

theorem AuthMachine.Reachable.secretValidated {log : List AuthEntry} (hlog : log <:+ m.log) {i : Nat}
    {req : TokenRequest} {clientId : String}
    (hauth : Authenticated cfg req (eventsOf i log) clientId)
    : SecretValidated cfg log i req clientId := by
  rcases h.secret_read hlog hauth with ⟨e, he, hi, _, hclient⟩
  exact ⟨hauth.1, e, he, hi, hclient⟩

theorem AuthMachine.Reachable.exchange_once {e e' : AuthEntry} {rest : List AuthEntry}
    (he : e :: rest <:+ m.log) (he' : e' ∈ rest)
    {code userId clientId redirectUri userId' clientId' redirectUri' : String}
    (hex : Exchanged e code userId clientId redirectUri)
    (hex' : Exchanged e' code userId' clientId' redirectUri')
    : False := by
  rcases hex'.spec (h.sound ((suffix_tail he).mem he')) with ⟨c', _, _, _, _, _, hpost⟩
  rcases hex.spec (h.sound (he.mem List.mem_cons_self)) with ⟨c, hc, hexchangeable, _⟩
  -- The code is still used when it is exchanged once more.
  rcases (h.evolves he he').codes _ _ hpost with ⟨c'', hc'', hkept⟩
  rw [hc] at hc''
  injection hc'' with hc''
  subst hc''
  simp [exchangeable, hkept.used rfl] at hexchangeable

theorem AuthMachine.Reachable.exchange_unique {e e' : AuthEntry} {rest rest' : List AuthEntry}
    (he : e :: rest <:+ m.log) (he' : e' :: rest' <:+ m.log)
    {code userId clientId redirectUri userId' clientId' redirectUri' : String}
    (hex : Exchanged e code userId clientId redirectUri)
    (hex' : Exchanged e' code userId' clientId' redirectUri')
    : e = e' ∧ rest = rest' := by
  rcases suffix_trichotomy he he' with heq | hold | hold
  . exact heq
  . exact (h.exchange_once he (hold.mem List.mem_cons_self) hex hex').elim
  . exact (h.exchange_once he' (hold.mem List.mem_cons_self) hex' hex).elim

/--
A code that is in the database is not created again.
-/
theorem AuthMachine.Reachable.not_stored {o e : AuthEntry} {rest : List AuthEntry}
    (ho : o :: rest <:+ m.log) (he : e ∈ rest) {code userId clientId redirectUri : String}
    {expiresAt : Instant} {c : AuthorizationCode}
    (hc : (e.post (semantics cfg)).authorizationCodes.lookup code = some c)
    : ¬CodeStored o code userId clientId redirectUri expiresAt := by
  intro hstored
  rcases (h.evolves ho he).codes _ _ hc with ⟨c', hc', _⟩
  have hnone := (hstored.spec (h.sound (ho.mem List.mem_cons_self))).1
  rw [hnone] at hc'
  contradiction

/--
What a code is exchanged for is what it was created for, and it is exchanged in time.
-/
theorem AuthMachine.Reachable.exchange_matches {o x : AuthEntry} {resto restx : List AuthEntry}
    (ho : o :: resto <:+ m.log) (hx : x :: restx <:+ m.log)
    {code userId clientId redirectUri userId' clientId' redirectUri' : String} {expiresAt : Instant}
    (hstored : CodeStored o code userId clientId redirectUri expiresAt)
    (hex : Exchanged x code userId' clientId' redirectUri')
    : userId' = userId ∧ clientId' = clientId ∧ redirectUri' = redirectUri ∧ x.pre.now < expiresAt
        ∧ o :: resto <:+ restx := by
  have hpost := (hstored.spec (h.sound (ho.mem List.mem_cons_self))).2
  rcases hex.spec (h.sound (hx.mem List.mem_cons_self)) with
    ⟨c, hc, hexchangeable, huser, hclient, huri, hpost'⟩
  rcases suffix_trichotomy ho hx with ⟨heq, _⟩ | hold | hold
  . subst heq
    rcases hstored with ⟨d, hw⟩
    rcases hex with ⟨d', hw'⟩
    rw [hw] at hw'
    injection hw' with hev
    injection hev with hop
    injection hop with hop
    contradiction
  . exact (h.not_stored ho (hold.mem List.mem_cons_self) hpost' hstored).elim
  . rcases (h.evolves hx (hold.mem List.mem_cons_self)).codes _ _ hpost with ⟨c', hc', hkept⟩
    rw [hc] at hc'
    injection hc' with hc'
    subst hc'
    simp only [exchangeable, Bool.and_eq_true, decide_eq_true_eq] at hexchangeable
    refine ⟨?_, ?_, ?_, ?_, hold⟩
    . rw [← huser, hkept.userId]
    . rw [← hclient, hkept.clientId]
    . rw [← huri, hkept.redirectUri]
    . have hexpires : c.expiresAt = expiresAt := hkept.expiresAt
      rw [← hexpires]
      exact hexchangeable.2

/--
A redirect URI is registered for the client of a code when the code is created.
-/
theorem AuthMachine.Reachable.registered {o : AuthEntry} {rest : List AuthEntry}
    (ho : o :: rest <:+ m.log) {code userId clientId redirectUri : String} {expiresAt : Instant}
    (hstored : CodeStored o code userId clientId redirectUri expiresAt)
    : ∃ client, o.pre.oauth2Clients.lookup clientId = some client
        ∧ redirectUri ∈ client.redirectUris := by
  rcases h.allowed ho hstored with ⟨q, hq, hmay⟩
  rcases hmay.registered.located with ⟨v, rest', hv, _, hdid⟩
  have hvalid := hdid.query (h.sound ((hv.trans (suffix_tail ho)).mem List.mem_cons_self))
    (fun d hres => hres.symm)
  unfold validateRedirectUri at hvalid
  split at hvalid
  . next client hclient =>
    have hclient : (v.post (semantics cfg)).oauth2Clients.lookup clientId = some client := by
      rcases hdid.exec (h.sound ((hv.trans (suffix_tail ho)).mem List.mem_cons_self))
        with ⟨d, _, hpost⟩
      rw [hpost]
      simpa [Op.exec, ClientOp.exec] using hclient
    rcases (h.evolves ho (hv.mem List.mem_cons_self)).clients _ _ hclient with ⟨client', hclient', rfl⟩
    refine ⟨client, hclient', ?_⟩
    simpa using hvalid
  . contradiction

/--
The challenge of a code is only read by a thread that has exchanged the code before.
-/
theorem AuthMachine.Reachable.challenge_read {y : AuthEntry} {rest : List AuthEntry}
    (hy : y :: rest <:+ m.log) {code : String} {challenge : Option (Option String)}
    (hdid : Did y (.code (.selectChallenge code)) (.ok challenge))
    : ∃ c, y.pre.authorizationCodes.lookup code = some c ∧ challenge = some c.codeChallenge
        ∧ ∃ x restx userId clientId redirectUri, x :: restx <:+ rest ∧ x.thread = y.thread
          ∧ Exchanged x code userId clientId redirectUri := by
  rcases h.allowed hy hdid with ⟨q, _, ⟨userId, clientId, redirectUri⟩, hcalled⟩
  rcases hcalled.located with ⟨x, restx, hx, hi, hex⟩
  have hxs := h.sound ((hx.trans (suffix_tail hy)).mem List.mem_cons_self)
  rcases Exchanged.spec hex hxs with ⟨c, _, _, _, _, _, hpost⟩
  rcases (h.evolves hy (hx.mem List.mem_cons_self)).codes _ _ hpost with ⟨c', hc', _⟩
  have hread := hdid.query (h.sound (hy.mem List.mem_cons_self)) fun d hres => hres.symm
  injection hread with hread
  rw [hc'] at hread
  exact ⟨c', hc', hread.symm, x, restx, userId, clientId, redirectUri, hx, hi, hex⟩

/--
A response with tokens to a code grant goes back to its own exchange of the presented code.
-/
theorem AuthMachine.Reachable.exchanged {e : AuthEntry} {rest : List AuthEntry}
    (he : e :: rest <:+ m.log) {userId code : String} {req : TokenRequest}
    (hissues : Issues e userId) (hredeems : Redeems m.log e.thread req code)
    : ∃ clientId redirectUri x restx, x :: restx <:+ rest ∧ x.thread = e.thread
        ∧ Exchanged x code userId clientId redirectUri
        ∧ req.redirectUri = some redirectUri ∧ SecretValidated cfg rest e.thread req clientId := by
  rcases hredeems with ⟨hstarted, hgrant, hcode⟩
  rcases h.issued he hissues with ⟨q, tenantId, clientId, hq, hauth⟩
  have := Reaches.started_unique h hstarted (hq.of_suffix (suffix_tail he))
  subst this
  rcases hauth.exchanged hgrant hcode with ⟨redirectUri, _, hclient, hexchange, huri, _⟩
  rcases hexchange.located with ⟨x, restx, hx, hi, hdid⟩
  exact ⟨clientId, redirectUri, x, restx, hx, hi, hdid, huri,
    h.secretValidated (suffix_tail he) hclient⟩

end Reachable

/--
Authorization codes are one-time and bound to what they were created for.
-/
theorem authorization_code_one_time_and_bound (cfg : Config) (s : Server) (m : AuthMachine)
    (h : AuthMachine.Reachable cfg s m) :
    -- The codes that `/authorize` answers with were created for that answer.
    (∀ a ∈ m.log, ∀ status code redirectUri, a.what = .finish ⟨status, .code code redirectUri⟩ →
      ∃ o ∈ m.log, o.thread = a.thread ∧ ∃ userId clientId expiresAt,
        CodeStored o code userId clientId redirectUri expiresAt)
    -- Each code leads to at most one response with tokens.
    ∧ (∀ code, m.log.Pairwise fun e e' =>
      ¬((∃ req, Redeems m.log e.thread req code ∧ ∃ status t, e.what = .finish ⟨status, .userTokens t⟩)
        ∧ (∃ req, Redeems m.log e'.thread req code
          ∧ ∃ status t, e'.what = .finish ⟨status, .userTokens t⟩)))
    -- Such a response is only given to a request that fits the code.
    ∧ (∀ o ∈ m.log, ∀ code userId clientId redirectUri expiresAt,
      CodeStored o code userId clientId redirectUri expiresAt →
      (∃ client, o.pre.oauth2Clients.lookup clientId = some client
        ∧ redirectUri ∈ client.redirectUris)
      ∧ ∀ e ∈ m.log, ∀ req status t, Redeems m.log e.thread req code →
        e.what = .finish ⟨status, .userTokens t⟩ →
        t.user.id = userId ∧ SecretValidated cfg m.log e.thread req clientId
          ∧ req.redirectUri = some redirectUri
          ∧ ∃ x ∈ m.log, x.thread = e.thread ∧ Exchanged x code userId clientId redirectUri
            ∧ x.pre.now < expiresAt) := by
  refine ⟨?_, ?_, ?_⟩
  . intro a ha status code redirectUri hw
    rcases suffix_of_mem ha with ⟨rest, hrest⟩
    rcases h.answered hrest hw with ⟨q, _, req, userId, expiresAt, _, rfl, hcreated, _⟩
    rcases called_eventsOf.mp hcreated with ⟨o, ho, hi, hdid⟩
    exact ⟨o, (suffix_tail hrest).mem ho, hi, userId, _, expiresAt, hdid⟩
  . intro code
    apply pairwise_of_suffix
    rintro e rest he e' he' ⟨⟨req, hredeems, _, t, hw⟩, req', hredeems', _, t', hw'⟩
    rcases suffix_of_mem he' with ⟨rest', hrest'⟩
    have he'' := hrest'.trans (suffix_tail he)
    rcases h.exchanged he (.answered hw rfl rfl) hredeems with ⟨_, _, x, restx, hx, hi, hex, _⟩
    rcases h.exchanged he'' (.answered hw' rfl rfl) hredeems' with ⟨_, _, x', restx', hx', hi', hex', _⟩
    rcases h.exchange_unique (hx.trans (suffix_tail he)) (hx'.trans (suffix_tail he'')) hex hex'
      with ⟨rfl, _⟩
    -- The exchange belongs to one thread, which is answered once.
    exact Reaches.finish_last h he he' hw' (hi.symm.trans hi')
  . intro o ho code userId clientId redirectUri expiresAt hstored
    rcases suffix_of_mem ho with ⟨resto, ho⟩
    refine ⟨h.registered ho hstored, ?_⟩
    intro e he req status t hredeems hw
    rcases suffix_of_mem he with ⟨rest, hrest⟩
    rcases h.exchanged hrest (.answered hw rfl rfl) hredeems with
      ⟨_, _, x, restx, hx, hi, hex, huri, hsecret⟩
    have hxlog := hx.trans (suffix_tail hrest)
    rcases h.exchange_matches ho hxlog hstored hex with ⟨huser, rfl, rfl, hnow, _⟩
    refine ⟨huser, ?_, huri, x, hxlog.mem List.mem_cons_self, hi, huser ▸ hex, hnow⟩
    rcases hsecret with ⟨hid, v, hv, hsecret⟩
    exact ⟨hid, v, (suffix_tail hrest).mem hv, hsecret⟩

open Sample in
theorem authorization_code_one_time_and_bound_redeemed :
    ∃ e ∈ (redeemed none none).log, (∃ status t, e.what = .finish ⟨status, .userTokens t⟩)
      ∧ SecretValidated config (redeemed none none).log e.thread (codeGrant none) clientId
      ∧ ∃ userId, ∃ x ∈ (redeemed none none).log, x.thread = e.thread
        ∧ Exchanged x (sha256 (raw 3)) userId clientId redirectUri := by
  have hchecks : (redeemed none none).log.any (answersCode 1 3) = true
      ∧ (redeemed none none).log.any (answersTokens 2) = true := by
    decide +kernel
  rcases hchecks with ⟨hanswered, hissued⟩
  rcases List.any_eq_true.mp hanswered with ⟨a, ha, hcode⟩
  rcases of_answersCode hcode with ⟨_, haw⟩
  rcases List.any_eq_true.mp hissued with ⟨e, he, htokens⟩
  rcases of_answersTokens htokens with ⟨hi, status, t, hw, _⟩
  have hredeems : Redeems (redeemed none none).log e.thread (codeGrant none) (sha256 (raw 3)) :=
    ⟨⟨_, redeemed_start.mem List.mem_cons_self, hi.symm, rfl⟩, rfl, rfl⟩
  rcases authorization_code_one_time_and_bound config server (redeemed none none) redeemed_reachable with
    ⟨horigin, _, hbound⟩
  rcases horigin a ha _ _ _ haw with ⟨o, ho, _, userId, clientId', expiresAt, hstored⟩
  rcases (hbound o ho _ _ _ _ _ hstored).2 e he _ status t hredeems hw with
    ⟨_, hsecret, _, x, hx, hxi, hex, _⟩
  have hclient : clientId = clientId' := by
    have := hsecret.1
    injection this
  rw [hclient]
  exact ⟨e, he, ⟨status, t, hw⟩, hsecret, userId, x, hx, hxi, hex⟩

end Aspectus
