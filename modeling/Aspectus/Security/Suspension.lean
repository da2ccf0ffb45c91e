import Aspectus.Security.Code
import Aspectus.Security.Sample

/-!
This module contains what the suspension of a user stops: every request that starts while the user is
suspended, except for a code grant that redeems a code of the user.
-/

namespace Aspectus

open Interaction Machine Statement

variable {cfg : Config} {s : Server} {m : AuthMachine}

/--
The user is there and suspended.
-/
def Suspended (userId : String) (s : Server) : Prop :=
  ∃ u, s.users.lookup userId = some u ∧ u.isSuspended = true

/--
The entry ends the suspension of the user.
-/
def Unsuspends (userId : String) (e : AuthEntry) : Prop :=
  ∃ r, Did e (.user (.setSuspended userId false)) r

/--
Thread `i` serves a code grant that fits a code of the user. When it reads the client in the request, the secret in
the request is the one of the client. When it claims the code, the code has neither been used nor expired, and it
was created for the user, for that client, and for the redirect URI in the request. When it reads the challenge that
is stored with the code, the verifier in the request is the answer to it.
-/
def FitsCodeOf (cfg : Config) (log : List AuthEntry) (i : Nat) (req : TokenRequest)
    (userId : String) : Prop :=
  ∃ code clientId, Redeems log i req code ∧ req.clientId = some clientId
    ∧ (∃ w ∈ log, w.thread = i ∧ (∃ r, Did w (.client (.selectSecretHash clientId)) r) ∧ ∃ client,
      w.pre.oauth2Clients.lookup clientId = some client
      ∧ token.secretMatches cfg (req.clientSecret.getD "") (some client.clientSecretHash) = true)
    ∧ (∃ x ∈ log, x.thread = i ∧ (∃ r, Did x (.code (.exchangeCode code)) r) ∧ ∃ c,
      x.pre.authorizationCodes.lookup code = some c ∧ c.userId = userId ∧ c.clientId = clientId
      ∧ req.redirectUri = some c.redirectUri ∧ exchangeable x.pre.now c = true)
    ∧ ∃ y ∈ log, y.thread = i ∧ (∃ r, Did y (.code (.selectChallenge code)) r) ∧ ∃ c,
      y.pre.authorizationCodes.lookup code = some c
      ∧ token.checkVerifier cfg c.codeChallenge req.codeVerifier = .ok ()

/--
Only an entry that ends the suspension ends it.
-/
theorem Suspended.post {userId : String} {e : AuthEntry} (he : ¬Unsuspends userId e)
    (hsuspended : Suspended userId e.pre) : Suspended userId (e.post (semantics cfg)) := by
  rcases hsuspended with ⟨u, hu, hsuspended⟩
  rcases ((evolution cfg).post e).users _ _ hu with ⟨u', hu', _⟩
  refine ⟨u', hu', ?_⟩
  rcases users_step e hu' with hsame | ⟨o, r, hdid, ⟨u₀, hu₀, hchanged⟩ | ⟨hnone, _⟩⟩
  . rw [hu] at hsame
    injection hsame with hsame
    rw [← hsame, hsuspended]
  . rw [hu] at hu₀
    injection hu₀ with hu₀
    subst hu₀
    rcases hchanged.isSuspended with hsame | ⟨suspended, rfl, hset⟩
    . rw [hsame, hsuspended]
    . cases suspended with
      | true => exact hset
      | false => exact absurd ⟨r, hdid⟩ he
  . rw [hu] at hnone
    contradiction

section Reachable

variable (h : AuthMachine.Reachable cfg s m)
include h

/--
A user that is suspended when a thread starts is suspended at everything that happens in the
thread.
-/
theorem AuthMachine.Reachable.still_suspended {userId : String} {q : AuthRequest}
    {st : AuthEntry} {rest₀ : List AuthEntry} (hst : st :: rest₀ <:+ m.log) (hw : st.what = .start q)
    (hsuspended : Suspended userId st.pre)
    (hnone : ∀ e rest, e :: rest <:+ m.log → st ∈ rest → ¬Unsuspends userId e)
    {e : AuthEntry} {rest : List AuthEntry} (he : e :: rest <:+ m.log) (hi : e.thread = st.thread)
    : Suspended userId e.pre := by
  rcases Reaches.after_start h hst hw he hi with ⟨rfl, _⟩ | hold
  . exact hsuspended
  . have hpost : st.post (semantics cfg) = st.pre := by
      unfold Entry.post
      rw [hw]
    refine (Reaches.persists (P := Suspended userId) (fun e => Suspended.post) ?_ h hst
      (hpost ▸ hsuspended) hnone).2 e rest he hold
    intro n s hs
    exact hs

/--
What a thread reads about a user that is suspended all along.
-/
theorem AuthMachine.Reachable.reads_suspended {userId : String} {i : Nat} {rest : List AuthEntry}
    (hrest : rest <:+ m.log)
    (hsuspended : ∀ e rest, e :: rest <:+ m.log → e.thread = i → Suspended userId e.pre)
    {o : Op} {r : o.Res} (hcalled : Called (eventsOf i rest) o r)
    : ∃ e ∈ rest, Did e o r ∧ Entry.Sound (semantics cfg) e ∧ ∃ u,
        e.pre.users.lookup userId = some u ∧ u.isSuspended = true := by
  rcases hcalled.located with ⟨e, rest', he, hi, hdid⟩
  exact ⟨e, he.mem List.mem_cons_self, hdid, h.sound (hrest.mem (he.mem List.mem_cons_self)),
    hsuspended e rest' (he.trans hrest) hi⟩

/--
A thread in which a user is suspended all along is only authorized to issue tokens for the user if
it is a code grant that fits a code of the user.
-/
theorem AuthMachine.Reachable.suspended_authorized {userId : String} {i : Nat}
    {rest : List AuthEntry} (hrest : rest <:+ m.log)
    (hsuspended : ∀ e rest, e :: rest <:+ m.log → e.thread = i → Suspended userId e.pre)
    {q : AuthRequest} (hq : Started rest i q) {tenantId clientId : String}
    (hauth : Authorized cfg (eventsOf i rest) q userId tenantId clientId)
    : ∃ req, q = .token req ∧ FitsCodeOf cfg m.log i req userId := by
  cases hauth with
  | login hrow hpassword hactive =>
    rcases h.reads_suspended hrest hsuspended hrow with ⟨e, _, hdid, hs, u, hu, hsusp⟩
    rcases selectLogin_ok (hdid.query hs fun d hres => hres.symm) with
      ⟨u', hu', _, _, _, _, _, _, hread⟩
    rw [hu] at hu'
    injection hu' with hu'
    rw [hread, ← hu', hsusp] at hactive
    contradiction
  | register hinsert =>
    rcases h.reads_suspended hrest hsuspended hinsert with ⟨e, _, hdid, hs, u, hu, _⟩
    rcases insertUser_ok (hdid.run hs fun d hres => ⟨hres.symm, rfl⟩) with ⟨_, _, husers, _⟩
    rw [(Table.insertNew_eq_some.mp husers).1] at hu
    contradiction
  | @code req code _ _ _ redirectUri challenge hgrant hcode hclient hexchange huri hchallenge hverifier
      htenant =>
    refine ⟨req, rfl, code, _, ⟨hq.of_suffix hrest, hgrant, hcode⟩, hclient.1, ?_, ?_, ?_⟩
    . rcases h.secret_read hrest hclient with ⟨w, hw, hi, hread⟩
      exact ⟨w, hrest.mem hw, hi, hread⟩
    . rcases hexchange.located with ⟨x, restx, hx, hi, hdid⟩
      have hmem := hrest.mem (hx.mem List.mem_cons_self)
      rcases Exchanged.spec hdid (h.sound hmem) with ⟨c, hc, hexchangeable, huser, hid, huri', _⟩
      refine ⟨x, hmem, hi, ⟨_, hdid⟩, c, hc, huser, hid, ?_, hexchangeable⟩
      rw [huri']
      exact huri
    . rcases hchallenge.located with ⟨y, resty, hy, hi, hdid⟩
      rcases h.challenge_read (hy.trans hrest) hdid with ⟨c, hc, rfl, _⟩
      exact ⟨y, hrest.mem (hy.mem List.mem_cons_self), hi, ⟨_, hdid⟩, c, hc, hverifier⟩
  | refresh hgrant htoken hclient hrotate htenant =>
    rcases h.reads_suspended hrest hsuspended htenant with ⟨e, _, hdid, hs, u, hu, hsusp⟩
    have hread := hdid.query hs fun d hres => hres.symm
    injection hread with hread
    simp [hu, hsusp] at hread

/--
Nor does such a thread create a code for the user.
-/
theorem AuthMachine.Reachable.suspended_code {userId : String} {e : AuthEntry}
    {rest : List AuthEntry} (he : e :: rest <:+ m.log)
    (hsuspended : ∀ e' rest, e' :: rest <:+ m.log → e'.thread = e.thread → Suspended userId e'.pre)
    {code clientId redirectUri : String} {expiresAt : Instant}
    : ¬CodeStored e code userId clientId redirectUri expiresAt := by
  intro hstored
  rcases h.allowed he hstored with ⟨q, _, hmay⟩
  rcases h.reads_suspended (suffix_tail he) hsuspended hmay.active with ⟨e', _, hdid, hs, u, hu, hsusp⟩
  rcases isSuspended_ok (hdid.query hs fun d hres => hres.symm) with ⟨u', hu', hread⟩
  rw [hu] at hu'
  injection hu' with hu'
  rw [← hu', hsusp] at hread
  contradiction

end Reachable

/--
A request that starts while the user is suspended, and during which the suspension is not ended,
issues neither a token nor a code for the user, unless it is a code grant that fits a code of the
user.
-/
theorem suspension_stops_issuance (cfg : Config) (s : Server) (m : AuthMachine)
    (h : AuthMachine.Reachable cfg s m) (userId : String) (q : AuthRequest) (st : AuthEntry)
    (rest₀ : List AuthEntry) (hst : st :: rest₀ <:+ m.log) (hw : st.what = .start q)
    (hsuspended : Suspended userId st.pre)
    (hnone : ∀ e rest, e :: rest <:+ m.log → st ∈ rest → ¬Unsuspends userId e)
    (hfits : ∀ req, q = .token req → ¬FitsCodeOf cfg m.log st.thread req userId) :
    ∀ e ∈ m.log, e.thread = st.thread →
      ¬Issues e userId
        ∧ ∀ code clientId redirectUri expiresAt,
          ¬CodeStored e code userId clientId redirectUri expiresAt := by
  intro e he hi
  rcases suffix_of_mem he with ⟨rest, hrest⟩
  have hsuspended' : ∀ e' rest, e' :: rest <:+ m.log → e'.thread = e.thread →
      Suspended userId e'.pre := by
    intro e' rest' he' hi'
    exact h.still_suspended hst hw hsuspended hnone he' (hi'.trans hi)
  constructor
  . intro hissues
    rcases h.issued hrest hissues with ⟨q', tenantId, clientId, hq', hauth⟩
    rcases h.suspended_authorized (suffix_tail hrest) hsuspended' hq' hauth with ⟨req, rfl, hreq⟩
    have hstarted : Started m.log e.thread q := ⟨st, hst.mem List.mem_cons_self, hi.symm, hw⟩
    have := Reaches.started_unique h hstarted (hq'.of_suffix (suffix_tail hrest))
    exact hfits req this (hi ▸ hreq)
  . intro code clientId redirectUri expiresAt
    exact h.suspended_code hrest hsuspended'

namespace Sample

/--
The user is suspended after a code was issued to it.
-/
def suspended : AuthMachine :=
  serve AuthRequest.handle (authorized none) 2 (.suspend userId true) 4 5

/--
The code is redeemed while the user is suspended.
-/
def suspendedGrant : AuthMachine :=
  serve AuthRequest.handle suspended 3 (.token (codeGrant none)) 1 16

/--
The user tries to authorize another code while it is suspended.
-/
def suspendedAuthorize : AuthMachine :=
  serve AuthRequest.handle suspended 3 (.authorize (authorizeRequest none)) 5 7

def isUnsuspension (e : AuthEntry) : Bool :=
  match e.what with
  | .call ⟨.user (.setSuspended _ false), _⟩ _ => true
  | _ => false

theorem not_unsuspends {m : AuthMachine} (h : m.log.any isUnsuspension = false) {e : AuthEntry}
    (he : e ∈ m.log) (userId : String) : ¬Unsuspends userId e := by
  rintro ⟨r, d, hw⟩
  have := List.any_eq_false.mp h e he
  simp [isUnsuspension, hw] at this

theorem suspended_userId : Suspended userId suspended.store := by
  have h : (suspended.store.users.lookup userId).any (fun u => u.isSuspended) = true := by
    decide +kernel
  rcases Option.any_eq_true_iff_get _ _ |>.mp h with ⟨hsome, hsuspended⟩
  exact ⟨_, Option.some_get hsome |>.symm, hsuspended⟩

theorem suspended_free : (suspended.threads 3).isNone = true := by
  rw [suspended, serve_threads (by decide), authorized, serve_threads (by decide)]
  rfl

theorem suspended_reachable : AuthMachine.Reachable config server suspended :=
  reachable_serve (reachable_serve reachable_init)

end Sample

open Sample in
/--
A request for a code that starts while the user is suspended gets none.
-/
theorem suspension_stops_issuance_authorize :
    suspendedAuthorize.log.any (answers 3 401) = true
    ∧ ∀ e ∈ suspendedAuthorize.log, e.thread = 3 →
      ¬Issues e userId
        ∧ ∀ code clientId redirectUri expiresAt,
          ¬CodeStored e code userId clientId redirectUri expiresAt := by
  have hchecks : suspendedAuthorize.log.any (answers 3 401) = true
      ∧ suspendedAuthorize.log.any isUnsuspension = false := by
    decide +kernel
  rcases hchecks with ⟨hanswered, hsuspended⟩
  refine ⟨hanswered, ?_⟩
  exact suspension_stops_issuance config server suspendedAuthorize (reachable_serve suspended_reachable) userId
    (.authorize (authorizeRequest none)) ⟨3, suspended.store, .start (.authorize (authorizeRequest none))⟩ suspended.log
    (serve_start suspended_free) rfl suspended_userId
    (fun _ _ he _ => not_unsuspends hsuspended (he.mem List.mem_cons_self) _)
    (fun _ hq => by contradiction)

open Sample in
/--
A code grant that starts while the user is suspended gets tokens.
-/
theorem suspension_ignored :
    ¬∀ m, AuthMachine.Reachable config server m → ∀ q st rest₀, st :: rest₀ <:+ m.log →
      st.what = .start q → Suspended userId st.pre →
      (∀ e rest, e :: rest <:+ m.log → st ∈ rest → ¬Unsuspends userId e) →
      ∀ e ∈ m.log, e.thread = st.thread → ¬Issues e userId := by
  intro hclaim
  have hchecks : suspendedGrant.log.any (answersTokens 3) = true
      ∧ suspendedGrant.log.any isUnsuspension = false := by
    decide +kernel
  rcases hchecks with ⟨hissued, hsuspended⟩
  rcases List.any_eq_true.mp hissued with ⟨e, he, hanswers⟩
  rcases of_answersTokens hanswers with ⟨hi, _, t, hw, huser⟩
  refine hclaim suspendedGrant (reachable_serve suspended_reachable) (.token (codeGrant none))
    ⟨3, suspended.store, .start (.token (codeGrant none))⟩ suspended.log
    (serve_start suspended_free) rfl suspended_userId ?_ e he hi (.answered hw rfl huser)
  intro e' rest he' _
  exact not_unsuspends hsuspended (he'.mem List.mem_cons_self) _

end Aspectus
