import Aspectus.Security.Sample

/-!
This module contains the results about refresh tokens: each of them is rotated at most once, so that
it has at most one successor, and a token that was logged out has none.
-/

namespace Aspectus

open Interaction Machine Statement

variable {cfg : Config} {s : Server} {m : AuthMachine}

/--
Thread `i` serves a refresh grant that presents the token with this hash.
-/
def Grants (cfg : Config) (log : List AuthEntry) (i : Nat) (tokenHash : String) : Prop :=
  ∃ q, Started log i q ∧ Presents cfg q tokenHash

/--
Thread `i` serves a logout with the token with this hash.
-/
def LoggingOut (cfg : Config) (log : List AuthEntry) (i : Nat) (tokenHash : String) : Prop :=
  ∃ q, Started log i q ∧ LogsOut cfg q tokenHash

/--
A refresh grant is only authorized by having rotated the token it presents.
-/
theorem Authorized.rotated {h : List (Event Api)} {q : AuthRequest}
    {userId tenantId clientId tokenHash : String} (ha : Authorized cfg h q userId tenantId clientId)
    (hp : Presents cfg q tokenHash)
    : ∃ oldHash, Called h (.refresh (.rotate tokenHash)) (.ok (some (userId, clientId, oldHash))) := by
  rcases hp with ⟨req, presented, hq, hgrant, htoken, hhash⟩
  cases ha with
  | login => contradiction
  | register => contradiction
  | code hgrant' =>
    injection hq with hq
    subst hq
    rw [hgrant] at hgrant'
    exact absurd hgrant' (by decide)
  | refresh hgrant' htoken' hclient hrotate htenant =>
    injection hq with hq
    subst hq
    rw [htoken] at htoken'
    injection htoken' with htoken'
    subst htoken' hhash
    exact ⟨_, hrotate⟩

section Reachable

variable (h : AuthMachine.Reachable cfg s m)
include h

/--
The request of a thread of which an entry says that it presents a token.
-/
theorem AuthMachine.Reachable.request {i : Nat} {q q' : AuthRequest} {rest : List AuthEntry}
    (hq : Started m.log i q) (hrest : rest <:+ m.log) (hq' : Started rest i q') : q = q' :=
  Reaches.started_unique h hq (hq'.of_suffix hrest)

/--
A token that was rotated before is not rotated again.
-/
theorem AuthMachine.Reachable.rotate_once {e e' : AuthEntry} {rest : List AuthEntry}
    (he : e :: rest <:+ m.log) (he' : e' ∈ rest)
    {tokenHash userId clientId userId' clientId' : String} (hrot : Rotated e tokenHash userId clientId)
    (hrot' : Rotated e' tokenHash userId' clientId')
    : False := by
  rcases hrot'.spec (h.sound ((suffix_tail he).mem he')) with ⟨t', _, _, _, _, hpost⟩
  rcases hrot.spec (h.sound (he.mem List.mem_cons_self)) with ⟨t, ht, hrotatable, _⟩
  -- The token is still revoked when it is rotated once more.
  rcases (h.evolves he he').refreshTokens _ _ hpost with ⟨t'', ht'', hkept⟩
  rw [ht] at ht''
  injection ht'' with ht''
  subst ht''
  simp [rotatable, hkept.revokedAt _ rfl] at hrotatable

/--
Of two entries at most one rotates a given refresh token.
-/
theorem AuthMachine.Reachable.rotate_pairwise :
    m.log.Pairwise fun e e' => ∀ tokenHash,
      ¬((∃ userId clientId, Rotated e tokenHash userId clientId)
        ∧ ∃ userId clientId, Rotated e' tokenHash userId clientId) := by
  apply pairwise_of_suffix
  rintro e rest he e' he' tokenHash ⟨⟨_, _, hrot⟩, _, _, hrot'⟩
  exact h.rotate_once he he' hrot hrot'

theorem AuthMachine.Reachable.rotate_unique {e e' : AuthEntry} (he : e ∈ m.log) (he' : e' ∈ m.log)
    {tokenHash userId clientId userId' clientId' : String}
    (hrot : Rotated e tokenHash userId clientId) (hrot' : Rotated e' tokenHash userId' clientId')
    : e = e' := by
  rcases suffix_of_mem he with ⟨rest, hsuffix⟩
  rcases suffix_of_mem he' with ⟨rest', hsuffix'⟩
  rcases suffix_trichotomy hsuffix hsuffix' with ⟨heq, _⟩ | hold | hold
  . exact heq
  . exact (h.rotate_once hsuffix (hold.mem List.mem_cons_self) hrot hrot').elim
  . exact (h.rotate_once hsuffix' (hold.mem List.mem_cons_self) hrot' hrot).elim

/--
What a refresh grant is authorized to do goes back to its own rotation of the token it presents.
-/
theorem AuthMachine.Reachable.rotation {i : Nat} {rest : List AuthEntry} (hrest : rest <:+ m.log)
    {q : AuthRequest} (hq : Started rest i q) {userId tenantId clientId tokenHash : String}
    (hauth : Authorized cfg (eventsOf i rest) q userId tenantId clientId)
    (hgrants : Grants cfg m.log i tokenHash)
    : ∃ e ∈ rest, e.thread = i ∧ Rotated e tokenHash userId clientId := by
  rcases hgrants with ⟨q', hq', hpresents⟩
  have := h.request hq' hrest hq
  subst this
  rcases hauth.rotated hpresents with ⟨oldHash, hcalled⟩
  rcases called_eventsOf.mp hcalled with ⟨e, he, hi, hdid⟩
  exact ⟨e, he, hi, oldHash, hdid⟩

theorem AuthMachine.Reachable.created {e : AuthEntry} {rest : List AuthEntry}
    (he : e :: rest <:+ m.log) {tokenHash userId clientId : String}
    (hcreated : RefreshCreated e tokenHash userId clientId)
    : ∃ q, Started rest e.thread q
        ∧ MayCreate cfg q (eventsOf e.thread rest) tokenHash userId clientId := by
  rcases hcreated with ⟨expiresAt, hdid⟩
  exact h.allowed he hdid

theorem AuthMachine.Reachable.signed {e : AuthEntry} {rest : List AuthEntry}
    (he : e :: rest <:+ m.log) {claims : JwtClaims} (hsigned : Signed e claims)
    : ∃ q, Started rest e.thread q ∧ MaySign cfg q (eventsOf e.thread rest) claims := by
  rcases hsigned with ⟨token, hdid⟩
  exact h.allowed he hdid

/--
A refresh token that a grant creates has a predecessor, which the grant presented and has rotated.
-/
theorem AuthMachine.Reachable.successor {e : AuthEntry} {rest : List AuthEntry}
    (he : e :: rest <:+ m.log) {tokenHash userId clientId presented : String}
    (hcreated : RefreshCreated e tokenHash userId clientId)
    (hgrants : Grants cfg m.log e.thread presented)
    : ∃ e' ∈ rest, e'.thread = e.thread ∧ Rotated e' presented userId clientId := by
  rcases h.created he hcreated with ⟨q, hq, ⟨tenantId, hauth⟩, _, _⟩
  exact h.rotation (suffix_tail he) hq hauth hgrants

/--
The same for a token a grant signs.
-/
theorem AuthMachine.Reachable.signed_successor {e : AuthEntry} {rest : List AuthEntry}
    (he : e :: rest <:+ m.log) {claims : JwtClaims} {presented : String} (hsigned : Signed e claims)
    (hgrants : Grants cfg m.log e.thread presented)
    : ∃ clientId, ∃ e' ∈ rest, e'.thread = e.thread ∧ Rotated e' presented claims.sub clientId := by
  rcases h.signed he hsigned with ⟨q, hq, ⟨clientId, hauth⟩, _⟩
  exact ⟨clientId, h.rotation (suffix_tail he) hq hauth hgrants⟩

/--
Grants that present the same token and have rotated it are the same grant.
-/
theorem AuthMachine.Reachable.grant_unique {r r' : AuthEntry} (hr : r ∈ m.log) (hr' : r' ∈ m.log)
    {i i' : Nat} (hi : r.thread = i) (hi' : r'.thread = i')
    {presented userId clientId userId' clientId' : String}
    (hrot : Rotated r presented userId clientId) (hrot' : Rotated r' presented userId' clientId')
    : i = i' := by
  have := h.rotate_unique hr hr' hrot hrot'
  subst this
  exact hi.symm.trans hi'

theorem AuthMachine.Reachable.successor_pairwise (presented : String) :
    m.log.Pairwise fun e e' =>
      ¬((Grants cfg m.log e.thread presented ∧ ∃ tokenHash userId clientId,
          RefreshCreated e tokenHash userId clientId)
        ∧ (Grants cfg m.log e'.thread presented ∧ ∃ tokenHash userId clientId,
          RefreshCreated e' tokenHash userId clientId)) := by
  apply pairwise_of_suffix
  rintro e rest he e' he' ⟨⟨hg, _, _, _, hc⟩, hg', _, _, _, hc'⟩
  rcases suffix_of_mem he' with ⟨rest', hsuffix'⟩
  rcases h.successor he hc hg with ⟨r, hr, hi, hrot⟩
  rcases h.successor (hsuffix'.trans (suffix_tail he)) hc' hg' with ⟨r', hr', hi', hrot'⟩
  have hthread := h.grant_unique ((suffix_tail he).mem hr)
    ((suffix_tail (hsuffix'.trans (suffix_tail he))).mem hr') hi hi' hrot hrot'
  rcases h.created he hc with ⟨q, _, _, _, hfirst⟩
  rcases hc' with ⟨_, hdid'⟩
  have := absent_eventsOf hfirst he' hthread.symm hdid'
  contradiction

theorem AuthMachine.Reachable.signed_pairwise (presented : String) :
    m.log.Pairwise fun e e' =>
      ¬((Grants cfg m.log e.thread presented ∧ ∃ claims, Signed e claims)
        ∧ (Grants cfg m.log e'.thread presented ∧ ∃ claims, Signed e' claims)) := by
  apply pairwise_of_suffix
  rintro e rest he e' he' ⟨⟨hg, _, hc⟩, hg', _, hc'⟩
  rcases suffix_of_mem he' with ⟨rest', hsuffix'⟩
  rcases h.signed_successor he hc hg with ⟨_, r, hr, hi, hrot⟩
  rcases h.signed_successor (hsuffix'.trans (suffix_tail he)) hc' hg' with ⟨_, r', hr', hi', hrot'⟩
  have hthread := h.grant_unique ((suffix_tail he).mem hr)
    ((suffix_tail (hsuffix'.trans (suffix_tail he))).mem hr') hi hi' hrot hrot'
  rcases h.signed he hc with ⟨q, _, _, hfirst⟩
  rcases hc' with ⟨_, hdid'⟩
  have := absent_eventsOf hfirst he' hthread.symm hdid'
  contradiction

/--
The successor belongs to the same user and client as its predecessor.
-/
theorem AuthMachine.Reachable.successor_row {e : AuthEntry} {rest : List AuthEntry}
    (he : e :: rest <:+ m.log) {tokenHash userId clientId presented : String}
    (hcreated : RefreshCreated e tokenHash userId clientId)
    (hgrants : Grants cfg m.log e.thread presented)
    : ∃ t t', e.pre.refreshTokens.lookup presented = some t
        ∧ (e.post (semantics cfg)).refreshTokens.lookup tokenHash = some t'
        ∧ t'.userId = t.userId ∧ t'.clientId = t.clientId := by
  rcases h.successor he hcreated hgrants with ⟨r, hr, _, hrot⟩
  rcases hrot.spec (h.sound ((suffix_tail he).mem hr)) with ⟨t, _, _, huser, hclient, hpost⟩
  rcases (h.evolves he hr).refreshTokens _ _ hpost with ⟨t', ht', hkept⟩
  rcases (hcreated.spec (h.sound (he.mem List.mem_cons_self))).2 with ⟨t'', ht'', huser'', hclient'', _⟩
  refine ⟨t', t'', ht', ht'', ?_, ?_⟩
  . rw [huser'', hkept.userId, ← huser]
  . rw [hclient'', hkept.clientId, ← hclient]

/--
A token whose rotation belongs to a logout is not rotated by a grant.
-/
theorem AuthMachine.Reachable.logout_blocks {r r' : AuthEntry} (hr : r ∈ m.log) (hr' : r' ∈ m.log)
    {presented userId clientId userId' clientId' : String}
    (hlogout : LoggingOut cfg m.log r.thread presented) (hrot : Rotated r presented userId clientId)
    (hgrants : Grants cfg m.log r'.thread presented)
    (hrot' : Rotated r' presented userId' clientId')
    : False := by
  have := h.rotate_unique hr hr' hrot hrot'
  subst this
  rcases hlogout with ⟨q, hq, req, hlogout, _⟩
  rcases hgrants with ⟨q', hq', req', _, hgrant, _⟩
  have := Reaches.started_unique h hq hq'
  rw [this, hgrant] at hlogout
  contradiction

end Reachable

/--
Refresh tokens are single-use. In every interleaving, each token is rotated at most once, and yields
at most one successor and one access token. The successor belongs to the same user and client. Once
a logout has rotated a token, no refresh grant that presents it issues anything.
-/
theorem refresh_token_single_use (cfg : Config) (s : Server) (m : AuthMachine)
    (h : AuthMachine.Reachable cfg s m) :
    (m.log.Pairwise fun e e' => ∀ tokenHash,
      ¬((∃ userId clientId, Rotated e tokenHash userId clientId)
        ∧ ∃ userId clientId, Rotated e' tokenHash userId clientId))
    ∧ (∀ presented, m.log.Pairwise fun e e' =>
      ¬((Grants cfg m.log e.thread presented ∧ ∃ tokenHash userId clientId,
          RefreshCreated e tokenHash userId clientId)
        ∧ (Grants cfg m.log e'.thread presented ∧ ∃ tokenHash userId clientId,
          RefreshCreated e' tokenHash userId clientId)))
    ∧ (∀ presented, m.log.Pairwise fun e e' =>
      ¬((Grants cfg m.log e.thread presented ∧ ∃ claims, Signed e claims)
        ∧ (Grants cfg m.log e'.thread presented ∧ ∃ claims, Signed e' claims)))
    ∧ (∀ e ∈ m.log, ∀ tokenHash userId clientId presented,
      RefreshCreated e tokenHash userId clientId → Grants cfg m.log e.thread presented →
      ∃ t t', e.pre.refreshTokens.lookup presented = some t
        ∧ (e.post (semantics cfg)).refreshTokens.lookup tokenHash = some t'
        ∧ t'.userId = t.userId ∧ t'.clientId = t.clientId)
    ∧ (∀ r ∈ m.log, ∀ presented userId clientId, LoggingOut cfg m.log r.thread presented →
      Rotated r presented userId clientId →
      ∀ e ∈ m.log, Grants cfg m.log e.thread presented →
        (∀ tokenHash userId clientId, ¬RefreshCreated e tokenHash userId clientId)
          ∧ (∀ claims, ¬Signed e claims)
          ∧ ∀ a t, e.what = .finish a → a.body ≠ .userTokens t) := by
  refine ⟨h.rotate_pairwise, h.successor_pairwise, h.signed_pairwise, ?_, ?_⟩
  . intro e he tokenHash userId clientId presented hcreated hgrants
    rcases suffix_of_mem he with ⟨rest, hsuffix⟩
    exact h.successor_row hsuffix hcreated hgrants
  . intro r hr presented userId clientId hlogout hrot e he hgrants
    rcases suffix_of_mem he with ⟨rest, hsuffix⟩
    -- Whatever the grant issues goes back to a rotation of its own.
    have blocked : ∀ userId' clientId', ¬∃ r' ∈ rest, r'.thread = e.thread
        ∧ Rotated r' presented userId' clientId' := by
      rintro userId' clientId' ⟨r', hr', hi, hrot'⟩
      exact h.logout_blocks hr ((suffix_tail hsuffix).mem hr') hlogout hrot (hi ▸ hgrants) hrot'
    refine ⟨?_, ?_, ?_⟩
    . intro tokenHash userId' clientId' hcreated
      exact blocked _ _ (h.successor hsuffix hcreated hgrants)
    . intro claims hsigned
      rcases h.signed_successor hsuffix hsigned hgrants with ⟨clientId', hrot'⟩
      exact blocked _ _ hrot'
    . intro a t hw hbody
      rcases h.answered hsuffix hw with ⟨q, hq, hanswered⟩
      unfold Answered at hanswered
      rw [hbody] at hanswered
      rcases hanswered.authorized with ⟨clientId', _, hauth, _⟩
      exact blocked _ _ (h.rotation (suffix_tail hsuffix) hq hauth hgrants)

open Sample in
theorem refresh_token_single_use_twice :
    (straggling.log.Pairwise fun e e' => ∀ tokenHash,
      ¬((∃ userId clientId, Rotated e tokenHash userId clientId)
        ∧ ∃ userId clientId, Rotated e' tokenHash userId clientId))
    ∧ (∀ presented, straggling.log.Pairwise fun e e' =>
      ¬((Grants config straggling.log e.thread presented ∧ ∃ tokenHash userId clientId,
          RefreshCreated e tokenHash userId clientId)
        ∧ (Grants config straggling.log e'.thread presented ∧ ∃ tokenHash userId clientId,
          RefreshCreated e' tokenHash userId clientId))) :=
  have h := refresh_token_single_use config refreshServer straggling straggling_reachable
  ⟨h.1, h.2.1⟩

end Aspectus
