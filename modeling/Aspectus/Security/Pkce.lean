import Aspectus.Security.Code

/-!
This module contains when PKCE protects an authorization code: whenever the statement that stores the
challenge goes through.
-/

namespace Aspectus

open Interaction Machine Statement

variable {cfg : Config} {s : Server} {m : AuthMachine}

/--
The column for challenges accepts the challenge, apart from spaces that exceed its width.
-/
def ChallengeFits (challenge : String) : Prop :=
  storable challenge = true
    ∧ (challenge.length ≤ 255 ∨ (challenge.toList.drop 255).all (· = ' ') = true)

/--
The challenge that is stored with the code is the given one.
-/
def ChallengeStored (code stored : String) (s : Server) : Prop :=
  ∃ c, s.authorizationCodes.lookup code = some c ∧ c.codeChallenge = some stored

/--
A column stores a text as it is, or cuts it to its width.
-/
theorem varchar_fits {n : Nat} {text : String}
    (h : text.length ≤ n ∨ (text.toList.drop n).all (· = ' ') = true)
    : ∃ stored, varchar n text = .ok stored ∧ (stored = text ∨ stored.length = n) := by
  unfold varchar
  split
  . exact ⟨text, rfl, .inl rfl⟩
  . next hlong =>
    rcases h with hshort | hspaces
    . contradiction
    . rw [if_pos hspaces]
      refine ⟨_, rfl, .inr ?_⟩
      have : text.toList.length = text.length := String.length_toList
      simp only [String.length_ofList, List.length_take]
      omega

section Reachable

variable (h : AuthMachine.Reachable cfg s m)
include h

theorem AuthMachine.Reachable.stored_unique {o o' : AuthEntry} {rest rest' : List AuthEntry}
    (ho : o :: rest <:+ m.log) (ho' : o' :: rest' <:+ m.log)
    {code userId clientId redirectUri userId' clientId' redirectUri' : String}
    {expiresAt expiresAt' : Instant}
    (hstored : CodeStored o code userId clientId redirectUri expiresAt)
    (hstored' : CodeStored o' code userId' clientId' redirectUri' expiresAt')
    : o = o' ∧ rest = rest' := by
  have hpost := (hstored.spec (h.sound (ho.mem List.mem_cons_self))).2
  have hpost' := (hstored'.spec (h.sound (ho'.mem List.mem_cons_self))).2
  rcases suffix_trichotomy ho ho' with heq | hold | hold
  . exact heq
  . exact (h.not_stored ho (hold.mem List.mem_cons_self) hpost' hstored).elim
  . exact (h.not_stored ho' (hold.mem List.mem_cons_self) hpost hstored').elim

/--
Only the thread that has created a code stores a challenge with it, the one its request carried.
-/
theorem AuthMachine.Reachable.challenge_set {o e : AuthEntry} {resto rest : List AuthEntry}
    (ho : o :: resto <:+ m.log) (he : e :: rest <:+ m.log)
    {code userId clientId redirectUri challenge : String} {expiresAt : Instant}
    (hstored : CodeStored o code userId clientId redirectUri expiresAt) {r : Result Unit}
    (hdid : Did e (.code (.setChallenge challenge code)) r) {req : AuthorizeRequest}
    (hreq : Started m.log o.thread (.authorize req))
    : req.codeChallenge = some challenge := by
  rcases h.allowed he hdid with ⟨q, hq, req', _, _, rfl, hchallenge, hcreated⟩
  rcases hcreated.located with ⟨o', resto', ho', hi', hdid'⟩
  rcases h.stored_unique ho (ho'.trans (suffix_tail he)) hstored hdid' with ⟨rfl, _⟩
  have := Reaches.started_unique h hreq (hi' ▸ hq.of_suffix (suffix_tail he))
  injection this with this
  rw [this]
  exact hchallenge

/--
A challenge that the column accepts is stored by its statement.
-/
theorem AuthMachine.Reachable.challenge_post {o z : AuthEntry} {restz : List AuthEntry}
    (hz : z :: restz <:+ m.log) (ho : o ∈ restz)
    {code userId clientId redirectUri challenge stored : String} {expiresAt : Instant}
    (hstored : CodeStored o code userId clientId redirectUri expiresAt) {r : Result Unit} {d : Draw}
    (hw : z.what = .call ⟨.code (.setChallenge challenge code), r⟩ d) (hfault : d.fault = none)
    (hstorable : storable challenge = true) (hvarchar : varchar 255 challenge = .ok stored)
    : ChallengeStored code stored (z.post (semantics cfg)) := by
  have hos := h.sound ((suffix_tail hz).mem ho)
  have hpost := (hstored.spec hos).2
  rcases (h.evolves hz ho).codes _ _ hpost with ⟨c, hc, _⟩
  -- The code is storable because it was stored.
  have hcode : storable code = true := by
    rcases hstored.exec hos with ⟨d', hres, _⟩
    have hparams := (run_accepted hres.symm).2
    simp only [List.all_cons, Bool.and_eq_true] at hparams
    exact hparams.1
  have hrun : (Op.exec cfg (.code (.setChallenge challenge code)) d z.pre).2
      = { z.pre with
          authorizationCodes :=
            z.pre.authorizationCodes.updateAt code fun c => { c with codeChallenge := some stored } } := by
    refine congrArg Prod.snd (run_healthy (a := ()) hfault ?_ ?_)
    . simp [hstorable, hcode]
    . unfold Statement.setChallenge
      rw [hc]
      dsimp only
      rw [hvarchar]
      rfl
  have hzpost : z.post (semantics cfg)
      = (Op.exec cfg (.code (.setChallenge challenge code)) d z.pre).2 := by
    unfold Entry.post
    rw [hw]
    rfl
  refine ⟨{ c with codeChallenge := some stored }, ?_, rfl⟩
  rw [hzpost, hrun]
  simp [hc]

/--
A stored challenge stays stored.
-/
theorem AuthMachine.Reachable.challenge_kept {o z y : AuthEntry} {resto restz resty : List AuthEntry}
    (ho : o :: resto <:+ m.log) (hz : z :: restz <:+ m.log) (hy : y :: resty <:+ m.log)
    (hzy : z :: restz <:+ resty)
    {code userId clientId redirectUri challenge stored : String} {expiresAt : Instant}
    (hstored : CodeStored o code userId clientId redirectUri expiresAt)
    {req : AuthorizeRequest} (hreq : Started m.log o.thread (.authorize req))
    (hchallenge : req.codeChallenge = some challenge) (hvarchar : varchar 255 challenge = .ok stored)
    (hpost : ChallengeStored code stored (z.post (semantics cfg)))
    : ChallengeStored code stored y.pre := by
  refine (Reaches.persists (P := ChallengeStored code stored)
    (B := fun e => ∃ challenge' r, Did e (.code (.setChallenge challenge' code)) r
      ∧ challenge' ≠ challenge) ?_ ?_ h hz hpost ?_).2 y resty hy hzy
  . rintro e he ⟨c, hc, hcstored⟩
    rcases e.post_cases (semantics cfg) with hsame | ⟨⟨op, r⟩, d, hw, hexec⟩
    . rw [hsame]
      exact ⟨c, hc, hcstored⟩
    . rw [hexec]
      rcases (Op.exec_codes cfg d e.pre op).challenge code c hc with
        ⟨c', hc', hsame | ⟨challenge', stored', rfl, hvarchar', hset⟩⟩
      . exact ⟨c', hc', hsame.trans hcstored⟩
      . refine ⟨c', hc', ?_⟩
        have hsame : challenge' = challenge := by
          by_contra hne
          exact he ⟨challenge', r, ⟨d, hw⟩, hne⟩
        rw [hsame, hvarchar] at hvarchar'
        injection hvarchar' with hvarchar'
        rw [hset, hvarchar']
  . intro n s hs
    exact hs
  . rintro e rest he _ ⟨challenge', r, hdid, hne⟩
    have := h.challenge_set ho he hstored hdid hreq
    rw [hchallenge] at this
    injection this with this
    exact hne this.symm

end Reachable

/--
PKCE cannot be downgraded if the challenge is stored: a code that was answered to a request with a
challenge is only redeemed by a request with a verifier for that challenge.
-/
theorem pkce_not_downgraded (cfg : Config) (hlength : ∀ bytes, (cfg.sha256 bytes).length = 64)
    (s : Server) (m : AuthMachine) (h : AuthMachine.Reachable cfg s m) (req : AuthorizeRequest)
    (challenge : String) (hchallenge : req.codeChallenge = some challenge)
    (a : AuthEntry) (resta : List AuthEntry) (ha : a :: resta <:+ m.log)
    (hreq : Started m.log a.thread (.authorize req)) (status : Nat) (code redirectUri : String)
    (hanswer : a.what = .finish ⟨status, .code code redirectUri⟩) (hfits : ChallengeFits challenge)
    (hhealthy : ∀ z ∈ m.log, z.thread = a.thread → ∀ r d,
      z.what = .call ⟨.code (.setChallenge challenge code), r⟩ d → d.fault = none) :
    ∀ e ∈ m.log, ∀ tokenReq userId, Redeems m.log e.thread tokenReq code →
      (∀ x restx, x :: restx <:+ m.log → x.thread = e.thread →
        (∃ userId clientId redirectUri, Exchanged x code userId clientId redirectUri) →
        a :: resta <:+ restx) →
      Issues e userId →
      ∃ verifier, tokenReq.codeVerifier = some verifier
        ∧ token.challengeOf cfg verifier = challenge := by
  intro e he tokenReq userId hredeems hlater hissues
  rcases suffix_of_mem he with ⟨rest, hrest⟩
  -- The challenge was stored before the code was answered.
  rcases h.answered ha hanswer with ⟨q, hq, req', user, expiresAt, rfl, rfl, hcreated, hset⟩
  have := Reaches.started_unique h hreq (hq.of_suffix (suffix_tail ha))
  injection this with this
  subst this
  rcases hset challenge hchallenge with ⟨r, hset⟩
  rcases hset.located with ⟨z, restz, hz, hzi, d, hzw⟩
  have hzlog := hz.trans (suffix_tail ha)
  rcases h.allowed hzlog ⟨d, hzw⟩ with ⟨_, hq', req'', user', expiresAt', rfl, _, hcreated'⟩
  rcases hcreated'.located with ⟨o, resto, ho, hoi, hstored⟩
  have holog := ho.trans (suffix_tail hzlog)
  have hostarted : Started m.log o.thread (.authorize req) := by
    rw [hoi, hzi]
    exact hreq
  rcases varchar_fits hfits.2 with ⟨stored, hvarchar, hsame⟩
  have hpost := h.challenge_post hzlog (ho.mem List.mem_cons_self) hstored hzw
    (hhealthy z (hzlog.mem List.mem_cons_self) hzi r d hzw) hfits.1 hvarchar
  -- The grant reads the challenge after it has exchanged the code, hence after the answer.
  rcases hredeems with ⟨hstarted, hgrant, hcode⟩
  rcases h.issued hrest hissues with ⟨q, tenantId, clientId, hqe, hauth⟩
  have := Reaches.started_unique h hstarted (hqe.of_suffix (suffix_tail hrest))
  subst this
  rcases hauth.exchanged hgrant hcode with ⟨_, read, _, _, _, hread, hverifier⟩
  rcases hread.located with ⟨y, resty, hy, hyi, hydid⟩
  have hylog := hy.trans (suffix_tail hrest)
  rcases h.challenge_read hylog hydid with ⟨c, hc, rfl, x, restx, u, cl, uri, hx, hxi, hex⟩
  have hbefore : a :: resta <:+ restx := by
    apply hlater x restx (hx.trans (suffix_tail hylog)) (hxi.trans hyi)
    exact ⟨u, cl, uri, hex⟩
  have hzy : z :: restz <:+ resty :=
    hz.trans ((suffix_tail hbefore).trans (suffix_tail hx))
  rcases h.challenge_kept holog hzlog hylog hzy hstored hostarted hchallenge hvarchar hpost with
    ⟨c', hc', hcstored⟩
  rw [hc] at hc'
  injection hc' with hc'
  subst hc'
  simp only [Option.join_some, hcstored] at hverifier
  cases hv : tokenReq.codeVerifier with
  | none =>
    rw [hv] at hverifier
    contradiction
  | some verifier =>
    refine ⟨verifier, rfl, ?_⟩
    rw [hv] at hverifier
    unfold token.checkVerifier at hverifier
    dsimp only at hverifier
    split at hverifier
    . next heq =>
      rcases hsame with hsame | hcut
      . rw [← heq, hsame]
      . -- A challenge that was cut is no digest.
        rw [heq] at hcut
        unfold token.challengeOf Config.sha256Text at hcut
        rw [hlength] at hcut
        contradiction
    . contradiction

namespace Sample

/--
The challenge of `codeVerifier`.
-/
def codeChallenge : String :=
  token.challengeOf config codeVerifier

/--
A challenge that the column rejects.
-/
def longChallenge : String :=
  String.ofList (List.replicate 256 'a')

theorem redeemed_later {c v : Option String} {a : AuthEntry} {resta : List AuthEntry}
    (ha : a :: resta <:+ (authorized c).log) {x : AuthEntry} {restx : List AuthEntry} (hx : x :: restx <:+ (redeemed c v).log)
    (hi : x.thread = 2) {o : Op} {r : o.Res} (hdid : Did x o r)
    : a :: resta <:+ restx :=
  ha.trans (suffix_tail (redeemed_reachable.call_after_start redeemed_start rfl hx hi hdid))

end Sample

open Sample in
theorem pkce_not_downgraded_redeemed :
    ∃ verifier, (codeGrant (some codeVerifier)).codeVerifier = some verifier
      ∧ token.challengeOf config verifier = codeChallenge := by
  have hchecks : (authorized (some codeChallenge)).log.any (answersCode 1 3) = true
      ∧ (redeemed (some codeChallenge) (some codeVerifier)).log.any (answersTokens 2)
        = true
      ∧ (redeemed (some codeChallenge) (some codeVerifier)).log.all healthy = true := by
    decide +kernel
  rcases hchecks with ⟨hanswered, hissued, hhealthy⟩
  rcases List.any_eq_true.mp hanswered with ⟨a, ha, hcode⟩
  rcases of_answersCode hcode with ⟨hai, haw⟩
  rcases suffix_of_mem ha with ⟨resta, hresta⟩
  rcases List.any_eq_true.mp hissued with ⟨e, he, htokens⟩
  rcases of_answersTokens htokens with ⟨hi, _, t, hw, huser⟩
  have hstart := redeemed_start (c := some codeChallenge) (v := some codeVerifier)
  refine pkce_not_downgraded config sha256_length server _ redeemed_reachable
    (authorizeRequest (some codeChallenge)) codeChallenge rfl a resta
    (hresta.trans (suffix_tail hstart)) ?_ 200 (sha256 (raw 3)) redirectUri haw
    ⟨by decide +kernel, by decide +kernel⟩ ?_ e he (codeGrant (some codeVerifier)) userId ?_ ?_
    (.answered hw rfl huser)
  . exact ⟨_, (suffix_tail hstart).mem (authorized_start.mem List.mem_cons_self), hai.symm, rfl⟩
  . intro z hz _ r d hzw
    exact of_healthy (List.all_eq_true.mp hhealthy z hz) hzw
  . exact ⟨⟨_, hstart.mem List.mem_cons_self, hi.symm, rfl⟩, rfl, rfl⟩
  . rintro x restx hx hxi ⟨_, _, _, hdid⟩
    exact redeemed_later hresta hx (hxi.trans hi) hdid

open Sample in
/--
A challenge that the column rejects is dropped: the code is answered, and redeemed without a
verifier.
-/
theorem pkce_downgraded :
    ¬∀ m, AuthMachine.Reachable config server m → ∀ req challenge,
      req.codeChallenge = some challenge → req.codeChallengeMethod = some "S256" →
      ∀ a resta, a :: resta <:+ m.log → Started m.log a.thread (.authorize req) →
      ∀ status code redirectUri, a.what = .finish ⟨status, .code code redirectUri⟩ →
      ∀ e ∈ m.log, ∀ tokenReq userId, Redeems m.log e.thread tokenReq code →
      (∀ x restx, x :: restx <:+ m.log → x.thread = e.thread →
        (∃ userId clientId redirectUri, Exchanged x code userId clientId redirectUri) →
        a :: resta <:+ restx) →
      Issues e userId →
      ∃ verifier, tokenReq.codeVerifier = some verifier
        ∧ token.challengeOf config verifier = challenge := by
  intro hclaim
  have hchecks : (authorized (some longChallenge)).log.any (answersCode 1 3) = true
      ∧ (redeemed (some longChallenge) none).log.any (answersTokens 2) = true := by
    decide +kernel
  rcases hchecks with ⟨hanswered, hissued⟩
  rcases List.any_eq_true.mp hanswered with ⟨a, ha, hcode⟩
  rcases of_answersCode hcode with ⟨hai, haw⟩
  rcases suffix_of_mem ha with ⟨resta, hresta⟩
  rcases List.any_eq_true.mp hissued with ⟨e, he, htokens⟩
  rcases of_answersTokens htokens with ⟨hi, _, t, hw, huser⟩
  have hstart := redeemed_start (c := some longChallenge) (v := none)
  have hverifier := hclaim _ redeemed_reachable (authorizeRequest (some longChallenge)) longChallenge
    rfl rfl a resta (hresta.trans (suffix_tail hstart))
    ⟨_, (suffix_tail hstart).mem (authorized_start.mem List.mem_cons_self), hai.symm, rfl⟩
    200 (sha256 (raw 3)) redirectUri haw e he (codeGrant none) userId
    ⟨⟨_, hstart.mem List.mem_cons_self, hi.symm, rfl⟩, rfl, rfl⟩
    (fun x restx hx hxi hex => by
      rcases hex with ⟨_, _, _, hdid⟩
      exact redeemed_later hresta hx (hxi.trans hi) hdid)
    (.answered hw rfl huser)
  rcases hverifier with ⟨_, hnone, _⟩
  cases hnone

end Aspectus
