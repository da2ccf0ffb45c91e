import Aspectus.Security.TokenCoherence
import Aspectus.Security.TokenOrder

/-!
This module contains how long the cache of service tokens can hold a token that was replaced or revoked,
if the requests for service tokens are served concurrently.
-/

namespace Aspectus

open Interaction Prog Machine Statement

/--
The cache of service tokens is coherent whenever a request to rotate or revoke a token is answered: no
token that was ever stored for the project is cached unless it is the active one. Hence a token that the
request has replaced or revoked is rejected by all later verifications. This holds as long as the
requests write the row as they have read it, no other request of the project has yet to remove a token
from the cache, and removing one never fails.
-/
theorem service_token_cache_coherent (cfg : Config) (s : Server) (hstart : CacheCoherent s)
    (p : Project) (m : TokenMachine) (hm : TokenMachine.Reachable cfg s m)
    (hatonce : VerifiesAtOnce m.log) (hdiffer : TokensDiffer s m.log)
    (hinvalidates : Invalidates m.log) (hundisturbed : Undisturbed p m.log) :
    ∀ e rest, e :: rest <:+ m.log → ∀ name, Project.parse name = some p →
      Started m.log e.thread (.rotate name) ∨ Started m.log e.thread (.revoke name) →
      ∀ a, e.what = .finish a →
      ((∀ i, i ≠ e.thread → ∀ tokenHash, ¬Pending p rest i tokenHash) →
        ∀ tokenHash, Stored s rest p tokenHash →
          (e.pre.cached (ServiceTokenVerifier.cacheKey tokenHash)).isSome →
          e.pre.rowState p = some (tokenHash, true))
      ∧ ∀ w ∈ rest, w.thread = e.thread → Replaces p w → ∀ tokenHash,
          w.pre.rowState p = some (tokenHash, true) →
          ∀ st rest₀ token, st :: rest₀ <:+ m.log → e :: rest <:+ rest₀ →
            st.what = .start (.verify token) → cfg.sha256Text token = tokenHash →
            ∀ g ∈ m.log, g.thread = st.thread → ∀ b, g.what = .finish b →
              b.status = ErrorCode.invalidServiceToken.httpStatus := by
  intro e rest he name hname hstarted a hew
  have hrequest : ∃ q, Started m.log e.thread q ∧ q.project = some p := by
    rcases hstarted with hq | hq
    . exact ⟨_, hq, hname⟩
    . exact ⟨_, hq, hname⟩
  rcases hrequest with ⟨q, hq, hproject⟩
  constructor
  . intro hothers tokenHash hstored hcached
    have hsettled : ∀ i, ¬Pending p rest i tokenHash := by
      intro i
      by_cases hi : i = e.thread
      . subst hi
        exact TokenMachine.not_pending_of_answered hm hundisturbed he hq hproject hew tokenHash
      . exact hothers i hi tokenHash
    rcases hm.split he with ⟨m₁, _, hm₁, rfl, hstore, _⟩
    have hsuffix := suffix_tail he
    rw [← hstore] at hcached ⊢
    rcases TokenMachine.active_or_pending hm₁ hstart (hdiffer.of_suffix hsuffix)
      (hatonce.of_suffix hsuffix) (hinvalidates.of_suffix hsuffix) (hundisturbed.of_suffix hsuffix)
      hstored hcached with hactive | ⟨i, hi⟩
    . exact hactive
    . exact absurd hi (hsettled i)
  . intro w hw hthread hreplaces tokenHash hrow st rest₀ token hst hafter hstw hhash g hg hgthread b hgw
    rcases suffix_of_mem hw with ⟨restw, hrestw⟩
    rcases TokenMachine.removed_of_answered hm he hrestw hthread hundisturbed hq hproject hew hreplaces
      hrow with ⟨v, restv, hv, hwv, hvthread, hvdid⟩
    rcases suffix_of_mem hg with ⟨restg, hrestg⟩
    by_contra hstatus
    have hverify : Started m.log g.thread (.verify token) :=
      ⟨st, hst.mem List.mem_cons_self, hgthread.symm, hstw⟩
    have hrecognized := (TokenMachine.answered hm hrestg hverify hgw).recognized token rfl hstatus
    -- Everything the verification does happens after the token was removed from the cache.
    have hlater : ∀ x restx, x :: restx <:+ restg → x.thread = g.thread → (∀ q, x.what ≠ .start q) →
        x.pre.cached (ServiceTokenVerifier.cacheKey tokenHash) = none
          ∧ ∀ p', x.pre.rowState p' ≠ some (tokenHash, true) := by
      intro x restx hx hxthread hxw
      have hxlog := hx.trans (suffix_tail hrestg)
      have hstx : rest₀ <:+ restx := by
        rcases hm.after_start hst hstw hxlog (hxthread.trans hgthread) with ⟨rfl, _⟩ | hold
        . exact absurd hstw (hxw _)
        . exact suffix_tail hold
      have hvx : v :: restv <:+ restx := hv.trans ((suffix_tail hafter).trans hstx)
      rcases hm.split hxlog with ⟨m₁, _, hm₁, rfl, hstore, _⟩
      have hsuffix := suffix_tail hxlog
      have hwx := hwv.trans (suffix_tail hvx)
      rw [← hstore]
      exact ⟨TokenMachine.uncached_of_removed hm₁ (hdiffer.of_suffix hsuffix) hwx hreplaces hrow
          (hatonce.of_suffix hsuffix) (hinvalidates.of_suffix hsuffix) hvx
          hwv (hvthread.trans hthread.symm) hvdid,
        TokenMachine.inactive_of_replaced hm₁ (hdiffer.of_suffix hsuffix) hwx hreplaces hrow⟩
    rw [hhash] at hrecognized
    rcases hrecognized with ⟨text, hget⟩ | ⟨stored, hfind⟩
    . rcases hget.located with ⟨x, restx, hx, hxthread, d, hxw⟩
      have hnone := (hlater x restx hx hxthread (by rw [hxw]; intro _ h; cases h)).1
      have hsound := hm.sound x ((hx.trans (suffix_tail hrestg)).mem List.mem_cons_self) _ d hxw
      simp [semantics, Op.exec, CacheOp.exec, hnone] at hsound
    . rcases hfind.located with ⟨x, restx, hx, hxthread, d, hxw⟩
      have hinactive := (hlater x restx hx hxthread (by rw [hxw]; intro _ h; cases h)).2
      have hsound := hm.sound x ((hx.trans (suffix_tail hrestg)).mem List.mem_cons_self) _ d hxw
      rcases findServiceTokenByHash_ok (query_ok hsound.symm) with ⟨row, hrow', hrowhash, hrevoked, _⟩
      apply hinactive stored.project
      unfold Server.rowState
      rw [hrow']
      simp [hrowhash, hrevoked]

namespace Sample

/--
The hash that an entry stores.
-/
def hashStored (e : TokenEntry) : Option String :=
  match e.what with
  | .call ⟨.serviceToken (.upsert _ tokenHash _), .ok _⟩ _ => some tokenHash
  | _ => none

theorem hashStored_of_did {e : TokenEntry} {p : Project} {tokenHash tokenPrefix : String}
    {old : Option String} (h : Did e (.serviceToken (.upsert p tokenHash tokenPrefix)) (.ok old))
    : hashStored e = some tokenHash := by
  rcases h with ⟨d, hw⟩
  unfold hashStored
  rw [hw]

def storesHash (tokenHash : String) (e : TokenEntry) : Bool :=
  match e.what with
  | .call ⟨.serviceToken (.upsert .pandaria hash _), .ok _⟩ _ => hash = tokenHash
  | _ => false

theorem of_storesHash {log : List TokenEntry} {tokenHash : String}
    (h : log.any (storesHash tokenHash) = true) : Stored server log .pandaria tokenHash := by
  rcases List.any_eq_true.mp h with ⟨e, he, hstores⟩
  unfold storesHash at hstores
  split at hstores
  . next hash tokenPrefix old d hw =>
    rw [decide_eq_true_eq] at hstores
    exact .inr ⟨e, he, tokenPrefix, old, d, hstores ▸ hw⟩
  . contradiction

def isStart (e : TokenEntry) : Bool :=
  match e.what with
  | .start _ => true
  | _ => false

def verifies (i : Nat) (e : TokenEntry) : Bool :=
  e.thread = i && match e.what with
    | .start (.verify _) => true
    | _ => false

/--
Whether the newest entry of a log is one of a verification only if it directly follows another one.
-/
def atOnce (log : List TokenEntry) : List TokenEntry → Bool
  | [] => true
  | e :: rest => !log.any (verifies e.thread) || isStart e
    || rest.head?.any fun e' => e'.thread = e.thread

theorem verifiesAtOnce_of_check {log : List TokenEntry} (h : everyLog (atOnce log) log = true) :
    VerifiesAtOnce log := by
  rintro e rest he ⟨token, f, hf, hthread, hfw⟩ hnot
  have := of_everyLog h he
  have hverifies : log.any (verifies e.thread) = true :=
    List.any_eq_true.mpr ⟨f, hf, by simp [verifies, hthread, hfw]⟩
  have hstart : isStart e = false := by
    unfold isStart
    split
    . next q hw => exact absurd hw (hnot q)
    . rfl
  unfold atOnce at this
  dsimp only at this
  rw [hverifies, hstart] at this
  cases rest with
  | nil => contradiction
  | cons e' rest' => exact ⟨e', rest', rfl, by simpa using this⟩

/--
Whether the newest entry of a log stores a hash that was not stored before.
-/
def storesFresh : List TokenEntry → Bool
  | [] => true
  | e :: rest => (hashStored e).all fun tokenHash => rest.all fun e' => hashStored e' != some tokenHash

theorem tokensDiffer_of_check {log : List TokenEntry} (h : everyLog storesFresh log = true) :
    TokensDiffer server log := by
  constructor
  . intro p p' tokenHash active active' hrow
    contradiction
  . rintro e rest he p tokenHash tokenPrefix old hdid p' (⟨_, hrow⟩ | ⟨e', he', _, _, hdid'⟩)
    . contradiction
    . have := of_everyLog h he
      unfold storesFresh at this
      dsimp only at this
      rw [hashStored_of_did hdid, Option.all_some] at this
      have := List.all_eq_true.mp this e' he'
      rw [hashStored_of_did hdid'] at this
      simp at this

def removesHealthily (e : TokenEntry) : Bool :=
  match e.what with
  | .call ⟨.cache (.del _), _⟩ d => d.fault.isNone
  | _ => true

theorem invalidates_of_check {log : List TokenEntry} (h : log.all removesHealthily = true) :
    Invalidates log := by
  intro e he key d hw
  have := List.all_eq_true.mp h e he
  unfold removesHealthily at this
  rw [hw] at this
  exact Option.isNone_iff_eq_none.mp this

def replacesToken (e : TokenEntry) : Bool :=
  match e.what with
  | .call ⟨.serviceToken (.upsert ..), _⟩ _ => true
  | .call ⟨.serviceToken (.revoke _), _⟩ _ => true
  | _ => false

/--
Whether the active token is the one it was for `r` when `e` replaces or revokes it.
-/
def sameCurrent (e r : TokenEntry) : Bool :=
  !replacesToken e || !readsToken r || r.thread != e.thread
    || (r.pre.rowState .pandaria).current == (e.pre.rowState .pandaria).current

theorem undisturbed_of_check {log : List TokenEntry}
    (h : log.all (fun e => log.all (sameCurrent e)) = true) : Undisturbed .pandaria log := by
  rintro e rest he hreplaces r hr hthread ⟨_, d', hw'⟩
  have := List.all_eq_true.mp (List.all_eq_true.mp h e (he.mem List.mem_cons_self)) r
    ((suffix_tail he).mem hr)
  rcases hreplaces with ⟨_, _, _, d, hw⟩ | ⟨d, hw⟩
  . simpa [sameCurrent, replacesToken, readsToken, hw, hw', hthread] using this
  . simpa [sameCurrent, replacesToken, readsToken, hw, hw', hthread] using this

theorem server_coherent : CacheCoherent server := by
  intro tokenHash hcached
  contradiction

def startsRotation (i : Nat) (e : TokenEntry) : Bool :=
  e.thread = i && match e.what with
    | .start (.rotate name) => name = "pandaria"
    | _ => false

theorem of_startsRotation {i : Nat} {log : List TokenEntry} (h : log.any (startsRotation i) = true) :
    Started log i (.rotate "pandaria") := by
  rcases List.any_eq_true.mp h with ⟨e, he, h⟩
  unfold startsRotation at h
  simp only [Bool.and_eq_true, decide_eq_true_eq] at h
  rcases h with ⟨hi, h⟩
  split at h
  . next name hw =>
    rw [decide_eq_true_eq] at h
    exact ⟨e, he, hi, h ▸ hw⟩
  . contradiction

/--
Whether thread `i` replaces the active token with this hash.
-/
def replacesActive (i : Nat) (tokenHash : String) (e : TokenEntry) : Bool :=
  e.thread = i && e.pre.rowState .pandaria = some (tokenHash, true) && match e.what with
    | .call ⟨.serviceToken (.upsert .pandaria _ _), .ok _⟩ _ => true
    | _ => false

theorem of_replacesActive {i : Nat} {tokenHash : String} {e : TokenEntry}
    (h : replacesActive i tokenHash e = true)
    : e.thread = i ∧ Replaces .pandaria e ∧ e.pre.rowState .pandaria = some (tokenHash, true) := by
  unfold replacesActive at h
  simp only [Bool.and_eq_true, decide_eq_true_eq] at h
  rcases h with ⟨⟨hi, hrow⟩, h⟩
  split at h
  . next hash tokenPrefix old d hw => exact ⟨hi, .inl ⟨hash, tokenPrefix, old, d, hw⟩, hrow⟩
  . contradiction

/--
A token is created and verified.
-/
def tokenCached : TokenMachine :=
  let created := serve ProjectTokenRequest.handle (init server) 0 (.create "pandaria") 1 8
  serve ProjectTokenRequest.handle created 1 (.verify (serviceToken 1)) 4 9

/--
The token is rotated after that.
-/
def rotatedAway : TokenMachine :=
  serve ProjectTokenRequest.handle tokenCached 2 (.rotate "pandaria") 2 9

/--
A token is rotated twice at the same time: the first rotation replaces the token of the second one, which
has been verified already.
-/
def rotatedTwice : TokenMachine :=
  let created := serve ProjectTokenRequest.handle (init server) 0 (.create "pandaria") 1 8
  let rotating := serve ProjectTokenRequest.handle created 1 (.rotate "pandaria") 2 2
  let rotated := serve ProjectTokenRequest.handle rotating 2 (.rotate "pandaria") 3 9
  let verified := serve ProjectTokenRequest.handle rotated 3 (.verify (serviceToken 3)) 4 9
  resume ProjectTokenRequest.handle verified 1 2 9

/--
A token is verified once more.
-/
def tokenVerified (m : TokenMachine) (token : String) : TokenMachine :=
  serve ProjectTokenRequest.handle m 5 (.verify token) 4 9

/--
Whether thread `i` is answered although a token that was stored before is cached and not active.
-/
def leavesCached (i : Nat) (tokenHash : String) : List TokenEntry → Bool
  | [] => false
  | e :: rest => answers i 200 e && (e.pre.cached (ServiceTokenVerifier.cacheKey tokenHash)).isSome
    && e.pre.rowState .pandaria != some (tokenHash, true)
    && rest.any (storesHash tokenHash)

end Sample

open Sample in
theorem service_token_cache_coherent_rotated :
    rotatedAway.log.any (answers 2 200) = true
    ∧ ∀ g ∈ (tokenVerified rotatedAway (serviceToken 1)).log, g.thread = 5 →
      ∀ b, g.what = .finish b → b.status = ErrorCode.invalidServiceToken.httpStatus := by
  have hm : TokenMachine.Reachable config server (tokenVerified rotatedAway (serviceToken 1)) :=
    reachable_serve (reachable_serve (reachable_serve (reachable_serve reachable_init)))
  have hst : ⟨5, rotatedAway.store, .start (.verify (serviceToken 1))⟩ :: rotatedAway.log
      <:+ (tokenVerified rotatedAway (serviceToken 1)).log := by
    refine serve_start ?_
    rw [rotatedAway, serve_threads (by decide), tokenCached, serve_threads (by decide), serve_threads (by decide)]
    rfl
  have hrotate : ⟨2, tokenCached.store, .start (.rotate "pandaria")⟩ :: tokenCached.log
      <:+ rotatedAway.log := by
    refine serve_start ?_
    rw [tokenCached, serve_threads (by decide), serve_threads (by decide)]
    rfl
  have hchecks : rotatedAway.log.any (answers 2 200) = true
      ∧ rotatedAway.log.any (replacesActive 2 (config.sha256Text (serviceToken 1))) = true
      ∧ everyLog (atOnce (tokenVerified rotatedAway (serviceToken 1)).log)
        (tokenVerified rotatedAway (serviceToken 1)).log = true
      ∧ everyLog storesFresh (tokenVerified rotatedAway (serviceToken 1)).log = true
      ∧ (tokenVerified rotatedAway (serviceToken 1)).log.all removesHealthily = true
      ∧ (tokenVerified rotatedAway (serviceToken 1)).log.all (fun e =>
        (tokenVerified rotatedAway (serviceToken 1)).log.all (sameCurrent e)) = true := by
    decide +kernel
  rcases hchecks with ⟨hanswered, hreplaced, hatonce, hfresh, hhealthily, hsame⟩
  rcases List.any_eq_true.mp hanswered with ⟨e, he, hfinish⟩
  rcases of_answers hfinish with ⟨hei, a, hew, _⟩
  rcases suffix_of_mem he with ⟨rest, hrest⟩
  rcases List.any_eq_true.mp hreplaced with ⟨w, hw, hreplaces⟩
  rcases of_replacesActive hreplaces with ⟨hwi, hreplaces, hrow⟩
  rcases suffix_of_mem hw with ⟨restw, hrestw⟩
  -- The answer is the last entry of the rotation.
  have hwrest : w ∈ rest := by
    rcases suffix_trichotomy hrest hrestw with ⟨rfl, _⟩ | hold | hold
    . rcases hreplaces with ⟨_, _, _, d, hww⟩ | ⟨d, hww⟩
      . cases hew.symm.trans hww
      . cases hew.symm.trans hww
    . exact hold.mem List.mem_cons_self
    . exact absurd (hwi.trans hei.symm)
        (hm.finish_last (hrestw.trans (suffix_tail hst)) (hold.mem List.mem_cons_self) hew)
  refine ⟨hanswered, ?_⟩
  intro g hg hgi b hgw
  exact (service_token_cache_coherent config server server_coherent .pandaria _ hm
    (verifiesAtOnce_of_check hatonce) (tokensDiffer_of_check hfresh)
    (invalidates_of_check hhealthily) (undisturbed_of_check hsame)
    e rest (hrest.trans (suffix_tail hst)) "pandaria" (by decide)
    (.inl ⟨_, (suffix_tail hst).mem (hrotate.mem List.mem_cons_self), hei.symm, rfl⟩) a hew).2
    w hwrest (hwi.trans hei.symm) hreplaces _ hrow _ _ _ hst hrest rfl rfl g hg hgi b hgw

open Sample in
/--
A rotation that overlaps with another one leaves the token of the other one in the cache.
-/
theorem service_token_cache_stale :
    ¬∀ m, TokenMachine.Reachable config server m → VerifiesAtOnce m.log →
      ∀ e rest, e :: rest <:+ m.log → Started m.log e.thread (.rotate "pandaria") →
      ∀ a, e.what = .finish a → ∀ tokenHash, Stored server rest .pandaria tokenHash →
        (e.pre.cached (ServiceTokenVerifier.cacheKey tokenHash)).isSome →
        e.pre.rowState .pandaria = some (tokenHash, true) := by
  intro hclaim
  have hm : TokenMachine.Reachable config server rotatedTwice :=
    reachable_resume (reachable_serve (reachable_serve (reachable_serve (reachable_serve reachable_init))))
  have hchecks : everyLog (atOnce rotatedTwice.log) rotatedTwice.log = true
      ∧ rotatedTwice.log.any (fun e => startsRotation 1 e) = true
      ∧ everyLog (fun log => !leavesCached 1 (config.sha256Text (serviceToken 3)) log) rotatedTwice.log
        = false := by
    decide +kernel
  rcases hchecks with ⟨hatonce, hrotate, hcached⟩
  have hatonce := verifiesAtOnce_of_check hatonce
  have hnone : everyLog (fun log => !leavesCached 1 (config.sha256Text (serviceToken 3)) log)
      rotatedTwice.log = true := by
    apply everyLog_of
    intro rest hrest
    cases rest with
    | nil => rfl
    | cons e rest =>
      rw [Bool.not_eq_true']
      apply Bool.eq_false_iff.mpr
      intro hleaves
      unfold leavesCached at hleaves
      dsimp only at hleaves
      simp only [Bool.and_eq_true, bne_iff_ne] at hleaves
      rcases hleaves with ⟨⟨⟨hanswers, hcached⟩, hrow⟩, hstores⟩
      rcases of_answers hanswers with ⟨hi, a, hw, _⟩
      exact hrow (hclaim _ hm hatonce e rest hrest (hi ▸ of_startsRotation hrotate) a hw _
        (of_storesHash hstores) hcached)
  exact Bool.false_ne_true (hcached.symm.trans hnone)

end Aspectus
