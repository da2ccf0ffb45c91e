import Aspectus.Interaction.Removal
import Aspectus.Security.Counting
import Aspectus.Security.Sample

/-!
This module contains what the rate limiters of the server have to do with each other: they count in the
same place, so that they only leave each other alone as long as they do not count the same key in the same
bucket.
-/

namespace Aspectus

open Interaction Machine Prog

/--
The rate limiters of the server.
-/
inductive Limiter where
  /-- For authorization, login and registration. -/
  | authorize
  | password
  | token
  | introspect
  | mgmt
deriving DecidableEq

def Limiter.rateLimiter : Limiter → RateLimiter
  | .authorize => .authorizeLimiter
  | .password => .passwordLimiter
  | .token => .tokenLimiter
  | .introspect => .introspectLimiter
  | .mgmt => .mgmtLimiter

/--
A request that passes through a limiter, with the key it is counted under.
-/
structure LimitedRequest where
  limiter : Limiter
  key : String
deriving DecidableEq

def LimitedRequest.handle (q : LimitedRequest) : App Bool :=
  q.limiter.rateLimiter.check q.key

abbrev LimiterMachine : Type := Machine Api Server Draw LimitedRequest Bool

/--
The execution some requests lead to.
-/
abbrev limited (cfg : Config) (actions : List (Action Draw LimitedRequest)) (s : Server) :
    LimiterMachine :=
  runs (semantics cfg) LimitedRequest.handle (init s) actions

namespace LimiterMachine

/--
Thread `i` serves the request `q`.
-/
def serves (m : LimiterMachine) (q : LimitedRequest) (i : Nat) : Bool :=
  (m.threads i).map (fun t => t.request) = some q

/--
Thread `i` does not serve a request that passes through another limiter than `x`.
-/
def stays (m : LimiterMachine) (x : Limiter) (i : Nat) : Bool :=
  ((m.threads i).map fun t => decide (t.request.limiter = x)).getD true

/--
The decisions of the limiter `x` for the key `k`, newest first.
-/
def decisions (m : LimiterMachine) (x : Limiter) (k : String) : List (Nat × Bool) :=
  answered (m.serves ⟨x, k⟩) m.log

/--
The limiter `x` counted the key `k` in bucket `b`.
-/
def CountedIn (m : LimiterMachine) (x : Limiter) (k : String) (b : Nat) : Prop :=
  ∃ e ∈ m.log, m.serves ⟨x, k⟩ e.thread = true ∧ ∃ ev d maxRequests windowSecs,
    e.what = .call ev d ∧ ev.op = .cache (.checkRate k b maxRequests windowSecs)

/--
No other limiter counted `k` in a bucket in which `x` counted it.
-/
def Apart (m : LimiterMachine) (x : Limiter) (k : String) : Prop :=
  ∀ y b, y ≠ x → m.CountedIn x k b → ¬m.CountedIn y k b

end LimiterMachine

section Counters

variable {d : Draw} {s s' : Server} {key : String} {bucket : Nat} {maxRequests windowSecs : Int}

/--
A check only writes the counter it counts in.
-/
theorem checkRate_redis_ne {key' : String} (hkey : key' ≠ rateLimitKey key bucket) :
    ((CacheOp.checkRate key bucket maxRequests windowSecs).exec d s).2.redis key' = s.redis key' := by
  unfold CacheOp.exec
  dsimp only
  split
  . rfl
  . exact Function.update_of_ne hkey _ _

/--
A check only depends on the clock and the counter it counts in.
-/
theorem checkRate_congr (hnow : s.now = s'.now)
    (hredis : s.redis (rateLimitKey key bucket) = s'.redis (rateLimitKey key bucket))
    : ((CacheOp.checkRate key bucket maxRequests windowSecs).exec d s).1
          = ((CacheOp.checkRate key bucket maxRequests windowSecs).exec d s').1
        ∧ ((CacheOp.checkRate key bucket maxRequests windowSecs).exec d s).2.redis
            (rateLimitKey key bucket)
          = ((CacheOp.checkRate key bucket maxRequests windowSecs).exec d s').2.redis
            (rateLimitKey key bucket) := by
  unfold CacheOp.exec
  dsimp only
  cases d.fault with
  | some e => exact ⟨rfl, hredis⟩
  | none =>
    dsimp only
    rw [Function.update_self, Function.update_self, hnow, hredis]
    exact ⟨rfl, rfl⟩

end Counters

/--
What a request that passes through a limiter calls.
-/
def LimiterAllowed (q : LimitedRequest) (_ : List (Event Api)) (o : Op) : Prop :=
  o = .host .now ∨ ∃ bucket maxRequests windowSecs,
    o = .cache (.checkRate q.key bucket maxRequests windowSecs)

theorem LimitedRequest.handle_conforms (q : LimitedRequest) :
    q.handle.Conforms (LimiterAllowed q) (fun _ _ => True) [] := by
  unfold LimitedRequest.handle RateLimiter.check
  refine conforms_perform_bind (.inl rfl) fun now => ?_
  refine conforms_perform_bind (.inr ⟨_, _, _, rfl⟩) fun r => ?_
  cases r with
  | ok allowed => trivial
  | error e => trivial

/--
The operations that do not show in the counters of the key `k` for the buckets in `B`.
-/
def Uncounted (k : String) (B : Nat → Prop) (o : Op) : Prop :=
  o = .host .now ∨ ∃ key bucket maxRequests windowSecs,
    o = .cache (.checkRate key bucket maxRequests windowSecs) ∧ (key = k → ¬B bucket)

/--
The operations that depend on nothing but the clock and these counters.
-/
def CountedOnly (k : String) (B : Nat → Prop) (o : Op) : Prop :=
  o = .host .now ∨ ∃ bucket maxRequests windowSecs,
    o = .cache (.checkRate k bucket maxRequests windowSecs) ∧ B bucket

/--
The clock and the counters are the same.
-/
def SameCounters (k : String) (B : Nat → Prop) (s s' : Server) : Prop :=
  s.now = s'.now ∧ ∀ b, B b → s.redis (rateLimitKey k b) = s'.redis (rateLimitKey k b)

section Counters

variable {k : String} {B : Nat → Prop} {o : Op} {s s' : Server}

theorem Uncounted.exec (ho : Uncounted k B o) (cfg : Config) (d : Draw) (s : Server) :
    SameCounters k B (o.exec cfg d s).2 s := by
  refine ⟨(Op.exec_framed cfg d s o).now, ?_⟩
  intro b hb
  rcases ho with rfl | ⟨key, bucket, maxRequests, windowSecs, rfl, hkey⟩
  . rfl
  . apply checkRate_redis_ne
    intro heq
    rcases rateLimitKey_injective heq with ⟨rfl, rfl⟩
    exact hkey rfl hb

theorem CountedOnly.exec (ho : CountedOnly k B o) (h : SameCounters k B s s') (cfg : Config)
    (d : Draw)
    : (o.exec cfg d s).1 = (o.exec cfg d s').1
        ∧ SameCounters k B (o.exec cfg d s).2 (o.exec cfg d s').2 := by
  have hnow : (o.exec cfg d s).2.now = (o.exec cfg d s').2.now := by
    rw [(Op.exec_framed cfg d s o).now, (Op.exec_framed cfg d s' o).now, h.1]
  rcases ho with rfl | ⟨bucket, maxRequests, windowSecs, rfl, hbucket⟩
  . exact ⟨h.1, h⟩
  . have hcongr := @checkRate_congr d s s' k bucket maxRequests windowSecs h.1 (h.2 bucket hbucket)
    refine ⟨hcongr.1, hnow, ?_⟩
    intro b hb
    by_cases heq : b = bucket
    . subst heq
      exact hcongr.2
    . have hkey : rateLimitKey k b ≠ rateLimitKey k bucket := fun hkey =>
        heq (rateLimitKey_injective hkey).2
      change (CacheOp.exec d s _).2.redis _ = (CacheOp.exec d s' _).2.redis _
      rw [checkRate_redis_ne hkey, checkRate_redis_ne hkey]
      exact h.2 b hb

theorem sameCounters_unnoticing (cfg : Config) (k : String) (B : Nat → Prop) :
    Unnoticing (semantics cfg) (SameCounters k B) (Uncounted k B) (CountedOnly k B) where
  advance n s s' h := ⟨congrArg (fun t : Int => t + n) h.1, h.2⟩
  left o d s s' ho h := by
    have hexec := ho.exec cfg d s
    exact ⟨hexec.1.trans h.1, fun b hb => (hexec.2 b hb).trans (h.2 b hb)⟩
  right o d s s' ho h := by
    have hexec := ho.exec cfg d s'
    exact ⟨h.1.trans hexec.1.symm, fun b hb => (h.2 b hb).trans (hexec.2 b hb).symm⟩
  seen o d s s' ho h := ho.exec h cfg d

end Counters

section Machines

variable {cfg : Config} {s : Server} {actions : List (Action Draw LimitedRequest)}

/--
What a thread of an execution calls.
-/
theorem limited_called {e : Entry Api Server Draw LimitedRequest Bool}
    (he : e ∈ (limited cfg actions s).log) {ev : Event Api} {d : Draw} (hw : e.what = .call ev d)
    : ∃ q, (limited cfg actions s).serves q e.thread = true
        ∧ (ev.op = .host .now ∨ ∃ bucket maxRequests windowSecs,
          ev.op = .cache (.checkRate q.key bucket maxRequests windowSecs)) := by
  have hreaches : Reaches (semantics cfg) LimitedRequest.handle (init s) (limited cfg actions s) :=
    reaches_runs (init s) actions
  rcases suffix_of_mem he with ⟨rest, hsuffix⟩
  rcases hreaches.called (fun q => q.handle_conforms) hsuffix hw with ⟨q, hstarted, hallowed⟩
  rcases hreaches.served.unique _ q (hstarted.of_suffix (suffix_tail hsuffix)) with ⟨p, hthread⟩
  refine ⟨q, ?_, hallowed⟩
  unfold LimiterMachine.serves
  simp [hthread]

/--
The requests of the threads that stay when the other limiters are removed.
-/
theorem limited_requests (x : Limiter) {i : Nat} {q : LimitedRequest}
    : (limited cfg (actions.filter (stays ((limited cfg actions s).stays x))) s).serves q i = true
        ↔
      (limited cfg actions s).serves q i = true ∧ q.limiter = x := by
  have hruns := @runs_requests _ _ _ _ _ (semantics cfg) LimitedRequest.handle
    ((limited cfg actions s).stays x) (init s) (init s) actions (fun _ _ => rfl) fun _ _ => rfl
  rcases hruns with ⟨hrequests, hremoved⟩
  unfold LimiterMachine.serves
  cases hkept : (limited cfg actions s).stays x i with
  | false =>
    rw [hremoved i hkept]
    unfold LimiterMachine.stays at hkept
    cases ht : (limited cfg actions s).threads i with
    | none => simp
    | some t =>
      rw [ht] at hkept
      have hne : t.request.limiter ≠ x := by simpa using hkept
      simp only [Option.map_none, reduceCtorEq, decide_false, Option.map_some, Option.some.injEq,
        decide_eq_true_eq, false_iff, Bool.false_eq_true]
      rintro ⟨rfl, hx⟩
      exact hne hx
  | true =>
    rw [← hrequests i hkept]
    unfold LimiterMachine.stays at hkept
    change decide (((limited cfg actions s).threads i).map _ = some q) = true ↔ _
    cases ht : (limited cfg actions s).threads i with
    | none => simp
    | some t =>
      rw [ht] at hkept
      have hx : t.request.limiter = x := by simpa using hkept
      simp only [Option.map_some, Option.some.injEq, decide_eq_true_eq]
      constructor
      . rintro rfl
        exact ⟨rfl, hx⟩
      . exact fun h => h.1

/--
Removing the other limiters does not show in the decisions of a limiter that counts apart from them.
-/
theorem limited_agree {x : Limiter} {k : String} (hapart : (limited cfg actions s).Apart x k) :
    Agree (SameCounters k ((limited cfg actions s).CountedIn x k))
      ((limited cfg actions s).serves ⟨x, k⟩) (limited cfg actions s)
      (limited cfg (actions.filter (stays ((limited cfg actions s).stays x))) s) := by
  refine runs_agree (sameCounters_unnoticing cfg k ((limited cfg actions s).CountedIn x k)) ?_ actions
    ⟨⟨rfl, fun _ _ => rfl⟩, fun _ _ => rfl, rfl⟩ ?_ ?_ ?_
  . intro i hi
    unfold LimiterMachine.serves at hi
    rw [decide_eq_true_eq, Option.map_eq_some_iff] at hi
    rcases hi with ⟨t, ht, hrequest⟩
    unfold LimiterMachine.stays
    simp [ht, hrequest]
  . intro e he hother ev d hw
    rcases limited_called he hw with ⟨q, hq, hop | ⟨b, maxRequests, windowSecs, hop⟩⟩
    . exact .inl hop
    . refine .inr ⟨q.key, b, maxRequests, windowSecs, hop, ?_⟩
      rintro hkey hcounted
      apply hapart q.limiter b ?_ hcounted
      . subst hkey
        exact ⟨e, he, hq, ev, d, _, _, hw, hop⟩
      . rintro rfl
        subst hkey
        rw [hq] at hother
        contradiction
  . intro e he hother ev d hw
    rcases limited_called he hw with ⟨q, hq, hop | ⟨b, maxRequests, windowSecs, hop⟩⟩
    . exact .inl hop
    . refine .inr ⟨q.key, b, maxRequests, windowSecs, hop, ?_⟩
      rintro hkey _
      rcases limited_requests x |>.mp hq with ⟨hserves, rfl⟩
      subst hkey
      rw [hserves] at hother
      contradiction
  . intro e he hseen ev d hw
    rcases limited_called he hw with ⟨q, hq, hop | ⟨b, maxRequests, windowSecs, hop⟩⟩
    . exact .inl hop
    . have hqx : q = ⟨x, k⟩ := by
        unfold LimiterMachine.serves at hq hseen
        rw [decide_eq_true_eq] at hq hseen
        rw [hq] at hseen
        injection hseen
      subst hqx
      exact .inr ⟨b, maxRequests, windowSecs, hop, e, he, hseen, ev, d, _, _, hw, hop⟩

end Machines

/--
The rate limiters leave each other alone as long as they do not count a key in the same bucket: in every
execution, and for every limiter and every key, if no other limiter counts the key in a bucket in which this
one does, then its decisions are the same as in the execution from which all requests that pass through
other limiters have been removed.
-/
theorem rate_limiters_apart (cfg : Config) (s : Server) (actions : List (Action Draw LimitedRequest))
    (x : Limiter) (k : String) (hapart : (limited cfg actions s).Apart x k)
    : (limited cfg actions s).decisions x k
        =
      (limited cfg (actions.filter (stays ((limited cfg actions s).stays x))) s).decisions x k := by
  have hserves : (limited cfg (actions.filter (stays ((limited cfg actions s).stays x))) s).serves ⟨x, k⟩
      = (limited cfg actions s).serves ⟨x, k⟩ := by
    funext i
    rw [Bool.eq_iff_iff, limited_requests]
    simp
  unfold LimiterMachine.decisions
  rw [hserves]
  exact (limited_agree hapart).answers

namespace Sample

/--
Thread `i` passes through a limiter without being interrupted.
-/
def checkActions (i : Nat) (q : LimitedRequest) : List (Action Draw LimitedRequest) :=
  [.start i q, .step i (draw 0), .step i (draw 1), .step i (draw 2)]

/--
A login and a request for a new password that are counted under different keys.
-/
def apartActions : List (Action Draw LimitedRequest) :=
  checkActions 0 ⟨.authorize, "198.51.100.4"⟩ ++ checkActions 1 ⟨.password, "203.0.113.7"⟩

/--
Three logins from an address that then requests a new password.
-/
def sharedActions : List (Action Draw LimitedRequest) :=
  checkActions 0 ⟨.authorize, "203.0.113.7"⟩ ++ checkActions 1 ⟨.authorize, "203.0.113.7"⟩
    ++ checkActions 2 ⟨.authorize, "203.0.113.7"⟩ ++ checkActions 3 ⟨.password, "203.0.113.7"⟩

theorem apartActions_apart :
    (limited config apartActions server).Apart .password "203.0.113.7" := by
  rintro y b hy _ ⟨e, he, hserves, _⟩
  have hthreads : ∀ e ∈ (limited config apartActions server).log, e.thread = 0 ∨ e.thread = 1 := by
    decide +kernel
  have hnone : ∀ i, i = 0 ∨ i = 1 →
      (limited config apartActions server).serves ⟨y, "203.0.113.7"⟩ i = false := by
    rintro i (rfl | rfl)
    . revert hy
      cases y <;> decide +kernel
    . revert hy
      cases y <;> decide +kernel
  rw [hnone e.thread (hthreads e he)] at hserves
  contradiction

end Sample

open Sample in
/--
A login from another address does not use up the requests for a new password.
-/
theorem rate_limiters_apart_addresses :
    (limited config apartActions server).decisions .password "203.0.113.7"
        = (limited config (apartActions.filter (stays ((limited config apartActions server).stays
          .password))) server).decisions .password "203.0.113.7"
      ∧ (limited config apartActions server).decisions .password "203.0.113.7" = [(1, true)] :=
  ⟨rate_limiters_apart config server apartActions .password "203.0.113.7" apartActions_apart,
    by decide +kernel⟩

open Sample in
/--
Three logins use up all requests for a new password: the only one is refused, which is allowed once the
logins are removed.
-/
theorem rate_limiters_shared :
    (limited config sharedActions server).decisions .password "203.0.113.7" = [(3, false)]
      ∧ (limited config (sharedActions.filter (stays ((limited config sharedActions server).stays
          .password))) server).decisions .password "203.0.113.7" = [(3, true)]
      ∧ ¬∀ (cfg : Config) (s : Server) (actions : List (Action Draw LimitedRequest)) (x : Limiter)
          (k : String),
        (limited cfg actions s).decisions x k
          = (limited cfg (actions.filter (stays ((limited cfg actions s).stays x))) s).decisions x k := by
  have hchecks : (limited config sharedActions server).decisions .password "203.0.113.7"
        = [(3, false)]
      ∧ (limited config (sharedActions.filter (stays ((limited config sharedActions
        server).stays .password))) server).decisions .password "203.0.113.7" = [(3, true)] := by
    decide +kernel
  rcases hchecks with ⟨hfull, halone⟩
  refine ⟨hfull, halone, fun h => ?_⟩
  have heq := h config server sharedActions .password "203.0.113.7"
  rw [hfull, halone] at heq
  revert heq
  decide

/--
The counters of an address in two buckets are different.
-/
example : rateLimitKey "203.0.113.7" 5 ≠ rateLimitKey "203.0.113.7" 6 := by
  decide +kernel

end Aspectus
