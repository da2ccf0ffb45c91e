import Aspectus.Security.Cleaned
import Aspectus.Security.Sample

/-!
This module contains what can be observed of the cleanup: nothing, unless a refresh token is presented
again that was deleted although it was revoked.
-/

namespace Aspectus

open Interaction Prog Machine Statement

/--
What the server does in some interleaving of its tasks.
-/
abbrev serving (cfg : Config) (actions : List (Action Draw Task)) (s : Server) : ServerMachine :=
  runs (serverSemantics cfg) (Task.handle cfg) (init s) actions

/--
The threads that are removed clean up.
-/
def RemovesCleanups (kept : Nat → Bool) (actions : List (Action Draw Task)) : Prop :=
  ∀ i task, .start i task ∈ actions → kept i = false → task = .cleanup

/--
No operation of a thread that is kept tells apart the states with and without the cleanups that are removed:
nobody presents a refresh token that was deleted although it was revoked, and no new token has the hash of one
that was deleted.
-/
def NothingReplayed (cfg : Config) (kept : Nat → Bool) (actions : List (Action Draw Task)) (s : Server) :
    Prop :=
  ∀ before i d after o, actions = before ++ .step i d :: after → kept i = true →
    Calls (serving cfg before s) i o →
    ¬TellsApart o (serving cfg before s).store (serving cfg (before.filter (stays kept)) s).store

/--
Cleaning up cannot be observed, unless a refresh token that was deleted although it was revoked is presented
again: whatever cleanups are removed from an execution, all responses stay the same, the other threads execute
the same operations in the same order, and the states only differ in tokens that are of no use anymore.
-/
theorem cleanup_unobservable (cfg : Config) (s : Server) (actions : List (Action Draw Task))
    (kept : Nat → Bool) (hcleanups : RemovesCleanups kept actions)
    (hreplayed : NothingReplayed cfg kept actions s)
    : answered kept (serving cfg actions s).log
          = answered kept (serving cfg (actions.filter (stays kept)) s).log
        ∧ List.Forall₂ (fun e e' => e.thread = e'.thread ∧ HappensAlike AlikeAnswers e.what e'.what)
          ((serving cfg actions s).log.filter fun e => kept e.thread)
          (serving cfg (actions.filter (stays kept)) s).log
        ∧ Cleaned (serving cfg actions s).store (serving cfg (actions.filter (stays kept)) s).store := by
  have hremoved : ∀ i task, .start i task ∈ actions → kept i = false →
      (Task.handle cfg task).Uses fun o => ∃ o', o = SumOp.right o' := by
    intro i task hstart hi
    rw [hcleanups i task hstart hi]
    exact Task.cleanup_uses
  have h := runs_alike (cleanup_screening cfg) (fun task => task.handle_insensitive) (Cleaned.refl s) actions
    hremoved hreplayed
  exact ⟨h.answers, h.log, h.store⟩

namespace Sample

/--
The first refresh token was rotated and is expired, the second one is still good.
-/
def staleServer : Server :=
  { server with
    refreshTokens := ((∅ : Table String RefreshToken).insert (tokenHash 1)
      ⟨userId, clientId, now - 1, some (now - 2)⟩).insert (tokenHash 5)
      ⟨userId, clientId, now + issueTokens.refreshLifetime, none⟩ }

/--
Thread `i` presents the refresh token that is made of `raw n`.
-/
def present (i : Nat) (n : UInt8) (steps : Nat) : List (Action Draw Task) :=
  .start i (.call (.request "/token" none "203.0.113.7" (.auth (.token (refreshGrant n)))))
    :: List.replicate steps (.step i (draw 2))

def cleanUp : List (Action Draw Task) :=
  .start 0 .cleanup :: List.replicate 3 (.step 0 (draw 1))

def notFirst (i : Nat) : Bool :=
  i ≠ 0

def status : Nat × Outcome → Nat
  | (_, .response a) => a.status
  | _ => 0

/--
After a cleanup the first token is presented, and then the second one.
-/
def replaying : List (Action Draw Task) :=
  cleanUp ++ (present 1 1 8 ++ present 2 5 20)

theorem start_mem {i j : Nat} {task task' : Task} {d : Draw} {k : Nat}
    (h : .start i task ∈ (.start j task' :: List.replicate k (.step j d) : List (Action Draw Task)))
    : i = j ∧ task = task' := by
  rcases List.mem_cons.mp h with heq | hmem
  . injection heq with hi htask
    exact ⟨hi, htask⟩
  . have := List.eq_of_mem_replicate hmem
    contradiction

theorem replaying_removes : RemovesCleanups notFirst replaying := by
  intro i task hstart hi
  have hi : i = 0 := by simpa [notFirst] using hi
  rcases List.mem_append.mp hstart with hcleanup | hrest
  . exact (start_mem hcleanup).2
  . rcases List.mem_append.mp hrest with hpresent | hpresent
    . have := (start_mem hpresent).1
      omega
    . have := (start_mem hpresent).1
      omega

/--
After a cleanup only the second token is presented.
-/
def calm : List (Action Draw Task) :=
  cleanUp ++ present 2 5 20

theorem calm_removes : RemovesCleanups notFirst calm := by
  intro i task hstart hi
  have hi : i = 0 := by simpa [notFirst] using hi
  rcases List.mem_append.mp hstart with hcleanup | hpresent
  . exact (start_mem hcleanup).2
  . have := (start_mem hpresent).1
    omega

/--
Whether the operation tells the states apart.
-/
def tells (s s' : Server) : ServerApi.Op → Bool
  | .left (.refresh (.findByHashAny tokenHash)) =>
    (s.refreshTokens.lookup tokenHash).isNone
      && ((s'.refreshTokens.lookup tokenHash).map fun t => t.revokedAt.isSome).getD false
  | .left (.refresh (.create tokenHash ..)) =>
    (s.refreshTokens.lookup tokenHash).isNone && (s'.refreshTokens.lookup tokenHash).isSome
  | .left (.reset (.insert tokenHash ..)) =>
    (s.passwordResetTokens.lookup tokenHash).isNone && (s'.passwordResetTokens.lookup tokenHash).isSome
  | _ => false

theorem tells_of {o : ServerApi.Op} {s s' : Server} (h : TellsApart o s s') : tells s s' o = true := by
  unfold TellsApart at h
  split at h
  . rcases h with ⟨hnone, t, ht, hrevoked⟩
    simp [tells, hnone, ht, hrevoked]
  . simpa [tells, Option.isNone_iff_eq_none] using h
  . simpa [tells, Option.isNone_iff_eq_none] using h
  . contradiction

/--
Whether the next step of the thread tells the states apart.
-/
def tellsNext (m m' : ServerMachine) : Action Draw Task → Bool
  | .step i _ =>
    match m.threads i with
    | some ⟨_, some (.call o _)⟩ => tells m.store m'.store o
    | _ => false
  | _ => false

theorem tellsNext_of {m m' : ServerMachine} {i : Nat} {o : ServerApi.Op} (hcalls : Calls m i o)
    (h : TellsApart o m.store m'.store) (d : Draw) : tellsNext m m' (.step i d) = true := by
  rcases hcalls with ⟨q, k, hrun⟩
  unfold tellsNext
  dsimp only
  rw [hrun]
  exact tells_of h

/--
Whether no step of two executions, one of which is without the first thread, tells their states apart.
-/
def quiet (m m' : ServerMachine) : List (Action Draw Task) → Bool
  | [] => true
  | a :: actions =>
    let act := act (serverSemantics config) (Task.handle config)
    !(stays notFirst a && tellsNext m m' a)
      && quiet (act m a) (if stays notFirst a then act m' a else m') actions

theorem of_quiet {m m' : ServerMachine} {before after : List (Action Draw Task)} {i : Nat} {d : Draw}
    (h : quiet m m' (before ++ .step i d :: after) = true) (hi : notFirst i = true)
    : tellsNext (runs (serverSemantics config) (Task.handle config) m before)
        (runs (serverSemantics config) (Task.handle config) m' (before.filter (stays notFirst)))
        (.step i d) = false := by
  induction before generalizing m m' with
  | nil =>
    rw [List.nil_append] at h
    unfold quiet at h
    have hstays : stays notFirst (.step i d : Action Draw Task) = true := hi
    simp only [Bool.and_eq_true, Bool.not_eq_true', hstays, Bool.true_and] at h
    exact h.1
  | cons a before ih =>
    rw [List.cons_append] at h
    unfold quiet at h
    rw [Bool.and_eq_true] at h
    have hrest := ih h.2
    cases hstays : stays notFirst a with
    | true =>
      rw [hstays] at hrest
      rw [List.filter_cons_of_pos hstays]
      exact hrest
    | false =>
      rw [hstays] at hrest
      rw [List.filter_cons_of_neg (by simp [hstays])]
      exact hrest

end Sample

open Sample in
/--
The cleanup deletes the first token, which is not presented again.
-/
theorem cleanup_unobservable_calm :
    answered notFirst (serving config calm staleServer).log
        = answered notFirst (serving config (calm.filter (stays notFirst)) staleServer).log
      ∧ Cleaned (serving config calm staleServer).store
        (serving config (calm.filter (stays notFirst)) staleServer).store := by
  have hquiet : quiet (init staleServer) (init staleServer) calm = true := by
    decide +kernel
  have h := cleanup_unobservable config staleServer calm notFirst calm_removes ?_
  . exact ⟨h.1, h.2.2⟩
  . intro before i d after o hsplit hi hcall htells
    rw [hsplit] at hquiet
    have hnext := tellsNext_of hcall htells d
    rw [of_quiet hquiet hi] at hnext
    contradiction

open Sample in
/--
With the cleanup a replay of the first token is not noticed, and the second token still works.
-/
theorem cleanup_hides_replay :
    ¬∀ (cfg : Config) (s : Server) (actions : List (Action Draw Task)) (kept : Nat → Bool),
      RemovesCleanups kept actions →
      answered kept (serving cfg actions s).log
        = answered kept (serving cfg (actions.filter (stays kept)) s).log := by
  intro hclaim
  have hanswers := hclaim config staleServer replaying notFirst replaying_removes
  have hchecks : (answered notFirst (serving config replaying staleServer).log).map status = [200, 401]
      ∧ (answered notFirst (serving config (replaying.filter (stays notFirst)) staleServer).log).map status
        = [401, 401] := by
    decide +kernel
  have hstatus := congrArg (List.map status) hanswers
  rw [hchecks.1, hchecks.2] at hstatus
  exact absurd hstatus (by decide)

end Aspectus
