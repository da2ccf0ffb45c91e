import Mathlib.Data.List.Basic

/-!
This module contains the vocabulary that all parts of the service share: points in time, JSON
values, projects, identities and roles.
-/

namespace Aspectus

/--
A point in time, in microseconds since the epoch like a `timestamptz`.
-/
abbrev Instant : Type := Int

namespace Instant

def seconds (n : Int) : Int :=
  n * 1000000

/--
The Unix timestamp in whole seconds.
-/
def timestamp (t : Instant) : Int :=
  t / 1000000

end Instant

/--
JSON values. Points in time are kept as such, the code always writes them as RFC 3339.
-/
inductive Json where
  | null
  | bool (b : Bool)
  | num (n : Int)
  | float (text : String)
  | str (s : String)
  | time (t : Instant)
  | arr (items : List Json)
  | obj (fields : List (String × Json))

inductive Project where
  | pandaria
  | emerald
  | constell
  | tokencamp
  | heirloom
  | aspectus
deriving DecidableEq, Repr

namespace Project

def toString : Project → String
  | .pandaria => "pandaria"
  | .emerald => "emerald"
  | .constell => "constell"
  | .tokencamp => "tokencamp"
  | .heirloom => "heirloom"
  | .aspectus => "aspectus"

def parse : String → Option Project
  | "pandaria" => some .pandaria
  | "emerald" => some .emerald
  | "constell" => some .constell
  | "tokencamp" => some .tokencamp
  | "heirloom" => some .heirloom
  | "aspectus" => some .aspectus
  | _ => none

@[simp]
theorem parse_toString (p : Project) : parse p.toString = some p := by
  cases p <;> rfl

theorem toString_of_parse {s : String} {p : Project} (h : parse s = some p) : p.toString = s := by
  unfold parse at h
  split at h
  all_goals cases h
  all_goals rfl

theorem toString_injective {p p' : Project} (h : p.toString = p'.toString) : p = p' := by
  have := congrArg Project.parse h
  rw [Project.parse_toString, Project.parse_toString] at this
  injection this

end Project

inductive IdentityType where
  | user
  | serviceAccount
deriving DecidableEq, Repr

namespace IdentityType

def toString : IdentityType → String
  | .user => "user"
  | .serviceAccount => "service_account"

def parse : String → Option IdentityType
  | "user" => some .user
  | "service_account" => some .serviceAccount
  | _ => none

@[simp]
theorem parse_toString (i : IdentityType) : parse i.toString = some i := by
  cases i <;> rfl

end IdentityType

inductive RoleType where
  | user
  | serviceAccount
  | both
deriving DecidableEq, Repr

namespace RoleType

def toString : RoleType → String
  | .user => "user"
  | .serviceAccount => "service_account"
  | .both => "both"

def parse : String → Option RoleType
  | "user" => some .user
  | "service_account" => some .serviceAccount
  | "both" => some .both
  | _ => none

@[simp]
theorem parse_toString (t : RoleType) : parse t.toString = some t := by
  cases t <;> rfl

/--
Whether users may be given a role of this type.
-/
def permitsUsers : RoleType → Bool
  | .user => true
  | .both => true
  | .serviceAccount => false

end RoleType

end Aspectus
