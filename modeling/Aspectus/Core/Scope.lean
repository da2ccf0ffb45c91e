import Aspectus.Core.Error
import Aspectus.Core.Text

/-!
This module contains the validation of scope names, which have the form `project:resource:action`.
-/

namespace Aspectus
namespace Scope

def maxScopesPerKey : Nat :=
  100

def isSegmentChar (c : Char) : Bool :=
  c.isAlphanum || c = '-' || c = '_'

def validateSegment (seg label scope : String) : Except CoreError Unit :=
  if seg = "*" then
    .ok ()
  else if seg.toList.all isSegmentChar then
    .ok ()
  else
    .error (.invalidScope ("scope '" ++ scope ++ "' has invalid characters in " ++ label
      ++ " segment '" ++ seg ++ "'"))

def validate (name : String) : Except CoreError Unit :=
  match split name ':' with
  | [project, resource, action] =>
    if project = "" ∨ resource = "" ∨ action = "" then
      .error (.invalidScope ("scope '" ++ name ++ "' contains an empty segment"))
    else
      match Project.parse project with
      | none =>
        .error (.invalidScope ("scope '" ++ name ++ "' references unknown project '" ++ project
          ++ "'"))
      | some _ => do
        validateSegment resource "resource" name
        validateSegment action "action" name
  | _ =>
    .error (.invalidScope ("scope '" ++ name
      ++ "' must have exactly three segments separated by ':'"))

/--
The project segment of a valid name.
-/
def project (name : String) : Except CoreError Project := do
  validate name
  let part := (split name ':').headD ""
  match Project.parse part with
  | some p => return p
  | none => throw (.invalidProject part)

/--
The resource segment of a valid name.
-/
def resource (name : String) : Except CoreError String := do
  validate name
  return (split name ':').getD 1 ""

/--
The action segment of a valid name.
-/
def action (name : String) : Except CoreError String := do
  validate name
  return (split name ':').getD 2 ""

end Scope
end Aspectus
