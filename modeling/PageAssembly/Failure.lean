/-
  PageAssembly/Failure.lean
  =========================
  **What can go wrong.**

  A remote call may fail; that is the one failure that a page survives, as a marker or
  as an entry in a list of errors.  Every other failure is a mistake of the host or of
  the caller and ends the work.  The wording of all failures and markers is here.
-/
import PageAssembly.Directive.Basic
import PageAssembly.Text.Quoted

namespace PageAssembly

/-- A remote call that failed: what was called, and why it failed. -/
structure RemoteFailure where
  target : Text
  function : Option Text
  reason : Text
deriving DecidableEq, Repr

/-- What can go wrong. -/
inductive Failure where
  | remote (e : RemoteFailure)
  /-- The host broke off with an error of its own. -/
  | raised (message : Text)
  /-- A call was answered by something of this kind, which is no content. -/
  | unexpectedReply (kind : Text)
  /-- A page was given as something of this kind instead of as a text. -/
  | notText (kind : Text)
  /-- Directives of this kind have no placeholder. -/
  | noPlaceholder (kind : Directive.Kind)
  /-- A chunk memory of negative size has nothing left to forget. -/
  | nothingToForget
  | missingArgument
  /-- A call gives its arguments by name, and the one at this position was wanted. -/
  | noPosition (position : Nat)
  /-- This text was given for a number, and writes none. -/
  | notNumber (given : Text)
  /-- Nothing was given for a number. -/
  | noNumber
  /-- Fewer than no calls were to run at once. -/
  | negativeWidth
  /-- The nesting of includes reached the bound that it was given. -/
  | tooDeep
deriving DecidableEq, Repr

namespace RemoteFailure

/-- The failure with all it knows, in quotes. -/
def shown (e : RemoteFailure) : Text :=
  "RemoteCallError(".toList ++ Text.quoted e.target ++ ", ".toList ++
    ((e.function.map Text.quoted).getD "None".toList) ++ ", ".toList ++
    Text.quoted e.reason ++ ")".toList

end RemoteFailure

namespace Failure

def message : Failure → Text
  | .remote e => e.reason
  | .raised m => m
  | .unexpectedReply k => "Unexpected return type from remote call: ".toList ++ k
  | .notText k => "Content must be a string, got ".toList ++ k
  | .noPlaceholder k => "No placeholder id for ".toList ++ k.word ++ " tags".toList
  | .nothingToForget => "'dictionary is empty'".toList
  | .missingArgument => "list index out of range".toList
  | .noPosition i => Text.decimal i
  | .notNumber s => "invalid literal for int() with base 10: ".toList ++ (Text.quoted s).take 200
  | .noNumber =>
    "int() argument must be a string, a bytes-like object or a real number, not 'NoneType'".toList
  | .negativeWidth => "initial_value must be >= 0".toList
  | .tooDeep => "Includes are nested too deeply".toList

/-- A call that was answered by nothing. -/
def noResult (target : Text) (function : Option Text) : Failure :=
  .remote ⟨target, function, "No result from simulation".toList⟩

end Failure

/-! ### Markers in a page -/

namespace Marker

/-- What stands for an include whose call failed. -/
def includeFailed (reason : Text) : Text :=
  "<!-- include error: ".toList ++ reason ++ " -->".toList

/-- What stands for an include that would include itself. -/
def cycle : Text := "<!-- cycle detected -->".toList

/-- The message about an include that would include itself. -/
def cycleMessage (key : Text) : Text := "Include cycle detected at ".toList ++ key

end Marker
end PageAssembly
