import PathRouting.Fault.Basic
import PathRouting.Json.Reader
import PathRouting.Pattern.Error
import PathRouting.Regex.Error

/-!
# How an operation fails
-/
namespace PathRouting

inductive Failure where
  | pattern (error : Pattern.Error)
  | regex (error : Regex.Error)
  | misuse (misuse : Misuse)
  | fault (fault : Fault)
  /-- A written integer has so many digits that it cannot be read. -/
  | tooManyDigits (count : Nat)
  /-- A directory stands where a file should be. -/
  | directory (path : String)

namespace Failure

def ofMisuse {α : Type} : Except Misuse α → Except Failure α
  | .ok x => .ok x
  | .error m => .error (.misuse m)

def ofPattern {α : Type} : Except Pattern.Error α → Except Failure α
  | .ok x => .ok x
  | .error e => .error (.pattern e)

theorem ofMisuse_ok {α : Type} {result : Except Misuse α} {x : α}
    (h : ofMisuse result = .ok x) : result = .ok x := by
  cases result with
  | error m => cases h
  | ok y => exact congrArg Except.ok (Except.ok.inj h)

theorem ofPattern_ok {α : Type} {result : Except Pattern.Error α} {x : α}
    (h : ofPattern result = .ok x) : result = .ok x := by
  cases result with
  | error e => cases h
  | ok y => exact congrArg Except.ok (Except.ok.inj h)

theorem ofPattern_error {α : Type} {result : Except Pattern.Error α} {e : Failure}
    (h : ofPattern result = .error e) : ∃ cause, result = .error cause ∧ e = .pattern cause := by
  cases result with
  | error cause => exact ⟨cause, rfl, (Except.error.inj h).symm⟩
  | ok x => cases h

def text : Failure → String
  | .pattern e => e.diagnostic.text
  | .regex e => e.message []
  | .misuse m => m.message
  | .fault f => f.text
  | .tooManyDigits count => (Json.Cause.tooManyDigits count).message
  | .directory path => "[Errno 21] Is a directory: " ++ Text.quoted path

end Failure

end PathRouting
