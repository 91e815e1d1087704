import Mathlib.Data.List.Infix

/-!
# `error`

The application's error type.

## Main definitions

- `AppError`, `AppError.display`
-/

namespace Rav

inductive AppError
  | internalError (msg : String)
  | notFound (msg : String)
  | unauthorized (msg : String)
  | badRequest (msg : String)
  | serviceUnavailable (msg : String)
  | forbidden (msg : String)
  deriving DecidableEq, Repr

namespace AppError

def errorCode : AppError → String
  | .internalError _ => "INTERNAL_ERROR"
  | .notFound _ => "NOT_FOUND"
  | .unauthorized _ => "UNAUTHORIZED"
  | .badRequest _ => "BAD_REQUEST"
  | .serviceUnavailable _ => "SERVICE_UNAVAILABLE"
  | .forbidden _ => "FORBIDDEN"

def message : AppError → String
  | .internalError msg => msg
  | .notFound msg => msg
  | .unauthorized msg => msg
  | .badRequest msg => msg
  | .serviceUnavailable msg => msg
  | .forbidden msg => msg

def display (e : AppError) : String := "[" ++ e.errorCode ++ "] " ++ e.message

end AppError

/-- `str::contains`. -/
def strContains (s pattern : String) : Bool := s.toList.tails.any pattern.toList.isPrefixOf

theorem strContains_iff {s p : String} : strContains s p = true ↔ p.toList <:+: s.toList := by
  unfold strContains
  rw [List.any_eq_true]
  constructor
  · rintro ⟨t,ht,hp⟩
    exact (List.isPrefixOf_iff_prefix.mp hp).isInfix.trans ((List.mem_tails _ _).mp ht).isInfix
  · intro h
    obtain ⟨t,hpt,hts⟩ := List.infix_iff_prefix_suffix.mp h
    exact ⟨t,(List.mem_tails _ _).mpr hts,List.isPrefixOf_iff_prefix.mpr hpt⟩

end Rav
