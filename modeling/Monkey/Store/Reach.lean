import Monkey.Store
import Std.Data.HashSet

namespace Monkey

/-- The scopes that a scope holds directly, itself aside. -/
def Scope.links (scope : Scope) : List ScopeId :=
  scope.bindings.foldl (fun found _ b => b.addScopes found) scope.outer.toList

namespace Store

/-- Looks for `target` from the scopes in `pending`. A scope older than `target` is passed by: it was
complete before `target` was opened. At most `fuel` scopes are gone through; beyond that `target` is
taken to be reached. -/
def searchFrom (s : Store) (target : ScopeId) (fuel : Nat) (seen : Std.HashSet ScopeId)
    (pending : List ScopeId) : Bool :=
  match pending with
  | [] => false
  | id :: rest =>
    if id = target then true
    else if id < target ∨ seen.contains id then s.searchFrom target fuel seen rest
    else
      match fuel with
      | 0 => true
      | fuel + 1 => s.searchFrom target fuel (seen.insert id) ((s.scopes.getD id {}).links ++ rest)
  termination_by (fuel, pending.length)

/-- Whether the scope `target` can be reached from the value. -/
def reaches (s : Store) (v : Value) (target : ScopeId) : Bool :=
  s.searchFrom target (s.size - target) {} v.scopes

end Store

end Monkey
