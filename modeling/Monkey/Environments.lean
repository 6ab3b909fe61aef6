import Monkey.Store

namespace Monkey

/-- What can be done with environments. A handle is told by its place among all that were made. -/
inductive Operation where
  | new
  | enclosed (handle : Nat)
  /-- Another handle to the same scope. -/
  | share (handle : Nat)
  | set (handle : Nat) (name : String) (v : Value)
  | get (handle : Nat) (name : String)
  | containsLocal (handle : Nat) (name : String)

inductive Answer where
  | done
  | found (v : Option Value)
  | bound (b : Bool)
  | noHandle

/-- Scopes that can be opened, in others or by themselves, written and read. -/
structure ScopeSystem (Scopes Handle : Type) where
  enter : Option Handle → Scopes → Handle × Scopes
  set : Handle → String → Value → Scopes → Scopes
  get : Handle → String → Scopes → Option Value
  containsLocal : Handle → String → Scopes → Bool

/-- The scopes, and the handles in the order of making. -/
structure Environments (Scopes Handle : Type) where
  scopes : Scopes
  handles : List Handle := []

namespace ScopeSystem

variable {Scopes Handle : Type}

/-- Uses the handle, if there is one at this place. -/
def through (e : Environments Scopes Handle) (handle : Nat)
    (use : Handle → Answer × Environments Scopes Handle) : Answer × Environments Scopes Handle :=
  match e.handles[handle]? with
  | some h => use h
  | none => (.noHandle, e)

/-- Opens a scope and makes a handle to it. -/
def openScope (m : ScopeSystem Scopes Handle) (outer : Option Handle) (e : Environments Scopes Handle) :
    Answer × Environments Scopes Handle :=
  let (h, scopes) := m.enter outer e.scopes
  (.done, { scopes, handles := e.handles ++ [h] })

def perform (m : ScopeSystem Scopes Handle) (e : Environments Scopes Handle) :
    Operation → Answer × Environments Scopes Handle
  | .new => m.openScope none e
  | .enclosed handle => through e handle fun h => m.openScope (some h) e
  | .share handle => through e handle fun h => (.done, { e with handles := e.handles ++ [h] })
  | .set handle name v => through e handle fun h => (.done, { e with scopes := m.set h name v e.scopes })
  | .get handle name => through e handle fun h => (.found (m.get h name e.scopes), e)
  | .containsLocal handle name => through e handle fun h => (.bound (m.containsLocal h name e.scopes), e)

/-- The answers to the operations, one after another, and the environments after them. -/
def run (m : ScopeSystem Scopes Handle) (e : Environments Scopes Handle) :
    List Operation → List Answer × Environments Scopes Handle
  | [] => ([], e)
  | op :: ops =>
    let (answer, e) := m.perform e op
    let (answers, e) := m.run e ops
    (answer :: answers, e)

end ScopeSystem

/-- A handle is the number of a scope. -/
def Store.system : ScopeSystem Store ScopeId where
  enter outer s := s.enter outer {}
  set id name v s := s.bind id name v
  get id name s := s.lookup? name id
  containsLocal id name s := s.bindsLocally id name

end Monkey
