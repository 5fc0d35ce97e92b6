import Netscribe.Generation.Fault
import Netscribe.Generation.Module
/-!
# Modules held in memory

A store takes each name once and keeps the modules in the order they came.

* `Store` — the modules, and the names that are taken.
* `Store.add` — a store with one more module, unless the name is taken.
* `Store.offer` — the same as a step of a run.
-/

namespace Netscribe

/-- **The modules taken so far**, in order, and their names. -/
structure Store where
  modules : List GeneratedModule := []
  /-- The names under which a module was taken, in any order. -/
  taken : List String := []
  deriving DecidableEq

namespace Store

def empty : Store := {}

/-- The names of the modules, in order. -/
def names (s : Store) : List String :=
  s.modules.map GeneratedModule.name

/-- The module with a name. -/
def get? (s : Store) (name : String) : Option GeneratedModule :=
  s.modules.find? fun m => m.name == name

/-- **Takes a module** unless one of its name was taken before. -/
def add (s : Store) (m : GeneratedModule) : Except SinkError Store :=
  if m.name ∈ s.taken then .error (.duplicate m.name)
  else .ok ⟨s.modules ++ [m], m.name :: s.taken⟩

/-- Offers a module to the store; a refusal leaves the store as it is. -/
def offer (m : GeneratedModule) : StateM Store (Except SinkError Unit) :=
  fun s =>
    match s.add m with
    | .ok s => (.ok (), s)
    | .error cause => (.error cause, s)

end Store

end Netscribe
