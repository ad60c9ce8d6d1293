/-!
# Name table

Names in the order they were first entered. A name's key is its place; entering a name twice
gives one key.
-/

namespace ScriptGrammar

structure NameTable where
  names : Array String := #[]
deriving Inhabited

namespace NameTable

variable (t : NameTable)

def find? (name : String) : Option Nat := t.names.findIdx? (· == name)

def enter (name : String) : Nat × NameTable :=
  match t.find? name with
  | some key => (key, t)
  | none => (t.names.size, ⟨t.names.push name⟩)

def resolve? (key : Nat) : Option String := t.names[key]?

def size : Nat := t.names.size

def isEmpty : Bool := t.size == 0

theorem find?_enter (name : String) : (t.enter name).2.find? name = some (t.enter name).1 := by
  unfold enter
  split
  · assumption
  · next h =>
    simp [find?, Array.findIdx?_push, show t.names.findIdx? (· == name) = none from h]

end NameTable
end ScriptGrammar
