import GameBytecode.Memory
import GameBytecode.StringArena

/-!
The memory and the strings that a program works on, and computations on the two together.
-/
namespace GameBytecode

/-- What a statement works on. -/
structure Store where
  memory : Memory
  strings : StringArena

/-- A computation on the store; what it has written stays when it fails. -/
abbrev Action := ExceptT Fault (StateM Store)

namespace Action

def slice (address : Int) (count : Nat) : Action (List Word) := fun st =>
  (st.memory.slice address count, st)

/-- Writes words to consecutive addresses. -/
def put (address : Int) (ws : List Word) : Action Unit := fun ⟨memory, strings⟩ =>
  match memory.resolve address ws.length with
  | .error e => (.error e, ⟨memory, strings⟩)
  | .ok i => (.ok (), ⟨⟨Memory.setWords memory.words i ws⟩, strings⟩)

def putWord (address : Int) (w : Word) : Action Unit := put address [w]

def copy (source target : Int) (count : Nat) : Action Unit := do
  put target (← slice source count)

end Action
end GameBytecode
