import Fluke.Klib
import Fluke.Library.ByteMemory

/-!
# The state of the Forth interpreter

What a word works on: the memory, the context and the data stack. A word written in C gets the
whole stack by pointer; here the top of the stack comes first.
-/

namespace Fluke

/-- `struct Forth_context` -/
structure ForthContext where
  here : Word
  dictionary : Word
  tib : Word
  ntib : Word
  toIn : Word
  state : Word
  deriving DecidableEq

/-- The memory, the context and the data stack. -/
structure ForthState where
  memory : ByteMemory
  ctx : ForthContext
  stack : List Word

/-- A word of the language; one that takes what the stack does not have is stopped. -/
abbrev ForthWord := ForthState → Except Panic ForthState

namespace ForthState

/-- Put a cell on the stack. -/
def push (x : Word) (s : ForthState) : ForthState := { s with stack := x :: s.stack }

/-- Take a cell off the stack. -/
def pop (s : ForthState) : Except Panic (Word × ForthState) :=
  match s.stack with
  | x :: stack => .ok (x, { s with stack := stack })
  | [] => .error .outOfBounds

@[simp] lemma pop_push (x : Word) (s : ForthState) : (s.push x).pop = .ok (x, s) := rfl

@[simp] lemma push_memory (x : Word) (s : ForthState) : (s.push x).memory = s.memory := rfl

@[simp] lemma push_ctx (x : Word) (s : ForthState) : (s.push x).ctx = s.ctx := rfl

@[simp] lemma push_stack (x : Word) (s : ForthState) : (s.push x).stack = x :: s.stack := rfl

end ForthState

end Fluke
