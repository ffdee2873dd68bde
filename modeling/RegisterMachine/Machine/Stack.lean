import RegisterMachine.Word
import RegisterMachine.Fault

namespace RegisterMachine

-- A stack of at most `capacity` words, bottom first. It holds data and return addresses alike.
structure Stack (t : WordType) where
  words : Array (Word t)
  capacity : Nat
deriving DecidableEq

namespace Stack

variable {t : WordType}

def empty (t : WordType) (capacity : Nat) : Stack t := ⟨#[], capacity⟩

def isEmpty (stack : Stack t) : Bool := stack.words.size == 0

def isFull (stack : Stack t) : Bool := stack.capacity ≤ stack.words.size

def checkRoom (stack : Stack t) : Except Cause Unit :=
  if stack.isFull then .error .stackOverflow else .ok ()

-- Puts a word on top, whether or not there is room.
def add (stack : Stack t) (value : Word t) : Stack t :=
  { stack with words := stack.words.push value }

-- Takes the top word off, if there is one.
def drop (stack : Stack t) : Stack t := { stack with words := stack.words.pop }

def push (stack : Stack t) (value : Word t) : Except Cause (Stack t) := do
  stack.checkRoom
  return stack.add value

-- The top word, left in place.
def peek (stack : Stack t) : Except Cause (Word t) :=
  match stack.words.back? with
  | none => .error .stackUnderflow
  | some value => .ok value

-- The top word and the stack without it.
def pop (stack : Stack t) : Except Cause (Word t × Stack t) := do
  let value ← stack.peek
  return (value, stack.drop)

def reset (stack : Stack t) : Stack t := empty t stack.capacity

end Stack

end RegisterMachine
