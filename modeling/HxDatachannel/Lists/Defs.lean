import Mathlib.Logic.Function.Basic
import HxDatachannel.Base.Linked
import HxDatachannel.Binding.CallbackResult

/-!
# `Lists.Defs` — the two linked lists, pointer by pointer

`datachannel.c` keeps its two queues as singly linked lists of malloc'ed nodes, each between two globals:
`callback_results` with `callback_results_end`, `datachannel_callbacks` with `datachannel_callbacks_end`.
`EventLoop.Defs` takes them for queues; here they are pointers into one heap. `malloc` may return any
address that is not allocated, also one that was freed before, and what the new node holds is arbitrary.

The functions follow the C line by line and return `none` where the C would go through a NULL pointer, a
pointer to freed memory or a pointer to a node of the other type. A run (`step`) is a sequence of what is
done under `callback_result_mutex`, appends and pops, and of the `free` of popped nodes.
-/

namespace HxDatachannel
namespace Lists

open Linked

abbrev Addr := Nat

/-- The two lists, each under the name of the pointer to its first node. -/
inductive Name where
  | callback_results
  | datachannel_callbacks
deriving DecidableEq, Repr

/-- An allocated node of either type: its `next` field, and its other fields. -/
abbrev Block := Node Addr Post

/-- The list that nodes of this type go to. -/
def listOf : Post → Name
  | .result _       => .callback_results
  | .announcement _ => .datachannel_callbacks

/-- The heap and the four globals: `head l` is the global `l`, `last l` the global `l_end`. -/
structure Pointers where
  heap : Addr → Option Block
  head : Name → Option Addr
  last : Name → Option Addr

namespace Pointers

/-! ## Access to memory -/

/-- The node of list `l`'s type that `p` points to. -/
def node (s : Pointers) (l : Name) : Option Addr → Option (Addr × Block)
  | none   => none
  | some a =>
      match s.heap a with
      | none   => none
      | some n => if listOf n.value = l then some (a, n) else none

/-- The memory after a write to the node at `a`. -/
def write (s : Pointers) (a : Addr) (n : Block) : Pointers :=
  { s with heap := Function.update s.heap a (some n) }

def setHead (s : Pointers) (l : Name) (p : Option Addr) : Pointers :=
  { s with head := Function.update s.head l p }

def setLast (s : Pointers) (l : Name) (p : Option Addr) : Pointers :=
  { s with last := Function.update s.last l p }

/-- `p->next`, read. -/
def next (s : Pointers) (l : Name) (p : Option Addr) : Option (Option Addr) :=
  (s.node l p).map fun n => n.2.next

/-- `p->next = q`. -/
def setNext (s : Pointers) (l : Name) (p q : Option Addr) : Option Pointers :=
  (s.node l p).map fun n => s.write n.1 { n.2 with next := q }

/-- The assignments to all other fields of the node that `p` points to. -/
def fill (s : Pointers) (l : Name) (p : Option Addr) (x : Post) : Option Pointers :=
  (s.node l p).map fun n => s.write n.1 { n.2 with value := x }

/-- `free`. -/
def free (s : Pointers) (a : Addr) : Option Pointers :=
  match s.heap a with
  | none   => none
  | some _ => some { s with heap := Function.update s.heap a none }

/-! ## The lists' operations -/

/-- The body of `callback_result_alloc` and `datachannel_callback_alloc`. Here `malloc` returns `b`, with
    `junk` in it. -/
def alloc (s : Pointers) (l : Name) (b : Addr) (junk : Block) : Option (Option Addr × Pointers) :=
  if s.last l = none then do
    let s := ((s.write b junk).setHead l (some b)).setLast l (some b)
    let s ← s.setNext l (s.last l) none
    some (s.last l, s)
  else do
    let s ← (s.write b junk).setNext l (s.last l) (some b)
    let n ← s.next l (s.last l)
    let s := s.setLast l n
    let s ← s.setNext l (s.last l) none
    some (s.last l, s)

def callback_result_alloc (s : Pointers) (b : Addr) (junk : Block) : Option (Option Addr × Pointers) :=
  s.alloc .callback_results b junk

def datachannel_callback_alloc (s : Pointers) (b : Addr) (junk : Block) :
    Option (Option Addr × Pointers) :=
  s.alloc .datachannel_callbacks b junk

/-- What a native callback does under the mutex: it allocates a node of the list and fills in the fields
    through the returned pointer. -/
def append (s : Pointers) (b : Addr) (junk : Block) : Post → Option Pointers
  | .result r => do
      let (res, s) ← s.callback_result_alloc b junk
      s.fill .callback_results res (.result r)
  | .announcement d => do
      let (res, s) ← s.datachannel_callback_alloc b junk
      s.fill .datachannel_callbacks res (.announcement d)

/-- What `process_events` does under the mutex, in the first loop with `datachannel_callbacks`, in the
    second with `callback_results`: `res`, and the memory after it. -/
def pop (s : Pointers) (l : Name) : Option (Option Addr × Pointers) :=
  if s.head l = none then some (none, s)
  else do
    let n ← s.next l (s.head l)
    let t := s.setHead l n
    some (s.head l, if t.head l = none then t.setLast l none else t)

end Pointers

/-! ## Runs -/

/-- The memory, with bookkeeping: the nodes appended to and popped from each list, in order and with what
    they held, the popped nodes that were not freed yet, and the fault flag. -/
structure State where
  mem      : Pointers
  appended : Name → List (Addr × Post)
  popped   : Name → List (Addr × Post)
  hand     : List (Addr × Post)
  fault    : Bool

/-- The start of the program: nothing allocated, all four globals NULL. -/
def State.blank : State :=
  { mem := { heap := fun _ => none, head := fun _ => none, last := fun _ => none },
    appended := fun _ => [], popped := fun _ => [], hand := [], fault := false }

inductive Act where
  /-- A callback appends a node with the fields `x`; `malloc` returned `b`, with `junk` in it. -/
  | append (b : Addr) (junk : Block) (x : Post)
  | pop (l : Name)
  /-- `free(res)` of a popped node. -/
  | free (a : Addr)
deriving DecidableEq, Repr

/-- The node an act appends to list `l`. -/
def Act.appends (l : Name) : Act → Option (Addr × Post)
  | .append b _ x => if listOf x = l then some (b, x) else none
  | _             => none

/-- The memory after an operation, or the fault it ended in. -/
def State.after (s : State) : Option Pointers → State
  | some m => { s with mem := m }
  | none   => { s with fault := true }

/-- One act. `malloc` returns a block that is not allocated, of the size asked for; nothing is freed but
    what was popped; after a fault there is nothing more. -/
def step (s : State) : Act → Option State
  | .append b junk x =>
      if s.fault = false ∧ s.mem.heap b = none ∧ listOf junk.value = listOf x then
        some { s.after (s.mem.append b junk x) with
          appended := fun l => s.appended l ++ ((Act.append b junk x).appends l).toList }
      else none
  | .pop l =>
      if s.fault = false then
        match s.mem.pop l with
        | none             => some { s with fault := true }
        | some (none, m)   => some { s with mem := m }
        | some (some a, m) =>
            -- `res` is dereferenced after the unlock
            match m.node l (some a) with
            | none        => some { s with fault := true }
            | some (_, n) =>
                some { s with
                  mem := m
                  popped := Function.update s.popped l (s.popped l ++ [(a, n.value)])
                  hand := (a, n.value) :: s.hand }
      else none
  | .free a =>
      if s.fault = false ∧ a ∈ addrs s.hand then
        some { s.after (s.mem.free a) with hand := s.hand.filter fun n => n.1 ≠ a }
      else none

end Lists
end HxDatachannel
