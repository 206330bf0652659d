import Mathlib.Data.BitVec
import Mathlib.Logic.Function.Basic
import LogIt.Lib.Lts

/-!
This module contains the ring of `MpscRingAny.hpp`. Every access to a shared atomic is one step of a
program counter. It is used by any number of producers and one consumer, or by calls that do not
overlap, which are compared with an ideal queue.
-/

namespace LogIt

/--
The part of `std::size_t` that the ring uses. `diff a b` is
`static_cast<std::intptr_t>(a) - static_cast<std::intptr_t>(b)`.
-/
class SizeT (P : Type) where
  ofNat : Nat → P
  toNat : P → Nat
  add : P → Nat → P
  diff : P → P → Int

/--
Positions that stay below half the range of `std::size_t`, where its arithmetic is exact.
-/
instance : SizeT Nat where
  ofNat n := n
  toNat n := n
  add a n := a + n
  diff a b := (a : Int) - (b : Int)

/--
A `std::size_t` of `w` bits that wraps around, with `std::intptr_t` its two's complement.
-/
instance (w : Nat) : SizeT (BitVec w) where
  ofNat n := BitVec.ofNat w n
  toNat n := n.toNat
  add a n := a + BitVec.ofNat w n
  diff a b := (a - b).toInt

/--
`storage` is `none` as long as no `T` lives in `m_storage`.
-/
structure Cell (P α : Type) where
  seq : P
  storage : Option α

structure MpscRingAny (P α : Type) where
  cap : Nat
  cells : Nat → Cell P α
  enqueuePos : P
  dequeuePos : P

namespace MpscRingAny

variable {P α : Type} [SizeT P]

def new (capacity : Nat) : MpscRingAny P α where
  cap := if capacity < 2 then 2 else capacity
  cells i := ⟨SizeT.ofNat i, none⟩
  enqueuePos := SizeT.ofNat 0
  dequeuePos := SizeT.ofNat 0

variable (ring : MpscRingAny P α)

def cell (pos : P) : Cell P α :=
  ring.cells (SizeT.toNat pos % ring.cap)

def setCell (pos : P) (c : Cell P α) : MpscRingAny P α :=
  { ring with cells := Function.update ring.cells (SizeT.toNat pos % ring.cap) c }

def setSeq (pos seq : P) : MpscRingAny P α :=
  ring.setCell pos { ring.cell pos with seq }

def setStorage (pos : P) (storage : Option α) : MpscRingAny P α :=
  ring.setCell pos { ring.cell pos with storage }

/--
It looks at the head cell only, so a claimed but unpublished head counts as empty.
-/
def empty : Bool :=
  if ring.cap = 0 then
    true
  else
    let pos := ring.dequeuePos
    let seq := (ring.cell pos).seq
    decide (SizeT.diff seq (SizeT.add pos 1) ≠ 0)

end MpscRingAny

/--
The argument `v` is carried along until it is moved from.
-/
inductive PushPc (P α : Type) where
  -- not in a call
  | idle
  -- about to load `m_enqueue_pos`
  | load (v : α)
  -- about to load `c.m_seq`
  | readSeq (v : α) (pos : P)
  -- about to `compare_exchange_weak` on `m_enqueue_pos`
  | cas (v : α) (pos : P)
  -- owns the cell, about to construct the element in place
  | construct (v : α) (pos : P)
  -- about to store `c.m_seq`
  | publish (pos : P)
  -- has returned `ok`; `v` is the argument, `none` if it was moved from
  | returned (ok : Bool) (v : Option α)
  deriving DecidableEq

inductive PopPc (P α : Type) where
  -- not in a call
  | idle
  -- about to load `m_dequeue_pos`
  | load
  -- about to load `c.m_seq`
  | readSeq (pos : P)
  -- about to `compare_exchange_weak` on `m_dequeue_pos`
  | cas (pos : P)
  -- about to execute `out = std::move(*p)`
  | move (pos : P)
  -- about to execute `p->~T()`
  | destroy (pos : P) (out : Option α)
  -- about to store `c.m_seq`
  | release (pos : P) (out : Option α)
  -- has returned `ok`
  | returned (ok : Bool) (out : Option α)
  deriving DecidableEq

namespace MpscRingAny

variable {P α : Type} [SizeT P] [DecidableEq P]

/--
A weak exchange may fail although the values agree, which is the case `spurious`.
-/
def pushStep (ring : MpscRingAny P α) (spurious : Bool) (pc : PushPc P α)
    : MpscRingAny P α × PushPc P α :=
  match pc with
  | .idle => (ring, .idle)
  | .load v => (ring, .readSeq v ring.enqueuePos)
  | .readSeq v pos =>
    let seq := (ring.cell pos).seq
    let diff := SizeT.diff seq pos
    if diff = 0 then
      (ring, .cas v pos)
    else if diff < 0 then
      -- Full.
      (ring, .returned false (some v))
    else
      -- Another producer advanced `pos`; reload.
      (ring, .load v)
  | .cas v pos =>
    if ring.enqueuePos = pos ∧ spurious = false then
      ({ ring with enqueuePos := SizeT.add pos 1 }, .construct v pos)
    else
      -- A failed exchange stores the current value into `pos`.
      (ring, .readSeq v ring.enqueuePos)
  | .construct v pos => (ring.setStorage pos (some v), .publish pos)
  | .publish pos => (ring.setSeq pos (SizeT.add pos 1), .returned true none)
  | .returned ok v => (ring, .returned ok v)

def popStep (ring : MpscRingAny P α) (spurious : Bool) (pc : PopPc P α)
    : MpscRingAny P α × PopPc P α :=
  match pc with
  | .idle => (ring, .idle)
  | .load => (ring, .readSeq ring.dequeuePos)
  | .readSeq pos =>
    let seq := (ring.cell pos).seq
    let diff := SizeT.diff seq (SizeT.add pos 1)
    if diff = 0 then
      (ring, .cas pos)
    else
      -- Empty or not yet published.
      (ring, .returned false none)
  | .cas pos =>
    if ring.dequeuePos = pos ∧ spurious = false then
      ({ ring with dequeuePos := SizeT.add pos 1 }, .move pos)
    else
      (ring, .load)
  | .move pos => (ring, .destroy pos (ring.cell pos).storage)
  | .destroy pos out => (ring.setStorage pos none, .release pos out)
  | .release pos out => (ring.setSeq pos (SizeT.add pos ring.cap), .returned true out)
  | .returned ok out => (ring, .returned ok out)

end MpscRingAny

variable {P ι α : Type}

def PushPc.claims (pc pc' : PushPc P α) : List α :=
  match pc, pc' with
  | .cas v _, .construct _ _ => [v]
  | _, _ => []

def PopPc.pops (pc pc' : PopPc P α) : List (Option α) :=
  match pc, pc' with
  | .release _ _, .returned _ out => [out]
  | _, _ => []

def PushPc.inCall (pc : PushPc P α) : Bool :=
  match pc with
  | .idle | .returned _ _ => false
  | _ => true

def PopPc.inCall (pc : PopPc P α) : Bool :=
  match pc with
  | .idle | .returned _ _ => false
  | _ => true

namespace MpscRingAny.Concurrent

/--
The last three fields are history: the argument of the latest call of each producer, the values of
the successful exchanges on `m_enqueue_pos` and the results of the successful `try_pop` calls.
-/
structure State (ι α : Type) where
  ring : MpscRingAny Nat α
  producers : ι → PushPc Nat α
  consumer : PopPc Nat α
  args : ι → Option α
  claimed : List α
  popped : List (Option α)

inductive Action (ι α : Type) where
  -- thread `i` calls `try_push(v)`
  | tryPush (i : ι) (v : α)
  -- thread `i` takes its next step in `try_push`
  | push (i : ι) (spurious : Bool)
  -- the consumer calls `try_pop`
  | tryPop
  -- the consumer takes its next step in `try_pop`
  | pop (spurious : Bool)

variable [DecidableEq ι]

def step (s : State ι α) (a : Action ι α) : Option (State ι α) :=
  match a with
  | .tryPush i v =>
    if (s.producers i).inCall then
      none
    else
      some { s with
        producers := Function.update s.producers i (.load v)
        args := Function.update s.args i (some v)
      }
  | .push i spurious =>
    let pc := s.producers i
    let res := s.ring.pushStep spurious pc
    some { s with
      ring := res.1
      producers := Function.update s.producers i res.2
      claimed := s.claimed ++ pc.claims res.2
    }
  | .tryPop =>
    if s.consumer.inCall then
      none
    else
      some { s with consumer := .load }
  | .pop spurious =>
    let res := s.ring.popStep spurious s.consumer
    some { s with
      ring := res.1
      consumer := res.2
      popped := s.popped ++ s.consumer.pops res.2
    }

def init (capacity : Nat) : State ι α where
  ring := .new capacity
  producers _ := .idle
  consumer := .idle
  args _ := none
  claimed := []
  popped := []

def system (ι α : Type) [DecidableEq ι] (capacity : Nat) : Lts (State ι α) (Action ι α) where
  init := init capacity
  step := step

end MpscRingAny.Concurrent

end LogIt

namespace LogIt

variable {P α : Type} [SizeT P] [DecidableEq P]

namespace MpscRingAny

/--
The first `failures` exchanges fail spuriously. `none`: not returned after `fuel` atomic steps.
-/
def tryPush (fuel failures : Nat) (ring : MpscRingAny P α) (v : α)
    : Option (MpscRingAny P α × Bool) :=
  go fuel failures ring (.load v)
where
  go (fuel failures : Nat) (ring : MpscRingAny P α) (pc : PushPc P α)
      : Option (MpscRingAny P α × Bool) :=
    match fuel, pc with
    | _, .returned ok _ => some (ring, ok)
    | 0, _ => none
    | fuel + 1, .cas v pos =>
      let res := ring.pushStep (decide (0 < failures)) (.cas v pos)
      go fuel (failures - 1) res.1 res.2
    | fuel + 1, pc =>
      let res := ring.pushStep false pc
      go fuel failures res.1 res.2

def tryPop (fuel failures : Nat) (ring : MpscRingAny P α)
    : Option (MpscRingAny P α × Bool × Option α) :=
  go fuel failures ring .load
where
  go (fuel failures : Nat) (ring : MpscRingAny P α) (pc : PopPc P α)
      : Option (MpscRingAny P α × Bool × Option α) :=
    match fuel, pc with
    | _, .returned ok out => some (ring, ok, out)
    | 0, _ => none
    | fuel + 1, .cas pos =>
      let res := ring.popStep (decide (0 < failures)) (.cas pos)
      go fuel (failures - 1) res.1 res.2
    | fuel + 1, pc =>
      let res := ring.popStep false pc
      go fuel failures res.1 res.2

inductive Call (α : Type) where
  | push (v : α) (failures : Nat)
  | pop (failures : Nat)

inductive Result (α : Type) where
  | push (ok : Bool)
  | pop (ok : Bool) (out : Option α)
  deriving DecidableEq

def call (fuel : Nat) (ring : MpscRingAny P α) (c : Call α) : Option (MpscRingAny P α × Result α) :=
  match c with
  | .push v failures => (ring.tryPush fuel failures v).map fun res => (res.1, .push res.2)
  | .pop failures => (ring.tryPop fuel failures).map fun res => (res.1, .pop res.2.1 res.2.2)

def calls (fuel : Nat) (ring : MpscRingAny P α) (cs : List (Call α))
    : Option (MpscRingAny P α × List (Result α)) :=
  match cs with
  | [] => some (ring, [])
  | c :: cs =>
    match ring.call fuel c with
    | none => none
    | some (ring, res) => (ring.calls fuel cs).map fun rest => (rest.1, res :: rest.2)

end MpscRingAny

structure IdealQueue (α : Type) where
  cap : Nat
  elems : List α

namespace IdealQueue

open MpscRingAny

def call (queue : IdealQueue α) (c : Call α) : IdealQueue α × Result α :=
  match c with
  | .push v _ =>
    if queue.elems.length < queue.cap then
      ({ queue with elems := queue.elems ++ [v] }, .push true)
    else
      (queue, .push false)
  | .pop _ =>
    match queue.elems with
    | [] => (queue, .pop false none)
    | x :: xs => ({ queue with elems := xs }, .pop true (some x))

def calls (queue : IdealQueue α) (cs : List (Call α)) : IdealQueue α × List (Result α) :=
  match cs with
  | [] => (queue, [])
  | c :: cs =>
    let res := queue.call c
    let rest := res.1.calls cs
    (rest.1, res.2 :: rest.2)

end IdealQueue
end LogIt
