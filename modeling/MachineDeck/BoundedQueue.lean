import Mathlib.Data.List.Basic
import Mathlib.Tactic.SplitIfs

/-!
# Queues of bounded size

`asyncio.Queue` as it is used without waiting.

* `putNowait`, `getNowait` — what raises where the queue is full, or empty;
* `replace` — room is made before an item is put;
* `replace_ok` — into a queue of one item this never raises, and leaves that item only.
-/

namespace BoundedQueue

inductive QueueError where
  | full
  | empty
  deriving DecidableEq, Repr

/-- The items, the oldest first. -/
structure Queue (α : Type) where
  maxsize : ℕ
  items : List α
  deriving DecidableEq, Repr

variable {α : Type}

def Queue.full (q : Queue α) : Bool := decide (q.maxsize ≤ q.items.length)

def Queue.putNowait (q : Queue α) (a : α) : Except QueueError (Queue α) :=
  if q.full then .error .full else .ok { q with items := q.items ++ [a] }

def Queue.getNowait (q : Queue α) : Except QueueError (α × Queue α) :=
  match q.items with
  | [] => .error .empty
  | a :: items => .ok (a, { q with items := items })

/-- An item is taken out of a queue that is full; that it is empty is passed over. -/
def Queue.makeRoom (q : Queue α) : Queue α :=
  if q.full then
    match q.getNowait with
    | .ok (_, q') => q'
    | .error _ => q
  else q

def Queue.replace (q : Queue α) (a : α) : Except QueueError (Queue α) := q.makeRoom.putNowait a

/-- A queue with room for one item, which may be there. -/
def Queue.Slot (q : Queue α) : Prop := q.maxsize = 1 ∧ q.items.length ≤ 1

theorem Queue.Slot.makeRoom {q : Queue α} (h : q.Slot) : q.makeRoom = ⟨1, []⟩ := by
  obtain ⟨hsize, hitems⟩ := h
  obtain ⟨maxsize, items⟩ := q
  simp only at hsize hitems
  subst hsize
  match items with
  | [] => rfl
  | [a] => rfl
  | a :: b :: items => simp at hitems

theorem Queue.Slot.replace_ok {q : Queue α} (h : q.Slot) (a : α) : q.replace a = .ok ⟨1, [a]⟩ := by
  rw [Queue.replace, h.makeRoom]
  rfl

end BoundedQueue
