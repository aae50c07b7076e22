/-! The order of a set.  Each item has a number.  The items sit in a ring whose size is a power of two: an item goes to
the seat of its number, or where that is taken to one of the seats behind it, or else further on; when the ring gets
full, all move to a larger one.  The set shows its items from the first seat to the last. -/

namespace PhpScaffold.Seating

structure Ring (α : Type) where
  seats : Array (Option (α × Nat))

variable {α : Type}

namespace Ring

def empty (size : Nat) : Ring α := ⟨.replicate size none⟩

def size (r : Ring α) : Nat := r.seats.size

def isFree (r : Ring α) (seat : Nat) : Bool := ((r.seats[seat]?).getD none).isNone

def sitting (r : Ring α) : List (α × Nat) := r.seats.toList.filterMap id

def row (r : Ring α) (seat : Nat) : List Nat :=
  if seat + 9 < r.size then (List.range 10).map (seat + ·) else [seat]

def seatFor (r : Ring α) (seat rest : Nat) : Nat → Option Nat
  | 0 => none
  | steps + 1 =>
    match (r.row seat).find? r.isFree with
    | some s => some s
    | none => r.seatFor ((5 * seat + 1 + rest / 32) % r.size) (rest / 32) steps

/-- Seats an item.  Once nothing is left of the number, the search goes through all seats. -/
def seat (r : Ring α) (item : α × Nat) : Ring α :=
  match r.seatFor (item.2 % r.size) item.2 (r.size + 14) with
  | some s => ⟨r.seats.setIfInBounds s (some item)⟩
  | none => r

def sizeAbove (least size : Nat) : Nat → Nat
  | 0 => size
  | steps + 1 => if size ≤ least then sizeAbove least (2 * size) steps else size

def move (r : Ring α) (least : Nat) : Ring α :=
  r.sitting.foldl seat (empty (sizeAbove least 8 least))

def isFull (r : Ring α) (count : Nat) : Bool := (r.size - 1) * 3 ≤ count * 5

def add (r : Ring α) (item : α × Nat) : Ring α :=
  let r := r.seat item
  let count := r.sitting.length
  if r.isFull count then r.move (if 50000 < count then 2 * count else 4 * count) else r

end Ring

def order (items : List (α × Nat)) : List α :=
  ((items.foldl Ring.add (.empty 8)).sitting).map Prod.fst

def orderTogether (items : List (α × Nat)) : List α :=
  let r : Ring α := .empty 8
  let r := if r.isFull items.length then r.move (2 * items.length) else r
  ((items.foldl Ring.add r).sitting).map Prod.fst

end PhpScaffold.Seating
