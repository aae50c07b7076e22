import PhpScaffold.Fault

namespace PhpScaffold

def Value.asKey (v : Value) : Except Fault Value :=
  match v.unhashable? with
  | some typeName => throw (.unhashable typeName)
  | none => return v

structure Roster (α : Type) where
  entries : List (Value × α) := []

namespace Roster

variable {α : Type}

def keys (r : Roster α) : List Value := r.entries.map Prod.fst

def values (r : Roster α) : List α := r.entries.map Prod.snd

def get? (r : Roster α) (k : Value) : Option α := Value.lookup k r.entries

def contains (r : Roster α) (k : Value) : Bool := r.keys.any (Value.same · k)

def insert (r : Roster α) (k : Value) (a : α) : Roster α := ⟨Value.insertEntry k a r.entries⟩

def ofList (es : List (Value × α)) : Roster α := es.foldl (fun r e => r.insert e.1 e.2) {}

def erase (r : Roster α) (k : Value) : Roster α := ⟨r.entries.filter fun e => !Value.same e.1 k⟩

def member (r : Roster α) (k : Value) : Except Fault α := do
  let k ← k.asKey
  match r.get? k with
  | some a => return a
  | none => throw (.noMember k)

theorem get?_insert_self (r : Roster α) (k : Value) (a : α) (h : Value.same k k) :
    (r.insert k a).get? k = some a := by
  obtain ⟨es⟩ := r
  simp only [get?, insert, Value.lookup]
  induction es with
  | nil => simp [Value.insertEntry, h]
  | cons e r ih => by_cases h : Value.same e.1 k <;> simp_all [Value.insertEntry]

end Roster

end PhpScaffold
