namespace PhpScaffold

structure Table (α : Type u) where
  entries : List (String × α) := []
  deriving DecidableEq

namespace Table

variable {α : Type u} {β : Type v}

def empty : Table α := {}

def keys (t : Table α) : List String := t.entries.map Prod.fst

def values (t : Table α) : List α := t.entries.map Prod.snd

def get? (t : Table α) (k : String) : Option α := t.entries.lookup k

def contains (t : Table α) (k : String) : Bool := t.keys.contains k

def isEmpty (t : Table α) : Bool := t.entries.isEmpty

def insertEntry (k : String) (a : α) : List (String × α) → List (String × α)
  | [] => [(k, a)]
  | (l, b) :: r => if l = k then (k, a) :: r else (l, b) :: insertEntry k a r

def insert (t : Table α) (k : String) (a : α) : Table α := ⟨insertEntry k a t.entries⟩

def insertAll (t : Table α) (es : List (String × α)) : Table α :=
  es.foldl (fun t e => t.insert e.1 e.2) t

def ofList (es : List (String × α)) : Table α := empty.insertAll es

def erase (t : Table α) (k : String) : Table α := ⟨t.entries.filter (·.1 ≠ k)⟩

def map (f : α → β) (t : Table α) : Table β := ⟨t.entries.map fun e => (e.1, f e.2)⟩

@[simp] theorem keys_empty : (empty : Table α).keys = [] := rfl

@[simp] theorem keys_insert (t : Table α) (k : String) (a : α) :
    (t.insert k a).keys = if k ∈ t.keys then t.keys else t.keys ++ [k] := by
  obtain ⟨es⟩ := t
  simp only [keys, insert]
  induction es with
  | nil => simp [insertEntry]
  | cons e r ih =>
    by_cases h : e.1 = k
    · simp [insertEntry, h]
    · have hk : ¬k = e.1 := fun hk => h hk.symm
      by_cases hm : k ∈ r.map Prod.fst <;> simp_all [insertEntry]

theorem get?_insert (t : Table α) (k l : String) (a : α) :
    (t.insert k a).get? l = if l = k then some a else t.get? l := by
  obtain ⟨es⟩ := t
  simp only [get?, insert]
  induction es with
  | nil => grind [insertEntry]
  | cons e r ih => grind [insertEntry]

@[simp] theorem values_map (f : α → β) (t : Table α) : (t.map f).values = t.values.map f := by
  simp [values, map]

@[simp] theorem get?_map (f : α → β) (t : Table α) (k : String) : (t.map f).get? k = (t.get? k).map f := by
  obtain ⟨es⟩ := t
  simp only [get?, map]
  induction es with
  | nil => rfl
  | cons e r ih =>
    obtain ⟨l, a⟩ := e
    by_cases h : k == l <;> simp [List.lookup_cons, h, ih]

theorem entries_insert_of_not_mem {t : Table α} {k : String} (h : k ∉ t.keys) (a : α) :
    (t.insert k a).entries = t.entries ++ [(k, a)] := by
  obtain ⟨es⟩ := t
  simp only [keys, insert] at h ⊢
  induction es with
  | nil => rfl
  | cons e r ih =>
    simp only [List.map_cons, List.mem_cons, not_or] at h
    simp [insertEntry, Ne.symm h.1, ih h.2]

theorem eq_or_mem_of_mem_insert {t : Table α} {k : String} {a : α} {e : String × α}
    (h : e ∈ (t.insert k a).entries) : e = (k, a) ∨ e ∈ t.entries := by
  obtain ⟨es⟩ := t
  simp only [insert] at h ⊢
  induction es with
  | nil => simpa [insertEntry] using h
  | cons f r ih => grind [insertEntry]

theorem mem_of_get? {t : Table α} {k : String} {a : α} (h : t.get? k = some a) : (k, a) ∈ t.entries := by
  obtain ⟨es⟩ := t
  simp only [get?] at h ⊢
  induction es with
  | nil => simp at h
  | cons e r ih => grind

end Table

end PhpScaffold
