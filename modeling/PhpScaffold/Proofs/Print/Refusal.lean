import PhpScaffold.Print.Member
import PhpScaffold.Proofs.Except

namespace PhpScaffold

namespace Value

def isWritten : Value → Bool
  | null | bool _ | float _ | text _ | literal _ | classReference _ | list _ | tuple _ | dict _ => true
  | int n => !Decimal.isLong n
  | _ => false

def refusal : Value → Fault
  | int _ => .longNumber
  | v => .unprintable v.typeName

mutual

/-- A value and all that it holds, in the order of writing. -/
def parts : Value → List Value
  | list vs => list vs :: itemParts vs
  | tuple vs => tuple vs :: itemParts vs
  | dict es => dict es :: entryParts es
  | v => [v]

def itemParts : List Value → List Value
  | [] => []
  | v :: r => v.parts ++ itemParts r

def entryParts : List (Value × Value) → List Value
  | [] => []
  | (k, v) :: r => k.parts ++ (v.parts ++ entryParts r)

end

end Value

theorem Namespace.exists_shortName {ns : Namespace} {scope : String} (named : ns.name = .text scope) (n : String) :
    ∃ v, ns.shortName (.text n) = .ok v := by
  simp only [shortName, named]
  split
  · exact ⟨_, rfl⟩
  · split
    · exact ⟨_, rfl⟩
    · exact ⟨_, rfl⟩
    · simp_all

namespace Print

def Refuses {α : Type} (x : Except Fault α) : Option Value → Prop
  | none => ∃ a, x = .ok a
  | some w => x = .error w.refusal

theorem Refuses.bind {α β : Type} {x : Except Fault α} {f : α → Except Fault β} {first second : Option Value}
    (h : Refuses x first) (next : ∀ a, Refuses (f a) second) : Refuses (x >>= f) (first.or second) := by
  cases first with
  | none =>
    obtain ⟨a, rfl⟩ := h
    exact next a
  | some w =>
    obtain rfl := h
    rfl

theorem Refuses.map {α β : Type} {x : Except Fault α} {f : α → β} {first : Option Value} (h : Refuses x first) :
    Refuses (x >>= fun a => .ok (f a)) first := by
  have ends (a : α) : Refuses (.ok (f a) : Except Fault β) none := ⟨f a, rfl⟩
  simpa using h.bind ends

theorem Refuses.eq_error_iff {α : Type} {x : Except Fault α} {first : Option Value} (h : Refuses x first) (e : Fault) :
    x = .error e ↔ ∃ w ∈ first, e = w.refusal := by
  cases first with
  | none =>
    obtain ⟨a, rfl⟩ := h
    simp
  | some w =>
    obtain rfl := h
    simp [eq_comm]

def refused? (vs : List Value) : Option Value := vs.find? (!·.isWritten)

variable {ns : Namespace} {scope : String}

mutual

theorem value_refuses (named : ns.name = .text scope) : ∀ v, Refuses (value ns v) (refused? v.parts)
  | .null | .bool _ | .float _ | .text _ | .literal _ => ⟨_, rfl⟩
  | .int n => by
    rw [value, Value.parts, refused?, List.find?_singleton, Value.isWritten]
    · cases Decimal.isLong n with
      | false => exact ⟨_, rfl⟩
      | true => rfl
    all_goals nofun
  | .classReference name => by
    obtain ⟨v, short⟩ := ns.exists_shortName named name
    rw [value, short]
    exact ⟨_, rfl⟩
  | .list vs => by
    rw [value]
    exact (values_refuse named vs).map
  | .tuple vs => by
    rw [value]
    exact (values_refuse named vs).map
  | .dict es => by
    rw [value]
    exact (entries_refuse named es).map
  | .bytes _ | .set _ | .date _ | .moment _ | .again _ | .foreign _ => rfl

theorem values_refuse (named : ns.name = .text scope) : ∀ vs, Refuses (values ns vs) (refused? (Value.itemParts vs))
  | [] => ⟨_, rfl⟩
  | v :: r => by
    rw [values, Value.itemParts, refused?, List.find?_append]
    exact (value_refuses named v).bind fun t => (values_refuse named r).map

theorem entries_refuse (named : ns.name = .text scope) :
    ∀ es, Refuses (entries ns es) (refused? (Value.entryParts es))
  | [] => ⟨_, rfl⟩
  | (k, v) :: r => by
    rw [entries, Value.entryParts, refused?, List.find?_append, List.find?_append]
    exact (value_refuses named k).bind fun s => (value_refuses named v).bind fun t => (entries_refuse named r).map

end

end Print

end PhpScaffold
