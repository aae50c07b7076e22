import PhpScaffold.Command.Handler
import PhpScaffold.Proofs.Command.Shape
import PhpScaffold.Proofs.Name.Full

namespace PhpScaffold.Command

open Name

def Side.suffixes (s : Side) : List String :=
  [s.word ++ "Handler", s.word, "Result", s.word ++ "HandlerImplementation", s.word ++ "HandlerImplementationTest"]

def foreign : List String := ["Bind", "ConnectionInterface", "TestCase", "RefreshDatabase"]

theorem endsIn_bindAttribute : EndsIn bindAttribute "Bind" :=
  ⟨⟨["Illuminate", "Container", "Attributes"], by decide, by decide, by decide⟩, by decide⟩

theorem endsIn_connectionInterface : EndsIn connectionInterface "ConnectionInterface" :=
  ⟨⟨["Illuminate", "Database"], by decide, by decide, by decide⟩, by decide⟩

theorem endsIn_testCase : EndsIn testCase "TestCase" :=
  ⟨⟨["Tests"], by decide, by decide, by decide⟩, by decide⟩

theorem endsIn_refreshDatabase : EndsIn refreshDatabase "RefreshDatabase" :=
  ⟨⟨["Illuminate", "Foundation", "Testing"], by decide, by decide, by decide⟩, by decide⟩

namespace Side

theorem isIdentifier_word (s : Side) : IsIdentifier s.word.toList := by
  cases s <;> decide

theorem isIdentifier_suffixes (s : Side) : ∀ suffix ∈ s.suffixes, IsIdentifier suffix.toList := by
  cases s <;> decide

theorem nodup_suffixes (s : Side) : s.suffixes.Nodup := by
  cases s <;> decide

theorem not_suffix_foreign (s : Side) : ∀ suffix ∈ s.suffixes, ∀ x ∈ foreign, ¬ suffix.toList <:+ x.toList := by
  cases s <;> decide

end Side

namespace Operation

variable {o : Operation} {suffix : String}

/-- An operation that can be laid out: the context is made of identifiers, and the subject is one. -/
structure Named (o : Operation) : Prop where
  context : ∃ segments, segments ≠ [] ∧ (∀ s ∈ segments, IsIdentifier s.toList) ∧ o.context = ofSegments segments
  subject : IsIdentifier o.subject.toList

namespace Named

theorem endsIn (h : o.Named) (front : List String) (filled : front ≠ [])
    (all : ∀ s ∈ front, IsIdentifier s.toList) (tail : suffix ∈ o.side.suffixes) :
    EndsIn (ofSegments front ++ "\\" ++ o.context ++ "\\" ++ (o.subject ++ suffix)) (o.subject ++ suffix) := by
  obtain ⟨segments, some, identifiers, context⟩ := h.context
  refine ⟨⟨front ++ segments, by simp [filled], List.forall_mem_append.2 ⟨all, identifiers⟩, ?_⟩, ?_⟩
  · rw [ofSegments_concat (by simp [filled]), ofSegments_append filled some, context]
  · rw [String.toList_append]
    exact h.subject.append (o.side.isIdentifier_suffixes suffix tail)

theorem contract (h : o.Named) (tail : suffix ∈ o.side.suffixes) :
    EndsIn (o.contract suffix) (o.subject ++ suffix) := by
  have ends := h.endsIn ["App", "Contracts", o.side.word] (by simp)
    (by simpa [Side.isIdentifier_word] using by decide) tail
  have front : ofSegments ["App", "Contracts", o.side.word] = "App\\Contracts\\" ++ o.side.word := by
    simp [ofSegments, ← String.toList_inj]
  rw [front] at ends
  unfold Operation.contract
  simpa only [String.append_assoc] using ends

theorem handlerInterface (h : o.Named) : EndsIn o.handlerInterface (o.subject ++ (o.side.word ++ "Handler")) :=
  h.contract (by simp [Side.suffixes])

theorem below (h : o.Named) (front : List String) (suffix : String) (filled : front ≠ [])
    (all : ∀ s ∈ front, IsIdentifier s.toList)
    (tail : o.side.word ++ "HandlerImplementation" ++ suffix ∈ o.side.suffixes) :
    EndsIn (ofSegments front ++ "\\" ++ o.below suffix)
      (o.subject ++ (o.side.word ++ "HandlerImplementation" ++ suffix)) := by
  have ends := h.endsIn (front ++ ["Infrastructure", o.side.word]) (by simp)
    (by simpa [Side.isIdentifier_word, or_imp, forall_and] using ⟨all, by decide⟩) tail
  have behind : ofSegments ["Infrastructure", o.side.word] = "Infrastructure\\" ++ o.side.word := by
    simp [ofSegments]
  rw [ofSegments_append filled (by simp), behind] at ends
  unfold Operation.below
  simpa only [String.append_assoc] using ends

theorem implementation (h : o.Named) :
    EndsIn o.implementation (o.subject ++ (o.side.word ++ "HandlerImplementation")) := by
  have ends := h.below ["App"] "" (by decide) (by decide) (by simp [Side.suffixes])
  rwa [String.append_empty] at ends

theorem test (h : o.Named) : EndsIn o.test (o.subject ++ (o.side.word ++ "HandlerImplementationTest")) := by
  have ends := h.below ["Tests", "Feature"] "Test" (by decide) (by decide)
    (by simp [Side.suffixes, String.append_assoc])
  have tail : o.side.word ++ "HandlerImplementation" ++ "Test" = o.side.word ++ "HandlerImplementationTest" :=
    String.append_assoc
  rwa [tail] at ends

end Named

theorem nodup_ends {inner ends : List String} (own : inner.Sublist o.side.suffixes) (outer : List String)
    (others : outer.Sublist foreign) (whole : ends.Perm (inner.map (o.subject ++ ·) ++ outer)) : ends.Nodup := by
  have apart : foreign.Nodup := by decide
  rw [whole.nodup_iff, List.nodup_append]
  refine ⟨(o.side.nodup_suffixes.sublist own).map fun s t same => (String.append_right_inj _).1 same,
    apart.sublist others, ?_⟩
  intro s hs x hx same
  obtain ⟨suffix, inside, rfl⟩ := List.mem_map.1 hs
  refine o.side.not_suffix_foreign suffix (own.subset inside) x (others.subset hx) ?_
  rw [← same, String.toList_append]
  exact List.suffix_append _ _

end Operation

end PhpScaffold.Command
