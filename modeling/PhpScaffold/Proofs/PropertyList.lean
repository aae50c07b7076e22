import PhpScaffold.PropertyList
import PhpScaffold.Proofs.Table
import PhpScaffold.Proofs.Text

namespace PhpScaffold.PropertyList

open Text (trim isBlank)

def IsWord (s : String) : Prop := s ≠ "" ∧ trim isBlank s = s

structure State.Sound (s : State) : Prop where
  name : ∀ n ∈ s.name, trim isBlank n = n
  distinct : s.found.keys.Nodup
  words : ∀ e ∈ s.found.entries, IsWord e.1 ∧ IsWord e.2

namespace State.Sound

variable {s : State}

theorem trim_pendingText (s : State) : trim isBlank s.pendingText = s.pendingText := by
  simp only [pendingText, trim, String.toList_ofList, Text.trimBoth_trimBoth]

theorem flush (h : s.Sound) : s.flush.Sound := by
  have dropped : ({ depth := s.depth, found := s.found } : State).Sound := ⟨by simp, h.distinct, h.words⟩
  unfold State.flush
  cases named : s.name with
  | none => exact dropped
  | some name =>
    dsimp only
    split
    · exact dropped
    · rename_i filled
      obtain ⟨some, typed⟩ : name ≠ "" ∧ s.pendingText ≠ "" := by simpa using filled
      refine ⟨by simp, Table.nodup_keys_insert h.distinct _ _, fun e he => ?_⟩
      obtain rfl | old := Table.eq_or_mem_of_mem_insert he
      · exact ⟨⟨some, h.name name named⟩, typed, trim_pendingText s⟩
      · exact h.words e old

theorem step (h : s.Sound) (c : Char) : (s.step c).Sound := by
  unfold State.step
  split
  · refine ⟨fun n hn => ?_, h.distinct, h.words⟩
    obtain rfl := Option.mem_some.1 hn
    exact trim_pendingText s
  · split
    · exact h.flush
    · exact ⟨h.name, h.distinct, h.words⟩

theorem foldl (h : s.Sound) (t : List Char) : (t.foldl State.step s).Sound := by
  induction t generalizing s with
  | nil => exact h
  | cons c r ih => exact ih (h.step c)

end State.Sound

theorem sound_parse (text : String) : (text.toList.foldl State.step {}).flush.Sound :=
  (State.Sound.foldl ⟨by simp, by simp [Table.keys], by simp⟩ text.toList).flush

theorem nodup_keys_parse (text : String) : (parse text).keys.Nodup := (sound_parse text).distinct

theorem isWord_parse (text : String) : ∀ e ∈ (parse text).entries, IsWord e.1 ∧ IsWord e.2 := (sound_parse text).words

end PhpScaffold.PropertyList
