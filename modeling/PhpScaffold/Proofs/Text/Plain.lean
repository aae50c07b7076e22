import PhpScaffold.Decimal.Text
import PhpScaffold.Proofs.Text
import PhpScaffold.Text.Lines

namespace PhpScaffold

namespace Text

def IsPlain (s : String) : Prop := ∀ c ∈ s.toList, isLineBreak c → c = '\n'

-- Named, since characters are finitely many, and asking all of them is no way to decide this.
instance (s : String) : Decidable (IsPlain s) := List.decidableBAll (fun c => isLineBreak c → c = '\n') s.toList

variable {s t : String} {c : Char}

theorem IsPlain.of_subset (h : IsPlain s) (part : t.toList ⊆ s.toList) : IsPlain t := fun c hc => h c (part hc)

@[simp] theorem isPlain_append : IsPlain (s ++ t) ↔ IsPlain s ∧ IsPlain t := by
  simp [IsPlain, or_imp, forall_and]

def ArePlain (ts : List String) : Prop := ∀ t ∈ ts, IsPlain t

variable {ts us : List String}

@[simp] theorem arePlain_nil : ArePlain [] := by simp [ArePlain]

@[simp] theorem arePlain_cons : ArePlain (t :: ts) ↔ IsPlain t ∧ ArePlain ts := List.forall_mem_cons

@[simp] theorem arePlain_append : ArePlain (ts ++ us) ↔ ArePlain ts ∧ ArePlain us := List.forall_mem_append

@[simp] theorem arePlain_map {α : Type} {as : List α} {f : α → String} :
    ArePlain (as.map f) ↔ ∀ a ∈ as, IsPlain (f a) := List.forall_mem_map

@[simp] theorem isPlain_join : IsPlain (String.join ts) ↔ ArePlain ts := by
  induction ts with
  | nil => simp +decide
  | cons t r ih => rw [String.join_cons, isPlain_append, ih, arePlain_cons]

@[simp] theorem isPlain_intercalate {between : String} (plain : IsPlain between) (h : ArePlain ts) :
    IsPlain (between.intercalate ts) :=
  intercalate_induct (by decide) (fun hs ht => isPlain_append.2 ⟨hs, ht⟩) plain h

theorem isPlain_ite {p : Prop} [Decidable p] (hs : IsPlain s) (ht : IsPlain t) : IsPlain (if p then s else t) := by
  split
  · exact hs
  · exact ht

theorem dropEndWhile_subset (p : Char → Bool) (t : List Char) : dropEndWhile p t ⊆ t := by
  rw [dropEndWhile_eq]
  exact (List.rdropWhile_prefix p t).subset

theorem IsPlain.trimStart (h : IsPlain s) (p : Char → Bool) : IsPlain (trimStart p s) :=
  h.of_subset (by simpa [Text.trimStart] using (List.dropWhile_suffix p).subset)

theorem IsPlain.trimEnd (h : IsPlain s) (p : Char → Bool) : IsPlain (trimEnd p s) :=
  h.of_subset (by simpa [Text.trimEnd] using dropEndWhile_subset p s.toList)

theorem IsPlain.trim (h : IsPlain s) (p : Char → Bool) : IsPlain (trim p s) := by
  refine h.of_subset ?_
  rw [Text.trim, String.toList_ofList]
  exact List.Subset.trans (dropEndWhile_subset p _) (List.dropWhile_suffix p).subset

theorem IsPlain.replace (h : IsPlain s) {d : Char} (plain : isLineBreak d = false) : IsPlain (replace c d s) := by
  intro x hx
  rw [Text.replace, String.toList_map, List.mem_map] at hx
  obtain ⟨y, hy, rfl⟩ := hx
  split
  · simp [plain]
  · exact h y hy

theorem splitLines_break (h : isLineBreak c) (single : c ≠ '\r') (r : List Char) :
    splitLines (c :: r) = [] :: splitLines r := by
  rw [splitLines.eq_def]
  split <;> simp_all

theorem splitLines_within (h : isLineBreak c = false) {r : List Char} (some : splitLines r ≠ []) :
    splitLines (c :: r) = (splitLines r).modifyHead (c :: ·) := by
  have single : c ≠ '\r' := by
    rintro rfl
    exact absurd h (by decide)
  rw [splitLines.eq_def]
  split
  · simp_all
  · simp_all
  · rename_i same
    obtain ⟨rfl, rfl⟩ := List.cons.inj same
    rw [if_neg (by simp [h])]
    cases lines : splitLines r with
    | nil => exact absurd lines some
    | cons l ls => rfl

theorem not_isLineBreak_of_mem_splitLines {t l : List Char} (h : l ∈ splitLines t) :
    ∀ c ∈ l, isLineBreak c = false := by
  fun_induction splitLines t generalizing l with
  | case1 => simp at h
  | case2 r ih =>
    obtain rfl | later := List.mem_cons.1 h
    · simp
    · exact ih later
  | case3 c r _ ends ih =>
    obtain rfl | later := List.mem_cons.1 h
    · simp
    · exact ih later
  | case4 c r _ within none ih => simp_all
  | case5 c r _ within l' ls some ih =>
    rw [some] at ih
    obtain rfl | later := List.mem_cons.1 h
    · exact List.forall_mem_cons.2 ⟨by simpa using within, ih List.mem_cons_self⟩
    · exact ih (List.mem_cons_of_mem _ later)

theorem arePlain_lines (s : String) : ArePlain (lines s) := by
  intro t h
  obtain ⟨l, hl, rfl⟩ := List.mem_map.1 h
  intro c hc ends
  rw [String.toList_ofList] at hc
  exact absurd ends (by simp [not_isLineBreak_of_mem_splitLines hl c hc])

theorem splitLines_append_feed {t : List Char} (plain : ∀ c ∈ t, isLineBreak c → c = '\n') :
    splitLines (t ++ ['\n']) = t.splitOn '\n' := by
  induction t with
  | nil => rfl
  | cons c r ih =>
    obtain ⟨first, rest⟩ := List.forall_mem_cons.1 plain
    have ih := ih rest
    rw [List.splitOn, List.splitOnP_cons_eq_if_modifyHead, List.cons_append]
    by_cases ends : isLineBreak c
    · obtain rfl := first ends
      rw [splitLines_break ends (by decide), ih]
      rfl
    · have other : c ≠ '\n' := by
        rintro rfl
        exact ends rfl
      have some : splitLines (r ++ ['\n']) ≠ [] := by
        rw [ih]
        exact List.splitOnP_ne_nil _ _
      rw [splitLines_within (by simpa using ends) some, ih, if_neg (by simpa using other)]
      rfl

theorem lines_append_feed (h : IsPlain s) : lines (s ++ "\n") = cut '\n' s := by
  have ended : (s ++ "\n").toList = s.toList ++ ['\n'] := by simp
  rw [lines, cut, ended, splitLines_append_feed h]

theorem of_mem_splitOn {t l : List Char} (h : l ∈ t.splitOn c) : c ∉ l ∧ l ⊆ t := by
  induction t generalizing l with
  | nil =>
    rw [List.splitOn_nil, List.mem_singleton] at h
    subst h
    simp
  | cons d r ih =>
    rw [List.splitOn_cons_eq_if_modifyHead] at h
    obtain ⟨first, rest, pieces⟩ := List.exists_cons_of_ne_nil (List.splitOn_ne_nil c r)
    rw [pieces] at h ih
    split at h
    · obtain rfl | later := List.mem_cons.1 h
      · simp
      · exact ⟨(ih later).1, List.subset_cons_of_subset d (ih later).2⟩
    · rename_i other
      obtain rfl | later := List.mem_cons.1 h
      · obtain ⟨clear, part⟩ := ih List.mem_cons_self
        have different : c ≠ d := fun same => other (by simp [same])
        exact ⟨by simp [different, clear], List.cons_subset_cons d part⟩
      · obtain ⟨clear, part⟩ := ih (List.mem_cons_of_mem _ later)
        exact ⟨clear, List.subset_cons_of_subset d part⟩

theorem of_mem_cut (h : t ∈ cut c s) : c ∉ t.toList ∧ t.toList ⊆ s.toList := by
  obtain ⟨l, hl, rfl⟩ := List.mem_map.1 h
  rw [String.toList_ofList]
  exact of_mem_splitOn hl

theorem IsPlain.indent (h : IsPlain s) : IsPlain (Text.indent s) := by
  refine isPlain_intercalate (by decide) (arePlain_map.2 fun l hl => ?_)
  exact isPlain_ite (by decide) (isPlain_append.2 ⟨by decide, h.of_subset (of_mem_cut hl).2⟩)

theorem isPlain_block {lead : String} (plain : IsPlain lead) (first blank : Bool) (s : String) :
    IsPlain (block lead first blank s) := by
  have line := arePlain_lines (s ++ "\n")
  rw [block]
  split
  · exact plain
  · rename_i l ls read
    rw [read] at line
    obtain ⟨head, rest⟩ := arePlain_cons.1 line
    refine isPlain_intercalate (by decide) (arePlain_cons.2 ⟨?_, arePlain_map.2 fun m hm => ?_⟩)
    · exact isPlain_ite (isPlain_append.2 ⟨plain, head⟩) head
    · exact isPlain_ite (rest m hm) (isPlain_append.2 ⟨plain, rest m hm⟩)

end Text

namespace Decimal

open Text (isLineBreak IsPlain)

theorem not_isLineBreak_of_isDigit {c : Char} (h : c.isDigit) : isLineBreak c = false := by
  simp only [Char.isDigit, Bool.and_eq_true, decide_eq_true_eq, ge_iff_le, UInt32.le_iff_toNat_le] at h
  simp only [isLineBreak, ← Char.toNat_val]
  simp at h ⊢
  omega

theorem not_isLineBreak_of_mem_toDigits {n : Nat} {c : Char} (h : c ∈ Nat.toDigits 10 n) : isLineBreak c = false :=
  not_isLineBreak_of_isDigit (Nat.isDigit_of_mem_toDigits (by decide) (by decide) h)

def OneLine (t : List Char) : Prop := ∀ c ∈ t, isLineBreak c = false

instance (t : List Char) : Decidable (OneLine t) := List.decidableBAll (fun c => isLineBreak c = false) t

variable {ds : List Char} {point : Int}

@[simp] theorem oneLine_cons {c : Char} : OneLine (c :: ds) ↔ isLineBreak c = false ∧ OneLine ds := by
  simp [OneLine]

@[simp] theorem oneLine_append {t : List Char} : OneLine (ds ++ t) ↔ OneLine ds ∧ OneLine t := by
  simp [OneLine, or_imp, forall_and]

@[simp] theorem oneLine_zeros (n : Nat) : OneLine (zeros n) := by
  intro c hc
  rw [List.eq_of_mem_replicate hc]
  decide

@[simp] theorem oneLine_toDigits (n : Nat) : OneLine (Nat.toDigits 10 n) := fun _ => not_isLineBreak_of_mem_toDigits

theorem OneLine.positional (h : OneLine ds) : OneLine (positional ds point) := by
  have front (p : Nat) : OneLine (ds.take p) := fun c hc => h c (List.mem_of_mem_take hc)
  have back (p : Nat) : OneLine (ds.drop p) := fun c hc => h c (List.mem_of_mem_drop hc)
  unfold Decimal.positional
  split
  · simp +decide [h]
  · simp only
    split <;> simp +decide [h, front, back]

theorem OneLine.scientific (h : OneLine ds) : OneLine (scientific ds point) := by
  have sign (p : Prop) [Decidable p] : isLineBreak (if p then '-' else '+') = false := by split <;> decide
  unfold Decimal.scientific
  split <;> simp_all +decide

theorem oneLine_write (d : Numeral) : OneLine d.write := by
  have digits : OneLine (Text.dropEndWhile (· = '0') (Nat.toDigits 10 d.digits)) :=
    fun c hc => oneLine_toDigits _ c (Text.dropEndWhile_subset _ _ hc)
  unfold Numeral.write
  simp only
  split
  · exact digits.positional
  · exact digits.scientific

theorem isPlain_ofFloat (x : Float) : IsPlain (ofFloat x) := by
  have written : IsPlain (.ofList (Binary.ofBits (x.toBits.toNat % signBit)).shortest.write) := by
    intro c hc ends
    rw [String.toList_ofList] at hc
    exact absurd ends (by simp [oneLine_write _ c hc])
  unfold ofFloat
  simp only
  split
  · decide
  · split
    · split <;> simp +decide
    · split <;> split <;> simp +decide [written]

theorem isPlain_repr (n : Nat) : IsPlain n.repr := by
  intro c hc ends
  rw [Nat.toList_repr] at hc
  exact absurd ends (by simp [not_isLineBreak_of_mem_toDigits hc])

theorem isPlain_toString (n : Int) : IsPlain (toString n) := by
  cases n with
  | ofNat m => exact isPlain_repr m
  | negSucc m => exact Text.isPlain_append.2 ⟨by decide, isPlain_repr (m + 1)⟩

end Decimal

end PhpScaffold
