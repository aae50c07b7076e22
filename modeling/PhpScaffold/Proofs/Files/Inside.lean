import PhpScaffold.Proofs.Files.Growth
import PhpScaffold.Proofs.Text.Filled

/-! Whether a path lies in a directory, double dots being followed.  A path that is seen from the directory is a way
which may climb above its start and come down again; it ends in the directory exactly when it comes down by the very
names it has climbed. -/

namespace PhpScaffold

theorem Text.exists_trimEnd (d : Char) (s : String) :
    ∃ n, s.toList = (trimEnd (· = d) s).toList ++ List.replicate n d := by
  have same : ∀ c ∈ s.toList.rtakeWhile (· = d), c = d := fun c hc => by simpa using List.mem_rtakeWhile_imp hc
  refine ⟨(s.toList.rtakeWhile (· = d)).length, ?_⟩
  rw [← List.eq_replicate_of_mem same, trimEnd, String.toList_ofList, dropEndWhile_eq,
    List.rdropWhile_append_rtakeWhile]

namespace Path

variable {p q base : Path} {parts : List String}

def Inside (p base : Path) : Prop := (p.normalize.below? base.normalize).isSome

instance (p base : Path) : Decidable (p.Inside base) := inferInstanceAs (Decidable (_ = true))

theorem inside_iff : p.Inside base ↔ p.lead = base.lead ∧ base.normalize.parts <+: p.normalize.parts := by
  unfold Inside below?
  split <;> simp_all [normalize]

structure Way where
  climbed : Nat := 0
  names : List String := []
  deriving DecidableEq

namespace Way

variable {w : Way}

def step (w : Way) (part : String) : Way :=
  if part = ".." then
    if w.names = [] then { w with climbed := w.climbed + 1 } else { w with names := w.names.dropLast }
  else { w with names := w.names ++ [part] }

def reach (w : Way) (place : List String) : List String := place.take (place.length - w.climbed) ++ w.names

/-- Whether a way from a place comes down by the names that it has climbed. -/
def Regains (w : Way) (place : List String) : Prop := place.drop (place.length - w.climbed) <+: w.names

instance (w : Way) (place : List String) : Decidable (w.Regains place) := inferInstanceAs (Decidable (_ <+: _))

theorem reach_step (part : String) (place : List String) : (w.step part).reach place = push (w.reach place) part := by
  unfold step push
  split
  · by_cases top : w.names = []
    · -- nothing is left to take back, so the way climbs; above the root of all files it stays there
      have shorter : min (min (place.length - w.climbed) place.length - 1) (place.length - w.climbed) =
          place.length - (w.climbed + 1) := by omega
      simp only [top, if_true, reach, List.append_nil, List.dropLast_eq_take, List.take_take, List.length_take, shorter]
    · simp only [if_neg top, reach, List.dropLast_append_of_ne_nil top]
  · simp only [reach, List.append_assoc]

theorem prefix_reach_iff {place : List String} : place <+: w.reach place ↔ w.Regains place := by
  conv_lhs => lhs; rw [← List.take_append_drop (place.length - w.climbed) place]
  exact List.prefix_append_right_inj _

end Way

def way (parts : List String) : Way := parts.foldl Way.step {}

theorem foldl_push (place parts : List String) : parts.foldl push place = (way parts).reach place := by
  -- for every way made so far, since how far a double dot climbs depends on it
  have run (w : Way) : parts.foldl push (w.reach place) = (parts.foldl Way.step w).reach place := by
    induction parts generalizing w with
    | nil => rfl
    | cons part r ih => rw [List.foldl_cons, List.foldl_cons, ← Way.reach_step, ih]
  have start : ({} : Way).reach place = place := by simp [Way.reach]
  rw [way, ← run, start]

theorem inside_join_iff (seen : q.absolute = false) :
    (base.join q).Inside base ↔ (way q.parts).Regains base.normalize.parts := by
  have joined : base.join q = { base with parts := base.parts ++ q.parts } := by
    rw [join, seen]
    rfl
  have parts : (base.join q).normalize.parts = (way q.parts).reach base.normalize.parts := by
    rw [joined, ← foldl_push]
    exact List.foldl_append
  rw [inside_iff, parts, Way.prefix_reach_iff, joined]
  exact and_iff_right rfl

theorem way_of_not_mem (plain : ".." ∉ parts) : way parts = { names := parts } := by
  have run (w : Way) : parts.foldl Way.step w = { w with names := w.names ++ parts } := by
    induction parts generalizing w with
    | nil => simp
    | cons part r ih =>
      obtain ⟨other, rest⟩ := not_or.1 (List.mem_cons.not.1 plain)
      rw [List.foldl_cons, ih rest, Way.step, if_neg (Ne.symm other), List.append_assoc]
      rfl
  exact run {}

theorem regains_of_not_mem (plain : ".." ∉ parts) (place : List String) : (way parts).Regains place := by
  rw [way_of_not_mem plain, Way.Regains, Nat.sub_zero, List.drop_length]
  exact List.nil_prefix

variable {s t : String}

theorem absolute_ofText : (ofText s).absolute = false ↔ s.toList.head? ≠ some '/' := by
  have leads : (ofText s).absolute = false ↔ Lead.ofText s = .here := decide_eq_false_iff_not.trans not_not
  rw [leads, Lead.ofText]
  split
  · simp_all
  · rename_i written
    rw [written]
    split <;> simp
  · simp_all
  · rename_i other
    rw [eq_self, true_iff]
    intro first
    obtain ⟨r, written⟩ := List.head?_eq_some_iff.1 first
    exact other r written

theorem parts_ofText_append (s t : String) :
    (ofText (s ++ "/" ++ t)).parts = (ofText s).parts ++ (ofText t).parts := by
  have cuts := Text.cut_append_break '/' s t
  rw [show String.singleton '/' = "/" from rfl, ← String.append_assoc] at cuts
  simp only [ofText, cuts, List.filter_append]

theorem parts_ofText_slashes (t : List Char) (n : Nat) :
    (ofText (.ofList (t ++ List.replicate n '/'))).parts = (ofText (.ofList t)).parts := by
  induction n with
  | zero => rw [List.replicate_zero, List.append_nil]
  | succ n ih =>
    have ends : String.ofList (t ++ List.replicate (n + 1) '/') =
        .ofList (t ++ List.replicate n '/') ++ "/" ++ "" := by
      rw [← String.toList_inj]
      simp [List.replicate_succ']
    rw [ends, parts_ofText_append, ih, show (ofText "").parts = [] from rfl, List.append_nil]

/-- Whether a text is a relative path without double dots. -/
structure Descends (s : String) : Prop where
  relative : (ofText s).absolute = false
  plain : ".." ∉ (ofText s).parts

instance (s : String) : Decidable (Descends s) :=
  decidable_of_iff ((ofText s).absolute = false ∧ ".." ∉ (ofText s).parts) ⟨fun h => ⟨h.1, h.2⟩, fun h => ⟨h.1, h.2⟩⟩

theorem Descends.append (h : Descends s) (filled : s ≠ "") (plain : ".." ∉ (ofText t).parts) :
    Descends (s ++ "/" ++ t) := by
  constructor
  · obtain ⟨c, r, written⟩ := List.exists_cons_of_ne_nil (String.toList_eq_nil_iff.not.2 filled)
    have first := absolute_ofText.1 h.relative
    rw [absolute_ofText]
    simpa [written] using first
  · rw [parts_ofText_append, List.mem_append]
    exact not_or.2 ⟨h.plain, plain⟩

theorem Descends.child (h : Descends s) (g : Descends t) :
    ((ofText s).child t).absolute = false ∧ ".." ∉ ((ofText s).child t).parts := by
  rw [Path.child, join, g.relative, if_neg Bool.false_ne_true]
  exact ⟨h.relative, (List.mem_append.not.trans not_or).2 ⟨h.plain, g.plain⟩⟩

theorem Descends.trimEnd (h : Descends s) (filled : s ≠ "") :
    Descends (Text.trimEnd (· = '/') s) ∧ Text.trimEnd (· = '/') s ≠ "" := by
  obtain ⟨n, whole⟩ := Text.exists_trimEnd '/' s
  have first := absolute_ofText.1 h.relative
  have parts := parts_ofText_slashes (Text.trimEnd (· = '/') s).toList n
  rw [← whole, String.ofList_toList, String.ofList_toList] at parts
  rw [whole] at first
  refine ⟨⟨absolute_ofText.2 fun slash => first (by rw [List.head?_append, slash]; rfl), ?_⟩, fun none => ?_⟩
  · rw [← parts]
    exact h.plain
  · -- a text of slashes only would be an absolute path
    rw [none, String.toList_empty, List.nil_append, List.head?_replicate] at first
    split at first
    · rename_i zero
      refine filled (String.toList_eq_nil_iff.1 ?_)
      rw [whole, none, zero]
      rfl
    · exact first rfl

end Path

namespace Tree

variable {t : Tree} {p : Path} {place : List String}

theorem walk_eq {parts : List String} (h : t.walk parts = .ok place) : place = parts.foldl Path.push [] := by
  induction parts using List.reverseRecOn generalizing place with
  | nil =>
    cases h
    rfl
  | append_singleton front last ih =>
    rw [walk_concat] at h
    obtain ⟨x, there, entered⟩ := Except.bind_eq_ok.1 h
    rw [(enter_eq_ok.1 entered).2.2, ih there, List.foldl_append]
    rfl

theorem eq_of_locate (h : t.locate p = .ok place) : place = p.normalize.parts := walk_eq (locate_eq_ok.1 h).2.2

end Tree

end PhpScaffold
