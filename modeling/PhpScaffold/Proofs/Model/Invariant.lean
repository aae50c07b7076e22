import PhpScaffold.Proofs.Model.Change
import Mathlib.Data.List.Nodup

namespace PhpScaffold.Node

/-- A part in order. -/
structure Fine (n : Node) : Prop where
  keyed : ∀ s, (n.members s).Keyed name
  distinct : ∀ s, (n.members s).Distinct
  apart : ∀ l vs, n.listed? l = some vs → Value.Apart vs
  imports : ∀ k ∈ n.uses.keys, k ≠ "" ∧ k.toList.head? ≠ some Name.separator
  once : n.uses.keys.Nodup
  visibility : ∀ v, n.visibility? = some v →
    v ∈ [Value.text "public", .text "protected", .text "private"] ∨
      v = .null ∧ (n.shelf? = some .methods ∨ n.shelf? = some .constants)
  backing : ∀ v, n.backing? = some v → v ∈ [Value.null, .text "int", .text "string"]

def Sound (n : Node) : Prop := ∀ t, n.Part t → t.Fine

variable {n n' t t' c : Node} {role : Role} {s : Shelf} {k v : Value}

theorem sound_iff : n.Sound ↔ n.Fine ∧ ∀ s, ∀ e ∈ (n.members s).entries, e.2.Sound := by
  constructor
  · intro h
    exact ⟨h n (.self n), fun s e he t part => h t (.member he part)⟩
  · rintro ⟨fine, below⟩ t part
    cases part with
    | self => exact fine
    | member there part => exact below _ _ there _ part

theorem visibility_known (n : Node) (v : Value) (h : n.visibility? = some v) :
    v ∈ [Value.text "public", .text "protected", .text "private"] ∨
      v = .null ∧ (n.shelf? = some .methods ∨ n.shelf? = some .constants) := by
  have known (w : Visibility) : Value.text w.keyword ∈ [Value.text "public", .text "protected", .text "private"] := by
    cases w <;> simp [Visibility.keyword]
  cases n with
  | method m =>
    cases h
    cases m.visibility with
    | none => exact .inr ⟨rfl, .inl rfl⟩
    | some w => exact .inl (known w)
  | constant c =>
    cases h
    cases c.visibility with
    | none => exact .inr ⟨rfl, .inr rfl⟩
    | some w => exact .inl (known w)
  | property p =>
    cases h
    exact .inl (known p.visibility)
  | parameter p =>
    obtain ⟨q, -, rfl⟩ := Option.map_eq_some_iff.1 h
    exact .inl (known q.visibility)
  | _ => cases h

theorem backing_known (n : Node) (v : Value) (h : n.backing? = some v) :
    v ∈ [Value.null, .text "int", .text "string"] := by
  cases n with
  | element e =>
    obtain ⟨name, notes, constants, methods, form⟩ := e
    cases form with
    | enum b =>
      cases h
      rcases b with _ | _ | _ <;> simp [Backing.keyword]
    | _ => cases h
  | _ => cases h

theorem IsNew.fine (h : IsNew v c) : c.Fine where
  keyed s := h.members s ▸ Roster.keyed_empty _
  distinct s := h.members s ▸ Roster.distinct_empty
  apart l vs given := h.listed l vs given ▸ List.Pairwise.nil
  imports := by simp [h.uses, Table.keys]
  once := by simp [h.uses, Table.keys]
  visibility := c.visibility_known
  backing := c.backing_known

theorem IsNew.sound (h : IsNew v c) : c.Sound :=
  sound_iff.2 ⟨h.fine, fun s e he => by rw [h.members s] at he; cases he⟩

/-- A map of members after a change: one may have come, or all may have been replaced. -/
inductive Filled (r r' : Roster Node) : Prop
  | same : r' = r → Filled r r'
  | placed {c : Node} : c.Sound → r.Placed c.name c r' → Filled r r'
  | renewed {cs : List Node} : (∀ c ∈ cs, c.Sound) → r' = .ofList (cs.map fun c => (c.name, c)) → Filled r r'

namespace Filled

variable {r r' : Roster Node}

theorem keyed (h : Filled r r') (keyed : r.Keyed Node.name) : r'.Keyed Node.name := by
  cases h with
  | same same => exact same ▸ keyed
  | placed _ placed => exact placed.keyed rfl keyed
  | renewed _ all =>
    rw [all]
    refine Roster.keyed_ofList fun e he => ?_
    obtain ⟨c, -, rfl⟩ := List.mem_map.1 he
    rfl

theorem distinct (h : Filled r r') (distinct : r.Distinct) : r'.Distinct := by
  cases h with
  | same same => exact same ▸ distinct
  | placed _ placed => exact placed.distinct distinct
  | renewed _ all => exact all ▸ Roster.distinct_ofList _

theorem sound (h : Filled r r') (sound : ∀ e ∈ r.entries, e.2.Sound) : ∀ e ∈ r'.entries, e.2.Sound := by
  intro e he
  cases h with
  | same same => exact sound e (same ▸ he)
  | placed new placed =>
    obtain old | made := placed.mem he
    · exact sound e old
    · exact made ▸ new
  | renewed new all =>
    rw [all] at he
    obtain ⟨f, hf, same⟩ := List.mem_map.1 (Roster.mem_of_mem_ofList (List.mem_map_of_mem he))
    obtain ⟨c, hc, rfl⟩ := List.mem_map.1 hf
    exact same ▸ new c hc

end Filled

inductive Relisted (l l' : Option (List Value)) : Prop
  | same : l' = l → Relisted l l'
  | added {vs : List Value} {v : Value} : l = some vs → l' = some (Value.insertItem vs v) → Relisted l l'
  | given {items kept : List Value} : l' = some kept → Value.Firsts items kept → Relisted l l'

theorem Relisted.apart {l l' : Option (List Value)} (h : Relisted l l') (apart : ∀ vs, l = some vs → Value.Apart vs)
    (vs : List Value) (listed : l' = some vs) : Value.Apart vs := by
  cases h with
  | same same => exact apart vs (same ▸ listed)
  | added old new =>
    obtain rfl := Option.some.inj (new.symm.trans listed)
    exact Value.apart_insertItem (apart _ old) _
  | given new firsts =>
    obtain rfl := Option.some.inj (new.symm.trans listed)
    exact firsts.apart

inductive Imported (u u' : Table Value) : Prop
  | same : u' = u → Imported u u'
  | added {name : String} {chosen : Value} : Name.relative name ≠ "" → Name.relative name ∉ u.keys →
    u'.entries = u.entries ++ [(Name.relative name, chosen)] → Imported u u'

namespace Imported

variable {u u' : Table Value}

theorem prefix_entries (h : Imported u u') : u.entries <+: u'.entries := by
  cases h with
  | same same => exact same ▸ List.prefix_refl _
  | added _ _ grown => exact grown ▸ List.prefix_append _ _

theorem relative (h : Imported u u') (relative : ∀ k ∈ u.keys, k ≠ "" ∧ k.toList.head? ≠ some Name.separator) :
    ∀ k ∈ u'.keys, k ≠ "" ∧ k.toList.head? ≠ some Name.separator := by
  cases h with
  | same same => exact same ▸ relative
  | @added name _ filled _ grown =>
    rw [Table.keys, grown, List.map_append, List.forall_mem_append]
    exact ⟨relative, List.forall_mem_singleton.2 ⟨filled, Name.head?_relative name⟩⟩

theorem once (h : Imported u u') (once : u.keys.Nodup) : u'.keys.Nodup := by
  cases h with
  | same same => exact same ▸ once
  | added _ new grown =>
    rw [Table.keys, grown, List.map_append, List.map_singleton, ← List.concat_eq_append]
    exact List.Nodup.concat new once

end Imported

structure Grows (t t' : Node) : Prop where
  shelf : t'.shelf? = t.shelf?
  name : t'.name = t.name
  members : ∀ s, Filled (t.members s) (t'.members s)
  listed : ∀ l, Relisted (t.listed? l) (t'.listed? l)
  uses : Imported t.uses t'.uses

theorem Grows.sound (h : Grows t t') (sound : t.Sound) : t'.Sound := by
  obtain ⟨fine, below⟩ := sound_iff.1 sound
  refine sound_iff.2 ⟨?_, fun s => (h.members s).sound (below s)⟩
  exact {
    keyed := fun s => (h.members s).keyed (fine.keyed s)
    distinct := fun s => (h.members s).distinct (fine.distinct s)
    apart := fun l => (h.listed l).apart (fine.apart l)
    imports := h.uses.relative fine.imports
    once := h.uses.once fine.once
    visibility := t'.visibility_known
    backing := t'.backing_known }

theorem Alike.grows {changed : Option Aspect} (alike : Alike changed t t')
    (members : ∀ s, changed = some (.members s) → Filled (t.members s) (t'.members s))
    (listed : ∀ l, changed = some (.listed l) → Relisted (t.listed? l) (t'.listed? l))
    (uses : changed = some .uses → Imported t.uses t'.uses) : Grows t t' where
  shelf := alike.shelf
  name := alike.name
  members s := (em (changed = some (.members s))).elim (members s) fun other => .same (alike.agrees _ other)
  listed l := (em (changed = some (.listed l))).elim (listed l) fun other => .same (alike.agrees _ other)
  uses := (em (changed = some .uses)).elim uses fun other => .same (alike.agrees _ other)

theorem Change.grows (h : Change role t t') : Grows t t' := by
  cases h with
  | there | used => exact ⟨rfl, rfl, fun _ => .same rfl, fun _ => .same rfl, .same rfl⟩
  | own alike | parent _ alike | type _ alike => exact alike.grows (by simp) (by simp) (by simp)
  | visibility _ alike | unset _ alike | backing _ _ alike => exact alike.grows (by simp) (by simp) (by simp)
  | member new _ placed alike =>
    refine alike.grows ?_ (by simp) (by simp)
    rintro _ ⟨⟩
    exact .placed new.sound (new.name.symm ▸ placed)
  | properties new all alike =>
    refine alike.grows ?_ (by simp) (by simp)
    rintro _ ⟨⟩
    exact .renewed (fun c hc => (new c hc).sound) all
  | name old new alike =>
    refine alike.grows (by simp) ?_ (by simp)
    rintro _ ⟨⟩
    exact .added old new
  | names _ _ firsts new alike =>
    refine alike.grows (by simp) ?_ (by simp)
    rintro _ ⟨⟩
    exact .given new firsts
  | use filled new grown alike => exact alike.grows (by simp) (by simp) fun _ => .added filled new grown

section

variable {R : Node → Node → Prop} {hs : List Hop}

theorem Edited.name (h : Edited R hs n n') (step : ∀ t t', R t t' → Grows t t') : n'.name = n.name := by
  cases h with
  | here r => exact (step _ _ r).name
  | inside _ _ _ _ alike _ => exact alike.name

theorem Edited.shelf (h : Edited R hs n n') (step : ∀ t t', R t t' → Grows t t') : n'.shelf? = n.shelf? := by
  cases h with
  | here r => exact (step _ _ r).shelf
  | inside _ _ _ _ alike _ => exact alike.shelf

theorem Edited.uses (h : Edited R hs n n') (step : ∀ t t', R t t' → Grows t t') : Imported n.uses n'.uses := by
  cases h with
  | here r => exact (step _ _ r).uses
  | inside _ _ _ _ alike _ => exact .same (alike.agrees .uses (by simp))

theorem Fine.inside {before after : List (Value × Node)} {c' : Node} (fine : n.Fine)
    (old : (n.members s).entries = before ++ (k, c) :: after)
    (new : (n'.members s).entries = before ++ (k, c') :: after) (alike : Alike (some (.members s)) n n')
    (named : c'.name = c.name) : n'.Fine where
  keyed t := by
    by_cases same : s = t
    · subst same
      have keyed := fine.keyed s
      rw [Roster.Keyed, old, List.forall_mem_append, List.forall_mem_cons] at keyed
      rw [Roster.Keyed, new, List.forall_mem_append, List.forall_mem_cons, named]
      exact keyed
    · exact (alike.agrees (.members t) (by simpa using same)) ▸ fine.keyed t
  distinct t := by
    by_cases same : s = t
    · subst same
      have distinct := fine.distinct s
      rw [Roster.Distinct, Roster.keys, old, List.map_append, List.map_cons] at distinct
      rwa [Roster.Distinct, Roster.keys, new, List.map_append, List.map_cons]
    · exact (alike.agrees (.members t) (by simpa using same)) ▸ fine.distinct t
  apart l vs given := fine.apart l vs (alike.agrees (.listed l) (by simp) ▸ given)
  imports := alike.agrees .uses (by simp) ▸ fine.imports
  once := alike.agrees .uses (by simp) ▸ fine.once
  visibility := n'.visibility_known
  backing := n'.backing_known

theorem Edited.sound (h : Edited R hs n n') (step : ∀ t t', R t t' → Grows t t') (sound : n.Sound) : n'.Sound := by
  induction h with
  | here r => exact (step _ _ r).sound sound
  | @inside n n' c c' _ _ s k l before after _ _ old new others within ih =>
    obtain ⟨fine, below⟩ := sound_iff.1 sound
    have given := below s
    rw [old, List.forall_mem_append, List.forall_mem_cons] at given
    obtain ⟨front, here, back⟩ := given
    refine sound_iff.2 ⟨fine.inside old new others (within.name step), fun t e he => ?_⟩
    by_cases same : s = t
    · subst same
      rw [new, List.mem_append, List.mem_cons] at he
      obtain he | rfl | he := he
      · exact front e he
      · exact ih here
      · exact back e he
    · rw [others.agrees (.members t) (by simpa using same)] at he
      exact below t e he

end

end PhpScaffold.Node
