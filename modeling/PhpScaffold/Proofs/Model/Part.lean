import PhpScaffold.Proofs.Model.Act

/-! The parts of a model.  Every part but the file is a member of a map in the part above it.  A call is made at the
end of a path: it replaces the parts along the path where they stand, and touches nothing else. -/

namespace PhpScaffold

inductive Shelf
  | namespaces
  | elements
  | methods
  | constants
  | properties
  | cases
  | parameters
  deriving DecidableEq

inductive Listing
  | traits
  | interfaces
  | parents
  deriving DecidableEq

theorem Value.eq_of_asKey {v k : Value} (h : v.asKey = .ok k) : k = v := by
  unfold Value.asKey at h
  split at h
  · cases h
  · exact (Except.ok.inj h).symm

theorem Act.eq_ok_of_asKey {σ α : Type} {v : Value} {k : Value → Act σ α} {s s' : σ} {a : α}
    (h : ((ofExcept v.asKey : Act σ Value) >>= k) s = .ok a s') : k v s = .ok a s' := by
  obtain ⟨key, hashed, rest⟩ := ofExcept_bind_eq_ok.1 h
  rwa [Value.eq_of_asKey hashed] at rest

theorem Roster.get?_of_member {α : Type} {r : Roster α} {k : Value} {a : α} (h : r.member k = .ok a) :
    r.get? k = some a := by
  obtain ⟨l, key, found⟩ := Except.bind_eq_ok.1 h
  obtain rfl := Value.eq_of_asKey key
  split at found
  · rename_i b there
    rw [there, Except.ok.inj found]
  · cases found

theorem Roster.get?_map_of_member {α β : Type} {r : Roster α} {k : Value} {f : α → β} {b : β}
    (h : (do return f (← r.member k)) = Except.ok (ε := Fault) b) : (r.map f).get? k = some b := by
  obtain ⟨a, found, made⟩ := Except.bind_eq_ok.1 h
  cases made
  rw [Roster.get?_map, get?_of_member found, Option.map_some]

theorem Element.propertyTable?_of_propertyTable {e : Element} {word : String} {ps : Roster Property}
    (h : e.propertyTable word = .ok ps) : e.form.propertyTable? = some ps := by
  unfold propertyTable at h
  split at h
  · cases h
    assumption
  · cases h

theorem Element.caseTable?_of_caseTable {e : Element} {word : String} {cs : Roster EnumCase}
    (h : e.caseTable word = .ok cs) : e.form.caseTable? = some cs := by
  unfold caseTable at h
  split at h
  · cases h
    assumption
  · cases h

def Hop.place? : Hop → Option (Shelf × Value)
  | scope name => some (.namespaces, name)
  | element name => some (.elements, name)
  | method name => some (.methods, name)
  | property name => some (.properties, name)
  | constant name => some (.constants, name)
  | enumCase name => some (.cases, name)
  | parameter name => some (.parameters, name)
  | unknown _ => none

namespace Node

def name : Node → Value
  | file _ => .null
  | scope ns => ns.name
  | element e => e.name
  | method m => m.name
  | property p => p.name
  | constant c => c.name
  | enumCase c => c.name
  | parameter p => p.name

def shelf? : Node → Option Shelf
  | file _ => none
  | scope _ => some .namespaces
  | element _ => some .elements
  | method _ => some .methods
  | property _ => some .properties
  | constant _ => some .constants
  | enumCase _ => some .cases
  | parameter _ => some .parameters

def members : Node → Shelf → Roster Node
  | file f, .namespaces => f.namespaces.map scope
  | scope ns, .elements => ns.elements.map element
  | element e, .methods => e.methods.map method
  | element e, .constants => e.constants.map constant
  | element e, .properties => (e.form.propertyTable?.getD {}).map property
  | element e, .cases => (e.form.caseTable?.getD {}).map enumCase
  | method m, .parameters => m.parameters.map parameter
  | _, _ => {}

def listed? : Node → Listing → Option (List Value)
  | element e, l => match e.form, l with
    | .cls _ _ ts .., .traits | .trait ts _, .traits | .enum _ _ ts _, .traits => some ts
    | .cls _ is .., .interfaces | .enum _ is .., .interfaces => some is
    | .interface ps, .parents => some ps
    | _, _ => none
  | _, _ => none

def uses : Node → Table Value
  | scope ns => ns.uses
  | _ => {}

def visibility? : Node → Option Value
  | method m => some (m.visibility.elim .null fun v => .text v.keyword)
  | constant c => some (c.visibility.elim .null fun v => .text v.keyword)
  | property p => some (.text p.visibility.keyword)
  | parameter p => p.promotion.map fun q => .text q.visibility.keyword
  | _ => none

def backing? : Node → Option Value
  | element e => match e.form with
    | .enum b .. => some (b.elim .null fun b => .text b.keyword)
    | _ => none
  | _ => none

inductive Part : Node → Node → Prop
  | self (n : Node) : Part n n
  | member {n c t : Node} {s : Shelf} {k : Value} : (k, c) ∈ (n.members s).entries → Part c t → Part n t

/-- What calls change of a part, apart from what only that part is about. -/
inductive Aspect
  | members (s : Shelf)
  | listed (l : Listing)
  | uses
  | visibility
  | backing

def Aspect.Agrees (n n' : Node) : Aspect → Prop
  | members s => n'.members s = n.members s
  | listed l => n'.listed? l = n.listed? l
  | uses => n'.uses = n.uses
  | visibility => n'.visibility? = n.visibility?
  | backing => n'.backing? = n.backing?

/-- The same part, save for one aspect at most. -/
structure Alike (changed : Option Aspect) (n n' : Node) : Prop where
  shelf : n'.shelf? = n.shelf?
  name : n'.name = n.name
  agrees : ∀ a, changed ≠ some a → a.Agrees n n'

variable {n n' c c' t : Node} {h : Hop} {s : Shelf} {k : Value}

theorem shelf?_of_mem (there : (k, c) ∈ (n.members s).entries) : c.shelf? = some s := by
  cases n <;> cases s <;> first | cases there | skip
  all_goals
    obtain ⟨_, -, same⟩ := List.mem_map.1 there
    cases same
    rfl

theorem shelf?_of_get? (found : (n.members s).get? k = some c) : c.shelf? = some s := by
  obtain ⟨before, l, after, whole, -⟩ := Roster.exists_of_get? found
  refine shelf?_of_mem (n := n) (k := l) ?_
  rw [whole]
  exact List.mem_append_right before List.mem_cons_self

theorem get?_of_child (found : n.child h = .ok c) :
    ∃ s k, h.place? = some (s, k) ∧ (n.members s).get? k = some c := by
  cases n <;> cases h <;> first | cases found | skip
  case file.scope | scope.element | element.constant | method.parameter =>
    exact ⟨_, _, rfl, Roster.get?_map_of_member found⟩
  case element.method e name =>
    obtain ⟨m, there, made⟩ := Except.bind_eq_ok.1 found
    obtain ⟨key, hashed, looked⟩ := Except.bind_eq_ok.1 there
    obtain rfl := Value.eq_of_asKey hashed
    split at looked
    · rename_i m' stored
      cases looked
      cases made
      exact ⟨_, _, rfl, by simp [members, stored]⟩
    · cases looked
  case element.property e name =>
    obtain ⟨ps, table, there⟩ := Except.bind_eq_ok.1 found
    refine ⟨_, _, rfl, ?_⟩
    rw [members, Element.propertyTable?_of_propertyTable table]
    exact Roster.get?_map_of_member there
  case element.enumCase e name =>
    obtain ⟨cs, table, there⟩ := Except.bind_eq_ok.1 found
    refine ⟨_, _, rfl, ?_⟩
    rw [members, Element.caseTable?_of_caseTable table]
    exact Roster.get?_map_of_member there

theorem members_put (found : n.child h = .ok c) (alike : c'.shelf? = c.shelf?) :
    ∃ s k, h.place? = some (s, k) ∧ (n.members s).get? k = some c ∧
      (n.put h c').members s = (n.members s).insert k c' ∧ Alike (some (.members s)) n (n.put h c') := by
  obtain ⟨s, k, place, there⟩ := get?_of_child found
  have shelf := alike.trans (shelf?_of_get? there)
  refine ⟨s, k, place, there, ?_⟩
  cases n <;> cases h <;> first | cases found | cases place
  all_goals
    cases c' <;> try cases shelf
  case file.scope | scope.element | element.method | element.constant | method.parameter =>
    refine ⟨by simp [put, members], rfl, rfl, fun a other => ?_⟩
    rcases a with (_ | _ | _ | _ | _ | _ | _) | _ | _ | _ | _ <;> first | rfl | exact absurd rfl other
  case element.property =>
    rename_i e p
    obtain ⟨ps, table, -⟩ := Except.bind_eq_ok.1 found
    have has := Element.propertyTable?_of_propertyTable table
    obtain ⟨name, notes, constants, methods, form⟩ := e
    cases form <;> cases has
    all_goals
      refine ⟨by simp [put, members, Form.propertyTable?, Form.withProperties], rfl, rfl, fun a other => ?_⟩
      rcases a with (_ | _ | _ | _ | _ | _ | _) | (_ | _ | _) | _ | _ | _ <;> first | rfl | exact absurd rfl other
  case element.enumCase =>
    rename_i e c
    obtain ⟨cs, table, -⟩ := Except.bind_eq_ok.1 found
    have has := Element.caseTable?_of_caseTable table
    obtain ⟨name, notes, constants, methods, form⟩ := e
    cases form <;> cases has
    refine ⟨by simp [put, members, Form.caseTable?, Form.withCases], rfl, rfl, fun a other => ?_⟩
    rcases a with (_ | _ | _ | _ | _ | _ | _) | (_ | _ | _) | _ | _ | _ <;> first | rfl | exact absurd rfl other

/-- A part is put back where it was found. -/
theorem put_child (found : n.child h = .ok c) : n.put h c = n := by
  cases n <;> cases h <;> first | cases found | skip
  case file.scope | scope.element | element.constant | method.parameter =>
    obtain ⟨m, there, made⟩ := Except.bind_eq_ok.1 found
    cases made
    simp [put, Roster.insert_of_get? (Roster.get?_of_member there)]
  case element.method e name =>
    obtain ⟨m, there, made⟩ := Except.bind_eq_ok.1 found
    obtain ⟨key, hashed, looked⟩ := Except.bind_eq_ok.1 there
    obtain rfl := Value.eq_of_asKey hashed
    split at looked
    · rename_i stored
      cases looked
      cases made
      simp [put, Roster.insert_of_get? stored]
    · cases looked
  case element.property e name =>
    obtain ⟨ps, table, rest⟩ := Except.bind_eq_ok.1 found
    obtain ⟨p, there, made⟩ := Except.bind_eq_ok.1 rest
    cases made
    have has := Element.propertyTable?_of_propertyTable table
    obtain ⟨name, notes, constants, methods, form⟩ := e
    cases form <;> cases has
    all_goals simp [put, Form.propertyTable?, Form.withProperties, Roster.insert_of_get? (Roster.get?_of_member there)]
  case element.enumCase e name =>
    obtain ⟨cs, table, rest⟩ := Except.bind_eq_ok.1 found
    obtain ⟨p, there, made⟩ := Except.bind_eq_ok.1 rest
    cases made
    have has := Element.caseTable?_of_caseTable table
    obtain ⟨name, notes, constants, methods, form⟩ := e
    cases form <;> cases has
    simp [put, Form.caseTable?, Form.withCases, Roster.insert_of_get? (Roster.get?_of_member there)]

def follow (n : Node) (hops : List Hop) : Except Fault Node := hops.foldlM child n

def Performs (word : String) (arguments : List Value) (t t' : Node) : Prop :=
  ∃ call reply, t.read word arguments = .ok call ∧ perform word call t = .ok reply t'

/-- The parts along a path are replaced where they stand, the last one by what `R` allows. -/
inductive Edited (R : Node → Node → Prop) : List Hop → Node → Node → Prop
  | here {t t' : Node} : R t t' → Edited R [] t t'
  | inside {n n' c c' : Node} {h : Hop} {hs : List Hop} {s : Shelf} {k l : Value} {before after : List (Value × Node)} :
    h.place? = some (s, k) → Value.same l k → (n.members s).entries = before ++ (l, c) :: after →
    (n'.members s).entries = before ++ (l, c') :: after → Alike (some (.members s)) n n' → Edited R hs c c' →
    Edited R (h :: hs) n n'

variable {R Q : Node → Node → Prop} {hs : List Hop} {word : String} {arguments : List Value} {done : Result}

theorem Edited.mono (h : Edited R hs n n') (step : ∀ t t', R t t' → Q t t') : Edited Q hs n n' := by
  induction h with
  | here r => exact .here (step _ _ r)
  | inside place same old new alike _ ih => exact .inside place same old new alike ih

theorem shelf?_of_perform {call : Call} {reply : Reply} (h : perform word call n = .ok reply n') :
    n'.shelf? = n.shelf? := by
  cases n with
  | _ =>
    obtain ⟨_, -, rfl⟩ := Act.on_eq_ok.1 h
    rfl

theorem edited_of_edit {x : Node × Reply} (h : edit word arguments hs n = .ok x n') :
    Edited (Performs word arguments) hs n n' ∧ n'.shelf? = n.shelf? := by
  induction hs generalizing n n' x with
  | nil =>
    obtain ⟨reply, t, answered, made⟩ := Act.bind_eq_ok.1 h
    obtain ⟨call, read, performed⟩ := Act.ofExcept_bind_eq_ok.1 answered
    cases made
    exact ⟨.here ⟨call, reply, read, performed⟩, shelf?_of_perform performed⟩
  | cons hop hs ih =>
    simp only [edit] at h
    split at h
    · rename_i c found
      obtain ⟨c', edited, rfl⟩ := Act.on_eq_ok.1 h
      obtain ⟨within, shelf⟩ := ih edited
      obtain ⟨s, k, place, there, put, alike⟩ := members_put found shelf
      obtain ⟨before, l, after, whole, same, replaced⟩ := Roster.exists_of_get? there
      refine ⟨.inside place same whole ?_ alike within, alike.shelf⟩
      rw [put, replaced]
    · cases h

/-- Nor is anything changed on the way to a part that a call fails on. -/
theorem failsFirst_edit : (edit word arguments hs).FailsFirst := by
  induction hs with
  | nil => exact .bind failsFirst_ask fun reply n => ⟨(n, reply), n, rfl⟩
  | cons hop hs ih =>
    intro n f n' failed
    simp only [edit] at failed
    split at failed
    · rename_i c found
      obtain ⟨c', broken, rfl⟩ := Act.on_eq_error.1 failed
      rw [ih _ _ _ broken, put_child found]
    · cases failed
      rfl

theorem edit_eq_error {f : Fault} (found : n.follow hs = .ok t) (failed : ask word arguments t = .error f t) :
    edit word arguments hs n = .error f n := by
  induction hs generalizing n with
  | nil =>
    cases found
    exact Act.bind_error failed
  | cons hop hs ih =>
    rw [follow, List.foldlM_cons] at found
    obtain ⟨c, there, found⟩ := Except.bind_eq_ok.1 found
    simp only [edit, there]
    exact Act.on_eq_error.2 ⟨c, ih found, (put_child there).symm⟩

theorem edit_eq_error_of_follow {f : Fault} (lost : n.follow hs = .error f) :
    edit word arguments hs n = .error f n := by
  induction hs generalizing n with
  | nil => cases lost
  | cons hop hs ih =>
    rw [follow, List.foldlM_cons] at lost
    obtain missing | ⟨c, there, lost⟩ := Except.bind_eq_error.1 lost
    · simp only [edit, missing]
    · simp only [edit, there]
      exact Act.on_eq_error.2 ⟨c, ih lost, (put_child there).symm⟩

theorem follow_eq_error {before : List Hop} (after : List Hop) (found : n.follow before = .ok t)
    (place : h.place? = some (s, k)) (missing : (t.members s).contains k = false) :
    ∃ f, n.follow (before ++ h :: after) = .error f := by
  cases child : t.child h with
  | ok c =>
    obtain ⟨s', k', place', there⟩ := get?_of_child child
    cases place.symm.trans place'
    obtain ⟨front, l, back, whole, same, -⟩ := Roster.exists_of_get? there
    have other := Roster.contains_eq_false missing (l, c) (by simp [whole])
    exact absurd same other
  | error f =>
    refine ⟨f, ?_⟩
    rw [follow] at found ⊢
    rw [List.foldlM_append, found, Except.ok_bind, List.foldlM_cons, child, Except.error_bind]

end Node

end PhpScaffold
