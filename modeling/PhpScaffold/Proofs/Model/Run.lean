import PhpScaffold.Proofs.Model.Invariant
import Mathlib.Logic.Relation

namespace PhpScaffold.Node

variable {n n' t t' : Node} {role : Role} {s : Shelf} {k : Value}

def Called (word : String) (arguments : List Value) (t t' : Node) : Prop :=
  ∃ call, t.read word arguments = .ok call ∧ Change call.role t t'

theorem step_of_edit {st : Step} {f : Fault} (h : edit st.word st.arguments st.path n = .error f n) :
    n.step st = .error f := by
  rw [step, h]

theorem next_of_step {st : Step} {done : Result} (h : n.step st = .ok done) : n.next st = done.root := by
  rw [next, step_eq_ok.1 h]

theorem next_of_error {st : Step} {f : Fault} (h : n.step st = .error f) : n.next st = n := by
  unfold step at h
  unfold next
  cases edited : edit st.word st.arguments st.path n with
  | ok _ root =>
    rw [edited] at h
    cases h
  | error g root => exact failsFirst_edit _ _ _ edited

/-- What comes of a step is what its call makes of the part at the end of its path. -/
theorem called_of_step {st : Step} {done : Result} (h : n.step st = .ok done) :
    Edited (Called st.word st.arguments) st.path n done.root := by
  refine (edited_of_edit (step_eq_ok.1 h)).1.mono ?_
  rintro t t' ⟨call, reply, read, performed⟩
  exact ⟨call, read, change_of_perform performed⟩

theorem Called.grows {word : String} {arguments : List Value} (h : Called word arguments t t') : Grows t t' := by
  obtain ⟨call, -, change⟩ := h
  exact change.grows

inductive Adopts (e : Element) : Node → Node → Prop
  | scope (ns : Namespace) : Adopts e (scope ns) (scope (ns.addElement e))

inductive Assigns (ps : List Property) : Node → Node → Prop
  | element {e : Element} : e.form.propertyTable?.isSome → Assigns ps (element e)
    (element { e with form := e.form.withProperties (.ofList (ps.map fun p => (p.name, p))) })

mutual

/-- What is made from nothing by calls. -/
inductive Made : Node → Prop
  | file : Made (file {})
  | element (kind : Kind) (name : Value) : Made (element (.bare kind name))
  | property (name : Value) : Made (property { name })
  | move {n n' : Node} : Made n → Move n n' → Made n'

/-- One call, which may fail, or which takes in what was made by itself. -/
inductive Move : Node → Node → Prop
  | step (n : Node) (st : Step) : Move n (n.next st)
  | addElement {n n' : Node} {hs : List Hop} {e : Element} : Made (element e) → Edited (Adopts e) hs n n' → Move n n'
  | setProperties {n n' : Node} {hs : List Hop} {ps : List Property} : (∀ p ∈ ps, Made (property p)) →
    Edited (Assigns ps) hs n n' → Move n n'

end

theorem alike_addElement (ns : Namespace) (e : Element) :
    Alike (some (.members .elements)) (scope ns) (scope (ns.addElement e)) :=
  Namespace.alike rfl (.inl rfl) (.inr rfl)

theorem Adopts.grows {e : Element} (made : (element e).Sound) (h : Adopts e t t') : Grows t t' := by
  cases h with
  | scope ns =>
    refine (alike_addElement ns e).grows ?_ (by simp) (by simp)
    rintro _ ⟨⟩
    refine .placed made ?_
    show (ns.elements.map element).Placed e.name (element e) ((ns.elements.insert e.name e).map element)
    rw [Roster.map_insert]
    exact Roster.placed_insert _ _ _

theorem Assigns.grows {ps : List Property} (made : ∀ p ∈ ps, (property p).Sound) (h : Assigns ps t t') :
    Grows t t' := by
  cases h with
  | @element e has =>
    obtain ⟨qs, has⟩ := Option.isSome_iff_exists.1 has
    refine (e.alike_withProperties _).grows ?_ (by simp) (by simp)
    rintro _ ⟨⟩
    refine @Filled.renewed _ _ (ps.map property) ?_ ?_
    · simpa using made
    · rw [Element.members_withProperties has, Roster.map_ofList, List.map_map, List.map_map]
      rfl

theorem next_sound (st : Step) (sound : n.Sound) : (n.next st).Sound := by
  cases stepped : n.step st with
  | ok done =>
    rw [next_of_step stepped]
    exact (called_of_step stepped).sound (fun _ _ => Called.grows) sound
  | error f => rwa [next_of_error stepped]

theorem sound_empty : (file {}).Sound :=
  IsNew.sound (v := .null) ⟨rfl, fun s => by cases s <;> rfl, fun l vs h => (by cases h), rfl⟩

mutual

theorem Made.sound {n : Node} : Made n → n.Sound
  | .file => sound_empty
  | .element kind name => (Element.isNew kind name).sound
  | .property name => (Property.isNew { name }).sound
  | .move made moved => moved.sound made.sound

theorem Move.sound {n n' : Node} : Move n n' → n.Sound → n'.Sound
  | .step n st => next_sound st
  | .addElement made edited => edited.sound fun _ _ => Adopts.grows made.sound
  | .setProperties made edited => edited.sound fun _ _ => Assigns.grows fun p hp => (made p hp).sound

end

def Imports (n n' : Node) : Prop :=
  ∀ k ns, (k, scope ns) ∈ (n.members .namespaces).entries →
    ∃ ns', (k, scope ns') ∈ (n'.members .namespaces).entries ∧ ns.uses.entries <+: ns'.uses.entries

theorem imports_self (n : Node) : n.Imports n := fun _ ns there => ⟨ns, there, List.prefix_refl _⟩

theorem Imports.trans {m : Node} (h : n.Imports n') (h' : n'.Imports m) : n.Imports m := by
  intro k ns there
  obtain ⟨ns', there, kept⟩ := h k ns there
  obtain ⟨ns'', there, kept'⟩ := h' k ns' there
  exact ⟨ns'', there, kept.trans kept'⟩

theorem Imports.of_entries {later : List (Value × Node)}
    (h : (n'.members .namespaces).entries = (n.members .namespaces).entries ++ later) : n.Imports n' :=
  fun _ ns there => ⟨ns, h ▸ List.mem_append_left later there, List.prefix_refl _⟩

theorem Change.imports (h : Change role t t') : t.Imports t' := by
  have same (h : t'.members .namespaces = t.members .namespaces) : t.Imports t' :=
    @Imports.of_entries _ _ [] (by rw [h, List.append_nil])
  cases h with
  | there | used => exact t.imports_self
  | @member _ _ c s name new closed placed alike =>
    by_cases here : s = .namespaces
    · subst here
      cases placed with
      | replaced like old _ =>
        have other := Roster.contains_eq_false (closed rfl) _ (old ▸ List.mem_append_right _ List.mem_cons_self)
        exact absurd like other
      | last _ grown => exact .of_entries grown
    · exact same (alike.agrees (.members .namespaces) (by simpa using here))
  | own alike | properties _ _ alike | name _ _ alike | names _ _ _ _ alike | parent _ alike | visibility _ alike
  | unset _ alike | type _ alike | backing _ _ alike | use _ _ _ alike =>
    exact same (alike.agrees (.members .namespaces) (by simp))

theorem exists_scope_of_shelf? (h : n.shelf? = some .namespaces) : ∃ ns, n = scope ns := by
  cases n <;> first | exact ⟨_, rfl⟩ | cases h

theorem Edited.imports {R : Node → Node → Prop} {hs : List Hop} (h : Edited R hs n n')
    (step : ∀ t t', R t t' → Grows t t') (here : ∀ t t', R t t' → t.Imports t') : n.Imports n' := by
  cases h with
  | here r => exact here _ _ r
  | @inside _ _ c c' _ hs s _ l before after _ _ old new alike within =>
    by_cases here : s = .namespaces
    · subst here
      intro k ns there
      rw [old, List.mem_append, List.mem_cons] at there
      rw [new]
      obtain there | same | there := there
      · exact ⟨ns, List.mem_append_left _ there, List.prefix_refl _⟩
      · cases same
        obtain ⟨ns', rfl⟩ := exists_scope_of_shelf? (within.shelf step)
        exact ⟨ns', by simp, (within.uses step).prefix_entries⟩
      · exact ⟨ns, by simp [there], List.prefix_refl _⟩
    · refine @Imports.of_entries _ _ [] ?_
      rw [alike.agrees (.members .namespaces) (by simpa using here), List.append_nil]

theorem Called.imports {word : String} {arguments : List Value} (h : Called word arguments t t') : t.Imports t' := by
  obtain ⟨call, -, change⟩ := h
  exact change.imports

theorem imports_next (n : Node) (st : Step) : n.Imports (n.next st) := by
  cases stepped : n.step st with
  | ok done =>
    rw [next_of_step stepped]
    exact (called_of_step stepped).imports (fun _ _ => Called.grows) fun _ _ => Called.imports
  | error f =>
    rw [next_of_error stepped]
    exact n.imports_self

theorem Move.imports (h : Move n n') : n.Imports n' := by
  cases h with
  | step n st => exact n.imports_next st
  | addElement made edited =>
    refine edited.imports (fun _ _ => Adopts.grows made.sound) ?_
    rintro _ _ ⟨ns⟩ k inner there
    cases there
  | setProperties made edited =>
    refine edited.imports (fun _ _ => Assigns.grows fun p hp => (made p hp).sound) ?_
    rintro _ _ ⟨has⟩ k inner there
    cases there

theorem imports_of_moves (h : Relation.ReflTransGen Move n n') : n.Imports n' := by
  induction h with
  | refl => exact n.imports_self
  | tail _ moved ih => exact ih.trans moved.imports

/-- What a step can be refused for, besides arguments that cannot be taken at all. -/
inductive Refuses (n : Node) (st : Step) : Fault → Prop
  | path {f : Fault} : n.follow st.path = .error f → Refuses n st f
  | word {t : Node} : n.follow st.path = .ok t → (∀ o ∈ t.operations, o.word ≠ st.word) →
    Refuses n st (.noOperation t.typeName st.word)
  | method {e : Element} {name : Value} : n.follow st.path = .ok (element e) →
    (element e).read st.word st.arguments = .ok (.method name) → name.unhashable? = none →
    e.methods.contains name = false → Refuses n st (.noMethod name.display e.name.display)
  | property {e : Element} {ps : Roster Property} {name : Value} : n.follow st.path = .ok (element e) →
    (element e).read st.word st.arguments = .ok (.property name) → e.form.propertyTable? = some ps →
    name.unhashable? = none → ps.contains name = false → Refuses n st (.noMember name)
  | visibility {t : Node} {v : Value} : n.follow st.path = .ok t →
    t.read st.word st.arguments = .ok (.setVisibility v) → t.visibility?.isSome → v ≠ .null →
    (∀ w : Visibility, v ≠ .text w.keyword) → Refuses n st (.visibility v.display)
  | backing {t : Node} {v : Value} : n.follow st.path = .ok t → t.read st.word st.arguments = .ok (.setType v) →
    t.backing?.isSome → v ≠ .null → (∀ b : Backing, v ≠ .text b.keyword) → Refuses n st (.backing v.display)

theorem read_visibility_eq_error {v : Value} (set : v ≠ .null) (unknown : ∀ w : Visibility, v ≠ .text w.keyword) :
    Visibility.read v = .error (.visibility v.display) := by
  cases read : Visibility.read v with
  | ok w? =>
    obtain ⟨null, -⟩ | ⟨w, known, -⟩ := Visibility.read_cases read
    · exact absurd null set
    · exact absurd known (unknown w)
  | error f =>
    unfold Visibility.read at read
    split at read
    · cases read
    · split at read <;> cases read
      rfl

theorem read_backing_eq_error {v : Value} (set : v ≠ .null) (unknown : ∀ b : Backing, v ≠ .text b.keyword) :
    Backing.read v = .error (.backing v.display) := by
  unfold Backing.read
  split
  · exact absurd rfl set
  · exact absurd rfl (unknown .int)
  · exact absurd rfl (unknown .string)
  · rfl

theorem perform_visibility_eq_error {word : String} {v : Value} (seen : t.visibility?.isSome) (set : v ≠ .null)
    (unknown : ∀ w : Visibility, v ≠ .text w.keyword) :
    perform word (.setVisibility v) t = .error (.visibility v.display) t := by
  have refused := read_visibility_eq_error set unknown
  cases t with
  | method m => exact Act.on_eq_error.2 ⟨m, Act.ofExcept_bind_error refused, rfl⟩
  | property p => exact Act.on_eq_error.2 ⟨p, Act.ofExcept_bind_error refused, rfl⟩
  | constant c => exact Act.on_eq_error.2 ⟨c, Act.ofExcept_bind_error refused, rfl⟩
  | parameter p =>
    obtain ⟨q, promoted⟩ : ∃ q, p.promotion = some q := by simpa [visibility?, Option.isSome_iff_exists] using seen
    cases p
    cases promoted
    exact Act.on_eq_error.2 ⟨_, Act.ofExcept_bind_error refused, rfl⟩
  | _ => cases seen

theorem perform_type_eq_error {word : String} {v : Value} (backed : t.backing?.isSome) (set : v ≠ .null)
    (unknown : ∀ b : Backing, v ≠ .text b.keyword) :
    perform word (.setType v) t = .error (.backing v.display) t := by
  have refused := read_backing_eq_error set unknown
  cases t with
  | element e =>
    obtain ⟨name, notes, constants, methods, form⟩ := e
    cases form with
    | enum b =>
      refine Act.on_eq_error.2 ⟨_, ?_, rfl⟩
      exact Act.on_eq_error.2 ⟨_, Act.ofExcept_bind_error refused, rfl⟩
    | _ => cases backed
  | _ => cases backed

theorem perform_element_of_none {e : Element} {word : String} {call : Call} (own : Annotations.perform? call = none)
    (known : e.form.perform? call = none) : Element.perform word call e = Element.performOnParts word call e := by
  rw [Element.perform, Act.get_bind, own, known]

theorem step_eq_error {st : Step} {f : Fault} (h : n.Refuses st f) : n.step st = .error f := by
  refine step_of_edit ?_
  cases h with
  | path lost => exact edit_eq_error_of_follow lost
  | @word t found unknown =>
    refine edit_eq_error found (ask_of_unread ?_)
    have unread : t.operations.find? (·.word = st.word) = none := by simpa using unknown
    rw [read, unread]
    rfl
  | @method e name found read hashable missing =>
    refine edit_eq_error found ((ask_of_read read).trans ?_)
    have looked : e.method name = .error (.noMethod name.display e.name.display) := by
      simp [Element.method, Value.asKey, hashable, Roster.get?_of_not_contains missing]
    have direct : e.form.perform? (.method name) = none := by cases e.form <;> rfl
    exact Act.on_eq_error.2 ⟨e, (perform_element_of_none rfl direct).trans (Act.ofExcept_bind_error looked), rfl⟩
  | @property e ps name found read has hashable missing =>
    refine edit_eq_error found ((ask_of_read read).trans ?_)
    have direct : e.form.perform? (.property name) = none := by cases e.form <;> rfl
    have looked : ps.member name = .error (.noMember name) := by
      simp [Roster.member, Value.asKey, hashable, Roster.get?_of_not_contains missing]
    have table : e.propertyTable st.word = .ok ps := by
      rw [Element.propertyTable, has]
      rfl
    refine Act.on_eq_error.2 ⟨e, (perform_element_of_none rfl direct).trans ?_, rfl⟩
    exact (Act.ofExcept_bind_ok table).trans (Act.ofExcept_bind_error looked)
  | visibility found read seen set unknown =>
    exact edit_eq_error found ((ask_of_read read).trans (perform_visibility_eq_error seen set unknown))
  | backing found read backed set unknown =>
    exact edit_eq_error found ((ask_of_read read).trans (perform_type_eq_error backed set unknown))

theorem step_namespace {st : Step} {name : Value} {ns : Namespace} (path : st.path = [])
    (read : n.read st.word st.arguments = .ok (.addNamespace name)) (hashable : name.unhashable? = none)
    (there : (n.members .namespaces).get? name = some (scope ns)) : n.step st = .ok ⟨n, n, .ref ns.ref⟩ := by
  cases n with
  | file f =>
    obtain ⟨ns', found, same⟩ : ∃ ns', f.namespaces.get? name = some ns' ∧ scope ns' = scope ns := by
      simpa [members] using there
    cases same
    have kept : f.addNamespace name = f := by
      simp [SourceFile.addNamespace, Roster.contains_of_get? found]
    have key : name.asKey = .ok name := by simp [Value.asKey, hashable]
    have performed : SourceFile.perform st.word (.addNamespace name) f = .ok (.ref ns.ref) f := by
      refine (Act.ofExcept_bind_ok key).trans ?_
      show (EStateM.Result.ok (.ref (((f.addNamespace name).namespaces.get? name).getD { name }).ref) (f.addNamespace name) :
        EStateM.Result Fault SourceFile Reply) = _
      rw [kept, found, Option.getD_some]
    have asked : ask st.word st.arguments (file f) = .ok (.ref ns.ref) (file f) :=
      (ask_of_read read).trans (Act.on_eq_ok.2 ⟨f, performed, rfl⟩)
    have edited : edit st.word st.arguments st.path (file f) = .ok (file f, .ref ns.ref) (file f) := by
      rw [path]
      exact Act.bind_eq_ok.2 ⟨_, _, asked, rfl⟩
    rw [step, edited]
  | _ => cases there

/-- What is made by calls is in order: each member of each map stands under its own name and no two under the same, no
name is twice in a list, and visibilities, types of enums and imports are as they may be.  A call changes the parts
along its path where they stand and the last one as its role says; a namespace that is there already is answered.
Imports keep their aliases from then on.  A call that fails changes nothing; one with an unknown word, keyword or type,
or that asks for what is not there, fails. -/
theorem made_invariants (made : Made n) (st : Step) :
    n.Sound ∧
    (∀ done, n.step st = .ok done →
      n.next st = done.root ∧ Edited (Called st.word st.arguments) st.path n done.root) ∧
    (∀ name ns, st.path = [] → n.read st.word st.arguments = .ok (.addNamespace name) → name.unhashable? = none →
      (n.members .namespaces).get? name = some (scope ns) → n.step st = .ok ⟨n, n, .ref ns.ref⟩) ∧
    (∀ n', Relation.ReflTransGen Move n n' → n.Imports n') ∧
    (∀ fault, n.step st = .error fault → n.next st = n) ∧
    (∀ fault, n.Refuses st fault → n.step st = .error fault) ∧
    (∀ before h rest t s k, st.path = before ++ h :: rest → n.follow before = .ok t → h.place? = some (s, k) →
      (t.members s).contains k = false → ∃ fault, n.step st = .error fault) := by
  refine ⟨made.sound, fun done stepped => ⟨next_of_step stepped, called_of_step stepped⟩, fun name ns => step_namespace,
    fun n' => imports_of_moves, fun fault => next_of_error, fun fault => step_eq_error, ?_⟩
  intro before h rest t s k path found place missing
  obtain ⟨fault, lost⟩ := follow_eq_error rest found place missing
  exact ⟨fault, step_of_edit (edit_eq_error_of_follow (path ▸ lost))⟩

def opening : Step := { word := "add_namespace", arguments := ["App"] }

def shop : Node := ((file {}).next opening).next
  { path := [.scope "App"], word := "add_class", arguments := ["Shop"] }

def veiling : Step where
  path := [.scope "App", .element "Shop", .method "sell"]
  word := "set_visibility"
  arguments := ["hidden"]

def selling : Node := shop.next { path := [.scope "App", .element "Shop"], word := "add_method", arguments := ["sell"] }

theorem made_selling : Made selling := .move (.move (.move .file (.step _ _)) (.step _ _)) (.step _ _)

theorem made_invariants_selling : Made selling ∧ selling.Sound ∧ selling.step veiling = .error (.visibility "hidden") ∧
    selling.next veiling = selling ∧
    ∃ ns : Namespace, ns.name = .text "App" ∧ selling.step opening = .ok ⟨selling, selling, .ref ns.ref⟩ := by
  obtain ⟨sound, -, -, -, unchanged, refuses, -⟩ := made_invariants made_selling veiling
  obtain ⟨-, -, answers, -⟩ := made_invariants made_selling opening
  have method : selling.follow veiling.path = .ok (.method { name := "sell" }) := by with_unfolding_all rfl
  have refused : selling.step veiling = .error (.visibility "hidden") := by
    refine refuses _ (.visibility (v := "hidden") method (by rfl) rfl (by simp) fun w => ?_)
    cases w <;> simp [Visibility.keyword]
  obtain ⟨ns, there, named⟩ : ∃ ns : Namespace,
      (selling.members .namespaces).get? (.text "App") = some (scope ns) ∧ ns.name = .text "App" :=
    ⟨_, by with_unfolding_all rfl, by with_unfolding_all rfl⟩
  have read : selling.read opening.word opening.arguments = .ok (.addNamespace "App") := by with_unfolding_all rfl
  exact ⟨made_selling, sound, refused, unchanged _ refused, ns, named, answers "App" ns rfl read (by rfl) there⟩

end PhpScaffold.Node
