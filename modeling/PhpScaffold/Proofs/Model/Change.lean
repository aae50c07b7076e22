import PhpScaffold.Proofs.Model.Part
import PhpScaffold.Proofs.Name

namespace PhpScaffold

inductive Role
  | member (s : Shelf) (name : Value)
  | properties (pairs : Value)
  | name (l : Listing) (v : Value)
  | names (l : Listing) (vs : Value)
  | visibility (keyword : Value)
  | type (v : Value)
  | use (name aliasName : Value)
  | own

def Call.role : Call → Role
  | addNamespace name => .member .namespaces name
  | addElement _ name => .member .elements name
  | addMethod name => .member .methods name
  | addConstant name _ => .member .constants name
  | addProperty name _ => .member .properties name
  | addCase name _ => .member .cases name
  | addParameter name _ | addPromoted name _ => .member .parameters name
  | setProperties pairs => .properties pairs
  | addTrait v => .name .traits v
  | addInterface v => .name .interfaces v
  | addParent v => .name .parents v
  | setInterfaces vs => .names .interfaces vs
  | setParents vs => .names .parents vs
  | setVisibility keyword => .visibility keyword
  | markVisibility v => .visibility (.text v.keyword)
  | setType v => .type v
  | addUse name aliasName => .use name aliasName
  | _ => .own

namespace Node

structure IsNew (name : Value) (c : Node) : Prop where
  name : c.name = name
  members : ∀ s, c.members s = {}
  listed : ∀ l vs, c.listed? l = some vs → vs = []
  uses : c.uses = {}

inductive Change : Role → Node → Node → Prop
  | own {t t' : Node} : Alike none t t' → Change .own t t'
  | member {t t' c : Node} {s : Shelf} {name : Value} : c.IsNew name →
    (s = .namespaces → (t.members s).contains name = false) → (t.members s).Placed name c (t'.members s) →
    Alike (some (.members s)) t t' → Change (.member s name) t t'
  | there {t : Node} {name : Value} : (t.members .namespaces).contains name → Change (.member .namespaces name) t t
  | properties {t t' : Node} {cs : List Node} {pairs : Value} : (∀ c ∈ cs, c.IsNew c.name) →
    t'.members .properties = .ofList (cs.map fun c => (c.name, c)) → Alike (some (.members .properties)) t t' →
    Change (.properties pairs) t t'
  | name {t t' : Node} {l : Listing} {v : Value} {vs : List Value} : t.listed? l = some vs →
    t'.listed? l = some (Value.insertItem vs v) → Alike (some (.listed l)) t t' → Change (.name l v) t t'
  | names {t t' : Node} {l : Listing} {v : Value} {vs items kept : List Value} : t.listed? l = some vs →
    v.items? = some items → Value.Firsts items kept → t'.listed? l = some kept → Alike (some (.listed l)) t t' →
    Change (.names l v) t t'
  | parent {t t' : Node} {v : Value} : t.listed? .parents = none → Alike none t t' → Change (.names .parents v) t t'
  | visibility {t t' : Node} {v : Visibility} : t'.visibility? = some (.text v.keyword) →
    Alike (some .visibility) t t' → Change (.visibility (.text v.keyword)) t t'
  | unset {t t' : Node} :
    t'.visibility? = some (if t.shelf? = some .methods ∨ t.shelf? = some .constants then Value.null else "public") →
    Alike (some .visibility) t t' → Change (.visibility .null) t t'
  | type {t t' : Node} {v : Value} : t.backing? = none → Alike none t t' → Change (.type v) t t'
  | backing {t t' : Node} {v : Value} : t.backing?.isSome → t'.backing? = some v → Alike (some .backing) t t' →
    Change (.type v) t t'
  | use {t t' : Node} {name : String} {aliasName chosen : Value} : Name.relative name ≠ "" →
    Name.relative name ∉ t.uses.keys → t'.uses.entries = t.uses.entries ++ [(Name.relative name, chosen)] →
    Alike (some .uses) t t' → Change (.use (.text name) aliasName) t t'
  | used {t : Node} {name : String} {aliasName : Value} : Name.relative name = "" ∨ Name.relative name ∈ t.uses.keys →
    Change (.use (.text name) aliasName) t t

end Node

theorem Annotations.role_of_perform? {call : Call} {act : Act Annotations Reply} (h : perform? call = some act) :
    call.role = .own := by
  cases call <;> first | rfl | cases h

theorem Visibility.read_cases {k : Value} {v? : Option Visibility} (h : Visibility.read k = .ok v?) :
    (k = .null ∧ v? = none) ∨ ∃ v : Visibility, k = .text v.keyword ∧ v? = some v := by
  unfold Visibility.read at h
  split at h
  · exact .inl ⟨rfl, (Except.ok.inj h).symm⟩
  · split at h
    · rename_i v named
      cases h
      obtain ⟨s, text, known⟩ := Option.bind_eq_some_iff.1 named
      refine .inr ⟨v, ?_, rfl⟩
      cases k <;> cases text
      unfold ofKeyword? at known
      split at known <;> cases known <;> rfl
    · cases h

theorem Backing.eq_of_read {v : Value} {b : Option Backing} (h : Backing.read v = .ok b) :
    v = b.elim .null fun b => .text b.keyword := by
  unfold Backing.read at h
  split at h <;> cases h <;> rfl

theorem Value.exists_of_readNames {v : Value} {names : List Value} (h : v.readNames = .ok names) :
    ∃ items, v.items? = some items ∧ names = distinct items := by
  unfold Value.readNames at h
  split at h
  · rename_i vs items
    obtain ⟨keys, read, made⟩ := Except.bind_eq_ok.1 h
    cases made
    refine ⟨vs, items, congrArg distinct ?_⟩
    have same := (Except.forall₂_of_mapM read).imp fun _ _ hashed => (Value.eq_of_asKey hashed).symm
    rw [List.forall₂_eq_eq_eq] at same
    exact same.symm
  · cases h

section

open Node

variable {word : String} {call : Call} {r : Reply} {t t' : Node} {changed : Option Aspect} {s : Shelf} {name : Value}

theorem Node.change_of_read {k : Value} {v? : Option Visibility} (read : Visibility.read k = .ok v?)
    (shown : t'.visibility? = some (v?.elim
      (if t.shelf? = some .methods ∨ t.shelf? = some .constants then Value.null else "public") fun v => v.keyword))
    (alike : Alike (some .visibility) t t') : Change (.visibility k) t t' := by
  obtain ⟨rfl, rfl⟩ | ⟨v, rfl, rfl⟩ := Visibility.read_cases read
  · exact .unset shown alike
  · exact .visibility shown alike

theorem Node.change_of_insert {c : Node} (new : c.IsNew name) (other : s ≠ .namespaces)
    (inserted : t'.members s = (t.members s).insert name c) (alike : Alike (some (.members s)) t t') :
    Change (.member s name) t t' := by
  refine .member new (fun same => absurd same other) ?_ alike
  rw [inserted]
  exact Roster.placed_insert _ _ _

theorem Parameter.isNew (p : Parameter) : IsNew p.name (.parameter p) :=
  ⟨rfl, fun s => by cases s <;> rfl, fun l vs h => (by cases h), rfl⟩

namespace Method

variable {m m' : Method}

theorem alike (name : m'.name = m.name)
    (parameters : changed = some (.members .parameters) ∨ m'.parameters = m.parameters)
    (visibility : changed = some .visibility ∨ m'.visibility = m.visibility) :
    Alike changed (.method m) (.method m') := by
  refine ⟨rfl, name, fun a other => ?_⟩
  rcases a with (_ | _ | _ | _ | _ | _ | _) | _ | _ | _ | _ <;> try rfl
  · exact congrArg (Roster.map parameter) (parameters.resolve_left other)
  · show visibility? (.method m') = visibility? (.method m)
    rw [visibility?, visibility.resolve_left other, visibility?]

theorem isNew (name : Value) : IsNew name (.method { name }) :=
  ⟨rfl, fun s => by cases s <;> rfl, fun l vs h => (by cases h), rfl⟩

theorem change_of_addParameter {p : Parameter} (h : addParameter p m = .ok r m') :
    Change (.member .parameters p.name) (.method m) (.method m') := by
  cases Act.eq_ok_of_asKey h
  exact change_of_insert p.isNew (by simp) (Roster.map_insert _ _ _ _) (alike rfl (.inl rfl) (.inr rfl))

theorem change_of_perform (h : perform word call m = .ok r m') : Change call.role (.method m) (.method m') := by
  cases own : Annotations.perform? call with
  | some notes =>
    simp only [perform, own] at h
    obtain ⟨notes, -, rfl⟩ := Act.on_eq_ok.1 h
    rw [Annotations.role_of_perform? own]
    exact .own (alike rfl (.inr rfl) (.inr rfl))
  | none =>
    simp only [perform, own] at h
    cases call with
    | setVisibility keyword =>
      obtain ⟨v?, read, made⟩ := Act.ofExcept_bind_eq_ok.1 h
      cases made
      refine change_of_read read ?_ (alike rfl (.inr rfl) (.inl rfl))
      cases v? <;> rfl
    | markVisibility v =>
      cases h
      exact .visibility rfl (alike rfl (.inr rfl) (.inl rfl))
    | addParameter | addPromoted => exact change_of_addParameter h
    | parameters | setReturnType | setReturnNullable | setStatic | setFinal | setAbstract | setBody | addBody =>
      cases h
      exact .own (alike rfl (.inr rfl) (.inr rfl))
    | _ => cases h

end Method

namespace Parameter

variable {p p' : Parameter}

theorem alike (name : p'.name = p.name)
    (promotion : changed = some .visibility ∨
      p'.promotion.map Promotion.visibility = p.promotion.map Promotion.visibility) :
    Alike changed (.parameter p) (.parameter p') := by
  refine ⟨rfl, name, fun a other => ?_⟩
  rcases a with (_ | _ | _ | _ | _ | _ | _) | _ | _ | _ | _ <;> try rfl
  have same := congrArg (Option.map fun v : Visibility => Value.text v.keyword) (promotion.resolve_left other)
  rw [Option.map_map, Option.map_map] at same
  exact same

theorem change_of_performPromoted {q : Promotion} (promoted : p.promotion = some q)
    (h : performPromoted word q call p = .ok r p') : Change call.role (.parameter p) (.parameter p') := by
  cases call with
  | setVisibility keyword =>
    obtain ⟨v?, read, made⟩ := Act.ofExcept_bind_eq_ok.1 h
    cases made
    refine change_of_read read ?_ (alike rfl (.inl rfl))
    cases v? <;> rfl
  | markVisibility v =>
    cases h
    exact .visibility rfl (alike rfl (.inl rfl))
  | setReadonly on =>
    cases h
    refine .own (alike rfl (.inr ?_))
    rw [promoted]
    rfl
  | _ => cases h

theorem change_of_perform (h : perform word call p = .ok r p') :
    Change call.role (.parameter p) (.parameter p') := by
  cases own : Annotations.perform? call with
  | some notes =>
    simp only [perform, own] at h
    obtain ⟨notes, -, rfl⟩ := Act.on_eq_ok.1 h
    rw [Annotations.role_of_perform? own]
    exact .own (alike rfl (.inr rfl))
  | none =>
    simp only [perform, own] at h
    cases call with
    | setType type =>
      cases h
      exact .type rfl (alike rfl (.inr rfl))
    | setNullable | setVariadic | setByReference | setDefault =>
      cases h
      exact .own (alike rfl (.inr rfl))
    | _ =>
      obtain ⟨_, _, ⟨⟩, h⟩ := Act.bind_eq_ok.1 h
      cases promoted : p.promotion with
      | none =>
        simp only [promoted] at h
        cases h
      | some q =>
        simp only [promoted] at h
        exact change_of_performPromoted promoted h

end Parameter

namespace Property

variable {p p' : Property}

theorem alike (name : p'.name = p.name) (visibility : changed = some .visibility ∨ p'.visibility = p.visibility) :
    Alike changed (.property p) (.property p') := by
  refine ⟨rfl, name, fun a other => ?_⟩
  rcases a with (_ | _ | _ | _ | _ | _ | _) | _ | _ | _ | _ <;> try rfl
  show visibility? (.property p') = visibility? (.property p)
  rw [visibility?, visibility.resolve_left other, visibility?]

theorem isNew (p : Property) : IsNew p.name (.property p) :=
  ⟨rfl, fun s => by cases s <;> rfl, fun l vs h => (by cases h), rfl⟩

theorem change_of_perform (h : perform word call p = .ok r p') :
    Change call.role (.property p) (.property p') := by
  cases own : Annotations.perform? call with
  | some notes =>
    simp only [perform, own] at h
    obtain ⟨notes, -, rfl⟩ := Act.on_eq_ok.1 h
    rw [Annotations.role_of_perform? own]
    exact .own (alike rfl (.inr rfl))
  | none =>
    simp only [perform, own] at h
    cases call with
    | setVisibility keyword =>
      obtain ⟨v?, read, made⟩ := Act.ofExcept_bind_eq_ok.1 h
      cases made
      refine change_of_read read ?_ (alike rfl (.inl rfl))
      cases v? <;> rfl
    | markVisibility v =>
      cases h
      exact .visibility rfl (alike rfl (.inl rfl))
    | setType type =>
      cases h
      exact .type rfl (alike rfl (.inr rfl))
    | setNullable | setStatic | setReadonly | setValue =>
      cases h
      exact .own (alike rfl (.inr rfl))
    | _ => cases h

theorem eq_of_ofPair {v : Value} {x : Value × Property} (h : ofPair v = .ok x) : x.1 = x.2.name := by
  obtain ⟨name, -, made⟩ := Except.bind_eq_ok.1 h
  cases made
  rfl

end Property

namespace Constant

variable {c c' : Constant}

theorem alike (name : c'.name = c.name) (visibility : changed = some .visibility ∨ c'.visibility = c.visibility) :
    Alike changed (.constant c) (.constant c') := by
  refine ⟨rfl, name, fun a other => ?_⟩
  rcases a with (_ | _ | _ | _ | _ | _ | _) | _ | _ | _ | _ <;> try rfl
  show visibility? (.constant c') = visibility? (.constant c)
  rw [visibility?, visibility.resolve_left other, visibility?]

theorem isNew (c : Constant) : IsNew c.name (.constant c) :=
  ⟨rfl, fun s => by cases s <;> rfl, fun l vs h => (by cases h), rfl⟩

theorem change_of_perform (h : perform word call c = .ok r c') :
    Change call.role (.constant c) (.constant c') := by
  cases own : Annotations.perform? call with
  | some notes =>
    simp only [perform, own] at h
    obtain ⟨notes, -, rfl⟩ := Act.on_eq_ok.1 h
    rw [Annotations.role_of_perform? own]
    exact .own (alike rfl (.inr rfl))
  | none =>
    simp only [perform, own] at h
    cases call with
    | setVisibility keyword =>
      obtain ⟨v?, read, made⟩ := Act.ofExcept_bind_eq_ok.1 h
      cases made
      refine change_of_read read ?_ (alike rfl (.inl rfl))
      cases v? <;> rfl
    | markVisibility v =>
      cases h
      exact .visibility rfl (alike rfl (.inl rfl))
    | setFinal =>
      cases h
      exact .own (alike rfl (.inr rfl))
    | _ => cases h

end Constant

namespace EnumCase

variable {c c' : EnumCase}

theorem isNew (c : EnumCase) : IsNew c.name (.enumCase c) :=
  ⟨rfl, fun s => by cases s <;> rfl, fun l vs h => (by cases h), rfl⟩

theorem change_of_perform (h : perform word call c = .ok r c') :
    Change call.role (.enumCase c) (.enumCase c') := by
  cases own : Annotations.perform? call with
  | some notes =>
    simp only [perform, own] at h
    obtain ⟨notes, -, rfl⟩ := Act.on_eq_ok.1 h
    rw [Annotations.role_of_perform? own]
    refine .own ⟨rfl, rfl, fun a _ => ?_⟩
    rcases a with (_ | _ | _ | _ | _ | _ | _) | _ | _ | _ | _ <;> rfl
  | none =>
    simp only [perform, own] at h
    cases h

end EnumCase

namespace Element

variable {e e' : Element}

theorem alike (name : e'.name = e.name) (form : e'.form = e.form)
    (methods : changed = some (.members .methods) ∨ e'.methods = e.methods)
    (constants : changed = some (.members .constants) ∨ e'.constants = e.constants) :
    Alike changed (.element e) (.element e') := by
  refine ⟨rfl, name, fun a other => ?_⟩
  rcases a with (_ | _ | _ | _ | _ | _ | _) | _ | _ | _ | _ <;>
    simp only [Aspect.Agrees, members, listed?, uses, visibility?, backing?, form]
  · rw [methods.resolve_left other]
  · rw [constants.resolve_left other]

theorem alike_form (e : Element) {form : Form}
    (properties : changed = some (.members .properties) ∨ form.propertyTable? = e.form.propertyTable?)
    (cases : changed = some (.members .cases) ∨ form.caseTable? = e.form.caseTable?)
    (listed : ∀ l, changed = some (.listed l) ∨ (element { e with form }).listed? l = (element e).listed? l)
    (backing : changed = some .backing ∨ (element { e with form }).backing? = (element e).backing?) :
    Alike changed (.element e) (.element { e with form }) := by
  refine ⟨rfl, rfl, fun a other => ?_⟩
  rcases a with (_ | _ | _ | _ | _ | _ | _) | l | _ | _ | _ <;> try rfl
  · show Roster.map property (form.propertyTable?.getD {}) = _
    rw [properties.resolve_left other]
    rfl
  · show Roster.map enumCase (form.caseTable?.getD {}) = _
    rw [cases.resolve_left other]
    rfl
  · exact (listed l).resolve_left other
  · exact backing.resolve_left other

theorem isNew (kind : Kind) (name : Value) : IsNew name (.element (.bare kind name)) := by
  refine ⟨rfl, fun s => ?_, fun l vs h => ?_, rfl⟩
  · cases kind <;> cases s <;> rfl
  · cases kind <;> cases l <;> cases h <;> rfl

theorem change_of_form {form : Form} {act : Act Form Reply} (known : e.form.perform? call = some act)
    (h : act e.form = .ok r form) : Change call.role (.element e) (.element { e with form }) := by
  obtain ⟨name, notes, constants, methods, old⟩ := e
  unfold Form.perform? at known
  dsimp only at known
  split at known <;> cases known
  case h_1 | h_2 | h_3 | h_6 | h_7 | h_8 =>
    cases h
    refine .name rfl rfl (alike_form _ (.inr rfl) (.inr rfl) (fun l => ?_) (.inr rfl))
    cases l <;> first | exact .inl rfl | exact .inr rfl
  case h_5 | h_9 =>
    obtain ⟨names, read, made⟩ := Act.ofExcept_bind_eq_ok.1 h
    cases made
    obtain ⟨items, given, rfl⟩ := Value.exists_of_readNames read
    refine .names rfl given (Value.firsts_distinct items) rfl
      (alike_form _ (.inr rfl) (.inr rfl) (fun l => ?_) (.inr rfl))
    cases l <;> first | exact .inl rfl | exact .inr rfl
  case h_4 =>
    cases h
    exact .parent rfl (alike_form _ (.inr rfl) (.inr rfl) (fun l => .inr (by cases l <;> rfl)) (.inr rfl))
  case h_13 =>
    obtain ⟨b, read, made⟩ := Act.ofExcept_bind_eq_ok.1 h
    cases made
    obtain rfl := Backing.eq_of_read read
    exact .backing rfl rfl (alike_form _ (.inr rfl) (.inr rfl) (fun l => .inr (by cases l <;> rfl)) (.inl rfl))
  all_goals
    cases h
    exact .own (alike_form _ (.inr rfl) (.inr rfl) (fun l => .inr (by cases l <;> rfl)) (.inr rfl))

theorem listed?_withProperties (e : Element) (ps : Roster Property) (l : Listing) :
    (element { e with form := e.form.withProperties ps }).listed? l = (element e).listed? l := by
  obtain ⟨name, notes, constants, methods, form⟩ := e
  cases form <;> cases l <;> rfl

theorem alike_withProperties (e : Element) (ps : Roster Property) :
    Alike (some (.members .properties)) (.element e) (.element { e with form := e.form.withProperties ps }) := by
  refine alike_form e (.inl rfl) (.inr ?_) (fun l => .inr (e.listed?_withProperties ps l)) (.inr ?_)
  all_goals
    obtain ⟨name, notes, constants, methods, form⟩ := e
    cases form <;> rfl

theorem alike_withCases (e : Element) (cs : Roster EnumCase) :
    Alike (some (.members .cases)) (.element e) (.element { e with form := e.form.withCases cs }) := by
  refine alike_form e (.inr ?_) (.inl rfl) (fun l => .inr ?_) (.inr ?_)
  all_goals
    obtain ⟨name, notes, constants, methods, form⟩ := e
    first | (cases l; all_goals cases form <;> rfl) | (cases form <;> rfl)

theorem members_withProperties {ps qs : Roster Property} (has : e.form.propertyTable? = some qs) :
    (element { e with form := e.form.withProperties ps }).members .properties = ps.map property := by
  obtain ⟨name, notes, constants, methods, form⟩ := e
  cases form <;> first | rfl | cases has

theorem members_withCases {cs ds : Roster EnumCase} (has : e.form.caseTable? = some ds) :
    (element { e with form := e.form.withCases cs }).members .cases = cs.map enumCase := by
  obtain ⟨name, notes, constants, methods, form⟩ := e
  cases form <;> first | rfl | cases has

theorem change_of_setProperties {pairs : Value} (h : performOnParts word (.setProperties pairs) e = .ok r e') :
    Change (Call.setProperties pairs).role (.element e) (.element e') := by
  obtain ⟨ps, table, rest⟩ := Act.ofExcept_bind_eq_ok.1 h
  cases items : pairs.items? with
  | some vs =>
    simp only [items] at rest
    obtain ⟨ps', listed, same⟩ := Act.ofExcept_bind_eq_ok.1 rest
    cases same
    obtain ⟨made, read, same⟩ := Except.bind_eq_ok.1 listed
    cases same
    have has := propertyTable?_of_propertyTable table
    have each : ∀ x ∈ made, x.1 = x.2.name :=
      Except.forall_of_forall₂ (fun v _ one => Property.eq_of_ofPair (v := v) one) (Except.forall₂_of_mapM read)
    refine .properties (?_ : ∀ c ∈ made.map fun x => property x.2, c.IsNew c.name) ?_ (e.alike_withProperties _)
    · intro c hc
      obtain ⟨x, -, rfl⟩ := List.mem_map.1 hc
      exact x.2.isNew
    · rw [members_withProperties has, Roster.map_ofList, List.map_map]
      refine congrArg Roster.ofList (List.map_congr_left fun x hx => ?_)
      rw [each x hx]
      rfl
  | none =>
    simp only [items] at rest
    cases rest

theorem change_of_performOnParts (h : performOnParts word call e = .ok r e') :
    Change call.role (.element e) (.element e') := by
  cases call with
  | addMethod name =>
    cases Act.eq_ok_of_asKey h
    exact change_of_insert (Method.isNew name) (by simp) (Roster.map_insert _ _ _ _)
      (alike rfl rfl (.inl rfl) (.inr rfl))
  | addConstant name value =>
    cases Act.eq_ok_of_asKey h
    exact change_of_insert (Constant.isNew { name, value }) (by simp) (Roster.map_insert _ _ _ _)
      (alike rfl rfl (.inr rfl) (.inl rfl))
  | addProperty name value =>
    obtain ⟨ps, table, rest⟩ := Act.ofExcept_bind_eq_ok.1 h
    cases Act.eq_ok_of_asKey rest
    have has := propertyTable?_of_propertyTable table
    refine change_of_insert (Property.isNew { name, value }) (by simp) ?_ (e.alike_withProperties _)
    rw [members_withProperties has, Roster.map_insert, members, has]
    rfl
  | addCase name value =>
    obtain ⟨cs, table, rest⟩ := Act.ofExcept_bind_eq_ok.1 h
    cases Act.eq_ok_of_asKey rest
    have has := caseTable?_of_caseTable table
    refine change_of_insert (EnumCase.isNew { name, value }) (by simp) ?_ (e.alike_withCases _)
    rw [members_withCases has, Roster.map_insert, members, has]
    rfl
  | setProperties => exact change_of_setProperties h
  | methods | properties | parents | interfaces | traits =>
    cases h
    exact .own (alike rfl rfl (.inr rfl) (.inr rfl))
  | method | hasMethod | cases =>
    obtain ⟨x, -, made⟩ := Act.ofExcept_bind_eq_ok.1 h
    cases made
    exact .own (alike rfl rfl (.inr rfl) (.inr rfl))
  | property =>
    obtain ⟨ps, -, rest⟩ := Act.ofExcept_bind_eq_ok.1 h
    obtain ⟨x, -, made⟩ := Act.ofExcept_bind_eq_ok.1 rest
    cases made
    exact .own (alike rfl rfl (.inr rfl) (.inr rfl))
  | _ => cases h

theorem change_of_perform (h : perform word call e = .ok r e') : Change call.role (.element e) (.element e') := by
  obtain ⟨_, _, ⟨⟩, h⟩ := Act.bind_eq_ok.1 h
  cases own : Annotations.perform? call with
  | some notes =>
    simp only [own] at h
    obtain ⟨notes, -, rfl⟩ := Act.on_eq_ok.1 h
    rw [Annotations.role_of_perform? own]
    exact .own (alike rfl rfl (.inr rfl) (.inr rfl))
  | none =>
    cases known : e.form.perform? call with
    | some act =>
      simp only [own, known] at h
      obtain ⟨form, made, rfl⟩ := Act.on_eq_ok.1 h
      exact change_of_form known made
    | none =>
      simp only [own, known] at h
      exact change_of_performOnParts h

end Element

namespace Namespace

variable {ns ns' : Namespace}

theorem alike (name : ns'.name = ns.name) (elements : changed = some (.members .elements) ∨ ns'.elements = ns.elements)
    (uses : changed = some .uses ∨ ns'.uses = ns.uses) : Alike changed (.scope ns) (.scope ns') := by
  refine ⟨rfl, name, fun a other => ?_⟩
  rcases a with (_ | _ | _ | _ | _ | _ | _) | _ | _ | _ | _ <;> try rfl
  · exact congrArg (Roster.map element) (elements.resolve_left other)
  · exact uses.resolve_left other

theorem eq_text_of_checkUse {name aliasName : Value} {s : String} (h : ns.checkUse name aliasName = .ok s) :
    name = .text s := by
  unfold checkUse at h
  split at h
  · dsimp only at h
    split at h
    · cases h
      rfl
    · obtain ⟨_, -, made⟩ := Except.bind_eq_ok.1 h
      cases made
      rfl
  · cases h
  · cases h

theorem change_of_addUse (ns : Namespace) (name : String) (aliasName : Value) :
    Change (.use (.text name) aliasName) (.scope ns) (.scope (ns.addUse name aliasName)) := by
  by_cases known : ((Name.relative name).isEmpty || ns.uses.contains (Name.relative name)) = true
  · have same : ns.addUse name aliasName = ns := by simp only [addUse, known, if_true]
    rw [same]
    exact .used (by simpa [Table.contains, Node.uses] using known)
  · obtain ⟨filled, new⟩ : Name.relative name ≠ "" ∧ Name.relative name ∉ ns.uses.keys := by
      simpa [Table.contains] using known
    have grown : ∃ chosen, ns.addUse name aliasName = { ns with uses := ns.uses.insert (Name.relative name) chosen } :=
      ⟨_, by simp only [addUse, known, if_false, Bool.false_eq_true]; rfl⟩
    obtain ⟨chosen, grown⟩ := grown
    rw [grown]
    exact .use filled new (Table.entries_insert_of_not_mem new _) (alike rfl (.inr rfl) (.inl rfl))

theorem change_of_perform (h : perform word call ns = .ok r ns') : Change call.role (.scope ns) (.scope ns') := by
  cases call with
  | addUse name aliasName =>
    obtain ⟨s, checked, made⟩ := Act.ofExcept_bind_eq_ok.1 h
    cases made
    obtain rfl := eq_text_of_checkUse checked
    exact ns.change_of_addUse s aliasName
  | addElement kind name =>
    obtain ⟨k, read, rest⟩ := Act.ofExcept_bind_eq_ok.1 h
    cases Act.eq_ok_of_asKey rest
    exact change_of_insert (Element.isNew k name) (by simp) (Roster.map_insert _ _ _ _)
      (alike rfl (.inl rfl) (.inr rfl))
  | uses | elements | qualify =>
    cases h
    exact .own (alike rfl (.inr rfl) (.inr rfl))
  | _ => cases h

end Namespace

namespace SourceFile

variable {f f' : SourceFile}

theorem alike (namespaces : changed = some (.members .namespaces) ∨ f'.namespaces = f.namespaces) :
    Alike changed (.file f) (.file f') := by
  refine ⟨rfl, rfl, fun a other => ?_⟩
  rcases a with (_ | _ | _ | _ | _ | _ | _) | _ | _ | _ | _ <;> try rfl
  exact congrArg (Roster.map scope) (namespaces.resolve_left other)

theorem change_of_addNamespace (f : SourceFile) (name : Value) :
    Change (.member .namespaces name) (.file f) (.file (f.addNamespace name)) := by
  unfold addNamespace
  split
  · rename_i there
    exact .there (by simpa [members] using there)
  · rename_i new
    refine .member (c := .scope { name }) ⟨rfl, fun s => by cases s <;> rfl, fun l vs h => (by cases h), rfl⟩
      (fun _ => by simpa [members] using new) ?_ (alike (.inl rfl))
    simpa [members] using Roster.placed_insert _ _ _

theorem change_of_perform (h : perform word call f = .ok r f') : Change call.role (.file f) (.file f') := by
  cases call with
  | addNamespace name =>
    cases Act.eq_ok_of_asKey h
    exact f.change_of_addNamespace name
  | setStrictTypes | addComment | namespaces =>
    cases h
    exact .own (alike (.inr rfl))
  | primaryElement scope =>
    obtain ⟨_, _, ⟨⟩, h⟩ := Act.bind_eq_ok.1 h
    obtain ⟨key, -, found⟩ := Act.ofExcept_bind_eq_ok.1 h
    cases there : f.primaryElement key with
    | none | some =>
      simp only [there] at found
      cases found
      exact .own (alike (.inr rfl))
  | _ => cases h

end SourceFile

theorem Node.change_of_perform (h : perform word call t = .ok r t') : Change call.role t t' := by
  cases t with
  | _ =>
    obtain ⟨_, performed, rfl⟩ := Act.on_eq_ok.1 h
    first
    | exact SourceFile.change_of_perform performed
    | exact Namespace.change_of_perform performed
    | exact Element.change_of_perform performed
    | exact Method.change_of_perform performed
    | exact Property.change_of_perform performed
    | exact Constant.change_of_perform performed
    | exact EnumCase.change_of_perform performed
    | exact Parameter.change_of_perform performed

end

end PhpScaffold
