import PhpScaffold.Blueprint
import PhpScaffold.Proofs.Except

namespace PhpScaffold

namespace Element

def rename (e : Element) (v : Value) : Element := { e with name := v }

def anonymous (e : Element) : Element := e.rename .null

variable {e : Element} {v w : Value}

@[simp] theorem rename_rename : (e.rename v).rename w = e.rename w := rfl

@[simp] theorem rename_name : e.rename e.name = e := rfl

@[simp] theorem harvest_rename : (e.rename v).harvest = e.harvest := rfl

theorem harvest_eq_of_anonymous {d : Element} (h : d.anonymous = e.anonymous) : d.harvest = e.harvest := by
  rw [← harvest_rename (e := d) (v := .null), ← harvest_rename (e := e) (v := .null)]
  exact congrArg harvest h

end Element

/-- An outcome and the element that a file declares for it.  The element that was given stays as it is, whatever its
name; another one is named after the blueprint, once the first is taken out under the name that it was left with. -/
inductive Outcome.Declares (short : String) : Outcome → Element → Prop
  | given (e : Element) : Declares short (.given e) e
  | another (e : Element) {left : Value} (key : left.unhashable? = none) :
    Declares short (.another e left) (e.rename (.text short))

theorem Outcome.Declares.exists_element {short : String} {o : Outcome} {e : Element} (h : o.Declares short e) :
    ∃ d, o.element? = some d ∧ d.anonymous = e.anonymous := by
  cases h with
  | given => exact ⟨e, rfl, rfl⟩
  | another d => exact ⟨d, rfl, rfl⟩

namespace Namespace

theorem addUse_elements (ns : Namespace) (name : String) (v : Value) :
    (ns.addUse name v).elements = ns.elements := by
  simp only [addUse]
  split <;> rfl

theorem addUses_elements (ns : Namespace) (names : List String) :
    (names.foldl (fun ns name => ns.addUse name .null) ns).elements = ns.elements := by
  induction names generalizing ns with
  | nil => rfl
  | cons name r ih => rw [List.foldl_cons, ih, addUse_elements]

end Namespace

namespace Blueprint

variable {b : Blueprint} {strictTypes : Bool} {f : SourceFile} {e old : Element} {o : Outcome}

theorem accept_eq_ok : b.accept o = .ok e ↔ o.element? = some e ∧ e.kind = b.kind := by
  unfold accept
  cases o.element? with
  | none => simp
  | some d =>
    by_cases kind : d.kind = b.kind
    · simp [kind]
      rintro rfl
      exact kind
    · simp [kind]
      rintro rfl
      exact kind

theorem accept_eq_error (h : ∀ e, o.element? = some e → e.kind ≠ b.kind) :
    b.accept o = .error (.wrongElement b.name b.kind.typeName o.typeName) := by
  cases o with
  | other t => rfl
  | given d | another d =>
    rw [accept]
    exact if_neg (h d rfl)

theorem asKey_eq_ok {v w : Value} : v.asKey = .ok w ↔ v.unhashable? = none ∧ w = v := by
  unfold Value.asKey
  cases v.unhashable? <;> simp [eq_comm]

theorem settle_eq_ok {es : Roster Element} : b.settle ⟨[(.text b.short, old)]⟩ o = .ok es ↔
    ∃ e, o.Declares b.short e ∧ e.kind = b.kind ∧ es = ⟨[(.text b.short, e)]⟩ := by
  have here (e : Element) : (⟨[(.text b.short, old)]⟩ : Roster Element).insert b.short e = ⟨[(.text b.short, e)]⟩ := by
    simp [Roster.insert, Value.insertEntry]
  have there (left : Value) (e : Element) :
      ((⟨[(.text b.short, old)]⟩ : Roster Element).erase left).insert b.short e = ⟨[(.text b.short, e)]⟩ := by
    by_cases same : Value.same b.short left <;> simp [Roster.erase, Roster.insert, Value.insertEntry, same]
  constructor
  · intro h
    obtain ⟨e, taken, settled⟩ := Except.bind_eq_ok.1 h
    obtain ⟨answered, kind⟩ := accept_eq_ok.1 taken
    cases o with
    | given d =>
      cases answered
      cases settled
      exact ⟨e, .given e, kind, here e⟩
    | another d left =>
      cases answered
      obtain ⟨key, hashed, made⟩ := Except.bind_eq_ok.1 settled
      obtain ⟨hashable, rfl⟩ := asKey_eq_ok.1 hashed
      cases made
      exact ⟨e.rename (.text b.short), .another e hashable, kind, there key _⟩
    | other t => cases answered
  · rintro ⟨e, declares, kind, rfl⟩
    cases declares with
    | given =>
      refine Except.bind_eq_ok.2 ⟨e, accept_eq_ok.2 ⟨rfl, kind⟩, congrArg Except.ok (here e)⟩
    | another d hashable =>
      refine Except.bind_eq_ok.2 ⟨d, accept_eq_ok.2 ⟨rfl, kind⟩, ?_⟩
      refine Except.bind_eq_ok.2 ⟨_, asKey_eq_ok.2 ⟨hashable, rfl⟩, congrArg Except.ok (there _ _)⟩

section

variable (b strictTypes)

def fileOf (e : Element) : SourceFile :=
  { b.draft strictTypes with
    namespaces := ⟨[(.text b.scope, { b.declaring with elements := ⟨[(.text b.short, e)]⟩ })]⟩ }

theorem declaring_elements : b.declaring.elements = ⟨[(.text b.short, .bare b.kind b.short)]⟩ :=
  Namespace.addUses_elements _ _

theorem draft_eq : b.draft strictTypes = b.fileOf strictTypes (.bare b.kind b.short) := by
  rw [fileOf, ← declaring_elements]
  rfl

theorem place_draft (o : Outcome) : b.place (b.draft strictTypes) o =
    (b.settle ⟨[(.text b.short, .bare b.kind b.short)]⟩ o).map fun es =>
      { b.draft strictTypes with namespaces := ⟨[(.text b.scope, { b.declaring with elements := es })]⟩ } := by
  rw [← declaring_elements]
  simp [place, draft, Roster.ofList, Roster.get?, Roster.insert, Value.lookup, Value.insertEntry]
  cases b.settle b.declaring.elements o <;> rfl

end

def Makes (b : Blueprint) (e : Element) : Prop :=
  (b.recipe = none ∧ e = .bare b.kind b.short) ∨
    ∃ r o, b.recipe = some r ∧ r.answer r.seen (.bare b.kind b.short) = .ok o ∧ o.Declares b.short e ∧ e.kind = b.kind

def Returns (b : Blueprint) (e : Element) : Prop :=
  ∃ r, b.recipe = some r ∧ r.answer r.seen (.bare b.kind b.short) = .ok (.given e)

theorem Makes.named (h : b.Makes e) : e.name = .text b.short ∨ b.Returns e := by
  obtain ⟨-, rfl⟩ | ⟨r, o, recipe, answered, declares, -⟩ := h
  · exact .inl rfl
  · cases declares with
    | given => exact .inr ⟨r, recipe, answered⟩
    | another => exact .inl rfl

theorem Makes.kind (h : b.Makes e) : e.kind = b.kind := by
  obtain ⟨-, rfl⟩ | ⟨-, -, -, -, -, kind⟩ := h
  · exact Element.kind_bare _ _
  · exact kind

theorem build_eq_ok : (b.build strictTypes).2 = .ok f ↔ ∃ e, b.Makes e ∧ f = b.fileOf strictTypes e := by
  unfold build Makes
  cases recipe : b.recipe with
  | none => simp [draft_eq, eq_comm]
  | some r =>
    simp only [Recipe.call, place_draft, Except.bind_eq_ok, Except.map_eq_ok, settle_eq_ok]
    constructor
    · rintro ⟨o, answered, _, ⟨e, declares, kind, rfl⟩, rfl⟩
      exact ⟨e, .inr ⟨r, o, rfl, answered, declares, kind⟩, rfl⟩
    · rintro ⟨e, ⟨none, -⟩ | ⟨_, o, ⟨⟩, answered, declares, kind⟩, rfl⟩
      · cases none
      · exact ⟨o, answered, _, ⟨e, declares, kind, rfl⟩, rfl⟩

theorem build_eq_error {r : Recipe} (recipe : b.recipe = some r)
    (answered : r.answer r.seen (.bare b.kind b.short) = .ok o) (h : ∀ e, o.element? = some e → e.kind ≠ b.kind) :
    (b.build strictTypes).2 = .error (.wrongElement b.name b.kind.typeName o.typeName) := by
  unfold build
  rw [recipe]
  simp only [Recipe.call, answered, Except.ok_bind, place_draft, settle, accept_eq_error h, Except.error_bind]
  rfl

end Blueprint

end PhpScaffold
